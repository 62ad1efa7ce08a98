import Mathlib.Algebra.GroupWithZero.Nat
import SimpleCdn.Store.SecurityEvents

/-!
# The text of a batch

`json.Marshal` escapes quotation marks, backslashes and control characters, and also `<`, `>`, `&`
and the two separators U+2028 and U+2029.  The control plane reads no more than `maxRequestBody`
bytes of a request, so a longer batch does not decode.
-/

namespace SimpleCdn.Uploading

def maxRequestBody : Nat := 1048576

/-- The bytes of a text. -/
def bytes (text : List Char) : Nat :=
  (text.map Char.utf8Size).sum

def hexDigit (n : Nat) : Char :=
  if n < 10 then Char.ofNat (48 + n) else Char.ofNat (87 + n)

/-- `\u` with four digits. -/
def escapeUnicode (n : Nat) : List Char :=
  ['\\', 'u', hexDigit (n / 4096 % 16), hexDigit (n / 256 % 16), hexDigit (n / 16 % 16),
    hexDigit (n % 16)]

def jsonChar (c : Char) : List Char :=
  let n := c.toNat
  if n = 0x22 ∨ n = 0x5C then ['\\', c]
  else if n = 8 then ['\\', 'b']
  else if n = 9 then ['\\', 't']
  else if n = 10 then ['\\', 'n']
  else if n = 12 then ['\\', 'f']
  else if n = 13 then ['\\', 'r']
  else if n < 0x20 ∨ n = 0x3C ∨ n = 0x3E ∨ n = 0x26 ∨ n = 0x2028 ∨ n = 0x2029 then escapeUnicode n
  else [c]

def jsonString (s : String) : List Char :=
  '"' :: s.toList.flatMap jsonChar ++ ['"']

def jsonField (name : String) (value : List Char) : List Char :=
  jsonString name ++ ':' :: value

/-- A field with `omitempty`. -/
def optionalField (name value : String) : List (List Char) :=
  if value = "" then [] else [jsonField name (jsonString value)]

def actionText : SecurityPolicyAction → String
  | .block => "block"
  | .ban => "ban"

/-- The fields of an event; the time of its creation is the zero time. -/
def eventFields (event : SecurityEvent) : List (List Char) :=
  optionalField "id" event.id ++
    [jsonField "policy_id" (jsonString event.policyID),
      jsonField "client_ip" (jsonString event.clientIP)] ++
    optionalField "host" event.host ++
    [jsonField "path" (jsonString event.path)] ++
    optionalField "method" event.method ++
    [jsonField "action" (jsonString (actionText event.action))] ++
    (if event.banDurationSeconds = 0 then []
      else [jsonField "ban_duration_seconds" (toString event.banDurationSeconds).toList]) ++
    [jsonField "observed_at" (jsonString event.observedAtText),
      jsonField "created_at" (jsonString "0001-01-01T00:00:00Z")]

def jsonObject (fields : List (List Char)) : List Char :=
  '{' :: (fields.intersperse [',']).flatten ++ ['}']

def jsonEvent (event : SecurityEvent) : List Char :=
  jsonObject (eventFields event)

/-- `json.Marshal` of an `EdgeSecurityEventBatch`. -/
def jsonBatch (events : List SecurityEvent) : List Char :=
  jsonObject
    [jsonField "events" ('[' :: ((events.map jsonEvent).intersperse [',']).flatten ++ [']'])]

/-! ### Sizes -/

theorem bytes_append (a b : List Char) : bytes (a ++ b) = bytes a + bytes b := by
  simp [bytes]

theorem bytes_cons (c : Char) (text : List Char) : bytes (c :: text) = c.utf8Size + bytes text := by
  simp [bytes]

theorem bytes_le_intersperse {parts : List (List Char)} {part : List Char} (h : part ∈ parts) :
    bytes part ≤ bytes ((parts.intersperse [',']).flatten) := by
  induction parts with
  | nil => cases h
  | cons first rest ih =>
    cases rest with
    | nil =>
      obtain rfl := List.mem_singleton.mp h
      simp
    | cons second rest =>
      rw [List.intersperse_cons_cons, List.flatten_cons, List.flatten_cons, bytes_append, bytes_append]
      rcases List.mem_cons.mp h with rfl | h
      · omega
      · have hrest := ih h
        omega

/-- A batch is at least as long as the texts of its events. -/
theorem length_mul_le_intersperse {parts : List (List Char)} {n : Nat}
    (h : ∀ part ∈ parts, n ≤ bytes part) :
    parts.length * n ≤ bytes ((parts.intersperse [',']).flatten) := by
  induction parts with
  | nil => simp
  | cons first rest ih =>
    cases rest with
    | nil => simpa using h first (List.mem_singleton_self first)
    | cons second rest =>
      have hfirst := h first List.mem_cons_self
      have hrest := ih fun part hpart => h part (List.mem_cons_of_mem _ hpart)
      rw [List.intersperse_cons_cons, List.flatten_cons, List.flatten_cons, bytes_append, bytes_append,
        List.length_cons, Nat.succ_mul]
      omega

theorem bytes_object_of_mem {fields : List (List Char)} {field : List Char} (h : field ∈ fields) :
    bytes field ≤ bytes (jsonObject fields) := by
  have hfield := bytes_le_intersperse h
  rw [jsonObject, List.cons_append, bytes_cons, bytes_append]
  omega

theorem bytes_le_field (name : String) (value : List Char) :
    bytes value ≤ bytes (jsonField name value) := by
  rw [jsonField, bytes_append, bytes_cons]
  omega

theorem bytes_le_string (s : String) :
    bytes (s.toList.flatMap jsonChar) ≤ bytes (jsonString s) := by
  rw [jsonString, List.cons_append, bytes_cons, bytes_append]
  omega

theorem bytes_path_le (event : SecurityEvent) :
    bytes (event.path.toList.flatMap jsonChar) ≤ bytes (jsonEvent event) := by
  have hmem : jsonField "path" (jsonString event.path) ∈ eventFields event := by
    simp [eventFields]
  calc bytes (event.path.toList.flatMap jsonChar)
    _ ≤ bytes (jsonString event.path) := bytes_le_string event.path
    _ ≤ bytes (jsonField "path" (jsonString event.path)) := bytes_le_field _ _
    _ ≤ bytes (jsonEvent event) := bytes_object_of_mem hmem

theorem length_mul_le_batch {events : List SecurityEvent} {n : Nat}
    (h : ∀ event ∈ events, n ≤ bytes (event.path.toList.flatMap jsonChar)) :
    events.length * n ≤ bytes (jsonBatch events) := by
  have hevents : (events.map jsonEvent).length * n ≤
      bytes (((events.map jsonEvent).intersperse [',']).flatten) := by
    refine length_mul_le_intersperse fun part hpart => ?_
    obtain ⟨event, hevent, rfl⟩ := List.mem_map.mp hpart
    exact (h event hevent).trans (bytes_path_le event)
  rw [List.length_map] at hevents
  have harray : bytes (((events.map jsonEvent).intersperse [',']).flatten) ≤
      bytes ('[' :: ((events.map jsonEvent).intersperse [',']).flatten ++ [']']) := by
    rw [List.cons_append, bytes_cons, bytes_append]
    omega
  calc events.length * n
    _ ≤ _ := hevents
    _ ≤ _ := harray
    _ ≤ _ := bytes_le_field "events" _
    _ ≤ bytes (jsonBatch events) := bytes_object_of_mem (List.mem_singleton_self _)

end SimpleCdn.Uploading
