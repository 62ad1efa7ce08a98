import Mathlib.Tactic.IntervalCases
import SimpleCdn.Lib.Lines
import SimpleCdn.Lib.Text
import SimpleCdn.Uploading.Encoding

/-!
# Lines of the access log

nginx writes one JSON object a line.  The edge decodes a line into an event and writes the event as
a line of its own to its queue.  What `encoding/json` and `time` make of a text is left to the
packages; what `json.Marshal` writes for an event is spelled out, because its length matters.
-/

namespace SimpleCdn.AccessLog

open Uploading (jsonString jsonField jsonObject jsonChar escapeUnicode hexDigit)

abbrev Bytes := List UInt8

def newline : UInt8 := 0x0A

/-- `nginxLog` -/
structure NginxLog where
  requestID : String
  timestamp : String
  siteID : String
  clientIP : String
  host : String
  scheme : String
  protocol : String
  method : String
  path : String
  status : Int
  requestBytes : Int
  bytes : Int
  durationSeconds : String
  upstream : String
  upstreamStatus : String
  upstreamResponseTime : String
  cacheStatus : String
  userAgent : String
  referer : String
  contentType : String
  responseContentType : String
  accept : String
  range : String
  deriving DecidableEq, Repr, Inhabited

/-- `domain.AccessLogEvent` -/
structure AccessLogEvent (Time : Type) where
  id : String
  timestamp : Time
  nodeID : String
  siteID : String
  clientIP : String
  host : String
  scheme : String
  protocol : String
  method : String
  path : String
  status : Int
  requestBytes : Int
  bytes : Int
  durationMS : Int
  upstream : String
  upstreamStatus : String
  upstreamResponseTime : String
  cacheStatus : String
  userAgent : String
  referer : String
  contentType : String
  responseContentType : String
  accept : String
  range : String
  deriving DecidableEq, Repr, Inhabited

/-- What the forwarder uses of Go's packages. -/
structure LogPackages (Time : Type) where
  /-- `json.Decoder.Decode` into a `nginxLog`, which reads the first value of the line. -/
  decodeJSON : Bytes → Option NginxLog
  /-- `time.Parse(time.RFC3339, …)` -/
  parseTime : String → Option Time
  /-- `time.Time.MarshalJSON`, which refuses the offsets and years that RFC 3339 does not have. -/
  timeText : Time → Option String
  /-- The milliseconds of a `json.Number` of seconds. -/
  milliseconds : String → Int
  /-- `json.Unmarshal` into an `AccessLogEvent`. -/
  unmarshal : Bytes → Option (AccessLogEvent Time)

section

variable {Time : Type} (packages : LogPackages Time)

/-- `decodeNginxLog`, with the identifier that `uuid.NewString` makes. -/
def decodeNginxLog (uuid : String) (line : Bytes) : Option (AccessLogEvent Time) := do
  let raw ← packages.decodeJSON line
  let timestamp ← packages.parseTime raw.timestamp
  let requestID := Text.trimSpace raw.requestID
  return {
    id := if requestID = "" then uuid else requestID
    timestamp := timestamp
    nodeID := ""
    siteID := raw.siteID
    clientIP := raw.clientIP
    host := raw.host
    scheme := raw.scheme
    protocol := raw.protocol
    method := raw.method
    path := String.ofList (raw.path.toList.takeWhile (· ≠ '?'))
    status := raw.status
    requestBytes := raw.requestBytes
    bytes := raw.bytes
    durationMS := packages.milliseconds raw.durationSeconds
    upstream := raw.upstream
    upstreamStatus := raw.upstreamStatus
    upstreamResponseTime := raw.upstreamResponseTime
    cacheStatus := raw.cacheStatus
    userAgent := raw.userAgent
    referer := raw.referer
    contentType := raw.contentType
    responseContentType := raw.responseContentType
    accept := raw.accept
    range := raw.range }

/-- Whether a line is decoded does not depend on the identifier made for it. -/
theorem isSome_decodeNginxLog (uuid uuid' : String) (line : Bytes) :
    (decodeNginxLog packages uuid line).isSome = (decodeNginxLog packages uuid' line).isSome := by
  rw [decodeNginxLog, decodeNginxLog]
  cases packages.decodeJSON line with
  | none => rfl
  | some raw =>
    cases hparse : packages.parseTime raw.timestamp with
    | none => simp [hparse]
    | some time => simp [hparse]

/-! ### The text of an event -/

def utf8 (text : List Char) : Bytes := text.flatMap String.utf8EncodeChar

def jsonInt (n : Int) : List Char := (toString n).toList

def jsonAccessLogEvent (timeText : String) (event : AccessLogEvent Time) : List Char :=
  jsonObject
    [jsonField "id" (jsonString event.id),
      jsonField "timestamp" (jsonString timeText),
      jsonField "node_id" (jsonString event.nodeID),
      jsonField "site_id" (jsonString event.siteID),
      jsonField "client_ip" (jsonString event.clientIP),
      jsonField "host" (jsonString event.host),
      jsonField "scheme" (jsonString event.scheme),
      jsonField "protocol" (jsonString event.protocol),
      jsonField "method" (jsonString event.method),
      jsonField "path" (jsonString event.path),
      jsonField "status" (jsonInt event.status),
      jsonField "request_bytes" (jsonInt event.requestBytes),
      jsonField "bytes" (jsonInt event.bytes),
      jsonField "duration_ms" (jsonInt event.durationMS),
      jsonField "upstream" (jsonString event.upstream),
      jsonField "upstream_status" (jsonString event.upstreamStatus),
      jsonField "upstream_response_time" (jsonString event.upstreamResponseTime),
      jsonField "cache_status" (jsonString event.cacheStatus),
      jsonField "user_agent" (jsonString event.userAgent),
      jsonField "referer" (jsonString event.referer),
      jsonField "content_type" (jsonString event.contentType),
      jsonField "response_content_type" (jsonString event.responseContentType),
      jsonField "accept" (jsonString event.accept),
      jsonField "range" (jsonString event.range)]

/-- `json.Marshal` of an event. -/
def marshal (event : AccessLogEvent Time) : Option Bytes :=
  (packages.timeText event.timestamp).map fun timeText => utf8 (jsonAccessLogEvent timeText event)

/-- `json.Marshal` of a batch. -/
def marshalBatch (events : List (AccessLogEvent Time)) : Option Bytes := do
  let texts ← events.mapM (marshal packages)
  return 0x5B :: (texts.intersperse [0x2C]).flatten ++ [0x5D]

/-- The text of an event that a line was decoded to. -/
def Recorded (event : AccessLogEvent Time) (text : Bytes) : Prop :=
  (∃ uuid line, decodeNginxLog packages uuid line = some event) ∧ marshal packages event = some text

/-- What the queue relies on: a text that `json.Marshal` wrote is read back, and one that stops
before its end is not read. -/
structure LogPackages.Lawful : Prop where
  unmarshal_marshal : ∀ event text, Recorded packages event text →
    packages.unmarshal text = some event
  unmarshal_cut : ∀ event text k, Recorded packages event text → k < text.length →
    packages.unmarshal (text.take k) = none

/-! ### No control characters -/

/-- A text of characters from the blank on. -/
def Printed (text : List Char) : Prop := ∀ c ∈ text, 0x20 ≤ c.toNat

theorem printed_of_all {text : List Char} (h : (text.all fun c => decide (0x20 ≤ c.toNat)) = true) :
    Printed text := by
  intro c hc
  exact of_decide_eq_true (List.all_eq_true.mp h c hc)

theorem Printed.append {a b : List Char} (ha : Printed a) (hb : Printed b) : Printed (a ++ b) := by
  intro c hc
  rcases List.mem_append.mp hc with hc | hc
  · exact ha c hc
  · exact hb c hc

theorem Printed.cons {c : Char} {text : List Char} (hc : 0x20 ≤ c.toNat) (h : Printed text) :
    Printed (c :: text) := by
  intro d hd
  rcases List.mem_cons.mp hd with rfl | hd
  · exact hc
  · exact h d hd

theorem printed_singleton {c : Char} (hc : 0x20 ≤ c.toNat) : Printed [c] :=
  .cons hc fun _ h => absurd h List.not_mem_nil

theorem printed_hexDigit (n : ℕ) : 0x20 ≤ (hexDigit (n % 16)).toNat := by
  have hn : n % 16 < 16 := Nat.mod_lt _ (by omega)
  generalize n % 16 = d at hn
  interval_cases d <;> decide

theorem printed_escapeUnicode (n : ℕ) : Printed (escapeUnicode n) :=
  .cons (by decide) (.cons (by decide) (.cons (printed_hexDigit _) (.cons (printed_hexDigit _)
    (.cons (printed_hexDigit _) (printed_singleton (printed_hexDigit _))))))

theorem printed_jsonChar (c : Char) : Printed (jsonChar c) := by
  have hescaped : ∀ d : Char, 0x20 ≤ d.toNat → Printed ['\\', d] := fun d hd =>
    .cons (by decide) (printed_singleton hd)
  rw [jsonChar]
  split
  · next h =>
    refine hescaped c ?_
    rcases h with h | h <;> omega
  split
  · exact hescaped 'b' (by decide)
  split
  · exact hescaped 't' (by decide)
  split
  · exact hescaped 'n' (by decide)
  split
  · exact hescaped 'f' (by decide)
  split
  · exact hescaped 'r' (by decide)
  split
  · exact printed_escapeUnicode _
  · next h => exact printed_singleton (by omega)

theorem printed_jsonString (s : String) : Printed (jsonString s) := by
  refine .cons (by decide) (.append (fun d hd => ?_) (printed_singleton (by decide)))
  obtain ⟨c, -, hd⟩ := List.mem_flatMap.mp hd
  exact printed_jsonChar c d hd

theorem printed_jsonInt (n : ℤ) : Printed (jsonInt n) := by
  have hnat : ∀ m : ℕ, Printed (toString m).toList := by
    intro m c hc
    have hdigit := Nat.isDigit_of_mem_toDigits (by omega) (by omega)
      (show c ∈ Nat.toDigits 10 m from by simpa [Nat.repr] using hc)
    have hle := (Char.isDigit_iff_toNat.mp hdigit).1
    exact le_trans (by decide) hle
  cases n with
  | ofNat m => exact hnat m
  | negSucc m =>
    have htext : jsonInt (Int.negSucc m) = '-' :: (toString (m + 1)).toList := by
      rw [jsonInt]
      exact String.toList_append
    rw [htext]
    exact .cons (by decide) (hnat _)

theorem printed_jsonField {name : String} {value : List Char} (h : Printed value) :
    Printed (jsonField name value) :=
  (printed_jsonString name).append (.cons (by decide) h)

theorem printed_jsonObject {fields : List (List Char)} (h : ∀ field ∈ fields, Printed field) :
    Printed (jsonObject fields) := by
  refine .cons (by decide) (.append ?_ (printed_singleton (by decide)))
  induction fields with
  | nil => exact fun _ h => absurd h List.not_mem_nil
  | cons first rest ih =>
    have hfirst := h first List.mem_cons_self
    have hrest := ih fun field hfield => h field (List.mem_cons_of_mem _ hfield)
    cases rest with
    | nil => simpa using hfirst
    | cons second rest =>
      rw [List.intersperse_cons_cons, List.flatten_cons, List.flatten_cons]
      exact hfirst.append ((printed_singleton (by decide)).append hrest)

theorem printed_jsonAccessLogEvent (timeText : String) (event : AccessLogEvent Time) :
    Printed (jsonAccessLogEvent timeText event) := by
  refine printed_jsonObject fun field hfield => ?_
  simp only [List.mem_cons, List.not_mem_nil, or_false] at hfield
  rcases hfield with rfl | rfl | rfl | rfl | rfl | rfl | rfl | rfl | rfl | rfl | rfl | rfl | rfl |
    rfl | rfl | rfl | rfl | rfl | rfl | rfl | rfl | rfl | rfl | rfl <;>
  first
    | exact printed_jsonField (printed_jsonString _)
    | exact printed_jsonField (printed_jsonInt _)

theorem control_not_mem_utf8 {text : List Char} (h : Printed text) {b : UInt8}
    (hb : b.toNat < 0x20) : b ∉ utf8 text := by
  intro hmem
  obtain ⟨c, hc, hmem⟩ := List.mem_flatMap.mp hmem
  have hprinted := h c hc
  have hvalue : c.val.toNat = c.toNat := rfl
  rw [String.utf8EncodeChar] at hmem
  repeat' split at hmem
  all_goals
    simp only [List.mem_cons, List.not_mem_nil, or_false] at hmem
  · subst hmem
    rw [UInt8.toNat_ofNat'] at hb
    omega
  · rcases hmem with rfl | rfl <;> rw [UInt8.toNat_ofNat'] at hb <;> omega
  · rcases hmem with rfl | rfl | rfl <;> rw [UInt8.toNat_ofNat'] at hb <;> omega
  · rcases hmem with rfl | rfl | rfl | rfl <;> rw [UInt8.toNat_ofNat'] at hb <;> omega

variable {packages}

theorem control_not_mem_marshal {event : AccessLogEvent Time} {text : Bytes}
    (h : marshal packages event = some text) {b : UInt8} (hb : b.toNat < 0x20) : b ∉ text := by
  obtain ⟨timeText, -, rfl⟩ := Option.map_eq_some_iff.mp h
  exact control_not_mem_utf8 (printed_jsonAccessLogEvent timeText event) hb

theorem newline_not_mem_marshal {event : AccessLogEvent Time} {text : Bytes}
    (h : marshal packages event = some text) : newline ∉ text :=
  control_not_mem_marshal h (by decide)

/-- The text of an event begins with a brace. -/
theorem marshal_ne_nil {event : AccessLogEvent Time} {text : Bytes}
    (h : marshal packages event = some text) : text ≠ [] := by
  obtain ⟨timeText, -, rfl⟩ := Option.map_eq_some_iff.mp h
  rw [utf8, jsonAccessLogEvent, jsonObject, List.cons_append, List.flatMap_cons]
  exact List.append_ne_nil_of_left_ne_nil String.utf8EncodeChar_ne_nil _

/-- A batch is as long as the records of its events, and one byte more. -/
theorem length_marshalBatch {events : List (AccessLogEvent Time)} {texts : List Bytes}
    (h : events.mapM (marshal packages) = some texts) (hne : texts ≠ []) {payload : Bytes}
    (hpayload : marshalBatch packages events = some payload) :
    payload.length = (texts.map fun text => text.length + 1).sum + 1 := by
  have hcommas : ∀ texts : List Bytes, texts ≠ [] →
      ((texts.intersperse [0x2C]).flatten).length + 1 =
        (texts.map fun text => text.length + 1).sum := by
    intro texts hne
    induction texts with
    | nil => exact absurd rfl hne
    | cons first rest ih =>
      cases rest with
      | nil => simp
      | cons second rest =>
        have hrest := ih (List.cons_ne_nil _ _)
        rw [List.intersperse_cons_cons, List.flatten_cons, List.flatten_cons, List.length_append,
          List.length_append, List.map_cons, List.sum_cons, ← hrest, List.length_singleton]
        omega
  rw [marshalBatch, h] at hpayload
  obtain rfl := Option.some.inj hpayload
  rw [List.cons_append, List.length_cons, List.length_append, List.length_singleton, ← hcommas _ hne]

end

end SimpleCdn.AccessLog
