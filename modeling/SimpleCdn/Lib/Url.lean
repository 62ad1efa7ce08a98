import Mathlib.Data.Option.Basic
import Mathlib.Data.List.Basic

/-!
# URLs

`parse` follows `url.Parse` of Go's standard library on the characters of the text: the fragment
and the query are cut off, the scheme is read and lowered, an authority after `//` is split into
user information and host, and the escapes in each part are checked.  A percent escape decodes
to the character with that code.  A bracketed host must be an IPv6 address, and only such a host
may contain more than one colon.
-/

namespace SimpleCdn.Url

/-- The text before the first `c`, and the text after it if there is one. -/
def cut (c : Char) : List Char → List Char × Option (List Char)
  | [] => ([], none)
  | x :: xs => if x = c then ([], some xs) else ((x :: (cut c xs).1), (cut c xs).2)

/-- The text before the last `c`, if there is one, and the text after it. -/
def cutLast (c : Char) (cs : List Char) : Option (List Char) × List Char :=
  match cut c cs.reverse with
  | (after, some before) => (some before.reverse, after.reverse)
  | (_, none) => (none, cs)

theorem cut_of_notMem {c : Char} {cs : List Char} (h : c ∉ cs) : cut c cs = (cs, none) := by
  induction cs with
  | nil => rfl
  | cons x xs ih =>
    rw [List.mem_cons, not_or] at h
    rw [cut, if_neg (Ne.symm h.1), ih h.2]

theorem cut_append {c : Char} {cs ds : List Char} (h : c ∉ cs) :
    cut c (cs ++ c :: ds) = (cs, some ds) := by
  induction cs with
  | nil => rw [List.nil_append, cut, if_pos rfl]
  | cons x xs ih =>
    rw [List.mem_cons, not_or] at h
    rw [List.cons_append, cut, if_neg (Ne.symm h.1), ih h.2]

/-- What `cut` returns is the text around the first `c`, or the text if it has none. -/
theorem cut_spec (c : Char) (cs : List Char) :
    c ∉ (cut c cs).1 ∧
      cs = (cut c cs).1 ++ match (cut c cs).2 with | some rest => c :: rest | none => [] := by
  induction cs with
  | nil => exact ⟨List.not_mem_nil, rfl⟩
  | cons x xs ih =>
    rw [cut]
    split
    · next h => exact ⟨List.not_mem_nil, by rw [h]; rfl⟩
    · next h =>
      refine ⟨?_, congrArg (x :: ·) ih.2⟩
      rw [List.mem_cons, not_or]
      exact ⟨Ne.symm h, ih.1⟩

theorem cutLast_append {c : Char} {cs ds : List Char} (h : c ∉ ds) :
    cutLast c (cs ++ c :: ds) = (some cs, ds) := by
  have hcut : cut c (cs ++ c :: ds).reverse = (ds.reverse, some cs.reverse) := by
    rw [List.reverse_append, List.reverse_cons, List.append_assoc]
    exact cut_append fun hmem => h (List.mem_reverse.mp hmem)
  rw [cutLast, hcut]
  simp only [List.reverse_reverse]

theorem cutLast_of_notMem {c : Char} {cs : List Char} (h : c ∉ cs) :
    cutLast c cs = (none, cs) := by
  rw [cutLast, cut_of_notMem fun hmem => h (List.mem_reverse.mp hmem)]

theorem cutLast_some {c : Char} {cs before after : List Char}
    (h : cutLast c cs = (some before, after)) : cs = before ++ c :: after ∧ c ∉ after := by
  obtain ⟨hnot, heq⟩ := cut_spec c cs.reverse
  rw [cutLast] at h
  split at h
  · next after' before' hcut =>
    rw [hcut] at hnot heq
    simp only [Prod.mk.injEq, Option.some.injEq] at h
    obtain ⟨rfl, rfl⟩ := h
    refine ⟨?_, fun hmem => hnot (List.mem_reverse.mp hmem)⟩
    have hcs := congrArg List.reverse heq
    rw [List.reverse_reverse] at hcs
    rw [hcs]
    simp
  · simp at h

theorem cutLast_none {c : Char} {cs after : List Char} (h : cutLast c cs = (none, after)) :
    c ∉ cs := by
  obtain ⟨hnot, heq⟩ := cut_spec c cs.reverse
  rw [cutLast] at h
  split at h
  · simp at h
  · next hcut =>
    rw [hcut] at hnot heq
    intro hmem
    rw [← List.mem_reverse, heq, List.append_nil] at hmem
    exact hnot hmem

def isLetter (c : Char) : Bool :=
  ('a' ≤ c && c ≤ 'z') || ('A' ≤ c && c ≤ 'Z')

def isDigit (c : Char) : Bool :=
  '0' ≤ c && c ≤ '9'

def lower (c : Char) : Char :=
  if 'A' ≤ c && c ≤ 'Z' then Char.ofNat (c.toNat + 32) else c

def hexValue (c : Char) : Option Nat :=
  if isDigit c then some (c.toNat - '0'.toNat)
  else if 'a' ≤ c && c ≤ 'f' then some (c.toNat - 'a'.toNat + 10)
  else if 'A' ≤ c && c ≤ 'F' then some (c.toNat - 'A'.toNat + 10)
  else none

/-! ### Addresses -/

/-- `parseIPv4Fields`: `octets` fields of one to three digits without a leading zero, at most
255, separated by dots.  `digits` and `value` belong to the field being read. -/
def ipv4Fields : (octets digits value : Nat) → List Char → Bool
  | octets, digits, _, [] => octets = 1 && 0 < digits
  | octets, digits, value, c :: cs =>
    if isDigit c then
      let value' := value * 10 + (c.toNat - '0'.toNat)
      !(digits = 1 && value = 0) && value' ≤ 255 && ipv4Fields octets (digits + 1) value' cs
    else c = '.' && 0 < digits && 1 < octets && ipv4Fields (octets - 1) 0 0 cs

def isIPv4 (cs : List Char) : Bool :=
  ipv4Fields 4 0 0 cs

/-- The groups of an IPv6 address after the optional leading `::`.  `groups` is the number of
two-byte groups already read, `ellipsis` whether a `::` has been seen. -/
def ipv6Groups : (fuel groups : Nat) → (ellipsis : Bool) → List Char → Bool
  | 0, _, _, _ => false
  | fuel + 1, groups, ellipsis, cs =>
    if groups = 8 then cs.isEmpty && !ellipsis
    else
      let digits := cs.takeWhile fun c => (hexValue c).isSome
      if digits.isEmpty || 4 < digits.length then false
      else match cs.drop digits.length with
        | [] => (groups + 1 = 8 && !ellipsis) || (groups + 1 < 8 && ellipsis)
        | '.' :: _ =>
          (ellipsis || groups = 6) && groups ≤ 6 && isIPv4 cs &&
            ((groups + 2 = 8 && !ellipsis) || (groups + 2 < 8 && ellipsis))
        | ':' :: ':' :: rest =>
          !ellipsis && if rest.isEmpty then groups + 1 < 8
            else ipv6Groups fuel (groups + 1) true rest
        | ':' :: rest => !rest.isEmpty && ipv6Groups fuel (groups + 1) ellipsis rest
        | _ => false

/-- `netip.ParseAddr` accepts the text as an IPv6 address, with an optional zone. -/
def isIPv6 (cs : List Char) : Bool :=
  let (address, zone) := cut '%' cs
  address.contains ':' && zone ≠ some [] &&
    match address with
    | [':', ':'] => true
    | ':' :: ':' :: rest => ipv6Groups 9 0 true rest
    | _ => ipv6Groups 9 0 false address

/-! ### Escapes -/

/-- Characters a host may contain unescaped. -/
def hostChar (c : Char) : Bool :=
  isLetter c || isDigit c || "-_.~!$&'()*+,;=:[]<>\"".toList.contains c

/-- The parts of a URL with their own rules for escapes. -/
inductive Part
  | host
  | zone
  | other
  deriving DecidableEq

def escapeAllowed (part : Part) (value : Nat) : Bool :=
  match part with
  | .host => 0x80 ≤ value || value = '%'.toNat
  | .zone => value = '%'.toNat || value = ' '.toNat || hostChar (Char.ofNat value)
  | .other => true

def unescape (part : Part) : List Char → Option (List Char)
  | [] => some []
  | '%' :: a :: b :: cs => do
    let high ← hexValue a
    let low ← hexValue b
    guard (escapeAllowed part (high * 16 + low))
    return Char.ofNat (high * 16 + low) :: (← unescape part cs)
  | '%' :: _ => none
  | c :: cs => do
    guard (part = .other ∨ hostChar c ∨ 0x80 ≤ c.toNat)
    return c :: (← unescape part cs)

theorem guard_eq_some_iff {c : Prop} [Decidable c] {u : Unit} :
    (guard c : Option Unit) = some u ↔ c := by
  by_cases h : c
  · exact ⟨fun _ => h, fun _ => if_pos h⟩
  · have hnone : (guard c : Option Unit) = none := if_neg h
    rw [hnone]
    exact ⟨nofun, fun hc => absurd hc h⟩

theorem unescape_escape {part : Part} {a b : Char} {cs out : List Char} :
    unescape part ('%' :: a :: b :: cs) = some out ↔ ∃ high low rest, hexValue a = some high ∧
      hexValue b = some low ∧ escapeAllowed part (high * 16 + low) = true ∧
      unescape part cs = some rest ∧ out = Char.ofNat (high * 16 + low) :: rest := by
  rw [unescape]
  simp only [bind, Option.bind_eq_some_iff, guard_eq_some_iff, pure, Option.some.injEq]
  constructor
  · rintro ⟨high, hhigh, low, hlow, _, hallowed, rest, hrest, rfl⟩
    exact ⟨high, low, rest, hhigh, hlow, hallowed, hrest, rfl⟩
  · rintro ⟨high, low, rest, hhigh, hlow, hallowed, hrest, rfl⟩
    exact ⟨high, hhigh, low, hlow, (), hallowed, rest, hrest, rfl⟩

theorem unescape_percent {part : Part} {cs : List Char} (h : ∀ a b rest, cs ≠ a :: b :: rest) :
    unescape part ('%' :: cs) = none := by
  rcases cs with _ | ⟨a, _ | ⟨b, cs⟩⟩
  · rfl
  · rfl
  · exact absurd rfl (h a b cs)

theorem unescape_char {part : Part} {c : Char} {cs out : List Char} (hc : c ≠ '%') :
    unescape part (c :: cs) = some out ↔ (part = .other ∨ hostChar c = true ∨ 0x80 ≤ c.toNat) ∧
      ∃ rest, unescape part cs = some rest ∧ out = c :: rest := by
  rw [unescape.eq_def]
  split
  · simp_all
  · simp_all
  · simp_all
  · next heq =>
    obtain ⟨rfl, rfl⟩ := List.cons.inj heq
    simp only [bind, Option.bind_eq_some_iff, guard_eq_some_iff, pure, Option.some.injEq,
      exists_const]
    constructor
    · rintro ⟨hallowed, rest, hrest, rfl⟩
      exact ⟨hallowed, rest, hrest, rfl⟩
    · rintro ⟨hallowed, rest, hrest, rfl⟩
      exact ⟨hallowed, rest, hrest, rfl⟩

/-- An escape in a host stands for no character that may be written there as it is. -/
theorem ofNat_ne_of_escapeAllowed {value : Nat} {d : Char}
    (h : escapeAllowed .host value = true) (hpos : 0 < d.toNat) (hascii : d.toNat < 0x80)
    (hpercent : d ≠ '%') : Char.ofNat value ≠ d := by
  rintro rfl
  have htoNat : (Char.ofNat value).toNat = value ∨ (Char.ofNat value).toNat = 0 := by
    unfold Char.ofNat
    by_cases hvalid : value.isValidChar
    · rw [dif_pos hvalid]
      exact Or.inl rfl
    · rw [dif_neg hvalid]
      exact Or.inr rfl
  simp only [escapeAllowed, Bool.or_eq_true, decide_eq_true_eq] at h
  rcases h with h | rfl
  · omega
  · exact hpercent (by decide)

theorem notMem_unescape {d : Char} {cs out : List Char} (hpos : 0 < d.toNat)
    (hascii : d.toNat < 0x80) (hpercent : d ≠ '%') (hcs : d ∉ cs)
    (h : unescape .host cs = some out) : d ∉ out := by
  induction cs using unescape.induct generalizing out with
  | case1 =>
    obtain rfl := Option.some.inj h
    exact hcs
  | case2 a b cs ih =>
    obtain ⟨high, low, rest, -, -, hallowed, hrest, rfl⟩ := unescape_escape.mp h
    simp only [List.mem_cons, not_or] at hcs ⊢
    exact ⟨(ofNat_ne_of_escapeAllowed hallowed hpos hascii hpercent).symm, ih hcs.2.2.2 hrest⟩
  | case3 cs hshort => exact absurd h (by rw [unescape_percent hshort]; simp)
  | case4 c cs _ hc ih =>
    obtain ⟨hallowed, rest, hrest, rfl⟩ := (unescape_char (fun heq => hc heq)).mp h
    simp only [List.mem_cons, not_or] at hcs ⊢
    exact ⟨hcs.1, ih hcs.2 hrest⟩

theorem unescape_digits {part : Part} {digits out : List Char} (hdigits : digits.all isDigit = true)
    (h : unescape part digits = some out) : out = digits := by
  induction digits generalizing out with
  | nil => exact (Option.some.inj h).symm
  | cons c cs ih =>
    rw [List.all_cons, Bool.and_eq_true] at hdigits
    have hc : c ≠ '%' := by
      rintro rfl
      exact absurd hdigits.1 (by decide)
    obtain ⟨-, rest, hrest, rfl⟩ := (unescape_char hc).mp h
    rw [ih hdigits.2 hrest]

theorem hexValue_colon : hexValue ':' = none := by decide

/-- A port behind the host is left alone. -/
theorem unescape_port {part : Part} {cs port out : List Char} (hport : port.all isDigit = true)
    (h : unescape part (cs ++ ':' :: port) = some out) :
    ∃ name, unescape part cs = some name ∧ out = name ++ ':' :: port := by
  induction cs using unescape.induct generalizing out with
  | case1 =>
    obtain ⟨-, rest, hrest, rfl⟩ := (unescape_char (by decide)).mp h
    exact ⟨[], rfl, by rw [unescape_digits hport hrest]; rfl⟩
  | case2 a b cs ih =>
    obtain ⟨high, low, rest, hhigh, hlow, hallowed, hrest, rfl⟩ := unescape_escape.mp h
    obtain ⟨name, hname, rfl⟩ := ih hrest
    exact ⟨_, unescape_escape.mpr ⟨high, low, name, hhigh, hlow, hallowed, hname, rfl⟩, rfl⟩
  | case3 cs hshort =>
    -- the colon would be one of the two digits of the escape
    rcases cs with _ | ⟨a, _ | ⟨b, cs⟩⟩
    · rcases port with _ | ⟨d, port⟩
      · exact absurd h (by simp [unescape])
      · obtain ⟨_, _, _, hcolon, -⟩ := unescape_escape.mp h
        exact absurd (hcolon.symm.trans hexValue_colon) (Option.some_ne_none _)
    · obtain ⟨_, _, _, -, hcolon, -⟩ := unescape_escape.mp h
      exact absurd (hcolon.symm.trans hexValue_colon) (Option.some_ne_none _)
    · exact absurd rfl (hshort a b cs)
  | case4 c cs hc' hc ih =>
    obtain ⟨hallowed, rest, hrest, rfl⟩ := (unescape_char (fun heq => hc heq)).mp h
    obtain ⟨name, hname, rfl⟩ := ih hrest
    exact ⟨c :: name, (unescape_char (fun heq => hc heq)).mpr ⟨hallowed, name, hname, rfl⟩, rfl⟩

/-! ### Hosts and ports -/

def validOptionalPort : List Char → Bool
  | [] => true
  | c :: cs => c = ':' && cs.all isDigit

/-- The bracketed part of a host, `%25` introducing a zone. -/
def unescapeBracketed (cs : List Char) : Option (List Char) :=
  match cut '%' cs with
  | (address, some ('2' :: '5' :: _)) => do
    let zone ← unescape .zone (cs.drop address.length)
    return (← unescape .host address) ++ zone
  | _ => unescape .host cs

def parseHost (cs : List Char) : Option (List Char) :=
  match cutLast '[' cs with
  | (some _, _) =>
    match cutLast ']' cs with
    | (none, _) => none
    | (some before, port) => do
      guard (validOptionalPort port)
      let host ← unescapeBracketed (cutLast '[' before).2
      guard (isIPv6 host)
      return '[' :: host ++ ']' :: port
  | (none, _) =>
    match cutLast ':' cs with
    | (some before, port) => do
      guard (validOptionalPort (':' :: port) ∧ before.contains ':' = false)
      unescape .host cs
    | (none, _) => unescape .host cs

/-- `splitHostPort`, the basis of `URL.Hostname` and `URL.Port`. -/
def splitHostPort (cs : List Char) : List Char × List Char :=
  let (host, port) :=
    match cutLast ':' cs with
    | (some before, after) => if validOptionalPort (':' :: after) then (before, after) else (cs, [])
    | (none, _) => (cs, [])
  match host, host.getLast? with
  | '[' :: inner, some ']' => (inner.dropLast, port)
  | _, _ => (host, port)

/-! ### Whole URLs -/

structure URL where
  scheme : List Char
  opaquePart : List Char
  user : Option (List Char)
  host : List Char
  path : List Char
  rawQuery : List Char
  fragment : List Char
  deriving DecidableEq

def URL.hostname (url : URL) : List Char :=
  (splitHostPort url.host).1

def URL.port (url : URL) : List Char :=
  (splitHostPort url.host).2

/-- `getScheme`: the scheme, empty when there is none, and the rest; `none` when the text begins
with a colon. -/
def getScheme (cs : List Char) : Option (List Char × List Char) :=
  match cut ':' cs with
  | ([], some _) => none
  | (scheme@(first :: _), some rest) =>
    if isLetter first && scheme.all (fun c => isLetter c || isDigit c || "+-.".toList.contains c)
    then some (scheme, rest)
    else some ([], cs)
  | (_, none) => some ([], cs)

def validUserinfo (cs : List Char) : Bool :=
  cs.all fun c => isLetter c || isDigit c || "-._:~!$&'()*+,;=%@".toList.contains c

def parseAuthority (cs : List Char) : Option (Option (List Char) × List Char) :=
  match cutLast '@' cs with
  | (none, _) => do return (none, ← parseHost cs)
  | (some userinfo, host) => do
    let host ← parseHost host
    guard (validUserinfo userinfo)
    return (some (← unescape .other userinfo), host)

def parse (text : List Char) : Option URL := do
  let (text, fragment) := cut '#' text
  guard (text.all fun c => 0x20 ≤ c.toNat && c.toNat ≠ 0x7f)
  let (scheme, rest) ← getScheme text
  let scheme := scheme.map lower
  let (rest, query) := cut '?' rest
  let fragment ← unescape .other (fragment.getD [])
  let url : URL := ⟨scheme, [], none, [], [], query.getD [], fragment⟩
  match rest with
  | '/' :: '/' :: rest =>
    if scheme.isEmpty && rest.head? = some '/' then
      return { url with path := ← unescape .other ('/' :: '/' :: rest) }
    let (authority, path) := cut '/' rest
    let (user, host) ← parseAuthority authority
    let path ← unescape .other (match path with | some path => '/' :: path | none => [])
    return { url with user := user, host := host, path := path }
  | '/' :: rest => return { url with path := ← unescape .other ('/' :: rest) }
  | rest =>
    if scheme.isEmpty then
      guard (((cut '/' rest).1).contains ':' = false)
      return { url with path := ← unescape .other rest }
    else return { url with opaquePart := rest }

/-! ### What is parsed -/

/-- A host that was parsed is a name or a bracketed address, with or without a port. -/
theorem parseHost_spec {cs host : List Char} (h : parseHost cs = some host) :
    (∃ inner port, host = '[' :: inner ++ ']' :: port ∧ isIPv6 inner = true ∧
      validOptionalPort port = true) ∨
    '[' ∉ host ∧ (':' ∉ host ∨ ∃ name port, host = name ++ ':' :: port ∧ ':' ∉ name ∧
      port.all isDigit = true) := by
  rw [parseHost] at h
  split at h
  · left
    split at h
    · exact absurd h (by simp)
    · simp only [bind, Option.bind_eq_some_iff, guard_eq_some_iff, pure, Option.some.injEq,
        exists_const] at h
      obtain ⟨hport, inner, -, hinner, rfl⟩ := h
      exact ⟨inner, _, rfl, hinner, hport⟩
  · next hopen =>
    right
    have hopen := cutLast_none hopen
    have hclean : ∀ {out}, unescape .host cs = some out → '[' ∉ out := fun hout =>
      notMem_unescape (by decide) (by decide) (by decide) hopen hout
    split at h
    · next before port hcolon =>
      simp only [bind, Option.bind_eq_some_iff, guard_eq_some_iff, exists_const] at h
      obtain ⟨⟨hport, hbefore⟩, h⟩ := h
      obtain ⟨rfl, -⟩ := cutLast_some hcolon
      simp only [validOptionalPort, decide_true, Bool.true_and] at hport
      obtain ⟨name, hname, rfl⟩ := unescape_port hport h
      refine ⟨hclean h, Or.inr ⟨name, port, rfl, ?_, hport⟩⟩
      refine notMem_unescape (by decide) (by decide) (by decide) (fun hmem => ?_) hname
      rw [List.contains_iff_mem.mpr hmem] at hbefore
      exact absurd hbefore (by decide)
    · next hcolon =>
      exact ⟨hclean h, Or.inl (notMem_unescape (by decide) (by decide) (by decide)
        (cutLast_none hcolon) h)⟩

theorem notMem_digits {c : Char} {digits : List Char} (hdigits : digits.all isDigit = true)
    (hc : isDigit c = false) : c ∉ digits := fun hmem =>
  absurd (List.all_eq_true.mp hdigits c hmem) (by rw [hc]; decide)

theorem validOptionalPort_colon (digits : List Char) :
    validOptionalPort (':' :: digits) = digits.all isDigit := by
  simp [validOptionalPort]

theorem getLast?_bracketed (inner : List Char) :
    ('[' :: (inner ++ [']'])).getLast? = some ']' :=
  List.getLast?_concat (l := '[' :: inner)

theorem splitHostPort_bracketed (inner : List Char) :
    splitHostPort ('[' :: inner ++ [']']) = (inner, []) := by
  rw [splitHostPort]
  rcases hcut : cutLast ':' ('[' :: inner ++ [']']) with ⟨_ | before, after⟩
  · simp [getLast?_bracketed]
  · -- what stands behind the last colon ends in the bracket
    have hlast := congrArg List.getLast? (cutLast_some hcut).1
    have hbracket : ']' ∈ ':' :: after := by
      apply List.mem_of_getLast?
      simpa [List.getLast?_append, List.getLast?_cons] using hlast.symm
    have hport : validOptionalPort (':' :: after) = false := by
      rw [Bool.eq_false_iff]
      intro hport
      rw [validOptionalPort_colon] at hport
      exact notMem_digits hport (by decide) (List.mem_of_ne_of_mem (by decide) hbracket)
    simp [hport, getLast?_bracketed]

theorem splitHostPort_bracketed_port (inner : List Char) {digits : List Char}
    (hdigits : digits.all isDigit = true) :
    splitHostPort (('[' :: inner ++ [']']) ++ ':' :: digits) = (inner, digits) := by
  have hport : validOptionalPort (':' :: digits) = true :=
    (validOptionalPort_colon digits).trans hdigits
  rw [splitHostPort, cutLast_append (notMem_digits hdigits (by decide))]
  simp [hport, getLast?_bracketed]

theorem splitHostPort_name {name : List Char} (hopen : '[' ∉ name) (hcolon : ':' ∉ name) :
    splitHostPort name = (name, []) := by
  rw [splitHostPort, cutLast_of_notMem hcolon]
  rcases name with _ | ⟨c, cs⟩
  · rfl
  · have hc : c ≠ '[' := fun heq => hopen (by rw [heq]; exact List.mem_cons_self)
    simp [hc]

theorem splitHostPort_name_port {name digits : List Char} (hopen : '[' ∉ name)
    (hdigits : digits.all isDigit = true) :
    splitHostPort (name ++ ':' :: digits) = (name, digits) := by
  have hport : validOptionalPort (':' :: digits) = true :=
    (validOptionalPort_colon digits).trans hdigits
  rw [splitHostPort, cutLast_append (notMem_digits hdigits (by decide))]
  rcases name with _ | ⟨c, cs⟩
  · simp [hport]
  · have hc : c ≠ '[' := fun heq => hopen (by rw [heq]; exact List.mem_cons_self)
    simp [hport, hc]

/-- The host and the port that are read back from a parsed host, as they stand in it. -/
theorem splitHostPort_spec {cs host : List Char} (h : parseHost cs = some host) :
    ∃ part, ((part = (splitHostPort host).1 ∧ ':' ∉ (splitHostPort host).1) ∨
        (part = '[' :: (splitHostPort host).1 ++ [']'] ∧
          isIPv6 (splitHostPort host).1 = true)) ∧
      (splitHostPort host).2.all isDigit = true ∧
      ((host = part ∧ (splitHostPort host).2 = []) ∨
        host = part ++ ':' :: (splitHostPort host).2) := by
  rcases parseHost_spec h with ⟨inner, port, rfl, hinner, hport⟩ |
    ⟨hopen, hcolon | ⟨name, port, rfl, hcolon, hport⟩⟩
  · rcases port with _ | ⟨c, digits⟩
    · rw [splitHostPort_bracketed]
      exact ⟨_, Or.inr ⟨rfl, hinner⟩, rfl, Or.inl ⟨rfl, rfl⟩⟩
    · rw [validOptionalPort, Bool.and_eq_true, decide_eq_true_eq] at hport
      obtain ⟨rfl, hdigits⟩ := hport
      have hsplit := splitHostPort_bracketed_port inner hdigits
      rw [List.append_assoc] at hsplit
      rw [show '[' :: inner ++ ']' :: ':' :: digits =
        '[' :: inner ++ ([']'] ++ ':' :: digits) from rfl, hsplit]
      exact ⟨_, Or.inr ⟨rfl, hinner⟩, hdigits, Or.inr (List.append_assoc ..).symm⟩
  · rw [splitHostPort_name hopen hcolon]
    exact ⟨host, Or.inl ⟨rfl, hcolon⟩, rfl, Or.inl ⟨rfl, rfl⟩⟩
  · rw [splitHostPort_name_port (fun hmem => hopen (List.mem_append_left _ hmem)) hport]
    exact ⟨name, Or.inl ⟨rfl, hcolon⟩, hport, Or.inr rfl⟩

theorem parseAuthority_host {cs : List Char} {user : Option (List Char)} {host : List Char}
    (h : parseAuthority cs = some (user, host)) : ∃ ds, parseHost ds = some host := by
  rw [parseAuthority] at h
  split at h
  · simp only [bind, Option.bind_eq_some_iff, pure, Option.some.injEq, Prod.mk.injEq] at h
    obtain ⟨_, hhost, -, rfl⟩ := h
    exact ⟨_, hhost⟩
  · simp only [bind, Option.bind_eq_some_iff, pure, Option.some.injEq, Prod.mk.injEq] at h
    obtain ⟨_, hhost, -, -, _, -, -, rfl⟩ := h
    exact ⟨_, hhost⟩

/-- The host of a URL is empty or was parsed as one. -/
theorem parse_host {text : List Char} {url : URL} (h : parse text = some url)
    (hsome : url.host ≠ []) : ∃ cs, parseHost cs = some url.host := by
  rw [parse] at h
  simp only [bind, Option.bind_eq_some_iff, guard_eq_some_iff, exists_const] at h
  obtain ⟨-, _, -, _, -, h⟩ := h
  split at h
  · split at h
    · simp only [Option.bind_eq_some_iff, pure, Option.some.injEq] at h
      obtain ⟨_, -, rfl⟩ := h
      exact absurd rfl hsome
    · simp only [Option.bind_eq_some_iff, pure, Option.some.injEq] at h
      obtain ⟨⟨user, host⟩, hauthority, _, -, rfl⟩ := h
      exact parseAuthority_host hauthority
  · simp only [Option.bind_eq_some_iff, pure, Option.some.injEq] at h
    obtain ⟨_, -, rfl⟩ := h
    exact absurd rfl hsome
  · split at h
    · simp only [Option.bind_eq_some_iff, pure, Option.some.injEq] at h
      obtain ⟨_, -, _, -, rfl⟩ := h
      exact absurd rfl hsome
    · obtain rfl := Option.some.inj h
      exact absurd rfl hsome

example : (parse "https://[2001:db8::1]:8443".toList).map URL.hostname =
    some "2001:db8::1".toList := by decide

end SimpleCdn.Url
