import SimpleCdn.Lib.Regexp.Scan

/-!
# The pieces of a regular expression

The text of a regular expression in the syntax of the `regexp` package, cut into the pieces its
parser reads at once: characters, classes, groups, repetitions.  Code points are numbers, since an
escape may name one that is not a character.
-/

namespace SimpleCdn.Regexp

/-- A member of a class. -/
inductive ClassItem
  | range (low high : ℕ)
  /-- A class with a name, such as `\d` and `[:alpha:]`. -/
  | group (ranges : List (ℕ × ℕ)) (negated : Bool)
  /-- `\p{name}` -/
  | property (name : List Char) (negated : Bool)
  deriving DecidableEq

inductive Assertion
  | beginText
  | endText
  | beginLine
  | endLine
  | wordBoundary
  | noWordBoundary
  deriving DecidableEq

inductive RepeatOp
  | star
  | plus
  | quest
  | counted (min : ℕ) (max : Option ℕ)
  deriving DecidableEq

inductive Flag
  | fold
  | multiLine
  | dotNewline
  | ungreedy
  deriving DecidableEq

inductive Piece
  /-- Characters that stand for themselves, one after the other. -/
  | literals (codes : List ℕ)
  | set (negated : Bool) (items : List ClassItem)
  | dot
  | caret
  | dollar
  | assertion (assertion : Assertion)
  | openGroup (capturing : Bool)
  /-- `(?i)`, or `(?i:` which opens a group. -/
  | flags (changes : List (Flag × Bool)) (opens : Bool)
  | bar
  | closeGroup
  | repeated (op : RepeatOp) (isLazy : Bool)
  deriving DecidableEq

namespace Scan

/-- The character `c`, if it is next. -/
def skip? (c : Char) : Scan Bool := do
  if (← peek) = some c then
    let _ ← next
    return true
  else return false

theorem skip?_self (c : Char) (cs : List Char) : (skip? c).run (c :: cs) = some (true, cs) := by
  show (if some c = some c then (next >>= fun _ => pure true) else pure false : Scan Bool).run
    (c :: cs) = _
  rw [if_pos rfl]
  rfl

theorem skip?_of_ne {c : Char} {cs : List Char} (h : cs.head? ≠ some c) :
    (skip? c).run cs = some (false, cs) := by
  show (if cs.head? = some c then (next >>= fun _ => pure true) else pure false : Scan Bool).run
    cs = _
  rw [if_neg h]
  rfl

theorem run_bind {α β : Type} (x : Scan α) (f : α → Scan β) (cs : List Char) :
    (x >>= f).run cs = (x.run cs).bind fun (a, rest) => (f a).run rest := rfl

def skip (c : Char) : Scan Unit := do
  if (← next) = c then return () else Scan.fail

end Scan

/-! ### Numbers -/

def isDigit (c : Char) : Bool := '0' ≤ c && c ≤ '9'

def isOctal (c : Char) : Bool := '0' ≤ c && c ≤ '7'

def isAlnum (c : Char) : Bool :=
  isDigit c || ('a' ≤ c && c ≤ 'z') || ('A' ≤ c && c ≤ 'Z')

/-- `unhex` -/
def unhex (c : Char) : Option ℕ :=
  if isDigit c then some (c.toNat - '0'.toNat)
  else if 'a' ≤ c ∧ c ≤ 'f' then some (c.toNat - 'a'.toNat + 10)
  else if 'A' ≤ c ∧ c ≤ 'F' then some (c.toNat - 'A'.toNat + 10)
  else none

def decimal (digits : List Char) : ℕ :=
  digits.foldl (fun n c => n * 10 + (c.toNat - '0'.toNat)) 0

/-- `parseInt`, of the digits that are there: some, and no zero before others. -/
def parseInt (digits : List Char) : Option ℕ :=
  if digits = [] ∨ (digits.head? = some '0' ∧ 1 < digits.length) then none
  else some (decimal digits)

/-! ### Escapes -/

def maxRune : ℕ := 0x10FFFF

/-- Hexadecimal digits, as a code point. -/
def hexRune (digits : List Char) : Option ℕ := do
  let values ← digits.mapM unhex
  let code := values.foldl (fun n v => n * 16 + v) 0
  if code ≤ maxRune then some code else none

def orFail {α : Type} : Option α → Scan α
  | some a => pure a
  | none => Scan.fail

/-- `escape`, behind the backslash and `c`. -/
def readEscape (c : Char) : Scan ℕ := do
  if isOctal c then
    let second ← Scan.peek
    if c ≠ '0' ∧ second.all isOctal = false ∨ c ≠ '0' ∧ second = none then Scan.fail
    else
      let mut code := c.toNat - '0'.toNat
      if (← Scan.peek).any isOctal then
        code := code * 8 + ((← Scan.next).toNat - '0'.toNat)
        if (← Scan.peek).any isOctal then
          code := code * 8 + ((← Scan.next).toNat - '0'.toNat)
      return code
  else if c = 'x' then
    let first ← Scan.next
    if first = '{' then
      let digits ← Scan.takeWhile fun c => (unhex c).isSome
      Scan.skip '}'
      if digits = [] then Scan.fail else orFail (hexRune digits)
    else
      let second ← Scan.next
      orFail (hexRune [first, second])
  else if c = 'a' then return 7
  else if c = 'f' then return 12
  else if c = 'n' then return 10
  else if c = 'r' then return 13
  else if c = 't' then return 9
  else if c = 'v' then return 11
  else if c.toNat < 128 ∧ isAlnum c = false then return c.toNat
  else Scan.fail

/-- `perlGroup` -/
def perlGroup (c : Char) : Option ClassItem :=
  let digits := [(0x30, 0x39)]
  let spaces := [(0x9, 0xA), (0xC, 0xD), (0x20, 0x20)]
  let words := [(0x30, 0x39), (0x41, 0x5A), (0x5F, 0x5F), (0x61, 0x7A)]
  if c = 'd' then some (.group digits false)
  else if c = 'D' then some (.group digits true)
  else if c = 's' then some (.group spaces false)
  else if c = 'S' then some (.group spaces true)
  else if c = 'w' then some (.group words false)
  else if c = 'W' then some (.group words true)
  else none

/-- `parseUnicodeClass`, behind `\p` or `\P`. -/
def readProperty (negated : Bool) : Scan ClassItem := do
  let c ← Scan.next
  if c = '{' then
    let name ← Scan.takeWhile (· ≠ '}')
    Scan.skip '}'
    if name.head? = some '^' then return .property name.tail !negated
    else return .property name negated
  else if c = '^' then return .property [] !negated
  else return .property [c] negated

/-! ### Classes -/

/-- `posixGroup` -/
def posixGroup (name : List Char) : Option (List (ℕ × ℕ)) :=
  match String.ofList name with
  | "alnum" => some [(0x30, 0x39), (0x41, 0x5A), (0x61, 0x7A)]
  | "alpha" => some [(0x41, 0x5A), (0x61, 0x7A)]
  | "ascii" => some [(0x0, 0x7F)]
  | "blank" => some [(0x9, 0x9), (0x20, 0x20)]
  | "cntrl" => some [(0x0, 0x1F), (0x7F, 0x7F)]
  | "digit" => some [(0x30, 0x39)]
  | "graph" => some [(0x21, 0x7E)]
  | "lower" => some [(0x61, 0x7A)]
  | "print" => some [(0x20, 0x7E)]
  | "punct" => some [(0x21, 0x2F), (0x3A, 0x40), (0x5B, 0x60), (0x7B, 0x7E)]
  | "space" => some [(0x9, 0xD), (0x20, 0x20)]
  | "upper" => some [(0x41, 0x5A)]
  | "word" => some [(0x30, 0x39), (0x41, 0x5A), (0x5F, 0x5F), (0x61, 0x7A)]
  | "xdigit" => some [(0x30, 0x39), (0x41, 0x46), (0x61, 0x66)]
  | _ => none

def isNameChar (c : Char) : Bool := c = '^' || ('a' ≤ c && c ≤ 'z')

/-- The name of `[:name:]`, behind the bracket; none where no `:]` is to come. -/
def nameOf (cs : List Char) : Option (Option (List Char) × List Char) :=
  if cs.head? = some ':' ∧ nameEnd <:+: cs.tail then
    if nameEnd <+: cs.tail.dropWhile isNameChar then
      some (some (cs.tail.takeWhile isNameChar), (cs.tail.dropWhile isNameChar).drop 2)
    else none
  else some (none, cs)

theorem nameOf_named {name : List Char} (hname : ∀ c ∈ name, isNameChar c = true)
    (rest : List Char) : nameOf (':' :: name ++ nameEnd ++ rest) = some (some name, rest) := by
  have hstop : ¬isNameChar ':' = true := by decide
  rw [nameOf, if_pos]
  · simp only [List.cons_append, List.append_assoc, List.tail_cons,
      List.dropWhile_append_of_pos hname, List.takeWhile_append_of_pos hname, nameEnd,
      List.nil_append, List.dropWhile_cons_of_neg hstop, List.takeWhile_cons_of_neg hstop]
    rw [if_pos ⟨rest, rfl⟩, List.append_nil]
    rfl
  · exact ⟨rfl, List.infix_append name nameEnd rest⟩

theorem nameOf_eq_named {cs name rest : List Char} (h : nameOf cs = some (some name, rest)) :
    cs = ':' :: name ++ nameEnd ++ rest ∧ ∀ c ∈ name, isNameChar c = true := by
  rw [nameOf] at h
  split at h
  · next hhead =>
    split at h
    · next hends =>
      obtain ⟨tail, htail⟩ := hends
      rcases cs with _ | ⟨c, cs⟩
      · exact absurd hhead.1 nofun
      · obtain rfl : c = ':' := Option.some.inj hhead.1
        obtain ⟨hname, hrest⟩ := Prod.mk.inj (Option.some.inj h)
        rw [List.tail_cons] at hname hrest htail
        rw [← htail] at hrest
        obtain rfl : tail = rest := hrest
        rw [← Option.some.inj hname]
        refine ⟨?_, fun c hc => List.mem_takeWhile_imp hc⟩
        rw [List.cons_append, List.cons_append, List.append_assoc, htail,
          List.takeWhile_append_dropWhile]
    · exact absurd h nofun
  · exact absurd (Prod.mk.inj (Option.some.inj h)).1 nofun

theorem nameOf_eq_unnamed {cs rest : List Char} (h : nameOf cs = some (none, rest)) :
    rest = cs ∧ ¬(cs.head? = some ':' ∧ nameEnd <:+: cs.tail) := by
  rw [nameOf] at h
  split at h
  · split at h
    · exact absurd (Prod.mk.inj (Option.some.inj h)).1 nofun
    · exact absurd h nofun
  · next hname => exact ⟨(Prod.mk.inj (Option.some.inj h)).2.symm, hname⟩

/-- A name, or the bracket was a character. -/
def className : Scan (Option (List Char)) where
  run := nameOf
  suffix {cs a rest} h := by
    rcases a with _ | name
    · exact (nameOf_eq_unnamed h).1 ▸ List.suffix_rfl
    · rw [(nameOf_eq_named h).1]
      exact List.suffix_append _ _
  stable {text rest other a} h halike := by
    rcases a with _ | name
    · obtain ⟨htext, hname⟩ := nameOf_eq_unnamed h
      obtain rfl := eq_nil_of_append htext.symm
      rw [List.nil_append] at hname ⊢
      rw [nameOf, if_neg]
      rw [← halike.head]
      exact fun hboth => hname ⟨hboth.1, not_not.mp fun hnot => halike.tailEnds hnot hboth.2⟩
    · obtain ⟨htext, hname⟩ := nameOf_eq_named h
      rw [List.append_cancel_right htext]
      exact nameOf_named hname other

/-- `parseNamedClass`, of the name between the colons. -/
def namedClass (name : List Char) : Option ClassItem :=
  if name.head? = some '^' then (posixGroup name.tail).map (.group · true)
  else (posixGroup name).map (.group · false)

/-- `parseClassChar` -/
def readClassChar : Scan ℕ := do
  let c ← Scan.next
  if c = '\\' then readEscape (← Scan.next) else return c.toNat

/-- A single character or a range, behind its first character. -/
def readRange (low : ℕ) : Scan (List ClassItem) := do
  if ← Scan.skip? '-' then
    if (← Scan.peek) = some ']' then return [.range low low, .range '-'.toNat '-'.toNat]
    else
      let high ← readClassChar
      if high < low then Scan.fail else return [.range low high]
  else return [.range low low]

/-- One pass of the loop of `parseClass`. -/
def readClassItem : Scan (List ClassItem) := do
  let c ← Scan.next
  if c = '[' then
    match ← className with
    | some name => return [← orFail (namedClass name)]
    | none => readRange c.toNat
  else if c = '\\' then
    let d ← Scan.next
    if d = 'p' ∨ d = 'P' then return [← readProperty (d = 'P')]
    else
      match perlGroup d with
      | some item => return [item]
      | none => readRange (← readEscape d)
  else readRange c.toNat

/-- `parseClass`, behind the bracket.  The first member may be a bracket. -/
def readClass : Scan Piece := do
  let negated ← Scan.skip? '^'
  let first ← readClassItem
  let others ← Scan.collect do
    if ← Scan.skip? ']' then return none else return some (← readClassItem)
  return .set negated (first ++ others.flatten)

/-! ### Groups -/

/-- `isValidCaptureName` -/
def isNamePart (c : Char) : Bool := c = '_' || isAlnum c

def flagOf (c : Char) : Option Flag :=
  if c = 'i' then some .fold
  else if c = 'm' then some .multiLine
  else if c = 's' then some .dotNewline
  else if c = 'U' then some .ungreedy
  else none

/-- The flags before and behind the minus sign. -/
def flagChanges (text : List Char) : Option (List (Flag × Bool)) := do
  let on ← (text.takeWhile (· ≠ '-')).mapM flagOf
  match text.dropWhile (· ≠ '-') with
  | [] => return on.map (·, true)
  | _ :: text =>
    let off ← text.mapM flagOf
    if off = [] then none else return on.map (·, true) ++ off.map (·, false)

/-- The name of a group, up to its end. -/
def readGroupName : Scan Piece := do
  let name ← Scan.takeWhile isNamePart
  Scan.skip '>'
  if name = [] then Scan.fail else return .openGroup true

/-- `parsePerlFlags`, behind the question mark. -/
def readSpecial : Scan Piece := do
  if ← Scan.skip? 'P' then
    Scan.skip '<'
    readGroupName
  else if ← Scan.skip? '<' then readGroupName
  else
    let text ← Scan.takeWhile fun c => c = '-' || (flagOf c).isSome
    let stop ← Scan.next
    let changes ← orFail (flagChanges text)
    if stop = ':' then
      if text = [] then return .openGroup false else return .flags changes true
    else if stop = ')' then return .flags changes false
    else Scan.fail

/-! ### Repetitions -/

def readRepeat (op : RepeatOp) : Scan Piece := do
  let isLazy ← Scan.skip? '?'
  return .repeated op isLazy

/-- The text that a brace begins and that is no repetition: all of it stands for itself. -/
def braceText (first : List Char) (comma : Bool) (second : List Char) (closed : Bool) :
    List Char :=
  '{' :: first ++ (if comma then [','] else []) ++ second ++ (if closed then ['}'] else [])

/-- The bounds, behind the brace, with the numbers as they were read. -/
def readBraces : Scan Piece := do
  let first ← Scan.takeWhile isDigit
  let comma ← Scan.skip? ','
  let second ← if comma then Scan.takeWhile isDigit else pure []
  let closed ← Scan.skip? '}'
  let min := parseInt first
  let max := if comma then (if second = [] then some none else (parseInt second).map some)
    else min.map some
  match closed, min, max with
  | true, some min, some max =>
    if 1000 < min ∨ max.any (1000 < ·) ∨ max.any (· < min) then Scan.fail
    else readRepeat (.counted min max)
  | _, _, _ => return .literals ((braceText first comma second closed).map Char.toNat)

/-! ### Pieces -/

/-- The text between `\Q` and `\E`. -/
def readQuoted : Scan (List Char) :=
  Scan.collect do
    if (← Scan.peek) = none then return none
    else
      let c ← Scan.next
      if c = '\\' ∧ (← Scan.peek) = some 'E' then
        let _ ← Scan.next
        return none
      else return some c

def readBackslash : Scan Piece := do
  let c ← Scan.next
  if c = 'A' then return .assertion .beginText
  else if c = 'b' then return .assertion .wordBoundary
  else if c = 'B' then return .assertion .noWordBoundary
  else if c = 'C' then Scan.fail
  else if c = 'Q' then return .literals ((← readQuoted).map Char.toNat)
  else if c = 'z' then return .assertion .endText
  else if c = 'p' ∨ c = 'P' then return .set false [← readProperty (c = 'P')]
  else
    match perlGroup c with
    | some item => return .set false [item]
    | none => return .literals [← readEscape c]

/-- One pass of the loop of `Parse`. -/
def readPiece : Scan Piece := do
  let c ← Scan.next
  if c = '(' then
    if ← Scan.skip? '?' then readSpecial else return .openGroup true
  else if c = '|' then return .bar
  else if c = ')' then return .closeGroup
  else if c = '^' then return .caret
  else if c = '$' then return .dollar
  else if c = '.' then return .dot
  else if c = '[' then readClass
  else if c = '*' then readRepeat .star
  else if c = '+' then readRepeat .plus
  else if c = '?' then readRepeat .quest
  else if c = '{' then readBraces
  else if c = '\\' then readBackslash
  else return .literals [c.toNat]

end SimpleCdn.Regexp
