import SimpleCdn.Lib.Regexp.Syntax

/-!
# What an expression matches

An expression spans parts of a text.  The names of `\p` and the letters that differ in case only
come from the tables of Unicode.
-/

namespace SimpleCdn.Regexp

structure Tables where
  /-- The code points with a property, if there is one of the name. -/
  property : List Char → Option (List (ℕ × ℕ))
  /-- The code points that differ from this one in case only, with this one. -/
  orbit : ℕ → List ℕ

def inRanges (ranges : List (ℕ × ℕ)) (code : ℕ) : Bool :=
  ranges.any fun (low, high) => low ≤ code && code ≤ high

/-- Members without regard to case have a member in their orbit; only then is a class inverted. -/
def folded (tables : Tables) (fold : Bool) (holds : ℕ → Bool) (code : ℕ) : Bool :=
  if fold then (tables.orbit code).any holds else holds code

def ClassItem.holds (tables : Tables) (fold : Bool) (code : ℕ) : ClassItem → Bool
  | .range low high => folded tables fold (fun code => low ≤ code && code ≤ high) code
  | .group ranges negated => folded tables fold (inRanges ranges) code != negated
  | .property name negated =>
    folded tables fold (inRanges ((tables.property name).getD [])) code != negated

def setHolds (tables : Tables) (negated : Bool) (items : List ClassItem) (fold : Bool)
    (code : ℕ) : Bool :=
  items.any (ClassItem.holds tables fold code) != negated

/-- The character at a position is a letter, a digit or an underscore. -/
def wordAt (text : List Char) (i : ℕ) : Bool :=
  text[i]?.any isNamePart

/-- A word ends or begins between two characters. -/
def boundaryAt (text : List Char) (i : ℕ) : Bool :=
  (match i with
    | 0 => false
    | i + 1 => wordAt text i) != wordAt text i

def Assertion.Holds (text : List Char) (i : ℕ) : Assertion → Prop
  | .beginText => i = 0
  | .endText => i = text.length
  | .beginLine => i = 0 ∨ text[i - 1]? = some '\n'
  | .endLine => i = text.length ∨ text[i]? = some '\n'
  | .wordBoundary => boundaryAt text i = true
  | .noWordBoundary => boundaryAt text i = false

def RepeatOp.min : RepeatOp → ℕ
  | .star => 0
  | .plus => 1
  | .quest => 0
  | .counted min _ => min

def RepeatOp.max : RepeatOp → Option ℕ
  | .star => none
  | .plus => none
  | .quest => some 1
  | .counted _ max => max

/-- `n` steps of the relation. -/
def times (spans : ℕ → ℕ → Prop) : ℕ → ℕ → ℕ → Prop
  | 0, i, j => i = j
  | n + 1, i, j => ∃ k, spans i k ∧ times spans n k j

/-- The next character, if it is one that `holds` holds of. -/
def stepOver (text : List Char) (holds : ℕ → Bool) (i j : ℕ) : Prop :=
  j = i + 1 ∧ text[i]?.any (fun c => holds c.toNat) = true

/-- The expression matches the text from `i` to `j`. -/
def Expr.Spans (tables : Tables) (text : List Char) : Expr → ℕ → ℕ → Prop
  | .empty, i, j => i = j
  | .literal code fold, i, j => stepOver text (folded tables fold (· = code)) i j
  | .set negated items fold, i, j => stepOver text (setHolds tables negated items fold) i j
  | .any newline, i, j => stepOver text (fun code => newline || code != '\n'.toNat) i j
  | .assertion a, i, j => i = j ∧ a.Holds text i
  | .group _ e, i, j => e.Spans tables text i j
  | .concat e f, i, j => ∃ k, e.Spans tables text i k ∧ f.Spans tables text k j
  | .alternate e f, i, j => e.Spans tables text i j ∨ f.Spans tables text i j
  | .repeated op _ e, i, j =>
    ∃ n, op.min ≤ n ∧ (∀ max ∈ op.max, n ≤ max) ∧ times (e.Spans tables text) n i j

/-- `MatchString` -/
def Expr.Matches (tables : Tables) (e : Expr) (text : List Char) : Prop :=
  ∃ i j, i ≤ text.length ∧ e.Spans tables text i j

theorem Expr.spans_capture (tables : Tables) (text : List Char) (e : Expr) :
    e.capture.Spans tables text = e.Spans tables text := by
  funext i j
  induction e generalizing i j with
  | group _ e ih => exact ih i j
  | concat e f ihe ihf => simp only [capture, Spans, ihe, ihf]
  | alternate e f ihe ihf => simp only [capture, Spans, ihe, ihf]
  | repeated op _ e ih =>
    have he : e.capture.Spans tables text = e.Spans tables text := by
      funext i j
      exact ih i j
    simp only [capture, Spans, he]
  | _ => rfl

/-- Which groups capture makes no difference to what matches. -/
theorem Expr.matches_capture (tables : Tables) (e : Expr) (text : List Char) :
    e.capture.Matches tables text ↔ e.Matches tables text := by
  rw [Matches, Matches, spans_capture]

end SimpleCdn.Regexp
