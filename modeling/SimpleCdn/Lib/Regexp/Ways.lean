import SimpleCdn.Lib.Regexp.Matching

/-!
# The ways to match

A backtracking matcher tries the ways in which an expression matches.  An expression of a fixed
width, none of whose alternatives match the same string, has at most one.
-/

namespace SimpleCdn.Regexp

/-! ### Ways -/

/-- The ways to make `n` steps. -/
def timesWays (ways : ℕ → ℕ → Type) : ℕ → ℕ → ℕ → Type
  | 0, i, j => PLift (i = j)
  | n + 1, i, j => Σ k, ways i k × timesWays ways n k j

/-- The ways in which the expression matches the text from `i` to `j`. -/
def Expr.Ways (tables : Tables) (text : List Char) : Expr → ℕ → ℕ → Type
  | .group _ e, i, j => e.Ways tables text i j
  | .concat e f, i, j => Σ k, e.Ways tables text i k × f.Ways tables text k j
  | .alternate e f, i, j => e.Ways tables text i j ⊕ f.Ways tables text i j
  | .repeated op _ e, i, j =>
    Σ n : {n // op.min ≤ n ∧ ∀ max ∈ op.max, n ≤ max}, timesWays (e.Ways tables text) n i j
  | e, i, j => PLift (e.Spans tables text i j)

section

variable {tables : Tables} {text : List Char}

theorem nonempty_timesWays {ways : ℕ → ℕ → Type} {spans : ℕ → ℕ → Prop}
    (h : ∀ i j, Nonempty (ways i j) ↔ spans i j) (n i j : ℕ) :
    Nonempty (timesWays ways n i j) ↔ times spans n i j := by
  induction n generalizing i with
  | zero => exact ⟨fun ⟨w⟩ => w.down, fun heq => ⟨⟨heq⟩⟩⟩
  | succ n ih =>
    constructor
    · rintro ⟨k, first, others⟩
      exact ⟨k, (h i k).mp ⟨first⟩, (ih k).mp ⟨others⟩⟩
    · rintro ⟨k, hfirst, hothers⟩
      obtain ⟨first⟩ := (h i k).mpr hfirst
      obtain ⟨others⟩ := (ih k).mpr hothers
      exact ⟨⟨k, first, others⟩⟩

/-- What matches, matches in some way. -/
theorem Expr.nonempty_ways (e : Expr) (i j : ℕ) :
    Nonempty (e.Ways tables text i j) ↔ e.Spans tables text i j := by
  induction e generalizing i j with
  | group _ e ih => exact ih i j
  | concat e f ihe ihf =>
    constructor
    · rintro ⟨k, first, second⟩
      exact ⟨k, (ihe i k).mp ⟨first⟩, (ihf k j).mp ⟨second⟩⟩
    · rintro ⟨k, hfirst, hsecond⟩
      obtain ⟨first⟩ := (ihe i k).mpr hfirst
      obtain ⟨second⟩ := (ihf k j).mpr hsecond
      exact ⟨⟨k, first, second⟩⟩
  | alternate e f ihe ihf =>
    constructor
    · rintro ⟨first | second⟩
      · exact Or.inl ((ihe i j).mp ⟨first⟩)
      · exact Or.inr ((ihf i j).mp ⟨second⟩)
    · rintro (hfirst | hsecond)
      · obtain ⟨first⟩ := (ihe i j).mpr hfirst
        exact ⟨Sum.inl first⟩
      · obtain ⟨second⟩ := (ihf i j).mpr hsecond
        exact ⟨Sum.inr second⟩
  | repeated op _ e ih =>
    constructor
    · rintro ⟨n, others⟩
      exact ⟨n, n.2.1, n.2.2, (nonempty_timesWays ih n i j).mp ⟨others⟩⟩
    · rintro ⟨n, hmin, hmax, htimes⟩
      obtain ⟨others⟩ := (nonempty_timesWays ih n i j).mpr htimes
      exact ⟨⟨⟨n, hmin, hmax⟩, others⟩⟩
  | _ => exact ⟨fun ⟨w⟩ => w.down, fun h => ⟨⟨h⟩⟩⟩

theorem Expr.ways_capture (e : Expr) : e.capture.Ways tables text = e.Ways tables text := by
  funext i j
  induction e generalizing i j with
  | group _ e ih => exact ih i j
  | concat e f ihe ihf => simp only [capture, Ways, ihe, ihf]
  | alternate e f ihe ihf => simp only [capture, Ways, ihe, ihf]
  | repeated op _ e ih =>
    have he : e.capture.Ways tables text = e.Ways tables text := by
      funext i j
      exact ih i j
    simp only [capture, Ways, he]
  | _ => rfl

end

/-- The expression matches strings of one length, which is not zero, and each in one way. -/
structure Expr.OneWay (tables : Tables) (e : Expr) : Prop where
  width : ∃ n, 0 < n ∧ ∀ text i j, e.Spans tables text i j → j = i + n
  one : ∀ text i j, Subsingleton (e.Ways tables text i j)

/-! ### Widths -/

/-- The length of what the expression matches, when that is plain from its alternatives. -/
def Expr.width : Expr → Option ℕ
  | .empty => some 0
  | .literal _ _ => some 1
  | .set _ _ _ => some 1
  | .any _ => some 1
  | .assertion _ => some 0
  | .group _ e => e.width
  | .concat e f => (e.width).bind fun m => (f.width).map (m + ·)
  | .alternate e f => if e.width = f.width then e.width else none
  | .repeated _ _ _ => none

/-- No two alternatives match the same string. -/
def Expr.Distinct (tables : Tables) : Expr → Prop
  | .group _ e => e.Distinct tables
  | .concat e f => e.Distinct tables ∧ f.Distinct tables
  | .alternate e f =>
    (∀ text i j, e.Spans tables text i j → ¬f.Spans tables text i j) ∧
      e.Distinct tables ∧ f.Distinct tables
  | .repeated _ _ e => e.Distinct tables
  | _ => True

theorem Expr.eq_add_of_width {tables : Tables} {text : List Char} {e : Expr} {n i j : ℕ}
    (h : e.width = some n) (hspans : e.Spans tables text i j) : j = i + n := by
  induction e generalizing n i j with
  | empty =>
    cases h
    exact hspans.symm
  | assertion a =>
    cases h
    exact hspans.1.symm
  | group _ e ih => exact ih h hspans
  | concat e f ihe ihf =>
    obtain ⟨m, hm, hrest⟩ := Option.bind_eq_some_iff.mp h
    obtain ⟨n', hn', rfl⟩ := Option.map_eq_some_iff.mp hrest
    obtain ⟨k, hfirst, hsecond⟩ := hspans
    have hk := ihe hm hfirst
    have hj := ihf hn' hsecond
    omega
  | alternate e f ihe ihf =>
    rw [width] at h
    split at h
    · next heq =>
      rcases hspans with hfirst | hsecond
      · exact ihe h hfirst
      · exact ihf (heq ▸ h) hsecond
    · exact absurd h nofun
  | repeated op _ e ih => exact absurd h nofun
  | _ =>
    cases h
    exact hspans.1

/-- With a fixed width there is one place where the second operand of a concatenation begins. -/
theorem Expr.subsingleton_ways {tables : Tables} {e : Expr} {n : ℕ} (h : e.width = some n)
    (hdistinct : e.Distinct tables) (text : List Char) (i j : ℕ) :
    Subsingleton (e.Ways tables text i j) := by
  induction e generalizing n i j with
  | group _ e ih => exact ih h hdistinct i j
  | concat e f ihe ihf =>
    obtain ⟨m, hm, hrest⟩ := Option.bind_eq_some_iff.mp h
    obtain ⟨n', hn', -⟩ := Option.map_eq_some_iff.mp hrest
    refine ⟨?_⟩
    rintro ⟨k, first, second⟩ ⟨k', first', second'⟩
    have hk := eq_add_of_width hm ((nonempty_ways e i k).mp ⟨first⟩)
    obtain rfl : k = k' := hk.trans (eq_add_of_width hm ((nonempty_ways e i k').mp ⟨first'⟩)).symm
    have hfirst := ihe hm hdistinct.1 i k
    have hsecond := ihf hn' hdistinct.2 k j
    rw [Subsingleton.elim first first', Subsingleton.elim second second']
  | alternate e f ihe ihf =>
    rw [width] at h
    split at h
    · next heq =>
      have hfirst := ihe h hdistinct.2.1 i j
      have hsecond := ihf (heq ▸ h) hdistinct.2.2 i j
      have hnone (w : e.Ways tables text i j) (w' : f.Ways tables text i j) : False :=
        hdistinct.1 text i j ((nonempty_ways e i j).mp ⟨w⟩) ((nonempty_ways f i j).mp ⟨w'⟩)
      refine ⟨?_⟩
      rintro (w | w) (w' | w')
      · rw [Subsingleton.elim w w']
      · exact (hnone w w').elim
      · exact (hnone w' w).elim
      · rw [Subsingleton.elim w w']
    · exact absurd h nofun
  | repeated op _ e ih => exact absurd h nofun
  | _ =>
    refine ⟨?_⟩
    rintro ⟨_⟩ ⟨_⟩
    rfl

theorem Expr.oneWay_of_width {tables : Tables} {e : Expr} {n : ℕ} (h : e.width = some n)
    (hpos : 0 < n) (hdistinct : e.Distinct tables) : e.OneWay tables :=
  ⟨⟨n, hpos, fun _ _ _ => eq_add_of_width h⟩, subsingleton_ways h hdistinct⟩

end SimpleCdn.Regexp
