import Mathlib.Data.List.Basic
import Mathlib.Data.List.Induction

/-!
# Hysteresis

A flag follows a sequence of outcomes: it falls when a number of failures has come in a row and
rises when a number of successes has.  The reference automaton counts only what speaks against its
flag.  An implementation that counts both kinds, and keeps counting beyond the thresholds, has the
same flag, and its counters are the lengths of the streaks the outcomes end in.
-/

namespace SimpleCdn.Hysteresis

/-- How many outcomes of this kind the list ends in. -/
def streak (outcome : Bool) (outcomes : List Bool) : Nat :=
  (outcomes.reverse.takeWhile fun o => o = outcome).length

@[simp] theorem streak_nil (outcome : Bool) : streak outcome [] = 0 := rfl

@[simp] theorem streak_concat_same (outcome : Bool) (outcomes : List Bool) :
    streak outcome (outcomes ++ [outcome]) = streak outcome outcomes + 1 := by
  simp [streak]

@[simp] theorem streak_concat_not (outcome : Bool) (outcomes : List Bool) :
    streak outcome (outcomes ++ [!outcome]) = 0 := by
  cases outcome with
  | false => simp [streak]
  | true => simp [streak]

/-- A list does not end in two kinds of outcome. -/
theorem streak_eq_zero (outcomes : List Bool) :
    streak false outcomes = 0 ∨ streak true outcomes = 0 := by
  induction outcomes using List.reverseRecOn with
  | nil => exact .inl rfl
  | append_singleton outcomes outcome ih =>
    cases outcome with
    | false => exact .inr (streak_concat_not true outcomes)
    | true => exact .inl (streak_concat_not false outcomes)

/-! ### The reference automaton -/

inductive Phase
  | up (failures : Nat)
  | down (successes : Nat)
  deriving DecidableEq, Repr

def Phase.next (falls rises : Nat) : Phase → Bool → Phase
  | up _, true => up 0
  | up failures, false => if failures + 1 = falls then down 0 else up (failures + 1)
  | down _, false => down 0
  | down successes, true => if successes + 1 = rises then up 0 else down (successes + 1)

def Phase.isUp : Phase → Bool
  | up _ => true
  | down _ => false

/-- The phase after the outcomes; it starts down. -/
def phase (falls rises : Nat) (outcomes : List Bool) : Phase :=
  outcomes.foldl (Phase.next falls rises) (.down 0)

theorem phase_concat (falls rises : Nat) (outcomes : List Bool) (outcome : Bool) :
    phase falls rises (outcomes ++ [outcome]) = (phase falls rises outcomes).next falls rises outcome := by
  rw [phase, List.foldl_append, phase]
  rfl

/-! ### Two counters -/

structure Counters where
  failures : Nat
  successes : Nat
  flag : Bool
  deriving DecidableEq, Repr

def Counters.count (falls rises : Nat) (c : Counters) : Bool → Counters
  | true => ⟨0, c.successes + 1, if rises ≤ c.successes + 1 then true else c.flag⟩
  | false => ⟨c.failures + 1, 0, if falls ≤ c.failures + 1 then false else c.flag⟩

def counters (falls rises : Nat) (outcomes : List Bool) : Counters :=
  outcomes.foldl (Counters.count falls rises) ⟨0, 0, false⟩

section

variable {falls rises : Nat}

theorem counters_concat (outcomes : List Bool) (outcome : Bool) :
    counters falls rises (outcomes ++ [outcome]) =
      (counters falls rises outcomes).count falls rises outcome := by
  rw [counters, List.foldl_append, counters]
  rfl

/-- What the counters of a phase are. -/
def Phase.Agrees (falls rises : Nat) (c : Counters) : Phase → Prop
  | up failures => c.flag = true ∧ c.failures = failures ∧ failures < falls
  | down successes => c.flag = false ∧ c.successes = successes ∧ successes < rises

theorem Phase.Agrees.next {c : Counters} {p : Phase} (hfalls : 0 < falls) (hrises : 0 < rises)
    (h : p.Agrees falls rises c) (outcome : Bool) :
    (p.next falls rises outcome).Agrees falls rises (c.count falls rises outcome) := by
  cases p with
  | up failures =>
    obtain ⟨hflag, hcount, hlow⟩ := h
    cases outcome with
    | true =>
      refine ⟨?_, rfl, hfalls⟩
      simp only [Counters.count, hflag, ite_self]
    | false =>
      simp only [Phase.next]
      split
      · next hreached =>
        refine ⟨?_, rfl, hrises⟩
        rw [Counters.count, if_pos (by omega)]
      · next hbelow =>
        refine ⟨?_, ?_, by omega⟩
        · rw [Counters.count, if_neg (by omega), hflag]
        · rw [Counters.count, hcount]
  | down successes =>
    obtain ⟨hflag, hcount, hlow⟩ := h
    cases outcome with
    | false =>
      refine ⟨?_, rfl, hrises⟩
      simp only [Counters.count, hflag, ite_self]
    | true =>
      simp only [Phase.next]
      split
      · next hreached =>
        refine ⟨?_, rfl, hfalls⟩
        rw [Counters.count, if_pos (by omega)]
      · next hbelow =>
        refine ⟨?_, ?_, by omega⟩
        · rw [Counters.count, if_neg (by omega), hflag]
        · rw [Counters.count, hcount]

theorem phase_agrees (hfalls : 0 < falls) (hrises : 0 < rises) (outcomes : List Bool) :
    (phase falls rises outcomes).Agrees falls rises (counters falls rises outcomes) := by
  induction outcomes using List.reverseRecOn with
  | nil => exact ⟨rfl, rfl, hrises⟩
  | append_singleton outcomes outcome ih =>
    rw [phase_concat, counters_concat]
    exact ih.next hfalls hrises outcome

/-- The flag is that of the reference automaton. -/
theorem counters_flag (hfalls : 0 < falls) (hrises : 0 < rises) (outcomes : List Bool) :
    (counters falls rises outcomes).flag = (phase falls rises outcomes).isUp := by
  have h := phase_agrees hfalls hrises outcomes
  cases hphase : phase falls rises outcomes with
  | up failures =>
    rw [hphase] at h
    exact h.1
  | down successes =>
    rw [hphase] at h
    exact h.1

/-- The counters are the streaks. -/
theorem counters_streaks (outcomes : List Bool) :
    (counters falls rises outcomes).failures = streak false outcomes ∧
      (counters falls rises outcomes).successes = streak true outcomes := by
  induction outcomes using List.reverseRecOn with
  | nil => exact ⟨rfl, rfl⟩
  | append_singleton outcomes outcome ih =>
    obtain ⟨hfailures, hsuccesses⟩ := ih
    rw [counters_concat]
    cases outcome with
    | false =>
      refine ⟨?_, (streak_concat_not true outcomes).symm⟩
      rw [streak_concat_same, ← hfailures]
      rfl
    | true =>
      refine ⟨(streak_concat_not false outcomes).symm, ?_⟩
      rw [streak_concat_same, ← hsuccesses]
      rfl

/-- The streak against the flag is below its threshold. -/
theorem streak_lt (hfalls : 0 < falls) (hrises : 0 < rises) (outcomes : List Bool) :
    if (counters falls rises outcomes).flag then streak false outcomes < falls
    else streak true outcomes < rises := by
  have h := phase_agrees hfalls hrises outcomes
  obtain ⟨hfailures, hsuccesses⟩ : (counters falls rises outcomes).failures = _ ∧ _ :=
    counters_streaks outcomes
  cases hphase : phase falls rises outcomes with
  | up failures =>
    rw [hphase] at h
    obtain ⟨hflag, hcount, hlow⟩ := h
    rw [if_pos hflag, ← hfailures, hcount]
    exact hlow
  | down successes =>
    rw [hphase] at h
    obtain ⟨hflag, hcount, hlow⟩ := h
    rw [hflag, if_neg Bool.false_ne_true, ← hsuccesses, hcount]
    exact hlow

/-- The flag falls exactly when the last of `falls` failures in a row comes. -/
theorem falls_iff (hfalls : 0 < falls) (hrises : 0 < rises) (outcomes : List Bool) (outcome : Bool)
    (hup : (counters falls rises outcomes).flag = true) :
    (counters falls rises (outcomes ++ [outcome])).flag = false ↔
      streak false (outcomes ++ [outcome]) = falls := by
  have hbelow := streak_lt hfalls hrises outcomes
  rw [if_pos hup] at hbelow
  rw [counters_concat]
  cases outcome with
  | false =>
    rw [streak_concat_same]
    simp only [Counters.count, hup, (counters_streaks outcomes).1]
    split
    · next hreached => exact iff_of_true rfl (by omega)
    · next hnot => exact iff_of_false nofun (by omega)
  | true =>
    rw [show streak false (outcomes ++ [true]) = 0 from streak_concat_not false outcomes]
    simp only [Counters.count, hup, ite_self]
    exact iff_of_false nofun (by omega)

/-- The flag rises exactly when the last of `rises` successes in a row comes. -/
theorem rises_iff (hfalls : 0 < falls) (hrises : 0 < rises) (outcomes : List Bool) (outcome : Bool)
    (hdown : (counters falls rises outcomes).flag = false) :
    (counters falls rises (outcomes ++ [outcome])).flag = true ↔
      streak true (outcomes ++ [outcome]) = rises := by
  have hbelow := streak_lt hfalls hrises outcomes
  rw [hdown, if_neg Bool.false_ne_true] at hbelow
  rw [counters_concat]
  cases outcome with
  | true =>
    rw [streak_concat_same]
    simp only [Counters.count, hdown, (counters_streaks outcomes).2]
    split
    · next hreached => exact iff_of_true rfl (by omega)
    · next hnot => exact iff_of_false nofun (by omega)
  | false =>
    rw [show streak true (outcomes ++ [false]) = 0 from streak_concat_not true outcomes]
    simp only [Counters.count, hdown, ite_self]
    exact iff_of_false nofun (by omega)

end

end SimpleCdn.Hysteresis
