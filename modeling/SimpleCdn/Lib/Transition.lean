import Mathlib.Data.List.Basic

/-!
# Runs of a transition function

A system is a state type, an action type and a total function `step`; an action that is not
enabled leaves the state alone.  `run` takes a list of actions.  `Along` says that a condition on
the state and the action taken there holds at every step of a run, and `Always` that a property
holds in every state of it, the first and the last included.

The rules below are the inductions over runs, stated once: an invariant that every step
preserves, an invariant that every step meeting a condition preserves, and a preorder that every
step moves along.
-/

namespace SimpleCdn.Transition

variable {σ α : Type*} (step : σ → α → σ)

/-- The state after the actions `as`, taken in order. -/
def run (s : σ) (as : List α) : σ :=
  as.foldl step s

@[simp] theorem run_nil (s : σ) : run step s [] = s := rfl

@[simp] theorem run_cons (s : σ) (a : α) (as : List α) :
    run step s (a :: as) = run step (step s a) as := rfl

@[simp] theorem run_append (s : σ) (as bs : List α) :
    run step s (as ++ bs) = run step (run step s as) bs := by
  simp [run]

/-- The states some run from an initial state ends in. -/
def Reachable (init : σ → Prop) (s : σ) : Prop :=
  ∃ s₀ as, init s₀ ∧ run step s₀ as = s

/-- Every action of the run meets the condition `G` in the state it is taken in. -/
def Along (G : σ → α → Prop) : σ → List α → Prop
  | _, [] => True
  | s, a :: as => G s a ∧ Along G (step s a) as

/-- Every state of the run has the property `P`. -/
def Always (P : σ → Prop) : σ → List α → Prop
  | s, [] => P s
  | s, a :: as => P s ∧ Always P (step s a) as

instance decidableAlong {G : σ → α → Prop} [∀ s a, Decidable (G s a)] :
    ∀ s as, Decidable (Along step G s as)
  | _, [] => .isTrue trivial
  | s, a :: as => @instDecidableAnd _ _ _ (decidableAlong (step s a) as)

section Rules

variable {step} {init : σ → Prop} {G H : σ → α → Prop} {P Q : σ → Prop}

theorem reachable_init {s : σ} (h : init s) : Reachable step init s :=
  ⟨s, [], h, rfl⟩

theorem Reachable.run {s : σ} (h : Reachable step init s) (as : List α) :
    Reachable step init (run step s as) := by
  obtain ⟨s₀, bs, h₀, rfl⟩ := h
  exact ⟨s₀, bs ++ as, h₀, by simp⟩

theorem Reachable.next {s : σ} (h : Reachable step init s) (a : α) :
    Reachable step init (step s a) :=
  h.run [a]

@[simp] theorem along_nil (s : σ) : Along step G s [] := trivial

@[simp] theorem along_cons (s : σ) (a : α) (as : List α) :
    Along step G s (a :: as) ↔ G s a ∧ Along step G (step s a) as := Iff.rfl

@[simp] theorem always_nil (s : σ) : Always step P s [] ↔ P s := Iff.rfl

@[simp] theorem always_cons (s : σ) (a : α) (as : List α) :
    Always step P s (a :: as) ↔ P s ∧ Always step P (step s a) as := Iff.rfl

theorem along_append (s : σ) (as bs : List α) :
    Along step G s (as ++ bs) ↔ Along step G s as ∧ Along step G (run step s as) bs := by
  induction as generalizing s with
  | nil => simp
  | cons a as ih => simp [ih, and_assoc]

theorem Along.mono {s : σ} {as : List α} (h : Along step G s as)
    (himp : ∀ s a, G s a → H s a) : Along step H s as := by
  induction as generalizing s with
  | nil => trivial
  | cons a as ih => exact ⟨himp _ _ h.1, ih h.2⟩

theorem Always.mono {s : σ} {as : List α} (h : Always step P s as) (himp : ∀ s, P s → Q s) :
    Always step Q s as := by
  induction as generalizing s with
  | nil => exact himp _ h
  | cons a as ih => exact ⟨himp _ h.1, ih h.2⟩

theorem Always.head {s : σ} {as : List α} (h : Always step P s as) : P s := by
  cases as with
  | nil => exact h
  | cons a as => exact h.1

theorem Always.last {s : σ} {as : List α} (h : Always step P s as) : P (run step s as) := by
  induction as generalizing s with
  | nil => exact h
  | cons a as ih => exact ih h.2

theorem always_append (s : σ) (as bs : List α) :
    Always step P s (as ++ bs) ↔ Always step P s as ∧ Always step P (run step s as) bs := by
  induction as generalizing s with
  | nil => simpa using Always.head
  | cons a as ih => simp [ih, and_assoc]

/-- A property that every step preserves holds at the end of every run. -/
theorem run_invariant (hstep : ∀ s a, P s → P (step s a)) {s : σ} (hs : P s) (as : List α) :
    P (run step s as) := by
  induction as generalizing s with
  | nil => exact hs
  | cons a as ih => exact ih (hstep s a hs)

theorem Reachable.invariant (hinit : ∀ s, init s → P s) (hstep : ∀ s a, P s → P (step s a))
    {s : σ} (h : Reachable step init s) : P s := by
  obtain ⟨s₀, as, h₀, rfl⟩ := h
  exact run_invariant hstep (hinit s₀ h₀) as

/-- A property that every step meeting `G` preserves holds in every state of a run along
which `G` holds. -/
theorem Along.always (hstep : ∀ s a, P s → G s a → P (step s a)) {s : σ} (hs : P s)
    {as : List α} (h : Along step G s as) : Always step P s as := by
  induction as generalizing s with
  | nil => exact hs
  | cons a as ih => exact ⟨hs, ih (hstep s a hs h.1) h.2⟩

theorem Along.invariant (hstep : ∀ s a, P s → G s a → P (step s a)) {s : σ} (hs : P s)
    {as : List α} (h : Along step G s as) : P (run step s as) :=
  (h.always hstep hs).last

/-- What a step meeting `G` does in the states of an invariant holds along the run. -/
theorem Along.of_invariant (hstep : ∀ s a, P s → G s a → P (step s a))
    (himp : ∀ s a, P s → G s a → H s a) {s : σ} (hs : P s) {as : List α}
    (h : Along step G s as) : Along step H s as := by
  induction as generalizing s with
  | nil => trivial
  | cons a as ih => exact ⟨himp s a hs h.1, ih (hstep s a hs h.1) h.2⟩

/-- When, in the states of an invariant, a step meeting `P` keeps `P` exactly if it meets `G`, a run
has `P` throughout exactly if every step meets `G`. -/
theorem along_iff_always {I : σ → Prop} (hinv : ∀ s a, I s → I (step s a))
    (hiff : ∀ s a, I s → P s → (G s a ↔ P (step s a))) {s : σ} (hI : I s) (hs : P s)
    (as : List α) : Along step G s as ↔ Always step P s as := by
  induction as generalizing s with
  | nil => exact ⟨fun _ => hs, fun _ => trivial⟩
  | cons a as ih =>
    constructor
    · rintro ⟨hG, hrest⟩
      have hnext := (hiff s a hI hs).mp hG
      exact ⟨hs, (ih (hinv s a hI) hnext).mp hrest⟩
    · rintro ⟨-, hrest⟩
      have hnext : P (step s a) := hrest.head
      exact ⟨(hiff s a hI hs).mpr hnext, (ih (hinv s a hI) hnext).mpr hrest⟩

/-- A property that holds only after steps meeting `G` holds throughout only along `G`. -/
theorem Always.along {I : σ → Prop} (hinv : ∀ s a, I s → I (step s a))
    (himp : ∀ s a, I s → P (step s a) → G s a) {s : σ} (hI : I s) {as : List α}
    (h : Always step P s as) : Along step G s as := by
  induction as generalizing s with
  | nil => trivial
  | cons a as ih => exact ⟨himp s a hI h.2.head, ih (hinv s a hI) h.2⟩

/-- Two properties that agree in the states of an invariant hold along the same runs. -/
theorem always_congr {I : σ → Prop} (hinv : ∀ s a, I s → I (step s a))
    (hiff : ∀ s, I s → (P s ↔ Q s)) {s : σ} (hI : I s) (as : List α) :
    Always step P s as ↔ Always step Q s as := by
  induction as generalizing s with
  | nil => exact hiff s hI
  | cons a as ih => exact and_congr (hiff s hI) (ih (hinv s a hI))

/-- The first and the last state of a run are related by any preorder its steps move along. -/
theorem Along.rel {R : σ → σ → Prop} (hrefl : ∀ s, R s s)
    (htrans : ∀ {s t u}, R s t → R t u → R s u) (hstep : ∀ s a, G s a → R s (step s a))
    {s : σ} {as : List α} (h : Along step G s as) : R s (run step s as) := by
  induction as generalizing s with
  | nil => exact hrefl s
  | cons a as ih => exact htrans (hstep s a h.1) (ih h.2)

/-! ### Prefixes of a run -/

/-- A condition along a run, position by position. -/
theorem along_iff_prefix {s : σ} {as : List α} :
    Along step G s as ↔ ∀ bs a, bs ++ [a] <+: as → G (Transition.run step s bs) a := by
  constructor
  · rintro h bs a ⟨cs, rfl⟩
    rw [List.append_assoc, along_append] at h
    exact h.2.1
  · intro h
    induction as generalizing s with
    | nil => trivial
    | cons a as ih =>
      refine ⟨h [] a ⟨as, rfl⟩, ih fun bs b hbs => ?_⟩
      exact h (a :: bs) b ((List.prefix_cons_inj a).mpr hbs)

theorem Along.of_prefix {s : σ} {as bs : List α} (h : Along step G s as) (hbs : bs <+: as) :
    Along step G s bs := by
  obtain ⟨cs, rfl⟩ := hbs
  exact ((along_append s bs cs).mp h).1

/-- Any two states of the run, the earlier one first, are related by a preorder its steps move
along. -/
theorem Along.rel_prefix {R : σ → σ → Prop} (hrefl : ∀ s, R s s)
    (htrans : ∀ {s t u}, R s t → R t u → R s u) (hstep : ∀ s a, G s a → R s (step s a))
    {s : σ} {as bs cs : List α} (h : Along step G s as) (hbs : bs <+: cs) (hcs : cs <+: as) :
    R (Transition.run step s bs) (Transition.run step s cs) := by
  have hcs := h.of_prefix hcs
  obtain ⟨ds, rfl⟩ := hbs
  rw [along_append] at hcs
  rw [run_append]
  exact hcs.2.rel hrefl htrans hstep

end Rules

end SimpleCdn.Transition
