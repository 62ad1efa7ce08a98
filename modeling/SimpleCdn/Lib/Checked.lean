import Mathlib.Logic.Basic

/-!
# Computations that may fail

Fallible operations are functions into `Except`.  The lemmas here take a successful `do` block
apart: a bind succeeds exactly when its parts do, a check exactly when its condition holds, and
a lookup exactly when it finds something.  Proofs about an operation use them with `simp only`
and never unfold a bind.
-/

namespace SimpleCdn

variable {ε α β : Type}

/-- Fail with `e` unless `c` holds. -/
def require (c : Prop) [Decidable c] (e : ε) : Except ε Unit :=
  if c then .ok () else .error e

/-- The value, or failure with `e`. -/
def orError (o : Option α) (e : ε) : Except ε α :=
  match o with
  | some a => .ok a
  | none => .error e

@[simp] theorem require_eq_ok {c : Prop} [Decidable c] {e : ε} {u : Unit} :
    require c e = .ok u ↔ c := by
  unfold require
  split <;> simp_all

@[simp] theorem orError_eq_ok {o : Option α} {e : ε} {a : α} :
    orError o e = .ok a ↔ o = some a := by
  cases o <;> simp [orError]

@[simp] theorem bind_eq_ok {x : Except ε α} {f : α → Except ε β} {b : β} :
    (x >>= f) = .ok b ↔ ∃ a, x = .ok a ∧ f a = .ok b := by
  cases x <;> simp [bind, Except.bind]

@[simp] theorem map_eq_ok {f : α → β} {x : Except ε α} {b : β} :
    (f <$> x) = .ok b ↔ ∃ a, x = .ok a ∧ f a = b := by
  cases x <;> simp [Functor.map, Except.map]

@[simp] theorem pure_eq_ok {a b : α} : (pure a : Except ε α) = .ok b ↔ a = b := by
  simp [pure, Except.pure]

@[simp] theorem throw_ne_ok {e : ε} {a : α} : (throw e : Except ε α) = .ok a ↔ False := by
  simp [throw, throwThe, MonadExceptOf.throw]

@[simp] theorem mapError_eq_ok {ε' : Type} {f : ε → ε'} {x : Except ε α} {a : α} :
    x.mapError f = .ok a ↔ x = .ok a := by
  cases x with
  | ok b =>
    show (.ok b : Except ε' α) = .ok a ↔ _
    simp
  | error e =>
    show (.error (f e) : Except ε' α) = .ok a ↔ _
    simp

/-! ### Early returns

An operation that may return early with the state it has reached is a computation whose error is
that state. -/

/-- The computation ends in `Q`, or early in `E`. -/
def Ends (E : ε → Prop) (Q : α → Prop) : Except ε α → Prop
  | .ok a => Q a
  | .error e => E e

section Ends

variable {E : ε → Prop} {Q : α → Prop}

@[simp] theorem ends_ok {a : α} : Ends E Q (.ok a) ↔ Q a := Iff.rfl

@[simp] theorem ends_error {e : ε} : Ends E Q (.error e) ↔ E e := Iff.rfl

@[simp] theorem ends_pure {a : α} : Ends E Q (pure a) ↔ Q a := Iff.rfl

@[simp] theorem ends_bind {x : Except ε β} {f : β → Except ε α} :
    Ends E Q (x >>= f) ↔ Ends E (fun b => Ends E Q (f b)) x := by
  cases x <;> rfl

@[simp] theorem ends_require {c : Prop} [Decidable c] {e : ε} {Q : Unit → Prop} :
    Ends E Q (require c e) ↔ (c → Q ()) ∧ (¬ c → E e) := by
  unfold require
  split <;> simp_all [Ends]

@[simp] theorem ends_mapError {ε' : Type} {f : ε' → ε} {x : Except ε' α} :
    Ends E Q (x.mapError f) ↔ Ends (fun e => E (f e)) Q x := by
  cases x <;> rfl

theorem ends_iff {x : Except ε α} :
    Ends E Q x ↔ (∀ a, x = .ok a → Q a) ∧ ∀ e, x = .error e → E e := by
  cases x with
  | ok a => simp
  | error e => simp

theorem Ends.mono {F : ε → Prop} {R : α → Prop} {x : Except ε α} (h : Ends E Q x)
    (hE : ∀ e, E e → F e) (hQ : ∀ a, Q a → R a) : Ends F R x := by
  cases x with
  | ok a => exact hQ a h
  | error e => exact hE e h

/-- A loop ends in what each pass preserves, or early in what each pass may end in; the property
may say which elements have been passed. -/
theorem ends_foldlM {f : β → α → Except ε β} {P : List α → β → Prop} {l : List α}
    (hstep : ∀ done a rest b, l = done ++ a :: rest → P done b →
      Ends E (P (done ++ [a])) (f b a)) {b : β} (hb : P [] b) :
    Ends E (P l) (l.foldlM f b) := by
  have hrest : ∀ rest done b, l = done ++ rest → P done b → Ends E (P l) (rest.foldlM f b) := by
    intro rest
    induction rest with
    | nil =>
      intro done b hl hdone
      rw [List.append_nil] at hl
      subst hl
      exact hdone
    | cons a rest ih =>
      intro done b hl hdone
      rw [List.foldlM_cons, ends_bind]
      refine (hstep done a rest b hl hdone).mono (fun e he => he) fun b' hb' => ?_
      exact ih (done ++ [a]) b' (by rw [hl, List.append_assoc]; rfl) hb'
  exact hrest l [] b rfl hb

/-- The state of an operation that may have returned early. -/
def returned : Except ε ε → ε
  | .ok m => m
  | .error m => m

theorem Ends.returned {x : Except ε ε} (h : Ends E E x) : E (returned x) := by
  cases x <;> exact h

end Ends

theorem isOk_iff {x : Except ε α} : x.isOk = true ↔ ∃ a, x = .ok a := by
  cases x <;> simp [Except.isOk, Except.toBool]

end SimpleCdn
