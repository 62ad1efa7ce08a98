import SimpleCdn.Lib.Crash

/-!
# Programs that report errors

An attempt is a program that ends with a value or with an error; what follows an error is not run.
Its weakest precondition has a postcondition of its own for the states in which an error is
reported, so that a chain of attempts is verified without a case split after each of them.
-/

namespace SimpleCdn.Crash

open Prog

/-- A program on the state `σ` that ends with a value in `α` or an error in `ε`. -/
def Attempt (ε σ α : Type) := ExceptT ε (Prog σ) α

namespace Attempt

variable {ε σ α β : Type}

instance : Monad (Attempt ε σ) := inferInstanceAs (Monad (ExceptT ε (Prog σ)))

instance : MonadExceptOf ε (Attempt ε σ) :=
  inferInstanceAs (MonadExceptOf ε (ExceptT ε (Prog σ)))

/-- The attempt as a program whose result is the value or the error. -/
def run (p : Attempt ε σ α) : Prog σ (Except ε α) := p

/-- A program that reports no error. -/
def lift (p : Prog σ α) : Attempt ε σ α := (p >>= fun a => pure (.ok a) : Prog σ (Except ε α))

/-- An operation that takes effect, or else the error is reported. -/
def act (error : ε) (effect : σ → Option σ) : Attempt ε σ Unit :=
  (Prog.act effect >>= fun ok => pure (if ok then .ok () else .error error) :
    Prog σ (Except ε Unit))

/-- A statement sent to a server, whose answer may be lost. -/
def request (error : ε) (effect : σ → Option σ) : Attempt ε σ Unit :=
  (Prog.request effect >>= fun ok => pure (if ok then .ok () else .error error) :
    Prog σ (Except ε Unit))

/-- A look at the state, or else the error is reported. -/
def look (error : ε) (view : σ → β) : Attempt ε σ β :=
  (inspect view >>= fun seen => pure (seen.elim (.error error) .ok) : Prog σ (Except ε β))

/-- A result that is known already. -/
def ofExcept : Except ε α → Attempt ε σ α
  | .ok a => pure a
  | .error e => throw e

/-- What follows an error. -/
def handled {φ : Type} (handle : ε → Attempt φ σ α) : Except ε α → Prog σ (Except φ α)
  | .ok a => pure (.ok a)
  | .error e => (handle e).run

/-- Another attempt goes on where this one reports an error. -/
def handling {φ : Type} (p : Attempt ε σ α) (handle : ε → Attempt φ σ α) : Attempt φ σ α :=
  (p.run >>= handled handle : Prog σ (Except φ α))

/-- The attempts of a list in turn, up to the first that reports an error. -/
def each {ι : Type} (body : ι → Attempt ε σ Unit) : List ι → Attempt ε σ Unit
  | [] => pure ()
  | x :: xs => do
    body x
    each body xs

/-- `Q` of a value, `E` of an error. -/
def outcome (Q : α → σ → Prop) (E : ε → σ → Prop) : Except ε α → σ → Prop
  | .ok a => Q a
  | .error e => E e

/-- Whatever the faults are, the attempt ends in `Q`, reports an error in `E` or stops in `C`. -/
def wp (p : Attempt ε σ α) (Q : α → σ → Prop) (E : ε → σ → Prop) (C : σ → Prop) (s : σ) : Prop :=
  p.run.wp (outcome Q E) C s

section Rules

variable {Q R : α → σ → Prop} {E F : ε → σ → Prop} {C D : σ → Prop} {s : σ}

theorem outcome_eq (P : Except ε α → σ → Prop) :
    outcome (fun a => P (.ok a)) (fun e => P (.error e)) = P := by
  funext result
  cases result <;> rfl

theorem run_wp {p : Attempt ε σ α} {P : Except ε α → σ → Prop} :
    p.run.wp P C s ↔ p.wp (fun a => P (.ok a)) (fun e => P (.error e)) C s := by
  rw [wp, outcome_eq P]

theorem wp.mono {p : Attempt ε σ α} (h : p.wp Q E C s) (hQ : ∀ a s, Q a s → R a s)
    (hE : ∀ e s, E e s → F e s) (hC : ∀ s, C s → D s) : p.wp R F D s := by
  refine Prog.wp.mono h (fun result s hpost => ?_) hC
  cases result with
  | ok a => exact hQ a s hpost
  | error e => exact hE e s hpost

/-- A property that holds however the run ends. -/
theorem wp.state {p : Attempt ε σ α} (h : p.wp (fun _ => C) (fun _ => C) C s)
    (faults : List Fault) : C (p.run.exec faults s).state := by
  refine Prog.wp.state (Prog.wp.mono h (fun result s' hpost => ?_) fun _ h => h) faults
  cases result with
  | ok a => exact hpost
  | error e => exact hpost

theorem wp.ok {p : Attempt ε σ α} (h : p.wp Q E C s) {faults : List Fault} {a : α}
    (ha : (p.run.exec faults s).result = some (.ok a)) : Q a (p.run.exec faults s).state :=
  Prog.wp.exec h ha

theorem wp.error {p : Attempt ε σ α} (h : p.wp Q E C s) {faults : List Fault} {e : ε}
    (he : (p.run.exec faults s).result = some (.error e)) : E e (p.run.exec faults s).state :=
  Prog.wp.exec h he

@[simp] theorem wp_pure {a : α} : (pure a : Attempt ε σ α).wp Q E C s ↔ Q a s := Iff.rfl

@[simp] theorem wp_throw {e : ε} : (throw e : Attempt ε σ α).wp Q E C s ↔ E e s := Iff.rfl

@[simp] theorem wp_bind {p : Attempt ε σ β} {k : β → Attempt ε σ α} :
    (p >>= k).wp Q E C s ↔ p.wp (fun b => (k b).wp Q E C) E C s := by
  change (p.run >>= ExceptT.bindCont k).wp _ C s ↔ p.run.wp _ C s
  rw [Prog.wp_bind]
  have hcont : (fun result => (ExceptT.bindCont k result).wp (outcome Q E) C) =
      outcome (fun b => (k b).wp Q E C) E := by
    funext result
    cases result <;> rfl
  rw [hcont]

@[simp] theorem wp_ite {c : Prop} [Decidable c] {p q : Attempt ε σ α} :
    (if c then p else q).wp Q E C s ↔ (c → p.wp Q E C s) ∧ (¬ c → q.wp Q E C s) := by
  split <;> simp_all

@[simp] theorem wp_lift {p : Prog σ α} : (lift p : Attempt ε σ α).wp Q E C s ↔ p.wp Q C s := by
  rw [wp, run, lift, Prog.wp_bind]
  rfl

@[simp] theorem wp_ofExcept {result : Except ε α} :
    (ofExcept result : Attempt ε σ α).wp Q E C s ↔ outcome Q E result s := by
  cases result with
  | ok a => exact Iff.rfl
  | error e => exact Iff.rfl

@[simp] theorem wp_handling {φ : Type} {p : Attempt φ σ α} {handle : φ → Attempt ε σ α} :
    (p.handling handle).wp Q E C s ↔ p.wp Q (fun e => (handle e).wp Q E C) C s := by
  rw [wp, run, handling, Prog.wp_bind]
  have hcont : (fun result => (handled handle result).wp (outcome Q E) C) =
      outcome Q fun e => (handle e).wp Q E C := by
    funext result
    cases result <;> rfl
  rw [hcont]
  rfl

/-- The rule of `each`: what holds between two of its attempts, by the names that are left. -/
theorem wp_each {ι : Type} {body : ι → Attempt ε σ Unit} (I : List ι → σ → Prop)
    (hbody : ∀ x xs s, I (x :: xs) s → (body x).wp (fun _ => I xs) E C s) {xs : List ι}
    (h : I xs s) : (each body xs).wp (fun _ => I []) E C s := by
  induction xs generalizing s with
  | nil => exact h
  | cons x xs ih =>
    rw [each, wp_bind]
    exact (hbody x xs s h).mono (fun _ _ h => ih h) (fun _ _ h => h) fun _ h => h

@[simp] theorem wp_act {error : ε} {effect : σ → Option σ} {Q : Unit → σ → Prop} :
    (act error effect).wp Q E C s ↔
      E error s ∧ C s ∧ ∀ s', effect s = some s' → Q () s' ∧ C s' := by
  rw [wp, run, act, Prog.wp_bind, Prog.wp_act]
  rfl

@[simp] theorem wp_request {error : ε} {effect : σ → Option σ} {Q : Unit → σ → Prop} :
    (request error effect).wp Q E C s ↔
      E error s ∧ C s ∧ ∀ s', effect s = some s' → Q () s' ∧ E error s' ∧ C s' := by
  rw [wp, run, request, Prog.wp_bind, Prog.wp_request]
  rfl

@[simp] theorem wp_look {error : ε} {view : σ → β} {Q : β → σ → Prop} :
    (look error view).wp Q E C s ↔ E error s ∧ C s ∧ Q (view s) s := by
  rw [wp, run, look, Prog.wp_bind, Prog.wp_inspect]
  rfl

end Rules

/-! ### Runs without a fault -/

/-- When nothing fails or stops it, the attempt ends in `Q` or reports an error in `E`. -/
def ends (p : Attempt ε σ α) (Q : α → σ → Prop) (E : ε → σ → Prop) (s : σ) : Prop :=
  p.run.ends (outcome Q E) s

section Ends

variable {Q : α → σ → Prop} {E : ε → σ → Prop} {s : σ}

theorem run_ends {p : Attempt ε σ α} {P : Except ε α → σ → Prop} :
    p.run.ends P s ↔ p.ends (fun a => P (.ok a)) (fun e => P (.error e)) s := by
  rw [ends, outcome_eq P]

@[simp] theorem ends_pure {a : α} : (pure a : Attempt ε σ α).ends Q E s ↔ Q a s := Iff.rfl

@[simp] theorem ends_throw {e : ε} : (throw e : Attempt ε σ α).ends Q E s ↔ E e s := Iff.rfl

@[simp] theorem ends_bind {p : Attempt ε σ β} {k : β → Attempt ε σ α} :
    (p >>= k).ends Q E s ↔ p.ends (fun b => (k b).ends Q E) E s := by
  change (p.run >>= ExceptT.bindCont k).ends _ s ↔ p.run.ends _ s
  rw [Prog.ends_bind]
  have hcont : (fun result => (ExceptT.bindCont k result).ends (outcome Q E)) =
      outcome (fun b => (k b).ends Q E) E := by
    funext result
    cases result <;> rfl
  rw [hcont]

theorem ends_ite {c : Prop} [Decidable c] {p q : Attempt ε σ α} :
    (if c then p else q).ends Q E s ↔ if c then p.ends Q E s else q.ends Q E s := by
  split <;> rfl

@[simp] theorem ends_lift {p : Prog σ α} : (lift p : Attempt ε σ α).ends Q E s ↔ p.ends Q s := by
  rw [ends, run, lift, Prog.ends_bind]
  rfl

@[simp] theorem ends_act {error : ε} {effect : σ → Option σ} {Q : Unit → σ → Prop} :
    (act error effect).ends Q E s ↔ match effect s with
      | some s' => Q () s'
      | none => E error s := by
  rw [ends, run, act, Prog.ends_bind, Prog.ends_act]
  cases effect s <;> rfl

@[simp] theorem ends_request {error : ε} {effect : σ → Option σ} {Q : Unit → σ → Prop} :
    (request error effect).ends Q E s ↔ match effect s with
      | some s' => Q () s'
      | none => E error s := by
  rw [ends, run, request, Prog.ends_bind, Prog.ends_request]
  cases effect s <;> rfl

@[simp] theorem ends_look {error : ε} {view : σ → β} {Q : β → σ → Prop} :
    (look error view).ends Q E s ↔ Q (view s) s := Iff.rfl

theorem ends.mono {R : α → σ → Prop} {F : ε → σ → Prop} {p : Attempt ε σ α} (h : p.ends Q E s)
    (hQ : ∀ a s, Q a s → R a s) (hE : ∀ e s, E e s → F e s) : p.ends R F s := by
  refine Prog.ends.mono h fun result s hpost => ?_
  cases result with
  | ok a => exact hQ a s hpost
  | error e => exact hE e s hpost

/-- An attempt that ends without an error has a value. -/
theorem ends.result {p : Attempt ε σ α} (h : p.ends Q (fun _ _ => False) s) :
    ∃ a, (p.run.exec [] s).result = some (.ok a) ∧ Q a (p.run.exec [] s).state := by
  obtain ⟨result, hresult, hpost⟩ := Prog.ends_iff.mp h
  cases result with
  | ok a => exact ⟨a, hresult, hpost⟩
  | error e => exact hpost.elim

end Ends

end Attempt

end SimpleCdn.Crash
