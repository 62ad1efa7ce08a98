import Mathlib.Logic.Basic
import Mathlib.Tactic.Tauto

/-!
# Programs whose operations fail or stop the process

A program is a tree of operations on a state.  What an operation does is decided by a fault that
the environment picks for it: it may go through, fail without an effect, take effect although its
answer is lost, or be the last thing the process does.  `exec` runs a program under a list of
faults, one for each operation, and `wp` is its weakest precondition over all of them: `Q` holds
of the result and the state when the program ends, and `C` of the state when the process stops in
the middle.

`wp` is defined by recursion on the tree, so every operation has a rule that rewrites it to first
order statements, and `wp_iff` says that it speaks about every run.  `zoom` lets a program on a
part of a state run on the whole.
-/

namespace SimpleCdn.Crash

/-- What the environment makes of one operation. -/
inductive Fault
  | none
  /-- The operation reports an error and has no effect. -/
  | fails
  /-- The operation takes effect and reports an error all the same. -/
  | lost
  /-- The process stops before the operation takes effect. -/
  | stops
  /-- The process stops after the operation has taken effect. -/
  | stopsAfter
  deriving DecidableEq, Repr, Inhabited

/-- A program on the state `σ` with results in `α`. -/
inductive Prog (σ α : Type) : Type 1
  | done (a : α)
  | op {β : Type} (next : Fault → σ → Option β × σ) (rest : β → Prog σ α)

namespace Prog

variable {σ τ α β γ : Type}

def bind : Prog σ α → (α → Prog σ β) → Prog σ β
  | done a, k => k a
  | op next rest, k => op next fun b => (rest b).bind k

instance : Monad (Prog σ) where
  pure := done
  bind := bind

/-- How a run of a program ended: with a result, or (`none`) because the process stopped. -/
structure Outcome (σ α : Type) where
  result : Option α
  state : σ

/-- The run of a program under the faults given; operations past the end of the list go
through. -/
def exec : Prog σ α → List Fault → σ → Outcome σ α
  | done a, _, s => ⟨some a, s⟩
  | op next rest, faults, s =>
    match next (faults.headD .none) s with
    | (some b, s') => (rest b).exec faults.tail s'
    | (none, s') => ⟨none, s'⟩

/-- Whatever the faults are, the program ends in `Q` or stops in `C`. -/
def wp : Prog σ α → (α → σ → Prop) → (σ → Prop) → σ → Prop
  | done a, Q, _, s => Q a s
  | op next rest, Q, C, s =>
    ∀ fault, match next fault s with
      | (some b, s') => (rest b).wp Q C s'
      | (none, s') => C s'

/-! ### Operations -/

/-- An operation of the machine itself: it takes effect or reports an error. -/
def act (effect : σ → Option σ) : Prog σ Bool :=
  op (fun fault s =>
    match fault, effect s with
    | .none, some s' => (some true, s')
    | .stops, _ => (none, s)
    | .stopsAfter, s' => (none, s'.getD s)
    | _, _ => (some false, s)) done

/-- A statement sent to a server: its answer may be lost after it has taken effect. -/
def request (effect : σ → Option σ) : Prog σ Bool :=
  op (fun fault s =>
    match fault, effect s with
    | .none, some s' => (some true, s')
    | .lost, some s' => (some false, s')
    | .stops, _ => (none, s)
    | .stopsAfter, s' => (none, s'.getD s)
    | _, _ => (some false, s)) done

/-- A look at the state, which may fail. -/
def inspect (view : σ → β) : Prog σ (Option β) :=
  op (fun fault s =>
    match fault with
    | .none => (some (some (view s)), s)
    | .stops | .stopsAfter => (none, s)
    | _ => (some none, s)) done

/-- A change of the process's own records, which cannot fail. -/
def modify (f : σ → σ) : Prog σ Unit :=
  op (fun _ s => (some (), f s)) done

/-- What the process's own records hold. -/
def get (view : σ → β) : Prog σ β :=
  op (fun _ s => (some (view s), s)) done

/-- Every program of a list in turn, also after one that did not go through; whether all did. -/
def all {ι : Type} (body : ι → Prog σ Bool) : List ι → Prog σ Bool
  | [] => done true
  | x :: xs => do
    let ok ← body x
    let others ← all body xs
    pure (ok && others)

/-- The programs of a list in turn, up to the first that does not go through. -/
def each {ι : Type} (body : ι → Prog σ Bool) : List ι → Prog σ Bool
  | [] => done true
  | x :: xs => do
    if ← body x then each body xs else pure false

/-- A program on a part of the state, as a program on the whole. -/
def zoom (part : τ → σ) (put : σ → τ → τ) : Prog σ α → Prog τ α
  | done a => done a
  | op next rest =>
    op (fun fault t => ((next fault (part t)).1, put (next fault (part t)).2 t))
      fun b => (rest b).zoom part put

/-! ### The rules -/

section Rules

variable {Q R : α → σ → Prop} {C D : σ → Prop} {s : σ}

/-- A weakest precondition speaks about every run. -/
theorem wp_iff {p : Prog σ α} :
    p.wp Q C s ↔ ∀ faults, match (p.exec faults s).result with
      | some a => Q a (p.exec faults s).state
      | none => C (p.exec faults s).state := by
  induction p generalizing s with
  | done a => simp [wp, exec]
  | op next rest ih =>
    constructor
    · intro h faults
      have hfirst := h (faults.headD .none)
      rw [exec]
      cases hnext : next (faults.headD .none) s with
      | mk answer s' =>
        rw [hnext] at hfirst
        cases answer with
        | none => exact hfirst
        | some b => exact (ih b).mp hfirst faults.tail
    · intro h fault
      -- the fault at hand, followed by any faults for the rest of the program
      cases hnext : next fault s with
      | mk answer s' =>
        cases answer with
        | none =>
          have := h [fault]
          rw [exec, List.headD_cons, hnext] at this
          exact this
        | some b =>
          refine (ih b).mpr fun faults => ?_
          have := h (fault :: faults)
          rw [exec, List.headD_cons, hnext] at this
          exact this

theorem wp.exec {p : Prog σ α} (h : p.wp Q C s) {faults : List Fault} {a : α}
    (ha : (p.exec faults s).result = some a) : Q a (p.exec faults s).state := by
  have := wp_iff.mp h faults
  rwa [ha] at this

theorem wp.stop {p : Prog σ α} (h : p.wp Q C s) {faults : List Fault}
    (hstop : (p.exec faults s).result = none) : C (p.exec faults s).state := by
  have := wp_iff.mp h faults
  rwa [hstop] at this

/-- A property that holds however the run ends. -/
theorem wp.state {p : Prog σ α} (h : p.wp (fun _ => C) C s) (faults : List Fault) :
    C (p.exec faults s).state := by
  have := wp_iff.mp h faults
  cases hresult : (p.exec faults s).result <;> simpa [hresult] using this

theorem wp.mono {p : Prog σ α} (h : p.wp Q C s) (hQ : ∀ a s, Q a s → R a s)
    (hC : ∀ s, C s → D s) : p.wp R D s := by
  induction p generalizing s with
  | done a => exact hQ a s h
  | op next rest ih =>
    intro fault
    have hfault := h fault
    cases hnext : next fault s with
    | mk answer s' =>
      rw [hnext] at hfault
      cases answer with
      | none => exact hC s' hfault
      | some b => exact ih b hfault

@[simp] theorem wp_pure {a : α} : (pure a : Prog σ α).wp Q C s ↔ Q a s := Iff.rfl

@[simp] theorem wp_bind {p : Prog σ β} {k : β → Prog σ α} :
    (p >>= k).wp Q C s ↔ p.wp (fun b => (k b).wp Q C) C s := by
  induction p generalizing s with
  | done b => exact Iff.rfl
  | op next rest ih =>
    refine forall_congr' fun fault => ?_
    cases hnext : next fault s with
    | mk answer s' =>
      cases answer with
      | none => exact Iff.rfl
      | some b => exact ih b

@[simp] theorem wp_ite {c : Prop} [Decidable c] {p q : Prog σ α} :
    (if c then p else q).wp Q C s ↔ (c → p.wp Q C s) ∧ (¬ c → q.wp Q C s) := by
  split <;> simp_all

theorem forall_fault {P : Fault → Prop} :
    (∀ fault, P fault) ↔ P .none ∧ P .fails ∧ P .lost ∧ P .stops ∧ P .stopsAfter := by
  constructor
  · exact fun h => ⟨h _, h _, h _, h _, h _⟩
  · rintro ⟨hnone, hfails, hlost, hstops, hafter⟩ fault
    cases fault <;> assumption

theorem wp_act {effect : σ → Option σ} {Q : Bool → σ → Prop} :
    (act effect).wp Q C s ↔
      Q false s ∧ C s ∧ ∀ s', effect s = some s' → Q true s' ∧ C s' := by
  rw [act, wp, forall_fault]
  cases heffect : effect s <;> simp [wp, heffect] <;> tauto

theorem wp_request {effect : σ → Option σ} {Q : Bool → σ → Prop} :
    (request effect).wp Q C s ↔
      Q false s ∧ C s ∧ ∀ s', effect s = some s' → Q true s' ∧ Q false s' ∧ C s' := by
  rw [request, wp, forall_fault]
  cases heffect : effect s <;> simp [wp, heffect] <;> tauto

theorem wp_inspect {view : σ → β} {Q : Option β → σ → Prop} :
    (inspect view).wp Q C s ↔ Q none s ∧ C s ∧ Q (some (view s)) s := by
  rw [inspect, wp, forall_fault]
  simp [wp]
  tauto

@[simp] theorem wp_modify {f : σ → σ} {Q : Unit → σ → Prop} :
    (modify f).wp Q C s ↔ Q () (f s) := by
  simp [modify, wp]

@[simp] theorem wp_get {view : σ → β} {Q : β → σ → Prop} :
    (get view).wp Q C s ↔ Q (view s) s := by
  simp [get, wp]

theorem wp_true (p : Prog σ α) (s : σ) : p.wp (fun _ _ => True) (fun _ => True) s := by
  rw [wp_iff]
  intro faults
  split <;> trivial

/-- The rule of `all`: an invariant of the names that are left is kept by every program that goes
through, so it holds at the end when all did. -/
theorem wp_all {ι : Type} {body : ι → Prog σ Bool} (I : List ι → σ → Prop)
    (hbody : ∀ x xs s, I (x :: xs) s →
      (body x).wp (fun ok s' => ok = true → I xs s') (fun _ => True) s)
    {xs : List ι} (h : I xs s) :
    (all body xs).wp (fun ok s' => ok = true → I [] s') (fun _ => True) s := by
  induction xs generalizing s with
  | nil => exact fun _ => h
  | cons x xs ih =>
    rw [all, wp_bind]
    refine (hbody x xs s h).mono (fun ok s' hok => ?_) fun _ h => h
    cases ok with
    | false =>
      rw [wp_bind]
      exact (wp_true _ _).mono (fun _ _ _ h => absurd h (by simp)) fun _ h => h
    | true =>
      rw [wp_bind]
      refine (ih (hok rfl)).mono (fun others s'' hothers h => hothers ?_) fun _ h => h
      simpa using h

/-- What every program of the list keeps, whether or not it goes through, `all` keeps. -/
theorem wp_all_keeps {ι : Type} {body : ι → Prog σ Bool} {I : σ → Prop} {xs : List ι}
    (hbody : ∀ x ∈ xs, ∀ s, I s → (body x).wp (fun _ => I) C s) (h : I s) :
    (all body xs).wp (fun _ => I) C s := by
  induction xs generalizing s with
  | nil => exact h
  | cons x xs ih =>
    rw [List.forall_mem_cons] at hbody
    rw [all, wp_bind]
    refine (hbody.1 s h).mono (fun ok s' hok => ?_) fun _ h => h
    rw [wp_bind]
    exact ih hbody.2 hok

/-- The rule of `each`: what holds between two of its programs, by the names that are left, and
`J` of the state in which one did not go through. -/
theorem wp_each {ι : Type} {body : ι → Prog σ Bool} (I : List ι → σ → Prop) {J : σ → Prop}
    (hbody : ∀ x xs s, I (x :: xs) s →
      (body x).wp (fun ok s' => if ok then I xs s' else J s') C s)
    {xs : List ι} (h : I xs s) :
    (each body xs).wp (fun ok s' => if ok then I [] s' else J s') C s := by
  induction xs generalizing s with
  | nil => exact h
  | cons x xs ih =>
    rw [each, wp_bind]
    refine (hbody x xs s h).mono (fun ok s' hok => ?_) fun _ h => h
    cases ok with
    | false => exact hok
    | true => exact ih hok

/-- The rule of a program on a part of the state, where writing the part back and reading it
agree. -/
theorem wp_zoom {part : τ → σ} {put : σ → τ → τ} (hget : ∀ s t, part (put s t) = s)
    (hput : ∀ s s' t, put s' (put s t) = put s' t) {p : Prog σ α} {Q : α → τ → Prop}
    {C : τ → Prop} {t : τ} (ht : put (part t) t = t) :
    (p.zoom part put).wp Q C t ↔
      p.wp (fun a s => Q a (put s t)) (fun s => C (put s t)) (part t) := by
  have hgen : ∀ (p : Prog σ α) s, (p.zoom part put).wp Q C (put s t) ↔
      p.wp (fun a s => Q a (put s t)) (fun s => C (put s t)) s := by
    intro p
    induction p with
    | done a => exact fun s => Iff.rfl
    | op next rest ih =>
      refine fun s => forall_congr' fun fault => ?_
      simp only [hget, hput]
      cases hnext : next fault s with
      | mk answer s' =>
        cases answer with
        | none => exact Iff.rfl
        | some b => exact ih b s'
  have := hgen p (part t)
  rwa [ht] at this

theorem exec_inspect_bind {view : σ → β} {k : Option β → Prog σ α} {faults : List Fault} :
    (inspect view >>= k).exec faults s = match faults.headD .none with
      | .none => (k (some (view s))).exec faults.tail s
      | .stops | .stopsAfter => ⟨none, s⟩
      | _ => (k none).exec faults.tail s := by
  change (op _ fun b => (done b).bind k).exec faults s = _
  rw [exec]
  cases faults.headD .none <;> rfl

theorem exec_zoom {part : τ → σ} {put : σ → τ → τ} (hget : ∀ s t, part (put s t) = s)
    (hput : ∀ s s' t, put s' (put s t) = put s' t) {p : Prog σ α} {faults : List Fault}
    {t : τ} (ht : put (part t) t = t) :
    (p.zoom part put).exec faults t =
      ⟨(p.exec faults (part t)).result, put (p.exec faults (part t)).state t⟩ := by
  have hgen : ∀ (p : Prog σ α) faults s, (p.zoom part put).exec faults (put s t) =
      ⟨(p.exec faults s).result, put (p.exec faults s).state t⟩ := by
    intro p
    induction p with
    | done a => exact fun faults s => rfl
    | op next rest ih =>
      intro faults s
      simp only [zoom, exec, hget, hput]
      cases hnext : next (faults.headD .none) s with
      | mk answer s' =>
        cases answer with
        | none => rfl
        | some b => exact ih b faults.tail s'
  have := hgen p faults (part t)
  rwa [ht] at this

end Rules

/-! ### Runs without a fault -/

/-- When nothing fails or stops it, the program ends in `Q`. -/
def ends : Prog σ α → (α → σ → Prop) → σ → Prop
  | done a, Q, s => Q a s
  | op next rest, Q, s =>
    match next .none s with
    | (some b, s') => (rest b).ends Q s'
    | (none, _) => False

section Ends

variable {Q : α → σ → Prop} {s : σ}

theorem ends_iff {p : Prog σ α} :
    p.ends Q s ↔ ∃ a, (p.exec [] s).result = some a ∧ Q a (p.exec [] s).state := by
  induction p generalizing s with
  | done a => simp [ends, exec]
  | op next rest ih =>
    rw [ends, exec]
    cases hnext : next (([] : List Fault).headD .none) s with
    | mk answer s' =>
      cases answer with
      | none => simp [List.headD_nil ▸ hnext]
      | some b =>
        rw [List.headD_nil] at hnext
        rw [hnext]
        exact ih b

@[simp] theorem ends_pure {a : α} : (pure a : Prog σ α).ends Q s ↔ Q a s := Iff.rfl

@[simp] theorem ends_bind {p : Prog σ β} {k : β → Prog σ α} :
    (p >>= k).ends Q s ↔ p.ends (fun b => (k b).ends Q) s := by
  induction p generalizing s with
  | done b => exact Iff.rfl
  | op next rest ih =>
    have hbind : (op next rest >>= k) = op next fun b => rest b >>= k := rfl
    rw [hbind, ends, ends]
    cases hnext : next .none s with
    | mk answer s' =>
      cases answer with
      | none => exact Iff.rfl
      | some b => exact ih b

@[simp] theorem ends_act {effect : σ → Option σ} {Q : Bool → σ → Prop} :
    (act effect).ends Q s ↔ match effect s with
      | some s' => Q true s'
      | none => Q false s := by
  cases heffect : effect s <;> simp [act, ends, heffect]

@[simp] theorem ends_request {effect : σ → Option σ} {Q : Bool → σ → Prop} :
    (request effect).ends Q s ↔ match effect s with
      | some s' => Q true s'
      | none => Q false s := by
  cases heffect : effect s <;> simp [request, ends, heffect]

@[simp] theorem ends_inspect {view : σ → β} {Q : Option β → σ → Prop} :
    (inspect view).ends Q s ↔ Q (some (view s)) s := Iff.rfl

@[simp] theorem ends_modify {f : σ → σ} {Q : Unit → σ → Prop} :
    (modify f).ends Q s ↔ Q () (f s) := Iff.rfl

@[simp] theorem ends_get {view : σ → β} {Q : β → σ → Prop} :
    (get view).ends Q s ↔ Q (view s) s := Iff.rfl

theorem ends_ite {c : Prop} [Decidable c] {p q : Prog σ α} :
    (if c then p else q).ends Q s ↔ if c then p.ends Q s else q.ends Q s := by
  split <;> rfl

theorem ends.mono {R : α → σ → Prop} {p : Prog σ α} (h : p.ends Q s)
    (hQ : ∀ a s, Q a s → R a s) : p.ends R s := by
  obtain ⟨a, hresult, hpost⟩ := ends_iff.mp h
  exact ends_iff.mpr ⟨a, hresult, hQ _ _ hpost⟩

theorem ends.and {R : α → σ → Prop} {p : Prog σ α} (hQ : p.ends Q s) (hR : p.ends R s) :
    ∃ a s', Q a s' ∧ R a s' := by
  obtain ⟨a, hresult, hpost⟩ := ends_iff.mp hQ
  obtain ⟨b, hresult', hpost'⟩ := ends_iff.mp hR
  obtain rfl : a = b := by simpa [hresult] using hresult'
  exact ⟨a, _, hpost, hpost'⟩

theorem ends_zoom {part : τ → σ} {put : σ → τ → τ} (hget : ∀ s t, part (put s t) = s)
    (hput : ∀ s s' t, put s' (put s t) = put s' t) {p : Prog σ α} {Q : α → τ → Prop} {t : τ}
    (ht : put (part t) t = t) :
    (p.zoom part put).ends Q t ↔ p.ends (fun a s => Q a (put s t)) (part t) := by
  simp only [ends_iff, exec_zoom hget hput ht]

end Ends

end Prog

end SimpleCdn.Crash
