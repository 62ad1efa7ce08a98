import Mathlib.Data.Int.Notation
import Mathlib.Data.Nat.Notation
import Mathlib.Logic.Function.Basic
import SimpleCdn.Lib.Net
import SimpleCdn.Lib.Transition

/-!
# The limiter of login attempts

`allowLogin` keeps the times of the attempts it has let through, by address, and forgets those that
are ten minutes old.  `log` lists the attempts with what became of them; no decision depends on it.
-/

namespace SimpleCdn.Login

open Transition

/-- `10 * time.Minute`, in nanoseconds. -/
def loginWindow : ℤ := 600 * 1000000000

def loginLimit : ℕ := 8

/-- `remoteIP` -/
def remoteIP (remoteAddr : String) : String :=
  match Net.splitHostPort remoteAddr.toList with
  | some (host, _) => String.ofList host
  | none => remoteAddr

/-- `loginHits` -/
abbrev Hits := String → List ℤ

/-- `allowLogin`, at the time `now`. -/
def allowLogin (loginHits : Hits) (remoteAddr : String) (now : ℤ) : Bool × Hits :=
  let key := remoteIP remoteAddr
  let window := now - loginWindow
  let filtered := (loginHits key).filter fun hit => window < hit
  if loginLimit ≤ filtered.length then (false, Function.update loginHits key filtered)
  else (true, Function.update loginHits key (filtered ++ [now]))

structure Attempt where
  remoteAddr : String
  time : ℤ

/-- An attempt, and whether it was let through. -/
structure Entry where
  address : String
  time : ℤ
  allowed : Bool
  deriving DecidableEq, Repr

structure State where
  loginHits : Hits
  log : List Entry

def initial : State := ⟨fun _ => [], []⟩

def step (s : State) (attempt : Attempt) : State :=
  let (allowed, loginHits) := allowLogin s.loginHits attempt.remoteAddr attempt.time
  ⟨loginHits, s.log ++ [⟨remoteIP attempt.remoteAddr, attempt.time, allowed⟩]⟩

/-! ### What one attempt does -/

/-- The times of the attempts from the address that were let through. -/
def allowedTimes (address : String) (log : List Entry) : List ℤ :=
  (log.filter fun e => e.address = address ∧ e.allowed = true).map Entry.time

/-- The times that `allowLogin` still counts at the time `now`. -/
def counted (s : State) (address : String) (now : ℤ) : List ℤ :=
  (s.loginHits address).filter fun hit => now - loginWindow < hit

variable {s : State} {attempt : Attempt}

theorem step_log (s : State) (attempt : Attempt) :
    (step s attempt).log = s.log ++ [⟨remoteIP attempt.remoteAddr, attempt.time,
      decide ((counted s (remoteIP attempt.remoteAddr) attempt.time).length < loginLimit)⟩] := by
  rw [step, allowLogin, counted]
  by_cases h : loginLimit ≤ ((s.loginHits (remoteIP attempt.remoteAddr)).filter
      fun hit => attempt.time - loginWindow < hit).length
  · rw [if_pos h, decide_eq_false (Nat.not_lt_of_le h)]
  · rw [if_neg h, decide_eq_true (Nat.lt_of_not_le h)]

theorem step_hits_of_ne {address : String} (h : address ≠ remoteIP attempt.remoteAddr) :
    (step s attempt).loginHits address = s.loginHits address := by
  rw [step, allowLogin]
  dsimp only
  split
  · exact Function.update_of_ne h _ _
  · exact Function.update_of_ne h _ _

theorem step_hits (s : State) (attempt : Attempt) :
    (step s attempt).loginHits (remoteIP attempt.remoteAddr) =
      counted s (remoteIP attempt.remoteAddr) attempt.time ++
        if (counted s (remoteIP attempt.remoteAddr) attempt.time).length < loginLimit
        then [attempt.time] else [] := by
  rw [step, allowLogin, counted]
  by_cases h : loginLimit ≤ ((s.loginHits (remoteIP attempt.remoteAddr)).filter
      fun hit => attempt.time - loginWindow < hit).length
  · rw [if_pos h, if_neg (Nat.not_lt_of_le h), List.append_nil]
    exact Function.update_self _ _ _
  · rw [if_neg h, if_pos (Nat.lt_of_not_le h)]
    exact Function.update_self _ _ _

theorem allowedTimes_append (address : String) (log : List Entry) (e : Entry) :
    allowedTimes address (log ++ [e]) = allowedTimes address log ++
      if e.address = address ∧ e.allowed = true then [e.time] else [] := by
  rw [allowedTimes, List.filter_append, List.map_append, allowedTimes]
  congr 1
  by_cases h : e.address = address ∧ e.allowed = true
  · rw [if_pos h, List.filter_cons_of_pos (by simpa using h)]
    rfl
  · rw [if_neg h, List.filter_cons_of_neg (by simpa using h)]
    rfl

/-! ### What is counted -/

/-- The times that have been forgotten are older than any window from `now` on. -/
structure Inv (now : ℤ) (s : State) : Prop where
  past : ∀ e ∈ s.log, e.time ≤ now
  hits : ∀ address window, now - loginWindow ≤ window →
    (s.loginHits address).filter (fun hit => window < hit) =
      (allowedTimes address s.log).filter fun hit => window < hit

theorem inv_initial (now : ℤ) : Inv now initial :=
  ⟨(fun _ h => absurd h List.not_mem_nil), fun _ _ _ => rfl⟩

/-- The attempts that are counted are those let through in the ten minutes before. -/
theorem Inv.counted {now time : ℤ} (h : Inv now s) (hle : now ≤ time) (address : String) :
    counted s address time =
      (allowedTimes address s.log).filter fun hit => time - loginWindow < hit :=
  h.hits address (time - loginWindow) (by omega)

theorem Inv.step {now : ℤ} (h : Inv now s) (hle : now ≤ attempt.time) :
    Inv attempt.time (step s attempt) where
  past := by
    intro e he
    rw [step_log] at he
    rcases List.mem_append.mp he with he | he
    · exact Int.le_trans (h.past e he) hle
    · obtain rfl := List.mem_singleton.mp he
      exact Int.le_refl _
  hits := by
    intro address window hwindow
    have hbefore := h.hits address window (by omega)
    rw [step_log, allowedTimes_append, List.filter_append, ← hbefore]
    by_cases haddress : address = remoteIP attempt.remoteAddr
    · subst haddress
      have hcounted : (Login.counted s (remoteIP attempt.remoteAddr) attempt.time).filter
          (fun hit => window < hit) =
          (s.loginHits (remoteIP attempt.remoteAddr)).filter fun hit => window < hit := by
        rw [Login.counted, List.filter_filter]
        refine List.filter_congr fun hit _ => ?_
        rw [Bool.and_eq_left_iff_imp, decide_eq_true_iff, decide_eq_true_iff]
        omega
      rw [step_hits, List.filter_append, hcounted]
      congr 2
      simp only [true_and, decide_eq_true_eq]
    · rw [step_hits_of_ne haddress, if_neg fun heq => haddress heq.1.symm, List.filter_nil,
        List.append_nil]

/-! ### The limits -/

/-- No two times of the set are a window or more apart. -/
def Short (p : ℤ → Bool) : Prop := ∀ x y, p x = true → p y = true → y - loginWindow < x

/-- Of the attempts from one address within one window at most eight are let through. -/
def WithinLimit (s : State) : Prop :=
  ∀ p, Short p → ∀ address, ((allowedTimes address s.log).filter p).length ≤ loginLimit

/-- Eight attempts from the address have been made in the ten minutes before a refused one. -/
def RefusedInWindow (s : State) (attempt : Attempt) : Prop :=
  (allowLogin s.loginHits attempt.remoteAddr attempt.time).1 = false →
    loginLimit ≤ (s.log.filter fun e => e.address = remoteIP attempt.remoteAddr ∧
      attempt.time - loginWindow < e.time ∧ e.time ≤ attempt.time).length

theorem withinLimit_step {now : ℤ} (h : Inv now s) (hle : now ≤ attempt.time)
    (hlimit : WithinLimit s) : WithinLimit (step s attempt) := by
  intro p hp address
  rw [step_log, allowedTimes_append, List.filter_append, List.length_append]
  have hbefore := hlimit p hp address
  split
  · next hnew =>
    obtain ⟨rfl, hallowed⟩ := hnew
    by_cases hin : p attempt.time = true
    · -- the times of the window are among those that are counted
      have hcounted := of_decide_eq_true hallowed
      rw [h.counted hle] at hcounted
      have hfew : ((allowedTimes (remoteIP attempt.remoteAddr) s.log).filter p).length ≤
          ((allowedTimes (remoteIP attempt.remoteAddr) s.log).filter
            fun hit => attempt.time - loginWindow < hit).length :=
        (List.monotone_filter_right _ fun hit hhit =>
          decide_eq_true (hp hit attempt.time hhit hin)).length_le
      have hone : ([attempt.time].filter p).length ≤ 1 := List.length_filter_le _ _
      dsimp only at hcounted hfew ⊢
      omega
    · rw [List.filter_cons_of_neg hin]
      exact hbefore
  · rw [List.filter_nil]
    exact hbefore

theorem refused_step {now : ℤ} (h : Inv now s) (hle : now ≤ attempt.time) :
    RefusedInWindow s attempt := by
  intro hrefused
  have hmany : loginLimit ≤ (counted s (remoteIP attempt.remoteAddr) attempt.time).length := by
    by_contra hfew
    rw [allowLogin] at hrefused
    rw [counted] at hfew
    rw [if_neg hfew] at hrefused
    cases hrefused
  rw [h.counted hle, allowedTimes, List.filter_map, List.length_map, List.filter_filter,
    ← List.countP_eq_length_filter] at hmany
  rw [← List.countP_eq_length_filter]
  refine Nat.le_trans hmany (List.countP_mono_left fun e he hcounts => ?_)
  rw [Bool.and_eq_true, decide_eq_true_iff] at hcounts
  exact decide_eq_true ⟨hcounts.2.1, of_decide_eq_true hcounts.1, Int.le_trans (h.past e he) hle⟩

/-! ### Runs -/

theorem run_limits {now : ℤ} {attempts : List Attempt} (h : Inv now s) (hlimit : WithinLimit s)
    (hnow : ∀ a ∈ attempts, now ≤ a.time)
    (htimes : attempts.Pairwise fun a b => a.time ≤ b.time) :
    WithinLimit (run step s attempts) ∧ Along step RefusedInWindow s attempts := by
  induction attempts generalizing s now with
  | nil => exact ⟨hlimit, trivial⟩
  | cons attempt attempts ih =>
    obtain ⟨hlater, htimes⟩ := List.pairwise_cons.mp htimes
    have hle := hnow attempt List.mem_cons_self
    obtain ⟨hlimit', hrefused⟩ := ih (h.step hle) (withinLimit_step h hle hlimit) hlater htimes
    exact ⟨hlimit', refused_step h hle, hrefused⟩

/-- The state of one address, and its part of the log. -/
def Agree (address : String) (s t : State) : Prop :=
  s.loginHits address = t.loginHits address ∧
    s.log.filter (fun e => e.address = address) = t.log

theorem agree_step {address : String} {t : State} (h : Agree address s t) :
    Agree address (step s attempt)
      (if remoteIP attempt.remoteAddr = address then step t attempt else t) := by
  obtain ⟨hhits, hlog⟩ := h
  by_cases haddress : remoteIP attempt.remoteAddr = address
  · subst haddress
    have hcounted : counted s (remoteIP attempt.remoteAddr) attempt.time =
        counted t (remoteIP attempt.remoteAddr) attempt.time := by
      rw [counted, counted, hhits]
    rw [if_pos rfl, Agree, step_hits, step_hits, step_log, step_log, hcounted,
      List.filter_append, hlog]
    refine ⟨rfl, ?_⟩
    rw [List.filter_cons_of_pos (by simp), List.filter_nil]
  · rw [if_neg haddress, Agree, step_hits_of_ne fun heq => haddress heq.symm, step_log,
      List.filter_append, hlog, List.filter_cons_of_neg (by simpa using haddress),
      List.filter_nil, List.append_nil]
    exact ⟨hhits, rfl⟩

theorem agree_run {address : String} {t : State} (h : Agree address s t)
    (attempts : List Attempt) :
    Agree address (run step s attempts)
      (run step t (attempts.filter fun a => remoteIP a.remoteAddr = address)) := by
  induction attempts generalizing s t with
  | nil => exact h
  | cons attempt attempts ih =>
    have hstep : Agree address (step s attempt) _ := agree_step h
    rw [run_cons]
    by_cases haddress : remoteIP attempt.remoteAddr = address
    · rw [if_pos haddress] at hstep
      rw [List.filter_cons_of_pos (by simpa using haddress), run_cons]
      exact ih hstep
    · rw [if_neg haddress] at hstep
      rw [List.filter_cons_of_neg (by simpa using haddress)]
      exact ih hstep

/-- **At most eight of the attempts from an address are let through in any ten minutes**, an attempt
is refused only behind eight in the ten minutes before it, and what becomes of the attempts from an
address does not depend on the others. -/
theorem login_limiter {attempts : List Attempt}
    (htimes : attempts.Pairwise fun a b => a.time ≤ b.time) :
    (∀ address start,
      ((allowedTimes address (run step initial attempts).log).filter
        fun time => start ≤ time ∧ time < start + loginWindow).length ≤ loginLimit ∧
      ((allowedTimes address (run step initial attempts).log).filter
        fun time => start < time ∧ time ≤ start + loginWindow).length ≤ loginLimit) ∧
    Along step RefusedInWindow initial attempts ∧
    ∀ address, (run step initial attempts).log.filter (fun e => e.address = address) =
      (run step initial (attempts.filter fun a => remoteIP a.remoteAddr = address)).log := by
  have hinit : WithinLimit initial := fun _ _ _ => Nat.zero_le _
  have hlimits : WithinLimit (run step initial attempts) ∧
      Along step RefusedInWindow initial attempts := by
    cases attempts with
    | nil => exact ⟨hinit, trivial⟩
    | cons attempt attempts =>
      refine run_limits (inv_initial attempt.time) hinit (fun a ha => ?_) htimes
      rcases List.mem_cons.mp ha with rfl | ha
      · exact Int.le_refl _
      · exact (List.pairwise_cons.mp htimes).1 a ha
  refine ⟨fun address start => ⟨hlimits.1 _ ?_ address, hlimits.1 _ ?_ address⟩, hlimits.2,
    fun address => (agree_run ⟨rfl, rfl⟩ attempts).2⟩
  · intro x y hx hy
    rw [decide_eq_true_iff] at hx hy
    omega
  · intro x y hx hy
    rw [decide_eq_true_iff] at hx hy
    omega

/-- Nine attempts within a minute, and one when the first eight are ten minutes old. -/
def tenAttempts : List Attempt :=
  (List.range 9).map (fun i => ⟨"192.0.2.1:5000", 1000000000 * i⟩) ++
    [⟨"192.0.2.1:5001", 607 * 1000000000⟩]

theorem login_limiter_ten :
    (∀ address start,
      ((allowedTimes address (run step initial tenAttempts).log).filter
        fun time => start ≤ time ∧ time < start + loginWindow).length ≤ loginLimit ∧
      ((allowedTimes address (run step initial tenAttempts).log).filter
        fun time => start < time ∧ time ≤ start + loginWindow).length ≤ loginLimit) ∧
    Along step RefusedInWindow initial tenAttempts ∧
    ∀ address, (run step initial tenAttempts).log.filter (fun e => e.address = address) =
      (run step initial (tenAttempts.filter fun a => remoteIP a.remoteAddr = address)).log :=
  login_limiter (by decide)

example : ((run step initial tenAttempts).log.map Entry.allowed) =
    [true, true, true, true, true, true, true, true, false, true] := by decide

end SimpleCdn.Login
