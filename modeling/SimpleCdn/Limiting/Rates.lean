import Mathlib.Tactic.Linarith
import Mathlib.Tactic.Positivity
import SimpleCdn.Limiting.System

/-!
# How many requests pass

A policy without a response condition counts every request it judges, so what it reads for a second
is how many it has judged in it.  A request that passes is among the first of its second, and the
fuller the second before has been, the later it comes; two neighbouring seconds together stay below
twice the limit, and so does every window of one second.
-/

namespace SimpleCdn.Limiting

open RateLimiter Transition

/-! ### Counting judgements -/

/-- The judgement is the policy's, of the client, in the second. -/
def inSlot (policy clientIP : String) (slot : ℤ) (judgement : Judgement) : Bool :=
  judgement.policy = policy && judgement.clientIP = clientIP && ⌊judgement.time⌋ = slot

def State.judged (s : State) (policy clientIP : String) (slot : ℤ) : ℕ :=
  s.judgements.countP (inSlot policy clientIP slot)

/-- The requests of the client that the policy has let pass in the second. -/
def State.passed (s : State) (policy clientIP : String) (slot : ℤ) : ℕ :=
  s.judgements.countP fun judgement =>
    inSlot policy clientIP slot judgement && judgement.verdict = .passed

/-- The requests of the client that the policy has let pass between the two times. -/
def State.passedBetween (s : State) (policy clientIP : String) (first last : ℚ) : ℕ :=
  s.judgements.countP fun judgement =>
    judgement.policy = policy && judgement.clientIP = clientIP && judgement.verdict = .passed &&
      decide (first ≤ judgement.time ∧ judgement.time ≤ last)

theorem passed_le_judged (s : State) (policy clientIP : String) (slot : ℤ) :
    s.passed policy clientIP slot ≤ s.judged policy clientIP slot :=
  List.countP_mono_left fun _ _ h => (Bool.and_eq_true _ _ ▸ h).1

theorem floor_of_window {first time : ℚ} (h : first ≤ time) (h' : time ≤ first + 1) :
    ⌊time⌋ = ⌊first⌋ ∨ ⌊time⌋ = ⌊first⌋ + 1 := by
  have hlower := Int.floor_le_floor h
  have hupper := Int.floor_le_floor h'
  rw [Int.floor_add_one] at hupper
  omega

/-- A window of one second lies in two neighbouring seconds. -/
theorem passedBetween_le (s : State) (policy clientIP : String) (first : ℚ) :
    s.passedBetween policy clientIP first (first + 1) ≤
      s.passed policy clientIP ⌊first⌋ + s.passed policy clientIP (⌊first⌋ + 1) := by
  simp only [State.passedBetween, State.passed]
  induction s.judgements with
  | nil => rfl
  | cons judgement judgements ih =>
    simp only [List.countP_cons]
    by_cases hin : (judgement.policy = policy ∧ judgement.clientIP = clientIP) ∧
        judgement.verdict = .passed ∧ first ≤ judgement.time ∧ judgement.time ≤ first + 1
    · obtain ⟨⟨hpolicy, hclient⟩, hverdict, hfirst, hlast⟩ := hin
      have hcounted : ∀ slot, ⌊judgement.time⌋ = slot →
          (inSlot policy clientIP slot judgement && judgement.verdict = .passed) = true :=
        fun slot hslot => by simp [inSlot, hpolicy, hclient, hverdict, hslot]
      rcases floor_of_window hfirst hlast with hslot | hslot
      · rw [if_pos (hcounted _ hslot)]
        split <;> split <;> omega
      · rw [if_pos (hcounted _ hslot)]
        split <;> split <;> omega
    · rw [if_neg]
      · omega
      · intro hcounted
        simp only [Bool.and_eq_true, decide_eq_true_eq] at hcounted
        exact hin ⟨hcounted.1.1, hcounted.1.2, hcounted.2⟩

/-- What the policy has read and let pass so far. -/
structure Rated (policy : RateLimitRule) (s : State) : Prop where
  past : ∀ judgement ∈ s.judgements, judgement.time ≤ s.clock
  counted : ∀ clientIP slot,
    (s.shared.rateLimit (bucketKey policy clientIP slot) = none ∧
      s.judged policy.id clientIP slot = 0) ∨
    ∃ entry, s.shared.rateLimit (bucketKey policy clientIP slot) = some entry ∧
      entry.value = s.judged policy.id clientIP slot ∧ (slot : ℚ) + 3 ≤ entry.expires
  slot : ∀ clientIP slot, (s.passed policy.id clientIP slot : ℤ) ≤ policy.limit
  pair : ∀ clientIP slot, (s.passed policy.id clientIP slot : ℤ) +
    s.passed policy.id clientIP (slot + 1) < 2 * policy.limit

section

variable {policy : RateLimitRule} {s : State} {clientIP : String} {now : ℚ}

theorem windowRate_true (dict : SharedDict BucketKey) (policy : RateLimitRule) (clientIP : String)
    (now : ℚ) : RateLimiter.windowRate dict policy clientIP now true =
      ((dict.incr (bucketKey policy clientIP ⌊now⌋) keyTTL now).1 +
        (((dict.incr (bucketKey policy clientIP ⌊now⌋) keyTTL now).2.get
          (bucketKey policy clientIP (⌊now⌋ - 1)) now).getD 0 : ℕ) * (1 - (now - ⌊now⌋)),
        (dict.incr (bucketKey policy clientIP ⌊now⌋) keyTTL now).2) := rfl

/-- The rate is the number of requests with this one, and the share of those of the second
before. -/
theorem Rated.windowRate (h : Rated policy s) (hclock : s.clock = now) :
    (RateLimiter.windowRate s.shared.rateLimit policy clientIP now true).1 =
        s.judged policy.id clientIP ⌊now⌋ + 1 +
          s.judged policy.id clientIP (⌊now⌋ - 1) * (1 - (now - ⌊now⌋)) ∧
      ∃ entry, (RateLimiter.windowRate s.shared.rateLimit policy clientIP now true).2
          (bucketKey policy clientIP ⌊now⌋) = some entry ∧
        entry.value = s.judged policy.id clientIP ⌊now⌋ + 1 ∧ (⌊now⌋ : ℚ) + 3 ≤ entry.expires := by
  have hfloor := Int.floor_le now
  have hnext := Int.lt_floor_add_one now
  have hother : bucketKey policy clientIP (⌊now⌋ - 1) ≠ bucketKey policy clientIP ⌊now⌋ := by
    intro heq
    have := congrArg BucketKey.second heq
    simp only [bucketKey] at this
    omega
  -- what was counted a second before is still there
  have hprevious : (((s.shared.rateLimit.incr (bucketKey policy clientIP ⌊now⌋) keyTTL now).2.get
      (bucketKey policy clientIP (⌊now⌋ - 1)) now).getD 0) =
      s.judged policy.id clientIP (⌊now⌋ - 1) := by
    have hsame : (s.shared.rateLimit.incr (bucketKey policy clientIP ⌊now⌋) keyTTL now).2
        (bucketKey policy clientIP (⌊now⌋ - 1)) = _ := SharedDict.incr_of_ne hother
    rcases h.counted clientIP (⌊now⌋ - 1) with ⟨hnone, hzero⟩ | ⟨entry, hentry, hvalue, hexpires⟩
    · rw [SharedDict.get, SharedDict.find_of_none (hsame.trans hnone), hzero]
      rfl
    · rw [SharedDict.get, SharedDict.find_of_lt (hsame.trans hentry), ← hvalue]
      · rfl
      · push_cast at hexpires
        linarith
  have hcurrent : (s.shared.rateLimit.incr (bucketKey policy clientIP ⌊now⌋) keyTTL now).1 =
        s.judged policy.id clientIP ⌊now⌋ + 1 ∧
      ∃ entry, (s.shared.rateLimit.incr (bucketKey policy clientIP ⌊now⌋) keyTTL now).2
          (bucketKey policy clientIP ⌊now⌋) = some entry ∧
        entry.value = s.judged policy.id clientIP ⌊now⌋ + 1 ∧
        (⌊now⌋ : ℚ) + 3 ≤ entry.expires := by
    rcases h.counted clientIP ⌊now⌋ with ⟨hnone, hzero⟩ | ⟨entry, hentry, hvalue, hexpires⟩
    · have hfresh : s.shared.rateLimit.find (bucketKey policy clientIP ⌊now⌋) now = none :=
        SharedDict.find_of_none hnone
      obtain ⟨hone, hkey⟩ := SharedDict.incr_of_not_find hfresh
      refine ⟨by rw [hone, hzero], _, hkey, by rw [hzero], ?_⟩
      show _ ≤ now + 3
      linarith
    · have hfound : s.shared.rateLimit.find (bucketKey policy clientIP ⌊now⌋) now = some entry :=
        SharedDict.find_of_lt hentry (by linarith)
      obtain ⟨hvalue', hkey⟩ := SharedDict.incr_of_find hfound
      exact ⟨by rw [hvalue', hvalue], _, hkey, by rw [hvalue], hexpires⟩
  rw [windowRate_true]
  refine ⟨?_, hcurrent.2⟩
  rw [hcurrent.1, hprevious]
  push_cast
  ring

/-! ### One judgement -/

theorem judged_judge (other : String) (client : String) (slot : ℤ) :
    (s.judge policy clientIP now).judged other client slot = s.judged other client slot +
      if policy.id = other ∧ clientIP = client ∧ ⌊now⌋ = slot then 1 else 0 := by
  rw [State.judged, State.judge, List.countP_cons]
  simp only [inSlot, Bool.and_eq_true, decide_eq_true_eq, and_assoc]
  rfl

theorem passed_judge (other : String) (client : String) (slot : ℤ) :
    (s.judge policy clientIP now).passed other client slot = s.passed other client slot +
      if (policy.id = other ∧ clientIP = client ∧ ⌊now⌋ = slot) ∧
        (RateLimiter.judge policy clientIP now s.shared).1 = .passed then 1 else 0 := by
  rw [State.passed, State.judge, List.countP_cons]
  simp only [inSlot, Bool.and_eq_true, decide_eq_true_eq, and_assoc]
  rfl

/-- No judgement is of a second that has not begun. -/
theorem Rated.passed_later (h : Rated policy s) (hclock : s.clock = now) (client : String) :
    s.passed policy.id client (⌊now⌋ + 1) = 0 := by
  rw [State.passed, List.countP_eq_zero]
  intro judgement hmem hcounted
  simp only [inSlot, Bool.and_eq_true, decide_eq_true_eq] at hcounted
  have hpast := h.past judgement hmem
  have hfloor := Int.floor_le_floor (hclock ▸ hpast)
  omega

theorem past_judge (h : Rated policy s) (hclock : s.clock = now) (other : RateLimitRule) :
    ∀ judgement ∈ (s.judge other clientIP now).judgements,
      judgement.time ≤ (s.judge other clientIP now).clock := by
  intro judgement hmem
  rcases List.mem_cons.mp hmem with rfl | hmem
  · exact le_refl now
  · exact (h.past judgement hmem).trans hclock.le

/-- What another policy says changes nothing. -/
theorem Rated.judge_other (h : Rated policy s) (hclock : s.clock = now) {other : RateLimitRule}
    (hother : other.id ≠ policy.id) : Rated policy (s.judge other clientIP now) := by
  have hjudged : ∀ client slot, (s.judge other clientIP now).judged policy.id client slot =
      s.judged policy.id client slot := fun client slot => by
    rw [judged_judge, if_neg fun hsame => hother hsame.1, Nat.add_zero]
  have hpassed : ∀ client slot, (s.judge other clientIP now).passed policy.id client slot =
      s.passed policy.id client slot := fun client slot => by
    rw [passed_judge, if_neg fun hsame => hother hsame.1.1, Nat.add_zero]
  have hkeys : ∀ client slot, (s.judge other clientIP now).shared.rateLimit
      (bucketKey policy client slot) = s.shared.rateLimit (bucketKey policy client slot) := by
    intro client slot
    show (RateLimiter.judge other clientIP now s.shared).2.rateLimit _ = _
    rw [judge_rateLimit]
    exact windowRate_of_ne fun heq => hother (congrArg BucketKey.policy heq).symm
  refine ⟨past_judge h hclock other, fun client slot => ?_, fun client slot => ?_,
    fun client slot => ?_⟩
  · rw [hkeys, hjudged]
    exact h.counted client slot
  · rw [hpassed]
    exact h.slot client slot
  · rw [hpassed, hpassed]
    exact h.pair client slot

/-- A request that the policy lets pass is not beyond the limit, and leaves room for the share of
the second before. -/
theorem Rated.passed_room (h : Rated policy s) (hclock : s.clock = now)
    (hstatuses : policy.statuses = none)
    (hpassed : (RateLimiter.judge policy clientIP now s.shared).1 = .passed) :
    (s.judged policy.id clientIP ⌊now⌋ : ℚ) + 1 +
      s.judged policy.id clientIP (⌊now⌋ - 1) * (1 - (now - ⌊now⌋)) ≤ policy.limit := by
  rw [judge_passed_iff, hstatuses, Option.isNone_none, (h.windowRate hclock).1] at hpassed
  simpa using hpassed

theorem Rated.counted_self (h : Rated policy s) (hclock : s.clock = now)
    (hstatuses : policy.statuses = none) (client : String) (slot : ℤ) :
    ((s.judge policy clientIP now).shared.rateLimit (bucketKey policy client slot) = none ∧
      (s.judge policy clientIP now).judged policy.id client slot = 0) ∨
    ∃ entry, (s.judge policy clientIP now).shared.rateLimit (bucketKey policy client slot) =
        some entry ∧
      entry.value = (s.judge policy clientIP now).judged policy.id client slot ∧
      (slot : ℚ) + 3 ≤ entry.expires := by
  have hdict : (s.judge policy clientIP now).shared.rateLimit =
      (RateLimiter.windowRate s.shared.rateLimit policy clientIP now true).2 := by
    show (RateLimiter.judge policy clientIP now s.shared).2.rateLimit = _
    rw [judge_rateLimit, hstatuses, Option.isNone_none]
  rw [hdict, judged_judge]
  by_cases hsame : clientIP = client ∧ ⌊now⌋ = slot
  · obtain ⟨rfl, rfl⟩ := hsame
    obtain ⟨entry, hentry, hvalue, hexpires⟩ := (h.windowRate hclock).2
    rw [if_pos ⟨rfl, rfl, rfl⟩]
    exact Or.inr ⟨entry, hentry, hvalue, hexpires⟩
  · rw [if_neg fun hall => hsame hall.2, windowRate_of_ne]
    · exact h.counted client slot
    · intro heq
      exact hsame ⟨(congrArg BucketKey.clientIP heq).symm, (congrArg BucketKey.second heq).symm⟩

/-- The bounds of the second and of its neighbour, when the policy lets a request pass. -/
theorem Rated.bounds (h : Rated policy s) (hclock : s.clock = now)
    (hstatuses : policy.statuses = none) (hpos : 0 < policy.limit)
    (hpassed : (RateLimiter.judge policy clientIP now s.shared).1 = .passed) :
    (s.passed policy.id clientIP ⌊now⌋ : ℤ) + 1 ≤ policy.limit ∧
      (s.passed policy.id clientIP (⌊now⌋ - 1) : ℤ) + (s.passed policy.id clientIP ⌊now⌋ + 1) <
        2 * policy.limit := by
  have hroom := h.passed_room hclock hstatuses hpassed
  have hfloor := Int.floor_le now
  have hnext := Int.lt_floor_add_one now
  have hcurrent : (s.passed policy.id clientIP ⌊now⌋ : ℚ) ≤ s.judged policy.id clientIP ⌊now⌋ :=
    Nat.cast_le.mpr (passed_le_judged s policy.id clientIP ⌊now⌋)
  have hprevious : (s.passed policy.id clientIP (⌊now⌋ - 1) : ℚ) ≤
      s.judged policy.id clientIP (⌊now⌋ - 1) :=
    Nat.cast_le.mpr (passed_le_judged s policy.id clientIP (⌊now⌋ - 1))
  have hlimit : (s.passed policy.id clientIP (⌊now⌋ - 1) : ℚ) ≤ policy.limit := by
    exact_mod_cast h.slot clientIP (⌊now⌋ - 1)
  have hpos' : (0 : ℚ) < policy.limit := by exact_mod_cast hpos
  generalize hshare : 1 - (now - ⌊now⌋) = share at hroom
  have hshare0 : 0 < share := by linarith
  have hshare1 : share ≤ 1 := by linarith
  have hjudged : (0 : ℚ) ≤ s.judged policy.id clientIP (⌊now⌋ - 1) := Nat.cast_nonneg _
  have hshared : (0 : ℚ) ≤ s.judged policy.id clientIP (⌊now⌋ - 1) * share :=
    mul_nonneg hjudged hshare0.le
  have hless : (s.passed policy.id clientIP (⌊now⌋ - 1) : ℚ) * share ≤
      s.judged policy.id clientIP (⌊now⌋ - 1) * share :=
    mul_le_mul_of_nonneg_right hprevious hshare0.le
  -- a full second before leaves none of the limit at its end, and all of it only a second later
  have hpast : (s.passed policy.id clientIP (⌊now⌋ - 1) : ℚ) -
      s.passed policy.id clientIP (⌊now⌋ - 1) * share < policy.limit := by
    rcases Nat.eq_zero_or_pos (s.passed policy.id clientIP (⌊now⌋ - 1)) with hzero | hsome
    · rw [hzero]
      simpa using hpos'
    · have hprod : (0 : ℚ) < s.passed policy.id clientIP (⌊now⌋ - 1) * share :=
        mul_pos (Nat.cast_pos.mpr hsome) hshare0
      linarith
  have hslot : (s.passed policy.id clientIP ⌊now⌋ : ℚ) + 1 ≤ policy.limit := by linarith
  have hpair : (s.passed policy.id clientIP (⌊now⌋ - 1) : ℚ) +
      (s.passed policy.id clientIP ⌊now⌋ + 1) < 2 * policy.limit := by linarith
  exact ⟨by exact_mod_cast hslot, by exact_mod_cast hpair⟩

theorem Rated.judge_self (h : Rated policy s) (hclock : s.clock = now)
    (hstatuses : policy.statuses = none) (hpos : 0 < policy.limit) :
    Rated policy (s.judge policy clientIP now) := by
  refine ⟨past_judge h hclock policy, h.counted_self hclock hstatuses, fun client slot => ?_,
    fun client slot => ?_⟩
  · rw [passed_judge]
    split
    · next hcounted =>
      obtain ⟨⟨-, rfl, rfl⟩, hpassed⟩ := hcounted
      exact_mod_cast (h.bounds hclock hstatuses hpos hpassed).1
    · exact h.slot client slot
  · rw [passed_judge, passed_judge]
    by_cases hpassed : clientIP = client ∧
        (RateLimiter.judge policy clientIP now s.shared).1 = .passed
    · obtain ⟨rfl, hpassed⟩ := hpassed
      obtain ⟨hslot, hpair⟩ := h.bounds hclock hstatuses hpos hpassed
      rcases eq_or_ne ⌊now⌋ slot with rfl | hnow
      · rw [if_pos ⟨⟨rfl, rfl, rfl⟩, hpassed⟩, if_neg (by omega), h.passed_later hclock]
        push_cast
        omega
      · rcases eq_or_ne ⌊now⌋ (slot + 1) with hnext | hnext
        · rw [if_neg fun hsame => hnow hsame.1.2.2, if_pos ⟨⟨rfl, rfl, hnext⟩, hpassed⟩]
          rw [hnext, Int.add_sub_cancel] at hpair
          push_cast
          omega
        · rw [if_neg fun hsame => hnow hsame.1.2.2, if_neg fun hsame => hnext hsame.1.2.2]
          exact h.pair clientIP slot
    · rw [if_neg fun hsame => hpassed ⟨hsame.1.2.1, hsame.2⟩,
        if_neg fun hsame => hpassed ⟨hsame.1.2.1, hsame.2⟩]
      exact h.pair client slot

end

/-! ### Runs -/

section

variable {policies : Policies} {policy : RateLimitRule}

theorem Policies.id_ne (hpolicy : policy ∈ policies.rules) {other : RateLimitRule}
    (hother : other ∈ policies.rules) (hne : other ≠ policy) : other.id ≠ policy.id := fun heq =>
  hne (List.inj_on_of_nodup_map policies.distinct hother hpolicy heq)

theorem Rated.act (hpolicy : policy ∈ policies.rules) (hstatuses : policy.statuses = none)
    {s : State} {action : Action} (h : Rated policy s) (hlater : Later s action) :
    Rated policy (s.act policies.rules action) := by
  refine act_induction ?_ ?_ ?_
  · exact ⟨fun judgement hmem => (h.past judgement hmem).trans hlater, h.counted, h.slot, h.pair⟩
  · intro other hother clientIP t hclock ht
    by_cases hsame : other = policy
    · rw [hsame]
      exact ht.judge_self hclock hstatuses (policies.positive policy hpolicy)
    · exact ht.judge_other hclock (Policies.id_ne hpolicy hother hsame)
  · intro other hother clientIP t statusClass hcounts hclock ht
    have hne : other ≠ policy := by
      rintro rfl
      rw [countsResponse, hstatuses] at hcounts
      exact Bool.noConfusion hcounts
    refine ⟨ht.past, fun client slot => ?_, ht.slot, ht.pair⟩
    have hkey : (t.shared.rateLimit.incr (bucketKey other clientIP ⌊action.time⌋) keyTTL
        action.time).2 (bucketKey policy client slot) =
        t.shared.rateLimit (bucketKey policy client slot) :=
      SharedDict.incr_of_ne fun heq =>
        Policies.id_ne hpolicy hother hne (congrArg BucketKey.policy heq).symm
    rcases ht.counted client slot with ⟨hnone, hzero⟩ | ⟨entry, hentry, hvalue, hexpires⟩
    · exact Or.inl ⟨hkey.trans hnone, hzero⟩
    · exact Or.inr ⟨entry, hkey.trans hentry, hvalue, hexpires⟩

theorem rated_initial (start : ℚ) (hpos : 0 < policy.limit) : Rated policy (initial start) := by
  refine ⟨fun _ h => absurd h List.not_mem_nil, fun _ _ => Or.inl ⟨rfl, rfl⟩, fun _ _ => ?_,
    fun _ _ => ?_⟩
  · exact hpos.le
  · show (0 : ℤ) + 0 < _
    omega

/-- At most `limit` requests of a client pass in a second of the clock, and less than twice as many
in any window of one second. -/
theorem rates_bounded (policies : Policies) {policy : RateLimitRule}
    (hpolicy : policy ∈ policies.rules) (hstatuses : policy.statuses = none) (start : ℚ)
    {actions : List Action} (h : Along (State.act policies.rules) Later (initial start) actions)
    (clientIP : String) :
    (∀ slot, ((run (State.act policies.rules) (initial start) actions).passed policy.id clientIP
        slot : ℤ) ≤ policy.limit) ∧
      ∀ first, ((run (State.act policies.rules) (initial start) actions).passedBetween policy.id
        clientIP first (first + 1) : ℤ) < 2 * policy.limit := by
  have hrated := h.invariant (fun _ _ ht hlater => ht.act hpolicy hstatuses hlater)
    (rated_initial start (policies.positive policy hpolicy))
  refine ⟨hrated.slot clientIP, fun first => ?_⟩
  have hwindow := passedBetween_le (run (State.act policies.rules) (initial start) actions)
    policy.id clientIP first
  have hpair := hrated.pair clientIP ⌊first⌋
  omega

end

end SimpleCdn.Limiting
