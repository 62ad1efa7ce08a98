import Mathlib.Tactic.Linarith
import SimpleCdn.Limiting.Rates

/-!
# When a client is reported

A policy with a ban counts the rejections of a client since it last let a request of it pass; the
count may be too low, since it is forgotten after a while, but it is never too high.  A report sets a
mark, and while it is there nothing is counted and nothing reported.
-/

namespace SimpleCdn.Limiting

open RateLimiter Transition

/-- The judgement is the policy's, of the client. -/
def concerns (policy clientIP : String) (judgement : Judgement) : Bool :=
  judgement.policy = policy && judgement.clientIP = clientIP

/-- How many rejections of the client by the policy come first, with nothing of it let pass before
them; the latest judgement is the first of the list. -/
def rejections (policy clientIP : String) (judgements : List Judgement) : ℕ :=
  ((judgements.filter (concerns policy clientIP)).takeWhile
    fun judgement => judgement.verdict ≠ .passed).length

theorem rejections_cons (policy clientIP : String) (judgement : Judgement)
    (judgements : List Judgement) :
    rejections policy clientIP (judgement :: judgements) =
      if concerns policy clientIP judgement = true then
        if judgement.verdict = .passed then 0 else rejections policy clientIP judgements + 1
      else rejections policy clientIP judgements := by
  rw [rejections]
  split
  · next hmine =>
    rw [List.filter_cons_of_pos hmine, List.takeWhile_cons]
    split
    · next hrejected =>
      rw [if_neg (by simpa using hrejected)]
      rfl
    · next hpassed =>
      rw [if_pos (by simpa using hpassed)]
      rfl
  · next hother =>
    rw [List.filter_cons_of_neg hother]
    rfl

/-! ### What a rejection records -/

section

variable {policy : RateLimitRule} {clientIP : String} {now : ℚ} {shared : Shared}

/-- The count of a key, whether it has expired or not. -/
def written (dict : SharedDict EscalationKey) (key : EscalationKey) : ℕ :=
  (dict key).elim 0 SharedDict.Entry.value

theorem written_of_none {dict : SharedDict EscalationKey} {key : EscalationKey}
    (h : dict key = none) : written dict key = 0 := by
  rw [written, h]
  rfl

theorem written_congr {dict other : SharedDict EscalationKey} {key : EscalationKey}
    (h : dict key = other key) : written dict key = written other key := by
  rw [written, h, written]

theorem incr_le (dict : SharedDict EscalationKey) (key : EscalationKey) (ttl now : ℚ) :
    (dict.incr key ttl now).1 ≤ written dict key + 1 := by
  rcases hfind : dict.find key now with _ | entry
  · rw [(SharedDict.incr_of_not_find hfind).1]
    omega
  · rw [(SharedDict.incr_of_find hfind).1, written, (SharedDict.find_eq_some hfind).1]
    exact le_rfl

/-- The count of the streak with this rejection. -/
def strikes (policy : RateLimitRule) (clientIP : String) (now : ℚ) (shared : Shared) : ℕ :=
  (shared.escalation.incr (.streak policy.id clientIP) keyTTL now).1

theorem written_incr (dict : SharedDict EscalationKey) (key : EscalationKey) (ttl now : ℚ) :
    written (dict.incr key ttl now).2 key = (dict.incr key ttl now).1 := by
  rcases hfind : dict.find key now with _ | entry
  · rw [written, (SharedDict.incr_of_not_find hfind).2, (SharedDict.incr_of_not_find hfind).1]
    rfl
  · rw [written, (SharedDict.incr_of_find hfind).2, (SharedDict.incr_of_find hfind).1]
    rfl

theorem written_expire (dict : SharedDict EscalationKey) (key : EscalationKey) (ttl now : ℚ) :
    written (dict.expire key ttl now) key = written dict key := by
  rw [SharedDict.expire]
  rcases hfind : dict.find key now with _ | entry
  · rfl
  · rw [written, written, (SharedDict.find_eq_some hfind).1]
    dsimp only
    rw [SharedDict.set_self]
    rfl

variable (clientIP now shared) in
/-- A rejection is not counted while the client is marked; otherwise it is counted, or it is the
last one and the client is marked. -/
theorem recordRejection_cases {banAfter banSeconds : ℤ}
    (hban : policy.ban = some (banAfter, banSeconds)) :
    (recordRejection policy clientIP now shared = (false, shared)) ∨
    (∃ escalation, recordRejection policy clientIP now shared =
        (false, { shared with escalation := escalation }) ∧
      (∀ key, key ≠ .streak policy.id clientIP → escalation key = shared.escalation key) ∧
      written escalation (.streak policy.id clientIP) ≤ strikes policy clientIP now shared) ∨
    (∃ escalation, recordRejection policy clientIP now shared =
        (true, { shared with escalation := escalation }) ∧
      (∀ key, key ≠ .streak policy.id clientIP → key ≠ .event policy.id clientIP →
        escalation key = shared.escalation key) ∧
      escalation (.streak policy.id clientIP) = none ∧
      escalation (.event policy.id clientIP) = some ⟨1, now + banSeconds⟩ ∧
      shared.escalation.find (.event policy.id clientIP) now = none ∧
      banAfter ≤ strikes policy clientIP now shared) := by
  have hother : EscalationKey.event policy.id clientIP ≠ .streak policy.id clientIP := nofun
  simp only [recordRejection, hban]
  rcases hevent : shared.escalation.find (.event policy.id clientIP) now with _ | entry
  · rw [if_neg (by simp [SharedDict.get, hevent])]
    right
    split
    · refine Or.inl ⟨_, rfl, fun key hkey => ?_, ?_⟩
      · rw [SharedDict.expire_of_ne hkey, SharedDict.incr_of_ne hkey]
      · rw [written_expire, written_incr]
        exact le_rfl
    · next hmany =>
      -- counting has not set the mark
      have hunmarked : ((shared.escalation.incr (.streak policy.id clientIP) keyTTL now).2.expire
          (.streak policy.id clientIP) keyTTL now).find (.event policy.id clientIP) now = none := by
        rw [SharedDict.find, SharedDict.expire_of_ne hother, SharedDict.incr_of_ne hother]
        exact hevent
      rw [SharedDict.add, hunmarked]
      dsimp only
      refine Or.inr ⟨_, rfl, fun key hstreak hmark => ?_, SharedDict.set_self _, ?_, rfl,
        not_lt.mp hmany⟩
      · rw [SharedDict.delete_of_ne hstreak, SharedDict.set_of_ne _ hmark,
          SharedDict.expire_of_ne hstreak, SharedDict.incr_of_ne hstreak]
      · rw [SharedDict.delete_of_ne hother, SharedDict.set_self]
  · rw [if_pos (by simp [SharedDict.get, hevent])]
    exact Or.inl rfl

theorem recordRejection_of_ne {key : EscalationKey} (hstreak : key ≠ .streak policy.id clientIP)
    (hevent : key ≠ .event policy.id clientIP) :
    (recordRejection policy clientIP now shared).2.escalation key = shared.escalation key := by
  rcases hban : policy.ban with _ | ⟨banAfter, banSeconds⟩
  · rw [recordRejection, hban]
  · rcases recordRejection_cases clientIP now shared hban with
      hsame | ⟨escalation, hcount, hkeys, -⟩ | ⟨escalation, hreport, hkeys, -⟩
    · rw [hsame]
    · rw [hcount]
      exact hkeys key hstreak
    · rw [hreport]
      exact hkeys key hstreak hevent

theorem resetRejectionStreak_of_ne {key : EscalationKey}
    (hstreak : key ≠ .streak policy.id clientIP) :
    (resetRejectionStreak policy clientIP shared).escalation key = shared.escalation key := by
  rw [resetRejectionStreak]
  split
  · rfl
  · exact SharedDict.delete_of_ne hstreak

/-- What a policy writes is about the client it judges. -/
theorem judge_of_ne {key : EscalationKey} (hstreak : key ≠ .streak policy.id clientIP)
    (hevent : key ≠ .event policy.id clientIP) :
    (RateLimiter.judge policy clientIP now shared).2.escalation key = shared.escalation key := by
  simp only [RateLimiter.judge]
  split
  · exact recordRejection_of_ne hstreak hevent
  · exact resetRejectionStreak_of_ne hstreak

variable (policy clientIP now shared) in
/-- A judgement resets the streak, or is a rejection that has been recorded. -/
theorem judge_cases : ∃ rateLimit,
    RateLimiter.judge policy clientIP now shared =
        (.passed, resetRejectionStreak policy clientIP { shared with rateLimit := rateLimit }) ∨
      RateLimiter.judge policy clientIP now shared =
        (.rejected (recordRejection policy clientIP now
            { shared with rateLimit := rateLimit }).1,
          (recordRejection policy clientIP now { shared with rateLimit := rateLimit }).2) := by
  refine ⟨(windowRate shared.rateLimit policy clientIP now policy.statuses.isNone).2, ?_⟩
  simp only [RateLimiter.judge]
  split
  · exact Or.inr rfl
  · exact Or.inl rfl

end

/-! ### Reports -/

/-- Reports are earned, and far enough apart. -/
structure Reported (policy : RateLimitRule) (banAfter banSeconds : ℤ) (s : State) : Prop where
  past : ∀ judgement ∈ s.judgements, judgement.time ≤ s.clock
  streak : ∀ clientIP, written s.shared.escalation (.streak policy.id clientIP) ≤
    rejections policy.id clientIP s.judgements
  marked : ∀ judgement ∈ s.judgements, judgement.policy = policy.id →
    judgement.verdict = .rejected true →
    ∃ entry, s.shared.escalation (.event policy.id judgement.clientIP) = some entry ∧
      judgement.time + banSeconds ≤ entry.expires
  earned : ∀ report earlier, report :: earlier <:+ s.judgements → report.policy = policy.id →
    report.verdict = .rejected true →
    banAfter - 1 ≤ rejections policy.id report.clientIP earlier
  spaced : ∀ report earlier, report :: earlier <:+ s.judgements → report.policy = policy.id →
    report.verdict = .rejected true →
    ∀ judgement ∈ earlier, judgement.policy = policy.id → judgement.clientIP = report.clientIP →
      judgement.verdict = .rejected true → judgement.time + banSeconds ≤ report.time

section

variable {policy : RateLimitRule} {banAfter banSeconds : ℤ} {s : State} {clientIP : String}
  {now : ℚ} {judgement : Judgement} {shared : Shared}

/-- A judgement that reports nobody only has to keep the count and the marks. -/
theorem Reported.push (h : Reported policy banAfter banSeconds s) (hclock : s.clock = now)
    (htime : judgement.time = now)
    (hsilent : judgement.policy = policy.id → judgement.verdict ≠ .rejected true)
    (hstreak : ∀ client, written shared.escalation (.streak policy.id client) ≤
      rejections policy.id client (judgement :: s.judgements))
    (hmarks : ∀ client, shared.escalation (.event policy.id client) =
      s.shared.escalation (.event policy.id client)) :
    Reported policy banAfter banSeconds ⟨shared, judgement :: s.judgements, now⟩ := by
  refine ⟨fun other hmem => ?_, hstreak, fun other hmem hpolicy hverdict => ?_,
    fun report earlier hsuffix hpolicy hverdict => ?_,
    fun report earlier hsuffix hpolicy hverdict => ?_⟩
  · rcases List.mem_cons.mp hmem with rfl | hmem
    · exact htime.le
    · exact hclock ▸ h.past other hmem
  · rcases List.mem_cons.mp hmem with rfl | hmem
    · exact absurd hverdict (hsilent hpolicy)
    · rw [hmarks]
      exact h.marked other hmem hpolicy hverdict
  · rcases List.suffix_cons_iff.mp hsuffix with heq | hsuffix
    · obtain ⟨rfl, rfl⟩ := List.cons.inj heq
      exact absurd hverdict (hsilent hpolicy)
    · exact h.earned report earlier hsuffix hpolicy hverdict
  · rcases List.suffix_cons_iff.mp hsuffix with heq | hsuffix
    · obtain ⟨rfl, rfl⟩ := List.cons.inj heq
      exact absurd hverdict (hsilent hpolicy)
    · exact h.spaced report earlier hsuffix hpolicy hverdict

/-- A report is made by the last of `banAfter` rejections, when no mark is left. -/
theorem Reported.report (h : Reported policy banAfter banSeconds s) (hclock : s.clock = now)
    {escalation : SharedDict EscalationKey}
    (hkeys : ∀ key, key ≠ .streak policy.id clientIP → key ≠ .event policy.id clientIP →
      escalation key = s.shared.escalation key)
    (hreset : escalation (.streak policy.id clientIP) = none)
    (hmark : escalation (.event policy.id clientIP) = some ⟨1, now + banSeconds⟩)
    (hunmarked : s.shared.escalation.find (.event policy.id clientIP) now = none)
    (hmany : banAfter ≤ rejections policy.id clientIP s.judgements + 1)
    (rateLimit : SharedDict BucketKey) :
    Reported policy banAfter banSeconds ⟨⟨rateLimit, escalation⟩,
      ⟨policy.id, clientIP, now, .rejected true⟩ :: s.judgements, now⟩ := by
  -- whoever was reported before, was so long ago
  have hold : ∀ other ∈ s.judgements, other.policy = policy.id → other.clientIP = clientIP →
      other.verdict = .rejected true → other.time + banSeconds ≤ now := by
    intro other hmem hpolicy hclient hverdict
    obtain ⟨entry, hentry, hexpires⟩ := h.marked other hmem hpolicy hverdict
    rw [hclient] at hentry
    by_contra hlater
    rw [SharedDict.find_of_lt hentry (by linarith)] at hunmarked
    exact Option.some_ne_none _ hunmarked
  refine ⟨fun other hmem => ?_, fun client => ?_, fun other hmem hpolicy hverdict => ?_,
    fun report earlier hsuffix hpolicy hverdict => ?_,
    fun report earlier hsuffix hpolicy hverdict => ?_⟩
  · rcases List.mem_cons.mp hmem with rfl | hmem
    · exact le_rfl
    · exact hclock ▸ h.past other hmem
  · by_cases hclient : client = clientIP
    · rw [hclient, written_of_none hreset]
      exact Nat.zero_le _
    · have hother : EscalationKey.streak policy.id client ≠ .streak policy.id clientIP :=
        fun heq => hclient (by injection heq)
      rw [written_congr (hkeys _ hother nofun), rejections_cons, if_neg]
      · exact h.streak client
      · simp [concerns, Ne.symm hclient]
  · rcases List.mem_cons.mp hmem with rfl | hmem
    · exact ⟨_, hmark, le_rfl⟩
    · by_cases hclient : other.clientIP = clientIP
      · refine ⟨_, hclient ▸ hmark, ?_⟩
        have hpast := hclock ▸ h.past other hmem
        show _ ≤ now + _
        linarith
      · obtain ⟨entry, hentry, hexpires⟩ := h.marked other hmem hpolicy hverdict
        have hother : EscalationKey.event policy.id other.clientIP ≠ .event policy.id clientIP :=
          fun heq => hclient (by injection heq)
        have hkey := hkeys (.event policy.id other.clientIP) nofun hother
        exact ⟨entry, hkey.trans hentry, hexpires⟩
  · rcases List.suffix_cons_iff.mp hsuffix with heq | hsuffix
    · obtain ⟨rfl, rfl⟩ := List.cons.inj heq
      show banAfter - 1 ≤ (rejections policy.id clientIP s.judgements : ℤ)
      omega
    · exact h.earned report earlier hsuffix hpolicy hverdict
  · rcases List.suffix_cons_iff.mp hsuffix with heq | hsuffix
    · obtain ⟨rfl, rfl⟩ := List.cons.inj heq
      exact hold
    · exact h.spaced report earlier hsuffix hpolicy hverdict

theorem rejections_self (verdict : Verdict) (judgements : List Judgement) :
    rejections policy.id clientIP (⟨policy.id, clientIP, now, verdict⟩ :: judgements) =
      if verdict = .passed then 0 else rejections policy.id clientIP judgements + 1 := by
  rw [rejections_cons, if_pos (by simp [concerns])]

theorem rejections_of_ne {other client : String} {verdict : Verdict} (judgements : List Judgement)
    (h : other ≠ policy.id ∨ clientIP ≠ client) :
    rejections policy.id client (⟨other, clientIP, now, verdict⟩ :: judgements) =
      rejections policy.id client judgements := by
  rw [rejections_cons, if_neg]
  rcases h with h | h
  · simp [concerns, h]
  · simp [concerns, h]

theorem streak_ne {client : String} (h : client ≠ clientIP) :
    EscalationKey.streak policy.id client ≠ .streak policy.id clientIP :=
  fun heq => h (by injection heq)

/-- The judgement of the policy only touches the streak of its client. -/
theorem Reported.push_self (h : Reported policy banAfter banSeconds s) (hclock : s.clock = now)
    {verdict : Verdict} (hsilent : verdict ≠ .rejected true)
    (hkeys : ∀ key, key ≠ .streak policy.id clientIP →
      shared.escalation key = s.shared.escalation key)
    (hstreak : written shared.escalation (.streak policy.id clientIP) ≤
      if verdict = .passed then 0 else rejections policy.id clientIP s.judgements + 1) :
    Reported policy banAfter banSeconds
      ⟨shared, ⟨policy.id, clientIP, now, verdict⟩ :: s.judgements, now⟩ := by
  refine h.push hclock rfl (fun _ => hsilent) (fun client => ?_) fun client => hkeys _ nofun
  by_cases hclient : client = clientIP
  · rw [hclient, rejections_self]
    exact hstreak
  · rw [rejections_of_ne _ (Or.inr (Ne.symm hclient)), written_congr (hkeys _ (streak_ne hclient))]
    exact h.streak client

theorem Reported.judge_self (h : Reported policy banAfter banSeconds s) (hclock : s.clock = now)
    (hban : policy.ban = some (banAfter, banSeconds)) :
    Reported policy banAfter banSeconds (s.judge policy clientIP now) := by
  rw [State.judge]
  obtain ⟨rateLimit, hpassed | hrejected⟩ :=
    judge_cases policy clientIP now s.shared
  · rw [hpassed]
    refine h.push_self hclock (by rintro ⟨⟩) (fun key hkey => resetRejectionStreak_of_ne hkey) ?_
    rw [resetRejectionStreak, hban, if_neg (by rintro ⟨⟩), written_of_none SharedDict.delete_self]
    exact Nat.zero_le _
  · rw [hrejected]
    have hstrikes : strikes policy clientIP now ⟨rateLimit, s.shared.escalation⟩ ≤
        rejections policy.id clientIP s.judgements + 1 :=
      (incr_le _ _ _ _).trans (Nat.add_le_add_right (h.streak clientIP) 1)
    rcases recordRejection_cases clientIP now ⟨rateLimit, s.shared.escalation⟩ hban with
      hsame | ⟨escalation, hcount, hkeys, hwritten⟩ |
      ⟨escalation, hreport, hkeys, hreset, hmark, hunmarked, hmany⟩
    · rw [hsame]
      exact h.push_self hclock (by rintro ⟨⟩) (fun _ _ => rfl) ((h.streak clientIP).trans (Nat.le_succ _))
    · rw [hcount]
      exact h.push_self hclock (by rintro ⟨⟩) hkeys (hwritten.trans hstrikes)
    · rw [hreport]
      exact h.report hclock hkeys hreset hmark hunmarked (by omega) rateLimit

theorem Reported.judge_other (h : Reported policy banAfter banSeconds s) (hclock : s.clock = now)
    {other : RateLimitRule} (hne : other.id ≠ policy.id) :
    Reported policy banAfter banSeconds (s.judge other clientIP now) := by
  have hstreak (client : String) :
      (RateLimiter.judge other clientIP now s.shared).2.escalation (.streak policy.id client) =
        s.shared.escalation (.streak policy.id client) :=
    judge_of_ne (fun heq => hne (by injection heq with hid; exact hid.symm)) nofun
  have hmark (client : String) :
      (RateLimiter.judge other clientIP now s.shared).2.escalation (.event policy.id client) =
        s.shared.escalation (.event policy.id client) :=
    judge_of_ne nofun fun heq => hne (by injection heq with hid; exact hid.symm)
  show Reported policy banAfter banSeconds ⟨(RateLimiter.judge other clientIP now s.shared).2,
    ⟨other.id, clientIP, now, (RateLimiter.judge other clientIP now s.shared).1⟩ :: s.judgements,
    now⟩
  refine h.push hclock rfl (fun heq => absurd heq hne) (fun client => ?_) hmark
  rw [rejections_of_ne _ (Or.inl hne), written_congr (hstreak client)]
  exact h.streak client

end

/-! ### Runs -/

section

variable {policies : Policies} {policy : RateLimitRule} {banAfter banSeconds : ℤ}

theorem Reported.act (hpolicy : policy ∈ policies.rules)
    (hban : policy.ban = some (banAfter, banSeconds)) {s : State} {action : Action}
    (h : Reported policy banAfter banSeconds s) (hlater : Later s action) :
    Reported policy banAfter banSeconds (s.act policies.rules action) := by
  refine act_induction ?_ ?_ ?_
  · exact ⟨fun judgement hmem => (h.past judgement hmem).trans hlater, h.streak, h.marked,
      h.earned, h.spaced⟩
  · intro other hother clientIP t hclock ht
    by_cases hsame : other = policy
    · rw [hsame]
      exact ht.judge_self hclock hban
    · exact ht.judge_other hclock (Policies.id_ne hpolicy hother hsame)
  · intro other hother clientIP t statusClass hcounts hclock ht
    exact ⟨ht.past, ht.streak, ht.marked, ht.earned, ht.spaced⟩

theorem reported_initial (start : ℚ) : Reported policy banAfter banSeconds (initial start) := by
  refine ⟨fun _ h => absurd h List.not_mem_nil, fun _ => Nat.zero_le _,
    fun _ h => absurd h List.not_mem_nil, fun report earlier hsuffix => ?_,
    fun report earlier hsuffix => ?_⟩
  · exact absurd (List.suffix_nil.mp hsuffix) (List.cons_ne_nil _ _)
  · exact absurd (List.suffix_nil.mp hsuffix) (List.cons_ne_nil _ _)

theorem run_reported (hpolicy : policy ∈ policies.rules)
    (hban : policy.ban = some (banAfter, banSeconds)) (start : ℚ) {actions : List Action}
    (h : Along (State.act policies.rules) Later (initial start) actions) :
    Reported policy banAfter banSeconds (run (State.act policies.rules) (initial start) actions) :=
  h.invariant (fun _ _ ht hlater => ht.act hpolicy hban hlater) (reported_initial start)

/-- A policy without a response condition lets at most `limit` requests of a client pass in a second
of the clock, and less than twice as many in any window of one second.  A policy with a ban reports
a client at the last of `banAfter` rejections with no request let pass between them, and not again
for `banSeconds`. -/
theorem limiter_bounded (policies : Policies) (start : ℚ) {actions : List Action}
    (h : Along (State.act policies.rules) Later (initial start) actions)
    (hpolicy : policy ∈ policies.rules) :
    (policy.statuses = none → ∀ clientIP,
      (∀ slot, ((run (State.act policies.rules) (initial start) actions).passed policy.id clientIP
        slot : ℤ) ≤ policy.limit) ∧
      ∀ first, ((run (State.act policies.rules) (initial start) actions).passedBetween policy.id
        clientIP first (first + 1) : ℤ) < 2 * policy.limit) ∧
    ∀ banAfter banSeconds, policy.ban = some (banAfter, banSeconds) → ∀ report earlier,
      report :: earlier <:+ (run (State.act policies.rules) (initial start) actions).judgements →
      report.policy = policy.id → report.verdict = .rejected true →
      banAfter - 1 ≤ rejections policy.id report.clientIP earlier ∧
      ∀ judgement ∈ earlier, judgement.policy = policy.id →
        judgement.clientIP = report.clientIP → judgement.verdict = .rejected true →
        judgement.time + banSeconds ≤ report.time := by
  refine ⟨fun hstatuses => rates_bounded policies hpolicy hstatuses start h,
    fun banAfter banSeconds hban report earlier hsuffix hid hverdict => ?_⟩
  have hreported := run_reported hpolicy hban start h
  exact ⟨hreported.earned report earlier hsuffix hid hverdict,
    hreported.spaced report earlier hsuffix hid hverdict⟩

end

/-- Three requests a second, and a ban for a minute after two rejections for failed requests. -/
def strictPolicies : Policies where
  rules := [⟨"all", 3, none, none⟩, ⟨"failed", 1, some [4], some (2, 60)⟩]
  distinct := by decide
  positive := by decide

/-- A failed request, then the two that are rejected for it. -/
def strictRun : List Action :=
  [.response "192.0.2.1" 10 404 false, .access "192.0.2.1" (41 / 4), .access "192.0.2.1" (21 / 2)]

/-- The second rejection is reported. -/
theorem strictRun_bounded :
    1 ≤ rejections "failed" "192.0.2.1"
        ((run (State.act strictPolicies.rules) (initial 0) strictRun).judgements.drop 1) ∧
      (run (State.act strictPolicies.rules) (initial 0) strictRun).passedBetween "all" "192.0.2.1"
        10 11 < 6 := by
  have hlater : Along (State.act strictPolicies.rules) Later (initial 0) strictRun :=
    ⟨by decide +kernel, by decide +kernel, by decide +kernel, trivial⟩
  have hall : ⟨"all", 3, none, none⟩ ∈ strictPolicies.rules := by decide
  have hfailed : ⟨"failed", 1, some [4], some (2, 60)⟩ ∈ strictPolicies.rules := by decide
  have hrates := (limiter_bounded strictPolicies 0 hlater hall).1 rfl "192.0.2.1"
  have hreports := (limiter_bounded strictPolicies 0 hlater hfailed).2 2 60 rfl
  have hrun : (run (State.act strictPolicies.rules) (initial 0) strictRun).judgements =
      ⟨"failed", "192.0.2.1", 21 / 2, .rejected true⟩ ::
        (run (State.act strictPolicies.rules) (initial 0) strictRun).judgements.drop 1 := by
    decide +kernel
  refine ⟨?_, ?_⟩
  · have hearned := (hreports _ _ ⟨[], hrun.symm⟩ rfl rfl).1
    exact Int.ofNat_le.mp hearned
  · have hwindow := hrates.2 10
    norm_num at hwindow
    exact_mod_cast hwindow

end SimpleCdn.Limiting
