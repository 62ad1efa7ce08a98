import SimpleCdn.Lib.Transition
import SimpleCdn.Nginx.RateLimiter

/-!
# Limiting requests

The workers of a node judge requests and count responses in the order of the clock they share.  The
policies are those of the configuration: their IDs are their rows' keys, and a limit is at least one.

`judgements` lists what the policies have said, the latest first, and `clock` is the time of the
last action; no step decides by either.
-/

namespace SimpleCdn.Limiting

open RateLimiter Transition Nginx

/-- The policies of a configuration. -/
structure Policies where
  rules : List RateLimitRule
  distinct : (rules.map RateLimitRule.id).Nodup
  positive : ∀ policy ∈ rules, 0 < policy.limit

/-! ### The policies that are printed -/

theorem normalizeRateLimitPolicy_positive {policy normalized : RateLimitPolicy}
    (h : normalizeRateLimitPolicy policy = .ok normalized) : 0 < normalized.requestsPerSecond := by
  simp only [normalizeRateLimitPolicy, bind_eq_ok, require_eq_ok, exists_const] at h
  obtain ⟨-, ⟨hmin, -⟩, -, -, h⟩ := h
  split at h
  · simp only [bind_eq_ok, require_eq_ok, exists_const] at h
    obtain ⟨-, h⟩ := h
    cases h
    exact hmin
  · simp only [bind_eq_ok, require_eq_ok, exists_const] at h
    obtain ⟨-, -, -, h⟩ := h
    cases h
    exact hmin

theorem normalizeRateLimitPolicies_positive {policies normalized : List RateLimitPolicy}
    (h : normalizeRateLimitPolicies policies = .ok normalized) :
    ∀ policy ∈ normalized, 0 < policy.requestsPerSecond := by
  induction policies generalizing normalized with
  | nil =>
    cases h
    exact fun _ hmem => absurd hmem List.not_mem_nil
  | cons policy policies ih =>
    simp only [normalizeRateLimitPolicies, bind_eq_ok, mapError_eq_ok] at h
    obtain ⟨first, hfirst, rest, hrest, h⟩ := h
    cases h
    intro other hmem
    rcases List.mem_cons.mp hmem with rfl | hmem
    · exact normalizeRateLimitPolicy_positive hfirst
    · exact ih hrest other hmem

/-- The rules that are printed for policies with different IDs. -/
theorem rendered_policies {policies normalized : List RateLimitPolicy}
    (hnormalized : normalizeRateLimitPolicies policies = .ok normalized)
    (hids : (normalized.map RateLimitPolicy.id).Nodup) {http : Bool} {config : RateLimitSection}
    (hrender : renderRateLimitConfig (some normalized) http = some config) :
    ∃ rendered : Policies, rendered.rules = config.rules := by
  rw [renderRateLimitConfig, Option.map_some, Option.some_inj] at hrender
  subst hrender
  rcases http with _ | _
  · exact ⟨⟨[], List.nodup_nil, fun _ h => absurd h List.not_mem_nil⟩, rfl⟩
  · refine ⟨⟨_, ?_, fun rule hrule => ?_⟩, rfl⟩
    · show ((List.map _ (enabledRateLimitPolicies normalized)).map RateLimitRule.id).Nodup
      rw [List.map_map]
      have hsorted : List.Perm (enabledRateLimitPolicies normalized)
        (normalized.filter RateLimitPolicy.enabled) := List.perm_insertionSort _ _
      exact (hsorted.map RateLimitPolicy.id).nodup_iff.mpr (hids.sublist (List.filter_sublist.map _))
    · simp only [if_true, List.mem_map] at hrule
      obtain ⟨policy, hpolicy, rfl⟩ := hrule
      rw [enabledRateLimitPolicies, List.mem_insertionSort] at hpolicy
      exact normalizeRateLimitPolicies_positive hnormalized policy (List.mem_of_mem_filter hpolicy)

/-! ### Steps -/

structure State where
  shared : Shared
  judgements : List Judgement
  clock : ℚ

inductive Action
  | access (clientIP : String) (now : ℚ)
  /-- `rejected` is the mark that a rejection has left on the request. -/
  | response (clientIP : String) (now : ℚ) (status : ℤ) (rejected : Bool)

def Action.time : Action → ℚ
  | .access _ now | .response _ now _ _ => now

def initial (start : ℚ) : State := ⟨Shared.empty, [], start⟩

def State.act (rules : List RateLimitRule) (s : State) : Action → State
  | .access clientIP now =>
    if clientIP = "" then { s with clock := now }
    else
      let (judgements, shared) := access clientIP now rules s.shared
      ⟨shared, judgements.reverse ++ s.judgements, now⟩
  | .response clientIP now status rejected =>
    if clientIP = "" ∨ rejected = true then { s with clock := now }
    else { s with shared := response rules clientIP now status s.shared, clock := now }

/-- The clock does not go back. -/
def Later (s : State) (action : Action) : Prop :=
  s.clock ≤ action.time

instance (s : State) (action : Action) : Decidable (Later s action) :=
  inferInstanceAs (Decidable (s.clock ≤ action.time))

/-! ### One policy at a time -/

/-- The state after one policy has judged a request. -/
def State.judge (s : State) (policy : RateLimitRule) (clientIP : String) (now : ℚ) : State :=
  let (verdict, shared) := RateLimiter.judge policy clientIP now s.shared
  ⟨shared, ⟨policy.id, clientIP, now, verdict⟩ :: s.judgements, now⟩

section

variable {P : State → Prop} {rules : List RateLimitRule}

theorem access_induction {clientIP : String} {now : ℚ}
    (hjudge : ∀ policy ∈ rules, ∀ t, t.clock = now → P t → P (t.judge policy clientIP now)) :
    ∀ t : State, t.clock = now → P t → P ⟨(access clientIP now rules t.shared).2,
      (access clientIP now rules t.shared).1.reverse ++ t.judgements, now⟩ := by
  induction rules with
  | nil =>
    intro t hclock ht
    rw [← hclock]
    exact ht
  | cons policy policies ih =>
    intro t hclock ht
    have hfirst := hjudge policy List.mem_cons_self t hclock ht
    rw [State.judge] at hfirst
    rw [access]
    rcases hverdict : RateLimiter.judge policy clientIP now t.shared with ⟨verdict, shared⟩
    rw [hverdict] at hfirst
    rcases verdict with _ | reported
    · have hrest := ih (fun q hq => hjudge q (List.mem_cons_of_mem _ hq)) _ rfl hfirst
      simpa using hrest
    · exact hfirst

theorem response_induction {clientIP : String} {now : ℚ} {status : ℤ}
    (hcount : ∀ policy ∈ rules, ∀ t statusClass, countsResponse policy statusClass = true →
      t.clock = now → P t → P { t with shared := { t.shared with
        rateLimit := (t.shared.rateLimit.incr (bucketKey policy clientIP ⌊now⌋) keyTTL now).2 } }) :
    ∀ t : State, t.clock = now → P t →
      P { t with shared := response rules clientIP now status t.shared } := by
  induction rules with
  | nil => exact fun t _ ht => ht
  | cons policy policies ih =>
    intro t hclock ht
    have hrest := ih (fun q hq => hcount q (List.mem_cons_of_mem _ hq))
    rw [response, List.foldl_cons]
    by_cases hcounts : countsResponse policy (status / 100) = true
    · rw [if_pos hcounts]
      exact hrest
        { t with shared := { t.shared with
          rateLimit := (t.shared.rateLimit.incr (bucketKey policy clientIP ⌊now⌋) keyTTL now).2 } }
        hclock (hcount policy List.mem_cons_self t _ hcounts hclock ht)
    · rw [if_neg hcounts]
      exact hrest t hclock ht

/-- What each judgement and each counted response keeps, an action keeps. -/
theorem act_induction {s : State} {action : Action} (hs : P { s with clock := action.time })
    (hjudge : ∀ policy ∈ rules, ∀ clientIP t, t.clock = action.time → P t →
      P (t.judge policy clientIP action.time))
    (hcount : ∀ policy ∈ rules, ∀ clientIP t statusClass, countsResponse policy statusClass = true →
      t.clock = action.time → P t → P { t with shared := { t.shared with
        rateLimit := (t.shared.rateLimit.incr
          (bucketKey policy clientIP ⌊action.time⌋) keyTTL action.time).2 } }) :
    P (s.act rules action) := by
  rcases action with ⟨clientIP, now⟩ | ⟨clientIP, now, status, rejected⟩
  · rw [State.act]
    split
    · exact hs
    · exact access_induction (fun policy hpolicy => hjudge policy hpolicy clientIP)
        { s with clock := now } rfl hs
  · rw [State.act]
    split
    · exact hs
    · exact response_induction (fun policy hpolicy => hcount policy hpolicy clientIP)
        { s with clock := now } rfl hs

end

end SimpleCdn.Limiting
