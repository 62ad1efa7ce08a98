import Mathlib.Algebra.Order.Floor.Ring
import Mathlib.Data.Rat.Floor
import SimpleCdn.Lib.SharedDict
import SimpleCdn.Nginx.Render

/-!
# The rate limiter

The Lua program that `renderRateLimitConfig` prints.  A request is judged by the policies in turn:
by the requests it has counted in this second, and the share of those of the second before that is
not yet past.  A policy without a response condition counts the requests themselves; one with such
a condition counts the responses, and may report a client to be banned after several rejections in
a row.

Times are rational numbers of seconds.  Policy IDs have no colon, so the text of a key stands for
its parts.
-/

namespace SimpleCdn.RateLimiter

/-- `bucket_key` -/
structure BucketKey where
  policy : String
  clientIP : String
  second : ℤ
  deriving DecidableEq

/-- `escalation_key` -/
inductive EscalationKey
  | streak (policy clientIP : String)
  | event (policy clientIP : String)
  deriving DecidableEq

/-- `ngx.shared`; the value of an `event` key is only tested for being there. -/
structure Shared where
  rateLimit : SharedDict BucketKey
  escalation : SharedDict EscalationKey

def Shared.empty : Shared := ⟨SharedDict.empty, SharedDict.empty⟩

def keyTTL : ℚ := 3

def bucketKey (policy : RateLimitRule) (clientIP : String) (second : ℤ) : BucketKey :=
  ⟨policy.id, clientIP, second⟩

/-- `window_rate` -/
def windowRate (dict : SharedDict BucketKey) (policy : RateLimitRule) (clientIP : String)
    (now : ℚ) (increment : Bool) : ℚ × SharedDict BucketKey :=
  let second := ⌊now⌋
  let currentKey := bucketKey policy clientIP second
  let (current, dict) :=
    if increment then dict.incr currentKey keyTTL now
    else ((dict.get currentKey now).getD 0, dict)
  let previous := (dict.get (bucketKey policy clientIP (second - 1)) now).getD 0
  (current + previous * (1 - (now - second)), dict)

/-- `reset_rejection_streak` -/
def resetRejectionStreak (policy : RateLimitRule) (clientIP : String) (shared : Shared) : Shared :=
  if policy.ban = none then shared
  else { shared with escalation := shared.escalation.delete (.streak policy.id clientIP) }

/-- `record_rejection`, and whether it reports the client. -/
def recordRejection (policy : RateLimitRule) (clientIP : String) (now : ℚ) (shared : Shared) :
    Bool × Shared :=
  match policy.ban with
  | none => (false, shared)
  | some (banAfter, banSeconds) =>
    let eventKey := EscalationKey.event policy.id clientIP
    if (shared.escalation.get eventKey now).isSome then (false, shared)
    else
      let streakKey := EscalationKey.streak policy.id clientIP
      let (strikes, escalation) := shared.escalation.incr streakKey keyTTL now
      let escalation := escalation.expire streakKey keyTTL now
      if (strikes : ℤ) < banAfter then (false, { shared with escalation := escalation })
      else
        let (recorded, escalation) := escalation.add eventKey 1 banSeconds now
        (recorded, { shared with escalation := escalation.delete streakKey })

/-- What one policy does with a request. -/
inductive Verdict
  | passed
  /-- `reject`, and whether the client is reported. -/
  | rejected (reported : Bool)
  deriving DecidableEq

/-- One pass of the loop of `access`. -/
def judge (policy : RateLimitRule) (clientIP : String) (now : ℚ) (shared : Shared) :
    Verdict × Shared :=
  let countRequests := policy.statuses.isNone
  let (rate, rateLimit) := windowRate shared.rateLimit policy clientIP now countRequests
  let shared := { shared with rateLimit := rateLimit }
  if (countRequests = true ∧ policy.limit < rate) ∨ (countRequests = false ∧ policy.limit ≤ rate)
  then
    let (reported, shared) := recordRejection policy clientIP now shared
    (.rejected reported, shared)
  else (.passed, resetRejectionStreak policy clientIP shared)

/-! ### What a judgement changes -/

section

variable {policy : RateLimitRule} {clientIP : String} {now : ℚ} {shared : Shared}

theorem recordRejection_rateLimit :
    (recordRejection policy clientIP now shared).2.rateLimit = shared.rateLimit := by
  rw [recordRejection]
  split
  · rfl
  · dsimp only
    split
    · rfl
    · split
      · rfl
      · rfl

theorem resetRejectionStreak_rateLimit :
    (resetRejectionStreak policy clientIP shared).rateLimit = shared.rateLimit := by
  rw [resetRejectionStreak]
  split
  · rfl
  · rfl

theorem judge_rateLimit :
    (judge policy clientIP now shared).2.rateLimit =
      (windowRate shared.rateLimit policy clientIP now policy.statuses.isNone).2 := by
  simp only [judge]
  split
  · exact recordRejection_rateLimit
  · exact resetRejectionStreak_rateLimit

theorem judge_passed_iff :
    (judge policy clientIP now shared).1 = .passed ↔
      ¬((policy.statuses.isNone = true ∧ policy.limit <
          (windowRate shared.rateLimit policy clientIP now policy.statuses.isNone).1) ∨
        (policy.statuses.isNone = false ∧ policy.limit ≤
          (windowRate shared.rateLimit policy clientIP now policy.statuses.isNone).1)) := by
  simp only [judge]
  split
  · next hover => exact iff_of_false nofun (not_not_intro hover)
  · next hunder => exact iff_of_true rfl hunder

theorem windowRate_of_ne {dict : SharedDict BucketKey} {increment : Bool} {key : BucketKey}
    (h : key ≠ bucketKey policy clientIP ⌊now⌋) :
    (windowRate dict policy clientIP now increment).2 key = dict key := by
  rw [windowRate]
  rcases increment with _ | _
  · rfl
  · exact SharedDict.incr_of_ne h

end

/-- What the policies said to a request: the last one is the policy that rejected it, or the last of
all. -/
structure Judgement where
  policy : String
  clientIP : String
  time : ℚ
  verdict : Verdict
  deriving DecidableEq

/-- The loop of `access`; the judgements are given in order. -/
def access (clientIP : String) (now : ℚ) :
    List RateLimitRule → Shared → List Judgement × Shared
  | [], shared => ([], shared)
  | policy :: policies, shared =>
    match judge policy clientIP now shared with
    | (.passed, shared) =>
      let (judgements, shared) := access clientIP now policies shared
      (⟨policy.id, clientIP, now, .passed⟩ :: judgements, shared)
    | (.rejected reported, shared) => ([⟨policy.id, clientIP, now, .rejected reported⟩], shared)

/-- The policy counts responses of the class. -/
def countsResponse (policy : RateLimitRule) (statusClass : ℤ) : Bool :=
  policy.statuses.any fun statuses => statuses.contains statusClass

/-- The loop of `response`, which does not run after a rejection. -/
def response (policies : List RateLimitRule) (clientIP : String) (now : ℚ) (status : ℤ)
    (shared : Shared) : Shared :=
  policies.foldl (fun shared policy =>
    if countsResponse policy (status / 100) then
      { shared with
        rateLimit := (shared.rateLimit.incr (bucketKey policy clientIP ⌊now⌋) keyTTL now).2 }
    else shared) shared

end SimpleCdn.RateLimiter
