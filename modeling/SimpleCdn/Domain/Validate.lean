import Mathlib.Data.List.Sort
import SimpleCdn.Domain.Types
import SimpleCdn.Lib.Checked
import SimpleCdn.Lib.Text

/-!
# Validation and defaults

The checks of `internal/domain` that rendering a configuration runs again on stored values: a
zero stands for the default, and a value out of its range is an error.
-/

namespace SimpleCdn

/-- `SiteNeedsCertificate`. -/
def Site.needsCertificate (site : Site) : Bool :=
  !site.tcpOnly || site.tcpForwards.any TCPForward.listenTLS

/-! ### Defaulted numbers -/

/-- The three normalisers of request limits: zero is replaced by the default, then the value is
checked. -/
def normalizeDefault (default : Int) (valid : Int → Bool) (text : String) (value : Int) :
    Except String Int := do
  let value := if value = 0 then default else value
  require (valid value = true) text
  return value

def normalizeClientMaxBodySizeMB : Int → Except String Int :=
  normalizeDefault 128 (fun value => [128, 256, 512, 1024].contains value)
    "client max body size must be one of 128, 256, 512, or 1024 MiB"

def normalizeClientKeepaliveTimeoutSeconds : Int → Except String Int :=
  normalizeDefault 120 (fun value => 15 ≤ value && value ≤ 3600)
    "client keepalive timeout must be between 15 and 3600 seconds"

def normalizeReadWriteTimeoutSeconds : Int → Except String Int :=
  normalizeDefault 120 (fun value => [120, 360, 900, 1800, 3600].contains value)
    "read/write timeout must be one of 120, 360, 900, 1800, or 3600 seconds"

/-- A value the normaliser returned is returned unchanged when it is normalised again. -/
theorem normalizeDefault_idem {default : Int} {valid : Int → Bool} {text : String}
    {value value' : Int} (hdefault : default ≠ 0)
    (h : normalizeDefault default valid text value = .ok value') :
    normalizeDefault default valid text value' = .ok value' := by
  simp only [normalizeDefault, bind_eq_ok, require_eq_ok, pure_eq_ok, exists_const] at h ⊢
  obtain ⟨hvalid, rfl⟩ := h
  by_cases hzero : value = 0
  · simp only [hzero, if_true] at hvalid ⊢
    simp [hdefault, hvalid]
  · simp only [hzero, if_false] at hvalid ⊢
    simp [hvalid]

def validateCacheMaxSizeGB (value : Int) : Except String Unit :=
  require (1 ≤ value ∧ value ≤ 1024) "cache maximum size must be between 1 and 1024 GB"

/-- `EffectiveNodeCacheMaxSizeGB`. -/
def effectiveNodeCacheMaxSizeGB (node : Node) (defaultSize : Int) : Except String Int := do
  validateCacheMaxSizeGB defaultSize
  match node.cacheMaxSizeGB with
  | none => return defaultSize
  | some size =>
    validateCacheMaxSizeGB size
    return size

def normalizeNginxCapacity (value : NginxCapacity) : Except String NginxCapacity := do
  let connections := if value.workerConnections = 0 then 4096 else value.workerConnections
  let files := if value.workerRlimitNoFile = 0 then 65536 else value.workerRlimitNoFile
  require (0 ≤ value.workerProcesses ∧ value.workerProcesses ≤ 128)
    "Nginx worker processes must be auto or between 1 and 128"
  require (256 ≤ connections ∧ connections ≤ 65535)
    "Nginx worker connections must be between 256 and 65535"
  require (1024 ≤ files ∧ files ≤ 65536)
    "Nginx worker file limit must be between 1024 and 65536"
  require (connections ≤ files)
    "Nginx worker file limit must be at least the worker connection count"
  return ⟨value.workerProcesses, connections, files⟩

/-! ### Origin schemes -/

def validOriginScheme (scheme : String) : Bool :=
  ["http", "https", "ws", "wss", "grpc", "grpcs"].contains scheme

def isGRPCScheme (scheme : String) : Bool :=
  scheme = "grpc" || scheme = "grpcs"

def isWebSocketScheme (scheme : String) : Bool :=
  scheme = "ws" || scheme = "wss"

def originUsesTLS (scheme : String) : Bool :=
  scheme = "https" || scheme = "wss" || scheme = "grpcs"

def proxyScheme (scheme : String) : String :=
  if scheme = "ws" then "http" else if scheme = "wss" then "https" else scheme

/-! ### Rate limit policies -/

def validSecurityBanDuration (seconds : Int) : Bool :=
  [3600, 21600, 43200, 86400, 259200, 604800].contains seconds

def normalizeRateLimitPolicy (policy : RateLimitPolicy) : Except String RateLimitPolicy := do
  let name := Text.trimSpace policy.name
  let after := if policy.banAfterConsecutive429 = 0 then 3 else policy.banAfterConsecutive429
  let seconds := if policy.banDurationSeconds = 0 then 3600 else policy.banDurationSeconds
  let policy :=
    { policy with name := name, banAfterConsecutive429 := after, banDurationSeconds := seconds }
  require (name ≠ "" ∧ Text.byteLength name ≤ 80) "rate limit policy name must be 1-80 characters"
  require (1 ≤ policy.requestsPerSecond ∧ policy.requestsPerSecond ≤ 100000)
    "rate limit requests per second is out of range"
  require (1 ≤ after ∧ after ≤ 100) "rate limit consecutive 429 ban threshold is out of range"
  require (validSecurityBanDuration seconds = true) "rate limit ban duration is not supported"
  if policy.responseConditionEnabled = false then
    require (policy.banEnabled = false) "rate limit IP ban requires a response condition"
    return { policy with responseStatusClasses := [] }
  else
    require (policy.responseStatusClasses ≠ [])
      "rate limit response condition requires at least one status class"
    require (∀ status ∈ policy.responseStatusClasses, 2 ≤ status ∧ status ≤ 5)
      "rate limit response status class must be between 2xx and 5xx"
    let classes := (policy.responseStatusClasses.insertionSort (· ≤ ·)).dedup
    require (policy.banEnabled = true → ∀ status ∈ classes, status = 4 ∨ status = 5)
      "rate limit IP ban response conditions are limited to 4xx and 5xx"
    return { policy with responseStatusClasses := classes }

end SimpleCdn
