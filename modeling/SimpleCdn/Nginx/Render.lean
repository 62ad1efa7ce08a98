import SimpleCdn.Domain.Validate
import SimpleCdn.Lib.Url
import SimpleCdn.Nginx.Document

/-!
# Rendering

`renderWithOptions` and `renderStream` turn the sites of one node into its HTTP and stream
documents; `renderCapacity` gives the two small capacity files and `splitConfigFragments` the
fragments.  Each site is rendered on its own, so what a document says about a site depends on
that site and nothing else.
-/

namespace SimpleCdn.Nginx

/-! ### Origins -/

/-- `parseOrigin`: the URL with a port in its host. -/
def parseOrigin (origin : Origin) : Except String Url.URL := do
  let parsed ← orError (Url.parse origin.url.toList) "must be an absolute URL"
  require (parsed.scheme ≠ [] ∧ parsed.host ≠ []) "must be an absolute URL"
  require (validOriginScheme (String.ofList parsed.scheme) = true)
    "scheme must be http, https, ws, wss, grpc, or grpcs"
  require (parsed.path = [] ∨ parsed.path = ['/']) "origin URL cannot include a path"
  if parsed.port = [] then
    let port := if originUsesTLS (String.ofList parsed.scheme) then ":443" else ":80"
    return { parsed with host := parsed.host ++ port.toList }
  else return parsed

/-- The upstream, header and TLS name of an origin; both names default to its hostname. -/
def upstream (origin : Origin) (parsed : Url.URL) : Upstream :=
  let hostname := String.ofList parsed.hostname
  { hostPort := String.ofList parsed.host
    hostHeader := if origin.hostHeader = "" then hostname else origin.hostHeader
    tlsName :=
      if originUsesTLS (String.ofList parsed.scheme) then
        some (if origin.tlsServerName = "" then hostname else origin.tlsServerName)
      else none }

/-- The backup origin, when there is one and it is enabled. -/
def renderBackup (site : Site) (primary : Url.URL) : Except String (Option Upstream) :=
  match site.backupOrigin with
  | none => .ok none
  | some origin =>
    if origin.enabled then do
      let backup ← (parseOrigin origin).mapError
        fun text => "site " ++ site.name ++ " backup origin: " ++ text
      require (backup.scheme = primary.scheme)
        ("site " ++ site.name ++ " origins must use the same scheme")
      return some (upstream origin backup)
    else .ok none

/-! ### HTTP sites -/

/-- The directives that depend on the scheme of the primary origin. -/
def siteLocations (site : Site) (scheme : String) (readWriteTimeoutSeconds : Int) :
    SiteLocations :=
  if isGRPCScheme scheme then .grpc (proxyScheme scheme)
  else
    let cacheEnabled := (scheme = "http" || scheme = "https") && !site.passthrough
    .proxy (proxyScheme scheme) (if cacheEnabled then some site.cacheGeneration else none)
      site.passthrough (site.passthrough || isWebSocketScheme scheme) readWriteTimeoutSeconds

/-- The body of the loop of `renderWithCacheLayout`, for an enabled HTTP site. -/
def renderSite (site : Site) : Except String HTTPSite := do
  let inSite := fun text => "site " ++ site.name ++ ": " ++ text
  let clientMaxBodySizeMB ←
    (normalizeClientMaxBodySizeMB site.clientMaxBodySizeMB).mapError inSite
  let readWriteTimeoutSeconds ←
    (normalizeReadWriteTimeoutSeconds site.readWriteTimeoutSeconds).mapError inSite
  let clientKeepaliveTimeoutSeconds ←
    (normalizeClientKeepaliveTimeoutSeconds site.clientKeepaliveTimeoutSeconds).mapError inSite
  let primary ← (parseOrigin site.primaryOrigin).mapError
    fun text => "site " ++ site.name ++ " primary origin: " ++ text
  let scheme := String.ofList primary.scheme
  require (site.passthrough = true → scheme = "http" ∨ scheme = "https")
    ("site " ++ site.name ++ " passthrough mode is only supported for HTTP and HTTPS origins")
  let backup ← renderBackup site primary
  return {
    id := site.id
    domainList := String.intercalate " " site.domains
    clientKeepaliveTimeoutSeconds := clientKeepaliveTimeoutSeconds
    clientMaxBodySizeMB := clientMaxBodySizeMB
    primary := upstream site.primaryOrigin primary
    backup := backup
    locations := siteLocations site scheme readWriteTimeoutSeconds }

/-- The sites the HTTP template renders. -/
def httpEnabled (site : Site) : Bool :=
  site.enabled && !site.tcpOnly

def renderSites : List Site → Except String (List HTTPSite)
  | [] => .ok []
  | site :: sites =>
    if httpEnabled site then do
      let item ← renderSite site
      let items ← renderSites sites
      return item :: items
    else renderSites sites

/-! ### Policies -/

def enabledSecurityPolicies (policies : List SecurityPolicy) : List SecurityPolicy :=
  (policies.filter SecurityPolicy.enabled).insertionSort fun p q =>
    p.priority < q.priority ∨ (p.priority = q.priority ∧ p.id ≤ q.id)

/-- `renderSecurityConfig`; a nil list prints nothing. -/
def renderSecurityConfig (policies : Option (List SecurityPolicy)) (http : Bool) :
    Option SecuritySection :=
  policies.map fun policies =>
    { revision := policies.insertionSort fun p q => p.id ≤ q.id
      rules :=
        if http then (enabledSecurityPolicies policies).map fun policy =>
          ⟨policy.pattern, policy.id, policy.action, policy.banDurationSeconds⟩
        else [] }

def normalizeRateLimitPolicies : List RateLimitPolicy → Except String (List RateLimitPolicy)
  | [] => .ok []
  | policy :: policies => do
    let normalized ← (normalizeRateLimitPolicy policy).mapError
      fun text => "rate limit policy \"" ++ policy.name ++ "\": " ++ text
    let rest ← normalizeRateLimitPolicies policies
    return normalized :: rest

def normalizeOptionalPolicies : Option (List RateLimitPolicy) →
    Except String (Option (List RateLimitPolicy))
  | none => .ok none
  | some policies => do
    let normalized ← normalizeRateLimitPolicies policies
    return some normalized

def enabledRateLimitPolicies (policies : List RateLimitPolicy) : List RateLimitPolicy :=
  (policies.filter RateLimitPolicy.enabled).insertionSort fun p q => p.id ≤ q.id

def hasEnabledRateLimitBanPolicy (policies : List RateLimitPolicy) : Bool :=
  policies.any fun policy => policy.enabled && policy.banEnabled

/-- `renderRateLimitConfig`; a nil list prints nothing. -/
def renderRateLimitConfig (policies : Option (List RateLimitPolicy)) (http : Bool) :
    Option RateLimitSection :=
  policies.map fun policies =>
    { revision := policies.insertionSort fun p q => p.id ≤ q.id
      rules :=
        if http then (enabledRateLimitPolicies policies).map fun policy =>
          { id := policy.id
            limit := policy.requestsPerSecond
            statuses :=
              if policy.responseConditionEnabled then some policy.responseStatusClasses else none
            ban :=
              if policy.banEnabled then
                some (policy.banAfterConsecutive429, policy.banDurationSeconds)
              else none }
        else [] }

/-! ### The HTTP configuration -/

def SiteLocations.cached : SiteLocations → Bool
  | .grpc _ => false
  | .proxy _ cacheGeneration _ _ _ => cacheGeneration.isSome

/-- `renderedSite.CacheEnabled`. -/
def cacheEnabled (item : HTTPSite) : Bool :=
  SiteLocations.cached item.locations

/-- `cacheZoneSize`, in megabytes. -/
def cacheZoneSize (cacheSizeGB cacheSiteCount : Int) : Int :=
  min 512 (max 16 (cacheSizeGB * 8 + cacheSiteCount * 4))

/-- `RenderWithOptions`. -/
def renderWithOptions (sites : List Site) (securityPolicies : Option (List SecurityPolicy))
    (rateLimitPolicies : Option (List RateLimitPolicy)) (cacheSizeGB : Int) :
    Except String HTTPConfig := do
  validateCacheMaxSizeGB cacheSizeGB
  let rateLimitPolicies ← normalizeOptionalPolicies rateLimitPolicies
  let items ← renderSites sites
  let items := items.insertionSort fun a b => a.id ≤ b.id
  let http := !sites.any Site.tcpOnly
  let security := securityPolicies.getD []
  let rateLimit := rateLimitPolicies.getD []
  return {
    base :=
      { security := renderSecurityConfig securityPolicies http
        rateLimit := renderRateLimitConfig rateLimitPolicies http
        checks :=
          { securityEnabled := security.any SecurityPolicy.enabled && http
            rateLimitEnabled := rateLimit.any RateLimitPolicy.enabled && http
            rateLimitBanEnabled := hasEnabledRateLimitBanPolicy rateLimit && http }
        cachePath :=
          if items.any cacheEnabled then
            some ⟨cacheZoneSize cacheSizeGB (items.filter cacheEnabled).length, cacheSizeGB⟩
          else none
        defaultHTTP := http
        hasSites := !items.isEmpty }
    sites := items }

/-! ### The stream configuration -/

def streamServer (site : Site) (forward : TCPForward) : StreamServer where
  siteID := site.id
  listenPort := forward.listenPort
  listenTLS := forward.listenTLS
  upstreamAddress := Text.joinHostPort forward.upstreamHost (toString forward.upstreamPort)
  upstreamTLS := forward.upstreamTLS
  upstreamTLSServerName := forward.upstreamTLSServerName
  connectTimeoutSeconds :=
    if forward.connectTimeoutSeconds = 0 then 10 else forward.connectTimeoutSeconds
  idleTimeoutSeconds :=
    if forward.idleTimeoutSeconds = 0 then 300 else forward.idleTimeoutSeconds

/-- The listeners of one site. -/
def siteServers (site : Site) : List StreamServer :=
  if site.enabled then site.tcpForwards.map (streamServer site) else []

/-- The loop of `RenderStream`; `owners` maps the ports seen so far to site names. -/
def collectServers : List (Int × String) → List (String × StreamServer) →
    Except String (List StreamServer)
  | _, [] => .ok []
  | owners, (name, server) :: rest =>
    match owners.lookup server.listenPort with
    | some owner => .error ("TCP listen port " ++ toString server.listenPort ++
        " is assigned to both " ++ owner ++ " and " ++ name)
    | none => do
      let servers ← collectServers ((server.listenPort, name) :: owners) rest
      return server :: servers

def namedServers (sites : List Site) : List (String × StreamServer) :=
  sites.flatMap fun site => (siteServers site).map fun server => (site.name, server)

/-- `RenderStream`. -/
def renderStream (sites : List Site) : Except String StreamConfig := do
  let servers ← collectServers [] (namedServers sites)
  require (¬(sites.any (fun site => !site.tcpOnly) = true ∧ sites.any Site.tcpOnly = true))
    "TCP-only and HTTP sites cannot share the same node"
  return servers.insertionSort fun a b => a.listenPort ≤ b.listenPort

/-! ### Capacity, ports and fragments -/

/-- `RenderCapacity`: the main and the events configuration. -/
def renderCapacity (capacity : NginxCapacity) : Except String (String × String) := do
  let capacity ← normalizeNginxCapacity capacity
  let workers :=
    if 0 < capacity.workerProcesses then toString capacity.workerProcesses else "auto"
  return (
    "# Generated by cdn-edge-agent. Do not edit.\nworker_processes " ++ workers ++
      ";\nworker_rlimit_nofile " ++ toString capacity.workerRlimitNoFile ++ ";\n",
    "# Generated by cdn-edge-agent. Do not edit.\nworker_connections " ++
      toString capacity.workerConnections ++ ";\n")

/-- `requiredPublicPorts`, ascending. -/
def requiredPublicPorts (sites : List Site) : List Int :=
  let ports := (sites.filter Site.enabled).flatMap fun site =>
    (if site.tcpOnly then [] else [80, 443]) ++ site.tcpForwards.map TCPForward.listenPort
  let ports := if ports.isEmpty && !sites.any Site.tcpOnly then [80] else ports
  (ports.insertionSort (· ≤ ·)).dedup

def siteFragmentName (siteID : String) : String :=
  let name := siteID.toList.map fun c =>
    if Url.isLetter c || Url.isDigit c || c = '-' || c = '_' || c = '.' then c else '-'
  "site-" ++ String.ofList name ++ ".conf"

/-- The stream fragments: the listeners grouped by file name, in the order of the names. -/
def streamFragments (servers : List StreamServer) : List StreamFragment :=
  let names := (servers.map fun server => siteFragmentName server.siteID).dedup
  (names.insertionSort (· ≤ ·)).map fun name =>
    ⟨name, servers.filter fun server => siteFragmentName server.siteID = name⟩

/-- `SplitConfigFragments`, of texts this package rendered. -/
def splitConfigFragments (config : HTTPConfig) (streamConfig : StreamConfig) :
    NginxConfigFragments where
  httpBase := config.base
  httpSites := config.sites.map fun site =>
    ⟨siteFragmentName site.id, site, config.base.checks⟩
  streamBase := streamConfig.map fun server =>
    ⟨server.listenPort, server.siteID, server.upstreamAddress, server.upstreamTLSServerName⟩
  streamSites := streamFragments streamConfig

end SimpleCdn.Nginx
