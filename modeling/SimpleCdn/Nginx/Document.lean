import SimpleCdn.Domain.Types

/-!
# Nginx configurations as documents

The publisher compares configuration texts and never looks inside one, so a rendered
configuration is kept as the data its template prints: two documents are equal when every value
printed is.  A value that a branch of the template leaves out (the cache generation of a gRPC
site, the TLS name of a plain HTTP origin) is absent from the document too.

`NginxConfigFragments` is what the split of the two texts at the fragment markers gives: the
text outside every site, and the text of each site under its file name.
-/

namespace SimpleCdn

/-- An origin as a site block prints it; the TLS name only under a TLS scheme. -/
structure Upstream where
  hostPort : String
  hostHeader : String
  tlsName : Option String
  deriving DecidableEq, Repr

/-- The location blocks of a site: `grpc_pass`, or `proxy_pass` with the caching, buffering and
timeout directives that only this branch prints. -/
inductive SiteLocations
  | grpc (scheme : String)
  | proxy (scheme : String) (cacheGeneration : Option Nat) (passthrough alwaysUnbuffered : Bool)
      (readWriteTimeoutSeconds : Int)
  deriving DecidableEq, Repr

/-- The upstream and server blocks of one site. -/
structure HTTPSite where
  id : String
  domainList : String
  clientKeepaliveTimeoutSeconds : Int
  clientMaxBodySizeMB : Int
  primary : Upstream
  backup : Option Upstream
  locations : SiteLocations
  deriving DecidableEq, Repr

structure SecurityRule where
  pattern : String
  id : String
  action : SecurityPolicyAction
  banDurationSeconds : Int
  deriving DecidableEq, Repr

/-- The revision marker hashes the policies ordered by ID; the hash stands for that list. -/
structure SecuritySection where
  revision : List SecurityPolicy
  rules : List SecurityRule
  deriving DecidableEq, Repr

structure RateLimitRule where
  id : String
  limit : Int
  statuses : Option (List Int)
  ban : Option (Int × Int)
  deriving DecidableEq, Repr

structure RateLimitSection where
  revision : List RateLimitPolicy
  rules : List RateLimitRule
  deriving DecidableEq, Repr

/-- The per-request checks that the default server and every site block repeat. -/
structure RequestChecks where
  securityEnabled : Bool
  rateLimitEnabled : Bool
  rateLimitBanEnabled : Bool
  deriving DecidableEq, Repr

/-- `proxy_cache_path`: zone size in megabytes, cache size in gigabytes. -/
structure CachePath where
  zoneSizeMB : Int
  maxSizeGB : Int
  deriving DecidableEq, Repr

/-- Everything of an HTTP configuration that is outside the site fragments.  `hasSites` is the
template's `if .Sites`, which guards the maps, the log format and the TLS default server. -/
structure HTTPBase where
  security : Option SecuritySection
  rateLimit : Option RateLimitSection
  checks : RequestChecks
  cachePath : Option CachePath
  defaultHTTP : Bool
  hasSites : Bool
  deriving DecidableEq, Repr

structure HTTPConfig where
  base : HTTPBase
  sites : List HTTPSite
  deriving DecidableEq, Repr

/-- One TCP listener of the stream configuration (`renderedTCPForward`). -/
structure StreamServer where
  siteID : String
  listenPort : Int
  listenTLS : Bool
  upstreamAddress : String
  upstreamTLS : Bool
  upstreamTLSServerName : String
  connectTimeoutSeconds : Int
  idleTimeoutSeconds : Int
  deriving DecidableEq, Repr

abbrev StreamConfig := List StreamServer

/-- A line of the three `map $server_port` blocks. -/
structure StreamMapEntry where
  listenPort : Int
  siteID : String
  upstreamAddress : String
  upstreamTLSServerName : String
  deriving DecidableEq, Repr

structure HTTPFragment where
  name : String
  site : HTTPSite
  checks : RequestChecks
  deriving DecidableEq, Repr

structure StreamFragment where
  name : String
  servers : List StreamServer
  deriving DecidableEq, Repr

structure NginxConfigFragments where
  httpBase : HTTPBase
  httpSites : List HTTPFragment
  streamBase : List StreamMapEntry
  streamSites : List StreamFragment
  deriving DecidableEq, Repr

/-- What a node is asked to run. -/
structure DesiredState where
  version : Nat
  nginxConfig : HTTPConfig
  nginxStreamConfig : StreamConfig
  nginxMainConfig : String
  nginxEventsConfig : String
  nginxFragments : NginxConfigFragments
  publicPorts : List Int
  cacheMaxBytes : Int
  certificates : List (String × TLSBundle)
  deriving DecidableEq, Repr

end SimpleCdn
