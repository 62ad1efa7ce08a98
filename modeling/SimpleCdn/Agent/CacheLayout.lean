import SimpleCdn.Agent.Files
import SimpleCdn.Lib.Text

/-!
# The directories of the cache

A site that caches has a directory of its own, whose name Nginx gets in a `proxy_cache_path`
line.  The agent makes these directories before Nginx is told about them, and removes the ones of
other sites when Nginx has taken the new configuration.
-/

namespace SimpleCdn.Agent

open Crash Crash.Prog

def isHexDigit (c : Char) : Bool :=
  "0123456789abcdef".toList.contains c

def isLegacyCacheDirectoryName (name : String) : Bool :=
  name.toList.length = 1 && name.toList.all isHexDigit

def isManagedCacheDirectoryName (name : String) : Bool :=
  name.toList.length = 16 && name.toList.all isHexDigit

/-- `nginx.DefaultCachePath + "/sites/"` -/
def siteCacheRoot : String := "/opt/cdn-edge/cache/sites/"

/-- The directory in a line of the configuration. -/
def cacheDirectoryName (line : List Char) : Option String :=
  match Text.fields line with
  | directive :: path :: _ =>
    if String.ofList directive = "proxy_cache_path" && siteCacheRoot.toList.isPrefixOf path then
      let name := String.ofList (path.drop siteCacheRoot.toList.length)
      if isManagedCacheDirectoryName name then some name else none
    else none
  | _ => none

def activeCacheDirectoryNames (configuration : String) : List String :=
  ((configuration.toList.splitOn '\n').filterMap cacheDirectoryName).dedup

namespace Host

def makeCache (h : Host) (name : String) : Host :=
  if name ∈ h.siteCaches then h else { h with siteCaches := name :: h.siteCaches }

def removeRootCache (h : Host) (name : String) : Host :=
  { h with rootCaches := h.rootCaches.filter (· ≠ name) }

def removeSiteCache (h : Host) (name : String) : Host :=
  { h with siteCaches := h.siteCaches.filter (· ≠ name) }

end Host

/-- The directory `sites` and those in it are created, and given the owner and the permissions
of the root. -/
def prepareManagedCacheLayout (configuration : String) : Attempt Unit Host Unit :=
  let active := activeCacheDirectoryNames configuration
  if active = [] then pure ()
  else do
    check
    Attempt.each (fun _ => check) ["MkdirAll", "Chown", "Chmod"]
    Attempt.each (fun name => do
      Attempt.act () fun h => some (h.makeCache name)
      check
      check) active

/-- Whether all that is to go is gone. -/
def reconcileCacheLayout (configuration : String) : Prog Host Bool := do
  match ← inspect Host.rootCaches with
  | none => pure false
  | some caches => do
    let legacy ← Prog.all (fun name => Prog.act fun h => some (h.removeRootCache name))
      (caches.filter isLegacyCacheDirectoryName)
    match ← inspect Host.siteCaches with
    | none => pure false
    | some caches => do
      let others ← Prog.all (fun name => Prog.act fun h => some (h.removeSiteCache name))
        (caches.filter fun name => isManagedCacheDirectoryName name &&
          !(activeCacheDirectoryNames configuration).contains name)
      pure (legacy && others)

/-- Nothing is removed on a host that the installer has not prepared. -/
def reconcileInstalledCacheLayout (installed : Bool) (configuration : String) : Prog Host Bool :=
  if installed then reconcileCacheLayout configuration else pure true

end SimpleCdn.Agent
