import Mathlib.Logic.Basic

/-!
# Errors of an online restore

What the steps of the cutover report.  An error that carries `errOnlineRestoreManualRollback` says
that the state on disk or on the log server cannot be told apart from a mixed one, so that nothing
may be undone automatically.
-/

namespace SimpleCdn.Restore

inductive RestoreError
  /-- The error of a file operation or of a statement, passed on. -/
  | operation
  /-- A database that `ValidateDatabase` refuses. -/
  | invalidDatabase (name : String)
  /-- "verified temporary ClickHouse database no longer exists". -/
  | temporaryMissing
  /-- "ClickHouse rollback database already exists before cutover". -/
  | rollbackExists
  /-- "restore artifacts no longer match the verified job". -/
  | artifactsMismatch
  /-- What `validatePromotedRestore` finds different from the verified snapshot. -/
  | promotedMismatch
  /-- "cannot inspect ClickHouse rename". -/
  | cannotInspectRename (source target : String)
  /-- "ambiguous ClickHouse rename". -/
  | ambiguousRename (source target : String)
  /-- "both rollback data and an absence marker exist". -/
  | rollbackDataAndMarker (live : String)
  /-- "staged and live data are both missing". -/
  | stagedAndLiveMissing (live : String)
  /-- "compare live and staged data". -/
  | compareFailed (live : String)
  /-- "live and staged data differ". -/
  | stagedAndLiveDiffer (live : String)
  /-- "remove duplicate staged data". -/
  | duplicateKept (live : String)
  /-- "inspect staged control TLS data". -/
  | stagedTLSUnreadable
  /-- "inspect applied control TLS data". -/
  | appliedTLSUnreadable
  /-- "compare live and staged control TLS data". -/
  | compareTLSFailed
  /-- "partial control TLS restore". -/
  | partialTLS
  /-- "remove duplicate staged TLS data". -/
  | duplicateTLSKept
  deriving DecidableEq, Repr

/-- `errors.Is(err, errOnlineRestoreManualRollback)`. -/
def RestoreError.isManual : RestoreError → Bool
  | .operation | .invalidDatabase _ | .temporaryMissing | .rollbackExists
  | .artifactsMismatch | .promotedMismatch => false
  | _ => true

end SimpleCdn.Restore
