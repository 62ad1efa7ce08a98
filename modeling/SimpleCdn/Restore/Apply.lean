import SimpleCdn.Restore.ClickHouse
import SimpleCdn.Restore.Paths
import SimpleCdn.Restore.TLS

/-!
# The cutover of an online restore

`ApplyPendingOnlineRestore` runs at every start of the control plane.  While the job is committing
it validates the staged snapshot again, promotes the restored ClickHouse database, swaps the five
paths of the data directory and the TLS entries, checks the result, marks the job completed and
removes the maintenance lock.  When a step fails it undoes the earlier ones and marks the job failed;
the lock goes when everything was undone and stays when not.  The process may stop before or after
every operation, and the next start begins from what is on disk.
-/

namespace SimpleCdn.Restore

open Crash Crash.Prog Transition

/-- The states of an `OnlineRestoreJob`. -/
inductive JobState
  | queued
  | downloading
  | validating
  | ready
  | committing
  | completed
  | failed
  | cancelled
  deriving DecidableEq, Repr

/-- The phases the cutover records in the job. -/
inductive JobPhase
  | unset
  | clickhousePromoted
  | completed
  | rolledBack
  | rollbackFailed
  deriving DecidableEq, Repr

structure OnlineRestoreJob where
  state : JobState
  phase : JobPhase
  detail : String
  error : Option RestoreError
  deriving DecidableEq, Repr

/-- What the cutover works on: the log server, the data directory, the TLS directory, and in the
restore root the job, its maintenance lock and its verified artifacts. -/
structure Host (α γ : Type) where
  server : Server α
  paths : Paths γ
  tls : TLSCutover γ
  job : OnlineRestoreJob
  lock : Bool
  artifacts : Bool

/-- What the job was verified with: the names on the log server, the restored contents, and what
the checks of the cutover look at. -/
structure RestoreConfig (α γ : Type) where
  names : DatabaseNames
  intact : α → Bool
  restored : α
  folder : γ → Bool
  controlDB : γ
  pki : Option γ
  letsencrypt : Option γ
  tlsNames : List String
  tlsNames_nodup : tlsNames.Nodup
  tlsSnapshot : Entries γ
  caFingerprint : γ → Option String
  keyPairLoads : Entries γ → Bool

/-- What the snapshot has for a path of the data directory. -/
def RestoreConfig.snapshot {α γ : Type} (config : RestoreConfig α γ) (name : String) : Option γ :=
  if name = "control.db" then some config.controlDB
  else if name = "pki" then config.pki
  else if name = "letsencrypt" then config.letsencrypt
  else none

section Programs

variable {α γ : Type}

def ofServer {β : Type} (p : Prog (Server α) β) : Prog (Host α γ) β :=
  p.zoom Host.server fun server h => { h with server := server }

def ofPaths {β : Type} (p : Prog (Paths γ) β) : Prog (Host α γ) β :=
  p.zoom Host.paths fun paths h => { h with paths := paths }

def ofTLS {β : Type} (p : Prog (TLSCutover γ) β) : Prog (Host α γ) β :=
  p.zoom Host.tls fun tls h => { h with tls := tls }

/-- `writeOnlineRestoreJob`, which replaces the file by a rename. -/
def writeOnlineRestoreJob (job : OnlineRestoreJob) : Prog (Host α γ) Bool :=
  act fun h => some { h with job := job }

def removeOnlineRestoreMaintenanceLock : Prog (Host α γ) Bool :=
  act fun h => some { h with lock := false }

/-- Removal of the staging directory below the data directory. -/
def removeDataStage : Prog (Host α γ) Bool :=
  act fun h => some { h with paths := fun name => { h.paths name with staged := none } }

/-- Removal of the staging directory below the TLS directory. -/
def removeTLSStage : Prog (Host α γ) Bool :=
  act fun h => some { h with tls := { h.tls with stage := fun _ => none } }

def removeArtifacts : Prog (Host α γ) Bool :=
  act fun h => some { h with artifacts := false }

/-- A file is staged where nothing has been staged for its path yet. -/
def stagePath (content : Option γ) (name : String) (paths : Paths γ) : Option (Paths γ) :=
  if (paths name).staged.isSome then none
  else some (Function.update paths name { paths name with staged := content })

variable (config : RestoreConfig α γ)

/-- The copy of the database and the extraction of the two archives. -/
def stageSnapshot : Prog (Host α γ) Bool := do
  if ← act fun h => (stagePath (some config.controlDB) "control.db" h.paths).map fun paths =>
      { h with paths := paths } then
    if ← act fun h => ((stagePath config.pki "pki" h.paths).bind
        (stagePath config.letsencrypt "letsencrypt")).map fun paths => { h with paths := paths } then
      act fun h =>
        if config.tlsNames.all fun name => (h.tls.stage name).isNone then
          some { h with tls := { h.tls with stage := config.tlsSnapshot } }
        else none
    else
      pure false
  else
    pure false

/-- `failPendingOnlineRestore`; `clean` when no rollback failed. -/
def failPendingOnlineRestore (failure : RestoreError) (clean : Bool) : Prog (Host α γ) Unit := do
  let _ ← writeOnlineRestoreJob
    { state := .failed
      phase := if clean then .rolledBack else .rollbackFailed
      detail := if clean then
          "Online restore failed; live data was not changed or was rolled back."
        else
          "Online restore failed and automatic rollback was incomplete. " ++
            "Maintenance lock is retained."
      error := some failure }
  if clean then
    let _ ← removeOnlineRestoreMaintenanceLock
    let _ ← ofServer (dropDatabase config.names.temporaryDatabase)
    let _ ← removeArtifacts
    pure ()
  else
    pure ()

/-- The rollback of the files, then of the databases. -/
def rollBackCutover (promotion : Promotion) (swapped : Swapped) : Prog (Host α γ) Bool := do
  let current ← ofPaths (rollbackSwaps config.folder swapped.current)
  let tls ← ofTLS (TLSCutover.rollback config.folder config.tlsNames)
  let completed ← ofPaths (rollbackSwaps config.folder swapped.completed)
  let database ← ofServer
    (rollbackRestoreClickHouse config.names promotion.promoted promotion.oldRenamed)
  pure (current && tls && completed && database)

variable [DecidableEq γ]

/-- The hash of the database, the fingerprint of the internal CA and the TLS key pair. -/
def validatePromotedRestore : Prog (Host α γ) Bool := do
  let database ← inspect fun h : Host α γ =>
    decide ((h.paths "control.db").live = some config.controlDB)
  if database = some true then
    let fingerprint ← inspect fun h : Host α γ =>
      (h.paths "pki").live.bind config.caFingerprint == config.pki.bind config.caFingerprint
    if fingerprint = some true then
      let keyPair ← inspect fun h : Host α γ => config.keyPairLoads h.tls.live
      pure (keyPair == some true)
    else
      pure false
  else
    pure false

/-- From the promotion of the database to the end; whether the restore was applied. -/
def cutOver : Prog (Host α γ) Bool := do
  let promotion ← ofServer (promoteRestoreClickHouse config.intact config.names)
  match promotion.error with
  | some error =>
    let undone ← ofServer
      (rollbackRestoreClickHouse config.names promotion.promoted promotion.oldRenamed)
    fail error (undone && !error.isManual)
  | none =>
    if ← act fun h => some { h with job := { h.job with phase := .clickhousePromoted } } then
      let swapped ← ofPaths (applySwaps config.folder [] restoreSwaps)
      match swapped.error with
      | some error => rollBack error promotion swapped
      | none =>
        match ← ofTLS (TLSCutover.apply config.folder config.tlsNames) with
        | some error => rollBack error promotion swapped
        | none =>
          if ← validatePromotedRestore config then complete
          else rollBack .promotedMismatch promotion swapped
    else
      let undone ← ofServer
        (rollbackRestoreClickHouse config.names promotion.promoted promotion.oldRenamed)
      fail .operation undone
where
  fail (failure : RestoreError) (clean : Bool) : Prog (Host α γ) Bool := do
    failPendingOnlineRestore config failure clean
    pure false
  /-- Everything is rolled back, whether the error asks for an operator or not. -/
  rollBack (error : RestoreError) (promotion : Promotion) (swapped : Swapped) :
      Prog (Host α γ) Bool := do
    let undone ← rollBackCutover config promotion swapped
    fail error (undone && !error.isManual)
  /-- The job is completed first, the lock goes after it. -/
  complete : Prog (Host α γ) Bool := do
    if ← writeOnlineRestoreJob
        { state := .completed
          phase := .completed
          detail := "Verified S3 snapshot was applied successfully. " ++
            "Previous data is retained for rollback."
          error := none } then
      if ← removeOnlineRestoreMaintenanceLock then
        let _ ← removeArtifacts
        pure true
      else
        pure false
    else
      pure false

/-- `ApplyPendingOnlineRestore`: whether a restore was applied, or `none` for an error. -/
def applyPendingOnlineRestore : Prog (Host α γ) (Option Bool) := do
  match ← inspect Host.job with
  | none => pure none
  | some job =>
    if job.state = .committing then
      -- the operation lock
      if ← act some then commit else pure none
    else
      let locked ← inspect fun h : Host α γ => h.lock
      if locked = some true ∧ job.state = .failed then
        pure none
      else
        let _ ← removeOnlineRestoreMaintenanceLock
        pure (some false)
where
  fail (failure : RestoreError) : Prog (Host α γ) (Option Bool) := do
    failPendingOnlineRestore config failure true
    pure none
  /-- The validation of what is about to be applied, and the staging. -/
  commit : Prog (Host α γ) (Option Bool) := do
    match ← ofServer (databaseExists config.names.database) with
    | none => fail .operation
    | some _ =>
      let verified ← inspect fun h : Host α γ => h.artifacts
      if verified = some true then
        if ← ofServer (validateDatabase config.intact config.names.temporaryDatabase) then
          let _ ← removeDataStage
          let _ ← removeTLSStage
          -- the new staging directory
          if ← act some then
            let applied ← stageAndCutOver
            let _ ← removeTLSStage
            let _ ← removeDataStage
            pure (if applied then some true else none)
          else
            fail .operation
        else
          fail (.invalidDatabase config.names.temporaryDatabase)
      else
        fail .artifactsMismatch
  stageAndCutOver : Prog (Host α γ) Bool := do
    if ← stageSnapshot config then
      cutOver config
    else
      failPendingOnlineRestore config .operation true
      pure false

end Programs

/-! ### What the cutover must leave -/

/-- What the live names held before the restore. -/
structure Originals (α γ : Type) where
  database : Option α
  paths : String → Option γ
  tls : Entries γ

section Outcome

variable {α γ : Type} (config : RestoreConfig α γ) (original : Originals α γ)

structure AllRestored (h : Host α γ) : Prop where
  database : h.server config.names.database = some config.restored
  paths : ∀ name ∈ restoreSwaps, (h.paths name).live = config.snapshot name
  tls : ∀ name ∈ config.tlsNames, h.tls.live name = config.tlsSnapshot name

structure AllOriginal (h : Host α γ) : Prop where
  database : h.server config.names.database = original.database
  paths : ∀ name, (h.paths name).live = original.paths name
  tls : h.tls.live = original.tls

/-- All or nothing: a job that is no longer committing was completed with everything restored, or
rolled back with everything as before and without the lock, or the lock is kept.  Without the lock
nothing is mixed, and a reported rollback has happened. -/
structure AllOrNothing (h : Host α γ) : Prop where
  outcome : h.job.state ≠ .committing →
    (h.job.state = .completed ∧ AllRestored config h) ∨
    (h.job.state = .failed ∧ h.job.phase = .rolledBack ∧ h.lock = false ∧
      AllOriginal config original h) ∨
    h.lock = true
  unlocked : h.lock = false → AllRestored config h ∨ AllOriginal config original h
  reported : h.job.phase = .rolledBack → AllOriginal config original h

/-- Everything is as it was when the restore was committed: no rename of an earlier start is in
effect. -/
structure Pristine (h : Host α γ) : Prop where
  server : Placed config.names original.database config.restored false false h.server
  backups : ∀ name ∈ restoreSwaps, (h.paths name).backup = none ∧ (h.paths name).marker = false
  staged : ∀ name, config.snapshot name = none → (h.paths name).staged = none
  tlsBackup : h.tls.backup = none

/-- The look at the lock, which follows the reading of the job, is answered. -/
def LockSeen (faults : List Fault) : Prop :=
  faults.headD .none = .none →
    faults.tail.headD .none ≠ .fails ∧ faults.tail.headD .none ≠ .lost

/-- A start of a committing job finds all live data original, and nothing of an earlier start; or it
cannot come to the promotion.  A start that finds a failed rollback sees the lock. -/
structure StartsClean (h : Host α γ) (faults : List Fault) : Prop where
  committing : h.job.state = .committing → AllOriginal config original h ∧
    (h.server config.names.temporaryDatabase = none ∨ h.artifacts = false ∨
      h.lock = true ∧ Pristine config original h)
  rollbackFailed : h.job.phase = .rollbackFailed → h.lock = true → LockSeen faults

/-- A start of the control plane.  The flags and the lists of its process go with it. -/
def startStep [DecidableEq γ] (h : Host α γ) (faults : List Fault) : Host α γ :=
  let h' := ((applyPendingOnlineRestore config).exec faults h).state
  { h' with
    paths := fun name => (h'.paths name).forget
    tls := { h'.tls with backedUp := [], installed := [] } }

/-- The staged restore that is committed on a host. -/
def committed (others : Server α) : Host α γ where
  server := (staged config.names original.database config.restored others).server
  paths := prepared original.paths fun _ => none
  tls := { live := original.tls, stage := fun _ => none, backup := none, backedUp := [],
           installed := [] }
  job := { state := .committing, phase := .unset,
           detail := "Control plane is restarting to apply the verified restore.", error := none }
  lock := true
  artifacts := true

end Outcome

section Rules

variable {α γ : Type} {config : RestoreConfig α γ} {original : Originals α γ} {h : Host α γ}

theorem wp_ofServer {β : Type} {p : Prog (Server α) β} {Q : β → Host α γ → Prop}
    {C : Host α γ → Prop} :
    (ofServer p).wp Q C h ↔ p.wp (fun b server => Q b { h with server := server })
      (fun server => C { h with server := server }) h.server := by
  rw [ofServer]
  exact wp_zoom (by intros; rfl) (by intros; rfl) rfl

theorem wp_ofPaths {β : Type} {p : Prog (Paths γ) β} {Q : β → Host α γ → Prop}
    {C : Host α γ → Prop} :
    (ofPaths p).wp Q C h ↔ p.wp (fun b paths => Q b { h with paths := paths })
      (fun paths => C { h with paths := paths }) h.paths := by
  rw [ofPaths]
  exact wp_zoom (by intros; rfl) (by intros; rfl) rfl

theorem wp_ofTLS {β : Type} {p : Prog (TLSCutover γ) β} {Q : β → Host α γ → Prop}
    {C : Host α γ → Prop} :
    (ofTLS p).wp Q C h ↔ p.wp (fun b tls => Q b { h with tls := tls })
      (fun tls => C { h with tls := tls }) h.tls := by
  rw [ofTLS]
  exact wp_zoom (by intros; rfl) (by intros; rfl) rfl

/-- What holds after every operation of a start: all or nothing, and what the job says of its
state. -/
structure Consistent (config : RestoreConfig α γ) (original : Originals α γ) (h : Host α γ) : Prop
    extends AllOrNothing config original h where
  states : h.job.state = .committing ∨ h.job.state = .completed ∨ h.job.state = .failed
  completed : h.job.state = .completed → AllRestored config h
  finished : h.job.state = .completed → h.job.phase = .completed
  failed : h.job.state = .failed → h.job.phase = .rolledBack ∨ h.job.phase = .rollbackFailed
  committing : h.job.state = .committing → h.job.phase = .unset ∨ h.job.phase = .clickhousePromoted

/-- A committing job that holds the lock. -/
structure Held (h : Host α γ) : Prop where
  lock : h.lock = true
  state : h.job.state = .committing
  phase : h.job.phase = .unset ∨ h.job.phase = .clickhousePromoted

theorem Held.consistent (hheld : Held h) : Consistent config original h := by
  have hphase : h.job.phase ≠ .rolledBack := by
    rcases hheld.phase with hp | hp <;> simp [hp]
  constructor
  case toAllOrNothing =>
    exact ⟨fun _ => .inr (.inr hheld.lock), by simp [hheld.lock], fun hp => absurd hp hphase⟩
  case states => exact .inl hheld.state
  case completed => simp [hheld.state]
  case finished => simp [hheld.state]
  case failed => simp [hheld.state]
  case committing => exact fun _ => hheld.phase

/-- All live data is original, and the job is still committing or reports the rollback. -/
structure Undone (config : RestoreConfig α γ) (original : Originals α γ) (h : Host α γ) : Prop where
  original : AllOriginal config original h
  job : (h.job.state = .committing ∧ (h.job.phase = .unset ∨ h.job.phase = .clickhousePromoted)) ∨
    (h.job.state = .failed ∧ h.job.phase = .rolledBack)

/-- With all live data original, the lock may be there or not. -/
theorem Undone.consistent (hundone : Undone config original h) : Consistent config original h := by
  have horiginal := hundone.original
  rcases hundone.job with ⟨hstate, hphase⟩ | ⟨hstate, hphase⟩
  · refine ⟨⟨fun hne => absurd hstate hne, fun _ => .inr horiginal, fun _ => horiginal⟩, .inl hstate,
      by simp [hstate], by simp [hstate], by simp [hstate], fun _ => hphase⟩
  · refine ⟨⟨fun _ => ?_, fun _ => .inr horiginal, fun _ => horiginal⟩, .inr (.inr hstate),
      by simp [hstate], by simp [hstate], fun _ => .inl hphase, by simp [hstate]⟩
    cases hlock : h.lock with
    | true => exact .inr (.inr rfl)
    | false => exact .inr (.inl ⟨hstate, hphase, rfl, horiginal⟩)

theorem AllOriginal.dropTemporary (horiginal : AllOriginal config original h) :
    AllOriginal config original { h with
      server := Function.update h.server config.names.temporaryDatabase none } := by
  refine { horiginal with database := ?_ }
  show Function.update h.server config.names.temporaryDatabase none config.names.database = _
  rw [Function.update_of_ne config.names.temporary_ne.symm]
  exact horiginal.database

/-- A failed restore leaves the host consistent: everything is original when it is reported as
rolled back, and the lock is held when it is not. -/
theorem wp_failPendingOnlineRestore {failure : RestoreError} {clean : Bool}
    (hstate : h.job.state = .committing)
    (hphase : h.job.phase = .unset ∨ h.job.phase = .clickhousePromoted)
    (hclean : clean = true → AllOriginal config original h)
    (hlock : clean = false → h.lock = true) :
    (failPendingOnlineRestore config failure clean).wp (fun _ => Consistent config original)
      (Consistent config original) h := by
  cases clean with
  | false =>
    have hheld : Held h := ⟨hlock rfl, hstate, hphase⟩
    have hfailed : ∀ detail, Consistent config original { h with
        job := ⟨.failed, .rollbackFailed, detail, some failure⟩ } :=
      fun _ => ⟨⟨fun _ => .inr (.inr hheld.lock), by simp [hheld.lock], by simp⟩, by simp, by simp,
        by simp, fun _ => .inr rfl, by simp⟩
    simp only [failPendingOnlineRestore, writeOnlineRestoreJob, wp_bind, wp_act, wp_pure,
      Bool.false_eq_true, ↓reduceIte, Option.some.injEq]
    refine ⟨hheld.consistent, hheld.consistent, ?_⟩
    rintro _ rfl
    exact ⟨hfailed _, hfailed _⟩
  | true =>
    have horiginal := hclean rfl
    have hundone : Undone config original h := ⟨horiginal, .inl ⟨hstate, hphase⟩⟩
    -- the lock, the temporary database and the artifacts go in turn, each as far as it can
    have hrest : ∀ h : Host α γ, Undone config original h →
        (do
          let _ ← removeOnlineRestoreMaintenanceLock
          let _ ← ofServer (dropDatabase config.names.temporaryDatabase)
          let _ ← removeArtifacts
          pure () : Prog (Host α γ) Unit).wp (fun _ => Undone config original)
            (Undone config original) h := by
      intro h hundone
      have hunlock : ∀ h : Host α γ, Undone config original h →
          Undone config original { h with lock := false } :=
        fun h hu => ⟨{ hu.original with }, hu.job⟩
      have hdrop : ∀ h : Host α γ, Undone config original h → Undone config original { h with
          server := Function.update h.server config.names.temporaryDatabase none } :=
        fun h hu => ⟨hu.original.dropTemporary, hu.job⟩
      have hgone : ∀ h : Host α γ, Undone config original h →
          Undone config original { h with artifacts := false } :=
        fun h hu => ⟨{ hu.original with }, hu.job⟩
      have hartifacts : ∀ h : Host α γ, Undone config original h →
          (do let _ ← removeArtifacts; pure () : Prog (Host α γ) Unit).wp
            (fun _ => Undone config original) (Undone config original) h := by
        intro h hu
        simp only [removeArtifacts, wp_bind, wp_act, wp_pure, Option.some.injEq]
        refine ⟨hu, hu, ?_⟩
        rintro _ rfl
        exact ⟨hgone h hu, hgone h hu⟩
      have hdatabase : ∀ h : Host α γ, Undone config original h →
          (do
            let _ ← ofServer (dropDatabase config.names.temporaryDatabase)
            let _ ← removeArtifacts
            pure () : Prog (Host α γ) Unit).wp
            (fun _ => Undone config original) (Undone config original) h := by
        intro h hu
        rw [wp_bind, wp_ofServer, dropDatabase, wp_request]
        refine ⟨hartifacts h hu, hu, ?_⟩
        rintro _ ⟨rfl⟩
        have hd := hdrop h hu
        exact ⟨hartifacts _ hd, hartifacts _ hd, hd⟩
      rw [removeOnlineRestoreMaintenanceLock, wp_bind, wp_act]
      refine ⟨hdatabase h hundone, hundone, ?_⟩
      rintro _ ⟨rfl⟩
      exact ⟨hdatabase _ (hunlock h hundone), hunlock h hundone⟩
    have hwritten : ∀ detail, Undone config original { h with
        job := ⟨.failed, .rolledBack, detail, some failure⟩ } :=
      fun _ => ⟨{ horiginal with }, .inr ⟨rfl, rfl⟩⟩
    refine wp.mono (Q := fun _ => Undone config original) (C := Undone config original) ?_
      (fun _ _ hu => hu.consistent) fun _ hu => hu.consistent
    rw [failPendingOnlineRestore, writeOnlineRestoreJob, wp_bind, wp_act]
    refine ⟨hrest h hundone, hundone, ?_⟩
    rintro _ ⟨rfl⟩
    exact ⟨hrest _ (hwritten _), hwritten _⟩

theorem Held.server (hheld : Held h) (server : Server α) : Held { h with server := server } :=
  ⟨hheld.lock, hheld.state, hheld.phase⟩

theorem Held.paths (hheld : Held h) (paths : Paths γ) : Held { h with paths := paths } :=
  ⟨hheld.lock, hheld.state, hheld.phase⟩

theorem Held.tls (hheld : Held h) (tls : TLSCutover γ) : Held { h with tls := tls } :=
  ⟨hheld.lock, hheld.state, hheld.phase⟩

/-- A cutover in the middle: the flags and lists of the process say what it has moved. -/
structure CutOff (config : RestoreConfig α γ) (original : Originals α γ) (promotion : Promotion)
    (swapped : Swapped) (h : Host α γ) : Prop where
  held : Held h
  server : Midway config.names original.database config.restored promotion.promoted
    promotion.oldRenamed h.server
  paths : Undo original.paths config.snapshot (swapped.current ++ swapped.completed) h.paths
  tls : Listed original.tls config.tlsSnapshot h.tls

/-- A rollback that goes through leaves all live data original. -/
theorem wp_rollBackCutover {promotion : Promotion} {swapped : Swapped}
    (hcut : CutOff config original promotion swapped h) :
    (rollBackCutover config promotion swapped).wp
      (fun ok h' => Held h' ∧ (ok = true → AllOriginal config original h')) Held h := by
  have hheld := hcut.held
  rw [rollBackCutover, wp_bind, wp_ofPaths]
  refine (wp_rollbackSwaps_undo config.folder hcut.paths).mono (fun current paths hcurrent => ?_)
    fun paths _ => hheld.paths paths
  rw [wp_bind, wp_ofTLS]
  refine (wp_rollback_listed hcut.tls).mono (fun tlsBack tls htls => ?_)
    fun tls _ => (hheld.paths paths).tls tls
  rw [wp_bind, wp_ofPaths]
  have hcompleted : (rollbackSwaps config.folder swapped.completed).wp (fun ok paths' =>
      current = true → ok = true → Undo original.paths config.snapshot [] paths')
      (fun _ => True) paths := by
    cases current with
    | false => exact (wp_true _ _).mono (fun _ _ _ h => absurd h (by simp)) fun _ h => h
    | true =>
      have hundo : Undo original.paths config.snapshot (swapped.completed ++ []) paths := by
        simpa using hcurrent rfl
      exact (wp_rollbackSwaps_undo config.folder hundo).mono (fun _ _ h _ => h) fun _ h => h
  refine hcompleted.mono (fun completed paths' hpaths => ?_)
    fun paths' _ => ((hheld.paths paths).tls tls).paths paths'
  rw [wp_bind, wp_ofServer]
  have hheld' : Held { h with paths := paths', tls := tls } := (hheld.tls tls).paths paths'
  refine (wp_rollbackRestoreClickHouse hcut.server).mono (fun database server hserver => ?_)
    fun server _ => hheld'.server server
  refine ⟨hheld'.server server, fun hok => ?_⟩
  obtain ⟨⟨⟨hok1, hok2⟩, hok3⟩, hok4⟩ : ((current = true ∧ tlsBack = true) ∧ completed = true) ∧
      database = true := by
    simpa using hok
  refine ⟨by simpa using (hserver.2 hok4).current, fun name => ?_, htls hok2⟩
  exact (hpaths hok1 hok3).others name (by simp)

variable [DecidableEq γ]

omit [DecidableEq γ] in
theorem wp_cutOver_fail {failure : RestoreError} {clean : Bool} (hheld : Held h)
    (hclean : clean = true → AllOriginal config original h) :
    (cutOver.fail config failure clean).wp (fun _ => Consistent config original)
      (Consistent config original) h := by
  rw [cutOver.fail, wp_bind]
  exact (wp_failPendingOnlineRestore hheld.state hheld.phase hclean fun _ => hheld.lock).mono
    (fun _ _ h => h) fun _ h => h

theorem wp_cutOver_rollBack {error : RestoreError} {promotion : Promotion} {swapped : Swapped}
    (hcut : CutOff config original promotion swapped h) :
    (cutOver.rollBack config error promotion swapped).wp (fun _ => Consistent config original)
      (Consistent config original) h := by
  rw [cutOver.rollBack, wp_bind]
  refine (wp_rollBackCutover hcut).mono (fun undone h' ⟨hheld, hok⟩ => ?_)
    fun _ hheld => hheld.consistent
  exact wp_cutOver_fail hheld fun hclean => hok (Bool.and_eq_true_iff.mp hclean).1

omit [DecidableEq γ] in
/-- The job is completed when everything is restored. -/
theorem wp_cutOver_complete (hheld : Held h) (hrestored : AllRestored config h) :
    (cutOver.complete : Prog (Host α γ) Bool).wp (fun _ => Consistent config original)
      (Consistent config original) h := by
  have hcompleted : ∀ detail lock artifacts, Consistent config original { h with
      job := ⟨.completed, .completed, detail, none⟩, lock := lock, artifacts := artifacts } := by
    intro detail lock artifacts
    have hall : AllRestored config { h with
        job := ⟨.completed, .completed, detail, none⟩, lock := lock, artifacts := artifacts } :=
      { hrestored with }
    exact ⟨⟨fun _ => .inl ⟨rfl, hall⟩, fun _ => .inl hall, by simp⟩, by simp, fun _ => hall,
      by simp, by simp, by simp⟩
  simp only [cutOver.complete, writeOnlineRestoreJob, removeOnlineRestoreMaintenanceLock,
    removeArtifacts, wp_bind, wp_act, wp_pure, Bool.false_eq_true, ↓reduceIte, Option.some.injEq]
  refine ⟨hheld.consistent, hheld.consistent, ?_⟩
  rintro _ rfl
  refine ⟨⟨hcompleted _ _ _, hcompleted _ _ _, ?_⟩, hcompleted _ _ _⟩
  rintro _ rfl
  refine ⟨⟨hcompleted _ _ _, hcompleted _ _ _, ?_⟩, hcompleted _ _ _⟩
  rintro _ rfl
  exact ⟨hcompleted _ _ _, hcompleted _ _ _⟩

/-- Everything is staged and nothing moved. -/
structure Staged (config : RestoreConfig α γ) (original : Originals α γ) (h : Host α γ) : Prop where
  held : Held h
  server : Midway config.names original.database config.restored false false h.server
  paths : ∀ name, (h.paths name).live = original.paths name
  swaps : ∀ name ∈ restoreSwaps,
    Fresh (original.paths name) (config.snapshot name) (h.paths name)
  tls : Unmoved original.tls config.tlsSnapshot h.tls

theorem wp_validatePromotedRestore {Q : Bool → Host α γ → Prop} {C : Host α γ → Prop}
    (hQ : ∀ ok, Q ok h) (hC : C h) : (validatePromotedRestore config).wp Q C h := by
  simp only [validatePromotedRestore, wp_bind, wp_inspect, wp_ite, wp_pure, hQ, hC, implies_true,
    and_self]

/-- The files of a cutover whose database is promoted. -/
theorem wp_cutOver_files {promotion : Promotion} (hheld : Held h)
    (hserver : Midway config.names original.database config.restored promotion.promoted
      promotion.oldRenamed h.server)
    (hpromoted : promotion.promoted = true)
    (hpaths : ∀ name, (h.paths name).live = original.paths name)
    (hswaps : ∀ name ∈ restoreSwaps,
      Fresh (original.paths name) (config.snapshot name) (h.paths name))
    (htls : Unmoved original.tls config.tlsSnapshot h.tls) :
    (do
      let swapped ← ofPaths (applySwaps config.folder [] restoreSwaps)
      match swapped.error with
      | some error => cutOver.rollBack config error promotion swapped
      | none =>
        match ← ofTLS (TLSCutover.apply config.folder config.tlsNames) with
        | some error => cutOver.rollBack config error promotion swapped
        | none =>
          if ← validatePromotedRestore config then cutOver.complete
          else cutOver.rollBack config .promotedMismatch promotion swapped :
        Prog (Host α γ) Bool).wp
      (fun _ => Consistent config original) (Consistent config original) h := by
  have hundo : Undo original.paths config.snapshot [] h.paths :=
    ⟨List.nodup_nil, by simp, fun name _ => hpaths name⟩
  rw [wp_bind, wp_ofPaths]
  refine (wp_applySwaps_fresh config.folder (by decide) hswaps hundo (by simp)).mono
    (fun swapped paths hswapped => ?_) fun paths _ => (hheld.paths paths).consistent
  obtain ⟨hundo, hdone⟩ := hswapped
  have hcut : CutOff config original promotion swapped { h with paths := paths } :=
    ⟨hheld.paths paths, hserver, hundo, htls.listed⟩
  cases herror : swapped.error with
  | some error => exact wp_cutOver_rollBack hcut
  | none =>
    obtain ⟨-, hrestored⟩ := hdone herror
    simp only [wp_bind, wp_ofTLS]
    refine (wp_apply_unmoved config.tlsNames_nodup htls).mono
      (fun error tls happlied => ?_) fun tls _ => (hcut.held.tls tls).consistent
    obtain ⟨hlisted, hlive⟩ := happlied
    have hcut' : CutOff config original promotion swapped { h with paths := paths, tls := tls } :=
      ⟨hcut.held.tls tls, hserver, hundo, hlisted⟩
    cases error with
    | some error => exact wp_cutOver_rollBack hcut'
    | none =>
      have hall : AllRestored config { h with paths := paths, tls := tls } := by
        refine ⟨?_, fun name hname => hrestored name (by simpa using hname), hlive rfl⟩
        simpa [hpromoted] using hserver.current
      rw [wp_bind]
      refine wp_validatePromotedRestore (fun ok => ?_) hcut'.held.consistent
      cases ok with
      | true => exact wp_cutOver_complete hcut'.held hall
      | false => exact wp_cutOver_rollBack hcut'

/-- The cutover of a staged restore is all or nothing. -/
theorem wp_cutOver (hstaged : Staged config original h) :
    (cutOver config).wp (fun _ => Consistent config original) (Consistent config original) h := by
  have hheld := hstaged.held
  -- the rollback of the databases alone, after which nothing has been moved
  have hback : ∀ {promotion : Promotion} {h' : Host α γ} (failure : RestoreError), Held h' →
      h'.paths = h.paths → h'.tls = h.tls →
      Midway config.names original.database config.restored promotion.promoted
        promotion.oldRenamed h'.server →
      ∀ keep : Bool → Bool, (∀ undone, keep undone = true → undone = true) →
      (do
        let undone ← ofServer (rollbackRestoreClickHouse config.names promotion.promoted
          promotion.oldRenamed)
        cutOver.fail config failure (keep undone) : Prog (Host α γ) Bool).wp
        (fun _ => Consistent config original) (Consistent config original) h' := by
    intro promotion h' failure hheld' hpaths htls hserver keep hkeep
    rw [wp_bind, wp_ofServer]
    refine (wp_rollbackRestoreClickHouse hserver).mono (fun undone server hback => ?_)
      fun server _ => (hheld'.server server).consistent
    refine wp_cutOver_fail (hheld'.server server) fun hclean => ⟨?_, ?_, ?_⟩
    · simpa using (hback.2 (hkeep _ hclean)).current
    · exact fun name => by simpa [hpaths] using hstaged.paths name
    · simpa [htls] using hstaged.tls.live
  rw [cutOver, wp_bind, wp_ofServer]
  refine (wp_promoteRestoreClickHouse hstaged.server).mono (fun promotion server htells => ?_)
    fun server _ => (hheld.server server).consistent
  have hheld' : Held { h with server := server } := hheld.server server
  cases herror : promotion.error with
  | some error =>
    cases hmanual : error.isManual with
    | false =>
      exact hback error hheld' rfl rfl (htells.flags (by simp [herror, hmanual]))
        (fun undone => undone && !error.isManual)
        fun _ hclean => (Bool.and_eq_true_iff.mp hclean).1
    | true =>
      -- an error that asks for an operator is never a clean rollback
      simp only [wp_bind, wp_ofServer]
      refine (wp_true _ _).mono (fun undone server' _ => ?_)
        fun server' _ => (hheld'.server server').consistent
      exact wp_cutOver_fail (hheld'.server server') (by simp [hmanual])
  | none =>
    have hserver := htells.flags (by simp [herror])
    have hpromoted := htells.success herror
    simp only [wp_bind, wp_act, wp_ite, Option.some.injEq]
    refine ⟨⟨by simp, fun _ => wp_bind.mp
      (hback .operation hheld' rfl rfl hserver (fun undone => undone) fun _ hclean => hclean)⟩,
      hheld'.consistent, ?_⟩
    rintro _ rfl
    have hnoted : Held { h with server := server, job := { h.job with
        phase := .clickhousePromoted } } := ⟨hheld.lock, hheld.state, .inr rfl⟩
    refine ⟨⟨fun _ => ?_, by simp⟩, hnoted.consistent⟩
    exact wp_bind.mp
      (wp_cutOver_files hnoted hserver hpromoted hstaged.paths hstaged.swaps hstaged.tls)

/-! ### Staging and the start -/

omit [DecidableEq γ] in
/-- Nothing has been moved; the staging directories may hold something. -/
structure Unmixed (config : RestoreConfig α γ) (original : Originals α γ) (h : Host α γ) :
    Prop where
  held : Held h
  server : Midway config.names original.database config.restored false false h.server
  paths : ∀ name, (h.paths name).live = original.paths name
  swaps : ∀ name ∈ restoreSwaps, (h.paths name).backup = none ∧ (h.paths name).marker = false ∧
    Unrecorded (h.paths name)
  unstaged : ∀ name, config.snapshot name = none → (h.paths name).staged = none
  tls : h.tls.live = original.tls ∧ h.tls.backup = none ∧ h.tls.installed = [] ∧
    h.tls.backedUp = []

omit [DecidableEq γ] in
theorem Unmixed.allOriginal (hun : Unmixed config original h) : AllOriginal config original h :=
  ⟨by simpa using hun.server.current, hun.paths, hun.tls.1⟩

omit [DecidableEq γ] in
theorem Unmixed.removeDataStage (hun : Unmixed config original h) : Unmixed config original
    { h with paths := fun name => { h.paths name with staged := none } } :=
  { hun with
    held := hun.held.paths _
    swaps := fun name hname => ⟨(hun.swaps name hname).1, (hun.swaps name hname).2.1,
      (hun.swaps name hname).2.2.hadLive, (hun.swaps name hname).2.2.absent,
      (hun.swaps name hname).2.2.installed⟩
    unstaged := fun _ _ => rfl }

omit [DecidableEq γ] in
theorem Unmixed.stageTLS (hun : Unmixed config original h) (stage : Entries γ) :
    Unmixed config original { h with tls := { h.tls with stage := stage } } :=
  { hun with held := hun.held.tls _, tls := hun.tls }

omit [DecidableEq γ] in
theorem Unmixed.stagePath {name : String} (hun : Unmixed config original h) {paths : Paths γ}
    (hpaths : stagePath (config.snapshot name) name h.paths = some paths) :
    Unmixed config original { h with paths := paths } ∧
      (paths name).staged = config.snapshot name ∧
      ∀ other, other ≠ name → paths other = h.paths other := by
  unfold Restore.stagePath at hpaths
  split at hpaths
  · cases hpaths
  · obtain rfl := Option.some.inj hpaths
    refine ⟨?_, by simp, fun other hother => Function.update_of_ne hother _ _⟩
    refine { hun with held := hun.held.paths _, paths := ?_, swaps := ?_, unstaged := ?_ }
    · exact forall_update (P := fun name s => s.live = original.paths name) hun.paths
        (hun.paths name)
    · intro other hother
      by_cases hsame : other = name
      · subst hsame
        obtain ⟨hbackup, hmarker, hflags⟩ := hun.swaps other hother
        simpa using ⟨hbackup, hmarker, hflags.hadLive, hflags.absent, hflags.installed⟩
      · simpa [Function.update_of_ne hsame] using hun.swaps other hother
    · intro other hnone
      by_cases hsame : other = name
      · subst hsame; simpa using hnone
      · simpa [Function.update_of_ne hsame] using hun.unstaged other hnone

omit [DecidableEq γ] in
/-- The staging leaves everything staged, or reports that it is not. -/
theorem wp_stageSnapshot (hun : Unmixed config original h) :
    (stageSnapshot config).wp (fun ok h' => Unmixed config original h' ∧
      (ok = true → Staged config original h')) Held h := by
  simp only [stageSnapshot, wp_bind, wp_act, wp_pure, Bool.false_eq_true, ↓reduceIte]
  refine ⟨⟨hun, by simp⟩, hun.held, fun h₁ hcopy => ?_⟩
  obtain ⟨paths₁, hstage₁, rfl⟩ := Option.map_eq_some_iff.mp hcopy
  obtain ⟨hun₁, hdb, hrest₁⟩ := hun.stagePath hstage₁
  refine ⟨⟨⟨hun₁, by simp⟩, hun₁.held, fun h₂ hsecrets => ?_⟩, hun₁.held⟩
  obtain ⟨paths₃, hboth, rfl⟩ := Option.map_eq_some_iff.mp hsecrets
  obtain ⟨paths₂, hstage₂, hstage₃⟩ := Option.bind_eq_some_iff.mp hboth
  obtain ⟨hun₂, hpki, hrest₂⟩ := hun₁.stagePath hstage₂
  obtain ⟨hun₃, hle, hrest₃⟩ := hun₂.stagePath hstage₃
  have hpki₃ : paths₃ "pki" = paths₂ "pki" := hrest₃ _ (by decide)
  have hdb₂ : paths₂ "control.db" = paths₁ "control.db" := hrest₂ _ (by decide)
  have hdb₃ : paths₃ "control.db" = paths₂ "control.db" := hrest₃ _ (by decide)
  refine ⟨⟨⟨hun₃, by simp⟩, hun₃.held, fun h₄ htls => ?_⟩, hun₃.held⟩
  split at htls
  · obtain rfl := Option.some.inj htls
    have hun₄ := hun₃.stageTLS config.tlsSnapshot
    refine ⟨⟨hun₄, fun _ => ⟨hun₄.held, hun₄.server, hun₄.paths, fun name hname => ?_, ?_⟩⟩,
      hun₄.held⟩
    · obtain ⟨hbackup, hmarker, hflags⟩ := hun₄.swaps name hname
      refine ⟨hun₄.paths name, ?_, hbackup, hmarker, hflags⟩
      -- the database, the internal CA and the certificates are staged, the logs are not
      simp only [restoreSwaps, List.mem_cons, List.not_mem_nil, or_false] at hname
      rcases hname with rfl | rfl | rfl | rfl | rfl
      · exact (hun₄.unstaged _ (by simp [RestoreConfig.snapshot])).trans
          (by simp [RestoreConfig.snapshot])
      · exact (hun₄.unstaged _ (by simp [RestoreConfig.snapshot])).trans
          (by simp [RestoreConfig.snapshot])
      · show (paths₃ "control.db").staged = _
        rw [hdb₃, hdb₂]
        exact hdb
      · show (paths₃ "pki").staged = _
        rw [hpki₃]
        exact hpki
      · exact hle
    · exact ⟨hun₄.tls.1, rfl, hun₄.tls.2.1, hun₄.tls.2.2.1, hun₄.tls.2.2.2⟩
  · cases htls

omit [DecidableEq γ] in
/-- What is staged, and what the process has noted, is no part of the outcome. -/
theorem Consistent.congr {h' : Host α γ} (hc : Consistent config original h)
    (hserver : h'.server = h.server) (hpaths : ∀ name, (h'.paths name).live = (h.paths name).live)
    (htls : h'.tls.live = h.tls.live) (hjob : h'.job = h.job) (hlock : h'.lock = h.lock) :
    Consistent config original h' := by
  have hrestored : AllRestored config h → AllRestored config h' := fun hr =>
    ⟨by rw [hserver]; exact hr.database, fun name hname => (hpaths name).trans (hr.paths name hname),
      fun name hname => by rw [htls]; exact hr.tls name hname⟩
  have horiginal : AllOriginal config original h → AllOriginal config original h' := fun ho =>
    ⟨by rw [hserver]; exact ho.database, fun name => (hpaths name).trans (ho.paths name),
      htls.trans ho.tls⟩
  constructor
  case toAllOrNothing =>
    constructor
    case outcome =>
      rw [hjob, hlock]
      intro hne
      rcases hc.outcome hne with ⟨hstate, hall⟩ | ⟨hstate, hphase, hfree, hall⟩ | hheld
      · exact .inl ⟨hstate, hrestored hall⟩
      · exact .inr (.inl ⟨hstate, hphase, hfree, horiginal hall⟩)
      · exact .inr (.inr hheld)
    case unlocked =>
      rw [hlock]
      exact fun hfree => (hc.unlocked hfree).imp hrestored horiginal
    case reported =>
      rw [hjob]
      exact fun hphase => horiginal (hc.reported hphase)
  case states => rw [hjob]; exact hc.states
  case completed => rw [hjob]; exact fun hstate => hrestored (hc.completed hstate)
  case finished => rw [hjob]; exact hc.finished
  case failed => rw [hjob]; exact hc.failed
  case committing => rw [hjob]; exact hc.committing

omit [DecidableEq γ] in
theorem wp_removeStages {β : Type} {result : β} (hc : Consistent config original h) :
    (do
      let _ ← removeTLSStage
      let _ ← removeDataStage
      pure result : Prog (Host α γ) β).wp (fun _ => Consistent config original)
      (Consistent config original) h := by
  have hdata : ∀ h : Host α γ, Consistent config original h → Consistent config original
      { h with paths := fun name => { h.paths name with staged := none } } :=
    fun h hc => hc.congr rfl (fun _ => rfl) rfl rfl rfl
  have htls : Consistent config original
      { h with tls := { h.tls with stage := fun _ => none } } :=
    hc.congr rfl (fun _ => rfl) rfl rfl rfl
  simp only [removeTLSStage, removeDataStage, wp_bind, wp_act, wp_pure, Option.some.injEq]
  refine ⟨⟨hc, hc, ?_⟩, hc, ?_⟩
  · rintro _ rfl
    exact ⟨hdata h hc, hdata h hc⟩
  · rintro _ rfl
    refine ⟨⟨htls, htls, ?_⟩, htls⟩
    rintro _ rfl
    exact ⟨hdata _ htls, hdata _ htls⟩

theorem wp_stageAndCutOver (hun : Unmixed config original h) :
    (applyPendingOnlineRestore.stageAndCutOver config).wp (fun _ => Consistent config original)
      (Consistent config original) h := by
  rw [applyPendingOnlineRestore.stageAndCutOver, wp_bind]
  refine (wp_stageSnapshot hun).mono (fun ok h' ⟨hun', hstaged⟩ => ?_)
    fun _ hheld => hheld.consistent
  cases ok with
  | true => exact wp_cutOver (hstaged rfl)
  | false =>
    have hheld := hun'.held
    exact wp_bind.mpr ((wp_failPendingOnlineRestore hheld.state hheld.phase
      (fun _ => hun'.allOriginal) fun _ => hheld.lock).mono (fun _ _ h => h) fun _ h => h)

/-- A start that finds a committing job and all live data original. -/
theorem wp_commit (hstate : h.job.state = .committing)
    (hphase : h.job.phase = .unset ∨ h.job.phase = .clickhousePromoted)
    (horiginal : AllOriginal config original h)
    (hclean : h.server config.names.temporaryDatabase = none ∨ h.artifacts = false ∨
      Unmixed config original h) :
    (applyPendingOnlineRestore.commit config).wp (fun _ => Consistent config original)
      (Consistent config original) h := by
  have hstop : Consistent config original h :=
    Undone.consistent ⟨horiginal, .inl ⟨hstate, hphase⟩⟩
  have hfail : ∀ failure, (applyPendingOnlineRestore.fail config failure).wp
      (fun _ => Consistent config original) (Consistent config original) h := by
    intro failure
    rw [applyPendingOnlineRestore.fail, wp_bind]
    exact (wp_failPendingOnlineRestore hstate hphase (fun _ => horiginal) (by simp)).mono
      (fun _ _ h => h) fun _ h => h
  rw [applyPendingOnlineRestore.commit, wp_bind, wp_ofServer, databaseExists, wp_inspect]
  refine ⟨hfail _, hstop, ?_⟩
  simp only [wp_bind, wp_inspect, wp_ite, wp_ofServer, validateDatabase, wp_pure]
  refine ⟨⟨by simp, fun _ => hfail _⟩, hstop, fun hartifacts => ⟨⟨by simp, fun _ => hfail _⟩, hstop,
    fun hvalid => ?_, fun _ => hfail _⟩, fun _ => hfail _⟩
  have hun : Unmixed config original h := by
    rcases hclean with htemporary | hgone | hun
    · simp [htemporary] at hvalid
    · simp [hgone] at hartifacts
    · exact hun
  have hmkdir : ∀ h : Host α γ, Unmixed config original h →
      (do
        if ← act some then
          let applied ← applyPendingOnlineRestore.stageAndCutOver config
          let _ ← removeTLSStage
          let _ ← removeDataStage
          pure (if applied then some true else none)
        else
          applyPendingOnlineRestore.fail config .operation : Prog (Host α γ) (Option Bool)).wp
        (fun _ => Consistent config original) (Consistent config original) h := by
    intro h hun
    have hheld := hun.held
    rw [wp_bind, wp_act]
    refine ⟨?_, hheld.consistent, ?_⟩
    · exact wp_bind.mpr ((wp_failPendingOnlineRestore hheld.state hheld.phase
        (fun _ => hun.allOriginal) fun _ => hheld.lock).mono (fun _ _ h => h) fun _ h => h)
    · rintro _ ⟨rfl⟩
      refine ⟨wp_bind.mpr ?_, hheld.consistent⟩
      exact (wp_stageAndCutOver hun).mono (fun _ _ hc => wp_removeStages hc) fun _ h => h
  -- what an earlier start left in the staging directories goes first, if it can
  have htls : ∀ h : Host α γ, Unmixed config original h →
      Unmixed config original { h with tls := { h.tls with stage := fun _ => none } } :=
    fun h hun => hun.stageTLS _
  have hremove : ∀ h : Host α γ, Unmixed config original h →
      (do
        let _ ← removeTLSStage
        if ← act some then
          let applied ← applyPendingOnlineRestore.stageAndCutOver config
          let _ ← removeTLSStage
          let _ ← removeDataStage
          pure (if applied then some true else none)
        else
          applyPendingOnlineRestore.fail config .operation : Prog (Host α γ) (Option Bool)).wp
        (fun _ => Consistent config original) (Consistent config original) h := by
    intro h hun
    rw [removeTLSStage, wp_bind, wp_act]
    refine ⟨hmkdir h hun, hun.held.consistent, ?_⟩
    rintro _ ⟨rfl⟩
    exact ⟨hmkdir _ (htls h hun), (htls h hun).held.consistent⟩
  have hdata := hun.removeDataStage
  rw [removeDataStage, wp_act]
  refine ⟨wp_bind.mp (hremove h hun), hstop, ?_⟩
  rintro _ ⟨rfl⟩
  exact ⟨wp_bind.mp (hremove _ hdata), hdata.held.consistent⟩

/-- A start that finds a committing job. -/
theorem wp_start_committing (hstate : h.job.state = .committing)
    (hphase : h.job.phase = .unset ∨ h.job.phase = .clickhousePromoted)
    (horiginal : AllOriginal config original h)
    (hclean : h.server config.names.temporaryDatabase = none ∨ h.artifacts = false ∨
      Unmixed config original h) :
    (applyPendingOnlineRestore config).wp (fun _ => Consistent config original)
      (Consistent config original) h := by
  have hstop : Consistent config original h :=
    Undone.consistent ⟨horiginal, .inl ⟨hstate, hphase⟩⟩
  rw [applyPendingOnlineRestore, wp_bind, wp_inspect]
  refine ⟨hstop, hstop, ?_⟩
  simp only [hstate, ↓reduceIte, wp_bind, wp_act, wp_pure, Option.some.injEq, Bool.false_eq_true]
  refine ⟨hstop, hstop, ?_⟩
  rintro _ rfl
  exact ⟨wp_commit hstate hphase horiginal hclean, hstop⟩

omit [DecidableEq γ] in
/-- Without a failed rollback, the lock of a finished job may go. -/
theorem Consistent.unlock (hc : Consistent config original h) (hstate : h.job.state ≠ .committing)
    (hphase : h.job.phase ≠ .rollbackFailed) :
    Consistent config original { h with lock := false } := by
  rcases hc.states with hcommitting | hcompleted | hfailed
  · exact absurd hcommitting hstate
  · have hall : AllRestored config { h with lock := false } := { hc.completed hcompleted with }
    exact ⟨⟨fun _ => .inl ⟨hcompleted, hall⟩, fun _ => .inl hall,
      fun hp => { hc.reported hp with }⟩, .inr (.inl hcompleted), fun _ => hall, hc.finished,
      hc.failed, hc.committing⟩
  · have hrolled : h.job.phase = .rolledBack := (hc.failed hfailed).resolve_right hphase
    exact Undone.consistent ⟨{ hc.reported hrolled with }, .inr ⟨hfailed, hrolled⟩⟩

/-- A start that finds a finished job, whose rollback did not fail. -/
theorem wp_start_finished (hc : Consistent config original h)
    (hstate : h.job.state ≠ .committing) (hphase : h.job.phase ≠ .rollbackFailed) :
    (applyPendingOnlineRestore config).wp (fun _ => Consistent config original)
      (Consistent config original) h := by
  have hremove : (removeOnlineRestoreMaintenanceLock : Prog (Host α γ) Bool).wp
      (fun _ => Consistent config original) (Consistent config original) h := by
    rw [removeOnlineRestoreMaintenanceLock, wp_act]
    refine ⟨hc, hc, ?_⟩
    rintro _ ⟨rfl⟩
    exact ⟨hc.unlock hstate hphase, hc.unlock hstate hphase⟩
  rw [applyPendingOnlineRestore, wp_bind, wp_inspect]
  refine ⟨hc, hc, ?_⟩
  simp only [hstate, ↓reduceIte, wp_bind, wp_inspect, wp_ite, wp_pure]
  exact ⟨⟨fun _ => hc, fun _ => hremove⟩, hc, fun _ => hc, fun _ => hremove⟩

/-- A start that finds a failed rollback and sees the lock leaves everything as it is. -/
theorem start_rollbackFailed {faults : List Fault} (hstate : h.job.state = .failed)
    (hlock : h.lock = true) (hseen : LockSeen faults) :
    ((applyPendingOnlineRestore config).exec faults h).state = h := by
  rw [applyPendingOnlineRestore, exec_inspect_bind]
  cases hfirst : faults.headD .none with
  | fails | lost | stops | stopsAfter => rfl
  | none =>
    obtain ⟨hfails, hlost⟩ := hseen hfirst
    simp only [hstate, reduceCtorEq, ↓reduceIte]
    rw [exec_inspect_bind]
    cases hsecond : faults.tail.headD .none with
    | fails => exact absurd hsecond hfails
    | lost => exact absurd hsecond hlost
    | stops | stopsAfter => rfl
    | none =>
      simp only [hlock, and_self, ↓reduceIte]
      rfl

/-- The flags and lists of a process are gone. -/
structure Forgotten (h : Host α γ) : Prop where
  swaps : ∀ name, Unrecorded (h.paths name)
  tls : h.tls.installed = [] ∧ h.tls.backedUp = []

theorem startStep_forgotten (faults : List Fault) : Forgotten (startStep config h faults) :=
  ⟨fun _ => ⟨rfl, rfl, rfl⟩, rfl, rfl⟩

/-- A clean start leaves the host consistent, wherever it fails or stops. -/
theorem startStep_consistent {faults : List Fault} (hc : Consistent config original h)
    (hforgotten : Forgotten h) (hclean : StartsClean config original h faults) :
    Consistent config original (startStep config h faults) := by
  have hstate : Consistent config original
      ((applyPendingOnlineRestore config).exec faults h).state := by
    by_cases hcommitting : h.job.state = .committing
    · obtain ⟨horiginal, hready⟩ := hclean.committing hcommitting
      refine (wp_start_committing hcommitting (hc.committing hcommitting) horiginal ?_).state faults
      rcases hready with htemporary | hgone | ⟨hlock, hpristine⟩
      · exact .inl htemporary
      · exact .inr (.inl hgone)
      · refine .inr (.inr ⟨⟨hlock, hcommitting, hc.committing hcommitting⟩,
          ⟨hpristine.server, by simp, by simp⟩, horiginal.paths, fun name hname => ?_,
          hpristine.staged, horiginal.tls, hpristine.tlsBackup, hforgotten.tls⟩)
        obtain ⟨hbackup, hmarker⟩ := hpristine.backups name hname
        exact ⟨hbackup, hmarker, hforgotten.swaps name⟩
    · by_cases hphase : h.job.phase = .rollbackFailed
      · -- a rollback that failed is never reported without the lock
        have hfailed : h.job.state = .failed := by
          rcases hc.states with hstate | hstate | hstate
          · exact absurd hstate hcommitting
          · have := hc.finished hstate
            simp [hphase] at this
          · exact hstate
        have hlock : h.lock = true := by
          rcases hc.outcome hcommitting with ⟨hstate, -⟩ | ⟨-, hrolled, -⟩ | hlock
          · simp [hfailed] at hstate
          · simp [hphase] at hrolled
          · exact hlock
        rw [start_rollbackFailed hfailed hlock (hclean.rollbackFailed hphase hlock)]
        exact hc
      · exact (wp_start_finished hc hcommitting hphase).state faults
  exact hstate.congr rfl (fun _ => rfl) rfl rfl rfl

theorem committed_held (others : Server α) : Held (committed config original others) :=
  ⟨rfl, rfl, .inl rfl⟩

theorem committed_startsClean (others : Server α) (faults : List Fault) :
    StartsClean config original (committed config original others) faults := by
  have hplaced : Placed config.names original.database config.restored false false
      (committed config original others).server := by
    refine ⟨?_, ?_, ?_⟩
    · simp [committed, staged]
    · simp [committed, staged, config.names.temporary_ne.symm]
    · simp [committed, staged, config.names.rollback_ne, config.names.rollback_ne_temporary]
  refine ⟨fun _ => ⟨⟨by simpa using hplaced.current, fun _ => rfl, rfl⟩, .inr (.inr ⟨rfl, ?_⟩)⟩,
    fun hphase => by cases hphase⟩
  exact ⟨hplaced, fun _ _ => ⟨rfl, rfl⟩, fun _ _ => rfl, rfl⟩

/-- The cutover is all or nothing in every state of every run of starts, each of which may fail or
stop the process anywhere, as long as the starts are clean. -/
theorem allOrNothing_of_startsClean (config : RestoreConfig α γ) (original : Originals α γ)
    (others : Server α) (starts : List (List Fault))
    (h : Along (startStep config) (StartsClean config original)
      (committed config original others) starts) :
    Always (startStep config) (AllOrNothing config original) (committed config original others)
      starts := by
  have hstep : ∀ (h : Host α γ) faults,
      (Consistent config original h ∧ Forgotten h) → StartsClean config original h faults →
      Consistent config original (startStep config h faults) ∧
        Forgotten (startStep config h faults) :=
    fun _ faults hs hclean => ⟨startStep_consistent hs.1 hs.2 hclean, startStep_forgotten faults⟩
  have hbegin : Consistent config original (committed config original others) ∧
      Forgotten (committed config original others) :=
    ⟨(committed_held others).consistent, fun _ => ⟨rfl, rfl, rfl⟩, rfl, rfl⟩
  exact (h.always hstep hbegin).mono fun _ hs => hs.1.toAllOrNothing

end Rules

/-! ### A restore of a small host -/

section Example

/-- A restore of one database, three files and one TLS entry. -/
def smallRestore : RestoreConfig String String where
  names := DatabaseNames.of "cdn_platform" "1"
  intact := fun _ => true
  restored := "new logs"
  folder := fun _ => false
  controlDB := "new db"
  pki := some "new pki"
  letsencrypt := some "new certs"
  tlsNames := ["live"]
  tlsNames_nodup := by decide
  tlsSnapshot := fun name => if name = "live" then some "new tls" else none
  caFingerprint := some
  keyPairLoads := fun _ => true

def smallOriginals : Originals String String where
  database := some "old logs"
  paths := fun name => if name = "control.db" ∨ name = "pki" then some ("old " ++ name) else none
  tls := fun name => if name = "live" then some "old tls" else none

/-- A start that stops at once, and one that goes through. -/
theorem stoppedThenApplied_allOrNothing :
    let host := committed smallRestore smallOriginals fun _ => none
    (run (startStep smallRestore) host [[.stops], []]).job.state = .completed ∧
      (run (startStep smallRestore) host [[.stops], []]).lock = false ∧
      Always (startStep smallRestore) (AllOrNothing smallRestore smallOriginals) host
        [[.stops], []] := by
  intro host
  refine ⟨by decide, by decide, ?_⟩
  have hsame : startStep smallRestore host [.stops] = host := rfl
  refine allOrNothing_of_startsClean _ _ _ _ ⟨committed_startsClean _ _, ?_, trivial⟩
  rw [hsame]
  exact committed_startsClean _ _

/-- The process stops after the promotion of the database.  The next start finds no temporary
database, reports a rollback and removes the lock, with the restored logs and the original files
live. -/
theorem stoppedAfterPromotion_mixed :
    let host := committed smallRestore smallOriginals fun _ => none
    let h := run (startStep smallRestore) host [List.replicate 16 .none ++ [.stopsAfter], []]
    h.job.phase = .rolledBack ∧ h.lock = false ∧ h.server "cdn_platform" = some "new logs" ∧
      (h.paths "control.db").live = some "old control.db" ∧
      ¬ AllOrNothing smallRestore smallOriginals h := by
  intro host h
  have hphase : h.job.phase = .rolledBack := by decide
  have hserver : h.server "cdn_platform" = some "new logs" := by decide
  refine ⟨hphase, by decide, hserver, by decide, fun hall => ?_⟩
  have horiginal : h.server "cdn_platform" = some "old logs" := (hall.reported hphase).database
  rw [hserver] at horiginal
  exact absurd horiginal (by decide)

end Example

end SimpleCdn.Restore
