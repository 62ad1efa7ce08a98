import Mathlib.Logic.Function.Basic
import SimpleCdn.Lib.Crash
import SimpleCdn.Lib.Transition
import SimpleCdn.Restore.Errors

/-!
# Promotion of the restored ClickHouse database

The log server is a map from database names to contents.  A restore leaves its content under a
temporary name; the cutover renames the live database to a rollback name and the temporary one to
the live name, one statement after the other, and the rollback renames them back as far as the two
flags say that the renames were made.  A statement may fail, its answer may be lost, and the
process may stop before or after it.
-/

namespace SimpleCdn.Restore

open Crash Crash.Prog Transition

/-- The three names of an online restore on the log server. -/
structure DatabaseNames where
  database : String
  temporaryDatabase : String
  rollbackDatabase : String
  temporary_ne : temporaryDatabase ≠ database
  rollback_ne : rollbackDatabase ≠ database
  rollback_ne_temporary : rollbackDatabase ≠ temporaryDatabase
  deriving DecidableEq

/-- The names `StartRestore` gives the job `id`. -/
def DatabaseNames.of (database id : String) : DatabaseNames where
  database := database
  temporaryDatabase := database ++ "_restore_" ++ id
  rollbackDatabase := database ++ "_before_restore_" ++ id
  temporary_ne := by
    intro h
    have := congrArg String.length h
    simp only [String.length_append] at this
    have hsep : "_restore_".length = 9 := by decide
    omega
  rollback_ne := by
    intro h
    have := congrArg String.length h
    simp only [String.length_append] at this
    have hsep : "_before_restore_".length = 16 := by decide
    omega
  rollback_ne_temporary := by
    intro h
    have := congrArg String.length h
    simp only [String.length_append] at this
    have htemporary : "_restore_".length = 9 := by decide
    have hrollback : "_before_restore_".length = 16 := by decide
    omega

/-- The databases of the log server by name. -/
abbrev Server (α : Type) := String → Option α

section Statements

variable {α : Type} (intact : α → Bool)

/-- `DatabaseExists`; `none` when the server did not answer. -/
def databaseExists (name : String) : Prog (Server α) (Option Bool) :=
  inspect fun server => (server name).isSome

/-- `ValidateDatabase`: the engine, the tables and `CHECK TABLE`, which decide by the content. -/
def validateDatabase (name : String) : Prog (Server α) Bool := do
  let valid ← inspect fun server => (server name).any intact
  pure (valid == some true)

/-- The databases after `RENAME DATABASE`, which needs its source and no target. -/
def renamed (source target : String) (server : Server α) : Option (Server α) :=
  match server source, server target with
  | some content, none =>
    some (Function.update (Function.update server source none) target (some content))
  | _, _ => none

/-- `RenameDatabase`. -/
def renameDatabase (source target : String) : Prog (Server α) Bool :=
  request (renamed source target)

/-- `DropDatabase`. -/
def dropDatabase (name : String) : Prog (Server α) Bool :=
  request fun server => some (Function.update server name none)

/-- Whether the rename was made, as far as it can be told, and the error. -/
def renameRestoreDatabaseObserved (source target : String) :
    Prog (Server α) (Bool × Option RestoreError) := do
  if ← renameDatabase source target then
    pure (true, none)
  else
    let sourceExists ← databaseExists source
    let targetExists ← databaseExists target
    match sourceExists, targetExists with
    | some false, some true => pure (true, none)
    | some true, some false => pure (false, some .operation)
    | some _, some _ => pure (false, some (.ambiguousRename source target))
    | _, _ => pure (false, some (.cannotInspectRename source target))

/-- The two flags and the error of `promoteRestoreClickHouse`. -/
structure Promotion where
  promoted : Bool
  oldRenamed : Bool
  error : Option RestoreError
  deriving DecidableEq, Repr

variable (names : DatabaseNames)

def promoteRestoreClickHouse : Prog (Server α) Promotion := do
  let some temporaryExists ← databaseExists names.temporaryDatabase
    | pure ⟨false, false, some .operation⟩
  let some currentExists ← databaseExists names.database
    | pure ⟨false, false, some .operation⟩
  let some rollbackExists ← databaseExists names.rollbackDatabase
    | pure ⟨false, false, some .operation⟩
  if temporaryExists = false then
    if currentExists = true ∧ rollbackExists = true then
      -- an earlier attempt made both renames
      if ← validateDatabase intact names.database then
        pure ⟨true, true, none⟩
      else
        pure ⟨false, true, some (.invalidDatabase names.database)⟩
    else
      pure ⟨false, false, some .temporaryMissing⟩
  else if rollbackExists = true then
    pure ⟨false, false, some .rollbackExists⟩
  else if currentExists = true then
    if ← validateDatabase intact names.database then
      match ← renameRestoreDatabaseObserved names.database names.rollbackDatabase with
      | (oldRenamed, some error) => pure ⟨false, oldRenamed, some error⟩
      | (oldRenamed, none) => promoteTemporary oldRenamed
    else
      pure ⟨false, false, some (.invalidDatabase names.database)⟩
  else
    promoteTemporary false
where
  /-- The second half, from the rename of the temporary database on. -/
  promoteTemporary (oldRenamed : Bool) : Prog (Server α) Promotion := do
    match ← renameRestoreDatabaseObserved names.temporaryDatabase names.database with
    | (promoted, some error) => pure ⟨promoted, oldRenamed, some error⟩
    | (_, none) =>
      if ← validateDatabase intact names.database then
        pure ⟨true, oldRenamed, none⟩
      else
        pure ⟨true, oldRenamed, some (.invalidDatabase names.database)⟩

/-- Whether every statement of the rollback went through. -/
def rollbackRestoreClickHouse (promoted oldRenamed : Bool) : Prog (Server α) Bool := do
  let demoted ← if promoted then renameDatabase names.database names.temporaryDatabase
    else pure true
  if demoted = true ∧ oldRenamed = true then
    renameDatabase names.rollbackDatabase names.database
  else
    pure demoted

end Statements

/-! ### What the flags mean -/

section Placed

variable {α : Type} {intact : α → Bool} {names : DatabaseNames} {original : Option α}
  {restored : α} {promoted oldRenamed : Bool} {server : Server α}

/-- The three databases are where the flags say: the original content, if there was any, and the
restored one. -/
structure Placed (names : DatabaseNames) (original : Option α) (restored : α)
    (promoted oldRenamed : Bool) (server : Server α) : Prop where
  temporary : server names.temporaryDatabase = if promoted then none else some restored
  current : server names.database =
    if promoted then some restored else if oldRenamed then none else original
  previous : server names.rollbackDatabase = if oldRenamed then original else none

/-- The databases are as some sequence of the renames leaves them: the live one goes first. -/
structure Midway (names : DatabaseNames) (original : Option α) (restored : α)
    (promoted oldRenamed : Bool) (server : Server α) : Prop
    extends Placed names original restored promoted oldRenamed server where
  kept : oldRenamed = true → original.isSome
  promoted_kept : promoted = true → oldRenamed = original.isSome

/-- A crash leaves the databases in one of these states. -/
def Interrupted (names : DatabaseNames) (original : Option α) (restored : α)
    (server : Server α) : Prop :=
  ∃ promoted oldRenamed, Midway names original restored promoted oldRenamed server

/-- The rename of a database that is there to a name that is free. -/
theorem renamed_of_free {source target : String} {content : α}
    (hsource : server source = some content) (htarget : server target = none) :
    renamed source target server =
      some (Function.update (Function.update server source none) target (some content)) := by
  simp [renamed, hsource, htarget]

/-- Every outcome of an observed rename that can be made: it is seen to be made or not, or an
error says that nobody knows. -/
theorem wp_renameRestoreDatabaseObserved {source target : String} {server' : Server α}
    (hne : source ≠ target) (hr : renamed source target server = some server')
    {Q : Bool × Option RestoreError → Server α → Prop} {C : Server α → Prop}
    (hmade : Q (true, none) server') (hrefused : Q (false, some .operation) server)
    (hunseen : Q (false, some (.cannotInspectRename source target)) server)
    (hunseen' : Q (false, some (.cannotInspectRename source target)) server')
    (hstop : C server) (hstop' : C server') :
    (renameRestoreDatabaseObserved source target).wp Q C server := by
  have hbefore : (server source).isSome = true ∧ (server target).isSome = false := by
    unfold renamed at hr
    split at hr <;> simp_all
  have hafter : (server' source).isSome = false ∧ (server' target).isSome = true := by
    unfold renamed at hr
    split at hr
    · cases hr
      simp [Function.update_of_ne hne]
    · cases hr
  simp only [renameRestoreDatabaseObserved, renameDatabase, databaseExists, wp_bind, wp_request,
    wp_ite, wp_inspect, hr, Option.some.injEq]
  refine ⟨⟨by simp, fun _ => ?_⟩, hstop, ?_⟩
  · simp [hbefore, hrefused, hunseen, hstop]
  · rintro _ rfl
    refine ⟨⟨fun _ => hmade, by simp⟩, ⟨by simp, fun _ => ?_⟩, hstop'⟩
    simp [hafter, hmade, hunseen', hstop']

/-- The first rename of the cutover. -/
theorem Midway.renamed_old (h : Midway names original restored false false server)
    (hsome : original.isSome) : ∃ server',
      renamed names.database names.rollbackDatabase server = some server' ∧
        Midway names original restored false true server' := by
  obtain ⟨content, rfl⟩ := Option.isSome_iff_exists.mp hsome
  refine ⟨_, renamed_of_free h.current h.previous, ⟨?_, ?_, ?_⟩, by simp, by simp⟩
  · rw [Function.update_of_ne names.rollback_ne_temporary.symm,
      Function.update_of_ne names.temporary_ne]
    exact h.temporary
  · simp [Function.update_of_ne names.rollback_ne.symm]
  · simp

/-- The second rename of the cutover. -/
theorem Midway.renamed_temporary (h : Midway names original restored false oldRenamed server)
    (hold : oldRenamed = original.isSome) : ∃ server',
      renamed names.temporaryDatabase names.database server = some server' ∧
        Midway names original restored true oldRenamed server' := by
  have hfree : server names.database = none := by
    rw [h.current, hold]
    cases original <;> simp
  refine ⟨_, renamed_of_free h.temporary hfree, ⟨?_, ?_, ?_⟩, h.kept, fun _ => hold⟩
  · simp [Function.update_of_ne names.temporary_ne]
  · simp
  · rw [Function.update_of_ne names.rollback_ne, Function.update_of_ne names.rollback_ne_temporary]
    exact h.previous

/-- The first rename of the rollback undoes the second of the cutover. -/
theorem Midway.renamed_back (h : Midway names original restored true oldRenamed server) :
    ∃ server', renamed names.database names.temporaryDatabase server = some server' ∧
      Midway names original restored false oldRenamed server' := by
  refine ⟨_, renamed_of_free h.current h.temporary, ⟨?_, ?_, ?_⟩, h.kept, by simp⟩
  · simp
  · rw [Function.update_of_ne names.temporary_ne.symm, Function.update_self, h.promoted_kept rfl]
    cases original <;> simp
  · rw [Function.update_of_ne names.rollback_ne_temporary, Function.update_of_ne names.rollback_ne]
    exact h.previous

/-- The second rename of the rollback undoes the first of the cutover. -/
theorem Midway.renamed_old_back (h : Midway names original restored false true server) :
    ∃ server', renamed names.rollbackDatabase names.database server = some server' ∧
      Midway names original restored false false server' := by
  obtain ⟨content, rfl⟩ := Option.isSome_iff_exists.mp (h.kept rfl)
  refine ⟨_, renamed_of_free h.previous h.current, ⟨?_, ?_, ?_⟩, by simp, by simp⟩
  · rw [Function.update_of_ne names.temporary_ne,
      Function.update_of_ne names.rollback_ne_temporary.symm]
    exact h.temporary
  · simp
  · simp [Function.update_of_ne names.rollback_ne]

/-- What a promotion says of the databases it leaves: the flags tell where they are, unless the
error asks for an operator, and without an error the restored content is live. -/
structure Tells (names : DatabaseNames) (original : Option α) (restored : α)
    (promotion : Promotion) (server : Server α) : Prop where
  flags : promotion.error.any RestoreError.isManual = false →
    Midway names original restored promotion.promoted promotion.oldRenamed server
  success : promotion.error = none → promotion.promoted = true
  unseen : promotion.error.any RestoreError.isManual = true → promotion.promoted = false
  interrupted : Interrupted names original restored server

theorem Tells.of_midway {error : Option RestoreError}
    (h : Midway names original restored promoted oldRenamed server)
    (hsuccess : error = none → promoted = true)
    (hunseen : error.any RestoreError.isManual = true → promoted = false) :
    Tells names original restored ⟨promoted, oldRenamed, error⟩ server :=
  ⟨fun _ => h, hsuccess, hunseen, _, _, h⟩

theorem Tells.of_manual {error : RestoreError} (hmanual : error.isManual = true)
    (h : Interrupted names original restored server) :
    Tells names original restored ⟨false, oldRenamed, some error⟩ server :=
  ⟨by simp [hmanual], by simp, by simp, h⟩

theorem wp_promoteTemporary (h : Midway names original restored false oldRenamed server)
    (hold : oldRenamed = original.isSome) :
    (promoteRestoreClickHouse.promoteTemporary intact names oldRenamed).wp
      (Tells names original restored) (Interrupted names original restored) server := by
  obtain ⟨server', hr, h'⟩ := h.renamed_temporary hold
  rw [promoteRestoreClickHouse.promoteTemporary, wp_bind]
  apply wp_renameRestoreDatabaseObserved names.temporary_ne hr
  · -- the rename was made; whatever the validation says, the flags are true
    simp only [wp_bind, validateDatabase, wp_inspect, wp_pure, wp_ite]
    refine ⟨⟨fun _ => ?_, fun _ => ?_⟩, ⟨_, _, h'⟩, fun _ => ?_, fun _ => ?_⟩
    all_goals exact Tells.of_midway h' (by simp) (by simp [RestoreError.isManual])
  · exact Tells.of_midway h (by simp) (by simp)
  · exact Tells.of_manual rfl ⟨_, _, h⟩
  · exact Tells.of_manual rfl ⟨_, _, h'⟩
  · exact ⟨_, _, h⟩
  · exact ⟨_, _, h'⟩

/-- From the databases as the restore left them, the promotion tells where it leaves them. -/
theorem wp_promoteRestoreClickHouse (h : Midway names original restored false false server) :
    (promoteRestoreClickHouse intact names).wp (Tells names original restored)
      (Interrupted names original restored) server := by
  have htemporary : (server names.temporaryDatabase).isSome = true := by
    rw [h.temporary]; rfl
  have hprevious : (server names.rollbackDatabase).isSome = false := by
    rw [h.previous]; rfl
  have hcurrent : (server names.database).isSome = original.isSome := by
    rw [h.current]; rfl
  have hstop : Interrupted names original restored server := ⟨_, _, h⟩
  have hfailed : ∀ error, Tells names original restored ⟨false, false, some error⟩ server :=
    fun error => Tells.of_midway h (by simp) (by simp)
  simp only [promoteRestoreClickHouse, databaseExists, wp_bind, wp_inspect, htemporary, hprevious,
    hcurrent, wp_pure, wp_ite]
  refine ⟨hfailed _, hstop, hfailed _, hstop, hfailed _, hstop, by simp, fun _ => ⟨by simp,
    fun _ => ⟨fun hsome => ?_, fun hnone => ?_⟩⟩⟩
  · -- the live database is renamed first
    obtain ⟨server', hr, h'⟩ := h.renamed_old hsome
    have hstop' : Interrupted names original restored server' := ⟨_, _, h'⟩
    simp only [validateDatabase, wp_bind, wp_inspect, wp_pure, wp_ite]
    refine ⟨⟨by simp, fun _ => hfailed _⟩, hstop, fun _ => ?_, fun _ => hfailed _⟩
    apply wp_renameRestoreDatabaseObserved names.rollback_ne.symm hr
    · exact wp_promoteTemporary h' hsome.symm
    · exact hfailed _
    · exact hfailed _
    · exact Tells.of_manual rfl hstop'
    · exact hstop
    · exact hstop'
  · exact wp_promoteTemporary h (by simpa using hnone)

/-- From databases that are where the flags say, a rollback that goes through puts every one back
to its place. -/
theorem wp_rollbackRestoreClickHouse
    (h : Midway names original restored promoted oldRenamed server) :
    (rollbackRestoreClickHouse names promoted oldRenamed).wp
      (fun ok server' => Interrupted names original restored server' ∧
        (ok = true → Midway names original restored false false server'))
      (Interrupted names original restored) server := by
  have hsecond : ∀ server, Midway names original restored false oldRenamed server →
      (if (true : Bool) = true ∧ oldRenamed = true then
        renameDatabase names.rollbackDatabase names.database else pure true).wp
      (fun ok server' => Interrupted names original restored server' ∧
        (ok = true → Midway names original restored false false server'))
      (Interrupted names original restored) server := by
    intro server h
    cases oldRenamed with
    | false => simpa using ⟨⟨_, _, h⟩, h⟩
    | true =>
      obtain ⟨server', hr, h'⟩ := h.renamed_old_back
      have hstop : Interrupted names original restored server := ⟨_, _, h⟩
      have hstop' : Interrupted names original restored server' := ⟨_, _, h'⟩
      simp [renameDatabase, wp_request, hr, hstop, hstop', h']
  cases promoted with
  | false => simpa [rollbackRestoreClickHouse] using hsecond server h
  | true =>
    obtain ⟨server', hr, h'⟩ := h.renamed_back
    have hstop : Interrupted names original restored server := ⟨_, _, h⟩
    have hstop' : Interrupted names original restored server' := ⟨_, _, h'⟩
    have := hsecond server' h'
    simp_all [rollbackRestoreClickHouse, renameDatabase, wp_request]

/-- Renaming the old database back moves the databases to a state a crash can leave as well. -/
theorem Interrupted.renamed_old_back (h : Interrupted names original restored server)
    {server' : Server α}
    (hr : renamed names.rollbackDatabase names.database server = some server') :
    Interrupted names original restored server' := by
  obtain ⟨promoted, oldRenamed, h⟩ := h
  cases promoted with
  | true => simp [renamed, h.current] at hr
  | false =>
    cases oldRenamed with
    | false => simp [renamed, h.previous] at hr
    | true =>
      obtain ⟨server'', hr', h''⟩ := h.renamed_old_back
      rw [hr] at hr'
      cases hr'
      exact ⟨_, _, h''⟩

/-- A rollback that does not demote the restored database leaves a state a crash can leave,
whatever it believes about the old one. -/
theorem wp_rollback_unpromoted (h : Interrupted names original restored server) :
    (rollbackRestoreClickHouse names false oldRenamed).wp
      (fun _ => Interrupted names original restored) (Interrupted names original restored)
      server := by
  simp only [rollbackRestoreClickHouse, Bool.false_eq_true, if_false, wp_bind, wp_pure, true_and]
  split
  · rw [renameDatabase, wp_request]
    refine ⟨h, h, fun server' hr => ?_⟩
    have := h.renamed_old_back hr
    exact ⟨this, this, this⟩
  · exact h

/-- What every promotion leaves, also one that follows a crash: the flag of the second rename is
only set when both flags are true. -/
def Leaves (names : DatabaseNames) (original : Option α) (restored : α) (promotion : Promotion)
    (server : Server α) : Prop :=
  Interrupted names original restored server ∧ (promotion.promoted = true →
    Midway names original restored promotion.promoted promotion.oldRenamed server)

theorem Tells.leaves {promotion : Promotion} (h : Tells names original restored promotion server) :
    Leaves names original restored promotion server := by
  refine ⟨h.interrupted, fun hpromoted => h.flags ?_⟩
  cases hmanual : promotion.error.any RestoreError.isManual with
  | false => rfl
  | true => exact absurd (h.unseen hmanual) (by simp [hpromoted])

/-- A promotion that finds a rename of an earlier attempt renames nothing. -/
theorem wp_promote_again (h : Midway names original restored promoted oldRenamed server)
    (hagain : promoted = true ∨ oldRenamed = true) :
    (promoteRestoreClickHouse intact names).wp (Leaves names original restored)
      (Interrupted names original restored) server := by
  have hstop : Interrupted names original restored server := ⟨_, _, h⟩
  have hnot : ∀ oldRenamed error,
      Leaves names original restored ⟨false, oldRenamed, error⟩ server :=
    fun _ _ => ⟨hstop, by simp⟩
  simp only [promoteRestoreClickHouse, databaseExists, wp_bind, wp_inspect]
  refine ⟨hnot _ _, hstop, hnot _ _, hstop, hnot _ _, hstop, ?_⟩
  cases promoted with
  | false =>
    obtain rfl : oldRenamed = true := by simpa using hagain
    have hprevious : (server names.rollbackDatabase).isSome = true := by
      rw [h.previous]; exact h.kept rfl
    simp [h.temporary, hprevious, hnot]
  | true =>
    simp only [h.temporary, if_true, Option.isSome_none, wp_ite, wp_pure]
    refine ⟨fun hboth => ?_, fun _ => hnot _ _⟩
    obtain rfl : oldRenamed = true := by
      have := hboth.2
      rw [h.previous] at this
      by_contra hold
      simp [hold] at this
    have htrue : Leaves names original restored ⟨true, true, none⟩ server := ⟨hstop, fun _ => h⟩
    simp [validateDatabase, wp_inspect, wp_ite, hnot, hstop, htrue]

/-- Whatever an earlier attempt left, the promotion leaves a state a crash can leave. -/
theorem wp_promote_leaves (h : Interrupted names original restored server) :
    (promoteRestoreClickHouse intact names).wp (Leaves names original restored)
      (Interrupted names original restored) server := by
  obtain ⟨promoted, oldRenamed, h⟩ := h
  by_cases hagain : promoted = true ∨ oldRenamed = true
  · exact wp_promote_again h hagain
  · obtain ⟨rfl, rfl⟩ : promoted = false ∧ oldRenamed = false := by simpa using hagain
    exact (wp_promoteRestoreClickHouse h).mono (fun _ _ => Tells.leaves) (fun _ => id)

/-- The rollback after any promotion. -/
theorem wp_rollback_leaves {promotion : Promotion}
    (h : Leaves names original restored promotion server) :
    (rollbackRestoreClickHouse names promotion.promoted promotion.oldRenamed).wp
      (fun _ => Interrupted names original restored) (Interrupted names original restored)
      server := by
  cases hpromoted : promotion.promoted with
  | false => exact wp_rollback_unpromoted h.1
  | true =>
    have := h.2 hpromoted
    rw [hpromoted] at this
    exact (wp_rollbackRestoreClickHouse this).mono (fun _ _ h => h.1) (fun _ => id)

end Placed

/-! ### Attempts -/

/-- What the operator is told. -/
inductive Report
  | completed
  | rolledBack
  | manualAction
  deriving DecidableEq, Repr

/-- The log server and the report of the cutover, once there is one. -/
structure Cutover (α : Type) where
  server : Server α
  report : Option Report

/-- One start of the control plane: what happens to each statement, and whether the rest of the
cutover goes through after a promotion. -/
structure Attempt where
  faults : List Fault
  keeps : Bool
  deriving DecidableEq, Repr

section Attempts

variable {α : Type} (intact : α → Bool) (names : DatabaseNames)

/-- A program of the log server within the cutover. -/
def onServer {β : Type} (p : Prog (Server α) β) : Prog (Cutover α) β :=
  p.zoom Cutover.server fun server s => { s with server := server }

/-- `failPendingOnlineRestore`, as far as the log server goes. -/
def failPending (clean : Bool) : Prog (Cutover α) Unit := do
  modify fun s => { s with report := some (if clean then .rolledBack else .manualAction) }
  if clean then
    let _ ← onServer (dropDatabase names.temporaryDatabase)
    pure ()
  else
    pure ()

/-- The promotion, and the rollback that trusts its flags when it or a later step fails. -/
def attempt (keeps : Bool) : Prog (Cutover α) Unit := do
  let promotion ← onServer (promoteRestoreClickHouse intact names)
  match promotion.error with
  | some error =>
    let undone ← onServer
      (rollbackRestoreClickHouse names promotion.promoted promotion.oldRenamed)
    failPending names (undone && !error.isManual)
  | none =>
    if keeps then
      modify fun s => { s with report := some .completed }
    else
      let undone ← onServer
        (rollbackRestoreClickHouse names promotion.promoted promotion.oldRenamed)
      failPending names undone

/-- A start of the control plane; nothing is attempted after a report. -/
def attemptStep (s : Cutover α) (a : Attempt) : Cutover α :=
  match s.report with
  | some _ => s
  | none => ((attempt intact names a.keeps).exec a.faults s).state

/-- The cutover of a restore that has been staged: the live database, if there is one, the
restored one under its temporary name, and any others. -/
def staged (original : Option α) (restored : α) (others : Server α) : Cutover α where
  server := fun name =>
    if name = names.temporaryDatabase then some restored
    else if name = names.database then original
    else if name = names.rollbackDatabase then none
    else others name
  report := none

variable (original : Option α) (restored : α)

/-- Success means that the restored content is live and the original kept, and a reported rollback
that the original content is live. -/
def Right (s : Cutover α) : Prop :=
  (s.report = some .completed → s.server names.database = some restored ∧
    s.server names.rollbackDatabase = original) ∧
  (s.report = some .rolledBack → s.server names.database = original)

instance [DecidableEq α] (s : Cutover α) : Decidable (Right names original restored s) :=
  inferInstanceAs (Decidable (_ ∧ _))

/-- The flags of the attempt describe the databases, or its error asks for an operator; and the
report of the attempt is right. -/
structure Promotes (s : Cutover α) (a : Attempt) : Prop where
  flags : ∀ promotion,
    ((promoteRestoreClickHouse intact names).exec a.faults s.server).result = some promotion →
    promotion.error.any RestoreError.isManual = false →
    Placed names original restored promotion.promoted promotion.oldRenamed
      ((promoteRestoreClickHouse intact names).exec a.faults s.server).state
  right : Right names original restored (attemptStep intact names s a)

/-- The next attempt finds the restored database under its temporary name and the rollback name
free. -/
def Untouched (s : Cutover α) : Prop :=
  s.report = none → (s.server names.temporaryDatabase).isSome ∧
    s.server names.rollbackDatabase = none

end Attempts

section Runs

variable {α : Type} {intact : α → Bool} {names : DatabaseNames} {original : Option α}
  {restored : α} {promoted oldRenamed : Bool} {s : Cutover α}

theorem wp_onServer {β : Type} {p : Prog (Server α) β} {Q : β → Cutover α → Prop}
    {C : Cutover α → Prop} :
    (onServer p).wp Q C s ↔
      p.wp (fun b server => Q b { s with server }) (fun server => C { s with server })
        s.server := by
  rw [onServer]
  exact wp_zoom (by intros; rfl) (by intros; rfl) rfl

/-- Without a report the databases are in a state a crash can leave. -/
def Tracked (names : DatabaseNames) (original : Option α) (restored : α) (s : Cutover α) :
    Prop :=
  s.report = none → Interrupted names original restored s.server

theorem staged_tracked (others : Server α) :
    Tracked names original restored (staged names original restored others) := by
  refine fun _ => ⟨false, false, ⟨?_, ?_, ?_⟩, by simp, by simp⟩
  · simp [staged]
  · simp [staged, names.temporary_ne.symm]
  · simp [staged, names.rollback_ne, names.rollback_ne_temporary]

theorem wp_failPending {clean : Bool} {P : Cutover α → Prop}
    (hmanual : clean = false → P { s with report := some .manualAction })
    (hclean : clean = true → ∀ server, server names.database = s.server names.database →
      P { server, report := some .rolledBack }) :
    (failPending names clean).wp (fun _ => P) P s := by
  cases clean with
  | false => simpa [failPending] using hmanual rfl
  | true =>
    have hkept := hclean rfl s.server rfl
    have hdropped := hclean rfl (Function.update s.server names.temporaryDatabase none)
      (Function.update_of_ne names.temporary_ne.symm _ _)
    simp [failPending, wp_onServer, dropDatabase, wp_request, hkept, hdropped]

theorem wp_attempt_tracked (h : Interrupted names original restored s.server) (keeps : Bool) :
    (attempt intact names keeps).wp (fun _ => Tracked names original restored)
      (Tracked names original restored) s := by
  rw [attempt, wp_bind, wp_onServer]
  refine (wp_promote_leaves h).mono (fun promotion server hleaves => ?_) fun _ h _ => h
  have hrollback : ∀ keep : Bool → Bool, (onServer (rollbackRestoreClickHouse names
      promotion.promoted promotion.oldRenamed) >>= fun undone =>
        failPending names (keep undone)).wp (fun _ => Tracked names original restored)
      (Tracked names original restored) { s with server := server } := by
    intro keep
    rw [wp_bind, wp_onServer]
    refine (wp_rollback_leaves hleaves).mono (fun undone server' _ => ?_) fun _ h _ => h
    exact wp_failPending (fun _ hnone => nomatch hnone) fun _ _ _ hnone => nomatch hnone
  cases herror : promotion.error with
  | some error => exact hrollback fun undone => undone && !error.isManual
  | none =>
    rw [wp_ite]
    refine ⟨fun _ => ?_, fun _ => hrollback id⟩
    exact wp_modify.mpr fun hnone => nomatch hnone

theorem attemptStep_tracked (s : Cutover α) (a : Attempt) (h : Tracked names original restored s) :
    Tracked names original restored (attemptStep intact names s a) := by
  unfold attemptStep
  split
  · exact h
  · rename_i hnone
    exact (wp_attempt_tracked (h hnone) a.keeps).state a.faults

/-- An attempt that finds the databases as the restore left them reports what is so. -/
theorem wp_attempt_right (h : Midway names original restored false false s.server)
    (hnone : s.report = none) (keeps : Bool) :
    (attempt intact names keeps).wp (fun _ => Right names original restored)
      (Right names original restored) s := by
  have hstop : ∀ server, Right names original restored { s with server := server } := by
    intro server
    simp [Right, hnone]
  rw [attempt, wp_bind, wp_onServer]
  refine (wp_promoteRestoreClickHouse h).mono (fun promotion server htells => ?_)
    fun server _ => hstop server
  have hfail : ∀ (undone : Bool) server',
      (undone = true → Midway names original restored false false server') →
      (failPending names undone).wp (fun _ => Right names original restored)
        (Right names original restored) { s with server := server' } := by
    intro undone server' hundone
    refine wp_failPending (fun _ => by simp [Right]) fun hclean server'' hkept => ?_
    have hcurrent : server' names.database = original := by simpa using (hundone hclean).current
    simp [Right, hkept, hcurrent]
  cases hmanual : promotion.error.any RestoreError.isManual with
  | true =>
    -- the error asks for an operator, and so does the report
    obtain ⟨error, herror, hmanual⟩ : ∃ error, promotion.error = some error ∧
        error.isManual = true := by
      cases herror : promotion.error <;> simp_all
    simp only [herror, hmanual, wp_bind, wp_onServer]
    refine (wp_rollback_leaves htells.leaves).mono (fun undone server' _ => ?_)
      fun server _ => hstop server
    simpa using hfail false server' (by simp)
  | false =>
    have hrollback := wp_rollbackRestoreClickHouse (htells.flags hmanual)
    cases herror : promotion.error with
    | some error =>
      have hplain : error.isManual = false := by simpa [herror] using hmanual
      simp only [hplain, wp_bind, wp_onServer]
      refine hrollback.mono (fun undone server' h => ?_) fun server _ => hstop server
      simpa using hfail undone server' h.2
    | none =>
      simp only [wp_ite, wp_bind, wp_onServer, wp_modify]
      refine ⟨fun _ => ?_, fun _ => hrollback.mono (fun undone server' h => ?_)
        fun server _ => hstop server⟩
      · have hplaced := htells.flags hmanual
        have hpromoted := htells.success herror
        have hold := hplaced.promoted_kept hpromoted
        have hcurrent := hplaced.current
        have hprevious := hplaced.previous
        rw [hpromoted] at hcurrent
        rw [hold] at hprevious
        cases original <;> simp_all [Right]
      · exact hfail undone server' h.2

theorem Midway.of_untouched (h : Midway names original restored promoted oldRenamed s.server)
    (htemporary : (s.server names.temporaryDatabase).isSome)
    (hrollback : s.server names.rollbackDatabase = none) :
    promoted = false ∧ oldRenamed = false := by
  constructor
  · by_contra hpromoted
    simp [h.temporary, hpromoted] at htemporary
  · by_contra hold
    have hsome := h.kept (by simpa using hold)
    rw [h.previous] at hrollback
    simp_all

/-- In the states a crash can leave, the next attempt can be trusted, whatever happens to its
statements, exactly if it finds the databases untouched. -/
theorem untouched_iff_promotes (h : Tracked names original restored s) :
    Untouched names s ↔
      (s.report = none → ∀ a, Promotes intact names original restored s a) := by
  refine forall_congr' fun hnone => ?_
  constructor
  · rintro ⟨htemporary, hrollback⟩ a
    obtain ⟨promoted, oldRenamed, hmidway⟩ := h hnone
    obtain ⟨rfl, rfl⟩ := hmidway.of_untouched htemporary hrollback
    refine ⟨fun promotion hresult hplain => ?_, ?_⟩
    · exact ((wp_promoteRestoreClickHouse hmidway).exec hresult).flags hplain |>.toPlaced
    · have hwp : (attempt intact names a.keeps).wp (fun _ => Right names original restored)
          (Right names original restored) s :=
        wp_attempt_right hmidway hnone a.keeps
      simpa [attemptStep, hnone] using hwp.state a.faults
  · intro hpromotes
    -- an attempt whose first look at the server fails says that nothing was renamed
    have hplaced : Placed names original restored false false s.server :=
      (hpromotes ⟨[.fails], true⟩).flags _ rfl rfl
    exact ⟨by simp [hplaced.temporary], by simpa using hplaced.previous⟩

/-- Along every run of attempts, each of which may fail or stop the process anywhere: all of them
find the databases untouched exactly if, in every state of the run, whatever the next attempt meets
its flags and its report are true. -/
theorem promotes_iff_untouched (intact : α → Bool) (names : DatabaseNames) (original : Option α)
    (restored : α) (others : Server α) (as : List Attempt) :
    Always (attemptStep intact names) (Untouched names) (staged names original restored others) as ↔
      Always (attemptStep intact names)
        (fun s => s.report = none → ∀ a, Promotes intact names original restored s a)
        (staged names original restored others) as :=
  always_congr (fun s a h => attemptStep_tracked s a h) (fun _ h => untouched_iff_promotes h)
    (staged_tracked others) as

/-- The process stops between the two renames.  The next attempt finds the rollback name taken,
undoes nothing and reports a rollback, and no database has the live name. -/
theorem stoppedBetweenRenames_rolledBack :
    let names := DatabaseNames.of "cdn_platform" "1"
    let crashed : Attempt := ⟨[.none, .none, .none, .none, .none, .stops], true⟩
    let s := run (attemptStep (fun _ => true) names) (staged names (some "old") "new" fun _ => none)
      [crashed, ⟨[], true⟩]
    s.report = some .rolledBack ∧ s.server "cdn_platform" = none ∧
      ¬ Right names (some "old") "new" s := by
  decide

end Runs

end SimpleCdn.Restore
