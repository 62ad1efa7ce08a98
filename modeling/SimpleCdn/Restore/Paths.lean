import Mathlib.Logic.Function.Basic
import SimpleCdn.Lib.Crash
import SimpleCdn.Lib.Transition
import SimpleCdn.Restore.Errors

/-!
# Swaps of live paths for staged ones

The cutover swaps five paths of the data directory, one after the other.  A swap renames the live
path to a backup (or leaves a marker when there is no live path), then the staged path to the live
one; when there is nothing staged the live path stays absent.  A swap that finds a backup or a
marker resumes an earlier one.  The rollback of a swap goes by the flags its own process has set.
-/

namespace SimpleCdn.Restore

open Crash Crash.Prog Transition

/-- A `restorePathSwap`: what its live, staged and backup paths hold, whether the absence marker
is there, and the flags of the process. -/
structure PathSwap (γ : Type) where
  live : Option γ
  staged : Option γ
  backup : Option γ
  marker : Bool
  hadLive : Bool
  absent : Bool
  installed : Bool
  deriving DecidableEq, Repr

section Swap

variable {γ : Type} (folder : γ → Bool)

/-- `os.Rename` onto what is there: a file is replaced, a directory is not. -/
def replaced (source target : Option γ) : Option (Option γ × Option γ) :=
  match source, target with
  | none, _ => none
  | some content, none => some (none, some content)
  | some content, some old => if folder old then none else some (none, some content)

@[simp] theorem replaced_free (content : γ) :
    replaced folder (some content) none = some (none, some content) := rfl

namespace PathSwap

/-- Rename of the live path to the backup. -/
def setAside (s : PathSwap γ) : Option (PathSwap γ) :=
  (replaced folder s.live s.backup).map fun moved =>
    { s with live := moved.1, backup := moved.2 }

/-- Rename of the staged path to the live one. -/
def install (s : PathSwap γ) : Option (PathSwap γ) :=
  (replaced folder s.staged s.live).map fun moved =>
    { s with staged := moved.1, live := moved.2 }

/-- Rename of the live path to the staged one. -/
def uninstall (s : PathSwap γ) : Option (PathSwap γ) :=
  (replaced folder s.live s.staged).map fun moved =>
    { s with live := moved.1, staged := moved.2 }

/-- Rename of the backup to the live path. -/
def putBack (s : PathSwap γ) : Option (PathSwap γ) :=
  (replaced folder s.backup s.live).map fun moved =>
    { s with backup := moved.1, live := moved.2 }

variable [DecidableEq γ]

/-- `restorePathSwap.apply` for the path `live`. -/
def apply (live : String) : Prog (PathSwap γ) (Option RestoreError) := do
  let some backupExists ← inspect fun s : PathSwap γ => s.backup.isSome
    | pure (some .operation)
  let some liveExists ← inspect fun s : PathSwap γ => s.live.isSome
    | pure (some .operation)
  let some stagedExists ← inspect fun s : PathSwap γ => s.staged.isSome
    | pure (some .operation)
  let some markerExists ← inspect fun s : PathSwap γ => s.marker
    | pure (some .operation)
  if backupExists = true ∧ markerExists = true then
    pure (some (.rollbackDataAndMarker live))
  else if backupExists = true ∨ markerExists = true then
    if stagedExists = false then
      if liveExists = false then
        pure (some (.stagedAndLiveMissing live))
      else
        modify fun s => { s with hadLive := backupExists, absent := markerExists, installed := true }
        pure none
    else if liveExists = true then
      match ← inspect fun s : PathSwap γ => decide (s.live = s.staged) with
      | none => pure (some (.compareFailed live))
      | some false => pure (some (.stagedAndLiveDiffer live))
      | some true =>
        modify fun s => { s with hadLive := backupExists, absent := markerExists, installed := true }
        if ← act fun s => some { s with staged := none } then
          pure none
        else
          pure (some (.duplicateKept live))
    else
      modify fun s => { s with hadLive := backupExists, absent := markerExists }
      finish
  else if liveExists = true then
    if ← act (setAside folder) then
      modify fun s => { s with hadLive := true }
      if stagedExists = true then finish else pure none
    else
      pure (some .operation)
  else if stagedExists = true then
    if ← act fun s => some { s with marker := true } then
      modify fun s => { s with absent := true }
      -- closing the marker may fail as well
      if ← act some then finish else pure (some .operation)
    else
      pure (some .operation)
  else
    pure none
where
  /-- The rename of the staged path, which ends every branch that has something staged. -/
  finish : Prog (PathSwap γ) (Option RestoreError) := do
    if ← act (install folder) then
      modify fun s => { s with installed := true }
      pure none
    else
      pure (some .operation)

omit [DecidableEq γ] in
/-- `restorePathSwap.rollback`; whether it went through. -/
def rollback : Prog (PathSwap γ) Bool := do
  if ← get fun s : PathSwap γ => s.installed then
    if ← act (uninstall folder) then putBackOld else pure false
  else
    putBackOld
where
  /-- The old content comes back to the live path, or the marker of its absence goes. -/
  putBackOld : Prog (PathSwap γ) Bool := do
    if ← get fun s : PathSwap γ => s.hadLive then
      act (putBack folder)
    else if ← get fun s : PathSwap γ => s.absent then
      act fun s => some { s with marker := false }
    else
      pure true

end PathSwap

end Swap

/-! ### How far a swap has come -/

section Stage

variable {γ : Type} {folder : γ → Bool} {original snapshot : Option γ}
  {s : PathSwap γ}

/-- A swap of a live path that held `original` for what the snapshot has: not begun, between its
two renames (or done, when there is nothing to install), or done.  Staging again puts a second copy
beside the live one. -/
inductive Stage (original snapshot : Option γ) (s : PathSwap γ) : Prop
  | untouched (live : s.live = original) (staged : s.staged = snapshot)
      (backup : s.backup = none) (marker : s.marker = false)
  | aside (begun : original.isSome ∨ snapshot.isSome) (live : s.live = none)
      (staged : s.staged = snapshot) (backup : s.backup = original)
      (marker : s.marker = original.isNone)
  | swapped (begun : snapshot.isSome) (live : s.live = snapshot)
      (staged : s.staged = none ∨ s.staged = snapshot) (backup : s.backup = original)
      (marker : s.marker = original.isNone)

/-- The process has recorded what has happened to the swap. -/
structure Recorded (s : PathSwap γ) : Prop where
  hadLive : s.hadLive = s.backup.isSome
  absent : s.absent = s.marker
  installed : s.installed = ((s.backup.isSome || s.marker) && s.live.isSome)

/-- The process knows nothing of the swap. -/
structure Unrecorded (s : PathSwap γ) : Prop where
  hadLive : s.hadLive = false
  absent : s.absent = false
  installed : s.installed = false

/-- What holds of every swap between two operations of a process. -/
structure Fit (original snapshot : Option γ) (s : PathSwap γ) : Prop where
  stage : Stage original snapshot s
  flags : Unrecorded s ∨ Recorded s

/-- A swap the process at hand has begun or not, without a second copy of what it installed. -/
structure Known (original snapshot : Option γ) (s : PathSwap γ) : Prop where
  stage : Stage original snapshot s
  recorded : Recorded s
  moved : s.installed = true → s.staged = none

/-- What a swap from scratch comes to. -/
structure Applied (original snapshot : Option γ) (error : Option RestoreError) (s : PathSwap γ) :
    Prop extends Known original snapshot s where
  done : error = none → s.live = snapshot

theorem Known.fit (h : Known original snapshot s) : Fit original snapshot s :=
  ⟨h.stage, .inr h.recorded⟩

theorem known_of_live_none (h : Stage original snapshot s) (hrecorded : Recorded s)
    (hlive : s.live = none) : Known original snapshot s :=
  ⟨h, hrecorded, fun hinstalled => by simp [hrecorded.installed, hlive] at hinstalled⟩

theorem wp_finish (hlive : s.live = none) (hbegun : snapshot.isSome)
    (hstaged : s.staged = snapshot) (hbackup : s.backup = original)
    (hmarker : s.marker = original.isNone) (hrecorded : Recorded s) :
    (PathSwap.apply.finish folder).wp (Applied original snapshot) (Stage original snapshot) s := by
  have haside : Stage original snapshot s := .aside (.inr hbegun) hlive hstaged hbackup hmarker
  obtain ⟨content, hcontent⟩ := Option.isSome_iff_exists.mp hbegun
  have hswapped : ∀ installed, Stage original snapshot
      { s with staged := none, live := some content, installed := installed } :=
    fun _ => .swapped hbegun hcontent.symm (.inl rfl) hbackup hmarker
  have hboth : (s.backup.isSome || s.marker) = true := by
    rw [hbackup, hmarker]
    cases original <;> rfl
  have hready := hstaged.trans hcontent
  simp only [PathSwap.apply.finish, PathSwap.install, hlive, hready, replaced, wp_bind,
    wp_act, wp_pure, wp_modify, Option.map_some, Option.some.injEq, Bool.false_eq_true, ↓reduceIte]
  refine ⟨⟨known_of_live_none haside hrecorded hlive, by simp⟩, haside, ?_⟩
  rintro _ rfl
  refine ⟨⟨⟨hswapped true, ⟨hrecorded.hadLive, hrecorded.absent, ?_⟩, fun _ => rfl⟩,
    fun _ => hcontent.symm⟩, hswapped _⟩
  simp [hboth]

/-- A swap that has not begun, with what the snapshot has staged for it. -/
structure Fresh (original snapshot : Option γ) (s : PathSwap γ) : Prop where
  live : s.live = original
  staged : s.staged = snapshot
  backup : s.backup = none
  marker : s.marker = false
  unrecorded : Unrecorded s

theorem Fresh.stage (h : Fresh original snapshot s) : Stage original snapshot s :=
  .untouched h.live h.staged h.backup h.marker

theorem Fresh.known (h : Fresh original snapshot s) : Known original snapshot s := by
  refine ⟨h.stage, ⟨?_, ?_, ?_⟩, fun hinstalled => ?_⟩
  · simp [h.unrecorded.hadLive, h.backup]
  · simp [h.unrecorded.absent, h.marker]
  · simp [h.unrecorded.installed, h.backup, h.marker]
  · simp [h.unrecorded.installed] at hinstalled

/-- In an untouched swap, recorded and unrecorded are the same. -/
theorem Fresh.of_flags (hlive : s.live = original) (hstaged : s.staged = snapshot)
    (hbackup : s.backup = none) (hmarker : s.marker = false)
    (hflags : Unrecorded s ∨ Recorded s) : Fresh original snapshot s := by
  refine ⟨hlive, hstaged, hbackup, hmarker, ?_⟩
  rcases hflags with h | h
  · exact h
  · exact ⟨by simp [h.hadLive, hbackup], by simp [h.absent, hmarker],
      by simp [h.installed, hbackup, hmarker]⟩

variable [DecidableEq γ]

/-- A swap from scratch. -/
theorem wp_apply_fresh (live : String) (h : Fresh original snapshot s) :
    (PathSwap.apply folder live).wp (Applied original snapshot) (Stage original snapshot) s := by
  have hstop := h.stage
  have hfailed : ∀ error, Applied original snapshot (some error) s :=
    fun _ => ⟨h.known, by simp⟩
  obtain ⟨hlive, hstaged, hbackup, hmarker, ⟨hhad, habsent, hinstalled⟩⟩ := h
  simp only [PathSwap.apply, wp_bind, wp_inspect, hbackup, hmarker]
  refine ⟨hfailed _, hstop, hfailed _, hstop, hfailed _, hstop, hfailed _, hstop, ?_⟩
  cases horiginal : original with
  | some content =>
    rw [horiginal] at hlive hstop hfailed
    have hthere : s.live.isSome = true := by rw [hlive]; rfl
    have haside : ∀ hadLive, Stage (some content) snapshot
        { s with live := none, backup := some content, hadLive := hadLive } :=
      fun _ => .aside (.inl rfl) rfl hstaged rfl hmarker
    have hrecorded : Recorded
        { s with live := none, backup := some content, hadLive := true } :=
      ⟨rfl, habsent.trans hmarker.symm, by simp [hinstalled]⟩
    have hrename : PathSwap.setAside folder s =
        some { s with live := none, backup := some content } := by
      simp [PathSwap.setAside, hlive, hbackup]
    simp only [Option.isSome_none, hthere, Bool.false_eq_true, and_self, or_self, ↓reduceIte,
      wp_bind, wp_act, hrename, Option.some.injEq, wp_pure, wp_modify]
    refine ⟨hfailed _, hstop, ?_⟩
    rintro _ rfl
    rw [wp_ite]
    refine ⟨⟨fun hsome => ?_, fun hnone => ?_⟩, haside _⟩
    · exact wp_finish rfl (hstaged ▸ hsome) hstaged rfl hmarker hrecorded
    · -- with nothing staged, the live path stays away
      refine ⟨known_of_live_none (haside true) hrecorded rfl, fun _ => ?_⟩
      rw [← hstaged]
      simpa using (Option.not_isSome_iff_eq_none.mp hnone).symm
  | none =>
    rw [horiginal] at hlive hstop hfailed
    have hgone : s.live.isSome = false := by rw [hlive]; rfl
    simp only [Option.isSome_none, hgone, Bool.false_eq_true, and_self, or_self, ↓reduceIte, wp_ite,
      wp_bind, wp_act, wp_pure, wp_modify, Option.some.injEq]
    refine ⟨fun hsome => ?_, fun hnone => ⟨(hfailed .operation).toKnown, fun _ => ?_⟩⟩
    · have hbegun : snapshot.isSome := hstaged ▸ hsome
      have haside : ∀ absent, Stage none snapshot { s with marker := true, absent := absent } :=
        fun _ => .aside (.inr hbegun) hlive hstaged hbackup rfl
      have hrecorded : Recorded { s with marker := true, absent := true } :=
        ⟨by simp [hhad, hbackup], rfl, by simp [hinstalled, hlive]⟩
      refine ⟨hfailed _, hstop, ?_⟩
      rintro _ rfl
      refine ⟨⟨⟨known_of_live_none (haside true) hrecorded hlive, by simp⟩, haside true, ?_⟩,
        haside _⟩
      rintro _ rfl
      exact ⟨wp_finish hlive hbegun hstaged hbackup rfl hrecorded, haside true⟩
    · rw [hlive, ← hstaged]
      exact (Option.not_isSome_iff_eq_none.mp hnone).symm

/-- A swap that resumes an earlier one. -/
theorem wp_apply_begun (live : String) (h : Fit original snapshot s) (hbackup : s.backup = original)
    (hmarker : s.marker = original.isNone) :
    (PathSwap.apply folder live).wp (fun _ => Fit original snapshot) (Stage original snapshot) s := by
  have hstop := h.stage
  have hnotBoth : ¬ (s.backup.isSome = true ∧ s.marker = true) := by
    rw [hbackup, hmarker]; cases original <;> simp
  have hbegun : s.backup.isSome = true ∨ s.marker = true := by
    rw [hbackup, hmarker]; cases original <;> simp
  have hboth : (s.backup.isSome || s.marker) = true := by simpa using hbegun
  simp only [PathSwap.apply, wp_bind, wp_inspect]
  refine ⟨h, hstop, h, hstop, h, hstop, h, hstop, ?_⟩
  simp only [if_neg hnotBoth, if_pos hbegun, wp_ite, wp_pure, wp_bind, wp_modify]
  -- recording what is there, with the live path installed or not
  have hrecord : ∀ installed, Stage original snapshot
      { s with hadLive := s.backup.isSome, absent := s.marker, installed := installed } := by
    intro installed
    cases hstop with
    | untouched a b c d => exact .untouched a b c d
    | aside a b c d e => exact .aside a b c d e
    | swapped a b c d e => exact .swapped a b c d e
  have hrecorded : s.live.isSome = true → Recorded
      { s with hadLive := s.backup.isSome, absent := s.marker, installed := true } :=
    fun hthere => ⟨rfl, rfl, by simp [hboth, hthere]⟩
  refine ⟨fun _ => ⟨fun _ => h, fun hthere => ?_⟩, fun hsome => ⟨fun hthere => ?_, fun hgone => ?_⟩⟩
  · have hthere : s.live.isSome = true := eq_true_of_ne_false hthere
    exact ⟨hrecord true, .inr (hrecorded hthere)⟩
  · have hdone := hrecorded hthere
    have hremoved : Stage original snapshot { s with
        staged := none, hadLive := s.backup.isSome, absent := s.marker, installed := true } := by
      cases hstop with
      | untouched hlive hstaged hnone hfalse => simp [hnone, hfalse] at hbegun
      | aside _ hlive => simp [hlive] at hthere
      | swapped a b _ d e => exact .swapped a b (.inl rfl) d e
    rw [wp_inspect]
    refine ⟨h, hstop, ?_⟩
    cases decide (s.live = s.staged) with
    | false => exact h
    | true =>
      simp only [wp_bind, wp_modify, wp_act, wp_pure, Bool.false_eq_true, ↓reduceIte,
        Option.some.injEq]
      refine ⟨⟨hrecord true, .inr hdone⟩, hrecord true, ?_⟩
      rintro _ rfl
      exact ⟨⟨hremoved, .inr ⟨hdone.hadLive, hdone.absent, hdone.installed⟩⟩, hremoved⟩
  · have hlive : s.live = none := by simpa using hgone
    have hinstalled : s.installed = false := by
      rcases h.flags with hflags | hflags
      · exact hflags.installed
      · simp [hflags.installed, hlive]
    have hstaged : s.staged = snapshot := by
      cases hstop with
      | untouched _ hstaged => exact hstaged
      | aside _ _ hstaged => exact hstaged
      | swapped hsnapshot hl => simp [← hl, hlive] at hsnapshot
    have hsome : s.staged.isSome = true := eq_true_of_ne_false hsome
    have hnow : Recorded { s with hadLive := s.backup.isSome, absent := s.marker } :=
      ⟨rfl, rfl, by simp [hlive, hinstalled]⟩
    have hfinish : (PathSwap.apply.finish folder).wp (Applied original snapshot)
        (Stage original snapshot)
        { s with hadLive := s.backup.isSome, absent := s.marker } :=
      wp_finish hlive (hstaged ▸ hsome) hstaged hbackup hmarker hnow
    exact hfinish.mono (fun _ _ h => h.fit) fun _ h => h

/-- Whatever fails or stops it, a swap leaves its paths at one of the three stages, and a process
that goes on has recorded what it did. -/
theorem wp_apply (live : String) (h : Fit original snapshot s) :
    (PathSwap.apply folder live).wp (fun _ => Fit original snapshot) (Stage original snapshot) s := by
  cases h.stage with
  | untouched hlive hstaged hbackup hmarker =>
    exact (wp_apply_fresh live (.of_flags hlive hstaged hbackup hmarker h.flags)).mono
      (fun _ _ h => h.fit) fun _ h => h
  | aside _ _ _ hbackup hmarker => exact wp_apply_begun live h hbackup hmarker
  | swapped _ _ _ hbackup hmarker => exact wp_apply_begun live h hbackup hmarker

/-! ### Undoing a swap -/

omit [DecidableEq γ] in
theorem replaced_of_not_folder {content : γ} {target : Option γ}
    (h : target.all fun old => !folder old) :
    replaced folder (some content) target = some (none, some content) := by
  cases target with
  | none => rfl
  | some old => simp_all [replaced]

omit [DecidableEq γ] in
/-- The second half of a rollback, from a swap that is set aside. -/
theorem wp_putBackOld (hlive : s.live = none) (hstaged : s.staged = snapshot)
    (hbackup : s.backup = original) (hmarker : s.marker = original.isNone)
    (hbegun : original.isSome ∨ snapshot.isSome) (hhad : s.hadLive = original.isSome)
    (habsent : s.absent = original.isNone) :
    (PathSwap.rollback.putBackOld folder).wp (fun _ => Stage original snapshot)
      (Stage original snapshot) s := by
  have haside : Stage original snapshot s := .aside hbegun hlive hstaged hbackup hmarker
  cases original with
  | none =>
    have hcleared : ∀ hadLive absent, Stage none snapshot
        { s with marker := false, hadLive := hadLive, absent := absent } :=
      fun _ _ => .untouched hlive hstaged hbackup rfl
    simp [PathSwap.rollback.putBackOld, hhad, habsent, wp_act, haside, hcleared]
  | some content =>
    have hback : ∀ hadLive, Stage (some content) snapshot
        { s with backup := none, live := some content, hadLive := hadLive } :=
      fun _ => .untouched rfl hstaged rfl hmarker
    simp [PathSwap.rollback.putBackOld, hhad, wp_act, haside, hback, PathSwap.putBack, hbackup,
      hlive]

omit [DecidableEq γ] in
/-- A rollback as well leaves its paths at one of the three stages. -/
theorem wp_rollback (h : Fit original snapshot s) :
    (PathSwap.rollback folder).wp (fun _ => Stage original snapshot) (Stage original snapshot)
      s := by
  have hstop := h.stage
  rcases h.flags with hflags | hflags
  · simpa [PathSwap.rollback, PathSwap.rollback.putBackOld, hflags.hadLive, hflags.absent,
      hflags.installed] using hstop
  · cases h.stage with
    | untouched hlive hstaged hbackup hmarker =>
      simpa [PathSwap.rollback, PathSwap.rollback.putBackOld, hflags.hadLive, hflags.absent,
        hflags.installed, hbackup, hmarker] using hstop
    | aside hbegun hlive hstaged hbackup hmarker =>
      have hinstalled : s.installed = false := by simp [hflags.installed, hlive]
      have hback : (PathSwap.rollback.putBackOld folder).wp (fun _ => Stage original snapshot)
          (Stage original snapshot) s :=
        wp_putBackOld hlive hstaged hbackup hmarker hbegun (by rw [hflags.hadLive, hbackup])
          (by rw [hflags.absent, hmarker])
      simpa [PathSwap.rollback, hinstalled] using hback
    | swapped hsnapshot hlive hstaged hbackup hmarker =>
      have hboth : (s.backup.isSome || s.marker) = true := by
        rw [hbackup, hmarker]; cases original <;> rfl
      have hinstalled : s.installed = true := by
        rw [hflags.installed, hboth, hlive]; exact hsnapshot
      simp only [PathSwap.rollback, wp_bind, wp_get, hinstalled, wp_act, ↓reduceIte, wp_pure,
        Bool.false_eq_true]
      refine ⟨hstop, hstop, fun s' hs' => ?_⟩
      -- what was staged a second time is what is live
      obtain ⟨moved, hmoved, rfl⟩ := Option.map_eq_some_iff.mp hs'
      obtain ⟨content, rfl⟩ := Option.isSome_iff_exists.mp hsnapshot
      obtain ⟨hfirst, hsecond⟩ : moved.1 = none ∧ moved.2 = some content := by
        rw [hlive] at hmoved
        unfold replaced at hmoved
        split at hmoved <;> simp_all
        · simp [← hmoved]
        · obtain ⟨-, rfl⟩ := hmoved
          simp
      refine ⟨wp_putBackOld hfirst hsecond hbackup hmarker (.inr rfl) ?_ ?_,
        .aside (.inr rfl) hfirst hsecond hbackup hmarker⟩
      · rw [hflags.hadLive, hbackup]
      · rw [hflags.absent, hmarker]

omit [DecidableEq γ] in
/-- A rollback that goes through restores a swap the process knows. -/
theorem wp_rollback_known (h : Known original snapshot s) :
    (PathSwap.rollback folder).wp (fun ok s' => ok = true → s'.live = original) (fun _ => True)
      s := by
  obtain ⟨hstage, hrecorded, hmoved⟩ := h
  have hback : ∀ s' : PathSwap γ, s'.live = none → s'.backup = original →
      s'.hadLive = original.isSome → s'.absent = original.isNone →
      (PathSwap.rollback.putBackOld folder).wp (fun ok s' => ok = true → s'.live = original)
        (fun _ => True) s' := by
    intro s' hlive hbackup hhad habsent
    cases original with
    | none => simp [PathSwap.rollback.putBackOld, hhad, habsent, wp_act, hlive]
    | some content =>
      simp [PathSwap.rollback.putBackOld, hhad, wp_act, PathSwap.putBack, hbackup, hlive]
  cases hstage with
  | untouched hlive hstaged hbackup hmarker =>
    simp [PathSwap.rollback, PathSwap.rollback.putBackOld, hrecorded.hadLive, hrecorded.absent,
      hrecorded.installed, hbackup, hmarker, hlive]
  | aside hbegun hlive hstaged hbackup hmarker =>
    have hinstalled : s.installed = false := by simp [hrecorded.installed, hlive]
    have := hback s hlive hbackup (by rw [hrecorded.hadLive, hbackup])
      (by rw [hrecorded.absent, hmarker])
    simpa [PathSwap.rollback, hinstalled] using this
  | swapped hsnapshot hlive hstaged hbackup hmarker =>
    obtain ⟨content, rfl⟩ := Option.isSome_iff_exists.mp hsnapshot
    have hinstalled : s.installed = true := by
      rw [hrecorded.installed, hbackup, hmarker, hlive]
      cases original <;> rfl
    have hrename : PathSwap.uninstall folder s =
        some { s with live := none, staged := some content } := by
      simp [PathSwap.uninstall, hlive, hmoved hinstalled]
    simp only [PathSwap.rollback, wp_bind, wp_get, hinstalled, wp_act, hrename, ↓reduceIte, wp_pure,
      Bool.false_eq_true, Option.some.injEq]
    refine ⟨by simp, trivial, ?_⟩
    rintro _ rfl
    exact ⟨hback _ rfl hbackup (by rw [hrecorded.hadLive, hbackup])
      (by rw [hrecorded.absent, hmarker]), trivial⟩

/-! ### Swaps without a fault -/

/-- A live path that was set aside, with nothing to take its place. -/
def Stuck (s : PathSwap γ) : Prop :=
  s.backup.isSome ∧ s.live = none ∧ s.staged = none

/-- A swap that is not stuck goes through to its end. -/
theorem ends_apply (live : String) (h : Stage original snapshot s) (hstuck : ¬ Stuck s) :
    (PathSwap.apply folder live).ends (fun error s' => error = none ∧ s'.live = snapshot) s := by
  obtain ⟨current, staged, backup, marker, hadLive, absent, installed⟩ := s
  cases h with
  | untouched hlive hstaged hbackup hmarker =>
    simp only at hlive hstaged hbackup hmarker
    subst hlive hstaged hbackup hmarker
    cases current <;> cases staged <;>
      simp [PathSwap.apply, PathSwap.apply.finish, PathSwap.setAside, PathSwap.install]
  | aside hbegun hlive hstaged hbackup hmarker =>
    simp only at hlive hstaged hbackup hmarker
    subst hlive hstaged hbackup hmarker
    cases staged with
    | none =>
      -- with nothing staged, a live path that is set aside is stuck
      exact absurd ⟨by simpa using hbegun, rfl, rfl⟩ hstuck
    | some content =>
      cases backup <;>
        simp [PathSwap.apply, PathSwap.apply.finish, PathSwap.install]
  | swapped hsnapshot hlive hstaged hbackup hmarker =>
    simp only at hlive hstaged hbackup hmarker
    obtain ⟨content, rfl⟩ := Option.isSome_iff_exists.mp hsnapshot
    subst hlive hbackup hmarker
    rcases hstaged with rfl | rfl <;> cases backup <;> simp [PathSwap.apply]

theorem ends_apply_stuck (live : String) (h : Stage original snapshot s) (hstuck : Stuck s) :
    (PathSwap.apply folder live).ends
      (fun error _ => error = some (.stagedAndLiveMissing live)) s := by
  obtain ⟨hbackup, hlive, hstaged⟩ := hstuck
  have hmarker : s.marker = false := by
    cases h with
    | untouched _ _ hnone => simp [hnone] at hbackup
    | aside _ _ _ hold hmarker =>
      rw [hmarker, ← hold]
      simpa using hbackup
    | swapped hsnapshot hl => simp [← hl, hlive] at hsnapshot
  simp [PathSwap.apply, hbackup, hlive, hstaged, hmarker]

omit [DecidableEq γ] in
/-- A rollback of what the process has recorded puts the old content back, unless a second copy in
the staging directory is in the way. -/
theorem ends_rollback (h : Stage original snapshot s) (hrecorded : Recorded s)
    (hfree : s.installed = true → s.staged.all fun old => !folder old) :
    (PathSwap.rollback folder).ends (fun _ s' => s'.live = original) s := by
  obtain ⟨current, staged, backup, marker, hadLive, absent, installed⟩ := s
  obtain ⟨hhad, habsent, hinstalled⟩ := hrecorded
  simp only at hhad habsent hinstalled hfree
  subst hhad habsent hinstalled
  cases h with
  | untouched hlive hstaged hbackup hmarker =>
    simp only at hlive hstaged hbackup hmarker
    subst hlive hstaged hbackup hmarker
    simp [PathSwap.rollback, PathSwap.rollback.putBackOld]
  | aside hbegun hlive hstaged hbackup hmarker =>
    simp only at hlive hstaged hbackup hmarker
    subst hlive hstaged hbackup hmarker
    cases backup <;>
      simp [PathSwap.rollback, PathSwap.rollback.putBackOld, PathSwap.putBack]
  | swapped hsnapshot hlive hstaged hbackup hmarker =>
    simp only at hlive hstaged hbackup hmarker
    obtain ⟨content, rfl⟩ := Option.isSome_iff_exists.mp hsnapshot
    subst hlive hbackup hmarker
    have hmoved : replaced folder (some content) staged = some (none, some content) :=
      replaced_of_not_folder (hfree (by cases backup <;> rfl))
    cases backup <;>
      simp [PathSwap.rollback, PathSwap.rollback.putBackOld, PathSwap.putBack,
        PathSwap.uninstall, hmoved]

omit [DecidableEq γ] in
theorem ends_rollback_blocked (hinstalled : s.installed = true)
    (hblocked : ¬ s.staged.all fun old => !folder old) :
    (PathSwap.rollback folder).ends (fun _ s' => s' = s) s := by
  have hrefused : PathSwap.uninstall folder s = none := by
    cases hstaged : s.staged with
    | none => simp [hstaged] at hblocked
    | some old =>
      cases hlive : s.live <;> simp_all [PathSwap.uninstall, replaced]
  simp [PathSwap.rollback, hinstalled, hrefused]

omit [DecidableEq γ] in
/-- A process that knows nothing of the swap undoes nothing. -/
theorem ends_rollback_unrecorded (h : Unrecorded s) :
    (PathSwap.rollback folder).ends (fun _ s' => s' = s) s := by
  simp [PathSwap.rollback, PathSwap.rollback.putBackOld, h.hadLive, h.absent, h.installed]

/-- What the live path held, as the backup and the marker tell. -/
def PathSwap.previous (s : PathSwap γ) : Option γ :=
  if s.marker then none else s.backup.or s.live

omit [DecidableEq γ] in
theorem Stage.previous (h : Stage original snapshot s) : s.previous = original := by
  cases h with
  | untouched hlive _ hbackup hmarker => simp [PathSwap.previous, hlive, hbackup, hmarker]
  | aside _ hlive _ hbackup hmarker =>
    cases original <;> simp [PathSwap.previous, hlive, hbackup, hmarker]
  | swapped _ _ _ hbackup hmarker =>
    cases original <;> simp [PathSwap.previous, hbackup, hmarker]

/-- The process can undo the swap: it has recorded it and no second copy is in the way; or there is
nothing to undo. -/
def Undoable (folder : γ → Bool) (s : PathSwap γ) : Prop :=
  (Recorded s ∧ (s.installed = true → s.staged.all fun old => !folder old)) ∨
    s.live = s.previous

omit [DecidableEq γ] in
/-- The rollback of a swap restores its live path exactly if the process can undo the swap. -/
theorem undoable_iff (h : Fit original snapshot s) :
    Undoable folder s ↔
      (PathSwap.rollback folder).ends (fun _ s' => s'.live = original) s := by
  rw [Undoable, h.stage.previous]
  by_cases hfree : s.installed = true → s.staged.all fun old => !folder old
  · rcases h.flags with hflags | hflags
    · have hsame : (PathSwap.rollback folder).ends (fun _ s' => s' = s) s :=
        ends_rollback_unrecorded hflags
      constructor
      · rintro (⟨hrecorded, -⟩ | hlive)
        · exact ends_rollback h.stage hrecorded hfree
        · exact hsame.mono fun _ s' hs' => hs' ▸ hlive
      · intro hends
        obtain ⟨_, s', hlive, rfl⟩ := hends.and hsame
        exact .inr hlive
    · exact ⟨fun _ => ends_rollback h.stage hflags hfree, fun _ => .inl ⟨hflags, hfree⟩⟩
  · -- the rename of the live path back is refused, and nothing changes
    obtain ⟨hinstalled, hblocked⟩ := Classical.not_imp.mp hfree
    have hsame : (PathSwap.rollback folder).ends (fun _ s' => s' = s) s :=
      ends_rollback_blocked hinstalled hblocked
    constructor
    · rintro (⟨-, hfree'⟩ | hlive)
      · exact absurd hfree' hfree
      · exact hsame.mono fun _ s' hs' => hs' ▸ hlive
    · intro hends
      obtain ⟨_, s', hlive, rfl⟩ := hends.and hsame
      exact .inr hlive

end Stage

/-! ### The five swaps of a cutover -/

/-- The swaps of the data directory by the name of the live path. -/
abbrev Paths (γ : Type) := String → PathSwap γ

/-- The live paths in the order of the cutover. -/
def restoreSwaps : List String :=
  ["control.db-wal", "control.db-shm", "control.db", "pki", "letsencrypt"]

section Programs

variable {γ : Type} (folder : γ → Bool)

/-- A program of one swap. -/
def atSwap {β : Type} (name : String) (p : Prog (PathSwap γ) β) : Prog (Paths γ) β :=
  p.zoom (fun paths => paths name) fun s paths => Function.update paths name s

/-- How far the swaps have come: the error with the swap it is of, and the swaps completed, the
last one first. -/
structure Swapped where
  error : Option RestoreError
  current : List String
  completed : List String
  deriving DecidableEq, Repr

/-- The swaps in order, up to the first error. -/
def applySwaps [DecidableEq γ] (completed : List String) :
    List String → Prog (Paths γ) Swapped
  | [] => pure ⟨none, [], completed⟩
  | name :: rest => do
    match ← atSwap name (PathSwap.apply folder name) with
    | some error => pure ⟨some error, [name], completed⟩
    | none => applySwaps (name :: completed) rest

/-- The rollback of the swaps in the order given; whether all went through. -/
def rollbackSwaps (order : List String) : Prog (Paths γ) Bool :=
  all (fun name => atSwap name (PathSwap.rollback folder)) order

variable {folder} {paths : Paths γ} {name : String}

theorem wp_atSwap {β : Type} {p : Prog (PathSwap γ) β} {Q : β → Paths γ → Prop}
    {C : Paths γ → Prop} :
    (atSwap name p).wp Q C paths ↔ p.wp (fun b s => Q b (Function.update paths name s))
      (fun s => C (Function.update paths name s)) (paths name) := by
  rw [atSwap]
  exact wp_zoom (by intros; simp) (by intros; simp) (by simp)

theorem ends_atSwap {β : Type} {p : Prog (PathSwap γ) β} {Q : β → Paths γ → Prop} :
    (atSwap name p).ends Q paths ↔
      p.ends (fun b s => Q b (Function.update paths name s)) (paths name) := by
  rw [atSwap]
  exact Prog.ends_zoom (by intros; simp) (by intros; simp) (by simp)

variable {original snapshot : String → Option γ}

theorem forall_update {P : String → PathSwap γ → Prop} (h : ∀ name, P name (paths name))
    {s : PathSwap γ} (hs : P name s) (name' : String) :
    P name' (Function.update paths name s name') := by
  by_cases hname : name' = name
  · subst hname; simpa using hs
  · simpa [Function.update_of_ne hname] using h name'

variable (folder) in
theorem wp_applySwaps [DecidableEq γ] (completed order : List String)
    (h : ∀ name, Fit (original name) (snapshot name) (paths name)) :
    (applySwaps folder completed order).wp
      (fun _ paths => ∀ name, Fit (original name) (snapshot name) (paths name))
      (fun paths => ∀ name, Stage (original name) (snapshot name) (paths name)) paths := by
  induction order generalizing paths completed with
  | nil => exact h
  | cons name rest ih =>
    rw [applySwaps, wp_bind, wp_atSwap]
    refine (wp_apply name (h name)).mono (fun error s hs => ?_) fun s hs => ?_
    · have hfit := forall_update (P := fun name => Fit (original name) (snapshot name)) h hs
      cases error with
      | some error => exact hfit
      | none => exact ih _ hfit
    · exact forall_update (P := fun name => Stage (original name) (snapshot name))
        (fun name => (h name).stage) hs

variable (folder) in
/-- The rollback of the swaps needs nothing of the flags after it has begun: what it leaves are
stages again. -/
theorem wp_rollbackSwaps (order : List String) (hnodup : order.Nodup)
    (hstage : ∀ name, Stage (original name) (snapshot name) (paths name))
    (h : ∀ name ∈ order, Fit (original name) (snapshot name) (paths name)) :
    (rollbackSwaps folder order).wp
      (fun _ paths => ∀ name, Stage (original name) (snapshot name) (paths name))
      (fun paths => ∀ name, Stage (original name) (snapshot name) (paths name)) paths := by
  induction order generalizing paths with
  | nil => exact hstage
  | cons name rest ih =>
    obtain ⟨hnotin, hnodup⟩ := List.nodup_cons.mp hnodup
    have hafter := fun s (hs : Stage (original name) (snapshot name) s) =>
      forall_update (P := fun name => Stage (original name) (snapshot name)) hstage hs
    rw [rollbackSwaps, all, wp_bind, wp_atSwap]
    refine (wp_rollback (h name List.mem_cons_self)).mono (fun undone s hs => ?_) hafter
    rw [wp_bind]
    refine (ih hnodup (hafter s hs) fun other hother => ?_).mono (fun _ _ h => h) fun _ h => h
    rw [Function.update_of_ne (ne_of_mem_of_not_mem hother hnotin)]
    exact h other (List.mem_cons_of_mem _ hother)

/-- Rolling back the swaps `names` restores every live path. -/
structure Undo (original snapshot : String → Option γ) (names : List String)
    (paths : Paths γ) : Prop where
  nodup : names.Nodup
  known : ∀ name ∈ names, Known (original name) (snapshot name) (paths name)
  others : ∀ name ∉ names, (paths name).live = original name

variable (folder) in
/-- Whatever a process has swapped from scratch, it can undo; and without an error everything is
swapped. -/
theorem wp_applySwaps_fresh [DecidableEq γ] {completed order : List String}
    (hnodup : (order ++ completed).Nodup)
    (hfresh : ∀ name ∈ order, Fresh (original name) (snapshot name) (paths name))
    (hundo : Undo original snapshot completed paths)
    (hdone : ∀ name ∈ completed, (paths name).live = snapshot name) :
    (applySwaps folder completed order).wp (fun swapped paths' =>
      Undo original snapshot (swapped.current ++ swapped.completed) paths' ∧
      (swapped.error = none → swapped.current = [] ∧
        ∀ name ∈ order ++ completed, (paths' name).live = snapshot name)) (fun _ => True) paths := by
  induction order generalizing paths completed with
  | nil => exact ⟨hundo, fun _ => ⟨rfl, hdone⟩⟩
  | cons name rest ih =>
    obtain ⟨hnotin, hnodup'⟩ := List.nodup_cons.mp hnodup
    have hnotRest : name ∉ rest := fun h => hnotin (List.mem_append_left _ h)
    have hnotDone : name ∉ completed := fun h => hnotin (List.mem_append_right _ h)
    rw [applySwaps, wp_bind, wp_atSwap]
    refine (wp_apply_fresh name (hfresh name List.mem_cons_self)).mono (fun error s hs => ?_)
      fun _ _ => trivial
    have hsame : ∀ other, other ≠ name → Function.update paths name s other = paths other :=
      fun other hother => Function.update_of_ne hother _ _
    have hundo' : Undo original snapshot (name :: completed) (Function.update paths name s) := by
      refine ⟨List.nodup_cons.mpr ⟨hnotDone, hundo.nodup⟩, ?_, fun other hother => ?_⟩
      · rw [List.forall_mem_cons]
        refine ⟨by simpa using hs.toKnown, fun other hother => ?_⟩
        rw [hsame other (ne_of_mem_of_not_mem hother hnotDone)]
        exact hundo.known other hother
      · rw [List.mem_cons, not_or] at hother
        rw [hsame other hother.1]
        exact hundo.others other hother.2
    cases error with
    | some error => exact ⟨hundo', by simp⟩
    | none =>
      have hfresh' : ∀ other ∈ rest, Fresh (original other) (snapshot other)
          (Function.update paths name s other) := by
        intro other hother
        rw [hsame other (ne_of_mem_of_not_mem hother hnotRest)]
        exact hfresh other (List.mem_cons_of_mem _ hother)
      have hdone' : ∀ other ∈ name :: completed,
          (Function.update paths name s other).live = snapshot other := by
        rw [List.forall_mem_cons]
        refine ⟨by simpa using hs.done rfl, fun other hother => ?_⟩
        rw [hsame other (ne_of_mem_of_not_mem hother hnotDone)]
        exact hdone other hother
      have hnext := ih (List.perm_middle.nodup_iff.mpr hnodup) hfresh' hundo' hdone'
      refine hnext.mono (fun swapped paths' ⟨hall, hnone⟩ => ⟨hall, fun h => ?_⟩) fun _ h => h
      refine ⟨(hnone h).1, fun other hother => (hnone h).2 other ?_⟩
      exact List.perm_middle.symm.subset hother

variable (folder) in
/-- The rollback of the first of the swaps to undo leaves the others to undo. -/
theorem wp_rollbackSwaps_undo {names rest : List String}
    (h : Undo original snapshot (names ++ rest) paths) :
    (rollbackSwaps folder names).wp
      (fun ok paths' => ok = true → Undo original snapshot rest paths') (fun _ => True) paths := by
  refine wp_all (fun names paths => Undo original snapshot (names ++ rest) paths) ?_ h
  intro name names paths h
  obtain ⟨hnotin, hnodup⟩ := List.nodup_cons.mp h.nodup
  rw [wp_atSwap]
  refine (wp_rollback_known (h.known name List.mem_cons_self)).mono (fun ok s hs hok => ?_)
    fun _ h => h
  refine ⟨hnodup, fun other hother => ?_, fun other hother => ?_⟩
  · rw [Function.update_of_ne (ne_of_mem_of_not_mem hother hnotin)]
    exact h.known other (List.mem_cons_of_mem _ hother)
  · by_cases hname : other = name
    · subst hname
      simpa using hs hok
    · rw [Function.update_of_ne hname]
      exact h.others other (by simpa [hname] using hother)

variable (folder) in
/-- Without a fault the swaps go through exactly if none is stuck, and then every live path holds
what the snapshot has for it. -/
theorem ends_applySwaps [DecidableEq γ] (completed order : List String) (hnodup : order.Nodup)
    (h : ∀ name ∈ order, Stage (original name) (snapshot name) (paths name)) :
    (applySwaps folder completed order).ends (fun swapped paths' =>
      (swapped.error = none ↔ ∀ name ∈ order, ¬ Stuck (paths name)) ∧
      (swapped.error = none → ∀ name ∈ order, (paths' name).live = snapshot name) ∧
      ∀ name ∉ order, paths' name = paths name) paths := by
  induction order generalizing paths completed with
  | nil => simp [applySwaps]
  | cons name rest ih =>
    obtain ⟨hnotin, hnodup⟩ := List.nodup_cons.mp hnodup
    have hne : ∀ other ∈ rest, other ≠ name := fun other hother =>
      ne_of_mem_of_not_mem hother hnotin
    rw [applySwaps, Prog.ends_bind, ends_atSwap]
    by_cases hstuck : Stuck (paths name)
    · refine (ends_apply_stuck name (h name List.mem_cons_self) hstuck).mono ?_
      rintro _ s rfl
      refine ⟨by simp [hstuck], by simp, fun other hother => ?_⟩
      rw [Function.update_of_ne (by simp_all)]
    · refine (ends_apply name (h name List.mem_cons_self) hstuck).mono ?_
      rintro _ s ⟨rfl, hlive⟩
      have hrest := ih (name :: completed) hnodup (fun other hother =>
        (Function.update_of_ne (hne other hother) s paths).symm ▸
          h other (List.mem_cons_of_mem _ hother))
      refine hrest.mono fun error paths' ⟨hiff, hdone, hframe⟩ => ?_
      have hsame : ∀ other ∈ rest, Function.update paths name s other = paths other :=
        fun other hother => Function.update_of_ne (hne other hother) _ _
      refine ⟨?_, fun hnone => ?_, fun other hother => ?_⟩
      · rw [hiff, List.forall_mem_cons]
        constructor
        · exact fun hall => ⟨hstuck, fun other hother => hsame other hother ▸ hall other hother⟩
        · exact fun hall other hother => (hsame other hother).symm ▸ hall.2 other hother
      · rw [List.forall_mem_cons]
        refine ⟨?_, hdone hnone⟩
        rw [hframe name hnotin]
        simpa using hlive
      · rw [hframe other (by simp_all), Function.update_of_ne (by simp_all)]

/-- A rollback without a fault comes to its end. -/
theorem rollback_ends (s : PathSwap γ) : (PathSwap.rollback folder).ends
    (fun _ s' => s' = ((PathSwap.rollback folder).exec [] s).state) s := by
  have hback : ∀ s, (PathSwap.rollback.putBackOld folder).ends (fun _ _ => True) s := by
    intro s
    simp only [PathSwap.rollback.putBackOld, Prog.ends_bind, Prog.ends_get, Prog.ends_ite,
      Prog.ends_act, Prog.ends_pure]
    repeat' split
    all_goals trivial
  have htrue : (PathSwap.rollback folder).ends (fun _ _ => True) s := by
    simp only [PathSwap.rollback, Prog.ends_bind, Prog.ends_get, Prog.ends_ite, Prog.ends_act, Prog.ends_pure]
    repeat' split
    all_goals first | exact hback _ | trivial
  obtain ⟨b, hresult, -⟩ := Prog.ends_iff.mp htrue
  exact Prog.ends_iff.mpr ⟨b, hresult, rfl⟩

variable (folder) in
/-- Each swap ends where its own rollback leaves it. -/
theorem ends_rollbackSwaps (order : List String) (hnodup : order.Nodup) :
    (rollbackSwaps folder order).ends (fun _ paths' =>
      (∀ name ∈ order, paths' name = ((PathSwap.rollback folder).exec [] (paths name)).state) ∧
      ∀ name ∉ order, paths' name = paths name) paths := by
  induction order generalizing paths with
  | nil => simp [rollbackSwaps, all, ends]
  | cons name rest ih =>
    obtain ⟨hnotin, hnodup⟩ := List.nodup_cons.mp hnodup
    rw [rollbackSwaps, all, Prog.ends_bind, ends_atSwap]
    refine (rollback_ends (paths name)).mono ?_
    rintro undone s rfl
    rw [Prog.ends_bind]
    refine (ih hnodup).mono fun others paths' hothers => ?_
    obtain ⟨hrest, hframe⟩ := hothers
    rw [Prog.ends_pure, List.forall_mem_cons]
    refine ⟨⟨?_, fun other hother => ?_⟩, fun other hother => ?_⟩
    · rw [hframe name hnotin, Function.update_self]
    · rw [hrest other hother, Function.update_of_ne (ne_of_mem_of_not_mem hother hnotin)]
    · rw [hframe other (by simp_all), Function.update_of_ne (by simp_all)]

end Programs

/-! ### Starts, crashes and rollbacks -/

/-- A new process swaps the paths, after it has staged the snapshot again or not; or the process
at hand rolls its swaps back. -/
inductive SwapAction
  | start (restages : Bool) (faults : List Fault)
  | rollBack (faults : List Fault)
  deriving DecidableEq, Repr

/-- What a process knew of the swap is gone with it. -/
def PathSwap.forget {γ : Type} (s : PathSwap γ) : PathSwap γ :=
  { s with hadLive := false, absent := false, installed := false }

section Runs

variable {γ : Type} [DecidableEq γ] (folder : γ → Bool) (original snapshot : String → Option γ)

omit [DecidableEq γ] in
/-- The swaps as a new process finds them. -/
def newProcess (restages : Bool) (paths : Paths γ) : Paths γ := fun name =>
  { (paths name).forget with
    staged := if restages then snapshot name else (paths name).staged }

def swapStep (paths : Paths γ) : SwapAction → Paths γ
  | .start restages faults =>
    let outcome := (applySwaps folder [] restoreSwaps).exec faults
      (newProcess snapshot restages paths)
    match outcome.result with
    | some _ => outcome.state
    | none => fun name => (outcome.state name).forget
  | .rollBack faults => fun name =>
    (((rollbackSwaps folder restoreSwaps.reverse).exec faults paths).state name).forget

omit [DecidableEq γ] in
/-- The swaps of a prepared restore. -/
def prepared : Paths γ := fun name =>
  { live := original name, staged := snapshot name, backup := none, marker := false,
    hadLive := false, absent := false, installed := false }

/-- From here a new process completes the swaps, and the process at hand undoes them. -/
structure ResumesAndReverses (paths : Paths γ) : Prop where
  resumes : ∀ restages, (applySwaps folder [] restoreSwaps).ends (fun swapped paths' =>
    swapped.error = none ∧ ∀ name ∈ restoreSwaps, (paths' name).live = snapshot name)
    (newProcess snapshot restages paths)
  reverses : (rollbackSwaps folder restoreSwaps.reverse).ends (fun _ paths' =>
    ∀ name ∈ restoreSwaps, (paths' name).live = original name) paths

omit [DecidableEq γ] in
/-- No live path is set aside with nothing to take its place, and the process can undo every
swap. -/
def Sound (paths : Paths γ) : Prop :=
  ∀ name ∈ restoreSwaps, ¬ Stuck (paths name) ∧ Undoable folder (paths name)

variable {folder original snapshot} {paths : Paths γ}

omit [DecidableEq γ] in
theorem fit_forget {original snapshot : Option γ} {s : PathSwap γ}
    (h : Stage original snapshot s) : Fit original snapshot s.forget := by
  refine ⟨?_, .inl ⟨rfl, rfl, rfl⟩⟩
  cases h with
  | untouched a b c d => exact .untouched a b c d
  | aside a b c d e => exact .aside a b c d e
  | swapped a b c d e => exact .swapped a b c d e

omit [DecidableEq γ] in
theorem fit_newProcess (restages : Bool)
    (h : ∀ name, Stage (original name) (snapshot name) (paths name)) (name : String) :
    Fit (original name) (snapshot name) (newProcess snapshot restages paths name) := by
  refine ⟨?_, .inl ⟨rfl, rfl, rfl⟩⟩
  cases h name with
  | untouched a b c d => exact .untouched a (by cases restages <;> simp [newProcess, b]) c d
  | aside a b c d e => exact .aside a b (by cases restages <;> simp [newProcess, c]) d e
  | swapped a b c d e =>
    refine .swapped a b ?_ d e
    cases restages with
    | false => simpa [newProcess] using c
    | true => simp [newProcess]

omit [DecidableEq γ] in
theorem prepared_fit (name : String) :
    Fit (original name) (snapshot name) (prepared original snapshot name) :=
  ⟨.untouched rfl rfl rfl rfl, .inl ⟨rfl, rfl, rfl⟩⟩

theorem swapStep_fit (a : SwapAction)
    (h : ∀ name, Fit (original name) (snapshot name) (paths name)) (name : String) :
    Fit (original name) (snapshot name) (swapStep folder snapshot paths a name) := by
  cases a with
  | start restages faults =>
    have hwp := wp_applySwaps folder [] restoreSwaps
      (fit_newProcess restages fun name => (h name).stage)
    simp only [swapStep]
    cases hresult : ((applySwaps folder [] restoreSwaps).exec faults
        (newProcess snapshot restages paths)).result with
    | some _ => exact hwp.exec hresult name
    | none => exact fit_forget (hwp.stop hresult name)
  | rollBack faults =>
    have hwp := wp_rollbackSwaps folder restoreSwaps.reverse (by decide)
      (fun name => (h name).stage) fun name _ => h name
    exact fit_forget (hwp.state faults name)

omit [DecidableEq γ] in
theorem stuck_newProcess (restages : Bool) {name : String}
    (h : Stage (original name) (snapshot name) (paths name)) :
    Stuck (newProcess snapshot restages paths name) ↔ Stuck (paths name) := by
  cases restages with
  | false => rfl
  | true =>
    cases h with
    | untouched _ _ hbackup => simp [Stuck, newProcess, PathSwap.forget, hbackup]
    | aside _ _ hstaged => simp [Stuck, newProcess, PathSwap.forget, hstaged]
    | swapped hsnapshot hlive =>
      obtain ⟨content, hcontent⟩ := Option.isSome_iff_exists.mp hsnapshot
      simp [Stuck, newProcess, PathSwap.forget, hlive, hcontent]

/-- In the states of a run, the swaps can be resumed and undone exactly if they are sound. -/
theorem sound_iff_resumesAndReverses
    (h : ∀ name, Fit (original name) (snapshot name) (paths name)) :
    Sound folder paths ↔ ResumesAndReverses folder original snapshot paths := by
  have hstage := fun name => (h name).stage
  have happly := fun restages => ends_applySwaps folder [] restoreSwaps (by decide)
    fun name _ => (fit_newProcess restages hstage name).stage
  have hrollback := (ends_rollbackSwaps folder restoreSwaps.reverse (by decide) :
    (rollbackSwaps folder restoreSwaps.reverse).ends _ paths)
  constructor
  · intro hsound
    refine ⟨fun restages => (happly restages).mono ?_, hrollback.mono ?_⟩
    · rintro error paths' ⟨hiff, hdone, -⟩
      have hnone := hiff.mpr fun name hname =>
        (stuck_newProcess restages (hstage name)).not.mpr (hsound name hname).1
      exact ⟨hnone, hdone hnone⟩
    · rintro - paths' ⟨hundone, -⟩ name hname
      rw [hundone name (List.mem_reverse.mpr hname)]
      have hends := (undoable_iff (h name)).mp (hsound name hname).2
      obtain ⟨_, -, hlive⟩ := Prog.ends_iff.mp hends
      exact hlive
  · intro hboth name hname
    constructor
    · obtain ⟨_, _, ⟨hnone, -⟩, hiff, -⟩ := (hboth.resumes false).and (happly false)
      exact (stuck_newProcess false (hstage name)).not.mp (hiff.mp hnone name hname)
    · obtain ⟨_, paths', hlive, hundone, -⟩ := hboth.reverses.and hrollback
      refine (undoable_iff (h name)).mpr ((rollback_ends (paths name)).mono ?_)
      rintro - s rfl
      rw [← hundone name (List.mem_reverse.mpr hname)]
      exact hlive name hname

/-- Along every run of starts, crashes, failures and rollbacks: the swaps are sound throughout
exactly if, in every state, a new process completes them and the process at hand undoes them. -/
theorem resumesAndReverses_iff_sound (folder : γ → Bool) (original snapshot : String → Option γ)
    (as : List SwapAction) :
    Always (swapStep folder snapshot) (Sound folder) (prepared original snapshot) as ↔
      Always (swapStep folder snapshot) (ResumesAndReverses folder original snapshot)
        (prepared original snapshot) as := by
  have hstep : ∀ (paths : Paths γ) a,
      (∀ name, Fit (original name) (snapshot name) (paths name)) →
      ∀ name, Fit (original name) (snapshot name) (swapStep folder snapshot paths a name) :=
    fun _ a h => swapStep_fit a h
  exact always_congr hstep (fun _ h => sound_iff_resumesAndReverses h) prepared_fit as

/-- The process stops right after it has set the write-ahead log aside.  A new process refuses to
go on, and a rollback leaves the log where it is. -/
theorem stoppedAfterWAL_stuck :
    let original := fun name => if name = "control.db-wal" then some "frames" else none
    let snapshot := fun name => if name = "control.db" then some "restored" else none
    let paths := swapStep (fun _ => false) snapshot (prepared original snapshot)
      (.start true [.none, .none, .none, .none, .stopsAfter])
    ((applySwaps (fun _ => false) [] restoreSwaps).exec []
        (newProcess snapshot true paths)).result =
      some ⟨some (.stagedAndLiveMissing "control.db-wal"), ["control.db-wal"], []⟩ ∧
    (((rollbackSwaps (fun _ => false) restoreSwaps.reverse).exec [] paths).state
      "control.db-wal").live = none ∧
    ¬ ResumesAndReverses (fun _ => false) original snapshot paths := by
  intro original snapshot paths
  have hrefused : ((applySwaps (fun _ => false) [] restoreSwaps).exec []
      (newProcess snapshot true paths)).result =
      some ⟨some (.stagedAndLiveMissing "control.db-wal"), ["control.db-wal"], []⟩ := by
    decide
  refine ⟨hrefused, by decide, fun h => ?_⟩
  obtain ⟨swapped, hresult, hnone, -⟩ := Prog.ends_iff.mp (h.resumes true)
  rw [hrefused] at hresult
  cases hresult
  cases hnone

end Runs

end SimpleCdn.Restore
