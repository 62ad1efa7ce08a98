import Mathlib.Data.List.Nodup
import SimpleCdn.Restore.Paths

/-!
# Cutover of the control TLS directory

The entries of the TLS directory are moved one by one to a backup directory, then the staged
entries one by one into their place.  The cutover keeps the two lists of what it has moved, and its
rollback moves them back.  A cutover that finds the backup directory resumes an earlier one.

The names are those a snapshot of the directory can have; the backup directories and the staging
directory beside them are in no snapshot and are passed over.
-/

namespace SimpleCdn.Restore

open Crash Crash.Prog

/-- The entries of a directory by name. -/
abbrev Entries (γ : Type) := String → Option γ

/-- A `restoreTLSCutover`: the directories and the lists of the process. -/
structure TLSCutover (γ : Type) where
  live : Entries γ
  stage : Entries γ
  backup : Option (Entries γ)
  backedUp : List String
  installed : List String

section Programs

variable {γ : Type} (folder : γ → Bool) (names : List String)

namespace TLSCutover

/-- Rename of a live entry into the backup directory. -/
def backUp (name : String) (t : TLSCutover γ) : Option (TLSCutover γ) :=
  t.backup.bind fun backup => (replaced folder (t.live name) (backup name)).map fun moved =>
    { t with
      live := Function.update t.live name moved.1
      backup := some (Function.update backup name moved.2) }

/-- Rename of a staged entry into the live directory. -/
def install (name : String) (t : TLSCutover γ) : Option (TLSCutover γ) :=
  (replaced folder (t.stage name) (t.live name)).map fun moved =>
    { t with
      stage := Function.update t.stage name moved.1
      live := Function.update t.live name moved.2 }

/-- Rename of a live entry into the staging directory. -/
def uninstall (name : String) (t : TLSCutover γ) : Option (TLSCutover γ) :=
  (replaced folder (t.live name) (t.stage name)).map fun moved =>
    { t with
      live := Function.update t.live name moved.1
      stage := Function.update t.stage name moved.2 }

/-- Rename of a backup entry into the live directory. -/
def putBack (name : String) (t : TLSCutover γ) : Option (TLSCutover γ) :=
  t.backup.bind fun backup => (replaced folder (backup name) (t.live name)).map fun moved =>
    { t with
      backup := some (Function.update backup name moved.1)
      live := Function.update t.live name moved.2 }

end TLSCutover

/-- `os.ReadDir`. -/
def readDir (directory : Entries γ) : List String :=
  names.filter fun name => (directory name).isSome

namespace TLSCutover

def captureAppliedState : Prog (TLSCutover γ) Bool := do
  match ← inspect fun t : TLSCutover γ => readDir names (t.backup.getD fun _ => none) with
  | none => pure false
  | some backupEntries =>
    modify fun t => { t with backedUp := t.backedUp ++ backupEntries }
    match ← inspect fun t : TLSCutover γ => readDir names t.live with
    | none => pure false
    | some currentEntries =>
      modify fun t => { t with installed := t.installed ++ currentEntries }
      pure true

variable [DecidableEq γ]

/-- Whether the live directory has the staged entries and no others; `none` when it could not be
compared. -/
def liveMatchesStage (stagedEntries : List String) : Prog (TLSCutover γ) (Option Bool) := do
  match ← inspect fun t : TLSCutover γ =>
      stagedEntries.all fun name => decide (t.live name = t.stage name) with
  | none => pure none
  | some false => pure (some false)
  | some true =>
    match ← inspect fun t : TLSCutover γ => readDir names t.live with
    | none => pure none
    | some currentEntries => pure (some (currentEntries.all fun name => stagedEntries.contains name))

/-- `restoreTLSCutover.apply`. -/
def apply : Prog (TLSCutover γ) (Option RestoreError) := do
  match ← inspect fun t : TLSCutover γ => t.backup.isSome with
  | none => pure (some .operation)
  | some true => resume
  | some false =>
    if ← act fun t => some { t with backup := some fun _ => none } then
      match ← inspect fun t : TLSCutover γ => readDir names t.live with
      | none => pure (some .operation)
      | some entries =>
        if ← each backUpEntry entries then installStaged else pure (some .operation)
    else
      pure (some .operation)
where
  /-- One live entry goes to the backup directory. -/
  backUpEntry (name : String) : Prog (TLSCutover γ) Bool := do
    if ← act (backUp folder name) then
      modify fun t => { t with backedUp := t.backedUp ++ [name] }
      pure true
    else
      pure false
  /-- One staged entry goes live. -/
  installEntry (name : String) : Prog (TLSCutover γ) Bool := do
    if ← act (install folder name) then
      modify fun t => { t with installed := t.installed ++ [name] }
      pure true
    else
      pure false
  /-- The second half of a cutover from scratch. -/
  installStaged : Prog (TLSCutover γ) (Option RestoreError) := do
    match ← inspect fun t : TLSCutover γ => readDir names t.stage with
    | none => pure (some .operation)
    | some stagedEntries =>
      if ← each installEntry stagedEntries then pure none else pure (some .operation)
  /-- A cutover that finds its backup directory goes by what the directories hold. -/
  resume : Prog (TLSCutover γ) (Option RestoreError) := do
    match ← inspect fun t : TLSCutover γ => readDir names t.stage with
    | none => pure (some .stagedTLSUnreadable)
    | some [] =>
      if ← captureAppliedState names then pure none else pure (some .appliedTLSUnreadable)
    | some stagedEntries =>
      match ← liveMatchesStage names stagedEntries with
      | none => pure (some .compareTLSFailed)
      | some false => pure (some .partialTLS)
      | some true =>
        if ← captureAppliedState names then
          let removed ← each (fun name =>
            act fun t => some { t with stage := Function.update t.stage name none }) stagedEntries
          pure (if removed then none else some .duplicateTLSKept)
        else
          pure (some .appliedTLSUnreadable)

omit [DecidableEq γ] in
/-- `restoreTLSCutover.rollback`; whether every rename went through. -/
def rollback : Prog (TLSCutover γ) Bool := do
  let installed ← get fun t : TLSCutover γ => t.installed
  let uninstalled ← all (fun name => act (uninstall folder name)) installed.reverse
  let backedUp ← get fun t : TLSCutover γ => t.backedUp
  let restored ← all (fun name => act (putBack folder name)) backedUp.reverse
  if (uninstalled && restored) = true then
    -- the backup directory goes when it is empty
    let _ ← act fun t => t.backup.bind fun backup =>
      if names.all fun name => (backup name).isNone then some { t with backup := none } else none
    pure true
  else
    pure false

end TLSCutover

end Programs

/-! ### What the lists say -/

section Moved

variable {γ : Type} {folder : γ → Bool} {names : List String} {original snapshot : Entries γ}
  {installed backedUp : List String} {t : TLSCutover γ}

/-- What the backup directory holds. -/
def TLSCutover.kept (t : TLSCutover γ) (name : String) : Option γ :=
  t.backup.bind fun backup => backup name

/-- The entries in the two lists have been moved and the others have not. -/
structure Moved (original snapshot : Entries γ) (installed backedUp : List String)
    (t : TLSCutover γ) : Prop where
  live : ∀ name, t.live name =
    if name ∈ installed then snapshot name else if name ∈ backedUp then none else original name
  stage : ∀ name, t.stage name = if name ∈ installed then none else snapshot name
  kept : ∀ name, t.kept name = if name ∈ backedUp then original name else none
  staged : ∀ name ∈ installed, (snapshot name).isSome ∧ (name ∈ backedUp ∨ original name = none)
  was : ∀ name ∈ backedUp, (original name).isSome
  installed_nodup : installed.Nodup
  backedUp_nodup : backedUp.Nodup

theorem Moved.mkdir (h : Moved original snapshot [] [] t) :
    Moved original snapshot [] [] { t with backup := some fun _ => none } :=
  { h with kept := fun name => by simp [TLSCutover.kept] }

theorem Moved.backUp {name : String} (h : Moved original snapshot [] backedUp t)
    (hnew : name ∉ backedUp) (hwas : (original name).isSome) {t' : TLSCutover γ}
    (ht : t.backUp folder name = some t') :
    Moved original snapshot [] (backedUp ++ [name]) t' := by
  obtain ⟨backup, hbackup, hmoved⟩ := Option.bind_eq_some_iff.mp ht
  obtain ⟨content, hcontent⟩ := Option.isSome_iff_exists.mp hwas
  have hlive : t.live name = some content := by simp [h.live, hnew, hcontent]
  have hfree : backup name = none := by
    have := h.kept name
    simpa [TLSCutover.kept, hbackup, hnew] using this
  rw [hlive, hfree, replaced_free] at hmoved
  obtain rfl := Option.some.inj hmoved
  refine ⟨fun other => ?_, h.stage, fun other => ?_, by simp, ?_, h.installed_nodup, ?_⟩
  · by_cases hother : other = name
    · subst hother; simp
    · simp [Function.update_of_ne hother, h.live, hother]
  · have hkept := h.kept other
    by_cases hother : other = name
    · subst hother; simp [TLSCutover.kept, hcontent]
    · simp only [TLSCutover.kept, hbackup, Option.bind_some] at hkept
      simp [TLSCutover.kept, Function.update_of_ne hother, hkept, hother]
  · intro other hother
    rcases List.mem_append.mp hother with hother | hother
    · exact h.was other hother
    · obtain rfl := List.mem_singleton.mp hother
      exact hwas
  · rw [List.nodup_append_comm]
    exact List.nodup_cons.mpr ⟨hnew, h.backedUp_nodup⟩

theorem Moved.install {name : String} (h : Moved original snapshot installed backedUp t)
    (hnew : name ∉ installed) (hstaged : (snapshot name).isSome)
    (hgone : name ∈ backedUp ∨ original name = none) {t' : TLSCutover γ}
    (ht : t.install folder name = some t') :
    Moved original snapshot (installed ++ [name]) backedUp t' := by
  obtain ⟨content, hcontent⟩ := Option.isSome_iff_exists.mp hstaged
  have hstage : t.stage name = some content := by simp [h.stage, hnew, hcontent]
  have hfree : t.live name = none := by
    rcases hgone with hgone | hgone <;> simp [h.live, hnew, hgone]
  rw [TLSCutover.install, hstage, hfree, replaced_free] at ht
  obtain rfl := Option.some.inj ht
  refine ⟨fun other => ?_, fun other => ?_, h.kept, ?_, h.was, ?_, h.backedUp_nodup⟩
  · by_cases hother : other = name
    · subst hother; simp [hcontent]
    · simp [Function.update_of_ne hother, h.live, hother]
  · by_cases hother : other = name
    · subst hother; simp
    · simp [Function.update_of_ne hother, h.stage, hother]
  · intro other hother
    rcases List.mem_append.mp hother with hother | hother
    · exact h.staged other hother
    · obtain rfl := List.mem_singleton.mp hother
      exact ⟨hstaged, hgone⟩
  · rw [List.nodup_append_comm]
    exact List.nodup_cons.mpr ⟨hnew, h.installed_nodup⟩

theorem Moved.uninstall {name : String}
    (h : Moved original snapshot (name :: installed) backedUp t) {t' : TLSCutover γ}
    (ht : t.uninstall folder name = some t') :
    Moved original snapshot installed backedUp t' := by
  obtain ⟨hnotin, hnodup⟩ := List.nodup_cons.mp h.installed_nodup
  obtain ⟨hstaged, hgone⟩ := h.staged name List.mem_cons_self
  obtain ⟨content, hcontent⟩ := Option.isSome_iff_exists.mp hstaged
  have hlive : t.live name = some content := by simp [h.live, hcontent]
  have hfree : t.stage name = none := by simp [h.stage]
  rw [TLSCutover.uninstall, hlive, hfree, replaced_free] at ht
  obtain rfl := Option.some.inj ht
  refine ⟨fun other => ?_, fun other => ?_, h.kept, fun other hother => ?_, h.was, hnodup,
    h.backedUp_nodup⟩
  · by_cases hother : other = name
    · subst hother
      rcases hgone with hgone | hgone <;> simp [hnotin, hgone]
    · simp [h.live, hother]
  · by_cases hother : other = name
    · subst hother; simp [hnotin, hcontent]
    · simp [h.stage, hother]
  · exact h.staged other (List.mem_cons_of_mem _ hother)

theorem Moved.putBack {name : String} (h : Moved original snapshot [] (name :: backedUp) t)
    {t' : TLSCutover γ} (ht : t.putBack folder name = some t') :
    Moved original snapshot [] backedUp t' := by
  obtain ⟨hnotin, hnodup⟩ := List.nodup_cons.mp h.backedUp_nodup
  obtain ⟨backup, hbackup, hmoved⟩ := Option.bind_eq_some_iff.mp ht
  obtain ⟨content, hcontent⟩ := Option.isSome_iff_exists.mp (h.was name List.mem_cons_self)
  have hkept : backup name = some content := by
    have := h.kept name
    simpa [TLSCutover.kept, hbackup, hcontent] using this
  have hfree : t.live name = none := by simp [h.live]
  rw [hkept, hfree, replaced_free] at hmoved
  obtain rfl := Option.some.inj hmoved
  refine ⟨fun other => ?_, h.stage, fun other => ?_, by simp, fun other hother => ?_,
    h.installed_nodup, hnodup⟩
  · by_cases hother : other = name
    · subst hother; simp [hnotin, hcontent]
    · simp [h.live, hother]
  · have := h.kept other
    by_cases hother : other = name
    · subst hother; simp [TLSCutover.kept, hnotin]
    · simp only [TLSCutover.kept, hbackup, Option.bind_some] at this
      simp [TLSCutover.kept, Function.update_of_ne hother, this, hother]
  · exact h.was other (List.mem_cons_of_mem _ hother)

/-- The lists of the process say what it has moved. -/
def Listed (original snapshot : Entries γ) (t : TLSCutover γ) : Prop :=
  Moved original snapshot t.installed t.backedUp t

/-- Between two renames of the first half: some live entries are in the backup, the names `rest`
are still to come. -/
structure BackingUp (names : List String) (original snapshot : Entries γ) (rest : List String)
    (t : TLSCutover γ) : Prop where
  listed : Listed original snapshot t
  none_installed : t.installed = []
  nodup : rest.Nodup
  still : ∀ name ∈ rest, (original name).isSome ∧ name ∉ t.backedUp
  covered : ∀ name ∈ names, (original name).isSome → name ∈ rest ∨ name ∈ t.backedUp

/-- Between two renames of the second half. -/
structure Installing (names : List String) (original snapshot : Entries γ) (rest : List String)
    (t : TLSCutover γ) : Prop where
  listed : Listed original snapshot t
  nodup : rest.Nodup
  within : rest ⊆ names
  still : ∀ name ∈ rest, (snapshot name).isSome ∧ name ∉ t.installed
  gone : ∀ name ∈ names, (original name).isSome → name ∈ t.backedUp
  covered : ∀ name ∈ names, (snapshot name).isSome → name ∈ rest ∨ name ∈ t.installed

theorem Installing.done (h : Installing names original snapshot [] t) (name : String)
    (hname : name ∈ names) : t.live name = snapshot name := by
  rw [h.listed.live]
  split
  · rfl
  · rename_i hnot
    have hsnapshot : snapshot name = none := by
      by_contra hsome
      have := h.covered name hname (Option.isSome_iff_ne_none.mpr hsome)
      simp [hnot] at this
    split
    · exact hsnapshot.symm
    · rename_i hkept
      rw [hsnapshot]
      by_contra hsome
      exact hkept (h.gone name hname (Option.isSome_iff_ne_none.mpr hsome))

theorem wp_backUpEntry {name : String} {rest : List String}
    (h : BackingUp names original snapshot (name :: rest) t) :
    (TLSCutover.apply.backUpEntry folder name).wp
      (fun ok t' => if ok then BackingUp names original snapshot rest t'
        else Listed original snapshot t') (fun _ => True) t := by
  obtain ⟨hnotin, hnodup⟩ := List.nodup_cons.mp h.nodup
  obtain ⟨hwas, hnew⟩ := h.still name List.mem_cons_self
  simp only [TLSCutover.apply.backUpEntry, wp_bind, wp_act, wp_pure, wp_modify, ↓reduceIte,
    Bool.false_eq_true]
  refine ⟨h.listed, trivial, fun t' ht => ⟨?_, trivial⟩⟩
  have hmoved : Moved original snapshot [] t.backedUp t := h.none_installed ▸ h.listed
  have hnext := hmoved.backUp hnew hwas ht
  -- the rename leaves the lists alone
  obtain ⟨backup, -, hrest⟩ := Option.bind_eq_some_iff.mp ht
  obtain ⟨moved, -, rfl⟩ := Option.map_eq_some_iff.mp hrest
  constructor
  case listed =>
    exact { hnext with
      live := fun name => by simpa [h.none_installed] using hnext.live name
      stage := fun name => by simpa [h.none_installed] using hnext.stage name
      staged := fun name hname => by simp [h.none_installed] at hname
      installed_nodup := by simp [h.none_installed] }
  case none_installed => exact h.none_installed
  case nodup => exact hnodup
  case still =>
    intro other hother
    obtain ⟨hsome, hfresh⟩ := h.still other (List.mem_cons_of_mem _ hother)
    refine ⟨hsome, fun hmem => ?_⟩
    rcases List.mem_append.mp hmem with hmem | hmem
    · exact hfresh hmem
    · exact ne_of_mem_of_not_mem hother hnotin (List.mem_singleton.mp hmem)
  case covered =>
    intro other hother hsome
    rcases h.covered other hother hsome with hmem | hmem
    · rcases List.mem_cons.mp hmem with rfl | hmem
      · exact .inr (by simp)
      · exact .inl hmem
    · exact .inr (by simp [hmem])

theorem wp_installEntry {name : String} {rest : List String}
    (h : Installing names original snapshot (name :: rest) t) :
    (TLSCutover.apply.installEntry folder name).wp
      (fun ok t' => if ok then Installing names original snapshot rest t'
        else Listed original snapshot t') (fun _ => True) t := by
  obtain ⟨hnotin, hnodup⟩ := List.nodup_cons.mp h.nodup
  obtain ⟨hstaged, hnew⟩ := h.still name List.mem_cons_self
  obtain ⟨hin, hwithin⟩ := List.cons_subset.mp h.within
  have hgone : name ∈ t.backedUp ∨ original name = none := by
    by_cases hwas : (original name).isSome
    · exact .inl (h.gone name hin hwas)
    · exact .inr (Option.not_isSome_iff_eq_none.mp hwas)
  simp only [TLSCutover.apply.installEntry, wp_bind, wp_act, wp_pure, wp_modify, ↓reduceIte,
    Bool.false_eq_true]
  refine ⟨h.listed, trivial, fun t' ht => ⟨?_, trivial⟩⟩
  have hnext := Moved.install h.listed hnew hstaged hgone ht
  -- the rename leaves the lists alone
  obtain ⟨moved, -, rfl⟩ := Option.map_eq_some_iff.mp ht
  constructor
  case listed => exact { hnext with }
  case nodup => exact hnodup
  case within => exact hwithin
  case still =>
    intro other hother
    obtain ⟨hsome, hfresh⟩ := h.still other (List.mem_cons_of_mem _ hother)
    refine ⟨hsome, fun hmem => ?_⟩
    rcases List.mem_append.mp hmem with hmem | hmem
    · exact hfresh hmem
    · exact ne_of_mem_of_not_mem hother hnotin (List.mem_singleton.mp hmem)
  case gone => exact h.gone
  case covered =>
    intro other hother hsome
    rcases h.covered other hother hsome with hmem | hmem
    · rcases List.mem_cons.mp hmem with rfl | hmem
      · exact .inr (by simp)
      · exact .inl hmem
    · exact .inr (by simp [hmem])

/-- A cutover that has not begun. -/
structure Unmoved (original snapshot : Entries γ) (t : TLSCutover γ) : Prop where
  live : t.live = original
  stage : t.stage = snapshot
  backup : t.backup = none
  installed : t.installed = []
  backedUp : t.backedUp = []

theorem Unmoved.listed (h : Unmoved original snapshot t) : Listed original snapshot t := by
  have hkept : ∀ name, t.kept name = none := fun name => by simp [TLSCutover.kept, h.backup]
  constructor
  case live => simp [h.live, h.installed, h.backedUp]
  case stage => simp [h.stage, h.installed]
  case kept => simpa [h.backedUp] using hkept
  case staged => simp [h.installed]
  case was => simp [h.backedUp]
  case installed_nodup => simp [h.installed]
  case backedUp_nodup => simp [h.backedUp]

variable [DecidableEq γ]

/-- A cutover from scratch records all it moves, and without an error the live directory has the
entries of the snapshot. -/
theorem wp_apply_unmoved (hnodup : names.Nodup) (h : Unmoved original snapshot t) :
    (TLSCutover.apply folder names).wp (fun error t' => Listed original snapshot t' ∧
      (error = none → ∀ name ∈ names, t'.live name = snapshot name)) (fun _ => True) t := by
  have hlisted := h.listed
  simp only [TLSCutover.apply, wp_bind, wp_inspect, h.backup, Option.isSome_none, wp_act,
    wp_pure, ↓reduceIte, Bool.false_eq_true, Option.some.injEq]
  refine ⟨⟨hlisted, by simp⟩, trivial, ⟨hlisted, by simp⟩, trivial, ?_⟩
  rintro _ rfl
  have hmade : Listed original snapshot { t with backup := some fun _ => none } := by
    have hnone : Moved original snapshot [] [] t := by
      simpa [Listed, h.installed, h.backedUp] using hlisted
    simpa [Listed, h.installed, h.backedUp] using hnone.mkdir
  refine ⟨⟨⟨hmade, by simp⟩, trivial, ?_⟩, trivial⟩
  have hbegin : BackingUp names original snapshot (readDir names t.live)
      { t with backup := some fun _ => none } := by
    refine ⟨hmade, h.installed, hnodup.filter _, fun name hname => ?_, fun name hname hsome => ?_⟩
    · rw [readDir, List.mem_filter, h.live] at hname
      exact ⟨hname.2, by simp [h.backedUp]⟩
    · exact .inl (List.mem_filter.mpr ⟨hname, by simpa [h.live] using hsome⟩)
  refine (wp_each (BackingUp names original snapshot) (fun _ _ _ => wp_backUpEntry) hbegin).mono
    (fun ok t' hok => ?_) fun _ h => h
  cases ok with
  | false => exact ⟨hok, by simp⟩
  | true =>
    have hbacked : BackingUp names original snapshot [] t' := hok
    simp only [↓reduceIte, TLSCutover.apply.installStaged, wp_bind, wp_inspect, wp_pure]
    refine ⟨⟨hbacked.listed, by simp⟩, trivial, ?_⟩
    have hinstall : Installing names original snapshot (readDir names t'.stage) t' := by
      have hstage : t'.stage = snapshot := by
        funext name
        simp [hbacked.listed.stage, hbacked.none_installed]
      refine ⟨hbacked.listed, hnodup.filter _, List.filter_subset' _, fun name hname => ?_,
        fun name hname hsome => ?_, fun name hname hsome => ?_⟩
      · rw [readDir, List.mem_filter, hstage] at hname
        exact ⟨hname.2, by simp [hbacked.none_installed]⟩
      · simpa using hbacked.covered name hname hsome
      · exact .inl (List.mem_filter.mpr ⟨hname, by simpa [hstage] using hsome⟩)
    refine (wp_each (Installing names original snapshot) (fun _ _ _ => wp_installEntry)
      hinstall).mono (fun ok t'' hok => ?_) fun _ h => h
    cases ok with
    | false => exact ⟨hok, by simp⟩
    | true =>
      have hdone : Installing names original snapshot [] t'' := hok
      exact ⟨hdone.listed, fun _ => hdone.done⟩

omit [DecidableEq γ] in
/-- A rollback that goes through restores what the lists say was moved. -/
theorem wp_rollback_listed (h : Listed original snapshot t) :
    (TLSCutover.rollback folder names).wp (fun ok t' => ok = true → t'.live = original)
      (fun _ => True) t := by
  have hreversed : Moved original snapshot t.installed.reverse t.backedUp t := by
    refine { h with live := ?_, stage := ?_, staged := ?_, installed_nodup := ?_ }
    · simpa using h.live
    · simpa using h.stage
    · simpa using h.staged
    · simpa using h.installed_nodup
  have huninstall : ∀ name rest s,
      (Moved original snapshot (name :: rest) t.backedUp s ∧ s.backedUp = t.backedUp) →
      (act (TLSCutover.uninstall folder name)).wp (fun ok s' => ok = true →
        Moved original snapshot rest t.backedUp s' ∧ s'.backedUp = t.backedUp)
        (fun _ => True) s := by
    rintro name rest s ⟨hmoved, hsame⟩
    rw [wp_act]
    refine ⟨by simp, trivial, fun s' hs' => ⟨fun _ => ⟨hmoved.uninstall hs', ?_⟩, trivial⟩⟩
    obtain ⟨_, -, rfl⟩ := Option.map_eq_some_iff.mp hs'
    exact hsame
  have hputBack : ∀ name rest s, Moved original snapshot [] (name :: rest) s →
      (act (TLSCutover.putBack folder name)).wp
        (fun ok s' => ok = true → Moved original snapshot [] rest s') (fun _ => True) s := by
    intro name rest s hmoved
    rw [wp_act]
    exact ⟨by simp, trivial, fun s' hs' => ⟨fun _ => hmoved.putBack hs', trivial⟩⟩
  simp only [TLSCutover.rollback, wp_bind, wp_get]
  refine (wp_all (fun rest s => Moved original snapshot rest t.backedUp s ∧
    s.backedUp = t.backedUp) huninstall ⟨hreversed, rfl⟩).mono (fun uninstalled s hs => ?_)
    fun _ h => h
  cases uninstalled with
  | false =>
    rw [wp_bind, wp_get, wp_bind]
    exact (wp_true _ _).mono (fun _ _ _ => by simp) fun _ h => h
  | true =>
    obtain ⟨hmoved, hsame⟩ := hs rfl
    rw [wp_bind, wp_get, wp_bind]
    have hbacked : Moved original snapshot [] s.backedUp.reverse s := by
      rw [hsame]
      refine { hmoved with live := ?_, kept := ?_, staged := ?_, was := ?_, backedUp_nodup := ?_ }
      · simpa using hmoved.live
      · simpa using hmoved.kept
      · simp
      · simpa using hmoved.was
      · simpa using hmoved.backedUp_nodup
    refine (wp_all (fun rest s => Moved original snapshot [] rest s) hputBack hbacked).mono
      (fun restored s' hs' => ?_) fun _ h => h
    cases restored with
    | false => simp
    | true =>
      have hlive : s'.live = original := by
        funext name
        simpa using (hs' rfl).live name
      simp only [Bool.and_self, ↓reduceIte, wp_bind, wp_act, wp_pure]
      refine ⟨fun _ => hlive, trivial, fun s'' hs'' => ⟨fun _ => ?_, trivial⟩⟩
      -- removing the empty backup directory leaves the live one alone
      obtain ⟨backup, -, hremoved⟩ := Option.bind_eq_some_iff.mp hs''
      split at hremoved
      · obtain rfl := Option.some.inj hremoved
        exact hlive
      · cases hremoved

end Moved

end SimpleCdn.Restore
