import SimpleCdn.Agent.Apply

/-!
# What is taken back

`Midway before touched h` says how far a call of `apply` can have come that began on `before`: only
the paths in `touched` differ.  Each backup that is restored takes its path out of the set, so that
nothing is left of it when every path has a backup or lies in a directory that is removed.

An index never includes a directory that is not there, or not in full, also in the middle of a
call: `Included`.
-/

namespace SimpleCdn.Agent

open Crash Crash.Prog

/-! ### Indexes and the directories they include -/

/-- The directory has exactly these files. -/
def Holds (h : Host) (directory : String) (entries : List (String × String)) : Prop :=
  ∀ name text, h.file (.fragment directory name) = some text ↔ (name, text) ∈ entries

/-- The directory has the files that its name stands for. -/
def Complete (packages : Packages) (h : Host) (directory : String) : Prop :=
  ∃ kind version base fragments,
    directory = fragmentDirectory packages kind version base fragments ∧
    Holds h directory (fragmentEntries base fragments)

/-- The files that Nginx includes fragments from. -/
def ConfigFile.isIndex : ConfigFile → Bool
  | .http | .stream => true
  | .main | .events => false

def Included (packages : Packages) (root : String) (h : Host) : Prop :=
  ∀ file : ConfigFile, file.isIndex = true → ∀ directory,
    h.file (.config file) = some (generatedFragmentIndex root directory) →
      Complete packages h directory

/-- The paths in a directory of fragments. -/
def pathsIn (directory : String) : Set FilePath := {path | path.isIn directory = true}

@[simp] theorem fragment_mem_pathsIn {directory d name : String} :
    FilePath.fragment d name ∈ pathsIn directory ↔ d = directory := by
  show decide (d = directory) = true ↔ _
  rw [decide_eq_true_eq]

@[simp] theorem config_not_mem_pathsIn {directory : String} {file : ConfigFile} :
    FilePath.config file ∉ pathsIn directory := by
  intro h
  cases h

@[simp] theorem certificate_not_mem_pathsIn {directory name : String} :
    FilePath.certificate name ∉ pathsIn directory := by
  intro h
  cases h

section

variable {packages : Packages} {root : String} {h h' : Host} {directory : String}

theorem Holds.of_same {entries : List (String × String)} (hholds : Holds h directory entries)
    (hsame : ∀ name, h'.file (.fragment directory name) = h.file (.fragment directory name)) :
    Holds h' directory entries := by
  intro name text
  rw [hsame]
  exact hholds name text

theorem Complete.of_same (hcomplete : Complete packages h directory)
    (hsame : ∀ name, h'.file (.fragment directory name) = h.file (.fragment directory name)) :
    Complete packages h' directory := by
  obtain ⟨kind, version, base, fragments, hname, hholds⟩ := hcomplete
  exact ⟨kind, version, base, fragments, hname, hholds.of_same hsame⟩

/-- There is always the base. -/
theorem Complete.present (hcomplete : Complete packages h directory) :
    ∃ name, h.file (.fragment directory name) ≠ none := by
  obtain ⟨kind, version, base, fragments, -, hholds⟩ := hcomplete
  refine ⟨"00-base.conf", ?_⟩
  rw [(hholds "00-base.conf" base).mpr List.mem_cons_self]
  exact Option.some_ne_none _

theorem Included.of_same (hincluded : Included packages root h)
    (hconfig : ∀ file : ConfigFile, file.isIndex = true →
      h'.file (.config file) = h.file (.config file))
    (hfragments : ∀ directory, Complete packages h directory → ∀ name,
      h'.file (.fragment directory name) = h.file (.fragment directory name)) :
    Included packages root h' := by
  intro file hfile directory hindex
  rw [hconfig file hfile] at hindex
  have hcomplete := hincluded file hfile directory hindex
  exact hcomplete.of_same (hfragments directory hcomplete)

theorem generatedFragmentIndex_inj {d d' : String}
    (heq : generatedFragmentIndex root d = generatedFragmentIndex root d') : d = d' := by
  rw [generatedFragmentIndex, generatedFragmentIndex, String.append_left_inj,
    String.append_right_inj] at heq
  exact heq

end

/-! ### How far a call has come -/

section

variable (packages : Packages) (root : String) (plain : Prop) (before : Host)

/-- The call has written, or is about to take back, what is at the paths in `touched`.  Directories
of fragments that were there before are not touched. -/
structure Midway (touched : Set FilePath) (h : Host) : Prop where
  version : h.appliedVersion = before.appliedVersion
  unrestored : h.unrestored = before.unrestored
  same : ∀ path ∉ touched, h.file path = before.file path
  fresh : ∀ directory name, FilePath.fragment directory name ∈ touched →
    ∀ name, before.file (.fragment directory name) = none
  included : plain → Included packages root before → Included packages root h

/-- The call is taking back what it has done. -/
def Back (touched : Set FilePath) (h : Host) : Prop :=
  h.unrestored = true ∨ Midway packages root plain before touched h

/-- What holds when the process stops in the middle. -/
def Safe (h : Host) : Prop :=
  h.unrestored = true ∨ (plain → Included packages root before → Included packages root h)

end

section

variable {packages : Packages} {root : String} {plain : Prop} {before h : Host}
  {touched : Set FilePath}

theorem Midway.start : Midway packages root plain before ∅ before where
  version := rfl
  unrestored := rfl
  same := fun _ _ => rfl
  fresh := fun _ _ hmem => hmem.elim
  included := fun _ hincluded => hincluded

theorem Midway.back (hmid : Midway packages root plain before touched h) :
    Back packages root plain before touched h :=
  Or.inr hmid

theorem Midway.safe (hmid : Midway packages root plain before touched h) :
    Safe packages root plain before h :=
  Or.inr hmid.included

theorem Back.safe (hback : Back packages root plain before touched h) :
    Safe packages root plain before h :=
  hback.imp_right Midway.included

theorem Back.mono {touched' : Set FilePath} (hback : Back packages root plain before touched h)
    (hsub : touched ⊆ touched')
    (hfresh : ∀ directory name, FilePath.fragment directory name ∈ touched' →
      ∀ name, before.file (.fragment directory name) = none) :
    Back packages root plain before touched' h := by
  refine hback.imp_right fun hmid => ?_
  exact {
    hmid with
    same := fun path hpath => hmid.same path fun hmem => hpath (hsub hmem)
    fresh := hfresh }

/-- A directory that was complete before has not been touched. -/
theorem Midway.untouched {h₀ : Host} {directory : String}
    (hmid : Midway packages root plain before touched h₀)
    (hcomplete : Complete packages before directory) (name : String) :
    FilePath.fragment directory name ∉ touched := by
  intro hmem
  obtain ⟨present, hpresent⟩ := hcomplete.present
  exact hpresent (hmid.fresh directory name hmem present)

/-- A file is written that includes nothing. -/
theorem Midway.put {path : FilePath} {contents : Option String}
    (hmid : Midway packages root plain before touched h) (hpath : path ∈ touched)
    (hplain : ∀ directory name, path ≠ .fragment directory name)
    (hindex : ∀ file : ConfigFile, path = .config file → file.isIndex = true → plain →
      ∀ directory, contents = some (generatedFragmentIndex root directory) →
        Complete packages h directory) :
    Midway packages root plain before touched (h.put path contents) where
  version := by rw [Host.appliedVersion_put, hmid.version]
  unrestored := by rw [Host.unrestored_put, hmid.unrestored]
  same := by
    intro other hother
    have hne : other ≠ path := fun hsame => hother (by rw [hsame]; exact hpath)
    rw [Host.file_put_of_ne hne, hmid.same other hother]
  fresh := hmid.fresh
  included := by
    intro hp hbefore file hfile directory hcontents
    have hfragments : ∀ name, (h.put path contents).file (.fragment directory name) =
        h.file (.fragment directory name) :=
      fun name => Host.file_put_of_ne (Ne.symm (hplain directory name))
    by_cases hsame : FilePath.config file = path
    · rw [← hsame, Host.file_put_self] at hcontents
      exact (hindex file hsame.symm hfile hp directory hcontents).of_same hfragments
    · rw [Host.file_put_of_ne hsame] at hcontents
      exact (hmid.included hp hbefore file hfile directory hcontents).of_same hfragments

/-- A file is as it was before the call again. -/
theorem Midway.restore {path : FilePath} (hmid : Midway packages root plain before touched h)
    (hfragment : ∀ directory name, path = .fragment directory name → before.file path ≠ none) :
    Midway packages root plain before (touched \ {path}) (h.put path (before.file path)) where
  version := by rw [Host.appliedVersion_put, hmid.version]
  unrestored := by rw [Host.unrestored_put, hmid.unrestored]
  same := by
    intro other hother
    rw [Host.file_put]
    split
    · next hsame => rw [hsame]
    · next hne => exact hmid.same other fun hmem => hother ⟨hmem, hne⟩
  fresh := fun directory name hmem => hmid.fresh directory name hmem.1
  included := by
    intro hp hbefore
    -- a fragment of a directory that was there before has not changed
    have hfragments : ∀ directory name, FilePath.fragment directory name ∉ touched →
        (h.put path (before.file path)).file (.fragment directory name) =
          before.file (.fragment directory name) := by
      intro directory name hname
      rw [Host.file_put]
      split
      · next hsame => rw [hsame]
      · exact hmid.same _ hname
    intro file hfile directory hcontents
    rw [Host.file_put] at hcontents
    split at hcontents
    · next hsame =>
      rw [← hsame] at hcontents
      have hcomplete := hbefore file hfile directory hcontents
      exact hcomplete.of_same fun name => hfragments directory name (hmid.untouched hcomplete name)
    · refine (hmid.included hp hbefore file hfile directory hcontents).of_same fun name => ?_
      rw [Host.file_put]
      split
      · next hsame =>
        -- a fragment with a backup has not been touched
        have hname : FilePath.fragment directory name ∉ touched := fun hmem =>
          hfragment directory name hsame.symm (hsame ▸ hmid.fresh directory name hmem name)
        rw [← hsame, hmid.same _ hname]
      · rfl

/-- A directory that the call has created is gone. -/
theorem Midway.removeDirectory {directory : String}
    (hmid : Midway packages root plain before touched h)
    (hnew : ∀ name, before.file (.fragment directory name) = none)
    (hindexes : ∀ file : ConfigFile, file.isIndex = true → FilePath.config file ∉ touched) :
    Midway packages root plain before (touched \ pathsIn directory)
      (h.removeDirectory directory) where
  version := hmid.version
  unrestored := hmid.unrestored
  same := by
    intro path hpath
    rw [Host.file_removeDirectory]
    split
    · next hin =>
      cases path with
      | fragment d name =>
        rw [fragment_mem_pathsIn.mp hin, hnew name]
      | config _ | certificate _ => cases hin
    · next hout => exact hmid.same path fun hmem => hpath ⟨hmem, hout⟩
  fresh := fun d name hmem => hmid.fresh d name hmem.1
  included := by
    intro hp hbefore file hfile d hcontents
    have hconfig : ¬ (FilePath.config file).isIn directory = true := Bool.false_ne_true
    rw [Host.file_removeDirectory, if_neg hconfig] at hcontents
    have hcomplete := hmid.included hp hbefore file hfile d hcontents
    rw [hmid.same _ (hindexes file hfile)] at hcontents
    obtain ⟨name, hname⟩ := (hbefore file hfile d hcontents).present
    have hother : d ≠ directory := fun hsame => hname (hsame ▸ hnew name)
    refine hcomplete.of_same fun name => ?_
    have hout : ¬ (FilePath.fragment d name).isIn directory = true :=
      fun hin => hother (fragment_mem_pathsIn.mp hin)
    rw [Host.file_removeDirectory, if_neg hout]

end

end SimpleCdn.Agent
