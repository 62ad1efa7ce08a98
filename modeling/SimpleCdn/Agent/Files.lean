import Mathlib.Data.List.Dedup
import SimpleCdn.Lib.Attempt
import SimpleCdn.Lib.Table

/-!
# The files of an edge

The agent writes the four files that Nginx includes, a directory for each set of fragments of its
configuration, and the certificate files of the sites.  A write puts a new file in the place of
the old one, so it takes effect as a whole or not at all.

`unrestored` remembers that an operation failed which was to take something back; the agent does
not look at the errors of these.
-/

namespace SimpleCdn.Agent

open Crash Crash.Prog

/-- The files named by `NginxConfigPath`, `NginxStreamConfigPath`, `NginxMainConfigPath` and
`NginxEventsConfigPath`. -/
inductive ConfigFile
  | http
  | stream
  | main
  | events
  deriving DecidableEq, Repr

inductive FilePath
  | config (file : ConfigFile)
  | fragment (directory name : String)
  | certificate (name : String)
  deriving DecidableEq, Repr

structure File where
  path : FilePath
  contents : String
  deriving DecidableEq, Repr

instance : Keyed File FilePath := ⟨File.path⟩

structure Host where
  files : Table File
  /-- The file `applied-version`, 0 when there is none. -/
  appliedVersion : ℕ
  /-- The directories in the root of the cache. -/
  rootCaches : List String
  /-- The directories in its directory `sites`. -/
  siteCaches : List String
  /-- What Nginx read when it loaded its configuration last, apart from fragments. -/
  running : FilePath → Option String
  unrestored : Bool

namespace Host

def file (h : Host) (path : FilePath) : Option String :=
  (h.files.find? path).map File.contents

/-- The file at the path has the contents, or there is none. -/
def put (h : Host) (path : FilePath) : Option String → Host
  | some contents => { h with files := h.files.upsert ⟨path, contents⟩ }
  | none => { h with files := h.files.delete fun file => file.path = path }

/-- The directory is put in its place with all its files. -/
def install (h : Host) (directory : String) (entries : List (String × String)) : Host :=
  entries.foldl (fun h entry => h.put (.fragment directory entry.1) (some entry.2)) h

end Host

def FilePath.isIn (directory : String) : FilePath → Bool
  | .fragment d _ => d = directory
  | _ => false

namespace Host

/-- `os.RemoveAll` -/
def removeDirectory (h : Host) (directory : String) : Host :=
  { h with files := h.files.delete fun file => file.path.isIn directory }

/-- `os.ReadDir` of a directory of fragments, with the contents of its files. -/
def entries (h : Host) (directory : String) : List (String × String) :=
  h.files.rows.filterMap fun file =>
    match file.path with
    | .fragment d name => if d = directory then some (name, file.contents) else none
    | _ => none

/-- `os.ReadDir` of the directory of the directories of fragments. -/
def directories (h : Host) : List String :=
  (h.files.rows.filterMap fun file =>
    match file.path with
    | .fragment d _ => some d
    | _ => none).dedup

/-- `os.ReadDir` of the directory of certificates. -/
def certificateNames (h : Host) : List String :=
  h.files.rows.filterMap fun file =>
    match file.path with
    | .certificate name => some name
    | _ => none

/-- What Nginx reads; files in a directory of fragments never change. -/
def loaded (h : Host) : FilePath → Option String
  | .fragment _ _ => none
  | path => h.file path

/-! ### What the operations change -/

variable {h : Host} {path : FilePath} {contents : Option String} {directory : String}

theorem file_put (path' : FilePath) :
    (h.put path contents).file path' = if path' = path then contents else h.file path' := by
  cases contents with
  | some text =>
    rw [put, file, Table.find?_upsert]
    by_cases hpath : path' = path
    · rw [if_pos hpath, if_pos (show key (⟨path, text⟩ : File) = path' from hpath.symm)]
      rfl
    · rw [if_neg hpath, if_neg (show ¬ key (⟨path, text⟩ : File) = path' from Ne.symm hpath)]
      rfl
  | none =>
    have hdelete := Table.find?_delete_key (T := h.files) (k := path)
      (p := fun file => decide (file.path = path)) (fun _ => rfl) path'
    rw [put, file, hdelete]
    split
    · rfl
    · rfl

@[simp] theorem file_put_self : (h.put path contents).file path = contents := by
  rw [file_put, if_pos rfl]

theorem file_put_of_ne {path' : FilePath} (hpath : path' ≠ path) :
    (h.put path contents).file path' = h.file path' := by
  rw [file_put, if_neg hpath]

@[simp] theorem appliedVersion_put : (h.put path contents).appliedVersion = h.appliedVersion := by
  cases contents with
  | some _ => rfl
  | none => rfl

@[simp] theorem running_put : (h.put path contents).running = h.running := by
  cases contents with
  | some _ => rfl
  | none => rfl

@[simp] theorem unrestored_put : (h.put path contents).unrestored = h.unrestored := by
  cases contents with
  | some _ => rfl
  | none => rfl

theorem file_removeDirectory (path' : FilePath) :
    (h.removeDirectory directory).file path' =
      if path'.isIn directory then none else h.file path' := by
  rw [removeDirectory, file, Table.find?_delete, file]
  cases hfind : h.files.find? path' with
  | none => simp
  | some found =>
    have hkey : found.path = path' := Table.key_of_find? hfind
    by_cases hin : path'.isIn directory
    · simp [hkey, hin]
    · simp [hkey, hin]

theorem mem_entries {name text : String} :
    (name, text) ∈ h.entries directory ↔ h.file (.fragment directory name) = some text := by
  rw [file, Option.map_eq_some_iff, entries, List.mem_filterMap]
  constructor
  · rintro ⟨found, hmem, hentry⟩
    have hfind := Table.find?_of_mem (T := h.files) hmem
    rcases found with ⟨path, contents⟩
    cases path with
    | fragment d name' =>
      change (if d = directory then some (name', contents) else none) = _ at hentry
      by_cases hd : d = directory
      · rw [if_pos hd] at hentry
        cases hentry
        exact ⟨_, hd ▸ hfind, rfl⟩
      · rw [if_neg hd] at hentry
        cases hentry
    | config _ | certificate _ => cases hentry
  · rintro ⟨found, hfind, rfl⟩
    have hkey : found.path = _ := Table.key_of_find? hfind
    refine ⟨found, Table.mem_of_find? hfind, ?_⟩
    rw [hkey]
    exact if_pos rfl

theorem mem_directories :
    directory ∈ h.directories ↔ ∃ name, (h.file (.fragment directory name)).isSome = true := by
  rw [directories, List.mem_dedup, List.mem_filterMap]
  constructor
  · rintro ⟨found, hmem, hfound⟩
    have hfind := Table.find?_of_mem (T := h.files) hmem
    rcases found with ⟨path, contents⟩
    cases path with
    | fragment d name =>
      obtain rfl : d = directory := Option.some.inj hfound
      refine ⟨name, ?_⟩
      rw [file, Option.isSome_map]
      exact Option.isSome_iff_exists.mpr ⟨_, hfind⟩
    | config _ | certificate _ => cases hfound
  · rintro ⟨name, hname⟩
    rw [file, Option.isSome_map, Option.isSome_iff_exists] at hname
    obtain ⟨found, hfind⟩ := hname
    have hkey : found.path = _ := Table.key_of_find? hfind
    exact ⟨found, Table.mem_of_find? hfind, by rw [hkey]⟩

theorem mem_certificateNames {name : String} :
    name ∈ h.certificateNames ↔ (h.file (.certificate name)).isSome = true := by
  rw [certificateNames, List.mem_filterMap, file, Option.isSome_map, Option.isSome_iff_exists]
  constructor
  · rintro ⟨found, hmem, hfound⟩
    have hfind := Table.find?_of_mem (T := h.files) hmem
    rcases found with ⟨path, contents⟩
    cases path with
    | certificate name' =>
      cases hfound
      exact ⟨_, hfind⟩
    | config _ | fragment _ _ => cases hfound
  · rintro ⟨found, hfind⟩
    have hkey : found.path = _ := Table.key_of_find? hfind
    exact ⟨found, Table.mem_of_find? hfind, by rw [hkey]⟩

section Install

variable {entries : List (String × String)}

@[simp] theorem appliedVersion_install :
    (h.install directory entries).appliedVersion = h.appliedVersion := by
  induction entries generalizing h with
  | nil => rfl
  | cons entry entries ih => exact ih.trans appliedVersion_put

@[simp] theorem unrestored_install :
    (h.install directory entries).unrestored = h.unrestored := by
  induction entries generalizing h with
  | nil => rfl
  | cons entry entries ih => exact ih.trans unrestored_put

@[simp] theorem running_install : (h.install directory entries).running = h.running := by
  induction entries generalizing h with
  | nil => rfl
  | cons entry entries ih => exact ih.trans running_put

theorem file_install_of_not_mem (hpath : ∀ entry ∈ entries, path ≠ .fragment directory entry.1) :
    (h.install directory entries).file path = h.file path := by
  induction entries generalizing h with
  | nil => rfl
  | cons entry entries ih =>
    rw [List.forall_mem_cons] at hpath
    exact (ih hpath.2).trans (file_put_of_ne hpath.1)

theorem file_install_of_mem {name text : String} (hnames : (entries.map Prod.fst).Nodup)
    (hmem : (name, text) ∈ entries) :
    (h.install directory entries).file (.fragment directory name) = some text := by
  induction entries generalizing h with
  | nil => cases hmem
  | cons entry entries ih =>
    rw [List.map_cons, List.nodup_cons] at hnames
    rcases List.mem_cons.mp hmem with rfl | hmem
    · -- no entry after this one has its name
      have hlast : ∀ other ∈ entries,
          FilePath.fragment directory name ≠ .fragment directory other.1 := by
        intro other hother hsame
        have hname : name = other.1 := (FilePath.fragment.inj hsame).2
        exact hnames.1 (List.mem_map.mpr ⟨other, hother, hname.symm⟩)
      show ((h.put _ _).install directory entries).file _ = _
      rw [file_install_of_not_mem hlast]
      exact file_put_self
    · exact ih hnames.2 hmem

end Install

end Host

/-! ### Operations on files -/

/-- `atomicWriteFile` -/
def write (path : FilePath) (contents : String) : Attempt Unit Host Unit :=
  Attempt.act () fun h => some (h.put path (some contents))

/-- `os.Remove` -/
def remove (path : FilePath) : Attempt Unit Host Unit :=
  Attempt.act () fun h => some (h.put path none)

/-- An operation that changes no file that the agent manages. -/
def check : Attempt Unit Host Unit :=
  Attempt.act () some

/-- A file as it was before it was written: `fileBackup`, with its path. -/
abbrev Backup := FilePath × Option String

/-- An operation that takes something back and whose error is not looked at. -/
def takeBack (effect : Host → Host) : Prog Host Unit := do
  if ← Prog.act fun h => some (effect h) then pure ()
  else modify fun h => { h with unrestored := true }

/-- `restoreBackups` and `restoreConfigurationFiles` -/
def restoreBackups : List Backup → Prog Host Unit
  | [] => pure ()
  | backup :: backups => do
    takeBack (·.put backup.1 backup.2)
    restoreBackups backups

/-- The deferred removal of the directories that the call has created. -/
def removeDirectories : List String → Prog Host Unit
  | [] => pure ()
  | directory :: directories => do
    takeBack (·.removeDirectory directory)
    removeDirectories directories

end SimpleCdn.Agent
