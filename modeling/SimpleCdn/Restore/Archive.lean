import Mathlib.Algebra.Group.Int.Defs
import SimpleCdn.Lib.Crash
import SimpleCdn.Lib.FileTree
import SimpleCdn.Lib.Transition

/-!
# Extraction of restore archives

`extractRestoreArchive` takes the members of a tar archive one after the other.  It checks the
names and link names as texts, and works on the file system, where the links of earlier members
count.  A path here is the list of names of an absolute path.

The extraction stays inside its root as long as the first missing part of every member's name is
made at a location inside the root.  A link to an absolute path passes the checks and takes the
members named through it elsewhere.
-/

namespace SimpleCdn.Restore

open Crash Crash.Prog FileTree Transition

/-- The type flags of a tar header that the extraction tells apart. -/
inductive Typeflag
  | dir
  | reg
  | symlink
  | link
  | other (flag : UInt8)
  deriving DecidableEq, Repr

/-- A member of a tar archive: what its header says and the bytes that follow it. -/
structure Member where
  name : String
  typeflag : Typeflag
  size : Int
  linkname : String
  content : List UInt8
  deriving DecidableEq, Repr

/-- What the extraction returns an error for. -/
inductive ArchiveError
  /-- `restore archive member %q escapes its root`. -/
  | memberEscapes (name : String)
  /-- `restore archive exceeds the 1 GiB safety limit`. -/
  | tooLarge
  /-- `duplicate restore archive member %s`. -/
  | duplicateMember (name : String)
  /-- `restore archive symlink %s escapes its root`. -/
  | symlinkEscapes (name : String)
  /-- `unsupported restore archive entry type %d for %s`. -/
  | unsupportedType (flag : UInt8) (name : String)
  /-- An error of the file system or of the reader. -/
  | operation
  deriving DecidableEq, Repr

/-! ### The checks on names -/

/-- A part of a path, put on the parts before it as `filepath.Clean` does.  The last part is the
head of the list. -/
def cleanPart (rooted : Bool) (parts : List String) (part : String) : List String :=
  if part = "" ∨ part = "." then parts
  else if part = ".." then
    match parts with
    | [] => if rooted then [] else [".."]
    | last :: before => if last = ".." then ".." :: parts else before
  else part :: parts

/-- `filepath.Clean` on the parts of a path. -/
def clean (rooted : Bool) (parts : List String) : List String :=
  (parts.foldl (cleanPart rooted) []).reverse

/-- `filepath.Join` of an absolute path and the parts of another. -/
def join (root parts : List String) : List String :=
  clean true (root ++ parts)

/-- The relative path from `root` to `path` does not go up. -/
def pathWithin (root path : List String) : Bool :=
  (clean true root).isPrefixOf (clean true path)

/-- The cleaned name of a member and where it goes. -/
def safeRestorePath (root : List String) (name : String) :
    Option (List String × List String) :=
  let cleaned := clean false (components name)
  if isAbs name ∨ cleaned.head? = some ".." then none
  else
    let destination := join root cleaned
    if pathWithin root destination then some (cleaned, destination) else none

def maxArchiveBytes : Int := 2 ^ 30

/-- The size of the member, on top of those before it, is refused. -/
def exceedsLimit (total : Int) (m : Member) : Bool :=
  m.size < 0 || m.size > maxArchiveBytes || total + m.size > maxArchiveBytes

/-- The check on the target of a symbolic link: the link name joined to the directory of the
link. -/
def symlinkWithin (root destination : List String) (linkname : String) : Bool :=
  pathWithin root (join destination.dropLast (components linkname))

/-! ### The extraction -/

/-- `os.MkdirAll` for the path with the names `up`, the last one first. -/
def mkdirUp : List String → Prog Tree Bool
  | [] => do
    match ← inspect fun t : Tree => t.stat [] with
    | some (some node) => pure (node == .dir)
    | _ => pure ((← inspect fun t : Tree => t.lstat []) == some (some .dir))
  | x :: up => do
    match ← inspect fun t : Tree => t.stat (x :: up).reverse with
    | some (some node) => pure (node == .dir)
    | _ =>
      if ← mkdirUp up then
        if ← act fun t : Tree => t.create (x :: up).reverse .dir then pure true
        else
          -- what is there already may be a directory
          pure ((← inspect fun t : Tree => t.lstat (x :: up).reverse) == some (some .dir))
      else pure false

/-- `os.MkdirAll`. -/
def mkdirAll (path : List String) : Prog Tree Bool :=
  mkdirUp path.reverse

/-- A regular file with the content of the member. -/
def extractFile (m : Member) (destination : List String) :
    Prog Tree (Option ArchiveError) := do
  if !(← mkdirAll destination.dropLast) then pure (some .operation)
  else
    match ← inspect fun t : Tree => t.lstat destination with
    | none => pure (some .operation)
    | some (some _) => pure (some (.duplicateMember m.name))
    | some none =>
      if !(← act fun t : Tree => t.create destination (.file [])) then pure (some .operation)
      else
        let file ← get fun t : Tree => t.entry destination
        let content := m.content.take m.size.toNat
        if !(← act fun t : Tree => file.bind fun loc => t.write loc content) then
          pure (some .operation)
        else if m.content.length < m.size then pure (some .operation)
        else pure none

/-- A symbolic link with the link name of the member. -/
def extractSymlink (root : List String) (m : Member) (destination : List String) :
    Prog Tree (Option ArchiveError) := do
  if !(← mkdirAll destination.dropLast) then pure (some .operation)
  else if !symlinkWithin root destination m.linkname then
    pure (some (.symlinkEscapes m.name))
  else if ← act fun t : Tree =>
      if m.linkname = "" then none else t.create destination (.link m.linkname) then
    pure none
  else pure (some .operation)

/-- A hard link to what the link name of the member names. -/
def extractLink (root : List String) (m : Member) (destination : List String) :
    Prog Tree (Option ArchiveError) :=
  match safeRestorePath root m.linkname with
  | none => pure (some (.memberEscapes m.linkname))
  | some (_, target) => do
    if ← act fun t : Tree => t.hardLink target destination then pure none
    else pure (some .operation)

/-- The `switch` on the type flag. -/
def extractEntry (root : List String) (m : Member) (destination : List String) :
    Prog Tree (Option ArchiveError) :=
  match m.typeflag with
  | .dir => do
    if ← mkdirAll destination then pure none else pure (some .operation)
  | .reg => extractFile m destination
  | .symlink => extractSymlink root m destination
  | .link => extractLink root m destination
  | .other flag => pure (some (.unsupportedType flag m.name))

/-- One round of the loop of `extractRestoreArchive`: the error it returns, or the total size so
far. -/
def extractMember (root : List String) (total : Int) (m : Member) :
    Prog Tree (Except ArchiveError Int) :=
  match safeRestorePath root m.name with
  | none => pure (.error (.memberEscapes m.name))
  | some (cleaned, destination) =>
    if cleaned = [] then pure (.ok total)
    else if exceedsLimit total m then pure (.error .tooLarge)
    else do
      match ← extractEntry root m destination with
      | some error => pure (.error error)
      | none => pure (.ok (total + m.size))

inductive Status
  /-- The next member is read, with the total size so far. -/
  | reading (total : Int)
  | returned (error : ArchiveError)
  /-- The process has stopped. -/
  | stopped
  deriving DecidableEq, Repr

/-- The file system and how far the extraction is. -/
structure Extraction where
  tree : Tree
  status : Status

/-- `extractRestoreArchive` up to its loop. -/
def opened (root : List String) (t : Tree) (faults : List Fault) : Extraction :=
  let out := (mkdirAll root).exec faults t
  { tree := out.state
    status := match out.result with
      | some true => .reading 0
      | some false => .returned .operation
      | none => .stopped }

/-- The loop of `extractRestoreArchive` at a member, under the faults given. -/
def extractStep (root : List String) (e : Extraction) (next : Member × List Fault) :
    Extraction :=
  match e.status with
  | .reading total =>
    let out := (extractMember root total next.1).exec next.2 e.tree
    { tree := out.state
      status := match out.result with
        | some (.ok total) => .reading total
        | some (.error error) => .returned error
        | none => .stopped }
  | _ => e

/-! ### The claim -/

/-- The checks of the extraction reject the member. -/
def Rejected (root : List String) (total : Int) (t : Tree) (m : Member) : Prop :=
  match safeRestorePath root m.name with
  | none => True
  | some (cleaned, destination) =>
    cleaned ≠ [] ∧
      (exceedsLimit total m ∨
        match m.typeflag with
        | .dir => False
        | .reg => (t.lstat destination).isSome
        | .symlink => symlinkWithin root destination m.linkname = false
        | .link => safeRestorePath root m.linkname = none
        | .other _ => True)

/-- The member is not rejected, or the extraction does not go on after it. -/
def Refuses (root : List String) (e : Extraction) (next : Member × List Fault) : Prop :=
  ∀ total, e.status = .reading total → Rejected root total e.tree next.1 →
    ∀ total', (extractStep root e next).status ≠ .reading total'

/-- Where the first node for the member is made when its type and link name are accepted. -/
def entryLanding (root : List String) (t : Tree) (m : Member) (destination : List String) :
    Option Location :=
  match m.typeflag with
  | .dir | .reg => t.firstMissing destination
  | .symlink =>
    t.firstMissing
      (if symlinkWithin root destination m.linkname then destination else destination.dropLast)
  | .link => if (safeRestorePath root m.linkname).isSome then t.vacancy destination else none
  | .other _ => none

/-- Where the first node for the member is made when it is not rejected before that. -/
def landing (root : List String) (e : Extraction) (m : Member) : Option Location :=
  match e.status, safeRestorePath root m.name with
  | .reading total, some (cleaned, destination) =>
    if cleaned = [] ∨ exceedsLimit total m then none
    else entryLanding root e.tree m destination
  | _, _ => none

/-- The first node for the member is made inside the location of the root. -/
def LandsInside (root : List String) (home : Location) (e : Extraction)
    (next : Member × List Fault) : Prop :=
  ∀ loc ∈ landing root e next.1, home <+: loc

instance (root : List String) (home : Location) (e : Extraction) (next : Member × List Fault) :
    Decidable (LandsInside root home e next) :=
  inferInstanceAs (Decidable (∀ loc ∈ landing root e next.1, home <+: loc))

/-! ### What the operations reach -/

section Rules

variable {t t' : Tree} {root : List String} {home : Location}

/-- `t'` comes from `t` by making missing directories of the path. -/
structure Made (t : Tree) (path : List String) (t' : Tree) : Prop where
  complete : t.firstMissing path = none → t' = t
  within : ∀ loc, t.firstMissing path = some loc → Tree.Within loc t t'

/-- What was missing of the path is there, below the first node made. -/
def Arrived (t : Tree) (path : List String) (t' : Tree) : Prop :=
  ∀ loc, t.firstMissing path = some loc → ∃ dir, t'.resolve path = some dir ∧ loc <+: dir

theorem Made.refl (t : Tree) (path : List String) : Made t path t :=
  ⟨fun _ => rfl, fun loc _ => .refl loc t⟩

theorem Made.concat {up : List String} (h : Made t up t') (x : String) :
    Made t (up ++ [x]) t' := by
  constructor
  · intro hnone
    rw [Tree.firstMissing_concat, Option.or_eq_none_iff] at hnone
    exact h.complete hnone.1
  · intro loc hloc
    rw [Tree.firstMissing_concat] at hloc
    cases hup : t.firstMissing up with
    | none =>
      rw [h.complete hup]
      exact .refl loc t
    | some loc' =>
      rw [hup, Option.some_or] at hloc
      cases hloc
      exact h.within loc hup

theorem Made.inside {path : List String} (h : Made t path t')
    (hhome : ∀ loc, t.firstMissing path = some loc → home <+: loc) : Tree.Within home t t' := by
  cases hmissing : t.firstMissing path with
  | none =>
    rw [h.complete hmissing]
    exact .refl home t
  | some loc => exact (h.within loc hmissing).mono (hhome loc hmissing)

/-- A vacancy at the end of a path whose missing part has been made is below the first node
made. -/
theorem Made.vacancy {up : List String} {x : String} {new : Location} (hmade : Made t up t')
    (harrived : Arrived t up t') (hnew : t'.vacancy (up ++ [x]) = some new) :
    ∃ loc, t.firstMissing (up ++ [x]) = some loc ∧ Tree.Within loc t t' ∧ loc <+: new := by
  rw [Tree.firstMissing_concat]
  cases hup : t.firstMissing up with
  | none =>
    obtain rfl := hmade.complete hup
    exact ⟨new, by simpa using hnew, .refl new t', List.prefix_rfl⟩
  | some loc =>
    obtain ⟨dir, hdir, hbelow⟩ := harrived loc hup
    obtain ⟨dir', hdir', -, -, rfl, -⟩ := Tree.vacancy_concat.mp hnew
    obtain rfl : dir = dir' := Option.some.inj (hdir.symm.trans hdir')
    exact ⟨loc, rfl, hmade.within loc hup, hbelow.trans (List.prefix_append dir [x])⟩

/-- Another directory at the end of such a path. -/
theorem Made.mkdir {up : List String} {x : String} {t₁ t₂ : Tree} (hmade : Made t up t₁)
    (harrived : Arrived t up t₁) (h : t₁.create (up ++ [x]) .dir = some t₂) :
    Made t (up ++ [x]) t₂ ∧ Arrived t (up ++ [x]) t₂ := by
  obtain ⟨new, hnew, hresolve⟩ := Tree.resolve_create h
  obtain ⟨loc, hloc, hwithin, hbelow⟩ := hmade.vacancy harrived hnew
  refine ⟨⟨by simp [hloc], ?_⟩, ?_⟩
  · intro loc' hloc'
    cases hloc.symm.trans hloc'
    refine hwithin.trans (Tree.create_within h ?_)
    intro place hplace
    cases hnew.symm.trans hplace
    exact hbelow
  · intro loc' hloc'
    cases hloc.symm.trans hloc'
    exact ⟨new, hresolve, hbelow⟩

/-- A directory that is there already at the end of such a path. -/
theorem Arrived.lstat {up : List String} {x : String} (hmade : Made t up t')
    (harrived : Arrived t up t') (h : t'.lstat (up ++ [x]) = some .dir) :
    Arrived t (up ++ [x]) t' := by
  obtain ⟨dir, hdir, hresolve⟩ := Tree.resolve_of_lstat h
  intro loc hloc
  rw [Tree.firstMissing_concat] at hloc
  cases hup : t.firstMissing up with
  | none =>
    obtain rfl := hmade.complete hup
    rw [hup, Tree.vacancy_of_resolve hresolve] at hloc
    simp at hloc
  | some loc' =>
    rw [hup, Option.some_or] at hloc
    cases hloc
    obtain ⟨dir', hdir', hbelow⟩ := harrived loc hup
    obtain rfl : dir = dir' := Option.some.inj (hdir.symm.trans hdir')
    exact ⟨_, hresolve, hbelow.trans (List.prefix_append dir [x])⟩

theorem arrived_of_stat {path : List String} {v : FileTree.Node} (h : t.stat path = some v) :
    Arrived t path t := by
  obtain ⟨dir, hdir, -⟩ := Option.bind_eq_some_iff.mp h
  intro loc hloc
  rw [Tree.firstMissing_of_resolve hdir] at hloc
  cases hloc

/-- `mkdirAll` makes missing directories of its path only, all of them if it goes through. -/
theorem wp_mkdirUp (t : Tree) (up : List String) :
    (mkdirUp up).wp
      (fun ok t' => Made t up.reverse t' ∧ (ok = true → Arrived t up.reverse t'))
      (Made t up.reverse) t := by
  induction up with
  | nil =>
    have hnil : Made t [] t ∧ Arrived t [] t :=
      ⟨.refl t [], fun loc hloc => by simp at hloc⟩
    rw [mkdirUp, wp_bind, wp_inspect]
    have hlstat : (do
        pure ((← inspect fun t : Tree => t.lstat []) == some (some .dir)) : Prog Tree Bool).wp
          (fun ok t' => Made t [] t' ∧ (ok = true → Arrived t [] t')) (Made t []) t := by
      rw [wp_bind, wp_inspect]
      exact ⟨⟨hnil.1, fun _ => hnil.2⟩, hnil.1, hnil.1, fun _ => hnil.2⟩
    refine ⟨hlstat, hnil.1, ?_⟩
    cases t.stat [] with
    | none => exact hlstat
    | some v => exact ⟨hnil.1, fun _ => hnil.2⟩
  | cons x up ih =>
    rw [List.reverse_cons]
    have hslow : (do
        if ← mkdirUp up then
          if ← act fun t : Tree => t.create (x :: up).reverse .dir then pure true
          else pure ((← inspect fun t : Tree => t.lstat (x :: up).reverse) == some (some .dir))
        else pure false : Prog Tree Bool).wp
          (fun ok t' => Made t (up.reverse ++ [x]) t' ∧
            (ok = true → Arrived t (up.reverse ++ [x]) t'))
          (Made t (up.reverse ++ [x])) t := by
      rw [wp_bind]
      refine ih.mono ?_ fun t₁ hmade => hmade.concat x
      rintro ok t₁ ⟨hmade, harrived⟩
      rw [wp_ite]
      refine ⟨fun hok => ?_, fun _ => ⟨hmade.concat x, by simp⟩⟩
      have hstay := hmade.concat x
      simp only [List.reverse_cons, wp_bind, wp_act, wp_ite, wp_pure, wp_inspect,
        Bool.false_eq_true, false_implies, not_false_eq_true, forall_const, true_and,
        not_true_eq_false, and_true]
      refine ⟨⟨⟨hstay, by simp⟩, hstay, hstay, ?_⟩, hstay, ?_⟩
      · intro hdir
        exact (harrived hok).lstat hmade (by simpa using hdir)
      · intro t₂ ht₂
        have hnext := hmade.mkdir (harrived hok) ht₂
        exact ⟨⟨hnext.1, hnext.2⟩, hnext.1⟩
    rw [mkdirUp, wp_bind, wp_inspect]
    refine ⟨hslow, .refl t _, ?_⟩
    cases hstat : t.stat (x :: up).reverse with
    | none => exact hslow
    | some v =>
      rw [List.reverse_cons] at hstat
      exact ⟨.refl t _, fun _ => arrived_of_stat hstat⟩

theorem wp_mkdirAll (t : Tree) (path : List String) :
    (mkdirAll path).wp (fun ok t' => Made t path t' ∧ (ok = true → Arrived t path t'))
      (Made t path) t := by
  simpa [mkdirAll] using wp_mkdirUp t path.reverse

/-! ### A member -/

theorem firstMissing_dropLast {path : List String} {loc : Location}
    (h : t.firstMissing path.dropLast = some loc) : t.firstMissing path = some loc := by
  rcases List.eq_nil_or_concat' path with rfl | ⟨up, x, rfl⟩
  · exact h
  · rw [List.dropLast_concat] at h
    rw [Tree.firstMissing_concat, h]
    rfl

/-- What is created at a path after its directory has been made is inside the root when the first
missing part of the path is. -/
theorem Made.vacancy_inside {path : List String} (hmade : Made t path.dropLast t')
    (harrived : Arrived t path.dropLast t')
    (hhome : ∀ loc, t.firstMissing path = some loc → home <+: loc) :
    ∀ new, t'.vacancy path = some new → home <+: new := by
  intro new hnew
  rcases List.eq_nil_or_concat' path with rfl | ⟨up, x, rfl⟩
  · rw [Tree.vacancy_nil] at hnew
    cases hnew
  · rw [List.dropLast_concat] at hmade harrived
    obtain ⟨loc, hloc, -, hbelow⟩ := hmade.vacancy harrived hnew
    exact (hhome loc hloc).trans hbelow

theorem wp_extractFile {m : Member} {destination : List String}
    (hhome : ∀ loc, t.firstMissing destination = some loc → home <+: loc) :
    (extractFile m destination).wp (fun _ => Tree.Within home t) (Tree.Within home t) t := by
  have hparent : ∀ t₁, Made t destination.dropLast t₁ → Tree.Within home t t₁ :=
    fun t₁ hmade => hmade.inside fun loc hloc => hhome loc (firstMissing_dropLast hloc)
  rw [extractFile, wp_bind]
  refine (wp_mkdirAll t destination.dropLast).mono ?_ hparent
  rintro ok t₁ ⟨hmade, harrived⟩
  have hwithin := hparent t₁ hmade
  rw [wp_ite]
  refine ⟨fun _ => hwithin, fun hok => ?_⟩
  have hvacant := hmade.vacancy_inside (harrived (by simpa using hok)) hhome
  rw [wp_bind, wp_inspect]
  refine ⟨hwithin, hwithin, ?_⟩
  cases t₁.lstat destination with
  | some v => exact hwithin
  | none =>
    simp only [wp_bind, wp_act, wp_ite, wp_pure, wp_get]
    refine ⟨⟨fun _ => hwithin, by simp⟩, hwithin, fun t₂ ht₂ => ?_⟩
    have hwithin₂ := hwithin.trans (Tree.create_within ht₂ hvacant)
    refine ⟨⟨by simp, fun _ => ⟨⟨fun _ => hwithin₂, fun _ => ⟨fun _ => hwithin₂,
      fun _ => hwithin₂⟩⟩, hwithin₂, fun t₃ ht₃ => ?_⟩⟩, hwithin₂⟩
    -- the file written is the one that has just been created
    obtain ⟨new, hnew, -⟩ := Tree.create_eq_some ht₂
    have hentry := Tree.entry_grows (Tree.create_grows ht₂) (Tree.vacancy_entry hnew)
    rw [hentry, Option.bind_some] at ht₃
    have hwithin₃ := hwithin₂.trans (Tree.write_within ht₃ (hvacant new hnew))
    exact ⟨⟨fun _ => hwithin₃, fun _ => ⟨fun _ => hwithin₃, fun _ => hwithin₃⟩⟩, hwithin₃⟩

theorem wp_extractSymlink {m : Member} {destination : List String}
    (hhome : ∀ loc, t.firstMissing (if symlinkWithin root destination m.linkname
      then destination else destination.dropLast) = some loc → home <+: loc) :
    (extractSymlink root m destination).wp (fun _ => Tree.Within home t)
      (Tree.Within home t) t := by
  have hparent : ∀ t₁, Made t destination.dropLast t₁ → Tree.Within home t t₁ := by
    refine fun t₁ hmade => hmade.inside fun loc hloc => hhome loc ?_
    split
    · exact firstMissing_dropLast hloc
    · exact hloc
  rw [extractSymlink, wp_bind]
  refine (wp_mkdirAll t destination.dropLast).mono ?_ hparent
  rintro ok t₁ ⟨hmade, harrived⟩
  have hwithin := hparent t₁ hmade
  simp only [wp_bind, wp_act, wp_ite, wp_pure]
  refine ⟨fun _ => hwithin, fun hok => ⟨fun _ => hwithin, fun hinside => ?_⟩⟩
  refine ⟨⟨by simp, fun _ => hwithin⟩, hwithin, fun t₂ ht₂ => ?_⟩
  rw [if_pos (by simpa using hinside)] at hhome
  have hvacant := hmade.vacancy_inside (harrived (by simpa using hok)) hhome
  split_ifs at ht₂
  have hwithin₂ := hwithin.trans (Tree.create_within ht₂ hvacant)
  exact ⟨⟨fun _ => hwithin₂, fun _ => hwithin₂⟩, hwithin₂⟩

theorem wp_extractLink {m : Member} {destination : List String}
    (hhome : (safeRestorePath root m.linkname).isSome →
      ∀ loc, t.vacancy destination = some loc → home <+: loc) :
    (extractLink root m destination).wp (fun _ => Tree.Within home t)
      (Tree.Within home t) t := by
  have hwithin := Tree.Within.refl home t
  rw [extractLink]
  cases hsafe : safeRestorePath root m.linkname with
  | none => exact hwithin
  | some r =>
    simp only [wp_bind, wp_act, wp_ite, wp_pure]
    refine ⟨⟨by simp, fun _ => hwithin⟩, hwithin, fun t₁ ht₁ => ?_⟩
    obtain ⟨v, -, -, hcreate⟩ := Tree.hardLink_eq_some ht₁
    have hwithin₁ := Tree.create_within hcreate (hhome (by rw [hsafe]; rfl))
    exact ⟨⟨fun _ => hwithin₁, fun _ => hwithin₁⟩, hwithin₁⟩

theorem wp_extractEntry {m : Member} {destination : List String}
    (hhome : ∀ loc ∈ entryLanding root t m destination, home <+: loc) :
    (extractEntry root m destination).wp (fun _ => Tree.Within home t)
      (Tree.Within home t) t := by
  rw [extractEntry]
  rw [entryLanding] at hhome
  cases htype : m.typeflag with
  | dir =>
    rw [htype] at hhome
    have hinside : ∀ t', Made t destination t' → Tree.Within home t t' :=
      fun t' hmade => hmade.inside hhome
    rw [wp_bind]
    refine (wp_mkdirAll t destination).mono (fun ok t' hmade => ?_) hinside
    rw [wp_ite]
    exact ⟨fun _ => hinside t' hmade.1, fun _ => hinside t' hmade.1⟩
  | reg =>
    rw [htype] at hhome
    exact wp_extractFile hhome
  | symlink =>
    rw [htype] at hhome
    exact wp_extractSymlink hhome
  | link =>
    rw [htype] at hhome
    exact wp_extractLink fun hlink loc hloc => hhome loc (by simpa [hlink] using hloc)
  | other flag => exact .refl home t

/-- A member whose first node is made inside the root changes nothing outside it. -/
theorem wp_extractMember {e : Extraction} {next : Member × List Fault} {total : Int}
    (hstatus : e.status = .reading total) (hlands : LandsInside root home e next) :
    (extractMember root total next.1).wp (fun _ => Tree.Within home e.tree)
      (Tree.Within home e.tree) e.tree := by
  have hrefl := Tree.Within.refl home e.tree
  rw [LandsInside, landing, hstatus] at hlands
  rw [extractMember]
  cases hsafe : safeRestorePath root next.1.name with
  | none => exact hrefl
  | some r =>
    obtain ⟨cleaned, destination⟩ := r
    simp only [hsafe] at hlands
    simp only [wp_ite, wp_pure, wp_bind]
    refine ⟨fun _ => hrefl, fun hname => ⟨fun _ => hrefl, fun hsize => ?_⟩⟩
    rw [if_neg (by simp [hname, hsize])] at hlands
    refine (wp_extractEntry hlands).mono (fun error t' hwithin => ?_) fun _ h => h
    cases error <;> exact hwithin

/-- What the checks reject does not go through. -/
theorem wp_extractFile_duplicate {m : Member} {destination : List String}
    (hthere : (t.lstat destination).isSome) :
    (extractFile m destination).wp (fun error _ => error.isSome) (fun _ => True) t := by
  have hmissing : t.firstMissing destination.dropLast = none := by
    rcases List.eq_nil_or_concat' destination with rfl | ⟨up, x, rfl⟩
    · exact Tree.firstMissing_nil
    · obtain ⟨v, hv⟩ := Option.isSome_iff_exists.mp hthere
      obtain ⟨loc, hloc, -⟩ := Option.bind_eq_some_iff.mp hv
      rw [Tree.entry_concat] at hloc
      obtain ⟨dir, hdir, -⟩ := Option.bind_eq_some_iff.mp hloc
      rw [List.dropLast_concat]
      exact Tree.firstMissing_of_resolve hdir
  rw [extractFile, wp_bind]
  refine (wp_mkdirAll t destination.dropLast).mono ?_ fun _ _ => trivial
  rintro ok t₁ ⟨hmade, -⟩
  obtain rfl := hmade.complete hmissing
  rw [wp_ite, wp_bind, wp_inspect]
  refine ⟨fun _ => rfl, fun _ => ⟨rfl, trivial, ?_⟩⟩
  obtain ⟨v, hv⟩ := Option.isSome_iff_exists.mp hthere
  rw [hv]
  rfl

theorem wp_extractSymlink_escapes {m : Member} {destination : List String}
    (hescapes : symlinkWithin root destination m.linkname = false) :
    (extractSymlink root m destination).wp (fun error _ => error.isSome) (fun _ => True) t := by
  rw [extractSymlink, wp_bind]
  refine (wp_true _ t).mono (fun ok t₁ _ => ?_) fun _ _ => trivial
  simp only [wp_ite, hescapes]
  exact ⟨fun _ => rfl, fun _ => ⟨fun _ => rfl, by simp⟩⟩

theorem wp_extractMember_rejected {total : Int} {m : Member} (h : Rejected root total t m) :
    (extractMember root total m).wp (fun result _ => ∀ total', result ≠ .ok total')
      (fun _ => True) t := by
  rw [Rejected] at h
  rw [extractMember]
  cases hsafe : safeRestorePath root m.name with
  | none => simp
  | some r =>
    obtain ⟨cleaned, destination⟩ := r
    simp only [hsafe] at h
    simp only [wp_ite, wp_pure, wp_bind, h.1, false_implies, true_and, not_false_eq_true,
      forall_const]
    refine ⟨by simp, fun hsize => ?_⟩
    have htype := h.2.resolve_left hsize
    have hentry : (extractEntry root m destination).wp (fun error _ => error.isSome)
        (fun _ => True) t := by
      rw [extractEntry]
      cases hflag : m.typeflag with
      | dir => simp [hflag] at htype
      | reg =>
        rw [hflag] at htype
        exact wp_extractFile_duplicate htype
      | symlink =>
        rw [hflag] at htype
        exact wp_extractSymlink_escapes htype
      | link =>
        simp only [hflag] at htype
        simp [extractLink, htype]
      | other flag => rfl
    refine hentry.mono (fun error t' herror => ?_) fun _ h => h
    obtain ⟨error', rfl⟩ := Option.isSome_iff_exists.mp herror
    simp

/-! ### The run over the archive -/

/-- A root that is there is left alone by the creation of the root. -/
theorem opened_tree (hroot : t.resolve root = some home) (faults : List Fault) :
    (opened root t faults).tree = t := by
  have hmade := (wp_mkdirAll t root).mono (D := Made t root)
    (R := fun _ => Made t root) (fun _ _ h => h.1) fun _ h => h
  exact (hmade.state faults).complete (Tree.firstMissing_of_resolve hroot)

theorem extractStep_within {e : Extraction} {next : Member × List Fault}
    (hlands : LandsInside root home e next) :
    Tree.Within home e.tree (extractStep root e next).tree := by
  rw [extractStep]
  cases hstatus : e.status with
  | reading total => exact (wp_extractMember hstatus hlands).state next.2
  | returned error => exact .refl home e.tree
  | stopped => exact .refl home e.tree

theorem extractStep_refuses (e : Extraction) (next : Member × List Fault) :
    Refuses root e next := by
  intro total hstatus hrejected total'
  rw [extractStep, hstatus]
  have hresult := wp_extractMember_rejected hrejected
  cases hout : ((extractMember root total next.1).exec next.2 e.tree).result with
  | none => simp [hout]
  | some result =>
    cases result with
    | error error => simp [hout]
    | ok total'' => exact absurd rfl (hresult.exec hout total'')

end Rules

/-! ### Two small archives -/

section Example

/-- A system with `/etc` and the empty directory `/srv/tls`. -/
def smallSystem : Tree :=
  [["etc"], ["srv"], ["srv", "tls"]].foldl (fun t path => (t.create path .dir).getD t) Tree.bare

def regular (name : String) : Member :=
  { name := name, typeflag := .reg, size := 1, linkname := "", content := [120] }

def symbolic (name target : String) : Member :=
  { name := name, typeflag := .symlink, size := 0, linkname := target, content := [] }

end Example

end SimpleCdn.Restore
