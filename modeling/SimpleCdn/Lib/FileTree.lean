import Mathlib.Data.List.Infix
import Mathlib.Logic.Function.Basic

/-!
# File trees with symbolic links

A tree has a node at some of its locations; a location is the list of names from the root.  The
parent of a node is a directory, which the type carries.  A path is a list of names as well, and
`resolve` walks it the way the kernel does: a symbolic link puts the names of its target in front
of what is left of the path, at the root when the target is absolute, and only `linkLimit` links
are followed.

`entry` is the location a path names without following its last name, and `vacancy` that location
when a node can be created there.  `firstMissing` is the first prefix of a path with a vacancy.
`Within` says that two trees agree outside a location.
-/

namespace SimpleCdn.FileTree

/-- The names on the way from the root, the root's first. -/
abbrev Location := List String

inductive Node
  | dir
  | file (content : List UInt8)
  | link (target : String)
  deriving DecidableEq, Repr

/-- A node without the content of a file. -/
def Node.shape : Node → Node
  | .file _ => .file []
  | node => node

@[simp] theorem Node.shape_eq_dir {v : Node} : v.shape = .dir ↔ v = .dir := by
  cases v <;> simp [shape]

@[simp] theorem Node.shape_eq_link {v : Node} {target : String} :
    v.shape = .link target ↔ v = .link target := by
  cases v <;> simp [shape]

structure Tree where
  node : Location → Option Node
  root_dir : node [] = some .dir
  parent_dir : ∀ loc x, (node (loc ++ [x])).isSome → node loc = some .dir

/-! ### Paths -/

/-- The parts of a path between its slashes. -/
def components (path : String) : List String :=
  (path.toList.splitOn '/').map String.ofList

def isAbs (path : String) : Bool :=
  path.toList.head? == some '/'

/-- A name that can be an entry of a directory. -/
def Proper (name : String) : Prop :=
  name ≠ "" ∧ name ≠ "." ∧ name ≠ ".."

instance : DecidablePred Proper := fun _ => inferInstanceAs (Decidable (_ ∧ _))

/-- The number of symbolic links the kernel follows in one path. -/
def linkLimit : Nat := 40

namespace Tree

/-- The tree with nothing but its root. -/
def bare : Tree where
  node loc := if loc = [] then some .dir else none
  root_dir := rfl
  parent_dir loc x h := by simp at h

variable (t : Tree)

/-- A walk along a path from a location.  `follow` goes on at a symbolic link, and `left` is how
many may still be followed. -/
def walkWith (left : Nat) (follow : Location → List String → Option (Location × Nat)) :
    Location → List String → Option (Location × Nat)
  | loc, [] => some (loc, left)
  | loc, x :: rest =>
    if t.node loc ≠ some .dir then none
    else if x = "" ∨ x = "." then walkWith left follow loc rest
    else if x = ".." then walkWith left follow loc.dropLast rest
    else match t.node (loc ++ [x]) with
      | none => none
      | some (.link target) =>
        follow (if isAbs target then [] else loc) (components target ++ rest)
      | some _ => walkWith left follow (loc ++ [x]) rest

/-- The location a walk ends at and the number of links it may still follow. -/
def walk : Nat → Location → List String → Option (Location × Nat)
  | 0 => walkWith t 0 fun _ _ => none
  | left + 1 => walkWith t (left + 1) (walk left)

/-- The location of a path from the root, all its links followed. -/
def resolve (path : List String) : Option Location :=
  (t.walk linkLimit [] path).map Prod.fst

/-- `os.Stat`. -/
def stat (path : List String) : Option Node :=
  (t.resolve path).bind t.node

/-- The location of a path whose last name is not followed. -/
def entry (path : List String) : Option Location :=
  match path.getLast? with
  | none => some []
  | some x =>
    (t.resolve path.dropLast).bind fun loc =>
      if t.node loc = some .dir ∧ Proper x then some (loc ++ [x]) else none

/-- `os.Lstat`. -/
def lstat (path : List String) : Option Node :=
  (t.entry path).bind t.node

/-- A location at which a node can be created. -/
def Free (loc : Location) : Prop :=
  loc ≠ [] ∧ t.node loc.dropLast = some .dir ∧ t.node loc = none

instance (loc : Location) : Decidable (t.Free loc) := inferInstanceAs (Decidable (_ ∧ _))

/-- The location a node created at the path gets, if one can be created there. -/
def vacancy (path : List String) : Option Location :=
  (t.entry path).filter fun loc => t.Free loc

/-- The vacancy of the first prefix of the path that has one. -/
def firstMissing (path : List String) : Option Location :=
  path.inits.findSome? t.vacancy

/-! ### Changes -/

/-- The tree with a new node. -/
def add (loc : Location) (v : Node) (h : t.Free loc) : Tree where
  node := Function.update t.node loc (some v)
  root_dir := by
    rw [Function.update_of_ne h.1.symm]
    exact t.root_dir
  parent_dir := by
    intro parent x hchild
    -- the new node is not the parent of one, as nothing was there
    have hparent : parent ≠ loc ∨ (parent ++ [x] ≠ loc ∧ (t.node (parent ++ [x])).isSome) →
        t.node parent = some .dir → Function.update t.node loc (some v) parent = some .dir := by
      intro _ hdir
      rw [Function.update_of_ne, hdir]
      rintro rfl
      rw [h.2.2] at hdir
      simp at hdir
    by_cases hnew : parent ++ [x] = loc
    · have hdir := h.2.1
      rw [← hnew, List.dropLast_concat] at hdir
      refine hparent (.inl ?_) hdir
      rintro rfl
      simp at hnew
    · rw [Function.update_of_ne hnew] at hchild
      exact hparent (.inr ⟨hnew, hchild⟩) (t.parent_dir parent x hchild)

/-- A new node at the path: `mkdir`, `symlink`, or an exclusive `open`. -/
def create (path : List String) (v : Node) : Option Tree :=
  match t.vacancy path with
  | none => none
  | some loc => if h : t.Free loc then some (t.add loc v h) else none

/-- `os.Link`: the node of one path, not a directory, also at another. -/
def hardLink (source target : List String) : Option Tree :=
  match t.lstat source with
  | none | some .dir => none
  | some v => t.create target v

/-- The content of an open file. -/
def write (loc : Location) (content : List UInt8) : Option Tree :=
  if h : (t.node loc).map Node.shape = some (.file []) then
    some
      { node := Function.update t.node loc (some (.file content))
        root_dir := by
          rw [Function.update_of_ne, t.root_dir]
          rintro rfl
          simp [t.root_dir, Node.shape] at h
        parent_dir := by
          intro parent x hchild
          have hdir : t.node parent = some .dir := by
            by_cases hfile : parent ++ [x] = loc
            · refine t.parent_dir parent x ?_
              rw [hfile]
              cases hnode : t.node loc <;> simp [hnode] at h ⊢
            · rw [Function.update_of_ne hfile] at hchild
              exact t.parent_dir parent x hchild
          rw [Function.update_of_ne, hdir]
          rintro rfl
          simp [hdir, Node.shape] at h }
  else none

/-! ### Walks -/

variable {t}

theorem walkWith_append {left : Nat} {follow : Location → List String → Option (Location × Nat)}
    (hfollow : ∀ loc p q, follow loc (p ++ q) =
      (follow loc p).bind fun r => t.walk r.2 r.1 q)
    (hend : ∀ loc q, t.walkWith left follow loc q = t.walk left loc q)
    (loc : Location) (p q : List String) :
    t.walkWith left follow loc (p ++ q) =
      (t.walkWith left follow loc p).bind fun r => t.walk r.2 r.1 q := by
  induction p generalizing loc with
  | nil => simpa [walkWith] using hend loc q
  | cons x p ih =>
    rw [List.cons_append, walkWith, walkWith]
    split_ifs with hdir hdot hup
    · rfl
    · exact ih loc
    · exact ih loc.dropLast
    · cases t.node (loc ++ [x]) with
      | none => rfl
      | some v =>
        cases v with
        | link target => simpa using hfollow _ (components target ++ p) q
        | dir => exact ih (loc ++ [x])
        | file content => exact ih (loc ++ [x])

/-- A walk along two paths goes on where the walk along the first one ends. -/
theorem walk_append (left : Nat) (loc : Location) (p q : List String) :
    t.walk left loc (p ++ q) = (t.walk left loc p).bind fun r => t.walk r.2 r.1 q := by
  induction left generalizing loc p q with
  | zero =>
    rw [walk]
    exact walkWith_append (by simp) (fun _ _ => rfl) loc p q
  | succ left ih =>
    rw [walk]
    exact walkWith_append ih (fun _ _ => rfl) loc p q

/-- What is at the end of a walk of one proper name. -/
theorem walk_name {left : Nat} {loc : Location} {x : String} (hx : Proper x)
    (hdir : t.node loc = some .dir) :
    t.walk left loc [x] = match t.node (loc ++ [x]), left with
      | none, _ => none
      | some (.link _), 0 => none
      | some (.link target), left + 1 =>
        t.walk left (if isAbs target then [] else loc) (components target)
      | some _, left => some (loc ++ [x], left) := by
  cases left with
  | zero =>
    rw [walk, walkWith, if_neg (by simpa using hdir), if_neg (by simp [hx.1, hx.2.1]),
      if_neg hx.2.2]
    cases t.node (loc ++ [x]) with
    | none => rfl
    | some v => cases v <;> rfl
  | succ left =>
    rw [walk, walkWith, if_neg (by simpa using hdir), if_neg (by simp [hx.1, hx.2.1]),
      if_neg hx.2.2]
    cases t.node (loc ++ [x]) with
    | none => rfl
    | some v =>
      cases v with
      | link target => simp
      | dir => rfl
      | file content => rfl

@[simp] theorem entry_concat (up : List String) (x : String) :
    t.entry (up ++ [x]) = (t.resolve up).bind fun loc =>
      if t.node loc = some .dir ∧ Proper x then some (loc ++ [x]) else none := by
  simp [entry]

theorem vacancy_nil : t.vacancy [] = none := by
  simp [vacancy, entry, Free]

theorem vacancy_concat {up : List String} {x : String} {loc : Location} :
    t.vacancy (up ++ [x]) = some loc ↔
      ∃ dir, t.resolve up = some dir ∧ t.node dir = some .dir ∧ Proper x ∧ loc = dir ++ [x] ∧
        t.node loc = none := by
  rw [vacancy, entry_concat, Option.filter_eq_some_iff]
  constructor
  · rintro ⟨hentry, hfree⟩
    obtain ⟨dir, hdir, hentry⟩ := Option.bind_eq_some_iff.mp hentry
    split_ifs at hentry with hname
    cases hentry
    exact ⟨dir, hdir, hname.1, hname.2, rfl, (of_decide_eq_true hfree).2.2⟩
  · rintro ⟨dir, hdir, hnode, hx, rfl, hnone⟩
    refine ⟨by simp [hdir, hnode, hx], decide_eq_true ?_⟩
    exact ⟨by simp, by rwa [List.dropLast_concat], hnone⟩

theorem vacancy_free {path : List String} {loc : Location} (h : t.vacancy path = some loc) :
    t.Free loc :=
  of_decide_eq_true (Option.filter_eq_some_iff.mp h).2

/-- A path that can be walked has no vacancy at its end. -/
theorem vacancy_of_resolve {path : List String} {loc : Location}
    (h : t.resolve path = some loc) : t.vacancy path = none := by
  rcases List.eq_nil_or_concat' path with rfl | ⟨up, x, rfl⟩
  · exact vacancy_nil
  · rw [Option.eq_none_iff_forall_ne_some]
    intro new hnew
    obtain ⟨dir, hdir, hnode, hx, rfl, hnone⟩ := vacancy_concat.mp hnew
    obtain ⟨⟨dir', left⟩, hwalk, rfl⟩ := Option.map_eq_some_iff.mp hdir
    obtain ⟨r, hr, -⟩ := Option.map_eq_some_iff.mp h
    rw [walk_append, hwalk, Option.bind_some, walk_name hx hnode, hnone] at hr
    simp at hr

theorem resolve_prefix {p q : List String} {loc : Location}
    (h : t.resolve (p ++ q) = some loc) : ∃ loc', t.resolve p = some loc' := by
  obtain ⟨r, hr, -⟩ := Option.map_eq_some_iff.mp h
  rw [walk_append] at hr
  obtain ⟨r', hr', -⟩ := Option.bind_eq_some_iff.mp hr
  exact ⟨r'.1, by rw [resolve, hr']; rfl⟩

@[simp] theorem firstMissing_nil : t.firstMissing [] = none := by
  simp [firstMissing, vacancy_nil]

theorem firstMissing_concat (up : List String) (x : String) :
    t.firstMissing (up ++ [x]) = (t.firstMissing up).or (t.vacancy (up ++ [x])) := by
  rw [firstMissing, List.inits_append, List.findSome?_append]
  simp [firstMissing]

theorem firstMissing_of_resolve {path : List String} {loc : Location}
    (h : t.resolve path = some loc) : t.firstMissing path = none := by
  induction path using List.reverseRecOn generalizing loc with
  | nil => exact firstMissing_nil
  | append_singleton up x ih =>
    obtain ⟨dir, hdir⟩ := resolve_prefix h
    rw [firstMissing_concat, ih hdir, vacancy_of_resolve h]
    rfl

theorem firstMissing_of_vacancy {path : List String} {loc : Location}
    (h : t.vacancy path = some loc) : t.firstMissing path = some loc := by
  rcases List.eq_nil_or_concat' path with rfl | ⟨up, x, rfl⟩
  · rw [vacancy_nil] at h
    cases h
  · obtain ⟨dir, hdir, -⟩ := vacancy_concat.mp h
    rw [firstMissing_concat, firstMissing_of_resolve hdir, h]
    rfl

/-! ### What changes do -/

/-- The trees agree outside the location. -/
def Within (root : Location) (t t' : Tree) : Prop :=
  ∀ loc, ¬ root <+: loc → t'.node loc = t.node loc

theorem Within.refl (root : Location) (t : Tree) : Within root t t := fun _ _ => rfl

theorem Within.trans {root : Location} {t₁ t₂ t₃ : Tree} (h₁₂ : Within root t₁ t₂)
    (h₂₃ : Within root t₂ t₃) : Within root t₁ t₃ :=
  fun loc hloc => (h₂₃ loc hloc).trans (h₁₂ loc hloc)

theorem Within.mono {root below : Location} {t t' : Tree} (h : Within below t t')
    (hbelow : root <+: below) : Within root t t' :=
  fun loc hloc => h loc fun hin => hloc (hbelow.trans hin)

/-- Every node is still there, with the content of files as the only difference. -/
def Grows (t t' : Tree) : Prop :=
  ∀ loc v, t.node loc = some v → ∃ v', t'.node loc = some v' ∧ v'.shape = v.shape

theorem create_eq_some {path : List String} {v : Node} {t' : Tree}
    (h : t.create path v = some t') : ∃ loc, t.vacancy path = some loc ∧
      t'.node = Function.update t.node loc (some v) := by
  rw [create] at h
  cases hloc : t.vacancy path with
  | none => simp [hloc] at h
  | some loc =>
    rw [hloc] at h
    simp only [dif_pos (vacancy_free hloc), Option.some.injEq] at h
    exact ⟨loc, rfl, by rw [← h]; rfl⟩

theorem create_within {path : List String} {v : Node} {t' : Tree} {root : Location}
    (h : t.create path v = some t')
    (hroot : ∀ loc, t.vacancy path = some loc → root <+: loc) : Within root t t' := by
  obtain ⟨new, hnew, hnode⟩ := create_eq_some h
  intro loc hloc
  rw [hnode, Function.update_of_ne]
  rintro rfl
  exact hloc (hroot _ hnew)

theorem create_grows {path : List String} {v : Node} {t' : Tree}
    (h : t.create path v = some t') : Grows t t' := by
  obtain ⟨new, hnew, hnode⟩ := create_eq_some h
  intro loc old hold
  refine ⟨old, ?_, rfl⟩
  rw [hnode, Function.update_of_ne, hold]
  rintro rfl
  rw [(vacancy_free hnew).2.2] at hold
  cases hold

theorem hardLink_eq_some {source target : List String} {t' : Tree}
    (h : t.hardLink source target = some t') :
    ∃ v, t.lstat source = some v ∧ v ≠ .dir ∧ t.create target v = some t' := by
  rw [hardLink] at h
  cases hv : t.lstat source with
  | none => simp [hv] at h
  | some v =>
    cases v with
    | dir => simp [hv] at h
    | file content => exact ⟨_, rfl, by simp, by simpa [hv] using h⟩
    | link path => exact ⟨_, rfl, by simp, by simpa [hv] using h⟩

theorem write_eq_some {loc : Location} {content : List UInt8} {t' : Tree}
    (h : t.write loc content = some t') :
    t'.node = Function.update t.node loc (some (.file content)) := by
  rw [write] at h
  split_ifs at h
  rw [← Option.some.inj h]

theorem write_within {loc root : Location} {content : List UInt8} {t' : Tree}
    (h : t.write loc content = some t') (hroot : root <+: loc) : Within root t t' := by
  intro other hother
  rw [write_eq_some h, Function.update_of_ne]
  rintro rfl
  exact hother hroot

theorem Grows.dir {t' : Tree} (h : Grows t t') {loc : Location} (hdir : t.node loc = some .dir) :
    t'.node loc = some .dir := by
  obtain ⟨v, hv, hshape⟩ := h loc .dir hdir
  rw [hv, Node.shape_eq_dir.mp hshape]

theorem walkWith_grows {t' : Tree} (h : Grows t t') {left : Nat}
    {follow follow' : Location → List String → Option (Location × Nat)}
    (hfollow : ∀ loc p r, follow loc p = some r → follow' loc p = some r)
    {loc : Location} {p : List String} {r : Location × Nat}
    (hr : t.walkWith left follow loc p = some r) : t'.walkWith left follow' loc p = some r := by
  induction p generalizing loc with
  | nil => exact hr
  | cons x p ih =>
    rw [walkWith] at hr
    by_cases hdir : t.node loc = some .dir
    · rw [walkWith, if_neg (by simpa using h.dir hdir)]
      rw [if_neg (by simpa using hdir)] at hr
      split_ifs at hr ⊢ with hdot hup
      · exact ih hr
      · exact ih hr
      · cases hnode : t.node (loc ++ [x]) with
        | none => simp [hnode] at hr
        | some v =>
          obtain ⟨v', hv', hshape⟩ := h _ v hnode
          rw [hnode] at hr
          rw [hv']
          cases v with
          | link target =>
            rw [Node.shape_eq_link.mp hshape]
            exact hfollow _ _ _ hr
          | dir =>
            rw [Node.shape_eq_dir.mp hshape]
            exact ih hr
          | file content => cases v' <;> simp_all [Node.shape]
    · rw [if_pos hdir] at hr
      cases hr

/-- A walk ends where it ended when the tree grows. -/
theorem walk_grows {t' : Tree} (h : Grows t t') {left : Nat} {loc : Location} {p : List String}
    {r : Location × Nat} (hr : t.walk left loc p = some r) : t'.walk left loc p = some r := by
  induction left generalizing loc p r with
  | zero => exact walkWith_grows h (by simp) hr
  | succ left ih => exact walkWith_grows h (fun _ _ _ => ih) hr

/-- A directory that has been made can be walked to. -/
theorem resolve_create {up : List String} {x : String} {t' : Tree}
    (h : t.create (up ++ [x]) .dir = some t') :
    ∃ loc, t.vacancy (up ++ [x]) = some loc ∧ t'.resolve (up ++ [x]) = some loc := by
  obtain ⟨loc, hloc, hnode⟩ := create_eq_some h
  obtain ⟨dir, hdir, hnode', hx, rfl, -⟩ := vacancy_concat.mp hloc
  obtain ⟨⟨dir, left⟩, hwalk, rfl⟩ := Option.map_eq_some_iff.mp hdir
  refine ⟨_, hloc, ?_⟩
  have hgrows := create_grows h
  rw [resolve, walk_append, walk_grows hgrows hwalk, Option.bind_some,
    walk_name hx (hgrows.dir hnode'), hnode, Function.update_self]
  rfl

/-- A directory that is there under the last name of a path can be walked to. -/
theorem resolve_of_lstat {up : List String} {x : String} (h : t.lstat (up ++ [x]) = some .dir) :
    ∃ dir, t.resolve up = some dir ∧ t.resolve (up ++ [x]) = some (dir ++ [x]) := by
  obtain ⟨loc, hentry, hnode⟩ := Option.bind_eq_some_iff.mp h
  rw [entry_concat] at hentry
  obtain ⟨dir, hdir, hentry⟩ := Option.bind_eq_some_iff.mp hentry
  split_ifs at hentry with hname
  cases hentry
  refine ⟨dir, hdir, ?_⟩
  obtain ⟨⟨dir, left⟩, hwalk, rfl⟩ := Option.map_eq_some_iff.mp hdir
  rw [resolve, walk_append, hwalk, Option.bind_some, walk_name hname.2 hname.1, hnode]
  rfl

theorem resolve_grows {t' : Tree} (h : Grows t t') {path : List String} {loc : Location}
    (hloc : t.resolve path = some loc) : t'.resolve path = some loc := by
  obtain ⟨r, hr, rfl⟩ := Option.map_eq_some_iff.mp hloc
  rw [resolve, walk_grows h hr]
  rfl

theorem entry_grows {t' : Tree} (h : Grows t t') {path : List String} {loc : Location}
    (hloc : t.entry path = some loc) : t'.entry path = some loc := by
  rcases List.eq_nil_or_concat' path with rfl | ⟨up, x, rfl⟩
  · exact hloc
  · rw [entry_concat] at hloc ⊢
    obtain ⟨dir, hdir, hloc⟩ := Option.bind_eq_some_iff.mp hloc
    split_ifs at hloc with hname
    rw [resolve_grows h hdir, Option.bind_some, if_pos ⟨h.dir hname.1, hname.2⟩, hloc]

theorem vacancy_entry {path : List String} {loc : Location} (h : t.vacancy path = some loc) :
    t.entry path = some loc :=
  (Option.filter_eq_some_iff.mp h).1

end Tree

end SimpleCdn.FileTree
