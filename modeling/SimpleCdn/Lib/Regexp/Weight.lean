import Mathlib.Algebra.GroupWithZero.Nat
import SimpleCdn.Lib.Regexp.Tree

/-!
# What building the tree keeps

A weight gives each repetition a number, and none to a fixed number of characters.  The parser
merges characters and takes common beginnings out of alternatives, but the weights of the
repetitions of the tree are those of the expression.
-/

namespace SimpleCdn.Regexp

/-- A number for each repetition. -/
structure Weight where
  of : RepeatOp → Node → ℕ
  simple : ∀ n sub, Node.isCharClass sub = true → of (.counted n (some n)) sub = 0

variable (w : Weight)

mutual

/-- The weights of all repetitions of a tree. -/
def Node.weigh : Node → ℕ
  | .repeated op _ sub => w.of op sub + sub.weigh
  | .capture sub => sub.weigh
  | .concat subs => Node.weighAll subs
  | .alternate subs => Node.weighAll subs
  | _ => 0

def Node.weighAll : List Node → ℕ
  | [] => 0
  | sub :: subs => sub.weigh + Node.weighAll subs

end

namespace Node

theorem weighAll_eq (subs : List Node) : weighAll w subs = (subs.map (weigh w)).sum := by
  induction subs with
  | nil => rfl
  | cons sub subs ih => rw [weighAll, ih, List.map_cons, List.sum_cons]

theorem weigh_of_isCharClass {node : Node} (h : node.isCharClass = true) : node.weigh w = 0 := by
  cases node with
  | capture sub => exact absurd h nofun
  | repeated op isLazy sub => exact absurd h nofun
  | concat subs => exact absurd h nofun
  | alternate subs => exact absurd h nofun
  | _ => rfl

theorem weigh_of_isSimplePrefix {node : Node} (h : node.isSimplePrefix = true) :
    node.weigh w = 0 := by
  rw [isSimplePrefix.eq_def] at h
  split at h
  · rw [Bool.and_eq_true, decide_eq_true_eq] at h
    rw [h.1, weigh, w.simple _ _ h.2, weigh_of_isCharClass w h.2]
  · exact weigh_of_isCharClass w h

theorem weigh_single (tables : Tables) (node : Node) : (node.single tables).weigh w = node.weigh w := by
  rw [single.eq_def]
  split
  · split
    · rfl
    · split
      · rfl
      · rfl
  · split
    · rfl
    · rfl
  · rfl

theorem weigh_cleanAlt (node : Node) : node.cleanAlt.weigh w = node.weigh w := by
  rw [cleanAlt.eq_def]
  split
  · dsimp only
    split
    · rfl
    · split
      · rfl
      · rfl
  · rfl

/-! ### Concatenations -/

theorem weigh_joinLiteral (node : Node) (nodes : List Node) :
    weighAll w (joinLiteral node nodes) = node.weigh w + weighAll w nodes := by
  rw [joinLiteral.eq_def]
  split
  · split
    · simp only [weighAll, weigh, Nat.zero_add]
    · rfl
  · rfl

theorem weigh_joinLiterals (nodes : List Node) :
    weighAll w (joinLiterals nodes) = weighAll w nodes := by
  induction nodes with
  | nil => rfl
  | cons node nodes ih =>
    show weighAll w (joinLiteral node (joinLiterals nodes)) = _
    rw [weigh_joinLiteral, ih, weighAll]

theorem weigh_flatMap {f : Node → List Node} (h : ∀ node, weighAll w (f node) = node.weigh w)
    (nodes : List Node) : weighAll w (nodes.flatMap f) = weighAll w nodes := by
  induction nodes with
  | nil => rfl
  | cons node nodes ih =>
    rw [List.flatMap_cons, weighAll_eq, List.map_append, List.sum_append, ← weighAll_eq,
      ← weighAll_eq, h, ih, weighAll]

theorem weigh_concatSubs (node : Node) : weighAll w node.concatSubs = node.weigh w := by
  rw [concatSubs.eq_def]
  split
  · rfl
  · rfl

theorem weigh_concatNode (nodes : List Node) : (concatNode nodes).weigh w = weighAll w nodes := by
  rw [← weigh_joinLiterals, concatNode]
  split
  · next hnil =>
    rw [hnil]
    rfl
  · next node hone =>
    rw [hone]
    rfl
  · rw [weigh, weigh_flatMap w (weigh_concatSubs w)]

/-! ### Common beginnings -/

theorem weigh_dropString (n : ℕ) (node : Node) : (dropString n node).weigh w = node.weigh w := by
  rw [dropString.eq_def]
  split
  · split
    · rfl
    · rfl
  · rfl

theorem weigh_concatRest (nodes : List Node) : (concatRest nodes).weigh w = weighAll w nodes := by
  rw [concatRest.eq_def]
  split
  · rfl
  · rfl
  · rfl

theorem weigh_removeLeadingString (n : ℕ) (node : Node) :
    (removeLeadingString n node).weigh w = node.weigh w := by
  rw [removeLeadingString.eq_def]
  split
  · next first rest =>
    have hfirst := weigh_dropString w n first
    split
    · next hempty =>
      have hzero : (dropString n first).weigh w = 0 := by
        rw [isEmptyMatch.eq_def] at hempty
        split at hempty
        · next heq =>
          rw [heq]
          rfl
        · exact absurd hempty nofun
      rw [weigh_concatRest, weigh, weighAll, ← hfirst, hzero, Nat.zero_add]
    · rw [weigh, weigh, weighAll, weighAll, hfirst]
  · exact weigh_dropString w n node

/-- Taking the first operand away takes its weight away. -/
theorem weigh_removeLeadingRegexp {node first : Node} (h : node.leadingRegexp = some first) :
    first.weigh w + (removeLeadingRegexp node).weigh w = node.weigh w := by
  cases node with
  | emptyMatch => exact absurd h nofun
  | concat subs =>
    rcases subs with _ | ⟨sub, rest⟩
    · cases h
      rfl
    · have hsub : sub = first := by
        cases sub with
        | emptyMatch => exact absurd h nofun
        | _ => exact Option.some.inj h
      rw [← hsub, removeLeadingRegexp, weigh_concatRest, weigh, weighAll]
  | _ =>
    cases h
    rfl

/-! ### Runs -/

section

variable {α β : Type} {first : α → β} {extend : β → α → Option β}

/-- What holds of a run of one element, and of a longer run when it holds of a shorter one. -/
theorem runsFrom_induction {P : β → List α → Prop} (hone : ∀ a, P (first a) [a])
    (hmore : ∀ note run a note', P note run → extend note a = some note' → P note' (run ++ [a]))
    {note : β} {run as : List α} (hrun : P note run) :
    ∀ p ∈ runsFrom first extend note run as, P p.1 p.2 := by
  induction as generalizing note run with
  | nil =>
    intro p hp
    rw [runsFrom, List.mem_singleton] at hp
    rw [hp]
    exact hrun
  | cons a as ih =>
    intro p hp
    rw [runsFrom] at hp
    rcases hextend : extend note a with _ | note'
    · rw [hextend] at hp
      rcases List.mem_cons.mp hp with rfl | hp
      · exact hrun
      · exact ih (hone a) p hp
    · rw [hextend] at hp
      exact ih (hmore note run a note' hrun hextend) p hp

theorem runs_induction {P : β → List α → Prop} (hone : ∀ a, P (first a) [a])
    (hmore : ∀ note run a note', P note run → extend note a = some note' → P note' (run ++ [a]))
    (as : List α) : ∀ p ∈ runs first extend as, P p.1 p.2 := by
  rcases as with _ | ⟨a, as⟩
  · exact fun p hp => absurd hp List.not_mem_nil
  · exact runsFrom_induction hone hmore (hone a)

theorem runsFrom_flatMap (note : β) (run as : List α) :
    (runsFrom first extend note run as).flatMap Prod.snd = run ++ as := by
  induction as generalizing note run with
  | nil => simp [runsFrom]
  | cons a as ih =>
    rw [runsFrom]
    rcases extend note a with _ | note'
    · simp [ih]
    · simp [ih]

variable (first extend) in
theorem runs_flatMap (as : List α) : (runs first extend as).flatMap Prod.snd = as := by
  rcases as with _ | ⟨a, as⟩
  · rfl
  · exact runsFrom_flatMap (first a) [a] as

end

theorem weighAll_append (nodes others : List Node) :
    weighAll w (nodes ++ others) = weighAll w nodes + weighAll w others := by
  rw [weighAll_eq, weighAll_eq, weighAll_eq, List.map_append, List.sum_append]

/-- What gives each run its weight, gives the list its weight. -/
theorem weigh_runs {β : Type} {first : Node → β} {extend : β → Node → Option β}
    {f : β × List Node → Node}
    (subs : List Node) (h : ∀ p ∈ runs first extend subs, (f p).weigh w = weighAll w p.2) :
    weighAll w ((runs first extend subs).map f) = weighAll w subs := by
  have hflat := congrArg (weighAll w) (runs_flatMap first extend subs)
  rw [← hflat]
  generalize runs first extend subs = all at h
  induction all with
  | nil => rfl
  | cons p all ih =>
    rw [List.map_cons, weighAll, List.flatMap_cons, weighAll_append,
      h p List.mem_cons_self, ih fun q hq => h q (List.mem_cons_of_mem _ hq)]

/-! ### Alternatives -/

theorem weigh_factorRun {collapse : List Node → Node}
    (hcollapse : ∀ nodes, (collapse nodes).weigh w = weighAll w nodes) {front : Node}
    {rest : Node → Node} {run : List Node}
    (h : run.length = 1 ∨
      front.weigh w = 0 ∧ ∀ node ∈ run, (rest node).weigh w = node.weigh w) :
    (factorRun collapse front rest run).weigh w = weighAll w run := by
  rw [factorRun.eq_def]
  split
  · rw [weighAll, weighAll]
    rfl
  · next hlength =>
    rcases h with hone | ⟨hfront, hrest⟩
    · obtain ⟨node, rfl⟩ := List.length_eq_one_iff.mp hone
      exact absurd rfl (hlength node)
    · rw [weigh, weighAll, weighAll, weighAll, hfront, hcollapse, weighAll_eq, List.map_map,
        weighAll_eq, List.map_congr_left (f := weigh w ∘ rest) hrest]
      omega

theorem weigh_factorStrings {collapse : List Node → Node}
    (hcollapse : ∀ nodes, (collapse nodes).weigh w = weighAll w nodes) (subs : List Node) :
    weighAll w (factorStrings collapse subs) = weighAll w subs := by
  refine weigh_runs w subs fun p _ => ?_
  obtain ⟨⟨codes, fold⟩, run⟩ := p
  exact weigh_factorRun w hcollapse
    (Or.inr ⟨rfl, fun node _ => weigh_removeLeadingString w codes.length node⟩)

theorem isCharClass_of_sameClass {node other : Node} (h : sameClass node other = true)
    (hclass : node.isCharClass = true) : other.isCharClass = true := by
  rw [sameClass.eq_def] at h
  split at h
  · next codes fold codes' fold' =>
    rw [Bool.and_eq_true, decide_eq_true_eq] at h
    rw [← h.1]
    rcases codes with _ | ⟨code, _ | ⟨code', codes⟩⟩
    · exact absurd hclass nofun
    · rfl
    · exact absurd hclass nofun
  · rfl
  · rfl
  · rfl
  · exact absurd h nofun

theorem isSimplePrefix_of_isCharClass {node : Node} (h : node.isCharClass = true) :
    node.isSimplePrefix = true := by
  cases node with
  | repeated op isLazy sub => exact absurd h nofun
  | _ => exact h

theorem isSimplePrefix_of_samePrefix {first other : Node} (h : samePrefix first other = true)
    (hfirst : first.isSimplePrefix = true) : other.isSimplePrefix = true := by
  rw [samePrefix.eq_def] at h
  split at h
  · next op isLazy sub op' isLazy' sub' =>
    rw [Bool.and_eq_true, Bool.and_eq_true, decide_eq_true_eq] at h
    obtain ⟨⟨rfl, -⟩, hsub⟩ := h
    rcases op with _ | _ | _ | ⟨min, _ | max⟩
    · exact absurd hfirst nofun
    · exact absurd hfirst nofun
    · exact absurd hfirst nofun
    · exact absurd hfirst nofun
    · rw [isSimplePrefix, Bool.and_eq_true] at hfirst ⊢
      exact ⟨hfirst.1, isCharClass_of_sameClass hsub hfirst.2⟩
  · have hclass : first.isCharClass = true := by
      cases first with
      | repeated op isLazy sub =>
        cases other with
        | _ => exact absurd h nofun
      | _ => exact hfirst
    exact isSimplePrefix_of_isCharClass (isCharClass_of_sameClass h hclass)

/-- A run of several alternatives begins with simple operands. -/
theorem extendPrefix_runs (subs : List Node) :
    ∀ p ∈ runs leadingRegexp extendPrefix subs,
      (∃ node, p.2 = [node] ∧ p.1 = node.leadingRegexp) ∨
      ∃ front, p.1 = some front ∧ front.isSimplePrefix = true ∧
        ∀ node ∈ p.2, ∃ other, node.leadingRegexp = some other ∧ other.isSimplePrefix = true := by
  refine runs_induction (P := fun note run => (∃ node, run = [node] ∧ note = node.leadingRegexp) ∨
    ∃ front, note = some front ∧ front.isSimplePrefix = true ∧
      ∀ node ∈ run, ∃ other, node.leadingRegexp = some other ∧ other.isSimplePrefix = true)
    (fun node => Or.inl ⟨node, rfl, rfl⟩) (fun note run node note' hrun hextend => Or.inr ?_) subs
  rcases note with _ | front
  · exact absurd hextend nofun
  · rw [extendPrefix] at hextend
    split at hextend
    · next other hother =>
      split at hextend
      · next hsame =>
        refine ⟨front, (Option.some.inj hextend).symm, hsame.2, fun node' hnode' => ?_⟩
        rcases List.mem_append.mp hnode' with hold | hnew
        · rcases hrun with ⟨first, rfl, hfirst⟩ | ⟨front', -, -, hall⟩
          · obtain rfl := List.mem_singleton.mp hold
            exact ⟨front, hfirst.symm, hsame.2⟩
          · exact hall node' hold
        · obtain rfl := List.mem_singleton.mp hnew
          exact ⟨other, hother, isSimplePrefix_of_samePrefix hsame.1 hsame.2⟩
      · exact absurd hextend nofun
    · exact absurd hextend nofun

theorem weigh_factorPrefixes {collapse : List Node → Node}
    (hcollapse : ∀ nodes, (collapse nodes).weigh w = weighAll w nodes) (subs : List Node) :
    weighAll w (factorPrefixes collapse subs) = weighAll w subs := by
  refine weigh_runs w subs fun p hp => ?_
  refine weigh_factorRun w hcollapse ?_
  rcases extendPrefix_runs subs p hp with ⟨node, hrun, -⟩ | ⟨front, hnote, hfront, hall⟩
  · exact Or.inl (congrArg List.length hrun)
  · refine Or.inr ⟨?_, fun node hnode => ?_⟩
    · rw [hnote]
      exact weigh_of_isSimplePrefix w hfront
    · obtain ⟨other, hother, hsimple⟩ := hall node hnode
      have hweigh := weigh_removeLeadingRegexp w hother
      rw [weigh_of_isSimplePrefix w hsimple, Nat.zero_add] at hweigh
      exact hweigh

theorem isCharClass_mergeCharClass (tables : Tables) {dst : Node} (src : Node)
    (h : dst.isCharClass = true) : (mergeCharClass tables dst src).isCharClass = true := by
  cases dst with
  | literal codes fold =>
    cases src with
    | literal codes' fold' =>
      rw [mergeCharClass]
      split
      · exact h
      · rfl
    | _ => exact h
  | anyCharNotNL =>
    rw [mergeCharClass]
    split
    · rfl
    · rfl
  | charClass ranges => rfl
  | _ => exact h

theorem isCharClass_mergeClasses (tables : Tables) {first second : Node}
    (hfirst : first.isCharClass = true) (hsecond : second.isCharClass = true) :
    (mergeClasses tables first second).isCharClass = true := by
  rw [mergeClasses]
  split
  · exact isCharClass_mergeCharClass tables second hfirst
  · exact isCharClass_mergeCharClass tables first hsecond

theorem isCharClass_cleanAlt {node : Node} (h : node.isCharClass = true) :
    node.cleanAlt.isCharClass = true := by
  rw [cleanAlt.eq_def]
  split
  · dsimp only
    split
    · rfl
    · split
      · rfl
      · rfl
  · exact h

theorem isCharClass_mergeRun (tables : Tables) {run : List Node} (hrun : run ≠ [])
    (h : ∀ node ∈ run, node.isCharClass = true) : (mergeRun tables run).isCharClass = true := by
  rcases run with _ | ⟨node, nodes⟩
  · exact absurd rfl hrun
  · rw [mergeRun]
    refine isCharClass_cleanAlt (List.foldlRecOn (motive := fun node => isCharClass node = true)
      nodes _ (h node List.mem_cons_self) fun merged hmerged other hother => ?_)
    exact isCharClass_mergeClasses tables hmerged (h other (List.mem_cons_of_mem _ hother))

/-- A run is of one element, or of classes. -/
theorem extendClass_runs (subs : List Node) :
    ∀ p ∈ runs isCharClass extendClass subs,
      (∃ node, p.2 = [node]) ∨ (p.2 ≠ [] ∧ ∀ node ∈ p.2, isCharClass node = true) := by
  suffices hruns : ∀ p ∈ runs isCharClass extendClass subs,
      (∃ node, p.2 = [node] ∧ p.1 = isCharClass node) ∨
        (p.2 ≠ [] ∧ ∀ node ∈ p.2, isCharClass node = true) by
    intro p hp
    exact (hruns p hp).imp_left fun h => ⟨h.choose, h.choose_spec.1⟩
  refine runs_induction (P := fun note run => (∃ node, run = [node] ∧ note = isCharClass node) ∨
    (run ≠ [] ∧ ∀ node ∈ run, isCharClass node = true)) (fun node => Or.inl ⟨node, rfl, rfl⟩)
    (fun note run node note' hrun hextend => Or.inr ⟨by simp, fun node' hnode' => ?_⟩) subs
  rw [extendClass] at hextend
  split at hextend
  · next hboth =>
    rw [Bool.and_eq_true] at hboth
    rcases List.mem_append.mp hnode' with hold | hnew
    · rcases hrun with ⟨first, rfl, hfirst⟩ | ⟨-, hall⟩
      · obtain rfl := List.mem_singleton.mp hold
        exact hfirst.symm.trans hboth.1
      · exact hall node' hold
    · obtain rfl := List.mem_singleton.mp hnew
      exact hboth.2
  · exact absurd hextend nofun

theorem weighAll_classes {run : List Node} (h : ∀ node ∈ run, node.isCharClass = true) :
    weighAll w run = 0 := by
  induction run with
  | nil => rfl
  | cons node run ih =>
    rw [weighAll, weigh_of_isCharClass w (h node List.mem_cons_self),
      ih fun other hother => h other (List.mem_cons_of_mem _ hother)]

theorem weigh_classRun (tables : Tables) {run : List Node}
    (h : (∃ node, run = [node]) ∨ (run ≠ [] ∧ ∀ node ∈ run, node.isCharClass = true)) :
    (classRun tables run).weigh w = weighAll w run := by
  rw [classRun.eq_def]
  split
  · rw [weighAll, weighAll]
    rfl
  · next hlength =>
    rcases h with ⟨node, rfl⟩ | ⟨hne, hall⟩
    · exact absurd rfl (hlength node)
    · rw [weighAll_classes w hall,
        weigh_of_isCharClass w (isCharClass_mergeRun tables hne hall)]

theorem weigh_factorClasses (tables : Tables) (subs : List Node) :
    weighAll w (factorClasses tables subs) = weighAll w subs :=
  weigh_runs w subs fun p hp => weigh_classRun w tables (extendClass_runs subs p hp)

theorem weigh_factorEmpty (subs : List Node) :
    weighAll w (factorEmpty subs) = weighAll w subs := by
  induction subs using factorEmpty.induct with
  | case1 nodes ih =>
    rw [factorEmpty, ih]
    show _ = 0 + weighAll w (emptyMatch :: nodes)
    rw [Nat.zero_add]
  | case2 node nodes hother ih => rw [factorEmpty, weighAll, weighAll, ih]; exact hother
  | case3 => rfl

theorem weigh_alternateSubs (node : Node) : weighAll w node.alternateSubs = node.weigh w := by
  rw [alternateSubs.eq_def]
  split
  · rfl
  · rfl

theorem weigh_collapse {factor : List Node → List Node}
    (hfactor : ∀ nodes, weighAll w (factor nodes) = weighAll w nodes) (nodes : List Node) :
    (collapse factor nodes).weigh w = weighAll w nodes := by
  rw [collapse.eq_def]
  split
  · rw [weighAll, weighAll]
    rfl
  · have hall := (hfactor (nodes.flatMap alternateSubs)).trans
      (weigh_flatMap w (weigh_alternateSubs w) nodes)
    split
    · next node hone =>
      rw [← hall, hone, weighAll, weighAll]
      rfl
    · rw [weigh, hall]

theorem weigh_factor (tables : Tables) (fuel : ℕ) (subs : List Node) :
    weighAll w (factor tables fuel subs) = weighAll w subs := by
  induction fuel generalizing subs with
  | zero => rfl
  | succ fuel ih =>
    rw [factor]
    split
    · rfl
    · rw [weigh_factorEmpty, weigh_factorClasses, weigh_factorPrefixes w (weigh_collapse w ih),
        weigh_factorStrings w (weigh_collapse w ih)]

theorem weigh_addBranch (tables : Tables) (branches : List Node) (node : Node) :
    weighAll w (addBranch tables branches node) = weighAll w branches + node.weigh w := by
  rw [addBranch.eq_def]
  split
  · rw [weighAll, weighAll, Nat.zero_add]
    rfl
  · next last earlier =>
    split
    · next hboth =>
      rw [Bool.and_eq_true] at hboth
      rw [weighAll, weighAll, weigh_of_isCharClass w hboth.1, weigh_of_isCharClass w hboth.2,
        weigh_of_isCharClass w (isCharClass_mergeClasses tables hboth.1 hboth.2), Nat.add_zero]
    · rw [weighAll, weighAll, weighAll, weigh_cleanAlt]
      omega

theorem weigh_addBranches (tables : Tables) (nodes branches : List Node) :
    weighAll w (nodes.foldl (addBranch tables) branches) =
      weighAll w branches + weighAll w nodes := by
  induction nodes generalizing branches with
  | nil => rfl
  | cons node nodes ih =>
    rw [List.foldl_cons, ih, weigh_addBranch, weighAll]
    omega

theorem weighAll_reverse (nodes : List Node) : weighAll w nodes.reverse = weighAll w nodes := by
  rw [weighAll_eq, List.map_reverse, List.sum_reverse, ← weighAll_eq]

theorem weigh_alternation (tables : Tables) (fuel : ℕ) (branches : List Node) :
    (alternation tables fuel branches).weigh w = weighAll w branches := by
  have hbranches := weigh_addBranches w tables branches []
  rw [weighAll, Nat.zero_add] at hbranches
  rw [← hbranches, alternation]
  split
  · next hnil =>
    rw [hnil]
    rfl
  · next last earlier hcons =>
    rw [weigh_single, weigh_collapse w (weigh_factor w tables fuel), weighAll_reverse, hcons,
      weighAll, weighAll, weigh_cleanAlt]

end Node

/-! ### Expressions -/

section

variable (tables : Tables) (fuel : ℕ)

/-- The weights of the repetitions as they are written. -/
def Expr.weigh : Expr → ℕ
  | .group _ e => e.weigh
  | .concat e f => e.weigh + f.weigh
  | .alternate e f => e.weigh + f.weigh
  | .repeated op _ e => w.of op (e.tree tables fuel) + e.weigh
  | _ => 0

theorem weigh_treeOf (branches : List (List Node)) :
    (treeOf tables fuel branches).weigh w = (branches.map (Node.weighAll w)).sum := by
  rw [treeOf, Node.weigh_alternation, Node.weighAll_eq, List.map_map]
  congr 1
  exact List.map_congr_left fun items _ => Node.weigh_concatNode w items

theorem weigh_itemsOf (branches : List (List Node)) :
    Node.weighAll w (itemsOf tables fuel branches) = (branches.map (Node.weighAll w)).sum := by
  rw [itemsOf.eq_def]
  split
  · simp
  · rw [Node.weighAll, Node.weighAll, weigh_treeOf, Nat.add_zero]

theorem weigh_branches (e : Expr) :
    ((e.branches tables fuel).map (Node.weighAll w)).sum = e.weigh w tables fuel := by
  induction e with
  | empty => rfl
  | set negated items fold =>
    rw [Expr.branches, List.map_singleton, List.sum_singleton, Node.weighAll, Node.weigh_single]
    rfl
  | any newline =>
    rcases newline with _ | _
    · rfl
    · rfl
  | group capturing e ih =>
    have htree := (weigh_treeOf w tables fuel (e.branches tables fuel)).trans ih
    rw [Expr.branches, List.map_singleton, List.sum_singleton, Node.weighAll, Node.weighAll,
      Expr.weigh, ← htree]
    rcases capturing with _ | _
    · rfl
    · rfl
  | concat e f ihe ihf =>
    rw [Expr.branches, List.map_singleton, List.sum_singleton, Node.weighAll_append,
      weigh_itemsOf, weigh_itemsOf, ihe, ihf, Expr.weigh]
  | alternate e f ihe ihf =>
    rw [Expr.branches, List.map_append, List.sum_append, ihe, ihf, Expr.weigh]
  | repeated op isLazy e ih =>
    rw [Expr.branches, List.map_singleton, List.sum_singleton, Node.weighAll, Node.weighAll,
      Node.weigh, weigh_treeOf, ih, Expr.weigh]
    rfl
  | _ => rfl

/-- The repetitions of the tree weigh what those of the expression do. -/
theorem Expr.weigh_tree (e : Expr) : (e.tree tables fuel).weigh w = e.weigh w tables fuel := by
  rw [tree, weigh_treeOf, weigh_branches]

end

end SimpleCdn.Regexp
