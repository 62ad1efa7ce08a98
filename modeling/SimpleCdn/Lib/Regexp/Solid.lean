import SimpleCdn.Lib.Regexp.Ways
import SimpleCdn.Lib.Regexp.Weight

/-!
# Trees that are one string or one class

When all that the parser makes of an expression is a string or a class, the expression has a fixed
width: it is a concatenation of characters, or all of its alternatives are single characters.
-/

namespace SimpleCdn.Regexp

namespace Node

/-- The length of a string or a class, within the groups around it. -/
def length : Node → Option ℕ
  | .literal codes _ => if codes = [] then none else some codes.length
  | .charClass _ => some 1
  | .anyCharNotNL => some 1
  | .anyChar => some 1
  | .capture sub => sub.length
  | _ => none

def lengthAll : List Node → Option ℕ
  | [] => some 0
  | node :: nodes => node.length.bind fun m => (lengthAll nodes).map (m + ·)

/-- A string is not empty, and not all alternatives are single characters. -/
def Proper : Node → Prop
  | .literal codes _ => codes ≠ []
  | .capture sub => sub.Proper
  | .alternate subs => ∃ sub ∈ subs, sub.isCharClass = false
  | _ => True

def isConcat : Node → Bool
  | .concat _ => true
  | _ => false

theorem length_of_isCharClass {node : Node} (h : node.isCharClass = true) :
    node.length = some 1 := by
  rw [isCharClass.eq_def] at h
  split at h
  · rfl
  · rfl
  · rfl
  · rfl
  · exact absurd h nofun

theorem proper_of_isCharClass {node : Node} (h : node.isCharClass = true) : node.Proper := by
  rw [isCharClass.eq_def] at h
  split at h
  · exact List.cons_ne_nil _ _
  · trivial
  · trivial
  · trivial
  · exact absurd h nofun

theorem length_literal {codes : List ℕ} (h : codes ≠ []) (fold : Bool) :
    (literal codes fold).length = some codes.length :=
  if_neg h

/-- What has a length has a positive one. -/
theorem length_pos : ∀ {node : Node} {n : ℕ}, node.length = some n → 0 < n
  | .literal codes fold, n, h => by
    rw [length] at h
    split at h
    · exact absurd h nofun
    · next hcodes =>
      cases h
      exact List.length_pos_of_ne_nil hcodes
  | .charClass _, _, h => Option.some.inj h ▸ Nat.one_pos
  | .anyCharNotNL, _, h => Option.some.inj h ▸ Nat.one_pos
  | .anyChar, _, h => Option.some.inj h ▸ Nat.one_pos
  | .capture sub, _, h => @length_pos sub _ h

theorem length_single (tables : Tables) (node : Node) :
    (node.single tables).length = node.length := by
  rw [single.eq_def]
  split
  · split
    · rfl
    · split
      · rfl
      · rfl
  · split
    · rfl
    · rfl
  · rfl

theorem proper_single (tables : Tables) {node : Node} (h : node.Proper) :
    (node.single tables).Proper := by
  rw [single.eq_def]
  split
  · split
    · exact List.cons_ne_nil _ _
    · split
      · exact List.cons_ne_nil _ _
      · trivial
  · split
    · exact List.cons_ne_nil _ _
    · trivial
  · exact h

theorem cleanAlt_cases (node : Node) :
    node.cleanAlt = node ∨ (node.isCharClass = true ∧ node.cleanAlt.isCharClass = true) := by
  cases node with
  | charClass ranges => exact Or.inr ⟨rfl, isCharClass_cleanAlt rfl⟩
  | _ => exact Or.inl rfl

theorem length_cleanAlt (node : Node) : node.cleanAlt.length = node.length := by
  rcases node.cleanAlt_cases with h | ⟨h, hclean⟩
  · rw [h]
  · rw [length_of_isCharClass h, length_of_isCharClass hclean]

theorem isCharClass_of_cleanAlt {node : Node} (h : node.cleanAlt.isCharClass = true) :
    node.isCharClass = true := by
  rcases node.cleanAlt_cases with heq | ⟨hclass, -⟩
  · rwa [heq] at h
  · exact hclass

theorem proper_cleanAlt {node : Node} (h : node.Proper) : node.cleanAlt.Proper := by
  rcases node.cleanAlt_cases with heq | ⟨-, hclass⟩
  · rwa [heq]
  · exact proper_of_isCharClass hclass

/-! ### Concatenations -/

theorem lengthAll_cons (node : Node) (nodes : List Node) :
    lengthAll (node :: nodes) = node.length.bind fun m => (lengthAll nodes).map (m + ·) := rfl

theorem lengthAll_singleton (node : Node) : lengthAll [node] = node.length := by
  rw [lengthAll_cons]
  rcases node.length with _ | m
  · rfl
  · rfl

theorem lengthAll_append (nodes others : List Node) :
    lengthAll (nodes ++ others) = (lengthAll nodes).bind fun m => (lengthAll others).map (m + ·) := by
  induction nodes with
  | nil =>
    rw [List.nil_append, lengthAll, Option.bind_some]
    rcases lengthAll others with _ | n
    · rfl
    · exact congrArg some (Nat.zero_add n).symm
  | cons node nodes ih =>
    rw [List.cons_append, lengthAll_cons, lengthAll_cons, ih]
    rcases node.length with _ | m
    · rfl
    · rcases lengthAll nodes with _ | k
      · rfl
      · rcases lengthAll others with _ | n
        · rfl
        · exact congrArg some (Nat.add_assoc m k n).symm

/-- Joining strings keeps their length together. -/
theorem lengthAll_joinLiteral {node : Node} {nodes : List Node} (h : node.Proper)
    (hnodes : ∀ other ∈ nodes, other.Proper) :
    lengthAll (joinLiteral node nodes) = lengthAll (node :: nodes) := by
  rw [joinLiteral.eq_def]
  split
  · next codes fold codes' fold' rest =>
    split
    · have hcodes' : codes' ≠ [] := hnodes _ List.mem_cons_self
      have hboth : codes ++ codes' ≠ [] := fun hnil => h (List.append_eq_nil_iff.mp hnil).1
      rw [lengthAll_cons, lengthAll_cons, lengthAll_cons, length_literal h,
        length_literal hcodes', length_literal hboth, List.length_append]
      rcases lengthAll rest with _ | n
      · rfl
      · exact congrArg some (Nat.add_assoc codes.length codes'.length n)
    · rfl
  · rfl

theorem proper_joinLiteral {node : Node} {nodes : List Node} (h : node.Proper)
    (hnodes : ∀ other ∈ nodes, other.Proper) : ∀ other ∈ joinLiteral node nodes, other.Proper := by
  rw [joinLiteral.eq_def]
  split
  · next codes fold codes' fold' rest =>
    split
    · intro other hother
      rcases List.mem_cons.mp hother with rfl | hother
      · exact fun hnil => h (List.append_eq_nil_iff.mp hnil).1
      · exact hnodes other (List.mem_cons_of_mem _ hother)
    · exact List.forall_mem_cons.mpr ⟨h, hnodes⟩
  · exact List.forall_mem_cons.mpr ⟨h, hnodes⟩

theorem joinLiterals_spec {nodes : List Node} (h : ∀ node ∈ nodes, node.Proper) :
    lengthAll (joinLiterals nodes) = lengthAll nodes ∧
      ∀ node ∈ joinLiterals nodes, node.Proper := by
  induction nodes with
  | nil => exact ⟨rfl, h⟩
  | cons node nodes ih =>
    rw [List.forall_mem_cons] at h
    obtain ⟨hlength, hproper⟩ := ih h.2
    refine ⟨?_, proper_joinLiteral h.1 hproper⟩
    show lengthAll (joinLiteral node (joinLiterals nodes)) = _
    rw [lengthAll_joinLiteral h.1 hproper, lengthAll_cons, hlength, lengthAll_cons]

/-- A concatenation that is one string is one of characters. -/
theorem lengthAll_of_concatNode {nodes : List Node} {n : ℕ} (h : ∀ node ∈ nodes, node.Proper)
    (hlength : (concatNode nodes).length = some n) : lengthAll nodes = some n := by
  rw [← (joinLiterals_spec h).1]
  rw [concatNode] at hlength
  split at hlength
  · exact absurd hlength (by rintro ⟨⟩)
  · next node hone =>
    rw [hone, lengthAll_singleton]
    exact hlength
  · exact absurd hlength (by rintro ⟨⟩)

theorem proper_concatNode {nodes : List Node} (h : ∀ node ∈ nodes, node.Proper) :
    (concatNode nodes).Proper := by
  have hproper := (joinLiterals_spec h).2
  rw [concatNode]
  split
  · trivial
  · next node hone => exact hproper node (hone ▸ List.mem_singleton_self node)
  · trivial

/-! ### Common beginnings -/

theorem factorRun_cases {collapse : List Node → Node} {front : Node} {rest : Node → Node}
    (run : List Node) :
    (∃ node, run = [node] ∧ factorRun collapse front rest run = node) ∨
      (factorRun collapse front rest run).isConcat = true := by
  rw [factorRun.eq_def]
  split
  · next node => exact Or.inl ⟨node, rfl, rfl⟩
  · exact Or.inr rfl

/-- Nothing has been taken out of alternatives of which none has become a concatenation. -/
theorem eq_of_map_runs {β : Type} {first : Node → β} {extend : β → Node → Option β}
    {f : β × List Node → Node}
    (hf : ∀ p, (∃ node, p.2 = [node] ∧ f p = node) ∨ (f p).isConcat = true) {subs : List Node}
    (h : ∀ node ∈ (runs first extend subs).map f, node.isConcat = false) :
    (runs first extend subs).map f = subs := by
  have hflat := runs_flatMap first extend subs
  conv_rhs => rw [← hflat]
  generalize runs first extend subs = all at h
  induction all with
  | nil => rfl
  | cons p all ih =>
    rw [List.map_cons, List.forall_mem_cons] at h
    rcases hf p with ⟨node, hrun, hnode⟩ | hconcat
    · rw [List.map_cons, List.flatMap_cons, ih h.2, hnode, hrun]
      rfl
    · rw [h.1] at hconcat
      exact absurd hconcat nofun

theorem factorStrings_eq {collapse : List Node → Node} {subs : List Node}
    (h : ∀ node ∈ factorStrings collapse subs, node.isConcat = false) :
    factorStrings collapse subs = subs :=
  eq_of_map_runs (fun p => factorRun_cases p.2) h

theorem factorPrefixes_eq {collapse : List Node → Node} {subs : List Node}
    (h : ∀ node ∈ factorPrefixes collapse subs, node.isConcat = false) :
    factorPrefixes collapse subs = subs :=
  eq_of_map_runs (fun p => factorRun_cases p.2) h

theorem isConcat_of_isCharClass {node : Node} (h : node.isCharClass = true) :
    node.isConcat = false := by
  cases node with
  | concat subs => exact absurd h nofun
  | _ => rfl

theorem mem_factorEmpty (nodes : List Node) : emptyMatch ∈ factorEmpty (emptyMatch :: nodes) := by
  induction nodes with
  | nil => exact List.mem_cons_self
  | cons node nodes ih =>
    cases node with
    | emptyMatch =>
      rw [factorEmpty]
      exact ih
    | _ => exact List.mem_cons_self

theorem factorEmpty_eq {subs : List Node}
    (h : ∀ node ∈ factorEmpty subs, node.isEmptyMatch = false) : factorEmpty subs = subs := by
  induction subs using factorEmpty.induct with
  | case1 nodes ih =>
    rw [factorEmpty] at h
    exact absurd (h _ (mem_factorEmpty nodes)) (by rintro ⟨⟩)
  | case2 node nodes hother ih =>
    have hcons : factorEmpty (node :: nodes) = node :: factorEmpty nodes := by
      rw [factorEmpty]
      exact hother
    rw [hcons, List.forall_mem_cons] at h
    rw [hcons, ih h.2]
  | case3 => rfl

/-- All of a list of classes is one run. -/
theorem runsFrom_classes (run : List Node) {nodes : List Node}
    (h : ∀ node ∈ nodes, node.isCharClass = true) :
    runsFrom isCharClass extendClass true run nodes = [(true, run ++ nodes)] := by
  induction nodes generalizing run with
  | nil => rw [runsFrom, List.append_nil]
  | cons node nodes ih =>
    rw [List.forall_mem_cons] at h
    rw [runsFrom, extendClass, h.1]
    show runsFrom isCharClass extendClass true (run ++ [node]) nodes = _
    rw [ih _ h.2, List.append_assoc]
    rfl

theorem length_factorClasses (tables : Tables) {subs : List Node}
    (h : ∀ node ∈ subs, node.isCharClass = true) : (factorClasses tables subs).length ≤ 1 := by
  rcases subs with _ | ⟨node, nodes⟩
  · exact Nat.zero_le _
  · rw [List.forall_mem_cons] at h
    rw [factorClasses, runs, h.1, runsFrom_classes [node] h.2]
    exact le_rfl

/-- Only classes are made to classes. -/
theorem classes_of_factorClasses {tables : Tables} {subs : List Node}
    (h : ∀ node ∈ factorClasses tables subs, node.isCharClass = true) :
    ∀ node ∈ subs, node.isCharClass = true := by
  intro node hnode
  rw [← runs_flatMap isCharClass extendClass subs, List.mem_flatMap] at hnode
  obtain ⟨p, hp, hnode⟩ := hnode
  rcases extendClass_runs subs p hp with ⟨other, hrun⟩ | ⟨-, hall⟩
  · have hclass := h _ (List.mem_map_of_mem hp)
    rw [hrun] at hnode hclass
    rw [List.mem_singleton.mp hnode]
    exact hclass
  · exact hall node hnode

/-- What two or more alternatives have become one of. -/
theorem factorClasses_singleton {tables : Tables} {subs : List Node} {node : Node}
    (h : factorClasses tables subs = [node]) :
    subs = [node] ∨ (node.isCharClass = true ∧ ∀ sub ∈ subs, sub.isCharClass = true) := by
  have hflat := runs_flatMap isCharClass extendClass subs
  obtain ⟨p, hp, hnode⟩ := List.map_eq_singleton_iff.mp h
  rw [hp, List.flatMap_singleton] at hflat
  rcases extendClass_runs subs p (hp ▸ List.mem_singleton_self p) with ⟨other, hrun⟩ | ⟨hne, hall⟩
  · rw [hrun] at hnode hflat
    left
    rw [← hflat, ← hnode]
    rfl
  · rw [hflat] at hall hne hnode
    rcases subs with _ | ⟨sub, _ | ⟨sub', subs⟩⟩
    · exact absurd rfl hne
    · left
      rw [← hnode]
      rfl
    · right
      rw [← hnode]
      exact ⟨isCharClass_mergeRun tables hne hall, hall⟩

theorem isEmptyMatch_of_isCharClass {node : Node} (h : node.isCharClass = true) :
    node.isEmptyMatch = false := by
  cases node with
  | emptyMatch => exact absurd h nofun
  | _ => rfl

theorem forall_singleton {node : Node} {p : Node → Bool} {b : Bool} (h : p node = b) :
    ∀ other ∈ [node], p other = b := by
  intro other hother
  rw [List.mem_singleton.mp hother]
  exact h

theorem runsFrom_ne_nil {α β : Type} {first : α → β} {extend : β → α → Option β} (note : β)
    (run as : List α) : runsFrom first extend note run as ≠ [] := by
  induction as generalizing note run with
  | nil => exact List.cons_ne_nil _ _
  | cons a as ih =>
    rw [runsFrom]
    rcases extend note a with _ | note'
    · exact List.cons_ne_nil _ _
    · exact ih note' (run ++ [a])

theorem map_runs_ne_nil {α β γ : Type} {first : α → β} {extend : β → α → Option β}
    {f : β × List α → γ} {as : List α} (h : as ≠ []) : (runs first extend as).map f ≠ [] := by
  rcases as with _ | ⟨a, as⟩
  · exact absurd rfl h
  · exact fun hmap => runsFrom_ne_nil (first a) [a] as (List.map_eq_nil_iff.mp hmap)

theorem factorEmpty_ne_nil {subs : List Node} (h : subs ≠ []) : factorEmpty subs ≠ [] := by
  rcases subs with _ | ⟨node, nodes⟩
  · exact absurd rfl h
  · cases node with
    | emptyMatch => exact List.ne_nil_of_mem (mem_factorEmpty nodes)
    | _ => exact List.cons_ne_nil _ _

/-! ### Alternatives -/

/-- Classes that are left at the end were there at the beginning. -/
theorem classes_of_rounds {collapse : List Node → Node} {subs : List Node}
    (h : ∀ node ∈ factorPrefixes collapse (factorStrings collapse subs), node.isConcat = false) :
    factorPrefixes collapse (factorStrings collapse subs) = subs := by
  have hprefixes := factorPrefixes_eq h
  rw [hprefixes] at h ⊢
  exact factorStrings_eq h

/-- One result of several alternatives is a concatenation, the empty match, or a class of which all
of them are members. -/
theorem factor_singleton {tables : Tables} {fuel : ℕ} {subs : List Node} {node : Node}
    (hsubs : 2 ≤ subs.length) (h : factor tables (fuel + 1) subs = [node]) :
    node.isEmptyMatch = true ∨ node.isConcat = true ∨
      (node.isCharClass = true ∧ ∀ sub ∈ subs, sub.isCharClass = true) := by
  rw [factor, if_neg (by omega)] at h
  rcases hempty : node.isEmptyMatch with _ | _
  · rcases hconcat : node.isConcat with _ | _
    · right
      right
      have hclasses := factorEmpty_eq (h ▸ forall_singleton hempty)
      rw [h] at hclasses
      rcases factorClasses_singleton hclasses.symm with hone | ⟨hclass, hall⟩
      · -- nothing was taken out, and there were two
        have hrounds := classes_of_rounds (hone ▸ forall_singleton hconcat)
        rw [← hrounds, hone] at hsubs
        exact absurd hsubs (Nat.not_succ_le_self 1)
      · have hrounds := classes_of_rounds fun sub hsub => isConcat_of_isCharClass (hall sub hsub)
        rw [hrounds] at hall
        exact ⟨hclass, hall⟩
    · exact Or.inr (Or.inl rfl)
  · exact Or.inl rfl

/-- Several results are not all classes. -/
theorem factor_not_classes {tables : Tables} {fuel : ℕ} {subs : List Node}
    (hsubs : 2 ≤ subs.length) (h : 2 ≤ (factor tables (fuel + 1) subs).length) :
    ∃ sub ∈ factor tables (fuel + 1) subs, sub.isCharClass = false := by
  by_contra hnone
  push Not at hnone
  simp only [ne_eq, Bool.not_eq_false] at hnone
  rw [factor, if_neg (by omega)] at h hnone
  have hclasses := factorEmpty_eq fun sub hsub => isEmptyMatch_of_isCharClass (hnone sub hsub)
  rw [hclasses] at h hnone
  have hlength := length_factorClasses tables (classes_of_factorClasses hnone)
  omega

theorem factor_ne_nil {tables : Tables} {fuel : ℕ} {subs : List Node} (h : subs ≠ []) :
    factor tables fuel subs ≠ [] := by
  rcases fuel with _ | fuel
  · exact h
  · rw [factor]
    split
    · exact h
    · exact factorEmpty_ne_nil (map_runs_ne_nil (map_runs_ne_nil (map_runs_ne_nil h)))

/-- The operands of alternatives that are all classes are these alternatives. -/
theorem alternateSubs_classes {node : Node} (hproper : node.Proper)
    (h : ∀ sub ∈ node.alternateSubs, sub.isCharClass = true) :
    node.isCharClass = true := by
  cases node with
  | alternate subs =>
    obtain ⟨sub, hsub, hclass⟩ := hproper
    rw [h sub hsub] at hclass
    exact absurd hclass nofun
  | _ => exact h _ (List.mem_singleton_self _)

theorem alternateSubs_ne_nil {node : Node} (h : node.Proper) : node.alternateSubs ≠ [] := by
  cases node with
  | alternate subs =>
    obtain ⟨sub, hsub, -⟩ := h
    exact List.ne_nil_of_mem hsub
  | _ => exact List.cons_ne_nil _ _

theorem length_flatMap_alternateSubs {nodes : List Node} (h : ∀ node ∈ nodes, node.Proper) :
    nodes.length ≤ (nodes.flatMap alternateSubs).length := by
  induction nodes with
  | nil => exact le_rfl
  | cons node nodes ih =>
    rw [List.forall_mem_cons] at h
    have hpos := List.length_pos_of_ne_nil (alternateSubs_ne_nil h.1)
    have hrest := ih h.2
    rw [List.flatMap_cons, List.length_append, List.length_cons]
    omega

/-- What several alternatives collapse to, when it is a string or a class. -/
theorem collapse_spec (tables : Tables) (fuel : ℕ) {nodes : List Node}
    (hnodes : 2 ≤ nodes.length) (hproper : ∀ node ∈ nodes, node.Proper) :
    (collapse (factor tables (fuel + 1)) nodes).Proper ∧
      ∀ n, (collapse (factor tables (fuel + 1)) nodes).length = some n →
        ∀ node ∈ nodes, node.isCharClass = true := by
  have hsubs := hnodes.trans (length_flatMap_alternateSubs hproper)
  have hne : nodes.flatMap alternateSubs ≠ [] := List.ne_nil_of_length_pos (by omega)
  rw [collapse.eq_def]
  split
  · exact absurd hnodes (Nat.not_succ_le_self 1)
  · split
    · next node hone =>
      rcases factor_singleton hsubs hone with hempty | hconcat | ⟨hclass, hall⟩
      · cases node with
        | emptyMatch => exact ⟨trivial, fun n h => absurd h (by rintro ⟨⟩)⟩
        | _ => exact absurd hempty (by rintro ⟨⟩)
      · cases node with
        | concat subs => exact ⟨trivial, fun n h => absurd h (by rintro ⟨⟩)⟩
        | _ => exact absurd hconcat (by rintro ⟨⟩)
      · refine ⟨proper_of_isCharClass hclass, fun n _ node hnode => ?_⟩
        exact alternateSubs_classes (hproper node hnode) fun sub hsub =>
          hall sub (List.mem_flatMap_of_mem hnode hsub)
    · next hmany =>
      have hlength : 2 ≤ (factor tables (fuel + 1) (nodes.flatMap alternateSubs)).length := by
        rcases hfactor : factor tables (fuel + 1) (nodes.flatMap alternateSubs) with
          _ | ⟨first, _ | ⟨second, others⟩⟩
        · exact absurd hfactor (factor_ne_nil hne)
        · exact absurd hfactor (hmany first)
        · exact Nat.le_add_left _ _
      exact ⟨factor_not_classes hsubs hlength, fun n h => absurd h (by rintro ⟨⟩)⟩

/-- What has been collected of some alternatives: several nodes are not all classes, and one node
is the only alternative or takes all of them in. -/
structure Collected (branches nodes : List Node) : Prop where
  ne_nil : nodes ≠ []
  proper : ∀ node ∈ nodes, node.Proper
  mixed : 2 ≤ nodes.length → ∃ node ∈ nodes, node.isCharClass = false
  one : ∀ node, nodes = [node] → branches = [node] ∨
    (node.isCharClass = true ∧ ∀ branch ∈ branches, branch.isCharClass = true)
  classes : (∀ branch ∈ branches, branch.isCharClass = true) → ∃ node, nodes = [node] ∧
    node.isCharClass = true

theorem collected_singleton {node : Node} (h : node.Proper) : Collected [node] [node] := by
  refine ⟨List.cons_ne_nil _ _, ?_, fun hlength => absurd hlength (Nat.not_succ_le_self 1),
    fun other hother => Or.inl hother,
    fun hclass => ⟨node, rfl, hclass node (List.mem_singleton_self node)⟩⟩
  intro other hother
  rwa [List.mem_singleton.mp hother]

theorem Collected.add (tables : Tables) {branches nodes : List Node} {node : Node}
    (h : Collected branches nodes) (hproper : node.Proper) :
    Collected (branches ++ [node]) (addBranch tables nodes node) := by
  rcases nodes with _ | ⟨last, earlier⟩
  · exact absurd rfl h.ne_nil
  · have hlast := List.forall_mem_cons.mp h.proper
    rw [addBranch]
    split
    · next hboth =>
      rw [Bool.and_eq_true] at hboth
      have hmerged := isCharClass_mergeClasses tables hboth.1 hboth.2
      refine ⟨List.cons_ne_nil _ _,
        List.forall_mem_cons.mpr ⟨proper_of_isCharClass hmerged, hlast.2⟩, fun hlength => ?_,
        fun other hother => Or.inr ?_, fun hall => ?_⟩
      · obtain ⟨other, hother, hclass⟩ := h.mixed hlength
        rcases List.mem_cons.mp hother with rfl | hother
        · rw [hboth.1] at hclass
          exact absurd hclass nofun
        · exact ⟨other, List.mem_cons_of_mem _ hother, hclass⟩
      · obtain ⟨rfl, rfl⟩ := List.cons.inj hother
        refine ⟨hmerged, fun branch hbranch => ?_⟩
        rcases List.mem_append.mp hbranch with hold | hnew
        · rcases h.one last rfl with hone | ⟨-, hall⟩
          · rw [hone] at hold
            rw [List.mem_singleton.mp hold]
            exact hboth.1
          · exact hall branch hold
        · rw [List.mem_singleton.mp hnew]
          exact hboth.2
      · obtain ⟨other, hone, -⟩ := h.classes fun branch hbranch =>
          hall branch (List.mem_append_left _ hbranch)
        obtain ⟨rfl, rfl⟩ := List.cons.inj hone
        exact ⟨_, rfl, hmerged⟩
    · next hboth =>
      rw [Bool.and_eq_true, not_and, Bool.not_eq_true] at hboth
      refine ⟨List.cons_ne_nil _ _, List.forall_mem_cons.mpr ⟨hproper, List.forall_mem_cons.mpr
        ⟨proper_cleanAlt hlast.1, hlast.2⟩⟩, fun _ => ?_, fun other hother => ?_, fun hall => ?_⟩
      · rcases hclass : last.isCharClass with _ | _
        · refine ⟨last.cleanAlt, List.mem_cons_of_mem _ List.mem_cons_self, ?_⟩
          by_contra hclean
          rw [isCharClass_of_cleanAlt (Bool.not_eq_false _ ▸ hclean)] at hclass
          exact absurd hclass nofun
        · exact ⟨node, List.mem_cons_self, hboth hclass⟩
      · exact absurd (List.cons.inj hother).2 (List.cons_ne_nil _ _)
      · obtain ⟨other, hone, hclass⟩ := h.classes fun branch hbranch =>
          hall branch (List.mem_append_left _ hbranch)
        obtain ⟨rfl, rfl⟩ := List.cons.inj hone
        have hnode := hall node (List.mem_append_right _ (List.mem_singleton_self node))
        rw [hboth hclass] at hnode
        exact absurd hnode nofun

theorem collected_foldl (tables : Tables) {branches nodes others : List Node}
    (h : Collected branches nodes) (hothers : ∀ node ∈ others, node.Proper) :
    Collected (branches ++ others) (others.foldl (addBranch tables) nodes) := by
  induction others generalizing branches nodes with
  | nil =>
    rw [List.append_nil]
    exact h
  | cons node others ih =>
    rw [List.forall_mem_cons] at hothers
    have hrest := ih (h.add tables hothers.1) hothers.2
    rw [List.append_assoc] at hrest
    exact hrest

theorem collected (tables : Tables) {branches : List Node} (hne : branches ≠ [])
    (hproper : ∀ node ∈ branches, node.Proper) :
    Collected branches (branches.foldl (addBranch tables) []) := by
  rcases branches with _ | ⟨node, others⟩
  · exact absurd rfl hne
  · rw [List.forall_mem_cons] at hproper
    exact collected_foldl tables (collected_singleton hproper.1) hproper.2

/-- What alternatives are when their tree is a string or a class. -/
theorem alternation_spec (tables : Tables) (fuel : ℕ) {branches : List Node}
    (hne : branches ≠ []) (hproper : ∀ node ∈ branches, node.Proper) :
    (alternation tables (fuel + 1) branches).Proper ∧
      (∀ n, (alternation tables (fuel + 1) branches).length = some n →
        (∃ branch, branches = [branch] ∧ branch.length = some n) ∨
        (n = 1 ∧ ∀ branch ∈ branches, branch.isCharClass = true)) ∧
      ((∀ branch ∈ branches, branch.isCharClass = true) →
        (alternation tables (fuel + 1) branches).length = some 1) := by
  have hcollected := collected tables hne hproper
  rw [alternation]
  split
  · next hnil => exact absurd hnil hcollected.ne_nil
  · next last earlier hcons =>
    rw [hcons] at hcollected
    have hlast := List.forall_mem_cons.mp hcollected.proper
    rcases earlier with _ | ⟨second, earlier⟩
    · have hlength : (single tables last.cleanAlt).length = last.length := by
        rw [length_single, length_cleanAlt]
      refine ⟨proper_single tables (proper_cleanAlt hlast.1), fun n hn => ?_, fun hall => ?_⟩
      · rw [List.reverse_singleton, collapse, hlength] at hn
        rcases hcollected.one last rfl with hone | ⟨hclass, hall⟩
        · exact Or.inl ⟨last, hone, hn⟩
        · rw [length_of_isCharClass hclass] at hn
          exact Or.inr ⟨(Option.some.inj hn).symm, hall⟩
      · obtain ⟨node, hone, hclass⟩ := hcollected.classes hall
        rw [List.reverse_singleton, collapse, hlength, (List.cons.inj hone).1]
        exact length_of_isCharClass hclass
    · have hmany : 2 ≤ (last.cleanAlt :: second :: earlier).reverse.length := by
        rw [List.length_reverse]
        exact Nat.le_add_left _ _
      have hall : ∀ node ∈ (last.cleanAlt :: second :: earlier).reverse, node.Proper := fun node h =>
        List.forall_mem_cons.mpr ⟨proper_cleanAlt hlast.1, hlast.2⟩ node (List.mem_reverse.mp h)
      obtain ⟨hcollapse, hclasses⟩ := collapse_spec tables fuel hmany hall
      refine ⟨proper_single tables hcollapse, fun n hn => ?_, fun hall => ?_⟩
      · -- all of them would be classes
        rw [length_single] at hn
        obtain ⟨other, hother, hclass⟩ := hcollected.mixed (Nat.le_add_left _ _)
        rcases List.mem_cons.mp hother with rfl | hother
        · rw [isCharClass_of_cleanAlt (hclasses n hn _ (List.mem_reverse.mpr List.mem_cons_self))]
            at hclass
          exact absurd hclass (by rintro ⟨⟩)
        · rw [hclasses n hn other (List.mem_reverse.mpr (List.mem_cons_of_mem _ hother))] at hclass
          exact absurd hclass (by rintro ⟨⟩)
      · obtain ⟨node, hone, -⟩ := hcollected.classes hall
        exact absurd (List.cons.inj hone).2 (List.cons_ne_nil _ _)

end Node

/-! ### Expressions -/

section

variable {tables : Tables} {fuel : ℕ}

theorem proper_nodes {branches : List (List Node)}
    (hproper : ∀ items ∈ branches, ∀ item ∈ items, item.Proper) :
    ∀ node ∈ branches.map Node.concatNode, node.Proper := by
  intro node hnode
  obtain ⟨items, hitems, rfl⟩ := List.mem_map.mp hnode
  exact Node.proper_concatNode (hproper items hitems)

variable (tables fuel) in
theorem treeOf_spec {branches : List (List Node)} (hne : branches ≠ [])
    (hproper : ∀ items ∈ branches, ∀ item ∈ items, item.Proper) :
    (treeOf tables (fuel + 1) branches).Proper ∧
      (∀ n, (treeOf tables (fuel + 1) branches).length = some n →
        (∃ items, branches = [items] ∧ Node.lengthAll items = some n) ∨
        (n = 1 ∧ ∀ items ∈ branches, (Node.concatNode items).isCharClass = true)) ∧
      ((∀ items ∈ branches, (Node.concatNode items).isCharClass = true) →
        (treeOf tables (fuel + 1) branches).length = some 1) := by
  obtain ⟨htree, hlength, hclasses⟩ := Node.alternation_spec tables fuel
    (fun hnil => hne (List.map_eq_nil_iff.mp hnil)) (proper_nodes hproper)
  refine ⟨htree, fun n hn => ?_, fun hall => hclasses fun node hnode => ?_⟩
  · rcases hlength n hn with ⟨node, hone, hnode⟩ | ⟨rfl, hall⟩
    · obtain ⟨items, rfl, rfl⟩ := List.map_eq_singleton_iff.mp hone
      exact Or.inl ⟨items, rfl, Node.lengthAll_of_concatNode
        (hproper items (List.mem_singleton_self items)) hnode⟩
    · exact Or.inr ⟨rfl, fun items hitems => hall _ (List.mem_map_of_mem hitems)⟩
  · obtain ⟨items, hitems, rfl⟩ := List.mem_map.mp hnode
    exact hall items hitems

/-- A tree that is a string or a class, as the items of an operand. -/
theorem lengthAll_itemsOf {branches : List (List Node)} (hne : branches ≠ [])
    (hproper : ∀ items ∈ branches, ∀ item ∈ items, item.Proper) {n : ℕ}
    (h : (treeOf tables (fuel + 1) branches).length = some n) :
    Node.lengthAll (itemsOf tables (fuel + 1) branches) = some n := by
  rw [itemsOf.eq_def]
  split
  · next items =>
    rcases (treeOf_spec tables fuel hne hproper).2.1 n h with ⟨items', hone, hitems⟩ | ⟨rfl, hall⟩
    · rw [(List.cons.inj hone).1]
      exact hitems
    · exact Node.lengthAll_of_concatNode (hproper items (List.mem_singleton_self items))
        (Node.length_of_isCharClass (hall items (List.mem_singleton_self items)))
  · rw [Node.lengthAll_singleton]
    exact h

theorem proper_itemsOf {branches : List (List Node)} (hne : branches ≠ [])
    (hproper : ∀ items ∈ branches, ∀ item ∈ items, item.Proper) :
    ∀ item ∈ itemsOf tables (fuel + 1) branches, item.Proper := by
  rw [itemsOf.eq_def]
  split
  · next items => exact hproper items (List.mem_singleton_self items)
  · intro item hitem
    rw [List.mem_singleton.mp hitem]
    exact (treeOf_spec tables fuel hne hproper).1

end

/-- What holds of the alternatives of an expression. -/
structure Solid (tables : Tables) (fuel : ℕ) (e : Expr) (branches : List (List Node)) : Prop where
  ne_nil : branches ≠ []
  proper : ∀ items ∈ branches, ∀ item ∈ items, item.Proper
  width : ∀ n, Node.lengthAll (itemsOf tables (fuel + 1) branches) = some n → e.width = some n

section

variable {tables : Tables} {fuel : ℕ} {e : Expr}

/-- An expression that is one item. -/
theorem solid_item {node : Node} (hproper : node.Proper)
    (h : ∀ n, node.length = some n → e.width = some n) : Solid tables fuel e [[node]] := by
  refine ⟨List.cons_ne_nil _ _, fun items hitems item hitem => ?_, fun n hn => ?_⟩
  · rw [List.mem_singleton.mp hitems] at hitem
    rw [List.mem_singleton.mp hitem]
    exact hproper
  · rw [itemsOf, Node.lengthAll_singleton] at hn
    exact h n hn

theorem Solid.tree_width {branches : List (List Node)} (h : Solid tables fuel e branches) {n : ℕ}
    (hlength : (treeOf tables (fuel + 1) branches).length = some n) : e.width = some n :=
  h.width n (lengthAll_itemsOf h.ne_nil h.proper hlength)

variable (tables fuel) in
theorem solid_branches (e : Expr) : Solid tables fuel e (e.branches tables (fuel + 1)) := by
  induction e with
  | empty =>
    refine ⟨List.cons_ne_nil _ _, fun items hitems item hitem => ?_, fun n hn => hn⟩
    rw [List.mem_singleton.mp hitems] at hitem
    exact absurd hitem List.not_mem_nil
  | literal code fold => exact solid_item (List.cons_ne_nil _ _) fun n hn => hn
  | set negated items fold =>
    refine solid_item (Node.proper_single tables trivial) fun n hn => ?_
    rw [Node.length_single] at hn
    exact hn
  | any newline =>
    rcases newline with _ | _
    · exact solid_item trivial fun n hn => hn
    · exact solid_item trivial fun n hn => hn
  | assertion a => exact solid_item trivial fun n hn => absurd hn (by rintro ⟨⟩)
  | group capturing e ih =>
    have htree := (treeOf_spec tables fuel ih.ne_nil ih.proper).1
    rcases capturing with _ | _
    · exact solid_item htree fun n hn => ih.tree_width hn
    · exact solid_item htree fun n hn => ih.tree_width hn
  | concat e f ihe ihf =>
    refine ⟨List.cons_ne_nil _ _, fun items hitems => ?_, fun n hn => ?_⟩
    · rw [List.mem_singleton.mp hitems, List.forall_mem_append]
      exact ⟨proper_itemsOf ihe.ne_nil ihe.proper, proper_itemsOf ihf.ne_nil ihf.proper⟩
    · rw [Expr.branches, itemsOf, Node.lengthAll_append] at hn
      obtain ⟨m, hm, hrest⟩ := Option.bind_eq_some_iff.mp hn
      obtain ⟨k, hk, rfl⟩ := Option.map_eq_some_iff.mp hrest
      rw [Expr.width, ihe.width m hm, ihf.width k hk]
      rfl
  | alternate e f ihe ihf =>
    have hne : e.branches tables (fuel + 1) ++ f.branches tables (fuel + 1) ≠ [] :=
      List.append_ne_nil_of_left_ne_nil ihe.ne_nil _
    have hproper := List.forall_mem_append.mpr ⟨ihe.proper, ihf.proper⟩
    have hmany : ∀ items, e.branches tables (fuel + 1) ++ f.branches tables (fuel + 1) ≠ [items] := by
      intro items hone
      have hlength := congrArg List.length hone
      rw [List.length_append, List.length_singleton] at hlength
      have hfirst := List.length_pos_of_ne_nil ihe.ne_nil
      have hsecond := List.length_pos_of_ne_nil ihf.ne_nil
      omega
    refine ⟨hne, hproper, fun n hn => ?_⟩
    rw [Expr.branches, itemsOf, Node.lengthAll_singleton] at hn
    · rcases (treeOf_spec tables fuel hne hproper).2.1 n hn with ⟨items, hone, -⟩ | ⟨rfl, hall⟩
      · exact absurd hone (hmany items)
      · rw [List.forall_mem_append] at hall
        rw [Expr.width,
          ihe.tree_width ((treeOf_spec tables fuel ihe.ne_nil ihe.proper).2.2 hall.1),
          ihf.tree_width ((treeOf_spec tables fuel ihf.ne_nil ihf.proper).2.2 hall.2), if_pos rfl]
    · exact hmany
  | repeated op isLazy e ih => exact solid_item trivial fun n hn => absurd hn (by rintro ⟨⟩)

/-- An expression whose tree is a string or a class has a fixed width, which is not zero. -/
theorem width_of_tree {n : ℕ} (h : (e.tree tables (fuel + 1)).length = some n) :
    e.width = some n ∧ 0 < n :=
  ⟨(solid_branches tables fuel e).tree_width h, Node.length_pos h⟩

theorem proper_tree (tables : Tables) (fuel : ℕ) (e : Expr) :
    (e.tree tables (fuel + 1)).Proper :=
  (treeOf_spec tables fuel (solid_branches tables fuel e).ne_nil
    (solid_branches tables fuel e).proper).1

end

end SimpleCdn.Regexp
