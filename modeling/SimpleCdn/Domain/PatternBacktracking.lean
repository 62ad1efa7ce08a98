import SimpleCdn.Domain.PatternMeaning
import SimpleCdn.Lib.Regexp.Solid

/-!
# What accepted patterns repeat

The check of a pattern looks at the tree of the rewritten text, in which alternatives of single
characters have become a class.  It makes sure of the width of what is repeated and of the number of
choices; that a character is matched in one way it does not see.
-/

namespace SimpleCdn

open Regexp

/-! ### Repetitions as they are written -/

/-- Whatever is repeated, at any depth, has the property. -/
def Regexp.Expr.RepeatsOnly (P : Expr → Prop) : Expr → Prop
  | .group _ e => e.RepeatsOnly P
  | .concat e f => e.RepeatsOnly P ∧ f.RepeatsOnly P
  | .alternate e f => e.RepeatsOnly P ∧ f.RepeatsOnly P
  | .repeated op _ e => (op.repeats = true → P e) ∧ e.RepeatsOnly P
  | _ => True

/-- A number of times that is not fixed. -/
def Regexp.RepeatOp.isVariable : RepeatOp → Bool
  | .counted min max => max ≠ some min
  | _ => true

def Regexp.Expr.quantifiers : Expr → ℕ
  | .group _ e => e.quantifiers
  | .concat e f => e.quantifiers + f.quantifiers
  | .alternate e f => e.quantifiers + f.quantifiers
  | .repeated op _ e => (if op.isVariable then 1 else 0) + e.quantifiers
  | _ => 0

/-- A backtracking matcher has no choice within a repetition of the pattern as it is written. -/
def SafeAsWritten (tables : Tables) (pattern : List Char) : Prop :=
  ∃ e ∈ parse tables.known pattern,
    e.RepeatsOnly (Expr.OneWay tables) ∧ e.quantifiers ≤ 16

/-- No two alternatives of something repeated match the same string. -/
def DistinctAlternatives (tables : Tables) (pattern : List Char) : Prop :=
  ∀ e ∈ parse tables.known pattern, e.RepeatsOnly (Expr.Distinct tables)

section

variable {P Q : Expr → Prop} {e : Expr}

theorem Regexp.Expr.RepeatsOnly.imp₂ {R : Expr → Prop} (h : e.RepeatsOnly P)
    (hQ : e.RepeatsOnly Q) (himp : ∀ r, P r → Q r → R r) : e.RepeatsOnly R := by
  induction e with
  | group _ e ih => exact ih h hQ
  | concat e f ihe ihf => exact ⟨ihe h.1 hQ.1, ihf h.2 hQ.2⟩
  | alternate e f ihe ihf => exact ⟨ihe h.1 hQ.1, ihf h.2 hQ.2⟩
  | repeated op _ e ih =>
    exact ⟨fun hop => himp e (h.1 hop) (hQ.1 hop), ih h.2 hQ.2⟩
  | _ => trivial

theorem Regexp.Expr.RepeatsOnly.imp (h : e.RepeatsOnly P) (himp : ∀ r, P r → Q r) :
    e.RepeatsOnly Q :=
  h.imp₂ h fun r hr _ => himp r hr

theorem Regexp.Expr.repeatsOnly_capture (hP : ∀ r, P r.capture ↔ P r) :
    e.capture.RepeatsOnly P ↔ e.RepeatsOnly P := by
  induction e with
  | group _ e ih => exact ih
  | concat e f ihe ihf => exact and_congr ihe ihf
  | alternate e f ihe ihf => exact and_congr ihe ihf
  | repeated op _ e ih => exact and_congr (imp_congr_right fun _ => hP e) ih
  | _ => rfl

theorem Regexp.Expr.quantifiers_capture (e : Expr) : e.capture.quantifiers = e.quantifiers := by
  induction e with
  | group _ e ih => exact ih
  | concat e f ihe ihf => exact congrArg₂ (· + ·) ihe ihf
  | alternate e f ihe ihf => exact congrArg₂ (· + ·) ihe ihf
  | repeated op _ e ih => exact congrArg (_ + ·) ih
  | _ => rfl

theorem Regexp.Expr.width_capture (e : Expr) : e.capture.width = e.width := by
  induction e with
  | group _ e ih => exact ih
  | concat e f ihe ihf => rw [capture, width, width, ihe, ihf]
  | alternate e f ihe ihf => rw [capture, width, width, ihe, ihf]
  | _ => rfl

end

/-! ### What the check sees -/

theorem safeSecurityRepeatOperand_class {node : Regexp.Node} (h : node.isCharClass = true) :
    safeSecurityRepeatOperand node = true := by
  cases node with
  | repeated op isLazy sub => exact absurd h nofun
  | concat subs => exact absurd h nofun
  | alternate subs => exact absurd h nofun
  | capture sub => exact absurd h nofun
  | emptyMatch => exact absurd h nofun
  | assertion a => exact absurd h nofun
  | _ => rfl

/-- One for each repetition that the check refuses. -/
def unsafeWeight : Weight where
  of op sub := if op.repeats && !safeSecurityRepeatOperand sub then 1 else 0
  simple n sub h := by
    rw [safeSecurityRepeatOperand_class h]
    rfl

/-- One for each quantifier. -/
def quantifierWeight : Weight where
  of op _ := if op.isVariable then 1 else 0
  simple n sub h := by
    rw [RepeatOp.isVariable, if_neg]
    simp

mutual

theorem weigh_unsafe : ∀ node : Regexp.Node, hasUnsafeSecurityRepetition node = false →
    node.weigh unsafeWeight = 0
  | .repeated op _ sub, h => by
    rw [hasUnsafeSecurityRepetition, Bool.or_eq_false_iff] at h
    rw [Node.weigh, weigh_unsafe sub h.2]
    show (if op.repeats && !safeSecurityRepeatOperand sub then 1 else 0) + 0 = 0
    rw [h.1]
    rfl
  | .capture sub, h => weigh_unsafe sub h
  | .concat subs, h => weighAll_unsafe subs h
  | .alternate subs, h => weighAll_unsafe subs h
  | .emptyMatch, _ => rfl
  | .literal _ _, _ => rfl
  | .charClass _, _ => rfl
  | .anyCharNotNL, _ => rfl
  | .anyChar, _ => rfl
  | .assertion _, _ => rfl

theorem weighAll_unsafe : ∀ nodes : List Regexp.Node, anyUnsafeSecurityRepetition nodes = false →
    Node.weighAll unsafeWeight nodes = 0
  | [], _ => rfl
  | node :: nodes, h => by
    rw [anyUnsafeSecurityRepetition, Bool.or_eq_false_iff] at h
    rw [Node.weighAll, weigh_unsafe node h.1, weighAll_unsafe nodes h.2]

end

mutual

theorem weigh_choices : ∀ node : Regexp.Node,
    node.weigh quantifierWeight ≤ securityBacktrackingChoices node
  | .repeated op _ sub => by
    have hsub := weigh_choices sub
    rw [Node.weigh, securityBacktrackingChoices]
    show (if op.isVariable then 1 else 0) + _ ≤ _
    split
    · omega
    · omega
  | .capture sub => weigh_choices sub
  | .concat subs => weighAll_choices subs
  | .alternate subs => by
    rw [Node.weigh, securityBacktrackingChoices]
    exact (weighAll_choices subs).trans (Nat.le_add_left _ _)
  | .emptyMatch => le_rfl
  | .literal _ _ => le_rfl
  | .charClass _ => le_rfl
  | .anyCharNotNL => le_rfl
  | .anyChar => le_rfl
  | .assertion _ => le_rfl

theorem weighAll_choices : ∀ nodes : List Regexp.Node,
    Node.weighAll quantifierWeight nodes ≤ allBacktrackingChoices nodes
  | [] => le_rfl
  | node :: nodes => by
    rw [Node.weighAll, allBacktrackingChoices]
    exact Nat.add_le_add (weigh_choices node) (weighAll_choices nodes)

end

section

variable {tables : Tables} {fuel : ℕ}

theorem weigh_quantifiers (e : Expr) : e.weigh quantifierWeight tables fuel = e.quantifiers := by
  induction e with
  | group _ e ih => exact ih
  | concat e f ihe ihf => exact congrArg₂ (· + ·) ihe ihf
  | alternate e f ihe ihf => exact congrArg₂ (· + ·) ihe ihf
  | repeated op _ e ih => exact congrArg (_ + ·) ih
  | _ => rfl

theorem repeatsOnly_of_weigh {e : Expr} (h : e.weigh unsafeWeight tables fuel = 0) :
    e.RepeatsOnly fun r => safeSecurityRepeatOperand (r.tree tables fuel) = true := by
  induction e with
  | group _ e ih => exact ih h
  | concat e f ihe ihf =>
    have hboth := Nat.add_eq_zero_iff.mp h
    exact ⟨ihe hboth.1, ihf hboth.2⟩
  | alternate e f ihe ihf =>
    have hboth := Nat.add_eq_zero_iff.mp h
    exact ⟨ihe hboth.1, ihf hboth.2⟩
  | repeated op _ e ih =>
    obtain ⟨hhere, hrest⟩ := Nat.add_eq_zero_iff.mp h
    refine ⟨fun hop => ?_, ih hrest⟩
    by_contra hunsafe
    rw [Bool.not_eq_true] at hunsafe
    have hone : unsafeWeight.of op (e.tree tables fuel) = 1 := by
      show (if op.repeats && !safeSecurityRepeatOperand (e.tree tables fuel) then 1 else 0) = 1
      rw [hop, hunsafe]
      rfl
    omega
  | _ => trivial

/-- A safe operand is a string or a class. -/
theorem length_of_safe : ∀ {node : Regexp.Node}, node.Proper →
    safeSecurityRepeatOperand node = true → ∃ n, node.length = some n
  | .capture sub, hproper, h => @length_of_safe sub hproper h
  | .literal _ fold, hproper, _ => ⟨_, Node.length_literal hproper fold⟩
  | .charClass _, _, _ => ⟨1, rfl⟩
  | .anyCharNotNL, _, _ => ⟨1, rfl⟩
  | .anyChar, _, _ => ⟨1, rfl⟩

end

/-! ### Accepted patterns -/

theorem normalizeSecurityPolicy_pattern {tables : Tables} {policy normalized : SecurityPolicy}
    (h : normalizeSecurityPolicy tables policy = .ok normalized) :
    normalized.pattern ≠ "" ∧ (isBuiltinSecurityPolicyPattern normalized.pattern = true ∨
      (securityTree tables normalized.pattern.toList).any (fun tree =>
        !hasUnsafeSecurityRepetition tree && securityBacktrackingChoices tree ≤ 16) = true) := by
  simp only [normalizeSecurityPolicy, bind_eq_ok, require_eq_ok, exists_const] at h
  obtain ⟨-, hpattern, -, -, hcheck, -, h⟩ := h
  have heq : normalized.pattern = Text.trimSpace policy.pattern := by
    split at h
    · cases h
      rfl
    · simp only [bind_eq_ok, require_eq_ok, exists_const] at h
      cases h.2
      rfl
  rw [heq]
  exact ⟨hpattern.1, hcheck⟩

/-- What the check makes sure of, in the expression that is compiled. -/
theorem width_of_check {tables : Tables} {fuel : ℕ} {e : Expr}
    (hrepetition : hasUnsafeSecurityRepetition (e.tree tables (fuel + 1)) = false)
    (hchoices : securityBacktrackingChoices (e.tree tables (fuel + 1)) ≤ 16) :
    e.RepeatsOnly (fun r => ∃ n, 0 < n ∧ r.width = some n) ∧ e.quantifiers ≤ 16 := by
  have hunsafe := weigh_unsafe _ hrepetition
  have hquantifiers := weigh_choices (e.tree tables (fuel + 1))
  rw [Expr.weigh_tree] at hunsafe hquantifiers
  rw [weigh_quantifiers] at hquantifiers
  refine ⟨(repeatsOnly_of_weigh hunsafe).imp fun r hsafe => ?_, hquantifiers.trans hchoices⟩
  obtain ⟨n, hn⟩ := length_of_safe (proper_tree tables fuel r) hsafe
  exact ⟨n, (width_of_tree hn).2, (width_of_tree hn).1⟩

/-- An accepted pattern in which every `(?:` opens a group, and no two alternatives of something
repeated match the same string, leaves a backtracking matcher no choice within a repetition. -/
theorem accepted_safe {tables : Tables} {policy normalized : SecurityPolicy}
    (hpolicy : normalizeSecurityPolicy tables policy = .ok normalized)
    (hcustom : isBuiltinSecurityPolicyPattern normalized.pattern = false)
    (hgroups : opensGroups tables normalized.pattern.toList = true)
    (hdistinct : DistinctAlternatives tables normalized.pattern.toList) :
    SafeAsWritten tables normalized.pattern.toList := by
  obtain ⟨hne, hcheck⟩ := normalizeSecurityPolicy_pattern hpolicy
  rw [hcustom, Option.any_eq_true] at hcheck
  obtain ⟨tree, htree, hsafe⟩ := hcheck.resolve_left nofun
  obtain ⟨fuel, hfuel⟩ : ∃ n, normalized.pattern.toList.length = n + 1 :=
    Nat.exists_eq_add_one_of_ne_zero fun hzero =>
      hne (String.toList_injective (List.eq_nil_of_length_eq_zero hzero))
  have hparse := hgroups
  rw [opensGroups, Bool.and_eq_true] at hparse
  obtain ⟨e, he⟩ := Option.isSome_iff_exists.mp hparse.1
  obtain ⟨e', he', hcapture⟩ := compile_capture he hgroups
  rw [securityTree, he', Option.map_some, Option.some_inj, hfuel] at htree
  rw [← htree, Bool.and_eq_true, Bool.not_eq_true', decide_eq_true_eq] at hsafe
  obtain ⟨hwidth, hquantifiers⟩ := width_of_check hsafe.1 hsafe.2
  -- the pattern itself differs only in which groups capture
  have hinvariant (r : Expr) : (∃ n, 0 < n ∧ r.capture.width = some n) ↔
      ∃ n, 0 < n ∧ r.width = some n := by
    rw [Expr.width_capture]
  rw [← Expr.repeatsOnly_capture hinvariant, hcapture, Expr.repeatsOnly_capture hinvariant] at hwidth
  rw [← Expr.quantifiers_capture, hcapture, Expr.quantifiers_capture] at hquantifiers
  refine ⟨e, he, hwidth.imp₂ (hdistinct e he) fun r hr hr' => ?_, hquantifiers⟩
  obtain ⟨n, hpos, hn⟩ := hr
  exact Expr.oneWay_of_width hn hpos hr'

/-- Runs of letters, between slashes. -/
def lettersPolicy : SecurityPolicy where
  id := "00000000-0000-4000-8000-000000000004"
  name := "letters"
  enabled := true
  pattern := "^/(?:a|b)+/?$"
  action := .block
  banDurationSeconds := 0
  priority := 1

theorem lettersPolicy_safe : SafeAsWritten plainTables lettersPolicy.pattern.toList := by
  have hpolicy : normalizeSecurityPolicy plainTables lettersPolicy = .ok lettersPolicy := by
    decide +kernel
  refine accepted_safe hpolicy (by decide +kernel) (by decide +kernel) fun e he => ?_
  have hparse : parse plainTables.known lettersPolicy.pattern.toList = some
      (.concat (.assertion .beginText) (.concat (.literal 47 false) (.concat
        (.repeated .plus false (.group false (.alternate (.literal 97 false) (.literal 98 false))))
        (.concat (.repeated .quest false (.literal 47 false)) (.assertion .endText))))) := by
    decide +kernel
  obtain rfl := Option.some.inj (hparse.symm.trans he)
  have hletters : ∀ text i j, (Expr.literal 97 false).Spans plainTables text i j →
      ¬(Expr.literal 98 false).Spans plainTables text i j := by
    intro text i j ⟨_, hfirst⟩ ⟨_, hsecond⟩
    rw [Option.any_eq_true] at hfirst hsecond
    obtain ⟨c, hc, ha⟩ := hfirst
    obtain ⟨d, hd, hb⟩ := hsecond
    obtain rfl := Option.some.inj (hc.symm.trans hd)
    rw [folded, if_neg (by rintro ⟨⟩), decide_eq_true_eq] at ha hb
    omega
  exact ⟨trivial, trivial, ⟨fun _ => ⟨hletters, trivial, trivial⟩, trivial, trivial⟩,
    ⟨fun _ => trivial, trivial⟩, trivial⟩

/-- A repetition of two alternatives that are the same letter. -/
def repeatedPolicy : SecurityPolicy where
  id := "00000000-0000-4000-8000-000000000005"
  name := "repeated"
  enabled := true
  pattern := "(?:a|a)*b"
  action := .block
  banDurationSeconds := 0
  priority := 1

/-- The policy is accepted, and each letter that it repeats matches in two ways. -/
theorem repeatedPolicy_unsafe :
    normalizeSecurityPolicy plainTables repeatedPolicy = .ok repeatedPolicy ∧
      isBuiltinSecurityPolicyPattern repeatedPolicy.pattern = false ∧
      ¬SafeAsWritten plainTables repeatedPolicy.pattern.toList := by
  refine ⟨by decide +kernel, by decide +kernel, fun h => ?_⟩
  obtain ⟨e, he, hrepeats, -⟩ := h
  have hparse : parse plainTables.known repeatedPolicy.pattern.toList = some
      (.concat (.repeated .star false (.group false
        (.alternate (.literal 97 false) (.literal 97 false)))) (.literal 98 false)) := by
    decide +kernel
  obtain rfl := Option.some.inj (hparse.symm.trans he)
  have hone := (hrepeats.1.1 rfl).one ['a'] 0 1
  have hletter : (Expr.literal 97 false).Spans plainTables ['a'] 0 1 := ⟨rfl, by decide⟩
  have hways : (Sum.inl ⟨hletter⟩ : (Expr.alternate (.literal 97 false) (.literal 97 false)).Ways
      plainTables ['a'] 0 1) = Sum.inr ⟨hletter⟩ := hone.elim _ _
  exact absurd hways nofun

end SimpleCdn
