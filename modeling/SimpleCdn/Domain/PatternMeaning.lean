import SimpleCdn.Domain.SecurityPatterns

/-!
# What the rewriting of a pattern keeps

Where `(?:` begins nothing but groups, the rewritten text is read in the same pieces, with groups
that capture.  A `(?:` may also stand in a class, or begin behind a backslash or in a quotation; there
the rewriting takes two characters away that mean something else.
-/

namespace SimpleCdn

open Regexp

/-! ### Patterns in which `(?:` opens groups -/

/-- No `(?:` begins in the first `n` characters. -/
def noGroupWithin : ℕ → List Char → Bool
  | 0, _ => true
  | n + 1, cs => !groupStart.isPrefixOf cs && noGroupWithin n cs.tail

/-- No piece but that of a group has a `(?:` beginning in it. -/
def onlyGroups : List (List Char × Piece) → Bool
  | [] => true
  | (text, _) :: ps =>
    (text = groupStart || noGroupWithin text.length (text ++ (ps.map Prod.fst).flatten)) &&
      onlyGroups ps

/-- The pattern is in the syntax as it is written, and every `(?:` of it opens a group. -/
def opensGroups (tables : Tables) (pattern : List Char) : Bool :=
  (parse tables.known pattern).isSome && (pieces pattern).any onlyGroups

/-! ### Rewriting a text -/

theorem capturingText_group (cs : List Char) :
    capturingText (groupStart ++ cs) = '(' :: capturingText cs := rfl

theorem capturingText_cons {c : Char} {cs : List Char} (h : groupStart.isPrefixOf (c :: cs) = false) :
    capturingText (c :: cs) = c :: capturingText cs := by
  rw [capturingText, Text.replaceAll, Text.replaceFrom, if_neg (by rw [h]; exact (by rintro ⟨⟩))]
  rfl

theorem capturingText_append {text cs : List Char}
    (h : noGroupWithin text.length (text ++ cs) = true) :
    capturingText (text ++ cs) = text ++ capturingText cs := by
  induction text with
  | nil => rfl
  | cons c text ih =>
    rw [List.length_cons, noGroupWithin, Bool.and_eq_true, Bool.not_eq_true'] at h
    rw [List.cons_append] at h ⊢
    rw [capturingText_cons h.1, ih h.2, List.cons_append]

/-- A text begins with a group, or its first character is kept. -/
theorem capturingText_cases (cs : List Char) :
    cs = [] ∨ (∃ rest, cs = groupStart ++ rest) ∨
      ∃ c rest, cs = c :: rest ∧ capturingText cs = c :: capturingText rest := by
  rcases cs with _ | ⟨c, cs⟩
  · exact Or.inl rfl
  · rcases hgroup : groupStart.isPrefixOf (c :: cs) with _ | _
    · exact Or.inr (Or.inr ⟨c, cs, rfl, capturingText_cons hgroup⟩)
    · obtain ⟨rest, hrest⟩ := List.isPrefixOf_iff_prefix.mp hgroup
      exact Or.inr (Or.inl ⟨rest, hrest.symm⟩)

theorem head?_capturingText (cs : List Char) : (capturingText cs).head? = cs.head? := by
  rcases capturingText_cases cs with rfl | ⟨rest, rfl⟩ | ⟨c, rest, rfl, htext⟩
  · rfl
  · rfl
  · rw [htext]
    rfl

/-- The rewriting brings no `:]` about. -/
theorem nameEnd_capturingText {cs : List Char} (h : ¬nameEnd <:+: cs) :
    ¬nameEnd <:+: capturingText cs := by
  induction hn : cs.length using Nat.strong_induction_on generalizing cs with
  | _ n ih =>
    subst hn
    rcases capturingText_cases cs with rfl | ⟨rest, rfl⟩ | ⟨c, rest, rfl, htext⟩
    · exact h
    · have hrest : ¬nameEnd <:+: rest := fun hin =>
        h (hin.trans (List.suffix_append groupStart rest).isInfix)
      have hlength : rest.length < (groupStart ++ rest).length := by
        rw [List.length_append]
        exact Nat.lt_add_of_pos_left (by decide)
      rw [capturingText_group, nameEnd_infix_cons, not_or]
      exact ⟨fun hcolon => absurd hcolon.1 (by decide), ih rest.length hlength hrest rfl⟩
    · rw [htext, nameEnd_infix_cons, head?_capturingText]
      rw [nameEnd_infix_cons, not_or] at h
      rw [not_or]
      exact ⟨h.1, ih rest.length (by rw [List.length_cons]; omega) h.2 rfl⟩

theorem alike_capturingText (cs : List Char) : Alike cs (capturingText cs) := by
  refine ⟨(head?_capturingText cs).symm, nameEnd_capturingText, fun h => ?_⟩
  rcases capturingText_cases cs with rfl | ⟨rest, rfl⟩ | ⟨c, rest, rfl, htext⟩
  · exact h
  · rw [capturingText_group, List.tail_cons]
    exact nameEnd_capturingText fun hin =>
      h (hin.trans (List.suffix_append ['?', ':'] rest).isInfix)
  · rw [htext, List.tail_cons]
    exact nameEnd_capturingText h

/-! ### Reading the rewritten text -/

theorem readPiece_group (rest : List Char) :
    readPiece.run (groupStart ++ rest) = some (.openGroup false, rest) := rfl

theorem readPiece_capture {rest : List Char} (h : rest.head? ≠ some '?') :
    readPiece.run ('(' :: rest) = some (.openGroup true, rest) := by
  show (Scan.skip? '?' >>= fun special =>
    if special = true then readSpecial else pure (.openGroup true)).run rest = _
  rw [Scan.run_bind, Scan.skip?_of_ne h]
  rfl

theorem readPiece_question (rest : List Char) :
    ∃ isLazy rest', readPiece.run ('?' :: rest) = some (.repeated .quest isLazy, rest') := by
  show ∃ isLazy rest', (Scan.skip? '?' >>= fun isLazy =>
    pure (Piece.repeated .quest isLazy)).run rest = some (.repeated .quest isLazy, rest')
  rw [Scan.run_bind]
  by_cases h : rest.head? = some '?'
  · obtain ⟨rest', rfl⟩ : ∃ rest', rest = '?' :: rest' := ⟨rest.tail, (List.cons_head?_tail h).symm⟩
    rw [Scan.skip?_self]
    exact ⟨_, _, rfl⟩
  · rw [Scan.skip?_of_ne h]
    exact ⟨_, _, rfl⟩

/-- What has just been opened has no item to repeat, so no question mark follows. -/
theorem head?_after_group {known : List Char → Bool} {b : Builder} {capturing : Bool}
    {rest : List Char} {ps : List (List Char × Piece)} (hrest : pieces rest = some ps)
    (hsteps : ((b.openGroup capturing).steps known (ps.map Prod.snd)).isSome = true) :
    rest.head? ≠ some '?' := by
  intro hhead
  obtain ⟨tail, rfl⟩ : ∃ tail, rest = '?' :: tail := ⟨_, (List.cons_head?_tail hhead).symm⟩
  rcases ps with _ | ⟨⟨text, piece⟩, ps⟩
  · exact absurd (pieces_flatten hrest) nofun
  · obtain ⟨_, _, _, hread, _⟩ := pieces_eq_cons hrest
    obtain ⟨isLazy, rest', hquest⟩ := readPiece_question tail
    rw [hquest, Option.some_inj] at hread
    obtain ⟨rfl, -⟩ := Prod.mk.inj hread
    exact absurd hsteps nofun

/-- The rewritten text has the same pieces, but that its groups capture. -/
theorem pieces_capturingText {known : List Char → Bool} {ps : List (List Char × Piece)} :
    ∀ {cs : List Char} {b : Builder}, pieces cs = some ps → onlyGroups ps = true →
      (b.steps known (ps.map Prod.snd)).isSome = true →
      ∃ ps', pieces (capturingText cs) = some ps' ∧
        (ps'.map Prod.snd).map Piece.capture = (ps.map Prod.snd).map Piece.capture := by
  induction ps with
  | nil =>
    intro cs b hcs _ _
    obtain rfl : cs = [] := (pieces_flatten hcs).symm
    exact ⟨[], rfl, rfl⟩
  | cons p ps ih =>
    intro cs b hcs honly hsteps
    obtain ⟨text, piece⟩ := p
    obtain ⟨rest, rfl, htext, hread, hrest⟩ := pieces_eq_cons hcs
    rw [onlyGroups, Bool.and_eq_true, Bool.or_eq_true, decide_eq_true_eq] at honly
    -- the step of this piece succeeds
    rw [List.map_cons, Builder.steps] at hsteps
    obtain ⟨c, hc⟩ := Option.isSome_iff_exists.mp (Option.isSome_of_isSome_bind hsteps)
    rw [hc, Option.bind_some] at hsteps
    obtain ⟨ps', hps', hpieces⟩ := ih hrest honly.2 hsteps
    rcases honly.1 with rfl | hnone
    · -- the text of a group: its question mark and colon go
      rw [readPiece_group, Option.some_inj] at hread
      obtain ⟨rfl, -⟩ := Prod.mk.inj hread
      obtain rfl : b.openGroup false = c := Option.some.inj hc
      have hquestion := head?_after_group hrest hsteps
      rw [← head?_capturingText] at hquestion
      refine ⟨(['('], .openGroup true) :: ps', ?_, ?_⟩
      · have hall := pieces_of_read (List.cons_ne_nil '(' []) (readPiece_capture hquestion)
        exact hall.trans (congrArg (Option.map _) hps')
      · rw [List.map_cons, List.map_cons, hpieces]
        rfl
    · rw [pieces_flatten hrest] at hnone
      refine ⟨(text, piece) :: ps', ?_, ?_⟩
      · rw [capturingText_append hnone, pieces_of_read htext
          (readPiece.stable hread (alike_capturingText rest)), hps']
        rfl
      · rw [List.map_cons, List.map_cons, hpieces]
        rfl

/-! ### The meaning of a pattern -/

/-- The text as it stands matches. -/
def patternMatches (tables : Tables) (pattern text : List Char) : Prop :=
  ∃ e ∈ parse tables.known pattern, e.Matches tables text

/-- The compiled pattern matches. -/
def compiledMatches (tables : Tables) (pattern text : List Char) : Prop :=
  ∃ e ∈ compileSecurityPattern tables pattern, e.Matches tables text

/-- The expression that is compiled is that of the pattern, but that its groups capture. -/
theorem compile_capture {tables : Tables} {pattern : List Char} {e : Expr}
    (hparse : parse tables.known pattern = some e) (h : opensGroups tables pattern = true) :
    ∃ e', compileSecurityPattern tables pattern = some e' ∧ e'.capture = e.capture := by
  rw [opensGroups, Bool.and_eq_true, Option.any_eq_true] at h
  obtain ⟨ps, hps, honly⟩ := h.2
  have hsteps : (Builder.initial.steps tables.known (ps.map Prod.snd)).isSome = true := by
    simp only [parse, hps, Option.bind_eq_bind, Option.bind_some] at hparse
    obtain ⟨b, hb, -⟩ := Option.bind_eq_some_iff.mp hparse
    exact Option.isSome_of_eq_some hb
  obtain ⟨ps', hps', hpieces⟩ := pieces_capturingText hps honly hsteps
  have hcongr := parse_congr tables.known hps' hps hpieces
  rw [hparse, Option.map_some, Option.map_eq_some_iff] at hcongr
  exact hcongr

/-- Where every `(?:` opens a group, the compiled pattern matches what the pattern itself does. -/
theorem compiled_meaning {tables : Tables} {pattern : List Char}
    (hgroups : opensGroups tables pattern = true) (text : List Char) :
    compiledMatches tables pattern text ↔ patternMatches tables pattern text := by
  have hparse := hgroups
  rw [opensGroups, Bool.and_eq_true] at hparse
  obtain ⟨e, he⟩ := Option.isSome_iff_exists.mp hparse.1
  obtain ⟨e', he', hcapture⟩ := compile_capture he hgroups
  rw [compiledMatches, patternMatches, he, he']
  simp only [Option.mem_some_iff, exists_eq_left']
  rw [← Expr.matches_capture tables e', hcapture, Expr.matches_capture]

/-- The tables of letters without case. -/
def plainTables : Tables where
  property _ := none
  orbit code := [code]

/-- A group, its alternatives and a class. -/
theorem compiled_meaning_admin :
    compiledMatches plainTables "^/(?:admin|[a-z(]+)$".toList "/admin".toList ↔
      patternMatches plainTables "^/(?:admin|[a-z(]+)$".toList "/admin".toList :=
  compiled_meaning (by decide +kernel) _

/-- Behind a backslash the question mark repeats a parenthesis; without it there is one to match. -/
def escapedPolicy : SecurityPolicy where
  id := "00000000-0000-4000-8000-000000000003"
  name := "parenthesis"
  enabled := true
  pattern := "\\(?:"
  action := .block
  banDurationSeconds := 0
  priority := 1

/-- The policy is accepted; a path with a colon matches its pattern and not what is compiled. -/
theorem escapedPolicy_differs :
    normalizeSecurityPolicy plainTables escapedPolicy = .ok escapedPolicy ∧
      ¬∀ text, compiledMatches plainTables escapedPolicy.pattern.toList text ↔
        patternMatches plainTables escapedPolicy.pattern.toList text := by
  refine ⟨by decide +kernel, fun h => ?_⟩
  have hcompiled : compileSecurityPattern plainTables escapedPolicy.pattern.toList =
      some (.literal 40 false) := by decide +kernel
  have hparse : parse plainTables.known escapedPolicy.pattern.toList =
      some (.concat (.repeated .quest false (.literal 40 false)) (.literal 58 false)) := by
    decide +kernel
  have hspans : (Expr.concat (.repeated .quest false (.literal 40 false)) (.literal 58 false)).Spans
      plainTables ['/', ':'] 1 2 :=
    ⟨1, ⟨0, Nat.zero_le _, by simp [RepeatOp.max], rfl⟩, rfl, by decide⟩
  obtain ⟨e, he, i, j, hi, hmatch⟩ := (h ['/', ':']).mpr ⟨_, hparse, 1, 2, by decide, hspans⟩
  obtain rfl := Option.some.inj (hcompiled.symm.trans he)
  -- there is no parenthesis in the path
  have hnone : ∀ i ≤ 2, (['/', ':'][i]?.any fun c => decide (c.toNat = 40)) = false := by decide
  have hsome := hmatch.2
  simp only [folded, Bool.false_eq_true, if_false] at hsome
  rw [hnone i hi] at hsome
  exact Bool.noConfusion hsome

end SimpleCdn
