import Mathlib.Data.List.Basic

/-!
# Lines of a text

A text over any alphabet is cut at a stop symbol: `complete` are its lines, without their stops, and
`rest` is what follows the last stop.  `chunks` are what a reader gets that reads up to and with
each stop; the rest is a chunk only if there is one.  A text is `Ended` when nothing follows its
last stop; whatever is written behind such a text has chunks of its own.
-/

namespace SimpleCdn.Lines

variable {α : Type*} [DecidableEq α] (stop : α)

/-- The symbol in front of the lines and the rest that follow it. -/
def push (a : α) (after : List (List α) × List α) : List (List α) × List α :=
  if a = stop then ([] :: after.1, after.2)
  else match after.1 with
    | [] => ([], a :: after.2)
    | line :: lines => ((a :: line) :: lines, after.2)

def split (text : List α) : List (List α) × List α :=
  text.foldr (push stop) ([], [])

def complete (text : List α) : List (List α) := (split stop text).1

def rest (text : List α) : List α := (split stop text).2

def join (lines : List (List α)) : List α :=
  lines.flatMap (· ++ [stop])

/-- Nothing follows the last stop. -/
def Ended (text : List α) : Prop := rest stop text = []

instance (text : List α) : Decidable (Ended stop text) :=
  inferInstanceAs (Decidable (_ = []))

def chunks (text : List α) : List (List α) :=
  (complete stop text).map (· ++ [stop]) ++ if rest stop text = [] then [] else [rest stop text]

section

variable {stop} {line text more : List α}

@[simp] theorem complete_nil : complete stop ([] : List α) = [] := rfl

@[simp] theorem rest_nil : rest stop ([] : List α) = [] := rfl

theorem split_cons (a : α) (text : List α) : split stop (a :: text) = push stop a (split stop text) :=
  rfl

theorem join_cons (line : List α) (lines : List (List α)) :
    join stop (line :: lines) = line ++ stop :: join stop lines := by
  rw [join, join, List.flatMap_cons, List.append_assoc, List.singleton_append]

theorem join_append (lines more : List (List α)) :
    join stop (lines ++ more) = join stop lines ++ join stop more :=
  List.flatMap_append

theorem push_stop (after : List (List α) × List α) :
    push stop stop after = ([] :: after.1, after.2) := if_pos rfl

theorem push_rest {a : α} (ha : a ≠ stop) (tail : List α) :
    push stop a ([], tail) = ([], a :: tail) := if_neg ha

theorem push_line {a : α} (ha : a ≠ stop) (lines : List (List α)) (tail : List α) :
    push stop a (line :: lines, tail) = ((a :: line) :: lines, tail) := if_neg ha

variable (stop) in
/-- The lines and the rest make up the text. -/
theorem join_complete_append_rest (text : List α) :
    join stop (complete stop text) ++ rest stop text = text := by
  induction text with
  | nil => rfl
  | cons a text ih =>
    rw [complete, rest] at ih ⊢
    rw [split_cons]
    cases hsplit : split stop text with
    | mk lines tail =>
      rw [hsplit] at ih
      by_cases ha : a = stop
      · rw [ha, push_stop, join_cons, List.nil_append, List.cons_append, ih]
      · cases lines with
        | nil =>
          rw [push_rest ha]
          exact congrArg (a :: ·) ih
        | cons line lines =>
          rw [push_line ha, join_cons]
          rw [join_cons] at ih
          exact congrArg (a :: ·) ih

variable (stop) in
theorem stop_not_mem (text : List α) :
    (∀ line ∈ complete stop text, stop ∉ line) ∧ stop ∉ rest stop text := by
  induction text with
  | nil => exact ⟨(fun _ h => by cases h), List.not_mem_nil⟩
  | cons a text ih =>
    rw [complete, rest] at ih ⊢
    rw [split_cons]
    cases hsplit : split stop text with
    | mk lines tail =>
      rw [hsplit] at ih
      obtain ⟨hlines, htail⟩ := ih
      by_cases ha : a = stop
      · rw [ha, push_stop]
        refine ⟨fun line hline => ?_, htail⟩
        rcases List.mem_cons.mp hline with rfl | hline
        · exact List.not_mem_nil
        · exact hlines line hline
      · have hnot : ∀ l : List α, stop ∉ l → stop ∉ a :: l := by
          intro l hl hmem
          rcases List.mem_cons.mp hmem with heq | hmem
          · exact ha heq.symm
          · exact hl hmem
        cases lines with
        | nil =>
          rw [push_rest ha]
          exact ⟨fun _ h => (by cases h), hnot _ htail⟩
        | cons first lines =>
          rw [push_line ha]
          refine ⟨fun line hline => ?_, htail⟩
          rcases List.mem_cons.mp hline with rfl | hline
          · exact hnot _ (hlines first List.mem_cons_self)
          · exact hlines line (List.mem_cons_of_mem _ hline)

/-- A line in front. -/
theorem split_line_append (h : stop ∉ line) (text : List α) :
    split stop (line ++ stop :: text) = (line :: complete stop text, rest stop text) := by
  induction line with
  | nil =>
    rw [List.nil_append, split_cons, push_stop]
    rfl
  | cons a line ih =>
    have ha : a ≠ stop := fun h' => h (h' ▸ List.mem_cons_self)
    rw [List.cons_append, split_cons, ih fun h' => h (List.mem_cons_of_mem _ h'), push_line ha]

theorem split_of_not_mem (h : stop ∉ text) : split stop text = ([], text) := by
  induction text with
  | nil => rfl
  | cons a text ih =>
    have ha : a ≠ stop := fun h' => h (h' ▸ List.mem_cons_self)
    rw [split_cons, ih fun h' => h (List.mem_cons_of_mem _ h'), push_rest ha]

/-- Lines in front of a text. -/
theorem split_join_append {lines : List (List α)} (h : ∀ line ∈ lines, stop ∉ line)
    (text : List α) :
    split stop (join stop lines ++ text) = (lines ++ complete stop text, rest stop text) := by
  induction lines with
  | nil => rfl
  | cons line lines ih =>
    have hrest := ih fun l hl => h l (List.mem_cons_of_mem _ hl)
    rw [join_cons, List.append_assoc, List.cons_append,
      split_line_append (h line List.mem_cons_self), complete, rest, hrest]
    rfl

theorem complete_join_append {lines : List (List α)} (h : ∀ line ∈ lines, stop ∉ line)
    (text : List α) : complete stop (join stop lines ++ text) = lines ++ complete stop text :=
  congrArg Prod.fst (split_join_append h text)

theorem rest_join_append {lines : List (List α)} (h : ∀ line ∈ lines, stop ∉ line)
    (text : List α) : rest stop (join stop lines ++ text) = rest stop text := by
  rw [rest, split_join_append h]

/-! ### Texts that have ended -/

theorem ended_nil : Ended stop ([] : List α) := rfl

theorem Ended.eq_join (h : Ended stop text) : join stop (complete stop text) = text := by
  have htext := join_complete_append_rest stop text
  rwa [show rest stop text = [] from h, List.append_nil] at htext

theorem Ended.complete_append (h : Ended stop text) (more : List α) :
    complete stop (text ++ more) = complete stop text ++ complete stop more := by
  conv_lhs => rw [← h.eq_join]
  exact complete_join_append (stop_not_mem stop text).1 more

theorem Ended.rest_append (h : Ended stop text) (more : List α) :
    rest stop (text ++ more) = rest stop more := by
  conv_lhs => rw [← h.eq_join]
  exact rest_join_append (stop_not_mem stop text).1 more

theorem Ended.append (h : Ended stop text) (hmore : Ended stop more) : Ended stop (text ++ more) :=
  (h.rest_append more).trans hmore

theorem Ended.chunks_append (h : Ended stop text) (more : List α) :
    chunks stop (text ++ more) = chunks stop text ++ chunks stop more := by
  rw [chunks, h.complete_append, h.rest_append, chunks, show rest stop text = [] from h, if_pos rfl,
    List.append_nil, List.map_append, chunks, List.append_assoc]

theorem ended_line (h : stop ∉ line) : Ended stop (line ++ [stop]) :=
  congrArg Prod.snd (split_line_append h [])

theorem chunks_line (h : stop ∉ line) : chunks stop (line ++ [stop]) = [line ++ [stop]] := by
  have hsplit := split_line_append h []
  rw [chunks, complete, rest, hsplit]
  rfl

theorem chunks_of_not_mem (h : stop ∉ text) (hne : text ≠ []) : chunks stop text = [text] := by
  rw [chunks, complete, rest, split_of_not_mem h, if_neg hne]
  rfl

/-! ### Chunks -/

@[simp] theorem chunks_nil : chunks stop ([] : List α) = [] := rfl

variable (stop) in
/-- The chunks make up the text. -/
theorem flatten_chunks (text : List α) : (chunks stop text).flatten = text := by
  have htext := join_complete_append_rest stop text
  rw [chunks, List.flatten_append]
  conv_rhs => rw [← htext]
  congr 1
  split
  · next h => rw [h, List.flatten_nil]
  · exact List.flatten_singleton

variable (stop) in
theorem flatten_take_append_drop (n : ℕ) (text : List α) :
    ((chunks stop text).take n).flatten ++ ((chunks stop text).drop n).flatten = text := by
  rw [← List.flatten_append, List.take_append_drop, flatten_chunks]

theorem ne_nil_of_mem_chunks {chunk : List α} (h : chunk ∈ chunks stop text) : chunk ≠ [] := by
  rw [chunks, List.mem_append, List.mem_map] at h
  rcases h with ⟨line, -, rfl⟩ | h
  · exact List.append_ne_nil_of_right_ne_nil _ (List.cons_ne_nil _ _)
  · split at h
    · cases h
    · next hne => rwa [List.mem_singleton.mp h]

/-- A text without the first of its chunks has the others. -/
theorem chunks_drop_chunk {chunk : List α} {others : List (List α)}
    (h : chunks stop text = chunk :: others) :
    chunks stop (text.drop chunk.length) = others := by
  have htext := join_complete_append_rest stop text
  obtain ⟨hlines, htail⟩ := stop_not_mem stop text
  rw [chunks] at h
  cases hcomplete : complete stop text with
  | nil =>
    rw [hcomplete, List.map_nil, List.nil_append] at h
    rw [hcomplete, join, List.flatMap_nil, List.nil_append] at htext
    split at h
    · cases h
    · obtain ⟨rfl, rfl⟩ := List.cons.inj h
      rw [htext, List.drop_length, chunks_nil]
  | cons line lines =>
    rw [hcomplete, List.map_cons, List.cons_append] at h
    obtain ⟨rfl, rfl⟩ := List.cons.inj h
    rw [hcomplete] at hlines htext
    have hlater : ∀ l ∈ lines, stop ∉ l := fun l hl => hlines l (List.mem_cons_of_mem _ hl)
    generalize rest stop text = tail at *
    have hcut : complete stop (join stop lines ++ tail) = lines ∧
        rest stop (join stop lines ++ tail) = tail := by
      rw [complete_join_append hlater, rest_join_append hlater, complete, rest,
        split_of_not_mem htail, List.append_nil]
      exact ⟨rfl, rfl⟩
    have hdrop : text.drop (line ++ [stop]).length = join stop lines ++ tail := by
      have heq : text = (line ++ [stop]) ++ (join stop lines ++ tail) := by
        conv_lhs => rw [← htext, join_cons]
        rw [List.append_assoc, List.append_assoc, List.cons_append, List.singleton_append]
      conv_lhs => rw [heq]
      exact List.drop_left
    rw [hdrop, chunks, hcut.1, hcut.2]

/-- A text without the first few of its chunks has the others. -/
theorem chunks_drop_chunks (n : ℕ) (text : List α) :
    chunks stop (text.drop ((chunks stop text).take n).flatten.length) =
      (chunks stop text).drop n := by
  induction n generalizing text with
  | zero => rfl
  | succ n ih =>
    cases hchunks : chunks stop text with
    | nil =>
      have htext := flatten_chunks stop text
      rw [hchunks, List.flatten_nil] at htext
      rw [← htext, List.take_nil, List.drop_nil, List.drop_nil, chunks_nil]
    | cons chunk others =>
      have hrest := ih (text.drop chunk.length)
      rw [chunks_drop_chunk hchunks] at hrest
      rw [List.take_succ_cons, List.flatten_cons, List.length_append, List.drop_succ_cons,
        ← List.drop_drop, hrest]

theorem chunks_eq_nil : chunks stop text = [] ↔ text = [] := by
  constructor
  · intro h
    rw [← flatten_chunks stop text, h, List.flatten_nil]
  · rintro rfl
    rfl

/-! ### A text without its first symbols -/

theorem complete_eq_nil : complete stop text = [] ↔ stop ∉ text := by
  constructor
  · intro h
    have htext := join_complete_append_rest stop text
    rw [h, join, List.flatMap_nil, List.nil_append] at htext
    rw [← htext]
    exact (stop_not_mem stop text).2
  · intro h
    rw [complete, split_of_not_mem h]

theorem rest_of_not_mem (h : stop ∉ text) : rest stop text = text := by
  rw [rest, split_of_not_mem h]

/-- Without its first symbol a text has shorter lines, and a shorter rest. -/
theorem suffix_cons (a : α) (text : List α) :
    (∀ line ∈ complete stop text, ∃ line' ∈ complete stop (a :: text), line <:+ line') ∧
      rest stop text <:+ rest stop (a :: text) := by
  rw [complete, rest, complete, rest, split_cons]
  cases hsplit : split stop text with
  | mk lines tail =>
    by_cases ha : a = stop
    · rw [ha, push_stop]
      exact ⟨fun line hline => ⟨line, List.mem_cons_of_mem _ hline, List.suffix_rfl⟩,
        List.suffix_rfl⟩
    · cases lines with
      | nil =>
        rw [push_rest ha]
        exact ⟨(fun _ h => by cases h), List.suffix_cons a tail⟩
      | cons first lines =>
        rw [push_line ha]
        refine ⟨fun line hline => ?_, List.suffix_rfl⟩
        rcases List.mem_cons.mp hline with rfl | hline
        · exact ⟨a :: line, List.mem_cons_self, List.suffix_cons a line⟩
        · exact ⟨line, List.mem_cons_of_mem _ hline, List.suffix_rfl⟩

theorem suffix_of_mem_complete_drop {n : ℕ} (h : line ∈ complete stop (text.drop n)) :
    ∃ line' ∈ complete stop text, line <:+ line' := by
  induction text generalizing n with
  | nil =>
    rw [List.drop_nil] at h
    cases h
  | cons a text ih =>
    cases n with
    | zero => exact ⟨line, h, List.suffix_rfl⟩
    | succ n =>
      obtain ⟨middle, hmiddle, hsuffix⟩ := ih h
      obtain ⟨line', hline', hsuffix'⟩ := (suffix_cons a text).1 middle hmiddle
      exact ⟨line', hline', hsuffix.trans hsuffix'⟩

theorem rest_drop_suffix (n : ℕ) (text : List α) :
    rest stop (text.drop n) <:+ rest stop text := by
  induction text generalizing n with
  | nil =>
    simp
  | cons a text ih =>
    cases n with
    | zero => exact List.suffix_rfl
    | succ n => exact (ih n).trans (suffix_cons a text).2

theorem Ended.drop (h : Ended stop text) (n : ℕ) : Ended stop (text.drop n) := by
  have hsuffix : rest stop (text.drop n) <:+ rest stop text := rest_drop_suffix n text
  rw [show rest stop text = [] from h] at hsuffix
  exact List.suffix_nil.mp hsuffix

/-- What is left of an ended text, in front of another. -/
theorem Ended.drop_append (h : Ended stop text) {n : ℕ} (hn : n ≤ text.length) (more : List α) :
    complete stop ((text ++ more).drop n) = complete stop (text.drop n) ++ complete stop more ∧
      rest stop ((text ++ more).drop n) = rest stop more := by
  rw [List.drop_append_of_le_length hn]
  exact ⟨(h.drop n).complete_append more, (h.drop n).rest_append more⟩

theorem ended_join {lines : List (List α)} (h : ∀ line ∈ lines, stop ∉ line) :
    Ended stop (join stop lines) := by
  have hrest := rest_join_append h []
  rwa [List.append_nil] at hrest

end

end SimpleCdn.Lines
