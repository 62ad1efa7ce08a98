import SimpleCdn.Edge.SecurityLog

/-!
# Reading the security log

What a pass over the log reads, in terms of the lines of the text behind the offset.  The offset is
behind the lines that have been read as long as no pass strips a carriage return or reads a line
that has not ended.
-/

namespace SimpleCdn.SecurityLog

open AccessLog Uploading SecurityStore Transition

/-- The text behind the offset. -/
def State.unread (s : State) : Bytes :=
  (s.log.getD []).drop (readFrom (s.log.getD []) (s.offset.getD 0))

/-! ### One pass -/

/-- The lines of one pass over a text. -/
def batch (text : Bytes) : List Bytes := (scanLines text).1.take securityLogBatchLimit

/-- The scanner reports a line that is too long before the pass has all its lines. -/
def Blocked (text : Bytes) : Prop :=
  (scanLines text).1.length < securityLogBatchLimit ∧ (scanLines text).2 = true

instance (text : Bytes) : Decidable (Blocked text) := instDecidableAnd

section

variable {packages : Packages} {decodeJSON : Bytes → Option SecurityLogEvent} {fresh : ℕ → String}
  {s : State}

variable (packages decodeJSON fresh) in
/-- The lines with their events. -/
def entries (read : ℕ) (lines : List Bytes) : List Entry :=
  (lines.zipIdx read).map fun line =>
    (line.1, decode packages decodeJSON (fresh line.2) line.1)

theorem entries_cons (read : ℕ) (line : Bytes) (lines : List Bytes) :
    entries packages decodeJSON fresh read (line :: lines) =
      (line, decode packages decodeJSON (fresh read) line) ::
        entries packages decodeJSON fresh (read + 1) lines := rfl

theorem map_fst_entries (read : ℕ) (lines : List Bytes) :
    (entries packages decodeJSON fresh read lines).map Prod.fst = lines := by
  induction lines generalizing read with
  | nil => rfl
  | cons line lines ih => rw [entries_cons, List.map_cons, ih]

theorem decoded_entries {read : ℕ} {lines : List Bytes} {entry : Entry}
    (h : entry ∈ entries packages decodeJSON fresh read lines) :
    ∃ id, entry.2 = decode packages decodeJSON id entry.1 := by
  obtain ⟨line, -, rfl⟩ := List.mem_map.mp h
  exact ⟨_, rfl⟩

theorem collectLines_eq (tooLong : Bool) {lines : List Bytes} {n position : ℕ} {read : List Entry}
    (hn : n < securityLogBatchLimit) :
    collectLines packages decodeJSON fresh tooLong lines n position read =
      if lines.length < securityLogBatchLimit - n ∧ tooLong = true then none
      else some (read ++ entries packages decodeJSON fresh n
        (lines.take (securityLogBatchLimit - n)),
        position + (Lines.join newline (lines.take (securityLogBatchLimit - n))).length) := by
  induction lines generalizing n position read with
  | nil =>
    have hpos : ([] : List Bytes).length < securityLogBatchLimit - n := Nat.sub_pos_of_lt hn
    rw [collectLines, List.take_nil]
    cases tooLong with
    | false => rw [if_neg (by simp), if_neg (by simp), entries, List.zipIdx_nil, List.map_nil,
        List.append_nil]; rfl
    | true => rw [if_pos rfl, if_pos ⟨hpos, rfl⟩]
  | cons line lines ih =>
    obtain ⟨k, hk⟩ : ∃ k, securityLogBatchLimit - n = k + 1 :=
      ⟨securityLogBatchLimit - n - 1, by omega⟩
    have hlength : ∀ lines : List Bytes, position + (Lines.join newline (line :: lines)).length =
        position + (line.length + 1) + (Lines.join newline lines).length := by
      intro lines
      rw [Lines.join_cons, List.length_append, List.length_cons]
      omega
    rw [collectLines, hk, List.take_succ_cons, entries_cons, hlength, List.length_cons]
    by_cases hlast : securityLogBatchLimit ≤ n + 1
    · obtain rfl : k = 0 := by omega
      rw [if_pos hlast, if_neg (by omega), List.take_zero]
      rfl
    · have hnext : securityLogBatchLimit - (n + 1) = k := by omega
      rw [if_neg hlast, ih (by omega), hnext, List.append_assoc, List.singleton_append]
      simp only [Nat.add_lt_add_iff_right]

/-- What a pass returns. -/
theorem collect_eq (contents : Bytes) (stored : ℕ) :
    collect packages decodeJSON fresh contents stored =
      if Blocked (contents.drop (readFrom contents stored)) then none
      else some (entries packages decodeJSON fresh 0
        (batch (contents.drop (readFrom contents stored))),
        readFrom contents stored +
          (Lines.join newline (batch (contents.drop (readFrom contents stored)))).length) :=
  collectLines_eq _ (by decide)

end

/-! ### The lines of a pass -/

/-- The line fits the buffer of the scanner. -/
def Fits (line : Bytes) : Prop := line.length + 1 ≤ securityLogLineLimit

instance (line : Bytes) : Decidable (Fits line) := Nat.decLe _ _

/-- There are lines for a whole pass, and they fit. -/
def Full (text : Bytes) : Prop :=
  securityLogBatchLimit ≤ (Lines.complete newline text).length ∧
    ∀ line ∈ (Lines.complete newline text).take securityLogBatchLimit, Fits line

/-- All lines and what follows the last of them fit. -/
def AllFit (text : Bytes) : Prop :=
  (∀ line ∈ Lines.complete newline text, Fits line) ∧
    (Lines.rest newline text).length < securityLogLineLimit

/-- The lines, and what follows the last of them. -/
def linesAndRest (text : Bytes) : List Bytes :=
  Lines.complete newline text ++
    if Lines.rest newline text = [] then [] else [Lines.rest newline text]

variable {text : Bytes}

theorem scanLines_fst_of_blocked (h : (scanLines text).2 = true) : (scanLines text).1 =
    ((Lines.complete newline text).takeWhile fun line => Fits line).map dropCR := by
  rw [scanLines] at h ⊢
  split at h
  · next hblocked => exact congrArg Prod.fst (if_pos hblocked)
  · cases h

theorem takeWhile_fits_of_full (h : Full text) :
    ((Lines.complete newline text).takeWhile fun line => Fits line).take securityLogBatchLimit =
      (Lines.complete newline text).take securityLogBatchLimit := by
  have hsplit : (Lines.complete newline text).takeWhile (fun line => Fits line) =
      (Lines.complete newline text).take securityLogBatchLimit ++
        ((Lines.complete newline text).drop securityLogBatchLimit).takeWhile
          fun line => Fits line := by
    conv_lhs => rw [← List.take_append_drop securityLogBatchLimit (Lines.complete newline text)]
    exact List.takeWhile_append_of_pos fun line hline => decide_eq_true (h.2 line hline)
  rw [hsplit, List.take_left' (List.length_take_of_le h.1)]

theorem scanLines_of_allFit (h : AllFit text) :
    scanLines text = ((linesAndRest text).map dropCR, false) := by
  have hall : (Lines.complete newline text).takeWhile (fun line => Fits line) =
      Lines.complete newline text :=
    List.takeWhile_eq_self_iff.mpr fun line hline => decide_eq_true (h.1 line hline)
  have hnot : ¬ (((Lines.complete newline text).takeWhile fun line => Fits line).length <
      (Lines.complete newline text).length ∨
      securityLogLineLimit ≤ (Lines.rest newline text).length) := by
    rw [hall]
    exact not_or.mpr ⟨Nat.lt_irrefl _, Nat.not_le_of_lt h.2⟩
  rw [scanLines]
  refine (if_neg hnot).trans ?_
  have hsame : (Lines.complete newline text).takeWhile
      (fun line => line.length + 1 ≤ securityLogLineLimit) = Lines.complete newline text := hall
  rw [hsame]
  rfl

theorem scanLines_snd_of_not_allFit (h : ¬ AllFit text) : (scanLines text).2 = true := by
  rw [scanLines]
  split
  · rfl
  · next hnot =>
    obtain ⟨hlength, hrest⟩ := not_or.mp hnot
    refine absurd ⟨fun line hline => ?_, Nat.lt_of_not_le hrest⟩ h
    have hall : (Lines.complete newline text).takeWhile
        (fun line => line.length + 1 ≤ securityLogLineLimit) = Lines.complete newline text :=
      (List.takeWhile_prefix _).eq_of_length
        (le_antisymm (List.takeWhile_prefix _).length_le (Nat.le_of_not_lt hlength))
    exact of_decide_eq_true (List.takeWhile_eq_self_iff.mp hall line hline)

/-- A pass over a full text reads its first lines. -/
theorem batch_of_full (h : Full text) : ¬ Blocked text ∧
    batch text = ((Lines.complete newline text).take securityLogBatchLimit).map dropCR := by
  by_cases hall : AllFit text
  · rw [Blocked, batch, scanLines_of_allFit hall]
    refine ⟨fun hblocked => Bool.false_ne_true hblocked.2, ?_⟩
    rw [← List.map_take, linesAndRest, List.take_append_of_le_length h.1]
  · have hlines := scanLines_fst_of_blocked (scanLines_snd_of_not_allFit hall)
    rw [Blocked, batch, hlines, ← List.map_take, takeWhile_fits_of_full h]
    refine ⟨fun hblocked => ?_, rfl⟩
    have hlength := congrArg List.length (takeWhile_fits_of_full h)
    rw [List.length_take_of_le h.1, List.length_take] at hlength
    rw [List.length_map] at hblocked
    omega

/-- A pass over a text that fits reads all of it, when there are few lines. -/
theorem batch_of_allFit (h : AllFit text)
    (hfew : (Lines.complete newline text).length < securityLogBatchLimit) : ¬ Blocked text ∧
      batch text = (linesAndRest text).map dropCR := by
  rw [Blocked, batch, scanLines_of_allFit h]
  refine ⟨fun hblocked => Bool.false_ne_true hblocked.2, List.take_of_length_le ?_⟩
  rw [List.length_map, linesAndRest, List.length_append]
  split
  · rw [List.length_nil]
    omega
  · rw [List.length_singleton]
    omega

/-- Any other text stops the pass. -/
theorem blocked_of_not (hfull : ¬ Full text) (hall : ¬ AllFit text) : Blocked text := by
  have hblocked := scanLines_snd_of_not_allFit hall
  refine ⟨?_, hblocked⟩
  rw [scanLines_fst_of_blocked hblocked, List.length_map]
  by_contra hlong
  have hleads : ((Lines.complete newline text).takeWhile fun line => Fits line) <+:
      Lines.complete newline text := List.takeWhile_prefix _
  have hlength := hleads.length_le
  refine hfull ⟨by omega, fun line hline => ?_⟩
  have htake : (Lines.complete newline text).take securityLogBatchLimit <+:
      (Lines.complete newline text).takeWhile fun line => Fits line :=
    List.prefix_of_prefix_length_le (List.take_prefix _ _) hleads
      ((List.length_take_le _ _).trans (Nat.le_of_not_lt hlong))
  have hfits := List.mem_takeWhile_imp (htake.subset hline)
  exact of_decide_eq_true hfits

/-- A pass that is not stopped reads a line, if there is one. -/
theorem batch_ne_nil (hmem : newline ∈ text) (hgoes : ¬ Blocked text) : batch text ≠ [] := by
  have hlines : 0 < (Lines.complete newline text).length :=
    List.length_pos_of_ne_nil fun hnil => Lines.complete_eq_nil.mp hnil hmem
  have hlimit : 0 < securityLogBatchLimit := by decide
  refine List.ne_nil_of_length_pos ?_
  by_cases hfull : Full text
  · rw [(batch_of_full hfull).2, List.length_map, List.length_take]
    omega
  · have hall : AllFit text := by_contra fun hall => hgoes (blocked_of_not hfull hall)
    have hfew : (Lines.complete newline text).length < securityLogBatchLimit :=
      Nat.lt_of_not_le fun hmany =>
        hfull ⟨hmany, fun line hline => hall.1 line (List.mem_of_mem_take hline)⟩
    rw [(batch_of_allFit hall hfew).2, List.length_map, linesAndRest, List.length_append]
    omega

end SimpleCdn.SecurityLog
