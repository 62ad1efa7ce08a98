import SimpleCdn.Forwarding.Past
import SimpleCdn.SecurityLog.Once

/-!
# Progress of the log readers

Both readers scan a bounded buffer and stop at a line that does not fit it.  The offset of the
security log is not stored when they do, so the lines in front of such a line are read only in whole
passes; the offset of the access log is stored behind the lines in front of it.  Neither gets past
it.
-/

namespace SimpleCdn.SecurityLog

open AccessLog Uploading SecurityStore Transition

/-! ### Texts behind a pass -/

theorem length_dropCR_le (line : Bytes) : (dropCR line).length ≤ line.length := by
  rw [dropCR, LogQueue.trimByte]
  split
  · rw [List.length_dropLast]
    exact Nat.sub_le _ _
  · exact le_rfl

theorem length_join_map_dropCR_le (lines : List Bytes) :
    (Lines.join newline (lines.map dropCR)).length ≤ (Lines.join newline lines).length := by
  induction lines with
  | nil => exact le_rfl
  | cons line lines ih =>
    have hline := length_dropCR_le line
    rw [List.map_cons, Lines.join_cons, Lines.join_cons, List.length_append, List.length_append,
      List.length_cons, List.length_cons]
    omega

/-- How far a pass over a full text moves the offset. -/
def stride (text : Bytes) : ℕ :=
  (Lines.join newline
    (((Lines.complete newline text).take securityLogBatchLimit).map dropCR)).length

/-- The lines of the text are read in whole passes. -/
inductive Batched : Bytes → Prop
  | done {text : Bytes} (h : newline ∉ text) : Batched text
  | batch {text : Bytes} (h : securityLogBatchLimit ≤ (Lines.complete newline text).length)
    (hafter : Batched (text.drop (stride text))) : Batched text

variable {text : Bytes}

/-- The lines behind those of a pass are still there, behind what the pass did not count. -/
theorem complete_drop_stride (text : Bytes) :
    stride text ≤ text.length ∧
      (∃ left, Lines.complete newline (text.drop (stride text)) =
        left ++ (Lines.complete newline text).drop securityLogBatchLimit) ∧
      Lines.rest newline (text.drop (stride text)) = Lines.rest newline text := by
  have hlines := (Lines.stop_not_mem newline text).1
  have htail : Lines.join newline ((Lines.complete newline text).take securityLogBatchLimit) ++
      (Lines.join newline ((Lines.complete newline text).drop securityLogBatchLimit) ++
        Lines.rest newline text) = text := by
    rw [← List.append_assoc, ← Lines.join_append, List.take_append_drop,
      Lines.join_complete_append_rest]
  have hended : Lines.Ended newline
      (Lines.join newline ((Lines.complete newline text).take securityLogBatchLimit)) :=
    Lines.ended_join fun line hline => hlines line (List.mem_of_mem_take hline)
  have hle := length_join_map_dropCR_le
    ((Lines.complete newline text).take securityLogBatchLimit)
  have hdrop := hended.drop_append hle
    (Lines.join newline ((Lines.complete newline text).drop securityLogBatchLimit) ++
      Lines.rest newline text)
  have hnone : Lines.complete newline (Lines.rest newline text) = [] :=
    Lines.complete_eq_nil.mpr (Lines.stop_not_mem newline text).2
  have hrest : Lines.rest newline (Lines.rest newline text) = Lines.rest newline text :=
    Lines.rest_of_not_mem (Lines.stop_not_mem newline text).2
  have hlater : ∀ line ∈ (Lines.complete newline text).drop securityLogBatchLimit,
      newline ∉ line := fun line hline => hlines line (List.mem_of_mem_drop hline)
  rw [htail, Lines.complete_join_append hlater, Lines.rest_join_append hlater, hnone,
    hrest, List.append_nil] at hdrop
  refine ⟨hle.trans ?_, ⟨_, hdrop.1⟩, hdrop.2⟩
  have hlength := congrArg List.length htail
  rw [List.length_append] at hlength
  omega

theorem fits_drop (h : ∀ line ∈ Lines.complete newline text, Fits line) (n : ℕ) :
    ∀ line ∈ Lines.complete newline (text.drop n), Fits line := by
  intro line hline
  obtain ⟨line', hline', hsuffix⟩ := Lines.suffix_of_mem_complete_drop hline
  exact (Nat.succ_le_succ hsuffix.length_le).trans (h line' hline')

theorem AllFit.drop (h : AllFit text) (n : ℕ) : AllFit (text.drop n) :=
  ⟨fits_drop h.1 n, (Lines.rest_drop_suffix n text).length_le.trans_lt h.2⟩

theorem stride_pos (h : newline ∈ text) : 0 < stride text := by
  cases hlines : Lines.complete newline text with
  | nil => exact absurd h (Lines.complete_eq_nil.mp hlines)
  | cons line lines =>
    obtain ⟨k, hk⟩ : ∃ k, securityLogBatchLimit = k + 1 := ⟨999, rfl⟩
    rw [stride, hlines, hk, List.take_succ_cons, List.map_cons, Lines.join_cons,
      List.length_append, List.length_cons]
    omega

/-! ### Runs of passes -/

section

variable {packages : Packages} {decodeJSON : Bytes → Option SecurityLogEvent} {contents : Bytes}
  {s s' : State}

def passes (fresh : ℕ → ℕ → String) (n : ℕ) : List Action :=
  (List.range n).map fun i => .collect (fresh i)

theorem run_passes_succ (fresh : ℕ → ℕ → String) (n : ℕ) (s : State) :
    run (step packages decodeJSON) s (passes fresh (n + 1)) =
      run (step packages decodeJSON) (s.collectAndFlush packages decodeJSON (fresh 0))
        (passes (fun i => fresh (i + 1)) n) := by
  rw [passes, List.range_succ_eq_map, List.map_cons, List.map_map, run_cons]
  rfl

/-- What a pass leaves. -/
theorem collectAndFlush_eq (hlog : s.log = some contents) (fresh : ℕ → String) :
    s.collectAndFlush packages decodeJSON fresh = if Blocked s.unread then s
      else { s with
        offset := some (readFrom contents (s.offset.getD 0) +
          (Lines.join newline (batch s.unread)).length)
        read := s.read ++ entries packages decodeJSON fresh 0 (batch s.unread) } := by
  have hunread : s.unread = contents.drop (readFrom contents (s.offset.getD 0)) := by
    rw [State.unread, hlog, Option.getD_some]
  rw [State.collectAndFlush, hlog]
  dsimp only
  rw [collect_eq, ← hunread]
  by_cases hblocked : Blocked s.unread
  · rw [if_pos hblocked, if_pos hblocked]
  · rw [if_neg hblocked, if_neg hblocked]

variable (packages decodeJSON) in
/-- The offset is behind every complete line, and each line that fits has been read. -/
def ReadsAll (s s' : State) : Prop :=
  ∃ more, s'.read = s.read ++ more ∧ (newline ∈ s.unread → more ≠ []) ∧
    newline ∉ (s.log.getD []).drop (s'.offset.getD 0) ∧
    ∀ line ∈ Lines.complete newline s.unread, Fits line →
      ∃ id, (dropCR line, decode packages decodeJSON id (dropCR line)) ∈ more

variable (packages decodeJSON) in
theorem mem_entries {lines : List Bytes} {line : Bytes} (h : line ∈ lines) (fresh : ℕ → String)
    (read : ℕ) : ∃ id, (line, decode packages decodeJSON id line) ∈
      entries packages decodeJSON fresh read lines := by
  induction lines generalizing read with
  | nil => cases h
  | cons first lines ih =>
    rw [entries_cons]
    rcases List.mem_cons.mp h with rfl | h
    · exact ⟨_, List.mem_cons_self⟩
    · obtain ⟨id, hid⟩ := ih h (read + 1)
      exact ⟨id, List.mem_cons_of_mem _ hid⟩

theorem entries_ne_nil {lines : List Bytes} (h : lines ≠ []) (fresh : ℕ → String) :
    entries packages decodeJSON fresh 0 lines ≠ [] := by
  intro hnil
  have hlines := congrArg (List.map Prod.fst) hnil
  rw [map_fst_entries] at hlines
  exact h hlines

/-- When no line is left, nothing has to be read. -/
theorem readsAll_of_not_mem (hlog : s.log = some contents) (h : newline ∉ s.unread) :
    ReadsAll packages decodeJSON s s := by
  refine ⟨[], (List.append_nil _).symm, fun hmem => absurd hmem h, ?_, fun line hline => ?_⟩
  · rw [State.unread, readFrom] at h
    split at h
    · next hlt =>
      rw [List.drop_eq_nil_of_le (Nat.le_of_lt hlt)]
      exact List.not_mem_nil
    · exact h
  · rw [Lines.complete_eq_nil.mpr h] at hline
    cases hline

variable (packages decodeJSON) in
/-- A pass over a full text, and what it leaves. -/
theorem pass_of_full (hlog : s.log = some contents) (h : Full s.unread) (fresh : ℕ → String) :
    (s.collectAndFlush packages decodeJSON fresh).log = some contents ∧
      (s.collectAndFlush packages decodeJSON fresh).read = s.read ++
        entries packages decodeJSON fresh 0
          (((Lines.complete newline s.unread).take securityLogBatchLimit).map dropCR) ∧
      (s.collectAndFlush packages decodeJSON fresh).unread = s.unread.drop (stride s.unread) ∧
      contents.drop ((s.collectAndFlush packages decodeJSON fresh).offset.getD 0) =
        s.unread.drop (stride s.unread) := by
  obtain ⟨hgoes, hbatch⟩ := batch_of_full h
  have hunread : s.unread = contents.drop (readFrom contents (s.offset.getD 0)) := by
    rw [State.unread, hlog, Option.getD_some]
  have hstart : readFrom contents (s.offset.getD 0) ≤ contents.length := by
    rw [readFrom]
    split
    · exact Nat.zero_le _
    · next hge => exact Nat.le_of_not_lt hge
  have hle := (complete_drop_stride s.unread).1
  have hlength : s.unread.length = contents.length - readFrom contents (s.offset.getD 0) := by
    rw [hunread, List.length_drop]
  have hdrop : contents.drop (readFrom contents (s.offset.getD 0) + stride s.unread) =
      s.unread.drop (stride s.unread) := by
    rw [hunread, List.drop_drop]
  have hstays : readFrom contents (readFrom contents (s.offset.getD 0) + stride s.unread) =
      readFrom contents (s.offset.getD 0) + stride s.unread := if_neg (by omega)
  rw [collectAndFlush_eq hlog, if_neg hgoes, hbatch]
  refine ⟨hlog, rfl, ?_, hdrop⟩
  rw [State.unread, hlog, Option.getD_some, Option.getD_some]
  exact (congrArg (contents.drop ·) hstays).trans hdrop

/-- What is read behind a pass over a full text is read behind the text. -/
theorem ReadsAll.of_full (hlog : s.log = some contents) (hfull : Full s.unread)
    {fresh : ℕ → String}
    (h : ReadsAll packages decodeJSON (s.collectAndFlush packages decodeJSON fresh) s') :
    ReadsAll packages decodeJSON s s' := by
  obtain ⟨hlog', hread', hunread', -⟩ := pass_of_full packages decodeJSON
    hlog hfull fresh
  obtain ⟨more, hread, -, hpast, hlines⟩ := h
  rw [hread', List.append_assoc] at hread
  rw [hlog', ← hlog] at hpast
  refine ⟨_, hread, fun _ => ?_, hpast, fun line hline hfits => ?_⟩
  · have hne : ((Lines.complete newline s.unread).take securityLogBatchLimit).map dropCR ≠ [] := by
      intro hnil
      have hlength := congrArg List.length hnil
      rw [List.length_map, List.length_take_of_le hfull.1] at hlength
      cases hlength
    exact fun hnil => entries_ne_nil hne fresh (List.append_eq_nil_iff.mp hnil).1
  · rw [← List.take_append_drop securityLogBatchLimit (Lines.complete newline s.unread)] at hline
    rcases List.mem_append.mp hline with hline | hline
    · obtain ⟨id, hid⟩ := mem_entries packages decodeJSON (List.mem_map_of_mem (f := dropCR) hline) fresh 0
      exact ⟨id, List.mem_append_left _ hid⟩
    · obtain ⟨left, hleft⟩ := (complete_drop_stride s.unread).2.1
      rw [hunread', hleft] at hlines
      obtain ⟨id, hid⟩ := hlines line (List.mem_append_right _ hline) hfits
      exact ⟨id, List.mem_append_right _ hid⟩

theorem readsAll_of_batched (hlog : s.log = some contents) (hbatched : Batched s.unread)
    (hfits : ∀ line ∈ Lines.complete newline s.unread, Fits line) (fresh : ℕ → ℕ → String) :
    ∃ n, ReadsAll packages decodeJSON s (run (step packages decodeJSON) s (passes fresh n)) := by
  generalize htext : s.unread = text at hbatched
  induction hbatched generalizing s fresh with
  | done h =>
    rw [← htext] at h
    exact ⟨0, readsAll_of_not_mem hlog h⟩
  | @batch text hmany _ ih =>
    subst htext
    have hfull : Full s.unread :=
      ⟨hmany, fun line hline => hfits line (List.mem_of_mem_take hline)⟩
    obtain ⟨hlog', -, hunread', -⟩ := pass_of_full packages decodeJSON
      hlog hfull (fresh 0)
    obtain ⟨n, hn⟩ := ih (s := s.collectAndFlush packages decodeJSON (fresh 0)) hlog'
      (by rw [hunread']; exact fits_drop hfits _) (fun i => fresh (i + 1)) hunread'
    refine ⟨n + 1, ?_⟩
    rw [run_passes_succ]
    exact hn.of_full hlog hfull

variable (packages decodeJSON) in
/-- A pass over a text that fits and has few lines reads all of them. -/
theorem pass_of_allFit (hlog : s.log = some contents) (h : AllFit s.unread)
    (hfew : (Lines.complete newline s.unread).length < securityLogBatchLimit)
    (hmem : newline ∈ s.unread) (fresh : ℕ → String) :
    ∃ more position, s.collectAndFlush packages decodeJSON fresh =
        { s with offset := some position, read := s.read ++ more } ∧ more ≠ [] ∧
      (∀ line ∈ Lines.complete newline s.unread,
        ∃ id, (dropCR line, decode packages decodeJSON id (dropCR line)) ∈ more) ∧
      ∃ k, 0 < k ∧ contents.drop position = s.unread.drop k := by
  obtain ⟨hgoes, hbatch⟩ := batch_of_allFit h hfew
  have hlines : ∀ line ∈ Lines.complete newline s.unread, dropCR line ∈ batch s.unread := by
    intro line hline
    rw [hbatch]
    exact List.mem_map_of_mem (List.mem_append_left _ hline)
  have hne := batch_ne_nil hmem hgoes
  refine ⟨_, _, (collectAndFlush_eq hlog fresh).trans (if_neg hgoes), entries_ne_nil hne fresh,
    fun line hline => mem_entries packages decodeJSON (hlines line hline) fresh 0,
    (Lines.join newline (batch s.unread)).length, ?_, ?_⟩
  · exact Nat.pos_of_ne_zero fun hzero => hne (LogQueue.join_eq_nil.mp hzero)
  · rw [← List.drop_drop, State.unread, hlog, Option.getD_some]

theorem readsAll_of_allFit (hlog : s.log = some contents) (hall : AllFit s.unread)
    (fresh : ℕ → ℕ → String) :
    ∃ n, ReadsAll packages decodeJSON s (run (step packages decodeJSON) s (passes fresh n)) := by
  induction hlength : s.unread.length using Nat.strong_induction_on generalizing s fresh with
  | _ length ih =>
  by_cases hmem : newline ∈ s.unread
  swap
  · exact ⟨0, readsAll_of_not_mem hlog hmem⟩
  have hpos : 0 < s.unread.length := List.length_pos_of_mem hmem
  by_cases hmany : securityLogBatchLimit ≤ (Lines.complete newline s.unread).length
  · have hfull : Full s.unread :=
      ⟨hmany, fun line hline => hall.1 line (List.mem_of_mem_take hline)⟩
    obtain ⟨hlog', -, hunread', -⟩ := pass_of_full packages decodeJSON hlog hfull (fresh 0)
    have hstride := stride_pos hmem
    have hless : (s.unread.drop (stride s.unread)).length < length := by
      rw [List.length_drop]
      omega
    obtain ⟨n, hn⟩ := ih _ hless hlog' (by rw [hunread']; exact hall.drop _)
      (fun i => fresh (i + 1)) (by rw [hunread'])
    refine ⟨n + 1, ?_⟩
    rw [run_passes_succ]
    exact hn.of_full hlog hfull
  · obtain ⟨more, position, heq, hne, hlines, k, hk, hdrop⟩ :=
      pass_of_allFit packages decodeJSON hlog hall (Nat.lt_of_not_le hmany) hmem (fresh 0)
    by_cases hpast : contents.length < position
    · -- the last line has no newline, and the offset is past the end
      refine ⟨1, ?_⟩
      rw [run_passes_succ, passes, List.range_zero, List.map_nil, run_nil, heq]
      refine ⟨more, rfl, fun _ => hne, ?_, fun line hline _ => hlines line hline⟩
      rw [hlog, Option.getD_some, Option.getD_some, List.drop_eq_nil_of_le (Nat.le_of_lt hpast)]
      exact List.not_mem_nil
    · have hunread' : (s.collectAndFlush packages decodeJSON (fresh 0)).unread =
          s.unread.drop k := by
        rw [heq, State.unread, hlog, Option.getD_some, Option.getD_some, readFrom, if_neg hpast,
          hdrop]
      have hless : (s.unread.drop k).length < length := by
        rw [List.length_drop]
        omega
      obtain ⟨n, hn⟩ := ih _ hless (s := s.collectAndFlush packages decodeJSON (fresh 0))
        (by rw [heq]; exact hlog) (by rw [hunread']; exact hall.drop _)
        (fun i => fresh (i + 1)) (by rw [hunread'])
      refine ⟨n + 1, ?_⟩
      rw [run_passes_succ]
      obtain ⟨more', hread, -, hbehind, -⟩ := hn
      have hread' : (s.collectAndFlush packages decodeJSON (fresh 0)).read = s.read ++ more := by
        rw [heq]
      have hlog' : (s.collectAndFlush packages decodeJSON (fresh 0)).log = s.log := by
        rw [heq]
      rw [hread', List.append_assoc] at hread
      rw [hlog'] at hbehind
      refine ⟨more ++ more', hread, fun _ hnil => hne (List.append_eq_nil_iff.mp hnil).1, hbehind,
        fun line hline _ => ?_⟩
      obtain ⟨id, hid⟩ := hlines line hline
      exact ⟨id, List.mem_append_left _ hid⟩

/-! ### Lines that stop the reader -/

theorem read_collectAndFlush (fresh : ℕ → String) :
    s.read <+: (s.collectAndFlush packages decodeJSON fresh).read := by
  cases hlog : s.log with
  | none =>
    have hsame : s.collectAndFlush packages decodeJSON fresh = s := by
      rw [State.collectAndFlush, hlog]
    exact hsame.symm ▸ List.prefix_rfl
  | some contents =>
    rw [collectAndFlush_eq hlog]
    split
    · exact List.prefix_rfl
    · exact List.prefix_append _ _

theorem read_passes (fresh : ℕ → ℕ → String) (n : ℕ) :
    s.read <+: (run (step packages decodeJSON) s (passes fresh n)).read := by
  induction n generalizing s fresh with
  | zero => exact List.prefix_rfl
  | succ n ih =>
    rw [run_passes_succ]
    exact (read_collectAndFlush (fresh 0)).trans (ih fun i => fresh (i + 1))

/-- A reader that reads no line of a text with lines stays where it is. -/
theorem stays_or_reads (hlog : s.log = some contents) (hmem : newline ∈ s.unread)
    (fresh : ℕ → ℕ → String) (n : ℕ) :
    run (step packages decodeJSON) s (passes fresh n) = s ∨
      s.read.length < (run (step packages decodeJSON) s (passes fresh n)).read.length := by
  induction n generalizing fresh with
  | zero => exact .inl rfl
  | succ n ih =>
    rw [run_passes_succ]
    by_cases hblocked : Blocked s.unread
    · rw [collectAndFlush_eq hlog, if_pos hblocked]
      exact ih fun i => fresh (i + 1)
    · refine .inr (lt_of_lt_of_le ?_ (read_passes (fun i => fresh (i + 1)) n).length_le)
      have hpos : 0 < (entries packages decodeJSON (fresh 0) 0 (batch s.unread)).length :=
        List.length_pos_of_ne_nil (entries_ne_nil (batch_ne_nil hmem hblocked) (fresh 0))
      rw [collectAndFlush_eq hlog, if_neg hblocked, List.length_append]
      omega

/-- A text whose lines are read has no line that does not fit, and what follows the last of them
fits or is not needed to fill a pass. -/
theorem fits_of_reads (hlog : s.log = some contents) (fresh : ℕ → ℕ → String) {n : ℕ}
    (hreads : newline ∈ s.unread →
      s.read.length < (run (step packages decodeJSON) s (passes fresh n)).read.length)
    (hpast : newline ∉ contents.drop
      ((run (step packages decodeJSON) s (passes fresh n)).offset.getD 0)) :
    (∀ line ∈ Lines.complete newline s.unread, Fits line) ∧
      ((Lines.rest newline s.unread).length < securityLogLineLimit ∨ Batched s.unread) := by
  induction n generalizing s fresh with
  | zero =>
    have hnot : newline ∉ s.unread := fun hmem => Nat.lt_irrefl _ (hreads hmem)
    rw [Lines.complete_eq_nil.mpr hnot]
    exact ⟨fun _ h => absurd h List.not_mem_nil, .inr (.done hnot)⟩
  | succ n ih =>
    rw [run_passes_succ] at hreads hpast
    by_cases hblocked : Blocked s.unread
    · rw [collectAndFlush_eq hlog, if_pos hblocked] at hreads hpast
      exact ih hlog (fun i => fresh (i + 1)) hreads hpast
    by_cases hall : AllFit s.unread
    · exact ⟨hall.1, .inl hall.2⟩
    have hfull : Full s.unread := by_contra fun hfull => hblocked (blocked_of_not hfull hall)
    obtain ⟨hlog', -, hunread', hdrop⟩ := pass_of_full packages decodeJSON hlog hfull (fresh 0)
    have hlater := ih hlog' (fun i => fresh (i + 1)) (fun hmem => ?_) hpast
    · obtain ⟨-, ⟨left, hleft⟩, hrest⟩ := complete_drop_stride s.unread
      rw [hunread', hleft, hrest] at hlater
      refine ⟨fun line hline => ?_, hlater.2.imp_right (.batch hfull.1)⟩
      rw [← List.take_append_drop securityLogBatchLimit (Lines.complete newline s.unread)] at hline
      rcases List.mem_append.mp hline with hline | hline
      · exact hfull.2 line hline
      · exact hlater.1 line (List.mem_append_right _ hline)
    · rcases stays_or_reads hlog' hmem (fun i => fresh (i + 1)) n with hstays | hreads'
      · rw [hstays, hdrop, ← hunread'] at hpast
        exact absurd hmem hpast
      · exact hreads'

/-- The offset gets behind the lines of the log exactly if they fit, and what follows the last of
them fits or is not needed to fill a pass. -/
theorem readsAll_iff (hlog : s.log = some contents) (fresh : ℕ → ℕ → String) :
    (∃ n, ReadsAll packages decodeJSON s (run (step packages decodeJSON) s (passes fresh n))) ↔
      (∀ line ∈ Lines.complete newline s.unread, Fits line) ∧
        ((Lines.rest newline s.unread).length < securityLogLineLimit ∨ Batched s.unread) := by
  constructor
  · rintro ⟨n, more, hread, hne, hpast, -⟩
    rw [hlog, Option.getD_some] at hpast
    refine fits_of_reads hlog fresh (fun hmem => ?_) hpast
    have hpos := List.length_pos_of_ne_nil (hne hmem)
    rw [hread, List.length_append]
    omega
  · rintro ⟨hfits, hrest | hbatched⟩
    · exact readsAll_of_allFit hlog ⟨hfits, hrest⟩ fresh
    · exact readsAll_of_batched hlog hbatched hfits fresh

/-- **Both readers get behind every line of their logs** exactly if each line fits the scanner,
those of the access log have events that can be written, and what follows the last line of the
security log fits the scanner or is not needed to fill a pass. -/
theorem log_progress {Time : Type} (packages : AccessLog.LogPackages Time)
    (f : LogQueue.LogForwarder) {actions : List LogQueue.Action} {accessLog : Bytes}
    (haccess : (run (LogQueue.step packages f) LogQueue.initial actions).log = some accessLog)
    (fresh : ℕ → ℕ → String)
    (hroom : ∀ n, LogQueue.Room packages f (fresh n)
      (run (LogQueue.step packages f) (run (LogQueue.step packages f) LogQueue.initial actions)
        (LogQueue.collects fresh n)))
    (securityPackages : Packages) (decodeJSON : Bytes → Option SecurityLogEvent) {s : State}
    {securityLog : Bytes} (hsecurity : s.log = some securityLog) :
    ((∃ n, LogQueue.CollectsAll packages
        (run (LogQueue.step packages f) LogQueue.initial actions)
        (run (LogQueue.step packages f) (run (LogQueue.step packages f) LogQueue.initial actions)
          (LogQueue.collects fresh n))) ↔
      ∀ line ∈ Lines.complete newline
          (run (LogQueue.step packages f) LogQueue.initial actions).uncollected,
        LogQueue.Passable packages line) ∧
    ((∃ n, ReadsAll securityPackages decodeJSON s
        (run (step securityPackages decodeJSON) s (passes fresh n))) ↔
      (∀ line ∈ Lines.complete newline s.unread, Fits line) ∧
        ((Lines.rest newline s.unread).length < securityLogLineLimit ∨ Batched s.unread)) :=
  ⟨LogQueue.collectsAll_iff (LogQueue.consistent_run actions) haccess fresh hroom,
    readsAll_iff hsecurity fresh⟩

end

/-! ### A line that does not fit -/

/-- A long line behind a line for a banned request. -/
def longLog (n : ℕ) : State :=
  ⟨some (bannedLine ++ newline :: (List.replicate n 0x78 ++ [newline])), none, []⟩

theorem longLog_lines (n : ℕ) :
    Lines.complete newline (longLog n).unread = [bannedLine, List.replicate n 0x78] := by
  have hlong : newline ∉ List.replicate n (0x78 : UInt8) := by
    intro hmem
    exact absurd (List.eq_of_mem_replicate hmem) (by decide)
  have hbanned : newline ∉ bannedLine := by decide +kernel
  have hunread : (longLog n).unread =
      bannedLine ++ newline :: (List.replicate n 0x78 ++ [newline]) := rfl
  rw [hunread, Lines.complete, Lines.split_line_append hbanned, Lines.complete,
    Lines.split_line_append hlong]
  rfl

theorem longLog_blocks {n : ℕ} (h : securityLogLineLimit ≤ n) :
    ¬ ∃ k, ReadsAll plainPackages bannedJSON (longLog n)
      (run (step plainPackages bannedJSON) (longLog n) (passes (fun _ _ => "u") k)) := by
  rw [readsAll_iff rfl, longLog_lines]
  rintro ⟨hfits, -⟩
  have hline := hfits (List.replicate n 0x78) (List.mem_cons_of_mem _ List.mem_cons_self)
  rw [Fits, List.length_replicate] at hline
  omega

/-- The reader stops at a line of 16 KiB, and the line in front of it is not read. -/
theorem long_line_blocks :
    ¬ ∃ n, ReadsAll plainPackages bannedJSON (longLog securityLogLineLimit)
      (run (step plainPackages bannedJSON) (longLog securityLogLineLimit)
        (passes (fun _ _ => "u") n)) :=
  longLog_blocks le_rfl

end SimpleCdn.SecurityLog

namespace SimpleCdn.LogQueue

open AccessLog Transition

deriving instance DecidableEq for Upload
deriving instance DecidableEq for State

/-- A line has been written, and nothing has been collected. -/
def lineLogged : State String :=
  run (step samplePackages newLogForwarder) initial [.write (sampleLine ++ [newline])]

/-- A second `Collect` finds nothing new, and changes nothing. -/
theorem lineLogged_fixed (n : ℕ) :
    run (step samplePackages newLogForwarder)
        (step samplePackages newLogForwarder lineLogged (.collect (fun _ => "u") []))
        (collects (fun _ _ => "u") n) =
      step samplePackages newLogForwarder lineLogged (.collect (fun _ => "u") []) := by
  have hfixed : step samplePackages newLogForwarder
      (step samplePackages newLogForwarder lineLogged (.collect (fun _ => "u") []))
      (.collect (fun _ => "u") []) =
      step samplePackages newLogForwarder lineLogged (.collect (fun _ => "u") []) := by
    decide +kernel
  induction n with
  | zero => rfl
  | succ n ih =>
    rw [run_collects_succ, hfixed]
    exact ih

theorem lineLogged_room (n : ℕ) : Room samplePackages newLogForwarder (fun _ => "u")
    (run (step samplePackages newLogForwarder) lineLogged (collects (fun _ _ => "u") n)) := by
  have hroom : ∀ s : State String, s.legacy = none → s.log = some (sampleLine ++ [newline]) →
      total s.prepared.segments + ((records samplePackages (fun _ => "u") 0
        (scanned (sampleLine ++ [newline]) (s.offset.getD 0)).1).map List.length).sum ≤
          newLogForwarder.queueLimit →
      (s.prepared.appender newLogForwarder).next +
        (scanned (sampleLine ++ [newline]) (s.offset.getD 0)).1.length ≤ maxSequence →
      Room samplePackages newLogForwarder (fun _ => "u") s := by
    intro s hlegacy hlog hbytes hnumbers
    refine ⟨fun hne => absurd hlegacy hne, fun contents hcontents => ?_⟩
    obtain rfl := Option.some.inj (hlog.symm.trans hcontents)
    exact ⟨hbytes, hnumbers⟩
  cases n with
  | zero =>
    exact hroom lineLogged (by decide +kernel) (by decide +kernel) (by decide +kernel)
      (by decide +kernel)
  | succ n =>
    rw [run_collects_succ, lineLogged_fixed]
    exact hroom _ (by decide +kernel) (by decide +kernel) (by decide +kernel) (by decide +kernel)

end SimpleCdn.LogQueue

namespace SimpleCdn.SecurityLog

open AccessLog Transition LogQueue Uploading

/-- One line in each log. -/
theorem log_progress_line :
    ((∃ n, CollectsAll samplePackages lineLogged (run (LogQueue.step samplePackages newLogForwarder)
        lineLogged (collects (fun _ _ => "u") n))) ↔
      ∀ line ∈ Lines.complete newline lineLogged.uncollected, Passable samplePackages line) ∧
    ((∃ n, ReadsAll plainPackages bannedJSON ⟨some (bannedLine ++ [newline]), none, []⟩
        (run (step plainPackages bannedJSON) ⟨some (bannedLine ++ [newline]), none, []⟩
          (passes (fun _ _ => "u") n))) ↔
      (∀ line ∈ Lines.complete newline
          (State.unread ⟨some (bannedLine ++ [newline]), none, []⟩), Fits line) ∧
        ((Lines.rest newline
          (State.unread ⟨some (bannedLine ++ [newline]), none, []⟩)).length <
            securityLogLineLimit ∨
          Batched (State.unread ⟨some (bannedLine ++ [newline]), none, []⟩))) :=
  log_progress samplePackages newLogForwarder
    (show (run (LogQueue.step samplePackages newLogForwarder) LogQueue.initial
      [.write (sampleLine ++ [newline])]).log = some (sampleLine ++ [newline]) by decide +kernel)
    (fun _ _ => "u") lineLogged_room plainPackages bannedJSON rfl

end SimpleCdn.SecurityLog
