import SimpleCdn.SecurityLog.Reading
import SimpleCdn.Uploading.Progress

/-!
# Each line once

The offset is taken to be behind the lines that have been read, each with its newline.  This is so
when no line ends in a carriage return, and when the log ends in a newline whenever a pass reads all
of it.
-/

namespace SimpleCdn.SecurityLog

open AccessLog Uploading SecurityStore Transition

/-- The lines of a pass over the text take as many bytes as the pass counts for them. -/
structure Whole (text : Bytes) : Prop where
  lines : ∀ line ∈ (Lines.complete newline text).take securityLogBatchLimit,
    Fits line ∧ line.getLast? ≠ some 0x0D
  /-- The pass does not get behind the last newline, unless the scanner stops there. -/
  ended : securityLogBatchLimit ≤ (Lines.complete newline text).length ∨
    Lines.rest newline text = [] ∨
    Lines.complete newline text = [] ∧ securityLogLineLimit ≤ (Lines.rest newline text).length

theorem dropCR_eq {line : Bytes} (h : line.getLast? ≠ some 0x0D) : dropCR line = line :=
  if_neg h

theorem map_dropCR {lines : List Bytes} (h : ∀ line ∈ lines, line.getLast? ≠ some 0x0D) :
    lines.map dropCR = lines := by
  refine (List.map_congr_left fun line hline => ?_).trans (List.map_id lines)
  exact dropCR_eq (h line hline)

theorem Whole.batch {text : Bytes} (h : Whole text) :
    Blocked text ∧ Lines.complete newline text = [] ∨
      ¬ Blocked text ∧
        batch text = (Lines.complete newline text).take securityLogBatchLimit := by
  have hsame := map_dropCR fun line hline => (h.lines line hline).2
  by_cases hlong : securityLogBatchLimit ≤ (Lines.complete newline text).length
  · obtain ⟨hgoes, hbatch⟩ := batch_of_full ⟨hlong, fun line hline => (h.lines line hline).1⟩
    exact .inr ⟨hgoes, hbatch.trans hsame⟩
  · have htake : (Lines.complete newline text).take securityLogBatchLimit =
        Lines.complete newline text := List.take_of_length_le (Nat.le_of_not_le hlong)
    rcases h.ended with hlong' | hrest | ⟨hnone, hover⟩
    · exact absurd hlong' hlong
    · have hall : AllFit text := by
        refine ⟨fun line hline => (h.lines line (htake.symm ▸ hline)).1, ?_⟩
        rw [hrest]
        decide
      obtain ⟨hgoes, hbatch⟩ := batch_of_allFit hall (Nat.lt_of_not_le hlong)
      rw [linesAndRest, if_pos hrest, List.append_nil, ← htake] at hbatch
      exact .inr ⟨hgoes, hbatch.trans hsame⟩
    · refine .inl ⟨blocked_of_not (fun hfull => hlong hfull.1) fun hall => ?_, hnone⟩
      exact Nat.not_le_of_lt hall.2 hover

section

variable {packages : Packages} {decodeJSON : Bytes → Option SecurityLogEvent} {s : State}

variable (packages decodeJSON) in
/-- The lines that have been read are the first of the log, each with its event, and the offset is
behind them. -/
def Once (s : State) : Prop :=
  ∃ lines, (∀ line ∈ lines, newline ∉ line) ∧ Lines.join newline lines <+: s.log.getD [] ∧
    s.offset.getD 0 = (Lines.join newline lines).length ∧ s.read.map Prod.fst = lines ∧
    ∀ entry ∈ s.read, ∃ id, entry.2 = decode packages decodeJSON id entry.1

/-- The pass counts the bytes of its lines right. -/
def Action.Whole (s : State) : Action → Prop
  | .append _ => True
  | .collect _ => SecurityLog.Whole s.unread

/-- A pass reads all lines of the log, or as many more as a pass reads. -/
def Reads (packages : Packages) (decodeJSON : Bytes → Option SecurityLogEvent) (s : State) :
    Action → Prop
  | .append _ => True
  | .collect fresh =>
    (s.collectAndFlush packages decodeJSON fresh).read.length =
        s.read.length + securityLogBatchLimit ∨
      (s.collectAndFlush packages decodeJSON fresh).read.map Prod.fst =
        Lines.complete newline (s.log.getD [])

theorem once_append (h : Once packages decodeJSON s) (bytes : Bytes) :
    Once packages decodeJSON (step packages decodeJSON s (.append bytes)) := by
  obtain ⟨lines, hlines, hleads, hoffset, hread, hevents⟩ := h
  exact ⟨lines, hlines, hleads.trans (List.prefix_append _ _), hoffset, hread, hevents⟩

/-- A pass that counts right goes on behind the lines that have been read. -/
theorem once_collect (h : Once packages decodeJSON s) {fresh : ℕ → String}
    (hwhole : Whole s.unread) :
    Once packages decodeJSON (s.collectAndFlush packages decodeJSON fresh) ∧
      Reads packages decodeJSON s (.collect fresh) := by
  rw [Reads]
  obtain ⟨lines, hlines, ⟨text, htext⟩, hoffset, hread, hevents⟩ := h
  rw [State.collectAndFlush]
  cases hlog : s.log with
  | none =>
    have hnil : lines = [] := by
      rw [hlog] at htext
      have hjoin := (List.append_eq_nil_iff.mp htext).1
      cases lines with
      | nil => rfl
      | cons line lines =>
        rw [Lines.join_cons] at hjoin
        exact absurd (List.append_eq_nil_iff.mp hjoin).2 (List.cons_ne_nil _ _)
    exact ⟨⟨lines, hlines, ⟨text, htext⟩, hoffset, hread, hevents⟩, .inr (hread.trans hnil)⟩
  | some contents =>
    rw [hlog, Option.getD_some] at htext
    subst htext
    have hstart : readFrom (Lines.join newline lines ++ text) (s.offset.getD 0) =
        (Lines.join newline lines).length := by
      rw [hoffset]
      exact if_neg (Nat.not_lt_of_le (List.prefix_append _ _).length_le)
    have hunread : s.unread = text := by
      rw [State.unread, hlog, Option.getD_some, hstart, List.drop_left]
    have hcomplete : Lines.complete newline (Lines.join newline lines ++ text) =
        lines ++ Lines.complete newline text := Lines.complete_join_append hlines text
    rw [hunread] at hwhole
    dsimp only
    rw [collect_eq, hstart, List.drop_left, Option.getD_some, hcomplete]
    rcases hwhole.batch with ⟨hblocked, hnone⟩ | ⟨hgoes, hbatch⟩
    · rw [if_pos hblocked, hnone, List.append_nil]
      refine ⟨⟨lines, hlines, ?_, hoffset, hread, hevents⟩, .inr hread⟩
      rw [hlog]
      exact List.prefix_append _ _
    · rw [if_neg hgoes, hbatch]
      dsimp only
      have hbefore : ((Lines.complete newline text).take securityLogBatchLimit) <+:
          Lines.complete newline text := List.take_prefix _ _
      refine ⟨⟨lines ++ (Lines.complete newline text).take securityLogBatchLimit,
        fun line hline => ?_, ?_, ?_, ?_, fun entry hentry => ?_⟩, ?_⟩
      · rcases List.mem_append.mp hline with hline | hline
        · exact hlines line hline
        · exact (Lines.stop_not_mem newline text).1 line (hbefore.subset hline)
      · rw [Option.getD_some, Lines.join_append]
        obtain ⟨others, hothers⟩ := hbefore
        have hmore := Lines.join_complete_append_rest newline text
        rw [← hothers, Lines.join_append, List.append_assoc] at hmore
        exact (List.prefix_append_right_inj _).mpr ⟨_, hmore⟩
      · rw [Option.getD_some, Lines.join_append, List.length_append]
      · rw [List.map_append, map_fst_entries, hread]
      · rcases List.mem_append.mp hentry with hentry | hentry
        · exact hevents entry hentry
        · exact decoded_entries hentry
      · have hcount : (entries packages decodeJSON fresh 0
            ((Lines.complete newline text).take securityLogBatchLimit)).length =
            ((Lines.complete newline text).take securityLogBatchLimit).length := by
          rw [entries, List.length_map, List.length_zipIdx]
        rw [List.map_append, map_fst_entries, hread, List.length_append, hcount]
        rcases Nat.le_total securityLogBatchLimit (Lines.complete newline text).length with
          hlong | hshort
        · exact .inl (congrArg (s.read.length + ·) (List.length_take_of_le hlong))
        · exact .inr (congrArg (lines ++ ·) (List.take_of_length_le hshort))

/-- When no pass reads a line that ends in a carriage return, one that does not fit, or a line that
has not ended, each complete line of the log is read once, in order, and the offset is behind the
lines that have been read. -/
theorem security_lines_once (packages : Packages) (decodeJSON : Bytes → Option SecurityLogEvent)
    {actions : List Action}
    (h : Along (step packages decodeJSON) (fun s a => a.Whole s) initial actions) :
    Always (step packages decodeJSON) (Once packages decodeJSON) initial actions ∧
      Along (step packages decodeJSON) (Reads packages decodeJSON) initial actions := by
  have hinit : Once packages decodeJSON initial :=
    ⟨[], (fun _ h => absurd h List.not_mem_nil), List.nil_prefix, rfl, rfl,
      fun _ h => absurd h List.not_mem_nil⟩
  have hstep : ∀ s a, Once packages decodeJSON s → a.Whole s →
      Once packages decodeJSON (step packages decodeJSON s a) ∧ Reads packages decodeJSON s a := by
    intro s a hs ha
    cases a with
    | append bytes => exact ⟨once_append hs bytes, trivial⟩
    | collect fresh => exact once_collect hs ha
  exact ⟨h.always (fun s a hs ha => (hstep s a hs ha).1) hinit,
    h.of_invariant (fun s a hs ha => (hstep s a hs ha).1) (fun s a hs ha => (hstep s a hs ha).2)
      hinit⟩

end

/-! ### A line that has not ended -/

/-- A line for a request that a policy bans. -/
def bannedLine : Bytes :=
  utf8 ("\x7b\"timestamp\":\"2026-01-01T00:00:00Z\",\"policy_id\":\"00000000-0000-4000-8000-0000000000" ++
    "01\",\"action\":\"ban\",\"ban_seconds\":3600,\"client_ip\":\"8.8.8.8\",\"host\":\"a.example\"," ++
    "\"method\":\"GET\",\"path\":\"//.env\"\x7d").toList

/-- The decoder, as far as the line goes. -/
def bannedJSON (line : Bytes) : Option SecurityLogEvent :=
  if line = bannedLine then some (scanLine 0) else none

/-- The line is read before its newline is written, and read again by the next pass. -/
theorem unended_line_twice :
    ¬ ∀ actions, Always (step plainPackages bannedJSON) (Once plainPackages bannedJSON) initial
        actions ∧
      Along (step plainPackages bannedJSON) (Reads plainPackages bannedJSON) initial actions := by
  intro h
  obtain ⟨lines, -, hleads, hoffset, hread, -⟩ := (h [.append bannedLine,
    .collect fun _ => "00000000-0000-4000-8000-000000000002",
    .collect fun _ => "00000000-0000-4000-8000-000000000003"]).1.last
  have htwice : (run (step plainPackages bannedJSON) initial [.append bannedLine,
      .collect fun _ => "00000000-0000-4000-8000-000000000002",
      .collect fun _ => "00000000-0000-4000-8000-000000000003"]).read =
      [(bannedLine, some (scanEvent 0 "00000000-0000-4000-8000-000000000002")),
        (bannedLine, some (scanEvent 0 "00000000-0000-4000-8000-000000000003"))] := by
    decide +kernel
  rw [htwice] at hread
  subst hread
  exact absurd hleads.length_le (by decide +kernel)

/-- The line is read with its newline. -/
theorem security_lines_once_line :
    Always (step plainPackages bannedJSON) (Once plainPackages bannedJSON) initial
        [.append (bannedLine ++ [newline]), .collect fun _ => "u", .collect fun _ => "v"] ∧
      Along (step plainPackages bannedJSON) (Reads plainPackages bannedJSON) initial
        [.append (bannedLine ++ [newline]), .collect fun _ => "u", .collect fun _ => "v"] := by
  refine security_lines_once plainPackages bannedJSON ⟨trivial, ⟨?_, ?_⟩, ⟨?_, ?_⟩, trivial⟩
  · decide +kernel
  · exact .inr (.inl (by decide +kernel))
  · decide +kernel
  · exact .inr (.inl (by decide +kernel))

end SimpleCdn.SecurityLog
