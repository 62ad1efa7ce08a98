import SimpleCdn.Forwarding.Refinement
import SimpleCdn.Lib.Transition

/-!
# Runs of the forwarder

nginx appends to the access log, and a log rotation copies and truncates it.  The forwarder runs
`Collect` and `flushBatch`, in any order and any number of times; the faults of an action say which
of its operations fail and where the process stops, and a process that has stopped is started
again.  An agent of an older version may leave a queue of its own.
-/

namespace SimpleCdn.LogQueue

open Crash Crash.Prog AccessLog Relation Transition

inductive Action
  /-- nginx appends to the log. -/
  | write (bytes : Bytes)
  | truncate
  /-- An older agent appends to its queue. -/
  | leaveLegacy (contents : Bytes)
  | collect (fresh : ℕ → String) (faults : List Fault)
  | flush (faults : List Fault)

section

variable {Time : Type} (packages : LogPackages Time) (f : LogForwarder)

def initial : State Time := ⟨none, none, [], none, none, [], [], [], [], [], none⟩

def step (s : State Time) : Action → State Time
  | .write bytes => { s with log := some (s.log.getD [] ++ bytes) }
  | .truncate => { s with log := some [], truncated := none }
  | .leaveLegacy contents => { s with legacy := some (s.legacy.getD [] ++ contents) }
  | .collect fresh faults => ((collect packages f fresh).run.exec faults s).state
  | .flush faults => ((flushBatch packages f).run.exec faults s).state

/-- What is assumed of a step: that a `Collect` queues nothing behind an unfinished record, and
that its records are within the limit of the reader. -/
def Meets (whole fits : Prop) (s : State Time) : Action → Prop
  | .collect fresh _ => (whole → Clean packages f fresh s) ∧ (fits → RecordsFit packages fresh s)
  | _ => True

theorem meets_false (s : State Time) (a : Action) : Meets packages f False False s a := by
  cases a with
  | collect fresh faults => exact ⟨False.elim, False.elim⟩
  | _ => trivial

variable {packages f} {whole fits : Prop} {s : State Time}

theorem collect_path {fresh : ℕ → String} (hs : Consistent s)
    (h : Meets packages f whole fits s (.collect fresh [])) (faults : List Fault) :
    Path packages f whole fits s (step packages f s (.collect fresh faults)) ∧
      Collects False s (step packages f s (.collect fresh faults)) := by
  exact Attempt.wp.state ((wp_collect hs h.1 h.2).mono
    (fun _ _ h => ⟨h.1, h.2.mono fun h => trivial⟩) (fun _ _ h => h) fun _ h => h) faults

theorem flush_path (hs : Consistent s) (faults : List Fault) :
    Path packages f whole fits s (step packages f s (.flush faults)) ∧
      Unread s (step packages f s (.flush faults)) :=
  Attempt.wp.state (wp_flushBatch hs) faults

/-- What a step does to the queue: nothing, but for the programs of the forwarder and what an older
agent leaves. -/
theorem step_cases (hs : Consistent s) {a : Action} (h : Meets packages f whole fits s a) :
    Path packages f whole fits s (step packages f s a) ∨
      step packages f s a = { s with
        log := (step packages f s a).log, truncated := (step packages f s a).truncated } ∨
      ∃ contents, a = .leaveLegacy contents := by
  cases a with
  | write bytes => exact .inr (.inl rfl)
  | truncate => exact .inr (.inl rfl)
  | leaveLegacy contents => exact .inr (.inr ⟨contents, rfl⟩)
  | collect fresh faults => exact .inl (collect_path hs h faults).1
  | flush faults => exact .inl (flush_path hs faults).1

theorem consistent_step (hs : Consistent s) (a : Action) : Consistent (step packages f s a) := by
  rcases step_cases hs (meets_false packages f s a) with
    hpath | hlog | ⟨contents, rfl⟩
  · exact hpath.consistent hs
  · rw [hlog]
    exact hs.of_eq rfl rfl
  · exact hs.of_eq rfl rfl

theorem consistent_initial : Consistent (initial : State Time) :=
  ⟨.nil, (fun _ h => by cases h), fun _ h => by cases h⟩

theorem consistent_run (actions : List Action) :
    Consistent (run (step packages f) initial actions) :=
  run_invariant (P := Consistent) (fun _ a h => consistent_step h a) consistent_initial actions

/-! ### The offset and the lines -/

/-- When the offset changes, it moves behind lines of the log that are passed with it. -/
def Passes (s s' : State Time) : Prop :=
  s'.offset = s.offset ∧ s'.passed = s.passed ∨
    ∃ contents start lines, s.log = some contents ∧ (start = s.offset.getD 0 ∨ start = 0) ∧
      (∀ line ∈ lines, newline ∉ line) ∧ Lines.join newline lines <+: contents.drop start ∧
      s'.offset = some (start + (Lines.join newline lines).length) ∧
      s'.passed.map Prod.fst = s.passed.map Prod.fst ++ lines

/-- The scanner returns the first lines of the text. -/
theorem scanLog_isPrefix (text : Bytes) : (scanLog text).1 <+: Lines.complete newline text :=
  List.takeWhile_prefix _

theorem join_isPrefix {lines : List Bytes} {text : Bytes}
    (h : lines <+: Lines.complete newline text) : Lines.join newline lines <+: text := by
  obtain ⟨others, hothers⟩ := h
  have htext := Lines.join_complete_append_rest newline text
  rw [← hothers, Lines.join_append, List.append_assoc] at htext
  exact ⟨_, htext⟩

theorem Collects.passes {p : Prop} {s' : State Time} (h : Collects p s s') : Passes s s' := by
  cases h with
  | untouched _ hoffset hpassed _ _ => exact .inl ⟨hoffset, hpassed⟩
  | opened _ _ _ _ _ _ hoffset hpassed _ => exact .inl ⟨hoffset, hpassed⟩
  | advanced contents stored k hcontents hstored _ _ hoffset hpassed _ =>
    have hlines : (scanned contents stored).1.take k <+:
        Lines.complete newline (contents.drop (readFrom contents stored)) :=
      (List.take_prefix _ _).trans (scanLog_isPrefix _)
    refine .inr ⟨contents, readFrom contents stored, _, hcontents, ?_, fun line hline => ?_,
      join_isPrefix hlines, hoffset, hpassed⟩
    · rw [readFrom]
      split
      · exact .inr rfl
      · exact hstored
    · exact (Lines.stop_not_mem newline _).1 line (hlines.subset hline)

theorem passes_step (hs : Consistent s) (a : Action) : Passes s (step packages f s a) := by
  cases a with
  | collect fresh faults => exact (collect_path hs (meets_false packages f s _) faults).2.passes
  | flush faults =>
    have hpath : Path packages f False False s (step packages f s (.flush faults)) ∧
        Unread s (step packages f s (.flush faults)) := flush_path hs faults
    have hframe := hpath.2
    rw [Unread] at hframe
    rw [hframe]
    exact .inl ⟨rfl, rfl⟩
  | _ => exact .inl ⟨rfl, rfl⟩

end

/-! ### A line -/

def sampleTime : String := "2026-01-01T00:00:00Z"

def sampleLine : Bytes :=
  utf8 "\x7b\"request_id\":\"r\",\"timestamp\":\"2026-01-01T00:00:00Z\"\x7d".toList

/-- The line decoded: the fields it does not have are zero. -/
def sampleLog : NginxLog := { (default : NginxLog) with requestID := "r", timestamp := sampleTime }

def sampleEvent : AccessLogEvent String :=
  { (default : AccessLogEvent String) with id := "r", timestamp := sampleTime }

def sampleText : Bytes := utf8 (jsonAccessLogEvent sampleTime sampleEvent)

/-- The packages, as far as one line goes. -/
def linePackages (line : Bytes) (raw : NginxLog) (event : AccessLogEvent String) :
    LogPackages String where
  decodeJSON text := if text = line then some raw else none
  parseTime text := if text = sampleTime then some text else none
  timeText time := some time
  milliseconds _ := 0
  unmarshal text :=
    if text = utf8 (jsonAccessLogEvent event.timestamp event) then some event else none

def samplePackages : LogPackages String := linePackages sampleLine sampleLog sampleEvent

section

variable {line : Bytes} {raw : NginxLog} {event : AccessLogEvent String}

theorem line_recorded (hline : ∀ uuid, decodeNginxLog (linePackages line raw event) uuid line =
    some event) {event' : AccessLogEvent String} {text : Bytes}
    (h : Recorded (linePackages line raw event) event' text) :
    event' = event ∧ text = utf8 (jsonAccessLogEvent event.timestamp event) := by
  obtain ⟨⟨uuid, line', hdecoded⟩, htext⟩ := h
  have hsame : line' = line := by
    by_contra hne
    rw [decodeNginxLog, linePackages] at hdecoded
    dsimp only at hdecoded
    rw [if_neg hne] at hdecoded
    cases hdecoded
  rw [hsame, hline] at hdecoded
  obtain rfl := Option.some.inj hdecoded
  exact ⟨rfl, (Option.some.inj htext).symm⟩

theorem line_lawful (hline : ∀ uuid, decodeNginxLog (linePackages line raw event) uuid line =
    some event) : (linePackages line raw event).Lawful where
  unmarshal_marshal := by
    intro event' text h
    obtain ⟨rfl, rfl⟩ := line_recorded hline h
    simp only [linePackages, ↓reduceIte]
  unmarshal_cut := by
    intro event' text k h hk
    obtain ⟨rfl, rfl⟩ := line_recorded hline h
    have hne : ∀ text : Bytes, k < text.length → text.take k ≠ text := by
      intro text hk heq
      have hlength := congrArg List.length heq
      rw [List.length_take] at hlength
      omega
    simp only [linePackages, if_neg (hne _ hk)]

end

theorem sample_lawful : samplePackages.Lawful := line_lawful fun _ => rfl

end SimpleCdn.LogQueue
