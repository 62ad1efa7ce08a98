import SimpleCdn.Forwarding.Collecting

/-!
# Getting past the lines of the log

`Collect` stores the offset behind the lines in front of the first that it cannot get past: one that
does not fit the buffer of the scanner, or whose event cannot be written.
-/

namespace SimpleCdn.LogQueue

open Crash Crash.Prog AccessLog Transition

section

variable {Time : Type} {packages : LogPackages Time} {f : LogForwarder} {s s' : State Time}
  {contents : Bytes}

def collects (fresh : ℕ → ℕ → String) (n : ℕ) : List Action :=
  (List.range n).map fun i => .collect (fresh i) []

theorem run_collects_succ (fresh : ℕ → ℕ → String) (n : ℕ) (s : State Time) :
    run (step packages f) s (collects fresh (n + 1)) =
      run (step packages f) (step packages f s (.collect (fresh 0) []))
        (collects (fun i => fresh (i + 1)) n) := by
  rw [collects, List.range_succ_eq_map, List.map_cons, List.map_map, run_cons]
  rfl

/-- The text of the log behind the offset. -/
def State.uncollected (s : State Time) : Bytes :=
  (s.log.getD []).drop (readFrom (s.log.getD []) (s.offset.getD 0))

variable (packages) in
/-- `Collect` gets past the line. -/
def Passable (line : Bytes) : Prop :=
  line.length + 1 ≤ maxScanTokenSize ∧ writable packages line = true

variable (packages) in
/-- The offset is behind every complete line, and the event of each line that fits and can be
decoded has been queued. -/
def CollectsAll (s s' : State Time) : Prop :=
  newline ∉ s'.uncollected ∧ ∃ more, s'.appended = s.appended ++ more ∧
    ∀ line ∈ Lines.complete newline s.uncollected, line.length + 1 ≤ maxScanTokenSize →
      (∃ uuid, (decodeNginxLog packages uuid line).isSome) →
        ∃ uuid, ∃ event ∈ more, decodeNginxLog packages uuid line = some event

variable (packages) in
theorem collectedLines_isPrefix (contents : Bytes) (stored : ℕ) :
    collectedLines packages contents stored <+:
        Lines.complete newline (contents.drop (readFrom contents stored)) ∧
      ∀ line ∈ collectedLines packages contents stored, Passable packages line := by
  refine ⟨(List.takeWhile_prefix _).trans (scanLog_isPrefix _), fun line hline => ?_⟩
  have hscanned : line ∈ (scanned contents stored).1 :=
    (List.takeWhile_prefix _).subset hline
  rw [scanned, scanLog] at hscanned
  have hfits := List.mem_takeWhile_imp hscanned
  have hwritable := List.mem_takeWhile_imp hline
  exact ⟨of_decide_eq_true hfits, hwritable⟩

theorem collectedLines_eq {stored : ℕ} (h : ∀ line ∈
    Lines.complete newline (contents.drop (readFrom contents stored)), Passable packages line) :
    collectedLines packages contents stored =
      Lines.complete newline (contents.drop (readFrom contents stored)) := by
  have hscanned : (scanned contents stored).1 =
      Lines.complete newline (contents.drop (readFrom contents stored)) := by
    rw [scanned, scanLog]
    exact List.takeWhile_eq_self_iff.mpr fun line hline => decide_eq_true (h line hline).1
  rw [collectedLines, hscanned]
  exact List.takeWhile_eq_self_iff.mpr fun line hline => (h line hline).2

theorem uncollected_eq (hlog : s.log = some contents) :
    s.uncollected = contents.drop (readFrom contents (s.offset.getD 0)) := by
  rw [State.uncollected, hlog, Option.getD_some]

theorem readFrom_le (contents : Bytes) (stored : ℕ) :
    readFrom contents stored ≤ contents.length := by
  rw [readFrom]
  split
  · exact Nat.zero_le _
  · next hge => exact Nat.le_of_not_lt hge

/-- The lines that a `Collect` has read, and what is left. -/
theorem CollectedTo.uncollected {fresh : ℕ → String}
    (h : CollectedTo packages fresh contents s s') (hlog : s.log = some contents) :
    Lines.complete newline s.uncollected =
        collectedLines packages contents (s.offset.getD 0) ++
          Lines.complete newline s'.uncollected := by
  have hlog' : s'.log = some contents := h.log.trans hlog
  obtain ⟨hleads, -⟩ := collectedLines_isPrefix packages contents (s.offset.getD 0)
  rw [uncollected_eq hlog, uncollected_eq hlog', h.offset]
  by_cases hnil : collectedLines packages contents (s.offset.getD 0) = []
  · rw [if_pos hnil, hnil, List.nil_append]
  · rw [if_neg hnil, Option.getD_some]
    obtain ⟨tail, htail⟩ := join_isPrefix hleads
    have hlines : ∀ line ∈ collectedLines packages contents (s.offset.getD 0), newline ∉ line :=
      fun line hline => (Lines.stop_not_mem newline _).1 line (hleads.subset hline)
    have hlength := congrArg List.length htail
    have hle := readFrom_le contents (s.offset.getD 0)
    rw [List.length_append, List.length_drop] at hlength
    have hstays : readFrom contents (readFrom contents (s.offset.getD 0) +
        (Lines.join newline (collectedLines packages contents (s.offset.getD 0))).length) =
        readFrom contents (s.offset.getD 0) +
          (Lines.join newline (collectedLines packages contents (s.offset.getD 0))).length :=
      if_neg (by omega)
    rw [hstays, ← List.drop_drop, ← htail, List.drop_left,
      Lines.complete_join_append hlines]

theorem mem_queuedEvents {fresh : ℕ → String} {lines : List Bytes} {line : Bytes}
    (h : line ∈ lines) {uuid : String} {event : AccessLogEvent Time}
    (hdecoded : decodeNginxLog packages uuid line = some event) (read : ℕ) :
    ∃ uuid', ∃ event' ∈ queuedEvents packages fresh read lines,
      decodeNginxLog packages uuid' line = some event' := by
  obtain ⟨i, hi⟩ := List.mem_iff_getElem?.mp h
  obtain ⟨event', hevent', -⟩ := timestamp_decodeNginxLog hdecoded (fresh (read + i))
  refine ⟨_, event', List.mem_filterMap.mpr ⟨(line, read + i), ?_, hevent'⟩, hevent'⟩
  rw [List.mem_zipIdx_iff_le_and_getElem?_sub]
  exact ⟨Nat.le_add_right _ _, by rw [Nat.add_sub_cancel_left]; exact hi⟩

/-- The offset gets behind the lines of the log exactly if `Collect` gets past each of them. -/
theorem collectsAll_iff (hs : Consistent s) (hlog : s.log = some contents)
    (fresh : ℕ → ℕ → String)
    (hroom : ∀ n, Room packages f (fresh n) (run (step packages f) s (collects fresh n))) :
    (∃ n, CollectsAll packages s (run (step packages f) s (collects fresh n))) ↔
      ∀ line ∈ Lines.complete newline s.uncollected, Passable packages line := by
  constructor
  · rintro ⟨n, hpast, -⟩
    induction n generalizing s fresh with
    | zero =>
      have hnone : Lines.complete newline s.uncollected = [] := Lines.complete_eq_nil.mpr hpast
      rw [hnone]
      exact fun _ h => absurd h List.not_mem_nil
    | succ n ih =>
      have hcollected := collectedTo_step hs hlog (hroom 0)
      have hroom' : ∀ n, Room packages f (fresh (n + 1)) (run (step packages f)
          (step packages f s (.collect (fresh 0) [])) (collects (fun i => fresh (i + 1)) n)) := by
        intro n
        rw [← run_collects_succ]
        exact hroom (n + 1)
      rw [run_collects_succ] at hpast
      have hlater := ih (consistent_step hs _) (hcollected.log.trans hlog)
        (fun i => fresh (i + 1)) hroom' hpast
      intro line hline
      rw [hcollected.uncollected hlog] at hline
      rcases List.mem_append.mp hline with hline | hline
      · exact (collectedLines_isPrefix packages _ _).2 line hline
      · exact hlater line hline
  · intro h
    have hcollected := collectedTo_step hs hlog (hroom 0)
    have hlines := hcollected.uncollected hlog
    rw [uncollected_eq hlog] at h
    rw [collectedLines_eq h, uncollected_eq hlog] at hlines
    refine ⟨1, ?_⟩
    rw [run_collects_succ, collects, List.range_zero, List.map_nil, run_nil]
    refine ⟨Lines.complete_eq_nil.mp (List.self_eq_append_right.mp hlines), _,
      hcollected.appended, fun line hline _ hdecoded => ?_⟩
    obtain ⟨uuid, huuid⟩ := hdecoded
    obtain ⟨event, hevent⟩ := Option.isSome_iff_exists.mp huuid
    rw [uncollected_eq hlog] at hline
    rw [collectedLines_eq h]
    exact mem_queuedEvents hline hevent 0

end

end SimpleCdn.LogQueue
