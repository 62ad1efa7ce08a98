import SimpleCdn.Forwarding.System

/-!
# Truncation

When a `Collect` sees that the log is shorter than the stored offset, it reads from the first byte.
It writes the offset only when it has got past a line, so the old offset may stay; a `Collect` that
finds the log grown up to it again reads on from there.
-/

namespace SimpleCdn.LogQueue

open Crash Crash.Prog AccessLog Relation Transition

section

variable {Time : Type} {packages : LogPackages Time} {f : LogForwarder} {s s' : State Time}

/-- A `Collect` has seen the truncation, no line has been passed since, and the log has grown up to
the offset that was stored before. -/
def State.Regrown (s : State Time) : Prop :=
  s.truncated = some s.passed.length ∧
    ∃ contents, s.log = some contents ∧ s.offset.getD 0 ≤ contents.length

/-- No `Collect` begins with a log that has grown up to the old offset. -/
def Action.Ungrown (s : State Time) : Action → Prop
  | .collect _ _ => ¬ s.Regrown
  | _ => True

/-- Since a `Collect` has seen the truncation, the log is read from its first byte: either no line
has been passed, or the lines in front of the offset are the last that have been. -/
def State.FromStart (s : State Time) : Prop :=
  ∀ i, s.truncated = some i → ∃ contents, s.log = some contents ∧ i ≤ s.passed.length ∧
    (s.passed.length = i ∨ ∃ lines, (∀ line ∈ lines, newline ∉ line) ∧
      Lines.join newline lines <+: contents ∧ s.offset = some (Lines.join newline lines).length ∧
      lines <:+ (s.passed.map Prod.fst).drop i)

/-- Where a `Collect` begins to read: behind the lines that have been passed since. -/
def State.Continues (s : State Time) (contents : Bytes) (stored i : ℕ) : Prop :=
  ∃ lines, (∀ line ∈ lines, newline ∉ line) ∧ Lines.join newline lines <+: contents ∧
    readFrom contents stored = (Lines.join newline lines).length ∧
    lines <:+ (s.passed.map Prod.fst).drop i

/-- A `Collect` that sees or has seen the truncation begins at the first byte, or goes on behind
what has been read from there. -/
def Action.Continues (s : State Time) : Action → Prop
  | .collect _ _ => ∀ contents stored i, s.log = some contents → s.Stored stored →
      (s.open stored).truncated = some i → s.Continues contents stored i
  | _ => True

/-- Every complete line of the truncated log has been passed. -/
def State.Caught (s : State Time) : Prop :=
  ∀ i contents, s.truncated = some i → s.log = some contents →
    Lines.complete newline contents <:+ (s.passed.map Prod.fst).drop i

variable (packages f) in
/-- After a `Collect` without an error the lines of the log have been passed. -/
def Catches (s : State Time) : Action → Prop
  | .collect fresh faults => ∀ count,
      ((collect packages f fresh).run.exec faults s).result = some (.ok count) →
        ((collect packages f fresh).run.exec faults s).state.Caught
  | _ => True

theorem continues_of_not_regrown (hs : s.FromStart) (hnot : ¬ s.Regrown) {contents : Bytes}
    {stored i : ℕ} (hlog : s.log = some contents) (hstored : s.Stored stored)
    (htruncated : (s.open stored).truncated = some i) :
    i ≤ s.passed.length ∧ s.Continues contents stored i := by
  have hstart : readFrom contents stored = 0 → s.Continues contents stored i := fun hzero =>
    ⟨[], (fun _ h => absurd h List.not_mem_nil), List.nil_prefix, hzero, List.nil_suffix⟩
  cases hbefore : s.truncated with
  | none =>
    -- this `Collect` is the first to see it
    rw [State.open, hbefore, hlog] at htruncated
    by_cases hshort : contents.length < stored
    · rw [show (some contents).getD [] = contents from rfl, if_pos hshort] at htruncated
      obtain rfl : s.passed.length = i := Option.some.inj htruncated
      exact ⟨le_rfl, hstart (if_pos hshort)⟩
    · rw [show (some contents).getD [] = contents from rfl, if_neg hshort] at htruncated
      cases htruncated
  | some j =>
    rw [State.open, hbefore] at htruncated
    obtain rfl : j = i := Option.some.inj htruncated
    obtain ⟨contents', hlog', hle, hcase⟩ := hs j hbefore
    obtain rfl := Option.some.inj (hlog.symm.trans hlog')
    refine ⟨hle, ?_⟩
    rcases hcase with hlength | ⟨lines, hlines, hleads, hoffset, hsuffix⟩
    · -- the old offset is still there, but the log is shorter
      have hshort : contents.length < s.offset.getD 0 := by
        by_contra hge
        exact hnot ⟨hlength ▸ hbefore, contents, hlog, Nat.le_of_not_lt hge⟩
      rcases hstored with rfl | rfl
      · exact hstart (if_pos hshort)
      · exact hstart (if_neg (Nat.not_lt_zero _))
    · rcases hstored with rfl | rfl
      · refine ⟨lines, hlines, hleads, ?_, hsuffix⟩
        rw [hoffset, Option.getD_some]
        exact if_neg (Nat.not_lt_of_le hleads.length_le)
      · exact hstart (if_neg (Nat.not_lt_zero _))

/-- A `Collect` that begins below the old offset reads the truncated log from its first byte. -/
theorem fromStart_collects {finished : Prop} (hs : s.FromStart) (hnot : ¬ s.Regrown)
    (h : Collects finished s s') : s'.FromStart := by
  intro i htruncated'
  cases h with
  | untouched hlog hoffset hpassed htruncated _ =>
    rw [htruncated] at htruncated'
    rw [hlog, hpassed, hoffset]
    exact hs i htruncated'
  | opened contents stored hcontents hstored hlog htruncated hoffset hpassed _ =>
    rw [htruncated] at htruncated'
    rw [hlog, hpassed, hoffset]
    cases hbefore : s.truncated with
    | none =>
      refine ⟨contents, hcontents, ?_⟩
      rw [State.open, hbefore] at htruncated'
      obtain ⟨_, hi⟩ := Option.ite_none_right_eq_some.mp htruncated'
      exact ⟨(Option.some.inj hi).ge, .inl (Option.some.inj hi)⟩
    | some j =>
      rw [State.open, hbefore] at htruncated'
      exact hs i (hbefore.trans htruncated')
  | advanced contents stored k hcontents hstored hlog htruncated hoffset hpassed _ =>
    rw [htruncated] at htruncated'
    obtain ⟨hle, lines, hlines, hleads, hstart, hsuffix⟩ :=
      continues_of_not_regrown hs hnot hcontents hstored htruncated'
    have hread : (scanned contents stored).1.take k <+:
        Lines.complete newline (contents.drop (Lines.join newline lines).length) := by
      rw [← hstart]
      exact (List.take_prefix _ _).trans (scanLog_isPrefix _)
    have hlength : s'.passed.length =
        s.passed.length + ((scanned contents stored).1.take k).length := by
      have hcount := congrArg List.length hpassed
      rwa [List.length_append, List.length_map, List.length_map] at hcount
    refine ⟨contents, hlog.trans hcontents, by omega,
      .inr ⟨lines ++ (scanned contents stored).1.take k, fun line hline => ?_, ?_, ?_, ?_⟩⟩
    · rcases List.mem_append.mp hline with hline | hline
      · exact hlines line hline
      · exact (Lines.stop_not_mem newline _).1 line (hread.subset hline)
    · obtain ⟨tail, htail⟩ := hleads
      rw [← htail, List.drop_left] at hread
      rw [Lines.join_append, ← htail]
      exact (List.prefix_append_right_inj _).mpr (join_isPrefix hread)
    · rw [hoffset, hstart, Lines.join_append, List.length_append]
    · rw [hpassed, List.drop_append_of_le_length (by rw [List.length_map]; exact hle)]
      obtain ⟨before, hbefore⟩ := hsuffix
      exact ⟨before, by rw [← hbefore, List.append_assoc]⟩

theorem scanned_all {contents : Bytes} {stored : ℕ} (h : (scanned contents stored).2 = false) :
    (scanned contents stored).1 =
      Lines.complete newline (contents.drop (readFrom contents stored)) := by
  rw [scanned, scanLog] at h ⊢
  obtain ⟨hall, -⟩ := Bool.or_eq_false_iff.mp h
  rw [List.takeWhile_eq_self_iff]
  intro line hline
  have hfits := List.any_eq_false.mp hall line hline
  rw [decide_eq_true_iff] at hfits ⊢
  omega

/-- A `Collect` without an error passes every complete line. -/
theorem caught_collects (hs : s.FromStart) (hnot : ¬ s.Regrown) (h : Collects True s s') :
    s'.Caught := by
  intro i contents' htruncated' hlog'
  -- the lines in front of the start, and those that have been read
  have hcaught : ∀ contents stored read, s.log = some contents → s.Stored stored →
      (s.open stored).truncated = some i → contents = contents' →
      Lines.complete newline (contents.drop (readFrom contents stored)) = read →
      s'.passed.map Prod.fst = s.passed.map Prod.fst ++ read →
      Lines.complete newline contents' <:+ (s'.passed.map Prod.fst).drop i := by
    rintro contents stored read hcontents hstored htruncated rfl hread hpassed
    obtain ⟨hle, lines, hlines, ⟨tail, rfl⟩, hstart, before, hbefore⟩ :=
      continues_of_not_regrown hs hnot hcontents hstored htruncated
    rw [hstart, List.drop_left] at hread
    rw [Lines.complete_join_append hlines, hread, hpassed,
      List.drop_append_of_le_length (by rw [List.length_map]; exact hle)]
    exact ⟨before, by rw [← hbefore, List.append_assoc]⟩
  cases h with
  | untouched hlog _ _ _ hfinished =>
    rw [hlog, hfinished trivial] at hlog'
    cases hlog'
  | opened contents stored hcontents hstored hlog htruncated _ hpassed hfinished =>
    have hscanned := hfinished trivial
    refine hcaught contents stored [] hcontents hstored (htruncated.symm.trans htruncated')
      (Option.some.inj (hcontents.symm.trans (hlog.symm.trans hlog'))) ?_
      (by rw [hpassed, List.append_nil])
    rw [← scanned_all (congrArg Prod.snd hscanned), hscanned]
  | advanced contents stored k hcontents hstored hlog htruncated _ hpassed hfinished =>
    obtain ⟨hk, hall⟩ := hfinished trivial
    refine hcaught contents stored _ hcontents hstored (htruncated.symm.trans htruncated')
      (Option.some.inj (hcontents.symm.trans (hlog.symm.trans hlog'))) rfl ?_
    rw [hpassed, List.take_of_length_le hk, scanned_all hall]

theorem fromStart_step (hs : Consistent s) (hstart : s.FromStart) {a : Action} (h : a.Ungrown s) :
    (step packages f s a).FromStart := by
  cases a with
  | write bytes =>
    intro i htruncated
    obtain ⟨contents, hlog, hle, hcase⟩ := hstart i htruncated
    refine ⟨contents ++ bytes, ?_, hle, hcase.imp_right ?_⟩
    · rw [step, hlog]
      rfl
    · rintro ⟨lines, hlines, hleads, hoffset, hsuffix⟩
      exact ⟨lines, hlines, hleads.trans (List.prefix_append _ _), hoffset, hsuffix⟩
  | truncate =>
    intro i htruncated
    cases htruncated
  | leaveLegacy contents => exact hstart
  | collect fresh faults =>
    exact fromStart_collects hstart h (collect_path hs (meets_false packages f s _) faults).2
  | flush faults =>
    have hpath : Path packages f False False s (step packages f s (.flush faults)) ∧
        Unread s (step packages f s (.flush faults)) := flush_path hs faults
    have hframe := hpath.2
    rw [Unread] at hframe
    rw [hframe]
    exact hstart

theorem continues_step (hstart : s.FromStart) {a : Action} (h : a.Ungrown s) : a.Continues s := by
  cases a with
  | collect fresh faults =>
    exact fun contents stored i hlog hstored htruncated =>
      (continues_of_not_regrown hstart h hlog hstored htruncated).2
  | _ => trivial

theorem catches_step (hs : Consistent s) (hstart : s.FromStart) {a : Action} (h : a.Ungrown s) :
    Catches packages f s a := by
  cases a with
  | collect fresh faults =>
    intro count hresult
    have hmeets := meets_false packages f s (.collect fresh faults)
    exact caught_collects hstart h ((wp_collect hs hmeets.1 hmeets.2).ok hresult).2
  | _ => trivial

/-- When no `Collect` begins with a log that has grown up to the old offset, a log that has been
seen to be truncated is read from its first byte, and a `Collect` without an error has passed every
complete line of it. -/
theorem truncation_handled (packages : LogPackages Time) (f : LogForwarder) {actions : List Action}
    (h : Along (step packages f) (fun s a => a.Ungrown s) initial actions) :
    Along (step packages f) (fun s a => a.Continues s ∧ Catches packages f s a) initial
      actions := by
  have hinit : Consistent (initial : State Time) ∧ (initial : State Time).FromStart :=
    ⟨consistent_initial, fun _ h => by cases h⟩
  have hstep : ∀ s a, Consistent s ∧ s.FromStart → a.Ungrown s →
      Consistent (step packages f s a) ∧ (step packages f s a).FromStart :=
    fun s a hs ha => ⟨consistent_step hs.1 a, fromStart_step hs.1 hs.2 ha⟩
  exact h.of_invariant hstep
    (fun _ _ hs ha => ⟨continues_step hs.2 ha, catches_step hs.1 hs.2 ha⟩) hinit

end

/-! ### A log that grows up to the old offset -/

/-- Two lines are collected, and the log is truncated while a `Collect` sees it empty. -/
def emptiedRun : List Action :=
  [.write (sampleLine ++ newline :: sampleLine ++ [newline]), .collect (fun _ => "u") [], .truncate,
    .collect (fun _ => "u") []]

/-- Two lines are written after the truncation, and they are never read. -/
theorem regrown_lines_skipped :
    ¬ ∀ actions, Along (step samplePackages newLogForwarder)
      (fun s a => a.Continues s ∧ Catches samplePackages newLogForwarder s a) initial actions := by
  intro h
  have halong := h (emptiedRun ++
    [.write (sampleLine ++ newline :: sampleLine ++ [newline]), .collect (fun _ => "u") []])
  rw [along_append] at halong
  have hcaught := halong.2.2.1.2 0 (by decide +kernel) 2
    (sampleLine ++ newline :: sampleLine ++ [newline]) (by decide +kernel) (by decide +kernel)
  exact absurd hcaught (by decide +kernel)

/-- When one line is written, it is read. -/
theorem truncation_handled_line :
    Along (step samplePackages newLogForwarder)
      (fun s a => a.Continues s ∧ Catches samplePackages newLogForwarder s a) initial
      (emptiedRun ++ [.write (sampleLine ++ [newline]), .collect (fun _ => "u") []]) := by
  refine truncation_handled samplePackages newLogForwarder ?_
  have hfresh : ∀ s : State String, s.truncated = none → ¬ s.Regrown := by
    rintro s hnone ⟨hsome, -⟩
    rw [hnone] at hsome
    cases hsome
  have hshort : ∀ (s : State String) contents n, s.log = some contents → s.offset = some n →
      contents.length < n → ¬ s.Regrown := by
    rintro s contents n hlog hoffset hlt ⟨-, contents', hlog', hle⟩
    obtain rfl := Option.some.inj (hlog.symm.trans hlog')
    rw [hoffset] at hle
    exact Nat.not_le_of_lt hlt hle
  exact ⟨trivial, hfresh _ (by decide +kernel), trivial, hfresh _ (by decide +kernel), trivial,
    hshort _ (sampleLine ++ [newline]) (2 * (sampleLine.length + 1)) (by decide +kernel)
      (by decide +kernel) (by decide +kernel), trivial⟩

end SimpleCdn.LogQueue
