import SimpleCdn.Forwarding.System

/-!
# A `Collect` without a fault

When nothing fails and the queue has room, `Collect` reads and queues all complete lines up to the
first that it cannot get past, and writes the offset behind them.
-/

namespace SimpleCdn.LogQueue

open Crash Crash.Prog AccessLog

section

variable {Time : Type} {s : State Time}

@[simp] theorem ends_look {β : Type} {view : State Time → β} {Q : β → State Time → Prop}
    {E : QueueError → State Time → Prop} : (look view).ends Q E s ↔ Q (view s) s := Iff.rfl

@[simp] theorem ends_change {effect : State Time → State Time} {Q : Unit → State Time → Prop}
    {E : QueueError → State Time → Prop} : (change effect).ends Q E s ↔ Q () (effect s) := by
  rw [change, Attempt.ends_act]

@[simp] theorem ends_sync {Q : Unit → State Time → Prop} {E : QueueError → State Time → Prop} :
    (sync : Job Time Unit).ends Q E s ↔ Q () s := by
  rw [sync, ends_change]
  rfl

theorem ends_prepareQueue {Q : Unit → State Time → Prop} {E : QueueError → State Time → Prop}
    (hroom : s.legacy ≠ none → s.nextSequence ≤ maxSequence) (hQ : Q () s.prepared) :
    prepareQueue.ends Q E s := by
  rw [prepareQueue, Attempt.ends_bind, ends_look]
  rw [State.prepared] at hQ
  cases hlegacy : s.legacy with
  | none =>
    rw [hlegacy] at hQ
    exact hQ
  | some contents =>
    rw [hlegacy] at hQ
    dsimp only at hQ ⊢
    rw [Attempt.ends_ite]
    by_cases hnil : contents = []
    · rw [if_pos hnil] at hQ ⊢
      rw [Attempt.ends_bind, ends_change, ends_sync]
      exact hQ
    · rw [if_neg hnil] at hQ ⊢
      have hmaximum : max (s.sequences.foldl max 0) ((s.cursor.map (·.segment)).getD 0) ≠
          maxSequence := by
        have hle := hroom (by rw [hlegacy]; exact Option.some_ne_none _)
        rw [State.nextSequence] at hle
        omega
      have hnew := (unused_nextSequence s).not_mem
      rw [State.nextSequence] at hnew hQ
      simp only [nextQueueSequence, cursor, Attempt.ends_bind, ends_look, Attempt.ends_ite,
        Attempt.ends_pure, ends_change, ends_sync, if_neg hmaximum, if_neg hnew]
      exact hQ

/-! ### Appending -/

variable {f : LogForwarder} {a : Appender}

namespace Appender

theorem ends_flush {Q : Bool → State Time → Prop} :
    (flush : Prog (State Time) Bool).ends Q s ↔ Q true s := by
  rw [flush, Prog.ends_act]

theorem ends_closeFile {Q : Changed → State Time → Prop}
    (hQ : ∀ created, Q ({ a with file := false, created := created }, none) s) :
    a.closeFile.ends Q s := by
  rw [closeFile]
  split
  · next hfile =>
    have ha : a = { a with file := false, created := a.created } := by
      cases a
      cases hfile
      rfl
    rw [ha]
    exact hQ a.created
  · rw [Prog.ends_bind, ends_flush, Prog.ends_ite, if_pos rfl]
    split
    · rw [Prog.ends_bind, ends_flush]
      exact hQ _
    · exact hQ _

theorem ends_rotate {record : Bytes} {Q : Changed → State Time → Prop} (ha : a.Knows s)
    (hQ : ∀ a', a'.Knows s → a'.next = a.next → Q (a', none) s) : (a.rotate f record).ends Q s := by
  rw [rotate]
  split
  · rw [Prog.ends_bind]
    refine ends_closeFile fun created => ?_
    exact hQ _ (ha.of_eq rfl rfl (.inl rfl) fun h => by cases h) rfl
  · exact hQ a ha rfl

/-- A segment is open, and it is the last one. -/
theorem ends_opened {Q : Changed → State Time → Prop} (hs : Consistent s) (ha : a.Knows s)
    (hroom : a.next < maxSequence)
    (hQ : ∀ (a' : Appender) s' g, a'.Knows s' → Consistent s' → s'.segments.getLast? = some g →
      a'.path = some g.sequence → a'.next ≤ a.next + 1 →
      LogQueue.total s'.segments = LogQueue.total s.segments →
      Kept s s' → Q (a', none) s') : a.opened.ends Q s := by
  rw [opened]
  split
  · next hfile =>
    obtain ⟨n, hn⟩ := Option.isSome_iff_exists.mp (ha.file hfile)
    obtain ⟨g, hg, rfl, -⟩ := ha.path n hn
    exact hQ a s g ha hs hg hn (Nat.le_succ _) rfl rfl
  · rw [openFile]
    cases hpath : a.path with
    | some n =>
      obtain ⟨g, hg, rfl, -⟩ := ha.path n hpath
      dsimp only
      rw [Prog.ends_bind, ends_flush, Prog.ends_ite, if_pos rfl]
      have hnow : ({ a with file := true } : Appender).Knows s :=
        ha.of_eq rfl rfl (.inr ⟨rfl, rfl⟩) fun _ => by
          rw [hpath]
          rfl
      have hopen := hQ _ s g hnow hs hg hpath (Nat.le_succ _) rfl rfl
      rwa [hpath] at hopen
    | none =>
      have hfree : freeSequence s.sequences a.next s.segments.length = a.next + 1 := by
        refine freeSequence_eq (fun n hn => ?_) _
        obtain ⟨g, hg, rfl⟩ := List.mem_map.mp hn
        exact ha.sequences g hg
      dsimp only
      rw [Prog.ends_bind, Prog.ends_inspect, hfree]
      dsimp only
      rw [Prog.ends_ite, if_neg (Nat.not_lt.mpr hroom), Prog.ends_bind, Prog.ends_act]
      dsimp only
      rw [Prog.ends_ite, if_pos rfl]
      have hcreated : Consistent (s.create (a.next + 1)) :=
        hs.add (g := ⟨a.next + 1, []⟩) rfl ha.unused rfl
      have htotal : LogQueue.total (s.create (a.next + 1)).segments =
          LogQueue.total s.segments := by
        rw [State.create]
        dsimp only
        rw [total_append]
        rfl
      exact hQ _ _ ⟨a.next + 1, []⟩ ha.create hcreated List.getLast?_concat rfl le_rfl htotal rfl

theorem ends_writeRecord {n : ℕ} {record : Bytes} {Q : Bool → State Time → Prop}
    (hQ : Q true (s.write n record)) : (writeRecord n record).ends Q s := by
  induction record generalizing s with
  | nil => rwa [write_nil] at hQ
  | cons b record ih =>
    rw [writeRecord, each, Prog.ends_bind, Prog.ends_act]
    dsimp only
    rw [Prog.ends_ite, if_pos rfl]
    refine ih ?_
    rwa [write_write, List.singleton_append]

/-- With room in the queue the record is appended. -/
theorem ends_append {record : Bytes} {Q : Appender × Except QueueError Bool → State Time → Prop}
    (hs : Consistent s) (ha : a.Knows s)
    (hroom : LogQueue.total s.segments + record.length ≤ f.queueLimit)
    (hnext : a.next < maxSequence)
    (hQ : ∀ a' s', a'.Knows s' → Consistent s' → a'.next ≤ a.next + 1 →
      LogQueue.total s'.segments = LogQueue.total s.segments + record.length → Kept s s' →
      Q (a', .ok true) s') :
    (a.append f record).ends Q s := by
  rw [append, if_neg (by rw [ha.total]; omega), Prog.ends_bind]
  refine ends_rotate ha fun a₁ ha₁ hnext₁ => ?_
  dsimp only
  rw [Prog.ends_bind]
  refine ends_opened hs ha₁ (hnext₁ ▸ hnext) fun a₂ s₂ g ha₂ hs₂ hg hpath hnext₂ htotal hkept => ?_
  have htarget : a₂.path.getD 0 = g.sequence := by
    rw [hpath]
    rfl
  dsimp only
  rw [htarget, Prog.ends_bind]
  refine ends_writeRecord ?_
  rw [Prog.ends_ite, if_pos rfl]
  refine hQ _ _ (ha₂.write hs₂ hg hpath) (hs₂.write hg _) (hnext₁ ▸ hnext₂) ?_ (hkept.write _ _)
  rw [total_write hs₂ hg, htotal]

end Appender

/-! ### The lines -/

variable {packages : LogPackages Time}

variable (packages) in
/-- The line is not decoded, or its event is written. -/
def writable (line : Bytes) : Bool :=
  match decodeNginxLog packages "" line with
  | none => true
  | some event => (marshal packages event).isSome

theorem timestamp_decodeNginxLog {uuid : String} {line : Bytes} {event : AccessLogEvent Time}
    (h : decodeNginxLog packages uuid line = some event) (uuid' : String) :
    ∃ event', decodeNginxLog packages uuid' line = some event' ∧
      event'.timestamp = event.timestamp := by
  cases hraw : packages.decodeJSON line with
  | none =>
    rw [decodeNginxLog, hraw] at h
    cases h
  | some raw =>
    cases htime : packages.parseTime raw.timestamp with
    | none => simp [decodeNginxLog, hraw, htime] at h
    | some time =>
      simp only [decodeNginxLog, hraw, htime, Option.bind_eq_bind, Option.bind_some,
        Option.pure_def, Option.some.injEq] at h ⊢
      subst h
      exact ⟨_, rfl, rfl⟩

/-- Whether the event of a line is written does not depend on the identifier made for it. -/
theorem writable_eq {uuid : String} {line : Bytes} {event : AccessLogEvent Time}
    (h : decodeNginxLog packages uuid line = some event) :
    writable packages line = (marshal packages event).isSome := by
  obtain ⟨event', hdecoded, htime⟩ := timestamp_decodeNginxLog h ""
  rw [writable, hdecoded]
  dsimp only
  rw [marshal, marshal, Option.isSome_map, Option.isSome_map, htime]

variable (packages) in
/-- The events of lines, with the identifiers made for them. -/
def queuedEvents (fresh : ℕ → String) (read : ℕ) (lines : List Bytes) :
    List (AccessLogEvent Time) :=
  (lines.zipIdx read).filterMap fun line => decodeNginxLog packages (fresh line.2) line.1

/-- The records fit the queue, and there are numbers for their segments. -/
structure HasRoom (packages : LogPackages Time) (f : LogForwarder) (fresh : ℕ → String) (read : ℕ)
    (lines : List Bytes) (a : Appender) (s : State Time) : Prop where
  bytes : total s.segments + ((records packages fresh read lines).map List.length).sum ≤
    f.queueLimit
  numbers : a.next + lines.length ≤ maxSequence

/-- Nothing but the segments and the lines that are being read has changed. -/
def Reading (s s' : State Time) : Prop :=
  s' = { s with segments := s'.segments, taken := s'.taken, appended := s'.appended }

/-- The loop of `Collect` gets to the first line whose event is not written. -/
theorem ends_collectLines (fresh : ℕ → String) {tooLong : Bool} {lines : List Bytes}
    {read position count : ℕ} {Q : Collected → State Time → Prop} (hs : Consistent s)
    (ha : a.Knows s) (hroom : HasRoom packages f fresh read lines a s)
    (hQ : ∀ a' s' count', Reading s s' →
      s'.appended = s.appended ++
        queuedEvents packages fresh read (lines.takeWhile (writable packages)) →
      Q ⟨a', position + (Lines.join newline (lines.takeWhile (writable packages))).length, count',
        if lines.all (writable packages) then if tooLong then some .tooLong else none
        else some .marshal, false⟩ s') :
    (collectLines packages f fresh tooLong lines read a position count).ends Q s := by
  induction lines generalizing s read position count a with
  | nil => exact hQ a s count rfl (List.append_nil _).symm
  | cons line lines ih =>
    obtain ⟨hbytes, hnumbers⟩ := hroom
    rw [List.length_cons] at hnumbers
    rw [records] at hbytes
    -- a line that has been read, in front of the others
    have hnext : ∀ s₁ event (a' : Appender) count', writable packages line = true →
        decodeNginxLog packages (fresh read) line = event → Consistent (s₁.take line event) →
        a'.Knows (s₁.take line event) → Appender.Kept s s₁ →
        HasRoom packages f fresh (read + 1) lines a' (s₁.take line event) →
        (collectLines packages f fresh tooLong lines (read + 1) a' (position + line.length + 1)
          count').ends Q (s₁.take line event) := by
      intro s₁ event a' count' hwritable hevent hs₁ ha' hkept hroom'
      refine ih hs₁ ha' hroom' fun a'' s'' count'' hreading happended => ?_
      have hposition : position + line.length + 1 +
          (Lines.join newline (lines.takeWhile (writable packages))).length =
          position + (Lines.join newline
            ((line :: lines).takeWhile (writable packages))).length := by
        rw [List.takeWhile_cons_of_pos hwritable, Lines.join_cons, List.length_append,
          List.length_cons]
        omega
      have hall : lines.all (writable packages) = (line :: lines).all (writable packages) := by
        rw [List.all_cons, hwritable, Bool.true_and]
      rw [hposition, hall]
      rw [Appender.Kept] at hkept
      refine hQ a'' s'' count'' ?_ ?_
      · rw [Reading] at hreading ⊢
        rw [hreading, State.take, hkept]
      · rw [happended, List.takeWhile_cons_of_pos hwritable, State.take, hkept, queuedEvents,
          queuedEvents, List.zipIdx_cons, List.filterMap_cons, hevent]
        cases event <;> simp
    rw [collectLines]
    cases hdecoded : decodeNginxLog packages (fresh read) line with
    | none =>
      rw [hdecoded] at hbytes
      have hwritable : writable packages line = true := by
        have hnone := isSome_decodeNginxLog packages "" (fresh read) line
        rw [hdecoded, Option.isSome_none, Option.isSome_eq_false_iff, Option.isNone_iff_eq_none]
          at hnone
        rw [writable, hnone]
      dsimp only
      rw [Prog.ends_bind, Prog.ends_modify]
      exact hnext s none a count hwritable hdecoded (hs.of_eq rfl rfl)
        ⟨ha.total, ha.legacy, ha.sequences, ha.cursor, ha.path, ha.file⟩ rfl
        ⟨hbytes, by omega⟩
    | some event =>
      rw [hdecoded] at hbytes
      dsimp only at hbytes ⊢
      cases htext : marshal packages event with
      | none =>
        have hwritable : writable packages line = false := by
          rw [writable_eq hdecoded, htext]
          rfl
        have hstop := hQ a s count rfl
        rw [List.takeWhile_cons_of_neg (by rw [hwritable]; exact Bool.false_ne_true), List.all_cons,
          hwritable] at hstop
        exact hstop (List.append_nil _).symm
      | some text =>
        rw [htext] at hbytes
        dsimp only at hbytes ⊢
        rw [List.map_cons, List.sum_cons] at hbytes
        have hwritable : writable packages line = true := by
          rw [writable_eq hdecoded, htext]
          rfl
        rw [Prog.ends_bind]
        refine Appender.ends_append hs ha (by omega) (by omega)
          fun a' s₁ ha' hs₁ hnumber htotal hkept => ?_
        dsimp only
        rw [Prog.ends_bind, Prog.ends_modify]
        refine hnext s₁ (some event) a' (count + 1) hwritable hdecoded (hs₁.of_eq rfl rfl)
          ⟨ha'.total, ha'.legacy, ha'.sequences, ha'.cursor, ha'.path, ha'.file⟩ hkept
          ⟨?_, by omega⟩
        have hsame : total (s₁.take line (some event)).segments = total s₁.segments := rfl
        rw [hsame, htotal]
        omega

variable (packages) in
/-- The lines that a `Collect` gets past. -/
def collectedLines (contents : Bytes) (stored : ℕ) : List Bytes :=
  (scanned contents stored).1.takeWhile (writable packages)

/-- The queue has room for what a `Collect` reads. -/
structure Room (packages : LogPackages Time) (f : LogForwarder) (fresh : ℕ → String)
    (s : State Time) : Prop where
  legacy : s.legacy ≠ none → s.nextSequence ≤ maxSequence
  lines : ∀ contents, s.log = some contents →
    HasRoom packages f fresh 0 (scanned contents (s.offset.getD 0)).1 (s.prepared.appender f)
      s.prepared

/-- What a `Collect` without a fault leaves. -/
structure CollectedTo (packages : LogPackages Time) (fresh : ℕ → String) (contents : Bytes)
    (s s' : State Time) : Prop where
  log : s'.log = s.log
  acked : s'.acked = s.acked
  offset : s'.offset = if collectedLines packages contents (s.offset.getD 0) = [] then s.offset
    else some (readFrom contents (s.offset.getD 0) +
      (Lines.join newline (collectedLines packages contents (s.offset.getD 0))).length)
  appended : s'.appended = s.appended ++
    queuedEvents packages fresh 0 (collectedLines packages contents (s.offset.getD 0))

theorem join_eq_nil {lines : List Bytes} : (Lines.join newline lines).length = 0 ↔ lines = [] := by
  cases lines with
  | nil => exact ⟨fun _ => rfl, fun _ => rfl⟩
  | cons line lines =>
    rw [Lines.join_cons, List.length_append, List.length_cons]
    exact ⟨fun h => absurd h (by omega), fun h => by cases h⟩

/-- The end of `Collect`: the error that stopped the lines, or their number. -/
def reported (error : Option QueueError) (count : ℕ) : Job Time ℕ :=
  match error with
  | some error => throw error
  | none => pure count

theorem ends_collect {fresh : ℕ → String} (hs : Consistent s) {contents : Bytes}
    (hlog : s.log = some contents) (hroom : Room packages f fresh s) :
    (collect packages f fresh).ends (fun _ => CollectedTo packages fresh contents s)
      (fun _ => CollectedTo packages fresh contents s) s := by
  have hframe := prepared_frame s
  have hlog' : s.prepared.log = s.log := by rw [hframe]
  have hoffset : s.prepared.offset = s.offset := by rw [hframe]
  have happended : s.prepared.appended = s.appended := by rw [hframe]
  have hacked : s.prepared.acked = s.acked := by rw [hframe]
  have hs₁ : Consistent (s.prepared.open (s.offset.getD 0)) := hs.prepared.of_eq rfl rfl
  have hprepared : (s.prepared.open (s.offset.getD 0)).prepared =
      s.prepared.open (s.offset.getD 0) := prepared_of_none (legacy_prepared s)
  have hknows : ((s.prepared.open (s.offset.getD 0)).appender f).Knows
      (s.prepared.open (s.offset.getD 0)) := hs₁.knows_appender (legacy_prepared s)
  rw [collect, Attempt.ends_bind]
  refine ends_prepareQueue hroom.legacy ?_
  rw [Attempt.ends_bind, ends_look, hlog', hlog]
  dsimp only
  have hstored : (offset : Job Time ℕ).ends
      (fun stored s' => stored = s.offset.getD 0 ∧ s' = s.prepared) (fun _ _ => False)
      s.prepared := by
    rw [offset, Attempt.ends_lift, Prog.ends_bind, Prog.ends_inspect, hoffset]
    refine ⟨?_, rfl⟩
    cases s.offset <;> rfl
  rw [Attempt.ends_bind]
  refine hstored.mono (fun stored s' h => ?_) fun _ _ h => h.elim
  obtain ⟨rfl, rfl⟩ := h
  rw [Attempt.ends_bind, Attempt.ends_lift, Prog.ends_modify, Attempt.ends_bind, newQueueAppender,
    Attempt.ends_bind, queueSegments, Attempt.ends_bind]
  refine ends_prepareQueue (fun h => absurd (legacy_prepared s) h) ?_
  rw [hprepared, ends_look, hs₁.sorted_eq, Attempt.ends_bind, cursor, ends_look, Attempt.ends_ite,
    if_neg (by rw [hs₁.not_ahead]; exact Bool.false_ne_true), Attempt.ends_pure]
  rw [Attempt.ends_bind, Attempt.ends_lift]
  have hlines := hroom.lines contents hlog
  refine ends_collectLines fresh hs₁ hknows ⟨hlines.bytes, hlines.numbers⟩
    fun a' s' count' hreading hqueued => ?_
  rw [Attempt.ends_bind, Attempt.ends_lift]
  refine Appender.ends_closeFile fun created => ?_
  dsimp only
  rw [Attempt.ends_ite, if_neg Bool.false_ne_true]
  -- the files but for the segments, when the log has been read
  rw [Reading] at hreading
  have hlogNow : s'.log = s.log := by
    rw [hreading]
    exact hlog'
  have hackedNow : s'.acked = s.acked := by
    rw [hreading]
    exact hacked
  have hoffsetNow : s'.offset = s.offset := by
    rw [hreading]
    exact hoffset
  have happendedNow : s'.appended = s.appended ++ queuedEvents packages fresh 0
      (collectedLines packages contents (s.offset.getD 0)) := by
    rw [hqueued]
    exact congrArg (· ++ _) happended
  have hmoved : collectedLines packages contents (s.offset.getD 0) ≠ [] →
      CollectedTo packages fresh contents s (s'.advance (readFrom contents (s.offset.getD 0) +
        (Lines.join newline (collectedLines packages contents (s.offset.getD 0))).length)) :=
    fun hne => ⟨hlogNow, hackedNow, by rw [if_neg hne]; rfl, happendedNow⟩
  have hstayed : collectedLines packages contents (s.offset.getD 0) = [] →
      CollectedTo packages fresh contents s s' :=
    fun hnil => ⟨hlogNow, hackedNow, by rw [if_pos hnil, hoffsetNow], happendedNow⟩
  have hreport : ∀ (error : Option QueueError) s'', CollectedTo packages fresh contents s s'' →
      (reported error count' : Job Time ℕ).ends (fun _ => CollectedTo packages fresh contents s)
        (fun _ => CollectedTo packages fresh contents s) s'' := by
    intro error s'' h
    cases error with
    | some error => exact h
    | none => exact h
  rw [Attempt.ends_ite]
  by_cases hnil : collectedLines packages contents (s.offset.getD 0) = []
  · have hzero := join_eq_nil.mpr hnil
    have hsame : ¬ readFrom contents (s.offset.getD 0) + (Lines.join newline
        ((scanLog (contents.drop (readFrom contents (s.offset.getD 0)))).1.takeWhile
          (writable packages))).length ≠ readFrom contents (s.offset.getD 0) := by
      intro hne
      exact hne (Nat.add_eq_left.mpr hzero)
    rw [if_neg hsame]
    exact hreport _ _ (hstayed hnil)
  · have hpos : (Lines.join newline (collectedLines packages contents (s.offset.getD 0))).length ≠
        0 := fun hzero => hnil (join_eq_nil.mp hzero)
    have hmove : readFrom contents (s.offset.getD 0) + (Lines.join newline
        ((scanLog (contents.drop (readFrom contents (s.offset.getD 0)))).1.takeWhile
          (writable packages))).length ≠ readFrom contents (s.offset.getD 0) := by
      intro heq
      exact hpos (Nat.add_eq_left.mp heq)
    rw [if_pos hmove, Attempt.ends_bind, ends_change]
    exact hreport _ _ (hmoved hnil)

/-- What a `Collect` without a fault leaves. -/
theorem collectedTo_step {fresh : ℕ → String} {contents : Bytes} (hs : Consistent s)
    (hlog : s.log = some contents) (hroom : Room packages f fresh s) :
    CollectedTo packages fresh contents s (step packages f s (.collect fresh [])) := by
  obtain ⟨result, -, hpost⟩ := Prog.ends_iff.mp (ends_collect hs hlog hroom)
  cases result with
  | ok count => exact hpost
  | error error => exact hpost

end

end SimpleCdn.LogQueue
