import SimpleCdn.Forwarding.Collecting
import SimpleCdn.Forwarding.Cursor
import SimpleCdn.Forwarding.Delivery

/-!
# Batches and the receiver

The unread text of a queue that `Collect` has written consists of records and, at the end of a
segment, perhaps a part of one.  A record within the limit of the reader is never skipped, the
batches made of such records are small enough for the control plane, and as many successful uploads
as there is text empty the queue.
-/

namespace SimpleCdn.LogQueue

open Crash Crash.Prog AccessLog Relation Transition

section

variable {Time : Type} {packages : LogPackages Time} {f : LogForwarder} {whole fits : Prop}
  {s s' : State Time}

/-! ### What the segments hold -/

variable (packages) in
/-- A record, or the part of one that has been written. -/
def WrittenChunk (chunk : Bytes) : Prop :=
  ∃ event text k, Recorded packages event text ∧
    (text ++ [newline]).length ≤ logQueueRecordBytes ∧ chunk = (text ++ [newline]).take k

variable (packages) in
def Written (text : Bytes) : Prop :=
  ∀ chunk ∈ Lines.chunks newline text, WrittenChunk packages chunk

theorem written_record {event : AccessLogEvent Time} {text : Bytes}
    (h : Recorded packages event text)
    (hfits : (text ++ [newline]).length ≤ logQueueRecordBytes) (k : ℕ) :
    Written packages ((text ++ [newline]).take k) := by
  intro chunk hchunk
  refine ⟨event, text, k, h, hfits, ?_⟩
  have hnewline := newline_not_mem_marshal h.2
  by_cases hk : k ≤ text.length
  · have htake : (text ++ [newline]).take k = text.take k := List.take_append_of_le_length hk
    rw [htake] at hchunk ⊢
    by_cases hnil : text.take k = []
    · rw [hnil, Lines.chunks_nil] at hchunk
      cases hchunk
    · rw [Lines.chunks_of_not_mem (fun hmem => hnewline (List.mem_of_mem_take hmem)) hnil,
        List.mem_singleton] at hchunk
      exact hchunk
  · have htake : (text ++ [newline]).take k = text ++ [newline] :=
      List.take_of_length_le (by rw [List.length_append, List.length_singleton]; omega)
    rw [htake, Lines.chunks_line hnewline, List.mem_singleton] at hchunk
    rw [htake]
    exact hchunk

theorem written_nil : Written packages [] := fun _ h => absurd h List.not_mem_nil

theorem Written.append {a b : Bytes} (ha : Written packages a) (hended : Lines.Ended newline a)
    (hb : Written packages b) : Written packages (a ++ b) := by
  intro chunk hchunk
  rw [hended.chunks_append] at hchunk
  rcases List.mem_append.mp hchunk with hchunk | hchunk
  · exact ha chunk hchunk
  · exact hb chunk hchunk

variable (packages) in
/-- Everything unread has been written by `Collect`. -/
def AllWritten (s : State Time) : Prop := ∀ g ∈ s.segments, Written packages (s.unread g)

theorem Ready.allWritten {g : Segment} {record : Bytes}
    (h : Ready packages f whole fits s g record) (hwhole : whole) (hfits : fits)
    (hs : Consistent s) (hall : AllWritten packages s) (k : ℕ) :
    AllWritten packages (s.write g.sequence (record.take k)) := by
  obtain ⟨event, text, hrecorded, hrecord⟩ := h.event
  have hlimit := h.fits hfits
  rw [hrecord] at hlimit
  have hlast := List.mem_of_getLast? h.latest
  intro g' hg'
  rw [hs.segments_write h.latest] at hg'
  rcases List.mem_append.mp hg' with hg' | hg'
  · exact hall g' (List.mem_of_mem_dropLast hg')
  · obtain rfl := List.mem_singleton.mp hg'
    have hunread : (s.write g.sequence (record.take k)).unread
        { g with contents := g.contents ++ record.take k } = s.unread g ++ record.take k :=
      List.drop_append_of_le_length (hs.startIn_le hlast)
    rw [hunread, hrecord]
    exact (hall g hlast).append (h.whole hwhole) (written_record hrecorded hlimit k)

theorem Move.allWritten (h : Move packages f whole fits s s') (hwhole : whole) (hfits : fits)
    (hs : Consistent s) (hlegacy : s.legacy = none) (hall : AllWritten packages s) :
    AllWritten packages s' := by
  cases h with
  | dropLegacy h =>
    rw [hlegacy] at h
    cases h
  | migrate h _ =>
    rw [hlegacy] at h
    cases h
  | create _ _ =>
    intro g hg
    rcases List.mem_append.mp hg with hg | hg
    · exact hall g hg
    · obtain rfl := List.mem_singleton.mp hg
      rw [State.unread, List.drop_nil]
      exact written_nil
  | cut k h => exact h.allWritten hwhole hfits hs hall k
  | @append g line event text uuid _ _ h =>
    have hwritten := h.allWritten hwhole hfits hs hall (text ++ [newline]).length
    rw [List.take_length] at hwritten
    exact hwritten
  | upload _ _ hs' =>
    rw [writeLogs] at hs'
    split at hs'
    · cases hs'
    · obtain rfl := Option.some.inj hs'
      exact hall
  | @acknowledge batch hbatch _ =>
    intro g hg
    by_cases hsame : g.sequence = batch.segment.sequence
    · -- the first chunks have been taken off
      have hbatchMem := hall batch.segment hbatch.mem
      obtain ⟨m, hfinish, -⟩ := hbatch.read
      have hinj : s.sequences.Nodup := by
        rw [State.sequences, List.nodup_iff_pairwise_ne, List.pairwise_map]
        exact hs.ordered.imp fun hlt => hlt.ne
      obtain rfl : g = batch.segment := List.inj_on_of_nodup_map hinj hg hbatch.mem hsame
      have hunread : (s.acknowledge batch).unread batch.segment =
          (s.unread batch.segment).drop
            ((Lines.chunks newline (s.unread batch.segment)).take m).flatten.length := by
        have hstart : startIn (s.acknowledge batch).cursor batch.segment = batch.finish :=
          startIn_cursor rfl
        rw [State.unread, hstart, hfinish, ← List.drop_drop]
        rfl
      intro chunk hchunk
      rw [hunread, Lines.chunks_drop_chunks] at hchunk
      exact hbatchMem chunk (List.mem_of_mem_drop hchunk)
    · have hunread : (s.acknowledge batch).unread g = s.unread g := by
        have hlt : batch.segment.sequence < g.sequence :=
          lt_of_le_of_ne (hs.head_le hbatch.segment g hg) (Ne.symm hsame)
        have hbefore : startIn s.cursor g = 0 := startIn_of_ne fun c hc =>
          ((hs.oldest c hc _ hbatch.mem).trans_lt hlt).ne
        have hafter : startIn (s.acknowledge batch).cursor g = 0 := startIn_eq_zero_of_lt hlt
        rw [State.unread, State.unread, hbefore, hafter]
      rw [hunread]
      exact hall g hg
  | remove _ _ => exact fun g hg => hall g (List.mem_of_mem_filter hg)
  | _ => exact hall

theorem Path.allWritten (h : Path packages f whole fits s s') (hwhole : whole) (hfits : fits)
    (hs : Consistent s) (hbounded : Bounded f s) (hall : AllWritten packages s) :
    AllWritten packages s' := by
  induction h with
  | refl => exact hall
  | tail hpath hmove ih =>
    exact hmove.allWritten hwhole hfits (Path.consistent hpath hs)
      (Path.bounded hpath hs hbounded).1 ih

/-! ### The size of a batch -/

theorem trimByte_of_not_mem {b : UInt8} {line : Bytes} (h : b ∉ line) : trimByte b line = line :=
  if_neg fun hlast => h (List.mem_of_getLast? hlast)

theorem WrittenChunk.length_le {chunk : Bytes} (h : WrittenChunk packages chunk) :
    chunk.length ≤ logQueueRecordBytes := by
  obtain ⟨event, text, k, -, hfits, rfl⟩ := h
  exact (List.length_take_le' k _).trans hfits

/-- The event of a chunk has a text that is no longer than the chunk. -/
theorem WrittenChunk.marshal {chunk : Bytes} (h : WrittenChunk packages chunk)
    (hlawful : packages.Lawful) {event : AccessLogEvent Time}
    (hevent : recordEvent packages chunk = some event) :
    ∃ text, marshal packages event = some text ∧ text.length ≤ chunk.length := by
  have hlimit := h.length_le
  obtain ⟨event', text, k, hrecorded, hfits, rfl⟩ := h
  by_cases hk : k ≤ text.length
  · have htake : (text ++ [newline]).take k = text.take k := List.take_append_of_le_length hk
    rw [htake] at hevent hlimit ⊢
    have hcontrol : ∀ b : UInt8, b.toNat < 0x20 → b ∉ text.take k := fun b hb hmem =>
      control_not_mem_marshal hrecorded.2 hb (List.mem_of_mem_take hmem)
    have hline : recordLine (text.take k) = text.take k := by
      rw [recordLine, if_neg (Nat.not_lt.mpr hlimit), trimByte_of_not_mem (hcontrol _ (by decide)),
        trimByte_of_not_mem (hcontrol _ (by decide))]
    rw [recordEvent, hline] at hevent
    split at hevent
    · cases hevent
    · rcases hk.lt_or_eq with hlt | heq
      · -- a text that stops before its end
        rw [hlawful.unmarshal_cut _ _ _ hrecorded hlt] at hevent
        cases hevent
      · have hall : text.take k = text := List.take_of_length_le heq.ge
        rw [hall] at hevent ⊢
        rw [hlawful.unmarshal_marshal _ _ hrecorded] at hevent
        obtain rfl := Option.some.inj hevent
        exact ⟨text, hrecorded.2, le_rfl⟩
  · have htake : (text ++ [newline]).take k = text ++ [newline] :=
      List.take_of_length_le (by rw [List.length_append, List.length_singleton]; omega)
    rw [htake] at hevent ⊢
    rw [recordEvent_marshal hlawful hrecorded hfits] at hevent
    obtain rfl := Option.some.inj hevent
    exact ⟨text, hrecorded.2, by rw [List.length_append]; omega⟩

variable (packages) in
/-- The length of an event in a batch, with the comma. -/
def textLength (event : AccessLogEvent Time) : ℕ :=
  ((marshal packages event).getD []).length + 1

variable (packages) in
/-- The bounds that the loop of `nextBatch` keeps. -/
structure Within (eventBytes : ℕ) (events : List (AccessLogEvent Time)) : Prop where
  bytes : eventBytes ≤ logUploadBatchBytes
  first : events = [] → eventBytes = 0
  weight : (events.map (textLength packages)).sum ≤ eventBytes + events.length
  written : ∀ event ∈ events, (marshal packages event).isSome

theorem within_readBatch (hlawful : packages.Lawful) {chunks : List Bytes}
    (hchunks : ∀ chunk ∈ chunks, WrittenChunk packages chunk) (records eventBytes : ℕ)
    (batch : Batch Time) (h : Within packages eventBytes batch.events) :
    ∃ eventBytes', Within packages eventBytes'
        (readBatch packages records eventBytes batch chunks).events ∧
      (readBatch packages records eventBytes batch chunks).events.length ≤
        batch.events.length + records := by
  induction chunks generalizing records eventBytes batch with
  | nil =>
    have hnil : readBatch packages records eventBytes batch [] = batch := by
      cases records <;> rfl
    rw [hnil]
    exact ⟨eventBytes, h, Nat.le_add_right _ _⟩
  | cons chunk chunks ih =>
    have hrest : ∀ c ∈ chunks, WrittenChunk packages c := fun c hc =>
      hchunks c (List.mem_cons_of_mem _ hc)
    have hchunk := hchunks chunk List.mem_cons_self
    cases records with
    | zero => exact ⟨eventBytes, h, Nat.le_add_right _ _⟩
    | succ records =>
      rw [readBatch]
      cases hevent : recordEvent packages chunk with
      | none =>
        obtain ⟨eventBytes', hwithin, hcount⟩ := ih hrest records eventBytes
          { batch with finish := batch.finish + chunk.length } h
        exact ⟨eventBytes', hwithin, hcount.trans (by dsimp only; omega)⟩
      | some event =>
        obtain ⟨text, htext, hlength⟩ := hchunk.marshal hlawful hevent
        dsimp only
        split
        · exact ⟨eventBytes, h, Nat.le_add_right _ _⟩
        · next hfits =>
          have hbytes : eventBytes + chunk.length ≤ logUploadBatchBytes := by
            by_cases hnil : batch.events = []
            · -- a batch takes its first event however long it is
              have hlimit := hchunk.length_le
              have hzero := h.first hnil
              have hle : logQueueRecordBytes ≤ logUploadBatchBytes := by decide
              omega
            · by_contra hgt
              exact hfits ⟨hnil, Nat.lt_of_not_le hgt⟩
          have hnext : Within packages (eventBytes + chunk.length) (batch.events ++ [event]) := by
            refine ⟨hbytes, fun hnil => absurd hnil (by simp), ?_, fun e he => ?_⟩
            · have hweight := h.weight
              have hone : textLength packages event = text.length + 1 := by
                rw [textLength, htext]
                rfl
              rw [List.map_append, List.sum_append, List.map_singleton, List.sum_singleton, hone,
                List.length_append, List.length_singleton]
              omega
            · rcases List.mem_append.mp he with he | he
              · exact h.written e he
              · rw [List.mem_singleton.mp he, htext]
                rfl
          obtain ⟨eventBytes', hwithin, hcount⟩ := ih hrest records (eventBytes + chunk.length)
            { batch with
              finish := batch.finish + chunk.length, events := batch.events ++ [event] } hnext
          refine ⟨eventBytes', hwithin, hcount.trans ?_⟩
          dsimp only
          rw [List.length_append, List.length_singleton]
          omega

theorem mapM_marshal {events : List (AccessLogEvent Time)}
    (h : ∀ event ∈ events, (marshal packages event).isSome) :
    events.mapM (marshal packages) = some (events.map fun e => (marshal packages e).getD []) := by
  induction events with
  | nil => rfl
  | cons event events ih =>
    obtain ⟨text, htext⟩ := Option.isSome_iff_exists.mp (h event List.mem_cons_self)
    rw [List.mapM_cons, htext, ih fun e he => h e (List.mem_cons_of_mem _ he), List.map_cons, htext]
    rfl

/-- What the control plane accepts. -/
def Accepted (packages : LogPackages Time) (events : List (AccessLogEvent Time)) : Prop :=
  ∃ payload, marshalBatch packages events = some payload ∧ payload.length ≤ maxLogsBody ∧
    events.length ≤ maxLogsEvents

theorem Within.accepted {eventBytes : ℕ} {events : List (AccessLogEvent Time)}
    (h : Within packages eventBytes events) (hcount : events.length ≤ maxLogsEvents) :
    Accepted packages events := by
  have htexts := mapM_marshal h.written
  have hbatch : marshalBatch packages events = some (0x5B ::
      ((events.map fun e => (marshal packages e).getD []).intersperse [0x2C]).flatten ++
        [0x5D]) := by
    rw [marshalBatch, htexts]
    rfl
  refine ⟨_, hbatch, ?_, hcount⟩
  cases events with
  | nil =>
    show ([0x5B, 0x5D] : Bytes).length ≤ maxLogsBody
    decide
  | cons event events =>
    rw [length_marshalBatch htexts (List.cons_ne_nil _ _) hbatch, List.map_map]
    have hweight := h.weight
    have hbytes := h.bytes
    have hlimit : logUploadBatchBytes + maxLogsEvents + 1 ≤ maxLogsBody := by decide
    have hsame : ((event :: events).map ((fun text : Bytes => text.length + 1) ∘
        fun e => (marshal packages e).getD [])) = (event :: events).map (textLength packages) := rfl
    rw [hsame]
    omega

/-- The batch that is read next is accepted by the control plane. -/
theorem next_accepted (hlawful : packages.Lawful) (hall : AllWritten packages s)
    {batch : Batch Time} (h : s.next packages newLogForwarder = some batch) :
    Accepted packages batch.events := by
  obtain ⟨g, hg, rfl⟩ := Option.map_eq_some_iff.mp h
  have hnone : Within packages 0 ([] : List (AccessLogEvent Time)) :=
    ⟨Nat.zero_le _, fun _ => rfl, Nat.zero_le _, fun _ h => absurd h List.not_mem_nil⟩
  obtain ⟨eventBytes, hwithin, hcount⟩ := within_readBatch hlawful
    (hall g (List.mem_of_mem_head? hg)) newLogForwarder.batchLimit 0
    ⟨g, startIn s.cursor g, []⟩ hnone
  refine hwithin.accepted (hcount.trans ?_)
  rw [List.length_nil, Nat.zero_add]
  decide

/-! ### Emptying the queue -/

/-- The segments and bytes that are left to be read. -/
def State.left (s : State Time) : ℕ := (s.segments.map fun g => (s.unread g).length + 1).sum

theorem left_eq {g : Segment} {others : List Segment} (h : s.segments = g :: others) :
    s.left = (s.unread g).length + 1 + (others.map fun g => (s.unread g).length + 1).sum := by
  rw [State.left, h, List.map_cons, List.sum_cons]

/-- The segments behind the oldest are read from their beginning. -/
theorem unread_other {g g' : Segment} {others : List Segment} (hs : Consistent s)
    (h : s.segments = g :: others) (hg' : g' ∈ others) : s.unread g' = g'.contents := by
  have hordered := hs.ordered
  rw [h] at hordered
  have hlt : g.sequence < g'.sequence := List.rel_of_pairwise_cons hordered hg'
  have hmem : g ∈ s.segments := h ▸ List.mem_cons_self
  rw [State.unread, startIn_of_ne fun c hc => ((hs.oldest c hc g hmem).trans_lt hlt).ne]
  rfl

theorem left_others {s₁ : State Time} {g g₁ : Segment} {others : List Segment} (hs : Consistent s)
    (hs₁ : Consistent s₁) (h : s.segments = g :: others) (h₁ : s₁.segments = g₁ :: others) :
    (others.map fun g => (s₁.unread g).length + 1) =
      others.map fun g => (s.unread g).length + 1 := by
  refine List.map_congr_left fun g' hg' => ?_
  rw [unread_other hs h hg', unread_other hs₁ h₁ hg']

/-- What acknowledging a batch leaves to be read. -/
theorem left_acknowledge {batch : Batch Time} (hs : Consistent s)
    (hnext : s.next packages f = some batch) (hmore : batch.segment.size ≠ batch.finish) :
    (s.acknowledge batch).left < s.left := by
  have hbatch := nextBatch_of_next hnext
  obtain ⟨others, hsegments⟩ := List.head?_eq_some_iff.mp hbatch.segment
  have hacked : (s.acknowledge batch).segments = batch.segment :: others := hsegments
  have hfinish := hbatch.finish_le hs
  have hbefore : (s.unread batch.segment).length =
      batch.segment.size - startIn s.cursor batch.segment := List.length_drop
  have hafter : ((s.acknowledge batch).unread batch.segment).length =
      batch.segment.size - batch.finish := by
    have hstart : startIn (s.acknowledge batch).cursor batch.segment = batch.finish :=
      startIn_cursor rfl
    rw [State.unread, hstart]
    exact List.length_drop
  have hprogress : startIn s.cursor batch.segment < batch.finish := by
    rcases next_progress hnext with hlt | hnil
    · exact hlt
    · have hsize := unread_eq_nil.mp hnil
      have hstart := hbatch.start_le
      exact absurd (by omega : batch.segment.size = batch.finish) hmore
  rw [left_eq hsegments, left_eq hacked, left_others hs (hs.acknowledge hbatch) hsegments hacked]
  omega

theorem left_remove {batch : Batch Time} (hs : Consistent s)
    (hnext : s.next packages f = some batch) :
    ((s.acknowledge batch).remove batch.segment.sequence).left < s.left := by
  have hbatch := nextBatch_of_next hnext
  obtain ⟨others, hsegments⟩ := List.head?_eq_some_iff.mp hbatch.segment
  have hordered := hs.ordered
  rw [hsegments] at hordered
  have hothers : ((s.acknowledge batch).remove batch.segment.sequence).segments = others := by
    rw [State.remove, State.acknowledge]
    dsimp only
    rw [hsegments, List.filter_cons_of_neg (by simp), List.filter_eq_self]
    exact fun g hg => decide_eq_true (List.rel_of_pairwise_cons hordered hg).ne'
  have hsame := left_others hs (hs.acknowledge hbatch) hsegments
    (show (s.acknowledge batch).segments = batch.segment :: others from hsegments)
  rw [left_eq hsegments, State.left, hothers, ← hsame]
  have hunread : ∀ g, ((s.acknowledge batch).remove batch.segment.sequence).unread g =
      (s.acknowledge batch).unread g := fun g => rfl
  simp only [hunread]
  omega

theorem ends_ackBatch {batch : Batch Time} {Q : Unit → State Time → Prop}
    {E : QueueError → State Time → Prop} (hs : Consistent s) (h : NextBatch packages s batch)
    (hQ : batch.segment.size ≠ batch.finish → Q () (s.acknowledge batch))
    (hQ' : batch.segment.size = batch.finish →
      Q () ((s.acknowledge batch).remove batch.segment.sequence)) :
    (ackBatch batch).ends Q E s := by
  have hfinish := h.finish_le hs
  rw [ackBatch, Attempt.ends_bind, ends_look, stat_head h.segment]
  dsimp only
  rw [Attempt.ends_ite, if_neg (Nat.not_lt.mpr hfinish), Attempt.ends_bind, ends_change,
    Attempt.ends_bind, ends_sync, Attempt.ends_ite]
  split
  · next hall =>
    rw [Attempt.ends_bind, ends_change, ends_sync]
    exact hQ' hall
  · next hmore => exact hQ hmore

theorem ends_nextBatch {Q : Option (Batch Time) → State Time → Prop}
    {E : QueueError → State Time → Prop} (hs : Consistent s) (hlegacy : s.legacy = none)
    {batch : Batch Time} (hnext : s.next packages f = some batch) (hQ : Q (some batch) s) :
    (nextBatch f packages).ends Q E s := by
  have hprepared := prepared_of_none hlegacy
  obtain ⟨g, hg, rfl⟩ := Option.map_eq_some_iff.mp hnext
  obtain ⟨others, hsegments⟩ := List.head?_eq_some_iff.mp hg
  have hahead := hs.not_ahead
  have hstart := hs.startIn_le (List.mem_of_mem_head? hg)
  rw [hsegments] at hahead
  rw [nextBatch, Attempt.ends_bind, queueSegments, Attempt.ends_bind]
  refine ends_prepareQueue (fun h => absurd hlegacy h) ?_
  rw [hprepared, ends_look, hs.sorted_eq, hsegments]
  dsimp only
  rw [cursor, Attempt.ends_bind, ends_look, Attempt.ends_ite, hahead, if_neg Bool.false_ne_true,
    Attempt.ends_ite, if_neg (Nat.not_lt.mpr hstart), Attempt.ends_ite]
  have hsegment : ∀ chunks, (readBatch packages f.batchLimit 0 ⟨g, startIn s.cursor g, []⟩
      chunks).segment = g := by
    intro chunks
    obtain ⟨m, hbatch, -⟩ := readBatch_eq packages f.batchLimit 0 ⟨g, startIn s.cursor g, []⟩ chunks
    rw [hbatch]
  split
  · next hdone =>
    have hnil : s.unread g = [] := unread_eq_nil.mpr hdone.ge
    have hbatch : readBatch packages f.batchLimit 0 ⟨g, startIn s.cursor g, []⟩ [] =
        ⟨g, startIn s.cursor g, []⟩ := by
      cases f.batchLimit <;> rfl
    rw [hnil, Lines.chunks_nil, hbatch] at hQ
    exact hQ
  · next hmore =>
    have hprogress : startIn s.cursor g < (readBatch packages f.batchLimit 0
        ⟨g, startIn s.cursor g, []⟩ (Lines.chunks newline (s.unread g))).finish := by
      rcases next_progress hnext with hlt | hnil
      · rwa [hsegment] at hlt
      · rw [hsegment, unread_eq_nil] at hnil
        exact absurd (le_antisymm hstart hnil) hmore
    have hmoved : ¬ (readBatch packages f.batchLimit 0 ⟨g, startIn s.cursor g, []⟩
        (Lines.chunks newline (g.contents.drop (startIn s.cursor g)))).finish =
          startIn s.cursor g := hprogress.ne'
    rw [Attempt.ends_bind, ends_sync, Attempt.ends_ite, if_neg hmoved]
    exact hQ

/-- A successful upload leaves less to be read. -/
theorem ends_flushBatch (hs : Consistent s) (hlegacy : s.legacy = none) {batch : Batch Time}
    (hnext : s.next packages f = some batch) (haccepted : Accepted packages batch.events) :
    (flushBatch packages f).ends (fun _ s' => s'.left < s.left) (fun _ _ => False) s := by
  have hbatch := nextBatch_of_next hnext
  rw [flushBatch, Attempt.ends_bind]
  refine ends_nextBatch hs hlegacy hnext ?_
  dsimp only
  rw [Attempt.ends_bind, upload]
  split
  · rw [Attempt.ends_pure, Attempt.ends_bind]
    exact ends_ackBatch hs hbatch (fun hmore => left_acknowledge hs hnext hmore)
      fun _ => left_remove hs hnext
  · obtain ⟨payload, hpayload, hbody, hcount⟩ := haccepted
    have hsent : writeLogs payload batch.events s =
        some { s with uploads := s.uploads ++ [⟨s.acked.length, batch.events⟩] } :=
      if_neg (not_or.mpr ⟨Nat.not_lt.mpr hbody, Nat.not_lt.mpr hcount⟩)
    rw [hpayload]
    dsimp only
    rw [Attempt.ends_request, hsent]
    dsimp only
    rw [Attempt.ends_bind]
    refine ends_ackBatch (hs.of_eq rfl rfl) ⟨hbatch.segment, hbatch.read⟩ (fun hmore => ?_)
      fun _ => ?_
    · have hless := left_acknowledge hs hnext hmore
      exact hless
    · have hless := left_remove hs hnext
      exact hless

/-! ### Runs -/

/-- A state of a run in which every assumption has been met. -/
structure Sendable (packages : LogPackages Time) (s : State Time) : Prop where
  consistent : Consistent s
  bounded : Bounded newLogForwarder s
  written : AllWritten packages s
  delivered : Delivered packages s

theorem sendable_initial : Sendable packages (initial : State Time) :=
  ⟨consistent_initial, ⟨rfl, Nat.zero_le _⟩, fun _ h => absurd h List.not_mem_nil,
    delivered_initial⟩

theorem Sendable.step (hlawful : packages.Lawful) (h : Sendable packages s) {a : Action}
    (ha : a.Current) (hmeets : Meets packages newLogForwarder True True s a) :
    Sendable packages (step packages newLogForwarder s a) := by
  refine ⟨consistent_step h.consistent a, bounded_step h.consistent h.bounded ha, ?_,
    delivered_step hlawful h.consistent h.delivered hmeets⟩
  rcases step_cases h.consistent hmeets with hpath | hlog | ⟨contents, rfl⟩
  · exact hpath.allWritten trivial trivial h.consistent h.bounded h.written
  · rw [hlog]
    exact h.written
  · exact ha.elim

theorem Sendable.accepted (hlawful : packages.Lawful) (h : Sendable packages s)
    {batch : Batch Time} (hnext : s.next packages newLogForwarder = some batch) :
    Accepted packages batch.events :=
  next_accepted hlawful h.written hnext

/-- As many successful uploads as it takes empty the queue. -/
theorem Sendable.drains (hlawful : packages.Lawful) (h : Sendable packages s) :
    ∃ n, let s' := run (LogQueue.step packages newLogForwarder) s (List.replicate n (.flush []))
      Sendable packages s' ∧ s'.segments = [] ∧ s.history packages <+: s'.history packages := by
  induction hleft : s.left using Nat.strong_induction_on generalizing s with
  | _ left ih =>
    subst hleft
    cases hnext : s.next packages newLogForwarder with
    | none =>
      have hnone : s.segments = [] := List.head?_eq_none_iff.mp (Option.map_eq_none_iff.mp hnext)
      exact ⟨0, h, hnone, List.prefix_rfl⟩
    | some batch =>
      have hpath : Path packages newLogForwarder True True s
          (LogQueue.step packages newLogForwarder s (.flush [])) ∧ _ :=
        flush_path h.consistent []
      have hstep : Sendable packages (LogQueue.step packages newLogForwarder s (.flush [])) :=
        h.step hlawful trivial trivial
      have hless : (LogQueue.step packages newLogForwarder s (.flush [])).left < s.left := by
        obtain ⟨done, -, hless⟩ := (ends_flushBatch h.consistent h.bounded.1 hnext
          (h.accepted hlawful hnext)).result
        exact hless
      have hleads : s.history packages <+:
          (LogQueue.step packages newLogForwarder s (.flush [])).history packages :=
        hpath.1.history_isPrefix trivial h.consistent
      obtain ⟨n, hsendable, hempty, hhistory⟩ := ih _ hless hstep rfl
      exact ⟨n + 1, hsendable, hempty, hleads.trans hhistory⟩

/-- What the claim on the batches asks of a state. -/
structure BatchLaw (packages : LogPackages Time) (s : State Time) : Prop where
  /-- What `nextBatch` returns is accepted by the control plane. -/
  batch : ∀ faults batch,
    ((nextBatch newLogForwarder packages).run.exec faults s).result = some (.ok (some batch)) →
    Accepted packages batch.events
  /-- Nothing unread is too large for the reader. -/
  chunks : ∀ g ∈ s.segments, ∀ chunk ∈ Lines.chunks newline (s.unread g),
    chunk.length ≤ logQueueRecordBytes
  /-- No event that has been queued is skipped. -/
  queued : s.appended.Sublist (s.history packages)
  /-- When uploads succeed, every event that has been queued is sent. -/
  sent : ∃ n, ∀ event ∈ s.appended, ∃ upload ∈
    (run (step packages newLogForwarder) s (List.replicate n (.flush []))).uploads,
      event ∈ upload.events

theorem Sendable.batchLaw (hlawful : packages.Lawful) (h : Sendable packages s) :
    BatchLaw packages s where
  batch := by
    intro faults batch hresult
    have hprepared := prepared_of_none h.bounded.1
    have hwp : (nextBatch newLogForwarder packages).wp
        (fun result _ => result = s.next packages newLogForwarder) (fun _ _ => True)
        (fun _ => True) s :=
      wp_nextBatch h.consistent (by rw [hprepared]) (fun _ _ => ⟨trivial, trivial⟩)
        ⟨trivial, trivial⟩
    exact h.accepted hlawful (hwp.ok hresult).symm
  chunks := fun g hg chunk hchunk => (h.written g hg chunk hchunk).length_le
  queued := h.delivered.appended
  sent := by
    obtain ⟨n, hsendable, hempty, hhistory⟩ := h.drains hlawful
    refine ⟨n, fun event hevent => hsendable.delivered.accepted event ?_⟩
    have hmem := hhistory.subset (h.delivered.appended.subset hevent)
    rw [State.history, State.pending, hempty] at hmem
    simpa [pendingIn] using hmem

/-- When the records are within the limit of the reader and none is written behind an unfinished
one, every batch is accepted by the control plane and every event that has been queued is sent. -/
theorem batches_fit (packages : LogPackages Time) (hlawful : packages.Lawful)
    {actions : List Action} (hcurrent : ∀ a ∈ actions, a.Current)
    (h : Along (step packages newLogForwarder) (Meets packages newLogForwarder True True) initial
      actions) : Always (step packages newLogForwarder) (BatchLaw packages) initial actions := by
  have hsendable : ∀ (actions : List Action) (s : State Time), Sendable packages s →
      (∀ a ∈ actions, a.Current) →
      Along (step packages newLogForwarder) (Meets packages newLogForwarder True True) s actions →
      Always (step packages newLogForwarder) (Sendable packages) s actions := by
    intro actions
    induction actions with
    | nil => exact fun s hs _ _ => hs
    | cons a actions ih =>
      intro s hs hcurrent halong
      exact ⟨hs, ih _ (hs.step hlawful (hcurrent a List.mem_cons_self) halong.1)
        (fun b hb => hcurrent b (List.mem_cons_of_mem a hb)) halong.2⟩
  exact (hsendable actions initial sendable_initial hcurrent h).mono fun s hs => hs.batchLaw hlawful

end

/-! ### A line that grows -/

/-- A line whose user agent is `n` times the character `<`, which `json.Marshal` escapes. -/
def agentLine (n : ℕ) : Bytes :=
  utf8 ("\x7b\"request_id\":\"r\",\"timestamp\":\"2026-01-01T00:00:00Z\",\"user_agent\":\"".toList ++
    List.replicate n '<' ++ "\"\x7d".toList)

def agent (n : ℕ) : String := String.ofList (List.replicate n '<')

def agentEvent (n : ℕ) : AccessLogEvent String := { sampleEvent with userAgent := agent n }

def agentText (n : ℕ) : Bytes := utf8 (jsonAccessLogEvent sampleTime (agentEvent n))

def agentPackages (n : ℕ) : LogPackages String :=
  linePackages (agentLine n) { sampleLog with userAgent := agent n } (agentEvent n)

theorem agent_decoded (n : ℕ) (uuid : String) :
    decodeNginxLog (agentPackages n) uuid (agentLine n) = some (agentEvent n) := by
  have hraw : (agentPackages n).decodeJSON (agentLine n) =
      some { sampleLog with userAgent := agent n } := if_pos rfl
  have htime : (agentPackages n).parseTime sampleTime = some sampleTime := by
    simp only [agentPackages, linePackages, ↓reduceIte]
  have htrim : Text.trimSpace "r" = "r" := by decide
  have hpath : String.ofList (("" : String).toList.takeWhile (· ≠ '?')) = "" := by decide
  simp only [decodeNginxLog, hraw, Option.bind_eq_bind, Option.bind_some, sampleLog, htime, htrim,
    default, hpath]
  rfl

theorem agent_lawful (n : ℕ) : (agentPackages n).Lawful := line_lawful (agent_decoded n)

theorem length_utf8 (text : List Char) : (utf8 text).length = Uploading.bytes text := by
  rw [utf8, List.length_flatMap, Uploading.bytes]
  congr 1
  exact List.map_congr_left fun c _ => String.length_utf8EncodeChar c

theorem bytes_replicate (n : ℕ) : Uploading.bytes (List.replicate n '<') = n := by
  have hsize : '<'.utf8Size = 1 := by decide
  rw [Uploading.bytes, List.map_replicate, List.sum_replicate_nat, hsize, Nat.mul_one]

theorem bytes_agent (n : ℕ) :
    Uploading.bytes ((agent n).toList.flatMap Uploading.jsonChar) = 6 * n := by
  have hlist : (agent n).toList = List.replicate n '<' := String.toList_ofList
  have hchar : Uploading.bytes (Uploading.jsonChar '<') = 6 := by decide
  rw [hlist]
  induction n with
  | zero => rfl
  | succ n ih =>
    have hlist' : (agent n).toList = List.replicate n '<' := String.toList_ofList
    rw [List.replicate_succ, List.flatMap_cons, Uploading.bytes_append, ih hlist', hchar]
    omega

theorem bytes_intersperse_le {parts : List (List Char)} {m : ℕ}
    (h : ∀ part ∈ parts, Uploading.bytes part ≤ m) :
    Uploading.bytes ((parts.intersperse [',']).flatten) ≤ parts.length * (m + 1) := by
  induction parts with
  | nil => exact Nat.zero_le _
  | cons first rest ih =>
    have hfirst := h first List.mem_cons_self
    have hrest := ih fun part hpart => h part (List.mem_cons_of_mem _ hpart)
    rw [List.length_cons, Nat.succ_mul]
    cases rest with
    | nil =>
      rw [List.intersperse_singleton, List.flatten_singleton, List.length_nil, Nat.zero_mul]
      omega
    | cons second rest =>
      have hcomma : Uploading.bytes [','] = 1 := by decide
      rw [List.intersperse_cons_cons, List.flatten_cons, List.flatten_cons, Uploading.bytes_append,
        Uploading.bytes_append, hcomma]
      omega

/-- The record of such a line is six times as long as its user agent, and a little more. -/
theorem length_agentText (n : ℕ) :
    6 * n ≤ (agentText n).length ∧ (agentText n).length ≤ 24 * (6 * n + 100) + 2 := by
  have hstring : Uploading.bytes (Uploading.jsonString (agent n)) = 6 * n + 2 := by
    have hquote : '"'.utf8Size = 1 := by decide
    have hend : Uploading.bytes ['"'] = 1 := by decide
    rw [Uploading.jsonString, List.cons_append, Uploading.bytes_cons, Uploading.bytes_append,
      bytes_agent, hquote, hend]
    omega
  have hfield : Uploading.bytes (Uploading.jsonField "user_agent"
      (Uploading.jsonString (agent n))) = 6 * n + 15 := by
    have hname : Uploading.bytes (Uploading.jsonString "user_agent") = 12 := by decide
    have hcolon : ':'.utf8Size = 1 := by decide
    rw [Uploading.jsonField, Uploading.bytes_append, Uploading.bytes_cons, hname, hcolon, hstring]
    omega
  rw [agentText, length_utf8, jsonAccessLogEvent]
  constructor
  · refine le_trans (by omega) (hfield.ge.trans (Uploading.bytes_object_of_mem ?_))
    simp only [agentEvent, List.mem_cons, true_or, or_true]
  · have hbrace : '{'.utf8Size = 1 := by decide
    have hend : Uploading.bytes ['}'] = 1 := by decide
    rw [Uploading.jsonObject, List.cons_append, Uploading.bytes_cons, Uploading.bytes_append,
      hbrace, hend]
    have hparts : ∀ fields : List (List Char), fields.length = 24 →
        (∀ field ∈ fields, Uploading.bytes field ≤ 6 * n + 99) →
        Uploading.bytes ((fields.intersperse [',']).flatten) ≤ 24 * (6 * n + 100) := by
      intro fields hcount hfields
      have hle := bytes_intersperse_le hfields
      rwa [hcount] at hle
    refine le_trans (Nat.add_le_add_left (Nat.add_le_add_right (hparts _ rfl ?_) _) _) (by omega)
    intro part hpart
    simp only [agentEvent, sampleEvent, List.mem_cons, List.not_mem_nil, or_false] at hpart
    rcases hpart with rfl | rfl | rfl | rfl | rfl | rfl | rfl | rfl | rfl | rfl | rfl | rfl | rfl |
      rfl | rfl | rfl | rfl | rfl | rfl | rfl | rfl | rfl | rfl | rfl
    all_goals
      first
        | exact le_trans (show _ ≤ 99 by decide) (by omega)
        | exact hfield.le.trans (by omega)

theorem length_agentLine (n : ℕ) : (agentLine n).length = n + 69 := by
  have hfront : Uploading.bytes
    "\x7b\"request_id\":\"r\",\"timestamp\":\"2026-01-01T00:00:00Z\",\"user_agent\":\"".toList = 67 := by
    decide
  have hback : Uploading.bytes "\"\x7d".toList = 2 := by decide
  rw [agentLine, length_utf8, Uploading.bytes_append, Uploading.bytes_append, bytes_replicate,
    hfront, hback]
  omega

theorem newline_not_mem_agentLine (n : ℕ) : newline ∉ agentLine n := by
  refine control_not_mem_utf8 (.append (.append ?_ fun c hc => ?_) ?_) (by decide)
  · exact printed_of_all (by decide)
  · rw [List.eq_of_mem_replicate hc]
    decide
  · exact printed_of_all (by decide)

/-- The log holds one such line, and nothing has been collected. -/
def agentLogged (n : ℕ) : State String :=
  { (initial : State String) with log := some (agentLine n ++ [newline]) }

theorem agent_scanned {n : ℕ} (hline : n + 70 ≤ maxScanTokenSize) :
    scanned (agentLine n ++ [newline]) 0 = ([agentLine n], false) := by
  have hcomplete := Lines.split_line_append (newline_not_mem_agentLine n) []
  have hlines : Lines.complete newline (agentLine n ++ [newline]) = [agentLine n] ∧
      Lines.rest newline (agentLine n ++ [newline]) = [] := by
    rw [Lines.complete, Lines.rest, hcomplete]
    exact ⟨rfl, rfl⟩
  have hlength := length_agentLine n
  have hfits : (agentLine n).length + 1 ≤ maxScanTokenSize := by omega
  have hstart : readFrom (agentLine n ++ [newline]) 0 = 0 := if_neg (Nat.not_lt_zero _)
  have htake : [agentLine n].takeWhile (fun line => decide (line.length + 1 ≤ maxScanTokenSize)) =
      [agentLine n] :=
    List.takeWhile_cons_of_pos (p := fun line : Bytes =>
      decide (line.length + 1 ≤ maxScanTokenSize))
      (decide_eq_true hfits)
  have hany : ([agentLine n].any fun line => decide (maxScanTokenSize < line.length + 1)) =
      false := by
    rw [List.any_cons, decide_eq_false (Nat.not_lt.mpr hfits)]
    rfl
  have hrest : decide (maxScanTokenSize ≤ ([] : Bytes).length) = false := by decide
  rw [scanned, hstart, List.drop_zero, scanLog, hlines.1, hlines.2, htake, hany, hrest]
  rfl

theorem agent_records (n : ℕ) : records (agentPackages n) (fun _ => "u") 0 [agentLine n] =
    [agentText n ++ [newline]] := by
  rw [records, agent_decoded]
  rfl

theorem agent_room {n : ℕ} (hline : n + 70 ≤ maxScanTokenSize)
    (hroom : 24 * (6 * n + 100) + 3 ≤ maxLogQueueBytes) :
    Room (agentPackages n) newLogForwarder (fun _ => "u") (agentLogged n) := by
  refine ⟨fun h => absurd rfl h, fun contents hcontents => ?_⟩
  obtain rfl := Option.some.inj hcontents
  have hstored : (agentLogged n).offset.getD 0 = 0 := rfl
  have hupper := (length_agentText n).2
  have hnone : total (agentLogged n).prepared.segments = 0 := rfl
  have hnext : ((agentLogged n).prepared.appender newLogForwarder).next = 0 := rfl
  have hlimit : newLogForwarder.queueLimit = maxLogQueueBytes := by decide
  rw [hstored, agent_scanned hline]
  refine ⟨?_, ?_⟩
  · rw [hnone, agent_records, hlimit, List.map_singleton, List.sum_singleton, List.length_append,
      List.length_singleton]
    omega
  · rw [hnext]
    exact (by decide : 0 + 1 ≤ maxSequence)

theorem agent_appended {n : ℕ} (hline : n + 70 ≤ maxScanTokenSize)
    (hroom : 24 * (6 * n + 100) + 3 ≤ maxLogQueueBytes) :
    (step (agentPackages n) newLogForwarder (agentLogged n) (.collect (fun _ => "u") [])).appended =
        [agentEvent n] ∧
      (step (agentPackages n) newLogForwarder (agentLogged n) (.collect (fun _ => "u") [])).acked =
        [] := by
  have hconsistent : Consistent (agentLogged n) := consistent_initial.of_eq rfl rfl
  have hstored : (agentLogged n).offset.getD 0 = 0 := rfl
  have hlog : (agentLogged n).log = some (agentLine n ++ [newline]) := rfl
  have hcollected := collectedTo_step hconsistent hlog (agent_room hline hroom)
  have hwritable : writable (agentPackages n) (agentLine n) = true := by
    rw [writable_eq (agent_decoded n "u")]
    rfl
  have hlines : collectedLines (agentPackages n) (agentLine n ++ [newline]) 0 = [agentLine n] := by
    rw [collectedLines, agent_scanned hline, List.takeWhile_cons_of_pos hwritable,
      List.takeWhile_nil]
  refine ⟨?_, hcollected.acked⟩
  rw [hcollected.appended, hstored, hlines, queuedEvents, List.zipIdx_cons, List.filterMap_cons,
    agent_decoded]
  rfl

/-- No chunk within the limit of the reader is read as an event whose text is over it. -/
theorem agent_not_pending {n : ℕ} (hlong : logQueueRecordBytes < 6 * n) (s : State String) :
    s.pending (agentPackages n) = [] := by
  have hchunk : ∀ chunk, recordEvent (agentPackages n) chunk = none := by
    intro chunk
    rw [recordEvent]
    split
    · rfl
    · next hne =>
      refine if_neg fun heq => ?_
      have hlower := (length_agentText n).1
      have htrim : ∀ (b : UInt8) (line : Bytes), (trimByte b line).length ≤ line.length := by
        intro b line
        rw [trimByte]
        split
        · rw [List.length_dropLast]
          omega
        · exact le_rfl
      have hlength : (recordLine chunk).length ≤ logQueueRecordBytes := by
        rw [recordLine]
        split
        · exact Nat.zero_le _
        · next hle => exact (htrim _ _).trans ((htrim _ _).trans (Nat.le_of_not_lt hle))
      have hsame : (recordLine chunk).length = (agentText n).length := congrArg List.length heq
      omega
  rw [State.pending, pendingIn, List.flatMap_eq_nil_iff]
  intro g _
  rw [eventsOf, List.filterMap_eq_nil_iff]
  exact fun chunk _ => hchunk chunk

theorem agent_skipped {n : ℕ} (hline : n + 70 ≤ maxScanTokenSize)
    (hroom : 24 * (6 * n + 100) + 3 ≤ maxLogQueueBytes) (hlong : logQueueRecordBytes < 6 * n) :
    ¬ ∀ actions : List Action, (∀ a ∈ actions, a.Current) →
      Along (step (agentPackages n) newLogForwarder)
        (Meets (agentPackages n) newLogForwarder True False) initial actions →
      BatchLaw (agentPackages n)
        (run (step (agentPackages n) newLogForwarder) initial actions) := by
  intro h
  have hclean : Clean (agentPackages n) newLogForwarder (fun _ => "u") (agentLogged n) := by
    intro contents stored _ _ record _ hpath
    cases hpath
  have hlaw := h [.write (agentLine n ++ [newline]), .collect (fun _ => "u") []]
    (fun a ha => by
      rcases List.mem_cons.mp ha with rfl | ha
      · trivial
      · rw [List.mem_singleton.mp ha]
        trivial)
    ⟨trivial, ⟨fun _ => hclean, False.elim⟩, trivial⟩
  obtain ⟨happended, hacked⟩ := agent_appended hline hroom
  have hstate : run (step (agentPackages n) newLogForwarder) initial
      [.write (agentLine n ++ [newline]), .collect (fun _ => "u") []] =
      step (agentPackages n) newLogForwarder (agentLogged n) (.collect (fun _ => "u") []) := rfl
  have hqueued := hlaw.queued
  rw [hstate, happended, State.history, hacked, agent_not_pending hlong] at hqueued
  cases List.sublist_nil.mp hqueued

/-- A line of four hundred thousand characters that are escaped is queued, and then skipped. -/
theorem escaped_line_skipped :
    (agentPackages 400000).Lawful ∧ ¬ ∀ actions : List Action, (∀ a ∈ actions, a.Current) →
      Along (step (agentPackages 400000) newLogForwarder)
        (Meets (agentPackages 400000) newLogForwarder True False) initial actions →
      BatchLaw (agentPackages 400000)
        (run (step (agentPackages 400000) newLogForwarder) initial actions) :=
  ⟨agent_lawful _, agent_skipped (by decide) (by decide) (by decide)⟩

/-- The same with one line that is not escaped. -/
theorem batches_fit_line :
    Always (step samplePackages newLogForwarder) (BatchLaw samplePackages) initial
      [.write (sampleLine ++ [newline]), .collect (fun _ => "u") [], .flush []] := by
  refine batches_fit samplePackages sample_lawful ?_
    ⟨trivial, ⟨fun _ => ?_, fun _ => sample_recordsFit rfl rfl⟩, trivial, trivial⟩
  · simp [Action.Current]
  · intro contents stored _ _ record _ hpath
    cases hpath

end SimpleCdn.LogQueue
