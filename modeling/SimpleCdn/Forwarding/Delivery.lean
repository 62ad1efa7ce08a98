import Mathlib.Data.List.Infix
import SimpleCdn.Forwarding.System

/-!
# Delivery of the lines

The history of the queue is what has been acknowledged followed by what is still to be read.  As
long as no record is written behind an unfinished one it only grows at its end: every event that has
been queued is found in it, and every batch is a stretch of it that begins where the one before has
been acknowledged, or begins there once more.
-/

namespace SimpleCdn.LogQueue

open Crash Crash.Prog AccessLog Relation Transition

section

variable {Time : Type} (packages : LogPackages Time)

/-- The events of a text. -/
def eventsOf (text : Bytes) : List (AccessLogEvent Time) :=
  (Lines.chunks newline text).filterMap (recordEvent packages)

def pendingIn (cursor : Option Cursor) (segments : List Segment) : List (AccessLogEvent Time) :=
  segments.flatMap fun g => eventsOf packages (g.contents.drop (startIn cursor g))

/-- The events that are still to be read from the queue. -/
def State.pending (s : State Time) : List (AccessLogEvent Time) :=
  pendingIn packages s.cursor s.segments

/-- The events the queue has held, in order. -/
def State.history (s : State Time) : List (AccessLogEvent Time) :=
  s.acked ++ s.pending packages

end

section

variable {Time : Type} {packages : LogPackages Time} {f : LogForwarder} {whole fits : Prop}
  {s s' : State Time}

theorem eventsOf_append {a : Bytes} (h : Lines.Ended newline a) (b : Bytes) :
    eventsOf packages (a ++ b) = eventsOf packages a ++ eventsOf packages b := by
  rw [eventsOf, h.chunks_append, List.filterMap_append, eventsOf, eventsOf]

theorem pendingIn_append (cursor : Option Cursor) (a b : List Segment) :
    pendingIn packages cursor (a ++ b) =
      pendingIn packages cursor a ++ pendingIn packages cursor b :=
  List.flatMap_append

theorem pendingIn_singleton (cursor : Option Cursor) (g : Segment) :
    pendingIn packages cursor [g] = eventsOf packages (g.contents.drop (startIn cursor g)) := by
  rw [pendingIn, List.flatMap_singleton]

theorem pendingIn_cons (cursor : Option Cursor) (g : Segment) (others : List Segment) :
    pendingIn packages cursor (g :: others) =
      eventsOf packages (g.contents.drop (startIn cursor g)) ++ pendingIn packages cursor others :=
  List.flatMap_cons

/-- A cursor that is in none of the segments does not matter. -/
theorem pendingIn_congr {c c' : Option Cursor} {segments : List Segment}
    (h : ∀ g ∈ segments, startIn c g = startIn c' g) :
    pendingIn packages c segments = pendingIn packages c' segments := by
  rw [pendingIn, pendingIn]
  refine List.flatMap_congr fun g hg => ?_
  rw [h g hg]

/-! ### The record of an event -/

theorem getLast?_marshal {event : AccessLogEvent Time} {text : Bytes}
    (h : marshal packages event = some text) : text.getLast? = some 0x7D := by
  obtain ⟨timeText, -, rfl⟩ := Option.map_eq_some_iff.mp h
  rw [jsonAccessLogEvent, Uploading.jsonObject, utf8, List.cons_append, List.flatMap_cons,
    List.flatMap_append, ← List.append_assoc]
  exact List.getLast?_concat

theorem trimByte_concat (b : UInt8) (line : Bytes) : trimByte b (line ++ [b]) = line := by
  rw [trimByte, if_pos List.getLast?_concat, List.dropLast_concat]

/-- A record that is not too large is read as its event. -/
theorem recordEvent_marshal (hlawful : packages.Lawful) {event : AccessLogEvent Time} {text : Bytes}
    (h : Recorded packages event text)
    (hfits : (text ++ [newline]).length ≤ logQueueRecordBytes) :
    recordEvent packages (text ++ [newline]) = some event := by
  have hlast := getLast?_marshal h.2
  have hline : recordLine (text ++ [newline]) = text := by
    rw [recordLine, if_neg (Nat.not_lt.mpr hfits), trimByte_concat, trimByte, hlast, if_neg]
    decide
  rw [recordEvent, hline, if_neg (marshal_ne_nil h.2)]
  exact hlawful.unmarshal_marshal _ _ h

theorem eventsOf_record (hlawful : packages.Lawful) {event : AccessLogEvent Time} {text : Bytes}
    (h : Recorded packages event text)
    (hfits : (text ++ [newline]).length ≤ logQueueRecordBytes) :
    eventsOf packages (text ++ [newline]) = [event] := by
  rw [eventsOf, Lines.chunks_line (newline_not_mem_marshal h.2),
    List.filterMap_cons_some (recordEvent_marshal hlawful h hfits), List.filterMap_nil]

/-! ### Moves extend the history -/

theorem history_write (hs : Consistent s) {g : Segment} (hg : s.segments.getLast? = some g)
    (hended : Lines.Ended newline (s.unread g)) (bytes : Bytes) :
    (s.write g.sequence bytes).history packages =
      s.history packages ++ eventsOf packages bytes := by
  have hstart := hs.startIn_le (List.mem_of_getLast? hg)
  have hunread : (g.contents ++ bytes).drop (startIn s.cursor g) = s.unread g ++ bytes :=
    List.drop_append_of_le_length hstart
  have hpending : (s.write g.sequence bytes).pending packages =
      s.pending packages ++ eventsOf packages bytes := by
    rw [State.pending, hs.segments_write hg, State.pending]
    conv_rhs => rw [segments_eq_of_getLast? hg]
    rw [pendingIn_append, pendingIn_append, pendingIn_singleton, pendingIn_singleton,
      List.append_assoc]
    congr 1
    exact (congrArg _ hunread).trans (eventsOf_append hended bytes)
  rw [State.history, hpending, State.history, List.append_assoc]
  rfl

theorem history_add {g : Segment} (hcursor : s'.cursor = s.cursor) (hacked : s'.acked = s.acked)
    (hsegments : s'.segments = s.segments ++ [g]) :
    s.history packages <+: s'.history packages := by
  rw [State.history, State.history, State.pending, State.pending, hcursor, hacked, hsegments,
    pendingIn_append, ← List.append_assoc]
  exact List.prefix_append _ _

theorem startIn_eq_zero_of_lt {c : Cursor} {g : Segment} (h : c.segment < g.sequence) :
    startIn (some c) g = 0 := by
  refine startIn_of_ne fun d hd => ?_
  obtain rfl := Option.some.inj hd
  exact h.ne

/-- What has been read is taken off the front. -/
theorem pending_eq {batch : Batch Time} (hs : Consistent s) (h : NextBatch packages s batch) :
    s.pending packages = batch.events ++ (s.acknowledge batch).pending packages := by
  obtain ⟨others, hsegments⟩ := List.head?_eq_some_iff.mp h.segment
  obtain ⟨m, hfinish, hevents⟩ := h.read
  have hordered := hs.ordered
  rw [hsegments] at hordered
  -- the other segments are read from their beginning, before and after
  have hothers : pendingIn packages s.cursor others =
      pendingIn packages (some ⟨batch.segment.sequence, batch.finish⟩) others := by
    refine pendingIn_congr fun g hg => ?_
    have hlt : batch.segment.sequence < g.sequence := List.rel_of_pairwise_cons hordered hg
    rw [startIn_eq_zero_of_lt hlt]
    refine startIn_of_ne fun c hc => ?_
    exact ((hs.oldest c hc _ h.mem).trans_lt hlt).ne
  have hstart : startIn (some ⟨batch.segment.sequence, batch.finish⟩) batch.segment =
      batch.finish := startIn_cursor rfl
  have hunread : batch.segment.contents.drop batch.finish = (s.unread batch.segment).drop
      ((Lines.chunks newline (s.unread batch.segment)).take m).flatten.length := by
    rw [State.unread, List.drop_drop, hfinish]
    rfl
  have hrest : eventsOf packages (batch.segment.contents.drop batch.finish) =
      ((Lines.chunks newline (s.unread batch.segment)).drop m).filterMap
        (recordEvent packages) := by
    rw [eventsOf, hunread, Lines.chunks_drop_chunks]
  have hsplit : eventsOf packages (s.unread batch.segment) =
      batch.events ++ eventsOf packages (batch.segment.contents.drop batch.finish) := by
    rw [hrest, hevents, ← List.filterMap_append, List.take_append_drop]
    rfl
  have hacked : (s.acknowledge batch).pending packages =
      eventsOf packages (batch.segment.contents.drop batch.finish) ++
        pendingIn packages s.cursor others := by
    rw [State.pending, State.acknowledge]
    dsimp only
    rw [hsegments, pendingIn_cons, hstart, hothers]
  rw [hacked, ← List.append_assoc, ← hsplit, State.pending, hsegments, pendingIn_cons]
  rfl

theorem history_acknowledge {batch : Batch Time} (hs : Consistent s)
    (h : NextBatch packages s batch) :
    (s.acknowledge batch).history packages = s.history packages := by
  rw [State.history, State.history, pending_eq hs h, ← List.append_assoc]
  rfl

theorem history_remove (hs : Consistent s) {g : Segment} (hg : s.segments.head? = some g)
    (hc : s.cursor = some ⟨g.sequence, g.size⟩) :
    (s.remove g.sequence).history packages = s.history packages := by
  obtain ⟨others, hsegments⟩ := List.head?_eq_some_iff.mp hg
  have hordered := hs.ordered
  rw [hsegments] at hordered
  have hothers : (s.remove g.sequence).segments = others := by
    rw [State.remove]
    dsimp only
    rw [hsegments, List.filter_cons_of_neg (by simp), List.filter_eq_self]
    exact fun g' hg' => decide_eq_true (List.rel_of_pairwise_cons hordered hg').ne'
  have hnone : eventsOf packages (g.contents.drop (startIn s.cursor g)) = [] := by
    have hstart : startIn s.cursor g = g.size := by rw [hc, startIn_cursor rfl]
    rw [hstart, Segment.size, List.drop_length]
    rfl
  rw [State.history, State.history, State.pending, State.pending, hothers, hsegments,
    pendingIn_cons, hnone, List.nil_append]
  rfl

theorem Move.history_isPrefix (h : Move packages f whole fits s s') (hwhole : whole)
    (hs : Consistent s) : s.history packages <+: s'.history packages := by
  cases h with
  | dropLegacy _ => exact List.prefix_rfl
  | @migrate n contents hlegacy _ =>
    refine history_add (g := ⟨n, contents⟩) rfl rfl ?_
    rw [State.migrate, hlegacy]
    rfl
  | @create n _ _ => exact history_add (g := ⟨n, []⟩) rfl rfl rfl
  | cut k h =>
    rw [history_write hs h.latest (h.whole hwhole)]
    exact List.prefix_append _ _
  | @append g line event text uuid _ _ h =>
    have hwrite : (s.write g.sequence (text ++ [newline])).history packages =
        s.history packages ++ eventsOf packages (text ++ [newline]) :=
      history_write hs h.latest (h.whole hwhole) _
    exact ⟨_, hwrite.symm⟩
  | skip _ => exact List.prefix_rfl
  | openLog _ => exact List.prefix_rfl
  | advance _ => exact List.prefix_rfl
  | upload _ _ hs' =>
    rw [writeLogs] at hs'
    split at hs'
    · cases hs'
    · obtain rfl := Option.some.inj hs'
      exact List.prefix_rfl
  | acknowledge h _ => exact history_acknowledge hs h ▸ List.prefix_rfl
  | remove hg hc => exact history_remove hs hg hc ▸ List.prefix_rfl

theorem Path.history_isPrefix (h : Path packages f whole fits s s') (hwhole : whole)
    (hs : Consistent s) : s.history packages <+: s'.history packages := by
  induction h with
  | refl => exact List.prefix_rfl
  | tail hpath hmove ih => exact ih.trans (hmove.history_isPrefix hwhole (Path.consistent hpath hs))

/-! ### The law -/

/-- A line that has been read is queued as its event, if it has one. -/
def Decoded (packages : LogPackages Time) (read : Bytes × Option (AccessLogEvent Time)) : Prop :=
  ∃ uuid, decodeNginxLog packages uuid read.1 = read.2

/-- What has become of the lines and the events. -/
structure Delivered (packages : LogPackages Time) (s : State Time) : Prop where
  /-- The events of the lines that have been passed are among those queued, in their order. -/
  passed : ((s.passed ++ s.taken).filterMap Prod.snd).Sublist s.appended
  decoded : ∀ read ∈ s.passed ++ s.taken, Decoded packages read
  /-- What has been queued is still in the queue, behind the cursor, or has been acknowledged. -/
  appended : s.appended.Sublist (s.history packages)
  /-- What has been acknowledged has been accepted. -/
  accepted : ∀ event ∈ s.acked, ∃ upload ∈ s.uploads, event ∈ upload.events
  /-- The batches are stretches of the history, none of which begins before an earlier one. -/
  stretches : ∀ upload ∈ s.uploads, upload.start ≤ s.acked.length ∧
    upload.events <+: (s.history packages).drop upload.start
  inOrder : s.uploads.Pairwise fun a b => a.start ≤ b.start

theorem Delivered.of_extends (h : Delivered packages s)
    (hhistory : s.history packages <+: s'.history packages) (hpassed : s'.passed = s.passed)
    (htaken : s'.taken = s.taken) (happended : s'.appended = s.appended)
    (hacked : s'.acked = s.acked)
    (huploads : s'.uploads = s.uploads) : Delivered packages s' where
  passed := by
    rw [hpassed, htaken, happended]
    exact h.passed
  decoded := by
    rw [hpassed, htaken]
    exact h.decoded
  appended := by
    rw [happended]
    exact h.appended.trans hhistory.sublist
  accepted := by
    rw [hacked, huploads]
    exact h.accepted
  stretches := by
    rw [hacked, huploads]
    exact fun upload hupload => ⟨(h.stretches upload hupload).1,
      (h.stretches upload hupload).2.trans (hhistory.drop _)⟩
  inOrder := by
    rw [huploads]
    exact h.inOrder

/-- The lines that are being read, with nothing else changed. -/
theorem Delivered.of_lines (h : Delivered packages s)
    (hhistory : s'.history packages = s.history packages)
    (hpassed : ((s'.passed ++ s'.taken).filterMap Prod.snd).Sublist s.appended)
    (hdecoded : ∀ read ∈ s'.passed ++ s'.taken, Decoded packages read)
    (happended : s'.appended = s.appended) (hacked : s'.acked = s.acked)
    (huploads : s'.uploads = s.uploads) : Delivered packages s' where
  passed := happended ▸ hpassed
  decoded := hdecoded
  appended := by
    rw [happended, hhistory]
    exact h.appended
  accepted := by
    rw [hacked, huploads]
    exact h.accepted
  stretches := by
    rw [hacked, huploads, hhistory]
    exact h.stretches
  inOrder := huploads ▸ h.inOrder

theorem Delivered.append (h : Delivered packages s) {line : Bytes} {event : AccessLogEvent Time}
    {uuid : String} (hdecoded : decodeNginxLog packages uuid line = some event) {s₁ : State Time}
    (hhistory : s₁.history packages = s.history packages ++ [event])
    (hpassed : s₁.passed = s.passed)
    (htaken : s₁.taken = s.taken) (happended : s₁.appended = s.appended)
    (hacked : s₁.acked = s.acked)
    (huploads : s₁.uploads = s.uploads) : Delivered packages (s₁.take line (some event)) where
  passed := by
    rw [State.take]
    dsimp only
    rw [hpassed, htaken, happended, ← List.append_assoc, List.filterMap_append]
    exact h.passed.append (List.Sublist.refl [event])
  decoded := by
    intro read hread
    rw [State.take] at hread
    dsimp only at hread
    rw [hpassed, htaken, ← List.append_assoc] at hread
    rcases List.mem_append.mp hread with hread | hread
    · exact h.decoded read hread
    · obtain rfl := List.mem_singleton.mp hread
      exact ⟨uuid, hdecoded⟩
  appended := by
    have hsame : (s₁.take line (some event)).history packages = s₁.history packages := rfl
    rw [hsame, hhistory, State.take]
    dsimp only
    rw [happended]
    exact h.appended.append (List.Sublist.refl [event])
  accepted := by
    rw [State.take]
    dsimp only
    rw [hacked, huploads]
    exact h.accepted
  stretches := by
    have hsame : (s₁.take line (some event)).history packages = s₁.history packages := rfl
    rw [hsame, hhistory, State.take]
    dsimp only
    rw [hacked, huploads]
    refine fun upload hupload => ⟨(h.stretches upload hupload).1, ?_⟩
    exact (h.stretches upload hupload).2.trans ((List.prefix_append _ _).drop _)
  inOrder := by
    rw [State.take]
    dsimp only
    rw [huploads]
    exact h.inOrder

/-- Every move that keeps to the assumptions keeps the law. -/
theorem Move.delivered (h : Move packages f whole fits s s') (hlawful : packages.Lawful)
    (hwhole : whole) (hfits : fits) (hs : Consistent s) (hd : Delivered packages s) :
    Delivered packages s' := by
  have hextends := h.history_isPrefix hwhole hs
  cases h with
  | append hdecoded htext h =>
    refine hd.append hdecoded ?_ rfl rfl rfl rfl rfl
    rw [history_write hs h.latest (h.whole hwhole),
      eventsOf_record hlawful ⟨⟨_, _, hdecoded⟩, htext⟩ (h.fits hfits)]
  | @skip line uuid hdecoded =>
    refine hd.of_lines rfl ?_ ?_ (List.append_nil _) rfl rfl
    · rw [State.take]
      dsimp only
      rw [← List.append_assoc, List.filterMap_append]
      simpa using hd.passed
    · intro read hread
      rw [State.take] at hread
      dsimp only at hread
      rw [← List.append_assoc] at hread
      rcases List.mem_append.mp hread with hread | hread
      · exact hd.decoded read hread
      · obtain rfl := List.mem_singleton.mp hread
        exact ⟨uuid, hdecoded⟩
  | openLog stored =>
    refine hd.of_lines rfl ?_ ?_ rfl rfl rfl
    · rw [State.open]
      dsimp only
      rw [List.append_nil]
      exact (((List.sublist_append_left s.passed s.taken).filterMap _).trans hd.passed)
    · rw [State.open]
      dsimp only
      rw [List.append_nil]
      exact fun read hread => hd.decoded read (List.mem_append_left _ hread)
  | advance position =>
    refine hd.of_lines rfl ?_ ?_ rfl rfl rfl
    · rw [State.advance]
      dsimp only
      rw [List.append_nil]
      exact hd.passed
    · rw [State.advance]
      dsimp only
      rw [List.append_nil]
      exact hd.decoded
  | @upload batch hbatch payload _ _ hs' =>
    rw [writeLogs] at hs'
    split at hs'
    · cases hs'
    · obtain rfl := Option.some.inj hs'
      refine ⟨hd.passed, hd.decoded, hd.appended, ?_, ?_, ?_⟩
      · intro event hevent
        obtain ⟨upload, hupload, hmem⟩ := hd.accepted event hevent
        exact ⟨upload, List.mem_append_left _ hupload, hmem⟩
      · intro upload hupload
        rcases List.mem_append.mp hupload with hupload | hupload
        · exact hd.stretches upload hupload
        · obtain rfl := List.mem_singleton.mp hupload
          refine ⟨le_rfl, ?_⟩
          have hdrop : (s.history packages).drop s.acked.length = s.pending packages :=
            List.drop_left
          change batch.events <+: (s.history packages).drop s.acked.length
          rw [hdrop, pending_eq hs hbatch]
          exact List.prefix_append _ _
      · rw [List.pairwise_append]
        refine ⟨hd.inOrder, List.pairwise_singleton _ _, fun a ha b hb => ?_⟩
        obtain rfl := List.mem_singleton.mp hb
        exact (hd.stretches a ha).1
  | @acknowledge batch hbatch huploaded =>
    refine ⟨hd.passed, hd.decoded, hd.appended.trans hextends.sublist, ?_, ?_, hd.inOrder⟩
    · intro event hevent
      rcases List.mem_append.mp hevent with hevent | hevent
      · exact hd.accepted event hevent
      · exact ⟨_, huploaded (List.ne_nil_of_mem hevent), hevent⟩
    · intro upload hupload
      refine ⟨(hd.stretches upload hupload).1.trans ?_, ?_⟩
      · rw [State.acknowledge]
        dsimp only
        rw [List.length_append]
        exact Nat.le_add_right _ _
      · rw [history_acknowledge hs hbatch]
        exact (hd.stretches upload hupload).2
  | _ => exact hd.of_extends hextends rfl rfl rfl rfl rfl

theorem Path.delivered (h : Path packages f whole fits s s') (hlawful : packages.Lawful)
    (hwhole : whole) (hfits : fits) (hs : Consistent s) (hd : Delivered packages s) :
    Delivered packages s' := by
  induction h with
  | refl => exact hd
  | tail hpath hmove ih => exact hmove.delivered hlawful hwhole hfits (Path.consistent hpath hs) ih

/-! ### Runs -/

theorem delivered_initial : Delivered packages (initial : State Time) where
  passed := List.Sublist.refl []
  decoded := fun _ h => absurd h List.not_mem_nil
  appended := List.Sublist.refl []
  accepted := fun _ h => absurd h List.not_mem_nil
  stretches := fun _ h => absurd h List.not_mem_nil
  inOrder := .nil

theorem delivered_step (hlawful : packages.Lawful) (hs : Consistent s) (hd : Delivered packages s)
    {a : Action} (h : Meets packages f True True s a) :
    Delivered packages (step packages f s a) := by
  rcases step_cases hs h with hpath | hlog | ⟨contents, rfl⟩
  · exact hpath.delivered hlawful trivial trivial hs hd
  · rw [hlog]
    exact hd.of_extends List.prefix_rfl rfl rfl rfl rfl rfl
  · exact hd.of_extends List.prefix_rfl rfl rfl rfl rfl rfl

/-- When no `Collect` of a run queues a record behind an unfinished one, and the records are within
the limit of the reader, the events of all lines that the offset has passed are in the queue or have
been accepted, whatever fails and wherever the process stops; and they are uploaded in order. -/
theorem log_delivery (packages : LogPackages Time) (hlawful : packages.Lawful) (f : LogForwarder)
    {actions : List Action}
    (h : Along (step packages f) (Meets packages f True True) initial actions) :
    Always (step packages f) (Delivered packages) initial actions ∧
      Along (step packages f) (fun s a => Passes s (step packages f s a)) initial actions := by
  constructor
  · refine (Along.always (P := fun s => Consistent s ∧ Delivered packages s) ?_
      ⟨consistent_initial, delivered_initial⟩ h).mono fun s hs => hs.2
    rintro s a ⟨hs, hd⟩ hmeets
    exact ⟨consistent_step hs a, delivered_step hlawful hs hd hmeets⟩
  · exact h.of_invariant (P := Consistent) (fun s a hs _ => consistent_step hs a)
      (fun s a hs _ => passes_step hs a) consistent_initial

end

/-! ### A record behind an unfinished one -/

/-- A line is written and collected, and collected once more after the process has stopped having
written the first byte of the record. -/
def tornRun : List Action :=
  [.write (sampleLine ++ [newline]),
    .collect (fun _ => "u") (List.replicate 9 .none ++ [.stopsAfter]), .collect (fun _ => "u") []]

theorem sample_recordsFit {s : State String} (hlog : s.log = some (sampleLine ++ [newline]))
    (hoffset : s.offset = none) : RecordsFit samplePackages (fun _ => "u") s := by
  intro contents stored hcontents hstored record hrecord
  obtain rfl := Option.some.inj (hlog.symm.trans hcontents)
  obtain rfl : stored = 0 := by
    rw [State.Stored, hoffset] at hstored
    exact hstored.elim id id
  have hrecords : records samplePackages (fun _ => "u") 0
      (scanned (sampleLine ++ [newline]) 0).1 = [sampleText ++ [newline]] := by decide +kernel
  rw [hrecords, List.mem_singleton] at hrecord
  rw [hrecord]
  decide +kernel

/-- The record of a line that has been passed is lost. -/
theorem torn_record_lost :
    ¬ ∀ actions, Along (step samplePackages newLogForwarder)
        (Meets samplePackages newLogForwarder False True) initial actions →
      Delivered samplePackages (run (step samplePackages newLogForwarder) initial actions) := by
  intro h
  have hdelivered := h tornRun ⟨trivial, ⟨False.elim, fun _ => sample_recordsFit rfl rfl⟩,
    ⟨False.elim, fun _ => sample_recordsFit (by decide +kernel) (by decide +kernel)⟩, trivial⟩
  have hlost : (run (step samplePackages newLogForwarder) initial tornRun).history samplePackages =
      [] := by decide +kernel
  have hpassed : (run (step samplePackages newLogForwarder) initial tornRun).passed =
      [(sampleLine, some sampleEvent)] := by decide +kernel
  have hsublist := hdelivered.passed.trans hdelivered.appended
  rw [hlost, hpassed, List.filterMap_append] at hsublist
  have hnone := (List.append_eq_nil_iff.mp (List.sublist_nil.mp hsublist)).1
  exact absurd hnone (List.cons_ne_nil sampleEvent [])

/-- The same line collected and uploaded without a fault. -/
theorem log_delivery_line :
    Always (step samplePackages newLogForwarder) (Delivered samplePackages) initial
        [.write (sampleLine ++ [newline]), .collect (fun _ => "u") [], .flush []] ∧
      Along (step samplePackages newLogForwarder)
        (fun s a => Passes s (step samplePackages newLogForwarder s a)) initial
        [.write (sampleLine ++ [newline]), .collect (fun _ => "u") [], .flush []] := by
  refine log_delivery samplePackages sample_lawful newLogForwarder
    ⟨trivial, ⟨fun _ => ?_, fun _ => sample_recordsFit rfl rfl⟩, trivial, trivial⟩
  intro contents stored _ _ record _ hpath
  cases hpath

end SimpleCdn.LogQueue
