import Mathlib.Data.List.Pairwise
import Mathlib.Logic.Relation
import SimpleCdn.Edge.LogForwarder

/-!
# What the operations do to the queue

The queue in the abstract: a row of segments in ascending order, of which a cursor has cut off what
is acknowledged.  A `Move` is what one operation of the forwarder does to it.  Segments are added
behind all others and above the cursor, records are written at the end of the last segment, and
batches are taken off the front.

`whole` and `fits` are assumptions about what is written: that no record follows an unfinished one,
and that every record is within the reader's limit.  They are what the two properties of the content
need; the order of the segments and the cursor does without them.
-/

namespace SimpleCdn.LogQueue

open AccessLog Relation

section

variable {Time : Type}

/-- The part of a segment behind the cursor. -/
def State.unread (s : State Time) (g : Segment) : Bytes :=
  g.contents.drop (startIn s.cursor g)

/-- A number above every segment and the cursor. -/
def State.Unused (s : State Time) (n : ℕ) : Prop :=
  (∀ g ∈ s.segments, g.sequence < n) ∧ ∀ c, s.cursor = some c → c.segment < n

/-- The segments ascend, and the cursor is in the oldest one or before it. -/
structure Consistent (s : State Time) : Prop where
  ordered : s.segments.Pairwise fun a b => a.sequence < b.sequence
  oldest : ∀ c, s.cursor = some c → ∀ g ∈ s.segments, c.segment ≤ g.sequence
  within : ∀ c, s.cursor = some c → ∀ g ∈ s.segments, c.segment = g.sequence → c.offset ≤ g.size

variable (packages : LogPackages Time)

/-- The batch holds the events of the first unread chunks of the oldest segment. -/
structure NextBatch (s : State Time) (batch : Batch Time) : Prop where
  segment : s.segments.head? = some batch.segment
  read : ∃ m, batch.finish = startIn s.cursor batch.segment +
      ((Lines.chunks newline (s.unread batch.segment)).take m).flatten.length ∧
    batch.events = ((Lines.chunks newline (s.unread batch.segment)).take m).filterMap
      (recordEvent packages)

variable (f : LogForwarder) (whole fits : Prop)

/-- A record can be written to the last segment. -/
structure Ready (s : State Time) (g : Segment) (record : Bytes) : Prop where
  latest : s.segments.getLast? = some g
  legacy : s.legacy = none
  room : total s.segments + record.length ≤ f.queueLimit
  whole : whole → Lines.Ended newline (s.unread g)
  fits : fits → record.length ≤ logQueueRecordBytes
  event : ∃ event text, Recorded packages event text ∧ record = text ++ [newline]

inductive Move (s : State Time) : State Time → Prop
  | dropLegacy (h : s.legacy = some []) : Move s { s with legacy := none }
  | migrate {n : ℕ} {contents : Bytes} (h : s.legacy = some contents) (hnew : s.Unused n) :
    Move s (s.migrate n)
  | create {n : ℕ} (hlegacy : s.legacy = none) (hnew : s.Unused n) : Move s (s.create n)
  /-- A part of a record. -/
  | cut {g : Segment} {record : Bytes} (k : ℕ) (h : Ready packages f whole fits s g record) :
    Move s (s.write g.sequence (record.take k))
  | append {g : Segment} {line : Bytes} {event : AccessLogEvent Time} {text : Bytes} {uuid : String}
    (hdecoded : decodeNginxLog packages uuid line = some event)
    (htext : marshal packages event = some text)
    (h : Ready packages f whole fits s g (text ++ [newline])) :
    Move s ((s.write g.sequence (text ++ [newline])).take line (some event))
  | skip {line : Bytes} {uuid : String} (hdecoded : decodeNginxLog packages uuid line = none) :
    Move s (s.take line none)
  | openLog (stored : ℕ) : Move s (s.open stored)
  | advance (position : ℕ) : Move s (s.advance position)
  | upload {batch : Batch Time} (h : NextBatch packages s batch) {payload : Bytes}
    (hpayload : marshalBatch packages batch.events = some payload) {s' : State Time}
    (hs' : writeLogs payload batch.events s = some s') : Move s s'
  | acknowledge {batch : Batch Time} (h : NextBatch packages s batch)
    (huploaded : batch.events ≠ [] → ⟨s.acked.length, batch.events⟩ ∈ s.uploads) :
    Move s (s.acknowledge batch)
  | remove {g : Segment} (hg : s.segments.head? = some g)
    (hc : s.cursor = some ⟨g.sequence, g.size⟩) : Move s (s.remove g.sequence)

/-- Any number of moves. -/
abbrev Path : State Time → State Time → Prop := ReflTransGen (Move packages f whole fits)

end

/-! ### Facts about the segments -/

section

variable {Time : Type} {s : State Time} {g : Segment}

theorem startIn_of_ne {c : Option Cursor} (h : ∀ d, c = some d → d.segment ≠ g.sequence) :
    startIn c g = 0 := by
  cases c with
  | none => rfl
  | some d => simp [startIn, Option.filter, h d rfl]

theorem startIn_cursor {c : Cursor} (h : c.segment = g.sequence) :
    startIn (some c) g = c.offset := by
  simp [startIn, Option.filter, h]

theorem Consistent.startIn_le (h : Consistent s) (hg : g ∈ s.segments) :
    startIn s.cursor g ≤ g.size := by
  cases hc : s.cursor with
  | none => exact Nat.zero_le _
  | some c =>
    by_cases heq : c.segment = g.sequence
    · rw [startIn_cursor heq]
      exact h.within c hc g hg heq
    · rw [startIn_of_ne]
      · exact Nat.zero_le _
      · rintro d hd
        obtain rfl := Option.some.inj hd
        exact heq

theorem Consistent.sorted_eq (h : Consistent s) : s.sorted = s.segments := by
  refine List.mergeSort_of_pairwise (h.ordered.imp fun hlt => ?_)
  exact decide_eq_true hlt.le

theorem segments_eq_of_getLast? (h : s.segments.getLast? = some g) :
    s.segments = s.segments.dropLast ++ [g] := by
  rw [List.dropLast_append_getLast? g h]

/-- Only the last segment is extended. -/
theorem Consistent.segments_write (h : Consistent s) (hlast : s.segments.getLast? = some g)
    (bytes : Bytes) : (s.write g.sequence bytes).segments =
      s.segments.dropLast ++ [{ g with contents := g.contents ++ bytes }] := by
  have hsegments := segments_eq_of_getLast? hlast
  have hbefore : ∀ g' ∈ s.segments.dropLast, g'.sequence ≠ g.sequence := by
    intro g' hg'
    have hordered := h.ordered
    rw [hsegments, List.pairwise_append] at hordered
    exact (hordered.2.2 g' hg' g (List.mem_singleton_self g)).ne
  rw [State.write]
  dsimp only
  conv_lhs => rw [hsegments]
  rw [List.map_append, List.map_singleton, if_pos rfl]
  congr 1
  exact (List.map_congr_left fun g' hg' => if_neg (hbefore g' hg')).trans (List.map_id _)

/-- Segments of the same numbers, each at least as long as before. -/
theorem Consistent.of_longer {s s' : State Time} (h : Consistent s)
    (hcursor : s'.cursor = s.cursor)
    (hsegments : ∀ g' ∈ s'.segments, ∃ g ∈ s.segments, g'.sequence = g.sequence ∧ g.size ≤ g'.size)
    (hordered : s'.segments.Pairwise fun a b => a.sequence < b.sequence) : Consistent s' where
  ordered := hordered
  oldest := by
    intro c hc g' hg'
    obtain ⟨g, hg, hsequence, -⟩ := hsegments g' hg'
    rw [hsequence]
    exact h.oldest c (hcursor ▸ hc) g hg
  within := by
    intro c hc g' hg' heq
    obtain ⟨g, hg, hsequence, hsize⟩ := hsegments g' hg'
    exact (h.within c (hcursor ▸ hc) g hg (heq.trans hsequence)).trans hsize

/-- A segment with an unused number. -/
theorem Consistent.add {s s' : State Time} (h : Consistent s) (hcursor : s'.cursor = s.cursor)
    (hnew : s.Unused g.sequence) (hsegments : s'.segments = s.segments ++ [g]) :
    Consistent s' where
  ordered := by
    rw [hsegments, List.pairwise_append]
    refine ⟨h.ordered, List.pairwise_singleton _ _, fun g' hg' g'' hg'' => ?_⟩
    rw [List.mem_singleton.mp hg'']
    exact hnew.1 g' hg'
  oldest := by
    intro c hc g' hg'
    rw [hcursor] at hc
    rw [hsegments] at hg'
    rcases List.mem_append.mp hg' with hg' | hg'
    · exact h.oldest c hc g' hg'
    · rw [List.mem_singleton.mp hg']
      exact (hnew.2 c hc).le
  within := by
    intro c hc g' hg' heq
    rw [hcursor] at hc
    rw [hsegments] at hg'
    rcases List.mem_append.mp hg' with hg' | hg'
    · exact h.within c hc g' hg' heq
    · rw [List.mem_singleton.mp hg'] at heq
      exact absurd heq (hnew.2 c hc).ne

theorem Consistent.write (h : Consistent s) (hlast : s.segments.getLast? = some g)
    (bytes : Bytes) : Consistent (s.write g.sequence bytes) := by
  refine h.of_longer rfl (fun g' hg' => ?_) ?_
  · rw [State.write, List.mem_map] at hg'
    obtain ⟨g₀, hg₀, rfl⟩ := hg'
    refine ⟨g₀, hg₀, ?_⟩
    split
    · exact ⟨rfl, by simp [Segment.size]⟩
    · exact ⟨rfl, le_rfl⟩
  · rw [State.write, List.pairwise_map]
    refine h.ordered.imp fun {a b} hlt => ?_
    split <;> split <;> exact hlt

theorem Consistent.of_sublist {s s' : State Time} (h : Consistent s)
    (hcursor : s'.cursor = s.cursor) (hsegments : s'.segments.Sublist s.segments) :
    Consistent s' :=
  h.of_longer hcursor (fun g' hg' => ⟨g', hsegments.subset hg', rfl, le_rfl⟩)
    (h.ordered.sublist hsegments)

/-- Nothing but the lines, the log and the uploads has changed. -/
theorem Consistent.of_eq {s s' : State Time} (h : Consistent s) (hcursor : s'.cursor = s.cursor)
    (hsegments : s'.segments = s.segments) : Consistent s' :=
  h.of_sublist hcursor (hsegments ▸ List.Sublist.refl _)

section

variable {packages : LogPackages Time} {f : LogForwarder} {whole fits : Prop}

theorem NextBatch.start_le {batch : Batch Time} (h : NextBatch packages s batch) :
    startIn s.cursor batch.segment ≤ batch.finish := by
  obtain ⟨m, hfinish, -⟩ := h.read
  omega

theorem NextBatch.mem {batch : Batch Time} (h : NextBatch packages s batch) :
    batch.segment ∈ s.segments :=
  List.mem_of_mem_head? h.segment

theorem NextBatch.finish_le {batch : Batch Time} (h : NextBatch packages s batch)
    (hs : Consistent s) : batch.finish ≤ batch.segment.size := by
  obtain ⟨m, hfinish, -⟩ := h.read
  have hstart := hs.startIn_le h.mem
  have hread : ((Lines.chunks newline (s.unread batch.segment)).take m).flatten.length ≤
      (s.unread batch.segment).length := by
    have hparts := Lines.flatten_take_append_drop newline m (s.unread batch.segment)
    have hlength := congrArg List.length hparts
    rw [List.length_append] at hlength
    omega
  have hunread : (s.unread batch.segment).length =
      batch.segment.size - startIn s.cursor batch.segment := List.length_drop
  omega

/-- The oldest segment has the least number. -/
theorem Consistent.head_le (h : Consistent s) (hg : s.segments.head? = some g) :
    ∀ g' ∈ s.segments, g.sequence ≤ g'.sequence := by
  obtain ⟨others, hsegments⟩ := List.head?_eq_some_iff.mp hg
  intro g' hg'
  have hordered := h.ordered
  rw [hsegments] at hordered hg'
  rcases List.mem_cons.mp hg' with rfl | hg'
  · exact le_rfl
  · exact (List.rel_of_pairwise_cons hordered hg').le

theorem Consistent.acknowledge {batch : Batch Time} (hs : Consistent s)
    (h : NextBatch packages s batch) : Consistent (s.acknowledge batch) where
  ordered := hs.ordered
  oldest := by
    intro c hc g' hg'
    obtain rfl := Option.some.inj hc
    exact hs.head_le h.segment g' hg'
  within := by
    intro c hc g' hg' heq
    obtain rfl := Option.some.inj hc
    -- numbers tell the segments apart
    have hsame : g' = batch.segment := by
      have hinj : s.sequences.Nodup := by
        rw [State.sequences, List.nodup_iff_pairwise_ne, List.pairwise_map]
        exact hs.ordered.imp fun hlt => hlt.ne
      exact List.inj_on_of_nodup_map hinj hg' h.mem heq.symm
    rw [hsame]
    exact h.finish_le hs

/-- Every move keeps the order of the segments and the cursor. -/
theorem Move.consistent {s' : State Time} (h : Move packages f whole fits s s')
    (hs : Consistent s) : Consistent s' := by
  cases h with
  | dropLegacy _ => exact hs.of_eq rfl rfl
  | @migrate n contents hlegacy hnew =>
    refine hs.add (g := ⟨n, contents⟩) rfl hnew ?_
    rw [State.migrate, hlegacy]
    rfl
  | @create n _ hnew => exact hs.add (g := ⟨n, []⟩) rfl hnew rfl
  | cut k h => exact hs.write h.latest _
  | append _ _ h => exact (hs.write h.latest _).of_eq rfl rfl
  | skip _ => exact hs.of_eq rfl rfl
  | openLog _ => exact hs.of_eq rfl rfl
  | advance _ => exact hs.of_eq rfl rfl
  | upload _ _ hs' =>
    rw [writeLogs] at hs'
    split at hs'
    · cases hs'
    · obtain rfl := Option.some.inj hs'
      exact hs.of_eq rfl rfl
  | acknowledge h _ => exact hs.acknowledge h
  | remove _ _ => exact hs.of_sublist rfl List.filter_sublist

theorem Path.consistent {s' : State Time} (h : Path packages f whole fits s s')
    (hs : Consistent s) : Consistent s' := by
  induction h with
  | refl => exact hs
  | tail _ hmove ih => exact hmove.consistent ih

end

theorem total_append (a b : List Segment) : total (a ++ b) = total a + total b := by
  rw [total, List.map_append, List.sum_append, total, total]

end

end SimpleCdn.LogQueue
