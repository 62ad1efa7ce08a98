import Mathlib.Algebra.Order.BigOperators.Group.List
import SimpleCdn.Forwarding.System

/-!
# The cursor and the segments

In every state that runs of the forwarder reach, however often its operations fail or the process
stops in the middle, the cursor is in the oldest segment or before it, new segments are numbered
above it, and reading the queue goes on from it.  Without a legacy queue the segments stay within
the limit of the queue.
-/

namespace SimpleCdn.LogQueue

open Crash Crash.Prog AccessLog Relation Transition

section

variable {Time : Type} {packages : LogPackages Time} {f : LogForwarder} {whole fits : Prop}
  {s s' : State Time}

/-! ### New numbers -/

theorem Move.cursor_le (h : Move packages f whole fits s s') (hs : Consistent s) :
    ∀ c, s.cursor = some c → ∃ c', s'.cursor = some c' ∧ c.segment ≤ c'.segment := by
  intro c hc
  have hsame : s'.cursor = s.cursor → ∃ c', s'.cursor = some c' ∧ c.segment ≤ c'.segment :=
    fun heq => ⟨c, heq.trans hc, le_rfl⟩
  cases h with
  | acknowledge hbatch _ => exact ⟨_, rfl, hs.oldest c hc _ hbatch.mem⟩
  | upload _ _ hs' =>
    rw [writeLogs] at hs'
    split at hs'
    · cases hs'
    · obtain rfl := Option.some.inj hs'
      exact hsame rfl
  | _ => exact hsame rfl

theorem mem_of_mem_write {n : ℕ} {bytes : Bytes} {g : Segment}
    (h : g ∈ (s.write n bytes).segments) : g.sequence ∈ s.sequences := by
  rw [State.write, List.mem_map] at h
  obtain ⟨g₀, hg₀, rfl⟩ := h
  have hmem : g₀.sequence ∈ s.sequences := List.mem_map_of_mem hg₀
  split <;> exact hmem

/-- A segment is not new, or it has an unused number. -/
theorem Move.created (h : Move packages f whole fits s s') {g : Segment} (hg : g ∈ s'.segments) :
    g.sequence ∈ s.sequences ∨ s.Unused g.sequence := by
  have hsame : s'.segments = s.segments → g.sequence ∈ s.sequences ∨ s.Unused g.sequence :=
    fun heq => .inl (List.mem_map_of_mem (heq ▸ hg))
  cases h with
  | @migrate n contents hlegacy hnew =>
    rw [State.migrate, hlegacy] at hg
    rcases List.mem_append.mp hg with hg | hg
    · exact .inl (List.mem_map_of_mem hg)
    · obtain rfl := List.mem_singleton.mp hg
      exact .inr hnew
  | create _ hnew =>
    rcases List.mem_append.mp hg with hg | hg
    · exact .inl (List.mem_map_of_mem hg)
    · obtain rfl := List.mem_singleton.mp hg
      exact .inr hnew
  | cut k _ => exact .inl (mem_of_mem_write hg)
  | append _ _ _ => exact .inl (mem_of_mem_write hg)
  | upload _ _ hs' =>
    rw [writeLogs] at hs'
    split at hs'
    · cases hs'
    · obtain rfl := Option.some.inj hs'
      exact hsame rfl
  | remove _ _ => exact .inl (List.mem_map_of_mem (List.mem_of_mem_filter hg))
  | _ => exact hsame rfl

/-- Segments that are added on the way are numbered above the cursor. -/
theorem Path.above (h : Path packages f whole fits s s') (hs : Consistent s) :
    (∀ c, s.cursor = some c → ∃ c', s'.cursor = some c' ∧ c.segment ≤ c'.segment) ∧
      ∀ g ∈ s'.segments, g.sequence ∉ s.sequences →
        ∀ c, s.cursor = some c → c.segment < g.sequence := by
  induction h with
  | refl =>
    exact ⟨fun c hc => ⟨c, hc, le_rfl⟩, fun g hg hnew => absurd (List.mem_map_of_mem hg) hnew⟩
  | @tail s₁ s₂ hpath hmove ih =>
    obtain ⟨hcursor, habove⟩ := ih
    have hs₁ := Path.consistent hpath hs
    constructor
    · intro c hc
      obtain ⟨c₁, hc₁, hle⟩ := hcursor c hc
      obtain ⟨c₂, hc₂, hle'⟩ := hmove.cursor_le hs₁ c₁ hc₁
      exact ⟨c₂, hc₂, hle.trans hle'⟩
    · intro g hg hnew c hc
      rcases hmove.created hg with hold | hunused
      · obtain ⟨g₁, hg₁, hsequence⟩ := List.mem_map.mp hold
        have := habove g₁ hg₁ (hsequence ▸ hnew) c hc
        rwa [hsequence] at this
      · obtain ⟨c₁, hc₁, hle⟩ := hcursor c hc
        exact hle.trans_lt (hunused.2 c₁ hc₁)

/-! ### The size of the queue -/

/-- There is no legacy queue, and the segments are within the limit. -/
def Bounded (f : LogForwarder) (s : State Time) : Prop :=
  s.legacy = none ∧ total s.segments ≤ f.queueLimit

theorem Ready.total_le {g : Segment} {record : Bytes}
    (h : Ready packages f whole fits s g record) (hs : Consistent s) (k : ℕ) :
    total (s.write g.sequence (record.take k)).segments ≤ f.queueLimit := by
  have hroom := h.room
  have htake : (record.take k).length ≤ record.length := List.length_take_le' k record
  rw [Appender.total_write hs h.latest]
  omega

theorem Move.bounded (h : Move packages f whole fits s s') (hs : Consistent s)
    (hbounded : Bounded f s) : Bounded f s' := by
  obtain ⟨hlegacy, htotal⟩ := hbounded
  cases h with
  | dropLegacy h =>
    rw [hlegacy] at h
    cases h
  | migrate h _ =>
    rw [hlegacy] at h
    cases h
  | create _ _ =>
    refine ⟨hlegacy, ?_⟩
    rw [State.create]
    dsimp only
    rw [total_append]
    exact htotal
  | cut k h => exact ⟨hlegacy, h.total_le hs k⟩
  | @append g line event text uuid _ _ h =>
    refine ⟨hlegacy, ?_⟩
    have hle := h.total_le hs (text ++ [newline]).length
    rwa [List.take_length] at hle
  | upload _ _ hs' =>
    rw [writeLogs] at hs'
    split at hs'
    · cases hs'
    · obtain rfl := Option.some.inj hs'
      exact ⟨hlegacy, htotal⟩
  | remove _ _ =>
    refine ⟨hlegacy, le_trans ?_ htotal⟩
    exact (List.filter_sublist.map Segment.size).sum_le_sum fun _ _ => Nat.zero_le _
  | _ => exact ⟨hlegacy, htotal⟩

theorem Path.bounded (h : Path packages f whole fits s s') (hs : Consistent s)
    (hbounded : Bounded f s) : Bounded f s' := by
  induction h with
  | refl => exact hbounded
  | tail hpath hmove ih => exact hmove.bounded (Path.consistent hpath hs) ih

/-- The action is not that of an older agent. -/
def Action.Current : Action → Prop
  | .leaveLegacy _ => False
  | _ => True

theorem bounded_step (hs : Consistent s) (hbounded : Bounded f s) {a : Action} (ha : a.Current) :
    Bounded f (step packages f s a) := by
  rcases step_cases hs (meets_false packages f s a) with hpath | hlog | ⟨contents, rfl⟩
  · exact hpath.bounded hs hbounded
  · rw [hlog]
    exact hbounded
  · exact ha.elim

theorem bounded_run {actions : List Action} (h : ∀ a ∈ actions, a.Current) (hs : Consistent s)
    (hbounded : Bounded f s) : Bounded f (run (step packages f) s actions) := by
  induction actions generalizing s with
  | nil => exact hbounded
  | cons a actions ih =>
    have hstep : Bounded f (step packages f s a) :=
      bounded_step hs hbounded (h a List.mem_cons_self)
    exact ih (fun b hb => h b (List.mem_cons_of_mem a hb)) (consistent_step hs a) hstep

/-! ### Reading goes on -/

def Cursor.Before (c c' : Cursor) : Prop :=
  c.segment < c'.segment ∨ c.segment = c'.segment ∧ c.offset < c'.offset

/-- The cursor has gone forward, or the oldest segment is gone. -/
def Advanced (s : State Time) (oldest : Segment) (s' : State Time) : Prop :=
  (∃ c', s'.cursor = some c' ∧ ∀ c, s.cursor = some c → c.Before c') ∨
    oldest.sequence ∉ s'.sequences

theorem advanced_ackBatch {batch : Batch Time} (hs : Consistent s)
    (hnext : s.next packages f = some batch) :
    (ackBatch batch).wp (fun _ s' => Advanced s batch.segment s') (fun _ _ => True)
      (fun _ => True) s := by
  have hbatch := nextBatch_of_next hnext
  refine wp_ackBatch hs hbatch (fun hmore => .inl ⟨_, rfl, fun c hc => ?_⟩) (fun _ => .inr ?_)
    fun _ _ => ⟨trivial, trivial⟩
  · -- there is something left in the segment, so something has been read
    rcases (hs.oldest c hc _ hbatch.mem).lt_or_eq with hlt | heq
    · exact .inl hlt
    · refine .inr ⟨heq, ?_⟩
      rcases next_progress hnext with hprogress | hnil
      · rwa [hc, startIn_cursor heq] at hprogress
      · have hsize := unread_eq_nil.mp hnil
        have hstart := hbatch.start_le
        have hfinish := hbatch.finish_le hs
        exact absurd (by omega : batch.segment.size = batch.finish) hmore
  · intro hmem
    obtain ⟨g, hg, hsequence⟩ := List.mem_map.mp hmem
    have hne := (List.mem_filter.mp hg).2
    exact absurd hsequence (by simpa using hne)

/-- Nothing but a fault keeps a batch from being acknowledged. -/
theorem ackBatch_succeeds {batch : Batch Time} (hs : Consistent s)
    (hbatch : NextBatch packages s batch) :
    ((ackBatch batch).run.exec [] s).result = some (.ok ()) := by
  have hfinish := hbatch.finish_le hs
  have hends : (ackBatch batch).ends (fun _ _ => True) (fun _ _ => False) s := by
    simp only [ackBatch, look, change, sync, Attempt.ends_bind, Attempt.ends_look,
      stat_head hbatch.segment, Attempt.ends_ite, Attempt.ends_act, Attempt.ends_pure,
      if_neg (Nat.not_lt.mpr hfinish), ite_self]
  obtain ⟨u, hresult, -⟩ := hends.result
  exact hresult

/-- What `nextBatch` may say about a state, and what acknowledging its batch does. -/
def ReadsOn (packages : LogPackages Time) (f : LogForwarder) (s : State Time) : Prop :=
  ∀ faults, match ((nextBatch f packages).run.exec faults s).result with
    | none => True
    | some (.error e) => e.Expected
    | some (.ok none) => ((nextBatch f packages).run.exec faults s).state.segments = []
    | some (.ok (some batch)) =>
      ((ackBatch batch).run.exec [] ((nextBatch f packages).run.exec faults s).state).result =
        some (.ok ()) ∧
      ∀ faults' s'',
        (ackBatch batch).run.exec faults' ((nextBatch f packages).run.exec faults s).state =
          ⟨some (.ok ()), s''⟩ →
        Advanced ((nextBatch f packages).run.exec faults s).state batch.segment s''

theorem readsOn (hs : Consistent s) : ReadsOn packages f s := by
  intro faults
  have hwp : (nextBatch f packages).wp
      (fun result s' => s' = s.prepared ∧ result = s.prepared.next packages f)
      (fun e _ => e.Expected) (fun _ => True) s :=
    wp_nextBatch hs ⟨rfl, rfl⟩ (fun _ he => ⟨he, he⟩) ⟨trivial, trivial⟩
  split
  · trivial
  · next e he => exact hwp.error he
  · next hnone =>
    obtain ⟨hstate, hnext⟩ := hwp.ok hnone
    rw [hstate]
    exact List.head?_eq_none_iff.mp (Option.map_eq_none_iff.mp hnext.symm)
  · next batch hsome =>
    obtain ⟨hstate, hnext⟩ := hwp.ok hsome
    rw [hstate]
    refine ⟨ackBatch_succeeds hs.prepared (nextBatch_of_next hnext.symm),
      fun faults' s'' hack => ?_⟩
    have hadvanced := advanced_ackBatch hs.prepared hnext.symm
    have hresult : ((ackBatch batch).run.exec faults' s.prepared).result = some (.ok ()) := by
      rw [hack]
    have hpost := hadvanced.ok hresult
    rwa [hack] at hpost

/-! ### The law -/

/-- What the queue's readers and writers can rely on. -/
structure CursorLaw (packages : LogPackages Time) (f : LogForwarder) (s : State Time) : Prop where
  /-- The cursor's segment is not newer than the oldest. -/
  oldest : ∀ c, s.cursor = some c → ∀ g ∈ s.segments, c.segment ≤ g.sequence
  within : ∀ c, s.cursor = some c → ∀ g ∈ s.segments, c.segment = g.sequence → c.offset ≤ g.size
  /-- A segment that the next step adds is numbered above the cursor. -/
  created : ∀ a, ∀ g ∈ (step packages f s a).segments, g.sequence ∉ s.sequences →
    ∀ c, s.cursor = some c → c.segment < g.sequence
  reads : ReadsOn packages f s

theorem Consistent.cursorLaw (hs : Consistent s) : CursorLaw packages f s where
  oldest := hs.oldest
  within := hs.within
  created := by
    intro a g hg hnew
    rcases step_cases hs (meets_false packages f s a) with hpath | hlog | ⟨contents, rfl⟩
    · exact (hpath.above hs).2 g hg hnew
    · rw [hlog] at hg
      exact absurd (List.mem_map_of_mem hg) hnew
    · exact absurd (List.mem_map_of_mem hg) hnew
  reads := readsOn hs

end

end SimpleCdn.LogQueue
