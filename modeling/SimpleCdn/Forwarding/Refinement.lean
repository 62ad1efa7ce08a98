import SimpleCdn.Forwarding.Moves

/-!
# The programs move the queue

Every operation of `Collect` and `flushBatch` is a move, and so is what is left of one in which the
process stops.  Each function of the source has its rule here; `wp_collect` and `wp_flushBatch` are
assembled from them.
-/

namespace SimpleCdn.LogQueue

open Crash Crash.Prog AccessLog Relation

/-- An operation has failed, or the numbers of segments are used up. -/
def QueueError.Expected (e : QueueError) : Prop := e = .file ∨ e = .exhausted

section

variable {Time : Type} {s : State Time} {C : State Time → Prop}
  {E : QueueError → State Time → Prop}

@[simp] theorem wp_look {β : Type} {view : State Time → β} {Q : β → State Time → Prop} :
    (look view).wp Q E C s ↔ E .file s ∧ C s ∧ Q (view s) s := Attempt.wp_look

@[simp] theorem wp_change {effect : State Time → State Time} {Q : Unit → State Time → Prop} :
    (change effect).wp Q E C s ↔ E .file s ∧ C s ∧ Q () (effect s) ∧ C (effect s) := by
  rw [change, Attempt.wp_act]
  simp

@[simp] theorem wp_sync {Q : Unit → State Time → Prop} :
    (sync : Job Time Unit).wp Q E C s ↔ E .file s ∧ C s ∧ Q () s := by
  rw [sync, wp_change]
  simp only [id]
  tauto

/-! ### The directory -/

theorem le_foldl_max (l : List ℕ) (b : ℕ) :
    b ≤ l.foldl max b ∧ ∀ n ∈ l, n ≤ l.foldl max b := by
  induction l generalizing b with
  | nil => exact ⟨le_rfl, fun _ h => absurd h List.not_mem_nil⟩
  | cons a l ih =>
    obtain ⟨hbase, hmem⟩ := ih (max b a)
    refine ⟨(le_max_left b a).trans hbase, fun n hn => ?_⟩
    rcases List.mem_cons.mp hn with rfl | hn
    · exact (le_max_right b n).trans hbase
    · exact hmem n hn

/-- What `nextQueueSequence` returns. -/
def State.nextSequence (s : State Time) : ℕ :=
  max (s.sequences.foldl max 0) ((s.cursor.map (·.segment)).getD 0) + 1

theorem unused_nextSequence (s : State Time) : s.Unused s.nextSequence := by
  constructor
  · intro g hg
    have hle := (le_foldl_max s.sequences 0).2 g.sequence (List.mem_map_of_mem hg)
    rw [State.nextSequence]
    omega
  · intro c hc
    rw [State.nextSequence, hc]
    exact Nat.lt_succ_of_le (le_max_right _ _)

theorem State.Unused.not_mem {n : ℕ} (h : s.Unused n) : n ∉ s.sequences := by
  intro hmem
  obtain ⟨g, hg, rfl⟩ := List.mem_map.mp hmem
  exact absurd (h.1 g hg) (lt_irrefl _)

/-- The queue after `prepareQueue`. -/
def State.prepared (s : State Time) : State Time :=
  match s.legacy with
  | none => s
  | some contents => if contents = [] then { s with legacy := none } else s.migrate s.nextSequence

theorem prepared_of_none (h : s.legacy = none) : s.prepared = s := by
  rw [State.prepared, h]

theorem legacy_prepared (s : State Time) : s.prepared.legacy = none := by
  rw [State.prepared]
  split
  · assumption
  · split
    · rfl
    · rfl

theorem wp_prepareQueue {Q : Unit → State Time → Prop} (hQ : Q () s.prepared)
    (hE : ∀ e, e.Expected → E e s ∧ E e s.prepared) (hC : C s ∧ C s.prepared) :
    prepareQueue.wp Q E C s := by
  have hfile := hE .file (.inl rfl)
  rw [prepareQueue, Attempt.wp_bind, wp_look]
  refine ⟨hfile.1, hC.1, ?_⟩
  rw [State.prepared] at hQ hfile hC
  cases hlegacy : s.legacy with
  | none =>
    rw [hlegacy] at hQ
    exact hQ
  | some contents =>
    rw [hlegacy] at hQ hfile hC
    dsimp only at hQ hfile hC ⊢
    rw [Attempt.wp_ite]
    constructor
    · intro hnil
      rw [if_pos hnil] at hQ hfile hC
      rw [Attempt.wp_bind, wp_change, wp_sync]
      exact ⟨hfile.1, hC.1, ⟨hfile.2, hC.2, hQ⟩, hC.2⟩
    · intro hne
      rw [if_neg hne] at hQ hfile hC
      have hnew := unused_nextSequence s
      simp only [nextQueueSequence, cursor, Attempt.wp_bind, wp_look, Attempt.wp_ite,
        Attempt.wp_throw, Attempt.wp_pure, wp_change, wp_sync]
      refine ⟨hfile.1, hC.1, hfile.1, hC.1, fun _ => (hE .exhausted (.inr rfl)).1, fun _ =>
        ⟨hfile.1, hC.1, fun hmem => absurd hmem hnew.not_mem, fun _ => ?_⟩⟩
      exact ⟨hfile.1, hC.1, ⟨hfile.2, hC.2, hfile.2, hC.2, hQ⟩, hC.2⟩

theorem wp_queueSegments {Q : List Segment → State Time → Prop}
    (hQ : Q s.prepared.sorted s.prepared) (hE : ∀ e, e.Expected → E e s ∧ E e s.prepared)
    (hC : C s ∧ C s.prepared) : queueSegments.wp Q E C s := by
  rw [queueSegments, Attempt.wp_bind]
  refine wp_prepareQueue ?_ hE hC
  rw [wp_look]
  exact ⟨(hE .file (.inl rfl)).2, hC.2, hQ⟩

/-- A cursor is never ahead of the oldest segment. -/
theorem Consistent.not_ahead (h : Consistent s) : ahead s.cursor s.segments = false := by
  rw [ahead]
  cases hc : s.cursor with
  | none => rfl
  | some c =>
    cases hg : s.segments.head? with
    | none => rfl
    | some g =>
      have hle := h.oldest c hc g (List.mem_of_mem_head? hg)
      simpa using hle

section

variable (packages : LogPackages Time) (f : LogForwarder) (whole fits : Prop)

theorem path_prepared (s : State Time) : Path packages f whole fits s s.prepared := by
  rw [State.prepared]
  split
  · exact .refl
  · next hlegacy =>
    split
    · next hnil => exact .single (.dropLegacy (hlegacy.trans (congrArg some hnil)))
    · exact .single (.migrate hlegacy (unused_nextSequence s))

theorem Consistent.prepared (h : Consistent s) : Consistent s.prepared :=
  Path.consistent (path_prepared (⟨fun _ => none, fun _ => none, fun _ => none, fun _ => 0,
    fun _ => none⟩ : LogPackages Time) newLogForwarder True True s) h

end

/-! ### Appending -/

variable {packages : LogPackages Time} {f : LogForwarder} {whole fits : Prop}

/-- The appender knows the queue it appends to. -/
structure Appender.Knows (a : Appender) (s : State Time) : Prop where
  total : a.total = LogQueue.total s.segments
  legacy : s.legacy = none
  sequences : ∀ g ∈ s.segments, g.sequence ≤ a.next
  cursor : ∀ c, s.cursor = some c → c.segment ≤ a.next
  path : ∀ n, a.path = some n → ∃ g, s.segments.getLast? = some g ∧ g.sequence = n ∧
    g.size = a.size
  file : a.file = true → a.path.isSome = true

/-- What `newQueueAppender` returns. -/
def State.appender (s : State Time) (f : LogForwarder) : Appender where
  total := total s.segments
  next := max ((s.segments.getLast?.map (·.sequence)).getD 0) ((s.cursor.map (·.segment)).getD 0)
  path := (latest f s.segments).map (·.sequence)
  size := ((latest f s.segments).map Segment.size).getD 0
  file := false
  created := false

theorem latest_eq {segments : List Segment} {g : Segment} (h : latest f segments = some g) :
    segments.getLast? = some g := by
  obtain ⟨hlast, -⟩ := Option.filter_eq_some_iff.mp h
  exact hlast

/-- The newest segment has the greatest number. -/
theorem Consistent.le_last (h : Consistent s) {g : Segment} (hg : s.segments.getLast? = some g) :
    ∀ g' ∈ s.segments, g'.sequence ≤ g.sequence := by
  intro g' hg'
  have hordered := h.ordered
  rw [segments_eq_of_getLast? hg] at hordered hg'
  rcases List.mem_append.mp hg' with hg' | hg'
  · exact ((List.pairwise_append.mp hordered).2.2 g' hg' g (List.mem_singleton_self g)).le
  · rw [List.mem_singleton.mp hg']

theorem Consistent.knows_appender (h : Consistent s) (hlegacy : s.legacy = none) :
    (s.appender f).Knows s where
  total := rfl
  legacy := hlegacy
  sequences := by
    intro g hg
    cases hlast : s.segments.getLast? with
    | none =>
      rw [List.getLast?_eq_none_iff.mp hlast] at hg
      cases hg
    | some last =>
      refine (h.le_last hlast g hg).trans ?_
      rw [State.appender, hlast]
      exact le_max_left _ _
  cursor := by
    intro c hc
    rw [State.appender, hc]
    exact le_max_right _ _
  path := by
    intro n hn
    rw [State.appender] at hn ⊢
    obtain ⟨g, hg, rfl⟩ := Option.map_eq_some_iff.mp hn
    exact ⟨g, latest_eq hg, rfl, by rw [hg]; rfl⟩
  file := fun h => by cases h

theorem wp_newQueueAppender {Q : Appender → State Time → Prop} (h : Consistent s)
    (hlegacy : s.legacy = none) (hQ : Q (s.appender f) s) (hE : ∀ e, e.Expected → E e s)
    (hC : C s) : (newQueueAppender f).wp Q E C s := by
  have hprepared := prepared_of_none hlegacy
  rw [newQueueAppender, Attempt.wp_bind]
  refine wp_queueSegments ?_ (fun e he => hprepared.symm ▸ ⟨hE e he, hE e he⟩)
    (hprepared.symm ▸ ⟨hC, hC⟩)
  rw [hprepared, h.sorted_eq]
  simp only [cursor, Attempt.wp_bind, wp_look, Attempt.wp_ite, Attempt.wp_throw, Attempt.wp_pure,
    h.not_ahead]
  exact ⟨hE .file (.inl rfl), hC, fun h => absurd h (by decide), fun _ => hQ⟩

namespace Appender

variable {a : Appender}

theorem Knows.of_eq {a' : Appender} (h : a.Knows s) (htotal : a'.total = a.total)
    (hnext : a'.next = a.next) (hpath : a'.path = none ∨ a'.path = a.path ∧ a'.size = a.size)
    (hfile : a'.file = true → a'.path.isSome = true) : a'.Knows s where
  total := htotal.trans h.total
  legacy := h.legacy
  sequences := hnext ▸ h.sequences
  cursor := hnext ▸ h.cursor
  path := by
    rcases hpath with hpath | ⟨hpath, hsize⟩
    · rw [hpath]
      exact fun _ h => by cases h
    · rw [hpath, hsize]
      exact h.path
  file := hfile

theorem wp_flush {Q : Bool → State Time → Prop} :
    (flush : Prog (State Time) Bool).wp Q C s ↔ Q false s ∧ C s ∧ Q true s := by
  rw [flush, wp_act]
  simp only [Option.some.injEq, forall_eq']
  tauto

theorem wp_closeFile {Q : Changed → State Time → Prop}
    (hQ : ∀ created error, Q ({ a with file := false, created := created }, error) s)
    (hC : C s) : a.closeFile.wp Q C s := by
  rw [closeFile]
  split
  · next hfile =>
    have ha : a = { a with file := false, created := a.created } := by
      cases a
      cases hfile
      rfl
    rw [ha]
    exact hQ a.created none
  · rw [Prog.wp_bind, wp_flush]
    refine ⟨hQ _ _, hC, ?_⟩
    rw [Prog.wp_ite]
    refine ⟨fun _ => ?_, fun h => absurd rfl h⟩
    split
    · rw [Prog.wp_bind, wp_flush]
      exact ⟨hQ _ _, hC, hQ _ _⟩
    · exact hQ _ _

/-- The record goes to another segment than the one the appender is at. -/
def Leaves (a : Appender) (f : LogForwarder) (record : Bytes) : Prop :=
  a.path.isSome ∧ 0 < a.size ∧ f.segmentLimit < a.size + record.length

theorem wp_rotate {record : Bytes} {Q : Changed → State Time → Prop} (ha : a.Knows s)
    (hstay : ¬ a.Leaves f record → Q (a, none) s)
    (hleave : ∀ a', a'.Knows s → a'.path = none → Q (a', none) s)
    (hfail : ∀ a' error, Q (a', some error) s) (hC : C s) : (a.rotate f record).wp Q C s := by
  rw [rotate]
  split
  · rw [Prog.wp_bind]
    refine wp_closeFile (fun created error => ?_) hC
    cases error with
    | some error => exact hfail _ _
    | none => exact hleave _ (ha.of_eq rfl rfl (.inl rfl) fun h => by cases h) rfl
  · next h => exact hstay h

theorem freeSequence_eq {sequences : List ℕ} {next : ℕ} (h : ∀ n ∈ sequences, n ≤ next)
    (tries : ℕ) : freeSequence sequences next tries = next + 1 := by
  cases tries with
  | zero => rfl
  | succ tries =>
    rw [freeSequence, if_neg]
    exact fun hmem => absurd (h _ hmem) (by omega)

theorem Knows.unused (h : a.Knows s) : s.Unused (a.next + 1) :=
  ⟨fun g hg => Nat.lt_succ_of_le (h.sequences g hg),
    fun c hc => Nat.lt_succ_of_le (h.cursor c hc)⟩

theorem Knows.create (h : a.Knows s) : Knows
    { a with
      next := a.next + 1, path := some (a.next + 1), size := 0, file := true, created := true }
    (s.create (a.next + 1)) where
  total := by
    have hzero : LogQueue.total [⟨a.next + 1, []⟩] = 0 := rfl
    rw [State.create]
    dsimp only
    rw [total_append, hzero, h.total, Nat.add_zero]
  legacy := h.legacy
  sequences := by
    intro g hg
    rcases List.mem_append.mp hg with hg | hg
    · exact (h.sequences g hg).trans (Nat.le_succ _)
    · rw [List.mem_singleton.mp hg]
  cursor := fun c hc => (h.cursor c hc).trans (Nat.le_succ _)
  path := by
    rintro n hn
    obtain rfl := Option.some.inj hn
    exact ⟨⟨a.next + 1, []⟩, List.getLast?_concat, rfl, rfl⟩
  file := fun _ => rfl

/-- A segment is open: the one the appender was at, or a new one. -/
theorem wp_opened {Q : Changed → State Time → Prop} (ha : a.Knows s)
    (hsame : ∀ n, a.path = some n → Q ({ a with file := true }, none) s)
    (hnew : a.path = none → Q ({ a with
      next := a.next + 1, path := some (a.next + 1), size := 0, file := true,
      created := true }, none)
      (s.create (a.next + 1)))
    (hfail : ∀ a' error, Q (a', some error) s) (hC : C s)
    (hC' : a.path = none → C (s.create (a.next + 1))) : a.opened.wp Q C s := by
  rw [opened]
  split
  · next hfile =>
    obtain ⟨n, hn⟩ := Option.isSome_iff_exists.mp (ha.file hfile)
    have hsame := hsame n hn
    rwa [← hfile] at hsame
  · rw [openFile]
    cases hpath : a.path with
    | some n =>
      dsimp only
      rw [Prog.wp_bind, wp_flush]
      refine ⟨hfail _ _, hC, ?_⟩
      have hsame := hsame n hpath
      exact hpath ▸ hsame
    | none =>
      have hfree : freeSequence s.sequences a.next s.segments.length = a.next + 1 := by
        refine freeSequence_eq (fun n hn => ?_) _
        obtain ⟨g, hg, rfl⟩ := List.mem_map.mp hn
        exact ha.sequences g hg
      dsimp only
      rw [Prog.wp_bind, wp_inspect, hfree]
      refine ⟨hfail _ _, hC, ?_⟩
      dsimp only
      rw [Prog.wp_ite]
      refine ⟨fun _ => hfail _ _, fun _ => ?_⟩
      rw [Prog.wp_bind, wp_act]
      refine ⟨hfail _ _, hC, ?_⟩
      rintro s' hs'
      obtain rfl := Option.some.inj hs'
      exact ⟨hnew hpath, hC' hpath⟩

theorem write_nil (s : State Time) (n : ℕ) : s.write n [] = s := by
  have hsame : ∀ g : Segment, (if g.sequence = n then { g with contents := g.contents ++ [] }
      else g) = g := by
    intro g
    rw [List.append_nil]
    split <;> rfl
  rw [State.write]
  simp only [hsame, List.map_id']

theorem write_write (s : State Time) (n : ℕ) (a b : Bytes) :
    (s.write n a).write n b = s.write n (a ++ b) := by
  rw [State.write, State.write, State.write]
  simp only [List.map_map]
  congr 1
  refine List.map_congr_left fun g _ => ?_
  by_cases h : g.sequence = n
  · simp [h]
  · simp [h]

theorem wp_writeRecord {n : ℕ} {record : Bytes} {Q : Bool → State Time → Prop}
    (hQ : Q true (s.write n record)) (hcut : ∀ k, Q false (s.write n (record.take k)))
    (hC : ∀ k, C (s.write n (record.take k))) : (writeRecord n record).wp Q C s := by
  -- what is left of the record, and what has been written of it
  have hbody : ∀ b left s', (∃ k, b :: left = record.drop k ∧ s' = s.write n (record.take k)) →
      (act fun s => some (s.write n [b]) : Prog (State Time) Bool).wp
        (fun ok s' => if ok then ∃ k, left = record.drop k ∧ s' = s.write n (record.take k)
          else ∃ k, s' = s.write n (record.take k)) C s' := by
    rintro b left s' ⟨k, hleft, rfl⟩
    rw [wp_act]
    refine ⟨⟨k, rfl⟩, hC k, ?_⟩
    rintro s'' hs''
    obtain rfl := Option.some.inj hs''
    have hnext : record.take (k + 1) = record.take k ++ [b] := by
      have hk : record[k]? = some b := by
        have := congrArg List.head? hleft
        rwa [List.head?_cons, List.head?_drop, eq_comm] at this
      rw [List.take_add_one, hk]
      rfl
    rw [write_write, ← hnext]
    refine ⟨⟨k + 1, ?_, rfl⟩, hC _⟩
    rw [← List.drop_drop, ← hleft]
    rfl
  have hstart : ∃ k, record = record.drop k ∧ s = s.write n (record.take k) :=
    ⟨0, rfl, by rw [List.take_zero, write_nil]⟩
  have heach := wp_each (fun left s' => ∃ k, left = record.drop k ∧ s' = s.write n (record.take k))
    hbody hstart
  refine heach.mono (fun ok s' h => ?_) fun _ h => h
  cases ok with
  | true =>
    obtain ⟨k, hleft, rfl⟩ := h
    have hall : record.take k = record := List.take_of_length_le (by
      have := congrArg List.length hleft
      rw [List.length_drop, List.length_nil] at this
      omega)
    rwa [hall]
  | false =>
    obtain ⟨k, rfl⟩ := h
    exact hcut k

/-- The record goes to a segment whose unread text has ended, or it does not go to the segment that
the appender is at. -/
def Clean (a : Appender) (f : LogForwarder) (s : State Time) (record : Bytes) : Prop :=
  a.path.isSome → (∀ g, s.segments.getLast? = some g → Lines.Ended newline (s.unread g)) ∨
    f.segmentLimit < a.size + record.length ∨ f.queueLimit < a.total + record.length

theorem Clean.ended {g : Segment} {record : Bytes} (h : a.Clean f s record) (ha : a.Knows s)
    (hstay : ¬ a.Leaves f record) (hroom : ¬ f.queueLimit < a.total + record.length)
    (hpath : a.path.isSome) (hg : s.segments.getLast? = some g) :
    Lines.Ended newline (s.unread g) := by
  rcases h hpath with hended | hlimit | hfull
  · exact hended g hg
  · -- only an empty segment takes a record that is over the limit
    obtain ⟨n, hn⟩ := Option.isSome_iff_exists.mp hpath
    obtain ⟨g', hg', -, hsize⟩ := ha.path n hn
    obtain rfl : g' = g := Option.some.inj (hg'.symm.trans hg)
    have hzero : a.size = 0 := by
      by_contra hne
      exact hstay ⟨hpath, Nat.pos_of_ne_zero hne, hlimit⟩
    have hnil : g'.contents = [] := List.length_eq_zero_iff.mp (hsize.trans hzero)
    rw [State.unread, hnil, List.drop_nil]
    exact Lines.ended_nil
  · exact absurd hfull hroom

theorem total_write (hs : Consistent s) {g : Segment} (hg : s.segments.getLast? = some g)
    (bytes : Bytes) : LogQueue.total (s.write g.sequence bytes).segments =
      LogQueue.total s.segments + bytes.length := by
  have hsize : LogQueue.total [{ g with contents := g.contents ++ bytes }] =
      LogQueue.total [g] + bytes.length := by
    simp [LogQueue.total, Segment.size]
  rw [hs.segments_write hg, total_append, hsize]
  conv_rhs => rw [segments_eq_of_getLast? hg, total_append]
  omega

theorem Knows.write (h : a.Knows s) (hs : Consistent s) {g : Segment} {bytes : Bytes}
    (hg : s.segments.getLast? = some g) (hpath : a.path = some g.sequence) :
    Knows { a with size := a.size + bytes.length, total := a.total + bytes.length }
      (s.write g.sequence bytes) where
  total := by
    rw [total_write hs hg, h.total]
  legacy := h.legacy
  sequences := by
    intro g' hg'
    rw [State.write, List.mem_map] at hg'
    obtain ⟨g₀, hg₀, rfl⟩ := hg'
    have hle := h.sequences g₀ hg₀
    split <;> exact hle
  cursor := h.cursor
  path := by
    intro n hn
    obtain rfl := Option.some.inj (hpath.symm.trans hn)
    obtain ⟨g', hg', -, hsize⟩ := h.path _ hpath
    obtain rfl : g' = g := Option.some.inj (hg'.symm.trans hg)
    refine ⟨{ g' with contents := g'.contents ++ bytes }, ?_, rfl, ?_⟩
    · rw [hs.segments_write hg, List.getLast?_concat]
    · rw [Segment.size, List.length_append, ← hsize]
      rfl
  file := h.file

/-- Nothing but the segments has changed. -/
def Kept (s s' : State Time) : Prop := s' = { s with segments := s'.segments }

theorem Kept.write {s₁ : State Time} (h : Kept s s₁) (n : ℕ) (bytes : Bytes) :
    Kept s (s₁.write n bytes) := by
  rw [Kept] at h ⊢
  rw [h]
  rfl

/-- `Append` once the segment has been rotated. -/
def appendOpened (a : Appender) (record : Bytes) :
    Prog (State Time) (Appender × Except QueueError Bool) := do
  let (a, opened) ← a.opened
  match opened with
  | some error => pure (a, .error error)
  | none =>
    if ← writeRecord (a.path.getD 0) record then
      pure ({ a with size := a.size + record.length, total := a.total + record.length },
        .ok true)
    else pure (a, .error .file)

/-- `Append` writes the record to the last segment, or a part of it, or nothing. -/
theorem wp_append {record : Bytes} {Q : Appender × Except QueueError Bool → State Time → Prop}
    (hs : Consistent s) (ha : a.Knows s)
    (hevent : ∃ event text, Recorded packages event text ∧ record = text ++ [newline])
    (hclean : whole → a.Clean f s record) (hfits : fits → record.length ≤ logQueueRecordBytes)
    (hfull : Q (a, .ok false) s)
    (hok : ∀ a' s₁ g, Path packages f whole fits s s₁ → Kept s s₁ →
      Ready packages f whole fits s₁ g record → a'.Knows (s₁.write g.sequence record) →
      Q (a', .ok true) (s₁.write g.sequence record))
    (hfail : ∀ a' error s', Path packages f whole fits s s' → Kept s s' → Q (a', .error error) s')
    (hC : ∀ s', Path packages f whole fits s s' → Kept s s' → C s') :
    (a.append f record).wp Q C s := by
  -- the write to the segment that is open
  have hwrite : ∀ (a' : Appender) s₁ g, Path packages f whole fits s s₁ → Kept s s₁ →
      Consistent s₁ → a'.Knows s₁ → a'.path = some g.sequence →
      Ready packages f whole fits s₁ g record →
      (do
        if ← writeRecord (a'.path.getD 0) record then
          pure ({ a' with size := a'.size + record.length, total := a'.total + record.length },
            .ok true)
        else pure (a', .error .file) :
        Prog (State Time) (Appender × Except QueueError Bool)).wp Q C s₁ := by
    intro a' s₁ g hpath hkept hs₁ ha' hopen hready
    have hcut : ∀ k, Path packages f whole fits s (s₁.write g.sequence (record.take k)) :=
      fun k => hpath.tail (.cut k hready)
    have htarget : a'.path.getD 0 = g.sequence := by
      rw [hopen]
      rfl
    rw [Prog.wp_bind, htarget]
    exact wp_writeRecord (hok _ _ _ hpath hkept hready (ha'.write hs₁ hready.latest hopen))
      (fun k => hfail _ _ _ (hcut k) (hkept.write _ _)) (fun k => hC _ (hcut k) (hkept.write _ _))
  rw [append]
  split
  · exact hfull
  next hroom =>
  have hlimit : LogQueue.total s.segments + record.length ≤ f.queueLimit :=
    ha.total ▸ Nat.le_of_not_lt hroom
  -- a segment that is created has nothing in it to spoil
  have hcreated : ∀ a' : Appender, a'.Knows s →
      Path packages f whole fits s (s.create (a'.next + 1)) ∧
      Ready packages f whole fits (s.create (a'.next + 1)) ⟨a'.next + 1, []⟩ record := by
    intro a' ha'
    refine ⟨.single (.create ha'.legacy ha'.unused), ?_⟩
    refine ⟨List.getLast?_concat, ha'.legacy, ?_, fun _ => ?_, hfits, hevent⟩
    · have hzero : LogQueue.total [⟨a'.next + 1, []⟩] = 0 := rfl
      rw [State.create]
      dsimp only
      rw [total_append, hzero]
      exact hlimit
    · rw [State.unread, List.drop_nil]
      exact Lines.ended_nil
  have hopened : ∀ a' : Appender, a'.Knows s →
      (∀ n g, a'.path = some n → s.segments.getLast? = some g → whole →
        Lines.Ended newline (s.unread g)) →
      (a'.appendOpened record : Prog (State Time) (Appender × Except QueueError Bool)).wp Q C s := by
    intro a' ha' hended
    rw [appendOpened, Prog.wp_bind]
    refine wp_opened ha' (fun n hn => ?_) (fun hnone => ?_) (fun _ _ => hfail _ _ _ .refl rfl)
      (hC _ .refl rfl) (fun hnone => hC _ (hcreated a' ha').1 rfl)
    · obtain ⟨g, hg, hsequence, -⟩ := ha'.path n hn
      have hnow : ({ a' with file := true } : Appender).Knows s :=
        ha'.of_eq rfl rfl (.inr ⟨rfl, rfl⟩) fun _ => by
          rw [hn]
          rfl
      exact hwrite _ s g .refl rfl hs hnow (hn.trans (congrArg some hsequence.symm))
        ⟨hg, ha'.legacy, hlimit, hended n g hn hg, hfits, hevent⟩
    · have hnew := hcreated a' ha'
      exact hwrite _ _ ⟨a'.next + 1, []⟩ hnew.1 rfl (hnew.1.consistent hs) ha'.create rfl hnew.2
  rw [Prog.wp_bind]
  refine wp_rotate ha (fun hstay => ?_) (fun a' ha' hnone => ?_)
    (fun _ _ => hfail _ _ _ .refl rfl) (hC _ .refl rfl)
  · refine hopened a ha fun n g hn hg hwhole => ?_
    exact (hclean hwhole).ended ha hstay hroom (by rw [hn]; rfl) hg
  · refine hopened a' ha' fun n g hn => ?_
    rw [hnone] at hn
    cases hn

end Appender

/-- Behind a record the text of the last segment has ended. -/
theorem Ready.ended_write {g g' : Segment} {record : Bytes}
    (h : Ready packages f whole fits s g record) (hs : Consistent s) (hwhole : whole)
    (hg' : (s.write g.sequence record).segments.getLast? = some g') :
    Lines.Ended newline ((s.write g.sequence record).unread g') := by
  rw [hs.segments_write h.latest, List.getLast?_concat] at hg'
  obtain rfl := Option.some.inj hg'
  obtain ⟨event, text, htext, rfl⟩ := h.event
  have hstart := hs.startIn_le (List.mem_of_getLast? h.latest)
  have hunread : (s.write g.sequence (text ++ [newline])).unread
      { g with contents := g.contents ++ (text ++ [newline]) } =
        s.unread g ++ (text ++ [newline]) := by
    rw [State.unread, State.unread]
    exact List.drop_append_of_le_length hstart
  rw [hunread]
  exact (h.whole hwhole).append (Lines.ended_line (newline_not_mem_marshal htext.2))

/-! ### Reading the log -/

variable (packages) in
/-- The records that the lines make, up to a line whose event is not written. -/
def records (fresh : ℕ → String) : ℕ → List Bytes → List Bytes
  | _, [] => []
  | read, line :: lines =>
    match decodeNginxLog packages (fresh read) line with
    | none => records fresh (read + 1) lines
    | some event =>
      match marshal packages event with
      | none => []
      | some text => (text ++ [newline]) :: records fresh (read + 1) lines

/-- So many of the lines have been read. -/
structure Took (lines : List Bytes) (k : ℕ) (s s' : State Time) : Prop where
  kept : s' = { s with segments := s'.segments, taken := s'.taken, appended := s'.appended }
  taken : s'.taken.map Prod.fst = s.taken.map Prod.fst ++ lines.take k

theorem Took.of_kept {lines : List Bytes} {s s' : State Time} (h : Appender.Kept s s') :
    Took lines 0 s s' := by
  rw [Appender.Kept] at h
  refine ⟨?_, ?_⟩
  · rw [h]
  · rw [h, List.take_zero, List.append_nil]

/-- One more line, in front. -/
theorem Took.cons {lines : List Bytes} {line : Bytes} {event : Option (AccessLogEvent Time)} {k : ℕ}
    {s s₁ s' : State Time} (h : Took lines k (s₁.take line event) s') (hkept : Appender.Kept s s₁) :
    Took (line :: lines) (k + 1) s s' := by
  rw [Appender.Kept] at hkept
  refine ⟨?_, ?_⟩
  · rw [h.kept, State.take, hkept]
  · rw [h.taken, State.take, hkept, List.take_succ_cons]
    simp

theorem length_join_take_succ (line : Bytes) (lines : List Bytes) (k : ℕ) :
    (Lines.join newline ((line :: lines).take (k + 1))).length =
      line.length + 1 + (Lines.join newline (lines.take k)).length := by
  rw [List.take_succ_cons, Lines.join_cons, List.length_append, List.length_cons]
  omega

/-- The loop of `Collect` reads the lines in order and queues the events of those it has read. -/
theorem wp_collectLines (fresh : ℕ → String) {tooLong : Bool} {lines : List Bytes}
    {read position count : ℕ} {a : Appender} {Q : Collected → State Time → Prop}
    (hs : Consistent s) (ha : a.Knows s)
    (hclean : whole → ∀ record, (records packages fresh read lines).head? = some record →
      a.Clean f s record)
    (hfits : fits → ∀ record ∈ records packages fresh read lines,
      record.length ≤ logQueueRecordBytes)
    (hQ : ∀ done s' k, Path packages f whole fits s s' → Took lines k s s' →
      done.position = position + (Lines.join newline (lines.take k)).length →
      (done.error = none → done.full = false → k = lines.length ∧ tooLong = false) → Q done s')
    (hC : ∀ s' k, Path packages f whole fits s s' → Took lines k s s' → C s') :
    (collectLines packages f fresh tooLong lines read a position count).wp Q C s := by
  induction lines generalizing s read position count a with
  | nil =>
    rw [collectLines]
    refine hQ _ s 0 .refl (.of_kept rfl) rfl fun herror _ => ⟨rfl, ?_⟩
    cases tooLong with
    | false => rfl
    | true => cases herror
  | cons line lines ih =>
    -- what is reached before the line has been read
    have hstop : ∀ done s', Path packages f whole fits s s' → Appender.Kept s s' →
        done.position = position → (done.error.isSome ∨ done.full = true) → Q done s' := by
      intro done s' hpath hkept hposition hstopped
      refine hQ done s' 0 hpath (.of_kept hkept) hposition fun herror hfull => ?_
      rw [herror, hfull] at hstopped
      rcases hstopped with h | h <;> cases h
    -- what is reached after it
    have hnext : ∀ s₁ event (a' : Appender) count',
        Path packages f whole fits s (s₁.take line event) →
        Appender.Kept s s₁ → a'.Knows (s₁.take line event) →
        (whole → ∀ record, (records packages fresh (read + 1) lines).head? = some record →
          a'.Clean f (s₁.take line event) record) →
        (fits → ∀ record ∈ records packages fresh (read + 1) lines,
          record.length ≤ logQueueRecordBytes) →
        (collectLines packages f fresh tooLong lines (read + 1) a' (position + line.length + 1)
          count').wp Q C (s₁.take line event) := by
      intro s₁ event a' count' hpath hkept ha' hclean' hfits'
      refine ih (hpath.consistent hs) ha' hclean' hfits' ?_ ?_
      · intro done s' k hpath' htook hposition hend
        refine hQ done s' (k + 1) (hpath.trans hpath') (htook.cons hkept) ?_ fun herror hfull => ?_
        · rw [hposition, length_join_take_succ]
          omega
        · obtain ⟨hk, htooLong⟩ := hend herror hfull
          exact ⟨congrArg (· + 1) hk, htooLong⟩
      · exact fun s' k hpath' htook => hC s' (k + 1) (hpath.trans hpath') (htook.cons hkept)
    rw [collectLines]
    rw [records] at hclean hfits
    cases hdecoded : decodeNginxLog packages (fresh read) line with
    | none =>
      rw [hdecoded] at hclean hfits
      dsimp only at hclean hfits ⊢
      rw [Prog.wp_bind, Prog.wp_modify]
      exact hnext s none a count (.single (.skip hdecoded)) rfl
        ⟨ha.total, ha.legacy, ha.sequences, ha.cursor, ha.path, ha.file⟩ hclean hfits
    | some event =>
      rw [hdecoded] at hclean hfits
      dsimp only at hclean hfits ⊢
      cases htext : marshal packages event with
      | none => exact hstop _ s .refl rfl rfl (.inl rfl)
      | some text =>
        rw [htext] at hclean hfits
        dsimp only at hclean hfits ⊢
        rw [Prog.wp_bind]
        refine Appender.wp_append hs ha
          ⟨event, text, ⟨⟨_, _, hdecoded⟩, htext⟩, rfl⟩ (fun hwhole => hclean hwhole _ rfl)
          (fun hfit => hfits hfit _ List.mem_cons_self) ?_ ?_ ?_ ?_
        · exact hstop _ s .refl rfl rfl (.inr rfl)
        · intro a' s₁ g hpath hkept hready ha'
          have hs₁ := hpath.consistent hs
          rw [Prog.wp_bind, Prog.wp_modify]
          refine hnext (s₁.write g.sequence (text ++ [newline])) (some event) a' (count + 1)
            (hpath.tail (.append hdecoded htext hready)) (hkept.write _ _)
            ⟨ha'.total, ha'.legacy, ha'.sequences, ha'.cursor, ha'.path, ha'.file⟩
            (fun hwhole record _ _ => .inl fun g' hg' => ?_)
            (fun hfit record hrecord => hfits hfit record (List.mem_cons_of_mem _ hrecord))
          exact hready.ended_write hs₁ hwhole hg'
        · exact fun a' error s' hpath hkept => hstop _ s' hpath hkept rfl (.inl rfl)
        · exact fun s' hpath hkept => hC s' 0 hpath (.of_kept hkept)

/-- What a `Collect` may begin to read at: the file of the offset may fail to be read. -/
def State.Stored (s : State Time) (stored : ℕ) : Prop := stored = s.offset.getD 0 ∨ stored = 0

/-- What a `Collect` that compares the log with `stored` reads. -/
def scanned (contents : Bytes) (stored : ℕ) : List Bytes × Bool :=
  scanLog (contents.drop (readFrom contents stored))

/-- What a `Collect` does to the log, the offset and the lines; `finished` says that it has reported
no error. -/
inductive Collects (finished : Prop) (s s' : State Time) : Prop
  | untouched (hlog : s'.log = s.log) (hoffset : s'.offset = s.offset)
      (hpassed : s'.passed = s.passed)
    (htruncated : s'.truncated = s.truncated) (hfinished : finished → s.log = none)
  | opened (contents : Bytes) (stored : ℕ) (hcontents : s.log = some contents)
    (hstored : s.Stored stored) (hlog : s'.log = s.log)
    (htruncated : s'.truncated = (s.open stored).truncated)
    (hoffset : s'.offset = s.offset) (hpassed : s'.passed = s.passed)
    (hfinished : finished → scanned contents stored = ([], false))
  | advanced (contents : Bytes) (stored k : ℕ) (hcontents : s.log = some contents)
    (hstored : s.Stored stored) (hlog : s'.log = s.log)
    (htruncated : s'.truncated = (s.open stored).truncated)
    (hoffset : s'.offset = some (readFrom contents stored +
      (Lines.join newline ((scanned contents stored).1.take k)).length))
    (hpassed : s'.passed.map Prod.fst =
      s.passed.map Prod.fst ++ (scanned contents stored).1.take k)
    (hfinished : finished → (scanned contents stored).1.length ≤ k ∧
      (scanned contents stored).2 = false)

theorem Collects.mono {p q : Prop} {s' : State Time} (h : Collects p s s') (hpq : q → p) :
    Collects q s s' := by
  cases h with
  | untouched hlog hoffset hpassed htruncated hfinished =>
    exact .untouched hlog hoffset hpassed htruncated (hfinished ∘ hpq)
  | opened contents stored hcontents hstored hlog htruncated hoffset hpassed hfinished =>
    exact .opened contents stored hcontents hstored hlog htruncated hoffset hpassed
      (hfinished ∘ hpq)
  | advanced contents stored k hcontents hstored hlog htruncated hoffset hpassed hfinished =>
    exact .advanced contents stored k hcontents hstored hlog htruncated hoffset hpassed
      (hfinished ∘ hpq)

/-- Nothing that `Collect` queues first follows an unfinished record. -/
def Clean (packages : LogPackages Time) (f : LogForwarder) (fresh : ℕ → String) (s : State Time) :
    Prop :=
  ∀ contents stored, s.log = some contents → s.Stored stored → ∀ record,
    (records packages fresh 0 (scanned contents stored).1).head? = some record →
      (s.prepared.appender f).Clean f s.prepared record

/-- Every record that `Collect` makes is within the limit of the reader. -/
def RecordsFit (packages : LogPackages Time) (fresh : ℕ → String) (s : State Time) : Prop :=
  ∀ contents stored, s.log = some contents → s.Stored stored →
    ∀ record ∈ records packages fresh 0 (scanned contents stored).1,
      record.length ≤ logQueueRecordBytes

/-- `prepareQueue` leaves the log and the lines alone. -/
theorem prepared_frame (s : State Time) : s.prepared =
    { s with segments := s.prepared.segments, legacy := none } := by
  rw [State.prepared]
  split
  · next h => rw [← h]
  · split <;> rfl

theorem wp_offset {Q : ℕ → State Time → Prop} (hQ : ∀ stored, s.Stored stored → Q stored s)
    (hC : C s) : (offset : Job Time ℕ).wp Q E C s := by
  rw [offset, Attempt.wp_lift, Prog.wp_bind, wp_inspect]
  exact ⟨hQ _ (.inr rfl), hC, hQ _ (.inl (by cases s.offset <;> rfl))⟩

/-- Whatever happens to it, a `Collect` moves the queue and reads the log in order. -/
theorem wp_collect {fresh : ℕ → String} (hs : Consistent s)
    (hclean : whole → Clean packages f fresh s) (hfits : fits → RecordsFit packages fresh s) :
    (collect packages f fresh).wp
      (fun _ s' => Path packages f whole fits s s' ∧ Collects True s s')
      (fun _ s' => Path packages f whole fits s s' ∧ Collects False s s')
      (fun s' => Path packages f whole fits s s' ∧ Collects False s s') s := by
  have hprepared := path_prepared packages f whole fits s
  have hframe := prepared_frame s
  have hlog : s.prepared.log = s.log := by rw [hframe]
  have hoffset : s.prepared.offset = s.offset := by rw [hframe]
  have hpassed : s.prepared.passed = s.passed := by rw [hframe]
  have htruncated : s.prepared.truncated = s.truncated := by rw [hframe]
  have hbefore : Path packages f whole fits s s ∧ Collects False s s :=
    ⟨.refl, .untouched rfl rfl rfl rfl False.elim⟩
  have hafter : Path packages f whole fits s s.prepared ∧ Collects False s s.prepared :=
    ⟨hprepared, .untouched hlog hoffset hpassed htruncated False.elim⟩
  rw [collect, Attempt.wp_bind]
  refine wp_prepareQueue ?_ (fun _ _ => ⟨hbefore, hafter⟩) ⟨hbefore, hafter⟩
  rw [Attempt.wp_bind, wp_look]
  refine ⟨hafter, hafter, ?_⟩
  cases hcontents : s.prepared.log with
  | none =>
    exact ⟨hprepared, .untouched hlog hoffset hpassed htruncated fun _ => hlog ▸ hcontents⟩
  | some contents =>
  rw [hlog] at hcontents
  dsimp only
  rw [Attempt.wp_bind]
  refine wp_offset (fun stored hstored => ?_) hafter
  have hstored : s.Stored stored := by rwa [State.Stored, hoffset] at hstored
  rw [Attempt.wp_bind, Attempt.wp_lift, Prog.wp_modify, Attempt.wp_bind]
  -- the log is open
  have hopen : Path packages f whole fits s (s.prepared.open stored) :=
    hprepared.tail (.openLog stored)
  have htruncated' : (s.prepared.open stored).truncated = (s.open stored).truncated := by
    rw [State.open, State.open, hlog, hpassed, htruncated]
  have hopened : Path packages f whole fits s (s.prepared.open stored) ∧
      Collects False s (s.prepared.open stored) :=
    ⟨hopen, .opened contents stored hcontents hstored hlog htruncated' hoffset hpassed False.elim⟩
  have hs₁ : Consistent (s.prepared.open stored) := hopen.consistent hs
  refine wp_newQueueAppender hs₁ (legacy_prepared s) ?_ (fun _ _ => hopened) hopened
  have hknows : ((s.prepared.open stored).appender f).Knows (s.prepared.open stored) :=
    hs₁.knows_appender (legacy_prepared s)
  rw [Attempt.wp_bind, Attempt.wp_lift]
  refine wp_collectLines fresh hs₁ hknows
    (fun hwhole record hrecord => hclean hwhole contents stored hcontents hstored record hrecord)
    (fun hfit => hfits hfit contents stored hcontents hstored) ?_ ?_
  · intro done s' k hpath htook hposition hend
    have hreached := hopen.trans hpath
    -- nothing written yet
    have hunwritten : ∀ finished : Prop, (finished → scanned contents stored = ([], false)) →
        Collects finished s s' := by
      intro finished hfinished
      refine .opened contents stored hcontents hstored ?_ ?_ ?_ ?_ hfinished
      · rw [htook.kept]
        exact hlog
      · rw [htook.kept]
        exact htruncated'
      · rw [htook.kept]
        exact hoffset
      · rw [htook.kept]
        exact hpassed
    have hwritten : ∀ finished : Prop, (finished → (scanned contents stored).1.length ≤ k ∧
        (scanned contents stored).2 = false) → Collects finished s (s'.advance done.position) := by
      intro finished hfinished
      refine .advanced contents stored k hcontents hstored ?_ ?_ (congrArg some hposition) ?_
        hfinished
      · rw [State.advance, htook.kept]
        exact hlog
      · rw [State.advance, htook.kept]
        exact htruncated'
      · rw [State.advance, List.map_append, htook.taken]
        have hkept : s'.passed = s.passed := by
          rw [htook.kept]
          exact hpassed
        rw [hkept]
        rfl
    have hstay : Path packages f whole fits s s' ∧ Collects False s s' :=
      ⟨hreached, hunwritten False False.elim⟩
    have hmoved : Path packages f whole fits s (s'.advance done.position) ∧
        Collects False s (s'.advance done.position) :=
      ⟨hreached.tail (.advance _), hwritten False False.elim⟩
    rw [Attempt.wp_bind, Attempt.wp_lift]
    refine Appender.wp_closeFile (fun created error => ?_) hstay
    rw [Attempt.wp_ite]
    refine ⟨fun _ => hstay, fun _ => ?_⟩
    rw [Attempt.wp_ite]
    constructor
    · intro hmove
      rw [Attempt.wp_bind, wp_change]
      refine ⟨hstay, hstay, ?_, hmoved⟩
      cases herror : done.error with
      | some error => exact hmoved
      | none =>
        dsimp only
        rw [Attempt.wp_ite]
        refine ⟨fun _ => hmoved, fun hfull => ⟨hmoved.1, hwritten True fun _ => ?_⟩⟩
        have hend := hend herror (Bool.eq_false_iff.mpr hfull)
        exact ⟨hend.1.ge, hend.2⟩
    · intro hsame
      cases herror : done.error with
      | some error => exact hstay
      | none =>
        dsimp only
        rw [Attempt.wp_ite]
        refine ⟨fun _ => hstay, fun hfull => ⟨hreached, hunwritten True fun _ => ?_⟩⟩
        obtain ⟨hk, htooLong⟩ := hend herror (Bool.eq_false_iff.mpr hfull)
        -- the position has not moved, so there was no line
        have hnone : (Lines.join newline ((scanned contents stored).1.take k)).length = 0 := by
          have hposition' := hposition
          rw [Decidable.not_not.mp hsame] at hposition'
          exact Nat.add_eq_left.mp hposition'.symm
        have hlines : (scanned contents stored).1 = [] := by
          have htake : (scanned contents stored).1.take k = (scanned contents stored).1 :=
            List.take_of_length_le hk.ge
          rw [htake] at hnone
          cases hlines : (scanned contents stored).1 with
          | nil => rfl
          | cons line lines =>
            rw [hlines, Lines.join_cons, List.length_append, List.length_cons] at hnone
            omega
        exact Prod.ext hlines htooLong
  · intro s' k hpath htook
    refine ⟨hopen.trans hpath, .opened contents stored hcontents hstored ?_ ?_ ?_ ?_ False.elim⟩
    · rw [htook.kept]
      exact hlog
    · rw [htook.kept]
      exact htruncated'
    · rw [htook.kept]
      exact hoffset
    · rw [htook.kept]
      exact hpassed

/-! ### Uploading -/

variable (packages f) in
/-- What `nextBatch` returns. -/
def State.next (s : State Time) : Option (Batch Time) :=
  s.segments.head?.map fun g => readBatch packages f.batchLimit 0 ⟨g, startIn s.cursor g, []⟩
    (Lines.chunks newline (s.unread g))

variable (packages) in
/-- The loop of `nextBatch` takes chunks from the front; the first of them is always taken. -/
theorem readBatch_eq (records eventBytes : ℕ) (batch : Batch Time) (chunks : List Bytes) :
    ∃ m, readBatch packages records eventBytes batch chunks =
      { batch with
        finish := batch.finish + (chunks.take m).flatten.length
        events := batch.events ++ (chunks.take m).filterMap (recordEvent packages) } ∧
      (m = 0 → records = 0 ∨ chunks = [] ∨ batch.events ≠ []) := by
  have hnone : batch = { batch with
      finish := batch.finish + (chunks.take 0).flatten.length
      events := batch.events ++ (chunks.take 0).filterMap (recordEvent packages) } := by simp
  induction chunks generalizing records eventBytes batch with
  | nil =>
    refine ⟨0, ?_, fun _ => .inr (.inl rfl)⟩
    rw [← hnone]
    cases records <;> rfl
  | cons chunk chunks ih =>
    cases records with
    | zero => exact ⟨0, hnone, fun _ => .inl rfl⟩
    | succ records =>
      rw [readBatch]
      cases hevent : recordEvent packages chunk with
      | none =>
        obtain ⟨m, hbatch, -⟩ := ih records eventBytes
          { batch with finish := batch.finish + chunk.length } (by simp)
        refine ⟨m + 1, ?_, fun h => by cases h⟩
        rw [hbatch, List.take_succ_cons, List.flatten_cons, List.length_append,
          List.filterMap_cons_none hevent]
        dsimp only
        rw [Nat.add_assoc]
      | some event =>
        dsimp only
        split
        · next h => exact ⟨0, hnone, fun _ => .inr (.inr h.1)⟩
        · obtain ⟨m, hbatch, -⟩ := ih records (eventBytes + chunk.length)
            { batch with
              finish := batch.finish + chunk.length, events := batch.events ++ [event] } (by simp)
          refine ⟨m + 1, ?_, fun h => by cases h⟩
          rw [hbatch, List.take_succ_cons, List.flatten_cons, List.length_append,
            List.filterMap_cons_some hevent]
          dsimp only
          rw [Nat.add_assoc, List.append_assoc, List.singleton_append]

theorem nextBatch_of_next {batch : Batch Time} (h : s.next packages f = some batch) :
    NextBatch packages s batch := by
  obtain ⟨g, hg, rfl⟩ := Option.map_eq_some_iff.mp h
  obtain ⟨m, hbatch, -⟩ := readBatch_eq packages f.batchLimit 0
    ⟨g, startIn s.cursor g, []⟩ (Lines.chunks newline (s.unread g))
  rw [hbatch]
  exact ⟨hg, m, rfl, rfl⟩

/-- A batch goes further than the cursor, or there was nothing left to read. -/
theorem next_progress {batch : Batch Time} (h : s.next packages f = some batch) :
    startIn s.cursor batch.segment < batch.finish ∨ s.unread batch.segment = [] := by
  obtain ⟨g, hg, rfl⟩ := Option.map_eq_some_iff.mp h
  obtain ⟨m, hbatch, hm⟩ := readBatch_eq packages f.batchLimit 0
    ⟨g, startIn s.cursor g, []⟩ (Lines.chunks newline (s.unread g))
  rw [hbatch]
  dsimp only
  cases hchunks : Lines.chunks newline (s.unread g) with
  | nil => exact .inr (Lines.chunks_eq_nil.mp hchunks)
  | cons chunk chunks =>
    left
    cases m with
    | zero =>
      rcases hm rfl with hzero | hnil | hne
      · exact absurd hzero f.batchLimit_pos.ne'
      · rw [hchunks] at hnil
        cases hnil
      · exact absurd rfl hne
    | succ m =>
      have hchunk : chunk ≠ [] := Lines.ne_nil_of_mem_chunks
        (hchunks ▸ List.mem_cons_self : chunk ∈ Lines.chunks newline (s.unread g))
      have hpos := List.length_pos_of_ne_nil hchunk
      rw [List.take_succ_cons, List.flatten_cons, List.length_append]
      omega

theorem unread_eq_nil {g : Segment} : s.unread g = [] ↔ g.size ≤ startIn s.cursor g :=
  List.drop_eq_nil_iff

theorem wp_nextBatch {Q : Option (Batch Time) → State Time → Prop} (hs : Consistent s)
    (hQ : Q (s.prepared.next packages f) s.prepared)
    (hE : ∀ e, e.Expected → E e s ∧ E e s.prepared) (hC : C s ∧ C s.prepared) :
    (nextBatch f packages).wp Q E C s := by
  have hprepared := hs.prepared
  have hfile := (hE .file (.inl rfl)).2
  rw [nextBatch, Attempt.wp_bind]
  refine wp_queueSegments ?_ hE hC
  rw [hprepared.sorted_eq]
  have hahead := hprepared.not_ahead
  cases hsegments : s.prepared.segments with
  | nil =>
    rw [State.next, hsegments] at hQ
    exact hQ
  | cons g segments =>
    have hhead : s.prepared.segments.head? = some g := by
      rw [hsegments]
      rfl
    have hnext : s.prepared.next packages f = some (readBatch packages f.batchLimit 0
        ⟨g, startIn s.prepared.cursor g, []⟩ (Lines.chunks newline (s.prepared.unread g))) := by
      rw [State.next, hhead]
      rfl
    have hstart := hprepared.startIn_le (List.mem_of_mem_head? hhead)
    rw [hsegments] at hahead
    rw [hnext] at hQ
    simp only [cursor, Attempt.wp_bind, wp_look, Attempt.wp_ite, Attempt.wp_throw, Attempt.wp_pure,
      wp_sync, hahead]
    refine ⟨hfile, hC.2, (fun h => absurd h (by decide)), fun _ =>
      ⟨(fun h => absurd h (by omega)), fun _ => ?_⟩⟩
    constructor
    · intro hdone
      have hnil : s.prepared.unread g = [] := unread_eq_nil.mpr hdone.ge
      rw [hnil, Lines.chunks_nil] at hQ
      have hbatch : readBatch packages f.batchLimit 0 ⟨g, startIn s.prepared.cursor g, []⟩ [] =
          ⟨g, startIn s.prepared.cursor g, []⟩ := by
        cases f.batchLimit <;> rfl
      rwa [hbatch] at hQ
    · intro hmore
      refine ⟨hfile, hC.2, fun hstuck => ?_, fun _ => hQ⟩
      have hsegment : ∀ chunks, (readBatch packages f.batchLimit 0
          ⟨g, startIn s.prepared.cursor g, []⟩ chunks).segment = g := by
        intro chunks
        obtain ⟨m, hbatch, -⟩ := readBatch_eq packages f.batchLimit 0
          ⟨g, startIn s.prepared.cursor g, []⟩ chunks
        rw [hbatch]
      rcases next_progress hnext with hlt | hnil
      · rw [hsegment] at hlt
        exact absurd hstuck hlt.ne'
      · rw [hsegment, unread_eq_nil] at hnil
        exact absurd (le_antisymm hstart hnil) hmore

theorem wp_upload {events : List (AccessLogEvent Time)} {Q : Unit → State Time → Prop}
    (hnone : events = [] → Q () s) (hE : ∀ e, E e s) (hC : C s)
    (hsent : ∀ payload s', marshalBatch packages events = some payload →
      writeLogs payload events s = some s' → Q () s' ∧ (∀ e, E e s') ∧ C s') :
    (upload packages events).wp Q E C s := by
  rw [upload]
  split
  · next h => exact hnone h
  · split
    · exact hE _
    · next payload hpayload =>
      rw [Attempt.wp_request]
      refine ⟨hE _, hC, fun s' hs' => ?_⟩
      obtain ⟨hQ, hE', hC'⟩ := hsent payload s' hpayload hs'
      exact ⟨hQ, hE' _, hC'⟩

theorem stat_head {g : Segment} (hg : s.segments.head? = some g) :
    s.stat g.sequence = some g.size := by
  obtain ⟨others, hsegments⟩ := List.head?_eq_some_iff.mp hg
  rw [State.stat, hsegments, List.find?_cons_of_pos (by simp)]
  rfl

/-- The batch is acknowledged, and its segment removed when all of it has been read. -/
theorem wp_ackBatch {batch : Batch Time} {Q : Unit → State Time → Prop} (hs : Consistent s)
    (h : NextBatch packages s batch)
    (hQ : batch.segment.size ≠ batch.finish → Q () (s.acknowledge batch))
    (hQ' : batch.segment.size = batch.finish →
      Q () ((s.acknowledge batch).remove batch.segment.sequence))
    (hE : ∀ s', s' = s ∨ s' = s.acknowledge batch ∨ batch.segment.size = batch.finish ∧
      s' = (s.acknowledge batch).remove batch.segment.sequence → E .file s' ∧ C s') :
    (ackBatch batch).wp Q E C s := by
  have hbefore := hE s (.inl rfl)
  have hacked := hE _ (.inr (.inl rfl))
  have hfinish := h.finish_le hs
  rw [ackBatch, Attempt.wp_bind, wp_look, stat_head h.segment]
  refine ⟨hbefore.1, hbefore.2, ?_⟩
  dsimp only
  simp only [Attempt.wp_ite, Attempt.wp_throw, Attempt.wp_bind, wp_change, wp_sync, Attempt.wp_pure]
  refine ⟨fun hshrank => absurd hfinish (by omega), fun _ => ?_⟩
  refine ⟨hbefore.1, hbefore.2, ⟨hacked.1, hacked.2, fun hall => ?_, hQ⟩, hacked.2⟩
  have hremoved := hE _ (.inr (.inr ⟨hall, rfl⟩))
  exact ⟨hacked.1, hacked.2, ⟨hremoved.1, hremoved.2, hQ' hall⟩, hremoved.2⟩

/-- What a `flushBatch` leaves alone. -/
def Unread (s s' : State Time) : Prop :=
  s' = { s with
    segments := s'.segments, cursor := s'.cursor, legacy := s'.legacy, acked := s'.acked,
    uploads := s'.uploads }

/-- Whatever happens to it, a `flushBatch` moves the queue. -/
theorem wp_flushBatch (hs : Consistent s) :
    (flushBatch packages f).wp (fun _ s' => Path packages f whole fits s s' ∧ Unread s s')
      (fun _ s' => Path packages f whole fits s s' ∧ Unread s s')
      (fun s' => Path packages f whole fits s s' ∧ Unread s s') s := by
  have hpath := path_prepared packages f whole fits s
  have hprepared := prepared_frame s
  have hframe : Unread s s.prepared := by
    have hcursor : s.prepared.cursor = s.cursor := by rw [hprepared]
    have hacked : s.prepared.acked = s.acked := by rw [hprepared]
    have huploads : s.prepared.uploads = s.uploads := by rw [hprepared]
    rw [Unread, hcursor, hacked, huploads, legacy_prepared]
    exact hprepared
  have hbefore : Path packages f whole fits s s ∧ Unread s s := ⟨.refl, rfl⟩
  rw [flushBatch, Attempt.wp_bind]
  refine wp_nextBatch hs ?_ (fun _ _ => ⟨hbefore, hpath, hframe⟩) ⟨hbefore, hpath, hframe⟩
  cases hnext : s.prepared.next packages f with
  | none => exact ⟨hpath, hframe⟩
  | some batch =>
    have hbatch := nextBatch_of_next hnext
    -- the acknowledgement, once the batch has been uploaded or holds nothing
    have hack : ∀ s₁, Path packages f whole fits s s₁ → Unread s s₁ →
        NextBatch packages s₁ batch →
        (batch.events ≠ [] → ⟨s₁.acked.length, batch.events⟩ ∈ s₁.uploads) →
        (do
          ackBatch batch
          pure true : Job Time Bool).wp (fun _ s' => Path packages f whole fits s s' ∧ Unread s s')
          (fun _ s' => Path packages f whole fits s s' ∧ Unread s s')
          (fun s' => Path packages f whole fits s s' ∧ Unread s s') s₁ := by
      intro s₁ hpath₁ hframe₁ hbatch₁ huploaded
      have hacked : Path packages f whole fits s (s₁.acknowledge batch) :=
        hpath₁.tail (.acknowledge hbatch₁ huploaded)
      have hackedFrame : Unread s (s₁.acknowledge batch) := by
        rw [Unread] at hframe₁ ⊢
        rw [hframe₁]
        rfl
      have hremoved : batch.segment.size = batch.finish →
          Path packages f whole fits s ((s₁.acknowledge batch).remove batch.segment.sequence) ∧
            Unread s ((s₁.acknowledge batch).remove batch.segment.sequence) := by
        intro hall
        refine ⟨hacked.tail (.remove hbatch₁.segment ?_), ?_⟩
        · rw [hall]
          rfl
        · rw [Unread] at hframe₁ ⊢
          rw [hframe₁]
          rfl
      rw [Attempt.wp_bind]
      refine wp_ackBatch (hpath₁.consistent hs) hbatch₁ (fun _ => ⟨hacked, hackedFrame⟩) hremoved ?_
      rintro s' (rfl | rfl | ⟨hall, rfl⟩)
      · exact ⟨⟨hpath₁, hframe₁⟩, hpath₁, hframe₁⟩
      · exact ⟨⟨hacked, hackedFrame⟩, hacked, hackedFrame⟩
      · exact ⟨hremoved hall, hremoved hall⟩
    dsimp only
    rw [Attempt.wp_bind]
    refine wp_upload (fun hnone => ?_) (fun _ => ⟨hpath, hframe⟩) ⟨hpath, hframe⟩ ?_
    · exact hack _ hpath hframe hbatch fun hne => absurd hnone hne
    · intro payload s' hpayload hsent
      have hupload : Path packages f whole fits s s' := hpath.tail (.upload hbatch hpayload hsent)
      rw [writeLogs] at hsent
      split at hsent
      · cases hsent
      · obtain rfl := Option.some.inj hsent
        have hkept : Unread s { s.prepared with
            uploads := s.prepared.uploads ++ [⟨s.prepared.acked.length, batch.events⟩] } := by
          rw [Unread] at hframe ⊢
          conv_lhs => rw [hframe]
        refine ⟨hack _ hupload hkept ⟨hbatch.segment, hbatch.read⟩ fun _ => ?_,
          fun _ => ⟨hupload, hkept⟩, hupload, hkept⟩
        exact List.mem_append_right _ (List.mem_singleton_self _)

end

end SimpleCdn.LogQueue
