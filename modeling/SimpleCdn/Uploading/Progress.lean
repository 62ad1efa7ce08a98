import Mathlib.Data.List.Infix
import SimpleCdn.Uploading.System

/-!
# When uploads make progress and record events once

A batch that is too long for the control plane to read is refused as a whole, so it stays at the
front of the queue.  An event is recorded a second time when its row has been dropped, by age or
by number, before a batch that holds it is handled again.  Otherwise each upload is accepted or
loses an event, and a replayed event changes nothing.
-/

namespace SimpleCdn.Uploading

open Transition SecurityStore

section

variable (packages : Packages)

/-- The request that the control plane handles. -/
def handled (s : State) : Action → Option (String × List SecurityEvent × Int)
  | .serve nodeID now => (s.edges nodeID).sent.map fun events => (nodeID, events, now)
  | .serveLate k now => s.late[k]?.map fun request => (request.1, request.2, now)
  | _ => none

/-- The batch of an upload that gets an answer is accepted, or the event that the answer names
leaves the queue. -/
def Progresses (s : State) (a : Action) : Prop :=
  ∀ nodeID now events, a = .serve nodeID now → (s.edges nodeID).sent = some events →
    nodeID ∈ s.nodes → (s.handle packages nodeID events now).1 = .accepted ∨
      ∃ index : Nat, index < events.length ∧
        (s.handle packages nodeID events now).1 = .invalidEvent index ∧
          ((step packages s a).edges nodeID).queue = (s.edges nodeID).queue.eraseIdx index

/-- No event is recorded twice; the events of an accepted batch are recorded; and the transaction
does what it would do without the events that had been recorded before. -/
structure RecordsOnce (s : State) (a : Action) : Prop where
  once : (step packages s a).recorded.Nodup
  all : ∀ nodeID events now, handled s a = some (nodeID, events, now) →
    (s.handle packages nodeID events now).1 = .accepted → ∀ event ∈ events,
      Text.trimSpace event.id ∈ (step packages s a).recorded
  replays : ∀ nodeID events now, handled s a = some (nodeID, events, now) →
    (s.handle packages nodeID events now).1 = .accepted →
      ∃ db, recordEvents packages nodeID now s.store 0 events = .ok db ∧
        recordEvents packages nodeID now s.store 0
          (events.filter fun event => !s.recorded.contains (Text.trimSpace event.id)) = .ok db

def Uploads (s : State) (a : Action) : Prop :=
  Progresses packages s a ∧ RecordsOnce packages s a

/-- The control plane can read the batch of an edge that waits for it. -/
def Readable (s : State) (a : Action) : Prop :=
  ∀ nodeID now events, a = .serve nodeID now → (s.edges nodeID).sent = some events →
    nodeID ∈ s.nodes → bytes (jsonBatch events) ≤ maxRequestBody

/-- If the control plane can read a batch, and all its events pass the checks, those that have been
recorded still have their rows. -/
def Remembered (s : State) (a : Action) : Prop :=
  ∀ nodeID events now, handled s a = some (nodeID, events, now) → nodeID ∈ s.nodes →
    bytes (jsonBatch events) ≤ maxRequestBody →
      (∀ event ∈ events, (s.store.check packages nodeID event now).toBool = true) →
        ∀ event ∈ events, Text.trimSpace event.id ∈ s.recorded →
          s.store.hasEvent (Text.trimSpace event.id) = true

/-- Batches can be read, and rows are kept as long as their events may be replayed. -/
def Uploadable (s : State) (a : Action) : Prop :=
  Readable s a ∧ Remembered packages s a

/-- The identifiers of the events, as the control plane reads them. -/
def eventIDs (events : List SecurityEvent) : List String :=
  events.map fun event => Text.trimSpace event.id

structure Inv (s : State) : Prop where
  queued : ∀ nodeID, (eventIDs (s.edges nodeID).queue).Nodup ∧
    ∀ id ∈ eventIDs (s.edges nodeID).queue, id ∈ s.issued
  sent : ∀ nodeID events, (s.edges nodeID).sent = some events →
    events ≠ [] ∧ events = (s.edges nodeID).queue.take Edge.securityUploadLimit
  late : ∀ request ∈ s.late, request.2 ≠ [] ∧ request.2.length ≤ maxSecurityBatch ∧
    (eventIDs request.2).Nodup
  rows : ∀ id, s.store.hasEvent id = true → id ∈ s.recorded

end

section

variable {packages : Packages} {s : State} {a : Action} {nodeID : String}
  {events : List SecurityEvent} {now : Int}

theorem Inv.sentBatch (hs : Inv s) (h : (s.edges nodeID).sent = some events) :
    events ≠ [] ∧ events.length ≤ maxSecurityBatch ∧ (eventIDs events).Nodup := by
  obtain ⟨hne, htake⟩ := hs.sent nodeID events h
  refine ⟨hne, ?_, ?_⟩
  · rw [htake]
    exact List.length_take_le _ _
  · rw [htake, eventIDs, List.map_take]
    exact (hs.queued nodeID).1.sublist (List.take_sublist _ _)

theorem Inv.batch (hs : Inv s) (h : handled s a = some (nodeID, events, now)) :
    events ≠ [] ∧ events.length ≤ maxSecurityBatch ∧ (eventIDs events).Nodup := by
  cases a with
  | serve n t =>
    obtain ⟨batch, hsent, heq⟩ := Option.map_eq_some_iff.mp h
    simp only [Prod.mk.injEq] at heq
    obtain ⟨rfl, rfl, rfl⟩ := heq
    exact hs.sentBatch hsent
  | serveLate k t =>
    obtain ⟨request, hrequest, heq⟩ := Option.map_eq_some_iff.mp h
    simp only [Prod.mk.injEq] at heq
    obtain ⟨rfl, rfl, rfl⟩ := heq
    exact hs.late request (List.mem_of_getElem? hrequest)
  | createNode | deleteNode | setPolicies | deleteSecurityBan | reconcileSecurity | collect
  | flush | giveUp => cases h

/-! ### Answers -/

theorem mem_newEventIDs {db : SecurityStore} {id : String} :
    id ∈ newEventIDs db events ↔
      (∃ event ∈ events, id = Text.trimSpace event.id) ∧ db.hasEvent id = false := by
  rw [newEventIDs, List.mem_dedup, List.mem_filter, List.mem_map, hasEvent,
    Option.isSome_eq_false_iff]
  refine and_congr_left fun _ => ?_
  constructor
  · rintro ⟨event, hevent, rfl⟩
    exact ⟨event, hevent, rfl⟩
  · rintro ⟨event, hevent, rfl⟩
    exact ⟨event, hevent, rfl⟩

/-- A batch that is recorded is accepted. -/
theorem handle_of_recorded {db : SecurityStore} (hnode : nodeID ∈ s.nodes)
    (hfits : bytes (jsonBatch events) ≤ maxRequestBody) (hne : events ≠ [])
    (hsize : events.length ≤ maxSecurityBatch)
    (hrecords : recordEvents packages nodeID now s.store 0 events = .ok db) :
    s.handle packages nodeID events now = (.accepted, { s with
      store := db.prune now
      recorded := newEventIDs s.store events ++ s.recorded }) := by
  have hcount : ¬ (events.length = 0 ∨ maxSecurityBatch < events.length) := by
    rw [List.length_eq_zero_iff, not_or]
    exact ⟨hne, Nat.not_lt.mpr hsize⟩
  rw [State.handle, if_neg (not_not.mpr hnode), if_neg (Nat.not_lt.mpr hfits), if_neg hcount,
    (recordSecurityEvents_eq_ok hne).mpr ⟨hsize, db, hrecords, rfl⟩]

/-- What the control plane does when it accepts a batch. -/
theorem handle_accepted (hne : events ≠ [])
    (h : (s.handle packages nodeID events now).1 = .accepted) :
    nodeID ∈ s.nodes ∧ bytes (jsonBatch events) ≤ maxRequestBody ∧
      ∃ db, recordEvents packages nodeID now s.store 0 events = .ok db ∧
        (s.handle packages nodeID events now).2 = { s with
          store := db.prune now
          recorded := newEventIDs s.store events ++ s.recorded } := by
  unfold State.handle at h
  split at h
  · cases h
  · next hnode =>
    split at h
    · cases h
    · next hfits =>
      split at h
      · cases h
      · next hsize =>
        obtain ⟨-, hsize⟩ := not_or.mp hsize
        split at h
        · next db hrecord =>
          obtain ⟨-, db₁, hrecords, -⟩ := (recordSecurityEvents_eq_ok hne).mp hrecord
          refine ⟨not_not.mp hnode, Nat.not_lt.mp hfits, db₁, hrecords, ?_⟩
          rw [handle_of_recorded (not_not.mp hnode) (Nat.not_lt.mp hfits) hne
            (Nat.not_lt.mp hsize) hrecords]
        · cases h
        · cases h

/-- A batch that is not accepted changes nothing. -/
theorem handle_refused (h : (s.handle packages nodeID events now).1 ≠ .accepted) :
    (s.handle packages nodeID events now).2 = s := by
  unfold State.handle at h ⊢
  split
  · rfl
  · split
    · rfl
    · split
      · rfl
      · split
        · next hnode hfits hsize _ db hrecord =>
          rw [if_neg hnode, if_neg hfits, if_neg hsize, hrecord] at h
          exact absurd rfl h
        · rfl
        · rfl

/-- A batch that the control plane reads is accepted, or one of its events is named. -/
theorem handle_answers (hnode : nodeID ∈ s.nodes)
    (hfits : bytes (jsonBatch events) ≤ maxRequestBody) (hne : events ≠ [])
    (hsize : events.length ≤ maxSecurityBatch) :
    (s.handle packages nodeID events now).1 = .accepted ∨ ∃ index : Nat, index < events.length ∧
      (s.handle packages nodeID events now).1 = .invalidEvent index := by
  cases hrecords : recordEvents packages nodeID now s.store 0 events with
  | ok db =>
    left
    rw [handle_of_recorded hnode hfits hne hsize hrecords]
  | error error =>
    right
    obtain ⟨index, message⟩ := error
    have hrecord : recordSecurityEvents packages s.store nodeID events now =
        .error (.input index message) := by
      rw [recordSecurityEvents, if_neg hne, require, if_pos hsize, hrecords]
      rfl
    have hcount : ¬ (events.length = 0 ∨ maxSecurityBatch < events.length) := by
      rw [List.length_eq_zero_iff, not_or]
      exact ⟨hne, Nat.not_lt.mpr hsize⟩
    rw [State.handle, if_neg (not_not.mpr hnode), if_neg (Nat.not_lt.mpr hfits), if_neg hcount,
      hrecord]
    have hbounds := recordEvents_error hrecords
    exact ⟨index, by simpa using hbounds.2, rfl⟩

theorem step_recorded :
    (step packages s a).recorded =
      match handled s a with
      | some (nodeID, events, now) => (s.handle packages nodeID events now).2.recorded
      | none => s.recorded := by
  cases a with
  | serve n t =>
    rw [step, handled]
    cases (s.edges n).sent with
    | none => rfl
    | some batch => rfl
  | serveLate k t =>
    rw [step, handled]
    cases s.late[k]? with
    | none => rfl
    | some request => rfl
  | createNode n => rfl
  | deleteNode n => rfl
  | setPolicies securityPolicies rateLimitPolicies => rfl
  | deleteSecurityBan ip => rfl
  | reconcileSecurity t => rfl
  | collect n lines ids =>
    simp only [step, handled]
    split
    · split
      · rfl
      · rfl
    · rfl
  | flush n =>
    simp only [step, handled]
    split
    · split
      · rfl
      · rfl
    · rfl
  | giveUp n arrives =>
    simp only [step, handled]
    split
    · rfl
    · rfl

/-! ### The invariant -/

theorem Inv.setEdge (hs : Inv s) {edge : EdgeQueue}
    (hqueued : (eventIDs edge.queue).Nodup ∧ ∀ id ∈ eventIDs edge.queue, id ∈ s.issued)
    (hsent : ∀ events, edge.sent = some events →
      events ≠ [] ∧ events = edge.queue.take Edge.securityUploadLimit) :
    Inv (s.setEdge nodeID edge) := by
  refine ⟨fun n => ?_, fun n batch h => ?_, hs.late, hs.rows⟩
  · simp only [State.setEdge]
    split
    · exact hqueued
    · exact hs.queued n
  · simp only [State.setEdge] at h ⊢
    split at h
    · next heq =>
      rw [if_pos heq]
      exact hsent batch h
    · next hne =>
      rw [if_neg hne]
      exact hs.sent n batch h

/-- Events leave the queue. -/
theorem Inv.shortened (hs : Inv s) (nodeID : String) {queue : List SecurityEvent}
    (h : queue.Sublist (s.edges nodeID).queue) :
    (eventIDs queue).Nodup ∧ ∀ id ∈ eventIDs queue, id ∈ s.issued := by
  obtain ⟨hnodup, hissued⟩ := hs.queued nodeID
  have hsublist : (eventIDs queue).Sublist (eventIDs (s.edges nodeID).queue) := h.map _
  exact ⟨hnodup.sublist hsublist, fun id hid => hissued id (hsublist.subset hid)⟩

theorem afterAnswer_sublist (queue : List SecurityEvent) (count : Nat) (answer : Edge.UploadAnswer) :
    (afterAnswer queue count answer).Sublist queue := by
  cases answer with
  | accepted => exact List.drop_sublist _ _
  | invalidEvent index =>
    rw [afterAnswer]
    split
    · exact List.eraseIdx_sublist _ _
    · exact List.Sublist.refl _
  | refused => exact List.Sublist.refl _

theorem decodeSecurityLog_id {raw : SecurityLogEvent} {id : String} {event : SecurityEvent}
    (h : decodeSecurityLog packages raw id = some event) : event.id = id := by
  simp only [decodeSecurityLog, Option.bind_eq_bind, Option.bind_eq_some_iff, Option.pure_def,
    Option.some.injEq] at h
  obtain ⟨-, -, -, -, -, -, -, -, -, -, -, -, rfl⟩ := h
  rfl

/-- The events of the lines have the identifiers made for them. -/
theorem collected_sublist (packages : Packages) (lines : List SecurityLogEvent)
    (ids : List String) :
    ((collected packages lines ids).map SecurityEvent.id).Sublist ids := by
  induction lines generalizing ids with
  | nil => simp [collected]
  | cons raw lines ih =>
    cases ids with
    | nil => simp [collected]
    | cons id ids =>
      have hrest := ih ids
      rw [collected] at hrest
      rw [collected, List.zip_cons_cons, List.filterMap_cons]
      split
      · exact hrest.cons id
      · next event hevent =>
        rw [List.map_cons, decodeSecurityLog_id hevent]
        exact hrest.cons_cons id

theorem Inv.collected (hs : Inv s) (nodeID : String) (lines : List SecurityLogEvent)
    {ids : List String}
    (hnodup : ids.Nodup) (hids : ∀ id ∈ ids,
      id ∉ s.issued ∧ packages.parsesUUID id = true ∧ Text.trimSpace id = id) :
    (eventIDs (enqueue (s.edges nodeID).queue (collected packages lines ids))).Nodup ∧
      ∀ id ∈ eventIDs (enqueue (s.edges nodeID).queue (collected packages lines ids)),
        id ∈ ids ++ s.issued := by
  obtain ⟨holdNodup, holdIssued⟩ := hs.queued nodeID
  have hsublist := collected_sublist packages lines ids
  have hnew : eventIDs (Uploading.collected packages lines ids) =
      (Uploading.collected packages lines ids).map SecurityEvent.id := by
    refine List.map_congr_left fun event hevent => ?_
    exact (hids event.id (hsublist.subset (List.mem_map_of_mem hevent))).2.2
  have hdropped : (eventIDs (enqueue (s.edges nodeID).queue
      (Uploading.collected packages lines ids))).Sublist
        (eventIDs (s.edges nodeID).queue ++ eventIDs (Uploading.collected packages lines ids)) := by
    rw [eventIDs, eventIDs, eventIDs, ← List.map_append]
    exact (List.drop_sublist _ _).map _
  rw [hnew] at hdropped
  constructor
  · refine List.Nodup.sublist hdropped (List.nodup_append.mpr
      ⟨holdNodup, hnodup.sublist hsublist, ?_⟩)
    rintro id hold _ hid rfl
    exact (hids id (hsublist.subset hid)).1 (holdIssued id hold)
  · intro id hid
    rcases List.mem_append.mp (hdropped.subset hid) with hold | hid
    · exact List.mem_append_right _ (holdIssued id hold)
    · exact List.mem_append_left _ (hsublist.subset hid)

/-- Changes of the tables that leave no new event. -/
theorem Inv.setStore (hs : Inv s) {db : SecurityStore}
    (h : ∀ id, db.hasEvent id = true → s.store.hasEvent id = true) :
    Inv { s with store := db } :=
  ⟨hs.queued, hs.sent, hs.late, fun id hrow => hs.rows id (h id hrow)⟩

theorem Inv.handle (hs : Inv s) (packages : Packages) (nodeID : String) (now : Int)
    (hne : events ≠ []) :
    Inv (s.handle packages nodeID events now).2 := by
  by_cases haccepted : (s.handle packages nodeID events now).1 = .accepted
  · obtain ⟨-, -, db, hrecords, hstate⟩ := handle_accepted hne haccepted
    rw [hstate]
    refine ⟨hs.queued, hs.sent, hs.late, fun id hrow => List.mem_append.mpr ?_⟩
    cases hold : s.store.hasEvent id with
    | true => exact .inr (hs.rows id hold)
    | false =>
      rcases (hasEvent_recordEvents hrecords).mp (hasEvent_prune hrow) with hnew | hrow
      · exact .inl (mem_newEventIDs.mpr ⟨hnew, hold⟩)
      · rw [hold] at hrow
        cases hrow
  · rw [handle_refused haccepted]
    exact hs

theorem handle_edges :
    (s.handle packages nodeID events now).2.edges = s.edges ∧
      (s.handle packages nodeID events now).2.late = s.late := by
  unfold State.handle
  split
  · exact ⟨rfl, rfl⟩
  · split
    · exact ⟨rfl, rfl⟩
    · split
      · exact ⟨rfl, rfl⟩
      · split
        · exact ⟨rfl, rfl⟩
        · exact ⟨rfl, rfl⟩
        · exact ⟨rfl, rfl⟩

theorem Inv.step (hs : Inv s) (a : Action) : Inv (step packages s a) := by
  cases a with
  | createNode n => exact ⟨hs.queued, hs.sent, hs.late, hs.rows⟩
  | deleteNode n =>
    have hstore : Inv { s with store := s.store.deleteNode n } := by
      refine hs.setStore fun id h => ?_
      simpa [hasEvent, deleteNode] using h
    exact ⟨hstore.queued, hstore.sent, hstore.late, hstore.rows⟩
  | setPolicies securityPolicies rateLimitPolicies =>
    refine hs.setStore fun id h => ?_
    simpa [hasEvent, setPolicies] using h
  | deleteSecurityBan ip => exact hs.setStore fun _ h => h
  | reconcileSecurity t => exact hs.setStore fun _ h => h
  | collect n lines ids =>
    rw [Uploading.step]
    split
    · split
      · next hnew =>
        have hissued : Inv { s with issued := ids ++ s.issued } :=
          ⟨fun n => ⟨(hs.queued n).1, fun id hid =>
            List.mem_append_right _ ((hs.queued n).2 id hid)⟩, hs.sent, hs.late, hs.rows⟩
        have hqueued := hs.collected n lines hnew.2.1 hnew.2.2
        refine hissued.setEdge ?_ fun _ h => by cases h
        dsimp only
        exact hqueued
      · exact hs
    · exact hs
  | flush n =>
    simp only [Uploading.step]
    split
    · split
      · exact hs
      · next hne =>
        refine hs.setEdge (hs.queued n) fun batch h => ?_
        obtain rfl := Option.some.inj h
        refine ⟨fun hempty => ?_, rfl⟩
        rcases List.take_eq_nil_iff.mp hempty with hzero | hempty
        · cases hzero
        · exact hne hempty
    · exact hs
  | giveUp n arrives =>
    rw [Uploading.step]
    split
    · next batch hsent =>
      have hlate : Inv { s with late := if arrives then (n, batch) :: s.late else s.late } := by
        refine ⟨hs.queued, hs.sent, fun request hrequest => ?_, hs.rows⟩
        dsimp only at hrequest
        split at hrequest
        · rcases List.mem_cons.mp hrequest with rfl | hrequest
          · exact hs.sentBatch hsent
          · exact hs.late request hrequest
        · exact hs.late request hrequest
      exact hlate.setEdge (hs.queued n) fun _ h => by cases h
    · exact hs
  | serve n t =>
    rw [Uploading.step]
    split
    · next batch hsent =>
      have hhandled := hs.handle packages n t (hs.sentBatch hsent).1
      refine hhandled.setEdge ?_ fun _ h => by cases h
      refine hhandled.shortened n ?_
      rw [handle_edges.1]
      exact afterAnswer_sublist _ _ _
    · exact hs
  | serveLate k t =>
    rw [Uploading.step]
    split
    · next n batch hrequest =>
      have hhandled := hs.handle packages n t (hs.late (n, batch) (List.mem_of_getElem? hrequest)).1
      exact ⟨hhandled.queued, hhandled.sent, fun request h => hs.late request (List.mem_of_mem_eraseIdx h),
        hhandled.rows⟩
    · exact hs

/-! ### The condition -/

/-- Under the condition no event of an accepted batch is recorded again. -/
theorem Remembered.fresh (h : Remembered packages s a) (hs : Inv s)
    (hhandled : handled s a = some (nodeID, events, now))
    (haccepted : (s.handle packages nodeID events now).1 = .accepted) {event : SecurityEvent}
    (hevent : event ∈ events) (hrecorded : Text.trimSpace event.id ∈ s.recorded) :
    s.store.hasEvent (Text.trimSpace event.id) = true := by
  obtain ⟨hne, -, hnodup⟩ := hs.batch hhandled
  obtain ⟨hnode, hfits, db, hrecords, -⟩ := handle_accepted hne haccepted
  refine h nodeID events now hhandled hnode hfits (fun other hother => ?_) event hevent hrecorded
  obtain ⟨result, hcheck⟩ := check_of_recordEvents hrecords hnodup other hother
  rw [hcheck]
  rfl

theorem RecordsOnce.of_remembered (hs : Inv s) (hnodup : s.recorded.Nodup)
    (h : Remembered packages s a) : RecordsOnce packages s a := by
  constructor
  case once =>
    rw [step_recorded]
    split
    · next nodeID events now hhandled =>
      by_cases haccepted : (s.handle packages nodeID events now).1 = .accepted
      · obtain ⟨-, -, db, hrecords, hstate⟩ :=
          handle_accepted (hs.batch hhandled).1 haccepted
        rw [hstate]
        refine List.nodup_append.mpr ⟨List.nodup_dedup _, hnodup, ?_⟩
        rintro id hnew _ hrecorded rfl
        obtain ⟨⟨event, hevent, rfl⟩, hrow⟩ := mem_newEventIDs.mp hnew
        rw [h.fresh hs hhandled haccepted hevent hrecorded] at hrow
        cases hrow
      · rw [handle_refused haccepted]
        exact hnodup
    · exact hnodup
  case all =>
    intro nodeID events now hhandled haccepted event hevent
    obtain ⟨-, -, db, hrecords, hstate⟩ := handle_accepted (hs.batch hhandled).1 haccepted
    rw [step_recorded, hhandled]
    dsimp only
    rw [hstate]
    cases hrow : s.store.hasEvent (Text.trimSpace event.id) with
    | true => exact List.mem_append_right _ (hs.rows _ hrow)
    | false => exact List.mem_append_left _ (mem_newEventIDs.mpr ⟨⟨event, hevent, rfl⟩, hrow⟩)
  case replays =>
    intro nodeID events now hhandled haccepted
    obtain ⟨-, -, db, hrecords, -⟩ := handle_accepted (hs.batch hhandled).1 haccepted
    refine ⟨db, hrecords, recordEvents_filter hrecords fun event hevent hreplayed => ?_⟩
    exact h.fresh hs hhandled haccepted hevent (List.contains_iff_mem.mp hreplayed)

theorem Progresses.of_readable (hs : Inv s) (h : Readable s a) : Progresses packages s a := by
  rintro nodeID now events rfl hsent hnode
  have hhandled : handled s (.serve nodeID now) = some (nodeID, events, now) := by
    rw [handled, hsent]
    rfl
  obtain ⟨hne, hsize, -⟩ := hs.batch hhandled
  refine (handle_answers hnode (h nodeID now events rfl hsent hnode) hne hsize).imp_right ?_
  rintro ⟨index, hindex, hanswer⟩
  refine ⟨index, hindex, hanswer, ?_⟩
  simp [Uploading.step, hsent, State.serve, hanswer, State.setEdge, afterAnswer, hindex]

theorem Readable.of_progresses (h : Progresses packages s a) : Readable s a := by
  rintro nodeID now events rfl hsent hnode
  by_contra hlong
  have hrefused : (s.handle packages nodeID events now).1 = .refused := by
    rw [State.handle, if_neg (not_not.mpr hnode), if_pos (Nat.not_le.mp hlong)]
  rcases h nodeID now events rfl hsent hnode with haccepted | ⟨index, -, hanswer, -⟩
  · rw [hrefused] at haccepted
    cases haccepted
  · rw [hrefused] at hanswer
    cases hanswer

/-- A batch whose events all pass is accepted, so no event in it is recorded again. -/
theorem Remembered.of_recordsOnce (hs : Inv s) (h : RecordsOnce packages s a) :
    Remembered packages s a := by
  intro nodeID events now hhandled hnode hfits hpass event hevent hrecorded
  obtain ⟨hne, hsize, -⟩ := hs.batch hhandled
  have hchecks : ∀ event ∈ events, ∃ result,
      s.store.check packages nodeID event now = .ok result := by
    intro event hevent
    have hok := hpass event hevent
    cases hcheck : s.store.check packages nodeID event now with
    | ok result => exact ⟨result, rfl⟩
    | error e =>
      rw [hcheck] at hok
      cases hok
  obtain ⟨db, hrecords⟩ := exists_recordEvents 0 hchecks
  have honce := h.once
  rw [step_recorded, hhandled] at honce
  dsimp only at honce
  rw [handle_of_recorded hnode hfits hne hsize hrecords] at honce
  cases hrow : s.store.hasEvent (Text.trimSpace event.id) with
  | true => rfl
  | false =>
    have hnew : Text.trimSpace event.id ∈ newEventIDs s.store events :=
      mem_newEventIDs.mpr ⟨⟨event, hevent, rfl⟩, hrow⟩
    exact absurd rfl ((List.nodup_append.mp honce).2.2 _ hnew _ hrecorded)

end

theorem inv_initial : Inv initial where
  queued := fun nodeID => ⟨List.nodup_nil, fun id hid => absurd hid List.not_mem_nil⟩
  sent := fun nodeID events h => by cases (show none = some events from h)
  late := fun request hrequest => absurd hrequest List.not_mem_nil
  rows := fun id h => by cases (show false = true from h)

/-- **Uploads make progress and record events once** in a run exactly if batches can be read and
the rows of events that may be replayed are kept. -/
theorem uploads_iff (packages : Packages) (as : List Action) :
    Along (step packages) (Uploadable packages) initial as ↔
      Along (step packages) (Uploads packages) initial as := by
  constructor
  · intro h
    refine h.of_invariant (P := fun s => Inv s ∧ s.recorded.Nodup) ?_ ?_
      ⟨inv_initial, List.nodup_nil⟩
    · rintro s a ⟨hs, hnodup⟩ ⟨-, hremembered⟩
      exact ⟨hs.step a, (RecordsOnce.of_remembered hs hnodup hremembered).once⟩
    · rintro s a ⟨hs, hnodup⟩ ⟨hreadable, hremembered⟩
      exact ⟨.of_readable hs hreadable, .of_remembered hs hnodup hremembered⟩
  · intro h
    refine h.of_invariant (P := Inv) (fun s a hs _ => hs.step a) ?_ inv_initial
    rintro s a hs ⟨hprogresses, hrecords⟩
    exact ⟨.of_progresses hprogresses, .of_recordsOnce hs hrecords⟩

/-! ### A batch of long paths -/

/-- The 36 characters of a UUID; the one time used here; ASCII letters; a pattern without operators
matches where it occurs. -/
def plainPackages : Packages where
  parsesUUID s :=
    (s.toList.splitOn '-').map List.length = [8, 4, 4, 4, 12] &&
      s.toList.all fun c => c = '-' || c.isDigit || ('a' ≤ c && c ≤ 'f')
  parseTime text :=
    if text = "2026-01-01T00:00:00Z" then some (1767225600 * second, text) else none
  toUpper s := String.ofList (s.toList.map Char.toUpper)
  matchString pattern path := decide (pattern.toList <:+: path.toList)

/-- A path that a scanner for `.env` files might ask for. -/
def scannedPath (n : Nat) : String :=
  String.ofList ('/' :: List.replicate n '<' ++ ['/', '.', 'e', 'n', 'v'])

/-- The line of a request for it. -/
def scanLine (n : Nat) : SecurityLogEvent where
  timestamp := "2026-01-01T00:00:00Z"
  policyID := "00000000-0000-4000-8000-000000000001"
  action := "ban"
  banSeconds := 3600
  clientIP := "8.8.8.8"
  host := "a.example"
  method := "GET"
  path := scannedPath n

/-- The event of the line. -/
def scanEvent (n : Nat) (id : String) : SecurityEvent where
  id := id
  policyID := "00000000-0000-4000-8000-000000000001"
  clientIP := "8.8.8.8"
  host := "a.example"
  path := scannedPath n
  method := "GET"
  action := .ban
  banDurationSeconds := 3600
  observedAt := 1767225600 * second
  observedAtText := "2026-01-01T00:00:00Z"

theorem trimSpace_scannedPath (n : Nat) : Text.trimSpace (scannedPath n) = scannedPath n := by
  simp [Text.trimSpace, scannedPath, Text.isSpace]

theorem byteLength_scannedPath (n : Nat) : Text.byteLength (scannedPath n) = n + 6 := by
  have hchar : Char.utf8Size '<' = 1 := by decide
  have hrest : (['/', '.', 'e', 'n', 'v'].map Char.utf8Size).sum = 5 := by decide
  have hfirst : Char.utf8Size '/' = 1 := by decide
  rw [Text.byteLength, scannedPath, String.toList_ofList, List.cons_append, List.map_cons,
    List.sum_cons, List.map_append, List.sum_append, List.map_replicate, List.sum_replicate_nat,
    hchar, hrest, hfirst]
  omega

/-- Each `<` takes six bytes in JSON. -/
theorem bytes_scannedPath (n : Nat) :
    6 * n ≤ bytes ((scannedPath n).toList.flatMap jsonChar) := by
  have hchar : bytes (jsonChar '<') = 6 := by decide
  have hmiddle : bytes ((List.replicate n '<').flatMap jsonChar) = 6 * n := by
    induction n with
    | zero => rfl
    | succ n ih =>
      rw [List.replicate_succ, List.flatMap_cons, bytes_append, ih, hchar]
      omega
  rw [scannedPath, String.toList_ofList, List.cons_append, List.flatMap_cons, List.flatMap_append,
    bytes_append, bytes_append, hmiddle]
  omega

theorem decode_scanLine {n : Nat} (hn : n ≤ 2042) (id : String) :
    decodeSecurityLog plainPackages (scanLine n) id = some (scanEvent n id) := by
  have hpolicy : plainPackages.parsesUUID "00000000-0000-4000-8000-000000000001" = true := by
    decide +kernel
  have hip : Text.trimSpace "8.8.8.8" = "8.8.8.8" ∧ Edge.isPublicIPv4 "8.8.8.8" = true := by
    decide +kernel
  have hhost : Text.trimSpace "a.example" = "a.example" ∧ Text.byteLength "a.example" ≤ 255 := by
    decide +kernel
  have hmethod : plainPackages.toUpper (Text.trimSpace "GET") = "GET" ∧
      Text.byteLength "GET" ≤ 16 := by decide +kernel
  have hpath : scannedPath n ≠ "" := by
    intro hempty
    have hlength := byteLength_scannedPath n
    rw [hempty] at hlength
    cases hlength
  have hsize : n + 6 ≤ 2048 := by omega
  simp only [decodeSecurityLog, scanLine, hpolicy, hip, hhost, hmethod, trimSpace_scannedPath,
    byteLength_scannedPath, hsize, ne_eq, hpath, not_false_eq_true, and_self, guard_true]
  rfl

/-- A UUID that ends in the two digits of `n`. -/
def numberedID (n : Nat) : String :=
  String.ofList ("00000000-0000-4000-8000-0000000000".toList ++
    [Char.ofNat (48 + n / 10), Char.ofNat (48 + n % 10)])

/-- A new edge reads a line for each identifier and uploads the events. -/
def scanned (n : Nat) (ids : List String) : List Action :=
  [.createNode "edge", .collect "edge" (ids.map fun _ => scanLine n) ids, .flush "edge"]

section

variable {n : Nat} {ids : List String}

theorem collected_scanned (hn : n ≤ 2042) :
    collected plainPackages (ids.map fun _ => scanLine n) ids = ids.map (scanEvent n) := by
  induction ids with
  | nil => rfl
  | cons id ids ih =>
    rw [collected] at ih
    simp only [collected, List.map_cons, List.zip_cons_cons, List.filterMap_cons,
      decode_scanLine hn id, ih]

theorem enqueue_nil {events : List SecurityEvent}
    (h : events.length ≤ Edge.securityEventQueueLimit) : enqueue [] events = events := by
  rw [enqueue, List.nil_append, Nat.sub_eq_zero_of_le h, List.drop_zero]

/-- An edge that has read these lines waits for the upload of all of them. -/
theorem scanned_sent (hn : n ≤ 2042) (hne : ids ≠ [])
    (hlength : ids.length ≤ Edge.securityUploadLimit) (hnodup : ids.Nodup)
    (hids : ∀ id ∈ ids, plainPackages.parsesUUID id = true ∧ Text.trimSpace id = id) :
    ((run (step plainPackages) initial (scanned n ids)).edges "edge").sent =
        some (ids.map (scanEvent n)) ∧
      "edge" ∈ (run (step plainPackages) initial (scanned n ids)).nodes := by
  have hguard : (ids.map fun _ => scanLine n).length = ids.length ∧ ids.Nodup ∧
      ∀ id ∈ ids, id ∉ initial.issued ∧ plainPackages.parsesUUID id = true ∧
        Text.trimSpace id = id :=
    ⟨List.length_map _, hnodup, fun id hid => ⟨List.not_mem_nil, hids id hid⟩⟩
  have hlimit : (ids.map (scanEvent n)).length ≤ Edge.securityEventQueueLimit := by
    rw [List.length_map]
    exact hlength.trans (by decide)
  have hcollected : step plainPackages { initial with nodes := ["edge"] }
      (.collect "edge" (ids.map fun _ => scanLine n) ids) =
        { initial with nodes := ["edge"], issued := ids ++ [] }.setEdge "edge"
          ⟨ids.map (scanEvent n), none⟩ := by
    rw [← enqueue_nil hlimit, ← collected_scanned hn]
    exact if_pos hguard
  have hqueue : ids.map (scanEvent n) ≠ [] := by simpa using hne
  have htake : (ids.map (scanEvent n)).take Edge.securityUploadLimit = ids.map (scanEvent n) :=
    List.take_of_length_le (by rwa [List.length_map])
  rw [scanned, run_cons, run_cons, run_cons, run_nil,
    show step plainPackages initial (.createNode "edge") = { initial with nodes := ["edge"] } from rfl,
    hcollected]
  simp only [step, State.setEdge, if_true, if_neg hqueue, htake, List.mem_singleton, and_self]

/-- The control plane cannot read the request if the events have more than a megabyte. -/
theorem scanned_long (hn : n ≤ 2042) (hlength : ids.length ≤ Edge.securityUploadLimit)
    (hnodup : ids.Nodup)
    (hids : ∀ id ∈ ids, plainPackages.parsesUUID id = true ∧ Text.trimSpace id = id)
    (hlong : maxRequestBody < ids.length * (6 * n)) (now : Int) :
    ¬ Along (step plainPackages) (Uploads plainPackages) initial
      (scanned n ids ++ [.serve "edge" now]) := by
  intro h
  obtain ⟨-, ⟨hprogresses, -⟩, -⟩ := (along_append _ _ _).mp h
  have hne : ids ≠ [] := by
    rintro rfl
    simp at hlong
  obtain ⟨hsent, hnode⟩ := scanned_sent hn hne hlength hnodup hids
  have hfits := Readable.of_progresses hprogresses "edge" now _ rfl hsent hnode
  have hbatch : (ids.map (scanEvent n)).length * (6 * n) ≤
      bytes (jsonBatch (ids.map (scanEvent n))) := by
    refine length_mul_le_batch fun event hevent => ?_
    obtain ⟨id, -, rfl⟩ := List.mem_map.mp hevent
    exact bytes_scannedPath n
  rw [List.length_map] at hbatch
  exact absurd hfits (Nat.not_le.mpr (hlong.trans_le hbatch))

end

/-- One hundred identifiers. -/
def scanIDs : List String :=
  (List.range 100).map numberedID

theorem scanIDs_length : scanIDs.length = 100 := by
  rw [scanIDs, List.length_map, List.length_range]

theorem numberedID_inj {i j : Nat} (hi : i < 100) (hj : j < 100)
    (h : numberedID i = numberedID j) : i = j := by
  have hdigit : ∀ a < 10, ∀ b < 10, Char.ofNat (48 + a) = Char.ofNat (48 + b) → a = b := by
    decide +kernel
  have hdigits := List.append_cancel_left (String.ofList_injective h)
  have htens := hdigit (i / 10) (by omega) (j / 10) (by omega) (List.cons.inj hdigits).1
  have hones := hdigit (i % 10) (by omega) (j % 10) (by omega)
    (List.cons.inj (List.cons.inj hdigits).2).1
  omega

theorem scanIDs_nodup : scanIDs.Nodup :=
  List.nodup_range.map_on fun _ hi _ hj h =>
    numberedID_inj (List.mem_range.mp hi) (List.mem_range.mp hj) h

/-- The characters of an identifier that ends in the digits `a` and `b`. -/
def numberedDigits (a b : Nat) : List Char :=
  ['0', '0', '0', '0', '0', '0', '0', '0', '-', '0', '0', '0', '0', '-', '4', '0', '0', '0', '-',
    '8', '0', '0', '0', '-', '0', '0', '0', '0', '0', '0', '0', '0', '0', '0',
    Char.ofNat (48 + a), Char.ofNat (48 + b)]

theorem numberedID_toList (n : Nat) : (numberedID n).toList = numberedDigits (n / 10) (n % 10) := by
  have hstart : "00000000-0000-4000-8000-0000000000".toList = ['0', '0', '0', '0', '0', '0', '0',
      '0', '-', '0', '0', '0', '0', '-', '4', '0', '0', '0', '-', '8', '0', '0', '0', '-', '0',
      '0', '0', '0', '0', '0', '0', '0', '0', '0'] := by
    decide +kernel
  have happend : (numberedID n).toList = "00000000-0000-4000-8000-0000000000".toList ++
      [Char.ofNat (48 + n / 10), Char.ofNat (48 + n % 10)] := String.toList_ofList
  rw [happend, hstart]
  rfl

theorem numberedDigits_valid : ∀ a < 10, ∀ b < 10,
    (((numberedDigits a b).splitOn '-').map List.length = [8, 4, 4, 4, 12] &&
      (numberedDigits a b).all fun c => c = '-' || c.isDigit || ('a' ≤ c && c ≤ 'f')) = true ∧
    (((numberedDigits a b).dropWhile Text.isSpace).reverse.dropWhile Text.isSpace).reverse =
      numberedDigits a b := by
  decide +kernel

theorem scanIDs_valid :
    ∀ id ∈ scanIDs, plainPackages.parsesUUID id = true ∧ Text.trimSpace id = id := by
  intro id hid
  obtain ⟨n, hn, rfl⟩ := List.mem_map.mp hid
  have hn' : n < 100 := List.mem_range.mp hn
  obtain ⟨hparses, htrimmed⟩ := numberedDigits_valid (n / 10) (by omega) (n % 10) (by omega)
  rw [← numberedID_toList] at hparses htrimmed
  exact ⟨hparses, by rw [Text.trimSpace, htrimmed, String.ofList_toList]⟩

/-- A hundred lines with paths of 2048 bytes make a request of more than a megabyte, which is
refused as a whole. -/
theorem scanned_refused :
    ¬ Along (step plainPackages) (Uploads plainPackages) initial
      (scanned 2042 scanIDs ++ [.serve "edge" (1767225600 * second)]) := by
  have hlength : scanIDs.length ≤ Edge.securityUploadLimit := by
    rw [scanIDs_length]
    decide
  have hlong : maxRequestBody < scanIDs.length * (6 * 2042) := by
    rw [scanIDs_length]
    decide
  exact scanned_long (le_refl 2042) hlength scanIDs_nodup scanIDs_valid hlong _

end SimpleCdn.Uploading
