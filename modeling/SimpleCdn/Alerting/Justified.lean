import SimpleCdn.Alerting.Pauses

/-!
# Which pauses are announced

Along an orderly run an alert is held back only for the pause that has been announced.  The
invariant: a node that has been active since its incident was written down is about to have its
resumption announced, or its incident is over.
-/

namespace SimpleCdn.Alerting.Pauses

open Transition NotificationStore Store

structure Inv (s : State) : Prop where
  active : ∀ n, s.isActive n → n ∈ s.activeSince
  resumes : ∀ n, s.incident n = true → n ∈ s.activeSince → s.resumes n

section

variable {s : State} {call : PendingNotification} {profile : SMTPProfile}
  {details : List NotificationDetail} {failures : NotifyFailures} {now : Time} {n : String}

/-! ### Messages -/

theorem monitoringKey_inj {n n' : String} (h : monitoringKey n = monitoringKey n') : n = n' := by
  unfold monitoringKey at h
  simpa using h

theorem monitoringKey_ne (n : String) : monitoringKey n ≠ "" := by
  unfold monitoringKey
  intro h
  have hlength := congrArg String.length h
  simp at hlength

theorem handle_of_resumed (hresumed : call.resumed = true) :
    s.handle call profile details failures now =
      s.notifications.notifyResolved false (notifies profile .monitoring)
        (monitoringNotification call.nodeID true details now) failures := by
  have hkey := monitoringKey_ne call.nodeID
  simp [State.handle, notifyNotification, monitoringNotification, hresumed, hkey]

theorem handle_of_paused (hpaused : call.resumed = false) :
    s.handle call profile details failures now =
      if notifies profile .monitoring = false then (.ignored, s.notifications)
      else s.notifications.notifyIncident
        (monitoringNotification call.nodeID false details now) failures now := by
  have hkey := monitoringKey_ne call.nodeID
  simp [State.handle, notifyNotification, monitoringNotification, hpaused, hkey]

/-- The message about a pause changes nothing unless it goes out and is written down. -/
theorem handle_paused (hpaused : call.resumed = false) :
    (s.handle call profile details failures now).2 = s.notifications ∨
      (s.handle call profile details failures now).1 = .delivered ∧
        (s.handle call profile details failures now).2 =
          s.notifications.markNotificationDelivered (monitoringKey call.nodeID) true now := by
  rw [handle_of_paused hpaused]
  split
  · exact .inl rfl
  · exact notifyIncident_db

/-- A call leaves the incidents of other nodes alone. -/
theorem handle_other (h : n ≠ call.nodeID) :
    (s.handle call profile details failures now).2.incidentActive (monitoringKey n) =
      s.incident n := by
  have hkey : monitoringKey n ≠ monitoringKey call.nodeID := fun heq => h (monitoringKey_inj heq)
  cases hresumed : call.resumed with
  | true =>
    rw [handle_of_resumed hresumed]
    rcases notifyResolved_db with hsame | hresolved
    · rw [hsame]
      rfl
    · rw [hresolved]
      exact incidentActive_resolve_ne hkey
  | false =>
    rcases handle_paused hresumed with hsame | ⟨-, hmarked⟩
    · rw [hsame]
      rfl
    · rw [hmarked]
      exact incidentActive_mark_ne hkey

/-- The message about a resumption ends the incident, if its calls succeed. -/
theorem handle_resumed (hresumed : call.resumed = true)
    (hsucceeds : s.incident call.nodeID = true → Succeeds profile failures) :
    (s.handle call profile details failures now).2.incidentActive (monitoringKey call.nodeID) =
      false := by
  rw [handle_of_resumed hresumed]
  cases hincident : s.incident call.nodeID with
  | true =>
    obtain ⟨hread, hwrite, hdeliver⟩ := hsucceeds hincident
    exact notifyResolved_ends hread hwrite hdeliver
  | false =>
    rw [notifyResolved_inactive]
    · exact hincident
    · exact hincident

theorem incident_of_suppressed (hpaused : call.resumed = false)
    (h : (s.handle call profile details failures now).1 = .suppressed) :
    s.incident call.nodeID = true := by
  rw [handle_of_paused hpaused] at h
  split at h
  · cases h
  · unfold notifyIncident at h
    split at h
    · cases h
    · split at h
      · next hactive => exact (Bool.and_eq_true _ _ ▸ hactive).2
      · split at h
        · cases h
        · unfold deliver at h
          split at h
          · cases h
          · split at h
            · cases h
            · cases h

/-! ### Steps -/

/-- The nodes that are active now have been active since. -/
theorem Inv.observe (s' : State)
    (h : ∀ n, s'.incident n = true → n ∈ s'.activeSince ++ activeNodes s'.db → s'.resumes n) :
    Inv { s' with activeSince := s'.activeSince ++ activeNodes s'.db } where
  active := fun _ hn => List.mem_append_right _ hn
  resumes := h

/-- A call that is over was not the one that is awaited. -/
theorem resumes_eraseIdx {i : Nat} {pending : List PendingNotification}
    (hcall : pending[i]? = some call) (hother : call.nodeID ≠ n ∨ call.resumed = false)
    (h : ∃ call' ∈ pending, call'.nodeID = n ∧ call'.resumed = true) :
    ∃ call' ∈ pending.eraseIdx i, call'.nodeID = n ∧ call'.resumed = true := by
  obtain ⟨call', hmem, hid, hresumed⟩ := h
  obtain ⟨j, hj⟩ := List.mem_iff_getElem?.mp hmem
  refine ⟨call', List.mem_eraseIdx_iff_getElem?.mpr ⟨j, fun hij => ?_, hj⟩, hid, hresumed⟩
  rw [hij, hcall, Option.some.injEq] at hj
  subst hj
  rcases hother with hne | hpaused
  · exact hne hid
  · rw [hresumed] at hpaused
    cases hpaused

theorem mem_activeNodes {db : MonitoredStore} :
    n ∈ activeNodes db ↔ ∃ node ∈ db.nodes, node.id = n ∧ node.status = .active := by
  unfold activeNodes
  rw [List.mem_map]
  constructor
  · rintro ⟨node, hmem, hid⟩
    obtain ⟨hrow, hactive⟩ := List.mem_filter.mp hmem
    exact ⟨node, hrow, hid, of_decide_eq_true hactive⟩
  · rintro ⟨node, hrow, hid, hactive⟩
    exact ⟨node, List.mem_filter.mpr ⟨hrow, decide_eq_true hactive⟩, hid⟩

/-- A node that a report turns active was resumed, and the request says so. -/
theorem report_activates {db db' : MonitoredStore} {nodeID : String} {node : Node}
    {round : MonitoringRound} (hnode : db.nodes.find? nodeID = some node)
    (hrecord : db.recordMonitoringRound nodeID round now = .ok db') (hactive : n ∈ activeNodes db')
    (hbefore : n ∉ activeNodes db) :
    n = nodeID ∧ (roundOutcome db node round).notifies = true ∧
      (roundOutcome db node round).nodeStatus = .active := by
  simp only [MonitoredStore.recordMonitoringRound, Store.recordMonitoringRound, bind_eq_ok,
    require_eq_ok, pure_eq_ok, exists_const] at hrecord
  obtain ⟨-, -, -, -, store, ⟨-, -, hstore⟩, rfl⟩ := hrecord
  subst hstore
  obtain ⟨node', hmem, hid, hstatus⟩ := mem_activeNodes.mp hactive
  obtain ⟨old, hold, rfl⟩ := List.mem_map.mp hmem
  split at hstatus
  · next hself =>
    have hnodeID : old.id = nodeID := of_decide_eq_true hself
    have hsame : old = node :=
      Table.eq_of_key_eq hold (Table.mem_of_find? hnode) (hnodeID.trans (Table.key_of_find? hnode).symm)
    rw [if_pos hself] at hid
    subst hsame
    have hnotActive : old.status ≠ .active :=
      fun h => hbefore (mem_activeNodes.mpr ⟨old, hold, hid, h⟩)
    have houtcome : (roundOutcome db old round).nodeStatus = .active := by
      unfold roundOutcome
      rw [hnodeID]
      exact hstatus
    refine ⟨hid.symm.trans hnodeID, ?_, houtcome⟩
    have hchanged : (roundOutcome db old round).statusChanged = true := by
      show decide ((roundOutcome db old round).nodeStatus ≠ old.status) = true
      rw [houtcome]
      exact decide_eq_true (Ne.symm hnotActive)
    rw [MonitoringRoundOutcome.notifies, hchanged, Bool.true_or]
  · next hother =>
    rw [if_neg hother] at hid
    exact absurd (mem_activeNodes.mpr ⟨old, hold, hid, hstatus⟩) hbefore

/-- An operation that turns no node active during its incident. -/
theorem Inv.database (h : Inv s) {db : MonitoredStore}
    (hkept : ∀ n, s.incident n = true → n ∈ activeNodes db → n ∈ activeNodes s.db) :
    Inv { s with db := db, activeSince := s.activeSince ++ activeNodes db } := by
  refine Inv.observe { s with db := db } fun n hincident hsince => ?_
  rcases List.mem_append.mp hsince with hbefore | hactive
  · exact h.resumes n hincident hbefore
  · exact h.resumes n hincident (h.active n (hkept n hincident hactive))

theorem Inv.stay (h : Inv s) : Inv { s with activeSince := s.activeSince ++ activeNodes s.db } :=
  h.database fun _ _ hactive => hactive

theorem Inv.onDatabase (h : Inv s) (result : Except StoreError MonitoredStore)
    (hkept : ∀ n, s.incident n = true → n ∈ activeNodes (s.onDatabase result).db →
      n ∈ activeNodes s.db) :
    Inv { s.onDatabase result with
      activeSince := (s.onDatabase result).activeSince ++ activeNodes (s.onDatabase result).db } := by
  cases result with
  | ok db => exact h.database hkept
  | error e => exact h.stay

/-- Requests that are over without a message. -/
theorem Inv.drop (h : Inv s) {pending : List PendingNotification}
    (hkept : ∀ n, s.incident n = true → s.resumes n →
      ∃ call ∈ pending, call.nodeID = n ∧ call.resumed = true) :
    Inv { s with pending := pending, activeSince := s.activeSince ++ activeNodes s.db } := by
  refine Inv.observe { s with pending := pending } fun n hincident hsince => ?_
  rcases List.mem_append.mp hsince with hbefore | hactive
  · exact hkept n hincident (h.resumes n hincident hbefore)
  · exact hkept n hincident (h.resumes n hincident (h.active n hactive))

theorem Inv.report (h : Inv s) (nodeID : String) (round : MonitoringRound) (now : Time) :
    Inv (step s (.report nodeID round now)) := by
  cases hnode : s.db.nodes.find? nodeID with
  | none =>
    have hsame : s.report nodeID round now = s := by
      unfold State.report
      rw [hnode]
    rw [step, State.act, hsame]
    exact h.stay
  | some node =>
    cases hrecord : s.db.recordMonitoringRound nodeID round now with
    | error e =>
      have hsame : s.report nodeID round now = s := by
        unfold State.report
        rw [hnode, hrecord]
      rw [step, State.act, hsame]
      exact h.stay
    | ok db =>
      have hreported : s.report nodeID round now =
          { s with
            db := db
            pending := if (roundOutcome s.db node round).notifies then
              s.pending ++ [⟨nodeID, (roundOutcome s.db node round).nodeStatus ≠ .draining⟩]
              else s.pending } := by
        unfold State.report
        rw [hnode, hrecord]
      rw [step, State.act, hreported]
      refine Inv.observe _ fun n hincident hsince => ?_
      by_cases hbefore : n ∈ s.activeSince
      · obtain ⟨call, hmem, hcall⟩ := h.resumes n hincident hbefore
        refine ⟨call, ?_, hcall⟩
        simp only
        split
        · exact List.mem_append_left _ hmem
        · exact hmem
      · -- the node has just been resumed
        have hactive := (List.mem_append.mp hsince).resolve_left hbefore
        obtain ⟨hid, hnotifies, hstatus⟩ :=
          report_activates hnode hrecord hactive fun hold => hbefore (h.active n hold)
        refine ⟨⟨nodeID, (roundOutcome s.db node round).nodeStatus ≠ .draining⟩, ?_, hid.symm, ?_⟩
        · simp only
          rw [if_pos hnotifies]
          exact List.mem_append_right _ List.mem_cons_self
        · simp only [hstatus]
          rfl

theorem Inv.notify (h : Inv s) {i : Nat} (hcall : s.pending[i]? = some call)
    (horderly : OrderlyCall s call profile failures) :
    Inv { s.notify i call profile details failures now with
      activeSince := (s.notify i call profile details failures now).activeSince ++
        activeNodes s.db } := by
  refine Inv.observe (s.notify i call profile details failures now) fun n hincident hsince => ?_
  have hincident' : (s.handle call profile details failures now).2.incidentActive
      (monitoringKey n) = true := hincident
  have hsince' : n ∈ s.activeSince := by
    rcases List.mem_append.mp hsince with hbefore | hactive
    · simp only [State.notify] at hbefore
      split at hbefore
      · exact (List.mem_filter.mp hbefore).1
      · exact hbefore
    · exact h.active n hactive
  by_cases hother : n = call.nodeID
  · subst hother
    cases hresumed : call.resumed with
    | true =>
      rw [OrderlyCall, if_pos hresumed] at horderly
      rw [handle_resumed hresumed horderly] at hincident'
      cases hincident'
    | false =>
      rw [OrderlyCall, if_neg (by rw [hresumed]; nofun)] at horderly
      rcases handle_paused hresumed with hsame | ⟨hdelivered, -⟩
      · rw [hsame] at hincident'
        exact absurd (h.resumes _ hincident' hsince') (horderly.2 hincident')
      · -- the node is not active when the incident is written down
        rcases List.mem_append.mp hsince with hbefore | hactive
        · simp only [State.notify, hresumed, hdelivered] at hbefore
          exact absurd rfl (of_decide_eq_true (List.mem_filter.mp hbefore).2)
        · exact absurd hactive horderly.1
  · rw [handle_other hother] at hincident'
    exact resumes_eraseIdx hcall (.inl (Ne.symm hother)) (h.resumes n hincident' hsince')

theorem Inv.step (h : Inv s) (a : Action) (ha : Orderly s a) : Inv (step s a) := by
  cases a with
  | report nodeID round now => exact h.report nodeID round now
  | notify i profile details failures now =>
    unfold Pauses.step State.act
    simp only
    split
    · next call hcall => exact h.notify hcall (ha call hcall)
    · exact h.stay
  | abandon i =>
    refine h.drop fun n hincident hresumes => ?_
    show ∃ call ∈ s.pending.eraseIdx i, call.nodeID = n ∧ call.resumed = true
    cases hcall : s.pending[i]? with
    | none =>
      rw [List.eraseIdx_of_length_le (List.getElem?_eq_none_iff.mp hcall)]
      exact hresumes
    | some call =>
      refine resumes_eraseIdx hcall ?_ hresumes
      by_cases hother : call.nodeID = n
      · right
        by_contra hresumed
        have hended := ha call hcall (by simpa using hresumed)
        rw [hother, hincident] at hended
        cases hended
      · exact .inl hother
  | node op now =>
    cases hround : isMonitoringRound op with
    | true =>
      rw [Pauses.step, State.act, if_pos hround]
      exact h.stay
    | false =>
      simp only [Orderly, Pauses.step, State.act, hround] at ha
      rw [Pauses.step, State.act, if_neg (by rw [hround]; nofun)]
      exact h.onDatabase _ fun n hincident hactive => ha n hactive hincident
  | target op now => exact h.onDatabase _ fun n hincident hactive => ha n hactive hincident
  | restart =>
    refine h.drop fun n hincident hresumes => ?_
    obtain ⟨call, hmem, rfl, hresumed⟩ := hresumes
    rw [ha call hmem hresumed] at hincident
    cases hincident

theorem Inv.justified (h : Inv s) (a : Action) (ha : Orderly s a) : Justified s a := by
  cases a with
  | notify i profile details failures now =>
    intro call hcall hpaused hsuppressed hsince
    have horderly := ha call hcall
    rw [OrderlyCall, if_neg (by rw [hpaused]; nofun)] at horderly
    have hincident := incident_of_suppressed hpaused hsuppressed
    exact horderly.2 hincident (h.resumes call.nodeID hincident hsince)
  | _ => trivial

theorem inv_initial : Inv initial where
  active := fun n hn => by cases hn
  resumes := fun n hn => by cases hn

end

instance (profile : SMTPProfile) (failures : NotifyFailures) :
    Decidable (Succeeds profile failures) :=
  inferInstanceAs (Decidable (_ = _ ∧ _ = _ ∧ (_ = _ → _ = _)))

instance (s : State) (n : String) : Decidable (s.isActive n) :=
  inferInstanceAs (Decidable (_ ∈ _))

instance (s : State) (n : String) : Decidable (s.resumes n) :=
  inferInstanceAs (Decidable (∃ call ∈ s.pending, call.nodeID = n ∧ call.resumed = true))

instance (s : State) (call : PendingNotification) (profile : SMTPProfile)
    (failures : NotifyFailures) : Decidable (OrderlyCall s call profile failures) :=
  inferInstanceAs (Decidable
    (if call.resumed then s.incident call.nodeID = true → Succeeds profile failures
      else ¬ s.isActive call.nodeID ∧ (s.incident call.nodeID = true → ¬ s.resumes call.nodeID)))

instance (s : State) (a : Action) : Decidable (Orderly s a) :=
  match a with
  | .report _ _ _ => .isTrue trivial
  | .notify i profile _ failures _ =>
    inferInstanceAs (Decidable (∀ call ∈ s.pending[i]?, OrderlyCall s call profile failures))
  | .abandon i => inferInstanceAs
    (Decidable (∀ call ∈ s.pending[i]?, call.resumed = true → s.incident call.nodeID = false))
  | .node op now => inferInstanceAs (Decidable
    (∀ n ∈ activeNodes (step s (.node op now)).db, s.incident n = true → s.isActive n))
  | .target op now => inferInstanceAs (Decidable
    (∀ n ∈ activeNodes (step s (.target op now)).db, s.incident n = true → s.isActive n))
  | .restart => inferInstanceAs
    (Decidable (∀ call ∈ s.pending, call.resumed = true → s.incident call.nodeID = false))

instance (s : State) (a : Action) : Decidable (Justified s a) :=
  match a with
  | .notify i profile details failures now => inferInstanceAs (Decidable
    (∀ call ∈ s.pending[i]?, call.resumed = false →
      (s.handle call profile details failures now).1 = .suppressed → call.nodeID ∉ s.activeSince))
  | .report _ _ _ | .abandon _ | .node _ _ | .target _ _ | .restart => .isTrue trivial

/-- A round of the only target at this second. -/
def roundAt (seconds : Nat) (score : Int) : Action :=
  .report "node-1" ⟨[⟨"target", seconds * second⟩], score⟩ (seconds * second)

/-- The first request in flight sends its message. -/
def notifyAt (seconds : Nat) : Action :=
  .notify 0 ⟨true, "mail.example.org", 587, "", "cdn@example.org", ["ops@example.org"],
    some smtpNotificationCategories, "starttls"⟩ [] noFailures (seconds * second)

/-- A node that serves and a target to probe. -/
def startUp : List Action :=
  [.node (.createNode "node-1" "edge" "192.0.2.1") 0, .node (.setNodeStatus "node-1" .active) 0,
    .target (.create "target" "probe" "192.0.2.9:443") 0]

/-- Rounds that pause the node, and the message about it. -/
def pause (seconds : Nat) : List Action :=
  [roundAt seconds 0, roundAt (seconds + 60) 0, roundAt (seconds + 120) 0, roundAt (seconds + 180) 0,
    notifyAt (seconds + 180)]

/-- An administrator activates the node between them. -/
def reactivatedRun : List Action :=
  startUp ++ pause 60 ++ [.node (.setNodeStatus "node-1" .active) (300 * second)] ++ pause 900

end SimpleCdn.Alerting.Pauses
