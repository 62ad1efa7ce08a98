import SimpleCdn.Lifecycle.Refinement

/-!
# Steps of the system

A change of the monitoring targets resumes the paused nodes exactly if it leaves no enabled
target, and a round of a node resumes it only if it is healthy.  With that, every step of the
system moves the cards.
-/

namespace SimpleCdn.Lifecycle

open Store Transition

section

variable {s : State} {n : String} {now : Time} {db db' : MonitoredStore}

/-- The change of the targets goes through and leaves none enabled. -/
def clearsTargets (db : MonitoredStore) : TargetOp → Prop
  | .create .. => False
  | .update targetID name enabled =>
    enabled = some false ∧ name.all (db.targetNameFree targetID) = true ∧
      (∃ target, db.monitoringTargets.find? targetID = some target ∧ target.enabled = true) ∧
      ∀ other ∈ db.monitoringTargets, other.id ≠ targetID → other.enabled = false
  | .delete targetID =>
    (∃ target, db.monitoringTargets.find? targetID = some target) ∧
      ∀ other ∈ db.monitoringTargets, other.id ≠ targetID → other.enabled = false

theorem createMonitoringTarget_store {id name address : String}
    (h : db.createMonitoringTarget id name address now = .ok db') : db'.toStore = db.toStore := by
  simp only [MonitoredStore.createMonitoringTarget, bind_eq_ok, orError_eq_ok, pure_eq_ok] at h
  obtain ⟨-, -, -, -, -, -, targets, hinsert, rfl⟩ := h
  have hany : targets.any MonitoringTarget.enabled = true :=
    Table.any_eq_true.mpr ⟨_, (Table.mem_of_insert? hinsert).mpr (.inr rfl), rfl⟩
  rw [MonitoredStore.resetMonitoringState]
  exact if_pos hany

/-- Starting over without an enabled target resumes what monitoring has paused. -/
theorem resetMonitoringState_store (db : MonitoredStore) {p : Prop}
    (h : p ↔ ∀ target ∈ db.monitoringTargets, target.enabled = false) :
    (p → (db.resetMonitoringState now).toStore = db.toStore.resumeAutoPaused now) ∧
      (¬ p → (db.resetMonitoringState now).toStore = db.toStore) := by
  rw [MonitoredStore.resetMonitoringState]
  constructor
  · intro hp
    have hany : db.monitoringTargets.any MonitoringTarget.enabled = false :=
      Table.any_eq_false.mpr (h.mp hp)
    exact if_neg (by rw [hany]; nofun)
  · intro hp
    refine if_pos ?_
    by_contra hany
    exact hp (h.mpr (Table.any_eq_false.mp (Bool.eq_false_iff.mpr hany)))

theorem updateMonitoringTarget_store {targetID : String} {name : Option String}
    {enabled : Option Bool}
    (h : db.updateMonitoringTarget targetID name enabled now = .ok db') :
    (clearsTargets db (.update targetID name enabled) →
      db'.toStore = db.toStore.resumeAutoPaused now) ∧
    (¬ clearsTargets db (.update targetID name enabled) → db'.toStore = db.toStore) := by
  simp only [MonitoredStore.updateMonitoringTarget, bind_eq_ok, require_eq_ok, orError_eq_ok,
    exists_const] at h
  obtain ⟨-, current, hcurrent, hname, h⟩ := h
  have hclears : clearsTargets db (.update targetID name enabled) →
      enabled = some false ∧ current.enabled = true := by
    rintro ⟨henabled, -, ⟨target, htarget, hon⟩, -⟩
    obtain rfl := Option.some.inj (hcurrent.symm.trans htarget)
    exact ⟨henabled, hon⟩
  split at h
  · next hsame =>
    obtain rfl := pure_eq_ok.mp h
    refine ⟨fun hc => ?_, fun _ => rfl⟩
    obtain ⟨henabled, hon⟩ := hclears hc
    rw [henabled, hon] at hsame
    cases hsame.2
  · split at h
    · next hsame =>
      obtain rfl := pure_eq_ok.mp h
      refine ⟨fun hc => ?_, fun _ => rfl⟩
      obtain ⟨henabled, hon⟩ := hclears hc
      rw [henabled, hon] at hsame
      cases hsame
    · next hdiffer =>
      obtain rfl := pure_eq_ok.mp h
      refine resetMonitoringState_store (db.updateTarget targetID (name.getD current.name)
        (enabled.getD current.enabled) now) ⟨fun hc => ?_, fun hnone => ?_⟩
      · obtain ⟨henabled, -⟩ := hclears hc
        intro target' htarget'
        obtain ⟨target, htarget, rfl⟩ := List.mem_map.mp htarget'
        split
        · rw [henabled]
          rfl
        · next hne => exact hc.2.2.2 target htarget (by simpa using hne)
      · have hid : current.id = targetID := Table.key_of_find? hcurrent
        have hoff : enabled.getD current.enabled = false := by
          refine hnone { current with
            name := name.getD current.name
            enabled := enabled.getD current.enabled
            updatedAt := now } (List.mem_map.mpr ⟨current, Table.mem_of_find? hcurrent, ?_⟩)
          rw [if_pos (decide_eq_true hid)]
        have hon : current.enabled = true := by
          by_contra hon
          exact hdiffer (hoff.trans (Bool.eq_false_iff.mpr hon).symm)
        refine ⟨?_, hname, ⟨current, hcurrent, hon⟩, fun other hother hne => ?_⟩
        · cases enabled with
          | none => exact absurd rfl hdiffer
          | some enabled => exact congrArg some hoff
        · refine hnone other (List.mem_map.mpr ⟨other, hother, ?_⟩)
          rw [if_neg (by simpa using hne)]

theorem deleteMonitoringTarget_store {targetID : String}
    (h : db.deleteMonitoringTarget targetID now = .ok db') :
    (clearsTargets db (.delete targetID) → db'.toStore = db.toStore.resumeAutoPaused now) ∧
    (¬ clearsTargets db (.delete targetID) → db'.toStore = db.toStore) := by
  simp only [MonitoredStore.deleteMonitoringTarget, bind_eq_ok, orError_eq_ok, pure_eq_ok] at h
  obtain ⟨target, htarget, rfl⟩ := h
  refine resetMonitoringState_store { db with
    monitoringTargets := db.monitoringTargets.delete fun target => target.id = targetID }
    ⟨fun hc other hother => ?_, fun hnone => ⟨⟨target, htarget⟩, fun other hother hne => ?_⟩⟩
  · obtain ⟨hother, hne⟩ := Table.mem_delete.mp hother
    exact hc.2 other hother (of_decide_eq_false hne)
  · exact hnone other (Table.mem_delete.mpr ⟨hother, decide_eq_false hne⟩)

/-- A change of the targets resumes the paused nodes exactly if it leaves no enabled target. -/
theorem targetOp_store {op : TargetOp} (h : op.apply db now = .ok db') :
    (clearsTargets db op → db'.toStore = db.toStore.resumeAutoPaused now) ∧
    (¬ clearsTargets db op → db'.toStore = db.toStore) := by
  cases op with
  | create id name address => exact ⟨nofun, fun _ => createMonitoringTarget_store h⟩
  | update targetID name enabled => exact updateMonitoringTarget_store h
  | delete targetID => exact deleteMonitoringTarget_store h

/-- A change that leaves no enabled target goes through. -/
theorem targetOp_ok {op : TargetOp} (h : clearsTargets db op) (now : Time) :
    ∃ db', op.apply db now = .ok db' := by
  cases op with
  | create => cases h
  | update targetID name enabled =>
    obtain ⟨rfl, hname, ⟨target, htarget, hon⟩, -⟩ := h
    refine ⟨(db.updateTarget targetID (name.getD target.name) false now).resetMonitoringState now,
      ?_⟩
    simp only [TargetOp.apply, MonitoredStore.updateMonitoringTarget, bind_eq_ok, require_eq_ok,
      orError_eq_ok, exists_const]
    refine ⟨.inr rfl, target, htarget, hname, ?_⟩
    rw [hon]
    simp
  | delete targetID =>
    obtain ⟨⟨target, htarget⟩, -⟩ := h
    simp only [TargetOp.apply, MonitoredStore.deleteMonitoringTarget, bind_eq_ok, orError_eq_ok,
      pure_eq_ok]
    exact ⟨_, target, htarget, rfl⟩

/-- A request that executes a statement waits with it and the rest. -/
theorem next_eq_some {i : Nat} {request : Request} {statement : Statement} {rest : List Statement}
    (h : s.next i = some (request, statement, rest)) :
    request ∈ s.requests ∧ request.statements = statement :: rest := by
  unfold State.next at h
  split at h
  · next request' hget =>
    split at h
    · next hstatements =>
      cases h
      exact ⟨List.mem_of_getElem? hget, hstatements⟩
    · cases h
  · cases h

/-- The node has been paused by monitoring. -/
def autoPaused (db : Store) (n : String) : Prop :=
  ∃ node, db.nodes.find? n = some node ∧ node.monitorAutoPaused = true ∧ node.status = .draining

/-- Monitoring is about to resume a paused node: with a healthy round of its own, or because no
enabled target is left. -/
def resumesPaused (s : State) (n : String) : Action → Prop
  | .monitoringTarget op _ => clearsTargets s.db op
  | .statement i _ => ∃ request round rest,
    s.next i = some (request, .recordMonitoringRound round, rest) ∧ request.nodeID = n ∧
      s.db.roundMatches round = true ∧ s.db.roundIsNewer n round = true ∧
      monitoringHealthyScore ≤ round.score
  | _ => False

/-- The secrets that a step draws; one that has been drawn before is not drawn again. -/
def drawnTokens (s : State) : Action → List String
  | .node op _ =>
    if byEdge op || (tokensOf op).any s.tokens.contains then [] else tokensOf op
  | _ => []

def drawnFingerprints (s : State) : Action → List String
  | .statement i _ =>
    match s.next i with
    | some (_, statement, _) =>
      if statement.fingerprints.any s.fingerprints.contains then [] else statement.fingerprints
    | none => []
  | _ => []

/-- The step is a heartbeat of the node that reports the upgrade. -/
def reportsUpgrade (s : State) (n : String) (a : Action) (upgradeID : String) : Prop :=
  ∃ i now request rest appliedVersion lastError agentVersion agentSHA256, a = .statement i now ∧
    s.next i = some (request,
      .updateNode appliedVersion lastError agentVersion agentSHA256 upgradeID, rest) ∧
    request.nodeID = n

/-- Where the card of a node moves at a step. -/
def setting (s : State) (a : Action) (n : String) : Setting where
  tokens := drawnTokens s a
  fingerprints := drawnFingerprints s a
  reports := reportsUpgrade s n a
  issued := n ∈ s.db.issuedIDs
  resumes := autoPaused s.db.toStore n ∧ resumesPaused s n a

theorem onStore_eq_ok {x : Except StoreError Store} :
    onStore db x = .ok db' ↔ ∃ store, x = .ok store ∧ db' = { db with toStore := store } := by
  simp only [onStore, bind_eq_ok, pure_eq_ok]
  exact exists_congr fun store => and_congr_right fun _ => eq_comm

theorem applyNodeOp_store {op : NodeOp} (h : db.applyNodeOp now op = .ok db') :
    op.apply db.toStore now = .ok db'.toStore := by
  cases op with
  | setNodeStatus nodeID status =>
    simp only [MonitoredStore.applyNodeOp, MonitoredStore.setNodeStatus, bind_eq_ok, pure_eq_ok]
      at h
    obtain ⟨store, hset, rfl⟩ := h
    exact hset
  | deleteNode nodeID =>
    simp only [MonitoredStore.applyNodeOp, MonitoredStore.deleteNode, bind_eq_ok, pure_eq_ok] at h
    obtain ⟨store, hdelete, rfl⟩ := h
    exact hdelete
  | _ =>
    obtain ⟨store, happly, rfl⟩ := onStore_eq_ok.mp h
    exact happly

/-- A statement of a handler. -/
theorem statement_moves {Γ : String → Setting} {nodeID : String} {statement : Statement}
    (h : Owned db.toStore)
    (hnew : statement.fingerprints ⊆ (Γ nodeID).fingerprints)
    (hreports : ∀ appliedVersion lastError agentVersion agentSHA256 upgradeID,
      statement = .updateNode appliedVersion lastError agentVersion agentSHA256 upgradeID →
        (Γ nodeID).reports upgradeID)
    (hresumes : ∀ round, statement = .recordMonitoringRound round → autoPaused db.toStore nodeID →
      db.roundMatches round = true → db.roundIsNewer nodeID round = true →
      monitoringHealthyScore ≤ round.score → (Γ nodeID).resumes)
    (hexecute : statement.execute db nodeID now = .ok db') :
    Effect Γ db.toStore db'.toStore := by
  cases statement with
  | setNodeCapabilities capabilities =>
    obtain ⟨store, hset, rfl⟩ := onStore_eq_ok.mp hexecute
    simp only [setNodeCapabilities, bind_eq_ok, pure_eq_ok] at hset
    obtain ⟨-, -, rfl⟩ := hset
    exact .updateFields h fun _ _ _ _ => rfl
  | recordReport report =>
    obtain ⟨store, hrecord, rfl⟩ := onStore_eq_ok.mp hexecute
    exact recordReport_moves h hrecord
  | updateNode appliedVersion lastError agentVersion agentSHA256 activeUpgradeID =>
    obtain ⟨store, hbeat, rfl⟩ := onStore_eq_ok.mp hexecute
    exact heartbeatNode_moves h hbeat (hreports _ _ _ _ _ rfl)
  | reconcileNodeUpgrades =>
    obtain ⟨store, hstore, rfl⟩ := onStore_eq_ok.mp hexecute
    obtain rfl := Except.ok.inj hstore
    exact reconcileNodeUpgrades_moves h
  | reconcilePublishTasks =>
    obtain ⟨store, hstore, rfl⟩ := onStore_eq_ok.mp hexecute
    obtain rfl := Except.ok.inj hstore
    obtain ⟨tasks, rows, hframe⟩ := (reconcilePublishTasks_reconciles db.toStore now).frame
    rw [hframe]
    exact .frame h rfl rfl rfl rfl (List.Subset.refl _)
  | setNodeCertificate fingerprint =>
    obtain ⟨store, hset, rfl⟩ := onStore_eq_ok.mp hexecute
    exact setNodeCertificate_moves h (hnew (List.mem_singleton_self _)) hset
  | recordMonitoringRound round =>
    simp only [Statement.execute, MonitoredStore.recordMonitoringRound, bind_eq_ok, require_eq_ok,
      pure_eq_ok, exists_const] at hexecute
    obtain ⟨hmatches, -, -, hnewer, store, hrecord, rfl⟩ := hexecute
    refine recordMonitoringRound_moves h (fun node hnode hzero hpaused hdraining => ?_) hrecord
    refine hresumes round rfl ⟨node, hnode, hpaused, hdraining⟩ hmatches hnewer ?_
    -- the count is zero only for a healthy round
    by_contra hlow
    rw [MonitoredStore.consecutiveAbnormal, if_pos (not_le.mp hlow)] at hzero
    omega
  | recordNodeUpgradeReport report =>
    obtain ⟨store, hrecord, rfl⟩ := onStore_eq_ok.mp hexecute
    exact recordNodeUpgradeReport_moves h hrecord

/-- Every step moves the cards. -/
theorem step_effect (s : State) (a : Action) (h : Owned s.db.toStore) :
    Effect (setting s a) s.db.toStore (step s a).db.toStore := by
  cases a with
  | node op now =>
    simp only [step]
    split
    · exact .refl h
    · next hguard =>
      have hdrawn : drawnTokens s (.node op now) = tokensOf op := if_neg hguard
      rw [Bool.or_eq_true, not_or] at hguard
      unfold State.nodeOp
      cases happly : s.db.applyNodeOp now op with
      | error e => exact .refl h
      | ok db =>
        refine nodeOp_moves h (fun n hn => hn) (fun n => ?_) (Bool.eq_false_iff.mpr hguard.1)
          (applyNodeOp_store happly)
        rw [← hdrawn]
        exact List.Subset.refl _
  | monitoringTarget op now =>
    simp only [step, State.onDatabase]
    cases happly : op.apply s.db now with
    | error e => exact .refl h
    | ok db =>
      obtain ⟨hresumed, hsame⟩ := targetOp_store happly
      dsimp only
      by_cases hclears : clearsTargets s.db op
      · rw [hresumed hclears]
        exact resumeAutoPaused_moves h fun n node hnode hpaused hdraining =>
          ⟨⟨node, hnode, hpaused, hdraining⟩, hclears⟩
      · rw [hsame hclears]
        exact .refl h
  | startUpgrade nodeID id targetSHA256 deadline now =>
    simp only [step, State.onDatabase]
    cases hcreate : onStore s.db
        (s.db.toStore.createOrGetNodeUpgrade nodeID id targetSHA256 deadline now) with
    | error e => exact .refl h
    | ok db =>
      obtain ⟨store, hstore, rfl⟩ := onStore_eq_ok.mp hcreate
      exact createOrGetNodeUpgrade_moves h hstore
  | reconcileNodeUpgrades now => exact reconcileNodeUpgrades_moves h
  | enroll token fingerprint now =>
    simp only [step]
    split
    · next nodeID store hconsume => exact consumeEnrollmentToken_moves h hconsume
    · exact .refl h
  | request fingerprint call =>
    simp only [step]
    split
    · exact .refl h
    · exact .refl h
  | statement i now =>
    simp only [step]
    split
    · next request statement rest hnext =>
      split
      · exact .refl h
      · next hguard =>
        have hdrawn : drawnFingerprints s (.statement i now) = statement.fingerprints := by
          simp only [drawnFingerprints, hnext]
          exact if_neg hguard
        unfold State.execute
        cases hexecute : statement.execute s.db request.nodeID now with
        | error e => exact .refl h
        | ok db =>
          refine statement_moves h (by rw [← hdrawn]; exact List.Subset.refl _)
            (fun appliedVersion lastError agentVersion agentSHA256 upgradeID hbeat => ?_)
            (fun round hround hpaused hmatches hnewer hscore => ?_) hexecute
          · subst hbeat
            exact ⟨i, now, request, rest, _, _, _, _, rfl, hnext, rfl⟩
          · subst hround
            exact ⟨hpaused, request, round, rest, hnext, rfl, hmatches, hnewer, hscore⟩
    · exact .refl h

end

end SimpleCdn.Lifecycle
