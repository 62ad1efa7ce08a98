import SimpleCdn.Probing.System
import SimpleCdn.Store.NodeEffects

/-!
# Monitoring pauses and resumes as it should

The stored count of a node is the number of its abnormal rounds in a row since the last reset, the
stored time is that of its last round since the targets were changed, and a node with the mark was
last paused by monitoring.
-/

namespace SimpleCdn.Probing

open Transition
open Store (monitoredStatus monitoringAutoPauseAfter)

structure Inv (s : State) : Prop where
  count : ∀ n, ((s.db.nodeMonitoringStatuses.find? n).map
    NodeMonitoringStatus.consecutiveAbnormal).getD 0 = streak n s.history
  last : ∀ n, (s.db.nodeMonitoringStatuses.find? n).map NodeMonitoringStatus.lastCheckedAt =
    lastAcceptedSince n s.history
  marked : ∀ n node, s.db.nodes.find? n = some node → node.monitorAutoPaused = true →
    pausedByMonitoring n s.history = true
  idle : s.db.enabledTargetIDs = [] →
    ∀ n node, s.db.nodes.find? n = some node → node.monitorAutoPaused = false

section

variable {s : State} {db db' : MonitoredStore} {nodeID n : String} {round : MonitoringRound}
  {status : NodeStatus} {now : Time}

theorem isActive_eq_true :
    isActive db n = true ↔ ∃ node, db.nodes.find? n = some node ∧ node.status = .active := by
  simp [isActive, Option.any_eq_true]

theorem enabledTargetIDs_eq_nil :
    db.enabledTargetIDs = [] ↔ db.monitoringTargets.any MonitoringTarget.enabled = false := by
  rw [MonitoredStore.enabledTargetIDs, Table.any_eq_false]
  constructor
  · intro h target htarget
    by_contra hon
    have hmem : target.id ∈ ((db.monitoringTargets.rows.filter MonitoringTarget.enabled).map
        MonitoringTarget.id).insertionSort (· ≤ ·) :=
      (List.mem_insertionSort _).mpr (List.mem_map.mpr
        ⟨target, List.mem_filter.mpr ⟨htarget, by simpa using hon⟩, rfl⟩)
    rw [h] at hmem
    cases hmem
  · intro h
    refine List.eq_nil_iff_forall_not_mem.mpr fun id hid => ?_
    obtain ⟨target, htarget, -⟩ := List.mem_map.mp ((List.mem_insertionSort _).mp hid)
    obtain ⟨hrow, hon⟩ := List.mem_filter.mp htarget
    rw [h target hrow] at hon
    cases hon

/-! ### What the operations write -/

/-- An accepted round. -/
structure Recorded (db db' : MonitoredStore) (nodeID : String) (round : MonitoringRound)
    (now : Time) (node node' : Node) : Prop where
  enabled : db.enabledTargetIDs ≠ []
  newer : db.roundIsNewer nodeID round = true
  before : db.nodes.find? nodeID = some node
  after : db'.nodes.find? nodeID = some node'
  status : (node'.status, node'.monitorAutoPaused) =
    monitoredStatus node.status node.monitorAutoPaused (db.consecutiveAbnormal nodeID round)
  other : ∀ n, n ≠ nodeID → db'.nodes.find? n = db.nodes.find? n
  targets : db'.monitoringTargets = db.monitoringTargets
  statuses : db'.nodeMonitoringStatuses = db.nodeMonitoringStatuses.upsert
    ⟨nodeID, round.score, db.consecutiveAbnormal nodeID round, round.lastCheckedAt, now⟩

theorem find?_updateNode_self {node : Node} {f : Node → Node}
    {hf : ∀ node, key (f node) = key node} (hnode : db.nodes.find? nodeID = some node) :
    (db.toStore.updateNode nodeID f hf).nodes.find? nodeID = some (f node) := by
  rw [Store.find?_updateNode, if_pos rfl, hnode, Option.map_some]

theorem find?_updateNode_other {f : Node → Node} {hf : ∀ node, key (f node) = key node}
    (hn : n ≠ nodeID) :
    (db.toStore.updateNode nodeID f hf).nodes.find? n = db.nodes.find? n := by
  rw [Store.find?_updateNode, if_neg hn]

theorem find?_recordMonitoringRound {store : Store} {count : Nat} {node : Node}
    (h : db.toStore.recordMonitoringRound nodeID count now = .ok store)
    (hnode : db.nodes.find? nodeID = some node) :
    (∃ node', store.nodes.find? nodeID = some node' ∧ (node'.status, node'.monitorAutoPaused) =
      monitoredStatus node.status node.monitorAutoPaused count) ∧
    ∀ n, n ≠ nodeID → store.nodes.find? n = db.nodes.find? n := by
  simp only [Store.recordMonitoringRound, bind_eq_ok, pure_eq_ok] at h
  obtain ⟨-, -, rfl⟩ := h
  constructor
  · exact ⟨_, find?_updateNode_self hnode, rfl⟩
  · intro n hn
    exact find?_updateNode_other hn

theorem recordMonitoringRound_eq_ok (h : db.recordMonitoringRound nodeID round now = .ok db') :
    ∃ node node', Recorded db db' nodeID round now node node' := by
  simp only [MonitoredStore.recordMonitoringRound, bind_eq_ok, require_eq_ok, pure_eq_ok,
    exists_const, Store.getNode_eq_ok] at h
  obtain ⟨hmatches, node, hnode, hnewer, store, hstore, rfl⟩ := h
  obtain ⟨⟨node', hnode', hstatus⟩, hother⟩ := find?_recordMonitoringRound hstore hnode
  refine ⟨node, node', fun hnone => ?_, hnewer, hnode, hnode', hstatus, hother, rfl, rfl⟩
  rw [MonitoredStore.roundMatches, hnone] at hmatches
  cases hmatches

/-- An operation on the targets starts over exactly if it changes the set that is probed. -/
theorem target_apply_eq_ok {op : TargetOp} (h : op.apply db now = .ok db') :
    ∃ db₁ : MonitoredStore, db₁.toStore = db.toStore ∧
      db₁.nodeMonitoringStatuses = db.nodeMonitoringStatuses ∧
      (db' = if changesTargets db op then db₁.resetMonitoringState now else db₁) ∧
      (changesTargets db op = false →
        (db₁.enabledTargetIDs = [] → db.enabledTargetIDs = [])) := by
  cases op with
  | create id name address =>
    simp only [TargetOp.apply, MonitoredStore.createMonitoringTarget, bind_eq_ok, orError_eq_ok,
      pure_eq_ok] at h
    obtain ⟨-, -, -, -, -, -, targets, hinsert, rfl⟩ := h
    exact ⟨{ db with monitoringTargets := targets }, rfl, rfl, rfl, (by rintro ⟨⟩)⟩
  | delete targetID =>
    simp only [TargetOp.apply, MonitoredStore.deleteMonitoringTarget, bind_eq_ok, orError_eq_ok,
      pure_eq_ok] at h
    obtain ⟨-, -, rfl⟩ := h
    exact ⟨{ db with monitoringTargets := db.monitoringTargets.delete fun target =>
      target.id = targetID }, rfl, rfl, rfl, (by rintro ⟨⟩)⟩
  | update targetID name enabled =>
    simp only [TargetOp.apply, MonitoredStore.updateMonitoringTarget, bind_eq_ok, require_eq_ok,
      orError_eq_ok, exists_const] at h
    obtain ⟨-, current, hcurrent, -, h⟩ := h
    have hchanges : changesTargets db (.update targetID name enabled) =
        decide (enabled.getD current.enabled ≠ current.enabled) := by
      rw [changesTargets, hcurrent, Option.any_some]
    rw [hchanges]
    split at h
    · next hsame =>
      obtain rfl := pure_eq_ok.mp h
      refine ⟨db, rfl, rfl, ?_, fun _ hnone => hnone⟩
      rw [decide_eq_false (not_not_intro hsame.2), if_neg Bool.false_ne_true]
    · split at h
      · next hsame =>
        obtain rfl := pure_eq_ok.mp h
        refine ⟨db.updateTarget targetID (name.getD current.name) (enabled.getD current.enabled) now,
          rfl, rfl, ?_, fun _ hnone => ?_⟩
        · rw [decide_eq_false (not_not_intro hsame), if_neg Bool.false_ne_true]
        rw [enabledTargetIDs_eq_nil, Table.any_eq_false] at hnone ⊢
        intro target htarget
        have hrenamed := hnone _ (List.mem_map.mpr ⟨target, htarget, rfl⟩)
        split at hrenamed
        · next hid =>
          have hself : target = current := Table.eq_of_key_eq htarget (Table.mem_of_find? hcurrent)
            ((of_decide_eq_true hid).trans (Table.key_of_find? hcurrent).symm)
          rw [hself, ← hsame]
          exact hrenamed
        · exact hrenamed
      · next hdiffer =>
        obtain rfl := pure_eq_ok.mp h
        exact ⟨db.updateTarget targetID (name.getD current.name) (enabled.getD current.enabled) now,
          rfl, rfl, (if_pos (by simpa using hdiffer)).symm, fun hsame => by simp_all⟩

/-- The nodes after the monitoring has started over. -/
theorem find?_resetMonitoringState (db : MonitoredStore) (now : Time) (n : String) :
    (db.resetMonitoringState now).nodes.find? n = db.nodes.find? n ∧ db.enabledTargetIDs ≠ [] ∨
      db.enabledTargetIDs = [] ∧
        (db.resetMonitoringState now).nodes.find? n = (db.nodes.find? n).map fun node =>
          if node.monitorAutoPaused then
            { node with
              status := if node.status = .draining then .active else node.status
              monitorAutoPaused := false
              updatedAt := now } else node := by
  cases hany : db.monitoringTargets.any MonitoringTarget.enabled with
  | true =>
    refine .inl ⟨?_, fun hnone => ?_⟩
    · rw [MonitoredStore.resetMonitoringState, hany]
      rfl
    · rw [enabledTargetIDs_eq_nil.mp hnone] at hany
      cases hany
  | false =>
    refine .inr ⟨enabledTargetIDs_eq_nil.mpr hany, ?_⟩
    rw [MonitoredStore.resetMonitoringState, hany, if_neg Bool.false_ne_true,
      Store.resumeAutoPaused, Table.find?_update]

theorem nodes_withdrawAuthorization (store : Store) :
    (store.withdrawAuthorization nodeID now).nodes = store.nodes := rfl

theorem find?_setNodeStatus (h : db.setNodeStatus nodeID status now = .ok db') :
    (∀ node, db'.nodes.find? nodeID = some node → node.monitorAutoPaused = false) ∧
      (∀ n, n ≠ nodeID → db'.nodes.find? n = db.nodes.find? n) ∧
      db'.monitoringTargets = db.monitoringTargets ∧
      db'.nodeMonitoringStatuses = db.nodeMonitoringStatuses.update
        (fun row => row.nodeID = nodeID)
        (fun row => { row with consecutiveAbnormal := 0, updatedAt := now }) := by
  simp only [MonitoredStore.setNodeStatus, bind_eq_ok, pure_eq_ok] at h
  obtain ⟨store, hstore, rfl⟩ := h
  have hnodes : (∀ node, store.nodes.find? nodeID = some node → node.monitorAutoPaused = false) ∧
      ∀ n, n ≠ nodeID → store.nodes.find? n = db.nodes.find? n := by
    simp only [Store.setNodeStatus, bind_eq_ok, require_eq_ok, Store.getNode_eq_ok,
      exists_const] at hstore
    obtain ⟨-, node, hnode, -, -, hstore⟩ := hstore
    split at hstore
    · obtain rfl := pure_eq_ok.mp hstore
      rw [nodes_withdrawAuthorization]
      refine ⟨fun node' hnode' => ?_, fun n hn => find?_updateNode_other hn⟩
      obtain rfl := Option.some.inj ((find?_updateNode_self hnode).symm.trans hnode')
      rfl
    · obtain rfl := pure_eq_ok.mp hstore
      refine ⟨fun node' hnode' => ?_, fun n hn => find?_updateNode_other hn⟩
      obtain rfl := Option.some.inj ((find?_updateNode_self hnode).symm.trans hnode')
      rfl
  exact ⟨hnodes.1, hnodes.2, rfl, rfl⟩

/-- An operation that marks no node and leaves the monitoring's tables alone. -/
structure Unmarking (db db' : MonitoredStore) : Prop where
  marked : ∀ n node', db'.nodes.find? n = some node' → node'.monitorAutoPaused = true →
    ∃ node, db.nodes.find? n = some node ∧ node.monitorAutoPaused = true
  targets : db'.monitoringTargets = db.monitoringTargets
  statuses : db'.nodeMonitoringStatuses = db.nodeMonitoringStatuses

theorem createNode_unmarking {id name publicIPv4 : String}
    (h : db.applyNodeOp now (.createNode id name publicIPv4) = .ok db') : Unmarking db db' := by
  simp only [MonitoredStore.applyNodeOp, NodeOp.apply, Store.createNode, Store.newID, bind_eq_ok,
    map_eq_ok, require_eq_ok, orError_eq_ok, pure_eq_ok, exists_const] at h
  obtain ⟨store, ⟨⟨node, store'⟩, ⟨-, db₁, ⟨-, rfl⟩, -, nodes, hinsert, hpair⟩, rfl⟩, rfl⟩ := h
  obtain ⟨rfl, rfl⟩ := Prod.mk.inj hpair
  refine ⟨fun n node' hnode' hmarked => ?_, rfl, rfl⟩
  have hfind := (Table.find?_of_insert? hinsert n).symm.trans hnode'
  split at hfind
  · obtain rfl := Option.some.inj hfind
    cases hmarked
  · exact ⟨node', hfind, hmarked⟩

theorem heartbeat_unmarking {lastError agentVersion agentSHA256 activeUpgradeID : String}
    {appliedVersion : Nat} {report : Option ApplyReport}
    (h : db.applyNodeOp now (.heartbeat nodeID appliedVersion lastError report agentVersion
      agentSHA256 activeUpgradeID) = .ok db') : Unmarking db db' := by
  simp only [MonitoredStore.applyNodeOp, NodeOp.apply, Store.heartbeat, bind_eq_ok, pure_eq_ok,
    Store.getNode_eq_ok] at h
  obtain ⟨store, ⟨db₁, hrecord, node, hnode, rfl⟩, rfl⟩ := h
  have hnodes : db₁.nodes = db.nodes := by
    cases report with
    | none =>
      obtain rfl := Except.ok.inj hrecord
      rfl
    | some report =>
      simp only [Store.recordReport, Store.recordPublishApply, bind_eq_ok, pure_eq_ok] at hrecord
      obtain ⟨-, -, rfl⟩ := hrecord
      rfl
  refine ⟨fun n node' hnode' hmarked => ?_, rfl, rfl⟩
  rw [(Store.reconcilePublishTasks_reconciles _ now).nodes_eq, Store.find?_updateNode, hnodes]
    at hnode'
  split at hnode'
  · obtain ⟨old, hold, rfl⟩ := Option.map_eq_some_iff.mp hnode'
    exact ⟨old, hold, hmarked⟩
  · exact ⟨node', hnode', hmarked⟩

/-! ### The invariant -/

theorem inv_initial : Inv initial where
  count := fun _ => rfl
  last := fun _ => rfl
  marked := fun _ _ hnode => by cases hnode
  idle := fun _ _ _ hnode => by cases hnode

theorem Inv.unmarking (h : Inv s) (hdb : Unmarking s.db db') : Inv ⟨db', s.history⟩ where
  count := fun n => by
    rw [hdb.statuses]
    exact h.count n
  last := fun n => by
    rw [hdb.statuses]
    exact h.last n
  marked := fun n node' hnode' hmarked => by
    obtain ⟨node, hnode, hbefore⟩ := hdb.marked n node' hnode' hmarked
    exact h.marked n node hnode hbefore
  idle := fun hnone n node' hnode' => by
    by_contra hmarked
    obtain ⟨node, hnode, hbefore⟩ := hdb.marked n node' hnode' (Bool.not_eq_false _ ▸ hmarked)
    rw [MonitoredStore.enabledTargetIDs, hdb.targets] at hnone
    rw [h.idle hnone n node hnode] at hbefore
    cases hbefore

/-- The count of a round that is accepted now. -/
theorem Inv.consecutiveAbnormal (h : Inv s) (nodeID : String) (round : MonitoringRound) :
    s.db.consecutiveAbnormal nodeID round =
      if abnormal round then streak nodeID s.history + 1 else 0 := by
  rw [MonitoredStore.consecutiveAbnormal, h.count nodeID, abnormal]
  by_cases hlow : round.score < monitoringHealthyScore
  · rw [if_pos hlow, if_pos (decide_eq_true hlow)]
  · rw [if_neg hlow, if_neg (by simpa using hlow)]

theorem monitoredStatus_cases {status status' : NodeStatus} {marked marked' : Bool} {count : Nat}
    (h : (status', marked') = monitoredStatus status marked count) :
    (monitoringAutoPauseAfter ≤ count ∧ status = .active ∧ status' = .draining ∧ marked' = true) ∨
    (count = 0 ∧ marked = true ∧ status = .draining ∧ status' = .active ∧ marked' = false) ∨
    (¬ (monitoringAutoPauseAfter ≤ count ∧ status = .active) ∧ status' = status ∧
      marked' = marked) := by
  unfold monitoredStatus at h
  split at h
  · next hpause =>
    obtain ⟨rfl, rfl⟩ := Prod.mk.inj h
    exact .inl ⟨hpause.1, hpause.2, rfl, rfl⟩
  · next hkeep =>
    split at h
    · next hresume =>
      obtain ⟨rfl, rfl⟩ := Prod.mk.inj h
      exact .inr (.inl ⟨hresume.1, hresume.2.1, hresume.2.2, rfl, rfl⟩)
    · obtain ⟨rfl, rfl⟩ := Prod.mk.inj h
      exact .inr (.inr ⟨hkeep, rfl, rfl⟩)

theorem Recorded.isActive_before {node node' : Node}
    (h : Recorded db db' nodeID round now node node') :
    isActive db nodeID = decide (node.status = .active) := by
  rw [isActive, h.before, Option.any_some]

theorem Recorded.isActive_after {node node' : Node}
    (h : Recorded db db' nodeID round now node node') :
    isActive db' nodeID = decide (node'.status = .active) := by
  rw [isActive, h.after, Option.any_some]

theorem Recorded.isActive_other {node node' : Node}
    (h : Recorded db db' nodeID round now node node') (hn : n ≠ nodeID) :
    isActive db' n = isActive db n := by
  rw [isActive, isActive, h.other n hn]

theorem Inv.recorded (h : Inv s) {node node' : Node}
    (hround : Recorded s.db db' nodeID round now node node') :
    Inv ⟨db', .round nodeID (abnormal round) round.lastCheckedAt
      (isActive s.db nodeID && !isActive db' nodeID) :: s.history⟩ where
  count := fun n => by
    rw [hround.statuses, Table.find?_upsert, streak]
    by_cases hn : nodeID = n
    · subst hn
      simp only [key_nodeMonitoringStatus, if_true, Option.map_some, Option.getD_some,
        h.consecutiveAbnormal]
    · simp only [key_nodeMonitoringStatus, if_neg hn]
      exact h.count n
  last := fun n => by
    rw [hround.statuses, Table.find?_upsert, lastAcceptedSince]
    by_cases hn : nodeID = n
    · subst hn
      simp only [key_nodeMonitoringStatus, if_true, Option.map_some]
    · simp only [key_nodeMonitoringStatus, if_neg hn]
      exact h.last n
  marked := fun n other hother hmarked => by
    rw [pausedByMonitoring, Bool.or_eq_true]
    by_cases hn : n = nodeID
    · subst hn
      obtain rfl : node' = other := Option.some.inj (hround.after.symm.trans hother)
      rcases monitoredStatus_cases hround.status with
        ⟨-, hactive, hdraining, -⟩ | ⟨-, -, -, -, hnot⟩ | ⟨-, -, hsame⟩
      · left
        rw [hround.isActive_before, hround.isActive_after, hactive, hdraining]
        simp
      · rw [hnot] at hmarked
        cases hmarked
      · exact .inr (h.marked n node hround.before (hsame ▸ hmarked))
    · rw [hround.other n hn] at hother
      exact .inr (h.marked n other hother hmarked)
  idle := fun hnone => by
    rw [MonitoredStore.enabledTargetIDs, hround.targets] at hnone
    exact absurd hnone hround.enabled

theorem Inv.setStatus (h : Inv s) (hset : s.db.setNodeStatus nodeID status now = .ok db') :
    Inv ⟨db', .statusSet nodeID :: s.history⟩ := by
  obtain ⟨hself, hother, htargets, hstatuses⟩ := find?_setNodeStatus hset
  have hbefore : ∀ n node, db'.nodes.find? n = some node → node.monitorAutoPaused = true →
      n ≠ nodeID ∧ s.db.nodes.find? n = some node := by
    intro n node hnode hmarked
    have hn : n ≠ nodeID := by
      rintro rfl
      rw [hself node hnode] at hmarked
      cases hmarked
    exact ⟨hn, (hother n hn).symm.trans hnode⟩
  have hrow : ∀ n, db'.nodeMonitoringStatuses.find? n =
      (s.db.nodeMonitoringStatuses.find? n).map fun row =>
        if row.nodeID = nodeID then { row with consecutiveAbnormal := 0, updatedAt := now }
        else row := by
    intro n
    rw [hstatuses, Table.find?_update]
    simp only [decide_eq_true_eq]
  refine ⟨fun n => ?_, fun n => ?_, fun n node hnode hmarked => ?_, fun hnone n node hnode => ?_⟩
  · rw [hrow, Option.map_map, streak]
    cases hfind : s.db.nodeMonitoringStatuses.find? n with
    | none =>
      have hcount := h.count n
      rw [hfind] at hcount
      split
      · rfl
      · exact hcount
    | some row =>
      have hcount := h.count n
      have hid : row.nodeID = n := Table.key_of_find? hfind
      rw [hfind] at hcount
      simp only [Option.map_some, Option.getD_some, Function.comp_apply, hid] at hcount ⊢
      by_cases hn : n = nodeID
      · rw [if_pos hn, if_pos hn.symm]
      · rw [if_neg hn, if_neg (Ne.symm hn)]
        exact hcount
  · rw [hrow, Option.map_map, lastAcceptedSince, ← h.last n]
    congr 1
    funext row
    simp only [Function.comp_apply]
    split
    · rfl
    · rfl
  · obtain ⟨hn, hbefore⟩ := hbefore n node hnode hmarked
    rw [pausedByMonitoring, h.marked n node hbefore hmarked, Bool.and_true]
    exact decide_eq_true (Ne.symm hn)
  · by_contra hmarked
    obtain ⟨-, hbefore⟩ := hbefore n node hnode (Bool.not_eq_false _ ▸ hmarked)
    rw [MonitoredStore.enabledTargetIDs, htargets] at hnone
    exact hmarked (h.idle hnone n node hbefore)

theorem Inv.target (h : Inv s) {op : TargetOp} (hop : op.apply s.db now = .ok db') :
    Inv ⟨db', (if changesTargets s.db op then [.targetsChanged] else []) ++ s.history⟩ := by
  obtain ⟨db₁, hstore, hstatuses, hdb', hsame⟩ := target_apply_eq_ok hop
  have hnodes : ∀ n, db₁.nodes.find? n = s.db.nodes.find? n := fun n => by
    rw [show db₁.nodes = s.db.nodes from congrArg Store.nodes hstore]
  cases hchanges : changesTargets s.db op with
  | false =>
    rw [hchanges, if_neg Bool.false_ne_true] at hdb'
    rw [← hdb'] at hstatuses hnodes hsame
    refine ⟨fun n => ?_, fun n => ?_, fun n node hnode => ?_, fun hnone n node hnode => ?_⟩
    · rw [hstatuses]
      exact h.count n
    · rw [hstatuses]
      exact h.last n
    · exact h.marked n node ((hnodes n).symm.trans hnode)
    · exact h.idle (hsame hchanges hnone) n node ((hnodes n).symm.trans hnode)
  | true =>
    rw [hchanges] at hdb'
    subst hdb'
    refine ⟨fun n => rfl, fun n => rfl, fun n node hnode hmarked => ?_, fun hnone n node hnode => ?_⟩
    · rcases find?_resetMonitoringState db₁ now n with ⟨hkept, -⟩ | ⟨-, hresumed⟩
      · exact h.marked n node ((hnodes n).symm.trans (hkept.symm.trans hnode)) hmarked
      · obtain ⟨old, hold, rfl⟩ := Option.map_eq_some_iff.mp (hresumed.symm.trans hnode)
        split at hmarked
        · cases hmarked
        · exact h.marked n old ((hnodes n).symm.trans hold) hmarked
    · rcases find?_resetMonitoringState db₁ now n with ⟨-, hsome⟩ | ⟨-, hresumed⟩
      · exact absurd hnone hsome
      · obtain ⟨old, hold, rfl⟩ := Option.map_eq_some_iff.mp (hresumed.symm.trans hnode)
        split
        · rfl
        · next hunmarked => exact Bool.eq_false_iff.mpr hunmarked

theorem Inv.step (h : Inv s) (a : Action) : Inv (step s a) := by
  cases a with
  | round nodeID round now =>
    unfold Probing.step State.onDatabase
    dsimp only
    split
    · next db hdb =>
      obtain ⟨node, node', hround⟩ := recordMonitoringRound_eq_ok hdb
      exact h.recorded hround
    · exact h
  | target op now =>
    unfold Probing.step State.onDatabase
    dsimp only
    split
    · next db hdb => exact h.target hdb
    · exact h
  | setStatus nodeID status now =>
    unfold Probing.step State.onDatabase
    dsimp only
    split
    · next db hdb => exact h.setStatus hdb
    · exact h
  | create id name publicIPv4 now =>
    unfold Probing.step State.onDatabase
    dsimp only
    split
    · next db hdb => exact h.unmarking (createNode_unmarking hdb)
    · exact h
  | heartbeat nodeID appliedVersion lastError report agentVersion agentSHA256 activeUpgradeID now =>
    unfold Probing.step State.onDatabase
    dsimp only
    split
    · next db hdb => exact h.unmarking (heartbeat_unmarking hdb)
    · exact h

/-! ### The law -/

theorem Inv.roundLaw (h : Inv s) (nodeID : String) (round : MonitoringRound) (now : Time) :
    RoundLaw lastAcceptedSince s (Probing.step s (.round nodeID round now)) nodeID round now := by
  cases hdb : s.db.recordMonitoringRound nodeID round now with
  | error e =>
    have hsame : Probing.step s (.round nodeID round now) = s := by
      simp only [Probing.step, State.onDatabase, hdb]
    have hrejected : ¬ s.accepts nodeID round now := by
      rw [State.accepts, hdb]
      nofun
    rw [hsame]
    refine ⟨fun haccepts => absurd haccepts hrejected, fun _ _ _ => rfl, ?_, ?_⟩
    · intro n hactive hnot
      rw [hactive] at hnot
      cases hnot
    · intro n hnot hactive
      rw [hactive] at hnot
      cases hnot
  | ok db =>
    obtain ⟨node, node', hround⟩ := recordMonitoringRound_eq_ok hdb
    have haccepts : s.accepts nodeID round now := by
      rw [State.accepts, hdb]
      rfl
    have hstep : (Probing.step s (.round nodeID round now)).db = db := by
      simp only [Probing.step, State.onDatabase, hdb]
    have hcount := h.consecutiveAbnormal nodeID round
    have hcases := monitoredStatus_cases hround.status
    rw [hcount] at hcases
    refine ⟨fun _ hactive => ?_, fun t hlast hold => ?_, fun n hactive hnot => ?_,
      fun n hnot hactive => ?_⟩
    · -- four in a row are three before this one
      rw [hround.isActive_before, decide_eq_true_eq] at hactive
      rw [hstep, hround.isActive_after, decide_eq_false_iff_not]
      rcases hcases with ⟨hmany, -, hdraining, -⟩ | ⟨-, -, hdraining, -⟩ | ⟨hfew, hsame, -⟩
      · have hthree : abnormal round = true ∧ 3 ≤ streak nodeID s.history := by
          unfold monitoringAutoPauseAfter at hmany
          split at hmany
          · next habnormal => exact ⟨habnormal, by omega⟩
          · omega
        exact iff_of_true (by rw [hdraining]; nofun) hthree
      · rw [hactive] at hdraining
        cases hdraining
      · refine iff_of_false (fun hnot => hnot (hsame.trans hactive)) fun ⟨habnormal, hthree⟩ => ?_
        rw [if_pos habnormal] at hfew
        exact hfew ⟨Nat.succ_le_succ hthree, hactive⟩
    · have hprior := h.last nodeID
      rw [hlast] at hprior
      obtain ⟨row, hrow, rfl⟩ := Option.map_eq_some_iff.mp hprior
      have hnewer := hround.newer
      rw [MonitoredStore.roundIsNewer, hrow, Option.all_some, decide_eq_true_eq] at hnewer
      exact absurd hold (Nat.not_le.mpr hnewer)
    · rw [hstep] at hnot
      refine ⟨?_, haccepts⟩
      by_contra hn
      rw [hround.isActive_other hn, hactive] at hnot
      cases hnot
    · rw [hstep] at hactive
      have hn : n = nodeID := by
        by_contra hn
        rw [hround.isActive_other hn, hnot] at hactive
        cases hactive
      subst hn
      rw [hround.isActive_before, decide_eq_false_iff_not] at hnot
      rw [hround.isActive_after, decide_eq_true_eq] at hactive
      rcases hcases with ⟨-, hbefore, -⟩ | ⟨hzero, hmarked, -⟩ | ⟨-, hsame, -⟩
      · exact absurd hbefore hnot
      · refine ⟨rfl, haccepts, ?_, h.marked n node hround.before hmarked⟩
        by_contra habnormal
        rw [if_pos (Bool.not_eq_false _ ▸ habnormal)] at hzero
        omega
      · exact absurd (hsame.symm.trans hactive) hnot

theorem Inv.targetLaw (h : Inv s) (op : TargetOp) (now : Time) :
    TargetLaw s (Probing.step s (.target op now)) := by
  have hkept : ∀ s' : State, (∀ n, s'.db.nodes.find? n = s.db.nodes.find? n) → TargetLaw s s' := by
    intro s' hnodes
    have hactive : ∀ n, isActive s'.db n = isActive s.db n := fun n => by
      rw [isActive, isActive, hnodes]
    refine ⟨fun n hn => (hactive n).trans hn, fun n hnot hn => ?_⟩
    rw [hactive, hnot] at hn
    cases hn
  cases hdb : op.apply s.db now with
  | error e =>
    refine hkept _ fun n => ?_
    simp only [Probing.step, State.onDatabase, hdb]
  | ok db =>
    have hstep : (Probing.step s (.target op now)).db = db := by
      simp only [Probing.step, State.onDatabase, hdb]
    obtain ⟨db₁, hstore, -, hdb', -⟩ := target_apply_eq_ok hdb
    have hnodes : ∀ n, db₁.nodes.find? n = s.db.nodes.find? n := fun n => by
      rw [show db₁.nodes = s.db.nodes from congrArg Store.nodes hstore]
    split at hdb'
    · by_cases hnone : db₁.enabledTargetIDs = []
      · have hresumed : ∀ n, db.nodes.find? n = (s.db.nodes.find? n).map fun node =>
            if node.monitorAutoPaused then
              { node with
                status := if node.status = .draining then .active else node.status
                monitorAutoPaused := false
                updatedAt := now } else node := by
          intro n
          rcases find?_resetMonitoringState db₁ now n with ⟨-, hsome⟩ | ⟨-, hresumed⟩
          · exact absurd hnone hsome
          · rw [hdb', hresumed, hnodes]
        refine ⟨fun n hn => ?_, fun n hnot hn => ?_⟩
        · obtain ⟨node, hnode, hactive⟩ := isActive_eq_true.mp hn
          rw [hstep]
          refine isActive_eq_true.mpr ⟨_, (hresumed n).trans (by rw [hnode, Option.map_some]), ?_⟩
          split
          · simp [hactive]
          · exact hactive
        · rw [hstep] at hn ⊢
          obtain ⟨node', hnode', hactive⟩ := isActive_eq_true.mp hn
          obtain ⟨node, hnode, rfl⟩ := Option.map_eq_some_iff.mp ((hresumed n).symm.trans hnode')
          split at hactive
          · next hmarked =>
            refine ⟨fun hempty => ?_, ?_, h.marked n node hnode hmarked⟩
            · rw [h.idle hempty n node hnode] at hmarked
              cases hmarked
            · rw [hdb']
              exact hnone
          · rw [isActive_eq_true.mpr ⟨node, hnode, hactive⟩] at hnot
            cases hnot
      · refine hkept _ fun n => ?_
        rw [hstep, hdb']
        rcases find?_resetMonitoringState db₁ now n with ⟨hkept, -⟩ | ⟨hempty, -⟩
        · exact hkept.trans (hnodes n)
        · exact absurd hempty hnone
    · refine hkept _ fun n => ?_
      rw [hstep, hdb']
      exact hnodes n

end

/-- In every run monitoring pauses and resumes as it should, where a round has to be newer than the
last one accepted since the targets were changed. -/
theorem monitoring_lawful (as : List Action) :
    Along step (Lawful lastAcceptedSince) initial as := by
  refine along_iff_prefix.mpr fun bs a _ => ?_
  have hinv : Inv (run step initial bs) := run_invariant (fun _ a hs => hs.step a) inv_initial bs
  cases a with
  | round nodeID round now => exact hinv.roundLaw nodeID round now
  | target op now => exact hinv.targetLaw op now
  | setStatus => trivial
  | create => trivial
  | heartbeat => trivial

/-- A round of the target at a time. -/
def roundAt (targetID : String) (checkedAt : Time) : MonitoringRound where
  results := [⟨targetID, checkedAt⟩]
  score := 100

/-- A round is accepted, and the only target is turned off and on again. -/
def reset : List Action :=
  [.create "edge" "edge" "192.0.2.1" 1, .target (.create "dns" "dns" "192.0.2.53") 2,
    .round "edge" (roundAt "dns" 100) 3, .target (.update "dns" none (some false)) 4,
    .target (.update "dns" none (some true)) 5]

/-- The older round that comes then is accepted. -/
theorem older_round_accepted :
    ¬ ∀ as, Along step (Lawful lastAccepted) initial as := by
  intro h
  obtain ⟨-, hlast⟩ := (along_append _ _ _).mp (h (reset ++ [.round "edge" (roundAt "dns" 50) 6]))
  have hstale : lastAccepted "edge" (run step initial reset).history = some 100 := by
    decide +kernel
  have hsame := hlast.1.stale 100 hstale (by decide)
  have hlonger : (step (run step initial reset) (.round "edge" (roundAt "dns" 50) 6)).history ≠
      (run step initial reset).history := by
    decide +kernel
  exact hlonger (congrArg State.history hsame)

end SimpleCdn.Probing
