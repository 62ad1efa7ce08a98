import SimpleCdn.Lifecycle.Identity

/-!
# Uninstalls and monitoring

While a workflow owns a node, administrators and the edge's heartbeats leave it paused or
revoked.  Monitoring does not look at workflows: it resumes a node it has paused as soon as a
round is healthy or no target is left.  A run keeps every node that is being uninstalled out of
service exactly if monitoring never meets a node that it has paused itself and a workflow owns.
-/

namespace SimpleCdn.Lifecycle

open Store Transition

/-- No node is active while a workflow owns it. -/
def NeverActive (s : State) : Prop :=
  ∀ job ∈ s.db.nodeUninstallJobs, job.status.blocksStatus = true →
    ∀ node, s.db.nodes.find? job.nodeID = some node → node.status ≠ .active

/-- Monitoring resumes no node that it has paused and a workflow owns. -/
def SparesUninstalls (s : State) (a : Action) : Prop :=
  ∀ n, autoPaused s.db.toStore n → s.db.hasActiveNodeUninstall n = true → ¬ resumesPaused s n a

section

variable {s : State} {a : Action} {n : String}

theorem neverActive_iff :
    NeverActive s ↔ ∀ n c, card s.db.toStore n = some c → c.Paused := by
  constructor
  · intro h n c hc hblocked hactive
    obtain ⟨node, hnode, rfl⟩ := Option.map_eq_some_iff.mp hc
    rw [blocked_cardOf] at hblocked
    obtain ⟨job, hjob, hp⟩ := Table.any_eq_true.mp hblocked
    simp only [Bool.and_eq_true, decide_eq_true_eq] at hp
    obtain ⟨rfl, hblocks⟩ := hp
    exact h job hjob hblocks node hnode hactive
  · intro h job hjob hblocks node hnode hactive
    refine h job.nodeID _ (card_of_find? hnode) ?_ hactive
    rw [blocked_cardOf]
    exact Table.any_eq_true.mpr ⟨job, hjob, by simp [hblocks]⟩

/-- Outside monitoring a step leaves the nodes of workflows out of service. -/
theorem NeverActive.step (hs : Inv s) (h : NeverActive s) (hspares : SparesUninstalls s a) :
    NeverActive (step s a) := by
  rw [neverActive_iff] at h ⊢
  intro n c' hc'
  have hmove := (step_effect s a hs.owned).moves n
  rw [hc'] at hmove
  generalize hc : card s.db.toStore n = o at hmove
  cases hmove with
  | keep => exact h n c' hc
  | create => exact nofun
  | @step c _ hstep =>
    refine (h n c hc).step (hs.closed n c hc) hstep fun ⟨hpaused, hresumes⟩ => ?_
    obtain ⟨node, hnode, rfl⟩ := Option.map_eq_some_iff.mp hc
    rw [blocked_cardOf]
    exact Bool.eq_false_iff.mpr fun hblocked => hspares n hpaused hblocked hresumes

/-- A healthy round of a paused node. -/
theorem recordMonitoringRound_resumes {db : MonitoredStore} {node : Node}
    {round : MonitoringRound} (hnode : db.nodes.find? n = some node)
    (hauto : node.monitorAutoPaused = true) (hdraining : node.status = .draining)
    (hmatches : db.roundMatches round = true) (hnewer : db.roundIsNewer n round = true)
    (hscore : monitoringHealthyScore ≤ round.score) (now : Time) :
    ∃ db', db.recordMonitoringRound n round now = .ok db' ∧
      (db'.nodes.find? n).map Node.status = some .active ∧
      db'.nodeUninstallJobs = db.nodeUninstallJobs := by
  have hzero : db.consecutiveAbnormal n round = 0 := if_neg (not_lt.mpr hscore)
  have hresume : monitoredStatus node.status node.monitorAutoPaused 0 = (.active, false) := by
    rw [hauto, hdraining]
    rfl
  have hstore : ∃ store, db.toStore.recordMonitoringRound n 0 now = .ok store ∧
      (store.nodes.find? n).map Node.status = some .active ∧
      store.nodeUninstallJobs = db.nodeUninstallJobs := by
    simp only [recordMonitoringRound, bind_eq_ok, getNode_eq_ok, pure_eq_ok]
    refine ⟨_, ⟨node, hnode, rfl⟩, ?_, rfl⟩
    rw [find?_updateNode, if_pos rfl, hnode, Option.map_some, Option.map_some]
    simp only [hresume]
  obtain ⟨store, hrecord, hactive, hjobs⟩ := hstore
  simp only [MonitoredStore.recordMonitoringRound, bind_eq_ok, require_eq_ok, getNode_eq_ok,
    pure_eq_ok, exists_const, hzero]
  exact ⟨_, ⟨hmatches, node, hnode, hnewer, store, hrecord, rfl⟩, hactive, hjobs⟩

/-- Monitoring turns a node it has paused active, whether a workflow owns it or not. -/
theorem resumed_active (hpaused : autoPaused s.db.toStore n) (hresumes : resumesPaused s n a) :
    ((step s a).db.nodes.find? n).map Node.status = some .active ∧
      (step s a).db.nodeUninstallJobs = s.db.nodeUninstallJobs := by
  obtain ⟨node, hnode, hauto, hdraining⟩ := hpaused
  cases a with
  | monitoringTarget op now =>
    have hclears : clearsTargets s.db op := hresumes
    obtain ⟨db, happly⟩ := targetOp_ok hclears now
    have hstore := (targetOp_store happly).1 hclears
    simp only [step, State.onDatabase, happly]
    rw [hstore]
    refine ⟨?_, rfl⟩
    rw [resumeAutoPaused, Table.find?_update, hnode, Option.map_some, if_pos hauto,
      Option.map_some, if_pos hdraining]
  | statement i now =>
    obtain ⟨request, round, rest, hnext, rfl, hmatches, hnewer, hscore⟩ := hresumes
    obtain ⟨db, hrecord, hactive, hjobs⟩ :=
      recordMonitoringRound_resumes hnode hauto hdraining hmatches hnewer hscore now
    simp only [step, hnext, Statement.fingerprints, List.any_nil, Bool.false_eq_true, if_false,
      State.execute, Statement.execute, hrecord]
    exact ⟨hactive, hjobs⟩
  | _ => cases hresumes

theorem sparesUninstalls_iff (hs : Inv s) (h : NeverActive s) (a : Action) :
    SparesUninstalls s a ↔ NeverActive (step s a) := by
  constructor
  · exact h.step hs
  · intro hnext n hpaused hblocked hresumes
    obtain ⟨hstatus, hjobs⟩ := resumed_active hpaused hresumes
    obtain ⟨node, hnode, hactive⟩ := Option.map_eq_some_iff.mp hstatus
    obtain ⟨job, hjob, hp⟩ := Table.any_eq_true.mp hblocked
    simp only [Bool.and_eq_true, decide_eq_true_eq] at hp
    obtain ⟨rfl, hblocks⟩ := hp
    exact hnext job (by rw [hjobs]; exact hjob) hblocks node hnode hactive

/-- A run keeps every node that a workflow owns out of service exactly if monitoring resumes none
of them. -/
theorem neverActive_iff_sparesUninstalls (as : List Action) :
    Always step NeverActive initial as ↔ Along step SparesUninstalls initial as := by
  have hinitial : NeverActive initial := fun job hjob => absurd hjob (Table.not_mem_empty job)
  have hstep : ∀ s a, Inv s → Inv (step s a) := fun s a hs => hs.step a
  exact (along_iff_always hstep (fun s a hs h => sparesUninstalls_iff hs h a) inv_initial hinitial
    as).symm

end

/-! ### A healthy round during an uninstall -/

/-- The node reports the round `i` of its requests. -/
def reports (i : Nat) (checkedAt : Time) (score : Int) : List Action :=
  [.request "fingerprint" (.monitoringReport ⟨[⟨"target", checkedAt⟩], score⟩),
    .statement i checkedAt]

/-- An active node has four abnormal rounds, and its uninstall is prepared. -/
def pausedThenPrepared : List Action :=
  enrolled ++
    [.request "fingerprint" (.heartbeat [] 0 "" none "" "" ""), .statement 1 5, .statement 1 5,
      .statement 1 5, .monitoringTarget (.create "target" "probe" "192.0.2.9:443") 6] ++
    reports 2 10 0 ++ reports 3 20 0 ++ reports 4 30 0 ++ reports 5 40 0 ++
    [.node (.prepareUninstall "node" [] 120) 45]

/-- The next round is healthy, and monitoring resumes the node. -/
theorem pausedThenPrepared_active :
    ¬ Always step NeverActive initial (pausedThenPrepared ++ reports 6 50 100) := by
  intro h
  have hjob : ((run step initial (pausedThenPrepared ++ reports 6 50 100)
      ).db.nodeUninstallJobs.find? "node").map NodeUninstallJob.status = some .preparing := by
    decide +kernel
  have hnode : ((run step initial (pausedThenPrepared ++ reports 6 50 100)
      ).db.nodes.find? "node").map Node.status = some .active := by decide +kernel
  obtain ⟨job, hjob, hpreparing⟩ := Option.map_eq_some_iff.mp hjob
  obtain ⟨node, hnode, hactive⟩ := Option.map_eq_some_iff.mp hnode
  have hid : job.nodeID = "node" := Table.key_of_find? hjob
  exact h.last job (Table.mem_of_find? hjob) (by rw [hpreparing]; rfl) node (by rw [hid]; exact hnode)
    hactive

end SimpleCdn.Lifecycle
