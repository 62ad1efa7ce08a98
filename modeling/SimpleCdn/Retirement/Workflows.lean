import Mathlib.Data.List.Dedup
import SimpleCdn.Retirement.Assignments

/-!
# What node operations do to uninstall workflows

A workflow is opened with every site that lists its node, and keeps that list.  Beyond its
preparation it only gets with an issued token, and a node is uninstalled only by a workflow that
has got there; the exceptions are the two transactions that the handlers run themselves.
-/

namespace SimpleCdn

/-- The prerequisites of the uninstall have once been found satisfied. -/
def NodeUninstallJobStatus.cleared : NodeUninstallJobStatus → Bool
  | preparing | canceled => false
  | _ => true

def NodeUninstallJobStatus.ended : NodeUninstallJobStatus → Bool
  | succeeded | forced => true
  | _ => false

namespace Store

/-- A workflow has a node, which is uninstalled when the workflow is over. -/
structure WorkflowsClosed (db : Store) : Prop where
  owned : ∀ n job, db.nodeUninstallJobs.find? n = some job →
    ∃ node, db.nodes.find? n = some node
  ended : ∀ n job node, db.nodeUninstallJobs.find? n = some job → job.status.ended = true →
    db.nodes.find? n = some node → node.status = .uninstalled

/-- The workflow gets no further than it was. -/
structure JobKept (job job' : NodeUninstallJob) : Prop where
  affected : job'.affectedSiteIDs = job.affectedSiteIDs
  ready : job'.readyAt = job.readyAt
  blocks : job'.status.blocksStatus = true → job.status.blocksStatus = true
  cleared : job'.status.cleared = true → job.status.cleared = true

/-- A workflow that is opened now. -/
structure JobOpened (db : Store) (n : String) (job : NodeUninstallJob) : Prop where
  preparing : job.status = .preparing
  affected : ∀ id, db.DraftLists n id ∨ db.PublicationLists n id → id ∈ job.affectedSiteIDs

/-- What an operation does that opens at most the workflow of `opened`. -/
structure WorkflowEffect (opened : Option String) (db db' : Store) : Prop where
  sites : db'.sites = db.sites
  publications : db'.sitePublications = db.sitePublications
  jobs : ∀ n job', db'.nodeUninstallJobs.find? n = some job' →
    (∃ job, db.nodeUninstallJobs.find? n = some job ∧ JobKept job job') ∨
      (opened = some n ∧ db.JobOpened n job')
  uninstalled : ∀ n node', db'.nodes.find? n = some node' → node'.status = .uninstalled →
    (∃ node, db.nodes.find? n = some node ∧ node.status = .uninstalled) ∨
      ∃ job, db.nodeUninstallJobs.find? n = some job ∧ job.status.cleared = true
  gone : ∀ n, db'.nodes.find? n = none → db.nodes.find? n = none ∨ db.Unlisted n
  closed : WorkflowsClosed db'

section

variable {db db' : Store} {n nodeID : String} {now : Time} {opened : Option String}

theorem JobKept.refl (job : NodeUninstallJob) : JobKept job job :=
  ⟨rfl, rfl, id, id⟩

/-- The rows of the workflows before and after an operation on one of them. -/
def JobRowMoves (db db' : Store) (nodeID : String) (g : NodeUninstallJob → NodeUninstallJob) :
    Prop :=
  ∀ n, db'.nodeUninstallJobs.find? n =
    if n = nodeID then (db.nodeUninstallJobs.find? n).map g else db.nodeUninstallJobs.find? n

theorem JobRowMoves.of_eq (h : db'.nodeUninstallJobs = db.nodeUninstallJobs) (nodeID : String) :
    JobRowMoves db db' nodeID id := by
  intro n
  rw [h, Option.map_id, id, ite_self]

theorem WorkflowsClosed.at {f : Node → Node} {g : NodeUninstallJob → NodeUninstallJob}
    (hclosed : WorkflowsClosed db) (hnodes : NodeRowMoves db db' nodeID f)
    (hjobs : JobRowMoves db db' nodeID g)
    (hover : ∀ node job, db.nodes.find? nodeID = some node →
      db.nodeUninstallJobs.find? nodeID = some job → (g job).status.ended = true →
        (f node).status = .uninstalled) : WorkflowsClosed db' := by
  constructor
  · intro n job' hjob'
    rw [hjobs] at hjob'
    rw [hnodes]
    split at hjob'
    · next heq =>
      subst heq
      obtain ⟨job, hfind, -⟩ := Option.map_eq_some_iff.mp hjob'
      obtain ⟨node, hrow⟩ := hclosed.owned n job hfind
      rw [if_pos rfl, hrow]
      exact ⟨f node, rfl⟩
    · next hne =>
      rw [if_neg hne]
      exact hclosed.owned n job' hjob'
  · intro n job' node' hjob' hstatus hnode'
    rw [hjobs] at hjob'
    rw [hnodes] at hnode'
    split at hjob'
    · next heq =>
      subst heq
      rw [if_pos rfl] at hnode'
      obtain ⟨job, hfind, rfl⟩ := Option.map_eq_some_iff.mp hjob'
      obtain ⟨node, hrow, rfl⟩ := Option.map_eq_some_iff.mp hnode'
      exact hover node job hrow hfind hstatus
    · next hne =>
      rw [if_neg hne] at hnode'
      exact hclosed.ended n job' node' hjob' hstatus hnode'

/-- An operation on the rows of one node. -/
theorem WorkflowEffect.at {f : Node → Node} {g : NodeUninstallJob → NodeUninstallJob}
    (hclosed : WorkflowsClosed db) (hsites : db'.sites = db.sites)
    (hpublications : db'.sitePublications = db.sitePublications)
    (hnodes : NodeRowMoves db db' nodeID f) (hjobs : JobRowMoves db db' nodeID g)
    (hjob : ∀ job, db.nodeUninstallJobs.find? nodeID = some job → JobKept job (g job))
    (hnode : ∀ node, db.nodes.find? nodeID = some node → (f node).status = .uninstalled →
      node.status = .uninstalled ∨
        ∃ job, db.nodeUninstallJobs.find? nodeID = some job ∧ job.status.cleared = true)
    (hover : ∀ node job, db.nodes.find? nodeID = some node →
      db.nodeUninstallJobs.find? nodeID = some job → (g job).status.ended = true →
        (f node).status = .uninstalled) : WorkflowEffect opened db db' := by
  constructor
  case sites => exact hsites
  case publications => exact hpublications
  case jobs =>
    intro n job' hjob'
    rw [hjobs] at hjob'
    split at hjob'
    · next heq =>
      subst heq
      obtain ⟨job, hfind, rfl⟩ := Option.map_eq_some_iff.mp hjob'
      exact .inl ⟨job, hfind, hjob job hfind⟩
    · exact .inl ⟨job', hjob', .refl job'⟩
  case uninstalled =>
    intro n node' hnode' hstatus
    rw [hnodes] at hnode'
    split at hnode'
    · next heq =>
      subst heq
      obtain ⟨node, hfind, rfl⟩ := Option.map_eq_some_iff.mp hnode'
      rcases hnode node hfind hstatus with hwas | hcleared
      · exact .inl ⟨node, hfind, hwas⟩
      · exact .inr hcleared
    · exact .inl ⟨node', hnode', hstatus⟩
  case gone =>
    intro n hnone
    left
    rw [hnodes] at hnone
    split at hnone
    · exact Option.map_eq_none_iff.mp hnone
    · exact hnone
  case closed => exact hclosed.at hnodes hjobs hover

/-- An operation on the row of one node that neither uninstalls it nor takes that back. -/
theorem WorkflowEffect.ofNode {f : Node → Node} (hclosed : WorkflowsClosed db)
    (hsites : db'.sites = db.sites) (hpublications : db'.sitePublications = db.sitePublications)
    (hnodes : NodeRowMoves db db' nodeID f)
    (hjobs : db'.nodeUninstallJobs = db.nodeUninstallJobs)
    (hstatus : ∀ node, db.nodes.find? nodeID = some node →
      ((f node).status = .uninstalled ↔ node.status = .uninstalled)) : WorkflowEffect opened db db' :=
  .at hclosed hsites hpublications hnodes (.of_eq hjobs nodeID) (fun job _ => .refl job)
    (fun node hnode huninstalled => .inl ((hstatus node hnode).mp huninstalled))
    fun node job hnode hjob hover =>
      (hstatus node hnode).mpr (hclosed.ended nodeID job node hjob hover hnode)

theorem WorkflowEffect.refl (hclosed : WorkflowsClosed db) : WorkflowEffect opened db db :=
  .ofNode hclosed rfl rfl (NodeRowMoves.refl db "") rfl fun _ _ => Iff.rfl

theorem updateNode_workflow {f : Node → Node} {hf : ∀ node, key (f node) = key node}
    (hclosed : WorkflowsClosed db)
    (hstatus : ∀ node, db.nodes.find? nodeID = some node →
      ((f node).status = .uninstalled ↔ node.status = .uninstalled)) :
    WorkflowEffect opened db (db.updateNode nodeID f hf) :=
  .ofNode hclosed rfl rfl (find?_updateNode db hf) rfl hstatus

/-- A step of a workflow that is not over and does not end with it. -/
theorem updateUninstallJob_workflow {job : NodeUninstallJob}
    {g : NodeUninstallJob → NodeUninstallJob} {hg : ∀ job, key (g job) = key job}
    (hclosed : WorkflowsClosed db) (hfind : db.nodeUninstallJobs.find? nodeID = some job)
    (hkept : JobKept job (g job)) (hover : (g job).status.ended = true → job.status.ended = true) :
    WorkflowEffect opened db (db.updateUninstallJob nodeID g hg) := by
  refine .at hclosed rfl rfl (NodeRowMoves.refl db nodeID) (find?_updateUninstallJob db hg)
    (fun job' hjob' => ?_) (fun _ _ => .inl) fun node job' hnode hjob' hends => ?_
  · obtain rfl := Option.some.inj (hfind.symm.trans hjob')
    exact hkept
  · obtain rfl := Option.some.inj (hfind.symm.trans hjob')
    exact hclosed.ended nodeID job node hfind (hover hends) hnode

/-- A step of an open workflow that gives its node another status. -/
theorem updateUninstall_workflow {job : NodeUninstallJob} {f : Node → Node}
    {g : NodeUninstallJob → NodeUninstallJob} {hf : ∀ node, key (f node) = key node}
    {hg : ∀ job, key (g job) = key job} (hclosed : WorkflowsClosed db)
    (hfind : db.nodeUninstallJobs.find? nodeID = some job) (hkept : JobKept job (g job))
    (hopen : (g job).status.ended = false) (hcleared : job.status.cleared = true) :
    WorkflowEffect opened db ((db.updateUninstallJob nodeID g hg).updateNode nodeID f hf) := by
  refine .at hclosed rfl rfl (find?_updateNode (db.updateUninstallJob nodeID g hg) hf)
    (find?_updateUninstallJob db hg) (fun job' hjob' => ?_)
    (fun _ _ _ => .inr ⟨job, hfind, hcleared⟩) fun node job' hnode hjob' hends => ?_
  · obtain rfl := Option.some.inj (hfind.symm.trans hjob')
    exact hkept
  · obtain rfl := Option.some.inj (hfind.symm.trans hjob')
    rw [hopen] at hends
    cases hends

/-! ### The operations -/

theorem createNode_workflow {id name publicIPv4 : String} {node : Node}
    (hclosed : WorkflowsClosed db)
    (h : db.createNode id name publicIPv4 now = .ok (node, db')) : WorkflowEffect opened db db' := by
  simp only [createNode, bind_eq_ok, require_eq_ok, orError_eq_ok, pure_eq_ok, exists_const,
    Prod.mk.injEq] at h
  obtain ⟨-, db₁, hnew, -, nodes, hinsert, rfl, rfl⟩ := h
  obtain ⟨-, rfl⟩ := newID_eq_ok.mp hnew
  have hfind := Table.find?_of_insert? hinsert
  have hnone : db.nodes.find? id = none := (Table.insert?_eq_some_iff.mp hinsert).1
  have hother : ∀ n job, db.nodeUninstallJobs.find? n = some job →
      nodes.find? n = db.nodes.find? n := by
    intro n job hjob
    obtain ⟨node, hnode⟩ := hclosed.owned n job hjob
    refine (hfind n).trans (if_neg fun heq => ?_)
    rw [← show id = n from heq, hnone] at hnode
    cases hnode
  constructor
  case sites => rfl
  case publications => rfl
  case jobs => exact fun n job hjob => .inl ⟨job, hjob, .refl job⟩
  case uninstalled =>
    intro n node' hnode' hstatus
    rw [hfind] at hnode'
    split at hnode'
    · obtain rfl := Option.some.inj hnode'
      cases hstatus
    · exact .inl ⟨node', hnode', hstatus⟩
  case gone =>
    intro n hgone
    rw [hfind] at hgone
    split at hgone
    · cases hgone
    · exact .inl hgone
  case closed =>
    refine ⟨fun n job hjob => ?_, fun n job node hjob hover hnode => ?_⟩
    · rw [hother n job hjob]
      exact hclosed.owned n job hjob
    · rw [hother n job hjob] at hnode
      exact hclosed.ended n job node hjob hover hnode

theorem setNodeStatus_workflow {status : NodeStatus} (hclosed : WorkflowsClosed db)
    (h : db.setNodeStatus nodeID status now = .ok db') : WorkflowEffect opened db db' := by
  simp only [setNodeStatus, bind_eq_ok, require_eq_ok, getNode_eq_ok, exists_const] at h
  obtain ⟨hvalid, node, hnode, ⟨-, hnot⟩, -, h⟩ := h
  have hstatus : ∀ node', db.nodes.find? nodeID = some node' → node'.status ≠ .uninstalled := by
    intro node' hnode'
    obtain rfl := Option.some.inj (hnode.symm.trans hnode')
    exact hnot
  split at h
  · obtain rfl := pure_eq_ok.mp h
    -- the revocation of a workflow only changes where it would bring its node back to
    have hjobs : ∀ n, (db.nodeUninstallJobs.update
        (fun job => job.nodeID = nodeID && job.status.blocksStatus)
        (fun job => { job with previousStatus := .revoked, updatedAt := now })).find? n =
          if n = nodeID then (db.nodeUninstallJobs.find? n).map fun job =>
            if job.status.blocksStatus then
              { job with previousStatus := .revoked, updatedAt := now }
            else job
          else db.nodeUninstallJobs.find? n :=
      Table.find?_update_key (p := fun job : NodeUninstallJob => job.status.blocksStatus)
        (by intro _; rfl) nodeID
    refine .at hclosed rfl rfl (find?_updateNode db (by intro _; rfl)) hjobs
      (fun job _ => ?_) (fun _ _ huninstalled => ?_) fun node' job' hnode' hjob' hover => ?_
    · split
      · exact ⟨rfl, rfl, id, id⟩
      · exact .refl job
    · cases huninstalled
    · refine absurd (hclosed.ended nodeID job' node' hjob' ?_ hnode') (hstatus node' hnode')
      split at hover
      · exact hover
      · exact hover
  · obtain rfl := pure_eq_ok.mp h
    refine updateNode_workflow hclosed fun node' hnode' =>
      iff_of_false (fun huninstalled => ?_) (hstatus node' hnode')
    rw [show status = NodeStatus.uninstalled from huninstalled] at hvalid
    simp at hvalid

theorem monitoredStatus_uninstalled {status : NodeStatus} {autoPaused : Bool}
    {consecutiveAbnormal : Nat} :
    (monitoredStatus status autoPaused consecutiveAbnormal).1 = .uninstalled ↔
      status = .uninstalled := by
  unfold monitoredStatus
  split
  · next hactive => simp [hactive.2]
  · split
    · next hdraining => simp [hdraining.2.2]
    · rfl

theorem heartbeat_workflow {lastError agentVersion agentSHA256 activeUpgradeID : String}
    {appliedVersion : Nat} {report : Option ApplyReport} (hclosed : WorkflowsClosed db)
    (h : db.heartbeat nodeID appliedVersion lastError report agentVersion agentSHA256
      activeUpgradeID now = .ok db') : WorkflowEffect opened db db' := by
  have hreport : ∀ db₁, db.recordReport nodeID report now = .ok db₁ →
      ∃ rows, db₁ = { db with publishTaskNodes := rows } := by
    intro db₁ hrecord
    cases report with
    | none =>
      obtain rfl := Except.ok.inj hrecord
      exact ⟨db.publishTaskNodes, rfl⟩
    | some report =>
      simp only [recordReport, recordPublishApply, bind_eq_ok, pure_eq_ok] at hrecord
      obtain ⟨-, -, rfl⟩ := hrecord
      exact ⟨_, rfl⟩
  simp only [heartbeat, bind_eq_ok, pure_eq_ok] at h
  obtain ⟨db₁, hrecord, -, -, rfl⟩ := h
  obtain ⟨rows, rfl⟩ := hreport db₁ hrecord
  obtain ⟨tasks, rows', hframe⟩ := Store.reconcilePublishTasks_frame _ now
  rw [hframe]
  refine .ofNode hclosed rfl rfl (find?_updateNode db (by intro _; rfl)) rfl fun node _ => ?_
  dsimp only
  split
  · next hpending => simp [hpending]
  · rfl

theorem prepareNodeUninstall_workflow {affectedSiteIDs : List String} {readyAt : Time}
    (hclosed : WorkflowsClosed db)
    (h : db.prepareNodeUninstall nodeID affectedSiteIDs readyAt now = .ok db') :
    WorkflowEffect (some nodeID) db db' := by
  simp only [prepareNodeUninstall, bind_eq_ok, require_eq_ok, getNode_eq_ok, exists_const] at h
  obtain ⟨node, hnode, -, -, -, h⟩ := h
  split at h
  · obtain rfl := pure_eq_ok.mp h
    exact .refl hclosed
  · obtain rfl := pure_eq_ok.mp h
    have haffected : ∀ id, db.DraftLists nodeID id ∨ db.PublicationLists nodeID id →
        id ∈ db.affectedSites nodeID affectedSiteIDs := by
      rintro id (⟨site, hsite, rfl, hn⟩ | ⟨publication, hpublication, rfl, hn⟩)
      · refine List.mem_dedup.mpr (List.mem_append_left _ (List.mem_append_right _ ?_))
        exact List.mem_map.mpr ⟨site, List.mem_filter.mpr ⟨hsite, by simpa using hn⟩, rfl⟩
      · refine List.mem_dedup.mpr (List.mem_append_right _ ?_)
        exact List.mem_map.mpr
          ⟨publication, List.mem_filter.mpr ⟨hpublication, by simpa using hn⟩, rfl⟩
    constructor
    case sites => rfl
    case publications => rfl
    case jobs =>
      intro n job' hjob'
      rw [Table.find?_upsert] at hjob'
      split at hjob'
      · next heq =>
        obtain rfl := Option.some.inj hjob'
        have hid : nodeID = n := heq
        subst hid
        exact .inr ⟨rfl, ⟨rfl, haffected⟩⟩
      · exact .inl ⟨job', hjob', .refl job'⟩
    case uninstalled => exact fun n node' hnode' hstatus => .inl ⟨node', hnode', hstatus⟩
    case gone => exact fun n hgone => .inl hgone
    case closed =>
      refine ⟨fun n job' hjob' => ?_, fun n job' node' hjob' hover hnode' => ?_⟩
      · rw [Table.find?_upsert] at hjob'
        split at hjob'
        · next heq =>
          have hid : nodeID = n := heq
          exact ⟨node, by rw [← hid]; exact hnode⟩
        · exact hclosed.owned n job' hjob'
      · rw [Table.find?_upsert] at hjob'
        split at hjob'
        · obtain rfl := Option.some.inj hjob'
          cases hover
        · exact hclosed.ended n job' node' hjob' hover hnode'

theorem cancelNodeUninstall_workflow (hclosed : WorkflowsClosed db)
    (h : db.cancelNodeUninstall nodeID now = .ok db') : WorkflowEffect opened db db' := by
  simp only [cancelNodeUninstall, bind_eq_ok, require_eq_ok, nodeUninstallJob_eq_ok, pure_eq_ok,
    exists_const] at h
  obtain ⟨job, hjob, -, -, rfl⟩ := h
  refine updateUninstallJob_workflow hclosed hjob ⟨rfl, rfl, ?_, ?_⟩ ?_
  · rintro ⟨⟩
  · rintro ⟨⟩
  · rintro ⟨⟩

theorem startNodeUninstall_workflow {token : String} (hclosed : WorkflowsClosed db)
    (h : db.startNodeUninstall token now = .ok db') : WorkflowEffect opened db db' := by
  simp only [startNodeUninstall, bind_eq_ok] at h
  obtain ⟨job, hjob, h⟩ := h
  have hfind := uninstallJobByToken_eq_ok hjob
  split at h
  · obtain rfl := pure_eq_ok.mp h
    exact .refl hclosed
  · obtain rfl := pure_eq_ok.mp h
    exact updateUninstallJob_workflow hclosed hfind ⟨rfl, rfl, id, id⟩ id
  · next hready =>
    obtain rfl := pure_eq_ok.mp h
    exact updateUninstall_workflow hclosed hfind ⟨rfl, rfl, fun _ => by rw [hready]; rfl,
      fun _ => by rw [hready]; rfl⟩ rfl (by rw [hready]; rfl)
  · next hrunning =>
    obtain rfl := pure_eq_ok.mp h
    exact updateUninstall_workflow hclosed hfind ⟨rfl, rfl, fun _ => by rw [hrunning]; rfl,
      fun _ => by rw [hrunning]; rfl⟩ rfl (by rw [hrunning]; rfl)
  · next hfailed =>
    obtain rfl := pure_eq_ok.mp h
    exact updateUninstall_workflow hclosed hfind ⟨rfl, rfl, fun _ => by rw [hfailed]; rfl,
      fun _ => by rw [hfailed]; rfl⟩ rfl (by rw [hfailed]; rfl)
  · cases h

theorem failNodeUninstall_workflow {token detail : String} (hclosed : WorkflowsClosed db)
    (h : db.failNodeUninstall token detail now = .ok db') : WorkflowEffect opened db db' := by
  simp only [failNodeUninstall, bind_eq_ok] at h
  obtain ⟨job, hjob, h⟩ := h
  have hfind := uninstallJobByToken_eq_ok hjob
  split at h
  · obtain rfl := pure_eq_ok.mp h
    exact .refl hclosed
  · obtain rfl := pure_eq_ok.mp h
    exact .refl hclosed
  · next hrunning =>
    obtain rfl := pure_eq_ok.mp h
    exact updateUninstall_workflow hclosed hfind ⟨rfl, rfl, fun _ => by rw [hrunning]; rfl,
      fun _ => by rw [hrunning]; rfl⟩ rfl (by rw [hrunning]; rfl)
  · next hfailed =>
    obtain rfl := pure_eq_ok.mp h
    exact updateUninstall_workflow hclosed hfind ⟨rfl, rfl, fun _ => by rw [hfailed]; rfl,
      fun _ => by rw [hfailed]; rfl⟩ rfl (by rw [hfailed]; rfl)
  · cases h

/-- The end of an uninstall, by a workflow that has got its token. -/
theorem finishNodeUninstall_workflow {job : NodeUninstallJob} {status : NodeUninstallJobStatus}
    {forced : Bool} {detail : String} (hclosed : WorkflowsClosed db)
    (hfind : db.nodeUninstallJobs.find? nodeID = some job) (hcleared : job.status.cleared = true)
    (hends : status.blocksStatus = false) :
    WorkflowEffect opened db (db.finishNodeUninstall nodeID status forced detail now) := by
  refine .at hclosed rfl rfl (find?_updateNode db (by intro _; rfl))
    (find?_updateUninstallJob db (by intro _; rfl)) (fun job' hjob' => ?_)
    (fun _ _ _ => .inr ⟨job, hfind, hcleared⟩) fun _ _ _ _ _ => rfl
  obtain rfl := Option.some.inj (hfind.symm.trans hjob')
  refine ⟨rfl, rfl, fun hblocks => ?_, fun _ => hcleared⟩
  rw [show status.blocksStatus = true from hblocks] at hends
  cases hends

theorem completeNodeUninstall_workflow {token : String} (hclosed : WorkflowsClosed db)
    (h : db.completeNodeUninstall token now = .ok db') : WorkflowEffect opened db db' := by
  simp only [completeNodeUninstall, bind_eq_ok] at h
  obtain ⟨job, hjob, h⟩ := h
  have hfind := uninstallJobByToken_eq_ok hjob
  split at h
  · obtain rfl := pure_eq_ok.mp h
    exact .refl hclosed
  · next hforced =>
    simp only [bind_eq_ok, pure_eq_ok] at h
    obtain ⟨-, -, rfl⟩ := h
    exact finishNodeUninstall_workflow hclosed hfind (by rw [hforced]; rfl) rfl
  · next hrunning =>
    obtain rfl := pure_eq_ok.mp h
    exact finishNodeUninstall_workflow hclosed hfind (by rw [hrunning]; rfl) rfl
  · cases h

theorem deleteNode_workflow (hclosed : WorkflowsClosed db) (h : db.deleteNode nodeID = .ok db') :
    WorkflowEffect opened db db' := by
  simp only [deleteNode, bind_eq_ok, require_eq_ok, pure_eq_ok, exists_const] at h
  obtain ⟨hsites, hpublications, -, -, rfl⟩ := h
  have hunlisted : db.Unlisted nodeID := by
    constructor
    · intro site hsite
      simpa using Table.any_eq_false.mp hsites site hsite
    · intro publication hpublication
      simpa using Table.any_eq_false.mp hpublications publication hpublication
  have hnodes : ∀ n, (db.nodes.delete fun node => node.id = nodeID).find? n =
      if n = nodeID then none else db.nodes.find? n := Table.find?_delete_key fun _ => rfl
  have hjobs : ∀ n, (db.nodeUninstallJobs.delete fun job => job.nodeID = nodeID).find? n =
      if n = nodeID then none else db.nodeUninstallJobs.find? n :=
    Table.find?_delete_key fun _ => rfl
  constructor
  case sites => rfl
  case publications => rfl
  case jobs =>
    intro n job' hjob'
    rw [hjobs] at hjob'
    split at hjob'
    · cases hjob'
    · exact .inl ⟨job', hjob', .refl job'⟩
  case uninstalled =>
    intro n node' hnode' hstatus
    rw [hnodes] at hnode'
    split at hnode'
    · cases hnode'
    · exact .inl ⟨node', hnode', hstatus⟩
  case gone =>
    intro n hgone
    rw [hnodes] at hgone
    split at hgone
    · next heq =>
      rw [heq]
      exact .inr hunlisted
    · exact .inl hgone
  case closed =>
    refine ⟨fun n job' hjob' => ?_, fun n job' node' hjob' hover hnode' => ?_⟩
    · rw [hjobs] at hjob'
      rw [hnodes]
      split at hjob'
      · cases hjob'
      · next hne =>
        rw [if_neg hne]
        exact hclosed.owned n job' hjob'
    · rw [hjobs] at hjob'
      rw [hnodes] at hnode'
      split at hjob'
      · cases hjob'
      · next hne =>
        rw [if_neg hne] at hnode'
        exact hclosed.ended n job' node' hjob' hover hnode'

end

end Store

open Store

/-- The node whose workflow an operation may open. -/
def Retirement.opens : NodeOp → Option String
  | .prepareUninstall nodeID .. => some nodeID
  | _ => none

theorem Retirement.nodeOp_workflow {db db' : Store} {now : Time} {op : NodeOp}
    (hclosed : WorkflowsClosed db) (hop : byHandler op = false) (h : op.apply db now = .ok db') :
    WorkflowEffect (opens op) db db' := by
  cases op with
  | createNode id name publicIPv4 =>
    obtain ⟨⟨node, db₁⟩, hcreate, rfl⟩ := map_eq_ok.mp h
    exact createNode_workflow hclosed hcreate
  | setCacheMaxSizeGB nodeID size =>
    simp only [NodeOp.apply, setNodeCacheMaxSizeGB, bind_eq_ok, pure_eq_ok] at h
    obtain ⟨-, -, -, -, rfl⟩ := h
    exact updateNode_workflow hclosed fun _ _ => Iff.rfl
  | setNginxCapacity nodeID capacity =>
    simp only [NodeOp.apply, setNodeNginxCapacity, bind_eq_ok, pure_eq_ok] at h
    obtain ⟨-, -, -, -, rfl⟩ := h
    exact updateNode_workflow hclosed fun _ _ => Iff.rfl
  | setCapabilities nodeID capabilities =>
    simp only [NodeOp.apply, setNodeCapabilities, bind_eq_ok, pure_eq_ok] at h
    obtain ⟨-, -, rfl⟩ := h
    exact updateNode_workflow hclosed fun _ _ => Iff.rfl
  | createEnrollmentToken nodeID token expiresAt =>
    simp only [NodeOp.apply, createEnrollmentToken, bind_eq_ok, pure_eq_ok] at h
    obtain ⟨-, -, -, -, -, -, tokens, -, rfl⟩ := h
    exact .ofNode hclosed rfl rfl (NodeRowMoves.refl db nodeID) rfl fun _ _ => Iff.rfl
  | setNodeStatus nodeID status => exact setNodeStatus_workflow hclosed h
  | recordMonitoringRound nodeID consecutiveAbnormal =>
    simp only [NodeOp.apply, recordMonitoringRound, bind_eq_ok, pure_eq_ok] at h
    obtain ⟨-, -, rfl⟩ := h
    exact updateNode_workflow hclosed fun _ _ => monitoredStatus_uninstalled
  | heartbeat => exact heartbeat_workflow hclosed h
  | prepareUninstall nodeID affectedSiteIDs readyAt =>
    exact prepareNodeUninstall_workflow hclosed h
  | startUninstall token => exact startNodeUninstall_workflow hclosed h
  | failUninstall token detail => exact failNodeUninstall_workflow hclosed h
  | completeUninstall token => exact completeNodeUninstall_workflow hclosed h
  | cancelUninstall nodeID => exact cancelNodeUninstall_workflow hclosed h
  | issueUninstallToken | forceCompleteUninstall | deleteNode => cases hop

end SimpleCdn
