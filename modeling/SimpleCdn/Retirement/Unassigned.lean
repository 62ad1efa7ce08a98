import SimpleCdn.Control.EntryPoints
import SimpleCdn.Retirement.Workflows

/-!
# Retired nodes carry no site

While a workflow is open, no draft takes its node up, so once no site lists the node none will
until the workflow is canceled.  The handlers that issue a token or complete by force establish
this from reads, though, and run their transaction later: in between the workflow may have been
canceled, the node given to a site and the workflow opened again.  `Tracks` says what a handler
knows at each stage; at its transaction every site that lists the node has been given it since
the handler began.  So retired nodes carry no site exactly if no such site is left then.
-/

namespace SimpleCdn.Retirement

open Store Transition

/-- The draft or the publication of the site lists the node. -/
def Lists (db : Store) (n id : String) : Prop :=
  db.DraftLists n id ∨ db.PublicationLists n id

/-- A node whose uninstall is ready or running, that is uninstalled or that has no row is listed by
no draft and by no publication. -/
def CarriesNoSite (s : State) : Prop :=
  ∀ n, ((∃ job, s.calls.store.nodeUninstallJobs.find? n = some job ∧
      (job.status = .ready ∨ job.status = .running)) ∨
    (∃ node, s.calls.store.nodes.find? n = some node ∧ node.status = .uninstalled) ∨
    s.calls.store.nodes.find? n = none) → s.calls.store.Unlisted n

/-- When a handler issues a token or completes an uninstall, no site that has been given the node
since the handler began still lists it. -/
def Current (s : State) (a : Action) : Prop :=
  ∀ i active token now call db, a = .handlerStep i active token now →
    s.handlers[i]? = some call → call.stage = .ready →
      call.write s.calls.store token now = .ok db →
        ∀ id ∈ call.assigned, ¬ Lists s.calls.store call.nodeID id

/-! ### What handlers know -/

/-- The sites that have been read list the node. -/
def ListedIn (sites : List Site) (n id : String) : Prop :=
  ∃ site ∈ sites, site.id = id ∧ n ∈ site.nodes

/-- Of the sites that list the node now, a handler knows those that have not been given it since
the handler began. -/
def UninstallCall.Tracks (db : Store) (call : UninstallCall) : Prop :=
  match call.stage with
  | .begun | .node => True
  | .job job => job.status.blocksStatus = true → ∀ id, Lists db call.nodeID id →
    id ∈ job.affectedSiteIDs ∨ id ∈ call.assigned
  | .sites job sites => job.status.blocksStatus = true →
    (∀ id, db.DraftLists call.nodeID id → ListedIn sites call.nodeID id ∨ id ∈ call.assigned) ∧
      ∀ id, db.PublicationLists call.nodeID id →
        (ListedIn sites call.nodeID id ∨
          (id ∈ job.affectedSiteIDs ∧ ∃ site ∈ sites, site.id = id)) ∨ id ∈ call.assigned
  | .ready => ∀ id, Lists db call.nodeID id → id ∈ call.assigned

structure Inv (s : State) : Prop where
  closed : WorkflowsClosed s.calls.store
  owned : PublicationsOwned s.calls.store
  rows : ∀ n, s.calls.store.nodes.find? n = none → s.calls.store.Unlisted n
  affected : ∀ n job, s.calls.store.nodeUninstallJobs.find? n = some job →
    job.status.blocksStatus = true → ∀ id, Lists s.calls.store n id → id ∈ job.affectedSiteIDs
  handlers : ∀ call ∈ s.handlers, call.Tracks s.calls.store

/-- Nodes whose prerequisites have been found satisfied are listed by no site. -/
structure Settled (s : State) : Prop where
  cleared : ∀ n job, s.calls.store.nodeUninstallJobs.find? n = some job →
    job.status.cleared = true → s.calls.store.Unlisted n
  uninstalled : ∀ n node, s.calls.store.nodes.find? n = some node →
    node.status = .uninstalled → s.calls.store.Unlisted n

section

variable {s : State} {db db' : Store} {n siteID : String} {now : Time}

theorem unlisted_iff_lists : db.Unlisted n ↔ ∀ id, ¬ Lists db n id := by
  rw [unlisted_iff]
  exact forall_congr' fun id => not_or.symm

theorem draftLists_congr (h : db'.sites = db.sites) :
    db'.DraftLists n siteID ↔ db.DraftLists n siteID := by
  rw [DraftLists, h, DraftLists]

theorem publicationLists_congr (h : db'.sitePublications = db.sitePublications) :
    db'.PublicationLists n siteID ↔ db.PublicationLists n siteID := by
  rw [PublicationLists, h, PublicationLists]

theorem lists_congr (hsites : db'.sites = db.sites)
    (hpublications : db'.sitePublications = db.sitePublications) :
    Lists db' n siteID ↔ Lists db n siteID :=
  or_congr (draftLists_congr hsites) (publicationLists_congr hpublications)

theorem unlisted_congr (hsites : db'.sites = db.sites)
    (hpublications : db'.sitePublications = db.sitePublications) :
    db'.Unlisted n ↔ db.Unlisted n := by
  rw [Unlisted, hsites, hpublications, Unlisted]

/-- A handler knows as much of tables with the same sites and publications. -/
theorem UninstallCall.Tracks.congr {call : UninstallCall} (h : call.Tracks db)
    (hsites : db'.sites = db.sites)
    (hpublications : db'.sitePublications = db.sitePublications) : call.Tracks db' := by
  unfold UninstallCall.Tracks at h ⊢
  simp only [lists_congr hsites hpublications, draftLists_congr hsites,
    publicationLists_congr hpublications]
  exact h

/-! ### Calls on sites -/

theorem note_nodeID (draft : Option Site) (call : UninstallCall) :
    (call.note draft).nodeID = call.nodeID ∧ (call.note draft).stage = call.stage := by
  unfold UninstallCall.note
  split
  · split
    · exact ⟨rfl, rfl⟩
    · exact ⟨rfl, rfl⟩
  · exact ⟨rfl, rfl⟩

theorem assigned_note (draft : Option Site) {call : UninstallCall} (h : siteID ∈ call.assigned) :
    siteID ∈ (call.note draft).assigned := by
  unfold UninstallCall.note
  split
  · split
    · exact List.mem_cons_of_mem _ h
    · exact h
  · exact h

/-- A site that takes the node up is noted. -/
theorem SiteEffect.noted {draft : Option Site} (h : SiteEffect draft db db')
    {call : UninstallCall} (hlists : db'.DraftLists call.nodeID siteID) :
    db.DraftLists call.nodeID siteID ∨ siteID ∈ (call.note draft).assigned := by
  rcases h.drafts _ _ hlists with hold | ⟨site, rfl, rfl, hn, -⟩
  · exact .inl hold
  · right
    simp [UninstallCall.note, hn]

theorem UninstallCall.Tracks.note {draft : Option Site} (h : SiteEffect draft db db')
    {call : UninstallCall} (htracks : call.Tracks db) : (call.note draft).Tracks db' := by
  obtain ⟨hid, hstage⟩ := note_nodeID draft call
  have hlists : ∀ id, Lists db' call.nodeID id →
      Lists db call.nodeID id ∨ id ∈ (call.note draft).assigned := by
    rintro id (hdraft | hpublication)
    · exact (SiteEffect.noted h hdraft).imp_left .inl
    · exact .inl (h.publications _ _ hpublication).symm
  unfold UninstallCall.Tracks at htracks ⊢
  rw [hid, hstage]
  split
  · trivial
  · trivial
  · next job hjob =>
    rw [hjob] at htracks
    intro hblocks id hnow
    rcases hlists id hnow with hold | hnoted
    · exact (htracks hblocks id hold).imp_right (assigned_note draft)
    · exact .inr hnoted
  · next job sites hsites =>
    rw [hsites] at htracks
    intro hblocks
    obtain ⟨hdrafts, hpublications⟩ := htracks hblocks
    constructor
    · intro id hnow
      rcases SiteEffect.noted h hnow with hold | hnoted
      · exact (hdrafts id hold).imp_right (assigned_note draft)
      · exact .inr hnoted
    · intro id hnow
      rcases h.publications _ _ hnow with hold | hold
      · exact (hpublications id hold).imp_right (assigned_note draft)
      · exact (hdrafts id hold).imp .inl (assigned_note draft)
  · next hready =>
    rw [hready] at htracks
    intro id hnow
    rcases hlists id hnow with hold | hnoted
    · exact assigned_note draft (htracks id hold)
    · exact hnoted

/-- Only a node with a row, that is in service and owned by no workflow, is taken up. -/
theorem SiteEffect.lists {draft : Option Site} (h : SiteEffect draft db db')
    (hlists : Lists db' n siteID) : Lists db n siteID ∨ db.Assignable n := by
  rcases hlists with hdraft | hpublication
  · rcases h.drafts _ _ hdraft with hold | ⟨-, -, -, -, hassignable⟩
    · exact .inl (.inl hold)
    · exact .inr hassignable
  · exact .inl (h.publications _ _ hpublication).symm

/-- An open workflow keeps its node from being taken up. -/
theorem not_assignable_of_blocks {job : NodeUninstallJob}
    (hjob : db.nodeUninstallJobs.find? n = some job) (hblocks : job.status.blocksStatus = true) :
    ¬ db.Assignable n := by
  intro h
  have hid : job.nodeID = n := Table.key_of_find? hjob
  have hactive : db.hasActiveNodeUninstall n = true :=
    Table.any_eq_true.mpr ⟨job, Table.mem_of_find? hjob, by simp [hid, hblocks]⟩
  rw [h.free] at hactive
  cases hactive

theorem not_assignable_of_uninstalled {node : Node} (hnode : db.nodes.find? n = some node)
    (hstatus : node.status = .uninstalled) : ¬ db.Assignable n := by
  intro h
  obtain ⟨node', hnode', hlive⟩ := h.live
  obtain rfl := Option.some.inj (hnode.symm.trans hnode')
  rw [hstatus] at hlive
  cases hlive

/-- Nor is a node whose prerequisites have been found satisfied. -/
theorem not_assignable_of_cleared (hclosed : WorkflowsClosed db) {job : NodeUninstallJob}
    (hjob : db.nodeUninstallJobs.find? n = some job) (hcleared : job.status.cleared = true) :
    ¬ db.Assignable n := by
  obtain ⟨node, hnode⟩ := hclosed.owned n job hjob
  cases hstatus : job.status with
  | ready | running | failed => exact not_assignable_of_blocks hjob (by rw [hstatus]; rfl)
  | succeeded | forced =>
    exact not_assignable_of_uninstalled hnode
      (hclosed.ended n job node hjob (by rw [hstatus]; rfl) hnode)
  | preparing | canceled =>
    rw [hstatus] at hcleared
    cases hcleared

theorem Inv.siteCall (hs : Inv s) (a : SiteCalls.Action) : Inv (step s (.site a)) := by
  have h := siteCall_effect s.calls a
  constructor
  case closed =>
    refine ⟨fun n job hjob => ?_, fun n job node hjob hover hnode => ?_⟩
    · rw [step, h.jobs] at hjob
      rw [step, h.nodes]
      exact hs.closed.owned n job hjob
    · rw [step, h.jobs] at hjob
      rw [step, h.nodes] at hnode
      exact hs.closed.ended n job node hjob hover hnode
  case owned => exact h.owned hs.owned
  case rows =>
    intro n hgone
    rw [step, h.nodes] at hgone
    refine unlisted_iff_lists.mpr fun id hlists => ?_
    rcases SiteEffect.lists h hlists with hold | hassignable
    · exact unlisted_iff_lists.mp (hs.rows n hgone) id hold
    · obtain ⟨node, hnode, -⟩ := hassignable.live
      rw [hgone] at hnode
      cases hnode
  case affected =>
    intro n job hjob hblocks id hlists
    rw [step, h.jobs] at hjob
    rcases SiteEffect.lists h hlists with hold | hassignable
    · exact hs.affected n job hjob hblocks id hold
    · exact absurd hassignable (not_assignable_of_blocks hjob hblocks)
  case handlers =>
    intro call' hcall'
    obtain ⟨call, hcall, rfl⟩ := List.mem_map.mp hcall'
    exact (hs.handlers call hcall).note h

theorem Settled.siteCall (hs : Inv s) (h : Settled s) (a : SiteCalls.Action) :
    Settled (step s (.site a)) := by
  have heffect := siteCall_effect s.calls a
  have hkept : ∀ n, ¬ s.calls.store.Assignable n → s.calls.store.Unlisted n →
      (step s (.site a)).calls.store.Unlisted n := by
    intro n hnot hunlisted
    refine unlisted_iff_lists.mpr fun id hlists => ?_
    rcases SiteEffect.lists heffect hlists with hold | hassignable
    · exact unlisted_iff_lists.mp hunlisted id hold
    · exact hnot hassignable
  constructor
  · intro n job hjob hcleared
    rw [step, heffect.jobs] at hjob
    exact hkept n (not_assignable_of_cleared hs.closed hjob hcleared) (h.cleared n job hjob hcleared)
  · intro n node hnode hstatus
    rw [step, heffect.nodes] at hnode
    exact hkept n (not_assignable_of_uninstalled hnode hstatus) (h.uninstalled n node hnode hstatus)

/-! ### Operations on nodes -/

/-- A change of nodes and workflows that leaves the sites alone. -/
theorem Inv.write (hs : Inv s) (hsites : db.sites = s.calls.store.sites)
    (hpublications : db.sitePublications = s.calls.store.sitePublications)
    (hclosed : WorkflowsClosed db)
    (hgone : ∀ n, db.nodes.find? n = none →
      s.calls.store.nodes.find? n = none ∨ s.calls.store.Unlisted n)
    (hjobs : ∀ n job', db.nodeUninstallJobs.find? n = some job' →
      job'.status.blocksStatus = true → (∃ job, s.calls.store.nodeUninstallJobs.find? n = some job ∧
        job.status.blocksStatus = true ∧ job'.affectedSiteIDs = job.affectedSiteIDs) ∨
      s.calls.store.JobOpened n job') : Inv (s.setStore db) := by
  constructor
  case closed => exact hclosed
  case owned =>
    intro publication hpublication
    rw [State.setStore, hpublications] at hpublication
    rw [State.setStore, hsites]
    exact hs.owned publication hpublication
  case rows =>
    intro n hnone
    refine (unlisted_congr hsites hpublications).mpr ?_
    rcases hgone n hnone with hold | hunlisted
    · exact hs.rows n hold
    · exact hunlisted
  case affected =>
    intro n job' hjob' hblocks id hlists
    have hold := (lists_congr hsites hpublications).mp hlists
    rcases hjobs n job' hjob' hblocks with ⟨job, hjob, hblocked, hsame⟩ | hopened
    · rw [hsame]
      exact hs.affected n job hjob hblocked id hold
    · exact hopened.affected id hold
  case handlers =>
    exact fun call hcall => (hs.handlers call hcall).congr hsites hpublications

theorem Inv.effect {opened : Option String} (hs : Inv s) (h : WorkflowEffect opened s.calls.store db) : Inv (s.setStore db) := by
  refine hs.write h.sites h.publications h.closed h.gone fun n job' hjob' hblocks => ?_
  rcases h.jobs n job' hjob' with ⟨job, hjob, hkept⟩ | ⟨-, hopened⟩
  · exact .inl ⟨job, hjob, hkept.blocks hblocks, hkept.affected⟩
  · exact .inr hopened

theorem Settled.effect {opened : Option String} (h : Settled s) (heffect : WorkflowEffect opened s.calls.store db) :
    Settled (s.setStore db) := by
  constructor
  · intro n job' hjob' hcleared
    refine (unlisted_congr heffect.sites heffect.publications).mpr ?_
    rcases heffect.jobs n job' hjob' with ⟨job, hjob, hkept⟩ | ⟨-, hopened⟩
    · exact h.cleared n job hjob (hkept.cleared hcleared)
    · rw [hopened.preparing] at hcleared
      cases hcleared
  · intro n node' hnode' hstatus
    refine (unlisted_congr heffect.sites heffect.publications).mpr ?_
    rcases heffect.uninstalled n node' hnode' hstatus with ⟨node, hnode, hwas⟩ | ⟨job, hjob, hcleared⟩
    · exact h.uninstalled n node hnode hwas
    · exact h.cleared n job hjob hcleared

/-! ### Handlers -/

theorem canProceed_iff {call : UninstallCall} {job : NodeUninstallJob}
    {blockers : List NodeUninstallBlocker} (h : call.canProceed job blockers now = true) :
    job.status.blocksStatus = true ∧ blockers = [] := by
  unfold UninstallCall.canProceed at h
  split at h
  · simp only [canGenerateCommand, Bool.and_eq_true, List.isEmpty_iff] at h
    obtain ⟨⟨hnone, -⟩, hwaits⟩ := h
    refine ⟨?_, hnone⟩
    rcases hstatus : job.status
    all_goals rw [hstatus] at hwaits
    all_goals first | rfl | cases hwaits
  · simp only [canForceComplete, Bool.and_eq_true, List.isEmpty_iff] at h
    exact h.1

theorem find?_listSitePublications {publication : SitePublication}
    (h : publication ∈ db.sitePublications) :
    (db.listSitePublications.find? fun other => other.site.id = publication.site.id) =
      some publication := by
  cases hfind : db.listSitePublications.find? fun other => other.site.id = publication.site.id with
  | none =>
    have hne := List.find?_eq_none.mp hfind publication (mem_listSitePublications.mpr h)
    simp at hne
  | some other =>
    have hmem := mem_listSitePublications.mp (List.mem_of_find?_eq_some hfind)
    have hid := List.find?_some hfind
    simp only [decide_eq_true_eq] at hid
    exact congrArg some (Table.eq_of_key_eq hmem h hid)

/-- Each read of a handler adds to what it knows. -/
theorem UninstallCall.Tracks.read {call : UninstallCall} {stage : UninstallStage}
    {active : String → Bool} (hs : Inv s) (h : call.Tracks s.calls.store)
    (hread : call.read s.calls.store active now = some stage) :
    UninstallCall.Tracks s.calls.store { call with stage := stage } := by
  unfold UninstallCall.read at hread
  unfold UninstallCall.Tracks at h
  split at hread
  · obtain ⟨-, -, rfl⟩ := Option.map_eq_some_iff.mp hread
    trivial
  · split at hread
    · next job hjob =>
      split at hread
      · cases hread
      · obtain rfl := Option.some.inj hread
        intro hblocks id hlists
        exact .inl (hs.affected call.nodeID job hjob hblocks id hlists)
    · cases hread
  · next job hstage =>
    rw [hstage] at h
    obtain rfl := Option.some.inj hread
    have hmem : ∀ site, site ∈ s.calls.store.listSites ↔ site ∈ s.calls.store.sites :=
      fun site => List.mem_insertionSort _
    intro hblocks
    constructor
    · rintro id ⟨site, hsite, hid, hn⟩
      exact .inl ⟨site, (hmem site).mpr hsite, hid, hn⟩
    · intro id hpublication
      refine (h hblocks id (.inr hpublication)).imp_left fun haffected => .inr ⟨haffected, ?_⟩
      obtain ⟨publication, hmem', rfl, -⟩ := hpublication
      obtain ⟨site, hsite, hid⟩ := hs.owned publication hmem'
      exact ⟨site, (hmem site).mpr hsite, hid⟩
  · next job sites hstage =>
    rw [hstage] at h
    dsimp only at hread
    split at hread
    · next hproceed =>
      obtain rfl := Option.some.inj hread
      -- the prerequisites are satisfied, so there is no blocker
      obtain ⟨hblocks, hnone⟩ : job.status.blocksStatus = true ∧
          uninstallBlockers call.nodeID job sites s.calls.store.listSitePublications active = [] :=
        canProceed_iff hproceed
      obtain ⟨hdrafts, hpublications⟩ := h hblocks
      obtain ⟨hunlisted, haffected⟩ := unlisted_of_no_blockers hnone
      have hnot : ∀ id, ¬ ListedIn sites call.nodeID id := by
        rintro id ⟨site, hsite, -, hn⟩
        exact hunlisted site hsite hn
      rintro id (hdraft | hpublication)
      · exact (hdrafts id hdraft).resolve_left (hnot id)
      · refine (hpublications id hpublication).resolve_left ?_
        rintro (hlisted | ⟨hid, hexists⟩)
        · exact hnot id hlisted
        · obtain ⟨publication, hmem, rfl, hn⟩ := hpublication
          exact haffected _ hid hexists publication (find?_listSitePublications hmem) hn
    · cases hread
  · cases hread

/-- What the transaction of a handler writes. -/
theorem write_eq_ok {call : UninstallCall} {token : String}
    (h : call.write db token now = .ok db') :
    ∃ f g, db'.sites = db.sites ∧ db'.sitePublications = db.sitePublications ∧
      NodeRowMoves db db' call.nodeID f ∧ JobRowMoves db db' call.nodeID g ∧
      (∃ job, db.nodeUninstallJobs.find? call.nodeID = some job ∧
        job.status.blocksStatus = true) ∧
      (∀ job, (g job).affectedSiteIDs = job.affectedSiteIDs ∧ (g job).readyAt = job.readyAt ∧
        (g job).status.cleared = true) ∧
      ((call.kind = .createCommand ∧ f = id ∧ ∀ job, (g job).status = .ready) ∨
        (call.kind = .forceComplete ∧ ∀ node, (f node).status = .uninstalled)) := by
  unfold UninstallCall.write at h
  split at h
  · next hkind =>
    simp only [issueNodeUninstallToken, bind_eq_ok, require_eq_ok, orError_eq_ok, pure_eq_ok,
      exists_const] at h
    obtain ⟨-, job, hjob, hwaits, rfl⟩ := h
    refine ⟨id, _, rfl, rfl, NodeRowMoves.refl db call.nodeID,
      find?_updateUninstallJob db (by intro _; rfl), ⟨job, hjob, ?_⟩, fun _ => ⟨rfl, rfl, rfl⟩,
      .inl ⟨hkind, rfl, fun _ => rfl⟩⟩
    cases hstatus : job.status with
    | preparing | ready | failed => rfl
    | running | succeeded | forced | canceled =>
      rw [hstatus] at hwaits
      cases hwaits
  · next hkind =>
    simp only [forceCompleteNodeUninstall, bind_eq_ok, require_eq_ok, nodeUninstallJob_eq_ok,
      pure_eq_ok, exists_const] at h
    obtain ⟨job, hjob, hblocks, rfl⟩ := h
    exact ⟨_, _, rfl, rfl, find?_updateNode db (by intro _; rfl),
      find?_updateUninstallJob db (by intro _; rfl), ⟨job, hjob, hblocks⟩, fun _ => ⟨rfl, rfl, rfl⟩,
      .inr ⟨hkind, fun _ => rfl⟩⟩

/-! ### Steps -/

theorem Inv.withHandlers (hs : Inv s) {handlers : List UninstallCall}
    (h : ∀ call ∈ handlers, call.Tracks s.calls.store) : Inv { s with handlers := handlers } :=
  ⟨hs.closed, hs.owned, hs.rows, hs.affected, h⟩

theorem Inv.begin (hs : Inv s) (nodeID : String) (kind : UninstallKind) :
    Inv (s.begin nodeID kind) := by
  refine hs.withHandlers fun call hcall => ?_
  rcases List.mem_cons.mp hcall with rfl | hcall
  · trivial
  · exact hs.handlers call hcall

theorem Inv.endHandler (hs : Inv s) (i : Nat) : Inv (s.endHandler i) :=
  hs.withHandlers fun call hcall => hs.handlers call (List.mem_of_mem_eraseIdx hcall)

theorem Inv.written (hs : Inv s) {call : UninstallCall} {token : String}
    (hwrite : call.write s.calls.store token now = .ok db) : Inv (s.setStore db) := by
  obtain ⟨f, g, hsites, hpublications, hnodes, hjobs, ⟨job, hjob, hblocks⟩, hg, hkind⟩ :=
    write_eq_ok hwrite
  have hover : ∀ node job, s.calls.store.nodes.find? call.nodeID = some node →
      s.calls.store.nodeUninstallJobs.find? call.nodeID = some job →
        (g job).status.ended = true → (f node).status = .uninstalled := by
    intro node job _ _ hover
    rcases hkind with ⟨-, -, hready⟩ | ⟨-, huninstalled⟩
    · rw [hready] at hover
      cases hover
    · exact huninstalled node
  refine hs.write hsites hpublications (hs.closed.at hnodes hjobs hover) (fun n hnone => ?_)
    fun n job' hjob' hblocks' => ?_
  · left
    rw [hnodes] at hnone
    split at hnone
    · exact Option.map_eq_none_iff.mp hnone
    · exact hnone
  · left
    rw [hjobs] at hjob'
    split at hjob'
    · next heq =>
      subst heq
      rw [hjob] at hjob'
      obtain rfl := Option.some.inj hjob'
      exact ⟨job, hjob, hblocks, (hg job).1⟩
    · exact ⟨job', hjob', hblocks', rfl⟩

theorem Settled.written (h : Settled s) {call : UninstallCall} {token : String}
    (hwrite : call.write s.calls.store token now = .ok db)
    (hunlisted : s.calls.store.Unlisted call.nodeID) : Settled (s.setStore db) := by
  obtain ⟨f, g, hsites, hpublications, hnodes, hjobs, -⟩ := write_eq_ok hwrite
  constructor
  · intro n job hjob hcleared
    refine (unlisted_congr hsites hpublications).mpr ?_
    rw [State.setStore, hjobs] at hjob
    split at hjob
    · next heq =>
      rw [heq]
      exact hunlisted
    · exact h.cleared n job hjob hcleared
  · intro n node hnode hstatus
    refine (unlisted_congr hsites hpublications).mpr ?_
    rw [State.setStore, hnodes] at hnode
    split at hnode
    · next heq =>
      rw [heq]
      exact hunlisted
    · exact h.uninstalled n node hnode hstatus

theorem Inv.handlerStep (hs : Inv s) {i : Nat} {call : UninstallCall} {active : String → Bool}
    {token : String} (hcall : s.handlers[i]? = some call) :
    Inv (s.handlerStep i call active token now) := by
  have hknown := hs.handlers call (List.mem_of_getElem? hcall)
  unfold State.handlerStep
  split
  · cases hwrite : call.write s.calls.store token now with
    | error e => exact hs.endHandler i
    | ok db => exact (hs.endHandler i).written hwrite
  · split
    · next stage hread =>
      refine hs.withHandlers fun other hother => ?_
      rcases List.mem_or_eq_of_mem_set hother with hother | rfl
      · exact hs.handlers other hother
      · exact hknown.read hs hread
    · exact hs.endHandler i

theorem Inv.step (hs : Inv s) (a : Action) : Inv (step s a) := by
  cases a with
  | site a => exact hs.siteCall a
  | node op now =>
    rw [Retirement.step]
    split
    · exact hs
    · next hop =>
      cases happly : op.apply s.calls.store now with
      | error e => exact hs
      | ok db => exact hs.effect (nodeOp_workflow hs.closed (Bool.eq_false_of_not_eq_true hop) happly)
  | deleteNode nodeID =>
    rw [Retirement.step]
    cases hdelete : s.calls.store.deleteNode nodeID with
    | error e => exact hs
    | ok db =>
      have heffect : WorkflowEffect none _ _ := deleteNode_workflow hs.closed hdelete
      exact hs.effect heffect
  | createCommand nodeID => exact hs.begin nodeID .createCommand
  | forceComplete nodeID confirmation =>
    rw [Retirement.step]
    split
    · split
      · exact hs.begin nodeID .forceComplete
      · exact hs
    · exact hs
  | handlerStep i active token now =>
    rw [Retirement.step]
    split
    · next call hcall => exact hs.handlerStep hcall
    · exact hs

/-- Only handlers that are not current unsettle a node. -/
theorem Settled.step (hs : Inv s) (h : Settled s) (a : Action) (hcurrent : Current s a) :
    Settled (step s a) := by
  cases a with
  | site a => exact h.siteCall hs a
  | node op now =>
    rw [Retirement.step]
    split
    · exact h
    · next hop =>
      cases happly : op.apply s.calls.store now with
      | error e => exact h
      | ok db => exact h.effect (nodeOp_workflow hs.closed (Bool.eq_false_of_not_eq_true hop) happly)
  | deleteNode nodeID =>
    rw [Retirement.step]
    cases hdelete : s.calls.store.deleteNode nodeID with
    | error e => exact h
    | ok db =>
      have heffect : WorkflowEffect none _ _ := deleteNode_workflow hs.closed hdelete
      exact h.effect heffect
  | createCommand nodeID => exact ⟨h.cleared, h.uninstalled⟩
  | forceComplete nodeID confirmation =>
    rw [Retirement.step]
    split
    · split
      · exact ⟨h.cleared, h.uninstalled⟩
      · exact h
    · exact h
  | handlerStep i active token now =>
    rw [Retirement.step]
    split
    · next call hcall =>
      have hended : Settled (s.endHandler i) := ⟨h.cleared, h.uninstalled⟩
      unfold State.handlerStep
      split
      · next hready =>
        cases hwrite : call.write s.calls.store token now with
        | error e => exact hended
        | ok db =>
          -- the sites that list the node have been given it since the handler began
          have hknown := hs.handlers call (List.mem_of_getElem? hcall)
          simp only [UninstallCall.Tracks, hready] at hknown
          have hunlisted : s.calls.store.Unlisted call.nodeID :=
            unlisted_iff_lists.mpr fun id hlists =>
              hcurrent i active token now call db rfl hcall hready hwrite id (hknown id hlists) hlists
          exact hended.written hwrite hunlisted
      · split
        · exact ⟨h.cleared, h.uninstalled⟩
        · exact hended
    · exact h

/-- A handler whose transaction retires a node that some site still lists breaks the property. -/
theorem CarriesNoSite.current (hs : Inv s) {a : Action} (h : CarriesNoSite (Retirement.step s a)) :
    Current s a := by
  rintro i active token now call db rfl hcall hready hwrite id - hlists
  have hstore : (Retirement.step s (.handlerStep i active token now)).calls.store = db := by
    simp only [Retirement.step, hcall, State.handlerStep, hready, hwrite]
    rfl
  obtain ⟨f, g, hsites, hpublications, hnodes, hjobs, ⟨job, hjob, -⟩, -, hkind⟩ :=
    write_eq_ok hwrite
  have hunlisted : db.Unlisted call.nodeID := by
    rw [← hstore]
    apply h
    rw [hstore]
    rcases hkind with ⟨-, -, hissued⟩ | ⟨-, huninstalled⟩
    · refine .inl ⟨g job, ?_, .inl (hissued job)⟩
      rw [hjobs, if_pos rfl, hjob]
      rfl
    · obtain ⟨node, hnode⟩ := hs.closed.owned _ job hjob
      refine .inr (.inl ⟨f node, ?_, huninstalled node⟩)
      rw [hnodes, if_pos rfl, hnode]
      rfl
  exact unlisted_iff_lists.mp ((unlisted_congr hsites hpublications).mp hunlisted) id hlists

theorem Settled.carriesNoSite (hs : Inv s) (h : Settled s) : CarriesNoSite s := by
  rintro n (⟨job, hjob, hstatus⟩ | ⟨node, hnode, hstatus⟩ | hgone)
  · refine h.cleared n job hjob ?_
    rcases hstatus with hready | hrunning
    · rw [hready]
      rfl
    · rw [hrunning]
      rfl
  · exact h.uninstalled n node hnode hstatus
  · exact hs.rows n hgone

end

theorem inv_initial : Inv initial where
  closed := by
    refine ⟨fun n job hjob => ?_, fun n job node hjob => ?_⟩
    · cases (show none = some job from hjob)
    · cases (show none = some job from hjob)
  owned := fun publication hpublication => absurd hpublication List.not_mem_nil
  rows := fun n _ => ⟨fun site hsite => absurd hsite List.not_mem_nil,
    fun publication hpublication => absurd hpublication List.not_mem_nil⟩
  affected := by
    intro n job hjob
    cases (show none = some job from hjob)
  handlers := fun call hcall => absurd hcall List.not_mem_nil

theorem settled_initial : Settled initial where
  cleared := by
    intro n job hjob
    cases (show none = some job from hjob)
  uninstalled := by
    intro n node hnode
    cases (show none = some node from hnode)

/-- **Retired nodes carry no site** in a run exactly if no handler of the run retires a node that
some site has been given, and has kept, since the handler began. -/
theorem retired_unlisted_iff (as : List Action) :
    Always step CarriesNoSite initial as ↔ Along step Current initial as := by
  have hinv : ∀ s a, Inv s → Inv (step s a) := fun s a hs => hs.step a
  constructor
  · intro h
    exact h.along hinv (fun s a hs h => h.current hs) inv_initial
  · intro h
    have hboth : Always step (fun s => Inv s ∧ Settled s) initial as :=
      h.always (fun s a ⟨hs, hsettled⟩ hcurrent => ⟨hs.step a, hsettled.step hs a hcurrent⟩)
        ⟨inv_initial, settled_initial⟩
    exact hboth.mono fun s ⟨hs, hsettled⟩ => hsettled.carriesNoSite hs

/-- A cached site on the node. -/
def siteOnNode : SiteDraft where
  name := "site"
  domains := ["a.example"]
  nodes := ["node"]
  primaryOrigin := ⟨"http://origin.example", "", "", true⟩
  backupOrigin := none
  passthrough := false
  clientMaxBodySizeMB := 0
  clientKeepaliveTimeoutSeconds := 0
  readWriteTimeoutSeconds := 0
  dnsTTLSeconds := none
  tcpOnly := false
  tcpForwards := []
  enabled := true

/-- A step of the handler that issues a token. -/
def issueStep (now : Time) : Action :=
  .handlerStep 0 (fun _ => false) "token" now

/-- After the handler has found no blocker, the workflow is canceled, a site is created on the node
and the workflow is opened again; then the handler issues its token. -/
def givenWhileIssued : List Action :=
  [.node (.createNode "node" "node" "192.0.2.1") second,
    .node (.setNodeStatus "node" .draining) (2 * second),
    .node (.prepareUninstall "node" [] (78 * second)) (3 * second),
    .createCommand "node", issueStep (80 * second), issueStep (80 * second),
    issueStep (80 * second), issueStep (80 * second),
    .node (.cancelUninstall "node") (81 * second),
    .site (.createSite "site" siteOnNode "zone" (82 * second)),
    .node (.prepareUninstall "node" ["site"] (158 * second)) (83 * second), issueStep (84 * second)]

/-- The uninstall is ready and the draft lists the node. -/
theorem givenWhileIssued_lists : ¬ Always step CarriesNoSite initial givenWhileIssued := by
  intro h
  have hready : ((run step initial givenWhileIssued).calls.store.nodeUninstallJobs.find?
      "node").map NodeUninstallJob.status = some .ready := by decide +kernel
  have hlisted : ((run step initial givenWhileIssued).calls.store.sites.rows.any fun site =>
      site.nodes.contains "node") = true := by decide +kernel
  obtain ⟨job, hjob, hstatus⟩ := Option.map_eq_some_iff.mp hready
  obtain ⟨site, hsite, hn⟩ := List.any_eq_true.mp hlisted
  exact (h.last "node" (.inl ⟨job, hjob, .inl hstatus⟩)).1 site hsite (List.contains_iff_mem.mp hn)

end SimpleCdn.Retirement
