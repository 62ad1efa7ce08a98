import SimpleCdn.Draining.System
import SimpleCdn.Retirement.Unassigned
import SimpleCdn.SiteCalls.Rows

/-!
# The zones of sites

A site keeps the zone it was created with, and so does its publication.  As no site is deleted, a
zone that some publication has had stays a zone of some publication.
-/

namespace SimpleCdn.Draining

open Store Retirement

/-- Edits in flight and publications have the zones of their sites. -/
structure Zoned (s : SiteCalls.Calls) : Prop where
  updates : ∀ call ∈ s.updates, ∃ row, s.store.sites.find? call.current.id = some row ∧
    row.zoneID = call.current.zoneID
  publications : ∀ publication ∈ s.store.sitePublications,
    ∃ row, s.store.sites.find? publication.site.id = some row ∧
      row.zoneID = publication.site.zoneID

/-- Some publication is in the zone. -/
def PublishedIn (db : Store) (zone : String) : Prop :=
  ∃ publication ∈ db.sitePublications, publication.site.zoneID = zone

section

variable {s : SiteCalls.Calls} {a : SiteCalls.Action} {id : String} {row : Site}

/-- A site keeps its zone. -/
theorem Zoned.siteRow (hs : Zoned s) (ha : ∀ taskID now, a ≠ .completeSiteDeletion taskID now)
    (hrow : s.store.sites.find? id = some row) :
    ∃ row', (SiteCalls.step s a).store.sites.find? id = some row' ∧ row'.zoneID = row.zoneID := by
  have hchange := SiteCalls.step_change s id a
  have hview : (s.store.siteView id).row = some row := hrow
  change ∃ row', ((SiteCalls.step s a).store.siteView id).row = some row' ∧ _
  generalize (SiteCalls.step s a).store.siteView id = view' at hchange ⊢
  generalize s.store.siteView id = view at hchange hview
  cases hchange with
  | unchanged => exact ⟨row, hview, rfl⟩
  | created => cases hview
  | @updated i now call old certificate hcommit hid =>
    obtain rfl := Option.some.inj hview
    obtain ⟨row', hrow', hzone⟩ := hs.updates call (List.mem_of_getElem? hcommit.1)
    rw [hid, hrow] at hrow'
    obtain rfl := Option.some.inj hrow'
    exact ⟨_, rfl, hzone.symm⟩
  | invalidated | certified | published | deletionBegun =>
    obtain rfl := Option.some.inj hview
    exact ⟨_, rfl, rfl⟩
  | removed => exact absurd rfl (ha _ _)

theorem commit_updates (s : SiteCalls.Calls) (result : Except StoreError Store) :
    (s.commit result).updates = s.updates := by
  cases result with
  | ok db => rfl
  | error e => rfl

theorem createTask_updates (s : SiteCalls.Calls) (i : Nat) (call : SiteCalls.PublishCall)
    (taskID : String) (now : Time) : (s.createTask i call taskID now).updates = s.updates := by
  unfold SiteCalls.Calls.createTask
  split
  · rfl
  · split
    · rfl
    · rfl
    · rfl

theorem publishStep_updates (s : SiteCalls.Calls) (i : Nat) (call : SiteCalls.PublishCall)
    (taskID : String) (now : Time) : (s.publishStep i call taskID now).updates = s.updates := by
  unfold SiteCalls.Calls.publishStep
  split
  · exact createTask_updates s i call taskID now
  · split
    · rfl
    · rfl
  · split
    · rfl
    · rfl
  · split
    · rfl
    · rfl
  · split
    · rfl
    · rfl

/-- An edit in flight has read the row of its site. -/
theorem step_updates {call : SiteCalls.UpdateCall} (h : call ∈ (SiteCalls.step s a).updates) :
    call ∈ s.updates ∨ s.store.sites.find? call.current.id = some call.current := by
  cases a with
  | updateRead id draft zoneID =>
    simp only [SiteCalls.step] at h
    split at h
    · next current hcheck =>
      rcases List.mem_cons.mp h with rfl | h
      · obtain ⟨hfind, -⟩ := updateSiteCheck_eq_ok.mp hcheck
        have hid : current.id = id := Table.key_of_find? hfind
        right
        rw [hid]
        exact hfind
      · exact .inl h
    · exact .inl h
  | updateCommit i now =>
    simp only [SiteCalls.step] at h
    split at h
    · rw [commit_updates] at h
      exact .inl (List.mem_of_mem_eraseIdx h)
    · exact .inl h
  | invalidateRead id =>
    simp only [SiteCalls.step] at h
    split at h
    · exact .inl h
    · exact .inl h
  | invalidateCommit i now =>
    simp only [SiteCalls.step] at h
    split at h
    · rw [commit_updates] at h
      exact .inl h
    · exact .inl h
  | publishRead siteID =>
    simp only [SiteCalls.step] at h
    split at h
    · exact .inl h
    · exact .inl h
  | publishStep i taskID now =>
    simp only [SiteCalls.step] at h
    split at h
    · rw [publishStep_updates] at h
      exact .inl h
    · exact .inl h
  | reconcilePublishTasks now => exact .inl h
  | otherTables tables => exact .inl h
  | createSite | storeCertificate | beginSiteDeletion | completeSiteDeletion =>
    rw [SiteCalls.step, commit_updates] at h
    exact .inl h

theorem Zoned.siteStep (hs : Zoned s) (ha : ∀ taskID now, a ≠ .completeSiteDeletion taskID now)
    {draft : Option Site} (heffect : SiteEffect draft s.store (SiteCalls.step s a).store) :
    Zoned (SiteCalls.step s a) := by
  constructor
  · intro call hcall
    rcases step_updates hcall with hcall | hread
    · obtain ⟨row, hrow, hzone⟩ := hs.updates call hcall
      obtain ⟨row', hrow', hzone'⟩ := hs.siteRow ha hrow
      exact ⟨row', hrow', hzone'.trans hzone⟩
    · exact hs.siteRow ha hread
  · intro publication hpublication
    rcases heffect.copied publication hpublication with hold | ⟨row, hrow, hzone⟩
    · obtain ⟨row, hrow, hzone⟩ := hs.publications publication hold
      obtain ⟨row', hrow', hzone'⟩ := hs.siteRow ha hrow
      exact ⟨row', hrow', hzone'.trans hzone⟩
    · obtain ⟨row', hrow', hzone'⟩ := hs.siteRow ha hrow
      exact ⟨row', hrow', hzone'.trans hzone.symm⟩

/-- A zone with a publication keeps one. -/
theorem Zoned.publishedIn (hs : Zoned s) (ha : ∀ taskID now, a ≠ .completeSiteDeletion taskID now)
    {draft : Option Site} (heffect : SiteEffect draft s.store (SiteCalls.step s a).store)
    {zone : String} (h : PublishedIn s.store zone) :
    PublishedIn (SiteCalls.step s a).store zone := by
  obtain ⟨publication, hpublication, rfl⟩ := h
  obtain ⟨row, hrow, hzone⟩ := hs.publications publication hpublication
  obtain ⟨row', hrow', hzone'⟩ := hs.siteRow ha hrow
  rcases heffect.kept publication hpublication with ⟨publication', hpublication', hid⟩ | hgone
  · -- the new publication is in the zone of the same row
    obtain ⟨row'', hrow'', hzone''⟩ := (hs.siteStep ha heffect).publications publication'
      hpublication'
    rw [hid, hrow'] at hrow''
    obtain rfl := Option.some.inj hrow''
    exact ⟨publication', hpublication', hzone''.symm.trans (hzone'.trans hzone)⟩
  · rw [hgone] at hrow'
    cases hrow'

/-- Changes of other tables. -/
theorem Zoned.of_eq {t : SiteCalls.Calls} (hs : Zoned s) (hupdates : t.updates = s.updates)
    (hsites : t.store.sites = s.store.sites)
    (hpublications : t.store.sitePublications = s.store.sitePublications) : Zoned t := by
  constructor
  · rw [hupdates, hsites]
    exact hs.updates
  · rw [hpublications, hsites]
    exact hs.publications

theorem publishedIn_congr {db db' : Store} (h : db'.sitePublications = db.sitePublications)
    {zone : String} : PublishedIn db' zone ↔ PublishedIn db zone := by
  rw [PublishedIn, h, PublishedIn]

end

/-! ### Steps of the system without DNS -/

section

variable {s : Retirement.State} {a : Retirement.Action}

/-- What is not a call on sites leaves the sites alone. -/
structure SitesSame (s t : Retirement.State) : Prop where
  sites : t.calls.store.sites = s.calls.store.sites
  publications : t.calls.store.sitePublications = s.calls.store.sitePublications
  updates : t.calls.updates = s.calls.updates

theorem SitesSame.refl (s : Retirement.State) : SitesSame s s :=
  ⟨rfl, rfl, rfl⟩

theorem SitesSame.effect {opened : Option String} {db : Store}
    (h : WorkflowEffect opened s.calls.store db) : SitesSame s (s.setStore db) :=
  ⟨h.sites, h.publications, rfl⟩

theorem sitesSame_step (hs : Retirement.Inv s) (ha : ∀ b, a ≠ .site b) :
    SitesSame s (Retirement.step s a) := by
  cases a with
  | site b => exact absurd rfl (ha b)
  | node op now =>
    rw [Retirement.step]
    split
    · exact .refl s
    · next hop =>
      cases happly : op.apply s.calls.store now with
      | error e => exact .refl s
      | ok db => exact .effect (nodeOp_workflow hs.closed (Bool.eq_false_of_not_eq_true hop) happly)
  | deleteNode nodeID =>
    rw [Retirement.step]
    cases hdelete : s.calls.store.deleteNode nodeID with
    | error e => exact .refl s
    | ok db =>
      have heffect : WorkflowEffect none _ _ := deleteNode_workflow hs.closed hdelete
      exact .effect heffect
  | createCommand nodeID => exact ⟨rfl, rfl, rfl⟩
  | forceComplete nodeID confirmation =>
    rw [Retirement.step]
    split
    · split
      · exact ⟨rfl, rfl, rfl⟩
      · exact .refl s
    · exact .refl s
  | handlerStep i active token now =>
    rw [Retirement.step]
    split
    · next call hcall =>
      unfold State.handlerStep
      split
      · cases hwrite : call.write s.calls.store token now with
        | error e => exact ⟨rfl, rfl, rfl⟩
        | ok db =>
          obtain ⟨f, g, hsites, hpublications, -⟩ := write_eq_ok hwrite
          exact ⟨hsites, hpublications, rfl⟩
      · split
        · exact ⟨rfl, rfl, rfl⟩
        · exact ⟨rfl, rfl, rfl⟩
    · exact .refl s

/-- Sites stay, and so do their zones. -/
theorem zoned_step (hs : Retirement.Inv s) (hzoned : Zoned s.calls) (ha : excluded a = false) :
    Zoned (Retirement.step s a).calls ∧ ∀ zone, PublishedIn s.calls.store zone →
      PublishedIn (Retirement.step s a).calls.store zone := by
  by_cases hsite : ∃ b, a = .site b
  · obtain ⟨b, rfl⟩ := hsite
    have hkeeps : ∀ taskID now, keepNodes s.calls.store b ≠ .completeSiteDeletion taskID now := by
      intro taskID now hb
      cases b with
      | completeSiteDeletion => cases ha
      | otherTables => cases hb
      | createSite | updateRead | updateCommit | invalidateRead | invalidateCommit
      | storeCertificate | publishRead | publishStep | reconcilePublishTasks
      | beginSiteDeletion => cases hb
    have heffect := siteCall_effect s.calls b
    exact ⟨hzoned.siteStep hkeeps heffect, fun zone h => hzoned.publishedIn hkeeps heffect h⟩
  · have hsame := sitesSame_step hs fun b hb => hsite ⟨b, hb⟩
    exact ⟨hzoned.of_eq hsame.updates hsame.sites hsame.publications,
      fun zone h => (publishedIn_congr hsame.publications).mpr h⟩

/-- No workflow is opened, and an open one keeps its time. -/
def JobsOpen (db db' : Store) : Prop :=
  ∀ n job', db'.nodeUninstallJobs.find? n = some job' → job'.status.blocksStatus = true →
    ∃ job, db.nodeUninstallJobs.find? n = some job ∧ job.status.blocksStatus = true ∧
      job'.readyAt = job.readyAt

theorem JobsOpen.of_eq {db db' : Store} (h : db'.nodeUninstallJobs = db.nodeUninstallJobs) :
    JobsOpen db db' := by
  intro n job' hjob' hblocks
  rw [h] at hjob'
  exact ⟨job', hjob', hblocks, rfl⟩

theorem JobsOpen.effect {db db' : Store} (h : WorkflowEffect none db db') : JobsOpen db db' := by
  intro n job' hjob' hblocks
  rcases h.jobs n job' hjob' with ⟨job, hjob, hkept⟩ | ⟨hnone, -⟩
  · exact ⟨job, hjob, hkept.blocks hblocks, hkept.ready⟩
  · cases hnone

theorem opens_eq_none {op : NodeOp} {now : Time} (h : excluded (.node op now) = false) :
    opens op = none := by
  cases op with
  | prepareUninstall => cases h
  | createNode | setCacheMaxSizeGB | setNginxCapacity | setCapabilities | createEnrollmentToken
  | setNodeStatus | recordMonitoringRound | heartbeat | issueUninstallToken | startUninstall
  | failUninstall | completeUninstall | forceCompleteUninstall | cancelUninstall | deleteNode => rfl

theorem jobsOpen_step (hs : Retirement.Inv s) (ha : excluded a = false) :
    JobsOpen s.calls.store (Retirement.step s a).calls.store := by
  cases a with
  | site b => exact .of_eq (siteCall_effect s.calls b).jobs
  | node op now =>
    rw [Retirement.step]
    split
    · exact .of_eq rfl
    · next hop =>
      cases happly : op.apply s.calls.store now with
      | error e => exact .of_eq rfl
      | ok db =>
        have heffect := nodeOp_workflow hs.closed (Bool.eq_false_of_not_eq_true hop) happly
        rw [opens_eq_none ha] at heffect
        exact .effect heffect
  | deleteNode nodeID =>
    rw [Retirement.step]
    cases hdelete : s.calls.store.deleteNode nodeID with
    | error e => exact .of_eq rfl
    | ok db => exact .effect (deleteNode_workflow hs.closed hdelete)
  | createCommand nodeID => exact .of_eq rfl
  | forceComplete nodeID confirmation =>
    rw [Retirement.step]
    split
    · split
      · exact .of_eq rfl
      · exact .of_eq rfl
    · exact .of_eq rfl
  | handlerStep i active token now =>
    rw [Retirement.step]
    split
    · next call hcall =>
      unfold State.handlerStep
      split
      · cases hwrite : call.write s.calls.store token now with
        | error e => exact .of_eq rfl
        | ok db =>
          obtain ⟨f, g, -, -, -, hjobs, ⟨job, hjob, hblocks⟩, hg, -⟩ := write_eq_ok hwrite
          intro n job' hjob' hblocks'
          rw [show (((s.endHandler i).onStore (.ok db)).calls.store) = db from rfl, hjobs] at hjob'
          split at hjob'
          · next heq =>
            subst heq
            rw [hjob] at hjob'
            obtain rfl := Option.some.inj hjob'
            exact ⟨job, hjob, hblocks, (hg job).2.1⟩
          · exact ⟨job', hjob', hblocks', rfl⟩
      · split
        · exact .of_eq rfl
        · exact .of_eq rfl
    · exact .of_eq rfl

end

end SimpleCdn.Draining
