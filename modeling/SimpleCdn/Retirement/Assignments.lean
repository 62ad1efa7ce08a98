import SimpleCdn.Retirement.System
import SimpleCdn.Store.NodeEffects

/-!
# What the calls on sites do to the assignment of nodes

A draft lists a node that it did not list before only if an edit has just validated it: the node
has a row, it is not shut out and no workflow owns it.  A publication lists a node only if it did
before or the draft does.
-/

namespace SimpleCdn

namespace Store

/-- The draft of the site lists the node. -/
def DraftLists (db : Store) (n id : String) : Prop :=
  ∃ site ∈ db.sites, site.id = id ∧ n ∈ site.nodes

/-- The publication of the site lists the node. -/
def PublicationLists (db : Store) (n id : String) : Prop :=
  ∃ publication ∈ db.sitePublications, publication.site.id = id ∧ n ∈ publication.site.nodes

theorem unlisted_iff {db : Store} {n : String} :
    db.Unlisted n ↔ ∀ id, ¬ db.DraftLists n id ∧ ¬ db.PublicationLists n id := by
  constructor
  · rintro ⟨hsites, hpublications⟩ id
    constructor
    · rintro ⟨site, hsite, -, hn⟩
      exact hsites site hsite hn
    · rintro ⟨publication, hpublication, -, hn⟩
      exact hpublications publication hpublication hn
  · intro h
    exact ⟨fun site hsite hn => (h site.id).1 ⟨site, hsite, rfl, hn⟩,
      fun publication hpublication hn =>
        (h publication.site.id).2 ⟨publication, hpublication, rfl, hn⟩⟩

/-- The node may be given to a site. -/
structure Assignable (db : Store) (n : String) : Prop where
  live : ∃ node, db.nodes.find? n = some node ∧ node.status.retired = false
  free : db.hasActiveNodeUninstall n = false

/-- A publication belongs to a site that exists. -/
def PublicationsOwned (db : Store) : Prop :=
  ∀ publication ∈ db.sitePublications, ∃ site ∈ db.sites, site.id = publication.site.id

/-- A change of the sites and publications, with the draft it writes. -/
structure SiteEffect (draft : Option Site) (db db' : Store) : Prop where
  drafts : ∀ n id, db'.DraftLists n id → db.DraftLists n id ∨
    ∃ site, draft = some site ∧ site.id = id ∧ n ∈ site.nodes ∧ db.Assignable n
  publications : ∀ n id, db'.PublicationLists n id →
    db.PublicationLists n id ∨ db.DraftLists n id
  owned : db.PublicationsOwned → db'.PublicationsOwned
  /-- A publication is a copy of its draft, which has the same zone. -/
  copied : ∀ publication ∈ db'.sitePublications, publication ∈ db.sitePublications ∨
    ∃ row, db.sites.find? publication.site.id = some row ∧ publication.site.zoneID = row.zoneID
  /-- It is replaced, or goes with its site. -/
  kept : ∀ publication ∈ db.sitePublications,
    (∃ publication' ∈ db'.sitePublications, publication'.site.id = publication.site.id) ∨
      db'.sites.find? publication.site.id = none
  nodes : db'.nodes = db.nodes
  jobs : db'.nodeUninstallJobs = db.nodeUninstallJobs

theorem validateSiteNodes_assignable {db : Store} {nodeIDs : List String} {u : Unit}
    (h : db.validateSiteNodes nodeIDs = .ok u) : ∀ n ∈ nodeIDs, db.Assignable n := by
  induction nodeIDs with
  | nil => nofun
  | cons nodeID nodeIDs ih =>
    simp only [validateSiteNodes, bind_eq_ok, orError_eq_ok, require_eq_ok, exists_const] at h
    obtain ⟨node, hnode, hlive, hfree, hrest⟩ := h
    intro n hn
    rcases List.mem_cons.mp hn with rfl | hn
    · exact ⟨⟨node, hnode, hlive⟩, hfree⟩
    · exact ih hrest n hn

section

variable {draft : Option Site} {db db' : Store}

/-- A change of other tables. -/
theorem SiteEffect.frame (hsites : db'.sites = db.sites)
    (hpublications : db'.sitePublications = db.sitePublications) (hnodes : db'.nodes = db.nodes)
    (hjobs : db'.nodeUninstallJobs = db.nodeUninstallJobs) : SiteEffect draft db db' where
  drafts := by
    rintro n id ⟨site, hsite, h⟩
    rw [hsites] at hsite
    exact .inl ⟨site, hsite, h⟩
  publications := by
    rintro n id ⟨publication, hpublication, h⟩
    rw [hpublications] at hpublication
    exact .inl ⟨publication, hpublication, h⟩
  owned := by
    intro h publication hpublication
    rw [hpublications] at hpublication
    rw [hsites]
    exact h publication hpublication
  copied := by
    intro publication hpublication
    rw [hpublications] at hpublication
    exact .inl hpublication
  kept := by
    intro publication hpublication
    rw [hpublications]
    exact .inl ⟨publication, hpublication, rfl⟩
  nodes := hnodes
  jobs := hjobs

theorem SiteEffect.refl : SiteEffect draft db db :=
  .frame rfl rfl rfl rfl

/-- Rows of sites that keep their nodes, under the same publications. -/
theorem SiteEffect.update {p : Site → Bool} {f : Site → Site}
    {hf : ∀ site, key (f site) = key site} (hnodes : ∀ site, (f site).nodes = site.nodes) :
    SiteEffect draft db { db with sites := db.sites.update p f hf } := by
  constructor
  case drafts =>
    rintro n id ⟨site', hsite', hid, hn⟩
    obtain ⟨site, hsite, rfl⟩ := List.mem_map.mp hsite'
    split at hid
    · next hp =>
      rw [if_pos hp, hnodes] at hn
      exact .inl ⟨site, hsite, (hf site).symm.trans hid, hn⟩
    · next hp =>
      rw [if_neg hp] at hn
      exact .inl ⟨site, hsite, hid, hn⟩
  case publications => exact fun n id h => .inl h
  case copied => exact fun publication hpublication => .inl hpublication
  case kept => exact fun publication hpublication => .inl ⟨publication, hpublication, rfl⟩
  case owned =>
    intro h publication hpublication
    obtain ⟨site, hsite, hid⟩ := h publication hpublication
    refine ⟨_, List.mem_map.mpr ⟨site, hsite, rfl⟩, ?_⟩
    split
    · exact (hf site).trans hid
    · exact hid
  case nodes => rfl
  case jobs => rfl

theorem createSite_effect {id zoneID : String} {draft : SiteDraft} {now : Time} {site : Site}
    (h : db.createSite id draft zoneID now = .ok (site, db')) :
    SiteEffect (some site) db db' := by
  have hassignable : ∀ n ∈ site.nodes, db.Assignable n := by
    simp only [createSite, bind_eq_ok, require_eq_ok, orError_eq_ok, pure_eq_ok, exists_const,
      Prod.mk.injEq] at h
    obtain ⟨-, db₁, hnew, u, hnodes, -, -, -, -, -, rfl, -⟩ := h
    obtain ⟨-, rfl⟩ := newID_eq_ok.mp hnew
    intro n hn
    obtain ⟨hlive, hfree⟩ := validateSiteNodes_assignable hnodes n hn
    exact ⟨hlive, hfree⟩
  obtain ⟨-, -, -, sites, claims, hinsert, rfl⟩ := createSite_eq_ok h
  have hmem := @Table.mem_of_insert? _ _ _ _ _ _ _ hinsert
  constructor
  case drafts =>
    rintro n id ⟨site', hsite', hid, hn⟩
    rcases hmem.mp hsite' with hsite' | rfl
    · exact .inl ⟨site', hsite', hid, hn⟩
    · exact .inr ⟨site', rfl, hid, hn, hassignable n hn⟩
  case publications => exact fun n id h => .inl h
  case copied => exact fun publication hpublication => .inl hpublication
  case kept => exact fun publication hpublication => .inl ⟨publication, hpublication, rfl⟩
  case owned =>
    intro h publication hpublication
    obtain ⟨site, hsite, hid⟩ := h publication hpublication
    exact ⟨site, hmem.mpr (.inl hsite), hid⟩
  case nodes => rfl
  case jobs => rfl

theorem updateSiteCommit_effect {site : Site} (h : db.updateSiteCommit site = .ok db') :
    SiteEffect (some site) db db' := by
  obtain ⟨hnodes, claims, rfl⟩ := updateSiteCommit_eq_ok h
  have hassignable := validateSiteNodes_assignable hnodes
  constructor
  case drafts =>
    rintro n id ⟨site', hsite', hid, hn⟩
    obtain ⟨row, hrow, rfl⟩ := List.mem_map.mp hsite'
    split at hid
    · next hp =>
      rw [if_pos hp] at hn
      have hsame : row.id = site.id := of_decide_eq_true hp
      exact .inr ⟨site, rfl, hsame.symm.trans hid, hn, hassignable n hn⟩
    · next hp =>
      rw [if_neg hp] at hn
      exact .inl ⟨row, hrow, hid, hn⟩
  case publications => exact fun n id h => .inl h
  case copied => exact fun publication hpublication => .inl hpublication
  case kept => exact fun publication hpublication => .inl ⟨publication, hpublication, rfl⟩
  case owned =>
    intro h publication hpublication
    obtain ⟨row, hrow, hid⟩ := h publication hpublication
    refine ⟨_, List.mem_map.mpr ⟨row, hrow, rfl⟩, ?_⟩
    split
    · exact hid
    · exact hid
  case nodes => rfl
  case jobs => rfl

/-- A commit publishes the draft as it is at this moment. -/
theorem commitSitePublication_effect {siteID taskID : String} {expected : Nat}
    {updates : List NodeStateUpdate} {targets : List PublishTaskNode} {site : Site} {now : Time}
    (h : db.commitSitePublication siteID expected taskID updates targets now = .ok (site, db')) :
    SiteEffect draft db db' := by
  obtain ⟨row, hfind, -, -, -, targetRows, states, claims, -, -, rfl⟩ :=
    commitSitePublication_eq_ok h
  have hrow := Table.mem_of_find? hfind
  have hstamp : ∀ site ∈ db.sites, ∃ site' ∈ db.sites.update
      (fun row => row.id = siteID && row.deleting = false)
      (fun row => { row with published := true, updatedAt := now }), site'.id = site.id := by
    intro site hsite
    refine ⟨_, List.mem_map.mpr ⟨site, hsite, rfl⟩, ?_⟩
    split
    · rfl
    · rfl
  constructor
  case drafts =>
    rintro n id ⟨site', hsite', hid, hn⟩
    obtain ⟨site, hsite, rfl⟩ := List.mem_map.mp hsite'
    refine .inl ⟨site, hsite, ?_⟩
    split at hid
    · next hp =>
      rw [if_pos hp] at hn
      exact ⟨hid, hn⟩
    · next hp =>
      rw [if_neg hp] at hn
      exact ⟨hid, hn⟩
  case publications =>
    rintro n id ⟨publication, hpublication, hid, hn⟩
    rcases Table.mem_upsert.mp hpublication with rfl | ⟨hpublication, -⟩
    · exact .inr ⟨row, hrow, hid, hn⟩
    · exact .inl ⟨publication, hpublication, hid, hn⟩
  case copied =>
    intro publication hpublication
    rcases Table.mem_upsert.mp hpublication with rfl | ⟨hpublication, -⟩
    · exact .inr ⟨row, Table.find?_of_mem hrow, rfl⟩
    · exact .inl hpublication
  case kept =>
    intro publication hpublication
    left
    by_cases hsame : publication.site.id = row.id
    · exact ⟨_, Table.mem_upsert.mpr (.inl rfl), hsame.symm⟩
    · exact ⟨publication, Table.mem_upsert.mpr (.inr ⟨hpublication, hsame⟩), rfl⟩
  case owned =>
    intro h publication hpublication
    rcases Table.mem_upsert.mp hpublication with rfl | ⟨hpublication, -⟩
    · exact hstamp row hrow
    · obtain ⟨site, hsite, hid⟩ := h publication hpublication
      obtain ⟨site', hsite', hid'⟩ := hstamp site hsite
      exact ⟨site', hsite', hid'.trans hid⟩
  case nodes => rfl
  case jobs => rfl

theorem deleteSite_effect (siteID : String) : SiteEffect draft db (db.deleteSite siteID) := by
  constructor
  case drafts =>
    rintro n id ⟨site, hsite, h⟩
    exact .inl ⟨site, (Table.mem_delete.mp hsite).1, h⟩
  case publications =>
    rintro n id ⟨publication, hpublication, h⟩
    exact .inl ⟨publication, (Table.mem_delete.mp hpublication).1, h⟩
  case copied => exact fun publication hpublication => .inl (Table.mem_delete.mp hpublication).1
  case kept =>
    intro publication hpublication
    by_cases hsame : publication.site.id = siteID
    · right
      have hsites := Table.find?_delete_key (T := db.sites) (p := fun site => site.id = siteID)
        (fun _ => rfl) publication.site.id
      exact hsites.trans (if_pos hsame)
    · exact .inl ⟨publication, Table.mem_delete.mpr ⟨hpublication, by simpa using hsame⟩, rfl⟩
  case owned =>
    intro h publication hpublication
    obtain ⟨hpublication, hother⟩ := Table.mem_delete.mp hpublication
    obtain ⟨site, hsite, hid⟩ := h publication hpublication
    refine ⟨site, Table.mem_delete.mpr ⟨hsite, ?_⟩, hid⟩
    rw [hid]
    exact hother
  case nodes => rfl
  case jobs => rfl

end

end Store

namespace Retirement

open Store SiteCalls

variable {draft : Option Site} {s : Calls}

theorem setTask_effect (db : Store) (taskID detail : String) (status : TaskStatus) (now : Time) :
    SiteEffect draft db (db.setTask taskID status detail now) :=
  .frame rfl rfl rfl rfl

theorem publishStep_effect (i : Nat) (call : PublishCall) (taskID : String) (now : Time) :
    SiteEffect draft s.store (s.publishStep i call taskID now).store := by
  unfold Calls.publishStep
  split
  · unfold Calls.createTask
    split
    · exact .refl
    · split
      · exact .refl
      · next hcreate =>
        obtain ⟨tasks, rows, ids, rfl, -⟩ := createOrGetActivePublishTask_frame hcreate
        exact .frame rfl rfl rfl rfl
      · next hcreate =>
        obtain ⟨tasks, rows, ids, rfl, -⟩ := createOrGetActivePublishTask_frame hcreate
        exact .frame rfl rfl rfl rfl
  · split
    · exact setTask_effect _ _ _ _ _
    · exact .refl
  · split
    · exact setTask_effect _ _ _ _ _
    · exact .refl
  · split
    · exact setTask_effect _ _ _ _ _
    · exact .refl
  · split
    · exact setTask_effect _ _ _ _ _
    · next hcommit =>
      -- settling the task afterwards does not touch the sites
      have heffect : SiteEffect draft s.store _ := commitSitePublication_effect hcommit
      obtain ⟨hdrafts, hpublications, howned, hcopied, hkept, hnodes, hjobs⟩ := heffect
      unfold finishPublish
      split
      · exact ⟨hdrafts, hpublications, howned, hcopied, hkept, hnodes, hjobs⟩
      · exact ⟨hdrafts, hpublications, howned, hcopied, hkept, hnodes, hjobs⟩

/-- What a call on sites does. -/
theorem siteCall_effect (s : Calls) (a : SiteCalls.Action) :
    SiteEffect (writtenDraft s (keepNodes s.store a)) s.store
      (SiteCalls.step s (keepNodes s.store a)).store := by
  cases a with
  | createSite id draft zoneID now =>
    simp only [keepNodes, SiteCalls.step, writtenDraft]
    cases hcreate : s.store.createSite id draft zoneID now with
    | error e => exact .refl
    | ok result => exact createSite_effect hcreate
  | updateRead id draft zoneID =>
    simp only [keepNodes, SiteCalls.step]
    split
    · exact .refl
    · exact .refl
  | updateCommit i now =>
    simp only [keepNodes, SiteCalls.step, writtenDraft]
    cases hcall : s.updates[i]? with
    | none => exact .refl
    | some call =>
      dsimp only [Option.bind_some]
      cases hcommit : s.store.updateSiteCommit
          (Store.updatedSite call.current call.draft now) with
      | error e => exact .refl
      | ok db => exact updateSiteCommit_effect hcommit
  | invalidateRead id =>
    simp only [keepNodes, SiteCalls.step]
    split
    · exact .refl
    · exact .refl
  | invalidateCommit i now =>
    simp only [keepNodes, SiteCalls.step]
    split
    · next id hcall =>
      cases hcommit : s.store.invalidateSiteCacheCommit id now with
      | error e => exact .refl
      | ok db =>
        obtain ⟨-, rfl⟩ := invalidateSiteCacheCommit_eq_ok hcommit
        exact .update fun _ => rfl
    · exact .refl
  | storeCertificate siteID certificate privateKey now =>
    simp only [keepNodes, SiteCalls.step]
    cases hstore : SimpleCdn.storeCertificate s.store siteID certificate privateKey now with
    | error e => exact .refl
    | ok db =>
      simp only [SimpleCdn.storeCertificate, bind_eq_ok] at hstore
      obtain ⟨-, -, hsave⟩ := hstore
      obtain ⟨-, rfl⟩ := saveCertificate_eq_ok hsave
      have heffect : SiteEffect none s.store { s.store with
          sites := s.store.sites.update (fun row => row.id = siteID && row.deleting = false)
            (fun row =>
              { row with
                configVersion := row.configVersion + 1, published := false, updatedAt := now }) } :=
        .update fun _ => rfl
      exact ⟨heffect.drafts, heffect.publications, heffect.owned, heffect.copied, heffect.kept, rfl,
        rfl⟩
  | publishRead siteID =>
    simp only [keepNodes, SiteCalls.step]
    split
    · exact .refl
    · exact .refl
  | publishStep i taskID now =>
    simp only [keepNodes, SiteCalls.step]
    split
    · exact publishStep_effect i _ taskID now
    · exact .refl
  | reconcilePublishTasks now =>
    obtain ⟨tasks, rows, hframe⟩ := s.store.reconcilePublishTasks_frame now
    simp only [keepNodes, SiteCalls.step, hframe]
    exact .frame rfl rfl rfl rfl
  | beginSiteDeletion siteID taskID actor remoteAddr deadline now =>
    simp only [keepNodes, SiteCalls.step]
    cases hbegin : s.store.beginSiteDeletion siteID taskID actor remoteAddr deadline now with
    | error e => exact .refl
    | ok result =>
      obtain ⟨-, hbegun⟩ := beginSiteDeletion_eq_ok hbegin
      rcases hbegun with ⟨-, -, hdb⟩ | ⟨-, -, -, -, tasks, -, -, hdb⟩
      · simp only [Except.map, Calls.commit, hdb]
        exact .refl
      · simp only [Except.map, Calls.commit, hdb]
        have heffect : SiteEffect none s.store { s.store with
            sites := s.store.sites.update (fun row => row.id = siteID)
              (fun row => { row with enabled := false, deleting := true, updatedAt := now }) } :=
          .update fun _ => rfl
        exact ⟨heffect.drafts, heffect.publications, heffect.owned, heffect.copied, heffect.kept, rfl,
        rfl⟩
  | completeSiteDeletion taskID now =>
    simp only [keepNodes, SiteCalls.step]
    cases hcomplete : s.store.completeSiteDeletion taskID now with
    | error e => exact .refl
    | ok db =>
      obtain ⟨job, site, detail, -, -, rfl⟩ := completeSiteDeletion_eq_ok hcomplete
      have heffect : SiteEffect none s.store (s.store.deleteSite job.siteID) :=
        deleteSite_effect job.siteID
      obtain ⟨hdrafts, hpublications, howned, hcopied, hkept, hnodes, hjobs⟩ := heffect
      exact ⟨hdrafts, hpublications, howned, hcopied, hkept, hnodes, hjobs⟩
  | otherTables tables => exact .frame rfl rfl rfl rfl

end Retirement

end SimpleCdn
