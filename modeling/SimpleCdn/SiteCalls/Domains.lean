import SimpleCdn.SiteCalls.Snapshots

/-!
# Ownership of domains

The rows of `site_domains` of a site are the domains of its draft and of its publication.  Every
transaction rewrites the part it changes: an edit keeps the published domains claimed, a
publication releases what the draft has dropped, a deletion releases everything.  A domain is the
key of its row, so it has one owner.
-/

namespace SimpleCdn

namespace Store

/-- The site that owns a domain. -/
def domainOwner (db : Store) (domainName : String) : Option String :=
  (db.siteDomains.find? domainName).map SiteDomain.siteID

/-- The domains of a site's draft. -/
def draftDomains (db : Store) (siteID : String) : List String :=
  ((db.sites.find? siteID).map Site.domains).getD []

/-- The draft or the publication of the site has the domain. -/
def HasDomain (db : Store) (siteID domainName : String) : Prop :=
  domainName ∈ db.draftDomains siteID ∨ domainName ∈ db.publishedSiteDomains siteID

structure DomainsOwned (db : Store) : Prop where
  owner : ∀ domainName siteID,
    db.domainOwner domainName = some siteID ↔ db.HasDomain siteID domainName
  /-- The foreign key of `site_publications`. -/
  published : ∀ siteID, db.sites.find? siteID = none → db.sitePublications.find? siteID = none

/-! ### Claims -/

section Claims

variable {db db' : Store} {siteID : String}

theorem domainOwner_insert {claims : Table SiteDomain} {domainName : String}
    (h : db.siteDomains.insert? ⟨domainName, siteID⟩ = some claims) (other : String) :
    Store.domainOwner { db with siteDomains := claims } other =
      if domainName = other then some siteID else db.domainOwner other := by
  simp only [domainOwner, Table.find?_of_insert? h, key_siteDomain]
  split <;> rfl

/-- Claims succeed for free domains of an existing site only. -/
theorem claimDomains_owner {domains claimed : List String}
    (h : claimDomains siteID domains claimed db = .ok db') :
    (∀ domainName ∈ domains, domainName ∉ claimed →
      db.domainOwner domainName = none ∧ ∃ site, db.sites.find? siteID = some site) ∧
    ∀ domainName, db'.domainOwner domainName =
      if domainName ∈ domains ∧ domainName ∉ claimed then some siteID
      else db.domainOwner domainName := by
  induction domains generalizing claimed db with
  | nil =>
    obtain rfl : db = db' := by simpa [claimDomains] using h
    simp
  | cons first rest ih =>
    unfold claimDomains at h
    by_cases hfirst : first ∈ claimed
    · rw [if_pos hfirst] at h
      obtain ⟨hfree, howner⟩ := ih h
      refine ⟨fun domainName hmem hnew => ?_, fun domainName => ?_⟩
      · rcases List.mem_cons.mp hmem with rfl | hmem
        · exact absurd hfirst hnew
        · exact hfree domainName hmem hnew
      · rw [howner]
        refine if_congr ?_ rfl rfl
        rw [List.mem_cons]
        constructor
        · exact fun hmem => ⟨.inr hmem.1, hmem.2⟩
        · rintro ⟨rfl | hmem, hnew⟩
          · exact absurd hfirst hnew
          · exact ⟨hmem, hnew⟩
    · rw [if_neg hfirst] at h
      simp only [bind_eq_ok, orError_eq_ok] at h
      obtain ⟨site, hsite, claims, hinsert, hrest⟩ := h
      obtain ⟨hfree, howner⟩ := ih hrest
      have hfirstFree : db.domainOwner first = none := by
        have hnone := (Table.insert?_eq_some_iff.mp hinsert).1
        rw [domainOwner, show db.siteDomains.find? first = none from hnone]
        rfl
      refine ⟨fun domainName hmem hnew => ?_, fun domainName => ?_⟩
      · rcases List.mem_cons.mp hmem with rfl | hmem
        · exact ⟨hfirstFree, site, hsite⟩
        · by_cases heq : domainName = first
          · exact heq ▸ ⟨hfirstFree, site, hsite⟩
          · obtain ⟨hnone, -⟩ := hfree domainName hmem (by simp [heq, hnew])
            rw [domainOwner_insert hinsert, if_neg (Ne.symm heq)] at hnone
            exact ⟨hnone, site, hsite⟩
      · rw [howner, domainOwner_insert hinsert]
        by_cases heq : domainName = first
        · simp [heq, hfirst]
        · simp [heq, Ne.symm heq]

/-- Replacing the claims of a site gives it the listed domains and nothing else. -/
theorem replaceSiteDomainClaims_owner {domains : List String}
    (h : db.replaceSiteDomainClaims siteID domains = .ok db') :
    (∀ domainName ∈ domains,
      (db.domainOwner domainName = none ∨ db.domainOwner domainName = some siteID) ∧
        ∃ site, db.sites.find? siteID = some site) ∧
    ∀ domainName, db'.domainOwner domainName =
      if domainName ∈ domains then some siteID
      else (db.domainOwner domainName).filter fun owner => owner ≠ siteID := by
  have hreleased : ∀ domainName,
      Store.domainOwner
        { db with siteDomains := db.siteDomains.delete fun claim => claim.siteID = siteID }
        domainName = (db.domainOwner domainName).filter fun owner => owner ≠ siteID := by
    intro domainName
    simp only [domainOwner, Table.find?_delete]
    cases db.siteDomains.find? domainName with
    | none => rfl
    | some claim => by_cases hclaim : claim.siteID = siteID <;> simp [Option.filter, hclaim]
  obtain ⟨hfree, howner⟩ := claimDomains_owner h
  refine ⟨fun domainName hmem => ?_, fun domainName => ?_⟩
  · obtain ⟨hnone, hsite⟩ := hfree domainName hmem (by simp)
    rw [hreleased] at hnone
    refine ⟨?_, hsite⟩
    cases hcurrent : db.domainOwner domainName with
    | none => exact .inl rfl
    | some owner =>
      refine .inr (congrArg some ?_)
      simpa [hcurrent, Option.filter] using hnone
  · rw [howner, hreleased]
    simp

end Claims

/-! ### What the transactions keep -/

section Kept

variable {db db' : Store} {siteID : String} {now : Time}

/-- Neither a draft's domains, nor a publication, nor a claim has changed. -/
theorem DomainsOwned.of_eq (h : db.DomainsOwned) (hclaims : db'.siteDomains = db.siteDomains)
    (hpublications : db'.sitePublications = db.sitePublications)
    (hdrafts : ∀ id, (db'.sites.find? id).map Site.domains = (db.sites.find? id).map Site.domains) :
    db'.DomainsOwned := by
  have hdraft : ∀ id, db'.draftDomains id = db.draftDomains id := by
    intro id
    rw [draftDomains, hdrafts id]
    rfl
  constructor
  · intro domainName id
    have howner := h.owner domainName id
    simp only [domainOwner, HasDomain, publishedSiteDomains] at howner ⊢
    rw [hclaims, hpublications, hdraft]
    exact howner
  · intro id hnone
    rw [hpublications]
    refine h.published id ?_
    have hid := hdrafts id
    rw [hnone] at hid
    simpa using hid.symm

/-- A domain has the owner its claims give it. -/
theorem DomainsOwned.owner_eq (h : db.DomainsOwned) {domainName id : String}
    (hhas : db.HasDomain id domainName) : db.domainOwner domainName = some id :=
  (h.owner domainName id).mpr hhas

/-- One site gets new claims, which are what it has then; the other sites keep what they have. -/
theorem DomainsOwned.of_site (h : db.DomainsOwned) {domains : List String}
    (hfree : ∀ domainName ∈ domains,
      db.domainOwner domainName = none ∨ db.domainOwner domainName = some siteID)
    (howner : ∀ domainName, db'.domainOwner domainName =
      if domainName ∈ domains then some siteID
      else (db.domainOwner domainName).filter fun owner => owner ≠ siteID)
    (hsite : ∀ domainName, db'.HasDomain siteID domainName ↔ domainName ∈ domains)
    (hothers : ∀ id, id ≠ siteID → ∀ domainName,
      db'.HasDomain id domainName ↔ db.HasDomain id domainName)
    (hpublished : ∀ id, db'.sites.find? id = none → db'.sitePublications.find? id = none) :
    db'.DomainsOwned := by
  refine ⟨fun domainName id => ?_, hpublished⟩
  rw [howner]
  by_cases hid : id = siteID
  · subst hid
    rw [hsite]
    split
    case isTrue hmem => simp [hmem]
    case isFalse hmem => simp [Option.filter_eq_some_iff, hmem]
  · rw [hothers id hid, ← h.owner]
    split
    case isTrue hmem =>
      constructor
      · intro heq
        exact absurd (Option.some.inj heq).symm hid
      · intro heq
        rcases hfree domainName hmem with hnone | hown
        · rw [hnone] at heq
          cases heq
        · exact absurd (Option.some.inj (heq.symm.trans hown)) hid
    case isFalse => simp [Option.filter_eq_some_iff, hid]

theorem createSite_domains {draft : SiteDraft} {zoneID : String} {site : Site}
    (h : db.DomainsOwned) (hcreate : db.createSite siteID draft zoneID now = .ok (site, db')) :
    db'.DomainsOwned := by
  simp only [createSite, bind_eq_ok, require_eq_ok, orError_eq_ok, pure_eq_ok, exists_const,
    Prod.mk.injEq] at hcreate
  obtain ⟨-, db₁, hnew, ⟨⟩, -, -, sites, hinsert, db₂, hclaims, rfl, rfl⟩ := hcreate
  obtain ⟨-, rfl⟩ := newID_eq_ok.mp hnew
  obtain ⟨hfree, howner⟩ := claimDomains_owner hclaims
  obtain ⟨claims, rfl⟩ := claimDomains_eq_ok hclaims
  have hnone : db.sites.find? siteID = none := (Table.insert?_eq_some_iff.mp hinsert).1
  have hpublication := h.published siteID hnone
  have hsites : ∀ id, sites.find? id = if siteID = id then some _ else db.sites.find? id :=
    fun id => Table.find?_of_insert? hinsert id
  have hfreeNow : ∀ domainName ∈ draft.domains,
      db.domainOwner domainName = none ∨ db.domainOwner domainName = some siteID :=
    fun domainName hmem => .inl (hfree domainName hmem (by simp)).1
  refine h.of_site hfreeNow ?_ ?_ ?_ ?_
  · intro domainName
    have hnew : db.domainOwner domainName ≠ some siteID := by
      rw [Ne, h.owner, HasDomain, draftDomains, publishedSiteDomains, hnone, hpublication]
      simp
    have hfilter : (db.domainOwner domainName).filter (fun owner => owner ≠ siteID) =
        db.domainOwner domainName := by
      cases hcurrent : db.domainOwner domainName with
      | none => rfl
      | some owner =>
        have hne : owner ≠ siteID := fun heq => hnew (heq ▸ hcurrent)
        simp [Option.filter, hne]
    rw [hfilter, howner domainName]
    simp only [List.not_mem_nil, not_false_eq_true, and_true]
    rfl
  · intro domainName
    simp [HasDomain, draftDomains, publishedSiteDomains, hsites, hpublication, SiteDraft.site]
  · intro id hid domainName
    simp [HasDomain, draftDomains, publishedSiteDomains, hsites, if_neg (Ne.symm hid)]
  · intro id hgone
    rw [hsites] at hgone
    split at hgone
    · cases hgone
    · exact h.published id hgone

theorem updateSiteCommit_domains {site : Site} (h : db.DomainsOwned)
    (hupdate : db.updateSiteCommit site = .ok db') : db'.DomainsOwned := by
  simp only [updateSiteCommit, bind_eq_ok, require_eq_ok, pure_eq_ok, exists_const] at hupdate
  obtain ⟨⟨⟩, -, db₁, hclaims, -, rfl⟩ := hupdate
  obtain ⟨hfree, howner⟩ := replaceSiteDomainClaims_owner hclaims
  obtain ⟨claims, rfl⟩ := replaceSiteDomainClaims_eq_ok hclaims
  have hfreeNow : ∀ domainName ∈ site.domains ++ db.publishedSiteDomains site.id,
      db.domainOwner domainName = none ∨ db.domainOwner domainName = some site.id :=
    fun domainName hmem => (hfree domainName hmem).1
  refine h.of_site hfreeNow howner ?_ ?_ ?_
  · intro domainName
    rw [HasDomain, List.mem_append]
    refine or_congr ?_ Iff.rfl
    rw [draftDomains, find?_updateSite, if_pos rfl]
    cases hfind : db.sites.find? site.id with
    | some row => rfl
    | none =>
      -- a site that is gone cannot claim anything
      simp only [Option.map_none, Option.getD_none, List.not_mem_nil, false_iff]
      intro hmem
      obtain ⟨-, row, hrow⟩ := hfree domainName (List.mem_append.mpr (.inl hmem))
      rw [hfind] at hrow
      cases hrow
  · intro id hid domainName
    simp only [HasDomain, draftDomains, find?_updateSite, if_neg hid, publishedSiteDomains]
  · intro id hgone
    refine h.published id ?_
    rw [find?_updateSite] at hgone
    split at hgone
    · simpa using hgone
    · exact hgone

/-- An update of rows that sets no domains. -/
theorem map_domains_update {T : Table Site} {p : Site → Bool} {f : Site → Site}
    (hkey : ∀ row, key (f row) = key row) (hdomains : ∀ row, (f row).domains = row.domains)
    (id : String) :
    ((T.update p f hkey).find? id).map Site.domains = (T.find? id).map Site.domains := by
  rw [Table.find?_update, Option.map_map]
  refine Option.map_congr fun row _ => ?_
  simp only [Function.comp]
  split
  · exact hdomains row
  · rfl

theorem commitSitePublication_domains {taskID : String} {expectedConfigVersion : Nat}
    {updates : List NodeStateUpdate} {targets : List PublishTaskNode} {site : Site}
    (h : db.DomainsOwned)
    (hcommit : db.commitSitePublication siteID expectedConfigVersion taskID updates targets now =
      .ok (site, db')) : db'.DomainsOwned := by
  simp only [commitSitePublication, bind_eq_ok, getSite_eq_ok, require_eq_ok, pure_eq_ok,
    exists_const, Prod.mk.injEq] at hcommit
  obtain ⟨row, hfind, -, -, ⟨⟩, -, db₁, htargets, db₂, hstates, db₃, hclaims, -, hdb'⟩ := hcommit
  obtain ⟨targetRows, rfl, -⟩ := createPublishTaskNodes_eq_ok htargets
  obtain ⟨states, rfl⟩ := saveNodeStates_eq_ok hstates
  obtain ⟨hfree, howner⟩ := replaceSiteDomainClaims_owner hclaims
  obtain ⟨claims, rfl⟩ := replaceSiteDomainClaims_eq_ok hclaims
  obtain rfl : row.id = siteID := Table.key_of_find? hfind
  have hpublication : ∀ id, db'.sitePublications.find? id =
      if row.id = id then some (db.snapshot row now) else db.sitePublications.find? id := by
    intro id
    rw [← hdb']
    exact Table.find?_upsert id
  have hdraft : ∀ id, (db'.sites.find? id).map Site.domains =
      (db.sites.find? id).map Site.domains := by
    intro id
    rw [← hdb']
    exact map_domains_update (f := fun row => { row with published := true, updatedAt := now })
      (fun _ => rfl) (fun _ => rfl) id
  have hnow : ∀ domainName, db'.domainOwner domainName =
      if domainName ∈ row.domains then some row.id
      else (db.domainOwner domainName).filter fun owner => owner ≠ row.id := by
    intro domainName
    rw [← hdb']
    exact howner domainName
  clear hdb'
  have hfreeNow : ∀ domainName ∈ row.domains,
      db.domainOwner domainName = none ∨ db.domainOwner domainName = some row.id :=
    fun domainName hmem => (hfree domainName hmem).1
  refine h.of_site hfreeNow hnow ?_ ?_ ?_
  · intro domainName
    simp only [HasDomain, draftDomains, hdraft, publishedSiteDomains, hpublication, if_true,
      hfind, Option.map_some, Option.getD_some]
    exact or_self_iff
  · intro id hother domainName
    simp only [HasDomain, draftDomains, hdraft, publishedSiteDomains, hpublication,
      if_neg (Ne.symm hother)]
  · intro id hgone
    have hid := hdraft id
    rw [hgone] at hid
    have hnone : db.sites.find? id = none := by simpa using hid.symm
    have hne : row.id ≠ id := by
      rintro rfl
      rw [hfind] at hnone
      cases hnone
    rw [hpublication, if_neg hne]
    exact h.published id hnone

theorem deleteSite_domains (h : db.DomainsOwned) (siteID : String) :
    (db.deleteSite siteID).DomainsOwned := by
  have hsites : ∀ id, (db.deleteSite siteID).sites.find? id =
      if id = siteID then none else db.sites.find? id :=
    fun id => Table.find?_delete_key (fun _ => rfl) id
  have hpublications : ∀ id, (db.deleteSite siteID).sitePublications.find? id =
      if id = siteID then none else db.sitePublications.find? id :=
    fun id => Table.find?_delete_key (fun _ => rfl) id
  have hfreeNow : ∀ domainName ∈ ([] : List String),
      db.domainOwner domainName = none ∨ db.domainOwner domainName = some siteID := by simp
  refine h.of_site hfreeNow ?_ ?_ ?_ ?_
  · intro domainName
    simp only [domainOwner, deleteSite, Table.find?_delete, List.not_mem_nil, if_false]
    cases db.siteDomains.find? domainName with
    | none => rfl
    | some claim => by_cases hclaim : claim.siteID = siteID <;> simp [Option.filter, hclaim]
  · intro domainName
    simp [HasDomain, draftDomains, publishedSiteDomains, hsites, hpublications]
  · intro id hid domainName
    simp only [HasDomain, draftDomains, publishedSiteDomains, hsites, hpublications, if_neg hid]
  · intro id hgone
    rw [hsites] at hgone
    rw [hpublications]
    split
    · rfl
    · next hid => exact h.published id (by rwa [if_neg hid] at hgone)

theorem reconcilePublishTasks_domains (h : db.DomainsOwned) (now : Time) :
    (db.reconcilePublishTasks now).DomainsOwned := by
  obtain ⟨tasks, rows, hframe⟩ := db.reconcilePublishTasks_frame now
  rw [hframe]
  exact h.of_eq rfl rfl fun _ => rfl

end Kept

end Store

namespace SiteCalls

open Store Transition

variable {s : Calls}

theorem createTask_domains (h : s.store.DomainsOwned) (i : Nat) (call : PublishCall)
    (taskID : String) (now : Time) : (s.createTask i call taskID now).store.DomainsOwned := by
  unfold Calls.createTask
  split
  · exact h
  · split
    · exact h
    · next hget =>
      obtain ⟨tasks, rows, ids, rfl, -⟩ := createOrGetActivePublishTask_frame hget
      exact h.of_eq rfl rfl fun _ => rfl
    · next hget =>
      obtain ⟨tasks, rows, ids, rfl, -⟩ := createOrGetActivePublishTask_frame hget
      exact h.of_eq rfl rfl fun _ => rfl

theorem setTask_domains {db : Store} (h : db.DomainsOwned) (taskID detail : String)
    (status : TaskStatus) (now : Time) : (db.setTask taskID status detail now).DomainsOwned :=
  h.of_eq rfl rfl fun _ => rfl

theorem finishPublish_domains {db : Store} (h : db.DomainsOwned) (taskID : String)
    (targets : List PublishTaskNode) (now : Time) :
    (finishPublish db taskID targets now).DomainsOwned := by
  unfold finishPublish
  split
  case isTrue => exact setTask_domains h _ _ _ _
  case isFalse => exact h

theorem publishStep_domains (h : s.store.DomainsOwned) (i : Nat) (call : PublishCall)
    (taskID : String) (now : Time) : (s.publishStep i call taskID now).store.DomainsOwned := by
  unfold Calls.publishStep
  split
  · exact createTask_domains h i call taskID now
  · split
    case h_1 => exact setTask_domains h _ _ _ _
    case h_2 => exact h
  · split
    case h_1 => exact setTask_domains h _ _ _ _
    case h_2 => exact h
  · split
    case h_1 => exact setTask_domains h _ _ _ _
    case h_2 => exact h
  · split
    · exact setTask_domains h _ _ _ _
    · next hcommit => exact finishPublish_domains (commitSitePublication_domains h hcommit) _ _ _

theorem commit_domains {result : Except StoreError Store} (h : s.store.DomainsOwned)
    (hresult : ∀ db, result = .ok db → db.DomainsOwned) : (s.commit result).store.DomainsOwned := by
  cases hok : result with
  | ok db => exact hresult db hok
  | error error => exact h

theorem step_domains (h : s.store.DomainsOwned) (a : Action) : (step s a).store.DomainsOwned := by
  cases a with
  | createSite id draft zoneID now =>
    refine commit_domains h fun db hdb => ?_
    cases hcreate : s.store.createSite id draft zoneID now with
    | error error => simp [hcreate, Except.map] at hdb
    | ok result =>
      obtain ⟨site, db'⟩ := result
      obtain rfl : db' = db := by simpa [hcreate, Except.map] using hdb
      exact createSite_domains h hcreate
  | updateRead id draft zoneID =>
    rw [step]
    split <;> exact h
  | updateCommit i now =>
    rw [step]
    split
    · exact commit_domains h fun db hdb => updateSiteCommit_domains h hdb
    · exact h
  | invalidateRead id =>
    rw [step]
    split <;> exact h
  | invalidateCommit i now =>
    rw [step]
    split
    · refine commit_domains h fun db hdb => ?_
      obtain ⟨-, rfl⟩ := invalidateSiteCacheCommit_eq_ok hdb
      exact h.of_eq rfl rfl (map_domains_update (by intro; rfl) (by intro; rfl))
    · exact h
  | storeCertificate siteID certificate privateKey now =>
    refine commit_domains h fun db hdb => ?_
    simp only [SimpleCdn.storeCertificate, bind_eq_ok] at hdb
    obtain ⟨-, -, hdb⟩ := hdb
    obtain ⟨-, rfl⟩ := saveCertificate_eq_ok hdb
    exact h.of_eq rfl rfl (map_domains_update (by intro; rfl) (by intro; rfl))
  | publishRead siteID =>
    rw [step]
    split <;> exact h
  | publishStep i taskID now =>
    rw [step]
    split
    · exact publishStep_domains h i _ taskID now
    · exact h
  | reconcilePublishTasks now => exact reconcilePublishTasks_domains h now
  | beginSiteDeletion siteID taskID actor remoteAddr deadline now =>
    refine commit_domains h fun db hdb => ?_
    cases hbegin : s.store.beginSiteDeletion siteID taskID actor remoteAddr deadline now with
    | error error => simp [hbegin, Except.map] at hdb
    | ok result =>
      obtain ⟨task, created, db'⟩ := result
      obtain rfl : db' = db := by simpa [hbegin, Except.map] using hdb
      obtain ⟨-, ⟨-, -, rfl⟩ | ⟨-, -, -, -, tasks, -, -, rfl⟩⟩ := beginSiteDeletion_eq_ok hbegin
      · exact h
      · exact h.of_eq rfl rfl (map_domains_update (by intro; rfl) (by intro; rfl))
  | completeSiteDeletion taskID now =>
    refine commit_domains h fun db hdb => ?_
    obtain ⟨job, site, detail, -, -, rfl⟩ := completeSiteDeletion_eq_ok hdb
    exact setTask_domains (deleteSite_domains h job.siteID) _ _ _ _
  | otherTables tables => exact h.of_eq rfl rfl fun _ => rfl

/-- A transaction that would give a site a domain of another one is refused. -/
def ClaimsRefused (db : Store) : Prop :=
  ∀ owner domainName, db.HasDomain owner domainName →
    (∀ id draft zoneID now, domainName ∈ SiteDraft.domains draft →
      ∀ result, db.createSite id draft zoneID now ≠ .ok result) ∧
    ∀ site : Site, site.id ≠ owner → domainName ∈ site.domains →
      ∀ db', db.updateSiteCommit site ≠ .ok db'

theorem claimsRefused {db : Store} (h : db.DomainsOwned) : ClaimsRefused db := by
  intro owner domainName hhas
  have howner := h.owner_eq hhas
  constructor
  · rintro id draft zoneID now hmem ⟨site, db'⟩ hcreate
    simp only [createSite, bind_eq_ok, require_eq_ok, orError_eq_ok, pure_eq_ok, exists_const,
      Prod.mk.injEq] at hcreate
    obtain ⟨-, db₁, hnew, ⟨⟩, -, -, sites, -, db₂, hclaims, -, -⟩ := hcreate
    obtain ⟨-, rfl⟩ := newID_eq_ok.mp hnew
    have hnone : db.domainOwner domainName = none :=
      ((claimDomains_owner hclaims).1 domainName hmem (by simp)).1
    rw [howner] at hnone
    cases hnone
  · intro site hother hmem db' hupdate
    simp only [updateSiteCommit, bind_eq_ok, require_eq_ok, pure_eq_ok, exists_const] at hupdate
    obtain ⟨⟨⟩, -, db₁, hclaims, -, -⟩ := hupdate
    obtain ⟨hfree, -⟩ := replaceSiteDomainClaims_owner hclaims
    rcases (hfree domainName (List.mem_append.mpr (.inl hmem))).1 with hnone | hsame
    · rw [howner] at hnone
      cases hnone
    · exact hother (Option.some.inj (hsame.symm.trans howner))

/-- In every reachable state, with edits, cache invalidations and publications in flight, the
claims of a site are the domains of its draft and of its publication, no transaction of another
site can claim one of them, and a domain no site has is free. -/
theorem domains_owned {s : Calls} (h : Reachable step (fun s => s = initial) s) :
    s.store.DomainsOwned ∧ ClaimsRefused s.store ∧
      ∀ domainName, (∀ siteID, ¬ s.store.HasDomain siteID domainName) →
        s.store.siteDomains.find? domainName = none := by
  have howned : s.store.DomainsOwned := by
    refine Reachable.invariant (P := fun s => s.store.DomainsOwned) ?_ ?_ h
    · rintro _ rfl
      refine ⟨fun domainName siteID => ?_, fun _ _ => rfl⟩
      simp [domainOwner, HasDomain, draftDomains, publishedSiteDomains, initial, Store.empty]
    · exact fun s a hs => step_domains hs a
  refine ⟨howned, claimsRefused howned, fun domainName hnone => ?_⟩
  cases hclaim : s.store.siteDomains.find? domainName with
  | none => rfl
  | some claim =>
    refine absurd ((howned.owner domainName claim.siteID).mp ?_) (hnone claim.siteID)
    rw [domainOwner, hclaim]
    rfl

/-- A site is published, then its draft gets another domain. -/
def renamedSite : List Action :=
  [.otherTables edgeTables, .createSite "tcp" (forwardDraft 1) "zone" 1, .publishRead "tcp",
    .publishStep 0 "task" 2, .publishStep 0 "" 3, .publishStep 0 "" 4, .publishStep 0 "" 5,
    .publishStep 0 "" 6, .updateRead "tcp" { forwardDraft 1 with domains := ["b.example"] } "zone",
    .updateCommit 0 7]

/-- The old domain stays claimed while the publication has it. -/
theorem renamedSite_owned :
    (run step initial renamedSite).store.DomainsOwned ∧
      (run step initial renamedSite).store.domainOwner "a.example" = some "tcp" ∧
      (run step initial renamedSite).store.draftDomains "tcp" = ["b.example"] :=
  ⟨(domains_owned ⟨initial, renamedSite, rfl, rfl⟩).1, by decide +kernel, by decide +kernel⟩

end SiteCalls

end SimpleCdn
