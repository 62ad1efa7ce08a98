import SimpleCdn.SiteCalls.System

/-!
# What an action does to one site

`SiteChange` lists the ways an action can change the row and the certificate of a site, with
everything the writer had checked, and `step_change` says that there are no others.  The
invariants of the following modules are case analyses on it.
-/

namespace SimpleCdn

/-- What the database says about one site. -/
structure SiteView where
  row : Option Site
  certificate : Option CertificateRow

def Store.siteView (db : Store) (id : String) : SiteView :=
  ⟨db.sites.find? id, db.certificates.find? id⟩

namespace SiteCalls

/-- The row after the transaction of an `UpdateSite` call. -/
def updatedRow (call : UpdateCall) (row : Site) (now : Time) : Site :=
  { Store.updatedSite call.current call.draft now with id := row.id, createdAt := row.createdAt }

/-- The transaction of the update call `i` succeeds in `s`. -/
def UpdateCommits (s : Calls) (i : Nat) (now : Time) (call : UpdateCall) : Prop :=
  s.updates[i]? = some call ∧
    ∃ db, s.store.updateSiteCommit (Store.updatedSite call.current call.draft now) = .ok db

/-- The effects an action can have on the site `id`. -/
inductive SiteChange (s : Calls) (id : String) : Action → SiteView → SiteView → Prop
  | unchanged (a : Action) (view : SiteView) : SiteChange s id a view view
  | created {draft : SiteDraft} {zoneID : String} {now : Time} {site : Site}
      {certificate : Option CertificateRow} (hfresh : id ∉ s.store.issuedIDs)
      (hissued : id ∈ (step s (.createSite id draft zoneID now)).store.issuedIDs)
      (hgeneration : site.cacheGeneration = 1) (hversion : site.configVersion = 1) :
      SiteChange s id (.createSite id draft zoneID now) ⟨none, certificate⟩
        ⟨some site, certificate⟩
  | updated {i : Nat} {now : Time} {call : UpdateCall} {row : Site}
      {certificate : Option CertificateRow} (hcommit : UpdateCommits s i now call)
      (hid : call.current.id = id) :
      SiteChange s id (.updateCommit i now) ⟨some row, certificate⟩
        ⟨some (updatedRow call row now), certificate⟩
  | invalidated {i : Nat} {now : Time} {row : Site} {certificate : Option CertificateRow}
      (hcall : s.invalidations[i]? = some id) :
      SiteChange s id (.invalidateCommit i now) ⟨some row, certificate⟩
        ⟨some { row with
          cacheGeneration := row.cacheGeneration + 1, configVersion := row.configVersion + 1,
          published := false, updatedAt := now }, certificate⟩
  | certified {certificate : Certificate} {privateKey : PrivateKey} {now : Time} {row : Site}
      {old new : Option CertificateRow} (hdeleting : row.deleting = false) :
      SiteChange s id (.storeCertificate id certificate privateKey now) ⟨some row, old⟩
        ⟨some { row with
          configVersion := row.configVersion + 1, published := false, updatedAt := now }, new⟩
  | published {i : Nat} {taskID : String} {now : Time} {row : Site}
      {certificate : Option CertificateRow} (hdeleting : row.deleting = false) :
      SiteChange s id (.publishStep i taskID now) ⟨some row, certificate⟩
        ⟨some { row with published := true, updatedAt := now }, certificate⟩
  | deletionBegun {taskID actor remoteAddr : String} {deadline now : Time} {row : Site}
      {certificate : Option CertificateRow} :
      SiteChange s id (.beginSiteDeletion id taskID actor remoteAddr deadline now)
        ⟨some row, certificate⟩
        ⟨some { row with enabled := false, deleting := true, updatedAt := now }, certificate⟩
  | removed {taskID : String} {now : Time} {row : Site} {certificate : Option CertificateRow} :
      SiteChange s id (.completeSiteDeletion taskID now) ⟨some row, certificate⟩ ⟨none, none⟩

variable {s : Calls} {id : String} {a : Action}

/-- No action but the listed ones touches a row or a certificate. -/
theorem SiteChange.of_view_eq {view view' : SiteView} (h : view' = view) :
    SiteChange s id a view view' := by
  subst h
  exact .unchanged a view'

@[simp] theorem setStage_store (i : Nat) (call : PublishCall) (stage : PublishStage) :
    (s.setStage i call stage).store = s.store := rfl

@[simp] theorem endPublish_store (i : Nat) (db : Store) : (s.endPublish i db).store = db := rfl

@[simp] theorem siteView_setTask (db : Store) (taskID detail : String) (status : TaskStatus)
    (now : Time) : (db.setTask taskID status detail now).siteView id = db.siteView id := rfl

@[simp] theorem siteView_finishPublish (db : Store) (taskID : String)
    (targets : List PublishTaskNode) (now : Time) :
    (finishPublish db taskID targets now).siteView id = db.siteView id := by
  unfold finishPublish
  split <;> rfl

theorem siteView_reconcilePublishTasks (db : Store) (now : Time) :
    (db.reconcilePublishTasks now).siteView id = db.siteView id := by
  obtain ⟨tasks, rows, h⟩ := db.reconcilePublishTasks_frame now
  rw [h]
  rfl

theorem siteView_createTask (i : Nat) (call : PublishCall) (taskID : String) (now : Time) :
    (s.createTask i call taskID now).store.siteView id = s.store.siteView id := by
  unfold Calls.createTask
  split
  · rfl
  · split
    · rfl
    · next h =>
      obtain ⟨tasks, rows, ids, rfl, -⟩ := Store.createOrGetActivePublishTask_frame h
      rfl
    · next h =>
      obtain ⟨tasks, rows, ids, rfl, -⟩ := Store.createOrGetActivePublishTask_frame h
      rfl

/-- A commit marks its own row as published and leaves every other row and certificate alone. -/
theorem siteView_commitSitePublication {db db' : Store} {siteID taskID : String}
    {expected i : Nat} {updates : List NodeStateUpdate} {targets : List PublishTaskNode}
    {site : Site} {now : Time} {newTaskID : String}
    (h : db.commitSitePublication siteID expected taskID updates targets now = .ok (site, db')) :
    SiteChange s id (.publishStep i newTaskID now) (db.siteView id) (db'.siteView id) := by
  obtain ⟨row, hfind, hdeleting, -, -, targetRows, states, claims, -, -, rfl⟩ :=
    Store.commitSitePublication_eq_ok h
  by_cases hid : id = siteID
  · subst hid
    simp only [Store.siteView, Store.find?_updateLiveSite, if_true, hfind, Option.map_some]
    rw [if_pos hdeleting]
    exact .published hdeleting
  · refine .of_view_eq ?_
    simp only [Store.siteView, Store.find?_updateLiveSite, if_neg hid]

theorem publishStep_change (i : Nat) (call : PublishCall) (taskID : String) (now : Time) :
    SiteChange s id (.publishStep i taskID now) (s.store.siteView id)
      ((s.publishStep i call taskID now).store.siteView id) := by
  unfold Calls.publishStep
  split
  · exact .of_view_eq (siteView_createTask i call taskID now)
  · split <;> exact .of_view_eq (by simp)
  · split <;> exact .of_view_eq (by simp)
  · split <;> exact .of_view_eq (by simp)
  · split
    · exact .of_view_eq (by simp)
    · next h => simpa using siteView_commitSitePublication h

theorem updateCommit_change {i : Nat} {now : Time} {call : UpdateCall} {db : Store}
    (hcall : s.updates[i]? = some call)
    (h : s.store.updateSiteCommit (Store.updatedSite call.current call.draft now) = .ok db) :
    SiteChange s id (.updateCommit i now) (s.store.siteView id) (db.siteView id) := by
  have hcommit : UpdateCommits s i now call := ⟨hcall, db, h⟩
  obtain ⟨-, claims, rfl⟩ := Store.updateSiteCommit_eq_ok h
  have hid : (Store.updatedSite call.current call.draft now).id = call.current.id := rfl
  by_cases hk : id = call.current.id
  · cases hfind : s.store.sites.find? id with
    | none =>
      refine .of_view_eq ?_
      simp [Store.siteView, hfind]
    | some row =>
      simp only [Store.siteView, Store.find?_updateSite, hid, if_pos hk, hfind, Option.map_some]
      exact .updated hcommit hk.symm
  · refine .of_view_eq ?_
    simp only [Store.siteView, Store.find?_updateSite, hid, if_neg hk]

theorem deleteSite_view (db : Store) (siteID : String) :
    (db.deleteSite siteID).siteView id =
      if id = siteID then ⟨none, none⟩ else db.siteView id := by
  simp only [Store.siteView, Store.deleteSite, Table.find?_delete]
  by_cases hid : id = siteID
  · subst hid
    rw [if_pos rfl]
    congr 1
    · cases hfind : db.sites.find? id with
      | none => rfl
      | some row =>
        have hkey : row.id = id := Table.key_of_find? hfind
        simp [Option.filter, hkey]
    · cases hfind : db.certificates.find? id with
      | none => rfl
      | some row =>
        have hkey : row.siteID = id := Table.key_of_find? hfind
        simp [Option.filter, hkey]
  · rw [if_neg hid]
    congr 1
    · cases hfind : db.sites.find? id with
      | none => rfl
      | some row =>
        have hkey : row.id = id := Table.key_of_find? hfind
        simp [Option.filter, hkey, hid]
    · cases hfind : db.certificates.find? id with
      | none => rfl
      | some row =>
        have hkey : row.siteID = id := Table.key_of_find? hfind
        simp [Option.filter, hkey, hid]

theorem beginSiteDeletion_change {siteID taskID actor remoteAddr : String} {deadline now : Time}
    {task : DeploymentTask} {created : Bool} {db : Store}
    (h : s.store.beginSiteDeletion siteID taskID actor remoteAddr deadline now =
      .ok (task, created, db)) :
    SiteChange s id (.beginSiteDeletion siteID taskID actor remoteAddr deadline now)
      (s.store.siteView id) (db.siteView id) := by
  obtain ⟨⟨site, hfind⟩, h⟩ := Store.beginSiteDeletion_eq_ok h
  rcases h with ⟨-, -, rfl⟩ | ⟨-, -, -, -, tasks, -, -, rfl⟩
  · exact .unchanged _ _
  · by_cases hid : id = siteID
    · subst hid
      simp only [Store.siteView, Store.find?_updateSite, if_true, hfind, Option.map_some]
      exact .deletionBegun
    · refine .of_view_eq ?_
      simp only [Store.siteView, Store.find?_updateSite, if_neg hid]

theorem storeCertificate_change {siteID : String} {certificate : Certificate}
    {privateKey : PrivateKey} {now : Time} {db : Store}
    (h : storeCertificate s.store siteID certificate privateKey now = .ok db) :
    SiteChange s id (.storeCertificate siteID certificate privateKey now) (s.store.siteView id)
      (db.siteView id) := by
  simp only [storeCertificate, bind_eq_ok] at h
  obtain ⟨-, -, h⟩ := h
  obtain ⟨⟨site, hfind, hdeleting⟩, rfl⟩ := Store.saveCertificate_eq_ok h
  by_cases hid : id = siteID
  · subst hid
    simp only [Store.siteView, Store.find?_updateLiveSite, if_true, hfind, Option.map_some]
    rw [if_pos hdeleting]
    exact .certified hdeleting
  · refine .of_view_eq ?_
    simp only [Store.siteView, Store.find?_updateLiveSite, if_neg hid, Table.find?_upsert,
      key_certificateRow, if_neg (Ne.symm hid)]

theorem createSite_change {siteID zoneID : String} {draft : SiteDraft} {now : Time} {site : Site}
    {db : Store} (h : s.store.createSite siteID draft zoneID now = .ok (site, db)) :
    SiteChange s id (.createSite siteID draft zoneID now) (s.store.siteView id)
      (db.siteView id) := by
  obtain ⟨hfresh, hsite, -, sites, claims, hinsert, rfl⟩ := Store.createSite_eq_ok h
  have hnone := (Table.insert?_eq_some_iff.mp hinsert).1
  have hkey : key site = siteID := by
    rw [hsite]
    rfl
  rw [hkey] at hnone
  simp only [Store.siteView, Table.find?_of_insert? hinsert, hkey]
  by_cases hid : siteID = id
  · subst hid
    have hissued : siteID ∈
        (step s (.createSite siteID draft zoneID now)).store.issuedIDs := by
      simp [step, Calls.commit, h, Except.map]
    rw [if_pos rfl, hnone]
    exact .created hfresh hissued (by rw [hsite]) (by rw [hsite])
  · rw [if_neg hid]
    exact .unchanged _ _

theorem step_change (s : Calls) (id : String) (a : Action) :
    SiteChange s id a (s.store.siteView id) ((step s a).store.siteView id) := by
  cases a with
  | createSite siteID draft zoneID now =>
    simp only [step]
    cases h : s.store.createSite siteID draft zoneID now with
    | error error => exact .unchanged _ _
    | ok result => exact createSite_change h
  | updateRead siteID draft zoneID =>
    simp only [step]
    split <;> exact .unchanged _ _
  | updateCommit i now =>
    simp only [step]
    split
    · next call hcall =>
      cases h : s.store.updateSiteCommit (Store.updatedSite call.current call.draft now) with
      | error error => exact .unchanged _ _
      | ok db => exact updateCommit_change hcall h
    · exact .unchanged _ _
  | invalidateRead siteID =>
    simp only [step]
    split <;> exact .unchanged _ _
  | invalidateCommit i now =>
    simp only [step]
    split
    · next siteID hcall =>
      cases h : s.store.invalidateSiteCacheCommit siteID now with
      | error error => exact .unchanged _ _
      | ok db =>
        obtain ⟨⟨site, hfind⟩, rfl⟩ := Store.invalidateSiteCacheCommit_eq_ok h
        by_cases hid : id = siteID
        · subst hid
          simp only [Calls.commit, Store.siteView, Store.find?_updateSite, if_true, hfind,
            Option.map_some]
          exact .invalidated hcall
        · refine .of_view_eq ?_
          simp only [Calls.commit, Store.siteView, Store.find?_updateSite, if_neg hid]
    · exact .unchanged _ _
  | storeCertificate siteID certificate privateKey now =>
    simp only [step]
    cases h : storeCertificate s.store siteID certificate privateKey now with
    | error error => exact .unchanged _ _
    | ok db => exact storeCertificate_change h
  | publishRead siteID =>
    simp only [step]
    split <;> exact .unchanged _ _
  | publishStep i taskID now =>
    simp only [step]
    split
    · next call hcall => exact publishStep_change i call taskID now
    · exact .unchanged _ _
  | reconcilePublishTasks now => exact .of_view_eq (siteView_reconcilePublishTasks s.store now)
  | beginSiteDeletion siteID taskID actor remoteAddr deadline now =>
    simp only [step]
    cases h : s.store.beginSiteDeletion siteID taskID actor remoteAddr deadline now with
    | error error => exact .unchanged _ _
    | ok result => exact beginSiteDeletion_change h
  | completeSiteDeletion taskID now =>
    simp only [step]
    cases h : s.store.completeSiteDeletion taskID now with
    | error error => exact .unchanged _ _
    | ok db =>
      obtain ⟨job, site, detail, -, hfind, rfl⟩ := Store.completeSiteDeletion_eq_ok h
      simp only [Calls.commit, siteView_setTask, deleteSite_view]
      by_cases hid : id = job.siteID
      · rw [if_pos hid]
        subst hid
        simp only [Store.siteView, hfind]
        exact .removed
      · rw [if_neg hid]
        exact .unchanged _ _
  | otherTables tables => exact .unchanged _ _

/-- The row after an `UpdateSite` transaction. -/
theorem UpdateCommits.row {i : Nat} {now : Time} {call : UpdateCall} {row : Site}
    (h : UpdateCommits s i now call) (hrow : s.store.sites.find? call.current.id = some row) :
    (step s (.updateCommit i now)).store.sites.find? call.current.id =
      some (updatedRow call row now) := by
  obtain ⟨hcall, db, hdb⟩ := h
  have hstep : (step s (.updateCommit i now)).store = db := by
    simp only [step, hcall, hdb]
    rfl
  obtain ⟨-, claims, rfl⟩ := Store.updateSiteCommit_eq_ok hdb
  rw [hstep, Store.find?_updateSite]
  have hid : (Store.updatedSite call.current call.draft now).id = call.current.id := rfl
  rw [if_pos hid.symm, hrow]
  rfl

/-! ### Identifiers -/

theorem createTask_issuedIDs (i : Nat) (call : PublishCall) (taskID : String) (now : Time) :
    s.store.issuedIDs ⊆ (s.createTask i call taskID now).store.issuedIDs := by
  unfold Calls.createTask
  split
  · exact List.Subset.refl _
  · split
    · exact List.Subset.refl _
    · next h =>
      obtain ⟨tasks, rows, ids, rfl, hids⟩ := Store.createOrGetActivePublishTask_frame h
      exact hids
    · next h =>
      obtain ⟨tasks, rows, ids, rfl, hids⟩ := Store.createOrGetActivePublishTask_frame h
      exact hids

theorem finishPublish_issuedIDs (db : Store) (taskID : String) (targets : List PublishTaskNode)
    (now : Time) : (finishPublish db taskID targets now).issuedIDs = db.issuedIDs := by
  unfold finishPublish
  split <;> rfl

theorem publishStep_issuedIDs (i : Nat) (call : PublishCall) (taskID : String) (now : Time) :
    s.store.issuedIDs ⊆ (s.publishStep i call taskID now).store.issuedIDs := by
  unfold Calls.publishStep
  split
  · exact createTask_issuedIDs i call taskID now
  · split <;> exact List.Subset.refl _
  · split <;> exact List.Subset.refl _
  · split <;> exact List.Subset.refl _
  · split
    · exact List.Subset.refl _
    · next h =>
      obtain ⟨row, -, -, -, -, targetRows, states, claims, -, -, rfl⟩ :=
        Store.commitSitePublication_eq_ok h
      rw [endPublish_store, finishPublish_issuedIDs]
      exact List.Subset.refl _

/-- No step forgets an identifier. -/
theorem step_issuedIDs (s : Calls) (a : Action) :
    s.store.issuedIDs ⊆ (step s a).store.issuedIDs := by
  cases a with
  | createSite siteID draft zoneID now =>
    simp only [step]
    cases h : s.store.createSite siteID draft zoneID now with
    | error error => exact List.Subset.refl _
    | ok result =>
      obtain ⟨-, -, -, sites, claims, -, hdb⟩ := Store.createSite_eq_ok h
      simp only [Except.map, Calls.commit, hdb]
      exact List.subset_cons_self _ _
  | updateRead siteID draft zoneID =>
    simp only [step]
    split <;> exact List.Subset.refl _
  | updateCommit i now =>
    simp only [step]
    split
    · next call hcall =>
      cases h : s.store.updateSiteCommit (Store.updatedSite call.current call.draft now) with
      | error error => exact List.Subset.refl _
      | ok db =>
        obtain ⟨-, claims, rfl⟩ := Store.updateSiteCommit_eq_ok h
        exact List.Subset.refl _
    · exact List.Subset.refl _
  | invalidateRead siteID =>
    simp only [step]
    split <;> exact List.Subset.refl _
  | invalidateCommit i now =>
    simp only [step]
    split
    · next siteID hcall =>
      cases h : s.store.invalidateSiteCacheCommit siteID now with
      | error error => exact List.Subset.refl _
      | ok db =>
        obtain ⟨-, rfl⟩ := Store.invalidateSiteCacheCommit_eq_ok h
        exact List.Subset.refl _
    · exact List.Subset.refl _
  | storeCertificate siteID certificate privateKey now =>
    simp only [step]
    cases h : storeCertificate s.store siteID certificate privateKey now with
    | error error => exact List.Subset.refl _
    | ok db =>
      simp only [storeCertificate, bind_eq_ok] at h
      obtain ⟨-, -, h⟩ := h
      obtain ⟨-, rfl⟩ := Store.saveCertificate_eq_ok h
      exact List.Subset.refl _
  | publishRead siteID =>
    simp only [step]
    split <;> exact List.Subset.refl _
  | publishStep i taskID now =>
    simp only [step]
    split
    · next call hcall => exact publishStep_issuedIDs i call taskID now
    · exact List.Subset.refl _
  | reconcilePublishTasks now =>
    obtain ⟨tasks, rows, h⟩ := s.store.reconcilePublishTasks_frame now
    simp only [step, h]
    exact List.Subset.refl _
  | beginSiteDeletion siteID taskID actor remoteAddr deadline now =>
    simp only [step]
    cases h : s.store.beginSiteDeletion siteID taskID actor remoteAddr deadline now with
    | error error => exact List.Subset.refl _
    | ok result =>
      obtain ⟨task, created, db⟩ := result
      rcases (Store.beginSiteDeletion_eq_ok h).2 with ⟨-, -, rfl⟩ | ⟨-, -, -, -, tasks, -, -, rfl⟩
      · exact List.Subset.refl _
      · exact List.subset_cons_self _ _
  | completeSiteDeletion taskID now =>
    simp only [step]
    cases h : s.store.completeSiteDeletion taskID now with
    | error error => exact List.Subset.refl _
    | ok db =>
      obtain ⟨job, site, detail, -, -, rfl⟩ := Store.completeSiteDeletion_eq_ok h
      exact List.Subset.refl _
  | otherTables tables => exact List.subset_append_right _ _

/-- The identifier of every site in the table has been issued. -/
def RowsIssued (s : Calls) : Prop :=
  ∀ id row, s.store.sites.find? id = some row → id ∈ s.store.issuedIDs

theorem rowsIssued_initial : RowsIssued initial := by
  intro id row hrow
  cases hrow

theorem rowsIssued_step (s : Calls) (a : Action) (h : RowsIssued s) : RowsIssued (step s a) := by
  intro id row hrow
  have hkeep := @step_issuedIDs s a id
  have hchange := step_change s id a
  have hview : ((step s a).store.siteView id).row = some row := hrow
  generalize (step s a).store.siteView id = view' at hchange hview
  generalize hview₀ : s.store.siteView id = view at hchange
  have hbefore : ∀ row, view.row = some row → id ∈ s.store.issuedIDs := by
    intro row hrow
    rw [← hview₀] at hrow
    exact h id row hrow
  cases hchange with
  | unchanged => exact hkeep (hbefore row hview)
  | created hfresh hissued => exact hissued
  | removed => cases hview
  | updated hcommit hid => exact hkeep (hbefore _ rfl)
  | invalidated hcall => exact hkeep (hbefore _ rfl)
  | certified hdeleting => exact hkeep (hbefore _ rfl)
  | published hdeleting => exact hkeep (hbefore _ rfl)
  | deletionBegun => exact hkeep (hbefore _ rfl)

end SiteCalls

end SimpleCdn
