import SimpleCdn.Deployment.Outcomes

/-!
# The effect of every action

The operations on drafts, on certificates and on nodes, and then `step_effect`: whatever the
action is, a step has one of the effects.  What holds in every reachable state is proved from it.
-/

namespace SimpleCdn.Deployment

/-! ### Drafts -/

section Drafts

variable {db db' db'' : Store} {id zoneID : String} {draft : SiteDraft} {row' : Site} {now : Time}

theorem SiteWritten.tables (h : SiteWritten db db' id row') (h' : SameTables db' db'') :
    SiteWritten db db'' id row' where
  rowID := h.rowID
  published := h.published
  live := h.live
  origin := by
    rcases h.origin with ⟨hnone, hfresh, hissued⟩ | hlive
    · exact .inl ⟨hnone, hfresh, h'.issued hissued⟩
    · exact .inr hlive
  assigned := h.assigned
  sites := by rw [h'.sites]; exact h.sites
  certificates := by rw [h'.certificates]; exact h.certificates
  nodes := h'.nodes.trans h.nodes
  publications := h'.publications.trans h.publications
  states := h'.states.trans h.states
  deletions := fun k => (h'.deletions k).trans (h.deletions k)
  uninstalls := h'.uninstalls.trans h.uninstalls
  issued := List.Subset.trans h.issued h'.issued
  tasks := h.tasks.trans h'.tasks

theorem createSite_written {site : Site} (h : db.createSite id draft zoneID now = .ok (site, db')) :
    SiteWritten db db' id site ∧ Store.Settles [] db db' := by
  obtain ⟨hfresh, hsite, hnodes, sites, claims, hinsert, rfl⟩ := Store.createSite_eq_ok h
  refine ⟨?_, .of_eq rfl rfl⟩
  have hid : site.id = id := by rw [hsite]; rfl
  have hnone := (Table.insert?_eq_some_iff.mp hinsert).1
  rw [key_site, hid] at hnone
  exact {
    rowID := hid
    published := by rw [hsite]; rfl
    live := by rw [hsite]; rfl
    origin := .inl ⟨hnone, hfresh, List.mem_cons_self⟩
    assigned := by
      right
      intro n hn
      obtain ⟨node, hnode, -⟩ := hnodes n hn
      exact ⟨node, hnode⟩
    sites := by
      intro k
      dsimp only
      rw [Table.find?_of_insert? hinsert, key_site, hid]
      by_cases hk : k = id
      · rw [if_pos hk, if_pos hk.symm]
      · rw [if_neg hk, if_neg (Ne.symm hk)]
    certificates := fun _ _ => rfl
    nodes := rfl
    publications := rfl
    states := rfl
    deletions := fun _ => rfl
    uninstalls := rfl
    issued := List.subset_cons_self _ _
    tasks := .refl _ }

/-- A transaction that writes the row of one live site, and no table but those of claims and
certificates besides. -/
theorem siteWritten_of_update {row : Site} (hrow : db.sites.find? id = some row)
    (hlive : row.deleting = false) (hid : row'.id = id) (hpublished : row'.published = false)
    (hdeleting : row'.deleting = false)
    (hassigned : row'.nodes = row.nodes ∨ ∀ n ∈ row'.nodes, ∃ node, db.nodes.find? n = some node)
    (hsites : ∀ k, db'.sites.find? k = if k = id then some row' else db.sites.find? k)
    (hcertificates : ∀ k, k ≠ id → db'.certificates.find? k = db.certificates.find? k)
    (hframe : ∃ sites certificates claims, db' =
      { db with sites := sites, certificates := certificates, siteDomains := claims }) :
    SiteWritten db db' id row' ∧ Store.Settles [] db db' := by
  obtain ⟨sites, certificates, claims, rfl⟩ := hframe
  refine ⟨?_, .of_eq rfl rfl⟩
  refine ⟨hid, hpublished, hdeleting, .inr ⟨row, hrow, hlive⟩, ?_, hsites, hcertificates, rfl, rfl,
    rfl, fun _ => rfl, rfl, List.Subset.refl _, .refl _⟩
  rcases hassigned with hsame | hexist
  · exact .inl ⟨row, hrow, hsame⟩
  · exact .inr hexist

theorem updateSite_written {site : Site} (h : db.updateSite id draft zoneID now = .ok (site, db')) :
    ∃ row', SiteWritten db db' id row' ∧ Store.Settles [] db db' := by
  simp only [Store.updateSite, bind_eq_ok, pure_eq_ok, Prod.mk.injEq] at h
  obtain ⟨current, hcheck, db₁, hcommit, rfl, rfl⟩ := h
  obtain ⟨hfind, hlive, -, -⟩ := Store.updateSiteCheck_eq_ok.mp hcheck
  obtain ⟨hnodes, claims, rfl⟩ := Store.updateSiteCommit_eq_ok hcommit
  have hid : current.id = id := Table.key_of_find? hfind
  let site := Store.updatedSite current draft now
  refine ⟨{ site with id := current.id, createdAt := current.createdAt },
    siteWritten_of_update hfind hlive hid rfl rfl (.inr ?_) ?_ (fun _ _ => rfl) ⟨_, _, _, rfl⟩⟩
  · intro n hn
    obtain ⟨node, hnode, -⟩ := Store.validateSiteNodes_eq_ok hnodes n hn
    exact ⟨node, hnode⟩
  · intro k
    have hkey : (Store.updatedSite current draft now).id = id := hid
    dsimp only
    rw [hkey, Store.find?_updateSite]
    split
    · next hk =>
      rw [hk, hfind]
      rfl
    · rfl

theorem invalidateSiteCache_written {site : Site}
    (h : db.invalidateSiteCache id now = .ok (site, db')) :
    ∃ row', SiteWritten db db' id row' ∧ Store.Settles [] db db' := by
  simp only [Store.invalidateSiteCache, Store.invalidateSiteCacheCheck, bind_eq_ok, require_eq_ok,
    Store.getSite_eq_ok, pure_eq_ok, exists_const, Prod.mk.injEq] at h
  obtain ⟨⟨current, hfind, hlive, -⟩, db₁, hcommit, -, -, rfl, rfl⟩ := h
  obtain ⟨-, rfl⟩ := Store.invalidateSiteCacheCommit_eq_ok hcommit
  let row' : Site := { current with
    cacheGeneration := current.cacheGeneration + 1, configVersion := current.configVersion + 1,
    published := false, updatedAt := now }
  have hid : row'.id = id := Table.key_of_find? hfind
  refine ⟨row', siteWritten_of_update hfind hlive hid rfl hlive (.inl rfl) ?_ (fun _ _ => rfl)
    ⟨_, _, _, rfl⟩⟩
  intro k
  dsimp only
  rw [Store.find?_updateSite]
  split
  · next hk =>
    rw [hk, hfind]
    rfl
  · rfl

theorem saveCertificate_written {certificate : Sealed Certificate} {privateKey : Sealed PrivateKey}
    {notAfter : Option Time}
    (h : db.saveCertificate id certificate privateKey notAfter now = .ok db') :
    ∃ row', SiteWritten db db' id row' ∧ Store.Settles [] db db' := by
  obtain ⟨⟨current, hfind, hlive⟩, rfl⟩ := Store.saveCertificate_eq_ok h
  let row' : Site := { current with
    configVersion := current.configVersion + 1, published := false, updatedAt := now }
  have hid : row'.id = id := Table.key_of_find? hfind
  refine ⟨row', siteWritten_of_update hfind hlive hid rfl hlive (.inl rfl) ?_ ?_ ⟨_, _, _, rfl⟩⟩
  · intro k
    dsimp only
    rw [Store.find?_updateLiveSite]
    split
    · next hk =>
      rw [hk, hfind, Option.map_some, if_pos hlive]
    · rfl
  · intro k hk
    dsimp only
    rw [Table.find?_upsert]
    exact if_neg (Ne.symm hk)

end Drafts

/-! ### Certificates -/

section Certificates

variable {db db' : Store} {queue : List CertificateJob} {siteID taskID : String} {now : Time}

/-- The task of a certificate job. -/
def CertificateTask (db : Store) (taskID : String) : Prop :=
  ∃ task, db.deploymentTasks.find? taskID = some task ∧ task.kind.certificate = true

/-- Every job that waits has its task. -/
def QueueKnown (db : Store) (queue : List CertificateJob) : Prop :=
  ∀ job ∈ queue, CertificateTask db job.taskID

/-- An operation of the certificate manager on the database and its queue. -/
structure QueueStep (db : Store) (queue : List CertificateJob)
    (manager : Store × List CertificateJob) : Prop where
  same : SameTables db manager.1
  settles : Store.Settles [] db manager.1
  known : QueueKnown db queue → QueueKnown manager.1 manager.2

theorem CertificateTask.kept (h : CertificateTask db taskID) (htasks : TasksKept db db') :
    CertificateTask db' taskID := by
  obtain ⟨task, htask, hkind⟩ := h
  obtain ⟨task', htask', hkind', -⟩ := htasks taskID task htask
  exact ⟨task', htask', by rw [hkind']; exact hkind⟩

theorem CertificateTask.noPublish (h : CertificateTask db taskID) : Store.NoPublish db taskID := by
  obtain ⟨task, htask, hkind⟩ := h
  intro task' htask' hpublish
  obtain rfl := Option.some.inj (htask.symm.trans htask')
  rw [hpublish] at hkind
  cases hkind

theorem QueueStep.refl (db : Store) (queue : List CertificateJob) :
    QueueStep db queue (db, queue) :=
  ⟨.refl db, .refl db, id⟩

theorem enqueue_step (db : Store) (queue : List CertificateJob) {kind : TaskKind}
    (hkind : kind.certificate = true) (siteID taskID detail : String) (now : Time) :
    QueueStep db queue (enqueue db queue kind siteID taskID detail now) := by
  unfold enqueue
  split
  · exact .refl db queue
  · next task db₁ hcreate =>
    rcases Store.createOrGetActiveCertificateTask_eq_ok hcreate with ⟨-, hsame⟩ | ⟨hcreated, -⟩
    · rw [hsame]
      exact .refl db queue
    · cases hcreated
  · next task db₁ hcreate =>
    rcases Store.createOrGetActiveCertificateTask_eq_ok hcreate with
      ⟨hcreated, -⟩ | ⟨-, htask, hinsert⟩
    · cases hcreated
    have hsame := sameTables_insertTask hinsert
    obtain ⟨hsettles, hfresh⟩ := (Store.Settles.refl db).insertTask hinsert
    split
    · refine ⟨hsame, hsettles, fun hknown job hjob => ?_⟩
      rcases List.mem_append.mp hjob with hjob | hjob
      · exact (hknown job hjob).kept hsame.tasks
      · -- the new job is that of the new task
        rw [List.mem_singleton.mp hjob]
        obtain ⟨-, tasks, hrow, rfl⟩ := Store.insertTask_eq_ok hinsert
        refine ⟨task, ?_, by rw [htask]; exact hkind⟩
        dsimp only
        rw [Table.find?_of_insert? hrow, key_deploymentTask, if_pos rfl]
    · have hafter := hsame.trans (sameTables_setTask db₁ task.id .failed
        "certificate queue is full; retry Issue TLS" now)
      exact ⟨hafter, hsettles.setTask (.of_none hfresh),
        fun hknown job hjob => (hknown job hjob).kept hafter.tasks⟩

theorem issueRequest_step : QueueStep db queue (issueRequest db queue siteID taskID now) := by
  unfold issueRequest
  split
  · exact .refl db queue
  · split
    · exact enqueue_step db queue rfl _ _ _ _
    · exact .refl db queue

theorem renewRequest_step : QueueStep db queue (renewRequest db queue siteID taskID now) := by
  unfold renewRequest
  split
  · exact .refl db queue
  · split
    · exact enqueue_step db queue rfl _ _ _ _
    · exact .refl db queue

theorem reconcileSites_step (newTaskID : String → String) (now : Time) (sites : List Site)
    (db : Store) (queue : List CertificateJob) :
    QueueStep db queue (reconcileSites newTaskID now sites (db, queue)) := by
  induction sites generalizing db queue with
  | nil => exact .refl db queue
  | cons site sites ih =>
    rw [reconcileSites]
    split
    · have hfirst : QueueStep db queue (queueRenewal db queue site.id (newTaskID site.id) now) :=
        enqueue_step db queue rfl _ _ _ _
      have hrest := ih (queueRenewal db queue site.id (newTaskID site.id) now).1
        (queueRenewal db queue site.id (newTaskID site.id) now).2
      refine ⟨hfirst.same.trans hrest.same, ?_, fun hknown => hrest.known (hfirst.known hknown)⟩
      exact hfirst.settles.trans hrest.settles (by rw [hrest.same.nodes])
    · exact ih db queue

theorem startJob_same (db : Store) (job : CertificateJob) (now : Time) :
    SameTables db (startJob db job now).2 ∧
      (Store.NoPublish db job.taskID → Store.Settles [] db (startJob db job now).2) := by
  unfold startJob
  split
  · exact ⟨.refl db, fun _ => .refl db⟩
  · next db₁ hdispatch =>
    have hbase := sameTables_updateTask hdispatch
    have hsettles : Store.NoPublish db job.taskID → Store.Settles [] db db₁ := fun hno => by
      rw [Store.updateTask_eq_ok hdispatch]
      exact (Store.Settles.refl db).setTask hno
    split
    · exact ⟨hbase.trans (sameTables_setTask _ _ _ _ _), fun hno => (hsettles hno).setTask hno⟩
    · split
      · exact ⟨hbase, hsettles⟩
      · next db₂ happly =>
        refine ⟨hbase.trans (sameTables_updateTask happly), fun hno => ?_⟩
        rw [Store.updateTask_eq_ok happly]
        exact (hsettles hno).setTask hno

/-- The issuer's answer is refused, or the certificate is stored. -/
theorem storeIssued_same_or_written (db : Store) (job : CertificateJob) (site : Site)
    (issued : Except StoreError (Certificate × PrivateKey)) (now : Time) :
    (SameTables db (storeIssued db job site issued now).2 ∨
      ∃ row', SiteWritten db (storeIssued db job site issued now).2 site.id row') ∧
    (Store.NoPublish db job.taskID →
      Store.Settles [] db (storeIssued db job site issued now).2) := by
  unfold storeIssued
  split
  · exact ⟨.inl (sameTables_setTask _ _ _ _ _), fun hno => (Store.Settles.refl db).setTask hno⟩
  · next db₁ hissue =>
    simp only [issueCertificate, storeCertificate, bind_eq_ok] at hissue
    obtain ⟨⟨certificate, privateKey⟩, -, -, -, -, -, hsave⟩ := hissue
    obtain ⟨row', hwritten, hsettles⟩ := saveCertificate_written hsave
    split
    · split
      · exact ⟨.inr ⟨row', hwritten⟩, fun _ => hsettles⟩
      · next db₂ hupdate =>
        refine ⟨.inr ⟨row', hwritten.tables (sameTables_updateTask hupdate)⟩, fun hno => ?_⟩
        rw [Store.updateTask_eq_ok hupdate]
        exact hsettles.setTask hno
    · exact ⟨.inr ⟨row', hwritten.tables (sameTables_setTask _ _ _ _ _)⟩,
        fun hno => hsettles.setTask hno⟩

theorem find?_failActiveCertificateTasks (db : Store) (detail : String) (now : Time) (k : String) :
    (db.failActiveCertificateTasks detail now).deploymentTasks.find? k =
      (db.deploymentTasks.find? k).map fun task =>
        if task.kind.certificate && task.status.active then
          { task with status := .failed, detail := detail, updatedAt := now }
        else task := by
  rw [Store.failActiveCertificateTasks]
  dsimp only
  rw [Table.find?_update]

theorem failActiveCertificateTasks_same (db : Store) (detail : String) (now : Time) :
    SameTables db (db.failActiveCertificateTasks detail now) := by
  refine .of_tasks ?_ ⟨_, _, _, rfl, List.Subset.refl _⟩
  intro k task htask
  rw [find?_failActiveCertificateTasks, htask, Option.map_some]
  split
  · exact ⟨_, rfl, rfl, rfl⟩
  · exact ⟨task, rfl, rfl, rfl⟩

theorem failActiveCertificateTasks_settles (db : Store) (detail : String) (now : Time) :
    Store.Settles [] db (db.failActiveCertificateTasks detail now) where
  target := fun k row' hrow' => .inl ⟨row', hrow', rfl, .inl rfl⟩
  created := by nofun
  createdFor := by nofun
  targetKept := fun k row hrow => .inl ⟨row, hrow⟩
  task := by
    intro id task' htask' hkind
    rw [find?_failActiveCertificateTasks] at htask'
    obtain ⟨task, htask, rfl⟩ := Option.map_eq_some_iff.mp htask'
    right
    split at hkind
    · next hcertificate =>
      -- a publish task is no certificate task
      have hpublish : task.kind = .publishSite := hkind
      rw [hpublish] at hcertificate
      cases hcertificate
    · next hother =>
      refine ⟨task, htask, ?_⟩
      rw [if_neg hother]
      exact .refl _ task
  taskKept := by
    intro id task htask
    rw [find?_failActiveCertificateTasks, htask]
    exact ⟨_, rfl⟩

end Certificates

/-! ### All actions -/

section Steps

variable {s s' : State}

/-- What holds in every reachable state: the tables agree, and every job has its task. -/
structure WellFormed (s : State) : Prop where
  tables : Consistent s.store
  queue : QueueKnown s.store s.queue
  running : ∀ running, s.running = some running → CertificateTask s.store running.job.taskID

theorem wellFormed_initial : WellFormed initial := by
  refine ⟨consistent_initial, ?_, ?_⟩
  · intro job hjob
    cases hjob
  · intro running hrunning
    cases hrunning

/-- An action that changes the database and nothing of the history. -/
theorem tryWrite_effect {r : Option RenderCall} {result : Except StoreError Store}
    (h : ∀ db, result = .ok db → db.nodeStates = s.store.nodeStates ∧
      Store.Settles [] s.store db ∧
      ∀ s' : State, s'.store = db → SameHistory s s' → Effect r s s') :
    Effect r s (s.tryWrite result) := by
  cases result with
  | error error => exact .nothing s
  | ok db =>
    obtain ⟨hstates, hsettles, heffect⟩ := h db rfl
    refine heffect _ rfl ⟨?_, rfl, rfl, rfl, rfl, hsettles⟩
    show s.newRows db ++ s.saved = s.saved
    rw [newRows_eq_nil hstates, List.nil_append]

theorem siteWritten_effect {r : Option RenderCall} {id : String}
    {result : Except StoreError (Site × Store)}
    (h : ∀ site db, result = .ok (site, db) →
      ∃ row', SiteWritten s.store db id row' ∧ Store.Settles [] s.store db) :
    Effect r s (s.tryWrite (Prod.snd <$> result)) := by
  refine tryWrite_effect fun db hresult => ?_
  obtain ⟨⟨site, db'⟩, hok, rfl⟩ := map_eq_ok.mp hresult
  obtain ⟨row', hwritten, hsettles⟩ := h site db' hok
  refine ⟨hwritten.states, hsettles, fun s' hstore hhistory => ?_⟩
  have hwritten' : SiteWritten s.store s'.store id row' := by
    rw [hstore]
    exact hwritten
  exact .site id row' hwritten' hhistory

/-- A node operation loses states and saves none. -/
theorem newRows_of_nodeEffect {db : Store} (h : Store.NodeEffect s.store db) :
    s.newRows db = [] := by
  rw [State.newRows, List.filter_eq_nil_iff]
  intro row hmem
  have hfind := Table.find?_of_mem (T := db.nodeStates) hmem
  rcases h.state (key row) with hsame | ⟨hnone, -⟩
  · rw [hsame] at hfind
    have hold : row ∈ s.store.nodeStates.rows := Table.mem_of_find? hfind
    simp [hold]
  · rw [hnone] at hfind
    cases hfind

theorem nodeEffect_effect {r : Option RenderCall} {result : Except StoreError Store}
    (h : ∀ db, result = .ok db → Store.NodeEffect s.store db) :
    Effect r s (s.tryWrite result) := by
  cases result with
  | error error => exact .nothing s
  | ok db =>
    have heffect := h db rfl
    refine .node heffect ⟨?_, rfl, rfl, rfl, rfl, heffect.settles⟩
    show s.newRows db ++ s.saved = s.saved
    rw [newRows_of_nodeEffect heffect, List.nil_append]

/-- Every step has one of the effects. -/
theorem step_effect (hs : WellFormed s) (a : Action) :
    Effect (s.rendering a) s (step s a) := by
  have hclosed := hs.tables.uninstalls
  cases a with
  | createSite id draft zoneID now =>
    exact siteWritten_effect fun site db h => ⟨site, createSite_written h⟩
  | updateSite id draft zoneID now => exact siteWritten_effect fun site db h => updateSite_written h
  | invalidateCache siteID now =>
    exact siteWritten_effect fun site db h => invalidateSiteCache_written h
  | publishSite siteID taskID now =>
    exact publish_effect rfl rfl (.refl _) (fun _ _ => rfl) id rfl rfl rfl rfl rfl
  | publishAll now => exact publishAll_effect
  | publishNode nodeID now => exact publishNode_effect
  | reconcilePublishTasks now =>
    exact tables_effect (sameTables_reconcile _ now)
      (Store.reconcilePublishTasks_reconciles _ now).settles rfl rfl rfl rfl rfl
  | beginDeletion siteID taskID actor remoteAddr now => exact beginDeletion_effect
  | advanceDeletion taskID external now => exact advanceDeletion_effect hs.tables
  | issueRequest siteID taskID now =>
    have h : QueueStep s.store s.queue (issueRequest s.store s.queue siteID taskID now) :=
      issueRequest_step
    exact .tables h.same ⟨rfl, rfl, rfl, rfl, rfl, h.settles⟩
  | renewRequest siteID taskID now =>
    have h : QueueStep s.store s.queue (renewRequest s.store s.queue siteID taskID now) :=
      renewRequest_step
    exact .tables h.same ⟨rfl, rfl, rfl, rfl, rfl, h.settles⟩
  | reconcileCertificates newTaskID now =>
    have h := reconcileSites_step newTaskID now s.store.listSites s.store s.queue
    exact .tables h.same ⟨rfl, rfl, rfl, rfl, rfl, h.settles⟩
  | startJob now =>
    rw [step]
    split
    · next job queue hrunning hqueue =>
      obtain ⟨hsame, hsettles⟩ := startJob_same s.store job now
      have hno := (hs.queue job (by rw [hqueue]; exact List.mem_cons_self)).noPublish
      exact .tables hsame ⟨rfl, rfl, rfl, rfl, rfl, hsettles hno⟩
    · exact .nothing s
  | storeIssued issued now =>
    rw [step]
    split
    · next job site hrunning =>
      obtain ⟨hstore, hsettles⟩ := storeIssued_same_or_written s.store job site issued now
      have hno := (hs.running _ hrunning).noPublish
      rcases hstore with hsame | ⟨row', hwritten⟩
      · exact .tables hsame ⟨rfl, rfl, rfl, rfl, rfl, hsettles hno⟩
      · exact .site site.id row' hwritten ⟨rfl, rfl, rfl, rfl, rfl, hsettles hno⟩
    · exact .nothing s
  | publishRenewed taskID now =>
    rw [step]
    split
    · next running call hrunning hcall =>
      have hdb : call.db = s.store := by
        simp only [State.publishCall, hrunning] at hcall
        split at hcall
        · rw [← Option.some.inj hcall]
        · cases hcall
      have hno := (hs.running running hrunning).noPublish
      refine publish_effect hdb ?_ ?_ ?_ ?_ rfl rfl rfl rfl rfl
      · show (s.publishCall _).bind _ = _
        rw [hcall]
        rfl
      · show SameTables call.result.2 (finishRenewal running.job now call.result)
        rcases call.result with ⟨outcome, db⟩
        cases outcome with
        | error error => exact sameTables_setTask _ _ _ _ _
        | ok task => exact .refl db
      · intro task hok
        show finishRenewal running.job now call.result = _
        rcases hresult : call.result with ⟨outcome, db⟩
        rw [hresult] at hok
        rw [show outcome = .ok task from hok]
        rfl
      · show _ → Store.Settles [] s.store (finishRenewal running.job now call.result)
        rcases call.result with ⟨outcome, db⟩
        intro hsettles
        cases outcome with
        | error error => exact hsettles.setTask hno
        | ok task => exact hsettles
    · exact .nothing s
  | restart now =>
    exact .tables (failActiveCertificateTasks_same _ _ _)
      ⟨rfl, rfl, rfl, rfl, rfl, failActiveCertificateTasks_settles _ _ _⟩
  | node op now =>
    rw [step]
    split
    · next hsent => exact nodeEffect_effect fun db h => op.effect hclosed hsent h
    · exact .nothing s
  | consumeEnrollmentToken token now =>
    refine nodeEffect_effect fun db h => ?_
    obtain ⟨⟨nodeID, db'⟩, hconsume, rfl⟩ := map_eq_ok.mp h
    exact Store.consumeEnrollmentToken_effect hclosed hconsume
  | setNodeCertificate nodeID fingerprint now =>
    exact nodeEffect_effect fun db h => Store.setNodeCertificate_effect hclosed h
  | setPolicies securityPolicies rateLimitPolicies cacheDefaultSizeGB =>
    exact .tables ⟨rfl, rfl, rfl, rfl, rfl, fun _ => rfl, rfl, List.Subset.refl _, .refl _⟩
      ⟨rfl, rfl, rfl, rfl, rfl, .of_eq rfl rfl⟩
  | setUpgrades tasks =>
    exact .tables ⟨rfl, rfl, rfl, rfl, rfl, fun _ => rfl, rfl, List.Subset.refl _, .refl _⟩
      ⟨rfl, rfl, rfl, rfl, rfl, .of_eq rfl rfl⟩

/-- No task is lost. -/
theorem Effect.tasksKept {r : Option RenderCall} (h : Effect r s s') :
    TasksKept s.store s'.store := by
  cases h with
  | tables tables history => exact tables.tasks
  | site id row' written history => exact written.tasks
  | publish siteID row now call targets publishes => exact publishes.tasks
  | rebuild call targets rebuilds => exact rebuilds.tasks
  | begin siteID taskID row begins => exact begins.tasks
  | stage siteID taskID row now call targets stages => exact stages.tasks
  | confirm siteID taskID confirms history => exact confirms.tasks
  | remove siteID taskID removes history => exact removes.tasks
  | node effect history =>
    intro id task htask
    obtain ⟨task', htask'⟩ := effect.tasks.kept id task htask
    obtain ⟨old, hold, hmove⟩ := effect.tasks.move id task' htask'
    obtain rfl : task = old := Option.some.inj (htask.symm.trans hold)
    exact ⟨task', htask', hmove.kind, hmove.siteID⟩

theorem tryWrite_jobs (s : State) (result : Except StoreError Store) :
    (s.tryWrite result).queue = s.queue ∧ (s.tryWrite result).running = s.running := by
  cases result with
  | error error => exact ⟨rfl, rfl⟩
  | ok db => exact ⟨rfl, rfl⟩

/-- The jobs after a step. -/
inductive JobsMove (s s' : State) : Prop
  | kept (queue : s'.queue = s.queue) (running : s'.running = s.running)
  | manager (known : QueueKnown s.store s.queue → QueueKnown s'.store s'.queue)
      (running : s'.running = s.running)
  | started (job : CertificateJob) (queue : s.queue = job :: s'.queue)
      (running : ∀ running, s'.running = some running → running.job = job)
  | stored (queue : s'.queue = s.queue) (running : ∀ running', s'.running = some running' →
      ∃ running, s.running = some running ∧ running'.job = running.job)
  | restarted (queue : s'.queue = []) (running : s'.running = none)

theorem step_jobs (s : State) (a : Action) : JobsMove s (step s a) := by
  cases a with
  | issueRequest siteID taskID now =>
    have h : QueueStep s.store s.queue (issueRequest s.store s.queue siteID taskID now) :=
      issueRequest_step
    exact .manager h.known rfl
  | renewRequest siteID taskID now =>
    have h : QueueStep s.store s.queue (renewRequest s.store s.queue siteID taskID now) :=
      renewRequest_step
    exact .manager h.known rfl
  | reconcileCertificates newTaskID now =>
    exact .manager (reconcileSites_step newTaskID now s.store.listSites s.store s.queue).known rfl
  | startJob now =>
    rw [step]
    split
    · next job queue hrunning hqueue =>
      refine .started job hqueue fun running hsome => ?_
      obtain ⟨site, -, rfl⟩ := Option.map_eq_some_iff.mp hsome
      rfl
    · exact .kept rfl rfl
  | storeIssued issued now =>
    rw [step]
    split
    · next job site hrunning =>
      refine .stored rfl fun running hsome => ?_
      dsimp only at hsome
      split at hsome
      · obtain rfl := Option.some.inj hsome
        exact ⟨_, hrunning, rfl⟩
      · cases hsome
    · exact .kept rfl rfl
  | publishRenewed taskID now =>
    rw [step]
    split
    · refine .stored ?_ fun running hsome => ?_
      · dsimp only [State.publish, State.write]
      · dsimp only at hsome
        cases hsome
    · exact .kept rfl rfl
  | restart now => exact .restarted rfl rfl
  | beginDeletion siteID taskID actor remoteAddr now =>
    simp only [step, State.beginDeletion]
    split
    · exact .kept rfl rfl
    · exact .kept rfl rfl
    · exact .kept rfl rfl
  | advanceDeletion taskID external now =>
    simp only [step, State.advanceDeletion]
    split
    · exact .kept rfl rfl
    · exact .kept rfl rfl
  | node op now =>
    rw [step]
    split
    · exact .kept (tryWrite_jobs s _).1 (tryWrite_jobs s _).2
    · exact .kept rfl rfl
  | createSite id draft zoneID now => exact .kept (tryWrite_jobs s _).1 (tryWrite_jobs s _).2
  | updateSite id draft zoneID now => exact .kept (tryWrite_jobs s _).1 (tryWrite_jobs s _).2
  | invalidateCache siteID now => exact .kept (tryWrite_jobs s _).1 (tryWrite_jobs s _).2
  | publishAll now => exact .kept (tryWrite_jobs s _).1 (tryWrite_jobs s _).2
  | publishNode nodeID now => exact .kept (tryWrite_jobs s _).1 (tryWrite_jobs s _).2
  | consumeEnrollmentToken token now =>
    exact .kept (tryWrite_jobs s _).1 (tryWrite_jobs s _).2
  | setNodeCertificate nodeID fingerprint now =>
    exact .kept (tryWrite_jobs s _).1 (tryWrite_jobs s _).2
  | publishSite siteID taskID now =>
    rw [step]
    exact .kept rfl rfl
  | reconcilePublishTasks now => exact .kept rfl rfl
  | setPolicies securityPolicies rateLimitPolicies cacheDefaultSizeGB => exact .kept rfl rfl
  | setUpgrades tasks => exact .kept rfl rfl

theorem step_wellFormed (hs : WellFormed s) (a : Action) : WellFormed (step s a) := by
  have heffect := step_effect hs a
  have hkept := heffect.tasksKept
  have hold : QueueKnown (step s a).store s.queue := fun job hjob => (hs.queue job hjob).kept hkept
  refine ⟨heffect.consistent hs.tables, ?_, ?_⟩
  · cases step_jobs s a with
    | kept queue running => rwa [queue]
    | manager known running => exact known hs.queue
    | started job queue running =>
      rw [queue] at hold
      exact fun other hother => hold other (List.mem_cons_of_mem _ hother)
    | stored queue running => rwa [queue]
    | restarted queue running =>
      rw [queue]
      exact fun other hother => by cases hother
  · intro running' hrunning'
    cases step_jobs s a with
    | kept queue running =>
      rw [running] at hrunning'
      exact (hs.running running' hrunning').kept hkept
    | manager known running =>
      rw [running] at hrunning'
      exact (hs.running running' hrunning').kept hkept
    | started job queue running =>
      rw [running running' hrunning']
      exact hold job (by rw [queue]; exact List.mem_cons_self)
    | stored queue running =>
      obtain ⟨before, hbefore, hjob⟩ := running running' hrunning'
      rw [hjob]
      exact (hs.running before hbefore).kept hkept
    | restarted queue running =>
      rw [running] at hrunning'
      cases hrunning'

end Steps

end SimpleCdn.Deployment
