import SimpleCdn.Deployment.Consistency

/-!
# The effects of publishing and deleting

What a publish call and a round of a deletion do, whatever comes of them.  A publish call ends
without a publication or commits one; a round of a deletion stages the removal, confirms it,
removes the row, or writes nothing but tasks and targets.
-/

namespace SimpleCdn.Deployment

section Bookkeeping

variable {db db' db'' : Store} {now : Time}

theorem TasksKept.refl (db : Store) : TasksKept db db :=
  fun _ task htask => ⟨task, htask, rfl, rfl⟩

theorem TasksKept.trans (h : TasksKept db db') (h' : TasksKept db' db'') : TasksKept db db'' := by
  intro id task htask
  obtain ⟨task', htask', hkind, hsite⟩ := h id task htask
  obtain ⟨task'', htask'', hkind', hsite'⟩ := h' id task' htask'
  exact ⟨task'', htask'', hkind'.trans hkind, hsite'.trans hsite⟩

theorem SameTables.refl (db : Store) : SameTables db db :=
  ⟨rfl, rfl, rfl, rfl, rfl, fun _ => rfl, rfl, List.Subset.refl _, .refl db⟩

theorem SameTables.trans (h : SameTables db db') (h' : SameTables db' db'') :
    SameTables db db'' where
  nodes := h'.nodes.trans h.nodes
  sites := h'.sites.trans h.sites
  publications := h'.publications.trans h.publications
  certificates := h'.certificates.trans h.certificates
  states := h'.states.trans h.states
  deletions := fun k => (h'.deletions k).trans (h.deletions k)
  uninstalls := h'.uninstalls.trans h.uninstalls
  issued := List.Subset.trans h.issued h'.issued
  tasks := h.tasks.trans h'.tasks

/-- Only tasks, targets and issued identifiers have changed. -/
theorem SameTables.of_tasks (htasks : TasksKept db db')
    (hframe : ∃ tasks rows ids, db' =
      { db with deploymentTasks := tasks, publishTaskNodes := rows, issuedIDs := ids } ∧
        db.issuedIDs ⊆ ids) : SameTables db db' := by
  obtain ⟨tasks, rows, ids, rfl, hids⟩ := hframe
  exact ⟨rfl, rfl, rfl, rfl, rfl, fun _ => rfl, rfl, hids, htasks⟩

theorem sameTables_setTask (db : Store) (id : String) (status : TaskStatus) (detail : String)
    (now : Time) : SameTables db (db.setTask id status detail now) := by
  refine .of_tasks ?_ ⟨_, _, _, rfl, List.Subset.refl _⟩
  intro k task htask
  rw [Store.find?_setTask, htask]
  split
  · exact ⟨_, rfl, rfl, rfl⟩
  · exact ⟨task, rfl, rfl, rfl⟩

theorem sameTables_reconcile (db : Store) (now : Time) :
    SameTables db (db.reconcilePublishTasks now) := by
  have hreconcile := Store.reconcilePublishTasks_reconciles db now
  obtain ⟨tasks, rows, hframe⟩ := hreconcile.frame
  refine .of_tasks ?_ ⟨tasks, rows, db.issuedIDs, hframe, List.Subset.refl _⟩
  intro id task htask
  obtain ⟨task', htask'⟩ := hreconcile.tasks.kept id task htask
  obtain ⟨task₀, htask₀, hmove⟩ := hreconcile.tasks.move id task' htask'
  obtain rfl : task = task₀ := Option.some.inj (htask.symm.trans htask₀)
  exact ⟨task', htask', hmove.kind, hmove.siteID⟩

theorem sameTables_insertTask {task : DeploymentTask} (h : db.insertTask task = .ok db') :
    SameTables db db' := by
  obtain ⟨-, tasks, hinsert, rfl⟩ := Store.insertTask_eq_ok h
  refine .of_tasks ?_ ⟨tasks, _, _, rfl, List.subset_cons_self _ _⟩
  intro id task' htask'
  have hne : task.id ≠ id := by
    rintro rfl
    have hnone := (Table.insert?_eq_some_iff.mp hinsert).1
    rw [key_deploymentTask, htask'] at hnone
    cases hnone
  refine ⟨task', ?_, rfl, rfl⟩
  dsimp only
  rw [Table.find?_of_insert? hinsert, key_deploymentTask, if_neg hne, htask']

theorem sameTables_updateTask {id : String} {status : TaskStatus} {detail : String}
    (h : db.updateTask id status detail now = .ok db') : SameTables db db' := by
  obtain rfl := Store.updateTask_eq_ok h
  exact sameTables_setTask db id status detail now

end Bookkeeping

/-! ### Publishing -/

section Publishing

variable {db db' : Store} {siteID taskID : String} {now : Time} {s s' : State}

theorem newRows_eq_nil {db : Store} (h : db.nodeStates = s.store.nodeStates) :
    s.newRows db = [] := by
  rw [State.newRows, h, List.filter_eq_nil_iff]
  intro row hmem
  simp [hmem]

/-- A step that changes nothing. -/
theorem Effect.nothing {r : Option RenderCall} (s : State) : Effect r s s :=
  .tables (.refl _) ⟨rfl, rfl, rfl, rfl, rfl, .refl _⟩

/-- The site a publish call has read and the database with its task. -/
theorem startPublish_eq_ok {site : Site} {task : DeploymentTask} {created : Bool}
    (h : startPublish db siteID taskID now = .ok (site, task, created, db')) :
    db.sites.find? siteID = some site ∧ site.deleting = false ∧ SameTables db db' := by
  simp only [startPublish, bind_eq_ok, require_eq_ok, Store.getSite_eq_ok, exists_const,
    Prod.exists] at h
  obtain ⟨row, hrow, hlive, task', created', db₁, hcreate, h⟩ := h
  have hreconcile := sameTables_reconcile db now
  have hsame : SameTables db db₁ := by
    rcases Store.createOrGetActivePublishTask_eq_ok hcreate with ⟨-, -, rfl⟩ | ⟨-, -, -, hinsert⟩
    · exact hreconcile
    · exact hreconcile.trans (sameTables_insertTask hinsert)
  cases created' with
  | false =>
    simp only [Bool.false_eq_true, if_false, pure_eq_ok, Prod.mk.injEq] at h
    obtain ⟨rfl, -, -, rfl⟩ := h
    exact ⟨hrow, hlive, hsame⟩
  | true =>
    simp only [if_true, pure_eq_ok, Prod.mk.injEq] at h
    obtain ⟨rfl, -, -, rfl⟩ := h
    exact ⟨hrow, hlive, hsame.trans
      ((sameTables_setTask _ _ _ _ _).trans (sameTables_setTask _ _ _ _ _))⟩

/-- A call creates no task exactly when it finds a live site with an active publish task. -/
theorem startPublish_active_iff {row : Site} {task : DeploymentTask} :
    startPublish db siteID taskID now = .ok (row, task, false, db') ↔
      siteID ≠ "" ∧ db.sites.find? siteID = some row ∧ row.deleting = false ∧
        (db.reconcilePublishTasks now).activePublishTask siteID = some task ∧
        db' = db.reconcilePublishTasks now := by
  constructor
  · intro h
    simp only [startPublish, bind_eq_ok, Store.getSite_eq_ok, require_eq_ok, exists_const,
      Prod.exists] at h
    obtain ⟨site, hrow, hlive, task', created, db₁, hcreate, h⟩ := h
    cases created with
    | true => simp at h
    | false =>
      simp only [Bool.false_eq_true, if_false, pure_eq_ok, Prod.mk.injEq] at h
      obtain ⟨rfl, rfl, -, rfl⟩ := h
      rcases Store.createOrGetActivePublishTask_eq_ok hcreate with ⟨-, hfound, hdb⟩ | ⟨hnew, -⟩
      · simp only [Store.createOrGetActivePublishTask, bind_eq_ok, require_eq_ok,
          exists_const] at hcreate
        exact ⟨hcreate.1, hrow, hlive, hfound, hdb⟩
      · cases hnew
  · rintro ⟨hsiteID, hrow, hlive, htask, rfl⟩
    have hnot : (db.sites.any fun site => site.id = siteID && site.deleting) = false := by
      rw [Table.any_eq_false]
      intro site hmem
      by_cases hid : site.id = siteID
      · have hfind := Table.find?_of_mem hmem
        rw [key_site, hid, hrow] at hfind
        obtain rfl := Option.some.inj hfind
        simp [hlive]
      · simp [hid]
    have hcreate : db.createOrGetActivePublishTask siteID taskID (now + publishTimeout) now =
        .ok (task, false, db.reconcilePublishTasks now) := by
      simp only [Store.createOrGetActivePublishTask, bind_eq_ok, require_eq_ok, exists_const, htask,
        pure_eq_ok]
      exact ⟨hsiteID, hnot, trivial⟩
    simp only [startPublish, bind_eq_ok, Store.getSite_eq_ok, require_eq_ok, exists_const]
    exact ⟨row, hrow, hlive, _, hcreate, rfl⟩

/-- What the call has done to tasks and targets before it renders anything. -/
structure Started (db : Store) (task : DeploymentTask) (db' : Store) : Prop where
  fresh : db.deploymentTasks.find? task.id = none
  settles : Store.Settles [] db db'
  kept : Store.TargetsKept db db'
  task : ∃ task', db'.deploymentTasks.find? task.id = some task' ∧ task'.kind = .publishSite ∧
    task'.status = .applying

theorem startPublish_started {site : Site} {task : DeploymentTask}
    (h : startPublish db siteID taskID now = .ok (site, task, true, db')) : Started db task db' := by
  simp only [startPublish, bind_eq_ok, require_eq_ok, exists_const, Prod.exists] at h
  obtain ⟨_, -, -, task', created, db₁, hcreate, h⟩ := h
  have hreconcile := Store.reconcilePublishTasks_reconciles db now
  rcases Store.createOrGetActivePublishTask_eq_ok hcreate with ⟨rfl, -, -⟩ | ⟨rfl, -, htask, hinsert⟩
  · simp at h
  · simp only [if_true, pure_eq_ok, Prod.mk.injEq] at h
    obtain ⟨-, rfl, -, rfl⟩ := h
    obtain ⟨hsettles, hfresh⟩ := hreconcile.settles.insertTask hinsert
    have hno : Store.NoPublish db task'.id := .of_none hfresh
    obtain ⟨-, tasks, hrow, rfl⟩ := Store.insertTask_eq_ok hinsert
    have hkey : key task' = task'.id := rfl
    refine ⟨hfresh, (hsettles.setTask hno).setTask hno, hreconcile.kept, ?_⟩
    rw [Store.find?_setTask, if_pos rfl, Store.find?_setTask, if_pos rfl]
    dsimp only
    rw [Table.find?_of_insert? hrow, hkey, if_pos rfl]
    refine ⟨_, rfl, ?_, rfl⟩
    rw [htask]

/-- A call that has found an active task has reconciled and nothing else. -/
theorem startPublish_settles {site : Site} {task : DeploymentTask}
    (h : startPublish db siteID taskID now = .ok (site, task, false, db')) :
    Store.Settles [] db db' := by
  obtain ⟨-, -, -, -, rfl⟩ := startPublish_active_iff.mp h
  exact (Store.reconcilePublishTasks_reconciles db now).settles

theorem sameTables_finishPublish (db : Store) (taskID : String) (targets : List PublishTaskNode)
    (now : Time) : SameTables db (finishPublish db taskID targets now) := by
  unfold finishPublish
  split
  · exact sameTables_setTask _ _ _ _ _
  · exact .refl db

/-- The outcomes of a publish call. -/
inductive PublishOutcome (call : PublishCall) : Prop
  /-- The call fails. -/
  | failed (same : SameTables call.db call.result.2) (commit : call.commit = none)
      (settles : Store.Settles [] call.db call.result.2)
      (error : ∀ task, call.result.1 ≠ .ok task)
  /-- It returns a task that is active already. -/
  | active (row : Site) (task : DeploymentTask) (db : Store)
      (same : SameTables call.db call.result.2) (commit : call.commit = none)
      (settles : Store.Settles [] call.db call.result.2)
      (start : startPublish call.db call.siteID call.taskID call.now = .ok (row, task, false, db))
      (result : call.result = (.ok task, db))
  /-- It commits a publication. -/
  | committed (site : Site) (task : DeploymentTask) (db₁ db₂ : Store) (row : Site)
      (rendering : RenderCall) (targets : List PublishTaskNode)
      (start : startPublish call.db call.siteID call.taskID call.now =
        .ok (site, task, true, db₁))
      (committed : Committed db₁ call.siteID task.id call.now row rendering targets db₂)
      (renders : call.rendering = some rendering)
      (commit : call.commit = some ⟨task.id, db₁.snapshot row call.now, rendering.affected,
        rendering.passedOver⟩)
      (result : call.result =
        ((finishPublish db₂ task.id targets call.now).getTask task.id,
          finishPublish db₂ task.id targets call.now))

theorem committed_publication {row : Site} {rendering : RenderCall}
    {targets : List PublishTaskNode}
    (h : Committed db siteID taskID now row rendering targets db') (k : String) :
    db'.sitePublications.find? k =
      if k = siteID then some (db.snapshot row now) else db.sitePublications.find? k := by
  obtain ⟨claims, hwritten⟩ := h.written
  have hid : row.id = siteID := Table.key_of_find? h.found
  rw [hwritten]
  dsimp only
  rw [Table.find?_upsert]
  have hkey : key (db.snapshot row now) = siteID := hid
  rw [hkey]
  by_cases hk : k = siteID
  · rw [if_pos hk, if_pos hk.symm]
  · rw [if_neg hk, if_neg (Ne.symm hk)]

theorem publishOutcome (call : PublishCall) : PublishOutcome call := by
  cases hstart : startPublish call.db call.siteID call.taskID call.now with
  | error error =>
    have hresult : call.result = (.error error, call.db) := by
      rw [PublishCall.result, SimpleCdn.publishSite, hstart]
    refine .failed ?_ ?_ ?_ ?_
    · rw [hresult]
      exact .refl _
    · rw [PublishCall.commit, hstart]
    · rw [hresult]
      exact .refl _
    · rw [hresult]
      nofun
  | ok started =>
    obtain ⟨site, task, created, db₁⟩ := started
    obtain ⟨-, -, hsame⟩ := startPublish_eq_ok hstart
    cases created with
    | false =>
      have hresult : call.result = (.ok task, db₁) := by
        rw [PublishCall.result, SimpleCdn.publishSite, hstart]
      refine .active site task db₁ ?_ ?_ ?_ hstart hresult
      · rw [hresult]
        exact hsame
      · rw [PublishCall.commit, hstart]
      · rw [hresult]
        exact startPublish_settles hstart
    | true =>
      cases hprepared : publishPrepared db₁ call.siteID task.id site.configVersion call.now with
      | error error =>
        have hresult : call.result = (.error error, db₁.setTask task.id .failed error.text
            call.now) := by
          simp only [PublishCall.result, SimpleCdn.publishSite, hstart, hprepared]
        have hstarted := startPublish_started hstart
        refine .failed ?_ ?_ ?_ ?_
        · rw [hresult]
          exact hsame.trans (sameTables_setTask _ _ _ _ _)
        · simp only [PublishCall.commit, hstart, hprepared]
        · rw [hresult]
          exact hstarted.settles.setTask (.of_none hstarted.fresh)
        · rw [hresult]
          nofun
      | ok prepared =>
        obtain ⟨targets, db₂⟩ := prepared
        obtain ⟨row, rendering, hcommitted⟩ := publishPrepared_eq_ok hprepared
        have hrenders : call.rendering = some rendering := by
          simp only [PublishCall.rendering, hstart, hcommitted.called]
          rfl
        refine .committed site task db₁ db₂ row rendering targets hstart hcommitted hrenders ?_ ?_
        · simp only [PublishCall.commit, hstart, hprepared, hrenders]
          rw [committed_publication hcommitted, if_pos rfl]
          rfl
        · simp only [PublishCall.result, SimpleCdn.publishSite, hstart, hprepared]

/-- The tasks and targets after a call that has committed a publication. -/
structure CommittedTask (db : Store) (task : DeploymentTask) (targets : List PublishTaskNode)
    (db' : Store) : Prop where
  fresh : db.deploymentTasks.find? task.id = none
  settles : Store.Settles (Store.targetRows task.id targets) db db'
  found : ∃ task', db'.deploymentTasks.find? task.id = some task' ∧ task'.kind = .publishSite ∧
    (task'.status = .succeeded → targets = [])
  answer : ∃ task', db'.getTask task.id = .ok task'

theorem committed_newPublish {call : PublishCall} {site row : Site} {task : DeploymentTask}
    {db₁ db₂ : Store} {rendering : RenderCall} {targets : List PublishTaskNode}
    (hstart : startPublish call.db call.siteID call.taskID call.now = .ok (site, task, true, db₁))
    (hcommitted : Committed db₁ call.siteID task.id call.now row rendering targets db₂) :
    CommittedTask call.db task targets (finishPublish db₂ task.id targets call.now) := by
  have hstarted := startPublish_started hstart
  have hno : Store.NoPublish call.db task.id := .of_none hstarted.fresh
  obtain ⟨rows, hrows, hcreate⟩ := hcommitted.targets
  obtain ⟨claims, hwritten⟩ := hcommitted.written
  have hsettles : Store.Settles (Store.targetRows task.id targets) call.db db₂ := by
    have htask : ∃ task', db₁.deploymentTasks.find? task.id = some task' := by
      obtain ⟨task', htask', -⟩ := hstarted.task
      exact ⟨task', htask'⟩
    refine (hstarted.settles.createTargets hstarted.kept hno htask hcreate).congr ?_ ?_ ?_
    · exact hrows
    · rw [hwritten]
    · rw [hwritten]
  obtain ⟨task', htask', hkind, hstatus⟩ := hstarted.task
  have htask₂ : db₂.deploymentTasks.find? task.id = some task' := by
    rw [hwritten]
    exact htask'
  have hfinish : ∃ task', (finishPublish db₂ task.id targets call.now).deploymentTasks.find?
      task.id = some task' ∧ task'.kind = .publishSite ∧
      (task'.status = .succeeded → targets = []) := by
    unfold finishPublish
    split
    · next hempty =>
      rw [Store.find?_setTask, if_pos rfl, htask₂]
      exact ⟨_, rfl, hkind, fun _ => List.isEmpty_iff.mp hempty⟩
    · refine ⟨task', htask₂, hkind, fun hdone => ?_⟩
      rw [hstatus] at hdone
      cases hdone
  refine ⟨hstarted.fresh, ?_, hfinish, ?_⟩
  · unfold finishPublish
    split
    · exact hsettles.setTask hno
    · exact hsettles
  · obtain ⟨task', htask', -⟩ := hfinish
    exact ⟨task', by rw [Store.getTask, htask']; rfl⟩

/-- A database that changes only its tasks after the call has the effect of the call. -/
theorem publish_effect {r : Option RenderCall} {call : PublishCall} (hcall : call.db = s.store)
    (hr : r = call.rendering) (hstore : SameTables call.result.2 s'.store)
    (hok : ∀ task, call.result.1 = .ok task → s'.store = call.result.2)
    (hsettles : Store.Settles [] s.store call.result.2 → Store.Settles [] s.store s'.store)
    (hcommits : s'.commits = (s.publish call).commits)
    (hsaved : s'.saved = (s.publish call).saved)
    (hpassedOver : s'.passedOver = (s.publish call).passedOver)
    (hbegun : s'.begun = s.begun) (hleaving : s'.leaving = s.leaving) : Effect r s s' := by
  -- without a publication the call has written tasks only
  have hquiet : SameTables call.db call.result.2 → call.commit = none →
      Store.Settles [] call.db call.result.2 → Effect r s s' := by
    intro hsame hcommit hsettled
    rw [hcall] at hsame hsettled
    refine .tables (hsame.trans hstore) ⟨?_, ?_, hbegun, hleaving, ?_, hsettles hsettled⟩
    · rw [hsaved]
      show s.newRows call.result.2 ++ s.saved = s.saved
      rw [newRows_eq_nil hsame.states, List.nil_append]
    · rw [hpassedOver]
      show call.commit.elim [] Commit.passedOver ++ s.passedOver = s.passedOver
      rw [hcommit, Option.elim_none, List.nil_append]
    · rw [hcommits]
      show call.commit.toList ++ s.commits = s.commits
      rw [hcommit, Option.toList_none, List.nil_append]
  rcases publishOutcome call with ⟨hsame, hcommit, hsettled, -⟩ |
    ⟨-, -, -, hsame, hcommit, hsettled, -, -⟩ |
    ⟨site, task, db₁, db₂, row, rendering, targets, hstart, hcommitted, hrenders, hcommit, hresult⟩
  · exact hquiet hsame hcommit hsettled
  · exact hquiet hsame hcommit hsettled
  · obtain ⟨-, -, hbase⟩ := startPublish_eq_ok hstart
    rw [hcall] at hbase
    have hafter : SameTables db₂ s'.store := by
      have hfinish := sameTables_finishPublish db₂ task.id targets call.now
      rw [hresult] at hstore
      exact hfinish.trans hstore
    obtain ⟨claims, hwritten⟩ := hcommitted.written
    have hlive := hcommitted.live
    have hsnapshot : db₁.snapshot row call.now = s.store.snapshot row call.now := by
      rw [Store.snapshot, Store.snapshot, hbase.certificates]
    exact .publish call.siteID row call.now rendering targets {
      rendering := by rw [hr, hrenders]
      base := by
        rw [hcommitted.site.db_eq]
        exact hbase
      rebuilt := by
        rw [hafter.states]
        exact hcommitted.rebuilt
      saved := by
        rw [hsaved]
        show s.newRows call.result.2 ++ s.saved = s.newRows s'.store ++ s.saved
        rw [State.newRows, State.newRows, hstore.states]
      nodes := by
        rw [hafter.nodes, hwritten]
        exact hbase.nodes
      certificates := by
        rw [hafter.certificates, hwritten]
        exact hbase.certificates
      uninstalls := by
        rw [hafter.uninstalls, hwritten]
        exact hbase.uninstalls
      issued := by
        refine List.Subset.trans hbase.issued (List.Subset.trans ?_ hafter.issued)
        rw [hwritten]
        exact List.Subset.refl _
      tasks := by
        refine hbase.tasks.trans (TasksKept.trans ?_ hafter.tasks)
        rw [hwritten]
        exact .refl _
      found := by
        rw [← hbase.sites]
        exact hcommitted.found
      live := hlive
      site := by
        rw [hcommitted.site.db_eq]
        exact hcommitted.site
      sites := by
        intro k
        rw [hafter.sites, hwritten, ← hbase.sites]
        dsimp only
        rw [Store.find?_updateLiveSite]
        split
        · next hk =>
          rw [hk, hcommitted.found, Option.map_some, if_pos hlive]
          rfl
        · rfl
      publications := by
        intro k
        rw [hafter.publications, committed_publication hcommitted, hbase.publications, hsnapshot]
      deletions := by
        intro k
        rw [hafter.deletions, ← hbase.deletions k, hwritten]
        rfl
      passedOver := by
        rw [hpassedOver]
        show call.commit.elim [] Commit.passedOver ++ s.passedOver = _
        rw [hcommit]
        rfl
      begun := hbegun
      leaving := hleaving
      committed := by
        refine ⟨task.id, ?_, ?_⟩
        · have hnew := committed_newPublish hstart hcommitted
          rw [hcall] at hnew
          have hdb : s'.store = finishPublish db₂ task.id targets call.now := by
            obtain ⟨task', htask'⟩ := hnew.answer
            rw [hok task' (by rw [hresult]; exact htask'), hresult]
          refine ⟨hnew.fresh, ?_, ?_⟩
          · rw [hdb]
            exact hnew.settles
          · rw [hdb]
            exact hnew.found
        · rw [hcommits, ← hsnapshot]
          show call.commit.toList ++ s.commits = _
          rw [hcommit]
          rfl }

theorem publishAll_effect :
    Effect (some (allCall s.store now)) s (s.tryWrite (publishAll s.store now)) := by
  cases hresult : publishAll s.store now with
  | error error => exact .nothing s
  | ok db =>
    obtain ⟨targets, states, hrebuilt, rfl⟩ := publishAll_eq_ok hresult
    exact .rebuild (allCall s.store now) targets
      ⟨⟨rfl, .refl _, hrebuilt, rfl, rfl, rfl, rfl, List.Subset.refl _, .refl _⟩,
        rfl, rfl, rfl, fun _ => rfl, rfl, rfl, rfl, rfl, .of_eq rfl rfl⟩

theorem publishNode_effect {nodeID : String} :
    Effect (some (nodeCall s.store nodeID now)) s (s.tryWrite (publishNode s.store nodeID now)) := by
  cases hresult : publishNode s.store nodeID now with
  | error error => exact .nothing s
  | ok db =>
    obtain ⟨targets, states, hrebuilt, rfl⟩ := publishNode_eq_ok hresult
    exact .rebuild (nodeCall s.store nodeID now) targets
      ⟨⟨rfl, .refl _, hrebuilt, rfl, rfl, rfl, rfl, List.Subset.refl _, .refl _⟩,
        rfl, rfl, rfl, fun _ => rfl, rfl, rfl, rfl, rfl, .of_eq rfl rfl⟩

end Publishing

/-! ### Deleting a site -/

section Deleting

variable {db db' : Store} {siteID taskID : String} {now : Time} {s s' : State}

theorem siteDeletionJobForTask_eq_some {job : SiteDeletionJob}
    (h : db.siteDeletionJobForTask taskID = some job) :
    job.taskID = taskID ∧ db.siteDeletionJobs.find? job.siteID = some job ∧
      db.deletionOf job.siteID = some (taskID, job.phase) := by
  have hmem : job ∈ db.siteDeletionJobs := List.mem_of_find?_eq_some h
  have htask : job.taskID = taskID := by simpa using List.find?_some h
  have hfind := Table.find?_of_mem hmem
  refine ⟨htask, hfind, ?_⟩
  rw [Store.deletionOf, show db.siteDeletionJobs.find? job.siteID = some job from hfind, ← htask]
  rfl

/-- Setting the phase of the job of one task sets the phase of one site's deletion. -/
theorem deletionOf_setPhase (hs : Consistent db) {job : SiteDeletionJob}
    (hjob : db.siteDeletionJobForTask taskID = some job) (phase : SiteDeletionPhase)
    (hjobs : db'.siteDeletionJobs = db.siteDeletionJobs.update (fun job => job.taskID = taskID)
      (fun job => { job with phase := phase, updatedAt := now })) (k : String) :
    db'.deletionOf k = if k = job.siteID then some (taskID, phase) else db.deletionOf k := by
  obtain ⟨htask, hfind, hdeletion⟩ := siteDeletionJobForTask_eq_some hjob
  rw [Store.deletionOf, hjobs, Table.find?_update]
  by_cases hk : k = job.siteID
  · rw [if_pos hk, hk, hfind]
    simp [htask]
  · rw [if_neg hk, Store.deletionOf]
    cases hother : db.siteDeletionJobs.find? k with
    | none => rfl
    | some other =>
      -- a task belongs to one site, so the other job has another task
      have hne : other.taskID ≠ taskID := by
        intro heq
        have hdeletion' : db.deletionOf k = some (taskID, other.phase) := by
          rw [Store.deletionOf, hother, ← heq]
          rfl
        exact hk (hs.site_of_task hdeletion' hdeletion)
      simp [hne]

/-- The task of a deletion is no publish task. -/
theorem noPublish_of_deletion (hs : Consistent db) {phase : SiteDeletionPhase}
    (h : db.deletionOf siteID = some (taskID, phase)) : Store.NoPublish db taskID := by
  obtain ⟨task, htask, hkind, -⟩ := hs.deletionTask siteID taskID phase h
  intro task' htask'
  obtain rfl := Option.some.inj (htask.symm.trans htask')
  rw [hkind]
  nofun

theorem setPhase_settles (hno : Store.NoPublish db taskID) {phase : SiteDeletionPhase}
    {status : TaskStatus} {detail : String}
    (h : db.setSiteDeletionPhase taskID phase status detail now = .ok db') :
    Store.Settles [] db db' := by
  obtain ⟨-, rfl⟩ := Store.setSiteDeletionPhase_eq_ok h
  refine Store.Settles.setTask ?_ hno
  exact (Store.Settles.refl db).congr rfl rfl rfl

theorem sameTables_setPhase (hs : Consistent db) {job : SiteDeletionJob} {status : TaskStatus}
    {detail : String} (hjob : db.siteDeletionJobForTask taskID = some job)
    (h : db.setSiteDeletionPhase taskID job.phase status detail now = .ok db') :
    SameTables db db' := by
  obtain ⟨-, rfl⟩ := Store.setSiteDeletionPhase_eq_ok h
  have htasks := (sameTables_setTask db taskID status detail now).tasks
  refine ⟨rfl, rfl, rfl, rfl, rfl, fun k => ?_, rfl, List.Subset.refl _, htasks⟩
  obtain ⟨-, -, hdeletion⟩ := siteDeletionJobForTask_eq_some hjob
  rw [deletionOf_setPhase hs hjob job.phase rfl]
  split
  · next hk => rw [hk, hdeletion]
  · rfl

theorem beginDeletion_effect {r : Option RenderCall} {actor remoteAddr : String} :
    Effect r s (s.beginDeletion siteID taskID actor remoteAddr now) := by
  unfold State.beginDeletion
  split
  · next task db hbegin =>
    obtain ⟨⟨row, hrow⟩, h⟩ := Store.beginSiteDeletion_eq_ok hbegin
    rcases h with ⟨hcreated, -⟩ | ⟨-, -, -, rfl, tasks, hinsert, hfresh, rfl⟩
    · cases hcreated
    have hid : row.id = siteID := Table.key_of_find? hrow
    have hnone := (Table.insert?_eq_some_iff.mp hinsert).1
    refine .begin siteID taskID row ⟨hrow, hnone, ⟨now, fun k => ?_⟩, fun k => ?_, ?_, rfl, rfl,
      rfl, rfl, rfl, List.subset_cons_self _ _, ?_, rfl, rfl, rfl, rfl, rfl, ?_⟩
    · dsimp only
      rw [Store.find?_updateSite]
      split
      · next hk =>
        rw [hk, hrow]
        rfl
      · rfl
    · rw [Store.deletionOf]
      dsimp only
      rw [Table.find?_upsert, key_siteDeletionJob]
      by_cases hk : k = siteID
      · rw [if_pos hk, if_pos hk.symm]
        rfl
      · rw [if_neg hk, if_neg (Ne.symm hk)]
        rfl
    · have hfind := Table.find?_of_insert? hinsert taskID
      rw [key_deploymentTask, if_pos rfl] at hfind
      exact ⟨_, hfind, rfl, rfl⟩
    · intro id task' htask'
      have hne : taskID ≠ id := by
        rintro rfl
        rw [key_deploymentTask, htask'] at hnone
        cases hnone
      refine ⟨task', ?_, rfl, rfl⟩
      dsimp only
      rw [Table.find?_of_insert? hinsert, key_deploymentTask, if_neg hne, htask']
    · refine And.left (Store.Settles.insertRow (.refl s.store) hinsert ?_ ?_ ?_)
      · rfl
      · rfl
      · rfl
  · next task db hbegin =>
    obtain ⟨-, h⟩ := Store.beginSiteDeletion_eq_ok hbegin
    rcases h with ⟨-, -, rfl⟩ | ⟨hcreated, -⟩
    · exact .nothing s
    · cases hcreated
  · exact .nothing s

/-- A round that writes nothing but tasks, targets and the times of jobs. -/
theorem tables_effect {r : Option RenderCall} (hstore : SameTables s.store s'.store)
    (hsettles : Store.Settles [] s.store s'.store) (hsaved : s'.saved = s.newRows s'.store ++ s.saved)
    (hpassedOver : s'.passedOver = s.passedOver) (hbegun : s'.begun = s.begun)
    (hleaving : s'.leaving = s.leaving) (hcommits : s'.commits = s.commits) : Effect r s s' := by
  refine .tables hstore ⟨?_, hpassedOver, hbegun, hleaving, hcommits, hsettles⟩
  rw [hsaved, newRows_eq_nil hstore.states, List.nil_append]

theorem stagingRound_eq_some {external : Except StoreError Unit}
    (h : stagingRound db taskID external now = some (db', siteID)) :
    ∃ job, db.siteDeletionJobForTask taskID = some job ∧ job.phase = .withdrawingDNS ∧
      job.siteID = siteID ∧ external = .ok () ∧
      db.setSiteDeletionPhase taskID .withdrawingDNS .dispatching
        "withdrawing managed DNS records" now = .ok db' := by
  unfold stagingRound at h
  split at h
  · cases h
  · next job hjob =>
    split at h
    · next hround =>
      simp only [Bool.and_eq_true, decide_eq_true_eq] at hround
      obtain ⟨hphase, hexternal⟩ := hround
      obtain ⟨⟨⟩, hexternal⟩ := isOk_iff.mp hexternal
      split at h
      · next db₁ hset =>
        obtain ⟨rfl, rfl⟩ := Prod.mk.inj (Option.some.inj h)
        exact ⟨job, hjob, hphase, rfl, hexternal, hset⟩
      · cases h
    · cases h

theorem stagingPassedOver_of_ok {external : Except StoreError Unit} {db₁ db₂ : Store}
    {call : RenderCall} (hround : stagingRound db taskID external now = some (db₁, siteID))
    (hstage : stageSiteRemoval db₁ taskID siteID now = .ok db₂)
    (hcall : siteCall db₁ siteID true now = .ok call) :
    stagingPassedOver db taskID external now = call.passedOver := by
  simp only [stagingPassedOver, hround, hstage, hcall]
  rfl

/-- What a removal has passed over is recorded only when it has been staged. -/
theorem stagingPassedOver_eq_nil {external : Except StoreError Unit}
    (h : ∀ db₁ siteID db₂, stagingRound db taskID external now = some (db₁, siteID) →
      stageSiteRemoval db₁ taskID siteID now ≠ .ok db₂) :
    stagingPassedOver db taskID external now = [] := by
  unfold stagingPassedOver
  split
  · next db₁ siteID hround =>
    split
    · next db₂ call hstage hcall => exact absurd hstage (h db₁ siteID db₂ hround)
    · rfl
  · rfl

/-- A round that is not a successful staging. -/
theorem advanceDeletion_quiet {external : Except StoreError Unit} {r : Option RenderCall}
    (hsame : SameTables s.store (advanceDeletion s.store taskID external now))
    (hsettles : Store.Settles [] s.store (advanceDeletion s.store taskID external now))
    (hnot : ∀ db₁ siteID db₂, stagingRound s.store taskID external now = some (db₁, siteID) →
      stageSiteRemoval db₁ taskID siteID now ≠ .ok db₂) :
    Effect r s { s.write (advanceDeletion s.store taskID external now) with
      passedOver := stagingPassedOver s.store taskID external now ++ s.passedOver } := by
  refine tables_effect hsame hsettles rfl ?_ rfl rfl rfl
  rw [stagingPassedOver_eq_nil hnot]
  rfl

/-- The round that stages a removal. -/
theorem withdrawing_effect {external : Except StoreError Unit} (hs : Consistent s.store)
    {job : SiteDeletionJob} (hjob : s.store.siteDeletionJobForTask taskID = some job)
    (hphase : job.phase = .withdrawingDNS) :
    Effect (stagingCall s.store taskID external now) s
      { s.write (advanceDeletion s.store taskID external now) with
        passedOver := stagingPassedOver s.store taskID external now ++ s.passedOver } := by
  obtain ⟨-, -, hdeletion⟩ := siteDeletionJobForTask_eq_some hjob
  rw [hphase] at hdeletion
  have hno := noPublish_of_deletion hs hdeletion
  cases hset : s.store.setSiteDeletionPhase taskID .withdrawingDNS .dispatching
      "withdrawing managed DNS records" now with
  | error error =>
    have hresult : advanceDeletion s.store taskID external now =
        s.store.failSiteDeletion taskID error.text now := by
      simp only [advanceDeletion, hjob, hphase, hset]
    refine advanceDeletion_quiet ?_ ?_ fun db₁ siteID db₂ hround => ?_
    · rw [hresult]
      exact sameTables_setTask _ _ _ _ _
    · rw [hresult]
      exact (Store.Settles.refl _).setTask hno
    · obtain ⟨job', -, -, -, -, hset'⟩ := stagingRound_eq_some hround
      rw [hset] at hset'
      cases hset'
  | ok db₁ =>
    have hbase : SameTables s.store db₁ := by
      rw [← hphase] at hset
      exact sameTables_setPhase hs hjob hset
    have hsettled := setPhase_settles hno hset
    cases hwithdraw : withdrawSite db₁ taskID job.siteID external now with
    | error error =>
      have hresult : advanceDeletion s.store taskID external now =
          db₁.failSiteDeletion taskID error.text now := by
        simp only [advanceDeletion, hjob, hphase, hset, hwithdraw, orFail]
      refine advanceDeletion_quiet ?_ ?_ fun db₁' siteID db₂ hround hstage => ?_
      · rw [hresult]
        exact hbase.trans (sameTables_setTask _ _ _ _ _)
      · rw [hresult]
        exact hsettled.setTask hno
      · obtain ⟨job', hjob', -, rfl, hexternal, hset'⟩ := stagingRound_eq_some hround
        obtain rfl : job = job' := Option.some.inj (hjob.symm.trans hjob')
        obtain rfl : db₁ = db₁' := Except.ok.inj (hset.symm.trans hset')
        rw [withdrawSite_eq_ok.mpr ⟨hexternal, hstage⟩] at hwithdraw
        cases hwithdraw
    | ok db₂ =>
      obtain ⟨rfl, hstage⟩ := withdrawSite_eq_ok.mp hwithdraw
      obtain ⟨row, call, targets, hstaged⟩ := stageSiteRemoval_eq_ok hstage
      have hround : stagingRound s.store taskID (.ok ()) now = some (db₁, job.siteID) := by
        simp only [stagingRound, hjob, hphase, hset, decide_true, Bool.true_and]
        rfl
      have hresult : advanceDeletion s.store taskID (.ok ()) now = db₂ := by
        simp only [advanceDeletion, hjob, hphase, hset, hwithdraw, orFail]
      obtain ⟨job', hjob'⟩ := hstaged.job
      obtain ⟨-, -, hdeletion'⟩ := siteDeletionJobForTask_eq_some hjob'
      have hsite : job'.siteID = job.siteID := by
        rw [hbase.deletions] at hdeletion'
        exact hs.site_of_task hdeletion' hdeletion
      have hjobs : db₂.siteDeletionJobs = _ := congrArg Store.siteDeletionJobs hstaged.written
      rw [hresult]
      exact .stage job.siteID taskID row now call targets {
        rendering := by
          simp only [stagingCall, hround, hstaged.called]
          rfl
        base := by
          rw [hstaged.site.db_eq]
          exact hbase
        rebuilt := hstaged.rebuilt
        saved := rfl
        nodes := by
          show db₂.nodes = _
          rw [hstaged.written]
          exact hbase.nodes
        certificates := by
          show db₂.certificates = _
          rw [hstaged.written]
          exact hbase.certificates
        uninstalls := by
          show db₂.nodeUninstallJobs = _
          rw [hstaged.written]
          exact hbase.uninstalls
        issued := by
          show s.store.issuedIDs ⊆ db₂.issuedIDs
          rw [hstaged.written]
          exact hbase.issued
        tasks := by
          show TasksKept s.store db₂
          rw [hstaged.written]
          exact hbase.tasks.trans (sameTables_setTask db₁ _ _ _ _).tasks
        found := by
          rw [← hbase.sites]
          exact hstaged.found
        site := by
          rw [hstaged.site.db_eq]
          exact hstaged.site
        phase := hdeletion
        sites := by
          show db₂.sites = _
          rw [hstaged.written]
          exact hbase.sites
        publications := by
          show db₂.sitePublications = _
          rw [hstaged.written]
          exact hbase.publications
        deletions := by
          intro k
          show db₂.deletionOf k = _
          rw [deletionOf_setPhase (hbase.consistent hs) hjob' .waitingForEdges hjobs, hsite,
            hbase.deletions]
        passedOver := by
          show stagingPassedOver s.store taskID (.ok ()) now ++ s.passedOver = _
          rw [stagingPassedOver_of_ok hround hstage hstaged.called]
        begun := rfl
        leaving := rfl
        commits := rfl
        settles := by
          show Store.Settles _ s.store db₂
          obtain ⟨rows, hrows, hcreate⟩ := hstaged.targets
          have hkept : Store.TargetsKept s.store db₁ := by
            obtain ⟨-, hwritten⟩ := Store.setSiteDeletionPhase_eq_ok hset
            rw [hwritten]
            exact .of_eq rfl
          have htask : ∃ task, db₁.deploymentTasks.find? taskID = some task := by
            obtain ⟨task, htask, -⟩ := hs.deletionTask _ _ _ hdeletion
            exact hsettled.taskKept taskID task htask
          have hcreated := hsettled.createTargets hkept hno htask hcreate
          rw [hstaged.written, hrows]
          refine Store.Settles.setTask ?_ hno
          exact hcreated.congr rfl rfl rfl }

theorem advanceDeletion_effect {external : Except StoreError Unit} (hs : Consistent s.store) :
    Effect (stagingCall s.store taskID external now) s (s.advanceDeletion taskID external now) := by
  unfold State.advanceDeletion
  split
  case isFalse => exact .nothing s
  cases hjob : s.store.siteDeletionJobForTask taskID with
  | none =>
    refine advanceDeletion_quiet ?_ ?_ fun db₁ siteID db₂ hround => ?_
    · rw [advanceDeletion, hjob]
      exact .refl _
    · rw [advanceDeletion, hjob]
      exact .refl _
    · obtain ⟨job', hjob', -⟩ := stagingRound_eq_some hround
      rw [hjob] at hjob'
      cases hjob'
  | some job =>
    obtain ⟨htask, hfind, hdeletion⟩ := siteDeletionJobForTask_eq_some hjob
    have hno := noPublish_of_deletion hs hdeletion
    cases hphase : job.phase with
    | withdrawingDNS => exact withdrawing_effect hs hjob hphase
    | waitingForEdges =>
      have hresult : advanceDeletion s.store taskID external now =
          orFail s.store taskID now (Prod.snd <$> s.store.siteDeletionReady taskID now) := by
        simp only [advanceDeletion, hjob, hphase]
      have hnot : ∀ db₁ siteID db₂,
          stagingRound s.store taskID external now = some (db₁, siteID) →
          stageSiteRemoval db₁ taskID siteID now ≠ .ok db₂ := by
        intro db₁ siteID db₂ hround
        obtain ⟨job', hjob', hphase', -⟩ := stagingRound_eq_some hround
        obtain rfl : job = job' := Option.some.inj (hjob.symm.trans hjob')
        rw [hphase] at hphase'
        cases hphase'
      rw [hphase] at hdeletion
      cases hready : s.store.siteDeletionReady taskID now with
      | error error =>
        rw [hready] at hresult
        refine advanceDeletion_quiet ?_ ?_ hnot
        · rw [hresult]
          exact sameTables_setTask _ _ _ _ _
        · rw [hresult]
          exact (Store.Settles.refl _).setTask hno
      | ok result =>
        obtain ⟨ready, db₁⟩ := result
        rw [hready] at hresult
        have hasked := siteDeletionReady_eq_ok hready
        -- the targets have settled, and no other task has moved
        have hsettled : ∀ rows status detail, db₁.publishTaskNodes = rows →
            db₁.nodes = s.store.nodes →
            Store.Settles [] s.store
              (({ s.store with publishTaskNodes := rows } : Store).setTask taskID status detail
                now) ∧ Store.Settles [] s.store { s.store with publishTaskNodes := rows } := by
          rintro rows status detail rfl hnodes
          have hreconciles : Store.Reconciles s.store
              { s.store with publishTaskNodes := db₁.publishTaskNodes } :=
            .of_targets ⟨hasked.targets.trans (.of_eq rfl) (.of_eq hnodes.symm),
              hasked.kept.trans (.of_eq rfl)⟩ ⟨_, rfl⟩
          exact ⟨hreconciles.settles.setTask hno, hreconciles.settles⟩
        rcases hasked.outcome with ⟨rows, detail, hdb, hall⟩ |
          ⟨rows, hdb⟩ | ⟨rows, status, detail, hdb, -⟩
        · -- every target has confirmed
          rw [stagingPassedOver_eq_nil hnot, hresult]
          have hwrite : orFail s.store taskID now (Prod.snd <$> .ok (ready, db₁)) = db₁ := rfl
          rw [hwrite]
          refine .confirm job.siteID taskID ?_ ⟨?_, rfl, rfl, rfl, rfl, ?_⟩
          · exact {
              phase := hdeletion
              deletions := fun k =>
                deletionOf_setPhase hs hjob .finalizing (congrArg Store.siteDeletionJobs hdb) k
              targets := by
                intro row hrow hid
                have hrows : db₁.publishTaskNodes = rows := congrArg Store.publishTaskNodes hdb
                rw [show ({ s.write db₁ with passedOver := [] ++ s.passedOver } :
                  State).store.publishTaskNodes = rows from hrows] at hrow
                exact hall row hrow hid
              nodes := by
                show db₁.nodes = _
                rw [hdb]
                rfl
              sites := by
                show db₁.sites = _
                rw [hdb]
                rfl
              publications := by
                show db₁.sitePublications = _
                rw [hdb]
                rfl
              certificates := by
                show db₁.certificates = _
                rw [hdb]
                rfl
              states := by
                show db₁.nodeStates = _
                rw [hdb]
                rfl
              uninstalls := by
                show db₁.nodeUninstallJobs = _
                rw [hdb]
                rfl
              issued := by
                show s.store.issuedIDs ⊆ db₁.issuedIDs
                rw [hdb]
                exact List.Subset.refl _
              tasks := by
                show TasksKept s.store db₁
                rw [hdb]
                exact (sameTables_setTask s.store _ _ _ _).tasks }
          · show s.newRows db₁ ++ s.saved = s.saved
            rw [newRows_eq_nil (by rw [hdb]; rfl), List.nil_append]
          · show Store.Settles [] s.store db₁
            rw [hdb]
            refine ((hsettled rows .applying detail ?_ ?_).1).congr rfl rfl rfl
            · rw [hdb]
              rfl
            · rw [hdb]
              rfl
        · have hwrite : advanceDeletion s.store taskID external now = db₁ := hresult
          refine advanceDeletion_quiet ?_ ?_ hnot
          · rw [hwrite, hdb]
            exact .of_tasks (.refl _) ⟨_, _, _, rfl, List.Subset.refl _⟩
          · rw [hwrite, hdb]
            exact (hsettled rows .applying "" (by rw [hdb]) (by rw [hdb])).2
        · have hwrite : advanceDeletion s.store taskID external now = db₁ := hresult
          refine advanceDeletion_quiet ?_ ?_ hnot
          · rw [hwrite, hdb]
            refine SameTables.trans ?_ (sameTables_setTask _ _ _ _ _)
            exact .of_tasks (.refl _) ⟨_, _, _, rfl, List.Subset.refl _⟩
          · rw [hwrite, hdb]
            refine (hsettled rows status detail ?_ ?_).1
            · rw [hdb]
              rfl
            · rw [hdb]
              rfl
    | finalizing =>
      have hresult : advanceDeletion s.store taskID external now =
          orFail s.store taskID now (finalizeSiteDeletion s.store taskID external now) := by
        simp only [advanceDeletion, hjob, hphase]
      have hnot : ∀ db₁ siteID db₂,
          stagingRound s.store taskID external now = some (db₁, siteID) →
          stageSiteRemoval db₁ taskID siteID now ≠ .ok db₂ := by
        intro db₁ siteID db₂ hround
        obtain ⟨job', hjob', hphase', -⟩ := stagingRound_eq_some hround
        obtain rfl : job = job' := Option.some.inj (hjob.symm.trans hjob')
        rw [hphase] at hphase'
        cases hphase'
      rw [hphase] at hdeletion
      cases hfinal : finalizeSiteDeletion s.store taskID external now with
      | error error =>
        rw [hfinal] at hresult
        refine advanceDeletion_quiet ?_ ?_ hnot
        · rw [hresult]
          exact sameTables_setTask _ _ _ _ _
        · rw [hresult]
          exact (Store.Settles.refl _).setTask hno
      | ok db₁ =>
        rw [hfinal] at hresult
        obtain ⟨job', row, detail, hjob', -, hdb⟩ :=
          Store.completeSiteDeletion_eq_ok (finalizeSiteDeletion_eq_ok hfinal)
        obtain rfl : job = job' := Option.some.inj (hjob.symm.trans hjob')
        rw [stagingPassedOver_eq_nil hnot, hresult]
        have hwrite : orFail s.store taskID now (.ok db₁) = db₁ := rfl
        rw [hwrite]
        refine .remove job.siteID taskID ?_ ⟨?_, rfl, rfl, rfl, rfl, ?_⟩
        · exact {
            phase := hdeletion
            sites := by
              intro k
              show db₁.sites.find? k = _
              rw [hdb]
              exact Table.find?_delete_key (fun _ => rfl) k
            publications := by
              intro k
              show db₁.sitePublications.find? k = _
              rw [hdb]
              exact Table.find?_delete_key (fun _ => rfl) k
            certificates := by
              intro k
              show db₁.certificates.find? k = _
              rw [hdb]
              exact Table.find?_delete_key (fun _ => rfl) k
            deletions := by
              intro k
              show (db₁.siteDeletionJobs.find? k).map _ = _
              have hfind' : db₁.siteDeletionJobs.find? k =
                  if k = job.siteID then none else s.store.siteDeletionJobs.find? k := by
                rw [hdb]
                exact Table.find?_delete_key (fun _ => rfl) k
              rw [hfind']
              split
              · rfl
              · rfl
            nodes := by
              show db₁.nodes = _
              rw [hdb]
              rfl
            states := by
              show db₁.nodeStates = _
              rw [hdb]
              rfl
            uninstalls := by
              show db₁.nodeUninstallJobs = _
              rw [hdb]
              rfl
            issued := by
              show s.store.issuedIDs ⊆ db₁.issuedIDs
              rw [hdb]
              exact List.Subset.refl _
            tasks := by
              show TasksKept s.store db₁
              rw [hdb]
              exact (sameTables_setTask s.store _ _ _ _).tasks }
        · show s.newRows db₁ ++ s.saved = s.saved
          rw [newRows_eq_nil (by rw [hdb]; rfl), List.nil_append]
        · show Store.Settles [] s.store db₁
          rw [hdb]
          refine Store.Settles.setTask ?_ hno
          exact (Store.Settles.refl s.store).congr rfl rfl rfl

end Deleting

end SimpleCdn.Deployment
