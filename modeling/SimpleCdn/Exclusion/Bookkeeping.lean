import SimpleCdn.Exclusion.System
import SimpleCdn.Upgrading.Tasks

/-!
# What operations do to claims on nodes

`Bookkept T` says what an operation may do to targets, tasks and deletion jobs: only the tasks of
`T` get new targets, and only on nodes without an active upgrade; a task is taken up only while it
has no pending target; a deletion goes back to its first phase only while its task has no target.
`Effect T` adds that upgrades and uninstalls only end.
-/

namespace SimpleCdn.Exclusion

open Store

/-- The task has no target, or none that is pending. -/
def NoTargets (db : Store) (taskID : String) : Prop :=
  ∀ row ∈ db.publishTaskNodes, row.taskID ≠ taskID

def NoPending (db : Store) (taskID : String) : Prop :=
  ∀ row ∈ db.publishTaskNodes, row.taskID = taskID → row.status ≠ .pending

def TaskOf (db : Store) (kind : TaskKind) (taskID : String) : Prop :=
  ∃ task ∈ db.deploymentTasks, task.id = taskID ∧ task.kind = kind

/-- The target was there, and has not become pending. -/
structure TargetKept (row row' : PublishTaskNodeRow) : Prop where
  taskID : row.taskID = row'.taskID
  nodeID : row.nodeID = row'.nodeID
  pending : row'.status = .pending → row.status = .pending

/-- The task was there, and is taken up only without a pending target. -/
structure TaskKept (db : Store) (task task' : DeploymentTask) : Prop where
  id : task.id = task'.id
  kind : task.kind = task'.kind
  active : task'.status.active = true → task.status.active = true ∨ NoPending db task.id

/-- Targets are those there were, settled or as they were, and new ones of the tasks of `T`. -/
def TargetsKept (T : List String) (db db' : Store) : Prop :=
  ∀ row' ∈ db'.publishTaskNodes, (∃ row ∈ db.publishTaskNodes, TargetKept row row') ∨
    (row'.taskID ∈ T ∧ db.hasActiveNodeUpgrade row'.nodeID = false)

structure TasksKept (db db' : Store) : Prop where
  moves : ∀ task' ∈ db'.deploymentTasks, (∃ task ∈ db.deploymentTasks, TaskKept db task task') ∨
    (task'.id ∈ db'.issuedIDs ∧ task'.id ∉ db.issuedIDs)
  kept : ∀ task ∈ db.deploymentTasks,
    ∃ task' ∈ db'.deploymentTasks, task'.id = task.id ∧ task'.kind = task.kind

/-- The job was there, and its task is not one of `T` if it is in its first phase. -/
structure JobKept (T : List String) (db : Store) (job job' : SiteDeletionJob) : Prop where
  taskID : job.taskID = job'.taskID
  withdrawing : job'.phase = .withdrawingDNS → job'.taskID ∉ T ∧
    (job.phase = .withdrawingDNS ∨ NoTargets db job'.taskID)

/-- Jobs are those there were, and new ones with a new task. -/
def JobsKept (T : List String) (db db' : Store) : Prop :=
  ∀ job' ∈ db'.siteDeletionJobs, (∃ job ∈ db.siteDeletionJobs, JobKept T db job job') ∨
    (TaskOf db' .deleteSite job'.taskID ∧ job'.taskID ∉ db.issuedIDs ∧ job'.taskID ∉ T)

structure Bookkept (T : List String) (db db' : Store) : Prop where
  rows : TargetsKept T db db'
  tasks : TasksKept db db'
  jobs : JobsKept T db db'
  issued : db.issuedIDs ⊆ db'.issuedIDs

structure Effect (T : List String) (db db' : Store) : Prop extends Bookkept T db db' where
  upgrades : ∀ n, db'.hasActiveNodeUpgrade n = true → db.hasActiveNodeUpgrade n = true
  uninstalls : ∀ n, db'.hasActiveNodeUninstall n = true → db.hasActiveNodeUninstall n = true

section

variable {T : List String} {db db' : Store} {taskID siteID nodeID detail : String} {now : Time}

/-! ### Tables that stay -/

theorem TargetKept.refl (row : PublishTaskNodeRow) : TargetKept row row :=
  ⟨rfl, rfl, id⟩

theorem TaskKept.refl (db : Store) (task : DeploymentTask) : TaskKept db task task :=
  ⟨rfl, rfl, .inl⟩

theorem TargetsKept.of_eq (h : db'.publishTaskNodes = db.publishTaskNodes) :
    TargetsKept T db db' := by
  intro row' hrow'
  rw [h] at hrow'
  exact .inl ⟨row', hrow', .refl row'⟩

theorem TasksKept.of_eq (h : db'.deploymentTasks = db.deploymentTasks) : TasksKept db db' := by
  constructor
  · intro task htask
    rw [h] at htask
    exact .inl ⟨task, htask, .refl db task⟩
  · intro task htask
    rw [h]
    exact ⟨task, htask, rfl, rfl⟩

theorem JobsKept.of_eq (h : db'.siteDeletionJobs = db.siteDeletionJobs) : JobsKept [] db db' := by
  intro job hjob
  rw [h] at hjob
  exact .inl ⟨job, hjob, rfl, fun hphase => ⟨List.not_mem_nil, .inl hphase⟩⟩

theorem Bookkept.of_eq (hrows : db'.publishTaskNodes = db.publishTaskNodes)
    (htasks : db'.deploymentTasks = db.deploymentTasks)
    (hjobs : db'.siteDeletionJobs = db.siteDeletionJobs) (hissued : db.issuedIDs ⊆ db'.issuedIDs) :
    Bookkept [] db db' :=
  ⟨.of_eq hrows, .of_eq htasks, .of_eq hjobs, hissued⟩

theorem Bookkept.effect (h : Bookkept T db db')
    (hupgrades : db'.nodeUpgradeTasks = db.nodeUpgradeTasks)
    (huninstalls : db'.nodeUninstallJobs = db.nodeUninstallJobs) : Effect T db db' where
  toBookkept := h
  upgrades := by
    intro n
    rw [hasActiveNodeUpgrade, hasActiveNodeUpgrade, hupgrades]
    exact id
  uninstalls := by
    intro n
    rw [hasActiveNodeUninstall, hasActiveNodeUninstall, huninstalls]
    exact id

theorem Effect.of_eq (hrows : db'.publishTaskNodes = db.publishTaskNodes)
    (htasks : db'.deploymentTasks = db.deploymentTasks)
    (hjobs : db'.siteDeletionJobs = db.siteDeletionJobs) (hissued : db.issuedIDs ⊆ db'.issuedIDs)
    (hupgrades : db'.nodeUpgradeTasks = db.nodeUpgradeTasks)
    (huninstalls : db'.nodeUninstallJobs = db.nodeUninstallJobs) : Effect [] db db' :=
  (Bookkept.of_eq hrows htasks hjobs hissued).effect hupgrades huninstalls

theorem Effect.refl (db : Store) : Effect [] db db :=
  .of_eq rfl rfl rfl (List.Subset.refl _) rfl rfl

/-! ### Targets -/

/-- The statements that settle pending targets. -/
theorem settle_effect {p : PublishTaskNodeRow → Bool} {f : PublishTaskNodeRow → PublishTaskNodeRow}
    (hf : ∀ row, key (f row) = key row) (hpending : ∀ row, (f row).status ≠ .pending) :
    Effect [] db { db with publishTaskNodes := db.publishTaskNodes.update p f hf } := by
  refine Bookkept.effect ⟨fun row' hrow' => .inl ?_, .of_eq rfl, .of_eq rfl, List.Subset.refl _⟩
    rfl rfl
  obtain ⟨row, hrow, rfl⟩ := List.mem_map.mp hrow'
  refine ⟨row, hrow, ?_⟩
  split
  · have hkey := hf row
    simp only [key_publishTaskNodeRow, Prod.mk.injEq] at hkey
    exact ⟨hkey.1.symm, hkey.2.symm, fun hstill => absurd hstill (hpending row)⟩
  · exact .refl row

theorem confirmApplied_effect (db : Store) (taskID : String) (now : Time) :
    Effect [] db (db.confirmApplied taskID now) :=
  settle_effect (by intro _; rfl) fun _ => nofun

theorem timeOutPending_effect (db : Store) (taskID detail : String) :
    Effect [] db (db.timeOutPending taskID detail) :=
  settle_effect (by intro _; rfl) fun _ => nofun

theorem recordPublishApply_effect {report : ApplyReport}
    (h : db.recordPublishApply nodeID report now = .ok db') : Effect [] db db' := by
  simp only [recordPublishApply, bind_eq_ok, pure_eq_ok] at h
  obtain ⟨-, -, rfl⟩ := h
  refine settle_effect (by intro _; rfl) fun row => ?_
  show reportedStatus report.status ≠ .pending
  cases report.status with
  | succeeded => rintro ⟨⟩
  | failed => rintro ⟨⟩

/-! ### Tasks -/

/-- Fields of the tasks that a condition selects are set; they are taken up only without a pending
target. -/
theorem TasksKept.of_update {p : DeploymentTask → Bool} {f : DeploymentTask → DeploymentTask}
    (hf : ∀ task, key (f task) = key task)
    (htasks : db'.deploymentTasks = db.deploymentTasks.update p f hf)
    (h : ∀ task ∈ db.deploymentTasks, p task = true → TaskKept db task (f task)) :
    TasksKept db db' := by
  constructor
  · intro task' htask'
    rw [htasks] at htask'
    obtain ⟨task, htask, rfl⟩ := List.mem_map.mp htask'
    refine .inl ⟨task, htask, ?_⟩
    split
    · next hp => exact h task htask hp
    · exact .refl db task
  · intro task htask
    rw [htasks]
    refine ⟨_, List.mem_map_of_mem htask, ?_⟩
    split
    · next hp => exact ⟨(h task htask hp).id.symm, (h task htask hp).kind.symm⟩
    · exact ⟨rfl, rfl⟩

theorem TasksKept.of_setTask {status : TaskStatus} (h : status.active = true → NoPending db taskID)
    (htasks : db'.deploymentTasks = (db.setTask taskID status detail now).deploymentTasks) :
    TasksKept db db' := by
  refine .of_update (by intro _; rfl) htasks fun task _ hid => ?_
  refine ⟨rfl, rfl, fun hactive => .inr ?_⟩
  rw [of_decide_eq_true hid]
  exact h hactive

theorem setTask_effect {status : TaskStatus} (h : status.active = true → NoPending db taskID) :
    Effect [] db (db.setTask taskID status detail now) :=
  Bookkept.effect ⟨.of_eq rfl, .of_setTask h rfl, .of_eq rfl, List.Subset.refl _⟩ rfl rfl

theorem updateTask_effect {status : TaskStatus} (h : status.active = true → NoPending db taskID)
    (hupdate : db.updateTask taskID status detail now = .ok db') : Effect [] db db' := by
  rw [updateTask_eq_ok hupdate]
  exact setTask_effect h

theorem insertTask_effect {task : DeploymentTask} (h : db.insertTask task = .ok db') :
    Effect [] db db' := by
  obtain ⟨hfresh, tasks, hinsert, rfl⟩ := insertTask_eq_ok h
  refine Bookkept.effect ⟨.of_eq rfl, ⟨fun task' htask' => ?_, fun task' htask' => ?_⟩,
    .of_eq rfl, List.subset_cons_self _ _⟩ rfl rfl
  · rcases (Table.mem_of_insert? hinsert).mp htask' with hold | rfl
    · exact .inl ⟨task', hold, .refl db task'⟩
    · exact .inr ⟨List.mem_cons_self, hfresh⟩
  · exact ⟨task', (Table.mem_of_insert? hinsert).mpr (.inl htask'), rfl, rfl⟩

/-- The task of a publish call is new, or nothing has changed. -/
theorem createPublishTask_effect {task : DeploymentTask} {created : Bool} {deadline : Time}
    (h : db.createPublishTask siteID taskID deadline now = .ok (task, created, db')) :
    Effect [] db db' ∧ (created = true → task.id ∉ db.issuedIDs ∧ TaskOf db' .publishSite task.id) := by
  unfold createPublishTask at h
  split at h
  · simp only [pure_eq_ok, Prod.mk.injEq] at h
    obtain ⟨-, rfl, rfl⟩ := h
    exact ⟨.refl db, (by rintro ⟨⟩)⟩
  · simp only [bind_eq_ok, pure_eq_ok, Prod.mk.injEq] at h
    obtain ⟨db₁, hinsert, rfl, rfl, rfl⟩ := h
    refine ⟨insertTask_effect hinsert, fun _ => ?_⟩
    obtain ⟨hfresh, tasks, hnew, rfl⟩ := insertTask_eq_ok hinsert
    exact ⟨hfresh, _, (Table.mem_of_insert? hnew).mpr (.inr rfl), rfl, rfl⟩

theorem certificateTask_effect {kind : TaskKind} {task : DeploymentTask} {created : Bool}
    (h : db.createOrGetActiveCertificateTask kind siteID taskID detail now =
      .ok (task, created, db')) : Effect [] db db' := by
  simp only [createOrGetActiveCertificateTask, bind_eq_ok, require_eq_ok, exists_const] at h
  obtain ⟨-, -, site, -, -, h⟩ := h
  split at h
  · simp only [pure_eq_ok, Prod.mk.injEq] at h
    obtain ⟨-, -, rfl⟩ := h
    exact .refl db
  · simp only [bind_eq_ok, pure_eq_ok, Prod.mk.injEq] at h
    obtain ⟨db₁, hinsert, -, -, rfl⟩ := h
    exact insertTask_effect hinsert

theorem failActiveCertificateTasks_effect (db : Store) (detail : String) (now : Time) :
    Effect [] db (db.failActiveCertificateTasks detail now) :=
  Bookkept.effect ⟨.of_eq rfl, .of_update (by intro _; rfl) rfl fun _ _ _ => ⟨rfl, rfl, nofun⟩,
    .of_eq rfl, List.Subset.refl _⟩ rfl rfl

/-- A statement of a reconciliation settles targets or ends a task. -/
theorem execute_effect {deadline : Option Time} {statement : Reconciling.Statement}
    {next : Option Reconciling.Statement}
    (h : Reconciling.execute db taskID deadline now statement = .ok (db', next)) :
    Effect [] db db' := by
  cases statement with
  | confirm =>
    obtain ⟨rfl, -⟩ := Prod.mk.inj (Except.ok.inj h)
    exact confirmApplied_effect db taskID now
  | count =>
    obtain ⟨rfl, -⟩ := Prod.mk.inj (Except.ok.inj h)
    exact .refl db
  | timeOut counts =>
    obtain ⟨rfl, -⟩ := Prod.mk.inj (Except.ok.inj h)
    exact timeOutPending_effect db taskID _
  | write counts =>
    obtain ⟨rfl, -⟩ := Reconciling.execute_write_eq_ok h
    refine setTask_effect fun hactive => ?_
    rw [(publishOutcome_spec counts).1] at hactive
    cases hactive
  | fail =>
    obtain ⟨rfl, -⟩ := Reconciling.execute_fail_eq_ok h
    exact setTask_effect nofun

/-! ### Deletions -/

/-- The jobs of one task are set to a phase; the first one only without a target. -/
theorem JobsKept.of_phase {phase : SiteDeletionPhase}
    (hjobs : db'.siteDeletionJobs = db.siteDeletionJobs.update (fun job => job.taskID = taskID)
      (fun job => { job with phase := phase, updatedAt := now }))
    (hphase : phase = .withdrawingDNS → NoTargets db taskID ∧ T = [])
    (hother : ∀ job ∈ db.siteDeletionJobs, job.phase = .withdrawingDNS → job.taskID ≠ taskID →
      job.taskID ∉ T) : JobsKept T db db' := by
  intro job' hjob'
  rw [hjobs] at hjob'
  obtain ⟨job, hjob, rfl⟩ := List.mem_map.mp hjob'
  refine .inl ⟨job, hjob, ?_⟩
  split
  · next hid =>
    have htask : job.taskID = taskID := of_decide_eq_true hid
    refine ⟨rfl, fun hfirst => ?_⟩
    obtain ⟨htargets, rfl⟩ := hphase hfirst
    exact ⟨List.not_mem_nil, .inr (htask ▸ htargets)⟩
  · next hid =>
    have htask : job.taskID ≠ taskID := fun heq => hid (decide_eq_true heq)
    exact ⟨rfl, fun hfirst => ⟨hother job hjob hfirst htask, .inl hfirst⟩⟩

theorem setSiteDeletionPhase_effect {phase : SiteDeletionPhase} {status : TaskStatus}
    (hphase : phase = .withdrawingDNS → NoTargets db taskID)
    (hstatus : status.active = true → NoPending db taskID)
    (h : db.setSiteDeletionPhase taskID phase status detail now = .ok db') : Effect [] db db' := by
  obtain ⟨-, rfl⟩ := setSiteDeletionPhase_eq_ok h
  exact Bookkept.effect ⟨.of_eq rfl, .of_setTask hstatus rfl,
    .of_phase rfl (fun hfirst => ⟨hphase hfirst, rfl⟩) fun _ _ _ _ => List.not_mem_nil,
    List.Subset.refl _⟩ rfl rfl

/-- A deletion that begins has a new task; one under way is returned. -/
theorem beginSiteDeletion_effect {task : DeploymentTask} {created : Bool} {actor remoteAddr : String}
    {deadline : Time} (h : db.beginSiteDeletion siteID taskID actor remoteAddr deadline now =
      .ok (task, created, db')) : Effect [] db db' ∧ TaskOf db' .deleteSite task.id := by
  obtain ⟨-, ⟨-, hactive, rfl⟩ | ⟨-, -, -, htask, tasks, hinsert, hfresh, rfl⟩⟩ :=
    beginSiteDeletion_eq_ok h
  · refine ⟨.refl db', task, List.mem_of_find?_eq_some hactive, rfl, ?_⟩
    have hfound := List.find?_some hactive
    simp only [Bool.and_eq_true, decide_eq_true_eq] at hfound
    exact hfound.1.2
  · have hmem := fun row => Table.mem_of_insert? (x := row) hinsert
    have hid : task.id = taskID := by rw [htask]
    have hkind : task.kind = .deleteSite := by rw [htask]
    have hin : task ∈ tasks := (hmem task).mpr (.inr rfl)
    refine ⟨Bookkept.effect ⟨.of_eq rfl, ⟨fun task' htask' => ?_, fun task' htask' => ?_⟩,
      fun job' hjob' => ?_, List.subset_cons_self _ _⟩ rfl rfl, task, hin, rfl, hkind⟩
    · rcases (hmem task').mp htask' with hold | rfl
      · exact .inl ⟨task', hold, .refl db task'⟩
      · refine .inr ⟨?_, ?_⟩
        · rw [hid]
          exact List.mem_cons_self
        · rw [hid]
          exact hfresh
    · exact ⟨task', (hmem task').mpr (.inl htask'), rfl, rfl⟩
    · rcases Table.mem_upsert.mp hjob' with rfl | ⟨hold, -⟩
      · exact .inr ⟨⟨task, hin, hid, hkind⟩, hfresh, List.not_mem_nil⟩
      · exact .inl ⟨job', hold, rfl, fun hphase => ⟨List.not_mem_nil, .inl hphase⟩⟩

theorem completeSiteDeletion_effect (h : db.completeSiteDeletion taskID now = .ok db') :
    Effect [] db db' := by
  obtain ⟨job, site, detail, -, -, rfl⟩ := completeSiteDeletion_eq_ok h
  refine Bookkept.effect ⟨.of_eq rfl, .of_setTask (fun hactive => by cases hactive) rfl, fun job' hjob' => ?_,
    List.Subset.refl _⟩ rfl rfl
  have hold := (Table.mem_delete.mp hjob').1
  exact .inl ⟨job', hold, rfl, fun hphase => ⟨List.not_mem_nil, .inl hphase⟩⟩

/-! ### New targets -/

theorem ensureNodesNotUpgrading_eq_ok {nodeIDs : List String}
    (h : db.ensureNodesNotUpgrading nodeIDs = .ok ()) :
    ∀ n ∈ nodeIDs, n ≠ "" → db.hasActiveNodeUpgrade n = false := by
  induction nodeIDs with
  | nil => exact fun n hn => absurd hn List.not_mem_nil
  | cons nodeID nodeIDs ih =>
    simp only [ensureNodesNotUpgrading, bind_eq_ok, require_eq_ok, exists_const] at h
    obtain ⟨hhead, hrest⟩ := h
    intro n hn hne
    rcases List.mem_cons.mp hn with rfl | hn
    · exact hhead.resolve_left hne
    · exact ih hrest n hn hne

/-- A target that is created names a node. -/
theorem createPublishTaskNodes_named {targets : List PublishTaskNode}
    (h : createPublishTaskNodes taskID targets db = .ok db') :
    ∀ target ∈ targets, target.nodeID ≠ "" := by
  induction targets generalizing db with
  | nil => exact fun target htarget => absurd htarget List.not_mem_nil
  | cons target targets ih =>
    simp only [createPublishTaskNodes, bind_eq_ok, require_eq_ok, orError_eq_ok,
      exists_const] at h
    obtain ⟨-, hvalid, _, -, _, -, rows, -, hrest⟩ := h
    intro target' htarget'
    rcases List.mem_cons.mp htarget' with rfl | htarget'
    · exact hvalid.1
    · exact ih hrest target' htarget'

/-- New targets are on nodes that have been checked. -/
theorem TargetsKept.of_created {updates : List NodeStateUpdate} {targets : List PublishTaskNode}
    {db₁ : Store} (hchecked : db.ensureNodesNotUpgrading (upgradedNodeIDs updates targets) = .ok ())
    (hcreated : createPublishTaskNodes taskID targets db = .ok db₁)
    (hrows : db'.publishTaskNodes = db₁.publishTaskNodes) : TargetsKept [taskID] db db' := by
  obtain ⟨rows, rfl, hmem⟩ := createPublishTaskNodes_eq_ok hcreated
  intro row' hrow'
  rw [hrows] at hrow'
  rcases (hmem row').mp hrow' with hold | ⟨target, htarget, rfl⟩
  · exact .inl ⟨row', hold, .refl row'⟩
  · refine .inr ⟨List.mem_singleton_self _, ?_⟩
    refine ensureNodesNotUpgrading_eq_ok hchecked _ ?_
      (createPublishTaskNodes_named hcreated target htarget)
    exact List.mem_append_right _ (List.mem_map_of_mem htarget)

theorem commitSitePublication_effect {expectedConfigVersion : Nat} {updates : List NodeStateUpdate}
    {targets : List PublishTaskNode} {site : Site}
    (hjobs : ∀ job ∈ db.siteDeletionJobs, job.taskID ≠ taskID)
    (h : db.commitSitePublication siteID expectedConfigVersion taskID updates targets now =
      .ok (site, db')) : Effect [taskID] db db' := by
  simp only [commitSitePublication, bind_eq_ok, require_eq_ok, pure_eq_ok, exists_const,
    Prod.mk.injEq] at h
  obtain ⟨row, -, -, -, ⟨⟩, hchecked, db₁, hcreated, db₂, hstates, db₃, hclaims, -, rfl⟩ := h
  obtain ⟨states, rfl⟩ := saveNodeStates_eq_ok hstates
  obtain ⟨claims, rfl⟩ := replaceSiteDomainClaims_eq_ok hclaims
  obtain ⟨rows, hrows, -⟩ := createPublishTaskNodes_eq_ok hcreated
  refine Bookkept.effect ⟨.of_created hchecked hcreated rfl, ?_, ?_, ?_⟩ ?_ ?_
  · exact .of_eq (by rw [hrows]; rfl)
  · intro job hjob
    rw [hrows] at hjob
    refine .inl ⟨job, hjob, rfl, fun hphase => ⟨?_, .inl hphase⟩⟩
    rw [List.mem_singleton]
    exact hjobs job hjob
  · rw [hrows]
    exact List.Subset.refl _
  · rw [hrows]
    rfl
  · rw [hrows]
    rfl

theorem stageSiteDeletion_effect {updates : List NodeStateUpdate} {targets : List PublishTaskNode}
    (hfirst : NoTargets db taskID)
    (h : db.stageSiteDeletion taskID updates targets now = .ok db') : Effect [taskID] db db' := by
  simp only [stageSiteDeletion, bind_eq_ok] at h
  obtain ⟨⟨⟩, hchecked, db₁, hcreated, db₂, hstates, hphase⟩ := h
  obtain ⟨states, rfl⟩ := saveNodeStates_eq_ok hstates
  obtain ⟨-, rfl⟩ := setSiteDeletionPhase_eq_ok hphase
  have htargets : TargetsKept [taskID] db db₁ := .of_created hchecked hcreated rfl
  obtain ⟨rows, hrows, -⟩ := createPublishTaskNodes_eq_ok hcreated
  subst hrows
  refine Bookkept.effect ⟨htargets, .of_setTask (fun _ => ?_) rfl, .of_phase rfl nofun ?_,
    List.Subset.refl _⟩ rfl rfl
  · intro row hrow hid
    exact absurd hid (hfirst row hrow)
  · intro job _ _ hne
    rw [List.mem_singleton]
    exact hne

/-! ### Upgrades and uninstalls -/

theorem upgrades_of_kept (h : UpgradesKept db db') (n : String)
    (hn : db'.hasActiveNodeUpgrade n = true) : db.hasActiveNodeUpgrade n = true := by
  obtain ⟨task', htask', hactive⟩ := Table.any_eq_true.mp hn
  simp only [Bool.and_eq_true, decide_eq_true_eq] at hactive
  obtain ⟨task, htask, hkept⟩ := h.rows task' htask'
  refine Table.any_eq_true.mpr ⟨task, htask, ?_⟩
  simp only [Bool.and_eq_true, decide_eq_true_eq]
  exact ⟨hkept.nodeID.symm.trans hactive.1, hkept.active hactive.2⟩

/-- An operation on upgrade tasks that takes none up. -/
theorem upgrades_effect (hkept : UpgradesKept db db')
    (hrows : db'.publishTaskNodes = db.publishTaskNodes)
    (htasks : db'.deploymentTasks = db.deploymentTasks)
    (hjobs : db'.siteDeletionJobs = db.siteDeletionJobs) (hissued : db'.issuedIDs = db.issuedIDs)
    (huninstalls : db'.nodeUninstallJobs = db.nodeUninstallJobs) : Effect [] db db' where
  toBookkept := .of_eq hrows htasks hjobs (by rw [hissued]; exact List.Subset.refl _)
  upgrades := upgrades_of_kept hkept
  uninstalls := by
    intro n
    rw [hasActiveNodeUninstall, hasActiveNodeUninstall, huninstalls]
    exact id

theorem recordNodeUpgradeReport_effect {report : NodeUpgradeReport}
    (h : db.recordNodeUpgradeReport nodeID report now = .ok db') : Effect [] db db' := by
  obtain ⟨tasks, rfl, hrows⟩ := recordNodeUpgradeReport_rows h
  exact upgrades_effect (.of_rows hrows) rfl rfl rfl rfl rfl

theorem reconcileNodeUpgrades_effect (db : Store) (now : Time) :
    Effect [] db (db.reconcileNodeUpgrades now) :=
  upgrades_effect (.of_rows (reconcileNodeUpgrades_rows db now)) rfl rfl rfl rfl rfl

theorem failActiveNodeUpgrade_effect (db : Store) (nodeID code detail : String) (now : Time) :
    Effect [] db (db.failActiveNodeUpgrade nodeID code detail now) :=
  upgrades_effect (.of_rows (.update (by intro _; rfl) fun _ _ _ => ⟨rfl, rfl, rfl, rfl, nofun⟩))
    rfl rfl rfl rfl rfl

/-- A step of a workflow opens none. -/
theorem uninstalls_of_update {f : NodeUninstallJob → NodeUninstallJob}
    (hf : ∀ job, key (f job) = key job)
    (hjobs : db'.nodeUninstallJobs = (db.updateUninstallJob nodeID f hf).nodeUninstallJobs)
    (h : ∀ job ∈ db.nodeUninstallJobs, job.nodeID = nodeID →
      (f job).status.blocksStatus = true → job.status.blocksStatus = true) (n : String)
    (hn : db'.hasActiveNodeUninstall n = true) : db.hasActiveNodeUninstall n = true := by
  rw [hasActiveNodeUninstall, hjobs] at hn
  obtain ⟨job', hjob', hactive⟩ := Table.any_eq_true.mp hn
  obtain ⟨job, hjob, rfl⟩ := List.mem_map.mp hjob'
  refine Table.any_eq_true.mpr ⟨job, hjob, ?_⟩
  simp only [Bool.and_eq_true, decide_eq_true_eq] at hactive ⊢
  split at hactive
  · next hid =>
    have hsame : (f job).nodeID = job.nodeID := hf job
    rw [hsame] at hactive
    exact ⟨hactive.1, h job hjob hid hactive.2⟩
  · exact hactive

theorem workflow_effect {f : NodeUninstallJob → NodeUninstallJob}
    (hf : ∀ job, key (f job) = key job)
    (hjobs : db'.nodeUninstallJobs = (db.updateUninstallJob nodeID f hf).nodeUninstallJobs)
    (h : ∀ job ∈ db.nodeUninstallJobs, job.nodeID = nodeID →
      (f job).status.blocksStatus = true → job.status.blocksStatus = true)
    (hupgrades : db'.nodeUpgradeTasks = db.nodeUpgradeTasks)
    (hrows : db'.publishTaskNodes = db.publishTaskNodes)
    (htasks : db'.deploymentTasks = db.deploymentTasks)
    (hdeletions : db'.siteDeletionJobs = db.siteDeletionJobs)
    (hissued : db'.issuedIDs = db.issuedIDs) : Effect [] db db' where
  toBookkept := .of_eq hrows htasks hdeletions (by rw [hissued]; exact List.Subset.refl _)
  upgrades := by
    intro n
    rw [hasActiveNodeUpgrade, hasActiveNodeUpgrade, hupgrades]
    exact id
  uninstalls := uninstalls_of_update hf hjobs h

/-- The workflow that a token belongs to is the node's. -/
theorem workflow_of_token {token : String} {job row : NodeUninstallJob}
    (h : db.uninstallJobByToken token now = .ok job) (hrow : row ∈ db.nodeUninstallJobs)
    (hn : row.nodeID = job.nodeID) : row = job := by
  simp only [uninstallJobByToken, bind_eq_ok, require_eq_ok, orError_eq_ok, pure_eq_ok,
    exists_const] at h
  obtain ⟨-, found, hfound, -, rfl⟩ := h
  exact Table.eq_of_key_eq hrow (List.mem_of_find?_eq_some hfound) hn

theorem startNodeUninstall_effect {token : String}
    (h : db.startNodeUninstall token now = .ok db') : Effect [] db db' := by
  simp only [startNodeUninstall, bind_eq_ok] at h
  obtain ⟨job, hjob, h⟩ := h
  have hblocks : job.status.blocksStatus = true → ∀ row ∈ db.nodeUninstallJobs,
      row.nodeID = job.nodeID → row.status.blocksStatus = true := by
    intro hopen row hrow hn
    rw [workflow_of_token hjob hrow hn]
    exact hopen
  split at h
  · rw [← pure_eq_ok.mp h]
    exact .refl db
  · rw [← pure_eq_ok.mp h]
    exact workflow_effect (by intro _; rfl) rfl (fun _ _ _ hopen => hopen) rfl rfl rfl rfl rfl
  · next hstatus =>
    rw [← pure_eq_ok.mp h]
    exact workflow_effect (by intro _; rfl) rfl
      (fun row hrow hn _ => hblocks (by rw [hstatus]; rfl) row hrow hn) rfl rfl rfl rfl rfl
  · next hstatus =>
    rw [← pure_eq_ok.mp h]
    exact workflow_effect (by intro _; rfl) rfl
      (fun row hrow hn _ => hblocks (by rw [hstatus]; rfl) row hrow hn) rfl rfl rfl rfl rfl
  · next hstatus =>
    rw [← pure_eq_ok.mp h]
    exact workflow_effect (by intro _; rfl) rfl
      (fun row hrow hn _ => hblocks (by rw [hstatus]; rfl) row hrow hn) rfl rfl rfl rfl rfl
  · cases h

theorem failNodeUninstall_effect {token : String}
    (h : db.failNodeUninstall token detail now = .ok db') : Effect [] db db' := by
  simp only [failNodeUninstall, bind_eq_ok] at h
  obtain ⟨job, hjob, h⟩ := h
  have hblocks : job.status.blocksStatus = true → ∀ row ∈ db.nodeUninstallJobs,
      row.nodeID = job.nodeID → row.status.blocksStatus = true := by
    intro hopen row hrow hn
    rw [workflow_of_token hjob hrow hn]
    exact hopen
  split at h
  · rw [← pure_eq_ok.mp h]
    exact .refl db
  · rw [← pure_eq_ok.mp h]
    exact .refl db
  · next hstatus =>
    rw [← pure_eq_ok.mp h]
    exact workflow_effect (by intro _; rfl) rfl
      (fun row hrow hn _ => hblocks (by rw [hstatus]; rfl) row hrow hn) rfl rfl rfl rfl rfl
  · next hstatus =>
    rw [← pure_eq_ok.mp h]
    exact workflow_effect (by intro _; rfl) rfl
      (fun row hrow hn _ => hblocks (by rw [hstatus]; rfl) row hrow hn) rfl rfl rfl rfl rfl
  · cases h

theorem finishNodeUninstall_effect {status : NodeUninstallJobStatus} {forced : Bool}
    (hover : status.blocksStatus = false) :
    Effect [] db (db.finishNodeUninstall nodeID status forced detail now) := by
  refine workflow_effect (by intro _; rfl) rfl (fun _ _ _ hopen => ?_) rfl rfl rfl rfl rfl
  have hclosed : status.blocksStatus = true := hopen
  rw [hover] at hclosed
  cases hclosed

theorem completeNodeUninstall_effect {token : String}
    (h : db.completeNodeUninstall token now = .ok db') : Effect [] db db' := by
  simp only [completeNodeUninstall, bind_eq_ok] at h
  obtain ⟨job, -, h⟩ := h
  split at h
  · rw [← pure_eq_ok.mp h]
    exact .refl db
  · simp only [bind_eq_ok, pure_eq_ok] at h
    obtain ⟨-, -, rfl⟩ := h
    exact finishNodeUninstall_effect rfl
  · rw [← pure_eq_ok.mp h]
    exact finishNodeUninstall_effect rfl
  · cases h

theorem setNodeStatus_effect {status : NodeStatus}
    (h : db.setNodeStatus nodeID status now = .ok db') : Effect [] db db' := by
  have hupgrades := setNodeStatus_upgrades h
  simp only [setNodeStatus, bind_eq_ok, require_eq_ok, exists_const] at h
  obtain ⟨-, -, -, -, -, h⟩ := h
  split at h
  · obtain rfl := pure_eq_ok.mp h
    refine ⟨.of_eq rfl rfl rfl (List.Subset.refl _), upgrades_of_kept hupgrades, fun n hn => ?_⟩
    -- the workflow comes back to another status, and stays open
    obtain ⟨job', hjob', hactive⟩ := Table.any_eq_true.mp hn
    obtain ⟨job, hjob, rfl⟩ := List.mem_map.mp hjob'
    refine Table.any_eq_true.mpr ⟨job, hjob, ?_⟩
    split at hactive
    · exact hactive
    · exact hactive
  · obtain rfl := pure_eq_ok.mp h
    exact .of_eq rfl rfl rfl (List.Subset.refl _) rfl rfl

theorem deleteNode_effect (h : db.deleteNode nodeID = .ok db') : Effect [] db db' := by
  have hupgrades := deleteNode_upgrades h
  simp only [deleteNode, bind_eq_ok, require_eq_ok, pure_eq_ok, exists_const] at h
  obtain ⟨-, -, -, -, rfl⟩ := h
  refine ⟨⟨fun row hrow => ?_, .of_eq rfl, .of_eq rfl, List.Subset.refl _⟩,
    upgrades_of_kept hupgrades, fun n hn => ?_⟩
  · exact .inl ⟨row, (Table.mem_delete.mp hrow).1, .refl row⟩
  · obtain ⟨job, hjob, hactive⟩ := Table.any_eq_true.mp hn
    exact Table.any_eq_true.mpr ⟨job, (Table.mem_delete.mp hjob).1, hactive⟩

/-- Preparing an uninstall opens a workflow. -/
def prepares : NodeOp → Bool
  | .prepareUninstall .. => true
  | _ => false

theorem nodeOp_effect {op : NodeOp} (hheartbeat : isHeartbeat op = false)
    (hprepares : prepares op = false) (h : op.apply db now = .ok db') : Effect [] db db' := by
  have hissued : db.issuedIDs ⊆ db.issuedIDs := List.Subset.refl _
  cases op with
  | createNode id name publicIPv4 =>
    obtain ⟨⟨node, db₁⟩, hcreate, rfl⟩ := map_eq_ok.mp h
    simp only [createNode, bind_eq_ok, require_eq_ok, orError_eq_ok, pure_eq_ok, exists_const,
      Prod.mk.injEq] at hcreate
    obtain ⟨-, db₂, hnew, -, nodes, -, -, rfl⟩ := hcreate
    obtain ⟨-, rfl⟩ := newID_eq_ok.mp hnew
    exact .of_eq rfl rfl rfl (List.subset_cons_self _ _) rfl rfl
  | setCacheMaxSizeGB nodeID size =>
    simp only [NodeOp.apply, setNodeCacheMaxSizeGB, bind_eq_ok, pure_eq_ok] at h
    obtain ⟨-, -, -, -, rfl⟩ := h
    exact .of_eq rfl rfl rfl hissued rfl rfl
  | setNginxCapacity nodeID capacity =>
    simp only [NodeOp.apply, setNodeNginxCapacity, bind_eq_ok, pure_eq_ok] at h
    obtain ⟨-, -, -, -, rfl⟩ := h
    exact .of_eq rfl rfl rfl hissued rfl rfl
  | setCapabilities nodeID capabilities =>
    simp only [NodeOp.apply, setNodeCapabilities, bind_eq_ok, pure_eq_ok] at h
    obtain ⟨-, -, rfl⟩ := h
    exact .of_eq rfl rfl rfl hissued rfl rfl
  | createEnrollmentToken nodeID token expiresAt =>
    simp only [NodeOp.apply, createEnrollmentToken, bind_eq_ok, pure_eq_ok] at h
    obtain ⟨-, -, -, -, -, -, tokens, -, rfl⟩ := h
    exact .of_eq rfl rfl rfl hissued rfl rfl
  | setNodeStatus nodeID status => exact setNodeStatus_effect h
  | recordMonitoringRound nodeID consecutiveAbnormal =>
    simp only [NodeOp.apply, recordMonitoringRound, bind_eq_ok, pure_eq_ok] at h
    obtain ⟨-, -, rfl⟩ := h
    exact .of_eq rfl rfl rfl hissued rfl rfl
  | heartbeat => cases hheartbeat
  | prepareUninstall => cases hprepares
  | issueUninstallToken nodeID token expiresAt =>
    simp only [NodeOp.apply, issueNodeUninstallToken, bind_eq_ok, require_eq_ok, orError_eq_ok,
      pure_eq_ok, exists_const] at h
    obtain ⟨-, job, hjob, hwaits, rfl⟩ := h
    refine workflow_effect (by intro _; rfl) rfl (fun row hrow hn _ => ?_) rfl rfl rfl rfl rfl
    have hid : job.nodeID = nodeID := Table.key_of_find? hjob
    rw [Table.eq_of_key_eq hrow (Table.mem_of_find? hjob) (hn.trans hid.symm)]
    cases hstatus : job.status with
    | preparing | ready | running | failed => rfl
    | succeeded | forced | canceled =>
      rw [hstatus] at hwaits
      cases hwaits
  | startUninstall token => exact startNodeUninstall_effect h
  | failUninstall token detail => exact failNodeUninstall_effect h
  | completeUninstall token => exact completeNodeUninstall_effect h
  | forceCompleteUninstall nodeID detail =>
    simp only [NodeOp.apply, forceCompleteNodeUninstall, bind_eq_ok, require_eq_ok, pure_eq_ok,
      exists_const] at h
    obtain ⟨-, -, -, rfl⟩ := h
    exact finishNodeUninstall_effect rfl
  | cancelUninstall nodeID =>
    simp only [NodeOp.apply, cancelNodeUninstall, bind_eq_ok, require_eq_ok, pure_eq_ok,
      exists_const] at h
    obtain ⟨-, -, -, -, rfl⟩ := h
    exact workflow_effect (by intro _; rfl) rfl (fun _ _ _ hopen => by cases hopen) rfl rfl rfl rfl
      rfl
  | deleteNode nodeID =>
    simp only [NodeOp.apply, bind_eq_ok] at h
    obtain ⟨-, -, -, -, hdelete⟩ := h
    exact deleteNode_effect hdelete

/-! ### Opening upgrades and uninstalls -/

/-- A node that an upgrade is created for is not claimed. -/
theorem createOrGetNodeUpgrade_claims {targetSHA256 : String} {deadline : Time}
    (h : db.createOrGetNodeUpgrade nodeID taskID targetSHA256 deadline now = .ok db') :
    db' = db ∨ (db.hasActiveNodeUninstall nodeID = false ∧
      db.hasActiveNodePublication nodeID = false ∧
      ∃ tasks, db' = { db with issuedIDs := taskID :: db.issuedIDs, nodeUpgradeTasks := tasks } ∧
        ∀ task ∈ tasks, task ∈ db.nodeUpgradeTasks ∨ task.nodeID = nodeID) := by
  simp only [createOrGetNodeUpgrade, bind_eq_ok, require_eq_ok, exists_const] at h
  obtain ⟨-, h⟩ := h
  split at h
  · exact .inl (pure_eq_ok.mp h).symm
  · simp only [createNodeUpgrade, bind_eq_ok, require_eq_ok, getNode_eq_ok, orError_eq_ok,
      pure_eq_ok, exists_const] at h
    obtain ⟨node, -, -, -, ⟨huninstall, hpublication⟩, db₁, hnew, tasks, hinsert, rfl⟩ := h
    obtain ⟨-, rfl⟩ := newID_eq_ok.mp hnew
    refine .inr ⟨huninstall, hpublication, tasks, rfl, fun task htask => ?_⟩
    rcases (Table.mem_of_insert? hinsert).mp htask with hold | rfl
    · exact .inl hold
    · exact .inr rfl

theorem prepareNodeUninstall_claims {affectedSiteIDs : List String} {readyAt : Time}
    (h : db.prepareNodeUninstall nodeID affectedSiteIDs readyAt now = .ok db') :
    db.hasActiveNodeUpgrade nodeID = false ∧
    ∃ jobs, db' = { db with nodeUninstallJobs := jobs } ∧
      ∀ job ∈ jobs, job ∈ db.nodeUninstallJobs ∨ job.nodeID = nodeID := by
  simp only [prepareNodeUninstall, bind_eq_ok, require_eq_ok, exists_const] at h
  obtain ⟨node, -, hupgrade, -, -, h⟩ := h
  refine ⟨hupgrade, ?_⟩
  split at h
  · rw [← pure_eq_ok.mp h]
    exact ⟨_, rfl, fun job hjob => .inl hjob⟩
  · rw [← pure_eq_ok.mp h]
    refine ⟨_, rfl, fun job hjob => ?_⟩
    rcases Table.mem_upsert.mp hjob with rfl | ⟨hold, -⟩
    · exact .inr rfl
    · exact .inl hold

end

end SimpleCdn.Exclusion
