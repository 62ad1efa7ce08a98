import SimpleCdn.Store.Nodes

/-!
# Confirmation

Targets are settled by apply reports, by the applied version of their node and by the deadline.
`TargetsSettle` says what any of these may do to the targets: a settled target keeps its status,
and a target only becomes `succeeded` when its node has applied the target version.
`PublishesSettle` says what reconciling does to the tasks: a publish task that was active may end,
and it only succeeds when all its targets have.
-/

namespace SimpleCdn.Store

/-- The node of the target has applied its version. -/
def TargetApplied (db : Store) (row : PublishTaskNodeRow) : Prop :=
  ∃ node, db.nodes.find? row.nodeID = some node ∧ row.targetVersion ≤ node.appliedVersion

/-- What may become of a target. -/
structure TargetMoves (db' : Store) (row row' : PublishTaskNodeRow) : Prop where
  version : row'.targetVersion = row.targetVersion
  status : row'.status = row.status ∨
    (row.status = .pending ∧ (row'.status = .succeeded → TargetApplied db' row'))

/-- The targets afterwards are those before, settled or as they were. -/
def TargetsSettle (db db' : Store) : Prop :=
  ∀ k row', db'.publishTaskNodes.find? k = some row' →
    ∃ row, db.publishTaskNodes.find? k = some row ∧ TargetMoves db' row row'

/-- No target is lost. -/
def TargetsKept (db db' : Store) : Prop :=
  ∀ k row, db.publishTaskNodes.find? k = some row →
    ∃ row', db'.publishTaskNodes.find? k = some row'

/-- No node is lost, and applied versions only grow. -/
def NodesAdvance (db db' : Store) : Prop :=
  ∀ n node, db.nodes.find? n = some node →
    ∃ node', db'.nodes.find? n = some node' ∧ node.appliedVersion ≤ node'.appliedVersion

/-- The task was an active publish task and has ended. -/
structure TaskEnds (db' : Store) (task task' : DeploymentTask) : Prop where
  kind : task.kind = .publishSite
  active : task.status.active = true
  ended : task'.status.active = false
  succeeded : task'.status = .succeeded → ∀ row ∈ db'.publishTaskNodes, row.taskID = task'.id →
    row.status = .succeeded

/-- What may become of a task. -/
structure TaskMoves (db' : Store) (task task' : DeploymentTask) : Prop where
  kind : task'.kind = task.kind
  siteID : task'.siteID = task.siteID
  status : task'.status = task.status ∨ TaskEnds db' task task'

structure PublishesSettle (db db' : Store) : Prop where
  move : ∀ id task', db'.deploymentTasks.find? id = some task' →
    ∃ task, db.deploymentTasks.find? id = some task ∧ TaskMoves db' task task'
  kept : ∀ id task, db.deploymentTasks.find? id = some task →
    ∃ task', db'.deploymentTasks.find? id = some task'

section

variable {db db' db'' : Store} {taskID detail : String} {now : Time}

theorem nodeID_of_find? {k : String × String} {row : PublishTaskNodeRow}
    (h : db.publishTaskNodes.find? k = some row) : row.nodeID = k.2 := by
  have hkey := Table.key_of_find? h
  rw [key_publishTaskNodeRow] at hkey
  rw [← hkey]

theorem taskID_of_find? {k : String × String} {row : PublishTaskNodeRow}
    (h : db.publishTaskNodes.find? k = some row) : row.taskID = k.1 := by
  have hkey := Table.key_of_find? h
  rw [key_publishTaskNodeRow] at hkey
  rw [← hkey]

/-! ### Targets -/

theorem TargetsSettle.of_eq (h : db'.publishTaskNodes = db.publishTaskNodes) :
    TargetsSettle db db' := by
  intro k row' hrow'
  rw [h] at hrow'
  exact ⟨row', hrow', rfl, .inl rfl⟩

theorem TargetsKept.of_eq (h : db'.publishTaskNodes = db.publishTaskNodes) :
    TargetsKept db db' := by
  intro k row hrow
  rw [← h] at hrow
  exact ⟨row, hrow⟩

theorem NodesAdvance.of_eq (h : db'.nodes = db.nodes) : NodesAdvance db db' := by
  intro n node hnode
  rw [← h] at hnode
  exact ⟨node, hnode, le_rfl⟩

theorem TargetApplied.advance {row : PublishTaskNodeRow} (h : TargetApplied db row)
    (hnodes : NodesAdvance db db') : TargetApplied db' row := by
  obtain ⟨node, hnode, hle⟩ := h
  obtain ⟨node', hnode', hle'⟩ := hnodes _ node hnode
  exact ⟨node', hnode', hle.trans hle'⟩

theorem TargetsKept.trans (h : TargetsKept db db') (h' : TargetsKept db' db'') :
    TargetsKept db db'' := by
  intro k row hrow
  obtain ⟨row', hrow'⟩ := h k row hrow
  exact h' k row' hrow'

theorem TargetMoves.trans {row row' row'' : PublishTaskNodeRow} (h : TargetMoves db' row row')
    (h' : TargetMoves db'' row' row'') (hid : row'.nodeID = row''.nodeID)
    (hnodes : NodesAdvance db' db'') : TargetMoves db'' row row'' := by
  refine ⟨h'.version.trans h.version, ?_⟩
  rcases h'.status with heq | ⟨hpending, happlied⟩
  · rcases h.status with heq' | ⟨hpending', happlied'⟩
    · exact .inl (heq.trans heq')
    · refine .inr ⟨hpending', fun hsucceeded => ?_⟩
      obtain ⟨node, hnode, hle⟩ := (happlied' (heq ▸ hsucceeded)).advance hnodes
      rw [hid] at hnode
      rw [← h'.version] at hle
      exact ⟨node, hnode, hle⟩
  · -- a target that is still pending had not been settled before
    rcases h.status with heq' | ⟨hpending', -⟩
    · exact .inr ⟨heq' ▸ hpending, happlied⟩
    · exact .inr ⟨hpending', happlied⟩

theorem TargetsSettle.trans (h : TargetsSettle db db') (h' : TargetsSettle db' db'')
    (hnodes : NodesAdvance db' db'') : TargetsSettle db db'' := by
  intro k row'' hrow''
  obtain ⟨row', hrow', hmove'⟩ := h' k row'' hrow''
  obtain ⟨row, hrow, hmove⟩ := h k row' hrow'
  have hid : row'.nodeID = row''.nodeID :=
    (nodeID_of_find? hrow').trans (nodeID_of_find? hrow'').symm
  exact ⟨row, hrow, hmove.trans hmove' hid hnodes⟩

theorem TargetsSettle.succeeded (h : TargetsSettle db db') {row' : PublishTaskNodeRow} (hrow' : row' ∈ db'.publishTaskNodes)
    (hall : ∀ row ∈ db.publishTaskNodes, row.taskID = row'.taskID → row.status = .succeeded) :
    row'.status = .succeeded := by
  obtain ⟨row, hrow, hmove⟩ := h _ row' (Table.find?_of_mem hrow')
  have hsucceeded := hall row (Table.mem_of_find? hrow) (taskID_of_find? hrow)
  rcases hmove.status with heq | ⟨hpending, -⟩
  · rw [heq, hsucceeded]
  · rw [hsucceeded] at hpending
    cases hpending

/-- Updating pending targets settles them, if those that succeed have been applied. -/
theorem settle_update {p : PublishTaskNodeRow → Bool} {f : PublishTaskNodeRow → PublishTaskNodeRow}
    (hf : ∀ row, key (f row) = key row)
    (hrows : db'.publishTaskNodes = db.publishTaskNodes.update p f hf)
    (hp : ∀ row, p row = true → row.status = .pending)
    (hversion : ∀ row, (f row).targetVersion = row.targetVersion)
    (happlied : ∀ row, p row = true → (f row).status = .succeeded → TargetApplied db' (f row)) :
    TargetsSettle db db' ∧ TargetsKept db db' := by
  constructor
  · intro k row' hrow'
    rw [hrows, Table.find?_update] at hrow'
    obtain ⟨row, hrow, rfl⟩ := Option.map_eq_some_iff.mp hrow'
    refine ⟨row, hrow, ?_⟩
    split
    · next hsel => exact ⟨hversion row, .inr ⟨hp row hsel, happlied row hsel⟩⟩
    · exact ⟨rfl, .inl rfl⟩
  · intro k row hrow
    rw [hrows, Table.find?_update, hrow]
    exact ⟨_, rfl⟩

theorem confirmApplied_settle (db : Store) (taskID : String) (now : Time) :
    TargetsSettle db (db.confirmApplied taskID now) ∧
      TargetsKept db (db.confirmApplied taskID now) := by
  refine settle_update ?_ rfl ?_ (fun _ => rfl) ?_
  · exact fun _ => rfl
  · intro row hsel
    simp only [Bool.and_eq_true, decide_eq_true_eq] at hsel
    exact hsel.1.2
  · intro row hsel _
    simp only [Bool.and_eq_true, decide_eq_true_eq] at hsel
    have hcovers := hsel.2
    unfold appliedCovers at hcovers
    split at hcovers
    · next node hnode => exact ⟨node, hnode, of_decide_eq_true hcovers⟩
    · cases hcovers

theorem timeOutPending_settle (db : Store) (taskID detail : String) :
    TargetsSettle db (db.timeOutPending taskID detail) ∧
      TargetsKept db (db.timeOutPending taskID detail) := by
  refine settle_update ?_ rfl ?_ (fun _ => rfl) ?_
  · exact fun _ => rfl
  · intro row hsel
    simp only [Bool.and_eq_true, decide_eq_true_eq] at hsel
    exact hsel.2
  · intro row _ hsucceeded
    cases hsucceeded

/-! ### Counting targets -/

theorem mem_taskNodes {row : PublishTaskNodeRow} :
    row ∈ db.taskNodes taskID ↔ row ∈ db.publishTaskNodes ∧ row.taskID = taskID := by
  simp only [taskNodes, List.mem_filter, decide_eq_true_eq, Table.mem_iff]

/-- As many succeeded as there are targets: all have. -/
theorem all_succeeded_of_counts
    (h : (db.deploymentTaskNodeCounts taskID).succeeded =
      (db.deploymentTaskNodeCounts taskID).total) :
    ∀ row ∈ db.publishTaskNodes, row.taskID = taskID → row.status = .succeeded := by
  intro row hrow hid
  have hall := List.length_filter_eq_length_iff.mp h row (mem_taskNodes.mpr ⟨hrow, hid⟩)
  exact of_decide_eq_true hall

/-! ### Reconciling -/

theorem NodesAdvance.refl (db : Store) : NodesAdvance db db :=
  .of_eq rfl

theorem TaskMoves.refl (db' : Store) (task : DeploymentTask) : TaskMoves db' task task :=
  ⟨rfl, rfl, .inl rfl⟩

theorem PublishesSettle.of_eq (h : db'.deploymentTasks = db.deploymentTasks) :
    PublishesSettle db db' where
  move := by
    intro id task' htask'
    rw [h] at htask'
    exact ⟨task', htask', .refl db' task'⟩
  kept := by
    intro id task htask
    rw [← h] at htask
    exact ⟨task, htask⟩

theorem find?_setTask (db : Store) (id : String) (status : TaskStatus) (detail : String)
    (now : Time) (k : String) :
    (db.setTask id status detail now).deploymentTasks.find? k =
      if k = id then (db.deploymentTasks.find? k).map fun task =>
        { task with status := status, detail := detail, updatedAt := now }
      else db.deploymentTasks.find? k := by
  have h := Table.find?_update_key (T := db.deploymentTasks) (p := fun _ => true)
    (f := fun task => { task with status := status, detail := detail, updatedAt := now })
    (fun _ => rfl) id k
  simpa [setTask] using h

theorem TaskMoves.trans {task task' task'' : DeploymentTask} (h : TaskMoves db' task task')
    (h' : TaskMoves db'' task' task'') (hid : task'.id = task''.id)
    (htargets : TargetsSettle db' db'') : TaskMoves db'' task task'' := by
  refine ⟨h'.kind.trans h.kind, h'.siteID.trans h.siteID, ?_⟩
  rcases h'.status with heq | hends'
  · rcases h.status with heq' | hends
    · exact .inl (heq.trans heq')
    · refine .inr ⟨hends.kind, hends.active, heq ▸ hends.ended, ?_⟩
      intro hsucceeded row'' hrow'' hrowID
      refine htargets.succeeded hrow'' fun row hrow hrowID' => ?_
      exact hends.succeeded (heq ▸ hsucceeded) row hrow (by rw [hid, ← hrowID, hrowID'])
  · rcases h.status with heq' | hends
    · exact .inr ⟨h.kind ▸ hends'.kind, heq' ▸ hends'.active, hends'.ended, hends'.succeeded⟩
    · -- a task that has ended does not end again
      have hactive := hends'.active
      rw [hends.ended] at hactive
      cases hactive

theorem PublishesSettle.trans (h : PublishesSettle db db') (h' : PublishesSettle db' db'')
    (htargets : TargetsSettle db' db'') : PublishesSettle db db'' where
  move := by
    intro id task'' htask''
    obtain ⟨task', htask', hmove'⟩ := h'.move id task'' htask''
    obtain ⟨task, htask, hmove⟩ := h.move id task' htask'
    have hid : task'.id = task''.id :=
      (Table.key_of_find? htask').trans (Table.key_of_find? htask'').symm
    exact ⟨task, htask, hmove.trans hmove' hid htargets⟩
  kept := by
    intro id task htask
    obtain ⟨task', htask'⟩ := h.kept id task htask
    exact h'.kept id task' htask'

/-- Ending one active publish task. -/
theorem setTask_settle {task : DeploymentTask} {status : TaskStatus}
    (htask : db.deploymentTasks.find? taskID = some task) (hkind : task.kind = .publishSite)
    (hactive : task.status.active = true) (hended : status.active = false)
    (hsucceeded : status = .succeeded → ∀ row ∈ db.publishTaskNodes, row.taskID = taskID →
      row.status = .succeeded) :
    PublishesSettle db (db.setTask taskID status detail now) where
  move := by
    intro id task' htask'
    rw [find?_setTask] at htask'
    split at htask'
    · next hid =>
      subst hid
      rw [htask] at htask'
      obtain rfl := Option.some.inj htask'
      refine ⟨task, htask, rfl, rfl, .inr ⟨hkind, hactive, hended, ?_⟩⟩
      intro hsuccess row hrow hrowID
      exact hsucceeded hsuccess row hrow (hrowID.trans (Table.key_of_find? htask))
    · exact ⟨task', htask', .refl _ task'⟩
  kept := by
    intro id task' htask'
    rw [find?_setTask, htask']
    split
    · exact ⟨_, rfl⟩
    · exact ⟨_, rfl⟩

/-- Everything reconciling does: it settles targets and ends publish tasks, and nothing else. -/
structure Reconciles (db db' : Store) : Prop where
  targets : TargetsSettle db db'
  kept : TargetsKept db db'
  tasks : PublishesSettle db db'
  frame : ∃ tasks rows, db' = { db with deploymentTasks := tasks, publishTaskNodes := rows }

theorem Reconciles.refl (db : Store) : Reconciles db db :=
  ⟨.of_eq rfl, .of_eq rfl, .of_eq rfl, _, _, rfl⟩

theorem Reconciles.nodes_eq (h : Reconciles db db') : db'.nodes = db.nodes := by
  obtain ⟨tasks, rows, rfl⟩ := h.frame
  rfl

theorem Reconciles.trans (h : Reconciles db db') (h' : Reconciles db' db'') :
    Reconciles db db'' where
  targets := h.targets.trans h'.targets (.of_eq h'.nodes_eq)
  kept := h.kept.trans h'.kept
  tasks := h.tasks.trans h'.tasks h'.targets
  frame := by
    obtain ⟨tasks, rows, rfl⟩ := h.frame
    obtain ⟨tasks', rows', rfl⟩ := h'.frame
    exact ⟨tasks', rows', rfl⟩

/-- Settling targets without touching a task. -/
theorem Reconciles.of_targets
    (h : TargetsSettle db db' ∧ TargetsKept db db')
    (hframe : ∃ rows, db' = { db with publishTaskNodes := rows }) : Reconciles db db' := by
  obtain ⟨rows, rfl⟩ := hframe
  exact ⟨h.1, h.2, .of_eq rfl, _, _, rfl⟩

/-- The final status of a task from its counts. -/
theorem publishOutcome_spec (counts : TaskNodeCounts) :
    (publishOutcome counts).1.active = false ∧
      ((publishOutcome counts).1 = .succeeded → counts.succeeded = counts.total) := by
  unfold publishOutcome
  split
  · next hall => exact ⟨rfl, fun _ => hall⟩
  · split
    · exact ⟨rfl, fun h => by cases h⟩
    · exact ⟨rfl, fun h => by cases h⟩

/-- One publish task, while it is active. -/
theorem reconcilePublishTask_reconciles {task : DeploymentTask} {deadline : Option Time}
    (htask : db.deploymentTasks.find? taskID = some task) (hkind : task.kind = .publishSite)
    (hactive : task.status.active = true) :
    Reconciles db (db.reconcilePublishTask taskID deadline now) := by
  have hconfirm := Reconciles.of_targets (confirmApplied_settle db taskID now) ⟨_, rfl⟩
  unfold reconcilePublishTask
  dsimp only
  generalize hdb₁ : db.confirmApplied taskID now = db₁ at hconfirm
  have htask₁ : db₁.deploymentTasks.find? taskID = some task := by
    rw [← hdb₁]
    exact htask
  split
  · split
    · -- no targets, and the deadline has passed
      refine hconfirm.trans ⟨.of_eq rfl, .of_eq rfl, ?_, _, _, rfl⟩
      exact setTask_settle htask₁ hkind hactive rfl fun h => by cases h
    · exact hconfirm
  · split
    · exact hconfirm
    · have htimeout := Reconciles.of_targets (timeOutPending_settle db₁ taskID
        "edge did not confirm the target configuration before the publish deadline") ⟨_, rfl⟩
      refine hconfirm.trans (htimeout.trans ⟨.of_eq rfl, .of_eq rfl, ?_, _, _, rfl⟩)
      obtain ⟨hended, hcounts⟩ := publishOutcome_spec
        { db₁.deploymentTaskNodeCounts taskID with
          failed := (db₁.deploymentTaskNodeCounts taskID).failed +
            (db₁.deploymentTaskNodeCounts taskID).pending }
      refine setTask_settle htask₁ hkind hactive hended fun hsucceeded row hrow hrowID => ?_
      refine htimeout.targets.succeeded hrow fun row' hrow' hrowID' => ?_
      exact all_succeeded_of_counts (hcounts hsucceeded) row' hrow' (hrowID'.trans hrowID)

/-- Reconciling one task leaves the others alone. -/
theorem reconcilePublishTask_other {deadline : Option Time} {id : String} (hid : id ≠ taskID) :
    (db.reconcilePublishTask taskID deadline now).deploymentTasks.find? id =
      db.deploymentTasks.find? id := by
  unfold reconcilePublishTask
  dsimp only
  split
  · split
    · rw [find?_setTask, if_neg hid]
      rfl
    · rfl
  · split
    · rfl
    · rw [find?_setTask, if_neg hid]
      rfl

theorem foldl_reconciles {tasks : List DeploymentTask} (hnodup : (tasks.map DeploymentTask.id).Nodup)
    (hactive : ∀ task ∈ tasks, db.deploymentTasks.find? task.id = some task ∧
      task.kind = .publishSite ∧ task.status.active = true) :
    Reconciles db
      (tasks.foldl (fun db task => db.reconcilePublishTask task.id task.deadlineAt now) db) := by
  induction tasks generalizing db with
  | nil => exact .refl db
  | cons task tasks ih =>
    rw [List.map_cons, List.nodup_cons] at hnodup
    obtain ⟨htask, hkind, hstatus⟩ := hactive task List.mem_cons_self
    refine (reconcilePublishTask_reconciles htask hkind hstatus).trans (ih hnodup.2 ?_)
    intro other hother
    rw [reconcilePublishTask_other]
    · exact hactive other (List.mem_cons_of_mem _ hother)
    · intro heq
      exact hnodup.1 (List.mem_map.mpr ⟨other, hother, heq⟩)

theorem reconcilePublishTasks_reconciles (db : Store) (now : Time) :
    Reconciles db (db.reconcilePublishTasks now) := by
  refine foldl_reconciles ?_ fun task hmem => ?_
  · exact db.deploymentTasks.nodup.sublist (List.filter_sublist.map _)
  · obtain ⟨hmem, hkind⟩ := List.mem_filter.mp hmem
    simp only [Bool.and_eq_true, decide_eq_true_eq] at hkind
    exact ⟨Table.find?_of_mem hmem, hkind.1, hkind.2⟩

end

end SimpleCdn.Store
