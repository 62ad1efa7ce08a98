import SimpleCdn.Store.NodeEffects

/-!
# Targets and publish tasks over one action

`Settles new db db'` is what every action of the control plane does to targets and publish tasks:
the targets afterwards are those before, settled or as they were, and the rows `new`; a target is
lost only with its node; and a publish task only ends by being reconciled, successfully only when
all its targets have succeeded.  Tasks of other kinds may take any status.
-/

namespace SimpleCdn.Store

structure Settles (new : List PublishTaskNodeRow) (db db' : Store) : Prop where
  target : ∀ k row', db'.publishTaskNodes.find? k = some row' →
    (∃ row, db.publishTaskNodes.find? k = some row ∧ TargetMoves db' row row') ∨
      (db.publishTaskNodes.find? k = none ∧ row' ∈ new)
  created : ∀ row ∈ new, db'.publishTaskNodes.find? (key row) = some row
  createdFor : ∀ row ∈ new, (∃ node, db'.nodes.find? row.nodeID = some node) ∧
    ∃ task, db'.deploymentTasks.find? row.taskID = some task
  targetKept : ∀ k row, db.publishTaskNodes.find? k = some row →
    (∃ row', db'.publishTaskNodes.find? k = some row') ∨ db'.nodes.find? row.nodeID = none
  task : ∀ id task', db'.deploymentTasks.find? id = some task' → task'.kind = .publishSite →
    db.deploymentTasks.find? id = none ∨
      ∃ task, db.deploymentTasks.find? id = some task ∧ TaskMoves db' task task'
  taskKept : ∀ id task, db.deploymentTasks.find? id = some task →
    ∃ task', db'.deploymentTasks.find? id = some task'

/-- The task is not a publish task that was there before. -/
def NoPublish (db : Store) (taskID : String) : Prop :=
  ∀ task, db.deploymentTasks.find? taskID = some task → task.kind ≠ .publishSite

section

variable {db db' db'' : Store} {new : List PublishTaskNodeRow} {taskID : String} {now : Time}

theorem TargetMoves.congr {row row' : PublishTaskNodeRow} (h : TargetMoves db' row row')
    (hnodes : db''.nodes = db'.nodes) : TargetMoves db'' row row' := by
  refine ⟨h.version, h.status.imp_right fun hmove => ⟨hmove.1, fun hdone => ?_⟩⟩
  exact (hmove.2 hdone).advance (.of_eq hnodes)

/-- Rows that are added belong to other tasks. -/
theorem TaskMoves.congr {task task' : DeploymentTask} (h : TaskMoves db' task task')
    (hrows : ∀ row ∈ db''.publishTaskNodes, row.taskID = task'.id → row ∈ db'.publishTaskNodes) :
    TaskMoves db'' task task' := by
  refine ⟨h.kind, h.siteID, h.status.imp_right fun hends => ?_⟩
  exact ⟨hends.kind, hends.active, hends.ended, fun hdone row hrow hid =>
    hends.succeeded hdone row (hrows row hrow hid) hid⟩

theorem Settles.of_eq (htargets : db'.publishTaskNodes = db.publishTaskNodes)
    (htasks : db'.deploymentTasks = db.deploymentTasks) : Settles [] db db' where
  target := by
    intro k row' hrow'
    rw [htargets] at hrow'
    exact .inl ⟨row', hrow', rfl, .inl rfl⟩
  created := by nofun
  createdFor := by nofun
  targetKept := by
    intro k row hrow
    rw [htargets]
    exact .inl ⟨row, hrow⟩
  task := by
    intro id task' htask' _
    rw [htasks] at htask'
    exact .inr ⟨task', htask', .refl db' task'⟩
  taskKept := by
    intro id task htask
    rw [htasks]
    exact ⟨task, htask⟩

theorem Settles.refl (db : Store) : Settles [] db db :=
  .of_eq rfl rfl

/-- Nothing but other tables has changed since. -/
theorem Settles.congr (h : Settles new db db')
    (htargets : db''.publishTaskNodes = db'.publishTaskNodes)
    (htasks : db''.deploymentTasks = db'.deploymentTasks) (hnodes : db''.nodes = db'.nodes) :
    Settles new db db'' where
  target := by
    intro k row' hrow'
    rw [htargets] at hrow'
    rcases h.target k row' hrow' with ⟨row, hrow, hmove⟩ | hnew
    · exact .inl ⟨row, hrow, hmove.congr hnodes⟩
    · exact .inr hnew
  created := by
    rw [htargets]
    exact h.created
  createdFor := by
    rw [hnodes, htasks]
    exact h.createdFor
  targetKept := by
    rw [htargets, hnodes]
    exact h.targetKept
  task := by
    intro id task' htask' hkind
    rw [htasks] at htask'
    rcases h.task id task' htask' hkind with hnone | ⟨task, htask, hmove⟩
    · exact .inl hnone
    · refine .inr ⟨task, htask, hmove.congr fun row hrow _ => ?_⟩
      rw [← htargets]
      exact hrow
  taskKept := by
    rw [htasks]
    exact h.taskKept

theorem Settles.trans (h : Settles [] db db') (h' : Settles [] db' db'')
    (hnodes : db''.nodes = db'.nodes) : Settles [] db db'' where
  target := by
    intro k row'' hrow''
    rcases h'.target k row'' hrow'' with ⟨row', hrow', hmove'⟩ | ⟨-, hnil⟩
    · rcases h.target k row' hrow' with ⟨row, hrow, hmove⟩ | ⟨-, hnil⟩
      · have hid : row'.nodeID = row''.nodeID :=
          (nodeID_of_find? hrow').trans (nodeID_of_find? hrow'').symm
        exact .inl ⟨row, hrow, hmove.trans hmove' hid (.of_eq hnodes)⟩
      · cases hnil
    · cases hnil
  created := by nofun
  createdFor := by nofun
  targetKept := by
    intro k row hrow
    rcases h.targetKept k row hrow with ⟨row', hrow'⟩ | hgone
    · rcases h'.targetKept k row' hrow' with hkept | hgone
      · exact .inl hkept
      · right
        rw [nodeID_of_find? hrow, ← nodeID_of_find? hrow']
        exact hgone
    · right
      rw [hnodes]
      exact hgone
  task := by
    intro id task'' htask'' hkind
    rcases h'.task id task'' htask'' hkind with hnone | ⟨task', htask', hmove'⟩
    · left
      cases hfind : db.deploymentTasks.find? id with
      | none => rfl
      | some task =>
        obtain ⟨task', htask'⟩ := h.taskKept id task hfind
        rw [hnone] at htask'
        cases htask'
    · rcases h.task id task' htask' (hmove'.kind.symm.trans hkind) with hnone |
        ⟨task, htask, hmove⟩
      · exact .inl hnone
      · refine .inr ⟨task, htask, hmove.trans hmove' ?_ ?_⟩
        · exact (Table.key_of_find? htask').trans (Table.key_of_find? htask'').symm
        · intro k row'' hrow''
          rcases h'.target k row'' hrow'' with hold | ⟨-, hnil⟩
          · exact hold
          · cases hnil
  taskKept := by
    intro id task htask
    obtain ⟨task', htask'⟩ := h.taskKept id task htask
    exact h'.taskKept id task' htask'

theorem Reconciles.settles (h : Reconciles db db') : Settles [] db db' where
  target := fun k row' hrow' => .inl (h.targets k row' hrow')
  created := by nofun
  createdFor := by nofun
  targetKept := fun k row hrow => .inl (h.kept k row hrow)
  task := fun id task' htask' _ => .inr (h.tasks.move id task' htask')
  taskKept := h.tasks.kept

theorem NodeEffect.settles (h : NodeEffect db db') : Settles [] db db' where
  target := fun k row' hrow' => .inl (h.targets k row' hrow')
  created := by nofun
  createdFor := by nofun
  targetKept := h.targetsKept
  task := fun id task' htask' _ => .inr (h.tasks.move id task' htask')
  taskKept := h.tasks.kept

theorem NoPublish.of_none (h : db.deploymentTasks.find? taskID = none) : NoPublish db taskID := by
  intro task htask
  rw [h] at htask
  cases htask

/-- Setting the status of a task that is no old publish task. -/
theorem Settles.setTask {status : TaskStatus} {detail : String} (h : Settles new db db')
    (hno : NoPublish db taskID) : Settles new db (db'.setTask taskID status detail now) where
  target := by
    intro k row' hrow'
    rcases h.target k row' hrow' with ⟨row, hrow, hmove⟩ | hnew
    · exact .inl ⟨row, hrow, hmove.congr rfl⟩
    · exact .inr hnew
  created := h.created
  createdFor := by
    intro row hrow
    obtain ⟨hnode, task, htask⟩ := h.createdFor row hrow
    refine ⟨hnode, ?_⟩
    rw [find?_setTask, htask]
    split
    · exact ⟨_, rfl⟩
    · exact ⟨_, rfl⟩
  targetKept := h.targetKept
  task := by
    intro id task'' htask'' hkind
    rw [find?_setTask] at htask''
    split at htask''
    · next hid =>
      subst hid
      obtain ⟨task', htask', rfl⟩ := Option.map_eq_some_iff.mp htask''
      rcases h.task id task' htask' hkind with hnone | ⟨task, htask, hmove⟩
      · exact .inl hnone
      · exact absurd (hmove.kind.symm.trans hkind) (hno task htask)
    · rcases h.task id task'' htask'' hkind with hnone | ⟨task, htask, hmove⟩
      · exact .inl hnone
      · exact .inr ⟨task, htask, hmove.congr fun row hrow _ => hrow⟩
  taskKept := by
    intro id task htask
    obtain ⟨task', htask'⟩ := h.taskKept id task htask
    rw [find?_setTask, htask']
    split
    · exact ⟨_, rfl⟩
    · exact ⟨_, rfl⟩

/-- A row is inserted into the table of tasks. -/
theorem Settles.insertRow {task : DeploymentTask} {tasks : Table DeploymentTask}
    (h : Settles new db db') (hrow : db'.deploymentTasks.insert? task = some tasks)
    (htasks : db''.deploymentTasks = tasks)
    (htargets : db''.publishTaskNodes = db'.publishTaskNodes) (hnodes : db''.nodes = db'.nodes) :
    Settles new db db'' ∧ db.deploymentTasks.find? task.id = none := by
  have hnone' := (Table.insert?_eq_some_iff.mp hrow).1
  rw [key_deploymentTask] at hnone'
  have hnone : db.deploymentTasks.find? task.id = none := by
    cases hfind : db.deploymentTasks.find? task.id with
    | none => rfl
    | some old =>
      obtain ⟨task', htask'⟩ := h.taskKept task.id old hfind
      rw [hnone'] at htask'
      cases htask'
  refine ⟨⟨?_, ?_, ?_, ?_, ?_, ?_⟩, hnone⟩
  · intro k row' hrow'
    rw [htargets] at hrow'
    rcases h.target k row' hrow' with ⟨row, hold, hmove⟩ | hnew
    · exact .inl ⟨row, hold, hmove.congr hnodes⟩
    · exact .inr hnew
  · rw [htargets]
    exact h.created
  · intro row hmem
    obtain ⟨hnode, old, hold⟩ := h.createdFor row hmem
    refine ⟨by rw [hnodes]; exact hnode, ?_⟩
    rw [htasks, Table.find?_of_insert? hrow]
    split
    · exact ⟨_, rfl⟩
    · exact ⟨old, hold⟩
  · rw [htargets, hnodes]
    exact h.targetKept
  · intro id task' htask' hkind
    rw [htasks, Table.find?_of_insert? hrow, key_deploymentTask] at htask'
    split at htask'
    · next hid =>
      rw [hid] at hnone
      exact .inl hnone
    · rcases h.task id task' htask' hkind with hnone' | ⟨old, hold, hmove⟩
      · exact .inl hnone'
      · refine .inr ⟨old, hold, hmove.congr fun row hmem _ => ?_⟩
        rw [← htargets]
        exact hmem
  · intro id old hold
    obtain ⟨task', htask'⟩ := h.taskKept id old hold
    rw [htasks, Table.find?_of_insert? hrow]
    split
    · exact ⟨_, rfl⟩
    · exact ⟨task', htask'⟩

/-- A new task. -/
theorem Settles.insertTask {task : DeploymentTask} (h : Settles new db db')
    (hinsert : db'.insertTask task = .ok db'') :
    Settles new db db'' ∧ db.deploymentTasks.find? task.id = none := by
  obtain ⟨-, tasks, hrow, rfl⟩ := insertTask_eq_ok hinsert
  exact h.insertRow hrow rfl rfl rfl

/-- The rows of the targets of a task. -/
def targetRows (taskID : String) (targets : List PublishTaskNode) : List PublishTaskNodeRow :=
  targets.map fun target => ⟨taskID, target.nodeID, target.targetVersion, .pending, "", "", none⟩

theorem mem_targetRows {targets : List PublishTaskNode} {row : PublishTaskNodeRow} :
    row ∈ targetRows taskID targets ↔ ∃ target ∈ targets,
      row = ⟨taskID, target.nodeID, target.targetVersion, .pending, "", "", none⟩ := by
  rw [targetRows, List.mem_map]
  simp only [eq_comm]

/-- Creating the targets of a task that is no old publish task. -/
theorem Settles.createTargets {targets : List PublishTaskNode} {rows : Table PublishTaskNodeRow}
    (h : Settles [] db db') (hkept : TargetsKept db db') (hno : NoPublish db taskID)
    (htask : ∃ task, db'.deploymentTasks.find? taskID = some task)
    (hcreate : createPublishTaskNodes taskID targets db' =
      .ok { db' with publishTaskNodes := rows }) :
    Settles (targetRows taskID targets) db { db' with publishTaskNodes := rows } := by
  obtain ⟨rows', hrows', hmem⟩ := createPublishTaskNodes_eq_ok hcreate
  obtain rfl : rows = rows' := congrArg publishTaskNodes hrows'
  have hold : ∀ k row, db'.publishTaskNodes.find? k = some row → rows.find? k = some row := by
    intro k row hrow
    have hfind := Table.find?_of_mem ((hmem row).mpr (.inl (Table.mem_of_find? hrow)))
    rw [Table.key_of_find? hrow] at hfind
    exact hfind
  have hnew : ∀ k row', rows.find? k = some row' → db'.publishTaskNodes.find? k = none →
      row' ∈ targetRows taskID targets := by
    intro k row' hrow' hnone
    rcases (hmem row').mp (Table.mem_of_find? hrow') with hmem' | hmem'
    · have hfind := Table.find?_of_mem hmem'
      rw [Table.key_of_find? hrow', hnone] at hfind
      cases hfind
    · exact mem_targetRows.mpr hmem'
  constructor
  case target =>
    intro k row' hrow'
    cases hfind : db'.publishTaskNodes.find? k with
    | some row =>
      obtain rfl := Option.some.inj ((hold k row hfind).symm.trans hrow')
      rcases h.target k row hfind with hmove | ⟨-, hnil⟩
      · obtain ⟨before, hbefore, hmove⟩ := hmove
        exact .inl ⟨before, hbefore, hmove.congr rfl⟩
      · cases hnil
    | none =>
      refine .inr ⟨?_, hnew k row' hrow' hfind⟩
      cases hbefore : db.publishTaskNodes.find? k with
      | none => rfl
      | some row =>
        obtain ⟨row₁, hrow₁⟩ := hkept k row hbefore
        rw [hfind] at hrow₁
        cases hrow₁
  case created =>
    intro row hrow
    exact Table.find?_of_mem ((hmem row).mpr (.inr (mem_targetRows.mp hrow)))
  case createdFor =>
    intro row hrow
    obtain ⟨target, htarget, rfl⟩ := mem_targetRows.mp hrow
    exact ⟨createPublishTaskNodes_nodes hcreate target htarget, htask⟩
  case targetKept =>
    intro k row hrow
    rcases h.targetKept k row hrow with ⟨row', hrow'⟩ | hgone
    · exact .inl ⟨row', hold k row' hrow'⟩
    · exact .inr hgone
  case task =>
    intro id task' htask' hkind
    rcases h.task id task' htask' hkind with hnone | ⟨task, htask, hmove⟩
    · exact .inl hnone
    · refine .inr ⟨task, htask, hmove.congr fun row hrow hid => ?_⟩
      rcases (hmem row).mp hrow with hmem' | ⟨target, -, rfl⟩
      · exact hmem'
      · -- the new targets belong to another task
        have hid' : task'.id = id := Table.key_of_find? htask'
        have htaskID : taskID = id := hid.trans hid'
        exact absurd (hmove.kind.symm.trans hkind) (hno task (htaskID ▸ htask))
  case taskKept => exact h.taskKept

end

end SimpleCdn.Store
