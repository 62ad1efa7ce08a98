import SimpleCdn.Lib.Transition
import SimpleCdn.Store.Confirmation
import SimpleCdn.Store.Nodes

/-!
# Statements of the publish reconciliation

`reconcilePublishTask` is not a transaction: it confirms applied versions, counts the targets,
times the pending ones out and writes the task in separate statements, and several calls may be
under way.  Here every statement is a step of its own.  Reports and heartbeats of nodes are the
other statements that touch what a reconciliation reads.

Without anything in between, the statements of a call are `Store.reconcilePublishTasks`.
-/

namespace SimpleCdn.Reconciling

open Store Transition

/-- The statement that a `reconcilePublishTask` call executes next. -/
inductive Statement
  | confirm
  | count
  /-- It has counted pending targets, after the deadline. -/
  | timeOut (counts : TaskNodeCounts)
  /-- It writes the status that follows from its counts. -/
  | write (counts : TaskNodeCounts)
  /-- It has counted no target at all, after the deadline. -/
  | fail
  deriving DecidableEq

/-- A `ReconcilePublishTasks` call: the tasks it has not finished, with their deadlines. -/
structure Call where
  tasks : List (String × Option Time)
  next : Statement
  deriving DecidableEq

structure State where
  store : Store
  calls : List Call

inductive Action
  | recordPublishApply (nodeID : String) (report : ApplyReport) (now : Time)
  /-- The `UPDATE nodes` statement of a heartbeat. -/
  | heartbeatNode (nodeID : String) (appliedVersion : Nat)
      (lastError agentVersion agentSHA256 activeUpgradeID : String) (now : Time)
  /-- A `ReconcilePublishTasks` call lists the active tasks. -/
  | reconcilePublishTasks
  /-- The call `i` executes its next statement. -/
  | statement (i : Nat) (now : Time)

theorem heartbeatNode_key (appliedVersion : Nat)
    (lastError agentVersion agentSHA256 activeUpgradeID : String) (now : Time) (node : Node) :
    key ({ node with
      status := if node.status = .pending then .active else node.status
      lastHeartbeatAt := some now
      appliedVersion := max node.appliedVersion appliedVersion
      agentVersion := agentVersion
      agentSHA256 := if agentSHA256 = "" then node.agentSHA256 else agentSHA256
      activeUpgradeID := activeUpgradeID
      lastError := lastError
      updatedAt := now } : Node) = key node := rfl

/-- The `UPDATE nodes` statement of `HeartbeatWithAgentVersion`. -/
def heartbeatNode (db : Store) (nodeID : String) (appliedVersion : Nat)
    (lastError agentVersion agentSHA256 activeUpgradeID : String) (now : Time) : Store :=
  db.updateNode nodeID
    (fun node =>
      { node with
        status := if node.status = .pending then .active else node.status
        lastHeartbeatAt := some now
        appliedVersion := max node.appliedVersion appliedVersion
        agentVersion := agentVersion
        agentSHA256 := if agentSHA256 = "" then node.agentSHA256 else agentSHA256
        activeUpgradeID := activeUpgradeID
        lastError := lastError
        updatedAt := now })
    (heartbeatNode_key appliedVersion lastError agentVersion agentSHA256 activeUpgradeID now)

theorem heartbeat_eq (db : Store) (nodeID : String) (appliedVersion : Nat) (lastError : String)
    (report : Option ApplyReport) (agentVersion agentSHA256 activeUpgradeID : String)
    (now : Time) :
    db.heartbeat nodeID appliedVersion lastError report agentVersion agentSHA256 activeUpgradeID
        now = do
      let db ← db.recordReport nodeID report now
      let _ ← db.getNode nodeID
      return (heartbeatNode db nodeID appliedVersion lastError agentVersion agentSHA256
        activeUpgradeID now).reconcilePublishTasks now := rfl

/-- After the count: nothing to do yet, or the statement that follows. -/
def afterCount (counts : TaskNodeCounts) (deadline : Option Time) (now : Time) :
    Option Statement :=
  if counts.total = 0 then
    if expired deadline now then some .fail else none
  else if 0 < counts.pending && !(deadline.isNone || expired deadline now) then none
  else if 0 < counts.pending then some (.timeOut counts)
  else some (.write counts)

/-- One statement for the task `taskID`: the database after it, and the statement that follows,
if the call is not through with the task. -/
def execute (db : Store) (taskID : String) (deadline : Option Time) (now : Time) :
    Statement → Except StoreError (Store × Option Statement)
  | .confirm => .ok (db.confirmApplied taskID now, some .count)
  | .count => .ok (db, afterCount (db.deploymentTaskNodeCounts taskID) deadline now)
  | .timeOut counts =>
    .ok (db.timeOutPending taskID
      "edge did not confirm the target configuration before the publish deadline",
      some (.write { counts with failed := counts.failed + counts.pending, pending := 0 }))
  | .write counts => do
    let (status, detail) := publishOutcome counts
    let db ← db.updateTask taskID status detail now
    return (db, none)
  | .fail => do
    let db ← db.updateTask taskID .failed
      "publish task did not create edge confirmation targets; retry Publish" now
    return (db, none)

/-- The call goes on with the statement, or with its next task. -/
def Call.after (call : Call) (next : Option Statement) : Call :=
  match next with
  | some statement => { call with next := statement }
  | none => ⟨call.tasks.tail, .confirm⟩

/-- A call whose statement fails is over. -/
def State.statement (s : State) (i : Nat) (call : Call) (now : Time) : State :=
  match call.tasks with
  | [] => s
  | (taskID, deadline) :: _ =>
    match execute s.store taskID deadline now call.next with
    | .ok (db, next) => ⟨db, s.calls.set i (call.after next)⟩
    | .error _ => ⟨s.store, s.calls.set i ⟨[], .confirm⟩⟩

def step (s : State) : Action → State
  | .recordPublishApply nodeID report now =>
    match s.store.recordPublishApply nodeID report now with
    | .ok db => { s with store := db }
    | .error _ => s
  | .heartbeatNode nodeID appliedVersion lastError agentVersion agentSHA256 activeUpgradeID now =>
    { s with
      store := heartbeatNode s.store nodeID appliedVersion lastError agentVersion agentSHA256
        activeUpgradeID now }
  | .reconcilePublishTasks =>
    { s with
      calls := s.calls ++
        [⟨s.store.activePublishTasks.map fun task => (task.id, task.deadlineAt), .confirm⟩] }
  | .statement i now =>
    match s.calls[i]? with
    | some call => s.statement i call now
    | none => s

/-! ### A call that nothing interrupts -/

section Sequential

variable {db : Store} {calls : List Call} {i : Nat} {now : Time}

theorem step_statement {taskID : String} {deadline : Option Time}
    {rest : List (String × Option Time)} {statement : Statement} {db' : Store}
    {next : Option Statement}
    (hcall : calls[i]? = some ⟨(taskID, deadline) :: rest, statement⟩)
    (hexecute : execute db taskID deadline now statement = .ok (db', next)) :
    step ⟨db, calls⟩ (.statement i now) =
      ⟨db', calls.set i (Call.after ⟨(taskID, deadline) :: rest, statement⟩ next)⟩ := by
  simp only [step, hcall, State.statement, hexecute]

/-- Statements of the call alone take it from the statement to the task's end. -/
def Finishes (now : Time) (i : Nat) (taskID : String) (deadline : Option Time)
    (statement : Statement) (db db' : Store) : Prop :=
  ∀ (calls : List Call) (rest : List (String × Option Time)),
    calls[i]? = some ⟨(taskID, deadline) :: rest, statement⟩ →
    ∃ n, run step ⟨db, calls⟩ (List.replicate n (.statement i now)) =
      ⟨db', calls.set i ⟨rest, .confirm⟩⟩

theorem finishes_last {taskID : String} {deadline : Option Time} {statement : Statement}
    {db' : Store} (hexecute : execute db taskID deadline now statement = .ok (db', none)) :
    Finishes now i taskID deadline statement db db' := by
  intro calls rest hcall
  exact ⟨1, step_statement hcall hexecute⟩

theorem finishes_next {taskID : String} {deadline : Option Time} {statement next : Statement}
    {db' db'' : Store} (hexecute : execute db taskID deadline now statement = .ok (db', some next))
    (hrest : Finishes now i taskID deadline next db' db'') :
    Finishes now i taskID deadline statement db db'' := by
  intro calls rest hcall
  have hlt : i < calls.length := (List.getElem?_eq_some_iff.mp hcall).1
  obtain ⟨n, hn⟩ := hrest (calls.set i ⟨(taskID, deadline) :: rest, next⟩) rest
    (List.getElem?_set_self hlt)
  refine ⟨n + 1, ?_⟩
  rw [List.replicate_succ, run_cons, step_statement hcall hexecute, Call.after, hn, List.set_set]

theorem updateTask_of_find? {taskID detail : String} {task : DeploymentTask} {status : TaskStatus}
    (htask : db.deploymentTasks.find? taskID = some task) :
    db.updateTask taskID status detail now = .ok (db.setTask taskID status detail now) := by
  rw [updateTask, htask]
  rfl

theorem execute_write {taskID : String} {deadline : Option Time} {task : DeploymentTask}
    (htask : db.deploymentTasks.find? taskID = some task) (counts : TaskNodeCounts) :
    execute db taskID deadline now (.write counts) =
      .ok (db.setTask taskID (publishOutcome counts).1 (publishOutcome counts).2 now, none) := by
  show (do let db ← db.updateTask taskID _ _ now; return (db, none) : Except StoreError _) = _
  rw [updateTask_of_find? htask]
  rfl

theorem execute_write_eq_ok {taskID : String} {deadline : Option Time} {counts : TaskNodeCounts}
    {db' : Store} {next : Option Statement}
    (h : execute db taskID deadline now (.write counts) = .ok (db', next)) :
    db' = db.setTask taskID (publishOutcome counts).1 (publishOutcome counts).2 now ∧
      next = none := by
  have hwrite : (db.updateTask taskID (publishOutcome counts).1 (publishOutcome counts).2 now >>=
      fun db => pure (db, none)) = .ok (db', next) := h
  simp only [bind_eq_ok, pure_eq_ok, Prod.mk.injEq] at hwrite
  obtain ⟨db₁, hupdate, rfl, rfl⟩ := hwrite
  exact ⟨updateTask_eq_ok hupdate, rfl⟩

theorem execute_fail_eq_ok {taskID : String} {deadline : Option Time} {db' : Store}
    {next : Option Statement} (h : execute db taskID deadline now .fail = .ok (db', next)) :
    db' = db.setTask taskID .failed
      "publish task did not create edge confirmation targets; retry Publish" now ∧
      next = none := by
  simp only [execute, bind_eq_ok, pure_eq_ok, Prod.mk.injEq] at h
  obtain ⟨db₁, hupdate, rfl, rfl⟩ := h
  exact ⟨updateTask_eq_ok hupdate, rfl⟩

/-- Without pending targets the statement that times them out changes nothing. -/
theorem timeOutPending_of_counts {taskID : String} (detail : String)
    (h : (db.deploymentTaskNodeCounts taskID).pending = 0) :
    db.timeOutPending taskID detail = db := by
  have hnone : ∀ row ∈ db.publishTaskNodes.rows,
      (decide (row.taskID = taskID) && decide (row.status = .pending)) = false := by
    intro row hrow
    rw [Bool.eq_false_iff, Ne, Bool.and_eq_true, decide_eq_true_eq]
    rintro ⟨hid, hpending⟩
    have hmem : row ∈ (db.taskNodes taskID).filter fun row => row.status = .pending :=
      List.mem_filter.mpr ⟨mem_taskNodes.mpr ⟨hrow, hid⟩, hpending⟩
    rw [List.length_eq_zero_iff.mp h] at hmem
    cases hmem
  rw [timeOutPending, Table.update_eq_self hnone]

/-- The statements for one task are `reconcilePublishTask`. -/
theorem finishes_reconcilePublishTask {taskID : String} {task : DeploymentTask}
    (deadline : Option Time) (htask : db.deploymentTasks.find? taskID = some task) :
    Finishes now i taskID deadline .confirm db (db.reconcilePublishTask taskID deadline now) := by
  refine finishes_next rfl ?_
  rw [reconcilePublishTask]
  dsimp only
  generalize hdb₁ : db.confirmApplied taskID now = db₁
  have htask₁ : db₁.deploymentTasks.find? taskID = some task := by
    rw [← hdb₁]
    exact htask
  have hcount : execute db₁ taskID deadline now .count =
      .ok (db₁, afterCount (db₁.deploymentTaskNodeCounts taskID) deadline now) := rfl
  generalize hcounts : db₁.deploymentTaskNodeCounts taskID = counts at hcount ⊢
  by_cases htotal : counts.total = 0
  · rw [if_pos htotal]
    by_cases hexpired : expired deadline now = true
    · rw [if_pos hexpired]
      refine finishes_next (by rw [hcount, afterCount, if_pos htotal, if_pos hexpired]) ?_
      refine finishes_last ?_
      rw [execute, updateTask_of_find? htask₁]
      rfl
    · rw [if_neg hexpired]
      exact finishes_last (by rw [hcount, afterCount, if_pos htotal, if_neg hexpired])
  · rw [if_neg htotal]
    by_cases hwaits : (decide (0 < counts.pending) &&
        !(deadline.isNone || expired deadline now)) = true
    · rw [if_pos hwaits]
      exact finishes_last (by rw [hcount, afterCount, if_neg htotal, if_pos hwaits])
    · rw [if_neg hwaits]
      by_cases hpending : 0 < counts.pending
      · refine finishes_next
          (by rw [hcount, afterCount, if_neg htotal, if_neg hwaits, if_pos hpending]) ?_
        have htimedOut : (db₁.timeOutPending taskID
            "edge did not confirm the target configuration before the publish deadline"
            ).deploymentTasks.find? taskID = some task := htask₁
        exact finishes_next rfl (finishes_last (execute_write htimedOut _))
      · -- nothing is pending, so the statement that times targets out would change nothing
        refine finishes_next
          (by rw [hcount, afterCount, if_neg htotal, if_neg hwaits, if_neg hpending]) ?_
        have hnone : counts.pending = 0 := by omega
        rw [timeOutPending_of_counts _ (hcounts ▸ hnone), hnone]
        exact finishes_last (execute_write htask₁ counts)

theorem find?_reconcilePublishTask {taskID id : String} {deadline : Option Time}
    {task : DeploymentTask} (htask : db.deploymentTasks.find? id = some task) :
    ∃ task', (db.reconcilePublishTask taskID deadline now).deploymentTasks.find? id =
      some task' := by
  by_cases hid : id = taskID
  · unfold reconcilePublishTask
    dsimp only
    split
    · split
      · exact ⟨_, by rw [find?_setTask, if_pos hid]; exact congrArg _ htask⟩
      · exact ⟨task, htask⟩
    · split
      · exact ⟨task, htask⟩
      · exact ⟨_, by rw [find?_setTask, if_pos hid]; exact congrArg _ htask⟩
  · exact ⟨task, by rw [reconcilePublishTask_other hid, htask]⟩

/-- The statements for all tasks of a call. -/
theorem statements_tasks {tasks : List DeploymentTask}
    (hfound : ∀ task ∈ tasks, ∃ row, db.deploymentTasks.find? task.id = some row)
    (hcall : calls[i]? = some ⟨tasks.map fun task => (task.id, task.deadlineAt), .confirm⟩) :
    ∃ n, run step ⟨db, calls⟩ (List.replicate n (.statement i now)) =
      ⟨tasks.foldl (fun db task => db.reconcilePublishTask task.id task.deadlineAt now) db,
        calls.set i ⟨[], .confirm⟩⟩ := by
  induction tasks generalizing db calls with
  | nil =>
    obtain ⟨hlt, hget⟩ := List.getElem?_eq_some_iff.mp hcall
    rw [List.map_nil] at hget
    refine ⟨0, ?_⟩
    rw [List.replicate_zero, run_nil, List.foldl_nil, ← hget, List.set_getElem_self]
  | cons task tasks ih =>
    obtain ⟨row, hrow⟩ := hfound task List.mem_cons_self
    obtain ⟨n, hn⟩ := finishes_reconcilePublishTask task.deadlineAt hrow calls _ hcall
    have hlt : i < calls.length := (List.getElem?_eq_some_iff.mp hcall).1
    have hrest : ∀ other ∈ tasks, ∃ row,
        (db.reconcilePublishTask task.id task.deadlineAt now).deploymentTasks.find? other.id =
          some row := by
      intro other hother
      obtain ⟨row, hrow⟩ := hfound other (List.mem_cons_of_mem _ hother)
      exact find?_reconcilePublishTask hrow
    obtain ⟨m, hm⟩ := ih hrest (List.getElem?_set_self hlt)
    refine ⟨n + m, ?_⟩
    rw [List.replicate_add, run_append, hn, hm, List.set_set, List.foldl_cons]

/-- A call that nothing interrupts is `reconcilePublishTasks`. -/
theorem statements_reconcilePublishTasks (db : Store) (calls : List Call) (now : Time) :
    ∃ n, (run step (step ⟨db, calls⟩ .reconcilePublishTasks)
      (List.replicate n (.statement calls.length now))).store = db.reconcilePublishTasks now := by
  have hfound : ∀ task ∈ db.activePublishTasks,
      ∃ row, db.deploymentTasks.find? task.id = some row := by
    intro task htask
    exact ⟨task, Table.find?_eq_some_iff.mpr ⟨(List.mem_filter.mp htask).1, rfl⟩⟩
  have hcall : (calls ++ [⟨db.activePublishTasks.map fun task => (task.id, task.deadlineAt),
      .confirm⟩])[calls.length]? =
      some ⟨db.activePublishTasks.map fun task => (task.id, task.deadlineAt), .confirm⟩ := by
    rw [List.getElem?_append_right (le_refl _), Nat.sub_self, List.getElem?_cons_zero]
  obtain ⟨n, hn⟩ := statements_tasks hfound hcall
  exact ⟨n, congrArg State.store hn⟩

end Sequential

end SimpleCdn.Reconciling
