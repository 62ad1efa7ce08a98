import SimpleCdn.Reconciling.System

/-!
# The outcome of a publish task and its targets

A target is settled once: every statement that writes targets selects pending ones.  So the counts
of a reconciliation are final, except for the pending targets that it counts after the deadline:
until it has timed them out, a report or another reconciliation may settle them as succeeded.  The
status then follows from counts that the targets no longer have.
-/

namespace SimpleCdn.Reconciling

open Store Transition

/-- The status and the detail of a task are those its targets give it. -/
structure Agrees (db : Store) (task : DeploymentTask) : Prop where
  succeeded : task.status = .succeeded ↔ ∀ row ∈ db.taskNodes task.id, row.status = .succeeded
  failed : task.status = .failed ↔ ∀ row ∈ db.taskNodes task.id, row.status ≠ .succeeded
  partialSuccess : task.status = .partialSuccess ↔
    (∃ row ∈ db.taskNodes task.id, row.status = .succeeded) ∧
      ∃ row ∈ db.taskNodes task.id, row.status ≠ .succeeded
  settled : ∀ row ∈ db.taskNodes task.id, row.status ≠ .pending
  reported : task.detail = (publishOutcome (db.deploymentTaskNodeCounts task.id)).2

/-- Once the task is over, it agrees with its targets. -/
def OutcomeAgrees (taskID : String) (s : State) : Prop :=
  ∀ task, s.store.deploymentTasks.find? taskID = some task → task.status.active = false →
    Agrees s.store task

/-- No target has succeeded since the call that writes the task's status has counted them. -/
def CountsCurrent (taskID : String) (s : State) (a : Action) : Prop :=
  ∀ i now deadline rest counts, a = .statement i now →
    s.calls[i]? = some ⟨(taskID, deadline) :: rest, .write counts⟩ →
    counts.succeeded = (s.store.deploymentTaskNodeCounts taskID).succeeded

/-- An active publish task with its targets, and no reconciliation under way. -/
structure Started (taskID : String) (s : State) : Prop where
  task : ∃ task, s.store.deploymentTasks.find? taskID = some task ∧ task.status.active = true
  targets : s.store.taskNodes taskID ≠ []
  calls : s.calls = []

/-! ### Counts -/

section Counts

variable {db : Store} {taskID : String}

def Settled (db : Store) (taskID : String) : Prop :=
  ∀ row ∈ db.taskNodes taskID, row.status ≠ .pending

/-- Every target is in one of the counted states. -/
theorem counts_total (db : Store) (taskID : String) :
    (db.deploymentTaskNodeCounts taskID).pending +
      (db.deploymentTaskNodeCounts taskID).succeeded +
      (db.deploymentTaskNodeCounts taskID).failed =
        (db.deploymentTaskNodeCounts taskID).total := by
  simp only [deploymentTaskNodeCounts]
  induction db.taskNodes taskID with
  | nil => rfl
  | cons row rows ih =>
    cases hstatus : row.status <;>
      simp only [List.filter_cons, hstatus, List.length_cons, decide_true, decide_false, if_true,
        Bool.or_true, Bool.or_false, reduceCtorEq, Bool.false_eq_true, if_false] <;> omega

theorem pending_eq_zero : (db.deploymentTaskNodeCounts taskID).pending = 0 ↔ Settled db taskID := by
  simp only [deploymentTaskNodeCounts, List.length_eq_zero_iff, List.filter_eq_nil_iff,
    decide_eq_true_eq, Settled, Ne]

theorem succeeded_eq_zero : (db.deploymentTaskNodeCounts taskID).succeeded = 0 ↔
    ∀ row ∈ db.taskNodes taskID, row.status ≠ .succeeded := by
  simp only [deploymentTaskNodeCounts, List.length_eq_zero_iff, List.filter_eq_nil_iff,
    decide_eq_true_eq, Ne]

theorem succeeded_eq_total : (db.deploymentTaskNodeCounts taskID).succeeded =
    (db.deploymentTaskNodeCounts taskID).total ↔
    ∀ row ∈ db.taskNodes taskID, row.status = .succeeded := by
  simp only [deploymentTaskNodeCounts, List.length_filter_eq_length_iff, decide_eq_true_eq]

theorem total_ne_zero (h : db.taskNodes taskID ≠ []) :
    (db.deploymentTaskNodeCounts taskID).total ≠ 0 := by
  simpa [deploymentTaskNodeCounts] using h

theorem publishOutcome_congr {counts counts' : TaskNodeCounts} (htotal : counts.total = counts'.total)
    (hsucceeded : counts.succeeded = counts'.succeeded) (hfailed : counts.failed = counts'.failed) :
    publishOutcome counts = publishOutcome counts' := by
  rw [publishOutcome, publishOutcome, htotal, hsucceeded, hfailed]

theorem publishOutcome_status (counts : TaskNodeCounts) :
    ((publishOutcome counts).1 = .succeeded ↔ counts.succeeded = counts.total) ∧
    ((publishOutcome counts).1 = .failed ↔
      counts.succeeded = 0 ∧ counts.succeeded ≠ counts.total) ∧
    ((publishOutcome counts).1 = .partialSuccess ↔
      counts.succeeded ≠ 0 ∧ counts.succeeded ≠ counts.total) := by
  unfold publishOutcome
  by_cases hall : counts.succeeded = counts.total
  · simp [hall]
  · by_cases hsome : 0 < counts.succeeded
    · simp [hall, hsome, Nat.pos_iff_ne_zero.mp hsome]
    · have hnone : counts.succeeded = 0 := by omega
      simp [hnone, Ne.symm, hnone ▸ hall]

/-- The task that has its status from the current counts. -/
theorem agrees_of_outcome {task : DeploymentTask} (htargets : db.taskNodes task.id ≠ [])
    (hsettled : Settled db task.id)
    (houtcome : (task.status, task.detail) = publishOutcome (db.deploymentTaskNodeCounts task.id)) :
    Agrees db task := by
  have hstatus : task.status = (publishOutcome (db.deploymentTaskNodeCounts task.id)).1 :=
    congrArg Prod.fst houtcome
  have htotal := total_ne_zero htargets
  obtain ⟨hsucceeded, hfailed, hmixed⟩ :=
    publishOutcome_status (db.deploymentTaskNodeCounts task.id)
  refine ⟨?_, ?_, ?_, hsettled, congrArg Prod.snd houtcome⟩
  · rw [hstatus, hsucceeded, succeeded_eq_total]
  · rw [hstatus, hfailed, ← succeeded_eq_zero]
    omega
  · rw [hstatus, hmixed, Ne, Ne, succeeded_eq_zero, succeeded_eq_total]
    simp only [ne_eq, not_forall, not_not, exists_prop]

theorem repr_injective {m n : Nat} (h : toString m = toString n) : m = n := by
  have hdigits : Nat.toDigits 10 m = Nat.toDigits 10 n := String.ofList_injective h
  rw [← @Nat.ofDigitChars_ten_toDigits m, hdigits, Nat.ofDigitChars_ten_toDigits]

/-- A task that agrees with its targets has its status from as many succeeded ones. -/
theorem Agrees.succeeded_eq {task : DeploymentTask} {counts : TaskNodeCounts}
    (h : Agrees db task) (houtcome : (task.status, task.detail) = publishOutcome counts)
    (htotal : counts.total = (db.deploymentTaskNodeCounts task.id).total) :
    counts.succeeded = (db.deploymentTaskNodeCounts task.id).succeeded := by
  have hstatus : task.status = (publishOutcome counts).1 := congrArg Prod.fst houtcome
  have hdetail : task.detail = (publishOutcome counts).2 := congrArg Prod.snd houtcome
  obtain ⟨hsucceeded, hfailed, hmixed⟩ := publishOutcome_status counts
  by_cases hall : counts.succeeded = counts.total
  · have hrows := h.succeeded.mp (hstatus.trans (hsucceeded.mpr hall))
    rw [hall, htotal, succeeded_eq_total.mpr hrows]
  · by_cases hnone : counts.succeeded = 0
    · have hrows := h.failed.mp (hstatus.trans (hfailed.mpr ⟨hnone, hall⟩))
      rw [hnone, succeeded_eq_zero.mpr hrows]
    · -- only the text tells how many targets a partial success has counted
      obtain ⟨hsome, hrest⟩ := h.partialSuccess.mp (hstatus.trans (hmixed.mpr ⟨hnone, hall⟩))
      have hsome' : 0 < (db.deploymentTaskNodeCounts task.id).succeeded := by
        refine Nat.pos_of_ne_zero fun hzero => ?_
        obtain ⟨row, hrow, hstatus⟩ := hsome
        exact succeeded_eq_zero.mp hzero row hrow hstatus
      have hrest' : (db.deploymentTaskNodeCounts task.id).succeeded ≠
          (db.deploymentTaskNodeCounts task.id).total := by
        intro heq
        obtain ⟨row, hrow, hstatus⟩ := hrest
        exact hstatus (succeeded_eq_total.mp heq row hrow)
      have htext := hdetail.symm.trans h.reported
      rw [publishOutcome, publishOutcome, if_neg hall, if_neg hrest', if_pos hsome',
        if_pos (Nat.pos_of_ne_zero hnone), htotal] at htext
      simp only [String.append_left_inj, String.append_right_inj] at htext
      exact repr_injective htext

end Counts

/-! ### What a statement writes -/

/-- A statement that leaves the tasks alone and settles pending targets only. -/
def SettlesPending (db db' : Store) : Prop :=
  db'.deploymentTasks = db.deploymentTasks ∧
    ∃ (p : PublishTaskNodeRow → Bool) (f : PublishTaskNodeRow → PublishTaskNodeRow)
      (hf : ∀ row, key (f row) = key row),
      db'.publishTaskNodes = db.publishTaskNodes.update p f hf ∧
        (∀ row, p row = true → row.status = .pending) ∧ ∀ row, (f row).status ≠ .pending

section Written

variable {db db' : Store} {taskID : String} {now : Time}

theorem SettlesPending.of_eq (htasks : db'.deploymentTasks = db.deploymentTasks)
    (htargets : db'.publishTaskNodes = db.publishTaskNodes) : SettlesPending db db' := by
  refine ⟨htasks, fun _ => false, fun row => { row with status := .timedOut }, fun _ => rfl, ?_⟩
  refine ⟨?_, by simp, by simp⟩
  rw [htargets, Table.update_eq_self (by simp)]

theorem recordPublishApply_settles {nodeID : String} {report : ApplyReport}
    (h : db.recordPublishApply nodeID report now = .ok db') : SettlesPending db db' := by
  simp only [recordPublishApply, bind_eq_ok, require_eq_ok, pure_eq_ok, exists_const] at h
  obtain ⟨-, rfl⟩ := h
  refine ⟨rfl, _, _, (by intro _; rfl), rfl, fun row hsel => ?_, fun row => ?_⟩
  · simp only [reportSettles, Bool.and_eq_true, decide_eq_true_eq] at hsel
    exact hsel.1.2
  · cases report.status <;> simp [reportedStatus]

theorem confirmApplied_settles (db : Store) (taskID : String) (now : Time) :
    SettlesPending db (db.confirmApplied taskID now) := by
  refine ⟨rfl, _, _, (by intro _; rfl), rfl, fun row hsel => ?_, by simp⟩
  simp only [Bool.and_eq_true, decide_eq_true_eq] at hsel
  exact hsel.1.2

theorem timeOutPending_settles (db : Store) (taskID detail : String) :
    SettlesPending db (db.timeOutPending taskID detail) := by
  refine ⟨rfl, _, _, (by intro _; rfl), rfl, fun row hsel => ?_, by simp⟩
  simp only [Bool.and_eq_true, decide_eq_true_eq] at hsel
  exact hsel.2

/-- The targets of a task after a statement, in the same order. -/
theorem SettlesPending.taskNodes (h : SettlesPending db db') (taskID : String) :
    ∃ g : PublishTaskNodeRow → PublishTaskNodeRow,
      db'.taskNodes taskID = (db.taskNodes taskID).map g ∧
        ∀ row, g row = row ∨ (row.status = .pending ∧ (g row).status ≠ .pending) := by
  obtain ⟨-, p, f, hf, htargets, hpending, hsettled⟩ := h
  refine ⟨fun row => if p row then f row else row, ?_, fun row => ?_⟩
  · have hid : ∀ row, (if p row then f row else row).taskID = row.taskID := by
      intro row
      split
      · exact congrArg Prod.fst (hf row)
      · rfl
    simp only [Store.taskNodes, htargets, Table.update, List.filter_map, Function.comp_def, hid]
  · show (if p row then f row else row) = row ∨
      (row.status = .pending ∧ (if p row then f row else row).status ≠ .pending)
    split
    · next hsel => exact .inr ⟨hpending row hsel, hsettled row⟩
    · exact .inl rfl

theorem SettlesPending.length (h : SettlesPending db db') (taskID : String) :
    (db'.taskNodes taskID).length = (db.taskNodes taskID).length := by
  obtain ⟨g, hmap, -⟩ := h.taskNodes taskID
  rw [hmap, List.length_map]

/-- A settled task keeps its targets. -/
theorem SettlesPending.eq_of_settled (h : SettlesPending db db') (hsettled : Settled db taskID) :
    db'.taskNodes taskID = db.taskNodes taskID := by
  obtain ⟨g, hmap, hg⟩ := h.taskNodes taskID
  calc
    db'.taskNodes taskID = (db.taskNodes taskID).map id := by
      rw [hmap]
      refine List.map_congr_left fun row hrow => ?_
      rcases hg row with heq | ⟨hpending, -⟩
      · exact heq
      · exact absurd hpending (hsettled row hrow)
    _ = db.taskNodes taskID := List.map_id _

theorem Settled.settles (hsettled : Settled db taskID) (h : SettlesPending db db') :
    Settled db' taskID := by
  rw [Settled, h.eq_of_settled hsettled]
  exact hsettled

theorem timeOutPending_settled (db : Store) (taskID detail : String) :
    Settled (db.timeOutPending taskID detail) taskID := by
  intro row hrow
  obtain ⟨hmem, hid⟩ := mem_taskNodes.mp hrow
  obtain ⟨row₀, -, rfl⟩ := List.mem_map.mp hmem
  split
  · simp
  · next hsel =>
    intro hpending
    refine hsel ?_
    rw [if_neg hsel] at hid
    simp [hid, hpending]

end Written

/-! ### The invariant -/

/-- What the counts of a call under way say about the targets of its task. -/
def Counted (db : Store) (taskID : String) : Statement → Prop
  | .confirm => True
  | .count => True
  | .timeOut counts => counts.total = (db.taskNodes taskID).length ∧
      counts.pending + counts.succeeded + counts.failed = counts.total
  | .write counts => counts.total = (db.taskNodes taskID).length ∧
      counts.succeeded + counts.failed = counts.total ∧ Settled db taskID
  | .fail => False

structure Invariant (taskID : String) (s : State) : Prop where
  task : ∃ task, s.store.deploymentTasks.find? taskID = some task
  targets : s.store.taskNodes taskID ≠ []
  /-- A task that is over waits for no target. -/
  settled : ∀ task, s.store.deploymentTasks.find? taskID = some task →
    task.status.active = false → Settled s.store taskID
  counted : ∀ call ∈ s.calls, ∀ deadline rest, call.tasks = (taskID, deadline) :: rest →
    Counted s.store taskID call.next

section Steps

variable {s : State} {db db' : Store} {taskID : String} {now : Time} {i : Nat} {call : Call}

theorem Counted.settles {statement : Statement} (hcounted : Counted db taskID statement)
    (h : SettlesPending db db') : Counted db' taskID statement := by
  cases statement with
  | confirm => trivial
  | count => trivial
  | timeOut counts => exact ⟨hcounted.1.trans (h.length taskID).symm, hcounted.2⟩
  | write counts =>
    obtain ⟨htotal, hsum, hsettled⟩ := hcounted
    exact ⟨htotal.trans (h.length taskID).symm, hsum, hsettled.settles h⟩
  | fail => exact hcounted

theorem Invariant.settles (hs : Invariant taskID s) (h : SettlesPending s.store db) :
    Invariant taskID ⟨db, s.calls⟩ where
  task := by
    rw [h.1]
    exact hs.task
  targets := by
    intro hnil
    have hlength := h.length taskID
    rw [hnil] at hlength
    exact hs.targets (List.length_eq_zero_iff.mp hlength.symm)
  settled := by
    intro task htask hover
    rw [h.1] at htask
    exact (hs.settled task htask hover).settles h
  counted := by
    intro call hcall deadline rest htasks
    exact (hs.counted call hcall deadline rest htasks).settles h

/-- The call `i` goes on, with counts that fit the targets. -/
theorem Invariant.set (hs : Invariant taskID s)
    (h : ∀ deadline rest, call.tasks = (taskID, deadline) :: rest →
      Counted s.store taskID call.next) : Invariant taskID ⟨s.store, s.calls.set i call⟩ where
  task := hs.task
  targets := hs.targets
  settled := hs.settled
  counted := by
    intro call' hcall'
    rcases List.mem_or_eq_of_mem_set hcall' with hmem | rfl
    · exact hs.counted call' hmem
    · exact h

/-- Any task gets a status, and the task `taskID` an end only when nothing is pending. -/
theorem Invariant.setTask (hs : Invariant taskID s) {id detail : String} {status : TaskStatus}
    (h : id = taskID → Settled s.store taskID) :
    Invariant taskID ⟨s.store.setTask id status detail now, s.calls⟩ where
  task := by
    obtain ⟨task, htask⟩ := hs.task
    rw [find?_setTask, htask]
    split
    · exact ⟨_, rfl⟩
    · exact ⟨_, rfl⟩
  targets := hs.targets
  settled := by
    intro task htask hover
    rw [find?_setTask] at htask
    split at htask
    · next hid => exact h hid.symm
    · exact hs.settled task htask hover
  counted := hs.counted

theorem OutcomeAgrees.settles (h : OutcomeAgrees taskID s) (hs : Invariant taskID s)
    (hsettles : SettlesPending s.store db) (calls : List Call) :
    OutcomeAgrees taskID ⟨db, calls⟩ := by
  intro task htask hover
  rw [hsettles.1] at htask
  have hid : task.id = taskID := Table.key_of_find? htask
  have htargets : db.taskNodes task.id = s.store.taskNodes task.id :=
    hsettles.eq_of_settled (hid ▸ hs.settled task htask hover)
  have hagrees := h task htask hover
  constructor
  · rw [htargets]
    exact hagrees.succeeded
  · rw [htargets]
    exact hagrees.failed
  · rw [htargets]
    exact hagrees.partialSuccess
  · rw [htargets]
    exact hagrees.settled
  · rw [deploymentTaskNodeCounts, htargets]
    exact hagrees.reported

/-- What a count says holds until the targets change. -/
theorem counted_after {deadline : Option Time} {next : Statement} (htargets : db.taskNodes taskID ≠ [])
    (h : afterCount (db.deploymentTaskNodeCounts taskID) deadline now = some next) :
    Counted db taskID next := by
  have htotal := counts_total db taskID
  rw [afterCount, if_neg (total_ne_zero htargets)] at h
  split at h
  · cases h
  · split at h
    · cases h
      exact ⟨rfl, htotal⟩
    · next hpending =>
      cases h
      have hnone : (db.deploymentTaskNodeCounts taskID).pending = 0 := by omega
      refine ⟨rfl, ?_, pending_eq_zero.mp hnone⟩
      omega

/-- The call is through with its task. -/
theorem Invariant.done (hs : Invariant taskID s) (tasks : List (String × Option Time)) :
    Invariant taskID ⟨s.store, s.calls.set i ⟨tasks, .confirm⟩⟩ :=
  hs.set fun _ _ _ => trivial

theorem Invariant.statement (hs : Invariant taskID s) (hcall : s.calls[i]? = some call) :
    Invariant taskID (s.statement i call now) := by
  have hcounted := hs.counted call (List.mem_of_getElem? hcall)
  obtain ⟨tasks, next⟩ := call
  rw [State.statement]
  cases tasks with
  | nil => exact hs
  | cons first rest =>
    obtain ⟨id, deadline⟩ := first
    dsimp only
    cases hexecute : execute s.store id deadline now next with
    | error error => exact hs.done []
    | ok result =>
      obtain ⟨db, after⟩ := result
      cases next with
      | confirm =>
        cases hexecute
        exact (hs.settles (confirmApplied_settles s.store id now)).set fun _ _ _ => trivial
      | count =>
        obtain ⟨rfl, hafter⟩ := Prod.mk.inj (Except.ok.inj hexecute)
        cases after with
        | none => exact hs.done rest
        | some next =>
          refine hs.set fun deadline' rest' heq => ?_
          cases heq
          exact counted_after hs.targets hafter
      | timeOut counts =>
        cases hexecute
        refine (hs.settles (timeOutPending_settles s.store id _)).set fun deadline' rest' heq => ?_
        cases heq
        obtain ⟨htotal, hsum⟩ := hcounted deadline rest rfl
        refine ⟨?_, ?_, timeOutPending_settled s.store taskID _⟩
        · exact htotal.trans ((timeOutPending_settles s.store taskID _).length taskID).symm
        · show counts.succeeded + (counts.failed + counts.pending) = counts.total
          omega
      | write counts =>
        obtain ⟨rfl, rfl⟩ := execute_write_eq_ok hexecute
        refine (hs.setTask ?_).done rest
        rintro rfl
        exact (hcounted deadline rest rfl).2.2
      | fail =>
        obtain ⟨rfl, rfl⟩ := execute_fail_eq_ok hexecute
        refine (hs.setTask ?_).done rest
        rintro rfl
        exact (hcounted deadline rest rfl).elim

theorem Invariant.step (hs : Invariant taskID s) (a : Action) :
    Invariant taskID (step s a) := by
  cases a with
  | recordPublishApply nodeID report now =>
    rw [Reconciling.step]
    cases hreport : s.store.recordPublishApply nodeID report now with
    | error error => exact hs
    | ok db => exact hs.settles (recordPublishApply_settles hreport)
  | heartbeatNode nodeID appliedVersion lastError agentVersion agentSHA256 activeUpgradeID now =>
    exact hs.settles (.of_eq rfl rfl)
  | reconcilePublishTasks =>
    refine ⟨hs.task, hs.targets, hs.settled, fun call hcall deadline rest htasks => ?_⟩
    rcases List.mem_append.mp hcall with hmem | hnew
    · exact hs.counted call hmem deadline rest htasks
    · rw [List.mem_singleton.mp hnew]
      trivial
  | statement i now =>
    rw [Reconciling.step]
    cases hcall : s.calls[i]? with
    | none => exact hs
    | some call => exact hs.statement hcall

/-- Another task gets a status. -/
theorem OutcomeAgrees.setTask_other (h : OutcomeAgrees taskID s) {id detail : String}
    {status : TaskStatus} (hid : id ≠ taskID) (calls : List Call) :
    OutcomeAgrees taskID ⟨s.store.setTask id status detail now, calls⟩ := by
  intro task htask hover
  rw [find?_setTask, if_neg (Ne.symm hid)] at htask
  obtain ⟨hsucceeded, hfailed, hmixed, hsettled, hreported⟩ := h task htask hover
  exact ⟨hsucceeded, hfailed, hmixed, hsettled, hreported⟩

/-- The status written from counts agrees with the targets exactly if no target has succeeded
since. -/
theorem outcomeAgrees_write_iff (hs : Invariant taskID s) {counts : TaskNodeCounts}
    (hcounted : Counted s.store taskID (.write counts)) (calls : List Call) :
    OutcomeAgrees taskID ⟨s.store.setTask taskID (publishOutcome counts).1
        (publishOutcome counts).2 now, calls⟩ ↔
      counts.succeeded = (s.store.deploymentTaskNodeCounts taskID).succeeded := by
  obtain ⟨htotal, hsum, hsettled⟩ := hcounted
  obtain ⟨task₀, htask₀⟩ := hs.task
  obtain rfl : task₀.id = taskID := Table.key_of_find? htask₀
  have hfind := find?_setTask s.store task₀.id (publishOutcome counts).1 (publishOutcome counts).2
    now task₀.id
  rw [if_pos rfl, htask₀, Option.map_some] at hfind
  constructor
  · intro h
    have hagrees := h _ hfind (publishOutcome_spec counts).1
    exact hagrees.succeeded_eq rfl htotal
  · intro hsucceeded task htask hover
    obtain rfl := Option.some.inj (hfind.symm.trans htask)
    have hcurrent := counts_total s.store task₀.id
    rw [pending_eq_zero.mpr hsettled] at hcurrent
    have htotal' : counts.total = (s.store.deploymentTaskNodeCounts task₀.id).total := htotal
    have hfailed : counts.failed = (s.store.deploymentTaskNodeCounts task₀.id).failed := by omega
    refine agrees_of_outcome hs.targets hsettled ?_
    exact publishOutcome_congr htotal' hsucceeded hfailed

theorem countsCurrent_statement_iff (hs : Invariant taskID s) (h : OutcomeAgrees taskID s)
    (hcall : s.calls[i]? = some call) :
    CountsCurrent taskID s (.statement i now) ↔ OutcomeAgrees taskID (step s (.statement i now)) := by
  have hcounted := hs.counted call (List.mem_of_getElem? hcall)
  have hcurrent : CountsCurrent taskID s (.statement i now) ↔
      ∀ deadline rest counts, call = ⟨(taskID, deadline) :: rest, .write counts⟩ →
        counts.succeeded = (s.store.deploymentTaskNodeCounts taskID).succeeded := by
    constructor
    · rintro hcurrent deadline rest counts rfl
      exact hcurrent i now deadline rest counts rfl hcall
    · intro hwrites j now' deadline rest counts ha hcall'
      cases ha
      exact hwrites deadline rest counts (Option.some.inj (hcall.symm.trans hcall'))
  rw [hcurrent, step, hcall]
  obtain ⟨tasks, next⟩ := call
  cases tasks with
  | nil => exact iff_of_true (fun _ _ _ heq => by cases heq) h
  | cons first rest =>
    obtain ⟨id, deadline⟩ := first
    dsimp only [State.statement]
    cases hexecute : execute s.store id deadline now next with
    | error error =>
      -- the row of the task exists, so writing it does not fail
      refine iff_of_true (fun deadline rest counts heq => ?_) h
      cases heq
      obtain ⟨task, htask⟩ := hs.task
      rw [execute_write htask] at hexecute
      cases hexecute
    | ok result =>
      obtain ⟨db, after⟩ := result
      cases next with
      | confirm =>
        cases hexecute
        refine iff_of_true (fun _ _ _ heq => by cases heq) ?_
        exact h.settles hs (confirmApplied_settles s.store id now) _
      | count =>
        cases hexecute
        exact iff_of_true (fun _ _ _ heq => by cases heq) h
      | timeOut counts =>
        cases hexecute
        refine iff_of_true (fun _ _ _ heq => by cases heq) ?_
        exact h.settles hs (timeOutPending_settles s.store id _) _
      | write counts =>
        obtain ⟨rfl, rfl⟩ := execute_write_eq_ok hexecute
        by_cases hid : id = taskID
        · subst hid
          rw [outcomeAgrees_write_iff hs (hcounted deadline rest rfl)]
          constructor
          · exact fun hwrites => hwrites deadline rest counts rfl
          · rintro hsucceeded _ _ _ heq
            cases heq
            exact hsucceeded
        · refine iff_of_true (fun _ _ _ heq => ?_) (h.setTask_other hid _)
          cases heq
          exact absurd rfl hid
      | fail =>
        obtain ⟨rfl, rfl⟩ := execute_fail_eq_ok hexecute
        refine iff_of_true (fun _ _ _ heq => by cases heq) (h.setTask_other ?_ _)
        rintro rfl
        exact hcounted deadline rest rfl

/-- A step writes a wrong outcome exactly if it writes one from counts that are not current. -/
theorem countsCurrent_iff (hs : Invariant taskID s) (h : OutcomeAgrees taskID s) (a : Action) :
    CountsCurrent taskID s a ↔ OutcomeAgrees taskID (step s a) := by
  have hother : (∀ i now deadline rest counts, a = .statement i now →
      s.calls[i]? ≠ some ⟨(taskID, deadline) :: rest, .write counts⟩) →
      CountsCurrent taskID s a := by
    intro hne i now deadline rest counts ha hcall
    exact absurd hcall (hne i now deadline rest counts ha)
  cases a with
  | recordPublishApply nodeID report now =>
    refine iff_of_true (hother fun _ _ _ _ _ ha => by cases ha) ?_
    rw [step]
    cases hreport : s.store.recordPublishApply nodeID report now with
    | error error => exact h
    | ok db => exact h.settles hs (recordPublishApply_settles hreport) s.calls
  | heartbeatNode nodeID appliedVersion lastError agentVersion agentSHA256 activeUpgradeID now =>
    refine iff_of_true (hother fun _ _ _ _ _ ha => by cases ha) ?_
    have hsettles : SettlesPending s.store (heartbeatNode s.store nodeID appliedVersion lastError
      agentVersion agentSHA256 activeUpgradeID now) := .of_eq rfl rfl
    exact h.settles hs hsettles s.calls
  | reconcilePublishTasks =>
    exact iff_of_true (hother fun _ _ _ _ _ ha => by cases ha) h
  | statement i now =>
    cases hcall : s.calls[i]? with
    | none =>
      refine iff_of_true (hother ?_) ?_
      · intro j _ deadline rest counts ha
        cases ha
        rw [hcall]
        simp
      · rw [step, hcall]
        exact h
    | some call => exact countsCurrent_statement_iff hs h hcall

end Steps

theorem Started.invariant {taskID : String} {s : State} (h : Started taskID s) :
    Invariant taskID s := by
  obtain ⟨task, htask, hactive⟩ := h.task
  refine ⟨⟨task, htask⟩, h.targets, fun task' htask' hover => ?_, fun call hcall => ?_⟩
  · obtain rfl := Option.some.inj (htask.symm.trans htask')
    rw [hactive] at hover
    cases hover
  · rw [h.calls] at hcall
    cases hcall

/-- From an active task with targets, whatever statements follow in whatever order: the status
agrees with the targets in every state where the task is over exactly if every status is written
from counts that are still current. -/
theorem agrees_iff_countsCurrent {taskID : String} {s : State} (hstarted : Started taskID s)
    (as : List Action) :
    Always step (OutcomeAgrees taskID) s as ↔ Along step (CountsCurrent taskID) s as := by
  have hagrees : OutcomeAgrees taskID s := by
    intro task' htask' hover
    obtain ⟨task, htask, hactive⟩ := hstarted.task
    obtain rfl := Option.some.inj (htask.symm.trans htask')
    rw [hactive] at hover
    cases hover
  have hstep : ∀ s a, Invariant taskID s → Invariant taskID (step s a) := fun s a hs => hs.step a
  have hiff : ∀ s a, Invariant taskID s → OutcomeAgrees taskID s →
      (CountsCurrent taskID s a ↔ OutcomeAgrees taskID (step s a)) :=
    fun s a hs h => countsCurrent_iff hs h a
  exact (along_iff_always hstep hiff hstarted.invariant hagrees as).symm

/-! ### A report between the count and the timeout -/

/-- A publication that waits for two nodes until the time 5. -/
def waiting : State where
  store := {
    Store.empty with
    deploymentTasks := ⟨[⟨"task", .publishSite, "site", .applying, "", some 5, 0, 0⟩], by simp⟩
    publishTaskNodes := ⟨[⟨"task", "a", 1, .pending, "", "", none⟩,
      ⟨"task", "b", 1, .pending, "", "", none⟩], by decide⟩ }
  calls := []

theorem waiting_started : Started "task" waiting where
  task := ⟨_, rfl, rfl⟩
  targets := by decide
  calls := rfl

def applied : ApplyReport := ⟨1, .succeeded, "", ""⟩

/-- Both nodes report before the reconciliation. -/
def reportedInTime : List Action :=
  [.recordPublishApply "a" applied 1, .recordPublishApply "b" applied 2, .reconcilePublishTasks,
    .statement 0 3, .statement 0 3, .statement 0 3]

/-- The second node reports after the reconciliation has counted it as pending. -/
def reportedLate : List Action :=
  [.recordPublishApply "a" applied 1, .reconcilePublishTasks, .statement 0 6, .statement 0 6,
    .recordPublishApply "b" applied 6, .statement 0 6, .statement 0 6]

theorem countsCurrent_of_next {taskID : String} {s : State} {i : Nat} {now : Time}
    (next : Statement) (hnext : (s.calls[i]?).map Call.next = some next)
    (hcounts : ∀ counts, next = .write counts →
      counts.succeeded = (s.store.deploymentTaskNodeCounts taskID).succeeded) :
    CountsCurrent taskID s (.statement i now) := by
  intro j now' deadline rest counts ha hcall
  cases ha
  rw [hcall, Option.map_some, Option.some.injEq] at hnext
  exact hcounts counts hnext.symm

theorem reportedInTime_agrees : Always step (OutcomeAgrees "task") waiting reportedInTime := by
  refine (agrees_iff_countsCurrent waiting_started reportedInTime).mpr ?_
  have hreport : ∀ s nodeID now,
      CountsCurrent "task" s (.recordPublishApply nodeID applied now) := by
    intro s nodeID now i now' deadline rest counts ha
    cases ha
  have hlist : ∀ s, CountsCurrent "task" s .reconcilePublishTasks := by
    intro s i now deadline rest counts ha
    cases ha
  refine ⟨hreport _ _ _, hreport _ _ _, hlist _, ?_, ?_, ?_, trivial⟩
  · exact countsCurrent_of_next .confirm (by decide) fun _ h => by cases h
  · exact countsCurrent_of_next .count (by decide) fun _ h => by cases h
  · refine countsCurrent_of_next (.write ⟨2, 0, 2, 0⟩) (by decide) ?_
    rintro counts ⟨⟩
    decide

/-- Both targets have succeeded, and the task reports a partial success of one of two nodes. -/
theorem reportedLate_disagrees :
    ¬ Always step (OutcomeAgrees "task") waiting reportedLate := by
  intro h
  have hstatus : ((run step waiting reportedLate).store.deploymentTasks.find? "task").map
      DeploymentTask.status = some .partialSuccess := by decide
  have htargets : ∀ row ∈ (run step waiting reportedLate).store.taskNodes "task",
      row.status = .succeeded := by decide
  obtain ⟨task, htask, hmixed⟩ := Option.map_eq_some_iff.mp hstatus
  have hid : task.id = "task" := Table.key_of_find? htask
  obtain ⟨-, row, hrow, hnot⟩ := (h.last task htask (by rw [hmixed]; rfl)).partialSuccess.mp hmixed
  rw [hid] at hrow
  exact hnot (htargets row hrow)

end SimpleCdn.Reconciling
