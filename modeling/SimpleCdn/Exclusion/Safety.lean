import SimpleCdn.Exclusion.Bookkeeping

/-!
# Operations exclude each other

In every state of every run no node has an active upgrade together with a pending target of an
active task or an open uninstall workflow.  What carries the proof beside the checks of the
transactions is that no call takes up a task that still has pending targets: the task of a publish
call has no target before the commit, and that of a deletion none before it is staged and no
pending one once all have confirmed.
-/

namespace SimpleCdn.Exclusion

open Store Transition

/-- How tasks, targets and deletion jobs refer to each other. -/
structure Ordered (db : Store) : Prop where
  tasks : ∀ task ∈ db.deploymentTasks, task.id ∈ db.issuedIDs
  rows : ∀ row ∈ db.publishTaskNodes, ∃ task ∈ db.deploymentTasks, task.id = row.taskID ∧
    task.kind.certificate = false
  jobs : ∀ job ∈ db.siteDeletionJobs, TaskOf db .deleteSite job.taskID
  withdrawing : ∀ job ∈ db.siteDeletionJobs, job.phase = .withdrawingDNS → NoTargets db job.taskID

/-- The task of a publish call is a publish task, without a target until the commit. -/
structure PublishReady (db : Store) (call : PublishCall) : Prop where
  task : TaskOf db .publishSite call.taskID
  untargeted : call.stage ≠ .committed → NoTargets db call.taskID

/-- The task of a deletion call is a deletion task, without a target before it is staged, and
without a pending one once all have confirmed. -/
structure DeletionReady (db : Store) (call : DeletionCall) : Prop where
  task : TaskOf db .deleteSite call.taskID
  untargeted : call.stage = .withdrawing ∨ call.stage = .staging → NoTargets db call.taskID
  confirmed : call.stage = .confirmed → NoPending db call.taskID

structure Inv (s : State) : Prop where
  exclusive : Exclusive s.db
  ordered : Ordered s.db
  publish : ∀ call, s.publish = some call → PublishReady s.db call
  deletion : ∀ call, s.deletion = some call → DeletionReady s.db call

section

variable {T : List String} {db db' : Store} {s : State} {taskID nodeID : String} {now : Time}
  {kind kind' : TaskKind}

/-! ### Tasks and their targets -/

theorem TaskOf.unique (h : TaskOf db kind taskID) (h' : TaskOf db kind' taskID) : kind = kind' := by
  obtain ⟨task, htask, hid, rfl⟩ := h
  obtain ⟨task', htask', hid', rfl⟩ := h'
  rw [Table.eq_of_key_eq htask htask' (hid.trans hid'.symm)]

theorem TaskOf.kept (h : TaskOf db kind taskID) (hkept : TasksKept db db') :
    TaskOf db' kind taskID := by
  obtain ⟨task, htask, hid, hkind⟩ := h
  obtain ⟨task', htask', hid', hkind'⟩ := hkept.kept task htask
  exact ⟨task', htask', hid'.trans hid, hkind'.trans hkind⟩

theorem NoTargets.kept (h : NoTargets db taskID) (hkept : TargetsKept T db db')
    (hT : taskID ∉ T) : NoTargets db' taskID := by
  intro row' hrow' hid
  rcases hkept row' hrow' with ⟨row, hrow, hsame⟩ | ⟨hnew, -⟩
  · exact h row hrow (hsame.taskID.trans hid)
  · exact hT (hid ▸ hnew)

theorem NoPending.kept (h : NoPending db taskID) (hkept : TargetsKept T db db')
    (hT : taskID ∉ T) : NoPending db' taskID := by
  intro row' hrow' hid hpending
  rcases hkept row' hrow' with ⟨row, hrow, hsame⟩ | ⟨hnew, -⟩
  · exact h row hrow (hsame.taskID.trans hid) (hsame.pending hpending)
  · exact hT (hid ▸ hnew)

theorem NoTargets.noPending (h : NoTargets db taskID) : NoPending db taskID :=
  fun row hrow hid => absurd hid (h row hrow)

theorem Ordered.targetIssued (h : Ordered db) {row : PublishTaskNodeRow}
    (hrow : row ∈ db.publishTaskNodes) : row.taskID ∈ db.issuedIDs := by
  obtain ⟨task, htask, hid, -⟩ := h.rows row hrow
  rw [← hid]
  exact h.tasks task htask

theorem Ordered.noTargets (h : Ordered db) (hfresh : taskID ∉ db.issuedIDs) : NoTargets db taskID :=
  fun _ hrow hid => hfresh (hid ▸ h.targetIssued hrow)

/-! ### What an operation keeps -/

/-- New targets are targets of `T`, whose tasks are no certificate jobs. -/
theorem Ordered.kept (h : Ordered db) (hkept : Bookkept T db db')
    (hT : ∀ id ∈ T, ∃ kind, TaskOf db kind id ∧ kind.certificate = false) : Ordered db' where
  tasks := by
    intro task' htask'
    rcases hkept.tasks.moves task' htask' with ⟨task, htask, hsame⟩ | ⟨hissued, -⟩
    · rw [← hsame.id]
      exact hkept.issued (h.tasks task htask)
    · exact hissued
  rows := by
    intro row' hrow'
    have hbefore : ∃ kind, TaskOf db kind row'.taskID ∧ kind.certificate = false := by
      rcases hkept.rows row' hrow' with ⟨row, hrow, hsame⟩ | ⟨hnew, -⟩
      · obtain ⟨task, htask, hid, hkind⟩ := h.rows row hrow
        exact ⟨task.kind, ⟨task, htask, hid.trans hsame.taskID, rfl⟩, hkind⟩
      · exact hT _ hnew
    obtain ⟨kind, htask, hkind⟩ := hbefore
    obtain ⟨task, hmem, hid, rfl⟩ := htask.kept hkept.tasks
    exact ⟨task, hmem, hid, hkind⟩
  jobs := by
    intro job' hjob'
    rcases hkept.jobs job' hjob' with ⟨job, hjob, hsame⟩ | ⟨hnew, -, -⟩
    · rw [← hsame.taskID]
      exact (h.jobs job hjob).kept hkept.tasks
    · exact hnew
  withdrawing := by
    intro job' hjob' hphase
    rcases hkept.jobs job' hjob' with ⟨job, hjob, hsame⟩ | ⟨-, hfresh, hT'⟩
    · obtain ⟨hT', hfirst | htargets⟩ := hsame.withdrawing hphase
      · refine NoTargets.kept ?_ hkept.rows hT'
        rw [← hsame.taskID]
        exact h.withdrawing job hjob hfirst
      · exact htargets.kept hkept.rows hT'
    · exact (h.noTargets hfresh).kept hkept.rows hT'

/-- A node is a pending target of an active task only if it was one, or got a target now. -/
theorem Bookkept.publication (h : Bookkept T db db') (hordered : Ordered db) {n : String}
    (hn : db'.hasActiveNodePublication n = true) :
    db.hasActiveNodePublication n = true ∨ db.hasActiveNodeUpgrade n = false := by
  obtain ⟨row', hrow', hclaims⟩ := Table.any_eq_true.mp hn
  simp only [Bool.and_eq_true, decide_eq_true_eq] at hclaims
  obtain ⟨⟨rfl, hpending⟩, hactive⟩ := hclaims
  rcases h.rows row' hrow' with ⟨row, hrow, hsame⟩ | ⟨-, hnot⟩
  · left
    obtain ⟨task', htask', htaskActive⟩ := Table.any_eq_true.mp hactive
    simp only [Bool.and_eq_true, decide_eq_true_eq] at htaskActive
    have hrowPending := hsame.pending hpending
    refine Table.any_eq_true.mpr ⟨row, hrow, ?_⟩
    simp only [Bool.and_eq_true, decide_eq_true_eq]
    refine ⟨⟨hsame.nodeID, hrowPending⟩, ?_⟩
    rcases h.tasks.moves task' htask' with ⟨task, htask, hkept⟩ | ⟨-, hfresh⟩
    · have hid : task.id = row.taskID :=
        hkept.id.trans (htaskActive.1.trans hsame.taskID.symm)
      rcases hkept.active htaskActive.2 with hbefore | hnone
      · refine Table.any_eq_true.mpr ⟨task, htask, ?_⟩
        simp only [Bool.and_eq_true, decide_eq_true_eq]
        exact ⟨hid, hbefore⟩
      · exact absurd hrowPending (hnone row hrow hid.symm)
    · -- the task of a target has been there
      have hissued := hordered.targetIssued hrow
      rw [hsame.taskID, ← htaskActive.1] at hissued
      exact absurd hissued hfresh
  · exact .inr hnot

theorem Exclusive.kept (h : Exclusive db) (hordered : Ordered db) (heffect : Effect T db db') :
    Exclusive db' where
  publication := by
    intro n hupgrade
    have hbefore := heffect.upgrades n hupgrade
    rw [Bool.eq_false_iff]
    intro hn
    rcases heffect.publication hordered hn with hclaimed | hnot
    · rw [h.publication n hbefore] at hclaimed
      cases hclaimed
    · rw [hbefore] at hnot
      cases hnot
  uninstall := by
    intro n hupgrade
    have hbefore := h.uninstall n (heffect.upgrades n hupgrade)
    rw [Bool.eq_false_iff]
    intro hn
    rw [heffect.uninstalls n hn] at hbefore
    cases hbefore

theorem PublishReady.kept {call : PublishCall} (h : PublishReady db call)
    (hkept : Bookkept T db db') (hT : call.taskID ∉ T) : PublishReady db' call where
  task := h.task.kept hkept.tasks
  untargeted := fun hstage => (h.untargeted hstage).kept hkept.rows hT

theorem DeletionReady.kept {call : DeletionCall} (h : DeletionReady db call)
    (hkept : Bookkept T db db') (hT : call.taskID ∉ T) : DeletionReady db' call where
  task := h.task.kept hkept.tasks
  untargeted := fun hstage => (h.untargeted hstage).kept hkept.rows hT
  confirmed := fun hstage => (h.confirmed hstage).kept hkept.rows hT

/-- The two calls work on different tasks. -/
theorem calls_differ {call : PublishCall} {call' : DeletionCall} (h : PublishReady db call)
    (h' : DeletionReady db call') : call.taskID ≠ call'.taskID := by
  intro heq
  have hkind := (heq ▸ h.task).unique h'.task
  cases hkind

/-- An operation of nobody's task. -/
theorem Inv.effect (h : Inv s) (heffect : Effect [] s.db db') : Inv { s with db := db' } where
  exclusive := h.exclusive.kept h.ordered heffect
  ordered := h.ordered.kept heffect.toBookkept nofun
  publish := fun call hcall => (h.publish call hcall).kept heffect.toBookkept List.not_mem_nil
  deletion := fun call hcall => (h.deletion call hcall).kept heffect.toBookkept List.not_mem_nil

theorem Inv.tryWrite (h : Inv s) {result : Except StoreError Store}
    (heffect : ∀ db', result = .ok db' → Effect [] s.db db') : Inv (s.tryWrite result) := by
  unfold State.tryWrite
  split
  · next db' => exact h.effect (heffect db' rfl)
  · exact h

/-- An operation of a call, which may be through with it afterwards. -/
theorem Inv.move (h : Inv s) (heffect : Effect T s.db db')
    (hT : ∀ id ∈ T, ∃ kind, TaskOf s.db kind id ∧ kind.certificate = false)
    {publish : Option PublishCall} {deletion : Option DeletionCall}
    (hpublish : ∀ call, publish = some call → PublishReady db' call)
    (hdeletion : ∀ call, deletion = some call → DeletionReady db' call) :
    Inv { s with db := db', publish := publish, deletion := deletion } where
  exclusive := h.exclusive.kept h.ordered heffect
  ordered := h.ordered.kept heffect.toBookkept hT
  publish := hpublish
  deletion := hdeletion

theorem not_mem_singleton {id id' : String} (h : id ≠ id') : id ∉ [id'] :=
  fun hmem => h (List.mem_singleton.mp hmem)

/-! ### Publish calls -/

theorem Inv.startPublish (h : Inv s) (siteID taskID : String) (now : Time) :
    Inv (s.startPublish siteID taskID now) := by
  unfold State.startPublish
  split
  · split
    · exact h
    · split
      · next task db' hcreate =>
        obtain ⟨heffect, hnew⟩ := createPublishTask_effect hcreate
        obtain ⟨hfresh, htask⟩ := hnew rfl
        refine h.move heffect nofun (fun call hcall => ?_) fun call hcall =>
          (h.deletion call hcall).kept heffect.toBookkept List.not_mem_nil
        obtain rfl := Option.some.inj hcall
        refine ⟨htask, fun _ => ?_⟩
        exact (h.ordered.noTargets hfresh).kept heffect.rows List.not_mem_nil
      · exact h
      · exact h
  · exact h

/-- A publish call that is over, or has gone on without new targets. -/
theorem Inv.publishMoves (h : Inv s) (heffect : Effect [] s.db db') {call : PublishCall}
    (hcall : s.publish = some call) {publish : Option PublishCall}
    (hnext : ∀ call', publish = some call' → call'.taskID = call.taskID ∧ call.stage ≠ .committed) :
    Inv { s with db := db', publish := publish } := by
  refine h.move heffect nofun (fun call' hcall' => ?_) fun deletion hdeletion =>
    (h.deletion deletion hdeletion).kept heffect.toBookkept List.not_mem_nil
  obtain ⟨hid, hstage⟩ := hnext call' hcall'
  have hready := (h.publish call hcall).kept heffect.toBookkept List.not_mem_nil
  refine ⟨hid ▸ hready.task, fun _ => hid ▸ hready.untargeted hstage⟩

theorem Inv.updatePublish (h : Inv s) {call : PublishCall} (hcall : s.publish = some call)
    (hstage : call.stage ≠ .committed) {status : TaskStatus} {detail : String}
    (hupdate : s.db.updateTask call.taskID status detail now = .ok db') (stage : PublishStage) :
    Inv { s with db := db', publish := some { call with stage := stage } } := by
  have heffect := updateTask_effect
    (fun _ => ((h.publish call hcall).untargeted hstage).noPending) hupdate
  refine h.publishMoves heffect hcall fun call' hcall' => ?_
  obtain rfl := Option.some.inj hcall'
  exact ⟨rfl, hstage⟩

theorem Inv.publishOver (h : Inv s) : Inv { s with publish := none } where
  exclusive := h.exclusive
  ordered := h.ordered
  publish := nofun
  deletion := h.deletion

theorem Inv.publishStep (h : Inv s) {call : PublishCall} (hcall : s.publish = some call)
    (rendered : List NodeStateUpdate × List PublishTaskNode) (now : Time) :
    Inv (s.publishStep call rendered now) := by
  have hready := h.publish call hcall
  unfold State.publishStep
  split
  · next hstage =>
    split
    · next hupdate => exact h.updatePublish hcall (by rw [hstage]; nofun) hupdate _
    · exact h.publishOver
  · next hstage =>
    split
    · next hupdate => exact h.updatePublish hcall (by rw [hstage]; nofun) hupdate _
    · exact h.publishOver
  · split
    · next db' hcommit =>
      have hjobs : ∀ job ∈ s.db.siteDeletionJobs, job.taskID ≠ call.taskID := by
        intro job hjob heq
        have hkind := (heq ▸ h.ordered.jobs job hjob).unique hready.task
        cases hkind
      have heffect := commitSitePublication_effect hjobs hcommit
      refine h.move heffect (fun id hid => ?_) (fun call' hcall' => ?_) fun deletion hdeletion => ?_
      · rw [List.mem_singleton.mp hid]
        exact ⟨_, hready.task, rfl⟩
      · split at hcall'
        · obtain rfl := Option.some.inj hcall'
          exact ⟨hready.task.kept heffect.tasks, fun hstage => absurd rfl hstage⟩
        · cases hcall'
      · exact (h.deletion deletion hdeletion).kept heffect.toBookkept
          (not_mem_singleton (calls_differ hready (h.deletion deletion hdeletion)).symm)
    · exact h
  · exact h.publishMoves (setTask_effect fun hactive => by cases hactive) hcall
      fun _ hnone => by cases hnone

/-! ### Deletion calls -/

theorem noPending_of_counts (h : (db.deploymentTaskNodeCounts taskID).pending = 0) :
    NoPending db taskID := by
  intro row hrow hid hpending
  have hmem : row ∈ (db.taskNodes taskID).filter fun row => row.status = .pending :=
    List.mem_filter.mpr ⟨mem_taskNodes.mpr ⟨hrow, hid⟩, decide_eq_true hpending⟩
  rw [List.length_eq_zero_iff.mp h] at hmem
  cases hmem

theorem noPending_timeOutPending (db : Store) (taskID detail : String) :
    NoPending (db.timeOutPending taskID detail) taskID := by
  intro row' hrow' hid hpending
  obtain ⟨row, hrow, rfl⟩ := List.mem_map.mp hrow'
  split at hpending
  · cases hpending
  · next hselected =>
    rw [if_neg hselected] at hid
    exact hselected (by simp [hid, hpending])

/-- The stage after counting has no pending target, if it is the one that goes on. -/
theorem afterCounting_confirmed {counts : TaskNodeCounts} {deadline : Option Time}
    (h : afterCounting counts deadline now = some .confirmed) : counts.pending = 0 := by
  unfold afterCounting at h
  split at h
  · split at h
    · cases h
    · cases h
  · omega

theorem afterCounting_stage {counts : TaskNodeCounts} {deadline : Option Time}
    {stage : DeletionStage} (h : afterCounting counts deadline now = some stage) :
    stage ≠ .withdrawing ∧ stage ≠ .staging := by
  unfold afterCounting afterSettling at h
  split at h
  · split at h
    · cases h
      exact ⟨nofun, nofun⟩
    · cases h
  · split at h
    · cases h
      exact ⟨nofun, nofun⟩
    · split at h
      · cases h
        exact ⟨nofun, nofun⟩
      · cases h

theorem afterSettling_stage {counts : TaskNodeCounts} {stage : DeletionStage}
    (h : afterSettling counts = some stage) : stage ≠ .withdrawing ∧ stage ≠ .staging := by
  unfold afterSettling at h
  split at h
  · cases h
    exact ⟨nofun, nofun⟩
  · split at h
    · cases h
      exact ⟨nofun, nofun⟩
    · cases h

/-- The next statement of a deletion: what it does, and what is known of the stage after it. -/
structure DeletionMoves (s : State) (call : DeletionCall) (T : List String) (db' : Store)
    (next : Option DeletionStage) : Prop where
  effect : Effect T s.db db'
  own : ∀ id ∈ T, id = call.taskID
  untargeted : next = some .withdrawing ∨ next = some .staging → NoTargets db' call.taskID
  confirmed : next = some .confirmed → NoPending db' call.taskID

/-- Most stages are entered without a condition. -/
theorem DeletionMoves.plain {call : DeletionCall} {next : Option DeletionStage}
    (heffect : Effect [] s.db db') (hnext : next ≠ some .withdrawing ∧ next ≠ some .staging ∧
      next ≠ some .confirmed) : DeletionMoves s call [] db' next where
  effect := heffect
  own := nofun
  untargeted := by
    rintro (hwithdrawing | hstaging)
    · exact absurd hwithdrawing hnext.1
    · exact absurd hstaging hnext.2.1
  confirmed := fun hconfirmed => absurd hconfirmed hnext.2.2

theorem toOption_map_eq_some {α β : Type} {x : Except StoreError α} {f : α → β} {b : β}
    (h : x.toOption.map f = some b) : ∃ a, x = .ok a ∧ f a = b := by
  cases x with
  | error e => cases h
  | ok a => exact ⟨a, rfl, Option.some.inj h⟩

theorem Inv.deletionMoves (h : Inv s) {call : DeletionCall} (hcall : s.deletion = some call)
    {rendered : List NodeStateUpdate × List PublishTaskNode} {next : Option DeletionStage}
    (hstep : deletionStatement s.db call rendered now = some (db', next)) :
    ∃ T, DeletionMoves s call T db' next := by
  have hready := h.deletion call hcall
  unfold deletionStatement at hstep
  split at hstep
  · split at hstep
    · cases hstep
      exact ⟨[], .plain (.refl _) ⟨nofun, nofun, nofun⟩⟩
    · next job hjob =>
      have hmem : job ∈ s.db.siteDeletionJobs := List.mem_of_find?_eq_some hjob
      have hid : job.taskID = call.taskID := by
        simpa [siteDeletionJobForTask] using List.find?_some hjob
      split at hstep
      · next hphase =>
        cases hstep
        refine ⟨[], .refl _, nofun, fun _ => ?_, nofun⟩
        rw [← hid]
        exact h.ordered.withdrawing job hmem hphase
      · cases hstep
        exact ⟨[], .plain (.refl _) ⟨nofun, nofun, nofun⟩⟩
      · cases hstep
        exact ⟨[], .plain (.refl _) ⟨nofun, nofun, nofun⟩⟩
  · next hstage =>
    obtain ⟨db₁, hphase, hnext⟩ := toOption_map_eq_some hstep
    obtain ⟨rfl, rfl⟩ := Prod.mk.inj hnext
    have hnone := hready.untargeted (.inl hstage)
    have heffect := setSiteDeletionPhase_effect (fun _ => hnone) (fun _ => hnone.noPending) hphase
    exact ⟨[], heffect, nofun, fun _ => hnone.kept heffect.rows List.not_mem_nil, nofun⟩
  · next hstage =>
    obtain ⟨db₁, hstaged, hnext⟩ := toOption_map_eq_some hstep
    obtain ⟨rfl, rfl⟩ := Prod.mk.inj hnext
    have heffect := stageSiteDeletion_effect (hready.untargeted (.inr hstage)) hstaged
    refine ⟨[call.taskID], heffect, fun id hid => List.mem_singleton.mp hid, ?_, nofun⟩
    rintro (hnext | hnext) <;> cases hnext
  · obtain ⟨task, -, hnext⟩ := toOption_map_eq_some hstep
    obtain ⟨rfl, rfl⟩ := Prod.mk.inj hnext
    refine ⟨[], .plain (.refl _) ?_⟩
    split
    · exact ⟨nofun, nofun, nofun⟩
    · exact ⟨nofun, nofun, nofun⟩
  · cases hstep
    exact ⟨[], .plain (confirmApplied_effect _ _ now) ⟨nofun, nofun, nofun⟩⟩
  · obtain ⟨rfl, rfl⟩ := Prod.mk.inj (Option.some.inj hstep)
    refine ⟨[], .refl _, nofun, ?_, fun hconfirmed => noPending_of_counts
      (afterCounting_confirmed hconfirmed)⟩
    rintro (hnext | hnext)
    · exact absurd rfl (afterCounting_stage hnext).1
    · exact absurd rfl (afterCounting_stage hnext).2
  · obtain ⟨rfl, rfl⟩ := Prod.mk.inj (Option.some.inj hstep)
    refine ⟨[], timeOutPending_effect _ _ _, nofun, ?_, fun _ => noPending_timeOutPending _ _ _⟩
    rintro (hnext | hnext)
    · exact absurd rfl (afterSettling_stage hnext).1
    · exact absurd rfl (afterSettling_stage hnext).2
  · next counts hstage =>
    obtain ⟨db₁, hupdate, hnext⟩ := toOption_map_eq_some hstep
    obtain ⟨rfl, rfl⟩ := Prod.mk.inj hnext
    refine ⟨[], .plain (updateTask_effect (fun hactive => ?_) hupdate) ⟨nofun, nofun, nofun⟩⟩
    rw [deletionOutcome_active] at hactive
    cases hactive
  · next hstage =>
    obtain ⟨db₁, hphase, hnext⟩ := toOption_map_eq_some hstep
    obtain ⟨rfl, rfl⟩ := Prod.mk.inj hnext
    have heffect := setSiteDeletionPhase_effect (fun hfirst => by cases hfirst)
      (fun _ => hready.confirmed hstage) hphase
    exact ⟨[], .plain heffect ⟨nofun, nofun, nofun⟩⟩
  · obtain ⟨db₁, hcomplete, hnext⟩ := toOption_map_eq_some hstep
    obtain ⟨rfl, rfl⟩ := Prod.mk.inj hnext
    exact ⟨[], .plain (completeSiteDeletion_effect hcomplete) ⟨nofun, nofun, nofun⟩⟩

theorem Inv.deletionStep (h : Inv s) {call : DeletionCall} (hcall : s.deletion = some call)
    (rendered : List NodeStateUpdate × List PublishTaskNode) (now : Time) :
    Inv (s.deletionStep call rendered now) := by
  have hready := h.deletion call hcall
  unfold State.deletionStep
  split
  · next db' next hstep =>
    obtain ⟨T, hmoves⟩ := h.deletionMoves hcall hstep
    have htask := hready.task.kept hmoves.effect.tasks
    refine h.move hmoves.effect (fun id hid => ?_) (fun publish hpublish => ?_)
      fun call' hcall' => ?_
    · rw [hmoves.own id hid]
      exact ⟨_, hready.task, rfl⟩
    · refine (h.publish publish hpublish).kept hmoves.effect.toBookkept fun hmem => ?_
      exact calls_differ (h.publish publish hpublish) hready (hmoves.own _ hmem)
    · obtain ⟨stage, hstage, rfl⟩ := Option.map_eq_some_iff.mp hcall'
      refine ⟨htask, ?_, ?_⟩
      · rintro (hwithdrawing | hstaging)
        · exact hmoves.untargeted (.inl (hstage.trans (congrArg some hwithdrawing)))
        · exact hmoves.untargeted (.inr (hstage.trans (congrArg some hstaging)))
      · intro hconfirmed
        exact hmoves.confirmed (hstage.trans (congrArg some hconfirmed))
  · exact h

/-! ### All actions -/

theorem Inv.setDb (h : Inv s) (heffect : Effect [] s.db db') {publish : Option PublishCall}
    (hpublish : ∀ call, publish = some call → s.publish = some call)
    {deletion : Option DeletionCall}
    (hdeletion : ∀ call, deletion = some call → s.deletion = some call) :
    Inv { s with db := db', publish := publish, deletion := deletion } :=
  h.move heffect nofun
    (fun call hcall => (h.publish call (hpublish call hcall)).kept heffect.toBookkept
      List.not_mem_nil)
    fun call hcall => (h.deletion call (hdeletion call hcall)).kept heffect.toBookkept
      List.not_mem_nil

/-- A reconciliation holds nothing that the invariant is about. -/
theorem Inv.reconciling (h : Inv s) (reconciles : List Reconciling.Call) :
    Inv { s with reconciles := reconciles } where
  exclusive := h.exclusive
  ordered := h.ordered
  publish := h.publish
  deletion := h.deletion

theorem Inv.reconcileStep (h : Inv s) (i : Nat) (call : Reconciling.Call) (now : Time) :
    Inv (s.reconcileStep i call now) := by
  unfold State.reconcileStep
  split
  · exact h
  · split
    · next hexecute => exact (h.effect (execute_effect hexecute)).reconciling _
    · exact h.reconciling _

/-- A deletion call takes up an active task, of a new deletion or of one under way. -/
theorem Inv.advance (h : Inv s) (htask : TaskOf s.db .deleteSite taskID) :
    Inv { s with deletion := some ⟨taskID, .advancing⟩ } where
  exclusive := h.exclusive
  ordered := h.ordered
  publish := h.publish
  deletion := by
    intro call hcall
    obtain rfl := Option.some.inj hcall
    refine ⟨htask, ?_, fun hstage => by cases hstage⟩
    rintro (hstage | hstage) <;> cases hstage

theorem taskOf_of_taskActive (h : db.taskActive taskID [kind] = true) :
    TaskOf db kind taskID := by
  unfold Store.taskActive at h
  split at h
  · next task hfind =>
    simp only [List.contains_cons, List.contains_nil, Bool.or_false, Bool.and_eq_true,
      beq_iff_eq] at h
    exact ⟨task, Table.mem_of_find? hfind, Table.key_of_find? hfind, h.1⟩
  · cases h

/-- An upgrade claims a node that no publication and no uninstall claims. -/
theorem Inv.startUpgrade (h : Inv s) {targetSHA256 : String} {deadline : Time}
    (hstart : s.db.createOrGetNodeUpgrade nodeID taskID targetSHA256 deadline now = .ok db') :
    Inv { s with db := db' } := by
  rcases createOrGetNodeUpgrade_claims hstart with
    rfl | ⟨huninstall, hpublication, tasks, rfl, hrows⟩
  · exact h
  · have hkept : Bookkept [] s.db { s.db with
        issuedIDs := taskID :: s.db.issuedIDs, nodeUpgradeTasks := tasks } :=
      .of_eq rfl rfl rfl (List.subset_cons_self _ _)
    have hclaimed : ∀ n, (tasks.any fun task => task.nodeID = n && task.status.active) = true →
        s.db.hasActiveNodeUpgrade n = true ∨ n = nodeID := by
      intro n hn
      obtain ⟨task, htask, hactive⟩ := Table.any_eq_true.mp hn
      rcases hrows task htask with hold | hnew
      · exact .inl (Table.any_eq_true.mpr ⟨task, hold, hactive⟩)
      · simp only [Bool.and_eq_true, decide_eq_true_eq] at hactive
        exact .inr (hactive.1.symm.trans hnew)
    refine ⟨⟨fun n hn => ?_, fun n hn => ?_⟩, h.ordered.kept hkept nofun,
      fun call hcall => (h.publish call hcall).kept hkept List.not_mem_nil,
      fun call hcall => (h.deletion call hcall).kept hkept List.not_mem_nil⟩
    · rcases hclaimed n hn with hold | rfl
      · exact h.exclusive.publication n hold
      · exact hpublication
    · rcases hclaimed n hn with hold | rfl
      · exact h.exclusive.uninstall n hold
      · exact huninstall

/-- An uninstall claims a node that is not being upgraded. -/
theorem Inv.prepareUninstall (h : Inv s) {affectedSiteIDs : List String} {readyAt : Time}
    (hprepare : s.db.prepareNodeUninstall nodeID affectedSiteIDs readyAt now = .ok db') :
    Inv { s with db := db' } := by
  obtain ⟨hupgrade, jobs, rfl, hrows⟩ := prepareNodeUninstall_claims hprepare
  have hkept : Bookkept [] s.db { s.db with nodeUninstallJobs := jobs } :=
    .of_eq rfl rfl rfl (List.Subset.refl _)
  refine ⟨⟨h.exclusive.publication, fun n hn => ?_⟩, h.ordered.kept hkept nofun,
    fun call hcall => (h.publish call hcall).kept hkept List.not_mem_nil,
    fun call hcall => (h.deletion call hcall).kept hkept List.not_mem_nil⟩
  rw [Bool.eq_false_iff]
  intro huninstall
  obtain ⟨job, hjob, hopen⟩ := Table.any_eq_true.mp huninstall
  rcases hrows job hjob with hold | hnew
  · have hbefore := h.exclusive.uninstall n hn
    rw [show s.db.hasActiveNodeUninstall n = true from
      Table.any_eq_true.mpr ⟨job, hold, hopen⟩] at hbefore
    cases hbefore
  · simp only [Bool.and_eq_true, decide_eq_true_eq] at hopen
    have hclaimed : s.db.hasActiveNodeUpgrade n = true := hn
    rw [← hopen.1, hnew, hupgrade] at hclaimed
    cases hclaimed

theorem Inv.node (h : Inv s) {op : NodeOp} (hheartbeat : isHeartbeat op = false)
    (happly : op.apply s.db now = .ok db') : Inv { s with db := db' } := by
  by_cases hprepares : prepares op = true
  · cases op with
    | prepareUninstall nodeID affectedSiteIDs readyAt => exact h.prepareUninstall happly
    | _ => cases hprepares
  · exact h.effect (nodeOp_effect hheartbeat (Bool.eq_false_iff.mpr hprepares) happly)

/-- A certificate job's task has no targets. -/
theorem Ordered.certificateTask (h : Ordered db)
    (hcertificate : Exclusion.certificateTask db taskID = true) : NoTargets db taskID := by
  intro row hrow hid
  obtain ⟨task, htask, htaskID, hkind⟩ := h.rows row hrow
  unfold Exclusion.certificateTask at hcertificate
  cases hfind : db.deploymentTasks.find? taskID with
  | none =>
    rw [hfind] at hcertificate
    cases hcertificate
  | some task' =>
    have hsame : task = task' := Table.eq_of_key_eq htask (Table.mem_of_find? hfind)
      ((htaskID.trans hid).trans (Table.key_of_find? hfind).symm)
    have hkind' : task'.kind.certificate = true := by simpa [hfind] using hcertificate
    rw [← hsame, hkind] at hkind'
    cases hkind'

theorem Inv.step (h : Inv s) (a : Action) : Inv (step s a) := by
  cases a with
  | publishSite siteID taskID now => exact h.startPublish siteID taskID now
  | publishStep rendered now =>
    unfold Exclusion.step
    dsimp only
    split
    · next hcall => exact h.publishStep hcall rendered now
    · exact h
  | publishFails detail now =>
    unfold Exclusion.step
    dsimp only
    split
    · exact h.setDb (setTask_effect fun hactive => by cases hactive) (fun _ hnone => by cases hnone)
        fun _ hcall => hcall
    · exact h
  | saveNodeStates updates now =>
    refine h.tryWrite fun db' hsave => ?_
    obtain ⟨states, rfl⟩ := saveNodeStates_eq_ok hsave
    exact .of_eq rfl rfl rfl (List.Subset.refl _) rfl rfl
  | beginSiteDeletion siteID taskID actor remoteAddr now =>
    unfold Exclusion.step
    dsimp only
    split
    · next hbegin =>
      obtain ⟨heffect, htask⟩ := beginSiteDeletion_effect hbegin
      exact (h.effect heffect).advance htask
    · exact h
  | advanceDeletion taskID =>
    unfold Exclusion.step
    dsimp only
    split
    · split
      · next hactive => exact h.advance (taskOf_of_taskActive hactive)
      · exact h
    · exact h
  | deletionStep rendered now =>
    unfold Exclusion.step
    dsimp only
    split
    · next hcall => exact h.deletionStep hcall rendered now
    · exact h
  | deletionFails detail now =>
    unfold Exclusion.step
    dsimp only
    split
    · exact h.setDb (setTask_effect fun hactive => by cases hactive) (fun _ hcall => hcall)
        fun _ hnone => by cases hnone
    · exact h
  | reconcilePublishTasks => exact h.reconciling _
  | reconcileStep i now =>
    unfold Exclusion.step
    dsimp only
    split
    · exact h.reconcileStep i _ now
    · exact h
  | recordPublishApply nodeID report now =>
    exact h.tryWrite fun db' hreport => recordPublishApply_effect hreport
  | heartbeatNode nodeID appliedVersion lastError agentVersion agentSHA256 activeUpgradeID now =>
    exact h.effect (.of_eq rfl rfl rfl (List.Subset.refl _) rfl rfl)
  | node op now =>
    show Inv (if isHeartbeat op = true then s else s.tryWrite (op.apply s.db now))
    split
    · exact h
    · next hheartbeat =>
      unfold State.tryWrite
      split
      · next happly => exact h.node (Bool.eq_false_iff.mpr hheartbeat) happly
      · exact h
  | startUpgrade nodeID id targetSHA256 deadline now =>
    show Inv (s.tryWrite _)
    unfold State.tryWrite
    split
    · next hstart => exact h.startUpgrade hstart
    · exact h
  | upgradeReport nodeID report now =>
    exact h.tryWrite fun db' hreport => recordNodeUpgradeReport_effect hreport
  | reconcileNodeUpgrades now => exact h.effect (reconcileNodeUpgrades_effect s.db now)
  | failActiveNodeUpgrade nodeID code detail now =>
    exact h.effect (failActiveNodeUpgrade_effect s.db nodeID code detail now)
  | certificateTask kind siteID taskID detail now =>
    refine h.tryWrite fun db' hcreate => ?_
    obtain ⟨⟨task, created, db₁⟩, hcreated, rfl⟩ := map_eq_ok.mp hcreate
    exact certificateTask_effect hcreated
  | updateCertificateTask taskID status detail now =>
    show Inv (if certificateTask s.db taskID = true then _ else s)
    split
    · next hcertificate =>
      exact h.tryWrite fun db' hupdate =>
        updateTask_effect (fun _ => (h.ordered.certificateTask hcertificate).noPending) hupdate
    · exact h
  | failActiveCertificateTasks detail now =>
    exact h.effect (failActiveCertificateTasks_effect s.db detail now)
  | otherTables tables =>
    exact h.effect (.of_eq rfl rfl rfl (List.subset_append_right _ _) rfl rfl)
  | restart =>
    have hforgets : Inv { s with publish := none, deletion := none } :=
      h.setDb (.refl s.db) (fun _ hnone => by cases hnone) fun _ hnone => by cases hnone
    exact hforgets.reconciling []

theorem inv_initial : Inv initial where
  exclusive := by
    constructor
    · intro n h
      cases h
    · intro n h
      cases h
  ordered := by
    constructor
    · intro task h
      cases h
    · intro row h
      cases h
    · intro job h
      cases h
    · intro job h
      cases h
  publish := by
    intro call h
    cases h
  deletion := by
    intro call h
    cases h

end

/-- In every state of every run a node with an active upgrade is neither a pending target of an
active task nor being uninstalled. -/
theorem operations_exclusive (as : List Action) : Exclusive (run step initial as).db :=
  (run_invariant (P := Inv) (fun _ a h => h.step a) inv_initial as).exclusive

end SimpleCdn.Exclusion
