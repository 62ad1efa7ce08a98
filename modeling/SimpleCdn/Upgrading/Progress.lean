import SimpleCdn.Upgrading.Tasks

/-!
# When online upgrades make progress

An edge forgets a task only when a report on it is accepted, and the control plane accepts
reports on the newest task of a node only.  So a task that is created while the edge of its node
still holds another one is never started, and the older one is reported for ever; what the node's
last heartbeat said about its task does not rule this out.  The same comes of a report that the
handler finds too long.  `Orderly` excludes these steps, and along it every report that reaches
the control plane is accepted.
-/

namespace SimpleCdn.Upgrading

open Store Transition

/-- Every edge that is heard at all has its next report accepted, which is about the newest task
of its node. -/
def NeverWedged (s : State) : Prop :=
  ∀ host u n, (s.edges host).upgrade = some u →
    (s.edges host).authenticates s.control.db.toStore = some n →
      (∀ now, (edgeUpgradeReport s.control.db.toStore n ((s.edges host).nextReport u)
        now).isOk = true) ∧
      ∃ task, s.control.db.toStore.latestNodeUpgrade n = some task ∧ task.id = u.taskID

/-- The edge holds the certificate of the node. -/
def Edge.enrolledAs (e : Edge) (db : Store) (n : String) : Prop :=
  ∃ fingerprint, e.fingerprint = some fingerprint ∧ Certified db fingerprint n

/-- A task is created for a node only while its edge holds none, an edge takes up a task or the
certificate of a node only if the task is the newest one of the node, and what went wrong is told
in 4096 bytes. -/
def Orderly (s : State) : Action → Prop
  | .control (.startUpgrade nodeID id targetSHA256 deadline now) =>
    s.control.db.toStore.activeNodeUpgrade nodeID = none →
      (s.control.db.toStore.createOrGetNodeUpgrade nodeID id targetSHA256 deadline now).isOk = true →
        ∀ host, (s.edges host).enrolledAs s.control.db.toStore nodeID →
          (s.edges host).upgrade = none
  | .certificate host fingerprint =>
    ∀ u n, (s.edges host).upgrade = some u → Certified s.control.db.toStore fingerprint n →
      s.control.db.toStore.Current n u.taskID u.targetSHA256
  | .stage host now =>
    ∀ instruction n, (s.edges host).phase = .pulled instruction → now < instruction.deadlineAt →
      instruction.targetSHA256 ≠ (s.edges host).agentSHA256 →
        (s.edges host).enrolledAs s.control.db.toStore n →
          s.control.db.toStore.Current n instruction.taskID instruction.targetSHA256
  | .stageFails _ _ detail => Text.byteLength (Text.trimSpace detail) ≤ 4096
  | .updater _ _ _ detail => Text.byteLength (Text.trimSpace detail) ≤ 4096
  | _ => True

/-- A report on this task that the control plane accepts while it is the newest one. -/
structure NodeUpgradeReport.On (taskID targetSHA256 : String) (report : NodeUpgradeReport) :
    Prop where
  id : report.taskID = taskID
  status : report.status ≠ .queued
  installed : report.status = .succeeded → report.installedSHA256 = targetSHA256
  code : Text.byteLength report.errorCode ≤ 64
  detail : Text.byteLength (Text.trimSpace report.detail) ≤ 4096

structure Inv (s : State) : Prop where
  control : Lifecycle.Inv s.control
  signed : ∀ host fingerprint, (s.edges host).fingerprint = some fingerprint →
    fingerprint ∈ s.control.fingerprints
  results : ∀ host u report, (s.edges host).upgrade = some u → u.result = some report →
    NodeUpgradeReport.On u.taskID u.targetSHA256 report
  current : ∀ host u n, (s.edges host).upgrade = some u →
    (s.edges host).enrolledAs s.control.db.toStore n →
      s.control.db.toStore.Current n u.taskID u.targetSHA256

section

variable {s : State} {a : Action} {host n : String} {now : Time} {e : Edge} {u : LocalUpgrade}
  {taskID targetSHA256 : String}

/-! ### Reports -/

theorem on_applying (taskID targetSHA256 : String) :
    NodeUpgradeReport.On taskID targetSHA256 (applyingReport taskID) where
  id := rfl
  status := nofun
  installed := nofun
  code := by
    show Text.byteLength "" ≤ 64
    decide
  detail := by
    show Text.byteLength
      (Text.trimSpace "upgrade artifacts verified; starting edge installer") ≤ 4096
    decide +kernel

theorem on_failed {errorCode detail : String} (installedSHA256 : String)
    (hcode : Text.byteLength errorCode ≤ 64)
    (hdetail : Text.byteLength (Text.trimSpace detail) ≤ 4096) :
    NodeUpgradeReport.On taskID targetSHA256
      (failedReport taskID errorCode detail installedSHA256) where
  id := rfl
  status := nofun
  installed := nofun
  code := hcode
  detail := hdetail

theorem on_notLaunched (taskID targetSHA256 : String) :
    NodeUpgradeReport.On taskID targetSHA256 (notLaunched taskID) :=
  on_failed "" (by decide +kernel) (by decide +kernel)

theorem on_stopped (taskID targetSHA256 : String) :
    NodeUpgradeReport.On taskID targetSHA256 (stopped taskID) :=
  on_failed "" (by decide +kernel) (by decide +kernel)

theorem on_updater {installedSHA256 detail : String} (u : LocalUpgrade) (installed : Bool)
    (hdetail : Text.byteLength (Text.trimSpace detail) ≤ 4096) :
    NodeUpgradeReport.On u.taskID u.targetSHA256
      (updaterReport u installed installedSHA256 detail) := by
  unfold updaterReport
  split
  · next hinstalled =>
    simp only [Bool.and_eq_true, decide_eq_true_eq] at hinstalled
    refine ⟨rfl, ?_, fun _ => hinstalled.2, ?_, ?_⟩
    · nofun
    · show Text.byteLength "" ≤ 64
      decide
    · show Text.byteLength (Text.trimSpace "edge online upgrade completed") ≤ 4096
      decide +kernel
  · exact on_failed installedSHA256 (by decide +kernel) hdetail

theorem Inv.nextReport (hs : Inv s) (hu : (s.edges host).upgrade = some u) :
    NodeUpgradeReport.On u.taskID u.targetSHA256 ((s.edges host).nextReport u) := by
  unfold Edge.nextReport
  split
  · next report hresult => exact hs.results host u report hu hresult
  · exact on_applying _ _
  · split
    · exact on_stopped _ _
    · exact on_notLaunched _ _

/-- What the control plane accepts. -/
theorem accepted {db : Store} {report : NodeUpgradeReport}
    (hcurrent : db.Current n taskID targetSHA256)
    (hreport : NodeUpgradeReport.On taskID targetSHA256 report) (now : Time) :
    (edgeUpgradeReport db n report now).isOk = true := by
  have hid : report.trimmed.taskID = taskID := hreport.id
  have hrecorded := hcurrent.recorded hid hreport.status hreport.installed now
  obtain ⟨db', hdb'⟩ := isOk_iff.mp hrecorded
  refine isOk_iff.mpr ⟨db', ?_⟩
  simp only [edgeUpgradeReport, bind_eq_ok, require_eq_ok, exists_const]
  refine ⟨?_, hdb'⟩
  simp only [NodeUpgradeReport.valid, Bool.and_eq_true, decide_eq_true_eq]
  exact ⟨hreport.code, hreport.detail⟩

theorem enrolledAs_of_authenticates {db : Store} (h : e.authenticates db = some n) :
    e.enrolledAs db n := by
  unfold Edge.authenticates at h
  split at h
  · next fingerprint hfingerprint =>
    have hok : db.nodeIDByFingerprint fingerprint = .ok n := by
      cases hid : db.nodeIDByFingerprint fingerprint with
      | error _ =>
        rw [hid] at h
        cases h
      | ok m =>
        rw [hid] at h
        exact congrArg _ (Option.some.inj h)
    obtain ⟨node, hnode, hcert, -⟩ := Lifecycle.nodeIDByFingerprint_eq_ok hok
    exact ⟨fingerprint, hfingerprint, node, hnode, hcert⟩
  · cases h

theorem Inv.neverWedged (hs : Inv s) : NeverWedged s := by
  intro host u n hu hheard
  have hcurrent := hs.current host u n hu (enrolledAs_of_authenticates hheard)
  refine ⟨accepted hcurrent (hs.nextReport hu), ?_⟩
  obtain ⟨task, hlatest, hfind, -⟩ := hcurrent.latest
  exact ⟨task, hlatest, Table.key_of_find? hfind⟩

/-! ### The control plane -/

/-- A certificate that has been signed before. -/
theorem enrolledAs_before (hs : Inv s) (a : Lifecycle.Action)
    (h : (s.edges host).enrolledAs (Lifecycle.step s.control a).db.toStore n) :
    (s.edges host).enrolledAs s.control.db.toStore n := by
  obtain ⟨fingerprint, hfingerprint, hcertified⟩ := h
  exact ⟨fingerprint, hfingerprint,
    hcertified.before hs.control a (hs.signed host fingerprint hfingerprint)⟩

theorem Inv.ofControl (hs : Inv s) (a : Lifecycle.Action)
    (hcurrent : ∀ host u n, (s.edges host).upgrade = some u →
      (s.edges host).enrolledAs (Lifecycle.step s.control a).db.toStore n →
        (Lifecycle.step s.control a).db.toStore.Current n u.taskID u.targetSHA256) :
    Inv { s with control := Lifecycle.step s.control a } where
  control := hs.control.step a
  signed := by
    intro host fingerprint hfingerprint
    rw [Lifecycle.step_fingerprints]
    exact List.mem_append_right _ (hs.signed host fingerprint hfingerprint)
  results := hs.results
  current := hcurrent

/-- What the control plane does besides creating tasks. -/
theorem Inv.controlStep (hs : Inv s) {a : Lifecycle.Action}
    (ha : ∀ nodeID id targetSHA256 deadline now,
      a ≠ .startUpgrade nodeID id targetSHA256 deadline now) :
    Inv { s with control := Lifecycle.step s.control a } := by
  refine hs.ofControl a fun host u n hu henrolled => ?_
  have hbefore := hs.current host u n hu (enrolledAs_before hs a henrolled)
  obtain ⟨-, -, node, hnode, -⟩ := henrolled
  exact hbefore.kept (control_upgrades s.control ha) hnode

/-- A task is created for a node whose edge holds none. -/
theorem Inv.startUpgrade (hs : Inv s) {nodeID id : String} {deadline : Time}
    (horderly : Orderly s (.control (.startUpgrade nodeID id targetSHA256 deadline now))) :
    Inv { s with
      control := Lifecycle.step s.control (.startUpgrade nodeID id targetSHA256 deadline now) } := by
  refine hs.ofControl _ fun host u n hu henrolled => ?_
  have hfree := enrolledAs_before hs _ henrolled
  have hbefore := hs.current host u n hu hfree
  simp only [Lifecycle.step, Lifecycle.State.onDatabase] at henrolled ⊢
  split
  · next db hcreate =>
    obtain ⟨store, hstore, rfl⟩ := Lifecycle.onStore_eq_ok.mp hcreate
    refine hbefore.create hstore ?_
    rcases createOrGetNodeUpgrade_cases hstore with hsame | ⟨hnone, -⟩
    · exact .inl hsame
    · right
      rintro rfl
      have hempty := horderly hnone (isOk_iff.mpr ⟨store, hstore⟩) host hfree
      rw [hempty] at hu
      cases hu
  · exact hbefore

/-! ### Reports under way -/

theorem Inv.send (hs : Inv s) (e : Edge) (call : Lifecycle.EdgeCall) : Inv (s.send e call) := by
  unfold State.send
  split
  · exact hs.controlStep nofun
  · exact hs

theorem Inv.report (hs : Inv s) (e : Edge) (report : NodeUpgradeReport) (now : Time)
    (delivery : Delivery) : Inv (s.report e report now delivery).1 := by
  have hreceived : ∀ s', s.receive e report now = some s' → Inv s' := by
    intro s' hreceive
    unfold State.receive at hreceive
    split at hreceive
    · split at hreceive
      · obtain rfl := Option.some.inj hreceive
        exact (hs.send e _).controlStep nofun
      · cases hreceive
    · cases hreceive
  unfold State.report
  split
  · exact hs
  · split
    · exact hs.send e _
    · exact hs
  · split
    · next s' hreceive => exact hreceived s' hreceive
    · exact hs
  · split
    · next s' hreceive => exact hreceived s' hreceive
    · exact hs

theorem send_edges (s : State) (e : Edge) (call : Lifecycle.EdgeCall) :
    (s.send e call).edges = s.edges := by
  unfold State.send
  split
  · rfl
  · rfl

theorem report_edges (s : State) (e : Edge) (report : NodeUpgradeReport) (now : Time)
    (delivery : Delivery) : (s.report e report now delivery).1.edges = s.edges := by
  have hreceived : ∀ s', s.receive e report now = some s' → s'.edges = s.edges := by
    intro s' hreceive
    unfold State.receive at hreceive
    split at hreceive
    · split at hreceive
      · obtain rfl := Option.some.inj hreceive
        exact send_edges s e _
      · cases hreceive
    · cases hreceive
  unfold State.report
  split
  · rfl
  · split
    · exact send_edges s e _
    · rfl
  · split
    · next s' hreceive => exact hreceived s' hreceive
    · rfl
  · split
    · next s' hreceive => exact hreceived s' hreceive
    · rfl

/-! ### Edges -/

theorem Inv.setEdge (hs : Inv s)
    (hsigned : ∀ fingerprint, e.fingerprint = some fingerprint →
      fingerprint ∈ s.control.fingerprints)
    (hresult : ∀ u report, e.upgrade = some u → u.result = some report →
      NodeUpgradeReport.On u.taskID u.targetSHA256 report)
    (hcurrent : ∀ u n, e.upgrade = some u → e.enrolledAs s.control.db.toStore n →
      s.control.db.toStore.Current n u.taskID u.targetSHA256) : Inv (s.setEdge host e) := by
  have hedge : ∀ other, (s.setEdge host e).edges other = e ∨
      (s.setEdge host e).edges other = s.edges other := by
    intro other
    by_cases hother : other = host
    · subst hother
      exact .inl (Function.update_self ..)
    · exact .inr (Function.update_of_ne hother ..)
  constructor
  case control => exact hs.control
  case signed =>
    intro other
    rcases hedge other with heq | heq
    · rw [heq]
      exact hsigned
    · rw [heq]
      exact hs.signed other
  case results =>
    intro other
    rcases hedge other with heq | heq
    · rw [heq]
      exact hresult
    · rw [heq]
      exact hs.results other
  case current =>
    intro other
    rcases hedge other with heq | heq
    · rw [heq]
      exact hcurrent
    · rw [heq]
      exact hs.current other

/-- An edge that keeps its certificate and its task, or has none. -/
theorem Inv.setPhase (hs : Inv s) (hfingerprint : e.fingerprint = (s.edges host).fingerprint)
    (hupgrade : e.upgrade = (s.edges host).upgrade ∨ e.upgrade = none) :
    Inv (s.setEdge host e) := by
  have hold : ∀ u, e.upgrade = some u → (s.edges host).upgrade = some u := by
    intro u hu
    rcases hupgrade with hsame | hnone
    · rw [← hsame]
      exact hu
    · rw [hnone] at hu
      cases hu
  refine hs.setEdge (fun fingerprint h => ?_) (fun u report hu => ?_) fun u n hu henrolled => ?_
  · rw [hfingerprint] at h
    exact hs.signed host fingerprint h
  · exact hs.results host u report (hold u hu)
  · rw [Edge.enrolledAs, hfingerprint] at henrolled
    exact hs.current host u n (hold u hu) henrolled

/-- An edge that goes on with its task. -/
theorem Inv.setUpgrade (hs : Inv s) {u' : LocalUpgrade} (hu : (s.edges host).upgrade = some u)
    (hfingerprint : e.fingerprint = (s.edges host).fingerprint) (hupgrade : e.upgrade = some u')
    (hid : u'.taskID = u.taskID) (htarget : u'.targetSHA256 = u.targetSHA256)
    (hresult : ∀ report, u'.result = some report →
      NodeUpgradeReport.On u.taskID u.targetSHA256 report) : Inv (s.setEdge host e) := by
  refine hs.setEdge (fun fingerprint h => ?_) (fun v report hv hreport => ?_)
    fun v n hv henrolled => ?_
  · rw [hfingerprint] at h
    exact hs.signed host fingerprint h
  · obtain rfl := Option.some.inj (hupgrade.symm.trans hv)
    rw [hid, htarget]
    exact hresult report hreport
  · obtain rfl := Option.some.inj (hupgrade.symm.trans hv)
    rw [Edge.enrolledAs, hfingerprint] at henrolled
    rw [hid, htarget]
    exact hs.current host u n hu henrolled

/-- An edge that takes up the task it has pulled. -/
theorem Inv.stage (hs : Inv s) {instruction : NodeUpgradeInstruction}
    (hphase : (s.edges host).phase = .pulled instruction) (hdeadline : now < instruction.deadlineAt)
    (hdigest : instruction.targetSHA256 ≠ (s.edges host).agentSHA256)
    (horderly : Orderly s (.stage host now)) :
    Inv (s.setEdge host ((s.edges host).stage instruction)) := by
  refine hs.setEdge (hs.signed host) (fun u report hu hreport => ?_) fun u n hu henrolled => ?_
  · obtain rfl := Option.some.inj hu
    cases hreport
  · obtain rfl := Option.some.inj hu
    exact horderly instruction n hphase hdeadline hdigest henrolled

theorem Inv.inspect (hs : Inv s) (hu : (s.edges host).upgrade = some u) (active : Bool) :
    Inv (s.setEdge host ((s.edges host).inspect u active)) := by
  have hkept := hs.results host u
  unfold Edge.inspect
  split
  · refine hs.setUpgrade hu rfl rfl rfl rfl fun report hreport => ?_
    obtain rfl := Option.some.inj hreport
    exact on_notLaunched _ _
  · split
    · exact hs.setUpgrade hu rfl rfl rfl rfl fun report hreport => hkept report hu hreport
    · split
      · exact hs.setUpgrade hu rfl rfl rfl rfl fun report hreport => hkept report hu hreport
      · refine hs.setUpgrade hu rfl rfl rfl rfl fun report hreport => ?_
        obtain rfl := Option.some.inj hreport
        exact on_stopped _ _

theorem Inv.pull (hs : Inv s) (host : String) (now : Time) : Inv (s.pull host now) := by
  unfold State.pull
  split
  · have hreconciled : Inv { s with
        control := Lifecycle.step s.control (.reconcileNodeUpgrades now) } := hs.controlStep nofun
    dsimp only
    split
    · exact hreconciled.setPhase rfl (.inl rfl)
    · exact hreconciled
  · exact hs

/-- An orderly step keeps the invariant. -/
theorem Inv.step (hs : Inv s) (a : Action) (horderly : Orderly s a) : Inv (step s a) := by
  cases a with
  | control a =>
    rw [Upgrading.step]
    split
    · exact hs
    · cases a with
      | startUpgrade nodeID id targetSHA256 deadline now => exact hs.startUpgrade horderly
      | node | monitoringTarget | reconcileNodeUpgrades | enroll | request | statement =>
        exact hs.controlStep nofun
  | certificate host fingerprint =>
    rw [Upgrading.step]
    split
    · next hsigned =>
      refine hs.setEdge (fun other hother => ?_) (hs.results host) fun u n hu henrolled => ?_
      · obtain rfl := Option.some.inj hother
        exact List.contains_iff_mem.mp hsigned
      · obtain ⟨other, hother, hcertified⟩ := henrolled
        obtain rfl := Option.some.inj hother
        exact horderly u n hu hcertified
    · exact hs
  | restart host agentSHA256 => exact hs.setPhase rfl (.inl rfl)
  | heartbeat host capabilities appliedVersion lastError report agentVersion => exact hs.send _ _
  | pull host now =>
    simp only [Upgrading.step]
    split
    · exact hs.pull host now
    · exact hs
  | reportInstalled host now delivery =>
    simp only [Upgrading.step]
    split
    · split
      · next instruction _ _ =>
        have hedges := report_edges s (s.edges host)
          (installedReport instruction (s.edges host).agentSHA256) now delivery
        exact (hs.report _ _ now delivery).setPhase (by rw [hedges]) (.inl (by rw [hedges]))
      · exact hs
    · exact hs
  | stage host now =>
    simp only [Upgrading.step]
    split
    · next instruction hphase =>
      split
      · next hready => exact hs.stage hphase hready.1 hready.2 horderly
      · exact hs.setPhase rfl (.inl rfl)
    · exact hs
  | reportApplying host now delivery =>
    simp only [Upgrading.step]
    split
    · next u hu hphase =>
      have hreport := hs.report (s.edges host) (applyingReport u.taskID) now delivery
      have hedges := report_edges s (s.edges host) (applyingReport u.taskID) now delivery
      split
      · next s' heq =>
        rw [heq] at hreport hedges
        refine hreport.setUpgrade (u := u) (by rw [hedges]; exact hu) (by rw [hedges]; rfl) rfl rfl
          rfl fun report hresult => hs.results host u report hu hresult
      · next s' heq =>
        rw [heq] at hreport
        exact hreport
    · exact hs
  | started host =>
    simp only [Upgrading.step]
    split
    · exact hs.setPhase rfl (.inl rfl)
    · exact hs
  | stageFails host error detail =>
    have hfailed : ∀ u : LocalUpgrade, NodeUpgradeReport.On u.taskID u.targetSHA256
        (failedReport u.taskID error.code detail "") := by
      intro u
      refine on_failed "" ?_ horderly
      cases error with
      | artifactDownloadFailed => decide +kernel
      | startReportFailed => decide +kernel
      | updaterStartFailed => decide +kernel
    simp only [Upgrading.step]
    split
    · next u hu _ =>
      refine hs.setUpgrade hu rfl rfl rfl rfl fun report hreport => ?_
      obtain rfl := Option.some.inj hreport
      exact hfailed u
    · next u hu _ =>
      refine hs.setUpgrade hu rfl rfl rfl rfl fun report hreport => ?_
      obtain rfl := Option.some.inj hreport
      exact hfailed u
    · exact hs
  | updater host installed installedSHA256 detail =>
    simp only [Upgrading.step]
    split
    · next u hu =>
      split
      · refine hs.setUpgrade hu rfl rfl rfl rfl fun report hreport => ?_
        obtain rfl := Option.some.inj hreport
        exact on_updater u installed horderly
      · exact hs
    · exact hs
  | inspect host active =>
    simp only [Upgrading.step]
    split
    · next u hu _ =>
      split
      · exact hs.inspect hu active
      · exact hs
    · exact hs
  | reportResult host now delivery =>
    simp only [Upgrading.step]
    split
    · next u hu _ =>
      split
      · next result _ =>
        have hreport := hs.report (s.edges host) result now delivery
        have hedges := report_edges s (s.edges host) result now delivery
        split
        · next s' heq =>
          rw [heq] at hreport hedges
          exact hreport.setPhase (by rw [hedges]) (.inr rfl)
        · next s' heq =>
          rw [heq] at hreport
          exact hreport
      · exact hs
    · exact hs

end

theorem inv_initial : Inv initial where
  control := Lifecycle.inv_initial
  signed := nofun
  results := nofun
  current := nofun

/-- **Online upgrades are never wedged** along a run whose steps are orderly. -/
theorem never_wedged {as : List Action} (h : Along step Orderly initial as) :
    Always step NeverWedged initial as := by
  have hstep : ∀ s a, Inv s → Orderly s a → Inv (step s a) :=
    fun s a hs horderly => hs.step a horderly
  have hinv : Always step Inv initial as := h.always hstep inv_initial
  exact hinv.mono fun s hs => hs.neverWedged

/-- A heartbeat is the request `i` of those the control plane has admitted. -/
def heartbeat (i : Nat) (now : Time) : List Action :=
  .heartbeat "edge" ["online_upgrade_v1"] 0 "" none "" :: List.replicate 5 (.control (.statement i now))

/-- A node is enrolled on the host "edge" and gets an upgrade task, which the edge pulls. -/
def upgradeQueued : List Action :=
  Lifecycle.enrolled.map .control ++ [.certificate "edge" "fingerprint"] ++
    heartbeat 1 (5 * second) ++
    [.control (.startUpgrade "node" "first" "target" (1806 * second) (6 * second))] ++
    heartbeat 2 (1800 * second) ++ [.pull "edge" (1801 * second)]

/-- Actions that leave every edge with the task it has. -/
def keepsTasks : Action → Bool
  | .control _ | .certificate .. | .heartbeat .. => true
  | _ => false

theorem upgrade_run {as : List Action} (h : ∀ a ∈ as, keepsTasks a = true) (s : State)
    (host : String) : ((run step s as).edges host).upgrade = (s.edges host).upgrade := by
  induction as generalizing s with
  | nil => rfl
  | cons a as ih =>
    rw [run_cons, ih fun a ha => h a (List.mem_cons_of_mem _ ha)]
    have hkeeps := h a List.mem_cons_self
    cases a with
    | control a =>
      rw [step]
      split
      · rfl
      · rfl
    | certificate other fingerprint =>
      rw [step]
      split
      · by_cases hother : host = other
        · subst hother
          simp only [State.setEdge, Function.update_self]
        · simp only [State.setEdge, Function.update_of_ne hother]
      · rfl
    | heartbeat other capabilities appliedVersion lastError report agentVersion =>
      exact congrFun (congrArg (fun edges host => (edges host).upgrade)
        (send_edges s (s.edges other) _)) host
    | _ => cases hkeeps

theorem orderly_upgradeQueued : Along step Orderly initial upgradeQueued := by
  have hnone : ∀ host, ((run step initial (Lifecycle.enrolled.map .control ++
      [.certificate "edge" "fingerprint"] ++ heartbeat 1 (5 * second))).edges host).upgrade =
        none := upgrade_run (by decide) initial
  refine ⟨trivial, trivial, trivial, trivial, ?_, trivial, trivial, trivial, trivial, trivial,
    trivial, fun _ _ host _ => hnone host, trivial, trivial, trivial, trivial, trivial, trivial,
    trivial, trivial⟩
  intro u n hu
  have hidle : ((run step initial (Lifecycle.enrolled.map .control)).edges "edge").upgrade = none :=
    upgrade_run (by decide) initial "edge"
  cases hidle.symm.trans hu

/-- The task that has been pulled, with its artifact. -/
def Phase.pulledTask : Phase → Option (String × String)
  | .pulled instruction => some (instruction.taskID, instruction.targetSHA256)
  | _ => none

/-- The only task is the newest one of the only node. -/
theorem current_upgradeQueued {instruction : NodeUpgradeInstruction} {n : String}
    (hphase : ((run step initial upgradeQueued).edges "edge").phase = .pulled instruction)
    (henrolled : ((run step initial upgradeQueued).edges "edge").enrolledAs
      (run step initial upgradeQueued).control.db.toStore n) :
    (run step initial upgradeQueued).control.db.toStore.Current n instruction.taskID
      instruction.targetSHA256 := by
  have hpulled : ((run step initial upgradeQueued).edges "edge").phase.pulledTask =
      some ("first", "target") := by decide +kernel
  have hnodes : (run step initial upgradeQueued).control.db.nodes.rows.map Node.id = ["node"] := by
    decide +kernel
  have htasks : (run step initial upgradeQueued).control.db.nodeUpgradeTasks.rows.map (fun task =>
      (task.id, task.nodeID, task.targetSHA256)) = [("first", "node", "target")] := by
    decide +kernel
  rw [hphase] at hpulled
  obtain ⟨hid, htarget⟩ := Prod.mk.inj (Option.some.inj hpulled)
  obtain ⟨-, -, node, hnode, -⟩ := henrolled
  have hn : n ∈ ["node"] := by
    rw [← hnodes, ← show node.id = n from Table.key_of_find? hnode]
    exact List.mem_map_of_mem (Table.mem_of_find? hnode)
  obtain rfl := List.mem_singleton.mp hn
  obtain ⟨task, hrows, htask⟩ := List.map_eq_singleton_iff.mp htasks
  obtain ⟨htaskID, htaskNode, htaskTarget⟩ : task.id = "first" ∧ task.nodeID = "node" ∧
      task.targetSHA256 = "target" := by simpa using htask
  refine ⟨task, ?_, htaskID.trans hid.symm, htaskNode, htaskTarget.trans htarget.symm,
    fun other hother _ hne => ?_⟩
  · rw [Table.mem_iff, hrows]
    exact List.mem_singleton_self task
  · rw [Table.mem_iff, hrows, List.mem_singleton] at hother
    rw [hother, htaskID, hid] at hne
    exact absurd rfl hne

/-- The edge works through its task, and the control plane hears of the result. -/
theorem never_wedged_completed :
    Always step NeverWedged initial (upgradeQueued ++
      [.stage "edge" (1801 * second), .reportApplying "edge" (1802 * second) .answered,
        .started "edge", .restart "edge" "target", .updater "edge" true "target" "",
        .reportResult "edge" (1805 * second) .answered]) := by
  refine never_wedged ((along_append _ _ _).mpr ⟨orderly_upgradeQueued, ?_⟩)
  refine ⟨?_, trivial, trivial, trivial, ?_, trivial, trivial⟩
  · intro instruction n hphase _ _ henrolled
    exact current_upgradeQueued hphase henrolled
  · show Text.byteLength (Text.trimSpace "") ≤ 4096
    decide +kernel

/-- While the edge downloads the artifacts, the task times out and another one is created. -/
def createdWhileStaging : List Action :=
  upgradeQueued ++
    [.stage "edge" (1801 * second), .control (.reconcileNodeUpgrades (1807 * second)),
      .control (.startUpgrade "node" "second" "target" (3608 * second) (1808 * second))]

/-- The first task is not the newest one any more. -/
theorem createdWhileStaging_wedged : ¬ Always step NeverWedged initial createdWhileStaging := by
  intro h
  have hheld : ((run step initial createdWhileStaging).edges "edge").upgrade.map
      LocalUpgrade.taskID = some "first" := by decide +kernel
  have hheard : ((run step initial createdWhileStaging).edges "edge").authenticates
      (run step initial createdWhileStaging).control.db.toStore = some "node" := by decide +kernel
  have hlatest : ((run step initial createdWhileStaging).control.db.toStore.latestNodeUpgrade
      "node").map NodeUpgradeTask.id = some "second" := by decide +kernel
  obtain ⟨u, hu, hid⟩ := Option.map_eq_some_iff.mp hheld
  obtain ⟨-, task, htask, hsame⟩ := h.last "edge" u "node" hu hheard
  rw [htask, Option.map_some, hsame, hid] at hlatest
  exact absurd (Option.some.inj hlatest) (by decide)

end SimpleCdn.Upgrading
