import SimpleCdn.SiteCalls.Generations

/-!
# The snapshot a publication stores

`PublishSite` renders the node states from a site and a certificate it has read, and
`CommitSitePublication` stores the row and the certificate of its own transaction.  The two agree
because the commit compares the version of the row with the version read first, provided that no
other writer changes the row without moving its version forward.  `UpdateSite` can: it writes the
version it read plus one.  `BaseCurrent` asks that no `UpdateSite` transaction starts from a
version older than the one a publish call in flight has read, and then what is stored is what was
rendered.
-/

namespace SimpleCdn.SiteCalls

open Transition

variable {s : Calls} {id : String} {a : Action} {call : PublishCall} {view view' : SiteView}

/-- No `UpdateSite` transaction on the site starts from a version that is older than the version
a publish call of the site relies on. -/
def BaseCurrent (id : String) (s : Calls) (a : Action) : Prop :=
  ∀ i now call row, a = .updateCommit i now → UpdateCommits s i now call → call.current.id = id →
    s.store.sites.find? id = some row →
    ∀ publish ∈ s.publishes, publish.site.id = id →
      publish.site.configVersion ≤ call.current.configVersion

/-- A commit of a publish call on the site, when it succeeds, stores the site and the certificate
its node states were rendered from. -/
def StoresRendered (id : String) (s : Calls) (a : Action) : Prop :=
  ∀ i newTaskID now call taskID draft updates targets site db,
    a = .publishStep i newTaskID now → s.publishes[i]? = some call → call.site.id = id →
    call.stage = .rendered taskID draft updates targets →
    s.store.commitSitePublication id call.site.configVersion taskID updates targets now =
      .ok (site, db) →
    (∃ db₀ target migrationRequired publications now₀, target = draft.site ∧
      renderDraft db₀ target migrationRequired publications draft now₀ = .ok (updates, targets)) ∧
    ∃ publication, db.sitePublications.find? id = some publication ∧
      publication.material = { draft with site := Store.publishedSite draft.site now }

/-! ### What a publish call has read -/

/-- Two rows that agree in everything a commit does not stamp itself. -/
def SameDraft (site row : Site) : Prop :=
  Store.publishedSite site 0 = Store.publishedSite row 0

theorem SameDraft.publishedSite_eq {site row : Site} (h : SameDraft site row) (now : Time) :
    Store.publishedSite site now = Store.publishedSite row now := by
  have hstamp : ∀ site : Site, Store.publishedSite site now = Store.publishedSite (Store.publishedSite site 0) now :=
    fun _ => rfl
  rw [hstamp site, hstamp row, h]

/-- A material holds the draft of the row and the stored certificate. -/
def SameMaterial (material : PublicationMaterial) (row : Site)
    (certificate : Option CertificateRow) : Prop :=
  SameDraft material.site row ∧
    material.certificateCiphertext = certificate.map CertificateRow.certificateCiphertext ∧
    material.keyCiphertext = certificate.map CertificateRow.keyCiphertext

/-- What a call has read so far agrees with the database. -/
def StageAgrees (row : Site) (certificate : Option CertificateRow) : PublishStage → Prop
  | .read => True
  | .created _ => True
  | .targetRead _ target _ _ => SameDraft target row
  | .drafted _ target _ _ draft => draft.site = target ∧ SameMaterial draft row certificate
  | .rendered _ draft _ _ => SameMaterial draft row certificate

/-- The stamp of another publication is not part of the draft. -/
theorem StageAgrees.stamp {row : Site} {certificate : Option CertificateRow}
    {stage : PublishStage} (h : StageAgrees row certificate stage) (now : Time) :
    StageAgrees { row with published := true, updatedAt := now } certificate stage := by
  cases stage with
  | read => trivial
  | created taskID => trivial
  | targetRead taskID target migrationRequired publications => exact h
  | drafted taskID target migrationRequired publications draft => exact h
  | rendered taskID draft updates targets => exact h

/-- The row has not fallen behind the version the call relies on, and while it still has that
version and may be published, what the call has read is what the database says. -/
def CallCurrent (call : PublishCall) (view : SiteView) : Prop :=
  ∀ row, view.row = some row → call.site.configVersion ≤ row.configVersion ∧
    (row.configVersion = call.site.configVersion → row.deleting = false →
      StageAgrees row view.certificate call.stage)

/-- The draft of a call is its target, and the states of a rendered call come from the renderer. -/
def StageRendered : PublishStage → Prop
  | .drafted _ target _ _ draft => draft.site = target
  | .rendered _ draft updates targets =>
    ∃ db₀ target migrationRequired publications now₀, target = draft.site ∧
      renderDraft db₀ target migrationRequired publications draft now₀ = .ok (updates, targets)
  | _ => True

/-! ### How a call gets on -/

/-- The stages a call can move to in the state `s`. -/
inductive Progress (s : Calls) (call : PublishCall) : PublishStage → Prop
  | created (taskID : String) : Progress s call (.created taskID)
  | targetRead {taskID : String} {target : Site} {migrationRequired : Bool}
      {publications : List SitePublication}
      (hfind : s.store.sites.find? call.site.id = some target) :
      Progress s call (.targetRead taskID target migrationRequired publications)
  | drafted {taskID : String} {target : Site} {migrationRequired : Bool}
      {publications : List SitePublication} {draft : PublicationMaterial}
      (hstage : call.stage = .targetRead taskID target migrationRequired publications)
      (hdraft : draftMaterial target (s.store.certificate call.site.id) = .ok draft) :
      Progress s call (.drafted taskID target migrationRequired publications draft)
  | rendered {taskID : String} {target : Site} {migrationRequired : Bool}
      {publications : List SitePublication} {draft : PublicationMaterial}
      {updates : List NodeStateUpdate} {targets : List PublishTaskNode} {now : Time}
      (hstage : call.stage = .drafted taskID target migrationRequired publications draft)
      (hrender : renderDraft s.store target migrationRequired publications draft now =
        .ok (updates, targets)) :
      Progress s call (.rendered taskID draft updates targets)

/-- A call in flight after a step was in flight before it, or has just read its site, or is one
that the step moved on. -/
inductive CallOrigin (s : Calls) : Action → PublishCall → Prop
  | kept {a : Action} {call : PublishCall} (hmem : call ∈ s.publishes) : CallOrigin s a call
  | started {id : String} {site : Site} (hfind : s.store.sites.find? id = some site) :
      CallOrigin s (.publishRead id) ⟨site, .read⟩
  | moved {a : Action} {call : PublishCall} {stage : PublishStage} (hmem : call ∈ s.publishes)
      (hprogress : Progress s call stage) : CallOrigin s a { call with stage := stage }

theorem mem_setStage {i : Nat} {old : PublishCall} {stage : PublishStage}
    (h : call ∈ (s.setStage i old stage).publishes) :
    call ∈ s.publishes ∨ call = { old with stage := stage } :=
  List.mem_or_eq_of_mem_set h

theorem mem_endPublish {i : Nat} {db : Store} (h : call ∈ (s.endPublish i db).publishes) :
    call ∈ s.publishes :=
  List.mem_of_mem_eraseIdx h

theorem readTarget_eq_ok {db : Store} {siteID : String} {target : Site} {migrationRequired : Bool}
    {publications : List SitePublication}
    (h : readTarget db siteID = .ok (target, migrationRequired, publications)) :
    db.sites.find? siteID = some target := by
  simp only [readTarget, bind_eq_ok, Store.getSite_eq_ok, pure_eq_ok, Prod.mk.injEq] at h
  obtain ⟨-, -, site, hfind, -, -, rfl, -, -⟩ := h
  exact hfind

theorem createTask_origin {i : Nat} {old : PublishCall} {taskID : String} {now : Time}
    (hold : old ∈ s.publishes) (h : call ∈ (s.createTask i old taskID now).publishes) :
    CallOrigin s a call := by
  unfold Calls.createTask at h
  split at h
  · exact .kept (mem_endPublish h)
  · split at h
    · exact .kept (mem_endPublish h)
    · exact .kept (mem_endPublish h)
    · rcases mem_setStage h with h | rfl
      · exact .kept h
      · exact .moved hold (.created _)

theorem publishStep_origin {i : Nat} {old : PublishCall} {taskID : String} {now : Time}
    (hold : old ∈ s.publishes) (h : call ∈ (s.publishStep i old taskID now).publishes) :
    CallOrigin s a call := by
  unfold Calls.publishStep at h
  split at h
  · exact createTask_origin hold h
  · split at h
    · exact .kept (mem_endPublish h)
    · next htarget =>
      rcases mem_setStage h with h | rfl
      · exact .kept h
      · exact .moved hold (.targetRead (readTarget_eq_ok htarget))
  · next hstage =>
    split at h
    · exact .kept (mem_endPublish h)
    · next hdraft =>
      rcases mem_setStage h with h | rfl
      · exact .kept h
      · exact .moved hold (.drafted hstage hdraft)
  · next hstage =>
    split at h
    · exact .kept (mem_endPublish h)
    · next hrender =>
      rcases mem_setStage h with h | rfl
      · exact .kept h
      · exact .moved hold (.rendered hstage hrender)
  · split at h
    · exact .kept (mem_endPublish h)
    · exact .kept (mem_endPublish h)

/-- Taking a call out of one of the other two lists leaves the publish calls alone. -/
@[simp] theorem commit_publishes (s : Calls) (result : Except StoreError Store) :
    (s.commit result).publishes = s.publishes := by
  cases result <;> rfl

theorem step_origin (h : call ∈ (step s a).publishes) : CallOrigin s a call := by
  cases a with
  | publishRead siteID =>
    simp only [step] at h
    split at h
    · next site hsite =>
      rcases List.mem_cons.mp h with rfl | h
      · exact .started (Store.getSite_eq_ok.mp hsite)
      · exact .kept h
    · exact .kept h
  | publishStep i taskID now =>
    simp only [step] at h
    split at h
    · next hcall => exact publishStep_origin (List.mem_of_getElem? hcall) h
    · exact .kept h
  | updateRead siteID draft zoneID =>
    simp only [step] at h
    split at h <;> exact .kept h
  | updateCommit i now =>
    simp only [step] at h
    split at h
    · exact .kept (by simpa using h)
    · exact .kept h
  | invalidateRead siteID =>
    simp only [step] at h
    split at h <;> exact .kept h
  | invalidateCommit i now =>
    simp only [step] at h
    split at h
    · exact .kept (by simpa using h)
    · exact .kept h
  | createSite siteID draft zoneID now => exact .kept (by simpa [step] using h)
  | storeCertificate siteID certificate privateKey now => exact .kept (by simpa [step] using h)
  | beginSiteDeletion siteID taskID actor remoteAddr deadline now =>
    exact .kept (by simpa [step] using h)
  | completeSiteDeletion taskID now => exact .kept (by simpa [step] using h)
  | reconcilePublishTasks now => exact .kept h
  | otherTables tables => exact .kept h

/-! ### Staying current -/

/-- What the call relies on survives a change of the site. -/
theorem CallCurrent.change (hchange : SiteChange s id a view view') (hview : s.store.siteView id = view)
    (hissued : id ∈ s.store.issuedIDs)
    (hbase : ∀ i now update row, a = .updateCommit i now → UpdateCommits s i now update →
      update.current.id = id → s.store.sites.find? id = some row →
      call.site.configVersion ≤ update.current.configVersion)
    (h : CallCurrent call view) : CallCurrent call view' := by
  have hfind : s.store.sites.find? id = view.row := by rw [← hview]; rfl
  intro row' hrow'
  cases hchange with
  | unchanged => exact h row' hrow'
  | created hfresh => exact absurd hissued hfresh
  | removed => cases hrow'
  | updated hcommit hid =>
    cases hrow'
    have hle := hbase _ _ _ _ rfl hcommit hid hfind
    have hversion : ∀ update row now, (updatedRow update row now).configVersion =
        update.current.configVersion + 1 := fun _ _ _ => rfl
    rw [hversion]
    exact ⟨by omega, fun heq => by omega⟩
  | invalidated hcall =>
    cases hrow'
    have hle := (h _ rfl).1
    exact ⟨Nat.le_succ_of_le hle, fun heq => by simp only at heq; omega⟩
  | certified hdeleting =>
    cases hrow'
    have hle := (h _ rfl).1
    exact ⟨Nat.le_succ_of_le hle, fun heq => by simp only at heq; omega⟩
  | published hdeleting =>
    cases hrow'
    exact ⟨(h _ rfl).1, fun heq _ => ((h _ rfl).2 heq hdeleting).stamp _⟩
  | deletionBegun =>
    cases hrow'
    exact ⟨(h _ rfl).1, fun _ hdeleting => by cases hdeleting⟩

theorem draftMaterial_eq_ok {target : Site} {certificate : Option CertificateRow}
    {draft : PublicationMaterial} (h : draftMaterial target certificate = .ok draft) :
    draft.site = target ∧
      draft.certificateCiphertext = certificate.map CertificateRow.certificateCiphertext ∧
      draft.keyCiphertext = certificate.map CertificateRow.keyCiphertext := by
  cases certificate with
  | some row =>
    simp only [draftMaterial, Except.ok.injEq] at h
    subst h
    exact ⟨rfl, rfl, rfl⟩
  | none =>
    simp only [draftMaterial, bind_eq_ok, require_eq_ok, pure_eq_ok] at h
    obtain ⟨-, -, rfl⟩ := h
    exact ⟨rfl, rfl, rfl⟩

/-- Each read of a call agrees with the database it reads. -/
theorem CallCurrent.progress {stage : PublishStage} (hprogress : Progress s call stage)
    (h : CallCurrent call (s.store.siteView call.site.id)) :
    CallCurrent { call with stage := stage } (s.store.siteView call.site.id) := by
  intro row hrow
  refine ⟨(h row hrow).1, fun hversion hdeleting => ?_⟩
  have hagrees := (h row hrow).2 hversion hdeleting
  have hfind : s.store.sites.find? call.site.id = some row := hrow
  cases hprogress with
  | created taskID => trivial
  | targetRead htarget =>
    rw [hfind] at htarget
    cases htarget
    rfl
  | drafted hstage hdraft =>
    rw [hstage] at hagrees
    obtain ⟨hsite, hcertificate, hkey⟩ := draftMaterial_eq_ok hdraft
    exact ⟨hsite, by rw [hsite]; exact hagrees, hcertificate, hkey⟩
  | rendered hstage hrender =>
    rw [hstage] at hagrees
    exact hagrees.2

/-! ### The invariant -/

structure PublishInv (id : String) (s : Calls) : Prop where
  rowsIssued : RowsIssued s
  versioned : ∀ row, s.store.sites.find? id = some row → 1 ≤ row.configVersion
  issued : ∀ call ∈ s.publishes, call.site.id = id →
    id ∈ s.store.issuedIDs ∧ 1 ≤ call.site.configVersion
  current : ∀ call ∈ s.publishes, call.site.id = id → CallCurrent call (s.store.siteView id)
  rendered : ∀ call ∈ s.publishes, StageRendered call.stage

theorem publishInv_initial : PublishInv id initial where
  rowsIssued := rowsIssued_initial
  versioned := by
    intro row hrow
    cases hrow
  issued := by
    intro call hcall
    cases hcall
  current := by
    intro call hcall
    cases hcall
  rendered := by
    intro call hcall
    cases hcall

theorem versioned_step (h : PublishInv id s) (row' : Site)
    (hrow' : (step s a).store.sites.find? id = some row') : 1 ≤ row'.configVersion := by
  have hchange := step_change s id a
  have hview' : ((step s a).store.siteView id).row = some row' := hrow'
  have hversioned : ∀ row, (s.store.siteView id).row = some row → 1 ≤ row.configVersion :=
    h.versioned
  generalize (step s a).store.siteView id = view' at hchange hview'
  generalize s.store.siteView id = view at hchange hversioned
  cases hchange with
  | unchanged => exact hversioned row' hview'
  | created hfresh hissued hgeneration hversion =>
    cases hview'
    rw [hversion]
  | removed => cases hview'
  | updated hcommit hid =>
    cases hview'
    exact Nat.le_add_left 1 _
  | invalidated hcall =>
    cases hview'
    exact Nat.le_add_left 1 _
  | certified hdeleting =>
    cases hview'
    exact Nat.le_add_left 1 _
  | published hdeleting =>
    cases hview'
    have hrow := hversioned _ rfl
    exact hrow
  | deletionBegun =>
    cases hview'
    have hrow := hversioned _ rfl
    exact hrow

/-- A call that has just read its site relies on the version of the row. -/
theorem callCurrent_started {siteID : String} {site : Site}
    (hfind : s.store.sites.find? siteID = some site) (hid : site.id = id) :
    CallCurrent ⟨site, .read⟩ (s.store.siteView id) := by
  have hkey : site.id = siteID := Table.key_of_find? hfind
  intro row hrow
  have hrow : s.store.sites.find? id = some row := hrow
  rw [← hid, hkey, hfind] at hrow
  cases hrow
  exact ⟨Nat.le_refl _, fun _ _ => trivial⟩

theorem stageRendered_progress {stage : PublishStage} (hprogress : Progress s call stage)
    (hcall : StageRendered call.stage) : StageRendered stage := by
  cases hprogress with
  | created taskID => trivial
  | targetRead htarget => trivial
  | drafted hstage hdraft => exact (draftMaterial_eq_ok hdraft).1
  | rendered hstage hrender =>
    rw [hstage] at hcall
    exact ⟨_, _, _, _, _, Eq.symm hcall, hrender⟩

theorem publishInv_step (s : Calls) (a : Action) (h : PublishInv id s) (hbase : BaseCurrent id s a) :
    PublishInv id (step s a) where
  rowsIssued := rowsIssued_step s a h.rowsIssued
  versioned := versioned_step h
  issued := by
    intro call hcall hid
    have hkeep := @step_issuedIDs s a id
    cases step_origin hcall with
    | kept hmem => exact ⟨hkeep (h.issued _ hmem hid).1, (h.issued _ hmem hid).2⟩
    | started hfind =>
      have hkey := Table.key_of_find? hfind
      simp only [key_site] at hkey hid
      rw [← hkey, hid] at hfind
      exact ⟨hkeep (h.rowsIssued id _ hfind), h.versioned _ hfind⟩
    | moved hmem hprogress => exact ⟨hkeep (h.issued _ hmem hid).1, (h.issued _ hmem hid).2⟩
  current := by
    intro call hcall hid
    have hchange := step_change s id a
    cases step_origin hcall with
    | kept hmem =>
      refine (h.current _ hmem hid).change hchange rfl (h.issued _ hmem hid).1 ?_
      intro i now update row ha hcommit hupdate hrow
      exact hbase i now update row ha hcommit hupdate hrow _ hmem hid
    | started hfind =>
      have hkey := Table.key_of_find? hfind
      simp only [key_site] at hkey hid
      have hissued : id ∈ s.store.issuedIDs := by
        rw [← hkey, hid] at hfind
        exact h.rowsIssued id _ hfind
      refine (callCurrent_started hfind hid).change hchange rfl hissued ?_
      intro i now update row ha
      cases ha
    | moved hmem hprogress =>
      have hold := h.current _ hmem hid
      subst hid
      refine (hold.progress hprogress).change hchange rfl (h.issued _ hmem rfl).1 ?_
      intro i now update row ha hcommit hupdate hrow
      have hle := hbase i now update row ha hcommit hupdate hrow _ hmem rfl
      exact hle
  rendered := by
    intro call hcall
    cases step_origin hcall with
    | kept hmem => exact h.rendered _ hmem
    | started hfind => trivial
    | moved hmem hprogress => exact stageRendered_progress hprogress (h.rendered _ hmem)

/-! ### The commit -/

/-- While a call is current, its commit stores what it has rendered. -/
theorem PublishInv.storesRendered (h : PublishInv id s) : StoresRendered id s a := by
  intro i newTaskID now call taskID draft updates targets site db ha hcall hid hstage hcommit
  have hmem := List.mem_of_getElem? hcall
  have hrendered := h.rendered call hmem
  rw [hstage] at hrendered
  refine ⟨hrendered, ?_⟩
  obtain ⟨row, hfind, hdeleting, hversion, -, targetRows, states, claims, -, -, rfl⟩ :=
    Store.commitSitePublication_eq_ok hcommit
  have hkey : row.id = id := Table.key_of_find? hfind
  have hissued := (h.issued call hmem hid).2
  have hversion : row.configVersion = call.site.configVersion := by
    rcases hversion with hzero | heq
    · omega
    · exact heq
  have hagrees := (h.current call hmem hid row hfind).2 hversion hdeleting
  rw [hstage] at hagrees
  obtain ⟨hsame, hcertificate, hprivate⟩ := hagrees
  refine ⟨s.store.snapshot row now, ?_, ?_⟩
  · rw [Table.find?_upsert]
    exact if_pos hkey
  · have hsite : (s.store.snapshot row now).site = Store.publishedSite draft.site now :=
      (hsame.publishedSite_eq now).symm
    have hview : (s.store.siteView id).certificate = s.store.certificates.find? row.id := by
      rw [hkey]
      rfl
    rw [hview] at hcertificate hprivate
    simp only [SitePublication.material, hsite, PublicationMaterial.mk.injEq, true_and]
    exact ⟨hcertificate.symm, hprivate.symm⟩

/-- In every run from a new database whose `UpdateSite` transactions start from a current version,
each successful commit of a publication of the site stores the site and the certificate its node
states were rendered from. -/
theorem commit_stores_rendered (id : String) {as : List Action}
    (h : Along step (BaseCurrent id) initial as) : Along step (StoresRendered id) initial as := by
  refine along_iff_prefix.mpr fun bs a hbs => ?_
  have hcut := h.of_prefix ((List.prefix_append bs [a]).trans hbs)
  exact (hcut.invariant publishInv_step publishInv_initial).storesRendered

/-! ### A publication that was not rendered -/

/-- An active node that understands TCP forwards. -/
def edgeNode : Node where
  id := "edge"
  name := "edge"
  publicIPv4 := "192.0.2.1"
  cacheMaxSizeGB := none
  nginxCapacity := ⟨0, 0, 0⟩
  status := .active
  monitorAutoPaused := false
  capabilities := ["tcp_stream_v1"]
  certFingerprint := some "fingerprint"
  agentVersion := ""
  agentSHA256 := ""
  activeUpgradeID := ""
  lastHeartbeatAt := none
  appliedVersion := 0
  lastError := ""
  createdAt := 0
  updatedAt := 0

/-- The tables after the node has been created and enrolled. -/
def edgeTables : OtherTables where
  nodes := ⟨[edgeNode], by simp⟩
  nodeStates := ∅
  deploymentTasks := ∅
  publishTaskNodes := ∅
  siteDeletionJobs := ∅
  nodeUninstallJobs := ∅
  nodeUpgradeTasks := ∅
  enrollmentTokens := ∅
  securityPolicies := []
  rateLimitPolicies := []
  cacheDefaultSizeGB := 1
  issuedIDs := ["edge"]

/-- A TCP forward to the port `port` of the origin. -/
def forwardDraft (port : Int) : SiteDraft where
  name := "tcp"
  domains := ["a.example"]
  nodes := ["edge"]
  primaryOrigin := ⟨"", "", "", false⟩
  backupOrigin := none
  passthrough := false
  clientMaxBodySizeMB := 0
  clientKeepaliveTimeoutSeconds := 0
  readWriteTimeoutSeconds := 0
  dnsTTLSeconds := none
  tcpOnly := true
  tcpForwards := [⟨"tcp", 9000, false, "192.0.2.9", port, false, "", 0, 0⟩]
  enabled := true

/-- Two edits read version 1 and one of them is written; a publication reads version 2 and renders
it; then the other edit is written, as version 2 again. -/
def renderedThenOverwritten : List Action :=
  [.otherTables edgeTables, .createSite "tcp" (forwardDraft 1) "zone" 1,
    .updateRead "tcp" (forwardDraft 2) "zone", .updateRead "tcp" (forwardDraft 3) "zone",
    .updateCommit 0 2, .publishRead "tcp", .publishStep 0 "task" 3, .publishStep 0 "" 4,
    .publishStep 0 "" 5, .publishStep 0 "" 6, .updateCommit 0 7]

/-- The forwarded ports that the commit of the only publish call stores, and those its node states
were rendered with. -/
def committedPorts (id : String) (s : Calls) (now : Time) : Option (List Int × List Int) :=
  match s.publishes with
  | [⟨site, .rendered taskID draft updates targets⟩] =>
    match s.store.commitSitePublication id site.configVersion taskID updates targets now with
    | .ok (_, db) =>
      if site.id = id then
        (db.sitePublications.find? id).map fun publication =>
          (publication.site.tcpForwards.map TCPForward.upstreamPort,
            draft.site.tcpForwards.map TCPForward.upstreamPort)
      else none
    | .error _ => none
  | _ => none

theorem StoresRendered.committedPorts {now : Time} {stored rendered : List Int}
    (h : StoresRendered id s (.publishStep 0 "" now))
    (hports : committedPorts id s now = some (stored, rendered)) : stored = rendered := by
  unfold SiteCalls.committedPorts at hports
  split at hports
  · next site taskID draft updates targets hpublishes =>
    split at hports
    · next committed db hcommit =>
      split at hports
      · next hid =>
        have hcall : s.publishes[0]? = some ⟨site, .rendered taskID draft updates targets⟩ := by
          rw [hpublishes]
          rfl
        obtain ⟨-, publication, hfind, hmaterial⟩ :=
          h 0 "" now _ taskID draft updates targets committed db rfl hcall hid rfl hcommit
        have hsite : publication.site = Store.publishedSite draft.site now :=
          congrArg PublicationMaterial.site hmaterial
        rw [hfind] at hports
        simp only [Option.map_some, Option.some.injEq, Prod.mk.injEq, hsite] at hports
        obtain ⟨rfl, rfl⟩ := hports
        rfl
      · cases hports
    · cases hports
  · cases hports

set_option maxRecDepth 20000 in
/-- The node is asked to forward to port 3 while the publication says 2. -/
theorem renderedThenOverwritten_commit :
    ¬ Along step (StoresRendered "tcp") initial
      (renderedThenOverwritten ++ [.publishStep 0 "" 8]) := by
  intro h
  have hstores := ((along_append _ _ _).mp h).2.1
  have hports : committedPorts "tcp" (run step initial renderedThenOverwritten) 8 =
      some ([2], [3]) := by decide
  cases hstores.committedPorts hports

/-- An edit is written, then the site is published. -/
def editedThenPublished : List Action :=
  [.otherTables edgeTables, .createSite "tcp" (forwardDraft 1) "zone" 1,
    .updateRead "tcp" (forwardDraft 2) "zone", .updateCommit 0 2, .publishRead "tcp",
    .publishStep 0 "task" 3, .publishStep 0 "" 4, .publishStep 0 "" 5, .publishStep 0 "" 6,
    .publishStep 0 "" 7]

theorem editedThenPublished_base : Along step (BaseCurrent "tcp") initial editedThenPublished := by
  have hother : ∀ s a, (∀ i now, a ≠ .updateCommit i now) → BaseCurrent "tcp" s a :=
    fun s a hne i now call row ha => absurd ha (hne i now)
  refine ⟨?_, ?_, ?_, ?_, ?_, ?_, ?_, ?_, ?_, ?_, trivial⟩
  case refine_4 =>
    intro i now call row ha hcommit hid hrow publish hpublish
    cases hpublish
  all_goals
    apply hother
    intro i now h
    cases h

set_option maxRecDepth 20000 in
/-- The edited site is stored as it was rendered. -/
theorem editedThenPublished_commit :
    Along step (StoresRendered "tcp") initial editedThenPublished ∧
      committedPorts "tcp" (run step initial (editedThenPublished.take 9)) 7 = some ([2], [2]) :=
  ⟨commit_stores_rendered "tcp" editedThenPublished_base, by decide⟩

end SimpleCdn.SiteCalls
