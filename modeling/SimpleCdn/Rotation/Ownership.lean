import SimpleCdn.Rotation.System

/-!
# Whose certificate it is

Every certificate is signed once, for one node, and every place that keeps one (a row, an edge, a
message) keeps a certificate of its own node.  So the fingerprint of a row identifies the node,
and an edge is accepted exactly when its node's row holds its certificate.
-/

namespace SimpleCdn.Rotation

open Transition

/-! ### What node operations do to fingerprints -/

section Fingerprints

variable {db db' : Store} {n m : String} {node' : Node} {c : Fingerprint} {now : Time}

/-- The rows of `db'` have the fingerprint they have in `db`, or none. -/
def KeepsFingerprints (db db' : Store) : Prop :=
  ∀ n node' c, db'.nodes.find? n = some node' → node'.certFingerprint = some c →
    ∃ node, db.nodes.find? n = some node ∧ node.certFingerprint = some c

theorem KeepsFingerprints.refl (db : Store) : KeepsFingerprints db db :=
  fun _ node' _ hfind hc => ⟨node', hfind, hc⟩

theorem KeepsFingerprints.of_nodes_eq (h : db'.nodes = db.nodes) : KeepsFingerprints db db' := by
  intro n node' c hfind hc
  rw [h] at hfind
  exact ⟨node', hfind, hc⟩

theorem KeepsFingerprints.trans {db'' : Store} (h : KeepsFingerprints db db')
    (h' : KeepsFingerprints db' db'') : KeepsFingerprints db db'' := by
  intro n node'' c hfind hc
  obtain ⟨node', hfind', hc'⟩ := h' n node'' c hfind hc
  exact h n node' c hfind' hc'

/-- An update of one row that keeps or clears its fingerprint. -/
theorem updateNode_keeps {f : Node → Node} {hf : ∀ node, key (f node) = key node}
    (hkeep : ∀ node c, (f node).certFingerprint = some c → node.certFingerprint = some c) :
    KeepsFingerprints db (db.updateNode m f hf) := by
  intro n node' c hfind hc
  simp only [Store.updateNode, Table.find?_update] at hfind
  obtain ⟨node, hnode, rfl⟩ := Option.map_eq_some_iff.mp hfind
  refine ⟨node, hnode, ?_⟩
  split at hc
  · exact hkeep node c hc
  · exact hc

theorem updateUninstallJob_keeps {f : NodeUninstallJob → NodeUninstallJob}
    {hf : ∀ job, key (f job) = key job} :
    KeepsFingerprints db (db.updateUninstallJob m f hf) :=
  .of_nodes_eq rfl

theorem withdrawAuthorization_keeps :
    KeepsFingerprints db (db.withdrawAuthorization m now) :=
  .of_nodes_eq rfl

theorem forgetNode_keeps : KeepsFingerprints db (db.forgetNode m) :=
  .of_nodes_eq rfl

theorem reconcilePublishTasks_keeps : KeepsFingerprints db (db.reconcilePublishTasks now) := by
  obtain ⟨tasks, rows, h⟩ := db.reconcilePublishTasks_frame now
  rw [h]
  exact .of_nodes_eq rfl

theorem getNode_eq_ok {node : Node} : db.getNode n = .ok node ↔ db.nodes.find? n = some node := by
  simp [Store.getNode]

theorem createNode_keeps {node : Node} {id name publicIPv4 : String}
    (h : db.createNode id name publicIPv4 now = .ok (node, db')) : KeepsFingerprints db db' := by
  simp only [Store.createNode, bind_eq_ok, require_eq_ok, orError_eq_ok, pure_eq_ok,
    Prod.mk.injEq, exists_const] at h
  obtain ⟨-, db₁, hnew, -, nodes, hinsert, hnode, rfl⟩ := h
  obtain ⟨-, rfl⟩ := Store.newID_eq_ok.mp hnew
  intro n node' c hfind hc
  rw [Table.find?_of_insert? hinsert] at hfind
  split at hfind
  · obtain rfl := Option.some.inj hfind
    cases hc
  · exact ⟨node', hfind, hc⟩

theorem setNodeStatus_keeps {nodeID : String} {status : NodeStatus}
    (h : db.setNodeStatus nodeID status now = .ok db') : KeepsFingerprints db db' := by
  simp only [Store.setNodeStatus, bind_eq_ok, require_eq_ok, exists_const] at h
  obtain ⟨-, node, -, -, -, h⟩ := h
  split at h
  · obtain rfl := pure_eq_ok.mp h
    refine .trans (updateNode_keeps ?_) withdrawAuthorization_keeps
    intro node c hc
    cases hc
  · obtain rfl := pure_eq_ok.mp h
    exact updateNode_keeps fun node c hc => hc

theorem recordMonitoringRound_keeps {nodeID : String} {consecutiveAbnormal : Nat}
    (h : db.recordMonitoringRound nodeID consecutiveAbnormal now = .ok db') :
    KeepsFingerprints db db' := by
  simp only [Store.recordMonitoringRound, bind_eq_ok, pure_eq_ok] at h
  obtain ⟨node, -, rfl⟩ := h
  exact updateNode_keeps fun node c hc => hc

theorem setNodeCacheMaxSizeGB_keeps {nodeID : String} {size : Option Int}
    (h : db.setNodeCacheMaxSizeGB nodeID size now = .ok db') : KeepsFingerprints db db' := by
  simp only [Store.setNodeCacheMaxSizeGB, bind_eq_ok, pure_eq_ok] at h
  obtain ⟨-, -, node, -, rfl⟩ := h
  exact updateNode_keeps fun node c hc => hc

theorem setNodeNginxCapacity_keeps {nodeID : String} {capacity : NginxCapacity}
    (h : db.setNodeNginxCapacity nodeID capacity now = .ok db') : KeepsFingerprints db db' := by
  simp only [Store.setNodeNginxCapacity, bind_eq_ok, pure_eq_ok] at h
  obtain ⟨capacity, -, node, -, rfl⟩ := h
  exact updateNode_keeps fun node c hc => hc

theorem setNodeCapabilities_keeps {nodeID : String} {capabilities : List String}
    (h : db.setNodeCapabilities nodeID capabilities now = .ok db') : KeepsFingerprints db db' := by
  simp only [Store.setNodeCapabilities, bind_eq_ok, pure_eq_ok] at h
  obtain ⟨node, -, rfl⟩ := h
  exact updateNode_keeps fun node c hc => hc

theorem recordReport_keeps {nodeID : String} {report : Option ApplyReport}
    (h : db.recordReport nodeID report now = .ok db') : KeepsFingerprints db db' := by
  cases report with
  | none =>
    obtain rfl := Except.ok.inj h
    exact .refl db
  | some report =>
    simp only [Store.recordReport, Store.recordPublishApply, bind_eq_ok, pure_eq_ok] at h
    obtain ⟨-, -, rfl⟩ := h
    exact .of_nodes_eq rfl

theorem heartbeat_keeps {nodeID lastError agentVersion agentSHA256 activeUpgradeID : String}
    {appliedVersion : Nat} {report : Option ApplyReport}
    (h : db.heartbeat nodeID appliedVersion lastError report agentVersion agentSHA256
      activeUpgradeID now = .ok db') : KeepsFingerprints db db' := by
  simp only [Store.heartbeat, bind_eq_ok, pure_eq_ok] at h
  obtain ⟨db₁, hreport, node, -, rfl⟩ := h
  refine (recordReport_keeps hreport).trans (.trans (updateNode_keeps ?_) reconcilePublishTasks_keeps)
  exact fun node c hc => hc

theorem finishNodeUninstall_keeps {nodeID detail : String} {status : NodeUninstallJobStatus}
    {forced : Bool} :
    KeepsFingerprints db (db.finishNodeUninstall nodeID status forced detail now) := by
  refine .trans (.trans updateUninstallJob_keeps (updateNode_keeps ?_)) forgetNode_keeps
  intro node c hc
  cases hc

theorem startNodeUninstall_keeps {token : String} (h : db.startNodeUninstall token now = .ok db') :
    KeepsFingerprints db db' := by
  simp only [Store.startNodeUninstall, bind_eq_ok] at h
  obtain ⟨job, -, h⟩ := h
  split at h
  · obtain rfl := pure_eq_ok.mp h
    exact .refl db
  · obtain rfl := pure_eq_ok.mp h
    exact .of_nodes_eq rfl
  · obtain rfl := pure_eq_ok.mp h
    exact updateUninstallJob_keeps.trans (updateNode_keeps fun node c hc => hc)
  · obtain rfl := pure_eq_ok.mp h
    exact updateUninstallJob_keeps.trans (updateNode_keeps fun node c hc => hc)
  · obtain rfl := pure_eq_ok.mp h
    exact updateUninstallJob_keeps.trans (updateNode_keeps fun node c hc => hc)
  · cases h

theorem failNodeUninstall_keeps {token detail : String}
    (h : db.failNodeUninstall token detail now = .ok db') : KeepsFingerprints db db' := by
  simp only [Store.failNodeUninstall, bind_eq_ok] at h
  obtain ⟨job, -, h⟩ := h
  split at h
  · obtain rfl := pure_eq_ok.mp h
    exact .refl db
  · obtain rfl := pure_eq_ok.mp h
    exact .refl db
  · obtain rfl := pure_eq_ok.mp h
    exact updateUninstallJob_keeps.trans (updateNode_keeps fun node c hc => hc)
  · obtain rfl := pure_eq_ok.mp h
    exact updateUninstallJob_keeps.trans (updateNode_keeps fun node c hc => hc)
  · cases h

theorem completeNodeUninstall_keeps {token : String}
    (h : db.completeNodeUninstall token now = .ok db') : KeepsFingerprints db db' := by
  simp only [Store.completeNodeUninstall, bind_eq_ok] at h
  obtain ⟨job, -, h⟩ := h
  split at h
  · obtain rfl := pure_eq_ok.mp h
    exact .refl db
  · simp only [bind_eq_ok, pure_eq_ok] at h
    obtain ⟨-, -, rfl⟩ := h
    exact finishNodeUninstall_keeps
  · obtain rfl := pure_eq_ok.mp h
    exact finishNodeUninstall_keeps
  · cases h

theorem deleteNode_keeps {nodeID : String} (h : db.deleteNode nodeID = .ok db') :
    KeepsFingerprints db db' := by
  simp only [Store.deleteNode, bind_eq_ok, pure_eq_ok] at h
  obtain ⟨-, -, -, -, -, -, rfl⟩ := h
  intro n node' c hfind hc
  rw [Table.find?_delete] at hfind
  obtain ⟨hfind, -⟩ := Option.filter_eq_some_iff.mp hfind
  exact ⟨node', hfind, hc⟩

/-- No node operation gives a row another fingerprint. -/
theorem NodeOp.keeps {op : NodeOp} (h : op.apply db now = .ok db') : KeepsFingerprints db db' := by
  cases op with
  | createNode id name publicIPv4 =>
    obtain ⟨⟨node, db₁⟩, hcreate, rfl⟩ := map_eq_ok.mp h
    exact createNode_keeps hcreate
  | setCacheMaxSizeGB nodeID size => exact setNodeCacheMaxSizeGB_keeps h
  | setNginxCapacity nodeID capacity => exact setNodeNginxCapacity_keeps h
  | setCapabilities nodeID capabilities => exact setNodeCapabilities_keeps h
  | createEnrollmentToken nodeID token expiresAt =>
    simp only [NodeOp.apply, Store.createEnrollmentToken, bind_eq_ok, pure_eq_ok] at h
    obtain ⟨-, -, -, -, -, -, tokens, -, rfl⟩ := h
    exact .of_nodes_eq rfl
  | setNodeStatus nodeID status => exact setNodeStatus_keeps h
  | recordMonitoringRound nodeID consecutiveAbnormal => exact recordMonitoringRound_keeps h
  | heartbeat => exact heartbeat_keeps h
  | prepareUninstall nodeID affectedSiteIDs readyAt =>
    simp only [NodeOp.apply, Store.prepareNodeUninstall, bind_eq_ok] at h
    obtain ⟨node, -, -, -, -, -, -, -, h⟩ := h
    split at h
    · obtain rfl := pure_eq_ok.mp h
      exact .refl db
    · obtain rfl := pure_eq_ok.mp h
      exact .of_nodes_eq rfl
  | issueUninstallToken nodeID token expiresAt =>
    simp only [NodeOp.apply, Store.issueNodeUninstallToken, bind_eq_ok, pure_eq_ok] at h
    obtain ⟨-, -, -, -, -, -, rfl⟩ := h
    exact .of_nodes_eq rfl
  | startUninstall token => exact startNodeUninstall_keeps h
  | failUninstall token detail => exact failNodeUninstall_keeps h
  | completeUninstall token => exact completeNodeUninstall_keeps h
  | forceCompleteUninstall nodeID detail =>
    simp only [NodeOp.apply, Store.forceCompleteNodeUninstall, bind_eq_ok, pure_eq_ok] at h
    obtain ⟨-, -, -, -, rfl⟩ := h
    exact finishNodeUninstall_keeps
  | cancelUninstall nodeID =>
    simp only [NodeOp.apply, Store.cancelNodeUninstall, bind_eq_ok, pure_eq_ok] at h
    obtain ⟨-, -, -, -, -, -, rfl⟩ := h
    exact .of_nodes_eq rfl
  | deleteNode nodeID =>
    simp only [NodeOp.apply, bind_eq_ok] at h
    obtain ⟨-, -, -, -, h⟩ := h
    exact deleteNode_keeps h

end Fingerprints

/-! ### Every certificate belongs to one node -/

structure Owned (s : State) : Prop where
  unique : ∀ n m c, (n, c) ∈ s.signed → (m, c) ∈ s.signed → n = m
  nodes : ∀ n node c, s.store.nodes.find? n = some node → node.certFingerprint = some c →
    (n, c) ∈ s.signed
  issuedSigned : ∀ entry ∈ s.issued, entry ∈ s.signed
  issuedLive : ∀ n c, (n, c) ∈ s.issued →
    ∃ node, s.store.nodes.find? n = some node ∧ node.certFingerprint.isSome
  edges : ∀ n c, (s.edges n).certificate = some c → (n, c) ∈ s.signed
  requests : ∀ request ∈ s.requests, ∀ c, request.credential = .certificate c →
    (request.edge, c) ∈ s.signed
  handlers : ∀ handler ∈ s.handlers, handler.nodeID = handler.edge
  responses : ∀ response ∈ s.responses, (response.edge, response.certificate) ∈ s.signed

theorem owned_initial : Owned initial where
  unique := by
    intro n m c h
    cases h
  nodes := by
    intro n node c h
    cases h
  issuedSigned := by
    intro entry h
    cases h
  issuedLive := by
    intro n c h
    cases h
  edges := by
    intro n c h
    cases h
  requests := by
    intro request h
    cases h
  handlers := by
    intro handler h
    cases h
  responses := by
    intro response h
    cases h

section Preserved

variable {s : State}

/-- A step that keeps the rows and what is signed and issued, sends no new certificate around and
lets an edge store only certificates of its own. -/
theorem Owned.messages (h : Owned s) {s' : State} (hnodes : s'.store.nodes = s.store.nodes)
    (hsigned : s'.signed = s.signed) (hissued : s'.issued = s.issued)
    (hedges : ∀ n c, (s'.edges n).certificate = some c → (n, c) ∈ s.signed)
    (hrequests : ∀ request ∈ s'.requests, request ∈ s.requests ∨
      ∀ c, request.credential = .certificate c → (request.edge, c) ∈ s.signed)
    (hhandlers : ∀ handler ∈ s'.handlers, handler ∈ s.handlers ∨ handler.nodeID = handler.edge)
    (hresponses : s'.responses ⊆ s.responses) : Owned s' where
  unique := by
    rw [hsigned]
    exact h.unique
  nodes := by
    rw [hnodes, hsigned]
    exact h.nodes
  issuedSigned := by
    rw [hissued, hsigned]
    exact h.issuedSigned
  issuedLive := by
    rw [hissued, hnodes]
    exact h.issuedLive
  edges := by
    rw [hsigned]
    exact hedges
  requests := by
    rw [hsigned]
    intro request hmem
    rcases hrequests request hmem with hold | hnew
    · exact h.requests request hold
    · exact hnew
  handlers := by
    intro handler hmem
    rcases hhandlers handler hmem with hold | hnew
    · exact h.handlers handler hold
    · exact hnew
  responses := by
    rw [hsigned]
    exact fun response hmem => h.responses response (hresponses hmem)

theorem mem_stillIssued {db : Store} {issued : List (String × Fingerprint)} {n : String}
    {c : Fingerprint} :
    (n, c) ∈ stillIssued db issued ↔
      (n, c) ∈ issued ∧ ∃ node, db.nodes.find? n = some node ∧ node.certFingerprint.isSome := by
  simp only [stillIssued, List.mem_filter, Option.isSome_bind]
  refine and_congr_right fun _ => ?_
  cases db.nodes.find? n with
  | none => simp
  | some node => simp

theorem Owned.node (h : Owned s) {op : NodeOp} {now : Time} {db : Store}
    (hop : op.apply s.store now = .ok db) :
    Owned { s with store := db, issued := stillIssued db s.issued } where
  unique := h.unique
  nodes := by
    intro n node' c hfind hc
    obtain ⟨node, hnode, hc⟩ := NodeOp.keeps hop n node' c hfind hc
    exact h.nodes n node c hnode hc
  issuedSigned := fun entry hmem => h.issuedSigned entry (List.mem_filter.mp hmem).1
  issuedLive := fun n c hmem => (mem_stillIssued.mp hmem).2
  edges := h.edges
  requests := h.requests
  handlers := h.handlers
  responses := h.responses

/-- What a successful `SetNodeCertificate` has checked and written. -/
theorem setNodeCertificate_eq_ok {db db' : Store} {nodeID : String} {c : Fingerprint} {now : Time}
    (h : db.setNodeCertificate nodeID c now = .ok db') :
    ∃ node, db.nodes.find? nodeID = some node ∧ node.status.retired = false ∧
      ∀ n, db'.nodes.find? n = (db.nodes.find? n).map fun node =>
        if node.id = nodeID then { node with certFingerprint := some c, updatedAt := now }
        else node := by
  simp only [Store.setNodeCertificate, bind_eq_ok, getNode_eq_ok, require_eq_ok, pure_eq_ok,
    exists_const] at h
  obtain ⟨node, hnode, ⟨hstatus, -⟩, rfl⟩ := h
  refine ⟨node, hnode, hstatus, fun n => ?_⟩
  simp [Store.updateNode]

/-- Signing a certificate that has not been signed before. -/
theorem Owned.addSigned (h : Owned s) {n : String} {c : Fingerprint}
    (hfresh : c ∉ s.signed.map Prod.snd) : Owned { s with signed := (n, c) :: s.signed } where
  unique := by
    have hfresh : ∀ m, (m, c) ∉ s.signed := fun m hmem =>
      hfresh (List.mem_map.mpr ⟨(m, c), hmem, rfl⟩)
    intro m m' d hm hm'
    rcases List.mem_cons.mp hm with hm | hm <;> rcases List.mem_cons.mp hm' with hm' | hm'
    · cases hm
      cases hm'
      rfl
    · cases hm
      exact absurd hm' (hfresh m')
    · cases hm'
      exact absurd hm (hfresh m)
    · exact h.unique m m' d hm hm'
  nodes := fun m node d hm hd => List.mem_cons_of_mem _ (h.nodes m node d hm hd)
  issuedSigned := fun entry hmem => List.mem_cons_of_mem _ (h.issuedSigned entry hmem)
  issuedLive := h.issuedLive
  edges := fun m d hd => List.mem_cons_of_mem _ (h.edges m d hd)
  requests := fun request hmem d hd => List.mem_cons_of_mem _ (h.requests request hmem d hd)
  handlers := h.handlers
  responses := fun response hmem => List.mem_cons_of_mem _ (h.responses response hmem)

/-- Accepting a certificate that was signed for the node, and answering with it. -/
theorem Owned.accept (h : Owned s) {n : String} {c : Fingerprint} {exchange : Nat} {db : Store}
    {now : Time} (hsigned : (n, c) ∈ s.signed)
    (hset : s.store.setNodeCertificate n c now = .ok db) :
    Owned { s with
      store := db, issued := (n, c) :: s.issued
      responses := ⟨exchange, n, c⟩ :: s.responses } := by
  obtain ⟨node, hnode, -, hfind⟩ := setNodeCertificate_eq_ok hset
  refine ⟨h.unique, ?_, ?_, ?_, h.edges, h.requests, h.handlers, ?_⟩
  · intro m node' d hm hd
    rw [hfind] at hm
    obtain ⟨old, hold, rfl⟩ := Option.map_eq_some_iff.mp hm
    have hkey : old.id = m := Table.key_of_find? hold
    split at hd
    · next hid =>
      cases hd
      rw [← hkey, hid]
      exact hsigned
    · exact h.nodes m old d hold hd
  · intro entry hmem
    rcases List.mem_cons.mp hmem with rfl | hmem
    · exact hsigned
    · exact h.issuedSigned entry hmem
  · intro m d hmem
    rcases List.mem_cons.mp hmem with heq | hmem
    · cases heq
      have hkey : node.id = n := Table.key_of_find? hnode
      refine ⟨{ node with certFingerprint := some c, updatedAt := now }, ?_, rfl⟩
      simp only [hfind, hnode, Option.map_some, if_pos hkey]
    · obtain ⟨old, hold, hsome⟩ := h.issuedLive m d hmem
      refine ⟨_, by rw [hfind, hold]; rfl, ?_⟩
      dsimp only
      split
      · rfl
      · exact hsome
  · intro response hmem
    rcases List.mem_cons.mp hmem with rfl | hmem
    · exact hsigned
    · exact h.responses response hmem

theorem Owned.sign (h : Owned s) {handler : Handler} {c : Fingerprint} {now : Time}
    (hhandler : handler.nodeID = handler.edge) : Owned (s.sign handler c now) := by
  unfold State.sign
  split
  · next hcheck =>
    have hfresh : c ∉ s.signed.map Prod.snd := by
      intro hmem
      simp [hmem] at hcheck
    have hadded := h.addSigned (n := handler.nodeID) hfresh
    dsimp only
    split
    · next db hset =>
      rw [← hhandler]
      exact hadded.accept List.mem_cons_self hset
    · exact hadded
  · exact h

theorem Owned.setEdge (h : Owned s) {edge : String} {f : Edge → Edge}
    (hf : ∀ c, (f (s.edges edge)).certificate = some c → (edge, c) ∈ s.signed) :
    Owned (s.setEdge edge f) := by
  refine h.messages rfl rfl rfl ?_ (fun _ hmem => .inl hmem) (fun _ hmem => .inl hmem)
    (List.Subset.refl _)
  intro n c hc
  rw [State.setEdge_edges] at hc
  split at hc
  · next hn =>
    subst hn
    exact hf c hc
  · exact h.edges n c hc

theorem Owned.send (h : Owned s) {edge : String} {credential : Credential}
    (hcredential : ∀ c, credential = .certificate c → (edge, c) ∈ s.signed) :
    Owned (s.send edge credential) := by
  have hsent : Owned { s with
      nextExchange := s.nextExchange + 1
      requests := ⟨s.nextExchange, edge, credential⟩ :: s.requests } := by
    refine h.messages rfl rfl rfl h.edges ?_ (fun _ hmem => .inl hmem) (List.Subset.refl _)
    intro request hmem
    rcases List.mem_cons.mp hmem with rfl | hmem
    · exact .inr hcredential
    · exact .inl hmem
  exact hsent.setEdge (h.edges edge)

theorem Owned.arrive (h : Owned s) {i : Nat} {response : Response} {write : Edge → Edge}
    (hwrite : ∀ files c, (write files).certificate = some c →
      files.certificate = some c ∨ c = response.certificate)
    (hresponse : s.responses[i]? = some response) : Owned (s.arrive i response write) := by
  have hmem := List.mem_of_getElem? hresponse
  have herased : Owned { s with responses := s.responses.eraseIdx i } :=
    h.messages rfl rfl rfl h.edges (fun _ hmem => .inl hmem) (fun _ hmem => .inl hmem)
      (List.eraseIdx_subset)
  unfold State.arrive
  dsimp only
  split
  · refine herased.setEdge fun c hc => ?_
    rcases hwrite _ c hc with hold | rfl
    · exact h.edges _ c hold
    · exact h.responses response hmem
  · exact herased

/-- The rows are as before when a request has been authenticated. -/
theorem authenticate_nodes {db db' : Store} {credential : Credential} {nodeID : String}
    {now : Time} (h : authenticate db credential now = .ok (nodeID, db')) :
    db'.nodes = db.nodes := by
  cases credential with
  | certificate c =>
    simp only [authenticate, bind_eq_ok, pure_eq_ok, Prod.mk.injEq] at h
    obtain ⟨_, -, -, rfl⟩ := h
    rfl
  | token token =>
    simp only [authenticate, Store.consumeEnrollmentToken, bind_eq_ok, pure_eq_ok,
      Prod.mk.injEq] at h
    obtain ⟨_, -, _, -, _, -, -, rfl⟩ := h
    rfl

end Preserved

theorem owned_step (s : State) (a : Action) (h : Owned s) : Owned (step s a) := by
  cases a with
  | node op now =>
    simp only [step]
    split
    · next db hop => exact h.node hop
    · exact h
  | sendEnroll edge token =>
    simp only [step]
    split
    · refine h.send fun c hc => ?_
      cases hc
    · exact h
  | sendRenew edge =>
    simp only [step]
    split
    · next c hc =>
      split
      · refine h.send fun d hd => ?_
        cases hd
        exact h.edges edge c hc
      · exact h
    · exact h
  | receive i now =>
    simp only [step]
    split
    · next request hrequest =>
      have herased : Owned { s with requests := s.requests.eraseIdx i } :=
        h.messages rfl rfl rfl h.edges (fun _ hmem => .inl (List.eraseIdx_subset hmem))
          (fun _ hmem => .inl hmem) (List.Subset.refl _)
      split
      · next nodeID db hauthenticate =>
        split
        · next hid =>
          refine herased.messages (authenticate_nodes hauthenticate) rfl rfl h.edges
            (fun _ hmem => .inl hmem) ?_ (List.Subset.refl _)
          intro handler hmem
          rcases List.mem_cons.mp hmem with rfl | hmem
          · exact .inr hid
          · exact .inl hmem
        · exact herased
      · exact herased
    · exact h
  | handle i c now =>
    simp only [step]
    split
    · next handler hhandler =>
      have herased : Owned { s with handlers := s.handlers.eraseIdx i } :=
        h.messages rfl rfl rfl h.edges (fun _ hmem => .inl hmem)
          (fun _ hmem => .inl (List.eraseIdx_subset hmem)) (List.Subset.refl _)
      exact herased.sign (h.handlers handler (List.mem_of_getElem? hhandler))
    · exact h
  | deliver i =>
    simp only [step]
    split
    · next response hresponse =>
      refine h.arrive (fun files c hc => ?_) hresponse
      exact .inr (Option.some.inj hc).symm
    · exact h
  | certificateWriteFails i =>
    simp only [step]
    split
    · next response hresponse => exact h.arrive (fun files c hc => .inl hc) hresponse
    · exact h
  | caWriteFails i =>
    simp only [step]
    split
    · next response hresponse =>
      refine h.arrive (fun files c hc => ?_) hresponse
      exact .inr (Option.some.inj hc).symm
    · exact h
  | loseRequest i =>
    exact h.messages rfl rfl rfl h.edges (fun _ hmem => .inl (List.eraseIdx_subset hmem))
      (fun _ hmem => .inl hmem) (List.Subset.refl _)
  | loseResponse i =>
    exact h.messages rfl rfl rfl h.edges (fun _ hmem => .inl hmem) (fun _ hmem => .inl hmem)
      List.eraseIdx_subset
  | giveUp edge =>
    simp only [step]
    refine h.setEdge fun c hc => ?_
    exact h.edges edge c hc
  | reinstall edge =>
    simp only [step]
    refine h.setEdge fun c hc => ?_
    cases hc
  | controlRestart =>
    refine h.messages rfl rfl rfl h.edges ?_ ?_ (List.Subset.refl _)
    · intro request hmem
      cases hmem
    · intro handler hmem
      cases hmem

/-- The control plane accepts a certificate for a node exactly when the row of the node, in
service, holds it. -/
theorem Owned.accepts_iff {s : State} (h : Owned s) {n : String} {c : Fingerprint} :
    s.store.nodeIDByFingerprint c = .ok n ↔
      ∃ node, s.store.nodes.find? n = some node ∧ node.certFingerprint = some c ∧
        node.status.retired = false := by
  unfold Store.nodeIDByFingerprint
  constructor
  · intro hok
    split at hok
    · next node hfound =>
      cases hok
      have hmatch := List.find?_some hfound
      simp only [Bool.and_eq_true, decide_eq_true_eq, Bool.not_eq_true'] at hmatch
      have hmem : node ∈ s.store.nodes := List.mem_of_find?_eq_some hfound
      exact ⟨node, Table.find?_of_mem hmem, hmatch.1, hmatch.2⟩
    · cases hok
  · rintro ⟨node, hnode, hc, hlive⟩
    have hmem : node ∈ s.store.nodes := Table.mem_of_find? hnode
    split
    · next other hfound =>
      have hmatch := List.find?_some hfound
      simp only [Bool.and_eq_true, decide_eq_true_eq] at hmatch
      have hother : s.store.nodes.find? other.id = some other :=
        Table.find?_of_mem (List.mem_of_find?_eq_some hfound)
      rw [h.unique _ _ c (h.nodes other.id other c hother hmatch.1) (h.nodes n node c hnode hc)]
    · next hnone =>
      have hno := List.find?_eq_none.mp hnone node hmem
      simp [hc, hlive] at hno

end SimpleCdn.Rotation
