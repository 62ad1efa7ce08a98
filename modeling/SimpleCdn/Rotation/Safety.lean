import SimpleCdn.Rotation.Ownership

/-!
# Locked-out edges

An edge is locked out when it holds a certificate that was issued to it and the control plane
accepts another one.  `SetNodeCertificate` switches the accepted fingerprint before the edge has
the new certificate, so a switch while the edge holds a certificate locks it out at once, until
the answer arrives.  `Switchless` excludes that and is exactly what keeps every state safe;
`Answered` excludes only the losses, and then an edge is never locked out longer than an answer
to it is on its way.
-/

namespace SimpleCdn.Rotation

open Transition

variable {s : State} {n : String} {c : Fingerprint}

/-- The edge of the node holds a client certificate issued to it. -/
def Holds (s : State) (n : String) (c : Fingerprint) : Prop :=
  (s.edges n).certificate = some c ∧ (n, c) ∈ s.issued

/-- Every edge of a node in service is accepted with the certificate it holds. -/
def Safe (s : State) : Prop :=
  ∀ n node c, s.store.nodes.find? n = some node → node.status.retired = false → Holds s n c →
    s.store.nodeIDByFingerprint c = .ok n

/-- What keeps a safe state safe: the accepted fingerprint is not switched while the edge holds a
certificate issued to it, an edge is not handed a certificate that has been superseded, and no
node comes back into service while its edge holds one. -/
def Switchless (s : State) : Action → Prop
  | .handle i fingerprint now => ∀ handler db, s.handlers[i]? = some handler →
    mayRenew s handler = true → fingerprint ∉ s.signed.map Prod.snd →
    s.store.setNodeCertificate handler.nodeID fingerprint now = .ok db →
      ∀ c, ¬ Holds s handler.nodeID c
  | .deliver i | .caWriteFails i => ∀ response node, s.responses[i]? = some response →
    (s.edges response.edge).waiting = some response.exchange →
    s.store.nodes.find? response.edge = some node → node.status.retired = false →
    (response.edge, response.certificate) ∈ s.issued →
      node.certFingerprint = some response.certificate
  | .node op now => ∀ db n node node' c, op.apply s.store now = .ok db →
    s.store.nodes.find? n = some node → node.status.retired = true →
    db.nodes.find? n = some node' → node'.status.retired = false →
    node'.certFingerprint.isSome = true → Holds s n c → node.certFingerprint = some c
  | _ => True

/-! ### One step -/

/-- `Safe`, with what accepting means. -/
def Accepted (s : State) : Prop :=
  ∀ n node c, s.store.nodes.find? n = some node → node.status.retired = false → Holds s n c →
    node.certFingerprint = some c

theorem Owned.safe_iff (h : Owned s) : Safe s ↔ Accepted s := by
  refine forall_congr' fun n => forall_congr' fun node => forall_congr' fun c => ?_
  refine forall_congr' fun hnode => forall_congr' fun hlive => forall_congr' fun _ => ?_
  rw [h.accepts_iff]
  constructor
  · rintro ⟨node', hnode', hc, -⟩
    rw [hnode] at hnode'
    cases hnode'
    exact hc
  · intro hc
    exact ⟨node, hnode, hc, hlive⟩

/-- Steps that keep the rows, the certificates held and those issued keep safety. -/
theorem Accepted.congr {s' : State} (h : Accepted s)
    (hnodes : s'.store.nodes = s.store.nodes)
    (hedges : ∀ n c, (s'.edges n).certificate = some c → (s.edges n).certificate = some c)
    (hissued : s'.issued = s.issued) : Accepted s' := by
  intro n node c hnode hlive hholds
  rw [hnodes] at hnode
  refine h n node c hnode hlive ⟨hedges n c hholds.1, ?_⟩
  rw [← hissued]
  exact hholds.2

/-- Waiting or not does not change what an edge holds. -/
theorem setEdge_certificate {edge : String} {f : Edge → Edge}
    (hf : ∀ c, (f (s.edges edge)).certificate = some c → (s.edges edge).certificate = some c) :
    ∀ n c, ((s.setEdge edge f).edges n).certificate = some c →
      (s.edges n).certificate = some c := by
  intro n c hc
  rw [State.setEdge_edges] at hc
  split at hc
  · next hn =>
    rw [hn]
    exact hf c hc
  · exact hc

theorem accepted_node {op : NodeOp} {now : Time} (h : Accepted s) :
    Switchless s (.node op now) ↔ Accepted (step s (.node op now)) := by
  simp only [step]
  split
  · next db hop =>
    constructor
    · intro hguard n node' c hnode' hlive' hholds
      obtain ⟨hissued, row, hrow, hsome⟩ := mem_stillIssued.mp hholds.2
      rw [hnode'] at hrow
      cases hrow
      obtain ⟨d, hd⟩ := Option.isSome_iff_exists.mp hsome
      obtain ⟨node, hnode, hd'⟩ := NodeOp.keeps hop n node' d hnode' hd
      have hold : Holds s n c := ⟨hholds.1, hissued⟩
      cases hstatus : node.status.retired with
      | false => rw [hd, ← hd', h n node c hnode hstatus hold]
      | true =>
        rw [hd, ← hd', hguard db n node node' c hop hnode hstatus hnode' hlive' hsome hold]
    · intro hnext db' n node node' c hop' hnode hretired hnode' hlive' hsome hholds
      rw [hop] at hop'
      cases hop'
      have hstill := mem_stillIssued.mpr ⟨hholds.2, node', hnode', hsome⟩
      have hc := hnext n node' c hnode' hlive' ⟨hholds.1, hstill⟩
      obtain ⟨node₀, hnode₀, hc₀⟩ := NodeOp.keeps hop n node' c hnode' hc
      rw [hnode] at hnode₀
      cases hnode₀
      exact hc₀
  · next error hop =>
    constructor
    · exact fun _ => h
    · intro _ db n node node' c hop'
      rw [hop] at hop'
      cases hop'

/-- Signing without a switch leaves the rows alone. -/
theorem accepted_sign_error {handler : Handler} {fingerprint : Fingerprint} {now : Time}
    (h : Accepted s)
    (hno : ∀ db, mayRenew s handler = true → fingerprint ∉ s.signed.map Prod.snd →
      s.store.setNodeCertificate handler.nodeID fingerprint now ≠ .ok db) :
    Accepted (s.sign handler fingerprint now) := by
  unfold State.sign
  split
  · next hcheck =>
    simp only [Bool.and_eq_true, Bool.not_eq_true', List.contains_eq_mem,
      decide_eq_false_iff_not] at hcheck
    dsimp only
    split
    · next db hset => exact absurd hset (hno db hcheck.1 hcheck.2)
    · exact h.congr rfl (fun _ _ hc => hc) rfl
  · exact h

/-- The state after a switch. -/
theorem sign_eq {handler : Handler} {fingerprint : Fingerprint} {now : Time} {db : Store}
    (hrenew : mayRenew s handler = true) (hfresh : fingerprint ∉ s.signed.map Prod.snd)
    (hset : s.store.setNodeCertificate handler.nodeID fingerprint now = .ok db) :
    s.sign handler fingerprint now = { s with
      store := db
      signed := (handler.nodeID, fingerprint) :: s.signed
      issued := (handler.nodeID, fingerprint) :: s.issued
      responses := ⟨handler.exchange, handler.edge, fingerprint⟩ :: s.responses } := by
  have hcontains : (s.signed.map Prod.snd).contains fingerprint = false := by
    simpa using hfresh
  simp only [State.sign, hrenew, hcontains, Bool.not_false, Bool.and_self, if_true, hset]

/-- A switch is safe exactly when the edge of the node holds no certificate issued to it. -/
theorem accepted_switch {handler : Handler} {fingerprint : Fingerprint} {now : Time} {db : Store}
    (howned : Owned s) (h : Accepted s) (hrenew : mayRenew s handler = true)
    (hfresh : fingerprint ∉ s.signed.map Prod.snd)
    (hset : s.store.setNodeCertificate handler.nodeID fingerprint now = .ok db) :
    (∀ c, ¬ Holds s handler.nodeID c) ↔ Accepted (s.sign handler fingerprint now) := by
  rw [sign_eq hrenew hfresh hset]
  obtain ⟨row, hrow, hlive, hfind⟩ := setNodeCertificate_eq_ok hset
  have hheld : ∀ n c, (s.edges n).certificate = some c → c ≠ fingerprint := by
    rintro n c hc rfl
    exact hfresh (List.mem_map.mpr ⟨(n, c), howned.edges n c hc, rfl⟩)
  constructor
  · intro hnone n node' c hnode' hlive' hholds
    have hissued : (n, c) ∈ s.issued := by
      rcases List.mem_cons.mp hholds.2 with heq | hmem
      · cases heq
        exact absurd rfl (hheld _ _ hholds.1)
      · exact hmem
    simp only [hfind] at hnode'
    obtain ⟨node, hnode, rfl⟩ := Option.map_eq_some_iff.mp hnode'
    have hkey : node.id = n := Table.key_of_find? hnode
    by_cases hn : n = handler.nodeID
    · subst hn
      exact absurd ⟨hholds.1, hissued⟩ (hnone c)
    · rw [if_neg (by rw [hkey]; exact hn)] at hlive' ⊢
      exact h n node c hnode hlive' ⟨hholds.1, hissued⟩
  · intro hnext c hholds
    have hkey : row.id = handler.nodeID := Table.key_of_find? hrow
    have hrow' : db.nodes.find? handler.nodeID =
        some { row with certFingerprint := some fingerprint, updatedAt := now } := by
      rw [hfind, hrow, Option.map_some, if_pos hkey]
    have hc := hnext handler.nodeID _ c hrow' hlive
      ⟨hholds.1, List.mem_cons_of_mem _ hholds.2⟩
    exact absurd (Option.some.inj hc).symm (hheld _ _ hholds.1)

theorem accepted_handle {i : Nat} {fingerprint : Fingerprint} {now : Time} (howned : Owned s)
    (h : Accepted s) :
    Switchless s (.handle i fingerprint now) ↔ Accepted (step s (.handle i fingerprint now)) := by
  simp only [step]
  cases hhandler : s.handlers[i]? with
  | none =>
    simp only [Switchless, hhandler, reduceCtorEq, false_implies, implies_true, true_iff]
    exact h
  | some handler =>
    have howned' : Owned { s with handlers := s.handlers.eraseIdx i } :=
      howned.messages rfl rfl rfl howned.edges (fun _ hmem => .inl hmem)
        (fun _ hmem => .inl (List.eraseIdx_subset hmem)) (List.Subset.refl _)
    have h' : Accepted { s with handlers := s.handlers.eraseIdx i } :=
      h.congr rfl (fun _ _ hc => hc) rfl
    by_cases hswitch : ∃ db, mayRenew s handler = true ∧ fingerprint ∉ s.signed.map Prod.snd ∧
        s.store.setNodeCertificate handler.nodeID fingerprint now = .ok db
    · obtain ⟨db, hrenew, hfresh, hset⟩ := hswitch
      refine Iff.trans ?_ (accepted_switch howned' h' hrenew hfresh hset)
      constructor
      · intro hguard
        exact hguard handler db hhandler hrenew hfresh hset
      · intro hnone handler' db' hhandler' _ _ _
        rw [hhandler] at hhandler'
        cases hhandler'
        exact hnone
    · have hno : ∀ db, mayRenew s handler = true → fingerprint ∉ s.signed.map Prod.snd →
          s.store.setNodeCertificate handler.nodeID fingerprint now ≠ .ok db :=
        fun db hrenew hfresh hset => hswitch ⟨db, hrenew, hfresh, hset⟩
      constructor
      · exact fun _ => accepted_sign_error h' hno
      · intro _ handler' db hhandler' hrenew hfresh hset
        rw [hhandler] at hhandler'
        cases hhandler'
        exact absurd hset (hno db hrenew hfresh)

/-- The guard of an answer that brings a certificate. -/
def Current (s : State) (i : Nat) : Prop :=
  ∀ response node, s.responses[i]? = some response →
    (s.edges response.edge).waiting = some response.exchange →
    s.store.nodes.find? response.edge = some node → node.status.retired = false →
    (response.edge, response.certificate) ∈ s.issued →
      node.certFingerprint = some response.certificate

/-- An answer is safe exactly when what it brings is the accepted certificate. -/
theorem accepted_arrive {i : Nat} {response : Response} {write : Edge → Edge} (h : Accepted s)
    (hwrite : ∀ files, (write files).certificate = some response.certificate)
    (hresponse : s.responses[i]? = some response) :
    Current s i ↔ Accepted (s.arrive i response write) := by
  unfold State.arrive
  dsimp only
  split
  · next hwaiting =>
    constructor
    · intro hguard n node c hnode hlive hholds
      obtain ⟨hc, hissued⟩ := hholds
      rw [State.setEdge_edges] at hc
      split at hc
      · next hn =>
        subst hn
        have hc : (write (s.edges response.edge)).certificate = some c := hc
        rw [hwrite] at hc
        cases hc
        exact hguard response node hresponse hwaiting hnode hlive hissued
      · exact h n node c hnode hlive ⟨hc, hissued⟩
    · intro hnext response' node hresponse' _ hnode hlive hissued
      rw [hresponse] at hresponse'
      cases hresponse'
      refine hnext response.edge node response.certificate hnode hlive ⟨?_, hissued⟩
      rw [State.setEdge_edges, if_pos rfl]
      exact hwrite _
  · next hwaiting =>
    constructor
    · exact fun _ => h.congr rfl (fun _ _ hc => hc) rfl
    · intro _ response' node hresponse' hwaiting'
      rw [hresponse] at hresponse'
      cases hresponse'
      exact absurd hwaiting' hwaiting

theorem accepted_deliver {i : Nat} {response : Response → Edge → Edge} (h : Accepted s)
    (hwrite : ∀ r files, (response r files).certificate = some r.certificate) :
    Current s i ↔ Accepted (match s.responses[i]? with
      | some r => s.arrive i r (response r)
      | none => s) := by
  cases hresponse : s.responses[i]? with
  | some r => exact accepted_arrive h (hwrite r) hresponse
  | none =>
    simp only [Current, hresponse, reduceCtorEq, false_implies, implies_true, true_iff]
    exact h

/-- A step that meets the condition, and no other, keeps a safe state safe. -/
theorem safe_step_iff (s : State) (a : Action) (howned : Owned s) (h : Safe s) :
    Switchless s a ↔ Safe (step s a) := by
  rw [(owned_step s a howned).safe_iff]
  have h := howned.safe_iff.mp h
  cases a with
  | node op now => exact accepted_node h
  | handle i fingerprint now => exact accepted_handle howned h
  | deliver i => exact accepted_deliver h fun _ _ => rfl
  | caWriteFails i => exact accepted_deliver h fun _ _ => rfl
  | sendEnroll edge token =>
    refine iff_of_true trivial ?_
    simp only [step]
    split
    · exact h.congr rfl (setEdge_certificate fun _ hc => hc) rfl
    · exact h
  | sendRenew edge =>
    refine iff_of_true trivial ?_
    simp only [step]
    split
    · split
      · exact h.congr rfl (setEdge_certificate fun _ hc => hc) rfl
      · exact h
    · exact h
  | receive i now =>
    refine iff_of_true trivial ?_
    simp only [step]
    split
    · split
      · next hauthenticate =>
        split
        · exact h.congr (authenticate_nodes hauthenticate) (fun _ _ hc => hc) rfl
        · exact h.congr rfl (fun _ _ hc => hc) rfl
      · exact h.congr rfl (fun _ _ hc => hc) rfl
    · exact h
  | certificateWriteFails i =>
    refine iff_of_true trivial ?_
    simp only [step]
    split
    · unfold State.arrive
      dsimp only
      split
      · exact h.congr rfl (setEdge_certificate fun _ hc => hc) rfl
      · exact h.congr rfl (fun _ _ hc => hc) rfl
    · exact h
  | loseRequest i => exact iff_of_true trivial (h.congr rfl (fun _ _ hc => hc) rfl)
  | loseResponse i => exact iff_of_true trivial (h.congr rfl (fun _ _ hc => hc) rfl)
  | giveUp edge =>
    refine iff_of_true trivial ?_
    simp only [step]
    exact h.congr rfl (setEdge_certificate fun _ hc => hc) rfl
  | reinstall edge =>
    refine iff_of_true trivial ?_
    simp only [step]
    refine h.congr rfl (setEdge_certificate fun _ hc => ?_) rfl
    cases hc
  | controlRestart => exact iff_of_true trivial (h.congr rfl (fun _ _ hc => hc) rfl)

theorem safe_initial : Safe initial := by
  intro n node c h
  cases h

/-- In a run of any length no edge is ever locked out exactly when no step switches the accepted
certificate of an edge that holds one. -/
theorem rotation_safe_iff (as : List Action) :
    Along step Switchless initial as ↔ Always step Safe initial as :=
  along_iff_always owned_step safe_step_iff owned_initial safe_initial as

/-! ### Runs without losses -/

/-- The edge waits for this answer. -/
def Awaited (s : State) (response : Response) : Prop :=
  (s.edges response.edge).waiting = some response.exchange

/-- An edge whose certificate is no longer accepted waits for the answer that brings the accepted
one. -/
def Settled (s : State) : Prop :=
  ∀ n node c, s.store.nodes.find? n = some node → Holds s n c →
    node.certFingerprint = some c ∨
      ∃ response ∈ s.responses, response.edge = n ∧ Awaited s response ∧
        node.certFingerprint = some response.certificate

/-- An answer the edge waits for brings the accepted certificate. -/
def BringsAccepted (s : State) (i : Nat) : Prop :=
  ∀ response node, s.responses[i]? = some response → Awaited s response →
    s.store.nodes.find? response.edge = some node →
    (response.edge, response.certificate) ∈ s.issued →
      node.certFingerprint = some response.certificate

/-- No answer is lost: a switch is made for an edge that still waits, and an answer that is waited
for arrives and is written. -/
def Answered (s : State) : Action → Prop
  | .handle i fingerprint now => ∀ handler db, s.handlers[i]? = some handler →
    mayRenew s handler = true → fingerprint ∉ s.signed.map Prod.snd →
    s.store.setNodeCertificate handler.nodeID fingerprint now = .ok db →
      (s.edges handler.edge).waiting = some handler.exchange
  | .deliver i | .caWriteFails i => BringsAccepted s i
  | .certificateWriteFails i | .loseResponse i => ∀ response, s.responses[i]? = some response →
    ¬ Awaited s response
  | .giveUp edge => ∀ response ∈ s.responses, response.edge = edge → ¬ Awaited s response
  | _ => True

/-- Steps that keep the rows, the answers on their way and who waits for them. -/
theorem Settled.congr {s' : State} (h : Settled s) (hnodes : s'.store.nodes = s.store.nodes)
    (hedges : ∀ n c, (s'.edges n).certificate = some c → (s.edges n).certificate = some c)
    (hissued : s'.issued = s.issued)
    (hresponses : ∀ response ∈ s.responses, Awaited s response →
      response ∈ s'.responses ∧ Awaited s' response) : Settled s' := by
  intro n node c hnode hholds
  rw [hnodes] at hnode
  have hold : Holds s n c := ⟨hedges n c hholds.1, by rw [← hissued]; exact hholds.2⟩
  rcases h n node c hnode hold with hc | ⟨response, hmem, hedge, hawaited, hc⟩
  · exact .inl hc
  · obtain ⟨hmem', hawaited'⟩ := hresponses response hmem hawaited
    exact .inr ⟨response, hmem', hedge, hawaited', hc⟩

theorem mem_eraseIdx_of_ne {i : Nat} {response other : Response}
    (hresponse : s.responses[i]? = some response) (hmem : other ∈ s.responses)
    (hne : other ≠ response) : other ∈ s.responses.eraseIdx i := by
  obtain ⟨j, hj⟩ := List.getElem?_of_mem hmem
  have hij : j ≠ i := by
    rintro rfl
    rw [hresponse] at hj
    cases hj
    exact hne rfl
  exact List.mem_eraseIdx_iff_getElem?.mpr ⟨j, hij, hj⟩

theorem settled_switch {handler : Handler} {fingerprint : Fingerprint} {now : Time} {db : Store}
    (h : Settled s) (hhandler : handler.nodeID = handler.edge)
    (hwaiting : (s.edges handler.edge).waiting = some handler.exchange)
    (hrenew : mayRenew s handler = true) (hfresh : fingerprint ∉ s.signed.map Prod.snd)
    (hset : s.store.setNodeCertificate handler.nodeID fingerprint now = .ok db) :
    Settled (s.sign handler fingerprint now) := by
  rw [sign_eq hrenew hfresh hset]
  obtain ⟨row, hrow, -, hfind⟩ := setNodeCertificate_eq_ok hset
  intro n node' c hnode' hholds
  simp only [hfind] at hnode'
  obtain ⟨node, hnode, rfl⟩ := Option.map_eq_some_iff.mp hnode'
  have hkey : node.id = n := Table.key_of_find? hnode
  by_cases hn : n = handler.nodeID
  · -- the answer that was just sent brings the new certificate
    rw [if_pos (hkey.trans hn)]
    refine .inr ⟨_, List.mem_cons_self, ?_, hwaiting, rfl⟩
    rw [hn, hhandler]
  · rw [if_neg (by rw [hkey]; exact hn)]
    have hissued : (n, c) ∈ s.issued := by
      rcases List.mem_cons.mp hholds.2 with heq | hmem
      · cases heq
        exact absurd rfl hn
      · exact hmem
    rcases h n node c hnode ⟨hholds.1, hissued⟩ with hc | ⟨response, hmem, hedge, hawaited, hc⟩
    · exact .inl hc
    · exact .inr ⟨response, List.mem_cons_of_mem _ hmem, hedge, hawaited, hc⟩

theorem settled_sign {handler : Handler} {fingerprint : Fingerprint} {now : Time}
    (h : Settled s) (hhandler : handler.nodeID = handler.edge)
    (hguard : ∀ db, mayRenew s handler = true → fingerprint ∉ s.signed.map Prod.snd →
      s.store.setNodeCertificate handler.nodeID fingerprint now = .ok db →
        (s.edges handler.edge).waiting = some handler.exchange) :
    Settled (s.sign handler fingerprint now) := by
  by_cases hcheck : mayRenew s handler = true ∧ fingerprint ∉ s.signed.map Prod.snd
  · cases hset : s.store.setNodeCertificate handler.nodeID fingerprint now with
    | ok db =>
      exact settled_switch h hhandler (hguard db hcheck.1 hcheck.2 hset) hcheck.1 hcheck.2 hset
    | error error =>
      unfold State.sign
      simp only [hset]
      split
      · exact h.congr rfl (fun _ _ hc => hc) rfl fun _ hmem hawaited => ⟨hmem, hawaited⟩
      · exact h
  · have hno : (mayRenew s handler && !(s.signed.map Prod.snd).contains fingerprint) = false := by
      simp only [Bool.and_eq_false_iff, Bool.not_eq_false', List.contains_eq_mem,
        decide_eq_true_eq]
      by_cases hrenew : mayRenew s handler = true
      · exact .inr (by_contra fun hfresh => hcheck ⟨hrenew, hfresh⟩)
      · exact .inl (by simpa using hrenew)
    unfold State.sign
    rw [if_neg (by rw [hno]; exact Bool.false_ne_true)]
    exact h

theorem settled_arrive {i : Nat} {response : Response} {write : Edge → Edge} (h : Settled s)
    (hwrite : ∀ files, (write files).certificate = some response.certificate)
    (hresponse : s.responses[i]? = some response) (hguard : BringsAccepted s i) :
    Settled (s.arrive i response write) := by
  unfold State.arrive
  dsimp only
  split
  · next hwaiting =>
    intro n node c hnode hholds
    obtain ⟨hc, hissued⟩ := hholds
    rw [State.setEdge_edges] at hc
    split at hc
    · next hn =>
      subst hn
      have hc : (write (s.edges response.edge)).certificate = some c := hc
      rw [hwrite] at hc
      cases hc
      exact .inl (hguard response node hresponse hwaiting hnode hissued)
    · next hn =>
      rcases h n node c hnode ⟨hc, hissued⟩ with hold | ⟨other, hmem, hedge, hawaited, hc'⟩
      · exact .inl hold
      · refine .inr ⟨other, mem_eraseIdx_of_ne hresponse hmem ?_, hedge, ?_, hc'⟩
        · rintro rfl
          exact hn hedge.symm
        · show ((State.setEdge _ _ _).edges other.edge).waiting = _
          rw [State.setEdge_edges, if_neg (by rw [hedge]; exact hn)]
          exact hawaited
  · next hwaiting =>
    refine h.congr rfl (fun _ _ hc => hc) rfl fun other hmem hawaited => ?_
    refine ⟨mem_eraseIdx_of_ne hresponse hmem ?_, hawaited⟩
    rintro rfl
    exact hwaiting hawaited

theorem settled_deliver {i : Nat} {write : Response → Edge → Edge} (h : Settled s)
    (hwrite : ∀ r files, (write r files).certificate = some r.certificate)
    (hguard : BringsAccepted s i) :
    Settled (match s.responses[i]? with
      | some r => s.arrive i r (write r)
      | none => s) := by
  cases hresponse : s.responses[i]? with
  | some r => exact settled_arrive h (hwrite r) hresponse hguard
  | none => exact h

/-- Dropping an answer nobody waits for. -/
theorem settled_erase {i : Nat} (h : Settled s)
    (hguard : ∀ response, s.responses[i]? = some response → ¬ Awaited s response) :
    Settled { s with responses := s.responses.eraseIdx i } := by
  refine h.congr rfl (fun _ _ hc => hc) rfl fun other hmem hawaited => ⟨?_, hawaited⟩
  cases hresponse : s.responses[i]? with
  | none =>
    have hle := List.getElem?_eq_none_iff.mp hresponse
    simpa [List.eraseIdx_of_length_le hle] using hmem
  | some response =>
    refine mem_eraseIdx_of_ne hresponse hmem ?_
    rintro rfl
    exact hguard other hresponse hawaited

/-- An edge that waits for nothing sends a request. -/
theorem settled_send {edge : String} {credential : Credential} (h : Settled s)
    (hidle : (s.edges edge).waiting.isNone = true) : Settled (s.send edge credential) := by
  refine h.congr rfl (setEdge_certificate fun _ hc => hc) rfl fun other hmem hawaited => ?_
  refine ⟨hmem, ?_⟩
  have hne : other.edge ≠ edge := by
    rintro rfl
    rw [hawaited] at hidle
    cases hidle
  show ((State.setEdge _ _ _).edges other.edge).waiting = _
  rw [State.setEdge_edges, if_neg hne]
  exact hawaited

theorem settled_step (s : State) (a : Action) (h : Owned s ∧ Settled s) (hguard : Answered s a) :
    Owned (step s a) ∧ Settled (step s a) := by
  obtain ⟨howned, h⟩ := h
  refine ⟨owned_step s a howned, ?_⟩
  cases a with
  | node op now =>
    simp only [step]
    split
    · next db hop =>
      intro n node' c hnode' hholds
      obtain ⟨hissued, row, hrow, hsome⟩ := mem_stillIssued.mp hholds.2
      rw [hnode'] at hrow
      cases hrow
      obtain ⟨d, hd⟩ := Option.isSome_iff_exists.mp hsome
      obtain ⟨node, hnode, hd'⟩ := NodeOp.keeps hop n node' d hnode' hd
      rw [hd, ← hd']
      exact h n node c hnode ⟨hholds.1, hissued⟩
    · exact h
  | handle i fingerprint now =>
    simp only [step]
    split
    · next handler hhandler =>
      have h' : Settled { s with handlers := s.handlers.eraseIdx i } :=
        h.congr rfl (fun _ _ hc => hc) rfl fun _ hmem hawaited => ⟨hmem, hawaited⟩
      refine settled_sign h' (howned.handlers handler (List.mem_of_getElem? hhandler)) ?_
      exact fun db hrenew hfresh hset => hguard handler db hhandler hrenew hfresh hset
    · exact h
  | deliver i => exact settled_deliver h (fun _ _ => rfl) hguard
  | caWriteFails i => exact settled_deliver h (fun _ _ => rfl) hguard
  | certificateWriteFails i =>
    simp only [step]
    split
    · next response hresponse =>
      unfold State.arrive
      dsimp only
      split
      · next hwaiting => exact absurd hwaiting (hguard response hresponse)
      · exact settled_erase h hguard
    · exact h
  | loseResponse i => exact settled_erase h hguard
  | sendEnroll edge token =>
    simp only [step]
    split
    · next hidle =>
      simp only [Bool.and_eq_true] at hidle
      exact settled_send h hidle.1
    · exact h
  | sendRenew edge =>
    simp only [step]
    split
    · split
      · next hidle =>
        simp only [Bool.and_eq_true] at hidle
        exact settled_send h hidle.1
      · exact h
    · exact h
  | receive i now =>
    simp only [step]
    split
    · split
      · next hauthenticate =>
        split
        · exact h.congr (authenticate_nodes hauthenticate) (fun _ _ hc => hc) rfl
            fun _ hmem hawaited => ⟨hmem, hawaited⟩
        · exact h.congr rfl (fun _ _ hc => hc) rfl fun _ hmem hawaited => ⟨hmem, hawaited⟩
      · exact h.congr rfl (fun _ _ hc => hc) rfl fun _ hmem hawaited => ⟨hmem, hawaited⟩
    · exact h
  | loseRequest i =>
    exact h.congr rfl (fun _ _ hc => hc) rfl fun _ hmem hawaited => ⟨hmem, hawaited⟩
  | giveUp edge =>
    simp only [step]
    refine h.congr rfl (setEdge_certificate fun _ hc => hc) rfl fun other hmem hawaited => ?_
    refine ⟨hmem, ?_⟩
    have hne : other.edge ≠ edge := fun hedge => hguard other hmem hedge hawaited
    show ((State.setEdge _ _ _).edges other.edge).waiting = _
    rw [State.setEdge_edges, if_neg hne]
    exact hawaited
  | reinstall edge =>
    simp only [step]
    intro n node c hnode hholds
    obtain ⟨hc, hissued⟩ := hholds
    rw [State.setEdge_edges] at hc
    split at hc
    · cases hc
    · next hn =>
      rcases h n node c hnode ⟨hc, hissued⟩ with hold | ⟨other, hmem, hedge, hawaited, hc'⟩
      · exact .inl hold
      · refine .inr ⟨other, hmem, hedge, ?_, hc'⟩
        show ((State.setEdge _ _ _).edges other.edge).waiting = _
        rw [State.setEdge_edges, if_neg (by rw [hedge]; exact hn)]
        exact hawaited
  | controlRestart =>
    exact h.congr rfl (fun _ _ hc => hc) rfl fun _ hmem hawaited => ⟨hmem, hawaited⟩

theorem settled_initial : Settled initial := by
  intro n node c h
  cases h

/-- In a run of any length without losses, an edge that is not accepted waits for the answer that
brings the accepted certificate. -/
theorem answered_settled {as : List Action} (h : Along step Answered initial as) :
    Always step Settled initial as :=
  (h.always settled_step ⟨owned_initial, settled_initial⟩).mono fun _ h => h.2

/-! ### A lost answer -/

/-- A node enrolls, then renews: the answer to the renewal is lost. -/
def lostRenewal : List Action :=
  [.node (.createNode "n" "n" "192.0.2.1") 1, .node (.createEnrollmentToken "n" "token" 100) 2,
    .sendEnroll "n" "token", .receive 0 3, .handle 0 "first" 4, .deliver 0,
    .node (.heartbeat "n" 0 "" none "" "" "") 5,
    .sendRenew "n", .receive 0 6, .handle 0 "second" 7, .loseResponse 0, .giveUp "n"]

/-- The node is active, its edge waits for nothing and holds the certificate it was issued, and the
control plane does not know it. -/
theorem lostRenewal_locked_out : ¬ Always step Safe initial lostRenewal := by
  intro h
  have hsafe := h.last
  have hstatus : ((run step initial lostRenewal).store.nodes.find? "n").map Node.status =
      some .active := by decide
  obtain ⟨node, hnode, hactive⟩ := Option.map_eq_some_iff.mp hstatus
  have hlive : node.status.retired = false := by rw [hactive]; rfl
  have hholds : Holds (run step initial lostRenewal) "n" "first" := by
    refine ⟨by decide, by decide⟩
  have haccepted := hsafe "n" node "first" hnode hlive hholds
  have hrefused : (run step initial lostRenewal).store.nodeIDByFingerprint "first" =
      .error .notFound := by decide
  rw [hrefused] at haccepted
  cases haccepted

end SimpleCdn.Rotation
