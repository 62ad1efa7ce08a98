import SimpleCdn.Lifecycle.Steps

/-!
# The uninstall lifecycle

In every state of every run the workflow and the status of a node agree: a workflow runs exactly
while its node is uninstalling, and it is over only for a node that is uninstalled, which stays
uninstalled until its row is deleted.  A node that has been revoked or uninstalled keeps neither
its fingerprint nor an unused token, and nothing it was given before lets it back in, whatever
happens afterwards: only a secret drawn later does.
-/

namespace SimpleCdn.Lifecycle

open Store Transition

/-- The invariant of the system: cards are closed, and every secret on one has been drawn. -/
structure Inv (s : State) : Prop where
  owned : Owned s.db.toStore
  closed : ∀ n, AllClosed (card s.db.toStore n)
  fingerprints : ∀ n c fingerprint, card s.db.toStore n = some c →
    c.fingerprint = some fingerprint → fingerprint ∈ s.fingerprints
  tokens : ∀ n c token, card s.db.toStore n = some c → token ∈ c.openTokens → token ∈ s.tokens

section

variable {s : State} {a : Action} {n : String}

/-! ### Drawing secrets -/

theorem step_tokens (s : State) (a : Action) :
    (step s a).tokens = drawnTokens s a ++ s.tokens := by
  cases a with
  | node op now =>
    simp only [step, drawnTokens]
    split
    · rfl
    · unfold State.nodeOp
      cases s.db.applyNodeOp now op with
      | ok db => rfl
      | error e => rfl
  | monitoringTarget op now =>
    simp only [step, State.onDatabase]
    cases op.apply s.db now with
    | ok db => rfl
    | error e => rfl
  | startUpgrade nodeID id targetSHA256 deadline now =>
    simp only [step, State.onDatabase]
    split
    · rfl
    · rfl
  | reconcileNodeUpgrades now => rfl
  | enroll token fingerprint now =>
    simp only [step]
    split
    · rfl
    · rfl
  | request fingerprint call =>
    simp only [step]
    split
    · rfl
    · rfl
  | statement i now =>
    simp only [step]
    split
    · split
      · rfl
      · unfold State.execute
        split
        · rfl
        · rfl
    · rfl

theorem step_fingerprints (s : State) (a : Action) :
    (step s a).fingerprints = drawnFingerprints s a ++ s.fingerprints := by
  cases a with
  | node op now =>
    simp only [step]
    split
    · rfl
    · unfold State.nodeOp
      cases s.db.applyNodeOp now op with
      | ok db => rfl
      | error e => rfl
  | monitoringTarget op now =>
    simp only [step, State.onDatabase]
    cases op.apply s.db now with
    | ok db => rfl
    | error e => rfl
  | startUpgrade nodeID id targetSHA256 deadline now =>
    simp only [step, State.onDatabase]
    split
    · rfl
    · rfl
  | reconcileNodeUpgrades now => rfl
  | enroll token fingerprint now =>
    simp only [step]
    split
    · rfl
    · rfl
  | request fingerprint call =>
    simp only [step]
    split
    · rfl
    · rfl
  | statement i now =>
    simp only [step, drawnFingerprints]
    cases s.next i with
    | none => rfl
    | some entry =>
      obtain ⟨request, statement, rest⟩ := entry
      dsimp only
      split
      · rfl
      · unfold State.execute
        split
        · rfl
        · rfl

theorem drawnTokens_new {token : String} (h : token ∈ drawnTokens s a) : token ∉ s.tokens := by
  cases a with
  | node op now =>
    simp only [drawnTokens] at h
    split at h
    · cases h
    · next hguard =>
      simp only [Bool.or_eq_true, not_or, List.any_eq_true, List.contains_iff_mem, not_exists,
        not_and] at hguard
      exact hguard.2 token h
  | _ => cases h

theorem drawnFingerprints_new {fingerprint : String} (h : fingerprint ∈ drawnFingerprints s a) :
    fingerprint ∉ s.fingerprints := by
  cases a with
  | statement i now =>
    simp only [drawnFingerprints] at h
    split at h
    · split at h
      · cases h
      · next hguard =>
        simp only [List.any_eq_true, List.contains_iff_mem, not_exists, not_and] at hguard
        exact hguard fingerprint h
    · cases h
  | _ => cases h

/-! ### The invariant -/

theorem Card.Step.secrets {Γ : Setting} {c c' : Card} (h : c.Step Γ c') :
    (∀ fingerprint, c'.fingerprint = some fingerprint →
      c.fingerprint = some fingerprint ∨ fingerprint ∈ Γ.fingerprints) ∧
    ∀ token ∈ c'.openTokens, token ∈ c.openTokens ∨ token ∈ Γ.tokens := by
  cases h with
  | certify fingerprint hlive hfree hnew =>
    refine ⟨fun other hother => .inr ?_, fun token htoken => .inl htoken⟩
    obtain rfl := Option.some.inj hother
    exact hnew
  | addToken token hlive hfree hnew =>
    refine ⟨fun other hother => .inl hother, fun other hother => ?_⟩
    rcases List.mem_append.mp hother with hother | hother
    · exact .inl hother
    · obtain rfl := List.mem_singleton.mp hother
      exact .inr hnew
  | useToken token =>
    exact ⟨fun other hother => .inl hother, fun other hother => .inl (List.mem_filter.mp hother).1⟩
  | revoke | finish => exact ⟨nofun, nofun⟩
  | heartbeat | setStatus | pause | resume | forgetPause | prepare | issue | start | fail
  | cancel | startUpgrade | endUpgrade =>
    exact ⟨fun other hother => .inl hother, fun other hother => .inl hother⟩

theorem Moves.secrets {Γ : Setting} {o o' : Option Card} (h : Moves Γ o o') {c' : Card}
    (hc' : o' = some c') :
    (∀ fingerprint, c'.fingerprint = some fingerprint →
      (∃ c, o = some c ∧ c.fingerprint = some fingerprint) ∨ fingerprint ∈ Γ.fingerprints) ∧
    ∀ token ∈ c'.openTokens, (∃ c, o = some c ∧ token ∈ c.openTokens) ∨ token ∈ Γ.tokens := by
  cases h with
  | keep =>
    exact ⟨fun fingerprint h => .inl ⟨c', hc', h⟩, fun token h => .inl ⟨c', hc', h⟩⟩
  | create =>
    obtain rfl := Option.some.inj hc'
    exact ⟨nofun, nofun⟩
  | delete => cases hc'
  | step hstep =>
    obtain rfl := Option.some.inj hc'
    obtain ⟨hfingerprint, htoken⟩ := hstep.secrets
    constructor
    · exact fun fingerprint h => (hfingerprint fingerprint h).imp (fun h => ⟨_, rfl, h⟩) id
    · exact fun token h => (htoken token h).imp (fun h => ⟨_, rfl, h⟩) id

theorem Inv.step (hs : Inv s) (a : Action) : Inv (step s a) := by
  have heffect := step_effect s a hs.owned
  refine ⟨heffect.owned, fun n => (heffect.moves n).closed (hs.closed n),
    fun n c' fingerprint hc' hfingerprint => ?_, fun n c' token hc' htoken => ?_⟩
  · rw [step_fingerprints]
    rcases ((heffect.moves n).secrets hc').1 fingerprint hfingerprint with ⟨c, hc, hold⟩ | hnew
    · exact List.mem_append_right _ (hs.fingerprints n c fingerprint hc hold)
    · exact List.mem_append_left _ hnew
  · rw [step_tokens]
    rcases ((heffect.moves n).secrets hc').2 token htoken with ⟨c, hc, hold⟩ | hnew
    · exact List.mem_append_right _ (hs.tokens n c token hc hold)
    · exact List.mem_append_left _ hnew

theorem card_initial (n : String) : card initial.db.toStore n = none :=
  card_eq_none rfl

theorem inv_initial : Inv initial where
  owned :=
    ⟨fun job hjob => absurd hjob (Table.not_mem_empty job),
      fun token htoken => absurd htoken (Table.not_mem_empty token),
      fun task htask => absurd htask (Table.not_mem_empty task),
      fun node hnode => absurd hnode (Table.not_mem_empty node)⟩
  closed := fun n c hc => by
    rw [card_initial] at hc
    cases hc
  fingerprints := fun n c _ hc => by
    rw [card_initial] at hc
    cases hc
  tokens := fun n c _ hc => by
    rw [card_initial] at hc
    cases hc

theorem inv_run (as : List Action) : Inv (run step initial as) :=
  run_invariant (fun _ a hs => hs.step a) inv_initial as

/-! ### What follows in every state -/

/-- A workflow runs exactly while its node is uninstalling. -/
theorem Inv.running_iff (hs : Inv s) (n : String) :
    (∃ job, s.db.nodeUninstallJobs.find? n = some job ∧ job.status = .running) ↔
      ∃ node, s.db.nodes.find? n = some node ∧ node.status = .uninstalling := by
  constructor
  · rintro ⟨job, hjob, hrunning⟩
    obtain ⟨node, hnode⟩ := hs.owned.node_of_job hjob
    refine ⟨node, hnode, (hs.closed n _ (card_of_find? hnode)).running.mpr ⟨job.previousStatus, ?_⟩⟩
    rw [cardOf, hjob, Option.map_some, hrunning]
  · rintro ⟨node, hnode, hstatus⟩
    obtain ⟨previous, hjob⟩ := (hs.closed n _ (card_of_find? hnode)).running.mp hstatus
    obtain ⟨job, hjob, heq⟩ := Option.map_eq_some_iff.mp hjob
    exact ⟨job, hjob, (Prod.mk.inj heq).1⟩

/-- A workflow is over only for a node that is uninstalled. -/
theorem Inv.ended (hs : Inv s) {job : NodeUninstallJob}
    (hjob : s.db.nodeUninstallJobs.find? n = some job)
    (hover : job.status = .succeeded ∨ job.status = .forced) :
    ∃ node, s.db.nodes.find? n = some node ∧ node.status = .uninstalled := by
  obtain ⟨node, hnode⟩ := hs.owned.node_of_job hjob
  refine ⟨node, hnode, (hs.closed n _ (card_of_find? hnode)).ended.mpr ⟨job.previousStatus, ?_⟩⟩
  rw [cardOf, hjob, Option.map_some]
  rcases hover with hover | hover
  · exact .inl (by rw [hover])
  · exact .inr (by rw [hover])

/-- The node has been shut out. -/
def ShutOut (node : Node) : Prop :=
  node.status = .revoked ∨ node.status = .uninstalled

theorem Inv.identity (hs : Inv s) {node : Node} (hnode : s.db.nodes.find? n = some node)
    (hout : ShutOut node) :
    node.certFingerprint = none ∧
      ∀ token ∈ s.db.enrollmentTokens, token.nodeID = n → token.usedAt ≠ none := by
  obtain ⟨hfingerprint, htokens⟩ := (hs.closed n _ (card_of_find? hnode)).identity hout
  refine ⟨hfingerprint, fun token htoken hid hunused => ?_⟩
  have hopen : token.tokenHash ∈ openTokens s.db.toStore n :=
    mem_openTokens.mpr ⟨token, htoken, hid, hunused, rfl⟩
  rw [show openTokens s.db.toStore n = [] from htokens] at hopen
  cases hopen

/-! ### What follows for the rest of the run -/

/-- Since some moment, none of the secrets drawn until then gives access to the node. -/
structure OutSince (fingerprints tokens : List String) (n : String) (s : State) : Prop where
  inv : Inv s
  drawn : fingerprints ⊆ s.fingerprints ∧ tokens ⊆ s.tokens
  withdrawn : ∀ c, card s.db.toStore n = some c → c.Withdrawn fingerprints tokens

theorem OutSince.step {fingerprints tokens : List String}
    (hs : OutSince fingerprints tokens n s) (a : Action) :
    OutSince fingerprints tokens n (step s a) := by
  refine ⟨hs.inv.step a, ⟨?_, ?_⟩, fun c' hc' => ?_⟩
  · rw [step_fingerprints]
    exact List.subset_append_of_subset_right _ hs.drawn.1
  · rw [step_tokens]
    exact List.subset_append_of_subset_right _ hs.drawn.2
  · have hmove := (step_effect s a hs.inv.owned).moves n
    rw [hc'] at hmove
    generalize hc : card s.db.toStore n = o at hmove
    cases hmove with
    | keep => exact hs.withdrawn c' hc
    | create => exact .of_none ⟨rfl, rfl⟩
    | step hstep =>
      refine (hs.withdrawn _ hc).step hstep (fun fingerprint hnew hmem => ?_)
        fun token hnew hmem => ?_
      · exact drawnFingerprints_new hnew (hs.drawn.1 hmem)
      · exact drawnTokens_new hnew (hs.drawn.2 hmem)

theorem OutSince.run {fingerprints tokens : List String} (hs : OutSince fingerprints tokens n s)
    (as : List Action) : OutSince fingerprints tokens n (run Lifecycle.step s as) :=
  run_invariant (fun _ a hs => hs.step a) hs as

theorem nodeIDByFingerprint_eq_ok {db : Store} {fingerprint : String}
    (h : db.nodeIDByFingerprint fingerprint = .ok n) :
    ∃ node, db.nodes.find? n = some node ∧ node.certFingerprint = some fingerprint ∧
      node.status.retired = false := by
  unfold nodeIDByFingerprint at h
  split at h
  · next node hfind =>
    obtain rfl := Except.ok.inj h
    have hp := List.find?_some hfind
    simp only [Bool.and_eq_true, decide_eq_true_eq, Bool.not_eq_true'] at hp
    exact ⟨node, Table.find?_of_mem (List.mem_of_find?_eq_some hfind), hp.1, hp.2⟩
  · cases h

/-- No fingerprint of the past authenticates the node. -/
theorem OutSince.not_authenticated {fingerprints tokens : List String}
    (hs : OutSince fingerprints tokens n s) {fingerprint : String}
    (hmem : fingerprint ∈ fingerprints) :
    s.db.toStore.nodeIDByFingerprint fingerprint ≠ .ok n := by
  intro hok
  obtain ⟨node, hnode, hfingerprint, -⟩ := nodeIDByFingerprint_eq_ok hok
  exact (hs.withdrawn _ (card_of_find? hnode)).1 fingerprint hfingerprint hmem

/-- No token of the past enrolls the node. -/
theorem OutSince.not_enrolled {fingerprints tokens : List String}
    (hs : OutSince fingerprints tokens n s) {token : String} (hmem : token ∈ tokens) (now : Time)
    (db' : Store) : s.db.toStore.consumeEnrollmentToken token now ≠ .ok (n, db') := by
  intro hok
  simp only [consumeEnrollmentToken, bind_eq_ok, require_eq_ok, orError_eq_ok, pure_eq_ok,
    exists_const, Prod.mk.injEq] at hok
  obtain ⟨row, hrow, node, hnode, ⟨-, -, hunused, -⟩, rfl, -⟩ := hok
  have hopen : token ∈ openTokens s.db.toStore row.nodeID :=
    mem_openTokens.mpr ⟨row, Table.mem_of_find? hrow, rfl, hunused, Table.key_of_find? hrow⟩
  exact (hs.withdrawn _ (card_of_find? hnode)).2 token hopen hmem

theorem Inv.outSince (hs : Inv s) {node : Node} (hnode : s.db.nodes.find? n = some node)
    (hout : ShutOut node) : OutSince s.fingerprints s.tokens n s := by
  refine ⟨hs, ⟨List.Subset.refl _, List.Subset.refl _⟩, fun c hc => .of_none ?_⟩
  obtain rfl := Option.some.inj ((card_of_find? hnode).symm.trans hc)
  exact (hs.closed n _ hc).identity hout

/-- Secrets that have been drawn stay drawn. -/
theorem secrets_run (s : State) (as : List Action) :
    s.fingerprints ⊆ (run step s as).fingerprints ∧ s.tokens ⊆ (run step s as).tokens := by
  induction as generalizing s with
  | nil => exact ⟨List.Subset.refl _, List.Subset.refl _⟩
  | cons a as ih =>
    obtain ⟨hfingerprints, htokens⟩ := ih (step s a)
    rw [step_fingerprints] at hfingerprints
    rw [step_tokens] at htokens
    exact ⟨fun _ hmem => hfingerprints (List.mem_append_right _ hmem),
      fun _ hmem => htokens (List.mem_append_right _ hmem)⟩

/-- The node has been created, and while it has a row it is uninstalled. -/
structure Uninstalled (n : String) (s : State) : Prop where
  inv : Inv s
  issued : n ∈ s.db.issuedIDs
  status : ∀ c, card s.db.toStore n = some c → c.status = .uninstalled

/-- An uninstalled node stays uninstalled, and the identifier of a deleted one is not given away
again. -/
theorem Uninstalled.step (hs : Uninstalled n s) (a : Action) : Uninstalled n (step s a) := by
  have heffect := step_effect s a hs.inv.owned
  refine ⟨hs.inv.step a, heffect.issued hs.issued, fun c' hc' => ?_⟩
  have hmove := heffect.moves n
  generalize hc : card s.db.toStore n = o at hmove
  cases o with
  | some c =>
    exact hmove.uninstalled (hs.inv.closed n c hc) (hs.status c hc) c' hc'
  | none =>
    rw [hc'] at hmove
    cases hmove with
    | create hfresh => exact absurd hs.issued hfresh

theorem Uninstalled.run (hs : Uninstalled n s) (as : List Action) :
    Uninstalled n (run Lifecycle.step s as) :=
  run_invariant (fun _ a hs => hs.step a) hs as

theorem Inv.uninstalled (hs : Inv s) {node : Node} (hnode : s.db.nodes.find? n = some node)
    (hstatus : node.status = .uninstalled) : Uninstalled n s := by
  refine ⟨hs, ?_, fun c hc => ?_⟩
  · have hid : node.id = n := Table.key_of_find? hnode
    rw [← hid]
    exact hs.owned.nodes node (Table.mem_of_find? hnode)
  · obtain rfl := Option.some.inj ((card_of_find? hnode).symm.trans hc)
    exact hstatus

/-! ### The lifecycle -/

/-- In every state of every run: workflows and statuses agree, an uninstalled node stays
uninstalled, and a node that has been shut out has no identity; no fingerprint and no token it had
in any earlier state of the run is accepted from it in any later one. -/
theorem lifecycle (as bs : List Action) (n : String) :
    ((∃ job, (run step initial as).db.nodeUninstallJobs.find? n = some job ∧
        job.status = .running) ↔
      ∃ node, (run step initial as).db.nodes.find? n = some node ∧
        node.status = .uninstalling) ∧
    (∀ job, (run step initial as).db.nodeUninstallJobs.find? n = some job →
      job.status = .succeeded ∨ job.status = .forced →
      ∃ node, (run step initial as).db.nodes.find? n = some node ∧
        node.status = .uninstalled) ∧
    ∀ node, (run step initial as).db.nodes.find? n = some node →
      (node.status = .uninstalled →
        ∀ node', (run step initial (as ++ bs)).db.nodes.find? n = some node' →
          node'.status = .uninstalled) ∧
      (ShutOut node →
        (node.certFingerprint = none ∧ ∀ token ∈ (run step initial as).db.enrollmentTokens,
          token.nodeID = n → token.usedAt ≠ none) ∧
        ∀ cs, cs <+: as →
          (∀ before fingerprint, (run step initial cs).db.nodes.find? n = some before →
            before.certFingerprint = some fingerprint →
            (run step initial (as ++ bs)).db.toStore.nodeIDByFingerprint fingerprint ≠ .ok n) ∧
          ∀ token ∈ (run step initial cs).db.enrollmentTokens,
            token.nodeID = n → token.usedAt = none → ∀ now db',
            (run step initial (as ++ bs)).db.toStore.consumeEnrollmentToken token.tokenHash now ≠
              .ok (n, db')) := by
  have hs := inv_run as
  refine ⟨hs.running_iff n, fun job hjob hover => hs.ended hjob hover, fun node hnode =>
    ⟨fun hstatus node' hnode' => ?_, fun hout => ⟨hs.identity hnode hout, fun cs hcs => ?_⟩⟩⟩
  · rw [run_append] at hnode'
    exact ((hs.uninstalled hnode hstatus).run bs).status _ (card_of_find? hnode')
  · obtain ⟨ds, rfl⟩ := hcs
    have hearlier := inv_run cs
    obtain ⟨hfingerprints, htokens⟩ := secrets_run (run step initial cs) ds
    rw [← run_append] at hfingerprints htokens
    have hlater := (hs.outSince hnode hout).run bs
    rw [← run_append] at hlater
    constructor
    · intro before fingerprint hbefore hfingerprint
      refine hlater.not_authenticated (hfingerprints ?_)
      exact hearlier.fingerprints n _ fingerprint (card_of_find? hbefore) hfingerprint
    · intro token htoken hid hunused now db'
      refine hlater.not_enrolled (htokens ?_) now db'
      obtain ⟨node, hmem, hnodeID⟩ := hearlier.owned.tokens token htoken
      have hnode : (run step initial cs).db.nodes.find? n = some node :=
        Table.find?_eq_some_iff.mpr ⟨hmem, hnodeID.trans hid⟩
      exact hearlier.tokens n _ _ (card_of_find? hnode)
        (mem_openTokens.mpr ⟨token, htoken, hid, hunused, rfl⟩)

end

/-- A node is created and enrolled. -/
def enrolled : List Action :=
  [.node (.createNode "node" "edge" "192.0.2.1") 1,
    .node (.createEnrollmentToken "node" "token" 100) 2, .enroll "token" "fingerprint" 3,
    .statement 0 4]

/-- After a revocation the certificate is not accepted, even when the node is active again. -/
theorem revoked_not_authenticated :
    (run step initial ((enrolled ++ [.node (.setNodeStatus "node" .revoked) 5]) ++
      [.node (.setNodeStatus "node" .active) 6])).db.toStore.nodeIDByFingerprint "fingerprint" ≠
        .ok "node" := by
  have hrevoked : ((run step initial (enrolled ++
      [.node (.setNodeStatus "node" .revoked) 5])).db.nodes.find? "node").map Node.status =
        some .revoked := by decide +kernel
  have hbefore : ((run step initial enrolled).db.nodes.find? "node").map Node.certFingerprint =
      some (some "fingerprint") := by decide +kernel
  obtain ⟨node, hnode, hstatus⟩ := Option.map_eq_some_iff.mp hrevoked
  obtain ⟨before, hbefore, hfingerprint⟩ := Option.map_eq_some_iff.mp hbefore
  exact ((((lifecycle _ [.node (.setNodeStatus "node" .active) 6] "node").2.2 node hnode).2
    (.inl hstatus)).2 enrolled (List.prefix_append _ _)).1 before _ hbefore hfingerprint

end SimpleCdn.Lifecycle
