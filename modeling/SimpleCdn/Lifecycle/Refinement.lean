import SimpleCdn.Lifecycle.System
import SimpleCdn.Store.NodeEffects

/-!
# Operations move cards

Every operation and every statement of a handler changes the tables so that each node's card
makes a step of `Card.Step`, or stays as it is.  Workflows and tokens belong to nodes that have a
row.
-/

namespace SimpleCdn.Lifecycle

open Store Transition

/-- Rows that reference a node have one, and identifiers of nodes have been issued. -/
structure Owned (db : Store) : Prop where
  jobs : ∀ job ∈ db.nodeUninstallJobs, ∃ node ∈ db.nodes, node.id = job.nodeID
  tokens : ∀ token ∈ db.enrollmentTokens, ∃ node ∈ db.nodes, node.id = token.nodeID
  upgrades : ∀ task ∈ db.nodeUpgradeTasks, ∃ node ∈ db.nodes, node.id = task.nodeID
  nodes : ∀ node ∈ db.nodes, node.id ∈ db.issuedIDs

/-- What an operation does to the cards. -/
structure Effect (Γ : String → Setting) (db db' : Store) : Prop where
  moves : ∀ n, Moves (Γ n) (card db n) (card db' n)
  owned : Owned db'
  issued : db.issuedIDs ⊆ db'.issuedIDs

section

variable {db db' : Store} {Γ : String → Setting} {n nodeID : String} {now : Time} {node : Node}

/-! ### Cards and tables -/

theorem card_of_find? (h : db.nodes.find? n = some node) :
    card db n = some (cardOf node (db.nodeUninstallJobs.find? n) (openTokens db n)
      (db.hasActiveNodeUpgrade n)) := by
  rw [card, h]
  rfl

theorem card_eq_none (h : db.nodes.find? n = none) : card db n = none := by
  rw [card, h]
  rfl

/-- Tables that agree on a node give it the same card. -/
theorem card_congr (hnodes : db'.nodes.find? n = db.nodes.find? n)
    (hjobs : db'.nodeUninstallJobs.find? n = db.nodeUninstallJobs.find? n)
    (htokens : openTokens db' n = openTokens db n)
    (hupgrades : db'.hasActiveNodeUpgrade n = db.hasActiveNodeUpgrade n) :
    card db' n = card db n := by
  rw [card, card, hnodes, hjobs, htokens, hupgrades]

theorem upgrades_congr (h : db'.nodeUpgradeTasks = db.nodeUpgradeTasks) :
    db'.hasActiveNodeUpgrade n = db.hasActiveNodeUpgrade n := by
  rw [hasActiveNodeUpgrade, h, hasActiveNodeUpgrade]

theorem blocked_cardOf (tokens : List String) (upgrading : Bool) :
    (cardOf node (db.nodeUninstallJobs.find? n) tokens upgrading).blocked =
      db.hasActiveNodeUninstall n := by
  rw [Bool.eq_iff_iff]
  simp only [Card.blocked, cardOf, hasActiveNodeUninstall, Option.any_map, Function.comp_def,
    Option.any_eq_true, Table.any_eq_true, Bool.and_eq_true, decide_eq_true_eq]
  constructor
  · rintro ⟨job, hjob, hblocks⟩
    exact ⟨job, Table.mem_of_find? hjob, Table.key_of_find? hjob, hblocks⟩
  · rintro ⟨job, hmem, rfl, hblocks⟩
    exact ⟨job, Table.find?_of_mem hmem, hblocks⟩

theorem mem_openTokens {token : String} :
    token ∈ openTokens db n ↔
      ∃ row ∈ db.enrollmentTokens, row.nodeID = n ∧ row.usedAt = none ∧ row.tokenHash = token := by
  simp [openTokens, Table.mem_iff, and_assoc]

/-- Updating a node keeps every row at its place. -/
theorem Owned.updateNode {f : Node → Node} {hf : ∀ node, key (f node) = key node}
    (h : Owned db) : Owned (db.updateNode nodeID f hf) := by
  have hnodes : ∀ node ∈ db.nodes, ∃ node' ∈ (db.updateNode nodeID f hf).nodes,
      node'.id = node.id := by
    intro node hmem
    refine ⟨_, List.mem_map.mpr ⟨node, hmem, rfl⟩, ?_⟩
    split
    · exact hf node
    · rfl
  constructor
  · intro job hjob
    obtain ⟨node, hmem, hid⟩ := h.jobs job hjob
    obtain ⟨node', hmem', hid'⟩ := hnodes node hmem
    exact ⟨node', hmem', hid'.trans hid⟩
  · intro token htoken
    obtain ⟨node, hmem, hid⟩ := h.tokens token htoken
    obtain ⟨node', hmem', hid'⟩ := hnodes node hmem
    exact ⟨node', hmem', hid'.trans hid⟩
  · intro task htask
    obtain ⟨node, hmem, hid⟩ := h.upgrades task htask
    obtain ⟨node', hmem', hid'⟩ := hnodes node hmem
    exact ⟨node', hmem', hid'.trans hid⟩
  · intro node' hmem'
    obtain ⟨node, hmem, rfl⟩ := List.mem_map.mp hmem'
    split
    · rw [show (f node).id = node.id from hf node]
      exact h.nodes node hmem
    · exact h.nodes node hmem

theorem Owned.updateUninstallJob {f : NodeUninstallJob → NodeUninstallJob}
    {hf : ∀ job, key (f job) = key job} (h : Owned db) :
    Owned (db.updateUninstallJob nodeID f hf) := by
  refine ⟨fun job' hjob' => ?_, h.tokens, h.upgrades, h.nodes⟩
  obtain ⟨job, hjob, rfl⟩ := List.mem_map.mp hjob'
  split
  · rw [show (f job).nodeID = job.nodeID from hf job]
    exact h.jobs job hjob
  · exact h.jobs job hjob

/-- The node of a workflow. -/
theorem Owned.node_of_job (h : Owned db) {job : NodeUninstallJob}
    (hjob : db.nodeUninstallJobs.find? n = some job) : ∃ node, db.nodes.find? n = some node := by
  obtain ⟨node, hmem, hid⟩ := h.jobs job (Table.mem_of_find? hjob)
  have hn : job.nodeID = n := Table.key_of_find? hjob
  exact ⟨node, Table.find?_eq_some_iff.mpr ⟨hmem, hid.trans hn⟩⟩

/-! ### Effects -/

theorem Effect.keep (h : Owned db') (hcard : ∀ n, card db' n = card db n)
    (hissued : db.issuedIDs ⊆ db'.issuedIDs := by exact List.Subset.refl _) :
    Effect Γ db db' := by
  refine ⟨fun n => ?_, h, hissued⟩
  rw [hcard]
  exact .keep _

theorem Effect.refl (h : Owned db) : Effect Γ db db :=
  .keep h fun _ => rfl

/-- An operation on one node. -/
theorem Effect.at {c' : Card} (howned : Owned db') (hnode : db.nodes.find? nodeID = some node)
    (hcard' : card db' nodeID = some c')
    (hmove : Moves (Γ nodeID)
      (some (cardOf node (db.nodeUninstallJobs.find? nodeID) (openTokens db nodeID)
        (db.hasActiveNodeUpgrade nodeID))) (some c'))
    (hother : ∀ n, n ≠ nodeID → card db' n = card db n)
    (hissued : db.issuedIDs ⊆ db'.issuedIDs := by exact List.Subset.refl _) :
    Effect Γ db db' := by
  refine ⟨fun n => ?_, howned, hissued⟩
  by_cases hn : n = nodeID
  · subst hn
    rw [card_of_find? hnode, hcard']
    exact hmove
  · rw [hother n hn]
    exact .keep _

/-- Updating the row of one node. -/
theorem Effect.updateNode {f : Node → Node} {hf : ∀ node, key (f node) = key node}
    (h : Owned db) (hnode : db.nodes.find? nodeID = some node)
    (hmove : ∀ job tokens upgrading, job = db.nodeUninstallJobs.find? nodeID →
      Moves (Γ nodeID) (some (cardOf node job tokens upgrading))
        (some (cardOf (f node) job tokens upgrading))) :
    Effect Γ db (db.updateNode nodeID f hf) := by
  have hmoves : NodeRowMoves db (db.updateNode nodeID f hf) nodeID f := find?_updateNode db hf
  refine .at h.updateNode hnode ?_ (hmove _ _ _ rfl) fun n hn => ?_
  · refine card_of_find? ?_
    rw [hmoves, if_pos rfl, hnode]
    rfl
  · refine card_congr ?_ rfl rfl rfl
    rw [hmoves, if_neg hn]

/-- Updating fields of one node that are not on its card. -/
theorem Effect.updateFields {f : Node → Node} {hf : ∀ node, key (f node) = key node}
    (h : Owned db)
    (hkeep : ∀ node job tokens upgrading,
      cardOf (f node) job tokens upgrading = cardOf node job tokens upgrading) :
    Effect Γ db (db.updateNode nodeID f hf) := by
  refine .keep h.updateNode fun n => ?_
  rw [card, card, find?_updateNode db hf n]
  split
  · rw [Option.map_map]
    exact Option.map_congr fun node _ => hkeep node _ _ _
  · rfl

/-- A step of the workflow of one node. -/
theorem Effect.updateUninstallJob {job : NodeUninstallJob}
    {f : NodeUninstallJob → NodeUninstallJob} {hf : ∀ job, key (f job) = key job} (h : Owned db)
    (hjob : db.nodeUninstallJobs.find? nodeID = some job)
    (hstep : ∀ c : Card, c.job = some (job.status, job.previousStatus) →
      Card.Step (Γ nodeID) c { c with job := some ((f job).status, (f job).previousStatus) }) :
    Effect Γ db (db.updateUninstallJob nodeID f hf) := by
  obtain ⟨node, hnode⟩ := h.node_of_job hjob
  have hfind := fun n => (find?_updateUninstallJob db hf n :
    (db.updateUninstallJob nodeID f hf).nodeUninstallJobs.find? n = _)
  have hcard' : card (db.updateUninstallJob nodeID f hf) nodeID =
      some { cardOf node (db.nodeUninstallJobs.find? nodeID) (openTokens db nodeID)
        (db.hasActiveNodeUpgrade nodeID) with
          job := some ((f job).status, (f job).previousStatus) } := by
    have hcard : card (db.updateUninstallJob nodeID f hf) nodeID = _ := card_of_find? hnode
    rw [hcard, hfind, if_pos rfl, hjob]
    rfl
  refine .at h.updateUninstallJob hnode hcard' (.step (hstep _ ?_)) fun n hn => ?_
  · rw [hjob]
    rfl
  · refine card_congr rfl ?_ rfl rfl
    rw [hfind, if_neg hn]

/-- A step of the workflow that gives its node another status. -/
theorem Effect.updateUninstall {job : NodeUninstallJob} {f : Node → Node}
    {g : NodeUninstallJob → NodeUninstallJob} {hf : ∀ node, key (f node) = key node}
    {hg : ∀ job, key (g job) = key job} (h : Owned db)
    (hjob : db.nodeUninstallJobs.find? nodeID = some job)
    (hstep : ∀ node tokens upgrading, Card.Step (Γ nodeID)
      (cardOf node (some job) tokens upgrading)
      (cardOf (f node) (some (g job)) tokens upgrading)) :
    Effect Γ db ((db.updateUninstallJob nodeID g hg).updateNode nodeID f hf) := by
  obtain ⟨node, hnode⟩ := h.node_of_job hjob
  have hmoves : NodeRowMoves (db.updateUninstallJob nodeID g hg)
      ((db.updateUninstallJob nodeID g hg).updateNode nodeID f hf) nodeID f :=
    find?_updateNode (db.updateUninstallJob nodeID g hg) hf
  have hfind := fun n => (find?_updateUninstallJob db hg n :
    (db.updateUninstallJob nodeID g hg).nodeUninstallJobs.find? n = _)
  have hcard' : card ((db.updateUninstallJob nodeID g hg).updateNode nodeID f hf) nodeID =
      some (cardOf (f node) (some (g job)) (openTokens db nodeID)
        (db.hasActiveNodeUpgrade nodeID)) := by
    have hjob' : ((db.updateUninstallJob nodeID g hg).updateNode nodeID f hf).nodeUninstallJobs.find?
        nodeID = some (g job) := by
      refine (hfind nodeID).trans ?_
      rw [if_pos rfl, hjob]
      rfl
    have hnode' : ((db.updateUninstallJob nodeID g hg).updateNode nodeID f hf).nodes.find? nodeID =
        some (f node) := by
      rw [hmoves, if_pos rfl]
      exact congrArg (Option.map f) hnode
    rw [card_of_find? hnode', hjob']
    rfl
  refine .at h.updateUninstallJob.updateNode hnode hcard' ?_ fun n hn => ?_
  · rw [hjob]
    exact .step (hstep node _ _)
  · refine card_congr ?_ ?_ rfl rfl
    · rw [hmoves, if_neg hn]
      rfl
    · exact (hfind n).trans (if_neg hn)

/-! ### Creating and deleting nodes -/

theorem openTokens_congr (h : db'.enrollmentTokens = db.enrollmentTokens) :
    openTokens db' n = openTokens db n := by
  rw [openTokens, h, openTokens]

theorem Moves.of_eq {Δ : Setting} {c c' : Option Card} (h : c' = c) : Moves Δ c c' := by
  rw [h]
  exact .keep c

theorem createNode_moves {id name publicIPv4 : String} (h : Owned db)
    (hissued : ∀ n, (Γ n).issued → n ∈ db.issuedIDs)
    (hcreate : db.createNode id name publicIPv4 now = .ok (node, db')) : Effect Γ db db' := by
  simp only [createNode, bind_eq_ok, require_eq_ok, orError_eq_ok, pure_eq_ok, exists_const,
    Prod.mk.injEq] at hcreate
  obtain ⟨-, db₁, hnew, -, nodes, hinsert, rfl, hdb'⟩ := hcreate
  obtain ⟨hfresh, rfl⟩ := newID_eq_ok.mp hnew
  have hfind := Table.find?_of_insert? hinsert
  have hmem := @Table.mem_of_insert? _ _ _ _ _ _ _ hinsert
  have hnone : db.nodes.find? id = none := (Table.insert?_eq_some_iff.mp hinsert).1
  have hnodes : db'.nodes = nodes := by rw [← hdb']
  have hjobs : db'.nodeUninstallJobs = db.nodeUninstallJobs := by rw [← hdb']
  have htokens : db'.enrollmentTokens = db.enrollmentTokens := by rw [← hdb']
  have htasks : db'.nodeUpgradeTasks = db.nodeUpgradeTasks := by rw [← hdb']
  have hids : db'.issuedIDs = id :: db.issuedIDs := by rw [← hdb']
  refine ⟨fun n => ?_, ⟨fun job hjob => ?_, fun token htoken => ?_, fun task htask => ?_,
    fun node hnode => ?_⟩, ?_⟩
  · by_cases hn : id = n
    · subst hn
      -- no row refers to the new node yet
      have hjob : db.nodeUninstallJobs.find? id = none := by
        refine Table.find?_eq_none_iff.mpr fun job hjob hid => ?_
        obtain ⟨node, hnode, hnodeID⟩ := h.jobs job hjob
        exact Table.find?_eq_none_iff.mp hnone node hnode (hnodeID.trans hid)
      have htoken : openTokens db id = [] := by
        refine List.eq_nil_iff_forall_not_mem.mpr fun token htoken => ?_
        obtain ⟨row, hrow, hid, -⟩ := mem_openTokens.mp htoken
        obtain ⟨node, hnode, hnodeID⟩ := h.tokens row hrow
        exact Table.find?_eq_none_iff.mp hnone node hnode (hnodeID.trans hid)
      have htask : db.hasActiveNodeUpgrade id = false := by
        refine Table.any_eq_false.mpr fun task htask => ?_
        obtain ⟨node, hnode, hnodeID⟩ := h.upgrades task htask
        have hid : task.nodeID ≠ id := fun hid =>
          Table.find?_eq_none_iff.mp hnone node hnode (hnodeID.trans hid)
        rw [decide_eq_false hid, Bool.false_and]
      have hnode' := (hfind id).trans (if_pos rfl)
      rw [← hnodes] at hnode'
      rw [card_eq_none hnone, card_of_find? hnode', hjobs, hjob, openTokens_congr htokens, htoken,
        upgrades_congr htasks, htask]
      exact .create fun hid => hfresh (hissued id hid)
    · refine .of_eq (card_congr ?_ (by rw [hjobs]) (openTokens_congr htokens)
        (upgrades_congr htasks))
      rw [hnodes]
      exact (hfind n).trans (if_neg hn)
  · rw [hjobs] at hjob
    obtain ⟨node, hnode, hid⟩ := h.jobs job hjob
    exact ⟨node, by rw [hnodes]; exact hmem.mpr (.inl hnode), hid⟩
  · rw [htokens] at htoken
    obtain ⟨node, hnode, hid⟩ := h.tokens token htoken
    exact ⟨node, by rw [hnodes]; exact hmem.mpr (.inl hnode), hid⟩
  · rw [htasks] at htask
    obtain ⟨node, hnode, hid⟩ := h.upgrades task htask
    exact ⟨node, by rw [hnodes]; exact hmem.mpr (.inl hnode), hid⟩
  · rw [hnodes] at hnode
    rw [hids]
    rcases hmem.mp hnode with hnode | rfl
    · exact List.mem_cons_of_mem _ (h.nodes node hnode)
    · exact List.mem_cons_self
  · rw [hids]
    exact List.subset_cons_self _ _

theorem openTokens_delete {p : EnrollmentToken → Bool}
    (hp : ∀ token ∈ db.enrollmentTokens, token.nodeID = n → token.usedAt = none →
      p token = false) :
    ((db.enrollmentTokens.delete p).rows.filter fun token =>
      token.nodeID = n && token.usedAt.isNone).map EnrollmentToken.tokenHash = openTokens db n := by
  rw [openTokens, Table.delete, List.filter_filter]
  congr 1
  refine List.filter_congr fun token htoken => ?_
  by_cases hopen : token.nodeID = n ∧ token.usedAt = none
  · rw [hp token htoken hopen.1 hopen.2]
    simp
  · by_cases hid : token.nodeID = n
    · have hused : token.usedAt.isNone = false := by
        cases hused : token.usedAt with
        | none => exact absurd ⟨hid, hused⟩ hopen
        | some _ => rfl
      simp [hused]
    · simp [hid]

theorem deleteNode_moves (h : Owned db) (hdelete : db.deleteNode nodeID = .ok db') :
    Effect Γ db db' := by
  simp only [deleteNode, bind_eq_ok, require_eq_ok, getNode_eq_ok, pure_eq_ok, exists_const]
    at hdelete
  obtain ⟨-, -, node, hnode, hdb'⟩ := hdelete
  have hnodes : db'.nodes = db.nodes.delete fun node => node.id = nodeID := by rw [← hdb']
  have hjobs : db'.nodeUninstallJobs = db.nodeUninstallJobs.delete fun job =>
      job.nodeID = nodeID := by rw [← hdb']
  have htokens : db'.enrollmentTokens = db.enrollmentTokens.delete fun token =>
      token.nodeID = nodeID := by rw [← hdb']
  have htasks : db'.nodeUpgradeTasks = db.nodeUpgradeTasks.delete fun task =>
      task.nodeID = nodeID := by rw [← hdb']
  have hids : db'.issuedIDs = db.issuedIDs := by rw [← hdb']
  have hfind : ∀ n, db'.nodes.find? n = if n = nodeID then none else db.nodes.find? n := by
    rw [hnodes]
    exact Table.find?_delete_key fun _ => rfl
  have hkept : ∀ id, id ≠ nodeID → (∃ node ∈ db.nodes, node.id = id) →
      ∃ node ∈ db'.nodes, node.id = id := by
    rintro id hne ⟨node, hnode, rfl⟩
    refine ⟨node, ?_, rfl⟩
    rw [hnodes]
    exact Table.mem_delete.mpr ⟨hnode, by simpa using hne⟩
  refine ⟨fun n => ?_, ⟨fun job hjob => ?_, fun token htoken => ?_, fun task htask => ?_,
    fun node hnode => ?_⟩, ?_⟩
  · by_cases hn : n = nodeID
    · subst hn
      rw [card_of_find? hnode, card_eq_none ((hfind n).trans (if_pos rfl))]
      exact .delete _
    · refine .of_eq (card_congr ((hfind n).trans (if_neg hn)) ?_ ?_ ?_)
      · rw [hjobs]
        exact (Table.find?_delete_key (fun _ => rfl) n).trans (if_neg hn)
      · rw [openTokens, htokens]
        refine openTokens_delete fun token _ hid _ => ?_
        rw [hid]
        exact decide_eq_false hn
      · rw [Bool.eq_iff_iff, hasActiveNodeUpgrade, htasks, hasActiveNodeUpgrade, Table.any_eq_true,
          Table.any_eq_true]
        constructor
        · rintro ⟨task, htask, hp⟩
          exact ⟨task, (Table.mem_delete.mp htask).1, hp⟩
        · rintro ⟨task, htask, hp⟩
          refine ⟨task, Table.mem_delete.mpr ⟨htask, decide_eq_false fun hid => hn ?_⟩, hp⟩
          rw [Bool.and_eq_true, decide_eq_true_eq] at hp
          exact hp.1.symm.trans hid
  · rw [hjobs] at hjob
    obtain ⟨hjob, hne⟩ := Table.mem_delete.mp hjob
    exact hkept _ (of_decide_eq_false hne) (h.jobs job hjob)
  · rw [htokens] at htoken
    obtain ⟨htoken, hne⟩ := Table.mem_delete.mp htoken
    exact hkept _ (of_decide_eq_false hne) (h.tokens token htoken)
  · rw [htasks] at htask
    obtain ⟨htask, hne⟩ := Table.mem_delete.mp htask
    exact hkept _ (of_decide_eq_false hne) (h.upgrades task htask)
  · rw [hnodes] at hnode
    rw [hids]
    exact h.nodes node (Table.mem_delete.mp hnode).1
  · rw [hids]
    exact List.Subset.refl _

/-- An operation on other tables. -/
theorem Effect.frame (h : Owned db) (hnodes : db'.nodes = db.nodes)
    (hjobs : db'.nodeUninstallJobs = db.nodeUninstallJobs)
    (htokens : db'.enrollmentTokens = db.enrollmentTokens)
    (htasks : db'.nodeUpgradeTasks = db.nodeUpgradeTasks)
    (hissued : db.issuedIDs ⊆ db'.issuedIDs) : Effect Γ db db' := by
  refine .keep ⟨?_, ?_, ?_, ?_⟩ (fun n => ?_) hissued
  · rw [hnodes, hjobs]
    exact h.jobs
  · rw [hnodes, htokens]
    exact h.tokens
  · rw [hnodes, htasks]
    exact h.upgrades
  · rw [hnodes]
    exact fun node hnode => hissued (h.nodes node hnode)
  · exact card_congr (by rw [hnodes]) (by rw [hjobs]) (openTokens_congr htokens)
      (upgrades_congr htasks)

/-! ### Identities -/

theorem createEnrollmentToken_moves {token : String} {expiresAt : Time} (h : Owned db)
    (hnew : token ∈ (Γ nodeID).tokens)
    (hcreate : db.createEnrollmentToken nodeID token expiresAt now = .ok db') :
    Effect Γ db db' := by
  simp only [createEnrollmentToken, bind_eq_ok, require_eq_ok, getNode_eq_ok, orError_eq_ok,
    pure_eq_ok, exists_const] at hcreate
  obtain ⟨node, hnode, hlive, hfree, tokens, hinsert, rfl⟩ := hcreate
  have hrows := (Table.insert?_eq_some_iff.mp hinsert).2
  have htokens : ∀ n, openTokens { db with enrollmentTokens := tokens } n =
      openTokens db n ++ if nodeID = n then [token] else [] := by
    intro n
    rw [openTokens, hrows, List.filter_append, List.map_append]
    by_cases hn : nodeID = n
    · simp [hn, openTokens]
    · simp [hn, openTokens]
  have howned : Owned { db with enrollmentTokens := tokens } := by
    refine ⟨h.jobs, fun row hrow => ?_, h.upgrades, h.nodes⟩
    rcases (Table.mem_of_insert? hinsert).mp hrow with hrow | rfl
    · exact h.tokens row hrow
    · exact ⟨node, Table.mem_of_find? hnode, Table.key_of_find? hnode⟩
  have hcard : card { db with enrollmentTokens := tokens } nodeID =
      some (cardOf node (db.nodeUninstallJobs.find? nodeID) (openTokens db nodeID ++ [token])
        (db.hasActiveNodeUpgrade nodeID)) := by
    have hcard : card { db with enrollmentTokens := tokens } nodeID = _ := card_of_find? hnode
    rw [hcard, htokens, if_pos rfl]
    rfl
  refine .at howned hnode hcard (.step (.addToken _ token hlive ?_ hnew)) fun n hn => ?_
  · rw [blocked_cardOf]
    exact hfree
  · refine card_congr rfl rfl ?_ rfl
    rw [htokens, if_neg (Ne.symm hn), List.append_nil]

/-- A used token is not open any more. -/
theorem useToken_rows (rows : List EnrollmentToken) (hash n : String) (now : Time) :
    ((rows.map fun token =>
        if decide (token.tokenHash = hash) = true then { token with usedAt := some now }
        else token).filter fun token => token.nodeID = n && token.usedAt.isNone).map
      EnrollmentToken.tokenHash =
    ((rows.filter fun token => token.nodeID = n && token.usedAt.isNone).map
      EnrollmentToken.tokenHash).filter (· ≠ hash) := by
  induction rows with
  | nil => rfl
  | cons token rows ih =>
    by_cases hhash : token.tokenHash = hash
    · by_cases hid : token.nodeID = n
      · cases hused : token.usedAt with
        | none => simpa [hhash, hid, hused] using ih
        | some _ => simpa [hhash, hid, hused] using ih
      · simpa [hhash, hid] using ih
    · by_cases hid : token.nodeID = n
      · cases hused : token.usedAt with
        | none => simpa [hhash, hid, hused] using ih
        | some _ => simpa [hhash, hid, hused] using ih
      · simpa [hhash, hid] using ih

theorem consumeEnrollmentToken_moves {token : String} (h : Owned db)
    (hconsume : db.consumeEnrollmentToken token now = .ok (nodeID, db')) : Effect Γ db db' := by
  simp only [consumeEnrollmentToken, bind_eq_ok, require_eq_ok, orError_eq_ok, pure_eq_ok,
    exists_const, Prod.mk.injEq] at hconsume
  obtain ⟨row, hrow, node, hnode, -, rfl, hdb'⟩ := hconsume
  have htokens : ∀ n, openTokens db' n = (openTokens db n).filter (· ≠ row.tokenHash) := by
    intro n
    rw [← hdb']
    exact useToken_rows _ _ _ _
  have howned : Owned db' := by
    rw [← hdb']
    refine ⟨h.jobs, fun token' htoken' => ?_, h.upgrades, h.nodes⟩
    obtain ⟨token, htoken, rfl⟩ := List.mem_map.mp htoken'
    split
    · exact h.tokens token htoken
    · exact h.tokens token htoken
  refine ⟨fun n => ?_, howned, by rw [← hdb']; exact List.Subset.refl _⟩
  have hnodes : db'.nodes = db.nodes := by rw [← hdb']
  have hjobs : db'.nodeUninstallJobs = db.nodeUninstallJobs := by rw [← hdb']
  have htasks : db'.nodeUpgradeTasks = db.nodeUpgradeTasks := by rw [← hdb']
  rw [card, card, hnodes, hjobs, htokens, upgrades_congr htasks]
  cases db.nodes.find? n with
  | none => exact .keep _
  | some node => exact .step (.useToken _ row.tokenHash)

theorem setNodeCertificate_moves {fingerprint : String} (h : Owned db)
    (hnew : fingerprint ∈ (Γ nodeID).fingerprints)
    (hset : db.setNodeCertificate nodeID fingerprint now = .ok db') : Effect Γ db db' := by
  simp only [setNodeCertificate, bind_eq_ok, require_eq_ok, getNode_eq_ok, pure_eq_ok,
    exists_const] at hset
  obtain ⟨node, hnode, ⟨hlive, hfree⟩, rfl⟩ := hset
  refine .updateNode h hnode fun job tokens upgrading hjob => ?_
  refine .step (.certify _ fingerprint hlive ?_ hnew)
  rw [hjob, blocked_cardOf]
  exact hfree

/-! ### Statuses -/

theorem heartbeatNode_moves {appliedVersion : Nat}
    {lastError agentVersion agentSHA256 activeUpgradeID : String} (h : Owned db)
    (hbeat : heartbeatNode db nodeID appliedVersion lastError agentVersion agentSHA256
      activeUpgradeID now = .ok db') (hreports : (Γ nodeID).reports activeUpgradeID) :
    Effect Γ db db' := by
  simp only [heartbeatNode, bind_eq_ok, getNode_eq_ok, pure_eq_ok] at hbeat
  obtain ⟨node, hnode, rfl⟩ := hbeat
  exact .updateNode h hnode fun job tokens upgrading _ =>
    .step (.heartbeat (cardOf node job tokens upgrading) activeUpgradeID hreports)

/-- A revocation fails the upgrades of its node. -/
theorem withdrawAuthorization_upgrades (db : Store) (n : String) :
    (db.withdrawAuthorization nodeID now).hasActiveNodeUpgrade n =
      (decide (n ≠ nodeID) && db.hasActiveNodeUpgrade n) := by
  rw [Bool.eq_iff_iff, Bool.and_eq_true, decide_eq_true_eq]
  simp only [hasActiveNodeUpgrade, Table.any_eq_true, Bool.and_eq_true, decide_eq_true_eq]
  constructor
  · rintro ⟨task', htask', hid, hactive⟩
    obtain ⟨task, htask, rfl⟩ := List.mem_map.mp htask'
    split at hactive
    · cases hactive
    · next hp =>
      rw [if_neg hp] at hid
      exact ⟨fun hn => hp (by simp [hid, hn, hactive]), task, htask, hid, hactive⟩
  · rintro ⟨hn, task, htask, hid, hactive⟩
    refine ⟨task, List.mem_map.mpr ⟨task, htask, if_neg ?_⟩, hid, hactive⟩
    simp [hid, hn]

/-- Revoking a node ends everything that would let its machine back in. -/
theorem revoke_moves {f : Node → Node} {hf : ∀ node, key (f node) = key node} (h : Owned db)
    (hnode : db.nodes.find? nodeID = some node)
    (hf' : ∀ job tokens upgrading, cardOf (f node) job tokens upgrading =
      { cardOf node job tokens upgrading with
        status := .revoked, autoPaused := false, fingerprint := none, upgradeID := "" })
    (hopen : node.status ≠ .uninstalling ∧ node.status ≠ .uninstalled) :
    Effect Γ db ((db.updateNode nodeID f hf).withdrawAuthorization nodeID now) := by
  set db₁ := (db.updateNode nodeID f hf).withdrawAuthorization nodeID now with hdb₁
  have howned₀ : Owned (db.updateNode nodeID f hf) := h.updateNode
  have howned : Owned db₁ := by
    refine ⟨fun job' hjob' => ?_, fun token htoken => ?_, fun task' htask' => ?_, howned₀.nodes⟩
    · obtain ⟨job, hjob, rfl⟩ := List.mem_map.mp hjob'
      split
      · exact howned₀.jobs job hjob
      · exact howned₀.jobs job hjob
    · exact howned₀.tokens token (Table.mem_delete.mp htoken).1
    · obtain ⟨task, htask, rfl⟩ := List.mem_map.mp htask'
      split
      · exact howned₀.upgrades task htask
      · exact howned₀.upgrades task htask
  have hmoves : NodeRowMoves db db₁ nodeID f := find?_updateNode db hf
  have hjobs : ∀ n, db₁.nodeUninstallJobs.find? n = (db.nodeUninstallJobs.find? n).map fun job =>
      if decide (job.nodeID = nodeID) && job.status.blocksStatus then
        { job with previousStatus := .revoked, updatedAt := now } else job := by
    intro n
    rw [hdb₁, withdrawAuthorization, Table.find?_update]
    rfl
  have htokens : openTokens db₁ nodeID = [] := by
    refine List.eq_nil_iff_forall_not_mem.mpr fun token htoken => ?_
    obtain ⟨row, hrow, hid, hunused, -⟩ := mem_openTokens.mp htoken
    have hkept := (Table.mem_delete.mp hrow).2
    rw [hid, hunused] at hkept
    simp at hkept
  have hnode' : db₁.nodes.find? nodeID = some (f node) := by
    rw [hmoves, if_pos rfl, hnode]
    rfl
  have hpairs : (db₁.nodeUninstallJobs.find? nodeID).map
      (fun job => (job.status, job.previousStatus)) =
        ((db.nodeUninstallJobs.find? nodeID).map fun job =>
          (job.status, job.previousStatus)).map revokedJob := by
    rw [hjobs]
    cases hjob : db.nodeUninstallJobs.find? nodeID with
    | none => rfl
    | some job =>
      have hid : job.nodeID = nodeID := Table.key_of_find? hjob
      by_cases hblocks : job.status.blocksStatus = true
      · simp [revokedJob, hid, hblocks]
      · simp [revokedJob, hblocks]
  have htasks : ∀ n, db₁.hasActiveNodeUpgrade n =
      (decide (n ≠ nodeID) && db.hasActiveNodeUpgrade n) :=
    withdrawAuthorization_upgrades (db.updateNode nodeID f hf)
  have hcard : card db₁ nodeID = some { cardOf node (db.nodeUninstallJobs.find? nodeID)
      (openTokens db nodeID) (db.hasActiveNodeUpgrade nodeID) with
        status := .revoked, autoPaused := false, fingerprint := none, upgradeID := "",
        job := ((db.nodeUninstallJobs.find? nodeID).map fun job =>
          (job.status, job.previousStatus)).map revokedJob, openTokens := [],
        upgrading := false } := by
    rw [card_of_find? hnode', htokens, hf', cardOf, hpairs, htasks]
    simp
  refine .at howned hnode hcard (.step (.revoke _ hopen)) fun n hn => ?_
  refine card_congr ?_ ?_ ?_ ?_
  · rw [hmoves, if_neg hn]
  · rw [hjobs]
    cases hjob : db.nodeUninstallJobs.find? n with
    | none => rfl
    | some job =>
      have hid : job.nodeID = n := Table.key_of_find? hjob
      simp [hid, hn]
  · refine openTokens_delete fun token _ hid _ => ?_
    simp [hid, hn]
  · rw [htasks]
    simp [hn]

theorem setNodeStatus_moves {status : NodeStatus} (h : Owned db)
    (hset : db.setNodeStatus nodeID status now = .ok db') : Effect Γ db db' := by
  simp only [setNodeStatus, bind_eq_ok, require_eq_ok, getNode_eq_ok, exists_const] at hset
  obtain ⟨hvalid, node, hnode, hopen, hfree, hset⟩ := hset
  split at hset
  · obtain rfl := pure_eq_ok.mp hset
    exact revoke_moves h hnode (fun _ _ _ => rfl) hopen
  · next hrevoked =>
    obtain rfl := pure_eq_ok.mp hset
    refine .updateNode h hnode fun job tokens upgrading hjob =>
      .step (.setStatus _ status ?_ hopen ?_)
    · rcases hvalid with hvalid | hvalid | hvalid | hvalid
      · exact .inl hvalid
      · exact .inr (.inl hvalid)
      · exact absurd hvalid hrevoked
      · exact .inr (.inr hvalid)
    · rw [hjob, blocked_cardOf]
      rcases hfree with hfree | hfree | hfree
      · exact .inl hfree
      · exact .inr hfree
      · exact absurd hfree hrevoked

theorem recordMonitoringRound_moves {consecutiveAbnormal : Nat} (h : Owned db)
    (hresumes : ∀ node, db.nodes.find? nodeID = some node → consecutiveAbnormal = 0 →
      node.monitorAutoPaused = true → node.status = .draining → (Γ nodeID).resumes)
    (hrecord : db.recordMonitoringRound nodeID consecutiveAbnormal now = .ok db') :
    Effect Γ db db' := by
  simp only [recordMonitoringRound, bind_eq_ok, getNode_eq_ok, pure_eq_ok] at hrecord
  obtain ⟨node, hnode, rfl⟩ := hrecord
  refine .updateNode h hnode fun job tokens upgrading _ => ?_
  by_cases hpause : monitoringAutoPauseAfter ≤ consecutiveAbnormal ∧ node.status = .active
  · have hmonitored : monitoredStatus node.status node.monitorAutoPaused consecutiveAbnormal =
        (.draining, true) := if_pos hpause
    simp only [hmonitored]
    exact .step (.pause _ hpause.2)
  · by_cases hresume : consecutiveAbnormal = 0 ∧ node.monitorAutoPaused = true ∧
        node.status = .draining
    · have hmonitored : monitoredStatus node.status node.monitorAutoPaused consecutiveAbnormal =
          (.active, false) := (if_neg hpause).trans (if_pos hresume)
      simp only [hmonitored]
      obtain ⟨hzero, hpaused, hdraining⟩ := hresume
      exact .step (.resume _ (hresumes node hnode hzero hpaused hdraining) hdraining hpaused)
    · have hmonitored : monitoredStatus node.status node.monitorAutoPaused consecutiveAbnormal =
          (node.status, node.monitorAutoPaused) := (if_neg hpause).trans (if_neg hresume)
      simp only [hmonitored]
      exact .keep _

theorem resumeAutoPaused_moves (h : Owned db)
    (hresumes : ∀ n node, db.nodes.find? n = some node → node.monitorAutoPaused = true →
      node.status = .draining → (Γ n).resumes) : Effect Γ db (db.resumeAutoPaused now) := by
  have hfind : ∀ n, (db.resumeAutoPaused now).nodes.find? n = (db.nodes.find? n).map fun node =>
      if node.monitorAutoPaused then
        { node with
          status := if node.status = .draining then .active else node.status
          monitorAutoPaused := false
          updatedAt := now }
      else node := by
    intro n
    rw [resumeAutoPaused, Table.find?_update]
  refine ⟨fun n => ?_, ?_, List.Subset.refl _⟩
  · rw [card, card, hfind]
    cases hnode : db.nodes.find? n with
    | none => exact .keep _
    | some node =>
      by_cases hpaused : node.monitorAutoPaused = true
      · by_cases hdraining : node.status = .draining
        · simp only [Option.map_some, hpaused, hdraining, if_true]
          exact .step (.resume _ (hresumes n node hnode hpaused hdraining) hdraining hpaused)
        · simp only [Option.map_some, hpaused, hdraining, if_true, if_false]
          exact .step (.forgetPause (cardOf node _ _ _) hdraining)
      · simp only [Option.map_some, hpaused]
        exact .keep _
  · have hkept : ∀ id, (∃ node ∈ db.nodes, node.id = id) →
        ∃ node ∈ (db.resumeAutoPaused now).nodes, node.id = id := by
      rintro id ⟨node, hnode, rfl⟩
      refine ⟨_, List.mem_map.mpr ⟨node, hnode, rfl⟩, ?_⟩
      split
      · rfl
      · rfl
    refine ⟨fun job hjob => hkept _ (h.jobs job hjob), fun token htoken =>
      hkept _ (h.tokens token htoken), fun task htask => hkept _ (h.upgrades task htask),
      fun node' hnode' => ?_⟩
    obtain ⟨node, hnode, rfl⟩ := List.mem_map.mp hnode'
    split
    · exact h.nodes node hnode
    · exact h.nodes node hnode

/-! ### Uninstalling -/

theorem prepareNodeUninstall_moves {affectedSiteIDs : List String} {readyAt : Time} (h : Owned db)
    (hprepare : db.prepareNodeUninstall nodeID affectedSiteIDs readyAt now = .ok db') :
    Effect Γ db db' := by
  simp only [prepareNodeUninstall, bind_eq_ok, require_eq_ok, getNode_eq_ok, exists_const]
    at hprepare
  obtain ⟨node, hnode, hidle, hupgrade, hstatus, hprepare⟩ := hprepare
  split at hprepare
  · obtain rfl := pure_eq_ok.mp hprepare
    exact .refl h
  · next hfree =>
    have hdb' := pure_eq_ok.mp hprepare
    have hnodes : db'.nodes = db.nodes := by rw [← hdb']
    have htokens : db'.enrollmentTokens = db.enrollmentTokens := by rw [← hdb']
    have htasks : db'.nodeUpgradeTasks = db.nodeUpgradeTasks := by rw [← hdb']
    have hids : db'.issuedIDs = db.issuedIDs := by rw [← hdb']
    have hnode' : db'.nodes.find? nodeID = some node := by rw [hnodes, hnode]
    have hfind : ∀ n, ∃ job, job.nodeID = nodeID ∧ job.status = .preparing ∧
        job.previousStatus = node.status ∧
        db'.nodeUninstallJobs.find? n =
          if nodeID = n then some job else db.nodeUninstallJobs.find? n := by
      intro n
      rw [← hdb']
      exact ⟨_, rfl, rfl, rfl, Table.find?_upsert n⟩
    have howned : Owned db' := by
      refine ⟨fun job hjob => ?_, ?_, ?_, ?_⟩
      · have hjob := Table.find?_of_mem hjob
        obtain ⟨job', hid', -, -, hfind⟩ := hfind (key job)
        rw [hfind] at hjob
        rw [hnodes]
        split at hjob
        · obtain rfl := Option.some.inj hjob
          exact ⟨node, Table.mem_of_find? hnode, (Table.key_of_find? hnode).trans hid'.symm⟩
        · exact h.jobs job (Table.mem_of_find? hjob)
      · rw [hnodes, htokens]
        exact h.tokens
      · rw [hnodes, htasks]
        exact h.upgrades
      · rw [hnodes, hids]
        exact h.nodes
    obtain ⟨job, -, hpreparing, hprevious, hjob⟩ := hfind nodeID
    have hcard : card db' nodeID = some { cardOf node (db.nodeUninstallJobs.find? nodeID)
        (openTokens db nodeID) (db.hasActiveNodeUpgrade nodeID) with
          job := some (.preparing, node.status) } := by
      rw [card_of_find? hnode', hjob, if_pos rfl, openTokens_congr htokens,
        upgrades_congr htasks, cardOf, Option.map_some, hpreparing, hprevious]
      rfl
    refine .at howned hnode hcard (.step (.prepare _ hstatus hupgrade hidle ?_)) (fun n hn => ?_)
      (by rw [hids]; exact List.Subset.refl _)
    · rw [blocked_cardOf]
      exact Bool.eq_false_iff.mpr hfree
    · obtain ⟨job, -, -, -, hjob⟩ := hfind n
      exact card_congr (by rw [hnodes]) (hjob.trans (if_neg (Ne.symm hn)))
        (openTokens_congr htokens) (upgrades_congr htasks)

theorem waits_cases {status : NodeUninstallJobStatus} (h : uninstallJobWaits status = true) :
    status = .preparing ∨ status = .ready ∨ status = .failed := by
  cases status with
  | preparing => exact .inl rfl
  | ready => exact .inr (.inl rfl)
  | failed => exact .inr (.inr rfl)
  | running | succeeded | forced | canceled => cases h

theorem issueNodeUninstallToken_moves {token : String} {expiresAt : Time} (h : Owned db)
    (hissue : db.issueNodeUninstallToken nodeID token expiresAt now = .ok db') :
    Effect Γ db db' := by
  simp only [issueNodeUninstallToken, bind_eq_ok, require_eq_ok, orError_eq_ok, pure_eq_ok,
    exists_const] at hissue
  obtain ⟨-, job, hjob, hwaits, rfl⟩ := hissue
  exact .updateUninstallJob h hjob fun c hc => .issue c _ _ hc (waits_cases hwaits)

theorem cancelNodeUninstall_moves (h : Owned db)
    (hcancel : db.cancelNodeUninstall nodeID now = .ok db') : Effect Γ db db' := by
  simp only [cancelNodeUninstall, bind_eq_ok, require_eq_ok, nodeUninstallJob_eq_ok, pure_eq_ok,
    exists_const] at hcancel
  obtain ⟨job, hjob, -, hwaits, rfl⟩ := hcancel
  exact .updateUninstallJob h hjob fun c hc => .cancel c _ _ hc (waits_cases hwaits)

/-- The start of the script, from one of the states it may start in. -/
theorem start_moves {job : NodeUninstallJob} (h : Owned db)
    (hjob : db.nodeUninstallJobs.find? job.nodeID = some job)
    (hissued : job.status = .ready ∨ job.status = .running ∨ job.status = .failed) :
    Effect Γ db ((db.updateUninstallJob job.nodeID fun job =>
      { job with
        status := .running, startedAt := some (job.startedAt.getD now), detail := "",
        updatedAt := now }).updateNode job.nodeID fun node =>
          { node with status := .uninstalling, updatedAt := now }) :=
  .updateUninstall h hjob fun node tokens upgrading =>
    .start (cardOf node (some job) tokens upgrading) job.status job.previousStatus rfl hissued

theorem startNodeUninstall_moves {token : String} (h : Owned db)
    (hstart : db.startNodeUninstall token now = .ok db') : Effect Γ db db' := by
  simp only [startNodeUninstall, bind_eq_ok] at hstart
  obtain ⟨job, hjob, hstart⟩ := hstart
  have hfind := uninstallJobByToken_eq_ok hjob
  split at hstart
  · obtain rfl := pure_eq_ok.mp hstart
    exact .refl h
  · obtain rfl := pure_eq_ok.mp hstart
    -- the script of a forced workflow only leaves its time
    refine .keep h.updateUninstallJob fun n => ?_
    have hjobs := fun n => (find?_updateUninstallJob db (by intro _; rfl) n :
      (db.updateUninstallJob job.nodeID fun job =>
        { job with
          startedAt := some (job.startedAt.getD now),
          updatedAt := now }).nodeUninstallJobs.find? n = _)
    rw [card, card, hjobs]
    split
    · refine Option.map_congr fun node _ => ?_
      rw [cardOf, cardOf, Option.map_map]
      rfl
    · rfl
  · next hready =>
    obtain rfl := pure_eq_ok.mp hstart
    exact start_moves h hfind (.inl hready)
  · next hrunning =>
    obtain rfl := pure_eq_ok.mp hstart
    exact start_moves h hfind (.inr (.inl hrunning))
  · next hfailed =>
    obtain rfl := pure_eq_ok.mp hstart
    exact start_moves h hfind (.inr (.inr hfailed))
  · cases hstart

theorem fail_moves {job : NodeUninstallJob} {detail : String} (h : Owned db)
    (hjob : db.nodeUninstallJobs.find? job.nodeID = some job)
    (hstarted : job.status = .running ∨ job.status = .failed) :
    Effect Γ db ((db.updateUninstallJob job.nodeID fun job =>
      { job with status := .failed, detail := detail, updatedAt := now }).updateNode job.nodeID
        fun node =>
          { node with status := job.previousStatus, lastError := detail, updatedAt := now }) :=
  .updateUninstall h hjob fun node tokens upgrading =>
    .fail (cardOf node (some job) tokens upgrading) job.status job.previousStatus rfl hstarted

theorem failNodeUninstall_moves {token detail : String} (h : Owned db)
    (hfail : db.failNodeUninstall token detail now = .ok db') : Effect Γ db db' := by
  simp only [failNodeUninstall, bind_eq_ok] at hfail
  obtain ⟨job, hjob, hfail⟩ := hfail
  have hfind := uninstallJobByToken_eq_ok hjob
  split at hfail
  · obtain rfl := pure_eq_ok.mp hfail
    exact .refl h
  · obtain rfl := pure_eq_ok.mp hfail
    exact .refl h
  · next hrunning =>
    obtain rfl := pure_eq_ok.mp hfail
    exact fail_moves h hfind (.inl hrunning)
  · next hfailed =>
    obtain rfl := pure_eq_ok.mp hfail
    exact fail_moves h hfind (.inr hfailed)
  · cases hfail

/-- The end of an uninstall takes the rest of the node's identity with it. -/
theorem finishNodeUninstall_moves {job : NodeUninstallJob} {status : NodeUninstallJobStatus}
    {forced : Bool} {detail : String} (h : Owned db)
    (hjob : db.nodeUninstallJobs.find? nodeID = some job)
    (hended : job.status.blocksStatus = true ∨ job.status = .forced)
    (hover : status = .succeeded ∨ status = .forced) :
    Effect Γ db (db.finishNodeUninstall nodeID status forced detail now) := by
  obtain ⟨node, hnode⟩ := h.node_of_job hjob
  set g : NodeUninstallJob → NodeUninstallJob := fun job =>
    { job with
      status := status, detail := detail, forced := forced, completedAt := some now,
      updatedAt := now } with hg
  set f : Node → Node := fun node =>
    { node with
      status := .uninstalled, certFingerprint := none, lastError := "", updatedAt := now } with hf
  set db₁ := db.finishNodeUninstall nodeID status forced detail now with hdb₁
  have hmoves : NodeRowMoves db db₁ nodeID f := find?_updateNode db (f := f) (by intro _; rfl)
  have hjobs : ∀ n, db₁.nodeUninstallJobs.find? n = if n = nodeID then
      (db.nodeUninstallJobs.find? n).map g else db.nodeUninstallJobs.find? n :=
    find?_updateUninstallJob db (f := g) (by intro _; rfl)
  have howned : Owned db₁ := by
    have h₂ : Owned ((db.updateUninstallJob nodeID g).updateNode nodeID f) :=
      h.updateUninstallJob.updateNode
    exact ⟨h₂.jobs, fun token htoken => h₂.tokens token (Table.mem_delete.mp htoken).1,
      h₂.upgrades, h₂.nodes⟩
  have hnode' : db₁.nodes.find? nodeID = some (f node) := by
    rw [hmoves, if_pos rfl, hnode]
    rfl
  have htokens : openTokens db₁ nodeID = [] := by
    refine List.eq_nil_iff_forall_not_mem.mpr fun token htoken => ?_
    obtain ⟨row, hrow, hid, -⟩ := mem_openTokens.mp htoken
    exact of_decide_eq_false (Table.mem_delete.mp hrow).2 hid
  have hcard : card db₁ nodeID = some { cardOf node (db.nodeUninstallJobs.find? nodeID)
      (openTokens db nodeID) (db.hasActiveNodeUpgrade nodeID) with
        status := .uninstalled, fingerprint := none, job := some (status, job.previousStatus),
        openTokens := [] } := by
    rw [card_of_find? hnode', htokens, hjobs, if_pos rfl, hjob]
    rfl
  have hbefore : (cardOf node (db.nodeUninstallJobs.find? nodeID) (openTokens db nodeID)
      (db.hasActiveNodeUpgrade nodeID)).job = some (job.status, job.previousStatus) := by
    rw [hjob]
    rfl
  refine .at howned hnode hcard (.step (.finish _ _ _ _ hbefore hended hover)) fun n hn => ?_
  refine card_congr ?_ ?_ ?_ rfl
  · rw [hmoves, if_neg hn]
  · rw [hjobs, if_neg hn]
  · refine openTokens_delete fun token _ hid _ => ?_
    simp [hid, hn]

theorem completeNodeUninstall_moves {token : String} (h : Owned db)
    (hcomplete : db.completeNodeUninstall token now = .ok db') : Effect Γ db db' := by
  simp only [completeNodeUninstall, bind_eq_ok] at hcomplete
  obtain ⟨job, hjob, hcomplete⟩ := hcomplete
  have hfind := uninstallJobByToken_eq_ok hjob
  split at hcomplete
  · obtain rfl := pure_eq_ok.mp hcomplete
    exact .refl h
  · next hforced =>
    simp only [bind_eq_ok, pure_eq_ok] at hcomplete
    obtain ⟨-, -, rfl⟩ := hcomplete
    exact finishNodeUninstall_moves h hfind (.inr hforced) (.inl rfl)
  · next hrunning =>
    obtain rfl := pure_eq_ok.mp hcomplete
    exact finishNodeUninstall_moves h hfind (.inl (by rw [hrunning]; rfl)) (.inl rfl)
  · cases hcomplete

/-! ### All operations -/

theorem nodeOp_moves {op : NodeOp} (h : Owned db)
    (hissued : ∀ n, (Γ n).issued → n ∈ db.issuedIDs)
    (hnew : ∀ n, tokensOf op ⊆ (Γ n).tokens) (hedge : byEdge op = false)
    (happly : op.apply db now = .ok db') : Effect Γ db db' := by
  cases op with
  | createNode id name publicIPv4 =>
    obtain ⟨⟨node, db₁⟩, hcreate, rfl⟩ := map_eq_ok.mp happly
    exact createNode_moves h hissued hcreate
  | setCacheMaxSizeGB nodeID size =>
    simp only [NodeOp.apply, setNodeCacheMaxSizeGB, bind_eq_ok, pure_eq_ok] at happly
    obtain ⟨-, -, -, -, rfl⟩ := happly
    exact .updateFields h fun _ _ _ _ => rfl
  | setNginxCapacity nodeID capacity =>
    simp only [NodeOp.apply, setNodeNginxCapacity, bind_eq_ok, pure_eq_ok] at happly
    obtain ⟨-, -, -, -, rfl⟩ := happly
    exact .updateFields h fun _ _ _ _ => rfl
  | setCapabilities nodeID capabilities =>
    simp only [NodeOp.apply, setNodeCapabilities, bind_eq_ok, pure_eq_ok] at happly
    obtain ⟨-, -, rfl⟩ := happly
    exact .updateFields h fun _ _ _ _ => rfl
  | createEnrollmentToken nodeID token expiresAt =>
    exact createEnrollmentToken_moves h (hnew nodeID (List.mem_singleton_self _)) happly
  | setNodeStatus nodeID status => exact setNodeStatus_moves h happly
  | recordMonitoringRound | heartbeat => cases hedge
  | prepareUninstall nodeID affectedSiteIDs readyAt => exact prepareNodeUninstall_moves h happly
  | issueUninstallToken nodeID token expiresAt => exact issueNodeUninstallToken_moves h happly
  | startUninstall token => exact startNodeUninstall_moves h happly
  | failUninstall token detail => exact failNodeUninstall_moves h happly
  | completeUninstall token => exact completeNodeUninstall_moves h happly
  | forceCompleteUninstall nodeID detail =>
    simp only [NodeOp.apply, forceCompleteNodeUninstall, bind_eq_ok, require_eq_ok,
      nodeUninstallJob_eq_ok, pure_eq_ok, exists_const] at happly
    obtain ⟨job, hjob, hblocks, rfl⟩ := happly
    exact finishNodeUninstall_moves h hjob (.inl hblocks) (.inr rfl)
  | cancelUninstall nodeID => exact cancelNodeUninstall_moves h happly
  | deleteNode nodeID =>
    simp only [NodeOp.apply, bind_eq_ok] at happly
    obtain ⟨-, -, -, -, hdelete⟩ := happly
    exact deleteNode_moves h hdelete

/-! ### Upgrades -/

/-- A change of the upgrade tasks that makes none active. -/
theorem Effect.endUpgrades {tasks : Table NodeUpgradeTask} (h : Owned db)
    (htasks : ∀ task' ∈ tasks, ∃ task ∈ db.nodeUpgradeTasks, task'.nodeID = task.nodeID ∧
      (task'.status.active = true → task.status.active = true)) :
    Effect Γ db { db with nodeUpgradeTasks := tasks } := by
  have howned : Owned { db with nodeUpgradeTasks := tasks } := by
    refine ⟨h.jobs, h.tokens, fun task' htask' => ?_, h.nodes⟩
    obtain ⟨task, htask, hid, -⟩ := htasks task' htask'
    rw [hid]
    exact h.upgrades task htask
  refine ⟨fun n => ?_, howned, List.Subset.refl _⟩
  cases hnode : db.nodes.find? n with
  | none =>
    refine .of_eq ?_
    rw [card_eq_none hnode, card, hnode]
    rfl
  | some node =>
    have hcard : card { db with nodeUpgradeTasks := tasks } n = some (cardOf node
        (db.nodeUninstallJobs.find? n) (openTokens db n)
        (Store.hasActiveNodeUpgrade { db with nodeUpgradeTasks := tasks } n)) := by
      rw [card, hnode]
      rfl
    rw [hcard, card_of_find? hnode]
    cases hactive : Store.hasActiveNodeUpgrade { db with nodeUpgradeTasks := tasks } n with
    | false =>
      exact .step (.endUpgrade (cardOf node (db.nodeUninstallJobs.find? n) (openTokens db n)
        (db.hasActiveNodeUpgrade n)))
    | true =>
      -- the active task was active before
      obtain ⟨task', htask', hp⟩ := Table.any_eq_true.mp hactive
      obtain ⟨task, htask, hid, hwas⟩ := htasks task' htask'
      rw [Bool.and_eq_true, decide_eq_true_eq] at hp
      have hbefore : db.hasActiveNodeUpgrade n = true := by
        refine Table.any_eq_true.mpr ⟨task, htask, ?_⟩
        rw [hwas hp.2, ← hid, hp.1]
        simp
      rw [hbefore]
      exact .keep _

theorem createOrGetNodeUpgrade_moves {id targetSHA256 : String} {deadline : Time} (h : Owned db)
    (hcreate : db.createOrGetNodeUpgrade nodeID id targetSHA256 deadline now = .ok db') :
    Effect Γ db db' := by
  simp only [createOrGetNodeUpgrade, bind_eq_ok, require_eq_ok, exists_const] at hcreate
  obtain ⟨-, hcreate⟩ := hcreate
  split at hcreate
  · obtain rfl := pure_eq_ok.mp hcreate
    exact .refl h
  · simp only [createNodeUpgrade, bind_eq_ok, require_eq_ok, getNode_eq_ok, orError_eq_ok,
      pure_eq_ok, exists_const] at hcreate
    obtain ⟨node, hnode, hupgrade, hstatus, ⟨hfree, -⟩, db₁, hnew, tasks, hinsert, rfl⟩ := hcreate
    obtain ⟨-, rfl⟩ := newID_eq_ok.mp hnew
    have hmem := @Table.mem_of_insert? _ _ _ _ _ _ _ hinsert
    have howned : Owned { db with issuedIDs := id :: db.issuedIDs, nodeUpgradeTasks := tasks } := by
      refine ⟨h.jobs, h.tokens, fun task htask => ?_, fun node hnode =>
        List.mem_cons_of_mem _ (h.nodes node hnode)⟩
      rcases hmem.mp htask with htask | rfl
      · exact h.upgrades task htask
      · exact ⟨node, Table.mem_of_find? hnode, Table.key_of_find? hnode⟩
    have hactive : ∀ n, Store.hasActiveNodeUpgrade
        { db with issuedIDs := id :: db.issuedIDs, nodeUpgradeTasks := tasks } n =
          (db.hasActiveNodeUpgrade n || decide (nodeID = n)) := by
      intro n
      simp only [Store.hasActiveNodeUpgrade, Table.any,
        (Table.insert?_eq_some_iff.mp hinsert).2, List.any_append, List.any_cons, List.any_nil,
        NodeUpgradeStatus.active, Bool.and_true, Bool.or_false]
    have hcard : card { db with issuedIDs := id :: db.issuedIDs, nodeUpgradeTasks := tasks } nodeID =
        some { cardOf node (db.nodeUninstallJobs.find? nodeID) (openTokens db nodeID)
          (db.hasActiveNodeUpgrade nodeID) with upgrading := true } := by
      have hcard : card { db with issuedIDs := id :: db.issuedIDs, nodeUpgradeTasks := tasks }
        nodeID = _ := card_of_find? hnode
      rw [hcard, hactive, decide_eq_true rfl, Bool.or_true]
      rfl
    refine .at howned hnode hcard (.step (.startUpgrade _ hstatus hupgrade ?_)) (fun n hn => ?_)
      (List.subset_cons_self _ _)
    · rw [blocked_cardOf]
      exact hfree
    · refine card_congr rfl rfl rfl ?_
      rw [hactive, decide_eq_false (Ne.symm hn), Bool.or_false]

theorem recordReport_moves {report : Option ApplyReport} (h : Owned db)
    (hrecord : db.recordReport nodeID report now = .ok db') : Effect Γ db db' := by
  cases report with
  | none =>
    obtain rfl := Except.ok.inj hrecord
    exact .refl h
  | some report =>
    simp only [recordReport, recordPublishApply, bind_eq_ok, pure_eq_ok] at hrecord
    obtain ⟨-, -, rfl⟩ := hrecord
    exact .frame h rfl rfl rfl rfl (List.Subset.refl _)

theorem Effect.upgradeRows {tasks : Table NodeUpgradeTask} (h : Owned db)
    (hrows : UpgradeRowsKept db.nodeUpgradeTasks tasks) :
    Effect Γ db { db with nodeUpgradeTasks := tasks } := by
  obtain ⟨F, hrows, hkept⟩ := hrows
  refine .endUpgrades h fun task' htask' => ?_
  rw [Table.mem_iff, hrows] at htask'
  obtain ⟨task, htask, rfl⟩ := List.mem_map.mp htask'
  exact ⟨task, htask, (hkept task htask).nodeID, (hkept task htask).active⟩

theorem recordNodeUpgradeReport_moves {report : NodeUpgradeReport} (h : Owned db)
    (hrecord : db.recordNodeUpgradeReport nodeID report now = .ok db') : Effect Γ db db' := by
  obtain ⟨tasks, rfl, hrows⟩ := recordNodeUpgradeReport_rows hrecord
  exact .upgradeRows h hrows

theorem reconcileNodeUpgrades_moves (h : Owned db) :
    Effect Γ db (db.reconcileNodeUpgrades now) :=
  .upgradeRows h (reconcileNodeUpgrades_rows db now)

end

end SimpleCdn.Lifecycle
