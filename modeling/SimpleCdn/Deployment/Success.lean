import Mathlib
import SimpleCdn.Deployment.Coverage
import SimpleCdn.Deployment.Targets

/-!
# A publish task succeeds when the nodes have applied its publication

A publish task succeeds when all its targets have, and it succeeds at once when it has none.  A
node whose stored state has the content already gets no target, whatever version it has applied;
so after a failed attempt the same publication succeeds on the spot.  In runs where an active node
that keeps its state has applied it (`KeptApplied`), and where a node that turns active while a
task is going on has a target or has applied its state (`NoneJoins`), a task that succeeds tells
that every active node of the old and the new publication has applied the new one.
-/

namespace SimpleCdn.Deployment

open Transition

/-- What the publication asks of the state of a node. -/
def Exact (p : SitePublication) (n : String) (d : DesiredState) : Prop :=
  if n ∈ p.site.nodes then d.Renders p.site p.bundle else ¬ d.serves p.site.id

def TaskSucceeded (db : Store) (taskID : String) : Prop :=
  ∃ task, db.deploymentTasks.find? taskID = some task ∧ task.status = .succeeded

/-- The node has applied a version that is at least that of a state with exactly the publication. -/
def ConfirmedExact (s : State) (p : SitePublication) (node : Node) : Prop :=
  ∃ row ∈ s.savedFor node.id, Exact p node.id row.state ∧ row.state.version ≤ node.appliedVersion

/-- A step in which a publish task succeeds: the active nodes of the old and the new publication
have applied the publication committed with the task. -/
def SucceedsApplied (s : State) (a : Action) : Prop :=
  ∀ commit ∈ (step s a).commits, TaskSucceeded (step s a).store commit.taskID →
    ¬ TaskSucceeded s.store commit.taskID → ∀ node ∈ (step s a).store.nodes.rows,
      node.status = .active → node.id ∈ commit.audience →
        ConfirmedExact (step s a) commit.publication node

/-- When a publication is committed, an active node that keeps its state has applied it. -/
def KeptApplied (s : State) (a : Action) : Prop :=
  (step s a).commits ≠ s.commits → ∀ call ∈ s.rendering a, ∀ node ∈ s.store.nodes.rows,
    node.status = .active → call.serving node = true → call.keeps node = true →
      ∀ staterow ∈ s.store.nodeStates.rows,
        staterow.nodeID = node.id → staterow.state.version ≤ node.appliedVersion

/-- A node that turns active while the task of a publication is going on, old or new, has a target
of it, or was in service at the commit and has applied its stored state. -/
def NoneJoins (s : State) (a : Action) : Prop :=
  ∀ node ∈ (step s a).store.nodes.rows, node.status = .active → ∀ commit ∈ s.commits,
    node.id ∈ commit.audience →
    (s.store.deploymentTasks.find? commit.taskID).any (fun task => task.status.active) = true →
      (∃ old ∈ s.store.nodes.rows, old.id = node.id ∧ old.status = .active) ∨
      (∃ target ∈ s.store.publishTaskNodes.rows, target.taskID = commit.taskID ∧
        target.nodeID = node.id) ∨
      node.id ∉ commit.passedOver ∧ ∀ staterow ∈ s.store.nodeStates.rows,
        staterow.nodeID = node.id → staterow.state.version ≤ node.appliedVersion

def Applies (s : State) (a : Action) : Prop :=
  KeptApplied s a ∧ NoneJoins s a

instance (s : State) (a : Action) : Decidable (KeptApplied s a) := by
  unfold KeptApplied
  infer_instance

instance (s : State) (a : Action) : Decidable (NoneJoins s a) := by
  unfold NoneJoins
  infer_instance

instance (s : State) (a : Action) : Decidable (Applies s a) :=
  inferInstanceAs (Decidable (_ ∧ _))

/-! ### Versions of stored states -/

section Effects

variable {s s' : State} {a : Action} {n : String}

/-- The stored state of a node that is not uninstalled stays, or gets a later version. -/
theorem Effect.state_advances {r : Option RenderCall} (h : Effect r s s') {row : NodeStateRow}
    (hrow : s.store.nodeStates.find? n = some row) {node' : Node}
    (hnode' : s'.store.nodes.find? n = some node') (hstatus : node'.status ≠ .uninstalled) :
    ∃ row', s'.store.nodeStates.find? n = some row' ∧ row.state.version ≤ row'.state.version := by
  have hsame : s'.store.nodeStates = s.store.nodeStates →
      ∃ row', s'.store.nodeStates.find? n = some row' ∧
        row.state.version ≤ row'.state.version := by
    intro hstates
    exact ⟨row, by rw [hstates]; exact hrow, le_rfl⟩
  have hsaves : ∀ {call targets}, Saves r s s' call targets →
      ∃ row', s'.store.nodeStates.find? n = some row' ∧
        row.state.version ≤ row'.state.version := by
    intro call targets hsaves
    rcases hsaves.find?_state n with ⟨node, row', hnode, -, hrow', hrebuilt, -⟩ | ⟨-, hkept⟩
    · refine ⟨row', hrow', ?_⟩
      have hid : node.id = n := Table.key_of_find? hnode
      have hold : call.db.nodeStates.find? node.id = some row := by
        rw [hid, hsaves.base.states]
        exact hrow
      cases hkeeps : call.keeps node with
      | true =>
        rw [Option.some.inj ((hrebuilt.kept hkeeps).symm.trans hold)]
      | false =>
        rw [hrebuilt.changed hkeeps, Store.nodeState, hold]
        exact Nat.le_succ _
    · exact ⟨row, by rw [hkept]; exact hrow, le_rfl⟩
  cases h with
  | tables tables history => exact hsame tables.states
  | site k row' written history => exact hsame written.states
  | publish siteID old now call targets publishes => exact hsaves publishes.toSaves
  | rebuild call targets rebuilds => exact hsaves rebuilds.toSaves
  | begin siteID taskID old begins => exact hsame begins.states
  | stage siteID taskID old now call targets stages => exact hsaves stages.toSaves
  | confirm siteID taskID confirms history => exact hsame confirms.states
  | remove siteID taskID removes history => exact hsame removes.states
  | node effect history =>
    rcases effect.state n with hkept | ⟨-, hgone⟩
    · exact ⟨row, by rw [hkept]; exact hrow, le_rfl⟩
    · exact absurd (hgone node' hnode') hstatus

theorem Effect.mem_savedFor {r : Option RenderCall} (h : Effect r s s') {row : NodeStateRow}
    (hrow : row ∈ s.savedFor n) : row ∈ s'.savedFor n := by
  rw [h.savedFor]
  exact List.mem_append_right _ hrow

theorem Tracked.mem_savedFor (h : Tracked s) {row : NodeStateRow}
    (hrow : s.store.nodeStates.find? n = some row) : row ∈ s.savedFor n := by
  obtain ⟨earlier, hsaved⟩ := h.latest n row hrow
  rw [hsaved]
  exact List.mem_cons_self

theorem Effect.commits_cases {r : Option RenderCall} (h : Effect r s s') :
    s'.commits = s.commits ∨ ∃ siteID row now call targets taskID,
      Publishes r s s' siteID row now call targets ∧ NewPublish s s' taskID targets ∧
      s'.commits = ⟨taskID, s.store.snapshot row now, call.affected, call.passedOver⟩ :: s.commits := by
  cases h with
  | tables tables history => exact .inl history.commits
  | site id row' written history => exact .inl history.commits
  | publish siteID row now call targets publishes =>
    obtain ⟨taskID, hnew, hcommits⟩ := publishes.committed
    exact .inr ⟨siteID, row, now, call, targets, taskID, publishes, hnew, hcommits⟩
  | rebuild call targets rebuilds => exact .inl rebuilds.commits
  | begin siteID taskID row begins => exact .inl begins.commits
  | stage siteID taskID row now call targets stages => exact .inl stages.commits
  | confirm siteID taskID confirms history => exact .inl history.commits
  | remove siteID taskID removes history => exact .inl history.commits
  | node effect history => exact .inl history.commits

/-! ### The invariant -/

/-- A target of the commit's task stands for a saved state with exactly the publication. -/
def TargetsExact (s : State) (commit : Commit) : Prop :=
  ∀ target ∈ s.store.publishTaskNodes, target.taskID = commit.taskID →
    ∃ row ∈ s.savedFor target.nodeID, Exact commit.publication target.nodeID row.state ∧
      row.state.version ≤ target.targetVersion

/-- A node that was in service at the commit stores that state, or a later one. -/
def StoresExact (s : State) (commit : Commit) : Prop :=
  ∀ n ∈ commit.audience, ∀ node, s.store.nodes.find? n = some node → node.status ≠ .uninstalled →
    n ∉ commit.passedOver → ∃ row ∈ s.savedFor n, Exact commit.publication n row.state ∧
      ∃ stored, s.store.nodeStates.find? n = some stored ∧
        row.state.version ≤ stored.state.version

/-- An active node has a target, or has applied the publication. -/
def ActiveCounted (s : State) (commit : Commit) : Prop :=
  ∀ n ∈ commit.audience, ∀ node, s.store.nodes.find? n = some node → node.status = .active →
    (∃ target ∈ s.store.publishTaskNodes, target.taskID = commit.taskID ∧ target.nodeID = n) ∨
    ∃ row ∈ s.savedFor n, Exact commit.publication n row.state ∧
      row.state.version ≤ node.appliedVersion

/-- The task of the commit is still going on. -/
def Pending (db : Store) (commit : Commit) : Prop :=
  ∃ task, db.deploymentTasks.find? commit.taskID = some task ∧ task.status.active = true

structure CommitTracked (s : State) (commit : Commit) : Prop where
  task : ∃ task, s.store.deploymentTasks.find? commit.taskID = some task ∧
    task.kind = .publishSite
  issued : commit.audience ⊆ s.store.issuedIDs
  target : TargetsExact s commit
  stored : StoresExact s commit
  counted : Pending s.store commit → ActiveCounted s commit

/-- When all its targets have succeeded, the active nodes have applied the publication. -/
theorem ActiveCounted.confirmed {commit : Commit} (h : ActiveCounted s commit)
    (htracked : Tracked s) (htarget : TargetsExact s commit)
    (hsucceeded : ∀ target ∈ s.store.publishTaskNodes, target.taskID = commit.taskID →
      target.status = .succeeded) {node : Node} (hnode : node ∈ s.store.nodes.rows)
    (hactive : node.status = .active) (haudience : node.id ∈ commit.audience) :
    ConfirmedExact s commit.publication node := by
  have hfind : s.store.nodes.find? node.id = some node := Table.find?_of_mem hnode
  rcases h node.id haudience node hfind hactive with ⟨target, hmem, htask, hid⟩ | hconfirmed
  · obtain ⟨row, hrow, hexact, hle⟩ := htarget target hmem htask
    have happlied := htracked.applied target hmem (hsucceeded target hmem htask) node
      (by rw [hid]; exact hfind)
    rw [hid] at hrow hexact
    exact ⟨row, hrow, hexact, hle.trans happlied⟩
  · exact hconfirmed

/-! ### A commit that was there before -/

theorem CommitTracked.stored_next {commit : Commit} (h : CommitTracked s commit)
    {r : Option RenderCall} (heffect : Effect r s s') : StoresExact s' commit := by
  intro n haudience node' hnode' hstatus hpassed
  rcases heffect.node_cases hnode' with ⟨node, hnode, hkept⟩ | ⟨hfresh, -⟩
  · obtain ⟨row, hrow, hexact, stored, hstored, hle⟩ := h.stored n haudience node hnode
      (fun huninstalled => hstatus (hkept.uninstalled huninstalled)) hpassed
    obtain ⟨stored', hstored', hle'⟩ := heffect.state_advances hstored hnode' hstatus
    exact ⟨row, heffect.mem_savedFor hrow, hexact, stored', hstored', hle.trans hle'⟩
  · exact absurd (h.issued haudience) hfresh

/-- The targets of a task that is not new were there before. -/
theorem CommitTracked.target_before {commit : Commit} (h : CommitTracked s commit)
    {new : List PublishTaskNodeRow} (hsettles : Store.Settles new s.store s'.store)
    (hnew : ∀ row ∈ new, s.store.deploymentTasks.find? row.taskID = none ∨
      ∃ task, s.store.deploymentTasks.find? row.taskID = some task ∧ task.kind = .deleteSite)
    {target' : PublishTaskNodeRow} (hmem : target' ∈ s'.store.publishTaskNodes)
    (htask : target'.taskID = commit.taskID) :
    ∃ target ∈ s.store.publishTaskNodes, target.taskID = commit.taskID ∧
      target.nodeID = target'.nodeID ∧ Store.TargetMoves s'.store target target' := by
  rcases hsettles.target _ target' (Table.find?_of_mem hmem) with ⟨target, hfind, hmove⟩ | ⟨-, hrow⟩
  · exact ⟨target, Table.mem_of_find? hfind, (Store.taskID_of_find? hfind).trans htask,
      Store.nodeID_of_find? hfind, hmove⟩
  · obtain ⟨task, hfind, hkind⟩ := h.task
    have hno := hnew target' hrow
    rw [htask, hfind] at hno
    rcases hno with hno | ⟨task', heq, hdelete⟩
    · cases hno
    · rw [← Option.some.inj heq, hkind] at hdelete
      cases hdelete

/-- The targets an action creates belong to a new task or to a deletion. -/
theorem Effect.settles_new {r : Option RenderCall} (h : Effect r s s') (hs : Consistent s.store) :
    ∃ new, Store.Settles new s.store s'.store ∧
      ∀ row ∈ new, s.store.deploymentTasks.find? row.taskID = none ∨
        ∃ task, s.store.deploymentTasks.find? row.taskID = some task ∧ task.kind = .deleteSite := by
  cases h with
  | tables tables history => exact ⟨[], history.settles, by nofun⟩
  | site id row' written history => exact ⟨[], history.settles, by nofun⟩
  | publish siteID row now call targets publishes =>
    obtain ⟨taskID, hnew, -⟩ := publishes.committed
    refine ⟨_, hnew.settles, fun row hrow => ?_⟩
    obtain ⟨target, -, rfl⟩ := Store.mem_targetRows.mp hrow
    exact .inl hnew.fresh
  | rebuild call targets rebuilds => exact ⟨[], rebuilds.settles, by nofun⟩
  | begin siteID taskID row begins => exact ⟨[], begins.settles, by nofun⟩
  | stage siteID taskID row now call targets stages =>
    refine ⟨_, stages.settles, fun row hrow => ?_⟩
    obtain ⟨target, -, rfl⟩ := Store.mem_targetRows.mp hrow
    obtain ⟨task, htask, hkind, -⟩ := hs.deletionTask siteID taskID _ stages.phase
    exact .inr ⟨task, htask, hkind⟩
  | confirm siteID taskID confirms history => exact ⟨[], history.settles, by nofun⟩
  | remove siteID taskID removes history => exact ⟨[], history.settles, by nofun⟩
  | node effect history => exact ⟨[], history.settles, by nofun⟩

theorem CommitTracked.target_next {commit : Commit} (h : CommitTracked s commit)
    {r : Option RenderCall} (heffect : Effect r s s') (hs : Consistent s.store) :
    TargetsExact s' commit := by
  obtain ⟨new, hsettles, hnew⟩ := heffect.settles_new hs
  intro target' hmem htask
  obtain ⟨target, hmem', htask', hnode, hmove⟩ := h.target_before hsettles hnew hmem htask
  obtain ⟨row, hrow, hexact, hle⟩ := h.target target hmem' htask'
  rw [hnode] at hrow hexact
  rw [← hmove.version] at hle
  exact ⟨row, heffect.mem_savedFor hrow, hexact, hle⟩

/-- A step of an unfinished task, the last one included. -/
theorem CommitTracked.counted_next {commit : Commit} (h : CommitTracked s commit)
    {r : Option RenderCall} (heffect : Effect r s s') (hs' : s' = step s a)
    (hmem : commit ∈ s.commits) (hguard : NoneJoins s a) (hpending : Pending s.store commit) :
    ActiveCounted s' commit := by
  obtain ⟨new, hsettles, -⟩ := heffect.settles
  intro n haudience node' hnode' hactive
  have hid : node'.id = n := Table.key_of_find? hnode'
  have hkept : ∀ target ∈ s.store.publishTaskNodes, target.taskID = commit.taskID →
      target.nodeID = n →
      ∃ target' ∈ s'.store.publishTaskNodes, target'.taskID = commit.taskID ∧ target'.nodeID = n := by
    intro target htarget htask hn
    rcases hsettles.targetKept _ target (Table.find?_of_mem htarget) with ⟨target', hfind⟩ | hgone
    · exact ⟨target', Table.mem_of_find? hfind, (Store.taskID_of_find? hfind).trans htask,
        (Store.nodeID_of_find? hfind).trans hn⟩
    · rw [hn, hnode'] at hgone
      cases hgone
  have hjoined : (∃ old ∈ s.store.nodes.rows, old.id = n ∧ old.status = .active) ∨
      (∃ target ∈ s.store.publishTaskNodes.rows, target.taskID = commit.taskID ∧
        target.nodeID = n) ∨
      n ∉ commit.passedOver ∧ ∀ staterow ∈ s.store.nodeStates.rows,
        staterow.nodeID = n → staterow.state.version ≤ node'.appliedVersion := by
    obtain ⟨task, htask, hgoing⟩ := hpending
    rw [← hid]
    refine hguard node' (by rw [← hs']; exact Table.mem_of_find? hnode') hactive commit hmem
      (by rw [hid]; exact haudience) ?_
    rw [htask]
    exact hgoing
  rcases hjoined with ⟨old, hold, hkey, hwas⟩ | ⟨target, htarget, htask, hn⟩ | ⟨hpassed, hle⟩
  · rcases heffect.node_cases hnode' with ⟨node, hnode, hadvance⟩ | ⟨-, hnew⟩
    · have hfind := Table.find?_of_mem (T := s.store.nodes) hold
      rw [key_node, hkey, hnode] at hfind
      rw [← Option.some.inj hfind] at hwas
      rcases h.counted hpending n haudience node hnode hwas with
        ⟨target, htarget, htask, hn⟩ | ⟨row, hrow, hexact, hle⟩
      · exact .inl (hkept target htarget htask hn)
      · exact .inr ⟨row, heffect.mem_savedFor hrow, hexact, hle.trans hadvance.applied⟩
    · rw [hactive] at hnew
      cases hnew
  · exact .inl (hkept target htarget htask hn)
  · right
    rcases heffect.node_cases hnode' with ⟨node, hnode, hadvance⟩ | ⟨-, hnew⟩
    · have hstatus : node.status ≠ .uninstalled := by
        intro huninstalled
        have := hadvance.uninstalled huninstalled
        rw [hactive] at this
        cases this
      obtain ⟨row, hrow, hexact, stored, hstored, hversion⟩ :=
        h.stored n haudience node hnode hstatus hpassed
      exact ⟨row, heffect.mem_savedFor hrow, hexact, hversion.trans
        (hle stored (Table.mem_of_find? hstored) (Table.key_of_find? hstored))⟩
    · rw [hactive] at hnew
      cases hnew

end Effects

/-! ### A new commit -/

section Commits

variable {s s' : State} {a : Action} {siteID taskID : String} {row : Site} {now : Time}
  {call : RenderCall} {targets : List PublishTaskNode}

/-- Only existing nodes are affected. -/
theorem Publishes.affected_issued
    (h : Publishes (s.rendering a) s s' siteID row now call targets) (hs : Consistent s.store) :
    call.affected ⊆ s.store.issuedIDs := by
  intro n hn
  have hexists : ∃ node, s.store.nodes.find? n = some node := by
    rw [h.site.affected, prepareAffected, List.mem_append, List.mem_append] at hn
    rcases hn with (hn | hn) | hn
    · obtain ⟨p, hp, hn⟩ := List.mem_flatMap.mp hn
      have hmem : p ∈ s.store.sitePublications := by
        rw [← h.base.publications]
        exact mem_listSitePublications.mp (List.mem_of_mem_filter hp)
      exact hs.publicationNodes _ p (Table.find?_of_mem hmem) n hn
    · exact hs.draftNodes siteID row h.found n hn
    · split at hn
      · obtain ⟨node, hnode, rfl⟩ := List.mem_map.mp hn
        rw [mem_listNodes, h.base.nodes] at hnode
        exact ⟨node, Table.find?_of_mem hnode⟩
      · cases hn
  obtain ⟨node, hnode⟩ := hexists
  exact hs.nodeIssued n node hnode

/-- What the call renders is exactly the publication it commits. -/
theorem Publishes.exact (h : Publishes (s.rendering a) s s' siteID row now call targets)
    {n : String} {d : DesiredState} (hcontent : Content call.materials n d) :
    Exact (s.store.snapshot row now) n d := by
  have hid : row.id = siteID := Table.key_of_find? h.found
  have hsnapshot : call.db.snapshot row now = s.store.snapshot row now := by
    rw [Store.snapshot, Store.snapshot, h.base.certificates]
  rw [Exact]
  split
  · next hn =>
    have hmem := (h.site.material _).mpr ⟨h.live, .inr ⟨rfl, rfl⟩⟩
    have hrenders := hcontent.renders _ hmem hn
    rw [hsnapshot] at hrenders
    exact (standsFor_snapshot s.store row now).renders d hrenders
  · next hn =>
    intro hserves
    obtain ⟨material, hmem, hlisted, hmid, -⟩ := hcontent.serves _ hserves
    rcases ((h.site.material material).mp hmem).2 with ⟨p, -, hne, rfl⟩ | ⟨-, rfl⟩
    · exact hne hmid
    · exact hn hlisted

/-- The stored state of an affected node in service, after the commit. -/
theorem Publishes.stored (h : Publishes (s.rendering a) s s' siteID row now call targets)
    {n : String} (haffected : n ∈ call.affected) {node : Node}
    (hnode : s.store.nodes.find? n = some node) (hstatus : node.status.retired = false) :
    ∃ staterow, s'.store.nodeStates.find? n = some staterow ∧
      Exact (s.store.snapshot row now) n staterow.state ∧
      (node.status = .active → call.keeps node = false →
        ⟨n, staterow.state.version⟩ ∈ targets) ∧
      (call.keeps node = true → s.store.nodeStates.find? n = some staterow) := by
  have hid : node.id = n := Table.key_of_find? hnode
  have hserving : call.serving node = true :=
    RenderCall.serving_iff.mpr ⟨by rw [hid]; exact haffected, hstatus⟩
  have hmem : node ∈ call.db.nodes := by
    rw [h.base.nodes]
    exact Table.mem_of_find? hnode
  obtain ⟨staterow, hrow, hrebuilt, htarget⟩ := h.rebuilt.serving node hmem hserving
  have hkept := hrebuilt.kept
  have hexact := h.exact hrebuilt.content
  rw [hid] at hrow htarget hkept hexact
  rw [h.base.states] at hkept
  exact ⟨staterow, hrow, hexact, htarget, hkept⟩

/-- An active node has a target of the new task, or keeps a state it has applied. -/
theorem Publishes.counted (h : Publishes (s.rendering a) s s' siteID row now call targets)
    (hnew : NewPublish s s' taskID targets) (htracked' : Tracked s') (hs' : s' = step s a)
    (hcommits : s'.commits =
      ⟨taskID, s.store.snapshot row now, call.affected, call.passedOver⟩ :: s.commits)
    (hguard : KeptApplied s a) :
    ActiveCounted s' ⟨taskID, s.store.snapshot row now, call.affected, call.passedOver⟩ := by
  intro n haffected node hnode hactive
  rw [h.nodes] at hnode
  have hid : node.id = n := Table.key_of_find? hnode
  obtain ⟨staterow, hrow, hexact, htarget, hkept⟩ :=
    h.stored haffected hnode (by rw [hactive]; rfl)
  cases hkeeps : call.keeps node with
  | false =>
    left
    have hcreated := hnew.settles.created _
      (Store.mem_targetRows.mpr ⟨_, htarget hactive hkeeps, rfl⟩)
    exact ⟨_, Table.mem_of_find? hcreated, rfl, rfl⟩
  | true =>
    right
    have hold := hkept hkeeps
    have hne : (step s a).commits ≠ s.commits := by
      rw [← hs', hcommits]
      exact List.cons_ne_self _ _
    have hserving : call.serving node = true :=
      RenderCall.serving_iff.mpr ⟨by rw [hid]; exact haffected, by rw [hactive]; rfl⟩
    exact ⟨staterow, htracked'.mem_savedFor hrow, hexact, hguard hne call h.rendering node
      (Table.mem_of_find? hnode) hactive hserving hkeeps staterow (Table.mem_of_find? hold)
      ((Table.key_of_find? hold).trans hid.symm)⟩

theorem Publishes.commitTracked
    (h : Publishes (s.rendering a) s s' siteID row now call targets)
    (hnew : NewPublish s s' taskID targets) (hs : Consistent s.store) (htracked : Tracked s)
    (htracked' : Tracked s') (hs' : s' = step s a)
    (hcommits : s'.commits =
      ⟨taskID, s.store.snapshot row now, call.affected, call.passedOver⟩ :: s.commits)
    (hguard : KeptApplied s a) :
    CommitTracked s' ⟨taskID, s.store.snapshot row now, call.affected, call.passedOver⟩ := by
  -- the targets of the new task are those of the call
  have htargets : ∀ target' ∈ s'.store.publishTaskNodes, target'.taskID = taskID →
      ∃ target ∈ targets, target'.nodeID = target.nodeID ∧
        target'.targetVersion = target.targetVersion := by
    intro target' hmem htask
    rcases hnew.settles.target _ target' (Table.find?_of_mem hmem) with ⟨target, hfind, -⟩ | ⟨-, hrow⟩
    · obtain ⟨task, hold⟩ := htracked.task target (Table.mem_of_find? hfind)
      have hid : target.taskID = target'.taskID := Store.taskID_of_find? hfind
      rw [hid, htask, hnew.fresh] at hold
      cases hold
    · obtain ⟨target, htarget, rfl⟩ := Store.mem_targetRows.mp hrow
      exact ⟨target, htarget, rfl, rfl⟩
  constructor
  case task =>
    obtain ⟨task, htask, hkind, -⟩ := hnew.task
    exact ⟨task, htask, hkind⟩
  case issued => exact List.Subset.trans (h.affected_issued hs) h.issued
  case target =>
    intro target' hmem htask
    obtain ⟨target, htarget, hn, hversion⟩ := htargets target' hmem htask
    obtain ⟨node, hnode, hid, hserving, -, -, staterow, hfind, hsaved⟩ :=
      h.rebuilt.target target htarget
    obtain ⟨staterow', hfind', hrebuilt, -⟩ := h.rebuilt.serving node hnode hserving
    obtain rfl := Option.some.inj (hfind'.symm.trans hfind)
    have hexact := h.exact hrebuilt.content
    rw [hid, ← hn] at hfind hexact
    exact ⟨staterow', htracked'.mem_savedFor hfind, hexact, by rw [hversion, hsaved]⟩
  case stored =>
    intro n haffected node hnode hstatus hpassed
    rw [h.nodes] at hnode
    have hservice : node.status.retired = false := by
      by_contra hretired
      rw [Bool.not_eq_false] at hretired
      exact hpassed (RenderCall.mem_passedOver.mpr ⟨haffected, node,
        by rw [h.base.nodes]; exact hnode, hretired⟩)
    obtain ⟨staterow, hrow, hexact, -, -⟩ := h.stored haffected hnode hservice
    exact ⟨staterow, htracked'.mem_savedFor hrow, hexact, staterow, hrow, le_rfl⟩
  case counted => exact fun _ => h.counted hnew htracked' hs' hcommits hguard

end Commits

/-! ### Runs -/

def CommitsTracked (s : State) : Prop :=
  ∀ commit ∈ s.commits, CommitTracked s commit

theorem commitsTracked_initial : CommitsTracked initial := by
  intro commit hmem
  cases hmem

section Runs

variable {s : State} {a : Action}

/-- An old commit after a step. -/
theorem CommitTracked.next {commit : Commit} (h : CommitTracked s commit) (hs : WellFormed s)
    (hmem : commit ∈ s.commits) (hguard : NoneJoins s a) : CommitTracked (step s a) commit := by
  have heffect := step_effect hs a
  obtain ⟨task, htask, hkind⟩ := h.task
  obtain ⟨task', htask', hkind', -⟩ := heffect.tasksKept commit.taskID task htask
  refine ⟨⟨task', htask', hkind'.trans hkind⟩, List.Subset.trans h.issued heffect.issued,
    h.target_next heffect hs.tables, h.stored_next heffect, ?_⟩
  rintro ⟨after, hafter, hactive⟩
  refine h.counted_next heffect rfl hmem hguard ⟨task, htask, ?_⟩
  -- a task that has ended does not start again
  obtain ⟨new, hsettles, -⟩ := heffect.settles
  obtain rfl := Option.some.inj (hafter.symm.trans htask')
  rcases hsettles.task commit.taskID after htask' (hkind'.trans hkind) with hnone |
    ⟨before, hbefore, hmove⟩
  · rw [hnone] at htask
    cases htask
  · obtain rfl := Option.some.inj (hbefore.symm.trans htask)
    rcases hmove.status with hsame | hends
    · rw [← hsame]
      exact hactive
    · exact hends.active

theorem commitsTracked_step (hs : WellFormed s) (htracked : Tracked s) (h : CommitsTracked s)
    (hguard : Applies s a) : CommitsTracked (step s a) := by
  intro commit hmem
  rcases (step_effect hs a).commits_cases with hsame |
    ⟨siteID, row, now, call, targets, taskID, hpublishes, hnew, hcommits⟩
  · rw [hsame] at hmem
    exact (h commit hmem).next hs hmem hguard.2
  · rw [hcommits, List.mem_cons] at hmem
    rcases hmem with rfl | hmem
    · exact hpublishes.commitTracked hnew hs.tables htracked (tracked_step hs htracked a) rfl
        hcommits hguard.1
    · exact (h commit hmem).next hs hmem hguard.2

/-- A publish task that succeeds: in a run so far, and in this step. -/
theorem CommitsTracked.succeedsApplied (hs : WellFormed s) (htracked : Tracked s)
    (h : CommitsTracked s) (hguard : Applies s a) : SucceedsApplied s a := by
  intro commit hmem hsucceeded hbefore node hnode hactive haudience
  have heffect := step_effect hs a
  have htracked' := tracked_step hs htracked a
  obtain ⟨task', htask', hdone⟩ := hsucceeded
  -- a commit that was there before: its task ends in this step
  have hold : commit ∈ s.commits → ConfirmedExact (step s a) commit.publication node := by
    intro hmem
    have hcommit := h commit hmem
    obtain ⟨task, htask, hkind⟩ := hcommit.task
    obtain ⟨new, hsettles, -⟩ := heffect.settles
    obtain ⟨after, hafter, hkind', -⟩ := heffect.tasksKept commit.taskID task htask
    obtain rfl := Option.some.inj (hafter.symm.trans htask')
    rcases hsettles.task commit.taskID after htask' (hkind'.trans hkind) with hnone |
      ⟨before, hfind, hmove⟩
    · rw [hnone] at htask
      cases htask
    · have hid : after.id = commit.taskID := Table.key_of_find? htask'
      rcases hmove.status with hsame | hends
      · exact absurd ⟨before, hfind, hsame.symm.trans hdone⟩ hbefore
      · have hcounted := hcommit.counted_next heffect rfl hmem hguard.2
          ⟨before, hfind, hends.active⟩
        exact hcounted.confirmed htracked' (hcommit.target_next heffect hs.tables)
          (fun target htarget htask => hends.succeeded hdone target htarget (htask.trans hid.symm))
          hnode hactive haudience
  rcases heffect.commits_cases with hsame |
    ⟨siteID, row, now, call, targets, taskID, hpublishes, hnew, hcommits⟩
  · rw [hsame] at hmem
    exact hold hmem
  · rw [hcommits, List.mem_cons] at hmem
    rcases hmem with rfl | hmem
    · -- a task that is new and has succeeded has no targets
      obtain ⟨task, htask, -, hnone⟩ := hnew.task
      obtain rfl := Option.some.inj (htask.symm.trans htask')
      obtain rfl := hnone hdone
      have hcommit := hpublishes.commitTracked hnew hs.tables htracked htracked' rfl hcommits
        hguard.1
      refine (hpublishes.counted hnew htracked' rfl hcommits hguard.1).confirmed htracked'
        hcommit.target ?_ hnode hactive haudience
      intro target htarget htask
      rcases hnew.settles.target _ target (Table.find?_of_mem htarget) with ⟨old, hfind, -⟩ | ⟨-, hrow⟩
      · obtain ⟨task, hold⟩ := htracked.task old (Table.mem_of_find? hfind)
        have hid : old.taskID = target.taskID := Store.taskID_of_find? hfind
        rw [hid, htask, hnew.fresh] at hold
        cases hold
      · cases hrow
    · exact hold hmem

end Runs

/-- In a run in which the nodes that keep their state have applied it and none joins unconfirmed,
a publish task only succeeds when the active nodes have applied its publication. -/
theorem succeedsApplied_of_applies {as : List Action} (h : Along step Applies initial as) :
    Along step SucceedsApplied initial as :=
  h.of_invariant (P := fun s => WellFormed s ∧ Tracked s ∧ CommitsTracked s)
    (fun s a hs hguard => ⟨step_wellFormed hs.1 a, tracked_step hs.1 hs.2.1 a,
      commitsTracked_step hs.1 hs.2.1 hs.2.2 hguard⟩)
    (fun _ _ hs hguard => hs.2.2.succeedsApplied hs.1 hs.2.1 hguard)
    ⟨wellFormed_initial, tracked_initial, commitsTracked_initial⟩

set_option maxRecDepth 20000 in
theorem publishedTwice_succeedsApplied :
    Along step SucceedsApplied initial (publishedTwice ++ [applied "edge" 2 7]) :=
  succeedsApplied_of_applies (by decide)

/-- The edge reports that it cannot apply the publication; the site is published again. -/
def publishedAgain : List Action :=
  enrolled "edge" ++
    [.createSite "site" (forwardDraft "site" ["edge"] 9000 1) "zone" 2, .publishSite "site" "task" 3,
      .node (.heartbeat "edge" 0 "" (some ⟨1, .failed, "nginx", "reload failed"⟩) "" "" "") 4]

set_option maxRecDepth 20000 in
/-- The second task succeeds while the edge has applied nothing. -/
theorem publishedAgain_not_applied :
    ¬ Along step SucceedsApplied initial
      (publishedAgain ++ [.publishSite "site" "second" 5]) := by
  rw [along_append]
  rintro ⟨-, hlast, -⟩
  -- the second commit, its task and the edge
  have hcommit : ∃ commit ∈ (step (run step initial publishedAgain)
      (.publishSite "site" "second" 5)).commits,
      commit.taskID = "second" ∧ "edge" ∈ commit.audience := by decide
  have hafter : ((step (run step initial publishedAgain)
      (.publishSite "site" "second" 5)).store.deploymentTasks.find? "second").any
        (fun task => task.status = .succeeded) = true := by decide
  have hbefore : (run step initial publishedAgain).store.deploymentTasks.find? "second" = none := by
    decide
  have hnode : ∃ node ∈ (step (run step initial publishedAgain)
      (.publishSite "site" "second" 5)).store.nodes.rows, node.id = "edge" ∧
        node.status = .active ∧ node.appliedVersion = 0 := by decide
  have hsaved : ∀ row ∈ (step (run step initial publishedAgain)
      (.publishSite "site" "second" 5)).savedFor "edge", row.state.version = 1 := by decide
  obtain ⟨commit, hmem, htask, haudience⟩ := hcommit
  obtain ⟨node, hmem', hid, hactive, happlied⟩ := hnode
  rw [Option.any_eq_true] at hafter
  obtain ⟨task, hfind, hdone⟩ := hafter
  obtain ⟨row, hrow, -, hle⟩ := hlast commit hmem
    (by rw [htask]; exact ⟨task, hfind, by simpa using hdone⟩)
    (by
      rw [htask]
      rintro ⟨old, hold, -⟩
      rw [hbefore] at hold
      cases hold)
    node hmem' hactive (by rw [hid]; exact haudience)
  rw [hid] at hrow
  rw [hsaved row hrow, happlied] at hle
  cases hle

end SimpleCdn.Deployment
