import SimpleCdn.Deployment.Steps

/-!
# Targets, saved states and applied versions

A target succeeds when its node has applied the target version.  `Tracked` says what that means
over a run: applied versions never fall below a target that has succeeded, a target belongs to a
task that exists and to a node whose identifier is never given again, and the stored state of a
node is the last one that was saved for it.
-/

namespace SimpleCdn

/-- The rows of a table with one key. -/
theorem Table.filter_key {ρ κ : Type*} [Keyed ρ κ] [DecidableEq κ] (T : Table ρ) (k : κ) :
    (T.rows.filter fun row => key row = k) = (T.find? k).toList := by
  have hfirst : T.find? k = (T.rows.filter fun row => key row = k).head? :=
    List.head?_filter.symm
  have hnodup : (T.rows.filter fun row => key row = k).Nodup := T.nodup.of_map.filter _
  rw [hfirst]
  cases hrows : T.rows.filter fun row => key row = k with
  | nil => rfl
  | cons row rows =>
    cases rows with
    | nil => rfl
    | cons row' rows =>
      -- two rows with this key are one
      have hmem : ∀ x, x ∈ row :: row' :: rows → x ∈ T ∧ key x = k := by
        intro x hx
        rw [← hrows, List.mem_filter, decide_eq_true_eq] at hx
        exact hx
      have hrow := hmem row (by simp)
      have hrow' := hmem row' (by simp)
      rw [hrows, Table.eq_of_key_eq hrow.1 hrow'.1 (hrow.2.trans hrow'.2.symm)] at hnodup
      simp at hnodup

namespace Deployment

/-- The states saved for a node, the latest first. -/
def State.savedFor (s : State) (n : String) : List NodeStateRow :=
  s.saved.filter fun row => row.nodeID = n

/-! ### What every effect does -/

section Effects

variable {r : Option RenderCall} {s s' : State}

theorem Effect.settles (h : Effect r s s') :
    ∃ new, Store.Settles new s.store s'.store ∧ ∀ row ∈ new, row.status = .pending := by
  have hpending : ∀ taskID targets, ∀ row ∈ Store.targetRows taskID targets,
      row.status = .pending := by
    intro taskID targets row hrow
    obtain ⟨target, -, rfl⟩ := Store.mem_targetRows.mp hrow
    rfl
  cases h with
  | tables tables history => exact ⟨[], history.settles, by nofun⟩
  | site id row' written history => exact ⟨[], history.settles, by nofun⟩
  | publish siteID row now call targets publishes =>
    obtain ⟨taskID, hnew, -⟩ := publishes.committed
    exact ⟨_, hnew.settles, hpending taskID targets⟩
  | rebuild call targets rebuilds => exact ⟨[], rebuilds.settles, by nofun⟩
  | begin siteID taskID row begins => exact ⟨[], begins.settles, by nofun⟩
  | stage siteID taskID row now call targets stages =>
    exact ⟨_, stages.settles, hpending taskID targets⟩
  | confirm siteID taskID confirms history => exact ⟨[], history.settles, by nofun⟩
  | remove siteID taskID removes history => exact ⟨[], history.settles, by nofun⟩
  | node effect history => exact ⟨[], history.settles, by nofun⟩

theorem Effect.issued (h : Effect r s s') : s.store.issuedIDs ⊆ s'.store.issuedIDs := by
  cases h with
  | tables tables history => exact tables.issued
  | site id row' written history => exact written.issued
  | publish siteID row now call targets publishes => exact publishes.issued
  | rebuild call targets rebuilds => exact rebuilds.issued
  | begin siteID taskID row begins => exact begins.issued
  | stage siteID taskID row now call targets stages => exact stages.issued
  | confirm siteID taskID confirms history => exact confirms.issued
  | remove siteID taskID removes history => exact removes.issued
  | node effect history => exact effect.issued

/-- A node was there before, or it is new and waits for its first report. -/
theorem Effect.node_cases (h : Effect r s s') {n : String} {node' : Node}
    (hnode' : s'.store.nodes.find? n = some node') :
    (∃ node, s.store.nodes.find? n = some node ∧ Store.NodeKept node node') ∨
      (n ∉ s.store.issuedIDs ∧ node'.status = .pending) := by
  have hsame : s'.store.nodes = s.store.nodes →
      (∃ node, s.store.nodes.find? n = some node ∧ Store.NodeKept node node') ∨
        (n ∉ s.store.issuedIDs ∧ node'.status = .pending) := by
    intro hnodes
    rw [hnodes] at hnode'
    exact .inl ⟨node', hnode', .refl node'⟩
  cases h with
  | tables tables history => exact hsame tables.nodes
  | site id row' written history => exact hsame written.nodes
  | publish siteID row now call targets publishes => exact hsame publishes.nodes
  | rebuild call targets rebuilds => exact hsame rebuilds.nodes
  | begin siteID taskID row begins => exact hsame begins.nodes
  | stage siteID taskID row now call targets stages => exact hsame stages.nodes
  | confirm siteID taskID confirms history => exact hsame confirms.nodes
  | remove siteID taskID removes history => exact hsame removes.nodes
  | node effect history =>
    rcases effect.node n node' hnode' with hkept | ⟨-, hfresh, -, hpending⟩
    · exact .inl hkept
    · exact .inr ⟨hfresh, hpending⟩

/-- Every row of `node_states` that an action writes is recorded. -/
theorem Effect.saved (h : Effect r s s') : s'.saved = s.newRows s'.store ++ s.saved := by
  have hsame : s'.store.nodeStates = s.store.nodeStates → s'.saved = s.saved →
      s'.saved = s.newRows s'.store ++ s.saved := by
    intro hstates hsaved
    rw [newRows_eq_nil hstates, hsaved, List.nil_append]
  cases h with
  | tables tables history => exact hsame tables.states history.saved
  | site id row' written history => exact hsame written.states history.saved
  | publish siteID row now call targets publishes => exact publishes.saved
  | rebuild call targets rebuilds => exact rebuilds.saved
  | begin siteID taskID row begins => exact hsame begins.states begins.saved
  | stage siteID taskID row now call targets stages => exact stages.saved
  | confirm siteID taskID confirms history => exact hsame confirms.states history.saved
  | remove siteID taskID removes history => exact hsame removes.states history.saved
  | node effect history =>
    rw [newRows_of_nodeEffect effect, history.saved, List.nil_append]

end Effects

/-! ### The invariant -/

structure Tracked (s : State) : Prop where
  applied : ∀ row ∈ s.store.publishTaskNodes, row.status = .succeeded →
    ∀ node, s.store.nodes.find? row.nodeID = some node → row.targetVersion ≤ node.appliedVersion
  issued : ∀ row ∈ s.store.publishTaskNodes, row.nodeID ∈ s.store.issuedIDs
  task : ∀ row ∈ s.store.publishTaskNodes,
    ∃ task, s.store.deploymentTasks.find? row.taskID = some task
  latest : ∀ n row, s.store.nodeStates.find? n = some row → ∃ earlier, s.savedFor n = row :: earlier

theorem tracked_initial : Tracked initial := by
  constructor
  all_goals simp [initial, Store.empty]

section Steps

variable {r : Option RenderCall} {s s' : State} {n : String}

/-- What is saved for a node: its stored state, when that is new. -/
theorem Effect.savedFor (h : Effect r s s') (n : String) :
    s'.savedFor n =
      ((s'.store.nodeStates.find? n).toList.filter fun row => row ∉ s.store.nodeStates.rows) ++
        s.savedFor n := by
  have hrows : (s.newRows s'.store).filter (fun row => row.nodeID = n) =
      (s'.store.nodeStates.find? n).toList.filter fun row => row ∉ s.store.nodeStates.rows := by
    rw [State.newRows, List.filter_comm]
    exact congrArg _ (Table.filter_key s'.store.nodeStates n)
  rw [State.savedFor, h.saved, List.filter_append, hrows]
  rfl

theorem Tracked.next (h : Tracked s) (heffect : Effect r s s') (hs' : Consistent s'.store) :
    Tracked s' := by
  obtain ⟨new, hsettles, hpending⟩ := heffect.settles
  constructor
  case applied =>
    intro row' hrow' hsucceeded node' hnode'
    rcases hsettles.target _ row' (Table.find?_of_mem hrow') with ⟨row, hrow, hmove⟩ | ⟨-, hnew⟩
    · have hmem : row ∈ s.store.publishTaskNodes := Table.mem_of_find? hrow
      have hid : row.nodeID = row'.nodeID := Store.nodeID_of_find? hrow
      rcases hmove.status with hsame | ⟨-, happlied⟩
      · rw [hmove.version]
        rcases heffect.node_cases hnode' with ⟨node, hnode, hkept⟩ | ⟨hfresh, -⟩
        · rw [← hid] at hnode
          exact (h.applied row hmem (hsame ▸ hsucceeded) node hnode).trans hkept.applied
        · -- the identifier of a node with a target has been issued
          rw [← hid] at hfresh
          exact absurd (h.issued row hmem) hfresh
      · obtain ⟨node, hnode, hle⟩ := happlied hsucceeded
        obtain rfl := Option.some.inj (hnode.symm.trans hnode')
        exact hle
    · rw [hpending row' hnew] at hsucceeded
      cases hsucceeded
  case issued =>
    intro row' hrow'
    rcases hsettles.target _ row' (Table.find?_of_mem hrow') with ⟨row, hrow, -⟩ | ⟨-, hnew⟩
    · have hid : row.nodeID = row'.nodeID := Store.nodeID_of_find? hrow
      rw [← hid]
      exact heffect.issued (h.issued row (Table.mem_of_find? hrow))
    · obtain ⟨⟨node, hnode⟩, -⟩ := hsettles.createdFor row' hnew
      exact hs'.nodeIssued _ node hnode
  case task =>
    intro row' hrow'
    rcases hsettles.target _ row' (Table.find?_of_mem hrow') with ⟨row, hrow, -⟩ | ⟨-, hnew⟩
    · have hid : row.taskID = row'.taskID := Store.taskID_of_find? hrow
      obtain ⟨task, htask⟩ := h.task row (Table.mem_of_find? hrow)
      rw [hid] at htask
      exact hsettles.taskKept _ task htask
    · exact (hsettles.createdFor row' hnew).2
  case latest =>
    intro n row hrow
    rw [heffect.savedFor, hrow, Option.toList_some]
    by_cases hold : row ∈ s.store.nodeStates.rows
    · have hfind := Table.find?_of_mem hold
      rw [Table.key_of_find? hrow] at hfind
      rw [List.filter_cons_of_neg (by simpa using hold)]
      exact h.latest n row hfind
    · rw [List.filter_cons_of_pos (by simpa using hold)]
      exact ⟨_, rfl⟩

end Steps

theorem tracked_step {s : State} (hs : WellFormed s) (h : Tracked s) (a : Action) :
    Tracked (step s a) :=
  h.next (step_effect hs a) (step_wellFormed hs a).tables

end Deployment

end SimpleCdn
