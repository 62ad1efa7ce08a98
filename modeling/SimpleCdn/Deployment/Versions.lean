import Mathlib.Data.List.Pairwise
import SimpleCdn.Deployment.Targets

/-!
# Versions and contents

A node state is saved only when its content differs from the stored one, and then with the next
version; a node that loses its state is never rendered again.  So the states saved for a node have
growing versions, and a version stands for one content.

Edges pull the stored state.  Responses may be late, repeated or lost, and an edge passes over
every version that is not greater than the one it has applied.
-/

namespace SimpleCdn.Deployment

open Transition

/-! ### What an action does to the stored states -/

/-- How the stored state of a node changes. -/
inductive StateMove (r : Option RenderCall) (s s' : State) (n : String) : Prop
  | same (h : s'.store.nodeStates.find? n = s.store.nodeStates.find? n)
  | lost (h : s'.store.nodeStates.find? n = none)
      (hnode : ∀ node, s'.store.nodes.find? n = some node → node.status = .uninstalled)
  | stored (node : Node) (row' : NodeStateRow) (hnode : s.store.nodes.find? n = some node)
      (hstatus : node.status ≠ .uninstalled) (hrow' : s'.store.nodeStates.find? n = some row')
      (hversion : row'.state.version =
        ((s.store.nodeStates.find? n).elim 0 fun row => row.state.version) + 1)
      (hchanged : ∀ row, s.store.nodeStates.find? n = some row →
        ¬ ContentEq row.state row'.state)

section Moves

variable {r : Option RenderCall} {s s' : State}

theorem RenderCall.keeps_eq_false {call : RenderCall} {node : Node} {content : DesiredState}
    (hcontent : call.content node = .ok content) (h : call.keeps node = false) :
    ∀ d, call.db.nodeState node.id = some d → ¬ ContentEq d content := by
  intro d hd heq
  rw [RenderCall.keeps, hcontent] at h
  simp only [nextVersion, hd, nodeStateMatches_iff.mpr heq, if_true, Option.isNone_none] at h
  cases h

theorem Saves.stateMove {call : RenderCall} {targets : List PublishTaskNode}
    (h : Saves r s s' call targets) (n : String) : StateMove r s s' n := by
  rcases h.find?_state n with ⟨node, row', hnode, hserving, hrow', hrebuilt, -⟩ | ⟨-, hsame⟩
  · have hid : node.id = n := Table.key_of_find? hnode
    cases hkeeps : call.keeps node with
    | true =>
      have hkept := hrebuilt.kept hkeeps
      rw [hid, h.base.states] at hkept
      exact .same (hrow'.trans hkept.symm)
    | false =>
      obtain ⟨content, hcontent, heq⟩ := hrebuilt.rendered
      have hstate : call.db.nodeState node.id =
          (s.store.nodeStates.find? n).map NodeStateRow.state := by
        rw [Store.nodeState, hid, h.base.states]
      refine .stored node row' hnode ?_ hrow' ?_ ?_
      · intro huninstalled
        have hretired := (RenderCall.serving_iff.mp hserving).2
        rw [huninstalled] at hretired
        cases hretired
      · rw [hrebuilt.changed hkeeps, hstate]
        cases s.store.nodeStates.find? n <;> rfl
      · intro row hrow hsame
        refine RenderCall.keeps_eq_false hcontent hkeeps row.state ?_ (hsame.trans heq)
        rw [hstate, hrow, Option.map_some]
  · exact .same hsame

theorem Effect.stateMove (h : Effect r s s') (n : String) : StateMove r s s' n := by
  cases h with
  | tables tables history => exact .same (by rw [tables.states])
  | site id row' written history => exact .same (by rw [written.states])
  | publish siteID row now call targets publishes => exact publishes.toSaves.stateMove n
  | rebuild call targets rebuilds => exact rebuilds.toSaves.stateMove n
  | begin siteID taskID row begins => exact .same (by rw [begins.states])
  | stage siteID taskID row now call targets stages => exact stages.toSaves.stateMove n
  | confirm siteID taskID confirms history => exact .same (by rw [confirms.states])
  | remove siteID taskID removes history => exact .same (by rw [removes.states])
  | node effect history =>
    rcases effect.state n with hsame | ⟨hnone, hnode⟩
    · exact .same hsame
    · exact .lost hnone hnode

end Moves

/-! ### The saved states -/

structure Versions (s : State) : Prop where
  /-- The latest version is the greatest. -/
  decreasing : ∀ n, (s.savedFor n).Pairwise fun row row' => row'.state.version < row.state.version
  /-- Nothing is saved for a node that has lost its state. -/
  lost : ∀ n, s.savedFor n ≠ [] → s.store.nodeStates.find? n = none →
    ∀ node, s.store.nodes.find? n = some node → node.status = .uninstalled
  issued : ∀ row ∈ s.saved, row.nodeID ∈ s.store.issuedIDs

theorem versions_initial : Versions initial := by
  refine ⟨fun n => ?_, fun n hne => ?_, fun row hrow => ?_⟩
  · exact List.Pairwise.nil
  · exact absurd rfl hne
  · cases hrow

section Steps

variable {r : Option RenderCall} {s s' : State} {n : String}

theorem mem_savedFor {row : NodeStateRow} : row ∈ s.savedFor n ↔ row ∈ s.saved ∧ row.nodeID = n := by
  rw [State.savedFor, List.mem_filter, decide_eq_true_eq]

/-- A new version is greater than all the versions saved before. -/
theorem Versions.lt_of_stored (h : Versions s) (htracked : Tracked s) {node : Node}
    (hnode : s.store.nodes.find? n = some node) (hstatus : node.status ≠ .uninstalled)
    {row : NodeStateRow} (hrow : row ∈ s.savedFor n) :
    row.state.version < ((s.store.nodeStates.find? n).elim 0 fun row => row.state.version) + 1 := by
  cases hstate : s.store.nodeStates.find? n with
  | none =>
    -- the node is in service, so it has lost no state
    exact absurd (h.lost n (List.ne_nil_of_mem hrow) hstate node hnode) hstatus
  | some current =>
    obtain ⟨earlier, hsaved⟩ := htracked.latest n current hstate
    have hdecreasing := h.decreasing n
    rw [hsaved] at hrow hdecreasing
    rcases List.mem_cons.mp hrow with rfl | hmem
    · exact Nat.lt_succ_self _
    · exact Nat.lt_succ_of_lt ((List.pairwise_cons.mp hdecreasing).1 row hmem)

/-- What is saved for a node by an action. -/
theorem Effect.savedFor_cases (heffect : Effect r s s') (htracked : Tracked s) (n : String) :
    s'.savedFor n = s.savedFor n ∨
      ∃ node row', s.store.nodes.find? n = some node ∧ node.status ≠ .uninstalled ∧
        s'.store.nodeStates.find? n = some row' ∧ s'.savedFor n = row' :: s.savedFor n ∧
        row'.state.version =
          ((s.store.nodeStates.find? n).elim 0 fun row => row.state.version) + 1 := by
  have hsaved := heffect.savedFor n
  cases heffect.stateMove n with
  | same hsame =>
    left
    rw [hsaved, hsame]
    cases hrow : s.store.nodeStates.find? n with
    | none => rfl
    | some row =>
      have hold : row ∈ s.store.nodeStates.rows := Table.mem_of_find? hrow
      rw [Option.toList_some, List.filter_cons_of_neg (by simpa using hold)]
      rfl
  | lost hnone hnode =>
    left
    rw [hsaved, hnone]
    rfl
  | stored node row' hnode hstatus hrow' hversion hchanged =>
    right
    refine ⟨node, row', hnode, hstatus, hrow', ?_, hversion⟩
    have hnew : row' ∉ s.store.nodeStates.rows := by
      intro hold
      have hfind := Table.find?_of_mem hold
      have hkey : key row' = n := Table.key_of_find? hrow'
      rw [hkey] at hfind
      exact hchanged row' hfind (.refl _)
    rw [hsaved, hrow', Option.toList_some, List.filter_cons_of_pos (by simpa using hnew)]
    rfl

theorem Versions.next (h : Versions s) (htracked : Tracked s) (heffect : Effect r s s')
    (hs' : Consistent s'.store) : Versions s' := by
  constructor
  case decreasing =>
    intro n
    rcases heffect.savedFor_cases htracked n with hsame |
      ⟨node, row', hnode, hstatus, -, hsaved, hversion⟩
    · rw [hsame]
      exact h.decreasing n
    · rw [hsaved, List.pairwise_cons]
      refine ⟨fun row hrow => ?_, h.decreasing n⟩
      rw [hversion]
      exact h.lt_of_stored htracked hnode hstatus hrow
  case lost =>
    intro n hne hnone node' hnode'
    have hold : s'.savedFor n = s.savedFor n := by
      rcases heffect.savedFor_cases htracked n with hsame | ⟨_, row', -, -, hrow', -, -⟩
      · exact hsame
      · rw [hnone] at hrow'
        cases hrow'
    rw [hold] at hne
    cases heffect.stateMove n with
    | same hsame =>
      rw [hnone] at hsame
      rcases heffect.node_cases hnode' with ⟨node, hnode, hkept⟩ | ⟨hfresh, -⟩
      · exact hkept.uninstalled (h.lost n hne hsame.symm node hnode)
      · -- an identifier with a saved state is never given again
        obtain ⟨row, hrow⟩ := List.exists_mem_of_ne_nil _ hne
        obtain ⟨hmem, hid⟩ := mem_savedFor.mp hrow
        rw [← hid] at hfresh
        exact absurd (h.issued row hmem) hfresh
    | lost _ hlost => exact hlost node' hnode'
    | stored _ row' _ _ hrow' _ _ =>
      rw [hnone] at hrow'
      cases hrow'
  case issued =>
    intro row hrow
    have hmem : row ∈ s'.savedFor row.nodeID := mem_savedFor.mpr ⟨hrow, rfl⟩
    rcases heffect.savedFor_cases htracked row.nodeID with hsame |
      ⟨node, row', -, -, hrow', hsaved, -⟩
    · rw [hsame] at hmem
      exact heffect.issued (h.issued row (mem_savedFor.mp hmem).1)
    · rw [hsaved] at hmem
      rcases List.mem_cons.mp hmem with rfl | hold
      · obtain ⟨node', hnode', -⟩ := hs'.stateNode _ row hrow'
        exact hs'.nodeIssued _ node' hnode'
      · exact heffect.issued (h.issued row (mem_savedFor.mp hold).1)

end Steps

theorem versions_step {s : State} (hs : WellFormed s) (htracked : Tracked s) (h : Versions s)
    (a : Action) : Versions (step s a) :=
  h.next htracked (step_effect hs a) (step_wellFormed hs a).tables

/-- Two rows saved for a node under one version are one row. -/
theorem Versions.eq_of_version {s : State} (h : Versions s) {row row' : NodeStateRow}
    (hrow : row ∈ s.saved) (hrow' : row' ∈ s.saved) (hnode : row.nodeID = row'.nodeID)
    (hversion : row.state.version = row'.state.version) : row = row' := by
  have hmem : row ∈ s.savedFor row.nodeID := mem_savedFor.mpr ⟨hrow, rfl⟩
  have hmem' : row' ∈ s.savedFor row.nodeID := mem_savedFor.mpr ⟨hrow', hnode.symm⟩
  have hdistinct : (s.savedFor row.nodeID).Pairwise fun row row' =>
      row.state.version ≠ row'.state.version :=
    (h.decreasing row.nodeID).imp fun hlt => Nat.ne_of_gt hlt
  have hsymm : Std.Symm fun row row' : NodeStateRow =>
      row.state.version ≠ row'.state.version := ⟨fun _ _ => Ne.symm⟩
  by_contra hne
  exact hdistinct.forall hmem hmem' hne hversion

/-! ### What an action stores -/

/-- The versions of the stored states follow their contents. -/
structure VersionsFollow (s : State) (a : Action) : Prop where
  /-- A version grows exactly when the content changes. -/
  grows : ∀ n row row', s.store.nodeStates.find? n = some row →
    (step s a).store.nodeStates.find? n = some row' →
      row.state.version ≤ row'.state.version ∧
        (row.state.version < row'.state.version ↔ ¬ ContentEq row.state row'.state)
  first : ∀ n row', s.store.nodeStates.find? n = none →
    (step s a).store.nodeStates.find? n = some row' →
      row'.state.version = 1 ∧ s.savedFor n = []
  /-- An action that renders stores nothing, or every content it has rendered. -/
  rendered : ∀ call, s.rendering a = some call →
    (∀ n row', (step s a).store.nodeStates.find? n = some row' →
      s.store.nodeStates.find? n = some row') ∨
    ∀ node ∈ s.store.nodes, call.serving node = true →
      ∃ row' content, (step s a).store.nodeStates.find? node.id = some row' ∧
        call.content node = .ok content ∧ ContentEq row'.state content
  other : s.rendering a = none → ∀ n row',
    (step s a).store.nodeStates.find? n = some row' → s.store.nodeStates.find? n = some row'

section Follow

variable {r : Option RenderCall} {s s' : State}

/-- No node gets a state. -/
def StoresNothing (s s' : State) : Prop :=
  ∀ n row', s'.store.nodeStates.find? n = some row' → s.store.nodeStates.find? n = some row'

theorem storesNothing_of_eq (h : s'.store.nodeStates = s.store.nodeStates) : StoresNothing s s' := by
  intro n row' hrow'
  rwa [h] at hrow'

/-- The call stores what it has rendered. -/
def StoresRendered (s s' : State) (call : RenderCall) : Prop :=
  ∀ node ∈ s.store.nodes, call.serving node = true →
    ∃ row' content, s'.store.nodeStates.find? node.id = some row' ∧
      call.content node = .ok content ∧ ContentEq row'.state content

theorem Saves.storesRendered {call : RenderCall} {targets : List PublishTaskNode}
    (h : Saves r s s' call targets) : StoresRendered s s' call := by
  intro node hmem hserving
  have hnode : s.store.nodes.find? node.id = some node := Table.find?_of_mem hmem
  rcases h.find?_state node.id with ⟨node', row', hnode', -, hrow', hrebuilt, -⟩ | ⟨hno, -⟩
  · obtain rfl := Option.some.inj (hnode.symm.trans hnode')
    obtain ⟨content, hcontent, heq⟩ := hrebuilt.rendered
    exact ⟨row', content, hrow', hcontent, heq⟩
  · rw [hno node hnode] at hserving
    cases hserving

theorem Effect.stores (h : Effect r s s') :
    StoresNothing s s' ∨ ∃ call, r = some call ∧ StoresRendered s s' call := by
  cases h with
  | tables tables history => exact .inl (storesNothing_of_eq tables.states)
  | site id row' written history => exact .inl (storesNothing_of_eq written.states)
  | publish siteID row now call targets publishes =>
    exact .inr ⟨call, publishes.rendering, publishes.toSaves.storesRendered⟩
  | rebuild call targets rebuilds =>
    exact .inr ⟨call, rebuilds.rendering, rebuilds.toSaves.storesRendered⟩
  | begin siteID taskID row begins => exact .inl (storesNothing_of_eq begins.states)
  | stage siteID taskID row now call targets stages =>
    exact .inr ⟨call, stages.rendering, stages.toSaves.storesRendered⟩
  | confirm siteID taskID confirms history => exact .inl (storesNothing_of_eq confirms.states)
  | remove siteID taskID removes history => exact .inl (storesNothing_of_eq removes.states)
  | node effect history =>
    left
    intro n row' hrow'
    rcases effect.state n with hsame | ⟨hnone, -⟩
    · rwa [hsame] at hrow'
    · rw [hnone] at hrow'
      cases hrow'

end Follow

theorem Versions.follow {s : State} (h : Versions s) (hs : WellFormed s) (a : Action) :
    VersionsFollow s a := by
  have heffect := step_effect hs a
  constructor
  case grows =>
    intro n row row' hrow hrow'
    cases heffect.stateMove n with
    | same hsame =>
      obtain rfl := Option.some.inj (hrow.symm.trans (hsame.symm.trans hrow'))
      refine ⟨le_rfl, iff_of_false (lt_irrefl _) ?_⟩
      exact fun hne => hne (.refl _)
    | lost hnone hnode =>
      rw [hnone] at hrow'
      cases hrow'
    | stored node stored hnode hstatus hstored hversion hchanged =>
      obtain rfl := Option.some.inj (hstored.symm.trans hrow')
      rw [hrow] at hversion
      have hlt : row.state.version < stored.state.version := by
        rw [hversion]
        exact Nat.lt_succ_self _
      exact ⟨hlt.le, iff_of_true hlt (hchanged row hrow)⟩
  case first =>
    intro n row' hnone hrow'
    cases heffect.stateMove n with
    | same hsame =>
      rw [hsame, hnone] at hrow'
      cases hrow'
    | lost hlost hnode =>
      rw [hlost] at hrow'
      cases hrow'
    | stored node stored hnode hstatus hstored hversion hchanged =>
      obtain rfl := Option.some.inj (hstored.symm.trans hrow')
      rw [hnone] at hversion
      refine ⟨hversion, ?_⟩
      by_contra hne
      exact hstatus (h.lost n hne hnone node hnode)
  case rendered =>
    intro call hcall
    rcases heffect.stores with hnothing | ⟨call', hcall', hstores⟩
    · exact .inl hnothing
    · obtain rfl := Option.some.inj (hcall.symm.trans hcall')
      exact .inr hstores
  case other =>
    intro hnone
    rcases heffect.stores with hnothing | ⟨call', hcall', -⟩
    · exact hnothing
    · rw [hnone] at hcall'
      cases hcall'

/-! ### Edges -/

/-- The states an edge has applied, the latest first. -/
structure Edge where
  applied : List DesiredState

def Edge.appliedVersion (edge : Edge) : Nat :=
  edge.applied.head?.elim 0 DesiredState.version

/-- The agent's `Sync` of a response, and whether `apply` succeeds.  A node without a state gets
one of version 0 and without a configuration. -/
def Edge.sync (edge : Edge) (response : Option DesiredState) (succeeds : Bool) : Edge :=
  match response with
  | none => edge
  | some state =>
    if state.version = 0 ∨ state.version ≤ edge.appliedVersion then edge
    else if succeeds then ⟨state :: edge.applied⟩
    else edge

/-- The control plane, the responses it has sent and the edges by node. -/
structure Pulled where
  control : State
  responses : List (String × Option DesiredState)
  edges : String → Edge

inductive PullAction
  | control (a : Action)
  /-- The control plane answers a request of the node. -/
  | desiredState (nodeID : String)
  /-- A response reaches its edge. -/
  | deliver (i : Nat) (succeeds : Bool)

def Pulled.initial : Pulled where
  control := Deployment.initial
  responses := []
  edges := fun _ => ⟨[]⟩

def Pulled.step (s : Pulled) : PullAction → Pulled
  | .control a => { s with control := Deployment.step s.control a }
  | .desiredState nodeID =>
    { s with responses := s.responses ++ [(nodeID, s.control.store.nodeState nodeID)] }
  | .deliver i succeeds =>
    match s.responses[i]? with
    | some (nodeID, response) =>
      { s with edges := Function.update s.edges nodeID ((s.edges nodeID).sync response succeeds) }
    | none => s

/-- The state has been saved for the node. -/
def State.hasSaved (s : State) (n : String) (d : DesiredState) : Prop :=
  ∃ row ∈ s.saved, row.nodeID = n ∧ row.state = d

structure PullInv (s : Pulled) : Prop where
  wellFormed : WellFormed s.control
  tracked : Tracked s.control
  versions : Versions s.control
  responses : ∀ n d, (n, some d) ∈ s.responses → s.control.hasSaved n d
  applied : ∀ n, ∀ d ∈ (s.edges n).applied, s.control.hasSaved n d
  increasing : ∀ n, (s.edges n).applied.Pairwise fun d d' => d'.version < d.version

theorem Edge.sync_cases (edge : Edge) (response : Option DesiredState) (succeeds : Bool) :
    edge.sync response succeeds = edge ∨
      ∃ d, response = some d ∧ edge.appliedVersion < d.version ∧
        edge.sync response succeeds = ⟨d :: edge.applied⟩ := by
  cases response with
  | none => exact .inl rfl
  | some d =>
    rw [Edge.sync]
    split
    · exact .inl rfl
    · next hnew =>
      split
      · exact .inr ⟨d, rfl, by omega, rfl⟩
      · exact .inl rfl

theorem Edge.sync_increasing {edge : Edge}
    (h : edge.applied.Pairwise fun d d' => d'.version < d.version)
    (response : Option DesiredState) (succeeds : Bool) :
    (edge.sync response succeeds).applied.Pairwise fun d d' => d'.version < d.version := by
  rcases edge.sync_cases response succeeds with hsame | ⟨d, -, hlt, hsync⟩
  · rwa [hsame]
  · rw [hsync, List.pairwise_cons]
    refine ⟨fun d' hd' => ?_, h⟩
    rw [Edge.appliedVersion] at hlt
    cases happlied : edge.applied with
    | nil =>
      rw [happlied] at hd'
      cases hd'
    | cons latest earlier =>
      rw [happlied] at hd' h hlt
      rcases List.mem_cons.mp hd' with rfl | hmem
      · exact hlt
      · exact ((List.pairwise_cons.mp h).1 d' hmem).trans hlt

theorem pullInv_initial : PullInv .initial where
  wellFormed := wellFormed_initial
  tracked := tracked_initial
  versions := versions_initial
  responses := by simp [Pulled.initial]
  applied := by simp [Pulled.initial]
  increasing := fun _ => .nil

theorem State.hasSaved.step {s : State} {n : String} {d : DesiredState} (h : s.hasSaved n d)
    (hs : WellFormed s) (a : Action) : (Deployment.step s a).hasSaved n d := by
  obtain ⟨row, hrow, hid, hd⟩ := h
  refine ⟨row, ?_, hid, hd⟩
  rw [(step_effect hs a).saved]
  exact List.mem_append.mpr (.inr hrow)

theorem PullInv.step {s : Pulled} (h : PullInv s) (a : PullAction) : PullInv (s.step a) := by
  cases a with
  | control a =>
    exact ⟨step_wellFormed h.wellFormed a, tracked_step h.wellFormed h.tracked a,
      versions_step h.wellFormed h.tracked h.versions a,
      fun n d hd => (h.responses n d hd).step h.wellFormed a,
      fun n d hd => (h.applied n d hd).step h.wellFormed a, h.increasing⟩
  | desiredState nodeID =>
    refine ⟨h.wellFormed, h.tracked, h.versions, fun n d hd => ?_, h.applied, h.increasing⟩
    rcases List.mem_append.mp hd with hold | hnew
    · exact h.responses n d hold
    · rw [List.mem_singleton, Prod.mk.injEq] at hnew
      obtain ⟨rfl, hstate⟩ := hnew
      obtain ⟨row, hrow, rfl⟩ := Option.map_eq_some_iff.mp hstate.symm
      obtain ⟨earlier, hsaved⟩ := h.tracked.latest n row hrow
      have hmem : row ∈ s.control.savedFor n := by simp [hsaved]
      obtain ⟨hmem, hid⟩ := mem_savedFor.mp hmem
      exact ⟨row, hmem, hid, rfl⟩
  | deliver i succeeds =>
    rw [Pulled.step]
    cases hresponse : s.responses[i]? with
    | none => exact h
    | some message =>
      obtain ⟨nodeID, response⟩ := message
      refine ⟨h.wellFormed, h.tracked, h.versions, h.responses, fun n => ?_, fun n => ?_⟩
      · by_cases hn : n = nodeID
        · subst hn
          simp only [Function.update_self]
          rcases (s.edges n).sync_cases response succeeds with hsame | ⟨d, rfl, -, hsync⟩
          · rw [hsame]
            exact h.applied n
          · rw [hsync]
            intro d' hd'
            rcases List.mem_cons.mp hd' with rfl | hold
            · exact h.responses n _ (List.mem_of_getElem? hresponse)
            · exact h.applied n d' hold
        · simp only [Function.update_of_ne hn]
          exact h.applied n
      · by_cases hn : n = nodeID
        · subst hn
          simp only [Function.update_self]
          exact Edge.sync_increasing (h.increasing n) response succeeds
        · simp only [Function.update_of_ne hn]
          exact h.increasing n

/-- A site is published twice, and the edge gets the second state before the first. -/
def overtaken : List PullAction :=
  (enrolled "n").map .control ++
    [.control (.createSite "tcp" (forwardDraft "tcp" ["n"] 9000 1) "zone" 1),
      .control (.publishSite "tcp" "first" 2), .desiredState "n", .control (applied "n" 1 3),
      .control (.updateSite "tcp" (forwardDraft "tcp" ["n"] 9000 2) "zone" 4),
      .control (.publishSite "tcp" "second" 5), .desiredState "n", .deliver 1 true,
      .deliver 0 true]

end SimpleCdn.Deployment
