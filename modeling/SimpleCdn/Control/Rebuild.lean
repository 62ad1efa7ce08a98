import SimpleCdn.Control.Rendering

/-!
# Rebuilding node states

A `RenderCall` is one call of `renderNodeStateUpdates` with the database it reads.  `Rebuilt`
says what the call and the transaction that saves its updates do to the node states: every
affected node in service holds the content of the materials afterwards, either because it held it
already (`keeps`) or in a state with the next version; every other node keeps its state.
-/

namespace SimpleCdn

/-- A call of `renderNodeStateUpdates`. -/
structure RenderCall where
  db : Store
  materials : List PublicationMaterial
  affected : List String
  now : Time

namespace RenderCall

def run (call : RenderCall) : Except StoreError (List NodeStateUpdate × List PublishTaskNode) :=
  renderNodeStateUpdates call.db call.materials call.affected call.now

/-- The content rendered for a node. -/
def content (call : RenderCall) (node : Node) : Except StoreError DesiredState := do
  let rendered ← decryptPublicationMaterials call.affected call.now call.materials
  renderNode call.db (nodeSites rendered node.id (call.db.nodeState node.id))
    (nodeCertificates rendered node.id) node

/-- The content rendered for the node is the content of its stored state. -/
def keeps (call : RenderCall) (node : Node) : Bool :=
  match call.content node with
  | .ok content => (nextVersion (call.db.nodeState node.id) content).isNone
  | .error _ => false

/-- The nodes a call renders. -/
def serving (call : RenderCall) (node : Node) : Bool :=
  call.affected.contains node.id && !node.status.retired

/-- The affected nodes a call passes over. -/
def passedOver (call : RenderCall) : List String :=
  (call.db.nodes.rows.filter fun node =>
    call.affected.contains node.id && node.status.retired).map Node.id

theorem serving_iff {call : RenderCall} {node : Node} :
    call.serving node = true ↔ node.id ∈ call.affected ∧ node.status.retired = false := by
  simp [serving]

theorem mem_passedOver {call : RenderCall} {n : String} :
    n ∈ call.passedOver ↔
      n ∈ call.affected ∧ ∃ node, call.db.nodes.find? n = some node ∧ node.status.retired = true := by
  simp only [passedOver, List.mem_map, List.mem_filter, Bool.and_eq_true, List.contains_iff_mem,
    Table.find?_eq_some_iff, key_node]
  constructor
  · rintro ⟨node, ⟨hmem, haffected, hretired⟩, rfl⟩
    exact ⟨haffected, node, ⟨hmem, rfl⟩, hretired⟩
  · rintro ⟨haffected, node, ⟨hmem, rfl⟩, hretired⟩
    exact ⟨node, ⟨hmem, haffected, hretired⟩, rfl⟩

end RenderCall

/-! ### Versions -/

theorem nextVersion_eq_some {previous : Option DesiredState} {content : DesiredState}
    {version : Nat} (h : nextVersion previous content = some version) :
    version = (previous.elim 0 DesiredState.version) + 1 := by
  unfold nextVersion at h
  split at h
  · exact (Option.some.inj h).symm
  · split at h
    · cases h
    · exact (Option.some.inj h).symm

theorem nextVersion_eq_none {previous : Option DesiredState} {content : DesiredState}
    (h : nextVersion previous content = none) :
    ∃ state, previous = some state ∧ nodeStateMatches state content = true := by
  unfold nextVersion at h
  split at h
  · cases h
  · next state =>
    split at h
    · next hmatches => exact ⟨state, rfl, hmatches⟩
    · cases h

/-- Everything but the versions of two states agrees. -/
structure ContentEq (d d' : DesiredState) : Prop where
  http : d.nginxConfig = d'.nginxConfig
  stream : d.nginxStreamConfig = d'.nginxStreamConfig
  main : d.nginxMainConfig = d'.nginxMainConfig
  events : d.nginxEventsConfig = d'.nginxEventsConfig
  fragments : d.nginxFragments = d'.nginxFragments
  ports : d.publicPorts = d'.publicPorts
  cache : d.cacheMaxBytes = d'.cacheMaxBytes
  certificates : ∀ id, d.certificates.lookup id = d'.certificates.lookup id

namespace ContentEq

variable {d d' d'' : DesiredState}

theorem refl (d : DesiredState) : ContentEq d d :=
  ⟨rfl, rfl, rfl, rfl, rfl, rfl, rfl, fun _ => rfl⟩

theorem symm (h : ContentEq d d') : ContentEq d' d :=
  ⟨h.http.symm, h.stream.symm, h.main.symm, h.events.symm, h.fragments.symm, h.ports.symm,
    h.cache.symm, fun id => (h.certificates id).symm⟩

theorem trans (h : ContentEq d d') (h' : ContentEq d' d'') : ContentEq d d'' :=
  ⟨h.http.trans h'.http, h.stream.trans h'.stream, h.main.trans h'.main,
    h.events.trans h'.events, h.fragments.trans h'.fragments, h.ports.trans h'.ports,
    h.cache.trans h'.cache, fun id => (h.certificates id).trans (h'.certificates id)⟩

theorem version (d : DesiredState) (version : Nat) :
    ContentEq { d with version := version } d :=
  ⟨rfl, rfl, rfl, rfl, rfl, rfl, rfl, fun _ => rfl⟩

end ContentEq

theorem nodeStateMatches_iff {previous content : DesiredState} :
    nodeStateMatches previous content = true ↔ ContentEq previous content := by
  simp only [nodeStateMatches, Bool.and_eq_true, decide_eq_true_eq]
  constructor
  · rintro ⟨⟨⟨⟨⟨⟨⟨hhttp, hstream⟩, hmain⟩, hevents⟩, hfragments⟩, hports⟩, hcache⟩, hcertificates⟩
    exact ⟨hhttp, hstream, hmain, hevents, hfragments, hports, hcache,
      mapsEqual_lookup hcertificates⟩
  · rintro ⟨hhttp, hstream, hmain, hevents, hfragments, hports, hcache, hcertificates⟩
    refine ⟨⟨⟨⟨⟨⟨⟨hhttp, hstream⟩, hmain⟩, hevents⟩, hfragments⟩, hports⟩, hcache⟩, ?_⟩
    simp only [mapsEqual, List.all_eq_true, decide_eq_true_eq]
    exact fun name _ => hcertificates name

/-- The version does not enter what a state serves. -/
theorem sameContent_version (d : DesiredState) (version : Nat) :
    SameContent d { d with version := version } :=
  ⟨rfl, rfl, fun _ => rfl⟩

/-! ### The updates and targets of a call -/

/-- The update and target of one rendered node. -/
structure NodeUpdate (call : RenderCall) (node : Node) (update : NodeStateUpdate) : Prop where
  nodeID : update.nodeID = node.id
  changed : call.keeps node = false
  content : Content call.materials node.id update.state
  rendered : ∃ content, call.content node = .ok content ∧ ContentEq update.state content
  version : update.state.version =
    ((call.db.nodeState node.id).elim 0 DesiredState.version) + 1

/-- What a call does for one of the nodes it renders. -/
def NodeOutcome (call : RenderCall) (updates : List NodeStateUpdate)
    (targets : List PublishTaskNode) (node : Node) : Prop :=
  (call.keeps node = true ∧
    ∃ d, call.db.nodeState node.id = some d ∧ Content call.materials node.id d ∧
      ∃ content, call.content node = .ok content ∧ ContentEq d content) ∨
  ∃ update ∈ updates, NodeUpdate call node update ∧
    (node.status = .active → ⟨node.id, update.state.version⟩ ∈ targets)

theorem NodeOutcome.mono {call : RenderCall} {updates updates' : List NodeStateUpdate}
    {targets targets' : List PublishTaskNode} {node : Node}
    (h : NodeOutcome call updates targets node) (hupdates : updates ⊆ updates')
    (htargets : targets ⊆ targets') : NodeOutcome call updates' targets' node := by
  rcases h with hkept | ⟨update, hmem, hupdate, htarget⟩
  · exact .inl hkept
  · exact .inr ⟨update, hupdates hmem, hupdate, fun hactive => htargets (htarget hactive)⟩

/-- The target belongs to an active node that gets this update. -/
def TargetOf (call : RenderCall) (updates : List NodeStateUpdate) (target : PublishTaskNode)
    (node : Node) : Prop :=
  call.serving node = true ∧ node.status = .active ∧
    ∃ update ∈ updates, NodeUpdate call node update ∧ target = ⟨node.id, update.state.version⟩

theorem TargetOf.mono {call : RenderCall} {updates updates' : List NodeStateUpdate}
    {target : PublishTaskNode} {node : Node} (h : TargetOf call updates target node)
    (hupdates : updates ⊆ updates') : TargetOf call updates' target node := by
  obtain ⟨hserving, hactive, update, hmem, hupdate, htarget⟩ := h
  exact ⟨hserving, hactive, update, hupdates hmem, hupdate, htarget⟩

/-- The loop over the nodes: every rendered node has its outcome, and every update and every target
belongs to a rendered node. -/
theorem renderNodes_eq_ok {call : RenderCall} {rendered : List RenderedPublication}
    (hnodup : (call.materials.map fun material => material.site.id).Nodup)
    (hdecrypt : decryptPublicationMaterials call.affected call.now call.materials = .ok rendered)
    {nodes : List Node} {updates : List NodeStateUpdate} {targets : List PublishTaskNode}
    (h : renderNodes call.db rendered call.affected nodes = .ok (updates, targets)) :
    (∀ node ∈ nodes, call.serving node = true → NodeOutcome call updates targets node) ∧
    (∀ update ∈ updates, ∃ node ∈ nodes, call.serving node = true ∧ NodeUpdate call node update) ∧
    (updates.map NodeStateUpdate.nodeID).Sublist (nodes.map Node.id) ∧
    ∀ target ∈ targets, ∃ node ∈ nodes, TargetOf call updates target node := by
  induction nodes generalizing updates targets with
  | nil =>
    simp only [renderNodes, Except.ok.injEq, Prod.mk.injEq] at h
    obtain ⟨rfl, rfl⟩ := h
    simp
  | cons node nodes ih =>
    simp only [renderNodes] at h
    split at h
    · next hskip =>
      obtain ⟨hnodes, hupdates, hsub, htargets⟩ := ih h
      have hserving : call.serving node = false := by
        simp only [RenderCall.serving]
        simp only [Bool.or_eq_true, Bool.not_eq_true'] at hskip
        rcases hskip with hskip | hskip
        · rw [hskip, Bool.false_and]
        · rw [hskip, Bool.not_true, Bool.and_false]
      refine ⟨?_, ?_, ?_, ?_⟩
      · intro node' hmem hserving'
        rcases List.mem_cons.mp hmem with rfl | hmem
        · rw [hserving] at hserving'
          cases hserving'
        · exact hnodes node' hmem hserving'
      · intro update hmem
        obtain ⟨node', hmem', hrest⟩ := hupdates update hmem
        exact ⟨node', List.mem_cons_of_mem _ hmem', hrest⟩
      · exact hsub.trans (List.sublist_cons_self _ _)
      · intro target hmem
        obtain ⟨node', hmem', htarget⟩ := htargets target hmem
        exact ⟨node', List.mem_cons_of_mem _ hmem', htarget⟩
    · next hserved =>
      have hserving : call.serving node = true := by
        simp only [Bool.or_eq_true, Bool.not_eq_true', not_or, Bool.not_eq_false,
          Bool.not_eq_true] at hserved
        simp only [RenderCall.serving, hserved.1, hserved.2, Bool.not_false, Bool.and_self]
      simp only [bind_eq_ok] at h
      obtain ⟨content, hcontent, ⟨updates₁, targets₁⟩, hrest, h⟩ := h
      obtain ⟨hnodes, hupdates, hsub, htargets⟩ := ih hrest
      have haffected := (RenderCall.serving_iff.mp hserving).1
      have hrendered := renderNode_content hnodup hdecrypt haffected hcontent
      have hcall : call.content node = .ok content := by
        simp only [RenderCall.content, bind_eq_ok]
        exact ⟨rendered, hdecrypt, hcontent⟩
      split at h
      · next hnone =>
        simp only [pure_eq_ok, Prod.mk.injEq] at h
        obtain ⟨rfl, rfl⟩ := h
        refine ⟨?_, ?_, hsub.trans (List.sublist_cons_self _ _), ?_⟩
        · intro node' hmem hserving'
          rcases List.mem_cons.mp hmem with rfl | hmem
          · -- the stored state has this content already
            obtain ⟨d, hstate, hmatches⟩ := nextVersion_eq_none hnone
            refine .inl ⟨?_, d, hstate, hrendered.same (nodeStateMatches_same hmatches).symm,
              content, hcall, nodeStateMatches_iff.mp hmatches⟩
            simp only [RenderCall.keeps, hcall, hnone, Option.isNone_none]
          · exact hnodes node' hmem hserving'
        · intro update hmem
          obtain ⟨node', hmem', hrest⟩ := hupdates update hmem
          exact ⟨node', List.mem_cons_of_mem _ hmem', hrest⟩
        · intro target hmem
          obtain ⟨node', hmem', htarget⟩ := htargets target hmem
          exact ⟨node', List.mem_cons_of_mem _ hmem', htarget⟩
      · next version hversion =>
        simp only [pure_eq_ok, Prod.mk.injEq] at h
        obtain ⟨rfl, rfl⟩ := h
        have hupdate : NodeUpdate call node ⟨node.id, { content with version := version }⟩ :=
          { nodeID := rfl
            changed := by simp only [RenderCall.keeps, hcall, hversion, Option.isNone_some]
            content := hrendered.same (sameContent_version content version)
            rendered := ⟨content, hcall, .version content version⟩
            version := nextVersion_eq_some hversion }
        refine ⟨?_, ?_, ?_, ?_⟩
        · intro node' hmem hserving'
          rcases List.mem_cons.mp hmem with rfl | hmem
          · refine .inr ⟨_, List.mem_cons_self, hupdate, fun hactive => ?_⟩
            rw [if_pos hactive]
            exact List.mem_cons_self
          · refine (hnodes node' hmem hserving').mono (List.subset_cons_self _ _) ?_
            split
            · exact List.subset_cons_self _ _
            · exact List.Subset.refl _
        · intro update hmem
          rcases List.mem_cons.mp hmem with rfl | hmem
          · exact ⟨node, List.mem_cons_self, hserving, hupdate⟩
          · obtain ⟨node', hmem', hrest⟩ := hupdates update hmem
            exact ⟨node', List.mem_cons_of_mem _ hmem', hrest⟩
        · exact hsub.cons_cons _
        · intro target hmem
          have hold : ∀ target ∈ targets₁, ∃ node' ∈ node :: nodes, TargetOf call
              (⟨node.id, { content with version := version }⟩ :: updates₁) target node' := by
            intro target hmem
            obtain ⟨node', hmem', htarget⟩ := htargets target hmem
            exact ⟨node', List.mem_cons_of_mem _ hmem', htarget.mono (List.subset_cons_self _ _)⟩
          split at hmem
          · next hactive =>
            rcases List.mem_cons.mp hmem with rfl | hmem
            · exact ⟨node, List.mem_cons_self, hserving, hactive, _, List.mem_cons_self, hupdate,
                rfl⟩
            · exact hold target hmem
          · exact hold target hmem

theorem mem_listNodes {db : Store} {node : Node} : node ∈ db.listNodes ↔ node ∈ db.nodes :=
  List.mem_insertionSort _

theorem listNodes_nodup (db : Store) : (db.listNodes.map Node.id).Nodup :=
  ((List.perm_insertionSort _ db.nodes.rows).map Node.id).nodup_iff.mpr db.nodes.nodup

/-- The updates and targets of a call. -/
structure Updates (call : RenderCall) (updates : List NodeStateUpdate)
    (targets : List PublishTaskNode) : Prop where
  outcome : ∀ node ∈ call.db.nodes, call.serving node = true →
    NodeOutcome call updates targets node
  update : ∀ update ∈ updates, ∃ node ∈ call.db.nodes,
    call.serving node = true ∧ NodeUpdate call node update
  nodup : (updates.map NodeStateUpdate.nodeID).Nodup
  target : ∀ target ∈ targets, ∃ node ∈ call.db.nodes, TargetOf call updates target node

theorem RenderCall.run_eq_ok (call : RenderCall) {updates : List NodeStateUpdate}
    {targets : List PublishTaskNode}
    (hnodup : (call.materials.map fun material => material.site.id).Nodup)
    (h : call.run = .ok (updates, targets)) : Updates call updates targets := by
  simp only [RenderCall.run, renderNodeStateUpdates, bind_eq_ok] at h
  obtain ⟨-, -, rendered, hdecrypt, hnodes⟩ := h
  obtain ⟨houtcome, hupdate, hsub, htarget⟩ := renderNodes_eq_ok hnodup hdecrypt hnodes
  refine ⟨fun node hmem => houtcome node (mem_listNodes.mpr hmem), ?_, ?_, ?_⟩
  · intro update hmem
    obtain ⟨node, hnode, hrest⟩ := hupdate update hmem
    exact ⟨node, mem_listNodes.mp hnode, hrest⟩
  · exact (listNodes_nodup call.db).sublist hsub
  · intro target hmem
    obtain ⟨node, hnode, hrest⟩ := htarget target hmem
    exact ⟨node, mem_listNodes.mp hnode, hrest⟩

/-! ### Saving the updates -/

namespace Store

/-- The states after saving, by node. -/
theorem saveNodeStates_find? {db db' : Store} {now : Time} {updates : List NodeStateUpdate}
    (h : saveNodeStates now updates db = .ok db')
    (hnodup : (updates.map NodeStateUpdate.nodeID).Nodup) (n : String) :
    (∀ update ∈ updates, update.nodeID = n →
      db'.nodeStates.find? n = some ⟨n, update.state, now⟩) ∧
    ((∀ update ∈ updates, update.nodeID ≠ n) →
      db'.nodeStates.find? n = db.nodeStates.find? n) := by
  induction updates generalizing db with
  | nil =>
    obtain rfl := Except.ok.inj h
    simp
  | cons first updates ih =>
    simp only [saveNodeStates, bind_eq_ok, require_eq_ok, orError_eq_ok, exists_const] at h
    obtain ⟨-, _, -, hrest⟩ := h
    rw [List.map_cons, List.nodup_cons] at hnodup
    obtain ⟨hsaved, hkept⟩ := ih hrest hnodup.2
    constructor
    · intro update hmem hn
      rcases List.mem_cons.mp hmem with rfl | hmem
      · -- no later update belongs to this node
        rw [hkept, Table.find?_upsert, key_nodeStateRow, if_pos hn, hn]
        intro update' hmem' hn'
        exact hnodup.1 (List.mem_map.mpr ⟨update', hmem', hn'.trans hn.symm⟩)
      · exact hsaved update hmem hn
    · intro hno
      rw [hkept fun update hmem => hno update (List.mem_cons_of_mem _ hmem), Table.find?_upsert,
        if_neg]
      exact hno first List.mem_cons_self

end Store

/-- The state of one rendered node after its call has been saved. -/
structure NodeRebuilt (call : RenderCall) (node : Node) (row : NodeStateRow) : Prop where
  content : Content call.materials node.id row.state
  rendered : ∃ content, call.content node = .ok content ∧ ContentEq row.state content
  kept : call.keeps node = true → call.db.nodeStates.find? node.id = some row
  changed : call.keeps node = false →
    row.state.version = ((call.db.nodeState node.id).elim 0 DesiredState.version) + 1

/-- The node states before and after a call has been saved. -/
structure Rebuilt (call : RenderCall) (targets : List PublishTaskNode)
    (states : Table NodeStateRow) : Prop where
  serving : ∀ node ∈ call.db.nodes, call.serving node = true →
    ∃ row, states.find? node.id = some row ∧ NodeRebuilt call node row ∧
      (node.status = .active → call.keeps node = false →
        ⟨node.id, row.state.version⟩ ∈ targets)
  other : ∀ n, (∀ node ∈ call.db.nodes, node.id = n → call.serving node = false) →
    states.find? n = call.db.nodeStates.find? n
  target : ∀ target ∈ targets, ∃ node ∈ call.db.nodes, node.id = target.nodeID ∧
    call.serving node = true ∧ node.status = .active ∧ call.keeps node = false ∧
    ∃ row, states.find? node.id = some row ∧ row.state.version = target.targetVersion

theorem Updates.rebuilt {call : RenderCall} {updates : List NodeStateUpdate}
    {targets : List PublishTaskNode} {db db' : Store} {now : Time}
    (h : Updates call updates targets) (hsave : Store.saveNodeStates now updates db = .ok db')
    (hstates : db.nodeStates = call.db.nodeStates) : Rebuilt call targets db'.nodeStates := by
  have hfind := Store.saveNodeStates_find? hsave h.nodup
  constructor
  · intro node hmem hserving
    rcases h.outcome node hmem hserving with ⟨hkeeps, d, hstate, hcontent, hrendered⟩ |
      ⟨update, hupdate, hnode, htarget⟩
    · -- no update belongs to a node that keeps its state
      have hno : ∀ update ∈ updates, update.nodeID ≠ node.id := by
        intro update hupdate hid
        obtain ⟨node', hmem', -, hnode'⟩ := h.update update hupdate
        have heq := Table.eq_of_key_eq hmem' hmem (hnode'.nodeID.symm.trans hid)
        rw [← heq, hnode'.changed] at hkeeps
        cases hkeeps
      obtain ⟨row, hrow, rfl⟩ := Option.map_eq_some_iff.mp hstate
      have hsame := (hfind node.id).2 hno
      rw [hstates, hrow] at hsame
      refine ⟨row, hsame, ⟨hcontent, hrendered, fun _ => hrow, ?_⟩, ?_⟩
      · rw [hkeeps]
        intro hchanged
        cases hchanged
      · rw [hkeeps]
        intro _ hchanged
        cases hchanged
    · have hrow := (hfind node.id).1 update hupdate hnode.nodeID
      refine ⟨_, hrow, ⟨hnode.content, hnode.rendered, ?_, fun _ => hnode.version⟩,
        fun hactive _ => htarget hactive⟩
      rw [hnode.changed]
      intro hkeeps
      cases hkeeps
  · intro n hno
    rw [(hfind n).2, hstates]
    rintro update hupdate rfl
    obtain ⟨node, hmem, hserving, hnode⟩ := h.update update hupdate
    rw [hno node hmem hnode.nodeID.symm] at hserving
    cases hserving
  · intro target htarget
    obtain ⟨node, hmem, hserving, hactive, update, hupdate, hnode, rfl⟩ := h.target target htarget
    have hrow := (hfind node.id).1 update hupdate hnode.nodeID
    exact ⟨node, hmem, rfl, hserving, hactive, hnode.changed, _, hrow, rfl⟩

end SimpleCdn
