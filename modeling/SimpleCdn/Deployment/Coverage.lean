import SimpleCdn.Deployment.Steps

/-!
# Node states cover the publications

A node in service holds, for every publication that lists it, exactly what the renderer makes of
that publication, and nothing of any other site.  A site that is being deleted leaves its nodes
when its removal is staged; until then DNS is withdrawn and the nodes go on serving it.

Two things take a node out of step.  The publisher passes over a retired node, and nothing renders
it when it comes back; and the publisher goes on rendering a publication whose removal has been
staged, because the snapshot it reads was taken before the site was marked.  In runs where neither
happens, `covered_of_covering` holds of every state.
-/

namespace SimpleCdn

/-- The removal of the site has been staged and the site not been removed yet. -/
def Store.staged (db : Store) (siteID : String) : Bool :=
  (db.deletionOf siteID).any fun deletion => deletion.2 ≠ .withdrawingDNS

theorem Store.staged_congr {db db' : Store} {siteID : String}
    (h : db'.deletionOf siteID = db.deletionOf siteID) : db'.staged siteID = db.staged siteID := by
  rw [Store.staged, Store.staged, h]

namespace Deployment

open Transition

/-- The stored state of the node is what its publications ask for. -/
structure NodeCovered (db : Store) (n : String) : Prop where
  renders : ∀ id p, db.sitePublications.find? id = some p → n ∈ p.site.nodes →
    (∀ row, db.sites.find? id = some row → row.deleting = false) →
    ∃ row, db.nodeStates.find? n = some row ∧ row.state.Renders p.site p.bundle
  serves : ∀ row, db.nodeStates.find? n = some row → ∀ id, row.state.serves id →
    ∃ p, db.sitePublications.find? id = some p ∧ n ∈ p.site.nodes ∧ p.site.enabled = true ∧
      row.state.Renders p.site p.bundle ∧ db.staged id = false

/-- The nodes that DNS may select hold what their publications ask for. -/
def Covered (s : State) : Prop :=
  ∀ n node, s.store.nodes.find? n = some node → (node.status = .active ∨ node.status = .draining) →
    NodeCovered s.store n

/-- The call renders no node that the publication of a site lists whose removal is staged. -/
def NoStagedSite (s : State) (a : Action) : Prop :=
  ∀ call ∈ s.rendering a, ∀ p ∈ s.store.sitePublications.rows, p.site.enabled = true →
    s.store.staged p.site.id = true → ∀ node ∈ s.store.nodes.rows, call.serving node = true →
      node.id ∉ p.site.nodes

/-- No node that was passed over comes back into service. -/
def NoneReturns (s : State) (a : Action) : Prop :=
  ∀ node ∈ (step s a).store.nodes.rows, node.id ∈ s.passedOver → node.status.retired = true

def Covering (s : State) (a : Action) : Prop :=
  NoStagedSite s a ∧ NoneReturns s a

instance (s : State) (a : Action) : Decidable (Covering s a) := by
  unfold Covering NoStagedSite NoneReturns
  infer_instance

/-- What holds of every node that has not been passed over. -/
structure Current (s : State) : Prop where
  covered : ∀ n node, s.store.nodes.find? n = some node → node.status ≠ .uninstalled →
    n ∉ s.passedOver → NodeCovered s.store n
  retired : ∀ n node, s.store.nodes.find? n = some node → n ∈ s.passedOver →
    node.status.retired = true
  issued : s.passedOver ⊆ s.store.issuedIDs

theorem current_initial : Current initial := by
  constructor
  case covered => simp [initial, Store.empty]
  case retired => simp [initial, Store.empty]
  case issued => exact List.nil_subset _

theorem Current.covers {s : State} (h : Current s) : Covered s := by
  intro n node hnode hstatus
  refine h.covered n node hnode ?_ ?_
  · rcases hstatus with hstatus | hstatus
    · rw [hstatus]
      nofun
    · rw [hstatus]
      nofun
  · intro hpassed
    have hretired := h.retired n node hnode hpassed
    rcases hstatus with hstatus | hstatus
    · rw [hstatus] at hretired
      cases hretired
    · rw [hstatus] at hretired
      cases hretired

/-! ### One node -/

section Nodes

variable {r : Option RenderCall} {s s' : State} {a : Action} {n : String}

/-- A node whose state and publications stay as they are stays covered, unless a removal is
staged. -/
theorem NodeCovered.congr {db db' : Store} (h : NodeCovered db n)
    (hstates : db'.nodeStates.find? n = db.nodeStates.find? n)
    (hpublications : ∀ id p, (db'.sitePublications.find? id = some p ∧ n ∈ p.site.nodes) ↔
      (db.sitePublications.find? id = some p ∧ n ∈ p.site.nodes))
    (hlive : ∀ id, (∃ p, db'.sitePublications.find? id = some p ∧ n ∈ p.site.nodes) →
      (∀ row, db'.sites.find? id = some row → row.deleting = false) →
      ∀ row, db.sites.find? id = some row → row.deleting = false)
    (hstaged : ∀ id p, db.sitePublications.find? id = some p → n ∈ p.site.nodes →
      db.staged id = false → db'.staged id = false) : NodeCovered db' n where
  renders := by
    intro id p hp hn hrow
    obtain ⟨hold, -⟩ := (hpublications id p).mp ⟨hp, hn⟩
    rw [hstates]
    exact h.renders id p hold hn (hlive id ⟨p, hp, hn⟩ hrow)
  serves := by
    intro row hrow id hserves
    rw [hstates] at hrow
    obtain ⟨p, hp, hn, henabled, hrenders, hunstaged⟩ := h.serves row hrow id hserves
    obtain ⟨hp', -⟩ := (hpublications id p).mpr ⟨hp, hn⟩
    exact ⟨p, hp', hn, henabled, hrenders, hstaged id p hp hn hunstaged⟩

/-- The publication a material stands for: every state that renders the one renders the other. -/
structure StandsFor (material : PublicationMaterial) (p : SitePublication) : Prop where
  nodes : p.site.nodes = material.site.nodes
  enabled : p.site.enabled = material.site.enabled
  renders : ∀ d : DesiredState, d.Renders material.site material.bundle → d.Renders p.site p.bundle

theorem standsFor_material (p : SitePublication) : StandsFor p.material p :=
  ⟨rfl, rfl, fun _ h => h⟩

/-- A draft stands for the snapshot that is taken of it. -/
theorem standsFor_snapshot (db : Store) (row : Site) (now : Time) :
    StandsFor { (db.snapshot row now).material with site := row } (db.snapshot row now) :=
  ⟨rfl, rfl, fun _ h => renders_publishedSite h⟩

/-- A state rendered from materials that stand for the publications covers its node. -/
theorem Content.nodeCovered {db : Store} {materials : List PublicationMaterial} {row : NodeStateRow}
    (hrow : db.nodeStates.find? n = some row) (hcontent : Content materials n row.state)
    (hpublished : ∀ id p, db.sitePublications.find? id = some p → n ∈ p.site.nodes →
      (∀ row, db.sites.find? id = some row → row.deleting = false) →
      ∃ material ∈ materials, StandsFor material p)
    (hmaterial : ∀ material ∈ materials, n ∈ material.site.nodes → material.site.enabled = true →
      ∃ p, db.sitePublications.find? material.site.id = some p ∧ StandsFor material p ∧
        db.staged material.site.id = false) : NodeCovered db n where
  renders := by
    intro id p hp hn hlive
    obtain ⟨material, hmem, hstands⟩ := hpublished id p hp hn hlive
    rw [hstands.nodes] at hn
    exact ⟨row, hrow, hstands.renders _ (hcontent.renders material hmem hn)⟩
  serves := by
    intro row' hrow' id hserves
    obtain rfl := Option.some.inj (hrow.symm.trans hrow')
    obtain ⟨material, hmem, hn, rfl, henabled⟩ := hcontent.serves id hserves
    obtain ⟨p, hp, hstands, hunstaged⟩ := hmaterial material hmem hn henabled
    refine ⟨p, hp, ?_, ?_, ?_, hunstaged⟩
    · rw [hstands.nodes]
      exact hn
    · rw [hstands.enabled]
      exact henabled
    · exact hstands.renders _ (hcontent.renders material hmem hn)

/-- A rendered publication of another site keeps its place: it was not staged. -/
theorem unstaged_of_guard {call : RenderCall} {node : Node} {p : SitePublication}
    (hguard : NoStagedSite s a) (hrendering : s.rendering a = some call)
    (hnode : s.store.nodes.find? n = some node) (hserving : call.serving node = true)
    (hp : p ∈ s.store.sitePublications) (henabled : p.site.enabled = true)
    (hn : n ∈ p.site.nodes) : s.store.staged p.site.id = false := by
  by_contra hstaged
  have hid : node.id = n := Table.key_of_find? hnode
  refine hguard call hrendering p hp henabled (by simpa using hstaged) node
    (Table.mem_of_find? hnode) hserving ?_
  rw [hid]
  exact hn

/-- An affected node that is not rendered is passed over. -/
theorem Saves.not_affected {call : RenderCall} {targets : List PublishTaskNode} {node : Node}
    (h : Saves r s s' call targets) (hnode : s.store.nodes.find? n = some node)
    (hserving : call.serving node = false) (hpassed : n ∉ call.passedOver) : n ∉ call.affected := by
  intro haffected
  have hid : node.id = n := Table.key_of_find? hnode
  apply hpassed
  rw [RenderCall.mem_passedOver, h.base.nodes]
  refine ⟨haffected, node, hnode, ?_⟩
  by_contra hservice
  have hyes : call.serving node = true :=
    RenderCall.serving_iff.mpr ⟨by rw [hid]; exact haffected, by simpa using hservice⟩
  rw [hserving] at hyes
  cases hyes

end Nodes

/-! ### Every effect -/

section Effects

variable {s s' : State} {a : Action}

theorem Current.tables (h : Current s) (htables : SameTables s.store s'.store)
    (hpassed : s'.passedOver = s.passedOver) : Current s' where
  covered := by
    intro n node hnode hstatus hn
    rw [htables.nodes] at hnode
    rw [hpassed] at hn
    refine (h.covered n node hnode hstatus hn).congr ?_ ?_ ?_ ?_
    · rw [htables.states]
    · intro id p
      rw [htables.publications]
    · intro id _ hlive
      rw [htables.sites] at hlive
      exact hlive
    · intro id p _ _ hunstaged
      rw [Store.staged_congr (htables.deletions id)]
      exact hunstaged
  retired := by
    rw [htables.nodes, hpassed]
    exact h.retired
  issued := by
    rw [hpassed]
    exact List.Subset.trans h.issued htables.issued

theorem Current.site {id : String} {row' : Site} (h : Current s)
    (hwritten : SiteWritten s.store s'.store id row') (hpassed : s'.passedOver = s.passedOver) :
    Current s' where
  covered := by
    intro n node hnode hstatus hn
    rw [hwritten.nodes] at hnode
    rw [hpassed] at hn
    refine (h.covered n node hnode hstatus hn).congr ?_ ?_ ?_ ?_
    · rw [hwritten.states]
    · intro k p
      rw [hwritten.publications]
    · rintro k ⟨p, hp, -⟩ hlive row hrow
      rw [hwritten.sites] at hlive
      by_cases hk : k = id
      · -- the row that was there is live as well
        subst hk
        rcases hwritten.origin with ⟨hnone, -, -⟩ | ⟨old, hold, holdLive⟩
        · rw [hnone] at hrow
          cases hrow
        · rw [hold] at hrow
          rw [← Option.some.inj hrow]
          exact holdLive
      · exact hlive row (by rw [if_neg hk]; exact hrow)
    · intro k p _ _ hunstaged
      rw [Store.staged_congr (hwritten.deletions k)]
      exact hunstaged
  retired := by
    rw [hwritten.nodes, hpassed]
    exact h.retired
  issued := by
    rw [hpassed]
    exact List.Subset.trans h.issued hwritten.issued

/-- The nodes a call has passed over are retired and have been issued. -/
theorem Saves.passedOver {r : Option RenderCall} {call : RenderCall}
    {targets : List PublishTaskNode} (h : Saves r s s' call targets) (hs : Consistent s.store)
    (hcurrent : Current s) {n : String} (hn : n ∈ call.passedOver ++ s.passedOver) :
    n ∈ s'.store.issuedIDs ∧
      ∀ node, s'.store.nodes.find? n = some node → node.status.retired = true := by
  rcases List.mem_append.mp hn with hn | hn
  · rw [RenderCall.mem_passedOver, h.base.nodes] at hn
    obtain ⟨-, node, hnode, hretired⟩ := hn
    refine ⟨h.issued (hs.nodeIssued n node hnode), fun node' hnode' => ?_⟩
    rw [h.nodes, hnode] at hnode'
    rw [← Option.some.inj hnode']
    exact hretired
  · refine ⟨h.issued (hcurrent.issued hn), fun node hnode => ?_⟩
    rw [h.nodes] at hnode
    exact hcurrent.retired n node hnode hn

theorem Current.publish {siteID : String} {row : Site} {now : Time} {call : RenderCall}
    {targets : List PublishTaskNode} (h : Current s) (hs : Consistent s.store)
    (hpublishes : Publishes (s.rendering a) s s' siteID row now call targets)
    (hguard : NoStagedSite s a) : Current s' where
  covered := by
    intro n node hnode hstatus hn
    rw [hpublishes.nodes] at hnode
    rw [hpublishes.passedOver, List.mem_append, not_or] at hn
    obtain ⟨hnot, hn⟩ := hn
    have hid : row.id = siteID := Table.key_of_find? hpublishes.found
    have hbase := hpublishes.base
    have hsnapshot : call.db.snapshot row now = s.store.snapshot row now := by
      rw [Store.snapshot, Store.snapshot, hbase.certificates]
    have hunstaged : s.store.staged siteID = false := by
      -- a site that is being deleted is marked
      by_contra hstaged
      rw [Bool.not_eq_false, Store.staged, Option.any_eq_true] at hstaged
      obtain ⟨⟨t, phase⟩, hdeletion, -⟩ := hstaged
      obtain ⟨row', hrow', hdeleting⟩ := hs.deletionRow siteID t phase hdeletion
      rw [hpublishes.found] at hrow'
      rw [← Option.some.inj hrow', hpublishes.live] at hdeleting
      cases hdeleting
    rcases hpublishes.find?_state n with
      ⟨node', staterow, hnode', hserving, hrow, hrebuilt, -⟩ | ⟨hno, hsame⟩
    · have hkey : node'.id = n := Table.key_of_find? hnode'
      have hcontent := hrebuilt.content
      rw [hkey] at hcontent
      refine Content.nodeCovered hrow hcontent ?_ ?_
      · intro k p hp hnodes _
        rw [hpublishes.publications] at hp
        split at hp
        · next hk =>
          obtain rfl := Option.some.inj hp
          refine ⟨_, (hpublishes.site.material _).mpr ⟨hpublishes.live, .inr ⟨rfl, rfl⟩⟩, ?_⟩
          rw [hsnapshot]
          exact standsFor_snapshot s.store row now
        · next hk =>
          have hpid : p.site.id = k := Table.key_of_find? hp
          refine ⟨p.material, (hpublishes.site.material _).mpr ⟨hs.frozen k p hp,
            .inl ⟨p, ?_, ?_, rfl⟩⟩, standsFor_material p⟩
          · rw [hbase.publications]
            exact Table.mem_of_find? hp
          · rw [hpid, hid]
            exact hk
      · intro material hmem hnodes henabled
        rcases ((hpublishes.site.material material).mp hmem).2 with
          ⟨p, hp, hne, rfl⟩ | ⟨-, rfl⟩
        · rw [hbase.publications] at hp
          have hfind : s.store.sitePublications.find? p.site.id = some p := Table.find?_of_mem hp
          refine ⟨p, ?_, standsFor_material p, ?_⟩
          · rw [hpublishes.publications, if_neg]
            · exact hfind
            · rw [← hid]
              exact hne
          · have hold := unstaged_of_guard hguard hpublishes.rendering hnode' hserving hp henabled
              hnodes
            rw [Store.staged_congr (hpublishes.deletions _)]
            exact hold
        · refine ⟨s.store.snapshot row now, ?_, ?_, ?_⟩
          · rw [hpublishes.publications, if_pos hid]
          · rw [hsnapshot]
            exact standsFor_snapshot s.store row now
          · rw [Store.staged_congr (hpublishes.deletions _), hid]
            exact hunstaged
    · -- a node that is not rendered is not listed either
      have haffected := hpublishes.toSaves.not_affected hnode (hno node hnode) hnot
      have hdraft : n ∉ row.nodes := fun hmem =>
        haffected (hpublishes.site.mem_affected (.inl hmem))
      have hlisted : ∀ p, s.store.sitePublications.find? siteID = some p → n ∉ p.site.nodes := by
        intro p hp hmem
        refine haffected (hpublishes.site.mem_affected (.inr ⟨p, ?_, hmem⟩))
        rw [hbase.publications, hid]
        exact hp
      refine (h.covered n node hnode hstatus hn).congr hsame ?_ ?_ ?_
      · intro k p
        rw [hpublishes.publications]
        split
        · next hk =>
          subst hk
          constructor
          · rintro ⟨hp, hmem⟩
            rw [← Option.some.inj hp] at hmem
            exact absurd hmem hdraft
          · rintro ⟨hp, hmem⟩
            exact absurd hmem (hlisted p hp)
        · rfl
      · intro k hk hlive old hold
        rw [hpublishes.sites] at hlive
        split at hlive
        · next hk =>
          rw [hk, hpublishes.found] at hold
          rw [← Option.some.inj hold]
          exact hpublishes.live
        · exact hlive old hold
      · intro k p _ _ hold
        rw [Store.staged_congr (hpublishes.deletions k)]
        exact hold
  retired := by
    intro n node hnode hn
    rw [hpublishes.passedOver] at hn
    exact (hpublishes.toSaves.passedOver hs h hn).2 node hnode
  issued := by
    intro n hn
    rw [hpublishes.passedOver] at hn
    exact (hpublishes.toSaves.passedOver hs h hn).1

theorem Current.rebuild {call : RenderCall} {targets : List PublishTaskNode} (h : Current s)
    (hs : Consistent s.store) (hrebuilds : Rebuilds (s.rendering a) s s' call targets)
    (hguard : NoStagedSite s a) : Current s' where
  covered := by
    intro n node hnode hstatus hn
    rw [hrebuilds.nodes] at hnode
    rw [hrebuilds.passedOver] at hn
    rcases hrebuilds.find?_state n with
      ⟨node', staterow, hnode', hserving, hrow, hrebuilt, -⟩ | ⟨-, hsame⟩
    · have hkey : node'.id = n := Table.key_of_find? hnode'
      have hcontent := hrebuilt.content
      rw [hkey, hrebuilds.materials] at hcontent
      refine Content.nodeCovered hrow hcontent ?_ ?_
      · intro k p hp _ _
        rw [hrebuilds.publications] at hp
        refine ⟨p.material, mem_publicationMaterials.mpr ⟨p, Table.mem_of_find? hp,
          hs.frozen k p hp, rfl⟩, standsFor_material p⟩
      · intro material hmem hnodes henabled
        obtain ⟨p, hp, -, rfl⟩ := mem_publicationMaterials.mp hmem
        have hfind : s.store.sitePublications.find? p.site.id = some p := Table.find?_of_mem hp
        refine ⟨p, ?_, standsFor_material p, ?_⟩
        · rw [hrebuilds.publications]
          exact hfind
        · have hold := unstaged_of_guard hguard hrebuilds.rendering hnode' hserving hp henabled
            hnodes
          rw [Store.staged_congr (hrebuilds.deletions _)]
          exact hold
    · refine (h.covered n node hnode hstatus hn).congr hsame ?_ ?_ ?_
      · intro k p
        rw [hrebuilds.publications]
      · intro k _ hlive
        rw [hrebuilds.sites] at hlive
        exact hlive
      · intro k p _ _ hold
        rw [Store.staged_congr (hrebuilds.deletions k)]
        exact hold
  retired := by
    rw [hrebuilds.nodes, hrebuilds.passedOver]
    exact h.retired
  issued := by
    rw [hrebuilds.passedOver]
    exact List.Subset.trans h.issued hrebuilds.issued

theorem Current.stage {siteID taskID : String} {row : Site} {now : Time} {call : RenderCall}
    {targets : List PublishTaskNode} (h : Current s) (hs : Consistent s.store)
    (hstages : Stages (s.rendering a) s s' siteID taskID row now call targets)
    (hguard : NoStagedSite s a) : Current s' where
  covered := by
    intro n node hnode hstatus hn
    rw [hstages.nodes] at hnode
    rw [hstages.passedOver, List.mem_append, not_or] at hn
    obtain ⟨hnot, hn⟩ := hn
    have hid : row.id = siteID := Table.key_of_find? hstages.found
    have hbase := hstages.base
    have hother : ∀ k, k ≠ siteID → s'.store.staged k = s.store.staged k := by
      intro k hk
      refine Store.staged_congr ?_
      rw [hstages.deletions, if_neg hk]
    have hmarked : row.deleting = true := by
      obtain ⟨row', hrow', hdeleting⟩ := hs.deletionRow siteID _ _ hstages.phase
      rw [hstages.found] at hrow'
      rw [Option.some.inj hrow']
      exact hdeleting
    rcases hstages.find?_state n with
      ⟨node', staterow, hnode', hserving, hrow, hrebuilt, -⟩ | ⟨hno, hsame⟩
    · have hkey : node'.id = n := Table.key_of_find? hnode'
      have hcontent := hrebuilt.content
      rw [hkey] at hcontent
      refine Content.nodeCovered hrow hcontent ?_ ?_
      · intro k p hp hnodes hlive
        rw [hstages.publications] at hp
        have hpid : p.site.id = k := Table.key_of_find? hp
        have hk : k ≠ siteID := by
          rintro rfl
          have hno := hlive row (by rw [hstages.sites]; exact hstages.found)
          rw [hmarked] at hno
          cases hno
        refine ⟨p.material, (hstages.site.material _).mpr ⟨hs.frozen k p hp,
          .inl ⟨p, ?_, ?_, rfl⟩⟩, standsFor_material p⟩
        · rw [hbase.publications]
          exact Table.mem_of_find? hp
        · rw [hpid, hid]
          exact hk
      · intro material hmem hnodes henabled
        rcases ((hstages.site.material material).mp hmem).2 with ⟨p, hp, hne, rfl⟩ | ⟨hremoving, -⟩
        · rw [hbase.publications] at hp
          rw [hid] at hne
          have hfind : s.store.sitePublications.find? p.site.id = some p := Table.find?_of_mem hp
          refine ⟨p, ?_, standsFor_material p, ?_⟩
          · rw [hstages.publications]
            exact hfind
          · have hold := unstaged_of_guard hguard hstages.rendering hnode' hserving hp henabled
              hnodes
            exact (hother p.site.id hne).trans hold
        · cases hremoving
    · have haffected := hstages.toSaves.not_affected hnode (hno node hnode) hnot
      refine (h.covered n node hnode hstatus hn).congr hsame ?_ ?_ ?_
      · intro k p
        rw [hstages.publications]
      · intro k _ hlive
        rw [hstages.sites] at hlive
        exact hlive
      · intro k p hp hmem hold
        rw [hother k ?_]
        · exact hold
        · rintro rfl
          -- the publication of the site does not list a node that is not affected
          refine haffected (hstages.site.mem_affected (.inr ⟨p, ?_, hmem⟩))
          rw [hbase.publications, hid]
          exact hp
  retired := by
    intro n node hnode hn
    rw [hstages.passedOver] at hn
    exact (hstages.toSaves.passedOver hs h hn).2 node hnode
  issued := by
    intro n hn
    rw [hstages.passedOver] at hn
    exact (hstages.toSaves.passedOver hs h hn).1

theorem Current.begin {siteID taskID : String} {row : Site} (h : Current s)
    (hbegins : Begins s s' siteID taskID row) : Current s' where
  covered := by
    intro n node hnode hstatus hn
    rw [hbegins.nodes] at hnode
    rw [hbegins.passedOver] at hn
    obtain ⟨now, hsites⟩ := hbegins.sites
    refine (h.covered n node hnode hstatus hn).congr ?_ ?_ ?_ ?_
    · rw [hbegins.states]
    · intro k p
      rw [hbegins.publications]
    · intro k _ hlive' old hold
      rw [hsites] at hlive'
      split at hlive'
      · cases hlive' _ rfl
      · exact hlive' old hold
    · intro k p _ _ hold
      rw [Store.staged, hbegins.deletions]
      split
      · rfl
      · exact hold
  retired := by
    rw [hbegins.nodes, hbegins.passedOver]
    exact h.retired
  issued := by
    rw [hbegins.passedOver]
    exact List.Subset.trans h.issued hbegins.issued

theorem Current.confirm {siteID taskID : String} (h : Current s)
    (hconfirms : Confirms s s' siteID taskID) (hpassed : s'.passedOver = s.passedOver) :
    Current s' where
  covered := by
    intro n node hnode hstatus hn
    rw [hconfirms.nodes] at hnode
    rw [hpassed] at hn
    refine (h.covered n node hnode hstatus hn).congr ?_ ?_ ?_ ?_
    · rw [hconfirms.states]
    · intro k p
      rw [hconfirms.publications]
    · intro k _ hlive
      rw [hconfirms.sites] at hlive
      exact hlive
    · intro k p _ _ hold
      rw [Store.staged, hconfirms.deletions]
      split
      · next hk =>
        -- it was staged already
        rw [Store.staged, hk, hconfirms.phase] at hold
        cases hold
      · exact hold
  retired := by
    rw [hconfirms.nodes, hpassed]
    exact h.retired
  issued := by
    rw [hpassed]
    exact List.Subset.trans h.issued hconfirms.issued

theorem Current.remove {siteID taskID : String} (h : Current s)
    (hremoves : Removes s s' siteID taskID) (hpassed : s'.passedOver = s.passedOver) :
    Current s' where
  covered := by
    intro n node hnode hstatus hn
    rw [hremoves.nodes] at hnode
    rw [hpassed] at hn
    have hold := h.covered n node hnode hstatus hn
    constructor
    case renders =>
      intro k p hp hmem hlive
      rw [hremoves.publications] at hp
      split at hp
      · cases hp
      · next hk =>
        rw [hremoves.states]
        refine hold.renders k p hp hmem fun row hrow => hlive row ?_
        rw [hremoves.sites, if_neg hk]
        exact hrow
    case serves =>
      intro row hrow k hserves
      rw [hremoves.states] at hrow
      obtain ⟨p, hp, hmem, henabled, hrenders, hunstaged⟩ := hold.serves row hrow k hserves
      have hk : k ≠ siteID := by
        rintro rfl
        rw [Store.staged, hremoves.phase] at hunstaged
        cases hunstaged
      refine ⟨p, ?_, hmem, henabled, hrenders, ?_⟩
      · rw [hremoves.publications, if_neg hk]
        exact hp
      · rw [Store.staged, hremoves.deletions, if_neg hk]
        exact hunstaged
  retired := by
    rw [hremoves.nodes, hpassed]
    exact h.retired
  issued := by
    rw [hpassed]
    exact List.Subset.trans h.issued hremoves.issued

theorem Current.node (h : Current s) (hs : Consistent s.store)
    (heffect : Store.NodeEffect s.store s'.store) (hpassed : s'.passedOver = s.passedOver)
    (hreturns : ∀ node ∈ s'.store.nodes.rows, node.id ∈ s.passedOver →
      node.status.retired = true) : Current s' where
  covered := by
    intro n node' hnode' hstatus hn
    rw [hpassed] at hn
    have hpublications : ∀ id, s'.store.sitePublications.find? id =
        s.store.sitePublications.find? id := fun id => by rw [heffect.publications]
    have hstate : s'.store.nodeStates.find? n = s.store.nodeStates.find? n := by
      rcases heffect.state n with hsame | ⟨-, hgone⟩
      · exact hsame
      · exact absurd (hgone node' hnode') hstatus
    have hdeletion : ∀ id, s'.store.deletionOf id = s.store.deletionOf id := fun id => by
      rw [Store.deletionOf, Store.deletionOf, heffect.deletions]
    rcases heffect.node n node' hnode' with ⟨node, hnode, hkept⟩ | ⟨hnone, -, -, -⟩
    · have hnot : node.status ≠ .uninstalled := fun huninstalled =>
        hstatus (hkept.uninstalled huninstalled)
      refine (h.covered n node hnode hnot hn).congr hstate ?_ ?_ ?_
      · intro id p
        rw [hpublications]
      · intro id _ hlive
        rw [heffect.sites] at hlive
        exact hlive
      · intro id p _ _ hold
        rw [Store.staged_congr (hdeletion id)]
        exact hold
    · -- a new node is listed nowhere and has no state
      constructor
      case renders =>
        intro id p hp hmem _
        rw [hpublications] at hp
        obtain ⟨node, hnode⟩ := hs.publicationNodes id p hp n hmem
        rw [hnone] at hnode
        cases hnode
      case serves =>
        intro row hrow
        rw [hstate] at hrow
        obtain ⟨node, hnode, -⟩ := hs.stateNode n row hrow
        rw [hnone] at hnode
        cases hnode
  retired := by
    intro n node hnode hn
    have hid : node.id = n := Table.key_of_find? hnode
    rw [hpassed] at hn
    exact hreturns node (Table.mem_of_find? hnode) (by rw [hid]; exact hn)
  issued := by
    rw [hpassed]
    exact List.Subset.trans h.issued heffect.issued

end Effects

/-! ### Runs -/

/-- One step of a run that keeps to the two conditions. -/
theorem current_step {s : State} {a : Action} (hs : WellFormed s) (h : Current s)
    (hguard : Covering s a) : Current (step s a) := by
  obtain ⟨hstaged, hreturns⟩ := hguard
  cases step_effect hs a with
  | tables tables history => exact h.tables tables history.passedOver
  | site id row' written history => exact h.site written history.passedOver
  | publish siteID row now call targets publishes => exact h.publish hs.tables publishes hstaged
  | rebuild call targets rebuilds => exact h.rebuild hs.tables rebuilds hstaged
  | begin siteID taskID row begins => exact h.begin begins
  | stage siteID taskID row now call targets stages => exact h.stage hs.tables stages hstaged
  | confirm siteID taskID confirms history => exact h.confirm confirms history.passedOver
  | remove siteID taskID removes history => exact h.remove removes history.passedOver
  | node effect history => exact h.node hs.tables effect history.passedOver hreturns

/-- In a run in which no removed site is rendered again and no node that was passed over comes
back, the nodes in service hold what the publications ask for, in every state. -/
theorem covered_of_covering {as : List Action} (h : Along step Covering initial as) :
    Always step Covered initial as := by
  have hinv := h.always (P := fun s => WellFormed s ∧ Current s)
    (fun s a hs hguard => ⟨step_wellFormed hs.1 a, current_step hs.1 hs.2 hguard⟩)
    ⟨wellFormed_initial, current_initial⟩
  exact hinv.mono fun s hs => hs.2.covers

/-- A site is published on an edge, edited and published again. -/
def publishedTwice : List Action :=
  enrolled "edge" ++
    [.createSite "site" (forwardDraft "site" ["edge"] 9000 1) "zone" 2, .publishSite "site" "task" 3,
      applied "edge" 1 4, .updateSite "site" (forwardDraft "site" ["edge"] 9000 2) "zone" 5,
      .publishSite "site" "second" 6]

set_option maxRecDepth 20000 in
theorem publishedTwice_covered : Always step Covered initial publishedTwice :=
  covered_of_covering (by decide)

/-- The same, but the edge is revoked when the second publication is made and comes back later. -/
def revokedWhilePublished : List Action :=
  enrolled "edge" ++
    [.createSite "site" (forwardDraft "site" ["edge"] 9000 1) "zone" 2, .publishSite "site" "task" 3,
      applied "edge" 1 4, .updateSite "site" (forwardDraft "site" ["edge"] 9000 2) "zone" 5,
      .node (.setNodeStatus "edge" .revoked) 6, .publishSite "site" "second" 7,
      .node (.setNodeStatus "edge" .active) 8]

set_option maxRecDepth 20000 in
/-- The edge is active, its site forwards to port 2, and its state still forwards to port 1. -/
theorem revokedWhilePublished_not_covered :
    ¬ Covered (run step initial revokedWhilePublished) := by
  intro h
  have hactive : ((run step initial revokedWhilePublished).store.nodes.find? "edge").map Node.status =
      some .active := by decide
  have hpublication : ((run step initial revokedWhilePublished).store.sitePublications.find?
      "site").any (fun p => "edge" ∈ p.site.nodes ∧
        (Nginx.siteServers p.site).any (fun server => server.upstreamAddress = "192.0.2.9:2")) = true := by decide
  have hlive : ((run step initial revokedWhilePublished).store.sites.find? "site").all
      (fun row => row.deleting = false) = true := by decide
  have hstate : ((run step initial revokedWhilePublished).store.nodeStates.find? "edge").all
      (fun row => row.state.nginxStreamConfig.all fun server => server.upstreamAddress ≠ "192.0.2.9:2") = true := by
    decide
  obtain ⟨node, hnode, hstatus⟩ := Option.map_eq_some_iff.mp hactive
  rw [Option.any_eq_true] at hpublication
  obtain ⟨p, hp, hserver⟩ := hpublication
  simp only [decide_eq_true_eq, List.any_eq_true] at hserver
  obtain ⟨hedge, server, hmem, hport⟩ := hserver
  obtain ⟨row, hrow, hrenders⟩ := (h "edge" node hnode (.inl hstatus)).renders "site" p hp hedge (by
    intro row hrow
    rw [hrow] at hlive
    simpa using hlive)
  have hin := ((hrenders.stream server).mpr hmem).1
  rw [hrow, Option.all_some, List.all_eq_true] at hstate
  have hno := hstate server hin
  simp [hport] at hno

end Deployment

end SimpleCdn
