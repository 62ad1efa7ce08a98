import SimpleCdn.Control.Rebuild

/-!
# The publisher's entry points

What `PublishSite`, `PublishAll`, `PublishNode` and `StageSiteRemoval` write, each with the call
that rendered it.  The materials of a call are publications as they are stored, and for a publish
the draft of its site in the place of the site's publication.
-/

namespace SimpleCdn

/-! ### The calls -/

/-- The rendering call of `prepareNodeStates`. -/
def siteCall (db : Store) (siteID : String) (removing : Bool) (now : Time) :
    Except StoreError RenderCall := do
  let target ← db.getSite siteID
  let affected := prepareAffected db.listSitePublications target
    (db.publicationMigrationRequired siteID) db.listNodes
  if removing then
    return ⟨db, prepareMaterials db.listSitePublications siteID none, affected, now⟩
  else
    let draft ← draftMaterial target (db.certificate siteID)
    return ⟨db, prepareMaterials db.listSitePublications siteID (some draft), affected, now⟩

/-- The rendering call of `PublishAll`. -/
def allCall (db : Store) (now : Time) : RenderCall :=
  ⟨db, publicationMaterials db.listSitePublications, db.listNodes.map Node.id, now⟩

/-- The rendering call of `PublishNode`. -/
def nodeCall (db : Store) (nodeID : String) (now : Time) : RenderCall :=
  ⟨db, publicationMaterials db.listSitePublications, [nodeID], now⟩

/-! ### Materials -/

section Materials

variable {db : Store} {siteID : String} {now : Time}

theorem mem_listSitePublications {publication : SitePublication} :
    publication ∈ db.listSitePublications ↔ publication ∈ db.sitePublications :=
  List.mem_insertionSort _

theorem listSitePublications_nodup (db : Store) :
    (db.listSitePublications.map fun publication => publication.site.id).Nodup :=
  ((List.perm_insertionSort _ db.sitePublications.rows).map _).nodup_iff.mpr
    db.sitePublications.nodup

theorem mem_publicationMaterials {material : PublicationMaterial} :
    material ∈ publicationMaterials db.listSitePublications ↔
      ∃ publication ∈ db.sitePublications, publication.site.deleting = false ∧
        publication.material = material := by
  simp only [publicationMaterials, List.mem_map, List.mem_filter, mem_listSitePublications,
    Bool.not_eq_true', and_assoc]

theorem publicationMaterials_nodup (db : Store) :
    ((publicationMaterials db.listSitePublications).map fun material => material.site.id).Nodup := by
  rw [publicationMaterials, List.map_map]
  exact (listSitePublications_nodup db).sublist (List.filter_sublist.map _)

theorem mem_prepareMaterials {publications : List SitePublication}
    {draft : Option PublicationMaterial} {material : PublicationMaterial} :
    material ∈ prepareMaterials publications siteID draft ↔ material.site.deleting = false ∧
      ((∃ publication ∈ publications, publication.site.id ≠ siteID ∧
        publication.material = material) ∨ draft = some material) := by
  simp only [prepareMaterials, List.mem_insertionSort, List.mem_filter, List.mem_append,
    List.mem_map, Option.mem_toList, Bool.not_eq_true', decide_eq_true_eq,
    and_assoc]
  exact and_comm

theorem prepareMaterials_nodup {draft : Option PublicationMaterial}
    (hdraft : ∀ material, draft = some material → material.site.id = siteID) :
    ((prepareMaterials db.listSitePublications siteID draft).map
      fun material => material.site.id).Nodup := by
  rw [prepareMaterials]
  refine ((List.perm_insertionSort _ _).map _).nodup_iff.mpr ?_
  refine List.Nodup.sublist (List.filter_sublist.map _) ?_
  rw [List.map_append, List.nodup_append]
  refine ⟨?_, ?_, ?_⟩
  · rw [List.map_map]
    exact (listSitePublications_nodup db).sublist (List.filter_sublist.map _)
  · cases draft with
    | none => exact List.nodup_nil
    | some material => exact List.nodup_singleton _
  · intro id hother id' hid'
    obtain ⟨material, hmem, rfl⟩ := List.mem_map.mp hother
    obtain ⟨publication, hpublication, rfl⟩ := List.mem_map.mp hmem
    obtain ⟨draft', hdraft', rfl⟩ := List.mem_map.mp hid'
    have hne : publication.site.id ≠ siteID := by
      simpa using (List.mem_filter.mp hpublication).2
    rw [hdraft draft' (by simpa using hdraft')]
    exact hne

/-- A draft is the row with the certificate a snapshot would take. -/
theorem draftMaterial_eq_ok (now : Time) {row : Site} {draft : PublicationMaterial}
    (h : draftMaterial row (db.certificate row.id) = .ok draft) :
    draft = { (db.snapshot row now).material with site := row } := by
  simp only [SitePublication.material, Store.snapshot]
  unfold draftMaterial at h
  split at h
  · next found hfound =>
    have hfind : db.certificates.find? row.id = some found := hfound
    rw [hfind]
    exact (Except.ok.inj h).symm
  · next hnone =>
    have hfind : db.certificates.find? row.id = none := hnone
    simp only [bind_eq_ok, pure_eq_ok] at h
    obtain ⟨-, -, rfl⟩ := h
    rw [hfind]
    rfl

/-- The two fields a commit sets do not enter the rendering. -/
theorem renders_publishedSite {d : DesiredState} {site : Site} {bundle : Option TLSBundle}
    (h : d.Renders site bundle) : d.Renders (Store.publishedSite site now) bundle :=
  ⟨h.http, h.stream, h.certificate⟩

end Materials

/-- The certificate a publication is rendered with. -/
def SitePublication.bundle (publication : SitePublication) : Option TLSBundle :=
  publication.material.bundle

/-- The materials of a call that publishes or removes a site: the other sites' publications, and
the draft when there is one. -/
structure SiteCall (db : Store) (row : Site) (removing : Bool) (now : Time) (call : RenderCall) :
    Prop where
  db_eq : call.db = db
  affected : call.affected = prepareAffected db.listSitePublications row
    (db.publicationMigrationRequired row.id) db.listNodes
  nodup : (call.materials.map fun material => material.site.id).Nodup
  material : ∀ material, material ∈ call.materials ↔ material.site.deleting = false ∧
    ((∃ publication ∈ db.sitePublications, publication.site.id ≠ row.id ∧
      publication.material = material) ∨
    (removing = false ∧ material = { (db.snapshot row now).material with site := row }))

/-- A call for a site affects the nodes of its publication and of its draft. -/
theorem SiteCall.mem_affected {db : Store} {row : Site} {removing : Bool} {now : Time}
    {call : RenderCall} {n : String} (h : SiteCall db row removing now call)
    (hn : n ∈ row.nodes ∨ ∃ p, db.sitePublications.find? row.id = some p ∧ n ∈ p.site.nodes) :
    n ∈ call.affected := by
  rw [h.affected, prepareAffected, List.mem_append, List.mem_append]
  rcases hn with hn | ⟨p, hp, hn⟩
  · exact .inl (.inr hn)
  · refine .inl (.inl ?_)
    rw [List.mem_flatMap]
    refine ⟨p, ?_, hn⟩
    rw [List.mem_filter, mem_listSitePublications]
    have hid : p.site.id = row.id := Table.key_of_find? hp
    exact ⟨Table.mem_of_find? hp, by simpa using hid⟩

section EntryPoints

variable {db db' : Store} {siteID taskID nodeID : String} {removing : Bool} {now : Time}

theorem siteCall_eq_ok {call : RenderCall} (h : siteCall db siteID removing now = .ok call) :
    ∃ row, db.sites.find? siteID = some row ∧ SiteCall db row removing now call := by
  simp only [siteCall, bind_eq_ok, Store.getSite_eq_ok] at h
  obtain ⟨row, hrow, h⟩ := h
  obtain rfl : row.id = siteID := Table.key_of_find? hrow
  refine ⟨row, hrow, ?_⟩
  cases removing with
  | true =>
    rw [if_pos rfl] at h
    obtain rfl := pure_eq_ok.mp h
    refine ⟨rfl, rfl, prepareMaterials_nodup ?_, fun material => ?_⟩
    · intro _ hnone
      cases hnone
    · rw [mem_prepareMaterials]
      simp only [mem_listSitePublications, reduceCtorEq, or_false, Bool.true_eq_false, false_and]
  | false =>
    rw [if_neg Bool.false_ne_true] at h
    simp only [bind_eq_ok, pure_eq_ok] at h
    obtain ⟨draft, hdraft, rfl⟩ := h
    obtain rfl := draftMaterial_eq_ok now hdraft
    refine ⟨rfl, rfl, prepareMaterials_nodup ?_, fun material => ?_⟩
    · rintro _ ⟨⟩
      rfl
    · rw [mem_prepareMaterials]
      simp only [mem_listSitePublications, Option.some.injEq, true_and]
      rw [eq_comm (a := material)]

theorem prepareNodeStates_eq_ok {updates : List NodeStateUpdate} {targets : List PublishTaskNode}
    (h : prepareNodeStates db siteID removing now = .ok (updates, targets)) :
    ∃ row call, db.sites.find? siteID = some row ∧ (removing = true ∨ row.deleting = false) ∧
      siteCall db siteID removing now = .ok call ∧ SiteCall db row removing now call ∧
      Updates call updates targets := by
  simp only [prepareNodeStates, bind_eq_ok, Store.getSite_eq_ok, require_eq_ok, exists_const] at h
  obtain ⟨-, -, row, hrow, hdeleting, h⟩ := h
  suffices hcall : ∃ call, siteCall db siteID removing now = .ok call ∧
      call.run = .ok (updates, targets) by
    obtain ⟨call, hcall, hrun⟩ := hcall
    obtain ⟨row', hrow', hsite⟩ := siteCall_eq_ok hcall
    obtain rfl : row = row' := Option.some.inj (hrow.symm.trans hrow')
    exact ⟨row, call, hrow, hdeleting, hcall, hsite, call.run_eq_ok hsite.nodup hrun⟩
  simp only [siteCall, bind_eq_ok, Store.getSite_eq_ok, hrow]
  cases removing with
  | true =>
    rw [if_pos rfl] at h
    exact ⟨_, ⟨row, rfl, rfl⟩, h⟩
  | false =>
    rw [if_neg Bool.false_ne_true] at h
    obtain ⟨draft, hdraft, h⟩ := bind_eq_ok.mp h
    exact ⟨_, ⟨row, rfl, bind_eq_ok.mpr ⟨draft, hdraft, rfl⟩⟩, h⟩

/-- What a publish commits. -/
structure Committed (db : Store) (siteID taskID : String) (now : Time) (row : Site)
    (call : RenderCall) (targets : List PublishTaskNode) (db' : Store) : Prop where
  found : db.sites.find? siteID = some row
  live : row.deleting = false
  called : siteCall db siteID false now = .ok call
  site : SiteCall db row false now call
  rebuilt : Rebuilt call targets db'.nodeStates
  targets : ∃ rows, db'.publishTaskNodes = rows ∧
    Store.createPublishTaskNodes taskID targets db = .ok { db with publishTaskNodes := rows }
  written : ∃ claims, db' = { db with
    publishTaskNodes := db'.publishTaskNodes
    sitePublications := db.sitePublications.upsert (db.snapshot row now)
    nodeStates := db'.nodeStates
    siteDomains := claims
    sites := db.sites.update (fun row => row.id = siteID && row.deleting = false)
      (fun row => { row with published := true, updatedAt := now }) }

theorem publishPrepared_eq_ok {expectedConfigVersion : Nat} {targets : List PublishTaskNode}
    (h : publishPrepared db siteID taskID expectedConfigVersion now = .ok (targets, db')) :
    ∃ row call, Committed db siteID taskID now row call targets db' := by
  simp only [publishPrepared, bind_eq_ok, pure_eq_ok, Prod.exists, Prod.mk.injEq] at h
  obtain ⟨updates, targets, hprepare, site, db₁, hcommit, rfl, rfl⟩ := h
  obtain ⟨row, call, hrow, -, hcall, hsite, hupdates⟩ := prepareNodeStates_eq_ok hprepare
  obtain ⟨row', hrow', hlive, -, -, rows, states, claims, htargets, hstates, rfl⟩ :=
    Store.commitSitePublication_eq_ok hcommit
  obtain rfl : row = row' := Option.some.inj (hrow.symm.trans hrow')
  refine ⟨row, call, hrow, hlive, hcall, hsite, ?_, ⟨rows, rfl, htargets⟩, claims, rfl⟩
  have hrebuilt := hupdates.rebuilt hstates (by rw [hsite.db_eq])
  exact hrebuilt

theorem publishAll_eq_ok (h : publishAll db now = .ok db') :
    ∃ targets states, Rebuilt (allCall db now) targets states ∧
      db' = { db with nodeStates := states } := by
  simp only [publishAll, bind_eq_ok, Prod.exists] at h
  obtain ⟨-, -, updates, targets, hrun, hsave⟩ := h
  obtain ⟨states, rfl⟩ := Store.saveNodeStates_eq_ok hsave
  have hupdates := (allCall db now).run_eq_ok (publicationMaterials_nodup db) hrun
  exact ⟨targets, states, hupdates.rebuilt hsave rfl, rfl⟩

theorem publishNode_eq_ok (h : publishNode db nodeID now = .ok db') :
    ∃ targets states, Rebuilt (nodeCall db nodeID now) targets states ∧
      db' = { db with nodeStates := states } := by
  simp only [publishNode, bind_eq_ok, Prod.exists] at h
  obtain ⟨-, -, updates, targets, hrun, hsave⟩ := h
  obtain ⟨states, rfl⟩ := Store.saveNodeStates_eq_ok hsave
  have hupdates := (nodeCall db nodeID now).run_eq_ok (publicationMaterials_nodup db) hrun
  exact ⟨targets, states, hupdates.rebuilt hsave rfl, rfl⟩

/-- What staging a removal writes. -/
structure Staged (db : Store) (taskID siteID : String) (now : Time) (row : Site)
    (call : RenderCall) (targets : List PublishTaskNode) (db' : Store) : Prop where
  found : db.sites.find? siteID = some row
  job : ∃ job, db.siteDeletionJobForTask taskID = some job
  called : siteCall db siteID true now = .ok call
  site : SiteCall db row true now call
  rebuilt : Rebuilt call targets db'.nodeStates
  targets : ∃ rows, db'.publishTaskNodes = rows ∧
    Store.createPublishTaskNodes taskID targets db = .ok { db with publishTaskNodes := rows }
  written : db' = ({ db with
    publishTaskNodes := db'.publishTaskNodes
    nodeStates := db'.nodeStates
    siteDeletionJobs := db.siteDeletionJobs.update (fun job => job.taskID = taskID)
      (fun job => { job with phase := .waitingForEdges, updatedAt := now }) }).setTask taskID
        .applying "waiting for active edge nodes to remove the site" now

theorem stageSiteRemoval_eq_ok (h : stageSiteRemoval db taskID siteID now = .ok db') :
    ∃ row call targets, Staged db taskID siteID now row call targets db' := by
  simp only [stageSiteRemoval, bind_eq_ok, Prod.exists] at h
  obtain ⟨updates, targets, hprepare, hstage⟩ := h
  obtain ⟨row, call, hrow, -, hcall, hsite, hupdates⟩ := prepareNodeStates_eq_ok hprepare
  simp only [Store.stageSiteDeletion, bind_eq_ok] at hstage
  obtain ⟨-, -, db₁, htargets, db₂, hstates, hphase⟩ := hstage
  obtain ⟨rows, rfl, -⟩ := Store.createPublishTaskNodes_eq_ok htargets
  obtain ⟨states, rfl⟩ := Store.saveNodeStates_eq_ok hstates
  obtain ⟨hjob, rfl⟩ := Store.setSiteDeletionPhase_eq_ok hphase
  refine ⟨row, call, targets, hrow, hjob, hcall, hsite, ?_, ⟨rows, rfl, htargets⟩, rfl⟩
  have hrebuilt := hupdates.rebuilt hstates (by rw [hsite.db_eq])
  exact hrebuilt

end EntryPoints

end SimpleCdn
