import SimpleCdn.Control.Publisher
import SimpleCdn.Nginx.Serving

/-!
# What the publisher renders

`renderNodeStateUpdates` renders each affected node in service from the materials that list it.
`Rendering` states the result: the updates and targets, and for every node whether its state is
new, unchanged or left alone.  `Saved` is the same after the updates have been saved.  Proofs
about the entry points use these two and never look into the renderer.
-/

namespace SimpleCdn

/-! ### States with the same content -/

/-- The parts of two states that say which sites they serve, and how. -/
structure SameContent (d d' : DesiredState) : Prop where
  http : d.nginxConfig = d'.nginxConfig
  stream : d.nginxStreamConfig = d'.nginxStreamConfig
  certificates : ∀ id, d.certificates.lookup id = d'.certificates.lookup id

namespace SameContent

variable {d d' : DesiredState}

theorem refl (d : DesiredState) : SameContent d d :=
  ⟨rfl, rfl, fun _ => rfl⟩

theorem symm (h : SameContent d d') : SameContent d' d :=
  ⟨h.http.symm, h.stream.symm, fun id => (h.certificates id).symm⟩

theorem serves {id : String} (h : SameContent d d') (hserves : d.serves id) : d'.serves id := by
  unfold DesiredState.serves at hserves ⊢
  rwa [h.http, h.stream, h.certificates] at hserves

theorem renders {site : Site} {bundle : Option TLSBundle} (h : SameContent d d')
    (hrenders : d.Renders site bundle) : d'.Renders site bundle where
  http := by
    rw [← h.http]
    exact hrenders.http
  stream := by
    rw [← h.stream]
    exact hrenders.stream
  certificate := by
    rw [← h.certificates]
    exact hrenders.certificate

end SameContent

theorem lookup_eq_none_of_not_mem {entries : List (String × TLSBundle)} {name : String}
    (h : name ∉ entries.map Prod.fst) : entries.lookup name = none := by
  rw [List.lookup_eq_none_iff]
  rintro ⟨other, bundle⟩ hmem
  have hne : other ≠ name := fun heq => h (List.mem_map.mpr ⟨(other, bundle), hmem, heq⟩)
  simpa using fun heq => hne heq.symm

/-- Equal maps have equal entries under every name. -/
theorem mapsEqual_lookup {left right : List (String × TLSBundle)} (h : mapsEqual left right = true)
    (name : String) : left.lookup name = right.lookup name := by
  simp only [mapsEqual, List.all_eq_true, decide_eq_true_eq] at h
  by_cases hmem : name ∈ left.map Prod.fst ++ right.map Prod.fst
  · exact h name hmem
  · rw [List.mem_append, not_or] at hmem
    rw [lookup_eq_none_of_not_mem hmem.1, lookup_eq_none_of_not_mem hmem.2]

theorem nodeStateMatches_same {previous content : DesiredState}
    (h : nodeStateMatches previous content = true) : SameContent previous content := by
  simp only [nodeStateMatches, Bool.and_eq_true, decide_eq_true_eq] at h
  obtain ⟨⟨⟨⟨⟨⟨⟨hconfig, hstream⟩, -⟩, -⟩, -⟩, -⟩, -⟩, hcertificates⟩ := h
  exact ⟨hconfig, hstream, mapsEqual_lookup hcertificates⟩

/-! ### Materials -/

/-- The certificate a material is rendered with. -/
def PublicationMaterial.bundle (material : PublicationMaterial) : Option TLSBundle :=
  if !material.site.enabled || !material.site.needsCertificate then none
  else match material.certificateCiphertext, material.keyCiphertext with
    | some certificateCiphertext, some keyCiphertext =>
      some ⟨decrypt certificateCiphertext, decrypt keyCiphertext⟩
    | _, _ => none

theorem materialBundle_eq_ok {material : PublicationMaterial} {now : Time}
    {bundle : Option TLSBundle} (h : materialBundle material now = .ok bundle) :
    bundle = material.bundle := by
  unfold materialBundle at h
  unfold PublicationMaterial.bundle
  split at h
  · next hno =>
    rw [if_pos hno]
    exact (Except.ok.inj h).symm
  · next hneeded =>
    rw [if_neg hneeded]
    split at h
    · next hcertificate hkey =>
      simp only [bind_eq_ok, pure_eq_ok] at h
      obtain ⟨-, -, -, -, rfl⟩ := h
      simp [hcertificate, hkey]
    · cases h

def PublicationMaterial.rendered (material : PublicationMaterial) : RenderedPublication :=
  ⟨material.site, material.bundle⟩

theorem decryptPublicationMaterials_eq_ok {affected : List String} {now : Time}
    {materials : List PublicationMaterial} {rendered : List RenderedPublication}
    (h : decryptPublicationMaterials affected now materials = .ok rendered) :
    rendered = (materials.filter fun material => siteTouchesNodes material.site affected).map
      PublicationMaterial.rendered := by
  induction materials generalizing rendered with
  | nil => exact (Except.ok.inj h).symm
  | cons material materials ih =>
    simp only [decryptPublicationMaterials] at h
    split at h
    · next htouches =>
      simp only [bind_eq_ok, pure_eq_ok] at h
      obtain ⟨bundle, hbundle, rest, hrest, rfl⟩ := h
      rw [List.filter_cons_of_pos (by simpa using htouches), List.map_cons, ← ih hrest,
        materialBundle_eq_ok hbundle]
      rfl
    · next hno =>
      rw [List.filter_cons_of_neg (by simpa using hno)]
      exact ih h

theorem siteTouchesNodes_of_mem {site : Site} {affected : List String} {n : String}
    (hsite : siteHasNode site n = true) (hn : n ∈ affected) :
    siteTouchesNodes site affected = true := by
  simp only [siteTouchesNodes, List.any_eq_true]
  refine ⟨n, ?_, ?_⟩
  · simpa [siteHasNode] using hsite
  · simpa using hn

/-- What an affected node is assigned: the materials that list it. -/
theorem assignedPublications_eq {affected : List String} {now : Time}
    {materials : List PublicationMaterial} {rendered : List RenderedPublication} {n : String}
    (h : decryptPublicationMaterials affected now materials = .ok rendered) (hn : n ∈ affected) :
    assignedPublications rendered n =
      (materials.filter fun material => siteHasNode material.site n).map
        PublicationMaterial.rendered := by
  rw [decryptPublicationMaterials_eq_ok h, assignedPublications, List.filter_map,
    List.filter_filter]
  congr 1
  refine List.filter_congr fun material _ => ?_
  have hsite : (PublicationMaterial.rendered material).site = material.site := rfl
  simp only [Function.comp_apply, hsite]
  cases hhas : siteHasNode material.site n with
  | false => rfl
  | true => rw [siteTouchesNodes_of_mem hhas hn, Bool.and_self]

/-! ### One node -/

/-- What a state for the node `n` holds when it has been rendered from `materials`. -/
structure Content (materials : List PublicationMaterial) (n : String) (d : DesiredState) : Prop where
  renders : ∀ material ∈ materials, n ∈ material.site.nodes →
    d.Renders material.site material.bundle
  serves : ∀ id, d.serves id → ∃ material ∈ materials,
    n ∈ material.site.nodes ∧ material.site.id = id ∧ material.site.enabled = true

theorem Content.same {materials : List PublicationMaterial} {n : String} {d d' : DesiredState}
    (h : Content materials n d) (hsame : SameContent d d') : Content materials n d' where
  renders := fun material hmem hnode => hsame.renders (h.renders material hmem hnode)
  serves := fun id hserves => h.serves id (hsame.symm.serves hserves)

theorem renderNode_eq_ok {db : Store} {sites : List Site}
    {certificates : List (String × TLSBundle)} {node : Node} {d : DesiredState}
    (h : renderNode db sites certificates node = .ok d) :
    (∀ item, item ∈ d.nginxConfig.sites ↔
      ∃ site ∈ sites, Nginx.httpEnabled site = true ∧ Nginx.renderSite site = .ok item) ∧
    (∀ server, server ∈ d.nginxStreamConfig ↔
      ∃ site ∈ sites, server ∈ Nginx.siteServers site) ∧
    d.certificates = certificates := by
  simp only [renderNode, bind_eq_ok, mapError_eq_ok, pure_eq_ok, Prod.exists] at h
  obtain ⟨-, -, _, -, config, hconfig, streamConfig, hstream, _, _, -, rfl⟩ := h
  exact ⟨Nginx.mem_renderWithOptions hconfig, Nginx.mem_renderStream hstream, rfl⟩

/-- The site that keeps an empty node off port 80 renders nothing. -/
theorem placeholderSite_renders_nothing :
    Nginx.httpEnabled placeholderSite = false ∧ Nginx.siteServers placeholderSite = [] :=
  ⟨rfl, rfl⟩

/-- The sites of a node that render anything are those of its materials. -/
theorem exists_mem_nodeSites {rendered : List RenderedPublication} {n : String}
    {previous : Option DesiredState} {materials : List PublicationMaterial}
    (hassigned : assignedPublications rendered n = materials.map PublicationMaterial.rendered)
    {P : Site → Prop} (hplaceholder : ¬ P placeholderSite) :
    (∃ site ∈ nodeSites rendered n previous, P site) ↔ ∃ material ∈ materials, P material.site := by
  unfold nodeSites
  rw [hassigned]
  cases materials with
  | nil =>
    simp only [List.map_nil, List.not_mem_nil, false_and, exists_false, iff_false]
    rintro ⟨site, hmem, hP⟩
    split at hmem
    · rw [List.mem_singleton.mp hmem] at hP
      exact hplaceholder hP
    · cases hmem
  | cons material materials =>
    have hsite : ∀ m, (PublicationMaterial.rendered m).site = m.site := fun _ => rfl
    simp only [List.map_cons, List.map_map, List.mem_cons, List.mem_map, Function.comp_apply,
      exists_eq_or_imp, hsite]
    refine or_congr_right ?_
    constructor
    · rintro ⟨site, ⟨m, hm, rfl⟩, hP⟩
      exact ⟨m, hm, hP⟩
    · rintro ⟨m, hm, hP⟩
      exact ⟨m.site, ⟨m, hm, rfl⟩, hP⟩

/-- The certificate listed for a material is its own. -/
theorem lookup_bundle {materials : List PublicationMaterial}
    (hnodup : (materials.map fun material => material.site.id).Nodup) {id : String} :
    (materials.filterMap fun material =>
        material.bundle.map fun bundle => (material.site.id, bundle)).lookup id =
      (materials.find? fun material => material.site.id = id).bind PublicationMaterial.bundle := by
  induction materials with
  | nil => rfl
  | cons material materials ih =>
    rw [List.map_cons, List.nodup_cons] at hnodup
    have hih := ih hnodup.2
    by_cases hid : material.site.id = id
    · rw [List.find?_cons_of_pos (by simpa using hid)]
      cases hbundle : material.bundle with
      | some bundle =>
        rw [List.filterMap_cons_some (by rw [hbundle]; rfl), hid, List.lookup_cons_self]
        simp [hbundle]
      | none =>
        rw [List.filterMap_cons_none (by rw [hbundle]; rfl), hih]
        have hnone : (materials.find? fun m => m.site.id = id) = none := by
          refine List.find?_eq_none.mpr fun m hm => ?_
          simp only [decide_eq_true_eq]
          intro hm'
          exact hnodup.1 (List.mem_map.mpr ⟨m, hm, hm'.trans hid.symm⟩)
        simp [hnone, hbundle]
    · rw [List.find?_cons_of_neg (by simpa using hid)]
      cases hbundle : material.bundle with
      | some bundle =>
        rw [List.filterMap_cons_some (by rw [hbundle]; rfl), List.lookup_cons]
        have hne : (id == material.site.id) = false := by
          simpa using fun h => hid h.symm
        rw [hne]
        exact hih
      | none =>
        rw [List.filterMap_cons_none (by rw [hbundle]; rfl)]
        exact hih

theorem find?_site_id {materials : List PublicationMaterial}
    (hnodup : (materials.map fun material => material.site.id).Nodup)
    {material : PublicationMaterial} (hmem : material ∈ materials) :
    (materials.find? fun other => other.site.id = material.site.id) = some material := by
  cases hfind : materials.find? fun other => other.site.id = material.site.id with
  | none =>
    have hno := List.find?_eq_none.mp hfind material hmem
    simp at hno
  | some other =>
    have hother := List.mem_of_find?_eq_some hfind
    have hid : other.site.id = material.site.id := by simpa using List.find?_some hfind
    rw [List.inj_on_of_nodup_map hnodup hother hmem hid]

/-- Rendering an affected node gives the content of the materials. -/
theorem renderNode_content {db : Store} {affected : List String} {now : Time}
    {materials : List PublicationMaterial} {rendered : List RenderedPublication} {node : Node}
    {previous : Option DesiredState} {d : DesiredState}
    (hnodup : (materials.map fun material => material.site.id).Nodup)
    (hdecrypt : decryptPublicationMaterials affected now materials = .ok rendered)
    (hnode : node.id ∈ affected)
    (h : renderNode db (nodeSites rendered node.id previous)
      (nodeCertificates rendered node.id) node = .ok d) :
    Content materials node.id d := by
  obtain ⟨hhttp, hstream, hcertificates⟩ := renderNode_eq_ok h
  have hassigned := assignedPublications_eq hdecrypt hnode
  have hnodup' := hnodup.sublist
    ((List.filter_sublist (p := fun material : PublicationMaterial =>
      siteHasNode material.site node.id)).map fun material => material.site.id)
  have hmem : ∀ material, material ∈ (materials.filter fun material =>
      siteHasNode material.site node.id) ↔ material ∈ materials ∧ node.id ∈ material.site.nodes := by
    intro material
    simp [siteHasNode]
  generalize materials.filter (fun material => siteHasNode material.site node.id) = assigned at *
  have hhttp : ∀ item, item ∈ d.nginxConfig.sites ↔ ∃ material ∈ assigned,
      Nginx.httpEnabled material.site = true ∧ Nginx.renderSite material.site = .ok item := by
    intro item
    rw [hhttp]
    refine exists_mem_nodeSites hassigned ?_
    simp [placeholderSite_renders_nothing.1]
  have hstream : ∀ server, server ∈ d.nginxStreamConfig ↔ ∃ material ∈ assigned,
      server ∈ Nginx.siteServers material.site := by
    intro server
    rw [hstream]
    refine exists_mem_nodeSites hassigned ?_
    simp [placeholderSite_renders_nothing.2]
  have hlookup : ∀ id, d.certificates.lookup id =
      (assigned.find? fun material => material.site.id = id).bind PublicationMaterial.bundle := by
    intro id
    rw [hcertificates, nodeCertificates, hassigned, List.filterMap_map]
    exact lookup_bundle hnodup'
  constructor
  · intro material hmaterial hnodes
    have hin := (hmem material).mpr ⟨hmaterial, hnodes⟩
    refine ⟨fun item => ?_, fun server => ?_, ?_⟩
    · rw [hhttp]
      constructor
      · rintro ⟨⟨other, hother, henabled, hrender⟩, hid⟩
        rw [Nginx.renderSite_id hrender] at hid
        rw [← List.inj_on_of_nodup_map hnodup' hother hin hid]
        exact ⟨henabled, hrender⟩
      · rintro ⟨henabled, hrender⟩
        exact ⟨⟨material, hin, henabled, hrender⟩, Nginx.renderSite_id hrender⟩
    · rw [hstream]
      constructor
      · rintro ⟨⟨other, hother, hserver⟩, hid⟩
        rw [Nginx.siteServers_id hserver] at hid
        rw [← List.inj_on_of_nodup_map hnodup' hother hin hid]
        exact hserver
      · intro hserver
        exact ⟨⟨material, hin, hserver⟩, Nginx.siteServers_id hserver⟩
    · rw [hlookup, find?_site_id hnodup' hin]
      rfl
  · rintro id (⟨item, hitem, rfl⟩ | ⟨server, hserver, rfl⟩ | hcertificate)
    · obtain ⟨material, hmaterial, henabled, hrender⟩ := (hhttp item).mp hitem
      obtain ⟨hmaterials, hnodes⟩ := (hmem material).mp hmaterial
      simp only [Nginx.httpEnabled, Bool.and_eq_true] at henabled
      exact ⟨material, hmaterials, hnodes, (Nginx.renderSite_id hrender).symm, henabled.1⟩
    · obtain ⟨material, hmaterial, hin⟩ := (hstream server).mp hserver
      obtain ⟨hmaterials, hnodes⟩ := (hmem material).mp hmaterial
      refine ⟨material, hmaterials, hnodes, (Nginx.siteServers_id hin).symm, ?_⟩
      by_contra hdisabled
      simp [Nginx.siteServers, hdisabled] at hin
    · rw [hlookup] at hcertificate
      obtain ⟨bundle, hbundle⟩ := Option.isSome_iff_exists.mp hcertificate
      obtain ⟨material, hfind, hbundle⟩ := Option.bind_eq_some_iff.mp hbundle
      obtain ⟨hmaterials, hnodes⟩ := (hmem material).mp (List.mem_of_find?_eq_some hfind)
      have hid : material.site.id = id := by simpa using List.find?_some hfind
      refine ⟨material, hmaterials, hnodes, hid, ?_⟩
      by_contra hdisabled
      simp [PublicationMaterial.bundle, hdisabled] at hbundle

end SimpleCdn
