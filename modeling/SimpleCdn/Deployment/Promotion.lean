import SimpleCdn.Deployment.Answers
import SimpleCdn.Deployment.Renewal
import SimpleCdn.Deployment.Success
import SimpleCdn.Deployment.Withdrawal

/-!
# What promotes a draft

A request is an action, or one half of a cache invalidation: the handler first raises the cache
generation and then publishes the site.  So a publication is made in three ways: by a request to
publish the site, at the end of a renewal, and at the end of an invalidation.  The last two go
through `PublishSite` as well, which takes the draft as it is.  They keep the configuration of the
publication exactly when the draft has no pending edits, which is `promotes_iff_unedited`.
-/

namespace SimpleCdn.Deployment

open Transition

/-- The control plane, and the sites of the invalidation requests that have not published yet. -/
structure Handling where
  state : State
  invalidations : List String

inductive Request
  | action (a : Action)
  /-- `invalidateCache` up to its `PublishSite`. -/
  | invalidate (siteID : String) (now : Time)
  /-- The `PublishSite` of an `invalidateCache`. -/
  | publishInvalidated (i : Nat) (taskID : String) (now : Time)

def handle (h : Handling) : Request → Handling
  | .action a => { h with state := step h.state a }
  | .invalidate siteID now =>
    match h.state.store.invalidateSiteCache siteID now with
    | .ok (site, _) => ⟨step h.state (.invalidateCache siteID now), h.invalidations ++ [site.id]⟩
    | .error _ => h
  | .publishInvalidated i taskID now =>
    match h.invalidations[i]? with
    | some siteID => ⟨step h.state (.publishSite siteID taskID now), h.invalidations.eraseIdx i⟩
    | none => h

def Handling.initial : Handling where
  state := Deployment.initial
  invalidations := []

/-- The configuration is the same; the version, the mark and the time of the last change may
differ. -/
def SameConfig (site old : Site) : Prop :=
  { site with
    configVersion := old.configVersion
    published := old.published
    updatedAt := old.updatedAt } = old

/-- The same up to the cache generation. -/
def SameButGeneration (site old : Site) : Prop :=
  SameConfig { site with cacheGeneration := old.cacheGeneration } old

def SameCertificate (p old : SitePublication) : Prop :=
  p.certificateCiphertext = old.certificateCiphertext ∧ p.keyCiphertext = old.keyCiphertext ∧
    p.certificateNotAfter = old.certificateNotAfter

instance (site old : Site) : Decidable (SameConfig site old) :=
  inferInstanceAs (Decidable (_ = _))

instance (site old : Site) : Decidable (SameButGeneration site old) :=
  inferInstanceAs (Decidable (SameConfig _ _))

instance (p old : SitePublication) : Decidable (SameCertificate p old) :=
  inferInstanceAs (Decidable (_ ∧ _ ∧ _))

/-- How the request may change the publication `old` of a site to `p`. -/
def MayPublish (h : Handling) (siteID : String) (p old : SitePublication) : Request → Prop
  | .action (.publishSite requested _ _) => requested = siteID
  | .action (.publishRenewed _ _) => SameConfig p.site old.site
  | .publishInvalidated i _ _ =>
    h.invalidations[i]? = some siteID ∧ SameButGeneration p.site old.site ∧ SameCertificate p old
  | _ => False

/-- Every publication stays, or changes as the request may change it, and what is saved for a node
comes from publications. -/
structure OnlyRequestsPromote (h : Handling) (r : Request) : Prop where
  publication : ∀ siteID old p, h.state.store.sitePublications.find? siteID = some old →
    (handle h r).state.store.sitePublications.find? siteID = some p →
      p = old ∨ MayPublish h siteID p old r
  nodes : ∀ row ∈ h.state.newRows (handle h r).state.store, ∀ siteID, row.state.serves siteID →
    ∃ p, (handle h r).state.store.sitePublications.find? siteID = some p ∧
      row.nodeID ∈ p.site.nodes ∧ row.state.Renders p.site p.bundle

/-- The draft of the site has the configuration of its publication. -/
def DraftPublished (db : Store) (siteID : String) : Prop :=
  ∀ row ∈ db.sites.find? siteID, ∀ p ∈ db.sitePublications.find? siteID, SameConfig row p.site

/-- The draft differs from the publication in the cache generation at most, and its certificate is
the published one. -/
def OnlyInvalidated (db : Store) (siteID : String) : Prop :=
  ∀ row ∈ db.sites.find? siteID, ∀ p ∈ db.sitePublications.find? siteID,
    SameButGeneration row p.site ∧ SameCertificate (db.snapshot row 0) p

/-- A renewal or an invalidation that publishes finds no pending edits. -/
def Unedited (h : Handling) : Request → Prop
  | .action (.publishRenewed taskID now) =>
    ∀ call ∈ h.state.publishCall (.publishRenewed taskID now), call.commit.isSome = true →
      DraftPublished h.state.store call.siteID
  | .publishInvalidated i taskID now => ∀ siteID ∈ h.invalidations[i]?,
    (PublishCall.mk h.state.store siteID taskID now).commit.isSome = true →
      OnlyInvalidated h.state.store siteID
  | _ => True

/-! ### The publications of a step -/

section Steps

variable {s s' : State} {a : Action}

theorem commit_siteID {call : PublishCall} {commit : Commit} (h : call.commit = some commit) :
    commit.publication.site.id = call.siteID := by
  unfold PublishCall.commit at h
  split at h
  · split at h
    · obtain ⟨p, hp, rfl⟩ := Option.map_eq_some_iff.mp h
      exact Table.key_of_find? hp
    · cases h
  · cases h

/-- The site of a publish effect is that of the publish call. -/
theorem Publishes.call {siteID : String} {row : Site} {now : Time} {call : RenderCall}
    {targets : List PublishTaskNode}
    (h : Publishes (s.rendering a) s (step s a) siteID row now call targets) :
    ∃ publish, s.publishCall a = some publish ∧ publish.siteID = siteID ∧
      publish.commit.isSome = true := by
  obtain ⟨taskID, -, hcommits⟩ := h.committed
  rw [(step_commits s a).1] at hcommits
  -- the step has a commit, so its action makes a call
  cases hcall : s.publishCall a with
  | none =>
    rw [hcall] at hcommits
    exact absurd hcommits.symm (List.cons_ne_self _ _)
  | some publish =>
    rw [hcall, Option.bind_some] at hcommits
    cases hcommit : publish.commit with
    | none =>
      rw [hcommit] at hcommits
      exact absurd hcommits.symm (List.cons_ne_self _ _)
    | some commit =>
      rw [hcommit, Option.toList_some, List.singleton_append, List.cons.injEq] at hcommits
      refine ⟨publish, rfl, ?_, by rw [hcommit]; rfl⟩
      have hpublication := commit_siteID hcommit
      rw [hcommits.1] at hpublication
      exact hpublication.symm.trans (Table.key_of_find? h.found)

/-- A publication stays, is removed, or is replaced by the draft of a publish call. -/
theorem step_publication (hs : WellFormed s) {siteID : String} {old p : SitePublication}
    (hold : s.store.sitePublications.find? siteID = some old)
    (hp : (step s a).store.sitePublications.find? siteID = some p) :
    p = old ∨ ∃ publish row now, s.publishCall a = some publish ∧ publish.siteID = siteID ∧
      publish.commit.isSome = true ∧ s.store.sites.find? siteID = some row ∧
      p = s.store.snapshot row now := by
  have hsame : (step s a).store.sitePublications.find? siteID =
      s.store.sitePublications.find? siteID → p = old := by
    intro hkept
    rw [hkept, hold] at hp
    exact (Option.some.inj hp).symm
  cases step_effect hs a with
  | tables tables history => exact .inl (hsame (by rw [tables.publications]))
  | site id row' written history => exact .inl (hsame (by rw [written.publications]))
  | publish id row now call targets publishes =>
    by_cases hid : siteID = id
    · subst hid
      obtain ⟨publish, hcall, hcallID, hcommit⟩ := publishes.call
      rw [publishes.publications, if_pos rfl] at hp
      exact .inr ⟨publish, row, now, hcall, hcallID, hcommit, publishes.found,
        (Option.some.inj hp).symm⟩
    · exact .inl (hsame (by rw [publishes.publications, if_neg hid]))
  | rebuild call targets rebuilds => exact .inl (hsame (by rw [rebuilds.publications]))
  | begin id taskID row begins => exact .inl (hsame (by rw [begins.publications]))
  | stage id taskID row now call targets stages =>
    exact .inl (hsame (by rw [stages.publications]))
  | confirm id taskID confirms history => exact .inl (hsame (by rw [confirms.publications]))
  | remove id taskID removes history =>
    rw [removes.publications] at hp
    split at hp
    · cases hp
    · rw [hold] at hp
      exact .inl (Option.some.inj hp).symm
  | node effect history => exact .inl (hsame (by rw [effect.publications]))

/-- A call that commits makes the draft the publication. -/
theorem publishCall_publication (hs : WellFormed s) {publish : PublishCall}
    (hcall : s.publishCall a = some publish) (hcommit : publish.commit.isSome = true) :
    ∃ row now, s.store.sites.find? publish.siteID = some row ∧
      (step s a).store.sitePublications.find? publish.siteID = some (s.store.snapshot row now) := by
  obtain ⟨commit, hcommit⟩ := Option.isSome_iff_exists.mp hcommit
  have hcommits := (step_commits s a).1
  rw [hcall, Option.bind_some, hcommit] at hcommits
  rcases (step_effect hs a).commits_cases with hsame |
    ⟨siteID, row, now, call, targets, taskID, hpublishes, -, -⟩
  · rw [hsame] at hcommits
    exact absurd hcommits.symm (List.cons_ne_self _ _)
  · obtain ⟨publish', hcall', hid, -⟩ := hpublishes.call
    obtain rfl := Option.some.inj (hcall'.symm.trans hcall)
    refine ⟨row, now, by rw [hid]; exact hpublishes.found, ?_⟩
    rw [hid, hpublishes.publications, if_pos rfl]

/-- What a call renders comes from the publications there are afterwards. -/
theorem Saves.nodes_follow {call : RenderCall} {targets : List PublishTaskNode}
    (h : Saves (s.rendering a) s s' call targets)
    (hmaterial : ∀ material ∈ call.materials, ∃ p,
      s'.store.sitePublications.find? material.site.id = some p ∧ StandsFor material p)
    {row : NodeStateRow} (hrow : row ∈ s.newRows s'.store) {siteID : String}
    (hserves : row.state.serves siteID) :
    ∃ p, s'.store.sitePublications.find? siteID = some p ∧ row.nodeID ∈ p.site.nodes ∧
      row.state.Renders p.site p.bundle := by
  simp only [State.newRows, List.mem_filter, decide_eq_true_eq] at hrow
  rcases h.mem_states hrow.1 with ⟨node, -, -, hcontent⟩ | ⟨-, hold⟩
  · obtain ⟨material, hmem, hlisted, rfl, -⟩ := hcontent.serves siteID hserves
    obtain ⟨p, hp, hstands⟩ := hmaterial material hmem
    refine ⟨p, hp, ?_, hstands.renders _ (hcontent.renders material hmem hlisted)⟩
    rw [hstands.nodes]
    exact hlisted
  · exact absurd hold hrow.2

/-- What a step saves for the nodes comes from publications. -/
theorem step_nodes_follow (hs : WellFormed s) :
    ∀ row ∈ s.newRows (step s a).store, ∀ siteID, row.state.serves siteID →
      ∃ p, (step s a).store.sitePublications.find? siteID = some p ∧
        row.nodeID ∈ p.site.nodes ∧ row.state.Renders p.site p.bundle := by
  intro row hrow siteID hserves
  have hquiet : (step s a).store.nodeStates = s.store.nodeStates →
      ∃ p, (step s a).store.sitePublications.find? siteID = some p ∧
        row.nodeID ∈ p.site.nodes ∧ row.state.Renders p.site p.bundle := by
    intro hstates
    rw [newRows_eq_nil hstates] at hrow
    cases hrow
  cases step_effect hs a with
  | tables tables history => exact hquiet tables.states
  | site id row' written history => exact hquiet written.states
  | publish id old now call targets publishes =>
    refine publishes.toSaves.nodes_follow (fun material hmem => ?_) hrow hserves
    have hid : old.id = id := Table.key_of_find? publishes.found
    rcases ((publishes.site.material material).mp hmem).2 with ⟨p, hp, hne, rfl⟩ | ⟨-, rfl⟩
    · rw [publishes.base.publications] at hp
      rw [hid] at hne
      refine ⟨p, ?_, standsFor_material p⟩
      rw [publishes.publications, if_neg (show p.material.site.id ≠ id from hne)]
      exact Table.find?_of_mem hp
    · refine ⟨s.store.snapshot old now, ?_, ?_⟩
      · rw [publishes.publications, if_pos hid]
      · have hsnapshot : call.db.snapshot old now = s.store.snapshot old now := by
          rw [Store.snapshot, Store.snapshot, publishes.base.certificates]
        rw [hsnapshot]
        exact standsFor_snapshot s.store old now
  | rebuild call targets rebuilds =>
    refine rebuilds.toSaves.nodes_follow (fun material hmem => ?_) hrow hserves
    rw [rebuilds.materials] at hmem
    obtain ⟨p, hp, -, rfl⟩ := mem_publicationMaterials.mp hmem
    refine ⟨p, ?_, standsFor_material p⟩
    rw [rebuilds.publications]
    exact Table.find?_of_mem hp
  | begin id taskID old begins => exact hquiet begins.states
  | stage id taskID old now call targets stages =>
    refine stages.toSaves.nodes_follow (fun material hmem => ?_) hrow hserves
    rcases ((stages.site.material material).mp hmem).2 with ⟨p, hp, -, rfl⟩ | ⟨hno, -⟩
    · rw [stages.base.publications] at hp
      refine ⟨p, ?_, standsFor_material p⟩
      rw [stages.publications]
      exact Table.find?_of_mem hp
    · cases hno
  | confirm id taskID confirms history => exact hquiet confirms.states
  | remove id taskID removes history => exact hquiet removes.states
  | node effect history =>
    rw [newRows_of_nodeEffect effect] at hrow
    cases hrow

end Steps

/-! ### Runs of requests -/

section Requests

variable {h : Handling} {r : Request}

theorem handle_wellFormed (hs : WellFormed h.state) (r : Request) :
    WellFormed (handle h r).state := by
  cases r with
  | action a => exact step_wellFormed hs a
  | invalidate siteID now =>
    rw [handle]
    split
    · exact step_wellFormed hs (.invalidateCache siteID now)
    · exact hs
  | publishInvalidated i taskID now =>
    rw [handle]
    split
    · next siteID _ => exact step_wellFormed hs (.publishSite siteID taskID now)
    · exact hs

/-- A snapshot has the configuration of its draft. -/
theorem sameConfig_snapshot {db : Store} {row old : Site} {now : Time} :
    SameConfig (db.snapshot row now).site old ↔ SameConfig row old :=
  Iff.rfl

theorem sameButGeneration_snapshot {db : Store} {row old : Site} {now : Time} :
    SameButGeneration (db.snapshot row now).site old ↔ SameButGeneration row old :=
  Iff.rfl

/-- A request that does not change the state. -/
theorem onlyRequestsPromote_same (hstate : (handle h r).state = h.state) :
    OnlyRequestsPromote h r := by
  constructor
  case publication =>
    intro siteID old p hold hp
    rw [hstate, hold] at hp
    exact .inl (Option.some.inj hp).symm
  case nodes =>
    intro row hrow
    rw [hstate, newRows_eq_nil rfl] at hrow
    cases hrow

/-- A request that is an action without a publish call. -/
theorem onlyRequestsPromote_quiet (hs : WellFormed h.state) {a : Action}
    (hstate : (handle h r).state = step h.state a) (hcall : h.state.publishCall a = none) :
    OnlyRequestsPromote h r := by
  constructor
  case publication =>
    intro siteID old p hold hp
    rw [hstate] at hp
    rcases step_publication hs hold hp with hsame | ⟨publish, row, now, hsome, -⟩
    · exact .inl hsame
    · rw [hcall] at hsome
      cases hsome
  case nodes =>
    rw [hstate]
    exact step_nodes_follow hs

theorem onlyRequestsPromote_action (hs : WellFormed h.state) {a : Action}
    (hcall : h.state.publishCall a = none) : OnlyRequestsPromote h (.action a) :=
  onlyRequestsPromote_quiet (a := a) hs rfl hcall

/-- A request with a publish call, which keeps what it has to exactly when the draft does. -/
theorem onlyRequestsPromote_iff (hs : WellFormed h.state) {a : Action} {p : PublishCall}
    (hstate : (handle h r).state = step h.state a)
    (hcall : h.state.publishCall a = some p) {K : Prop}
    (hkept : p.commit.isSome = true → ∀ row now,
      h.state.store.sites.find? p.siteID = some row →
      (K ↔ ∀ old, h.state.store.sitePublications.find? p.siteID = some old →
        MayPublish h p.siteID (h.state.store.snapshot row now) old r))
    (hidle : ∀ row old now, h.state.store.snapshot row now = old →
      MayPublish h p.siteID (h.state.store.snapshot row now) old r) :
    (p.commit.isSome = true → K) ↔ OnlyRequestsPromote h r := by
  constructor
  · intro hguard
    constructor
    case publication =>
      intro siteID old p hold hp
      rw [hstate] at hp
      rcases step_publication hs hold hp with hsame |
        ⟨p', row, now, hcall', rfl, hcommit, hrow, rfl⟩
      · exact .inl hsame
      · obtain rfl := Option.some.inj (hcall'.symm.trans hcall)
        exact .inr ((hkept hcommit row now hrow).mp (hguard hcommit) old hold)
    case nodes =>
      rw [hstate]
      exact step_nodes_follow hs
  · intro hpromote hcommit
    obtain ⟨row, now, hrow, hp⟩ := publishCall_publication hs hcall hcommit
    rw [← hstate] at hp
    refine (hkept hcommit row now hrow).mpr fun old hold => ?_
    rcases hpromote.publication _ old _ hold hp with hsame | hmay
    · exact hidle row old now hsame
    · exact hmay

/-- One request, in a reachable state. -/
theorem promotes_step_iff (hs : WellFormed h.state) : Unedited h r ↔ OnlyRequestsPromote h r := by
  cases r with
  | action a =>
    cases a with
    | publishSite siteID taskID now =>
      have hiff := onlyRequestsPromote_iff (r := .action (.publishSite siteID taskID now))
        (a := .publishSite siteID taskID now) (K := True) hs rfl rfl
        (fun _ _ _ _ => iff_of_true trivial fun _ _ => rfl) fun _ _ _ _ => rfl
      exact iff_of_true trivial (hiff.mp fun _ => trivial)
    | publishRenewed taskID now =>
      cases hcall : h.state.publishCall (.publishRenewed taskID now) with
      | none =>
        refine iff_of_true (fun call hsome => ?_) (onlyRequestsPromote_quiet hs rfl hcall)
        rw [hcall] at hsome
        cases hsome
      | some publish =>
        have hiff := onlyRequestsPromote_iff (r := .action (.publishRenewed taskID now))
          (a := .publishRenewed taskID now)
          (K := DraftPublished h.state.store publish.siteID) hs rfl hcall
          (fun _ row now hrow => by
            simp only [DraftPublished, Option.mem_def, hrow, Option.some.injEq, forall_eq']
            exact Iff.rfl)
          (fun row old now hsame => by
            rw [hsame]
            rfl)
        refine Iff.trans ⟨fun hguard => hguard publish hcall, fun hguard call hsome => ?_⟩ hiff
        obtain rfl := Option.some.inj (hcall.symm.trans hsome)
        exact hguard
    | _ => exact iff_of_true trivial (onlyRequestsPromote_action hs rfl)
  | invalidate siteID now =>
    refine iff_of_true trivial ?_
    cases hresult : h.state.store.invalidateSiteCache siteID now with
    | ok result =>
      refine onlyRequestsPromote_quiet (a := .invalidateCache siteID now) hs ?_ rfl
      rw [handle, hresult]
    | error error =>
      refine onlyRequestsPromote_same ?_
      rw [handle, hresult]
  | publishInvalidated i taskID now =>
    cases hsite : h.invalidations[i]? with
    | none =>
      refine iff_of_true (fun siteID hsome => ?_) (onlyRequestsPromote_same ?_)
      · rw [hsite] at hsome
        cases hsome
      · rw [handle, hsite]
    | some siteID =>
      have hiff := onlyRequestsPromote_iff (r := .publishInvalidated i taskID now)
        (a := .publishSite siteID taskID now) (p := ⟨h.state.store, siteID, taskID, now⟩)
        (K := OnlyInvalidated h.state.store siteID) hs (by rw [handle, hsite]) rfl
        (fun _ row now hrow => by
          simp only [OnlyInvalidated, Option.mem_def, hrow, Option.some.injEq, forall_eq']
          exact forall₂_congr fun old hold => (and_iff_right hsite).symm)
        (fun row old now hsame => by
          rw [hsame]
          exact ⟨hsite, rfl, rfl, rfl, rfl⟩)
      refine Iff.trans ⟨fun hguard => hguard siteID hsite, fun hguard other hsome => ?_⟩ hiff
      obtain rfl := Option.some.inj (hsite.symm.trans hsome)
      exact hguard

end Requests

/-- Along every run of requests, only publish requests promote draft edits exactly when every
renewal and every invalidation that publishes finds a draft without any. -/
theorem promotes_iff_unedited (rs : List Request) :
    Along handle Unedited Handling.initial rs ↔
      Along handle OnlyRequestsPromote Handling.initial rs := by
  have hinv : ∀ h r, WellFormed h.state → WellFormed (handle h r).state :=
    fun h r hs => handle_wellFormed hs r
  have hinitial : WellFormed Handling.initial.state := wellFormed_initial
  constructor
  · intro hguard
    exact hguard.of_invariant (P := fun h => WellFormed h.state) (fun h r hs _ => hinv h r hs)
      (fun h r hs => (promotes_step_iff hs).mp) hinitial
  · intro hpromote
    exact hpromote.of_invariant (P := fun h => WellFormed h.state) (fun h r hs _ => hinv h r hs)
      (fun h r hs => (promotes_step_iff hs).mpr) hinitial

/-- A certificate is renewed while an edit of the site is pending. -/
def renewedWhileEdited : List Request :=
  (certifiedThenEdited ++ ([.renewRequest "site" "renewal" 9, .startJob 10,
    .storeIssued (.ok (⟨2, ["site.example"], 900, 8⟩, ⟨8⟩)) 11] : List Action)).map .action

set_option maxRecDepth 20000 in
/-- The renewal publishes the edit: the site forwards to port 2 afterwards. -/
theorem renewedWhileEdited_promotes :
    ¬ Along handle OnlyRequestsPromote Handling.initial
      (renewedWhileEdited ++ [.action (.publishRenewed "republish" 12)]) := by
  rw [along_append]
  rintro ⟨-, hlast, -⟩
  have hbefore : ∃ old ∈ (run handle Handling.initial
        renewedWhileEdited).state.store.sitePublications.rows, old.site.id = "site" ∧
      old.site.tcpForwards.map TCPForward.upstreamPort = [1] := by decide
  have hafter : ∃ p ∈ (handle (run handle Handling.initial renewedWhileEdited)
        (.action (.publishRenewed "republish" 12))).state.store.sitePublications.rows,
      p.site.id = "site" ∧ p.site.tcpForwards.map TCPForward.upstreamPort = [2] := by decide
  obtain ⟨old, hold, hid, hport⟩ := hbefore
  obtain ⟨p, hp, hid', hport'⟩ := hafter
  have hfind := Table.find?_of_mem hold
  have hfind' := Table.find?_of_mem hp
  rw [key_sitePublication, hid] at hfind
  rw [key_sitePublication, hid'] at hfind'
  -- the forwards belong to the configuration
  have hforwards : p.site.tcpForwards = old.site.tcpForwards := by
    rcases hlast.publication "site" old p hfind hfind' with rfl | hmay
    · rfl
    · have hsame : SameConfig p.site old.site := hmay
      rw [SameConfig] at hsame
      rw [← hsame]
  rw [hforwards, hport] at hport'
  cases hport'

end SimpleCdn.Deployment
