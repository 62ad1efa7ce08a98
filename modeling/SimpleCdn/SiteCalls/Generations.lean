import SimpleCdn.SiteCalls.Rows

/-!
# Cache generations

`InvalidateSiteCache` increments the cache generation in place; `UpdateSite` writes back the
generation it read before its transaction.  An invalidation is lost when such a write lowers the
generation, and the results here say exactly when that happens: `FreshGeneration` asks of every
`UpdateSite` transaction that the row is not ahead of the generation it is going to write.
-/

namespace SimpleCdn.SiteCalls

open Transition

variable {s : Calls} {id : String} {a : Action}

/-- The transaction of the invalidation call `i`, on the site `id`, succeeds in `s`. -/
def InvalidateCommits (s : Calls) (id : String) (i : Nat) (now : Time) : Prop :=
  s.invalidations[i]? = some id ∧ ∃ db, s.store.invalidateSiteCacheCommit id now = .ok db

/-- An `UpdateSite` transaction on the site runs only while the stored generation is the one the
call had read, or that one plus the increment of its own change of mode. -/
def FreshGeneration (id : String) (s : Calls) (a : Action) : Prop :=
  ∀ i now call row, a = .updateCommit i now → UpdateCommits s i now call → call.current.id = id →
    s.store.sites.find? id = some row →
    row.cacheGeneration ≤ call.current.cacheGeneration ∨
      (call.draft.passthrough ≠ call.current.passthrough ∧
        row.cacheGeneration = call.current.cacheGeneration + 1)

/-- Of any two states of the run, the later one has the larger generation. -/
def NeverDecreases (id : String) (s : Calls) (as : List Action) : Prop :=
  ∀ bs cs row row', bs <+: cs → cs <+: as →
    (run step s bs).store.sites.find? id = some row →
    (run step s cs).store.sites.find? id = some row' →
    row.cacheGeneration ≤ row'.cacheGeneration

/-- After a successful invalidation every generation is larger than every generation before. -/
def InvalidationsKept (id : String) (s : Calls) (as : List Action) : Prop :=
  ∀ bs cs ds i now row row', bs <+: cs → cs ++ [.invalidateCommit i now] <+: ds → ds <+: as →
    InvalidateCommits (run step s cs) id i now →
    (run step s bs).store.sites.find? id = some row →
    (run step s ds).store.sites.find? id = some row' →
    row.cacheGeneration < row'.cacheGeneration

/-! ### One step -/

theorem updatedRow_cacheGeneration (call : UpdateCall) (row : Site) (now : Time) :
    (updatedRow call row now).cacheGeneration =
      if call.draft.passthrough ≠ call.current.passthrough then
        call.current.cacheGeneration + 1
      else call.current.cacheGeneration := rfl

/-- The row after an invalidation. -/
theorem InvalidateCommits.row {i : Nat} {now : Time} (h : InvalidateCommits s id i now) :
    ∃ row row', s.store.sites.find? id = some row ∧
      (step s (.invalidateCommit i now)).store.sites.find? id = some row' ∧
      row'.cacheGeneration = row.cacheGeneration + 1 := by
  obtain ⟨hcall, db, hdb⟩ := h
  have hstep : (step s (.invalidateCommit i now)).store = db := by
    simp only [step, hcall, hdb]
    rfl
  obtain ⟨⟨row, hrow⟩, rfl⟩ := Store.invalidateSiteCacheCommit_eq_ok hdb
  refine ⟨row, { row with
    cacheGeneration := row.cacheGeneration + 1, configVersion := row.configVersion + 1,
    published := false, updatedAt := now }, hrow, ?_, rfl⟩
  rw [hstep, Store.find?_updateSite, if_pos rfl, hrow]
  rfl

/-- What a run with fresh generations moves along: issued identifiers stay issued, and a site
that is still there has at least the generation it had. -/
def GenerationLe (id : String) (s s' : Calls) : Prop :=
  (id ∈ s.store.issuedIDs → id ∈ s'.store.issuedIDs) ∧
  (id ∈ s.store.issuedIDs → ∀ row', s'.store.sites.find? id = some row' →
    ∃ row, s.store.sites.find? id = some row ∧ row.cacheGeneration ≤ row'.cacheGeneration)

theorem generationLe_refl (s : Calls) : GenerationLe id s s :=
  ⟨fun h => h, fun _ row' hrow' => ⟨row', hrow', Nat.le_refl _⟩⟩

theorem GenerationLe.trans {s s' s'' : Calls} (h : GenerationLe id s s')
    (h' : GenerationLe id s' s'') : GenerationLe id s s'' := by
  refine ⟨fun hissued => h'.1 (h.1 hissued), fun hissued row'' hrow'' => ?_⟩
  obtain ⟨row', hrow', hle'⟩ := h'.2 (h.1 hissued) row'' hrow''
  obtain ⟨row, hrow, hle⟩ := h.2 hissued row' hrow'
  exact ⟨row, hrow, hle.trans hle'⟩

theorem updatedRow_generation_le (call : UpdateCall) (row : Site) (now : Time) :
    row.cacheGeneration ≤ (updatedRow call row now).cacheGeneration ↔
      row.cacheGeneration ≤ call.current.cacheGeneration ∨
        (call.draft.passthrough ≠ call.current.passthrough ∧
          row.cacheGeneration = call.current.cacheGeneration + 1) := by
  rw [updatedRow_cacheGeneration]
  by_cases hmode : call.draft.passthrough = call.current.passthrough
  · simp [hmode]
  · simp only [ne_eq, hmode, not_false_eq_true, if_true, true_and]
    omega

theorem generationLe_step (s : Calls) (a : Action) (h : FreshGeneration id s a) :
    GenerationLe id s (step s a) := by
  refine ⟨fun hissued => step_issuedIDs s a hissued, fun hissued row' hrow' => ?_⟩
  have hchange := step_change s id a
  have hview' : ((step s a).store.siteView id).row = some row' := hrow'
  have hview : (s.store.siteView id).row = s.store.sites.find? id := rfl
  simp only [← hview]
  generalize (step s a).store.siteView id = view' at hchange hview'
  generalize s.store.siteView id = view at hchange hview
  cases hchange with
  | unchanged => exact ⟨row', hview', Nat.le_refl _⟩
  | created hfresh => exact absurd hissued hfresh
  | removed => cases hview'
  | updated hcommit hid =>
    cases hview'
    refine ⟨_, rfl, (updatedRow_generation_le _ _ _).mpr ?_⟩
    exact h _ _ _ _ rfl hcommit hid hview.symm
  | invalidated hcall =>
    cases hview'
    exact ⟨_, rfl, Nat.le_succ _⟩
  | certified hdeleting =>
    cases hview'
    exact ⟨_, rfl, Nat.le_refl _⟩
  | published hdeleting =>
    cases hview'
    exact ⟨_, rfl, Nat.le_refl _⟩
  | deletionBegun =>
    cases hview'
    exact ⟨_, rfl, Nat.le_refl _⟩

/-! ### Runs -/

section Run

variable {as : List Action}

theorem neverDecreases_of_fresh (h : Along step (FreshGeneration id) initial as) :
    NeverDecreases id initial as := by
  intro bs cs row row' hbs hcs hrow hrow'
  have hle := h.rel_prefix (R := GenerationLe id) generationLe_refl GenerationLe.trans
    generationLe_step hbs hcs
  have hissued := run_invariant rowsIssued_step rowsIssued_initial bs id row hrow
  obtain ⟨_, hfind, hgeneration⟩ := hle.2 hissued row' hrow'
  rw [hrow] at hfind
  cases hfind
  exact hgeneration

/-- An update that lowers the generation shows in the state right after it. -/
theorem fresh_of_neverDecreases (h : NeverDecreases id initial as) :
    Along step (FreshGeneration id) initial as := by
  refine along_iff_prefix.mpr fun bs a hbs => ?_
  intro i now call row ha hcommit hid hrow
  subst ha
  subst hid
  refine (updatedRow_generation_le call row now).mp ?_
  refine h bs (bs ++ [.updateCommit i now]) row _ (List.prefix_append _ _) hbs hrow ?_
  rw [run_append]
  exact hcommit.row hrow

/-- An invalidation adds one to the generation, and from then on it never decreases. -/
theorem NeverDecreases.invalidationsKept (h : NeverDecreases id initial as) :
    InvalidationsKept id initial as := by
  intro bs cs ds i now row row' hbs hds has hcommit hrow hrow'
  obtain ⟨old, new, hold, hnew, hgeneration⟩ := hcommit.row
  have hcs : cs <+: cs ++ [Action.invalidateCommit i now] := List.prefix_append _ _
  have hbefore := h bs cs row old hbs ((hcs.trans hds).trans has) hrow hold
  have hafter := h _ ds new row' hds has (by rw [run_append]; exact hnew) hrow'
  omega

end Run

/-- In every run from a new database, the generation of a site never decreases and every
successful invalidation stays visible exactly when all `UpdateSite` transactions are fresh. -/
theorem cacheGeneration_kept_iff_fresh (id : String) (as : List Action) :
    NeverDecreases id initial as ∧ InvalidationsKept id initial as ↔
      Along step (FreshGeneration id) initial as := by
  constructor
  · rintro ⟨hdecrease, -⟩
    exact fresh_of_neverDecreases hdecrease
  · intro h
    have hdecrease := neverDecreases_of_fresh h
    exact ⟨hdecrease, hdecrease.invalidationsKept⟩

/-! ### A lost invalidation -/

/-- A cached site without nodes. -/
def webDraft : SiteDraft where
  name := "web"
  domains := ["a.example"]
  nodes := []
  primaryOrigin := ⟨"http://origin.example", "", "", true⟩
  backupOrigin := none
  passthrough := false
  clientMaxBodySizeMB := 0
  clientKeepaliveTimeoutSeconds := 0
  readWriteTimeoutSeconds := 0
  dnsTTLSeconds := none
  tcpOnly := false
  tcpForwards := []
  enabled := true

/-- An edit reads the site, an invalidation runs, the edit is written. -/
def lostInvalidation : List Action :=
  [.createSite "web" webDraft "zone" 1, .updateRead "web" webDraft "zone",
    .invalidateRead "web", .invalidateCommit 0 2, .updateCommit 0 3]

/-- The generation falls back from 2 to 1, the value it had before the invalidation. -/
theorem lostInvalidation_decreases :
    ¬ NeverDecreases "web" initial lostInvalidation ∧
      ¬ InvalidationsKept "web" initial lostInvalidation := by
  have hafter : ((run step initial lostInvalidation).store.sites.find? "web").map
      Site.cacheGeneration = some 1 := by decide
  obtain ⟨row', hrow', hgeneration'⟩ := Option.map_eq_some_iff.mp hafter
  constructor
  · intro h
    have hbefore : ((run step initial (lostInvalidation.take 4)).store.sites.find? "web").map
        Site.cacheGeneration = some 2 := by decide
    obtain ⟨row, hrow, hgeneration⟩ := Option.map_eq_some_iff.mp hbefore
    have hle := h _ _ row row' (List.take_prefix 4 _) (List.prefix_refl _) hrow hrow'
    omega
  · intro h
    have hbefore : ((run step initial (lostInvalidation.take 3)).store.sites.find? "web").map
        Site.cacheGeneration = some 1 := by decide
    obtain ⟨row, hrow, hgeneration⟩ := Option.map_eq_some_iff.mp hbefore
    have hcommit : InvalidateCommits (run step initial (lostInvalidation.take 3)) "web" 0 2 := by
      refine ⟨by decide, ?_⟩
      rw [← isOk_iff]
      decide
    have hcut : lostInvalidation.take 3 ++ [.invalidateCommit 0 2] <+: lostInvalidation :=
      ⟨[.updateCommit 0 3], rfl⟩
    have hlt := h _ _ _ 0 2 row row' (List.prefix_refl _) hcut (List.prefix_refl _) hcommit
      hrow hrow'
    omega

end SimpleCdn.SiteCalls
