import SimpleCdn.SiteCalls.Generations

/-!
# The deletion mark

`BeginSiteDeletion` disables the row and marks it as deleting.  Every other writer of the row
either keeps the two columns or refuses a row that is marked, except the transaction of
`UpdateSite`: it writes the request's `enabled` and a zero `deleting`, whatever the row says.
-/

namespace SimpleCdn.SiteCalls

open Transition

variable {s : Calls} {id : String} {a : Action}

/-- The site's row, while there is one, is disabled and marked as deleting. -/
def Marked (id : String) (s : Calls) : Prop :=
  ∀ row, s.store.sites.find? id = some row → row.deleting = true ∧ row.enabled = false

/-- No `UpdateSite` transaction writes the row of the site. -/
def NoUpdate (id : String) (s : Calls) (a : Action) : Prop :=
  ∀ i now call row, a = .updateCommit i now → UpdateCommits s i now call →
    call.current.id = id → s.store.sites.find? id ≠ some row

/-- `BeginSiteDeletion` commits: it creates the task and marks the row. -/
def DeletionBegins (s : Calls) (id : String) (a : Action) : Prop :=
  ∃ taskID actor remoteAddr deadline now task db,
    a = .beginSiteDeletion id taskID actor remoteAddr deadline now ∧
      s.store.beginSiteDeletion id taskID actor remoteAddr deadline now = .ok (task, true, db)

/-! ### One step -/

/-- The commit of a deletion leaves the row marked, and its identifier issued. -/
theorem DeletionBegins.marked (h : DeletionBegins s id a) : Marked id (step s a) := by
  obtain ⟨taskID, actor, remoteAddr, deadline, now, task, db, rfl, hbegin⟩ := h
  have hstep : (step s (.beginSiteDeletion id taskID actor remoteAddr deadline now)).store = db := by
    simp only [step, hbegin]
    rfl
  obtain ⟨⟨site, hsite⟩, hcases⟩ := Store.beginSiteDeletion_eq_ok hbegin
  rcases hcases with ⟨hcreated, -⟩ | ⟨-, -, -, -, tasks, -, -, rfl⟩
  · cases hcreated
  · intro row hrow
    rw [hstep, Store.find?_updateSite, if_pos rfl, hsite] at hrow
    cases hrow
    exact ⟨rfl, rfl⟩

theorem DeletionBegins.row (h : DeletionBegins s id a) :
    ∃ row, s.store.sites.find? id = some row := by
  obtain ⟨taskID, actor, remoteAddr, deadline, now, task, db, -, hbegin⟩ := h
  exact (Store.beginSiteDeletion_eq_ok hbegin).1

/-- What lasts after a deletion has begun. -/
structure MarkedIssued (id : String) (s : Calls) : Prop where
  marked : Marked id s
  issued : id ∈ s.store.issuedIDs

theorem markedIssued_step (s : Calls) (a : Action) (h : MarkedIssued id s)
    (hnone : NoUpdate id s a) : MarkedIssued id (step s a) := by
  refine ⟨fun row' hrow' => ?_, step_issuedIDs s a h.issued⟩
  have hchange := step_change s id a
  have hview' : ((step s a).store.siteView id).row = some row' := hrow'
  have hview : (s.store.siteView id).row = s.store.sites.find? id := rfl
  have hmarked : ∀ row, (s.store.siteView id).row = some row →
      row.deleting = true ∧ row.enabled = false := h.marked
  generalize (step s a).store.siteView id = view' at hchange hview'
  generalize s.store.siteView id = view at hchange hview hmarked
  cases hchange with
  | unchanged => exact hmarked row' hview'
  | created hfresh => exact absurd h.issued hfresh
  | removed => cases hview'
  | updated hcommit hid => exact absurd hview.symm (hnone _ _ _ _ rfl hcommit hid)
  | invalidated hcall =>
    cases hview'
    have hrow := hmarked _ rfl
    exact ⟨hrow.1, hrow.2⟩
  | certified hdeleting =>
    have hrow := (hmarked _ rfl).1
    rw [hdeleting] at hrow
    cases hrow
  | published hdeleting =>
    have hrow := (hmarked _ rfl).1
    rw [hdeleting] at hrow
    cases hrow
  | deletionBegun =>
    cases hview'
    exact ⟨rfl, rfl⟩

/-- An `UpdateSite` transaction takes the mark away. -/
theorem UpdateCommits.not_marked {i : Nat} {now : Time} {call : UpdateCall} {row : Site}
    (h : UpdateCommits s i now call) (hrow : s.store.sites.find? call.current.id = some row) :
    ¬ Marked call.current.id (step s (.updateCommit i now)) := by
  intro hmarked
  have hdeleting := (hmarked _ (h.row hrow)).1
  cases hdeleting

/-! ### Runs -/

/-- After a deletion has begun, the mark lasts until the row is removed exactly when no
`UpdateSite` transaction writes the row any more. -/
theorem mark_lasts_iff_no_update {before : List Action}
    (hbegin : DeletionBegins (run step initial before) id a) (after : List Action) :
    Always step (Marked id) (run step initial (before ++ [a])) after ↔
      Along step (NoUpdate id) (run step initial (before ++ [a])) after := by
  obtain ⟨site, hsite⟩ := hbegin.row
  have hissued := run_invariant rowsIssued_step rowsIssued_initial before id site hsite
  rw [run_append]
  have hmarked : MarkedIssued id (step (run step initial before) a) :=
    ⟨hbegin.marked, step_issuedIDs _ a hissued⟩
  constructor
  · intro h
    refine along_iff_prefix.mpr fun bs b hbs => ?_
    intro i now call row hb hcommit hid hrow
    subst hb
    subst hid
    obtain ⟨cs, rfl⟩ := hbs
    rw [always_append, run_append] at h
    exact hcommit.not_marked hrow h.2.head
  · intro h
    have hrun := h.always markedIssued_step hmarked
    exact hrun.mono fun s hs => hs.marked

/-- The deletion of a site created by `createSite` begins. -/
theorem deletionBegins_webDraft {as : List Action}
    (h : (fun result => result.2.1) <$> (run step initial as).store.beginSiteDeletion "web"
      "deletion" "admin" "" 100 3 = .ok true) :
    DeletionBegins (run step initial as) "web"
      (.beginSiteDeletion "web" "deletion" "admin" "" 100 3) := by
  obtain ⟨⟨task, created, db⟩, hbegin, hcreated⟩ := map_eq_ok.mp h
  simp only at hcreated
  subst hcreated
  exact ⟨_, _, _, _, _, task, db, rfl, hbegin⟩

/-- Refused and unrelated calls after the deletion has begun. -/
theorem mark_lasts_webDraft :
    Always step (Marked "web")
      (run step initial ([.createSite "web" webDraft "zone" 1] ++
        [.beginSiteDeletion "web" "deletion" "admin" "" 100 3]))
      [.updateRead "web" webDraft "zone", .invalidateRead "web", .updateCommit 0 4] := by
  refine (mark_lasts_iff_no_update (deletionBegins_webDraft (by decide)) _).mpr ⟨?_, ?_, ?_, trivial⟩
  · intro i now call row h
    cases h
  · intro i now call row h
    cases h
  · intro i now call row h hcommit
    cases h
    have hnone : (run step initial [.createSite "web" webDraft "zone" 1,
        .beginSiteDeletion "web" "deletion" "admin" "" 100 3,
        .updateRead "web" webDraft "zone", .invalidateRead "web"]).updates[0]? = none := by decide
    have hsome := hnone.symm.trans hcommit.1
    cases hsome

/-- An edit that read the site before the deletion began puts it back into service. -/
theorem mark_lost :
    DeletionBegins (run step initial
        [.createSite "web" webDraft "zone" 1, .updateRead "web" webDraft "zone"]) "web"
      (.beginSiteDeletion "web" "deletion" "admin" "" 100 3) ∧
    ¬ Always step (Marked "web")
      (run step initial ([.createSite "web" webDraft "zone" 1, .updateRead "web" webDraft "zone"] ++
        [.beginSiteDeletion "web" "deletion" "admin" "" 100 3]))
      [.updateCommit 0 4] := by
  refine ⟨deletionBegins_webDraft (by decide), fun h => ?_⟩
  have hrow : ((run step initial [.createSite "web" webDraft "zone" 1,
      .updateRead "web" webDraft "zone", .beginSiteDeletion "web" "deletion" "admin" "" 100 3,
      .updateCommit 0 4]).store.sites.find? "web").map Site.deleting = some false := by decide
  obtain ⟨row, hfind, hdeleting⟩ := Option.map_eq_some_iff.mp hrow
  have hmarked := (h.last row hfind).1
  rw [hdeleting] at hmarked
  cases hmarked

end SimpleCdn.SiteCalls
