import SimpleCdn.Control.EntryPoints
import SimpleCdn.Store.Confirmation

/-!
# The site deletion manager

`SiteDeletionManager` drives a deletion through its phases.  `Start`, `Reconcile` and `Status` all
call `advance`, a loop of at most four rounds; a round is one function here, and an error fails
the task.  The two calls that leave the control plane, to the DNS provider and to the certificate
cleaner, are the argument `external`: what the call of this round returns.
-/

namespace SimpleCdn

/-- How long a deletion task waits for its targets. -/
def deletionTimeout : Nat := 90 * second

/-- The first phase, after the task has been marked as dispatching. -/
def withdrawSite (db : Store) (taskID siteID : String) (external : Except StoreError Unit)
    (now : Time) : Except StoreError Store := do
  let site ← db.getSite siteID
  external.mapError (.wrapped ("withdraw managed DNS for " ++ site.name))
  (stageSiteRemoval db taskID site.id now).mapError
    (.wrapped ("prepare edge removal for " ++ site.name))

/-- The last phase. -/
def finalizeSiteDeletion (db : Store) (taskID : String) (external : Except StoreError Unit)
    (now : Time) : Except StoreError Store := do
  external.mapError (.wrapped "delete site certificate lineage")
  db.completeSiteDeletion taskID now

/-- `m.Store.FailSiteDeletion(task.ID, err.Error())` when a round has failed. -/
def orFail (db : Store) (taskID : String) (now : Time) (result : Except StoreError Store) : Store :=
  match result with
  | .ok db' => db'
  | .error error => db.failSiteDeletion taskID error.text now

/-- One round of `advance`. -/
def advanceDeletion (db : Store) (taskID : String) (external : Except StoreError Unit)
    (now : Time) : Store :=
  match db.siteDeletionJobForTask taskID with
  | none => db
  | some job =>
    match job.phase with
    | .withdrawingDNS =>
      match db.setSiteDeletionPhase taskID .withdrawingDNS .dispatching
          "withdrawing managed DNS records" now with
      | .error error => db.failSiteDeletion taskID error.text now
      | .ok db => orFail db taskID now (withdrawSite db taskID job.siteID external now)
    | .waitingForEdges => orFail db taskID now (Prod.snd <$> db.siteDeletionReady taskID now)
    | .finalizing => orFail db taskID now (finalizeSiteDeletion db taskID external now)

/-! ### What a round writes -/

section

variable {db db' : Store} {taskID siteID : String} {now : Time}

theorem withdrawSite_eq_ok {external : Except StoreError Unit} :
    withdrawSite db taskID siteID external now = .ok db' ↔
      external = .ok () ∧ stageSiteRemoval db taskID siteID now = .ok db' := by
  simp only [withdrawSite, bind_eq_ok, Store.getSite_eq_ok, mapError_eq_ok]
  constructor
  · rintro ⟨site, hsite, ⟨⟩, hexternal, hstage⟩
    have hid : site.id = siteID := Table.key_of_find? hsite
    rw [hid] at hstage
    exact ⟨hexternal, hstage⟩
  · rintro ⟨hexternal, hstage⟩
    obtain ⟨row, _, _, hstaged⟩ := stageSiteRemoval_eq_ok hstage
    have hid : row.id = siteID := Table.key_of_find? hstaged.found
    refine ⟨row, hstaged.found, (), hexternal, ?_⟩
    rwa [hid]

theorem finalizeSiteDeletion_eq_ok {external : Except StoreError Unit}
    (h : finalizeSiteDeletion db taskID external now = .ok db') :
    db.completeSiteDeletion taskID now = .ok db' := by
  simp only [finalizeSiteDeletion, bind_eq_ok] at h
  obtain ⟨-, -, h⟩ := h
  exact h

/-- Asking whether the edges have confirmed: the targets settle, and either the deletion moves to
its last phase, with every target confirmed, or its task keeps its status or ends. -/
structure ReadyAsked (db : Store) (taskID : String) (now : Time) (db' : Store) : Prop where
  targets : Store.TargetsSettle db db'
  kept : Store.TargetsKept db db'
  outcome :
    (∃ rows detail, db' = ({ db with
        publishTaskNodes := rows
        siteDeletionJobs := db.siteDeletionJobs.update (fun job => job.taskID = taskID)
          (fun job => { job with phase := .finalizing, updatedAt := now }) }).setTask taskID
            .applying detail now ∧
      ∀ row ∈ rows, row.taskID = taskID → row.status = .succeeded) ∨
    (∃ rows, db' = { db with publishTaskNodes := rows }) ∨
    (∃ rows status detail, db' = ({ db with publishTaskNodes := rows }).setTask taskID status
      detail now ∧ status.active = false)

theorem deletionOutcome_active (counts : TaskNodeCounts) :
    (Store.deletionOutcome counts).1.active = false := by
  unfold Store.deletionOutcome
  split
  · rfl
  · rfl

theorem siteDeletionReady_eq_ok {ready : Bool}
    (h : db.siteDeletionReady taskID now = .ok (ready, db')) : ReadyAsked db taskID now db' := by
  simp only [Store.siteDeletionReady, bind_eq_ok] at h
  obtain ⟨task, -, h⟩ := h
  split at h
  · simp only [pure_eq_ok, Prod.mk.injEq] at h
    obtain ⟨-, rfl⟩ := h
    exact ⟨.of_eq rfl, .of_eq rfl, .inr (.inl ⟨_, rfl⟩)⟩
  obtain ⟨hconfirm, hkept⟩ := Store.confirmApplied_settle db taskID now
  obtain ⟨rows, hrows⟩ : ∃ rows, db.confirmApplied taskID now =
    { db with publishTaskNodes := rows } := ⟨_, rfl⟩
  rw [hrows] at h hconfirm hkept
  split at h
  · -- some targets are pending and the deadline has not passed
    simp only [pure_eq_ok, Prod.mk.injEq] at h
    obtain ⟨-, rfl⟩ := h
    exact ⟨hconfirm, hkept, .inr (.inl ⟨rows, rfl⟩)⟩
  split at h
  · next hfailed =>
    -- a target failed or timed out: the task ends
    simp only [bind_eq_ok, pure_eq_ok, Prod.mk.injEq] at h
    obtain ⟨db₁, hupdate, -, rfl⟩ := h
    obtain rfl := Store.updateTask_eq_ok hupdate
    split
    · obtain ⟨htimeout, hkept'⟩ := Store.timeOutPending_settle { db with publishTaskNodes := rows }
        taskID "edge did not confirm site removal before the deletion deadline"
      have hsettle := hconfirm.trans htimeout (.of_eq rfl)
      refine ⟨hsettle.trans (.of_eq rfl) (.of_eq rfl), hkept.trans hkept', .inr (.inr ?_)⟩
      exact ⟨_, _, _, rfl, deletionOutcome_active _⟩
    · refine ⟨hconfirm.trans (.of_eq rfl) (.of_eq rfl), hkept, .inr (.inr ?_)⟩
      exact ⟨_, _, _, rfl, deletionOutcome_active _⟩
  · next hnone =>
    have hpending : ¬ 0 < (Store.deploymentTaskNodeCounts
        { db with publishTaskNodes := rows } taskID).pending := by
      omega
    rw [if_neg hpending] at h
    split at h
    · next hall =>
      simp only [bind_eq_ok, pure_eq_ok, Prod.mk.injEq] at h
      obtain ⟨db₁, hphase, -, rfl⟩ := h
      obtain ⟨-, rfl⟩ := Store.setSiteDeletionPhase_eq_ok hphase
      refine ⟨hconfirm.trans (.of_eq rfl) (.of_eq rfl), hkept, .inl ⟨rows, _, rfl, ?_⟩⟩
      rcases hall with htotal | hall
      · -- without targets there is nothing to confirm
        intro row hrow hid
        have hempty : Store.taskNodes { db with publishTaskNodes := rows } taskID = [] :=
          List.eq_nil_of_length_eq_zero htotal
        have hmem : row ∈ Store.taskNodes { db with publishTaskNodes := rows } taskID :=
          Store.mem_taskNodes.mpr ⟨hrow, hid⟩
        rw [hempty] at hmem
        cases hmem
      · exact Store.all_succeeded_of_counts hall
    · simp only [pure_eq_ok, Prod.mk.injEq] at h
      obtain ⟨-, rfl⟩ := h
      exact ⟨hconfirm, hkept, .inr (.inl ⟨rows, rfl⟩)⟩

end

end SimpleCdn
