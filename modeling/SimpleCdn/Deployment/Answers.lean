import SimpleCdn.Deployment.Steps

/-!
# Answers of publish calls

A publish call answers with a task.  When the task is its own, the publication committed under it
is the draft the call has read; when the site still has an active publish task, the call answers
with that one, whatever has been edited since.  The first part is `commit_of_started`; the second
is why the answers of a run are right exactly when no call meets an older task.
-/

namespace SimpleCdn.Deployment

open Transition

/-- Under every task that a call has returned a publication has been committed that is at least
as new as the draft was when the call was made. -/
def Answered (s : State) : Prop :=
  ∀ answer ∈ s.answers, ∃ commit ∈ s.commits, commit.taskID = answer.taskID ∧
    answer.configVersion ≤ commit.publication.site.configVersion

instance (s : State) : Decidable (Answered s) :=
  inferInstanceAs (Decidable (∀ answer ∈ s.answers, _))

/-- A publish call that meets an active publish task of its site meets one whose publication is
as new as the draft. -/
def NoOlderTask (s : State) (a : Action) : Prop :=
  ∀ call, s.publishCall a = some call → call.siteID ≠ "" →
    ∀ row, s.store.sites.find? call.siteID = some row → row.deleting = false →
    ∀ task, (s.store.reconcilePublishTasks call.now).activePublishTask call.siteID = some task →
      ∃ commit ∈ s.commits, commit.taskID = task.id ∧
        row.configVersion ≤ commit.publication.site.configVersion

theorem answered_initial : Answered initial := by
  intro answer hanswer
  cases hanswer

section

variable {s : State} {a : Action}

/-- A call reads the database of the state it is made in. -/
theorem publishCall_db {call : PublishCall} (h : s.publishCall a = some call) :
    call.db = s.store := by
  unfold State.publishCall at h
  split at h
  · rw [← Option.some.inj h]
  · split at h
    · split at h
      · rw [← Option.some.inj h]
      · cases h
    · cases h
  · cases h

/-- What a step adds to the history of commits and answers. -/
theorem step_commits (s : State) (a : Action) :
    (step s a).commits = ((s.publishCall a).bind PublishCall.commit).toList ++ s.commits ∧
      (step s a).answers = ((s.publishCall a).bind PublishCall.answer).toList ++ s.answers := by
  have htry : ∀ result, (s.tryWrite result).commits = s.commits ∧
      (s.tryWrite result).answers = s.answers := by
    intro result
    cases result with
    | error error => exact ⟨rfl, rfl⟩
    | ok db => exact ⟨rfl, rfl⟩
  cases a with
  | publishSite siteID taskID now => exact ⟨rfl, rfl⟩
  | publishRenewed taskID now =>
    rw [step]
    split
    · next running call hrunning hcall =>
      rw [hcall]
      exact ⟨rfl, rfl⟩
    · next hno =>
      cases hcall : s.publishCall (.publishRenewed taskID now) with
      | none => exact ⟨rfl, rfl⟩
      | some call =>
        cases hrunning : s.running with
        | none =>
          simp only [State.publishCall, hrunning] at hcall
          cases hcall
        | some running => exact absurd hcall (hno running call hrunning)
  | beginDeletion siteID taskID actor remoteAddr now =>
    simp only [step, State.beginDeletion]
    split
    · exact ⟨rfl, rfl⟩
    · exact ⟨rfl, rfl⟩
    · exact ⟨rfl, rfl⟩
  | advanceDeletion taskID external now =>
    simp only [step, State.advanceDeletion]
    split
    · exact ⟨rfl, rfl⟩
    · exact ⟨rfl, rfl⟩
  | startJob now =>
    simp only [step]
    split
    · exact ⟨rfl, rfl⟩
    · exact ⟨rfl, rfl⟩
  | storeIssued issued now =>
    simp only [step]
    split
    · exact ⟨rfl, rfl⟩
    · exact ⟨rfl, rfl⟩
  | node op now =>
    simp only [step]
    split
    · exact htry _
    · exact ⟨rfl, rfl⟩
  | createSite id draft zoneID now => exact htry _
  | updateSite id draft zoneID now => exact htry _
  | invalidateCache siteID now => exact htry _
  | publishAll now => exact htry _
  | publishNode nodeID now => exact htry _
  | consumeEnrollmentToken token now => exact htry _
  | setNodeCertificate nodeID fingerprint now => exact htry _
  | reconcilePublishTasks now => exact ⟨rfl, rfl⟩
  | issueRequest siteID taskID now => exact ⟨rfl, rfl⟩
  | renewRequest siteID taskID now => exact ⟨rfl, rfl⟩
  | reconcileCertificates newTaskID now => exact ⟨rfl, rfl⟩
  | restart now => exact ⟨rfl, rfl⟩
  | setPolicies securityPolicies rateLimitPolicies cacheDefaultSizeGB => exact ⟨rfl, rfl⟩
  | setUpgrades tasks => exact ⟨rfl, rfl⟩

/-- The publication of a call with a task of its own is the draft it has read. -/
theorem commit_of_started {call : PublishCall} {answer : Answer} {commit : Commit}
    (hanswer : call.answer = some answer) (hcommit : call.commit = some commit) :
    commit.taskID = answer.taskID ∧
      commit.publication.site.configVersion = answer.configVersion := by
  rcases publishOutcome call with ⟨-, hnone, -, -⟩ | ⟨-, -, -, -, hnone, -, -, -⟩ |
    ⟨site, task, db₁, db₂, row, rendering, targets, hstart, hcommitted, -, hsome, hresult⟩
  · rw [hnone] at hcommit
    cases hcommit
  · rw [hnone] at hcommit
    cases hcommit
  · obtain ⟨-, -, hbase⟩ := startPublish_eq_ok hstart
    rw [hsome] at hcommit
    obtain rfl := Option.some.inj hcommit
    have hrow : call.db.sites.find? call.siteID = some row := by
      rw [← hbase.sites]
      exact hcommitted.found
    simp only [PublishCall.answer, hrow, hresult] at hanswer
    split at hanswer
    · next task' row' htask hrow' =>
      obtain rfl := Option.some.inj hanswer
      obtain rfl := Option.some.inj hrow'
      have hid : task'.id = task.id := by
        simp only [Store.getTask, orError_eq_ok] at htask
        exact Table.key_of_find? htask
      exact ⟨hid.symm, rfl⟩
    · cases hanswer

/-- In a state whose answers are right, a step keeps them right exactly when its publish call, if
it is one, meets no older task. -/
theorem answered_step_iff (h : Answered s) : NoOlderTask s a ↔ Answered (step s a) := by
  obtain ⟨hcommits, hanswers⟩ := step_commits s a
  -- an answer given earlier stays right, since no commit is forgotten
  have hold : ∀ answer ∈ s.answers, ∃ commit ∈ (step s a).commits,
      commit.taskID = answer.taskID ∧
        answer.configVersion ≤ commit.publication.site.configVersion := by
    intro answer hanswer
    obtain ⟨commit, hcommit, hright⟩ := h answer hanswer
    rw [hcommits]
    exact ⟨commit, List.mem_append_right _ hcommit, hright⟩
  cases hcall : s.publishCall a with
  | none =>
    rw [hcall] at hanswers
    constructor
    · intro _ answer hanswer
      rw [hanswers] at hanswer
      exact hold answer hanswer
    · intro _ call hcall'
      rw [hcall] at hcall'
      cases hcall'
  | some call =>
    have hdb := publishCall_db hcall
    rw [hcall, Option.bind_some] at hcommits hanswers
    constructor
    · intro hguard answer hanswer
      rw [hanswers, List.mem_append, Option.mem_toList] at hanswer
      rcases hanswer with hanswer | hanswer
      case inr => exact hold answer hanswer
      rcases publishOutcome call with ⟨-, -, -, herror⟩ | ⟨row, task, db, -, -, -, hstart, hresult⟩ |
        ⟨site, task, db₁, db₂, row, rendering, targets, hstart, -, -, hcommit, -⟩
      · simp only [PublishCall.answer] at hanswer
        split at hanswer
        · next task row hok _ => exact absurd hok (herror task)
        · cases hanswer
      · obtain ⟨hsiteID, hrow, hlive, htask, -⟩ := startPublish_active_iff.mp hstart
        simp only [PublishCall.answer, hresult, hrow] at hanswer
        obtain rfl := Option.some.inj hanswer
        rw [hdb] at hrow htask
        obtain ⟨commit, hcommit, hright⟩ := hguard call hcall hsiteID row hrow hlive task htask
        rw [hcommits]
        exact ⟨commit, List.mem_append_right _ hcommit, hright⟩
      · obtain ⟨hid, hversion⟩ := commit_of_started hanswer hcommit
        rw [hcommits, hcommit]
        exact ⟨_, List.mem_append_left _ (Option.mem_toList.mpr rfl), hid, hversion.ge⟩
    · intro hnext call' hcall' hsiteID row hrow hlive task htask
      rw [hcall] at hcall'
      obtain rfl := Option.some.inj hcall'
      rw [← hdb] at hrow htask
      have hstart : startPublish call.db call.siteID call.taskID call.now =
          .ok (row, task, false, _) :=
        startPublish_active_iff.mpr ⟨hsiteID, hrow, hlive, htask, rfl⟩
      have hresult : call.result.1 = .ok task := by
        rw [PublishCall.result, SimpleCdn.publishSite, hstart]
      have hcommit : call.commit = none := by
        rw [PublishCall.commit, hstart]
      have hanswer : call.answer = some ⟨task.id, row.configVersion⟩ := by
        simp only [PublishCall.answer, hresult, hrow]
      rw [hanswer] at hanswers
      rw [hcommit] at hcommits
      obtain ⟨commit, hmem, hright⟩ := hnext ⟨task.id, row.configVersion⟩ (by
        rw [hanswers]
        exact List.mem_cons_self)
      rw [hcommits] at hmem
      exact ⟨commit, hmem, hright⟩

end

/-- Every answer of a run is right exactly when no publish call of the run meets an older task. -/
theorem answered_iff_no_older_task (as : List Action) :
    Along step NoOlderTask initial as ↔ Always step Answered initial as := by
  -- no invariant is needed besides the property itself
  refine along_iff_always (I := fun _ => True) ?_ ?_ trivial answered_initial as
  · intro s a _
    trivial
  · intro s a _ h
    exact answered_step_iff h

/-- A site is published; it is edited and published again before its edge has reported the first
publication, which it then does. -/
def editedWhileWaiting : List Action :=
  enrolled "edge" ++
    [.createSite "site" (forwardDraft "site" ["edge"] 9000 1) "zone" 2, .publishSite "site" "task" 3,
      .updateSite "site" (forwardDraft "site" ["edge"] 9000 2) "zone" 4,
      .publishSite "site" "second" 5, applied "edge" 1 6]

set_option maxRecDepth 20000 in
/-- The second call has returned a task that has succeeded with the publication of the first. -/
theorem editedWhileWaiting_answer :
    ∃ answer ∈ (run step initial editedWhileWaiting).answers,
      ((run step initial editedWhileWaiting).store.deploymentTasks.find? answer.taskID).map
        DeploymentTask.status = some .succeeded ∧
      ∀ commit ∈ (run step initial editedWhileWaiting).commits, commit.taskID = answer.taskID →
        commit.publication.site.configVersion < answer.configVersion :=
  ⟨⟨"task", 2⟩, by decide⟩

end SimpleCdn.Deployment
