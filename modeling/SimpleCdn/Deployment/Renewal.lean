import SimpleCdn.Deployment.Steps

/-!
# Renewals are queued

`Reconcile` looks at the draft of a site: it queues a renewal when the draft is enabled, counts as
published and its stored certificate runs out.  A draft that counts as published is the publication
itself, with the stored certificate, so for such a site the check is the right one.  But every
edit of the draft and every certificate that is stored take the mark away until the next publish,
and from then on the publication may expire without a task.
-/

namespace SimpleCdn

/-- A certificate task of the site is active. -/
def Store.hasCertificateTask (db : Store) (siteID : String) : Bool :=
  (db.activeCertificateTask siteID).isSome

theorem Store.hasCertificateTask_iff {db : Store} {siteID : String} :
    db.hasCertificateTask siteID = true ↔ ∃ task ∈ db.deploymentTasks,
      task.siteID = siteID ∧ task.kind.certificate = true ∧ task.status.active = true := by
  simp only [Store.hasCertificateTask, Store.activeCertificateTask, Store.activeTask,
    List.find?_isSome, Bool.and_eq_true, decide_eq_true_eq, and_assoc]
  rfl

/-- A task that has failed is not active. -/
theorem Store.hasCertificateTask_setTask_failed {db : Store} {id siteID detail : String}
    {now : Time} : (db.setTask id .failed detail now).hasCertificateTask siteID = true ↔
      ∃ task ∈ db.deploymentTasks, task.id ≠ id ∧ task.siteID = siteID ∧
        task.kind.certificate = true ∧ task.status.active = true := by
  rw [Store.hasCertificateTask_iff]
  constructor
  · rintro ⟨task, hmem, hsite, hcertificate, hactive⟩
    have hfind := Table.find?_of_mem hmem
    rw [Store.find?_setTask, key_deploymentTask] at hfind
    split at hfind
    · obtain ⟨old, -, rfl⟩ := Option.map_eq_some_iff.mp hfind
      cases hactive
    · next hne => exact ⟨task, Table.mem_of_find? hfind, hne, hsite, hcertificate, hactive⟩
  · rintro ⟨task, hmem, hne, hrest⟩
    have hkept : (db.setTask id .failed detail now).deploymentTasks.find? task.id = some task := by
      rw [Store.find?_setTask, if_neg hne]
      exact Table.find?_of_mem hmem
    exact ⟨task, Table.mem_of_find? hkept, hrest⟩

/-- The identifier is not in use. -/
def Store.Unused (db : Store) (id : String) : Prop :=
  id ∉ db.issuedIDs ∧ db.deploymentTasks.find? id = none

/-- What `uuid.NewString` gives for the sites of one round: identifiers that are not in use, a
different one for every site. -/
structure NewIDs (db : Store) (newTaskID : String → String) : Prop where
  injective : Function.Injective newTaskID
  unused : ∀ siteID, db.Unused (newTaskID siteID)

/-- What queueing one task does to the active certificate tasks. -/
structure Enqueued (db : Store) (queue : List CertificateJob) (siteID taskID : String)
    (manager : Store × List CertificateJob) : Prop where
  kept : ∀ id, db.hasCertificateTask id = true → manager.1.hasCertificateTask id = true
  only : ∀ id, manager.1.hasCertificateTask id = true →
    db.hasCertificateTask id = true ∨ id = siteID
  longer : queue.length ≤ manager.2.length
  unused : ∀ id, id ≠ taskID → db.Unused id → manager.1.Unused id
  same : Deployment.SameTables db manager.1
  queued : ∀ row, db.sites.find? siteID = some row → row.deleting = false → siteID ≠ "" →
    db.Unused taskID → manager.2.length < certificateQueueCapacity →
    manager.1.hasCertificateTask siteID = true

section Queue

variable {db db' : Store} {queue : List CertificateJob} {siteID taskID detail : String} {now : Time}
  {kind : TaskKind}

/-- The call finds an active task of a live site, or inserts a new one. -/
theorem createOrGetActiveCertificateTask_ok (detail : String) (now : Time)
    (hkind : kind.certificate = true) {row : Site} (hrow : db.sites.find? siteID = some row)
    (hlive : row.deleting = false) (hid : siteID ≠ "") (hunused : db.Unused taskID) :
    ∃ result, db.createOrGetActiveCertificateTask kind siteID taskID detail now = .ok result ∧
      (result.2.1 = false → db.hasCertificateTask siteID = true) := by
  cases hactive : db.activeCertificateTask siteID with
  | some task =>
    refine ⟨(task, false, db), ?_, fun _ => ?_⟩
    · simp only [Store.createOrGetActiveCertificateTask, bind_eq_ok, require_eq_ok, exists_const,
        Store.getSite_eq_ok, hactive]
      exact ⟨hid, hkind, row, hrow, hlive, rfl⟩
    · rw [Store.hasCertificateTask, hactive]
      rfl
  | none =>
    have hinsert : ∃ db₁, db.insertTask ⟨taskID, kind, siteID, .queued, detail, none, now, now⟩ =
        .ok db₁ := by
      have hrow : ∃ tasks, db.deploymentTasks.insert?
          ⟨taskID, kind, siteID, .queued, detail, none, now, now⟩ = some tasks := by
        rw [← Option.isSome_iff_exists, ← Option.ne_none_iff_isSome]
        intro hnone
        obtain ⟨old, hold⟩ := Table.insert?_eq_none_iff.mp hnone
        rw [key_deploymentTask, hunused.2] at hold
        cases hold
      obtain ⟨tasks, hrow⟩ := hrow
      simp only [Store.insertTask, bind_eq_ok, orError_eq_ok, pure_eq_ok]
      exact ⟨_, _, Store.newID_eq_ok.mpr ⟨hunused.1, rfl⟩, tasks, hrow, rfl⟩
    obtain ⟨db₁, hinsert⟩ := hinsert
    refine ⟨(⟨taskID, kind, siteID, .queued, detail, none, now, now⟩, true, db₁), ?_, nofun⟩
    simp only [Store.createOrGetActiveCertificateTask, bind_eq_ok, require_eq_ok, exists_const,
      Store.getSite_eq_ok, hactive]
    exact ⟨hid, hkind, row, hrow, hlive, db₁, hinsert, rfl⟩

/-- The tables after a task has been inserted. -/
theorem Enqueued.insert {task : DeploymentTask} (hinsert : db.insertTask task = .ok db')
    (htask : task = ⟨taskID, kind, siteID, .queued, detail, none, now, now⟩)
    (hkind : kind.certificate = true) (job : CertificateJob) :
    Enqueued db queue siteID taskID (db', queue ++ [job]) := by
  obtain ⟨hfresh, tasks, hrow, rfl⟩ := Store.insertTask_eq_ok hinsert
  have hmem : ∀ x, x ∈ tasks ↔ x ∈ db.deploymentTasks ∨ x = task := fun x =>
    Table.mem_of_insert? hrow
  constructor
  case kept =>
    intro id hhas
    obtain ⟨old, hold, hrest⟩ := Store.hasCertificateTask_iff.mp hhas
    exact Store.hasCertificateTask_iff.mpr ⟨old, (hmem old).mpr (.inl hold), hrest⟩
  case only =>
    intro id hhas
    obtain ⟨old, hold, hsite, hrest⟩ := Store.hasCertificateTask_iff.mp hhas
    rcases (hmem old).mp hold with hold | rfl
    · exact .inl (Store.hasCertificateTask_iff.mpr ⟨old, hold, hsite, hrest⟩)
    · rw [htask] at hsite
      exact .inr hsite.symm
  case longer => simp
  case unused =>
    intro id hne hunused
    refine ⟨?_, ?_⟩
    · rw [List.mem_cons, not_or]
      rw [htask]
      exact ⟨hne, hunused.1⟩
    · show tasks.find? id = none
      rw [Table.find?_of_insert? hrow, key_deploymentTask, if_neg]
      · exact hunused.2
      · rw [htask]
        exact fun heq => hne heq.symm
  case same => exact Deployment.sameTables_insertTask hinsert
  case queued =>
    intro _ _ _ _ _ _
    refine Store.hasCertificateTask_iff.mpr ⟨task, (hmem task).mpr (.inr rfl), ?_⟩
    rw [htask]
    exact ⟨rfl, hkind, rfl⟩

theorem enqueue_enqueued (hkind : kind.certificate = true) :
    Enqueued db queue siteID taskID (enqueue db queue kind siteID taskID detail now) := by
  have hsame : ∀ (hqueued : ∀ row, db.sites.find? siteID = some row → row.deleting = false →
      siteID ≠ "" → db.Unused taskID → db.hasCertificateTask siteID = true),
      Enqueued db queue siteID taskID (db, queue) := by
    intro hqueued
    exact ⟨fun _ => id, fun _ => .inl, le_rfl, fun _ _ => id, .refl db,
      fun row hrow hlive hid hunused _ => hqueued row hrow hlive hid hunused⟩
  unfold enqueue
  split
  · next error hcreate =>
    refine hsame fun row hrow hlive hid hunused => ?_
    obtain ⟨result, hok, -⟩ :=
      createOrGetActiveCertificateTask_ok detail now hkind hrow hlive hid hunused
    rw [hcreate] at hok
    cases hok
  · next task db₁ hcreate =>
    rcases Store.createOrGetActiveCertificateTask_eq_ok hcreate with ⟨-, rfl⟩ | ⟨hcreated, -⟩
    · refine hsame fun row hrow hlive hid hunused => ?_
      obtain ⟨result, hok, hactive⟩ :=
        createOrGetActiveCertificateTask_ok detail now hkind hrow hlive hid hunused
      rw [hcreate] at hok
      obtain rfl := Except.ok.inj hok
      exact hactive rfl
    · cases hcreated
  · next task db₁ hcreate =>
    rcases Store.createOrGetActiveCertificateTask_eq_ok hcreate with
      ⟨hcreated, -⟩ | ⟨-, htask, hinsert⟩
    · cases hcreated
    have hinserted : Enqueued db queue siteID taskID (db₁, queue ++ [⟨task.id, siteID, kind⟩]) :=
      .insert hinsert htask hkind _
    split
    · exact hinserted
    · next hfull =>
      -- the queue is full, and the new task fails
      obtain ⟨hfresh, tasks, hrow, rfl⟩ := Store.insertTask_eq_ok hinsert
      have hold : ∀ x ∈ db.deploymentTasks, x.id ≠ task.id := by
        intro x hx hid
        exact Table.find?_eq_none_iff.mp (Table.insert?_eq_some_iff.mp hrow).1 x hx hid
      constructor
      case kept =>
        intro id hhas
        obtain ⟨old, hmem, hrest⟩ := Store.hasCertificateTask_iff.mp hhas
        exact Store.hasCertificateTask_setTask_failed.mpr
          ⟨old, (Table.mem_of_insert? hrow).mpr (.inl hmem), hold old hmem, hrest⟩
      case only =>
        intro id hhas
        obtain ⟨old, hmem, hne, hrest⟩ := Store.hasCertificateTask_setTask_failed.mp hhas
        rcases (Table.mem_of_insert? hrow).mp hmem with hmem | rfl
        · exact .inl (Store.hasCertificateTask_iff.mpr ⟨old, hmem, hrest⟩)
        · exact absurd rfl hne
      case longer => exact le_rfl
      case unused =>
        intro id hne hunused
        have hafter := hinserted.unused id hne hunused
        refine ⟨hafter.1, ?_⟩
        rw [Store.find?_setTask, hafter.2]
        split
        · rfl
        · rfl
      case same =>
        exact hinserted.same.trans (Deployment.sameTables_setTask _ _ _ _ _)
      case queued =>
        intro _ _ _ _ _ hroom
        exact absurd hroom hfull

end Queue

/-- What one round does to the active certificate tasks: a site that is due gets one while the
queue has room, and no other site does. -/
structure RoundQueued (db : Store) (queue : List CertificateJob) (sites : List Site) (now : Time)
    (manager : Store × List CertificateJob) : Prop where
  kept : ∀ id, db.hasCertificateTask id = true → manager.1.hasCertificateTask id = true
  only : ∀ id, manager.1.hasCertificateTask id = true → db.hasCertificateTask id = true ∨
    ∃ site ∈ sites, site.id = id ∧ renewalDue db site now = true
  longer : queue.length ≤ manager.2.length
  queued : manager.2.length < certificateQueueCapacity → ∀ site ∈ sites,
    db.sites.find? site.id = some site → site.deleting = false → site.id ≠ "" →
      renewalDue db site now = true → manager.1.hasCertificateTask site.id = true

theorem reconcileSites_queued {newTaskID : String → String} (hids : Function.Injective newTaskID)
    {now : Time} {sites : List Site} (hnodup : (sites.map Site.id).Nodup) (db : Store)
    (queue : List CertificateJob) (hunused : ∀ site ∈ sites, db.Unused (newTaskID site.id)) :
    RoundQueued db queue sites now (reconcileSites newTaskID now sites (db, queue)) := by
  induction sites generalizing db queue with
  | nil =>
    refine ⟨fun _ => id, fun _ => .inl, le_rfl, fun _ site hsite => ?_⟩
    cases hsite
  | cons first sites ih =>
    rw [List.map_cons, List.nodup_cons] at hnodup
    rw [reconcileSites]
    cases hdue : renewalDue db first now with
    | false =>
      rw [if_neg Bool.false_ne_true]
      have hrest := ih hnodup.2 db queue fun site hsite =>
        hunused site (List.mem_cons_of_mem _ hsite)
      refine ⟨hrest.kept, fun id hhas => ?_, hrest.longer, fun hroom site hsite => ?_⟩
      · refine (hrest.only id hhas).imp_right ?_
        rintro ⟨site, hsite, hthis⟩
        exact ⟨site, List.mem_cons_of_mem _ hsite, hthis⟩
      · rcases List.mem_cons.mp hsite with rfl | hsite
        · intro _ _ _ hthis
          rw [hdue] at hthis
          cases hthis
        · exact hrest.queued hroom site hsite
    | true =>
      rw [if_pos rfl]
      have hfirst : Enqueued db queue first.id (newTaskID first.id)
          (queueRenewal db queue first.id (newTaskID first.id) now) :=
        enqueue_enqueued rfl
      generalize queueRenewal db queue first.id (newTaskID first.id) now = manager at hfirst ⊢
      -- the sites that follow are as due as they were, and their identifiers as new
      have hsame : ∀ site, renewalDue manager.1 site now = renewalDue db site now := by
        intro site
        rw [renewalDue, renewalDue, certificateLasts, certificateLasts, Store.certificate,
          Store.certificate, hfirst.same.certificates]
      have hrest := ih hnodup.2 manager.1 manager.2 fun site hsite => by
        refine hfirst.unused _ (fun heq => hnodup.1 ?_)
          (hunused site (List.mem_cons_of_mem _ hsite))
        exact List.mem_map.mpr ⟨site, hsite, hids heq⟩
      refine ⟨fun id hhas => hrest.kept id (hfirst.kept id hhas), fun id hhas => ?_,
        hfirst.longer.trans hrest.longer, fun hroom site hsite hrow hlive hne hthis => ?_⟩
      · rcases hrest.only id hhas with hhas | ⟨site, hsite, hid, hthis⟩
        · rcases hfirst.only id hhas with hhas | rfl
          · exact .inl hhas
          · exact .inr ⟨first, List.mem_cons_self, rfl, hdue⟩
        · rw [hsame] at hthis
          exact .inr ⟨site, List.mem_cons_of_mem _ hsite, hid, hthis⟩
      · rcases List.mem_cons.mp hsite with rfl | hsite
        · exact hrest.kept site.id (hfirst.queued site hrow hlive hne
            (hunused site List.mem_cons_self) (hrest.longer.trans_lt hroom))
        · refine hrest.queued hroom site hsite ?_ hlive hne (by rw [hsame]; exact hthis)
          rw [hfirst.same.sites]
          exact hrow

namespace Deployment

open Transition

/-- The site has a publication that is enabled, needs a certificate and has one that runs out
within the renewal window. -/
def Expiring (db : Store) (siteID : String) (now : Time) : Prop :=
  ∃ p notAfter, db.sitePublications.find? siteID = some p ∧ p.site.enabled = true ∧
    p.site.needsCertificate = true ∧ p.certificateNotAfter = some notAfter ∧
    notAfter ≤ now + certificateRenewalWindow

/-- The round has queued a task for the site or found one active, or has published the site. -/
def Attended (s : State) (newTaskID : String → String) (now : Time) (siteID : String) : Prop :=
  (reconcileCertificates s.store s.queue newTaskID now).1.hasCertificateTask siteID = true ∨
    (reconcileCertificates s.store s.queue newTaskID now).1.sitePublications.find? siteID ≠
      s.store.sitePublications.find? siteID

theorem wellFormed_of_reachable {s : State} (hs : Reachable step (fun s => s = initial) s) :
    WellFormed s :=
  hs.invariant (P := WellFormed) (by
    rintro _ rfl
    exact wellFormed_initial) fun _ a h => step_wellFormed h a

/-- For a draft that counts as published, a publication that expires is due. -/
theorem renewalDue_of_expiring {db : Store} {siteID : String} {now : Time} {row : Site}
    (hs : Consistent db) (hrow : db.sites.find? siteID = some row) (hlive : row.deleting = false)
    (hpublished : row.published = true) (hexpiring : Expiring db siteID now) :
    renewalDue db row now = true := by
  obtain ⟨p, notAfter, hp, henabled, hneeds, hnotAfter, hle⟩ := hexpiring
  obtain ⟨p', hp', hsite, hcertificate⟩ := hs.published siteID row hrow hpublished hlive
  obtain rfl := Option.some.inj (hp'.symm.trans hp)
  have hid : row.id = siteID := Table.key_of_find? hrow
  rw [hsite] at henabled hneeds
  rw [hnotAfter] at hcertificate
  have hlasts : certificateLasts db row.id now = false := by
    rw [certificateLasts, hid, Store.certificate]
    cases hfind : db.certificates.find? siteID with
    | none => rfl
    | some stored =>
      rw [hfind, Option.bind_some] at hcertificate
      show stored.notAfter.any (fun notAfter => now + certificateRenewalWindow < notAfter) = false
      rw [← hcertificate, Option.any_some, decide_eq_false_iff_not]
      exact Nat.not_lt.mpr hle
  simp only [renewalDue, henabled, hpublished, hneeds, hlasts, Bool.not_false, Bool.and_self]

/-- In every reachable state, a round of `Reconcile` whose queue has room attends to a live site
whose publication expires exactly when its draft counts as published or one of its certificate
tasks is active. -/
theorem attended_iff_published {s : State} (hs : Reachable step (fun s => s = initial) s)
    {newTaskID : String → String} {now : Time} {siteID : String} {row : Site}
    (hids : NewIDs s.store newTaskID) (hid : siteID ≠ "")
    (hrow : s.store.sites.find? siteID = some row) (hlive : row.deleting = false)
    (hexpiring : Expiring s.store siteID now)
    (hroom : (reconcileCertificates s.store s.queue newTaskID now).2.length <
      certificateQueueCapacity) :
    Attended s newTaskID now siteID ↔
      row.published = true ∨ s.store.hasCertificateTask siteID = true := by
  have hkey : row.id = siteID := Table.key_of_find? hrow
  have hmem : ∀ site, site ∈ s.store.listSites ↔ site ∈ s.store.sites := fun _ =>
    List.mem_insertionSort _
  have hnodup : (s.store.listSites.map Site.id).Nodup :=
    ((List.perm_insertionSort _ s.store.sites.rows).map Site.id).nodup_iff.mpr s.store.sites.nodup
  have hround : RoundQueued s.store s.queue s.store.listSites now
      (reconcileCertificates s.store s.queue newTaskID now) :=
    reconcileSites_queued hids.injective hnodup s.store s.queue fun site _ => hids.unused site.id
  constructor
  · rintro (hhas | hpublished)
    · rcases hround.only siteID hhas with hhas | ⟨site, hsite, hid', hdue⟩
      · exact .inr hhas
      · have hfind := Table.find?_of_mem ((hmem site).mp hsite)
        rw [key_site, hid', hrow] at hfind
        obtain rfl := Option.some.inj hfind
        simp only [renewalDue, Bool.and_eq_true] at hdue
        exact .inl hdue.1.1.2
    · -- a round publishes nothing
      have hsame := (reconcileSites_step newTaskID now s.store.listSites s.store s.queue).same
      exact absurd (by rw [reconcileCertificates, hsame.publications]) hpublished
  · rintro (hpublished | hhas)
    · have hdue := renewalDue_of_expiring (wellFormed_of_reachable hs).tables hrow hlive hpublished
        hexpiring
      have hqueued := hround.queued hroom row ((hmem row).mpr (Table.mem_of_find? hrow))
        (by rw [hkey]; exact hrow) hlive (by rw [hkey]; exact hid) hdue
      rw [hkey] at hqueued
      exact .inl hqueued
    · exact .inl (hround.kept siteID hhas)

/-- A forward that terminates TLS. -/
def tlsDraft (port : Int) : SiteDraft :=
  { forwardDraft "site" ["edge"] 9000 port with
    tcpForwards := [⟨"tcp", 9000, true, "192.0.2.9", port, false, "", 0, 0⟩] }

/-- A certificate is issued for the site, and the site is published with it. -/
def certifiedSite : List Action :=
  enrolled "edge" ++
    [.createSite "site" (tlsDraft 1) "zone" 2, .issueRequest "site" "certificate" 3, .startJob 4,
      .storeIssued (.ok (⟨1, ["site.example"], 100, 7⟩, ⟨7⟩)) 5, .publishSite "site" "task" 6,
      applied "edge" 1 7]

/-- The identifiers of tasks in the examples. -/
def renewalID (siteID : String) : String :=
  siteID ++ "-renewal"

theorem newIDs_renewalID {db : Store} (hissued : ∀ id ∈ db.issuedIDs, ¬ "-renewal".toList <:+ id.toList)
    (htasks : ∀ task ∈ db.deploymentTasks.rows, ¬ "-renewal".toList <:+ task.id.toList) :
    NewIDs db renewalID := by
  have hsuffix : ∀ siteID, "-renewal".toList <:+ (renewalID siteID).toList := by
    intro siteID
    rw [renewalID, String.toList_append]
    exact List.suffix_append _ _
  constructor
  case injective =>
    intro a b heq
    have hlist := congrArg String.toList heq
    rw [renewalID, renewalID, String.toList_append, String.toList_append] at hlist
    exact String.toList_inj.mp (List.append_cancel_right hlist)
  case unused =>
    intro siteID
    refine ⟨fun hmem => hissued _ hmem (hsuffix siteID), ?_⟩
    rw [Table.find?_eq_none_iff]
    intro task hmem hkey
    refine htasks task hmem ?_
    rw [show task.id = renewalID siteID from hkey]
    exact hsuffix siteID

set_option maxRecDepth 20000 in
theorem certifiedSite_attended :
    Attended (run step initial certifiedSite) renewalID 9 "site" := by
  have hsite : ∃ row ∈ (run step initial certifiedSite).store.sites.rows,
      row.id = "site" ∧ row.deleting = false ∧ row.published = true := by decide
  obtain ⟨row, hmem, hid, hlive, hpublished⟩ := hsite
  have hrow : (run step initial certifiedSite).store.sites.find? "site" = some row := by
    rw [← hid]
    exact Table.find?_of_mem hmem
  have hpublication : ∃ p ∈ (run step initial certifiedSite).store.sitePublications.rows,
      p.site.id = "site" ∧ p.site.enabled = true ∧ p.site.needsCertificate = true ∧
        p.certificateNotAfter = some 100 := by decide
  obtain ⟨p, hp, hpid, henabled, hneeds, hnotAfter⟩ := hpublication
  refine (attended_iff_published ⟨initial, certifiedSite, rfl, rfl⟩
    (newIDs_renewalID (by decide) (by decide)) (by decide) hrow hlive
    ⟨p, 100, ?_, henabled, hneeds, hnotAfter, ?_⟩ (by decide)).mpr (.inl hpublished)
  · rw [← hpid]
    exact Table.find?_of_mem hp
  · exact Nat.le_trans (by decide : 100 ≤ 2592000000000000) (Nat.le_add_left _ _)

/-- Before the next round of renewals the draft is edited. -/
def certifiedThenEdited : List Action :=
  certifiedSite ++ [.updateSite "site" (tlsDraft 2) "zone" 8]

set_option maxRecDepth 20000 in
/-- The publication runs out at 100, and the round leaves the site without a task. -/
theorem certifiedThenEdited_not_attended :
    (∃ p ∈ (run step initial certifiedThenEdited).store.sitePublications.rows,
      p.site.id = "site" ∧ p.site.enabled = true ∧ p.site.needsCertificate = true ∧
        p.certificateNotAfter = some 100) ∧
    (reconcileCertificates (run step initial certifiedThenEdited).store
      (run step initial certifiedThenEdited).queue renewalID 9).2.length <
        certificateQueueCapacity ∧
    ¬ Attended (run step initial certifiedThenEdited) renewalID 9 "site" := by
  refine ⟨by decide, by decide, ?_⟩
  unfold Attended
  decide

end Deployment

end SimpleCdn
