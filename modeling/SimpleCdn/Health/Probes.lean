import SimpleCdn.Domain.Types
import SimpleCdn.Lib.Hysteresis
import SimpleCdn.Lib.Table
import SimpleCdn.Lib.Transition

/-!
# Probe results

`RecordNodeHealth` counts the probes of a node and `RecordSiteNodeHealth` those of a site on a
node: three failures in a row make a subject ineligible for DNS and five successes in a row make it
eligible.  A subject without a row is ineligible with nothing counted.  Rows go when their node has
been uninstalled or their site deleted.
-/

namespace SimpleCdn.Health

/-- The columns that both tables share. -/
structure Probed where
  consecutiveFailures : Nat
  consecutiveSuccesses : Nat
  dnsEligible : Bool
  lastCheckedAt : Option Time
  lastError : String
  deriving DecidableEq, Repr

/-- What a subject without a row reads as. -/
def Probed.zero : Probed := ⟨0, 0, false, none, ""⟩

structure NodeHealth extends Probed where
  nodeID : String
  deriving DecidableEq, Repr

structure SiteNodeHealth extends Probed where
  siteID : String
  nodeID : String
  deriving DecidableEq, Repr

instance : Keyed NodeHealth String := ⟨NodeHealth.nodeID⟩

instance : Keyed SiteNodeHealth (String × String) := ⟨fun health => (health.siteID, health.nodeID)⟩

@[simp] theorem key_nodeHealth (health : NodeHealth) : key health = health.nodeID := rfl

@[simp] theorem key_siteNodeHealth (health : SiteNodeHealth) :
    key health = (health.siteID, health.nodeID) := rfl

/-- What one probe does to the columns. -/
def Probed.record (health : Probed) (healthy : Bool) (lastError : String) (now : Time) : Probed :=
  if healthy then
    ⟨0, health.consecutiveSuccesses + 1,
      if health.consecutiveSuccesses + 1 ≥ 5 then true else health.dnsEligible, some now, ""⟩
  else
    ⟨health.consecutiveFailures + 1, 0,
      if health.consecutiveFailures + 1 ≥ 3 then false else health.dnsEligible, some now, lastError⟩

structure HealthStore where
  nodes : List String
  sites : List String
  nodeHealth : Table NodeHealth
  siteNodeHealth : Table SiteNodeHealth

namespace HealthStore

/-- `NodeHealth` -/
def nodeHealthOf (db : HealthStore) (nodeID : String) : Probed :=
  match db.nodeHealth.find? nodeID with
  | some health => health.toProbed
  | none => .zero

/-- `SiteNodeHealth` -/
def siteNodeHealthOf (db : HealthStore) (siteID nodeID : String) : Probed :=
  match db.siteNodeHealth.find? (siteID, nodeID) with
  | some health => health.toProbed
  | none => .zero

/-- `RecordNodeHealth`; the row refers to a node. -/
def recordNodeHealth (db : HealthStore) (nodeID : String) (healthy : Bool) (lastError : String)
    (now : Time) : Except String (Probed × HealthStore) :=
  if nodeID ∉ db.nodes then .error "FOREIGN KEY constraint failed"
  else
    let health := (db.nodeHealthOf nodeID).record healthy lastError now
    .ok (health, { db with nodeHealth := db.nodeHealth.upsert ⟨health, nodeID⟩ })

/-- `RecordSiteNodeHealth`; the row refers to a site and a node. -/
def recordSiteNodeHealth (db : HealthStore) (siteID nodeID : String) (healthy : Bool)
    (lastError : String) (now : Time) : Except String (Probed × HealthStore) :=
  if siteID ∉ db.sites ∨ nodeID ∉ db.nodes then .error "FOREIGN KEY constraint failed"
  else
    let health := (db.siteNodeHealthOf siteID nodeID).record healthy lastError now
    .ok (health, { db with siteNodeHealth := db.siteNodeHealth.upsert ⟨health, siteID, nodeID⟩ })

/-- The rows that go with a node's uninstallation; the node itself stays listed. -/
def dropNode (db : HealthStore) (nodeID : String) : HealthStore :=
  { db with
    nodeHealth := db.nodeHealth.delete fun health => health.nodeID = nodeID
    siteNodeHealth := db.siteNodeHealth.delete fun health => health.nodeID = nodeID }

/-- The rows that go with a site. -/
def dropSite (db : HealthStore) (siteID : String) : HealthStore :=
  { db with
    sites := db.sites.filter (· ≠ siteID)
    siteNodeHealth := db.siteNodeHealth.delete fun health => health.siteID = siteID }

end HealthStore

/-! ### Sequences of probes -/

/-- What is probed: a node, or a site on a node. -/
inductive Subject
  | node (nodeID : String)
  | site (siteID nodeID : String)
  deriving DecidableEq, Repr

inductive Action
  | createNode (nodeID : String)
  | createSite (siteID : String)
  | probe (subject : Subject) (healthy : Bool) (lastError : String) (now : Time)
  | dropNode (nodeID : String)
  | dropSite (siteID : String)
  deriving DecidableEq, Repr

namespace HealthStore

def health (db : HealthStore) : Subject → Probed
  | .node nodeID => db.nodeHealthOf nodeID
  | .site siteID nodeID => db.siteNodeHealthOf siteID nodeID

/-- The recording of a probe of either kind. -/
def record (db : HealthStore) (subject : Subject) (healthy : Bool) (lastError : String)
    (now : Time) : Except String (Probed × HealthStore) :=
  match subject with
  | .node nodeID => db.recordNodeHealth nodeID healthy lastError now
  | .site siteID nodeID => db.recordSiteNodeHealth siteID nodeID healthy lastError now

/-- A recording that fails leaves the tables. -/
def step (db : HealthStore) : Action → HealthStore
  | .createNode nodeID => { db with nodes := nodeID :: db.nodes }
  | .createSite siteID => { db with sites := siteID :: db.sites }
  | .probe subject healthy lastError now =>
    match db.record subject healthy lastError now with
    | .ok (_, db) => db
    | .error _ => db
  | .dropNode nodeID => db.dropNode nodeID
  | .dropSite siteID => db.dropSite siteID

def empty : HealthStore := ⟨[], [], ∅, ∅⟩

/-- Whether a row for the subject can exist. -/
def Known (db : HealthStore) : Subject → Prop
  | .node nodeID => nodeID ∈ db.nodes
  | .site siteID nodeID => siteID ∈ db.sites ∧ nodeID ∈ db.nodes

instance (db : HealthStore) : ∀ subject, Decidable (db.Known subject)
  | .node _ => inferInstanceAs (Decidable (_ ∈ _))
  | .site _ _ => inferInstanceAs (Decidable (_ ∧ _))

end HealthStore

open HealthStore

/-- Whether the action removes the subject's row. -/
def Action.drops : Action → Subject → Bool
  | .dropNode nodeID, .node nodeID' => nodeID' = nodeID
  | .dropNode nodeID, .site _ nodeID' => nodeID' = nodeID
  | .dropSite siteID, .site siteID' _ => siteID' = siteID
  | _, _ => false

/-- The outcome that the action records for the subject. -/
def Action.outcome? (db : HealthStore) : Action → Subject → Option Bool
  | .probe subject' healthy _ _, subject =>
    if subject' = subject ∧ db.Known subject then some healthy else none
  | _, _ => none

/-- What an action adds to the outcomes recorded for a subject. -/
def heard (db : HealthStore) (subject : Subject) (outcomes : List Bool) (a : Action) : List Bool :=
  if a.drops subject then []
  else
    match a.outcome? db subject with
    | some outcome => outcomes ++ [outcome]
    | none => outcomes

/-- The outcomes recorded for a subject since it last had no row, along a run. -/
def outcomesFrom (subject : Subject) : HealthStore → List Bool → List Action → List Bool
  | _, outcomes, [] => outcomes
  | db, outcomes, a :: as => outcomesFrom subject (db.step a) (heard db subject outcomes a) as

def outcomes (subject : Subject) (as : List Action) : List Bool :=
  outcomesFrom subject empty [] as

/-! ### What one probe does -/

/-- The counters among the columns. -/
def Probed.counters (health : Probed) : Hysteresis.Counters :=
  ⟨health.consecutiveFailures, health.consecutiveSuccesses, health.dnsEligible⟩

theorem Probed.counters_record (health : Probed) (healthy : Bool) (lastError : String)
    (now : Time) :
    (health.record healthy lastError now).counters = health.counters.count 3 5 healthy := by
  cases healthy with
  | true => rfl
  | false => rfl

theorem record_ok {db : HealthStore} {subject : Subject} (h : db.Known subject) (healthy : Bool)
    (lastError : String) (now : Time) :
    ∃ db', db.record subject healthy lastError now =
        .ok ((db.health subject).record healthy lastError now, db') ∧
      db'.health subject = (db.health subject).record healthy lastError now ∧
      ∀ subject', subject' ≠ subject → db'.health subject' = db.health subject' := by
  cases subject with
  | node nodeID =>
    have hknown : nodeID ∈ db.nodes := h
    refine ⟨_, by rw [HealthStore.record, recordNodeHealth, if_neg (not_not.mpr hknown)]; rfl,
      ?_, ?_⟩
    · simp only [health, nodeHealthOf, Table.find?_upsert, key_nodeHealth, if_true]
    · intro subject' hne
      cases subject' with
      | node nodeID' =>
        have hne : nodeID ≠ nodeID' := fun heq => hne (by rw [heq])
        simp only [health, nodeHealthOf, Table.find?_upsert, key_nodeHealth, if_neg hne]
      | site siteID' nodeID' => rfl
  | site siteID nodeID =>
    obtain ⟨hsite, hnode⟩ : siteID ∈ db.sites ∧ nodeID ∈ db.nodes := h
    have hnot : ¬(siteID ∉ db.sites ∨ nodeID ∉ db.nodes) := by
      rintro (h | h)
      · exact h hsite
      · exact h hnode
    refine ⟨_, by rw [HealthStore.record, recordSiteNodeHealth, if_neg hnot]; rfl, ?_, ?_⟩
    · simp only [health, siteNodeHealthOf, Table.find?_upsert, key_siteNodeHealth, if_true]
    · intro subject' hne
      cases subject' with
      | node nodeID' => rfl
      | site siteID' nodeID' =>
        have hne : (siteID, nodeID) ≠ (siteID', nodeID') := by
          intro heq
          obtain ⟨rfl, rfl⟩ := Prod.mk.inj heq
          exact hne rfl
        simp only [health, siteNodeHealthOf, Table.find?_upsert, key_siteNodeHealth, if_neg hne]

theorem record_error {db : HealthStore} {subject : Subject} (h : ¬db.Known subject)
    (healthy : Bool) (lastError : String) (now : Time) :
    ∃ message, db.record subject healthy lastError now = .error message := by
  cases subject with
  | node nodeID => exact ⟨_, if_pos h⟩
  | site siteID nodeID => exact ⟨_, if_pos (not_and_or.mp h)⟩

theorem siteNodeHealth_delete (rows : Table SiteNodeHealth) (p : SiteNodeHealth → Bool)
    (siteID nodeID : String) (dropped : Bool)
    (hp : ∀ health : SiteNodeHealth, health.siteID = siteID → health.nodeID = nodeID →
      p health = dropped) :
    (rows.delete p).find? (siteID, nodeID) =
      if dropped then none else rows.find? (siteID, nodeID) := by
  rw [Table.find?_delete]
  cases hfind : rows.find? (siteID, nodeID) with
  | none => rw [Option.filter_none, ite_self]
  | some health =>
    have hkey := Table.key_of_find? hfind
    rw [Option.filter_some, hp health (congrArg Prod.fst hkey) (congrArg Prod.snd hkey)]
    cases dropped with
    | true => rfl
    | false => rfl

theorem health_dropNode (db : HealthStore) (nodeID : String) (subject : Subject) :
    (db.dropNode nodeID).health subject =
      if (Action.dropNode nodeID).drops subject then .zero else db.health subject := by
  cases subject with
  | node nodeID' =>
    simp only [health, nodeHealthOf, HealthStore.dropNode, Action.drops, decide_eq_true_eq]
    rw [Table.find?_delete_key fun health => by rw [key_nodeHealth]]
    by_cases hdrop : nodeID' = nodeID
    · rw [if_pos hdrop, if_pos hdrop]
    · rw [if_neg hdrop, if_neg hdrop]
  | site siteID' nodeID' =>
    simp only [health, siteNodeHealthOf, HealthStore.dropNode]
    rw [siteNodeHealth_delete _ _ siteID' nodeID' ((Action.dropNode nodeID).drops (.site siteID' nodeID'))
      (by rintro row - rfl; rfl)]
    cases (Action.dropNode nodeID).drops (.site siteID' nodeID') with
    | true => rfl
    | false => rfl

theorem health_dropSite (db : HealthStore) (siteID : String) (subject : Subject) :
    (db.dropSite siteID).health subject =
      if (Action.dropSite siteID).drops subject then .zero else db.health subject := by
  cases subject with
  | node nodeID' => rfl
  | site siteID' nodeID' =>
    simp only [health, siteNodeHealthOf, HealthStore.dropSite]
    rw [siteNodeHealth_delete _ _ siteID' nodeID' ((Action.dropSite siteID).drops (.site siteID' nodeID'))
      (by rintro row rfl -; rfl)]
    cases (Action.dropSite siteID).drops (.site siteID' nodeID') with
    | true => rfl
    | false => rfl

/-- An action leaves a subject's columns unless it drops its row or records an outcome for it. -/
theorem counters_step (db : HealthStore) (a : Action) (subject : Subject) :
    ((db.step a).health subject).counters =
      if a.drops subject then Probed.zero.counters
      else
        match a.outcome? db subject with
        | some outcome => (db.health subject).counters.count 3 5 outcome
        | none => (db.health subject).counters := by
  cases a with
  | createNode nodeID =>
    cases subject with
    | node _ => rfl
    | site _ _ => rfl
  | createSite siteID =>
    cases subject with
    | node _ => rfl
    | site _ _ => rfl
  | dropNode nodeID =>
    simp only [HealthStore.step, health_dropNode]
    split
    · rfl
    · rfl
  | dropSite siteID =>
    simp only [HealthStore.step, health_dropSite]
    split
    · rfl
    · rfl
  | probe subject' healthy lastError now =>
    have hdrops : (Action.probe subject' healthy lastError now).drops subject = false := by
      cases subject with
      | node _ => rfl
      | site _ _ => rfl
    rw [hdrops, if_neg Bool.false_ne_true]
    simp only [Action.outcome?, HealthStore.step]
    by_cases hknown : db.Known subject'
    · obtain ⟨db', hrecord, hsame, hother⟩ := record_ok hknown healthy lastError now
      rw [hrecord]
      by_cases heq : subject' = subject
      · subst heq
        rw [if_pos ⟨rfl, hknown⟩]
        show (db'.health subject').counters = _
        rw [hsame, Probed.counters_record]
      · rw [if_neg fun h => heq h.1]
        show (db'.health subject).counters = _
        rw [hother subject (Ne.symm heq)]
    · obtain ⟨message, hrecord⟩ := record_error hknown healthy lastError now
      rw [hrecord, if_neg]
      rintro ⟨rfl, h⟩
      exact hknown h

/-! ### What a sequence of probes does -/

theorem counters_heard {db : HealthStore} {subject : Subject} {outcomes : List Bool}
    (h : (db.health subject).counters = Hysteresis.counters 3 5 outcomes) (a : Action) :
    ((db.step a).health subject).counters =
      Hysteresis.counters 3 5 (heard db subject outcomes a) := by
  rw [counters_step, heard]
  split
  · rfl
  · cases a.outcome? db subject with
    | none => exact h
    | some outcome =>
      show (db.health subject).counters.count 3 5 outcome = _
      rw [h, Hysteresis.counters_concat]

/-- The columns are the counters of the outcomes recorded. -/
theorem counters_run (subject : Subject) (as : List Action) :
    ∀ (db : HealthStore) (outcomes : List Bool),
      (db.health subject).counters = Hysteresis.counters 3 5 outcomes →
      ((Transition.run step db as).health subject).counters =
        Hysteresis.counters 3 5 (outcomesFrom subject db outcomes as) := by
  induction as with
  | nil =>
    intro db outcomes h
    exact h
  | cons a as ih =>
    intro db outcomes h
    exact ih _ _ (counters_heard h a)

theorem counters_outcomes (subject : Subject) (as : List Action) :
    ((Transition.run step empty as).health subject).counters =
      Hysteresis.counters 3 5 (outcomes subject as) := by
  refine counters_run subject as empty [] ?_
  cases subject with
  | node _ => rfl
  | site _ _ => rfl

theorem outcomesFrom_concat (subject : Subject) (as : List Action) (a : Action) :
    ∀ (db : HealthStore) (outcomes : List Bool),
      outcomesFrom subject db outcomes (as ++ [a]) =
        heard (Transition.run step db as) subject (outcomesFrom subject db outcomes as) a := by
  induction as with
  | nil =>
    intro db outcomes
    rfl
  | cons b as ih =>
    intro db outcomes
    exact ih _ _

/-- After any sequence of probes a subject is eligible exactly when the reference automaton is up
on the outcomes recorded for it, and not both counters are positive.  Eligibility is lost exactly
at the third failure in a row and gained exactly at the fifth success in a row. -/
theorem dnsEligible_follows (as : List Action) (subject : Subject) :
    let before := (Transition.run step empty as).health subject
    before.dnsEligible = (Hysteresis.phase 3 5 (outcomes subject as)).isUp ∧
      (before.consecutiveFailures = 0 ∨ before.consecutiveSuccesses = 0) ∧
      ∀ a : Action, a.drops subject = false →
        let recorded := a.outcome? (Transition.run step empty as) subject
        let after := (Transition.run step empty (as ++ [a])).health subject
        (before.dnsEligible = true →
          (after.dnsEligible = false ↔
            recorded = some false ∧
              Hysteresis.streak false (outcomes subject (as ++ [a])) = 3)) ∧
        (before.dnsEligible = false →
          (after.dnsEligible = true ↔
            recorded = some true ∧
              Hysteresis.streak true (outcomes subject (as ++ [a])) = 5)) := by
  intro before
  have hcounters := counters_outcomes subject as
  have hflag : before.dnsEligible = (Hysteresis.counters 3 5 (outcomes subject as)).flag :=
    congrArg Hysteresis.Counters.flag hcounters
  refine ⟨?_, ?_, ?_⟩
  · rw [hflag, Hysteresis.counters_flag (by omega) (by omega)]
  · have hfailures : before.consecutiveFailures = _ :=
      (congrArg Hysteresis.Counters.failures hcounters).trans
        (Hysteresis.counters_streaks (outcomes subject as)).1
    have hsuccesses : before.consecutiveSuccesses = _ :=
      (congrArg Hysteresis.Counters.successes hcounters).trans
        (Hysteresis.counters_streaks (outcomes subject as)).2
    rw [hfailures, hsuccesses]
    exact Hysteresis.streak_eq_zero _
  · intro a hdrops recorded after
    have hafter : after.dnsEligible =
        (Hysteresis.counters 3 5 (outcomes subject (as ++ [a]))).flag :=
      congrArg Hysteresis.Counters.flag (counters_outcomes subject (as ++ [a]))
    have hconcat : outcomes subject (as ++ [a]) =
        heard (Transition.run step empty as) subject (outcomes subject as) a :=
      outcomesFrom_concat subject as a empty []
    rw [heard, hdrops, if_neg Bool.false_ne_true] at hconcat
    cases hrecorded : a.outcome? (Transition.run step empty as) subject with
    | none =>
      -- Nothing is recorded, so nothing changes.
      rw [hrecorded] at hconcat
      have hsame : after.dnsEligible = before.dnsEligible := by
        rw [hafter, hconcat, hflag]
      have hnone : recorded = none := hrecorded
      rw [hsame, hnone]
      refine ⟨fun hup => ?_, fun hdown => ?_⟩
      · exact iff_of_false (by rw [hup]; exact nofun) nofun
      · exact iff_of_false (by rw [hdown]; exact nofun) nofun
    | some outcome =>
      rw [hrecorded] at hconcat
      have hsome : recorded = some outcome := hrecorded
      rw [hafter, hflag, hsome, hconcat]
      refine ⟨fun hup => ?_, fun hdown => ?_⟩
      · show _ ↔ _ ∧ Hysteresis.streak false (outcomes subject as ++ [outcome]) = 3
        rw [Hysteresis.falls_iff (by omega) (by omega) _ _ hup]
        cases outcome with
        | false => exact ⟨fun h => ⟨rfl, h⟩, fun h => h.2⟩
        | true =>
          have hzero : Hysteresis.streak false (outcomes subject as ++ [true]) = 0 :=
            Hysteresis.streak_concat_not false _
          exact iff_of_false (by omega) (by rintro ⟨h, -⟩; cases h)
      · show _ ↔ _ ∧ Hysteresis.streak true (outcomes subject as ++ [outcome]) = 5
        rw [Hysteresis.rises_iff (by omega) (by omega) _ _ hdown]
        cases outcome with
        | true => exact ⟨fun h => ⟨rfl, h⟩, fun h => h.2⟩
        | false =>
          have hzero : Hysteresis.streak true (outcomes subject as ++ [false]) = 0 :=
            Hysteresis.streak_concat_not true _
          exact iff_of_false (by omega) (by rintro ⟨h, -⟩; cases h)

/-- A node that five successes made eligible and that has failed twice since. -/
def failingTwice : List Action :=
  .createNode "node" ::
    (List.replicate 5 (.probe (.node "node") true "" 0) ++
      List.replicate 2 (.probe (.node "node") false "refused" 0))

theorem failingTwice_falls :
    ((Transition.run step empty
      (failingTwice ++ [.probe (.node "node") false "refused" 0])).health
        (.node "node")).dnsEligible = false :=
  (((dnsEligible_follows failingTwice (.node "node")).2.2
    (.probe (.node "node") false "refused" 0) rfl).1 (by decide +kernel)).mpr (by decide +kernel)

end SimpleCdn.Health
