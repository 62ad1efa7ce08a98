import SimpleCdn.Control.Notifying
import SimpleCdn.Health.SiteDNS
import SimpleCdn.Lib.Transition

/-!
# Announcing sites without healthy nodes

A round comes to one site after the other, collects those without a healthy node that it has not
announced for a while, and sends one message about them all.  What it has announced it keeps in
memory, site by site; when the message is held back because the last one, about whatever site, is
not a cooldown ago, the sites count as announced all the same.

Clocks are read several times in a round; a round says how much time passes in between.  `outages`
and `announcements` record what has happened, and no step decides by them.
-/

namespace SimpleCdn.Alerting

open Transition NotificationStore

/-- `availabilityAlertCooldown`. -/
def availabilityAlertCooldown : Nat := 300 * second

def noHealthySitesKey : String := "availability:no-healthy-sites"

/-! ### The message -/

def siteDetail (index : Nat) (site : Site) : NotificationDetail where
  label := "站点 " ++ toString (index + 1)
  value := if site.domains = [] then site.name
    else site.name ++ "（" ++ "、".intercalate site.domains ++ "）"

/-- The first sites by name, and how many there are beside them. -/
def siteDetails (sites : List Site) : List NotificationDetail :=
  ((sites.take 20).mapIdx siteDetail) ++
    if 20 < sites.length then
      [⟨"其他站点", "另有 " ++ toString (sites.length - 20) ++ " 个站点，请在控制面查看"⟩]
    else []

def noHealthySitesSubject : List Site → String
  | [site] => "[CDN] 站点暂无健康节点：" ++ site.name
  | sites => "[CDN] " ++ toString sites.length ++ " 个站点暂无健康节点"

def noHealthySitesNotification (sites : List Site) (now : Nat) : Notification where
  category := .availability
  severity := .error
  subject := noHealthySitesSubject sites
  message := "所有已分配节点均未通过可用性筛选。为避免错误清空解析，DNS 保持不变；" ++
    "请检查边缘连通性和控制面健康探测。"
  details := siteDetails sites
  occurredAt := now
  key := noHealthySitesKey
  cooldown := availabilityAlertCooldown
  suppressUntilResolved := false
  resolved := false
  notifyOnResolve := false

/-! ### What is remembered -/

/-- An entry of `noHealthyAlerts`. -/
structure NoHealthyAlert where
  siteID : String
  sentAt : Nat
  deriving DecidableEq

instance : Keyed NoHealthyAlert String := ⟨NoHealthyAlert.siteID⟩

@[simp] theorem key_noHealthyAlert (alert : NoHealthyAlert) : key alert = alert.siteID := rfl

abbrev NoHealthyAlerts := Table NoHealthyAlert

/-- `noHealthyAlertActive`: the answer, and the entries without the site's if it is too old. -/
def noHealthyAlertActive (alerts : NoHealthyAlerts) (siteID : String) (now : Nat) :
    Bool × NoHealthyAlerts :=
  match alerts.find? siteID with
  | none => (false, alerts)
  | some alert =>
    if availabilityAlertCooldown ≤ now - alert.sentAt then
      (false, alerts.delete fun alert => alert.siteID = siteID)
    else (true, alerts)

def markNoHealthyAlert (alerts : NoHealthyAlerts) (now : Nat) (siteID : String) :
    NoHealthyAlerts :=
  if (alerts.find? siteID).any fun alert => now - alert.sentAt < availabilityAlertCooldown then
    alerts
  else alerts.upsert ⟨siteID, now⟩

def clearNoHealthyAlert (alerts : NoHealthyAlerts) (siteID : String) : NoHealthyAlerts :=
  alerts.delete fun alert => alert.siteID = siteID

/-- From the first round to the last that found no healthy node of the site. -/
structure Outage where
  siteID : String
  since : Nat
  latest : Nat
  deriving DecidableEq

instance : Keyed Outage String := ⟨Outage.siteID⟩

@[simp] theorem key_outage (outage : Outage) : key outage = outage.siteID := rfl

/-- A message that went out. -/
structure Announcement where
  sites : List String
  sentAt : Nat
  deriving DecidableEq

structure State where
  store : NotificationStore
  alerts : NoHealthyAlerts
  clock : Nat
  outages : Table Outage
  announcements : List Announcement

def initial : State where
  store := NotificationStore.empty
  alerts := ∅
  clock := 0
  outages := ∅
  announcements := []

/-! ### Rounds -/

/-- What a round does with a site. -/
inductive Visit
  /-- The site is disabled or being deleted, and its records are removed. -/
  | clearDNS (fails : Bool)
  | reconcile (outcome : Except String Health.SiteDNSOutcome) (providerFails : Bool)

/-- The round finds no healthy node. -/
def Visit.noHealthy : Visit → Bool
  | .reconcile (.ok outcome) _ => outcome.noHealthy
  | _ => false

/-- The visit forgets the site's entry.  When no node is active it does so only after the records
are removed. -/
def Visit.clearsAlert : Visit → Bool
  | .clearDNS fails => !fails
  | .reconcile (.ok outcome) providerFails =>
    outcome.clearsAlert && !(providerFails && outcome.desired = some [])
  | .reconcile (.error _) _ => false

/-- The visit ends an outage; one that fails tells nothing. -/
def Visit.endsOutage : Visit → Bool
  | .clearDNS _ => true
  | .reconcile (.ok outcome) _ => !outcome.noHealthy
  | .reconcile (.error _) _ => false

/-- The visit of a site, `elapsed` after the one before. -/
structure Finding where
  site : Site
  visit : Visit
  elapsed : Nat

/-- A round up to some site. -/
structure Survey where
  alerts : NoHealthyAlerts
  clock : Nat
  outages : Table Outage
  sites : List Site

def extendOutage (outages : Table Outage) (siteID : String) (now : Nat) : Table Outage :=
  outages.upsert ⟨siteID, ((outages.find? siteID).map Outage.since).getD now, now⟩

def Survey.visit (survey : Survey) (finding : Finding) : Survey :=
  let now := survey.clock + finding.elapsed
  let siteID := finding.site.id
  let alerts := if finding.visit.clearsAlert then clearNoHealthyAlert survey.alerts siteID
    else survey.alerts
  if finding.visit.noHealthy then
    let (active, alerts) := noHealthyAlertActive alerts siteID now
    { alerts := alerts
      clock := now
      outages := extendOutage survey.outages siteID now
      sites := if active then survey.sites else survey.sites ++ [finding.site] }
  else
    { survey with
      alerts := alerts
      clock := now
      outages := if finding.visit.endsOutage then
        survey.outages.delete fun outage => outage.siteID = siteID else survey.outages }

structure Round where
  profile : SMTPProfile
  findings : List Finding
  /-- Until the message is sent, and from then until the sites are marked. -/
  untilSent : Nat
  untilMarked : Nat
  failures : NotifyFailures

def State.survey (s : State) (round : Round) : Survey :=
  round.findings.foldl Survey.visit ⟨s.alerts, s.clock, s.outages, []⟩

def State.sentAt (s : State) (round : Round) : Nat :=
  (s.survey round).clock + round.untilSent

def State.markedAt (s : State) (round : Round) : Nat :=
  s.sentAt round + round.untilMarked

/-- `notifyNoHealthySites`: a message about no site is not sent. -/
def State.notify (s : State) (round : Round) : Handling × NotificationStore :=
  let sites := (s.survey round).sites
  if sites = [] then (.ignored, s.store)
  else s.store.notifyNotification round.profile false
    (noHealthySitesNotification sites (s.sentAt round)) round.failures (s.sentAt round)

def State.round (s : State) (round : Round) : State :=
  let survey := s.survey round
  let notified := s.notify round
  { store := notified.2
    alerts := if notified.1.failed then survey.alerts
      else (survey.sites.map Site.id).foldl
        (fun alerts siteID => markNoHealthyAlert alerts (s.markedAt round) siteID) survey.alerts
    clock := s.markedAt round
    outages := survey.outages
    announcements := if notified.1.sent then
      s.announcements ++ [⟨survey.sites.map Site.id, s.sentAt round⟩] else s.announcements }

inductive Action
  | round (round : Round)
  /-- A restart of the control plane forgets what has been announced. -/
  | restart (elapsed : Nat)

def step (s : State) : Action → State
  | .round round => s.round round
  | .restart elapsed => { s with alerts := ∅, clock := s.clock + elapsed }

/-! ### The law -/

/-- The outage is in a message that went out since it began. -/
def Announced (announcements : List Announcement) (outage : Outage) : Prop :=
  ∃ announcement ∈ announcements, outage.siteID ∈ announcement.sites ∧
    outage.since ≤ announcement.sentAt

instance (announcements : List Announcement) (outage : Outage) :
    Decidable (Announced announcements outage) :=
  inferInstanceAs (Decidable (∃ announcement ∈ announcements, _))

/-- An outage that has lasted for more than two cooldowns has been announced. -/
def OutagesAnnounced (s : State) : Prop :=
  ∀ outage ∈ s.outages, outage.since + 2 * availabilityAlertCooldown < outage.latest →
    Announced s.announcements outage

/-- The category is enabled, and messages that are sent get through. -/
def Delivers : Action → Prop
  | .round round => notifies round.profile .availability = true ∧ round.failures.deliver = false
  | .restart _ => True

/-- Whenever the round comes to announce a site whose outage has lasted for more than a cooldown
without being announced, the delivery state can be read and the last message is a cooldown ago. -/
def Heard (s : State) : Action → Prop
  | .round round => ∀ outage ∈ (s.survey round).outages,
      outage.siteID ∈ (s.survey round).sites.map Site.id →
      outage.since + availabilityAlertCooldown < s.markedAt round →
      ¬ Announced s.announcements outage →
      round.failures.read = false ∧
        s.store.coolingDown noHealthySitesKey availabilityAlertCooldown (s.sentAt round) = false
  | .restart _ => True

end SimpleCdn.Alerting
