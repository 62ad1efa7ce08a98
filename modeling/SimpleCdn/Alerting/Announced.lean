import SimpleCdn.Alerting.Outages

/-!
# When outages are announced

Along a run in which no announcement of a long outage is held back, every outage of more than two
cooldowns is announced.  The invariant is about the entries in memory: as long as an outage is not
announced, the entry of its site, if there is one, was made within a cooldown of its beginning.
-/

namespace SimpleCdn.Alerting

open Transition NotificationStore

variable {announcements announcements' : List Announcement} {outage : Outage}

theorem Announced.mono (h : Announced announcements outage)
    (hsubset : announcements ⊆ announcements') : Announced announcements' outage := by
  obtain ⟨announcement, hmem, hsite, hsince⟩ := h
  exact ⟨announcement, hsubset hmem, hsite, hsince⟩

/-- An announcement is about the site and the beginning of an outage. -/
theorem Announced.extend (h : Announced announcements outage) {outage' : Outage}
    (hsite : outage'.siteID = outage.siteID) (hsince : outage'.since = outage.since) :
    Announced announcements outage' := by
  unfold Announced at h ⊢
  rw [hsite, hsince]
  exact h

/-! ### A round, site by site -/

/-- What holds between two visits. -/
structure Surveyed (announcements : List Announcement) (survey : Survey) : Prop where
  times : ∀ outage ∈ survey.outages, outage.since ≤ outage.latest ∧ outage.latest ≤ survey.clock
  alerts : ∀ alert ∈ survey.alerts, alert.sentAt ≤ survey.clock
  marks : ∀ outage ∈ survey.outages, ¬ Announced announcements outage →
    ∀ alert ∈ survey.alerts, alert.siteID = outage.siteID →
      alert.sentAt ≤ outage.since + availabilityAlertCooldown
  law : ∀ outage ∈ survey.outages, outage.since + 2 * availabilityAlertCooldown < outage.latest →
    Announced announcements outage ∨ outage.siteID ∈ survey.sites.map Site.id

section

variable {survey : Survey} {finding : Finding} {alerts : NoHealthyAlerts} {siteID : String}
  {now : Nat}

theorem mem_clearNoHealthyAlert {alert : NoHealthyAlert}
    (h : alert ∈ clearNoHealthyAlert alerts siteID) : alert ∈ alerts :=
  (Table.mem_delete.mp h).1

theorem mem_noHealthyAlertActive {alert : NoHealthyAlert}
    (h : alert ∈ (noHealthyAlertActive alerts siteID now).2) : alert ∈ alerts := by
  unfold noHealthyAlertActive at h
  split at h
  · exact h
  · split at h
    · exact (Table.mem_delete.mp h).1
    · exact h

/-- An entry that is still active is younger than a cooldown. -/
theorem noHealthyAlertActive_spec (h : (noHealthyAlertActive alerts siteID now).1 = true) :
    ∃ alert ∈ alerts, alert.siteID = siteID ∧ now - alert.sentAt < availabilityAlertCooldown := by
  unfold noHealthyAlertActive at h
  split at h
  · cases h
  · next alert hfind =>
    split at h
    · cases h
    · next hyoung =>
      exact ⟨alert, Table.mem_of_find? hfind, Table.key_of_find? hfind, by omega⟩

/-- An extended outage is the old one up to now, or a new one. -/
theorem mem_extendOutage {outages : Table Outage} (h : outage ∈ extendOutage outages siteID now) :
    (outage ∈ outages ∧ outage.siteID ≠ siteID) ∨
      (outage.siteID = siteID ∧ outage.latest = now ∧
        (outage.since = now ∨ ∃ old ∈ outages, old.siteID = siteID ∧ old.since = outage.since)) := by
  rcases Table.mem_upsert.mp h with rfl | ⟨hold, hne⟩
  · refine .inr ⟨rfl, rfl, ?_⟩
    cases hfind : outages.find? siteID with
    | none => exact .inl (by simp)
    | some old => exact .inr ⟨old, Table.mem_of_find? hfind, Table.key_of_find? hfind, by simp⟩
  · exact .inl ⟨hold, hne⟩

/-- A visit that forgets entries, ends an outage, or does nothing. -/
theorem Surveyed.shrink (h : Surveyed announcements survey) {survey' : Survey}
    (hclock : survey.clock ≤ survey'.clock) (hsites : survey'.sites = survey.sites)
    (houtages : ∀ outage ∈ survey'.outages, outage ∈ survey.outages)
    (halerts : ∀ alert ∈ survey'.alerts, alert ∈ survey.alerts) :
    Surveyed announcements survey' where
  times := fun outage hmem =>
    ⟨(h.times outage (houtages outage hmem)).1,
      (h.times outage (houtages outage hmem)).2.trans hclock⟩
  alerts := fun alert hmem => (h.alerts alert (halerts alert hmem)).trans hclock
  marks := fun outage hmem hnot alert halert =>
    h.marks outage (houtages outage hmem) hnot alert (halerts alert halert)
  law := fun outage hmem hlong => hsites ▸ h.law outage (houtages outage hmem) hlong

theorem Surveyed.noHealthy (h : Surveyed announcements survey) (site : Site) (elapsed : Nat) :
    Surveyed announcements {
      alerts := (noHealthyAlertActive survey.alerts site.id (survey.clock + elapsed)).2
      clock := survey.clock + elapsed
      outages := extendOutage survey.outages site.id (survey.clock + elapsed)
      sites := if (noHealthyAlertActive survey.alerts site.id (survey.clock + elapsed)).1 then
        survey.sites else survey.sites ++ [site] } where
  times := by
    intro outage hmem
    rcases mem_extendOutage hmem with ⟨hold, -⟩ | ⟨-, hlatest, hsince | ⟨old, hold, -, hsince⟩⟩
    · obtain ⟨hle, hclock⟩ := h.times outage hold
      exact ⟨hle, hclock.trans (Nat.le_add_right _ _)⟩
    · simp only
      omega
    · obtain ⟨hle, hclock⟩ := h.times old hold
      simp only
      omega
  alerts := by
    intro alert hmem
    have hclock := h.alerts alert (mem_noHealthyAlertActive hmem)
    simp only
    omega
  marks := by
    intro outage hmem hnot alert halert hsite
    have hbefore := mem_noHealthyAlertActive halert
    rcases mem_extendOutage hmem with
      ⟨hold, -⟩ | ⟨hid, -, hsince | ⟨old, hold, holdID, hsince⟩⟩
    · exact h.marks outage hold hnot alert hbefore hsite
    · have hclock := h.alerts alert hbefore
      omega
    · rw [← hsince]
      refine h.marks old hold (fun hannounced => hnot ?_) alert hbefore ?_
      · exact hannounced.extend (hid.trans holdID.symm) hsince.symm
      · rw [hsite, hid, holdID]
  law := by
    intro outage hmem hlong
    by_cases hactive :
        (noHealthyAlertActive survey.alerts site.id (survey.clock + elapsed)).1 = true
    · simp only [hactive, if_true]
      rcases mem_extendOutage hmem with
        ⟨hold, -⟩ | ⟨hid, hlatest, hsince | ⟨old, hold, holdID, hsince⟩⟩
      · exact h.law outage hold hlong
      · omega
      · -- the entry was made within a cooldown of the beginning, and is younger than that
        by_cases hannounced : Announced announcements old
        · exact .inl (hannounced.extend (hid.trans holdID.symm) hsince.symm)
        · obtain ⟨alert, halert, halertID, hyoung⟩ := noHealthyAlertActive_spec hactive
          have hmark := h.marks old hold hannounced alert halert (halertID.trans holdID.symm)
          omega
    · have hinactive := Bool.eq_false_iff.mpr hactive
      simp only [hinactive, Bool.false_eq_true, if_false, List.map_append, List.mem_append]
      rcases mem_extendOutage hmem with ⟨hold, -⟩ | ⟨hid, -⟩
      · rcases h.law outage hold hlong with hannounced | hsite
        · exact .inl hannounced
        · exact .inr (.inl hsite)
      · exact .inr (.inr (by simp [hid]))

theorem Surveyed.visit (h : Surveyed announcements survey) (finding : Finding) :
    Surveyed announcements (survey.visit finding) := by
  have hcleared : Surveyed announcements { survey with
      alerts := if finding.visit.clearsAlert then
        clearNoHealthyAlert survey.alerts finding.site.id else survey.alerts } := by
    refine h.shrink le_rfl rfl (fun _ hmem => hmem) fun alert hmem => ?_
    simp only at hmem
    split at hmem
    · exact mem_clearNoHealthyAlert hmem
    · exact hmem
  by_cases hnone : finding.visit.noHealthy = true
  · have hfound := hcleared.noHealthy finding.site finding.elapsed
    unfold Survey.visit
    simp only [hnone, if_true]
    exact hfound
  · have hother := Bool.eq_false_iff.mpr hnone
    unfold Survey.visit
    simp only [hother, Bool.false_eq_true, if_false]
    refine hcleared.shrink (Nat.le_add_right _ _) rfl (fun outage hmem => ?_) fun _ hmem => hmem
    simp only at hmem
    split at hmem
    · exact (Table.mem_delete.mp hmem).1
    · exact hmem

theorem surveyed_foldl (findings : List Finding) (h : Surveyed announcements survey) :
    Surveyed announcements (findings.foldl Survey.visit survey) := by
  induction findings generalizing survey with
  | nil => exact h
  | cons finding findings ih => exact ih (h.visit finding)

end

/-! ### Whole rounds -/

structure Inv (s : State) : Prop where
  times : ∀ outage ∈ s.outages, outage.since ≤ outage.latest ∧ outage.latest ≤ s.clock
  alerts : ∀ alert ∈ s.alerts, alert.sentAt ≤ s.clock
  marks : ∀ outage ∈ s.outages, ¬ Announced s.announcements outage →
    ∀ alert ∈ s.alerts, alert.siteID = outage.siteID →
      alert.sentAt ≤ outage.since + availabilityAlertCooldown
  law : OutagesAnnounced s

section

variable {s : State} {round : Round}

theorem Inv.survey (h : Inv s) (round : Round) :
    Surveyed s.announcements (s.survey round) := by
  refine surveyed_foldl round.findings ⟨h.times, h.alerts, h.marks, fun outage hmem hlong => ?_⟩
  exact .inl (h.law outage hmem hlong)

/-- How a message that gets through if it is sent may still not go out. -/
theorem notify_spec (hdelivers : Delivers (.round round)) (hsites : (s.survey round).sites ≠ []) :
    (s.notify round).1.sent = true ∨ round.failures.read = true ∨
      s.store.coolingDown noHealthySitesKey availabilityAlertCooldown (s.sentAt round) = true := by
  obtain ⟨hnotifies, hdeliver⟩ := hdelivers
  have hincident : s.notify round = s.store.notifyIncident
      (noHealthySitesNotification (s.survey round).sites (s.sentAt round)) round.failures
      (s.sentAt round) := by
    have hkey : (noHealthySitesKey = "") = False := by decide
    simp [State.notify, hsites, notifyNotification, noHealthySitesNotification, hnotifies, hkey]
  rw [hincident, notifyIncident]
  split
  · next hread => exact .inr (.inl hread)
  · split
    · next hactive => cases hactive
    · split
      · next hcooling => exact .inr (.inr hcooling)
      · left
        rw [deliver, hdeliver]
        simp only [Bool.false_eq_true, if_false]
        split
        · rfl
        · rfl

theorem mem_mark {alerts : NoHealthyAlerts} {alert : NoHealthyAlert} {siteID : String} {now : Nat}
    (h : alert ∈ markNoHealthyAlert alerts now siteID) :
    alert ∈ alerts ∨ (alert.siteID = siteID ∧ alert.sentAt = now) := by
  unfold markNoHealthyAlert at h
  split at h
  · exact .inl h
  · rcases Table.mem_upsert.mp h with rfl | ⟨hold, -⟩
    · exact .inr ⟨rfl, rfl⟩
    · exact .inl hold

theorem mem_marks {siteIDs : List String} {alerts : NoHealthyAlerts} {alert : NoHealthyAlert}
    {now : Nat}
    (h : alert ∈ siteIDs.foldl (fun alerts siteID => markNoHealthyAlert alerts now siteID) alerts) :
    alert ∈ alerts ∨ (alert.siteID ∈ siteIDs ∧ alert.sentAt = now) := by
  induction siteIDs generalizing alerts with
  | nil => exact .inl h
  | cons siteID siteIDs ih =>
    rcases ih h with hmarked | ⟨hmem, hnow⟩
    · rcases mem_mark hmarked with hold | ⟨hid, hnow⟩
      · exact .inl hold
      · exact .inr ⟨hid ▸ List.mem_cons_self, hnow⟩
    · exact .inr ⟨List.mem_cons_of_mem _ hmem, hnow⟩

theorem clock_le_markedAt (s : State) (round : Round) :
    (s.survey round).clock ≤ s.sentAt round ∧ s.sentAt round ≤ s.markedAt round :=
  ⟨Nat.le_add_right _ _, Nat.le_add_right _ _⟩

/-- After a message about them, the outages that the round came to announce are announced. -/
theorem announced_of_sent {outage : Outage} (hsent : (s.notify round).1.sent = true)
    (hsince : outage.since ≤ (s.survey round).clock)
    (hsite : outage.siteID ∈ (s.survey round).sites.map Site.id) :
    Announced (s.round round).announcements outage := by
  refine ⟨⟨(s.survey round).sites.map Site.id, s.sentAt round⟩, ?_, hsite,
    hsince.trans (clock_le_markedAt s round).1⟩
  simp [State.round, hsent]

theorem announcements_subset (s : State) (round : Round) :
    s.announcements ⊆ (s.round round).announcements := by
  intro announcement hmem
  unfold State.round
  simp only
  split
  · exact List.mem_append_left _ hmem
  · exact hmem

/-- The outages that a round which was heard leaves unannounced began less than a cooldown ago, or
were not to be announced. -/
theorem unannounced_spec (hdelivers : Delivers (.round round)) (hheard : Heard s (.round round))
    {outage : Outage} (hmem : outage ∈ (s.survey round).outages)
    (hsince : outage.since ≤ (s.survey round).clock)
    (hnot : ¬ Announced (s.round round).announcements outage)
    (hsite : outage.siteID ∈ (s.survey round).sites.map Site.id) :
    s.markedAt round ≤ outage.since + availabilityAlertCooldown := by
  have hbefore : ¬ Announced s.announcements outage :=
    fun h => hnot (h.mono (announcements_subset s round))
  have hsites : (s.survey round).sites ≠ [] := by
    intro hnil
    rw [hnil] at hsite
    cases hsite
  by_contra hlong
  obtain ⟨hread, hcooling⟩ := hheard outage hmem hsite (by omega) hbefore
  rcases notify_spec hdelivers hsites with hsent | hfails | hcools
  · exact hnot (announced_of_sent hsent hsince hsite)
  · rw [hread] at hfails
    cases hfails
  · rw [hcooling] at hcools
    cases hcools

theorem mem_alerts {alert : NoHealthyAlert} (h : alert ∈ (s.round round).alerts) :
    alert ∈ (s.survey round).alerts ∨
      (alert.siteID ∈ (s.survey round).sites.map Site.id ∧ alert.sentAt = s.markedAt round) := by
  unfold State.round at h
  simp only at h
  split at h
  · exact .inl h
  · exact mem_marks h

theorem Inv.afterRound (h : Inv s) (hdelivers : Delivers (.round round))
    (hheard : Heard s (.round round)) : Inv (s.round round) := by
  have hsurvey := h.survey round
  obtain ⟨hsent, hmarked⟩ := clock_le_markedAt s round
  refine ⟨fun outage hmem => ?_, fun alert hmem => ?_, fun outage hmem hnot alert halert hid => ?_,
    fun outage hmem hlong => ?_⟩
  · obtain ⟨hle, hclock⟩ := hsurvey.times outage hmem
    exact ⟨hle, hclock.trans (hsent.trans hmarked)⟩
  · rcases mem_alerts hmem with hold | ⟨-, hnow⟩
    · exact (hsurvey.alerts alert hold).trans (hsent.trans hmarked)
    · exact hnow.le
  · obtain ⟨hle, hclock⟩ := hsurvey.times outage hmem
    rcases mem_alerts halert with hold | ⟨hsite, hnow⟩
    · exact hsurvey.marks outage hmem (fun hann => hnot (hann.mono (announcements_subset s round)))
        alert hold hid
    · rw [hnow]
      exact unannounced_spec hdelivers hheard hmem (hle.trans hclock) hnot (hid ▸ hsite)
  · obtain ⟨hle, hclock⟩ := hsurvey.times outage hmem
    rcases hsurvey.law outage hmem hlong with hann | hsite
    · exact hann.mono (announcements_subset s round)
    · by_contra hnot
      have hshort := unannounced_spec hdelivers hheard hmem (hle.trans hclock) hnot hsite
      omega

theorem Inv.step (h : Inv s) (a : Action) (ha : Delivers a ∧ Heard s a) : Inv (step s a) := by
  cases a with
  | round round => exact h.afterRound ha.1 ha.2
  | restart elapsed =>
    refine ⟨fun outage hmem => ?_, fun alert hmem => absurd hmem (Table.not_mem_empty _),
      fun _ _ _ alert hmem => absurd hmem (Table.not_mem_empty _), h.law⟩
    obtain ⟨hle, hclock⟩ := h.times outage hmem
    exact ⟨hle, hclock.trans (Nat.le_add_right _ _)⟩

theorem inv_initial : Inv initial where
  times := fun _ hmem => absurd hmem (Table.not_mem_empty _)
  alerts := fun _ hmem => absurd hmem (Table.not_mem_empty _)
  marks := fun _ hmem => absurd hmem (Table.not_mem_empty _)
  law := fun _ hmem => absurd hmem (Table.not_mem_empty _)

end

/-- Along a run in which messages get through, and none about a long outage that is not announced
is held back, every outage is announced within two cooldowns. -/
theorem outages_announced {as : List Action}
    (h : Along step (fun s a => Delivers a ∧ Heard s a) initial as) :
    Always step OutagesAnnounced initial as :=
  (h.always (fun _ a hs ha => hs.step a ha) inv_initial).mono fun _ hs => hs.law

/-! ### Two sites -/

instance (a : Action) : Decidable (Delivers a) :=
  match a with
  | .round _ => inferInstanceAs (Decidable (_ ∧ _))
  | .restart _ => .isTrue trivial

instance (s : State) (a : Action) : Decidable (Heard s a) :=
  match a with
  | .round round => inferInstanceAs (Decidable (∀ outage ∈ (s.survey round).outages.rows, _))
  | .restart _ => .isTrue trivial

/-- A site of this name without a healthy node. -/
def outageOf (name : String) (elapsed : Nat) : Finding where
  site := (⟨name, [name ++ ".example.org"], ["node"], ⟨"", "", "", false⟩, none, false, 0, 0, 0,
    none, false, [], true⟩ : SiteDraft).site name
  visit := .reconcile (.ok ⟨true, false, none⟩) false
  elapsed := elapsed

/-- A round of these sites, so many seconds after the one before. -/
def roundAfter (seconds : Nat) (names : List String) : Action :=
  .round {
    profile := ⟨true, "mail.example.org", 587, "", "cdn@example.org", ["ops@example.org"],
      some smtpNotificationCategories, "starttls"⟩
    findings := outageOf "blog" (seconds * second) :: names.map fun name => outageOf name 0
    untilSent := 0
    untilMarked := 0
    failures := noFailures }

theorem outages_announced_blog :
    Always step OutagesAnnounced initial
      [roundAfter 0 [], roundAfter 60 [], roundAfter 240 [], .restart 5, roundAfter 200 [],
        roundAfter 240 []] :=
  outages_announced (by decide +kernel)

/-- The second site fails a minute after the first; each time it comes to be announced, the first
has just been. -/
def silentRounds : List Action :=
  [roundAfter 0 [], roundAfter 60 ["shop"], roundAfter 240 ["shop"], roundAfter 60 ["shop"],
    roundAfter 240 ["shop"], roundAfter 60 ["shop"], roundAfter 15 ["shop"]]

theorem outages_not_announced :
    ¬ ∀ as, (∀ a ∈ as, Delivers a) → Always step OutagesAnnounced initial as := by
  intro h
  have hlaw := (h silentRounds (by decide +kernel)).last
  have hmem : (⟨"shop", 60 * second, 675 * second⟩ : Outage) ∈
      (run step initial silentRounds).outages.rows := by
    decide +kernel
  have hnot : ¬ Announced (run step initial silentRounds).announcements
      ⟨"shop", 60 * second, 675 * second⟩ := by
    decide +kernel
  exact hnot (hlaw _ hmem (by decide))

end SimpleCdn.Alerting
