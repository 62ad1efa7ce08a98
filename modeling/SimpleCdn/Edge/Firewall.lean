import SimpleCdn.Edge.Security

/-!
# The firewall and the saved bans

When `firewallDirty` is false the firewall holds the unexpired saved bans.  Every operation keeps
this, except one that saves bans and returns before its firewall command: a collection whose log
offset cannot be written, and a start that fails before its command and so forgets the flag of
the process before it.
-/

namespace SimpleCdn.Edge

open Transition

namespace Manager

/-- The bans last installed and the saved ones are the same at the time of the last operation. -/
def Agrees (m : Manager) : Prop :=
  ∀ ban : SecurityBan, m.clock < ban.expiresAt →
    (ban ∈ m.installed ↔ ban ∈ localBanValues m.bans)

def FirewallAgrees (m : Manager) : Prop :=
  m.firewallDirty = false → m.Agrees

/-- The bans of the collection are saved, and the offset after it is not. -/
def OffsetLost (m : Manager) (i : CollectInput) (logged : List LoggedEvent) : Prop :=
  (∃ position, i.log = some (logged, some position)) ∧
    containsSecurityBan (m.stamp logged) = true ∧ i.queueLoaded = true ∧ i.queueSaved = true ∧
    i.stateLoaded = true ∧ i.stateSaved = true ∧ i.offsetSaved = false

/-- A start gets to its firewall command, or needs none; a collection that does not, although it
saves bans, finds the flag set or saves no other bans than the firewall has. -/
def Enforces (m : Manager) : Operation → Prop
  | .restart i =>
    (i.directoryMade = true ∧ i.stateLoaded = true ∧ i.stateSaved = true) ∨
      (m.readClock i.now).Agrees
  | .collectAndFlush i =>
    ∀ logged, m.OffsetLost i logged → m.firewallDirty = true ∨
      Agrees
        { m.readClock i.now with bans := m.savedLocalBans (m.stamp logged) i.now }
  | .syncBans _ => True

/-! ### What the operations keep -/

/-- The parts of the state the agreement speaks about are the same. -/
structure SameFirewall (m m' : Manager) : Prop where
  bans : m'.bans = m.bans
  installed : m'.installed = m.installed
  firewallDirty : m'.firewallDirty = m.firewallDirty
  clock : m'.clock = m.clock

variable {m m' : Manager}

theorem SameFirewall.agrees (h : SameFirewall m m') : m'.Agrees ↔ m.Agrees := by
  rw [Agrees, Agrees, h.bans, h.installed, h.clock]

theorem SameFirewall.firewallAgrees (h : SameFirewall m m') :
    m'.FirewallAgrees ↔ m.FirewallAgrees := by
  rw [FirewallAgrees, FirewallAgrees, h.agrees, h.firewallDirty]

/-- Bans expire in the firewall as they do in the file. -/
theorem Agrees.readClock (h : m.Agrees) (now : Int) : (m.readClock now).Agrees :=
  fun ban hban => h ban (lt_of_le_of_lt (le_max_left _ _) hban)

theorem FirewallAgrees.readClock (h : m.FirewallAgrees) (now : Int) :
    (m.readClock now).FirewallAgrees :=
  fun hdirty => (h hdirty).readClock now

/-- A firewall command with the saved bans. -/
theorem replaceFirewall_agrees (m : Manager) (ok : Bool) :
    (m.replaceFirewall (localBanValues m.bans) ok).FirewallAgrees := by
  intro hdirty ban _
  have hok : ok = true := by simpa [replaceFirewall] using hdirty
  simp [replaceFirewall, hok]

/-- A firewall command with the saved bans that are active at a time the clock has passed. -/
theorem replaceFirewall_active_agrees {now : Int} (hclock : now ≤ m.clock) (ok : Bool) :
    (m.replaceFirewall (localBanValues (activeLocalBans m.bans now)) ok).FirewallAgrees := by
  intro hdirty ban hban
  have hok : ok = true := by simpa [replaceFirewall] using hdirty
  have hactive : now < ban.expiresAt := lt_of_le_of_lt hclock hban
  simp only [replaceFirewall, hok, if_true, localBanValues, activeLocalBans, List.mem_map,
    List.mem_filter, decide_eq_true_eq]
  constructor
  · rintro ⟨saved, ⟨hsaved, -⟩, rfl⟩
    exact ⟨saved, hsaved, rfl⟩
  · rintro ⟨saved, hsaved, rfl⟩
    exact ⟨saved, ⟨hsaved, hactive⟩, rfl⟩

/-- A start that fails before its firewall command leaves the bans and the firewall alone. -/
theorem initializeBans_early {i : InitializeInput}
    (h : ¬ (i.directoryMade = true ∧ i.stateLoaded = true ∧ i.stateSaved = true)) :
    SameFirewall { m.readClock i.now with firewallDirty := false }
      (returned (m.initializeBans i)) := by
  refine Ends.returned ?_
  simp only [initializeBans, ends_bind, ends_require, ends_pure]
  exact ⟨fun hmade => ⟨fun hloaded => ⟨fun hsaved => absurd ⟨hmade, hloaded, hsaved⟩ h,
    fun _ => ⟨rfl, rfl, rfl, rfl⟩⟩, fun _ => ⟨rfl, rfl, rfl, rfl⟩⟩, fun _ => ⟨rfl, rfl, rfl, rfl⟩⟩

theorem initializeBans_agrees {i : InitializeInput}
    (h : (i.directoryMade = true ∧ i.stateLoaded = true ∧ i.stateSaved = true) ∨
      (m.readClock i.now).Agrees) :
    (returned (m.initializeBans i)).FirewallAgrees := by
  by_cases hall : i.directoryMade = true ∧ i.stateLoaded = true ∧ i.stateSaved = true
  · refine Ends.returned ?_
    simp only [initializeBans, ends_bind, ends_require, ends_pure, hall, forall_const,
      not_true_eq_false, false_implies, and_true]
    exact replaceFirewall_agrees _ _
  · exact (initializeBans_early hall).firewallAgrees.mpr fun _ => h.resolve_left hall

theorem syncBans_agrees (h : m.FirewallAgrees) (i : SyncInput) :
    Ends FirewallAgrees FirewallAgrees (m.syncBans i) := by
  rw [syncBans]
  cases i.remote with
  | none => exact h
  | some remote =>
    simp only [ends_bind, ends_require]
    refine ⟨fun _ => ?_, fun _ => h⟩
    split
    · exact h.readClock i.now
    · simp only [ends_bind, ends_require, ends_pure]
      exact ⟨fun _ => replaceFirewall_agrees _ _, fun _ => h.readClock i.now⟩

theorem clearPending_same (m : Manager) (events : List SecurityEvent) (i : FlushInput) :
    Ends (SameFirewall m)
      (fun m' => localBanValues m'.bans = localBanValues m.bans ∧ m'.installed = m.installed ∧
        m'.firewallDirty = m.firewallDirty ∧ m'.clock = m.clock) (m.clearPending events i) := by
  simp only [clearPending, ends_bind, ends_require, ends_pure]
  refine ⟨fun _ => ⟨fun _ => ⟨?_, trivial, trivial, trivial⟩, fun _ => ⟨rfl, rfl, rfl, rfl⟩⟩,
    fun _ => ⟨rfl, rfl, rfl, rfl⟩⟩
  simp only [localBanValues, List.map_map]
  refine List.map_congr_left fun ban _ => ?_
  simp only [Function.comp]
  split <;> rfl

theorem flush_agrees (h : m.FirewallAgrees) (i : FlushInput) :
    Ends FirewallAgrees FirewallAgrees (m.flush i) := by
  simp only [flush, ends_bind, ends_require]
  refine ⟨fun _ => ?_, fun _ => h⟩
  split
  · exact h
  · cases i.answer with
    | none => exact h
    | some answer =>
      cases answer with
      | refused => exact h
      | invalidEvent index =>
        dsimp only
        split <;> exact h
      | accepted =>
        simp only [ends_bind, ends_require]
        refine ⟨fun _ => ?_, fun _ => h⟩
        have hcleared := clearPending_same
          { m with accepted := m.accepted ++ m.batch.map fun event => event.id
                   queue := m.queue.drop securityUploadLimit } m.batch i
        revert hcleared
        cases clearPending _ m.batch i with
        | error m' => exact fun hsame => hsame.firewallAgrees.mpr h
        | ok m' =>
          rintro ⟨hbans, hinstalled, hdirty, hclock⟩
          refine syncBans_agrees ?_ i.sync
          intro hclean
          have hagrees := h (hdirty ▸ hclean)
          intro ban hban
          rw [hbans, hinstalled]
          exact hagrees ban (hclock ▸ hban)

theorem enqueue_same (m : Manager) (events : List SecurityEvent) (i : CollectInput) :
    Ends (SameFirewall m)
      (fun m' => SameFirewall m m' ∧
        (events ≠ [] → i.queueLoaded = true ∧ i.queueSaved = true)) (m.enqueue events i) := by
  rw [enqueue]
  split
  case isTrue hnone => exact ⟨⟨rfl, rfl, rfl, rfl⟩, fun h => absurd hnone h⟩
  case isFalse =>
    simp only [ends_bind, ends_require, ends_pure]
    exact ⟨fun hloaded => ⟨fun hsaved => ⟨⟨rfl, rfl, rfl, rfl⟩, fun _ => ⟨hloaded, hsaved⟩⟩,
      fun _ => ⟨rfl, rfl, rfl, rfl⟩⟩, fun _ => ⟨rfl, rfl, rfl, rfl⟩⟩

theorem enforce_agrees {events : List SecurityEvent} {i : CollectInput}
    (hclock : i.now ≤ m.clock) (h : containsSecurityBan events = false → m.FirewallAgrees) :
    Ends FirewallAgrees FirewallAgrees (m.enforce events i) := by
  rw [enforce]
  cases hbans : containsSecurityBan events with
  | true =>
    simp only [true_or, if_true, ends_bind, ends_require, ends_pure, forall_const, not_true_eq_false,
      false_implies, and_true]
    have hagrees := replaceFirewall_agrees m i.firewall
    exact ⟨fun _ => hagrees, fun _ => hagrees⟩
  | false =>
    simp only [Bool.false_eq_true, false_or, if_false]
    split
    · simp only [ends_bind, ends_require, ends_pure]
      have hagrees := replaceFirewall_active_agrees (m := m) hclock i.firewall
      exact ⟨fun _ => ⟨fun _ => hagrees, fun _ => hagrees⟩, fun _ => h hbans⟩
    · exact h hbans

/-- The bans of the events are saved, or there are none. -/
theorem saveBans_ends (m : Manager) (events : List SecurityEvent) (i : CollectInput) :
    Ends (SameFirewall m)
      (fun m' => if containsSecurityBan events then
          SameFirewall { m with bans := m.savedLocalBans events i.now } m' ∧
            i.stateLoaded = true ∧ i.stateSaved = true
        else SameFirewall m m') (m.saveBans events i) := by
  rw [saveBans]
  split
  · simp only [persistLocalBans, ends_bind, ends_require, ends_pure]
    exact ⟨fun hloaded => ⟨fun hsaved => ⟨⟨rfl, rfl, rfl, rfl⟩, hloaded, hsaved⟩,
      fun _ => ⟨rfl, rfl, rfl, rfl⟩⟩, fun _ => ⟨rfl, rfl, rfl, rfl⟩⟩
  · exact ⟨rfl, rfl, rfl, rfl⟩

theorem SameFirewall.savedLocalBans (h : SameFirewall m m') (events : List SecurityEvent)
    (now : Int) : m'.savedLocalBans events now = m.savedLocalBans events now := by
  rw [Manager.savedLocalBans, Manager.savedLocalBans, h.bans]

theorem collect_agrees {i : CollectInput} (h : m.FirewallAgrees)
    (henforces : m.Enforces (.collectAndFlush i)) :
    Ends FirewallAgrees FirewallAgrees (m.collect i) := by
  rw [collect]
  cases hlog : i.log with
  | none => exact h
  | some read =>
    obtain ⟨logged, position⟩ := read
    have hread := h.readClock i.now
    simp only [ends_bind]
    refine (enqueue_same _ _ i).mono (fun m₁ hsame => hsame.firewallAgrees.mpr hread) ?_
    rintro m₁ ⟨hsame₁, hqueue⟩
    have hagrees₁ : m₁.FirewallAgrees := hsame₁.firewallAgrees.mpr hread
    refine (saveBans_ends m₁ _ i).mono (fun m₂ hsame => hsame.firewallAgrees.mpr hagrees₁) ?_
    intro m₂ hpersist
    have hclock : i.now ≤ m₂.clock := by
      have hle : i.now ≤ m₁.clock := by
        rw [hsame₁.clock]
        exact le_max_right _ _
      split at hpersist
      · exact hpersist.1.clock ▸ hle
      · exact hpersist.clock ▸ hle
    have hunchanged : containsSecurityBan (m.stamp logged) = false → m₂.FirewallAgrees := by
      intro hnone
      rw [hnone] at hpersist
      exact hpersist.firewallAgrees.mpr hagrees₁
    cases position with
    | none => exact enforce_agrees hclock hunchanged
    | some position =>
      simp only [saveOffset, ends_bind, ends_require, ends_pure]
      refine ⟨fun _ => enforce_agrees hclock hunchanged, fun hlost => ?_⟩
      cases hbans : containsSecurityBan (m.stamp logged) with
      | false => exact hunchanged hbans
      | true =>
        rw [hbans, if_pos rfl] at hpersist
        obtain ⟨hsame₂, hloaded, hsaved⟩ := hpersist
        have hevents : m.stamp logged ≠ [] := by
          rintro hnil
          rw [hnil] at hbans
          simp [containsSecurityBan] at hbans
        obtain ⟨hqueueLoaded, hqueueSaved⟩ := hqueue hevents
        -- this is the place the condition speaks about
        have := henforces logged ⟨⟨position, hlog⟩, hbans, hqueueLoaded, hqueueSaved, hloaded,
          hsaved, by simpa using hlost⟩
        intro hclean
        rw [hsame₂.firewallDirty, hsame₁.firewallDirty] at hclean
        have hagrees := this.resolve_left (by simpa [readClock] using hclean)
        refine hsame₂.agrees.mpr ?_
        intro ban hban
        rw [hsame₁.clock] at hban
        rw [hsame₁.savedLocalBans, hsame₁.installed]
        exact hagrees ban hban

theorem enqueue_ok {i : CollectInput} (hloaded : i.queueLoaded = true)
    (hsaved : i.queueSaved = true) (m : Manager) (events : List SecurityEvent) :
    ∃ m', m.enqueue events i = .ok m' ∧ SameFirewall m m' := by
  rw [enqueue]
  split
  · exact ⟨m, rfl, rfl, rfl, rfl, rfl⟩
  · simp only [require, hloaded, hsaved]
    exact ⟨_, rfl, rfl, rfl, rfl, rfl⟩

theorem saveBans_ok {events : List SecurityEvent} {i : CollectInput}
    (hbans : containsSecurityBan events = true) (hloaded : i.stateLoaded = true)
    (hsaved : i.stateSaved = true) (m : Manager) :
    ∃ m', m.saveBans events i = .ok m' ∧
      SameFirewall { m with bans := m.savedLocalBans events i.now } m' := by
  simp only [saveBans, hbans, if_true, persistLocalBans, require, hloaded, hsaved]
  exact ⟨_, rfl, rfl, rfl, rfl, rfl⟩

/-- A collection that loses its offset returns with its bans saved and the firewall as it was. -/
theorem collect_offsetLost {i : CollectInput} {logged : List LoggedEvent}
    (hlost : m.OffsetLost i logged) : ∃ m', m.collect i = .error m' ∧
      SameFirewall { m.readClock i.now with bans := m.savedLocalBans (m.stamp logged) i.now } m' := by
  obtain ⟨⟨position, hlog⟩, hbans, hqueueLoaded, hqueueSaved, hloaded, hsaved, hoffset⟩ := hlost
  obtain ⟨m₁, henqueue, hsame₁⟩ := enqueue_ok hqueueLoaded hqueueSaved
    { m.readClock i.now with nextID := m.nextID + logged.length } (m.stamp logged)
  obtain ⟨m₂, hpersist, hsame₂⟩ := saveBans_ok hbans hloaded hsaved m₁
  refine ⟨m₂, ?_, ?_, hsame₂.installed.trans hsame₁.installed,
    hsame₂.firewallDirty.trans hsame₁.firewallDirty, hsame₂.clock.trans hsame₁.clock⟩
  · simp only [collect, hlog, henqueue, bind, Except.bind, hpersist, saveOffset, require, hoffset]
    rfl
  · exact hsame₂.bans.trans (hsame₁.savedLocalBans (m.stamp logged) i.now)

theorem step_firewallAgrees {op : Operation} (h : m.FirewallAgrees) (henforces : m.Enforces op) :
    (step m op).FirewallAgrees := by
  cases op with
  | restart i => exact initializeBans_agrees henforces
  | syncBans i => exact (syncBans_agrees h i).returned
  | collectAndFlush i =>
    refine Ends.returned ?_
    rw [collectAndFlush, ends_bind]
    exact (collect_agrees h henforces).mono (fun _ h => h) fun m' hm' => flush_agrees hm' i.flush

/-- The condition fails only where the agreement is lost. -/
theorem enforces_of_step {op : Operation} (h : (step m op).FirewallAgrees) : m.Enforces op := by
  cases op with
  | syncBans i => trivial
  | collectAndFlush i =>
    intro logged hlost
    obtain ⟨m', hcollect, hsame⟩ := collect_offsetLost hlost
    have hstep : step m (.collectAndFlush i) = m' := by
      simp only [step, collectAndFlush, hcollect]
      rfl
    rw [hstep, hsame.firewallAgrees] at h
    cases hdirty : m.firewallDirty with
    | true => exact .inl rfl
    | false => exact .inr (h hdirty)
  | restart i =>
    by_cases hall : i.directoryMade = true ∧ i.stateLoaded = true ∧ i.stateSaved = true
    · exact .inl hall
    · exact .inr ((initializeBans_early hall).firewallAgrees.mp h rfl)

end Manager

/-- In every run, the firewall agrees with the saved bans in every state between two operations
exactly if every start gets to its firewall command or needs none, and no collection that loses
its log offset has saved bans the firewall lacks while the flag is not set. -/
theorem firewallAgrees_iff_enforces (now : Int) (ops : List Operation) :
    Along step Manager.Enforces (fresh now) ops ↔
      Always step Manager.FirewallAgrees (fresh now) ops := by
  refine along_iff_always (I := fun _ => True) (fun _ _ _ => trivial)
    (fun m op _ h => ⟨Manager.step_firewallAgrees h, Manager.enforces_of_step⟩) trivial ?_ ops
  exact fun _ ban _ => Iff.rfl

/-! ### Bans that the firewall is not given -/

section Example

/-- The ban is saved, the firewall has nothing, and the flag is not set. -/
theorem offsetLost_unenforced :
    let m := run step (fresh 0) [.collectAndFlush { smallCollect with offsetSaved := false }]
    m.firewallDirty = false ∧ m.installed = [] ∧ (localBanValues m.bans).length = 1 ∧
      ¬ m.FirewallAgrees := by
  intro m
  have hbans : ∃ ban ∈ localBanValues m.bans, m.clock < ban.expiresAt := by decide
  refine ⟨by decide, by decide, by decide, fun h => ?_⟩
  obtain ⟨ban, hban, hactive⟩ := hbans
  have hinstalled := (h (by decide) ban hactive).mpr hban
  exact absurd hinstalled (by simp [show m.installed = [] by decide])

end Example

end SimpleCdn.Edge
