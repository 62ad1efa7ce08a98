import SimpleCdn.Edge.Security

/-!
# Local bans whose events are waiting

A ban that the edge has observed is pending until the control plane has accepted its event, and
a pending ban is kept whatever list the control plane sends.  The pending mark belongs to the
address, and an accepted upload removes it for every address in it.  A ban is therefore safe as
long as no accepted upload has an event of its address and not its own.
-/

namespace SimpleCdn.Edge

open Transition

namespace Manager

/-- A ban that has been observed, whose event has not been accepted and that has not expired. -/
def Waiting (m : Manager) (ban : ObservedBan) : Prop :=
  ban ∈ m.observed ∧ ban.id ∉ m.accepted ∧ m.clock < ban.expiresAt

/-- The address is banned at least as long as the observed ban asks for. -/
def Banned (bans : List SecurityBan) (ban : ObservedBan) : Prop :=
  ∃ held ∈ bans, held.ip = ban.ip ∧ ban.expiresAt ≤ held.expiresAt

/-- Every waiting ban is saved, and in the list last given to the firewall if the firewall has
been given one since. -/
def Holds (m : Manager) : Prop :=
  ∀ ban, m.Waiting ban → Banned (localBanValues m.bans) ban ∧ (ban.given → Banned m.given ban)

/-- An accepted upload with an event of an address has the events of all waiting bans of it. -/
def AcceptsTogether (m : Manager) (i : FlushInput) : Prop :=
  i.queueLoaded = true → i.answer = some .accepted →
    ∀ ban, m.Waiting ban → (∃ event ∈ m.batch, event.clientIP = ban.ip) →
      ∃ event ∈ m.batch, event.id = ban.id

/-- The upload of a collection accepts events together. -/
def UploadsTogether (m : Manager) : Operation → Prop
  | .collectAndFlush i => ∀ m', m.collect i = .ok m' → m'.AcceptsTogether i.flush
  | _ => True

/-! ### Maps of bans -/

theorem mem_setBan {byIP : List LocalSecurityBan} {ban other : LocalSecurityBan} :
    other ∈ setBan byIP ban ↔ other = ban ∨ (other ∈ byIP ∧ other.ip ≠ ban.ip) := by
  simp [setBan, List.mem_orderedInsert]

theorem nodup_setBan {byIP : List LocalSecurityBan} (h : (byIP.map (·.ip)).Nodup)
    (ban : LocalSecurityBan) : ((setBan byIP ban).map (·.ip)).Nodup := by
  have hperm := (List.perm_orderedInsert (fun a b : LocalSecurityBan => a.ip ≤ b.ip) ban
    (byIP.filter fun other => other.ip ≠ ban.ip)).map (·.ip)
  rw [setBan, hperm.nodup_iff, List.map_cons, List.nodup_cons]
  constructor
  · intro hmem
    obtain ⟨other, hother, hip⟩ := List.mem_map.mp hmem
    rw [List.mem_filter] at hother
    simp [hip] at hother
  · exact h.sublist (List.filter_sublist.map _)

theorem nodup_setBans {byIP : List LocalSecurityBan} (h : (byIP.map (·.ip)).Nodup)
    (bans : List LocalSecurityBan) : ((setBans byIP bans).map (·.ip)).Nodup := by
  induction bans generalizing byIP with
  | nil => exact h
  | cons ban bans ih => exact ih (nodup_setBan h ban)

theorem mem_setBans_of_other {byIP bans : List LocalSecurityBan} {ban : LocalSecurityBan}
    (h : ban ∈ byIP) (hother : ∀ other ∈ bans, other.ip ≠ ban.ip) : ban ∈ setBans byIP bans := by
  induction bans generalizing byIP with
  | nil => exact h
  | cons other bans ih =>
    refine ih (mem_setBan.mpr (.inr ⟨h, ?_⟩)) fun next hnext => hother next (by simp [hnext])
    exact (hother other (by simp)).symm

/-- A list with one ban for an address is put into a map as it is. -/
theorem mem_setBans {byIP bans : List LocalSecurityBan} {ban : LocalSecurityBan}
    (hnodup : (bans.map (·.ip)).Nodup) (h : ban ∈ bans) : ban ∈ setBans byIP bans := by
  induction bans generalizing byIP with
  | nil => simp at h
  | cons other bans ih =>
    rw [List.map_cons, List.nodup_cons] at hnodup
    rcases List.mem_cons.mp h with rfl | h
    · have hset : ban ∈ setBan byIP ban := mem_setBan.mpr (.inl rfl)
      show ban ∈ setBans (setBan byIP ban) bans
      refine mem_setBans_of_other hset fun next hnext heq => ?_
      exact hnodup.1 (List.mem_map.mpr ⟨next, hnext, heq⟩)
    · exact ih hnodup.2 h

theorem limitLocalSecurityBans_eq {values : List LocalSecurityBan}
    (h : values.length ≤ securityLocalBanLimit) : limitLocalSecurityBans values = values :=
  if_pos h

theorem find_ban {byIP : List LocalSecurityBan} {ban : LocalSecurityBan}
    (hnodup : (byIP.map (·.ip)).Nodup) (h : ban ∈ byIP) :
    byIP.find? (fun other => other.ip = ban.ip) = some ban := by
  induction byIP with
  | nil => simp at h
  | cons other byIP ih =>
    rw [List.map_cons, List.nodup_cons] at hnodup
    rcases List.mem_cons.mp h with rfl | h
    · simp
    · have hne : other.ip ≠ ban.ip := fun heq =>
        hnodup.1 (heq ▸ List.mem_map.mpr ⟨ban, h, rfl⟩)
      rw [List.find?_cons_of_neg (by simpa using hne)]
      exact ih hnodup.2 h

theorem nodup_active {bans : List LocalSecurityBan} (h : (bans.map (·.ip)).Nodup) (now : Int) :
    ((activeLocalBans bans now).map (·.ip)).Nodup :=
  h.sublist (List.filter_sublist.map _)

/-! ### Pending bans -/

/-- A pending ban of the address that lasts at least until the time. -/
def Pending (bans : List LocalSecurityBan) (ip : String) (until_ : Int) : Prop :=
  ∃ ban ∈ bans, ban.ip = ip ∧ until_ ≤ ban.expiresAt ∧ ban.pending = true

variable {bans byIP : List LocalSecurityBan} {ip : String} {until_ now : Int}

theorem Pending.active (h : Pending bans ip until_) (hnow : now < until_) :
    Pending (activeLocalBans bans now) ip until_ := by
  obtain ⟨ban, hban, hip, huntil, hpending⟩ := h
  refine ⟨ban, ?_, hip, huntil, hpending⟩
  exact List.mem_filter.mpr ⟨hban, by simpa using lt_of_lt_of_le hnow huntil⟩

theorem Pending.map (h : Pending bans ip until_) (hnodup : (bans.map (·.ip)).Nodup) :
    Pending (setBans byIP bans) ip until_ := by
  obtain ⟨ban, hban, hheld⟩ := h
  exact ⟨ban, mem_setBans hnodup hban, hheld⟩

theorem Pending.banned {b : ObservedBan} (h : Pending bans b.ip b.expiresAt) :
    Banned (localBanValues bans) b := by
  obtain ⟨ban, hban, hip, huntil, -⟩ := h
  exact ⟨ban.toSecurityBan, List.mem_map.mpr ⟨ban, hban, rfl⟩, hip, huntil⟩

/-- The ban of an event is pending, for as long as the event asks for and as the ban of the
address lasted. -/
theorem localBanOf_spec (now : Int) (existing : Option LocalSecurityBan)
    (event : SecurityEvent) :
    (localBanOf now existing event).ip = event.clientIP ∧
      (localBanOf now existing event).pending = true ∧
      requestedExpiry now event ≤ (localBanOf now existing event).expiresAt ∧
      ∀ ban, existing = some ban → ban.expiresAt ≤ (localBanOf now existing event).expiresAt := by
  cases existing with
  | none => simp [localBanOf]
  | some ban =>
    rw [localBanOf]
    dsimp only
    split
    case isTrue hlonger => exact ⟨rfl, rfl, le_of_lt hlonger, by simp⟩
    case isFalse hshorter =>
      refine ⟨rfl, rfl, le_rfl, ?_⟩
      rintro _ ⟨rfl⟩
      exact not_lt.mp hshorter

theorem nodup_mergeEvent (h : (byIP.map (·.ip)).Nodup) (event : SecurityEvent) :
    ((mergeEvent now byIP event).map (·.ip)).Nodup := by
  rw [mergeEvent]
  split
  · exact nodup_setBan h _
  · exact h

theorem Pending.mergeEvent (hnodup : (byIP.map (·.ip)).Nodup) (h : Pending byIP ip until_)
    (event : SecurityEvent) : Pending (mergeEvent now byIP event) ip until_ := by
  rw [Manager.mergeEvent]
  split
  case isFalse => exact h
  case isTrue =>
    obtain ⟨ban, hban, hip, huntil, hpending⟩ := h
    obtain ⟨hspecIP, hspecPending, -, hspecLonger⟩ := localBanOf_spec now
      (byIP.find? fun ban => ban.ip = event.clientIP) event
    by_cases hsame : ban.ip = event.clientIP
    · -- the ban is the one the map has for the address
      refine ⟨_, mem_setBan.mpr (.inl rfl), by rw [hspecIP, ← hsame, hip], ?_, hspecPending⟩
      refine huntil.trans (hspecLonger ban ?_)
      rw [← hsame]
      exact find_ban hnodup hban
    · refine ⟨ban, mem_setBan.mpr (.inr ⟨hban, ?_⟩), hip, huntil, hpending⟩
      rw [hspecIP]
      exact hsame

/-- The ban of an event, once it is in the map. -/
theorem pending_mergeEvent {event : SecurityEvent} (hban : event.action = .ban)
    (byIP : List LocalSecurityBan) (now : Int) :
    Pending (mergeEvent now byIP event) event.clientIP (requestedExpiry now event) := by
  rw [mergeEvent, if_pos hban]
  obtain ⟨hip, hpending, hexpiry, -⟩ := localBanOf_spec now
    (byIP.find? fun ban => ban.ip = event.clientIP) event
  exact ⟨_, mem_setBan.mpr (.inl rfl), hip, hexpiry, hpending⟩

theorem nodup_mergeEvents (h : (byIP.map (·.ip)).Nodup) (events : List SecurityEvent) :
    ((events.foldl (mergeEvent now) byIP).map (·.ip)).Nodup := by
  induction events generalizing byIP with
  | nil => exact h
  | cons event events ih => exact ih (nodup_mergeEvent h event)

theorem Pending.mergeEvents (hnodup : (byIP.map (·.ip)).Nodup) (h : Pending byIP ip until_)
    (events : List SecurityEvent) : Pending (events.foldl (Manager.mergeEvent now) byIP) ip until_ := by
  induction events generalizing byIP with
  | nil => exact h
  | cons event events ih => exact ih (nodup_mergeEvent hnodup event) (h.mergeEvent hnodup event)

theorem pending_mergeEvents {event : SecurityEvent} {events : List SecurityEvent}
    (hevent : event ∈ events) (hban : event.action = .ban) (hnodup : (byIP.map (·.ip)).Nodup) :
    Pending (events.foldl (mergeEvent now) byIP) event.clientIP (requestedExpiry now event) := by
  induction events generalizing byIP with
  | nil => simp at hevent
  | cons next events ih =>
    have hnext : ((mergeEvent now byIP next).map (·.ip)).Nodup := nodup_mergeEvent hnodup next
    rcases List.mem_cons.mp hevent with rfl | hevent
    · exact (pending_mergeEvent hban byIP now).mergeEvents hnext events
    · exact ih hevent hnext

/-! ### What the operations keep -/

/-- Every waiting ban is pending, and in the firewall's list if that is newer. -/
structure Kept (m : Manager) : Prop where
  nodup : (m.bans.map (·.ip)).Nodup
  pending : ∀ ban, m.Waiting ban → Pending m.bans ban.ip ban.expiresAt
  given : ∀ ban, m.Waiting ban → ban.given = true → Banned m.given ban

/-- The bans are kept while they are within the limit. -/
def KeptWithinLimit (m : Manager) : Prop :=
  m.overflowed = false → m.Kept

theorem Kept.holds {m : Manager} (h : m.Kept) : m.Holds :=
  fun ban hban => ⟨(h.pending ban hban).banned, h.given ban hban⟩

variable {m m' : Manager}

/-- Nothing but the queue, the offset and the flag has changed, or bans are waiting no longer. -/
theorem Kept.of_eq (h : m.Kept) (hbans : m'.bans = m.bans) (hgiven : m'.given = m.given)
    (hwaiting : ∀ ban, m'.Waiting ban → m.Waiting ban) : m'.Kept := by
  refine ⟨hbans ▸ h.nodup, fun ban hban => ?_, fun ban hban => ?_⟩
  · rw [hbans]
    exact h.pending ban (hwaiting ban hban)
  · rw [hgiven]
    exact h.given ban (hwaiting ban hban)

theorem Kept.readClock (h : m.Kept) (now : Int) : (m.readClock now).Kept :=
  h.of_eq rfl rfl fun _ hban =>
    ⟨hban.1, hban.2.1, lt_of_le_of_lt (le_max_left _ _) hban.2.2⟩

/-- A waiting ban is active at a time the clock has passed. -/
theorem Kept.active (h : m.Kept) {now : Int} (hclock : now ≤ m.clock) {ban : ObservedBan}
    (hban : m.Waiting ban) :
    Pending (activeLocalBans m.bans now) ban.ip ban.expiresAt :=
  (h.pending ban hban).active (lt_of_le_of_lt hclock hban.2.2)

/-- A firewall command with a list that has every waiting ban. -/
theorem Kept.replaceFirewall (h : m.Kept) {bans : List SecurityBan}
    (hbans : ∀ ban, m.Waiting ban → Banned bans ban) (ok : Bool) :
    (m.replaceFirewall bans ok).Kept := by
  have hwaiting : ∀ ban, (m.replaceFirewall bans ok).Waiting ban →
      ∃ old, m.Waiting old ∧ old.ip = ban.ip ∧ old.expiresAt = ban.expiresAt := by
    rintro ban ⟨hobserved, haccepted, hactive⟩
    obtain ⟨old, hold, rfl⟩ := List.mem_map.mp hobserved
    exact ⟨old, ⟨hold, haccepted, hactive⟩, rfl, rfl⟩
  refine ⟨h.nodup, fun ban hban => ?_, fun ban hban _ => ?_⟩
  · obtain ⟨old, hold, hip, hexpires⟩ := hwaiting ban hban
    exact hip ▸ hexpires ▸ h.pending old hold
  · obtain ⟨old, hold, hip, hexpires⟩ := hwaiting ban hban
    obtain ⟨held, hheld, hsame, huntil⟩ := hbans old hold
    exact ⟨held, hheld, hsame.trans hip, hexpires ▸ huntil⟩

/-- A firewall command with bans among which every waiting one is pending. -/
theorem Kept.enforced (h : m.Kept) {bans : List LocalSecurityBan}
    (hbans : ∀ ban, m.Waiting ban → Pending bans ban.ip ban.expiresAt) (ok : Bool) :
    (m.replaceFirewall (localBanValues bans) ok).Kept :=
  h.replaceFirewall (fun ban hban => (hbans ban hban).banned) ok

/-- Bans are saved among which every waiting one is pending, and given to the firewall. -/
theorem Kept.installed (h : m.Kept) {bans : List LocalSecurityBan}
    (hnodup : (bans.map (·.ip)).Nodup)
    (hbans : ∀ ban, m.Waiting ban → Pending bans ban.ip ban.expiresAt) (hm' : m'.bans = bans)
    (hgiven : m'.given = m.given) (hwaiting : ∀ ban, m'.Waiting ban → m.Waiting ban) (ok : Bool) :
    (m'.replaceFirewall (localBanValues m'.bans) ok).Kept := by
  have hkept : m'.Kept := by
    refine ⟨hm' ▸ hnodup, fun ban hban => hm' ▸ hbans ban (hwaiting ban hban), ?_⟩
    rw [hgiven]
    exact fun ban hban => h.given ban (hwaiting ban hban)
  exact hkept.enforced hkept.pending ok

theorem KeptWithinLimit.of_eq (h : m.KeptWithinLimit) (hbans : m'.bans = m.bans)
    (hgiven : m'.given = m.given) (hwaiting : ∀ ban, m'.Waiting ban → m.Waiting ban)
    (hoverflowed : m'.overflowed = m.overflowed) : m'.KeptWithinLimit :=
  fun hwithin => (h (hoverflowed ▸ hwithin)).of_eq hbans hgiven hwaiting

theorem limited_within {values : List LocalSecurityBan}
    (h : (m.limited values).overflowed = false) :
    m.overflowed = false ∧ limitLocalSecurityBans values = values := by
  simp only [limited, Bool.or_eq_false_iff, decide_eq_false_iff_not, not_lt] at h
  exact ⟨h.1, limitLocalSecurityBans_eq h.2⟩

theorem KeptWithinLimit.limited (h : m.KeptWithinLimit) (values : List LocalSecurityBan) :
    (m.limited values).KeptWithinLimit :=
  fun hwithin => (h (limited_within hwithin).1).of_eq rfl rfl fun _ hban => hban

theorem initializeBans_kept (h : m.KeptWithinLimit) (i : InitializeInput) :
    Ends KeptWithinLimit KeptWithinLimit (m.initializeBans i) := by
  have hread : KeptWithinLimit { m.readClock i.now with firewallDirty := false } :=
    fun hwithin => ((h hwithin).readClock i.now).of_eq rfl rfl fun _ hban => hban
  simp only [initializeBans, ends_bind, ends_require, ends_pure]
  refine ⟨fun _ => ⟨fun _ => ⟨fun _ => ?_, fun _ => hread.limited _⟩, fun _ => hread⟩,
    fun _ => hread⟩
  intro hwithin
  obtain ⟨hbefore, hlimit⟩ := limited_within hwithin
  have hkept := hread hbefore
  have hclock : i.now ≤ (m.readClock i.now).clock := le_max_right _ _
  have hsame : limitLocalSecurityBans (activeLocalBans m.bans i.now) =
      activeLocalBans m.bans i.now := hlimit
  refine hkept.installed (nodup_active hkept.nodup i.now)
    (fun ban hban => hkept.active hclock hban) ?_ ?_ ?_ _
  · exact hsame
  · rfl
  · exact fun _ hban => hban

theorem enqueue_kept (h : m.KeptWithinLimit) (events : List SecurityEvent) (i : CollectInput) :
    Ends KeptWithinLimit (fun m' => m'.KeptWithinLimit ∧ m'.clock = m.clock)
      (m.enqueue events i) := by
  rw [enqueue]
  split
  · exact ⟨h, rfl⟩
  · simp only [ends_bind, ends_require, ends_pure]
    refine ⟨fun _ => ⟨fun _ => ⟨?_, trivial⟩, fun _ => h⟩, fun _ => h⟩
    exact h.of_eq rfl rfl (fun _ hban => ⟨hban.1, hban.2.1, hban.2.2⟩) rfl

/-- The bans of the events are pending, beside those that were. -/
theorem saveBans_kept {i : CollectInput} (hclock : i.now ≤ m.clock) (h : m.KeptWithinLimit)
    (events : List SecurityEvent) :
    Ends KeptWithinLimit (fun m' => m'.KeptWithinLimit ∧ m'.clock = m.clock)
      (m.saveBans events i) := by
  rw [saveBans]
  split
  case isFalse => exact ⟨h, rfl⟩
  case isTrue =>
    simp only [persistLocalBans, ends_bind, ends_require, ends_pure]
    refine ⟨fun _ => ⟨fun _ => ⟨?_, rfl⟩, fun _ => h.limited _⟩, fun _ => h⟩
    intro hwithin
    obtain ⟨hbefore, hlimit⟩ := limited_within hwithin
    have hkept := h hbefore
    have hmap : ((setBans [] (activeLocalBans m.bans i.now)).map (·.ip)).Nodup :=
      nodup_setBans (by simp) _
    have hsaved : (m.limited (mergeLocalBans m.bans events i.now)).savedLocalBans events i.now =
        mergeLocalBans m.bans events i.now := hlimit
    have hold : ∀ ban, m.Waiting ban →
        Pending (mergeLocalBans m.bans events i.now) ban.ip ban.expiresAt := fun ban hban =>
      ((hkept.active hclock hban).map (nodup_active hkept.nodup _)).mergeEvents hmap events
    refine ⟨?_, ?_, ?_⟩
    · rw [hsaved]
      exact nodup_mergeEvents hmap events
    · rintro ban ⟨hobserved, haccepted, hactive⟩
      rw [hsaved]
      rcases List.mem_append.mp hobserved with hobserved | hobserved
      · exact hold ban ⟨hobserved, haccepted, hactive⟩
      · obtain ⟨event, hevent, rfl⟩ := List.mem_map.mp hobserved
        rw [List.mem_filter] at hevent
        exact pending_mergeEvents hevent.1 (by simpa using hevent.2) hmap
    · rintro ban ⟨hobserved, haccepted, hactive⟩ hgiven
      rcases List.mem_append.mp hobserved with hobserved | hobserved
      · exact hkept.given ban ⟨hobserved, haccepted, hactive⟩ hgiven
      · obtain ⟨event, -, rfl⟩ := List.mem_map.mp hobserved
        simp at hgiven

theorem saveOffset_kept (h : m.KeptWithinLimit) (position : Option Int) (i : CollectInput) :
    Ends KeptWithinLimit (fun m' => m'.KeptWithinLimit ∧ m'.clock = m.clock)
      (m.saveOffset position i) := by
  cases position with
  | none => exact ⟨h, rfl⟩
  | some position =>
    simp only [saveOffset, ends_bind, ends_require, ends_pure]
    exact ⟨fun _ => ⟨h.of_eq rfl rfl (fun _ hban => hban) rfl, trivial⟩, fun _ => h⟩

theorem enforce_kept {i : CollectInput} (hclock : i.now ≤ m.clock) (h : m.KeptWithinLimit)
    (events : List SecurityEvent) :
    Ends KeptWithinLimit KeptWithinLimit (m.enforce events i) := by
  have hreplaced : ∀ ok, KeptWithinLimit (m.replaceFirewall (localBanValues
      (if containsSecurityBan events then m.bans else activeLocalBans m.bans i.now)) ok) := by
    intro ok hwithin
    have hkept := h hwithin
    refine hkept.enforced (fun ban hban => ?_) ok
    split
    · exact hkept.pending ban hban
    · exact hkept.active hclock hban
  rw [enforce]
  split
  · simp only [ends_bind, ends_require, ends_pure]
    exact ⟨fun _ => ⟨fun _ => hreplaced _, fun _ => hreplaced _⟩, fun _ => h⟩
  · exact h

theorem collect_kept (h : m.KeptWithinLimit) (i : CollectInput) :
    Ends KeptWithinLimit KeptWithinLimit (m.collect i) := by
  rw [collect]
  cases i.log with
  | none => exact h
  | some read =>
    obtain ⟨logged, position⟩ := read
    have hread : KeptWithinLimit
        { m.readClock i.now with nextID := m.nextID + logged.length } :=
      fun hwithin => ((h hwithin).readClock i.now).of_eq rfl rfl fun _ hban => hban
    have hclock : i.now ≤ (m.readClock i.now).clock := le_max_right _ _
    simp only [ends_bind]
    refine (enqueue_kept hread _ i).mono (fun _ h => h) ?_
    rintro m₁ ⟨h₁, hclock₁⟩
    refine (saveBans_kept (hclock₁ ▸ hclock) h₁ _).mono (fun _ h => h) ?_
    rintro m₂ ⟨h₂, hclock₂⟩
    refine (saveOffset_kept h₂ position i).mono (fun _ h => h) ?_
    rintro m₃ ⟨h₃, hclock₃⟩
    refine enforce_kept ?_ h₃ _
    rw [hclock₃, hclock₂, hclock₁]
    exact hclock

/-- A list of the control plane goes under the pending bans. -/
theorem syncBans_kept (h : m.KeptWithinLimit) (i : SyncInput) :
    Ends KeptWithinLimit KeptWithinLimit (m.syncBans i) := by
  rw [syncBans]
  cases i.remote with
  | none => exact h
  | some remote =>
    simp only [ends_bind, ends_require]
    refine ⟨fun _ => ?_, fun _ => h⟩
    have hread : (m.readClock i.now).KeptWithinLimit :=
      fun hwithin => (h hwithin).readClock i.now
    have hlimited := (hread.limited (setBans [] (activeLocalBans m.bans i.now))).limited
      (m.mergeRemoteBans remote i.now)
    split
    · exact hlimited
    · simp only [ends_bind, ends_require, ends_pure]
      refine ⟨fun _ hwithin => ?_, fun _ => hlimited⟩
      obtain ⟨hbefore, hlimit⟩ := limited_within hwithin
      obtain ⟨hbefore, hprevious⟩ := limited_within hbefore
      have hkept := hread hbefore
      have hclock : i.now ≤ (m.readClock i.now).clock := le_max_right _ _
      have hsame : limitLocalSecurityBans (m.mergeRemoteBans remote i.now) =
          m.mergeRemoteBans remote i.now := hlimit
      have hpreviousBans : m.previousBans i.now = setBans [] (activeLocalBans m.bans i.now) :=
        hprevious
      have hnodup : ((m.mergeRemoteBans remote i.now).map (·.ip)).Nodup :=
        nodup_setBans (nodup_setBans (by simp) _) _
      refine hkept.installed hnodup (fun ban hban => ?_) ?_ ?_ ?_ _
      rotate_left
      · exact hsame
      · rfl
      · exact fun _ hban => hban
      have hmap : Pending (setBans [] (activeLocalBans m.bans i.now)) ban.ip ban.expiresAt :=
        (hkept.active hclock hban).map (nodup_active hkept.nodup _)
      obtain ⟨held, hheld, hip, huntil, hpending⟩ := hmap
      have hnodup : ((setBans [] (activeLocalBans m.bans i.now)).map (·.ip)).Nodup :=
        nodup_setBans (by simp) _
      refine ⟨held, mem_setBans ?_ ?_, hip, huntil, hpending⟩
      · rw [hpreviousBans]
        exact hnodup.sublist (List.filter_sublist.map _)
      · rw [hpreviousBans]
        exact List.mem_filter.mpr ⟨hheld, hpending⟩

/-- The marks are removed from addresses no waiting ban has. -/
theorem clearPending_kept {events : List SecurityEvent} (h : m.KeptWithinLimit)
    (hother : ∀ ban, m.Waiting ban → ∀ event ∈ events, event.clientIP ≠ ban.ip)
    (i : FlushInput) : Ends KeptWithinLimit KeptWithinLimit (m.clearPending events i) := by
  simp only [clearPending, ends_bind, ends_require, ends_pure]
  refine ⟨fun _ => ⟨fun _ => ?_, fun _ => h⟩, fun _ => h⟩
  intro hwithin
  have hkept := h hwithin
  refine ⟨?_, fun ban hban => ?_, hkept.given⟩
  · have hips : ∀ ban : LocalSecurityBan,
        (if events.any fun event => event.clientIP = ban.ip then { ban with pending := false }
          else ban).ip = ban.ip := by
      intro ban
      split <;> rfl
    rw [List.map_map]
    simpa only [Function.comp_def, hips] using hkept.nodup
  · obtain ⟨held, hheld, hip, huntil, hpending⟩ := hkept.pending ban hban
    refine ⟨held, List.mem_map.mpr ⟨held, hheld, if_neg ?_⟩, hip, huntil, hpending⟩
    simp only [List.any_eq_true, decide_eq_true_eq, not_exists, not_and]
    intro event hevent heq
    exact hother ban hban event hevent (heq.trans hip)

theorem flush_kept {i : FlushInput} (h : m.KeptWithinLimit) (htogether : m.AcceptsTogether i) :
    Ends KeptWithinLimit KeptWithinLimit (m.flush i) := by
  simp only [flush, ends_bind, ends_require]
  refine ⟨fun hloaded => ?_, fun _ => h⟩
  split
  · exact h
  · cases hanswer : i.answer with
    | none => exact h
    | some answer =>
      cases answer with
      | refused => exact h
      | invalidEvent index =>
        dsimp only
        split
        · exact h.of_eq rfl rfl (fun _ hban => hban) rfl
        · exact h
      | accepted =>
        have hwaiting : ∀ ban,
            Waiting { m with accepted := m.accepted ++ m.batch.map fun event => event.id } ban →
            m.Waiting ban ∧ ∀ event ∈ m.batch, event.id ≠ ban.id := by
          rintro ban ⟨hobserved, haccepted, hactive⟩
          rw [List.mem_append, not_or] at haccepted
          refine ⟨⟨hobserved, haccepted.1, hactive⟩, fun event hevent heq => haccepted.2 ?_⟩
          exact List.mem_map.mpr ⟨event, hevent, heq⟩
        simp only [ends_bind, ends_require]
        have haccepted : KeptWithinLimit
            { m with accepted := m.accepted ++ m.batch.map fun event => event.id } :=
          h.of_eq rfl rfl (fun ban hban => (hwaiting ban hban).1) rfl
        refine ⟨fun _ => ?_, fun _ => haccepted⟩
        refine (clearPending_kept ?_ ?_ i).mono (fun _ h => h) fun m' hm' => syncBans_kept hm' i.sync
        · exact haccepted.of_eq rfl rfl (fun _ hban => hban) rfl
        · -- the events of the other waiting bans of the address are accepted as well
          intro ban hban event hevent heq
          obtain ⟨hbefore, hids⟩ := hwaiting ban hban
          obtain ⟨own, hown, hid⟩ := htogether hloaded hanswer ban hbefore
            ⟨event, hevent, heq⟩
          exact hids own hown hid

theorem step_kept {op : Operation} (h : m.KeptWithinLimit) (htogether : m.UploadsTogether op) :
    (step m op).KeptWithinLimit := by
  cases op with
  | restart i => exact (initializeBans_kept h i).returned
  | syncBans i => exact (syncBans_kept h i).returned
  | collectAndFlush i =>
    refine Ends.returned ?_
    rw [collectAndFlush, ends_bind]
    have hcollect := collect_kept h i
    cases hm' : m.collect i with
    | error m' =>
      rw [hm'] at hcollect
      exact hcollect
    | ok m' =>
      rw [hm'] at hcollect
      exact flush_kept hcollect (htogether m' hm')

end Manager

/-- While no accepted upload splits the events of an address from a waiting ban of it, and no more
addresses are banned at once than the limit, every waiting ban is saved and in the list last given
to the firewall, in every state of every run. -/
theorem holds_of_uploadsTogether (now : Int) (ops : List Operation)
    (h : Along step Manager.UploadsTogether (fresh now) ops) :
    Always step (fun m => m.overflowed = false → m.Holds) (fresh now) ops := by
  have hfresh : (fresh now).KeptWithinLimit := by
    intro _
    refine ⟨by simp [fresh], ?_, ?_⟩ <;>
    · rintro ban ⟨hobserved, -⟩
      simp [fresh] at hobserved
  exact (h.always (fun _ _ hm htogether => Manager.step_kept hm htogether) hfresh).mono
    fun m hm hwithin => (hm hwithin).holds

/-! ### An address with several events -/

section Example

/-- A ban whose event waits stays when the control plane sends a list without it. -/
theorem emptyList_holds :
    let ops : List Operation :=
      [.collectAndFlush smallCollect, .syncBans { noSync with remote := some [], now := 2 }]
    (run step (fresh 0) ops).bans.length = 1 ∧
      Always step (fun m => m.overflowed = false → m.Holds) (fresh 0) ops := by
  intro ops
  refine ⟨by decide +kernel, holds_of_uploadsTogether 0 ops ⟨?_, trivial, trivial⟩⟩
  rintro m' - - hanswer
  simp [smallCollect, noUpload] at hanswer

/-- A block of the same client. -/
def smallBlock : LoggedEvent :=
  { smallBan with action := .block, banDurationSeconds := 0 }

/-- Two hundred blocks of an address fill the upload, and its ban event waits.  The accepted upload
takes the mark from the ban, and the list without it removes the ban. -/
theorem splitUpload_removesBan :
    let sync : SyncInput := { noSync with remote := some [], now := 2 }
    let upload : FlushInput := { noUpload with answer := some .accepted, sync := sync }
    let collect : CollectInput :=
      { smallCollect with
        log := some (List.replicate 200 smallBlock ++ [smallBan], some 40000)
        flush := upload }
    let m := run step (fresh 0) [.collectAndFlush collect]
    m.overflowed = false ∧ m.bans = [] ∧ m.installed = [] ∧
      (m.queue.map fun event => event.action) = [.ban] ∧ ¬ m.Holds := by
  intro sync upload collect m
  have hbans : m.bans = [] := by decide +kernel
  refine ⟨by decide +kernel, hbans, by decide +kernel, by decide +kernel, fun h => ?_⟩
  have hwaiting : m.Waiting
      { id := 200, ip := "8.8.8.8", expiresAt := 1 + 3600 * second, given := true } :=
    ⟨by decide +kernel, by decide +kernel, by decide +kernel⟩
  obtain ⟨held, hheld, -⟩ := (h _ hwaiting).1
  rw [hbans] at hheld
  simp [localBanValues] at hheld

end Example

end SimpleCdn.Edge
