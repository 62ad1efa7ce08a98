import SimpleCdn.Edge.LocalBans
import SimpleCdn.Lib.Greatest

/-!
# Merging the control plane's bans

A list of the control plane and the pending local bans each ask for expiries.  `syncBans` puts the
entries of the list into a map, a later one of an address over an earlier one, and the pending local
bans over both, so what it saves for an address is the last expiry asked for, not the longest.
-/

namespace SimpleCdn.Edge

open Transition Greatest

namespace Manager

/-- An address with an expiry. -/
def entry (ban : LocalSecurityBan) : String × Int :=
  (ban.ip, ban.expiresAt)

/-- The expiries that are asked for: by the control plane's unexpired bans, in the order of its
list, and by the pending local ones; only public addresses count. -/
def asked (bans : List LocalSecurityBan) (remote : List EdgeSecurityBan) (now : Int) :
    List (String × Int) :=
  ((remote.filter fun ban => isPublicIPv4 ban.ip ∧ now < ban.expiresAt).map fun ban =>
      (ban.ip, ban.expiresAt)) ++
    ((bans.filter fun ban => isPublicIPv4 ban.ip ∧ now < ban.expiresAt ∧ ban.pending).map entry)

/-- What the manager saves has one ban for an address, which is public, and keeps to the limit. -/
structure Persisted (bans : List LocalSecurityBan) : Prop where
  nodup : (bans.map (·.ip)).Nodup
  isPublic : ∀ ban ∈ bans, isPublicIPv4 ban.ip = true
  limited : bans.length ≤ securityLocalBanLimit

/-- The saved bans are, up to the limit, the addresses that are asked for, each with the longest
expiry. -/
def KeepsLongest (i : SyncInput) (m m' : Manager) : Prop :=
  ∀ remote, i.remote = some remote →
    KeepsGreatest securityLocalBanLimit (asked m.bans remote i.now) (m'.bans.map entry)

/-- For each address the last expiry asked for is the longest, or the address is cut off. -/
def AsksLongestLast (i : SyncInput) (m : Manager) : Prop :=
  ∀ remote, i.remote = some remote →
    LastIsGreatest securityLocalBanLimit (asked m.bans remote i.now)

/-! ### Lists of bans -/

section

variable {bans byIP values : List LocalSecurityBan} {remote : List EdgeSecurityBan} {now : Int}
  {m m' : Manager} {p : String × Int}

theorem keys_entries (bans : List LocalSecurityBan) :
    (bans.map entry).map Prod.fst = bans.map (·.ip) := by
  rw [List.map_map]
  rfl

theorem mem_keys_entries {bans : List LocalSecurityBan} {ip : String} :
    ip ∈ (bans.map entry).map Prod.fst ↔ ∃ ban ∈ bans, ban.ip = ip := by
  rw [keys_entries, List.mem_map]

/-- The entries of a map after some have been put into it. -/
theorem mem_entries_setBans :
    p ∈ (setBans byIP bans).map entry ↔
      p ∈ lastEntries (bans.map entry) ∨
        (p ∈ byIP.map entry ∧ p.1 ∉ (bans.map entry).map Prod.fst) := by
  induction bans generalizing byIP with
  | nil => simp [setBans, lastEntries]
  | cons ban rest ih =>
    have hset : p ∈ (setBan byIP ban).map entry ↔
        p = entry ban ∨ (p ∈ byIP.map entry ∧ p.1 ≠ ban.ip) := by
      simp only [List.mem_map, mem_setBan]
      constructor
      · rintro ⟨other, rfl | ⟨hother, hne⟩, rfl⟩
        · exact .inl rfl
        · exact .inr ⟨⟨other, hother, rfl⟩, hne⟩
      · rintro (rfl | ⟨⟨other, hother, rfl⟩, hne⟩)
        · exact ⟨ban, .inl rfl, rfl⟩
        · exact ⟨other, .inr ⟨hother, hne⟩, rfl⟩
    have hlast : p ∈ lastEntries ((ban :: rest).map entry) ↔
        p ∈ lastEntries (rest.map entry) ∨ (p = entry ban ∧ p.1 ∉ (rest.map entry).map Prod.fst) := by
      have happend : p ∈ lastEntries ([entry ban] ++ rest.map entry) ↔ _ := mem_lastEntries_append
      simpa [lastEntries] using happend
    have hkeys : p.1 ∉ ((ban :: rest).map entry).map Prod.fst ↔
        p.1 ≠ ban.ip ∧ p.1 ∉ (rest.map entry).map Prod.fst := by
      simp only [List.map_cons, List.mem_cons, not_or]
      rfl
    show p ∈ (setBans (setBan byIP ban) rest).map entry ↔ _
    rw [ih, hset, hlast, hkeys]
    tauto

theorem mem_of_mem_setBans {ban : LocalSecurityBan} (h : ban ∈ setBans byIP bans) :
    ban ∈ byIP ∨ ban ∈ bans := by
  induction bans generalizing byIP with
  | nil => exact .inl h
  | cons next rest ih =>
    rcases ih h with hset | hrest
    · rcases mem_setBan.mp hset with rfl | ⟨hmem, -⟩
      · exact .inr List.mem_cons_self
      · exact .inl hmem
    · exact .inr (List.mem_cons_of_mem next hrest)

/-- A list with one ban for an address is put into an empty map as it is. -/
theorem setBans_nil_perm (h : (bans.map (·.ip)).Nodup) : (setBans [] bans).Perm bans := by
  have hnodup : ((setBans [] bans).map (·.ip)).Nodup := nodup_setBans (by simp) bans
  refine (List.perm_ext_iff_of_nodup hnodup.of_map h.of_map).mpr fun ban => ⟨fun hban => ?_, ?_⟩
  · exact (mem_of_mem_setBans hban).resolve_left List.not_mem_nil
  · exact mem_setBans h

theorem outlasts_trans (a b c : LocalSecurityBan) (hab : outlasts a b = true)
    (hbc : outlasts b c = true) : outlasts a c = true := by
  unfold outlasts at *
  grind

theorem outlasts_total (a b : LocalSecurityBan) : (outlasts a b || outlasts b a) = true := by
  unfold outlasts
  grind

theorem expiresAt_of_outlasts {a b : LocalSecurityBan} (h : outlasts a b = true) :
    b.expiresAt ≤ a.expiresAt := by
  unfold outlasts at h
  grind

/-- `limitLocalSecurityBans` keeps the bans that last longest. -/
theorem top_limit (h : (values.map (·.ip)).Nodup) :
    Top securityLocalBanLimit (values.map entry) ((limitLocalSecurityBans values).map entry) := by
  unfold limitLocalSecurityBans
  split
  · next hfew =>
    refine ⟨List.Subset.refl _, by rwa [keys_entries], ?_, fun q hq hcut => absurd hq hcut⟩
    rw [List.length_map, min_eq_right hfew]
  · next hmany =>
    have hsorted := List.pairwise_mergeSort outlasts_trans outlasts_total values
    have hsplit := List.take_append_drop securityLocalBanLimit (values.mergeSort outlasts)
    rw [← hsplit, List.pairwise_append] at hsorted
    have hmem : ∀ ban, ban ∈ ((values.mergeSort outlasts).take securityLocalBanLimit).mergeSort
        (fun a b => decide (a.ip ≤ b.ip)) ↔
          ban ∈ (values.mergeSort outlasts).take securityLocalBanLimit := fun ban =>
      List.mem_mergeSort
    have hsub : ∀ ban ∈ (values.mergeSort outlasts).take securityLocalBanLimit, ban ∈ values :=
      fun ban hban => List.mem_mergeSort.mp (List.mem_of_mem_take hban)
    refine ⟨?_, ?_, ?_, ?_⟩
    · intro p hp
      obtain ⟨ban, hban, rfl⟩ := List.mem_map.mp hp
      exact List.mem_map.mpr ⟨ban, hsub ban ((hmem ban).mp hban), rfl⟩
    · rw [keys_entries, ((List.mergeSort_perm _ _).map _).nodup_iff]
      have hperm := (List.mergeSort_perm values outlasts).map (fun ban => ban.ip)
      exact (hperm.nodup_iff.mpr h).sublist ((List.take_sublist _ _).map _)
    · rw [List.length_map, List.length_mergeSort, List.length_take, List.length_mergeSort,
        List.length_map]
    · intro q hq hcut p hp
      obtain ⟨ban, hban, rfl⟩ := List.mem_map.mp hq
      obtain ⟨other, hother, rfl⟩ := List.mem_map.mp hp
      have hdrop : ban ∈ (values.mergeSort outlasts).drop securityLocalBanLimit := by
        have hall : ban ∈ values.mergeSort outlasts := List.mem_mergeSort.mpr hban
        rw [← hsplit] at hall
        refine (List.mem_append.mp hall).resolve_left fun htake => ?_
        exact hcut (List.mem_map.mpr ⟨ban, (hmem ban).mpr htake, rfl⟩)
      exact expiresAt_of_outlasts (hsorted.2.2 other ((hmem other).mp hother) ban hdrop)

theorem entries_of_equivalent {left right : List LocalSecurityBan}
    (h : equivalentLocalBanSets left right = true) : left.map entry = right.map entry := by
  induction left, right using equivalentLocalBanSets.induct with
  | case1 => rfl
  | case2 a left b right ih =>
    simp only [equivalentLocalBanSets, Bool.and_eq_true, decide_eq_true_eq] at h
    obtain ⟨⟨⟨hip, -⟩, hexpires⟩, hrest⟩ := h
    rw [List.map_cons, List.map_cons, ih hrest, entry, entry, hip, hexpires]
  | case3 left right hnil hcons =>
    unfold equivalentLocalBanSets at h
    split at h
    · exact absurd rfl (hnil rfl)
    · exact absurd rfl (hcons _ _ _ _ rfl)
    · cases h

/-! ### A sync -/

theorem previousBans_perm (hm : Persisted m.bans) :
    (m.previousBans now).Perm (activeLocalBans m.bans now) := by
  have hperm := setBans_nil_perm (nodup_active hm.nodup now)
  have hlength : (setBans [] (activeLocalBans m.bans now)).length ≤ securityLocalBanLimit := by
    rw [hperm.length_eq]
    exact (List.length_filter_le _ _).trans hm.limited
  rw [previousBans, limitLocalSecurityBans_eq hlength]
  exact hperm

theorem nodup_mergeRemoteBans : ((m.mergeRemoteBans remote now).map (·.ip)).Nodup :=
  nodup_setBans (nodup_setBans (by simp) _) _

/-- The merged map has the last entry of each address. -/
theorem mem_mergeRemoteBans (hm : Persisted m.bans) :
    p ∈ (m.mergeRemoteBans remote now).map entry ↔ p ∈ lastEntries (asked m.bans remote now) := by
  have hfilter : (activeLocalBans m.bans now).filter (·.pending) =
      m.bans.filter fun ban => isPublicIPv4 ban.ip ∧ now < ban.expiresAt ∧ ban.pending := by
    rw [activeLocalBans, List.filter_filter]
    refine List.filter_congr fun ban hban => ?_
    simp [hm.isPublic ban hban, Bool.and_comm]
  have hpending : (((m.previousBans now).filter (·.pending)).map entry).Perm
      ((m.bans.filter fun ban => isPublicIPv4 ban.ip ∧ now < ban.expiresAt ∧ ban.pending).map
        entry) := by
    rw [← hfilter]
    exact ((previousBans_perm hm).filter _).map _
  have hnodup : ((((m.previousBans now).filter (·.pending)).map entry).map Prod.fst).Nodup := by
    rw [(hpending.map _).nodup_iff, keys_entries]
    exact hm.nodup.sublist (List.filter_sublist.map _)
  have hnodup' := (hpending.map Prod.fst).nodup_iff.mp hnodup
  rw [mergeRemoteBans, mem_entries_setBans, mem_entries_setBans, asked, mem_lastEntries_append,
    lastEntries_of_nodup hnodup, lastEntries_of_nodup hnodup', hpending.mem_iff,
    (hpending.map Prod.fst).mem_iff, List.map_map]
  simp only [List.map_nil, List.not_mem_nil, false_and, or_false]
  rfl

theorem syncBans_entries {i : SyncInput} (hm : Persisted m.bans) (hremote : i.remote = some remote)
    (h : m.syncBans i = .ok m') :
    ((limitLocalSecurityBans (m.mergeRemoteBans remote i.now)).map entry).Perm
      (m'.bans.map entry) := by
  simp only [syncBans, hremote, bind_eq_ok, require_eq_ok] at h
  obtain ⟨-, -, h⟩ := h
  split at h
  · next hsame =>
    obtain ⟨hlength, hequivalent, -⟩ := hsame
    rw [pure_eq_ok] at h
    subst h
    have hperm : (m.previousBans i.now).Perm (activeLocalBans m.bans i.now) := previousBans_perm hm
    have hactive : activeLocalBans m.bans i.now = m.bans := by
      refine List.filter_eq_self.mpr (List.length_filter_eq_length_iff.mp ?_)
      exact hperm.length_eq.symm.trans hlength.symm
    rw [hactive] at hperm
    have hentries := entries_of_equivalent hequivalent
    exact (hentries ▸ hperm.map entry : _)
  · simp only [bind_eq_ok, require_eq_ok, pure_eq_ok] at h
    obtain ⟨-, -, rfl⟩ := h
    exact List.Perm.refl _

/-! ### What is saved -/

theorem mem_of_mem_limit {ban : LocalSecurityBan} (h : ban ∈ limitLocalSecurityBans values) :
    ban ∈ values := by
  unfold limitLocalSecurityBans at h
  split at h
  · exact h
  · exact List.mem_mergeSort.mp (List.mem_of_mem_take (List.mem_mergeSort.mp h))

theorem persisted_limit (hnodup : (values.map (·.ip)).Nodup)
    (hpublic : ∀ ban ∈ values, isPublicIPv4 ban.ip = true) :
    Persisted (limitLocalSecurityBans values) := by
  have htop := top_limit hnodup
  refine ⟨?_, fun ban hban => hpublic ban (mem_of_mem_limit hban), ?_⟩
  · rw [← keys_entries]
    exact htop.nodup
  · have hsize := htop.size
    rw [List.length_map] at hsize
    omega

theorem Persisted.active (h : Persisted bans) (now : Int) :
    Persisted (activeLocalBans bans now) :=
  ⟨nodup_active h.nodup now, fun ban hban => h.isPublic ban (List.mem_filter.mp hban).1,
    (List.length_filter_le _ _).trans h.limited⟩

theorem public_setBans (hbyIP : ∀ ban ∈ byIP, isPublicIPv4 ban.ip = true)
    (hbans : ∀ ban ∈ bans, isPublicIPv4 ban.ip = true) :
    ∀ ban ∈ setBans byIP bans, isPublicIPv4 ban.ip = true := fun ban hban =>
  (mem_of_mem_setBans hban).elim (hbyIP ban) (hbans ban)

theorem public_mergeEvents {events : List SecurityEvent}
    (hbyIP : ∀ ban ∈ byIP, isPublicIPv4 ban.ip = true)
    (hevents : ∀ event ∈ events, isPublicIPv4 event.clientIP = true) :
    ∀ ban ∈ events.foldl (mergeEvent now) byIP, isPublicIPv4 ban.ip = true := by
  induction events generalizing byIP with
  | nil => exact hbyIP
  | cons event events ih =>
    refine ih (fun ban hban => ?_) fun next hnext => hevents next (List.mem_cons_of_mem _ hnext)
    unfold mergeEvent at hban
    split at hban
    · rcases mem_setBan.mp hban with rfl | ⟨hban, -⟩
      · rw [(localBanOf_spec now _ event).1]
        exact hevents event List.mem_cons_self
      · exact hbyIP ban hban
    · exact hbyIP ban hban

theorem persisted_mergeRemoteBans (h : Persisted m.bans) :
    Persisted (limitLocalSecurityBans (m.mergeRemoteBans remote now)) := by
  refine persisted_limit nodup_mergeRemoteBans
    (public_setBans (public_setBans (fun ban hban => by cases hban) fun ban hban => ?_)
      fun ban hban => ?_)
  · obtain ⟨remote, hremote, rfl⟩ := List.mem_map.mp hban
    have hpublic := (List.mem_filter.mp hremote).2
    simp only [decide_eq_true_eq] at hpublic
    exact hpublic.1
  · have hmem := (previousBans_perm h).mem_iff.mp (List.mem_filter.mp hban).1
    exact h.isPublic ban (List.mem_filter.mp hmem).1

/-- The saved bans of a manager. -/
def Saved (m : Manager) : Prop :=
  Persisted m.bans

theorem Saved.of_bans (h : m.Saved) (hbans : m'.bans = m.bans) : m'.Saved := by
  unfold Saved
  rw [hbans]
  exact h

theorem initializeBans_saved (h : m.Saved) (i : InitializeInput) :
    Ends Saved Saved (m.initializeBans i) := by
  simp only [initializeBans, ends_bind, ends_require, ends_pure]
  refine ⟨fun _ => ⟨fun _ => ⟨fun _ => ?_, fun _ => h⟩, fun _ => h⟩, fun _ => h⟩
  have hactive := h.active i.now
  exact persisted_limit hactive.nodup hactive.isPublic

theorem collect_saved (h : m.Saved) (i : CollectInput)
    (hlog : ∀ read, i.log = some read → ∀ event ∈ read.1, isPublicIPv4 event.clientIP = true) :
    Ends Saved Saved (m.collect i) := by
  rw [collect]
  cases hread : i.log with
  | none => exact h
  | some read =>
    obtain ⟨logged, position⟩ := read
    have hevents : ∀ event ∈ m.stamp logged, isPublicIPv4 event.clientIP = true := by
      intro event hevent
      obtain ⟨index, hindex, rfl⟩ := List.mem_mapIdx.mp hevent
      exact hlog _ hread _ (List.getElem_mem hindex)
    simp only [ends_bind]
    have hstart : Saved { m.readClock i.now with nextID := m.nextID + logged.length } := h
    have henqueue : Ends Saved Saved
        (enqueue { m.readClock i.now with nextID := m.nextID + logged.length }
          (m.stamp logged) i) := by
      rw [enqueue]
      split
      · exact hstart
      · simp only [ends_bind, ends_require, ends_pure]
        exact ⟨fun _ => ⟨fun _ => hstart.of_bans rfl, fun _ => hstart⟩, fun _ => hstart⟩
    refine henqueue.mono (fun _ h => h) fun m₁ h₁ => ?_
    have hsave : Ends Saved Saved (m₁.saveBans (m.stamp logged) i) := by
      rw [saveBans]
      split
      · simp only [persistLocalBans, ends_bind, ends_require, ends_pure]
        refine ⟨fun _ => ⟨fun _ => ?_, fun _ => h₁⟩, fun _ => h₁⟩
        refine persisted_limit (nodup_mergeEvents (nodup_setBans (by simp) _) _)
          (public_mergeEvents (public_setBans (fun ban hban => by cases hban) ?_) hevents)
        exact (Persisted.active h₁ i.now).isPublic
      · exact h₁
    refine hsave.mono (fun _ h => h) fun m₂ h₂ => ?_
    have hoffset : Ends Saved Saved (m₂.saveOffset position i) := by
      cases position with
      | none => exact h₂
      | some position =>
        simp only [saveOffset, ends_bind, ends_require, ends_pure]
        exact ⟨fun _ => h₂, fun _ => h₂⟩
    refine hoffset.mono (fun _ h => h) fun m₃ h₃ => ?_
    rw [enforce]
    split
    · simp only [ends_bind, ends_require, ends_pure]
      exact ⟨fun _ => ⟨fun _ => h₃, fun _ => h₃⟩, fun _ => h₃⟩
    · exact h₃

theorem syncBans_saved (h : m.Saved) (i : SyncInput) : Ends Saved Saved (m.syncBans i) := by
  rw [syncBans]
  cases i.remote with
  | none => exact h
  | some remote =>
    simp only [ends_bind, ends_require]
    refine ⟨fun _ => ?_, fun _ => h⟩
    split
    · exact h
    · simp only [ends_bind, ends_require, ends_pure]
      have hread : Persisted (m.readClock i.now).bans := h
      refine ⟨fun _ => ?_, fun _ => h⟩
      unfold Saved replaceFirewall
      exact persisted_mergeRemoteBans hread

theorem clearPending_saved (h : m.Saved) (events : List SecurityEvent) (i : FlushInput) :
    Ends Saved Saved (m.clearPending events i) := by
  simp only [clearPending, ends_bind, ends_require, ends_pure]
  refine ⟨fun _ => ⟨fun _ => ?_, fun _ => h⟩, fun _ => h⟩
  have hip : ∀ ban : LocalSecurityBan,
      (if events.any fun event => event.clientIP = ban.ip then { ban with pending := false }
        else ban).ip = ban.ip := by
    intro ban
    split <;> rfl
  refine ⟨?_, fun ban hban => ?_, ?_⟩
  · rw [List.map_map]
    simpa only [Function.comp_def, hip] using Persisted.nodup h
  · obtain ⟨old, hold, rfl⟩ := List.mem_map.mp hban
    rw [hip]
    exact Persisted.isPublic h old hold
  · rw [List.length_map]
    exact Persisted.limited h

theorem flush_saved (h : m.Saved) (i : FlushInput) : Ends Saved Saved (m.flush i) := by
  simp only [flush, ends_bind, ends_require]
  refine ⟨fun _ => ?_, fun _ => h⟩
  split
  · exact h
  · split
    · simp only [ends_bind, ends_require]
      refine ⟨fun _ => ?_, fun _ => h⟩
      refine (clearPending_saved ?_ _ i).mono (fun _ h => h) fun m' hm' => syncBans_saved hm' i.sync
      exact h
    · split
      · exact h
      · exact h
    · exact h

end

/-- The addresses read from the log are public, as `decodeSecurityLog` demands. -/
def ReadsPublic : Operation → Prop
  | .collectAndFlush i => ∀ read, i.log = some read →
      ∀ event ∈ read.1, isPublicIPv4 event.clientIP = true
  | _ => True

theorem step_saved {m : Manager} {op : Operation} (h : m.Saved) (hop : ReadsPublic op) :
    (step m op).Saved := by
  cases op with
  | restart i => exact (initializeBans_saved h i).returned
  | syncBans i => exact (syncBans_saved h i).returned
  | collectAndFlush i =>
    refine Ends.returned ?_
    rw [collectAndFlush, ends_bind]
    exact (collect_saved h i hop).mono (fun _ h => h) fun m' hm' => flush_saved hm' i.flush

/-- In every state of every run the saved bans are such. -/
theorem always_saved (now : Int) (ops : List Operation)
    (h : Along step (fun _ op => ReadsPublic op) (fresh now) ops) :
    Always step Saved (fresh now) ops := by
  have hfresh : (fresh now).Saved :=
    ⟨List.nodup_nil, fun ban hban => (by cases hban), Nat.zero_le _⟩
  exact h.always (fun _ _ hm hop => step_saved hm hop) hfresh

/-- A sync keeps the longest expiry of each address exactly when the last one asked for is the
longest, or the address is cut off. -/
theorem syncBans_keepsLongest_iff {m m' : Manager} {i : SyncInput} (hm : Persisted m.bans)
    (h : m.syncBans i = .ok m') : KeepsLongest i m m' ↔ AsksLongestLast i m := by
  refine forall_congr' fun remote => forall_congr' fun hremote => ?_
  have hnodup : (((m.mergeRemoteBans remote i.now).map entry).map Prod.fst).Nodup := by
    rw [keys_entries]
    exact nodup_mergeRemoteBans
  have htop : Top _ ((m.mergeRemoteBans remote i.now).map entry) _ :=
    top_limit nodup_mergeRemoteBans
  have hiff := htop.keepsGreatest_iff hnodup fun p => mem_mergeRemoteBans hm
  have hperm := syncBans_entries hm hremote h
  exact ⟨fun hkept => hiff.mp (hkept.perm hperm.symm), fun hlast => (hiff.mpr hlast).perm hperm⟩

/-! ### One address -/

/-- A manager whose only ban is pending until the time. -/
def holding (expiresAt : Int) : Manager :=
  { fresh 0 with
    bans := [⟨⟨"8.8.8.8", "policy", "cdn.example.test", "/", "GET", expiresAt, 0, 0⟩, true⟩] }

/-- A sync with these bans of the control plane. -/
def syncOf (remote : List EdgeSecurityBan) : SyncInput :=
  { noSync with remote := some remote, now := 1 }

theorem persisted_holding (expiresAt : Int) : Persisted (holding expiresAt).bans := by
  have hpublic : isPublicIPv4 "8.8.8.8" = true := by decide +kernel
  refine ⟨List.nodup_singleton _, fun ban hban => ?_, Nat.succ_le_succ (Nat.zero_le _)⟩
  obtain rfl := List.mem_singleton.mp hban
  exact hpublic

theorem syncBans_keepsLongest_extended :
    KeepsLongest (syncOf [⟨"8.8.8.8", 500⟩, ⟨"1.1.1.1", 700⟩]) (holding 900)
      (step (holding 900) (.syncBans (syncOf [⟨"8.8.8.8", 500⟩, ⟨"1.1.1.1", 700⟩]))) := by
  refine (syncBans_keepsLongest_iff (persisted_holding 900) rfl).mpr fun remote hremote => ?_
  obtain rfl := Option.some.inj hremote
  decide +kernel

/-- The pending ban takes the place of the longer one of the control plane. -/
theorem syncBans_shortens : ¬ ∀ (m m' : Manager) (i : SyncInput),
    Persisted m.bans → m.syncBans i = .ok m' → KeepsLongest i m m' := by
  intro h
  have hkept := h (holding 100) _ (syncOf [⟨"8.8.8.8", 1000⟩]) (persisted_holding 100) rfl
  have hlast := (hkept [⟨"8.8.8.8", 1000⟩] rfl).greatest ("8.8.8.8", 100) (by decide +kernel)
  exact absurd (hlast.2 ("8.8.8.8", 1000) (by decide +kernel) rfl) (by decide)

end Manager

end SimpleCdn.Edge
