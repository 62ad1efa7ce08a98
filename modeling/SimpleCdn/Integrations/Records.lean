import Mathlib.Data.List.Induction
import SimpleCdn.Integrations.Cloudflare

/-!
# The records of a zone under reconciliation

What the two maps of `Reconcile` hold, what a request does to a zone, and what the two loops keep:
the first only adds records and changes the TTL and the proxied flag of the owner's, and the second
only deletes the owner's records that are not desired.
-/

namespace SimpleCdn.Cloudflare

/-! ### The maps -/

/-- The last of the desired records with a key; the others are overwritten. -/
def lastDesired (desired : List DNSRecord) (key : RecordKey) : Option DNSRecord :=
  desired.reverse.find? fun record => recordKey record = key

theorem lastDesired_concat (desired : List DNSRecord) (record : DNSRecord) (key : RecordKey) :
    lastDesired (desired ++ [record]) key =
      if recordKey record = key then some record else lastDesired desired key := by
  rw [lastDesired, List.reverse_append, List.reverse_singleton, List.singleton_append,
    List.find?_cons]
  by_cases h : recordKey record = key
  · simp only [h, decide_true, if_true]
  · simp only [h, decide_false, if_false]
    rfl

theorem lastDesired_eq_some {desired : List DNSRecord} {key : RecordKey} {record : DNSRecord}
    (h : lastDesired desired key = some record) : record ∈ desired ∧ recordKey record = key := by
  refine ⟨List.mem_reverse.mp (List.mem_of_find?_eq_some h), ?_⟩
  simpa using List.find?_some h

theorem exists_lastDesired {desired : List DNSRecord} {record : DNSRecord}
    (h : record ∈ desired) : ∃ last, lastDesired desired (recordKey record) = some last := by
  cases hlast : lastDesired desired (recordKey record) with
  | some last => exact ⟨last, rfl⟩
  | none =>
    have hnot := List.find?_eq_none.mp hlast record (List.mem_reverse.mpr h)
    simp at hnot

/-- What `Reconcile` checks of a desired record. -/
def Valid (record : DNSRecord) : Prop :=
  record.name ≠ "" ∧ record.content ≠ "" ∧
    Text.hasPrefix record.comment managedRecordPrefix = true

theorem wantRecord_eq_ok {wanted wanted' : Table MapEntry} {record : DNSRecord} :
    wantRecord wanted record = .ok wanted' ↔
      Valid record ∧ wanted.upsert ⟨recordKey record, withDefaults record⟩ = wanted' := by
  unfold wantRecord Valid
  split
  · next h =>
    refine iff_of_false nofun ?_
    rintro ⟨⟨hname, hcontent, hpre⟩, -⟩
    rcases h with h | h | h
    · exact hname h
    · exact hcontent h
    · rw [hpre] at h
      cases h
  · next h =>
    simp only [not_or, Bool.not_eq_false] at h
    rw [Except.ok.injEq]
    exact ⟨fun heq => ⟨h, heq⟩, fun heq => heq.2⟩

/-- The map of desired records exists when all are valid, and has the last record of each key. -/
theorem wantedRecords_eq_ok (desired : List DNSRecord) :
    (∀ record ∈ desired, Valid record) →
      ∃ wanted, wantedRecords desired = .ok wanted ∧
        ∀ key, wanted.find? key =
          (lastDesired desired key).map fun record => ⟨key, withDefaults record⟩ := by
  induction desired using List.reverseRecOn with
  | nil => exact fun _ => ⟨∅, rfl, fun _ => rfl⟩
  | append_singleton desired record ih =>
    intro hvalid
    obtain ⟨wanted, hwanted, hfind⟩ := ih fun r hr => hvalid r (List.mem_append_left _ hr)
    have hlast := hvalid record (List.mem_append_right _ (List.mem_singleton_self record))
    refine ⟨wanted.upsert ⟨recordKey record, withDefaults record⟩, ?_, fun key => ?_⟩
    · rw [wantedRecords, List.foldlM_append]
      refine bind_eq_ok.mpr ⟨wanted, hwanted, ?_⟩
      rw [List.foldlM_cons]
      exact bind_eq_ok.mpr ⟨_, wantRecord_eq_ok.mpr ⟨hlast, rfl⟩, rfl⟩
    · rw [Table.find?_upsert, lastDesired_concat, hfind]
      simp only [key_mapEntry]
      split
      · next hkey => rw [Option.map_some, hkey]
      · rfl

theorem valid_of_wantedRecords {desired : List DNSRecord} :
    ∀ {wanted : Table MapEntry}, wantedRecords desired = .ok wanted →
      ∀ record ∈ desired, Valid record := by
  induction desired using List.reverseRecOn with
  | nil => exact fun _ record hrecord => absurd hrecord List.not_mem_nil
  | append_singleton desired record ih =>
    intro wanted h r hr
    rw [wantedRecords, List.foldlM_append] at h
    obtain ⟨before, hbefore, h⟩ := bind_eq_ok.mp h
    rw [List.foldlM_cons] at h
    obtain ⟨after, hafter, -⟩ := bind_eq_ok.mp h
    rcases List.mem_append.mp hr with hr | hr
    · exact ih hbefore r hr
    · obtain rfl := List.mem_singleton.mp hr
      exact (wantRecord_eq_ok.mp hafter).1

theorem managedRecords_concat (existing : List DNSRecord) (record : DNSRecord) (owner : String)
    (key : RecordKey) :
    (managedRecords (existing ++ [record]) owner).find? key =
      if record.owned owner = true ∧ recordKey record = key then some ⟨key, record⟩
      else (managedRecords existing owner).find? key := by
  rw [managedRecords, List.foldl_append, List.foldl_cons, List.foldl_nil]
  by_cases howned : record.owned owner = true
  · rw [if_pos howned, Table.find?_upsert]
    simp only [key_mapEntry, howned, true_and]
    split
    · next hkey => rw [hkey]
    · rfl
  · rw [if_neg howned, if_neg fun h => howned h.1]
    rfl

theorem managedRecords_eq_some {existing : List DNSRecord} {owner : String} :
    ∀ {key : RecordKey} {entry : MapEntry},
      (managedRecords existing owner).find? key = some entry →
      entry.key = key ∧ entry.record ∈ existing ∧ entry.record.owned owner = true ∧
        recordKey entry.record = key := by
  induction existing using List.reverseRecOn with
  | nil => exact fun h => by cases h
  | append_singleton existing record ih =>
    intro key entry h
    rw [managedRecords_concat] at h
    split at h
    · next hrecord =>
      obtain rfl := Option.some.inj h
      exact ⟨rfl, List.mem_append_right _ (List.mem_singleton_self record), hrecord⟩
    · obtain ⟨hkey, hmem, howned, hrecord⟩ := ih h
      exact ⟨hkey, List.mem_append_left _ hmem, howned, hrecord⟩

theorem exists_managedRecords {existing : List DNSRecord} {owner : String} :
    ∀ {record : DNSRecord}, record ∈ existing → record.owned owner = true →
      ∃ entry, (managedRecords existing owner).find? (recordKey record) = some entry := by
  induction existing using List.reverseRecOn with
  | nil => exact fun h => absurd h List.not_mem_nil
  | append_singleton existing last ih =>
    intro record hmem howned
    rw [managedRecords_concat]
    split
    · exact ⟨_, rfl⟩
    · next hnot =>
      rcases List.mem_append.mp hmem with hmem | hmem
      · exact ih hmem howned
      · obtain rfl := List.mem_singleton.mp hmem
        exact absurd ⟨howned, rfl⟩ hnot

section

variable {provider : Provider} {replies : Nat → Reply} {owner : String} {zone zone' : Zone}
  {record r : DNSRecord} {id : String}

theorem recordIsA_of_owned (h : record.owned owner = true) : recordIsA record = true :=
  ((Bool.and_eq_true _ _).mp h).1

theorem carries_of_owned (h : record.owned owner = true) : record.carries owner = true :=
  ((Bool.and_eq_true _ _).mp h).2

/-- The owner's record with a key is in the map, as no other has its address. -/
theorem managedRecords_of_mem (hmem : record ∈ zone.records) (howned : record.owned owner = true) :
    (managedRecords zone.records.rows owner).find? (recordKey record) =
      some ⟨recordKey record, record⟩ := by
  obtain ⟨entry, hentry⟩ := exists_managedRecords hmem howned
  obtain ⟨hkey, hmem', howned', hrecord⟩ := managedRecords_eq_some hentry
  have hsame : entry.record = record :=
    zone.unique _ hmem' _ hmem (recordIsA_of_owned howned') (recordIsA_of_owned howned)
      (congrArg RecordKey.address hrecord)
  rw [hentry, ← hkey, ← hsame]

/-! ### Requests -/

theorem mem_put {h : zone.taken id record = false} :
    r ∈ (zone.put id record h).records ↔
      r = stored id record ∨ (r ∈ zone.records ∧ r.id ≠ id) :=
  Table.mem_upsert

theorem mem_without : r ∈ (zone.without id).records ↔ r ∈ zone.records ∧ r.id ≠ id := by
  refine Table.mem_delete.trans (and_congr_right fun _ => ?_)
  exact decide_eq_false_iff_not

@[simp] theorem recordIsA_stored (id : String) (record : DNSRecord) :
    recordIsA (stored id record) = true := rfl

@[simp] theorem recordKey_stored (id : String) (record : DNSRecord) :
    recordKey (stored id record) = recordKey record := rfl

@[simp] theorem id_stored (id : String) (record : DNSRecord) : (stored id record).id = id := rfl

theorem eq_of_id_eq {r' : DNSRecord} (hr : r ∈ zone.records) (hr' : r' ∈ zone.records)
    (h : r.id = r'.id) : r = r' :=
  Table.eq_of_key_eq hr hr' h

theorem apply_create (h : zone.apply provider (.create record) = .ok zone') :
    ∃ htaken, zone' = zone.put (provider.assign zone record) record htaken := by
  simp only [Zone.apply] at h
  split at h
  · next htaken => exact ⟨htaken, (Except.ok.inj h).symm⟩
  · cases h

theorem apply_update (h : zone.apply provider (.update id record) = .ok zone') :
    ∃ htaken, zone' = zone.put id record htaken := by
  simp only [Zone.apply] at h
  split at h
  · cases h
  · split at h
    · next htaken => exact ⟨htaken, (Except.ok.inj h).symm⟩
    · cases h

theorem apply_delete (h : zone.apply provider (.delete id) = .ok zone') :
    zone' = zone.without id := by
  simp only [Zone.apply] at h
  split at h
  · cases h
  · exact (Except.ok.inj h).symm

/-- A request that is answered has been carried out; one that fails has been or has not. -/
theorem issue_ends (s : Session) (request : Request) {E : Failure → Prop} {Q : Session → Prop}
    (hok : ∀ zone, s.zone.apply provider request = .ok zone → Q ⟨zone, s.made ++ [request]⟩)
    (hlost : ∀ zone message, s.zone.apply provider request = .ok zone →
      E (.call message, ⟨zone, s.made ++ [request]⟩))
    (hdropped : ∀ message, E (.call message, ⟨s.zone, s.made ++ [request]⟩)) :
    Ends E Q (s.issue provider replies request) := by
  unfold Session.issue
  dsimp only
  split
  · exact hdropped _
  · next zone hzone =>
    split
    · exact hok zone hzone
    · exact hlost zone _ hzone
    · exact hdropped _

theorem issue_served {s : Session} {request : Request} (hserved : ∀ n, replies n = .served)
    (h : s.zone.apply provider request = .ok zone) :
    s.issue provider replies request = .ok ⟨zone, s.made ++ [request]⟩ := by
  unfold Session.issue
  rw [h]
  dsimp only
  rw [hserved]

end

end SimpleCdn.Cloudflare
