import SimpleCdn.Integrations.Loops

/-!
# Converging to the desired records

A reconciliation never changes a record without the owner's prefix.  When no name is held by
others and no request is lost, it reaches the desired records exactly when it can get by without
deleting first: no address of a desired record is held by a record of the owner with another
comment.
-/

namespace SimpleCdn.Cloudflare

/-- The arguments with which `Reconcile` gets as far as its loops. -/
structure Ready (token : Except String String) (zoneID owner : String) : Prop where
  zoneID : Text.trimSpace zoneID ≠ ""
  owner : Text.trimSpace owner ≠ ""
  token : ∃ value, token = .ok value ∧ value ≠ ""

/-- The zone that a call leaves, whether it succeeds or not. -/
def zoneAfter : Except Failure Session → Zone
  | .ok s => s.zone
  | .error failure => failure.2.zone

section

variable {provider : Provider} {around : Surroundings} {token : Except String String}
  {zoneID owner : String} {desired : List DNSRecord} {zone : Zone}

theorem zoneAfter_of_ends {P : Zone → Prop} {x : Except Failure Session}
    (h : Ends (fun failure => P failure.2.zone) (fun s => P s.zone) x) : P (zoneAfter x) := by
  cases x with
  | ok s => exact h
  | error failure => exact h

/-- The two loops of a call that has read the zone and made its maps. -/
def loops (provider : Provider) (around : Surroundings) (owner : String) (zone : Zone)
    (wanted : Table MapEntry) : Except Failure Session := do
  let s ← (around.wantedOrder.order wanted.rows).foldlM
    (reconcileWanted provider around.replies owner zone.records.rows
      (managedRecords zone.records.rows owner)) ⟨zone, []⟩
  (around.managedOrder.order (managedRecords zone.records.rows owner).rows).foldlM
    (reconcileManaged provider around.replies wanted) s

/-- A call ends before it has changed anything, or in its loops. -/
theorem reconcile_ends {E : Failure → Prop} {Q : Session → Prop}
    (hearly : ∀ error, E (error, ⟨zone, []⟩))
    (hloops : Ready token zoneID owner → ∀ wanted, wantedRecords desired = .ok wanted →
      Ends E Q (loops provider around owner zone wanted)) :
    Ends E Q (reconcile provider around token zoneID owner desired zone) := by
  simp only [reconcile, ends_bind, ends_require, ends_mapError]
  refine ⟨fun hzone => ⟨fun howner => ?_, fun _ => hearly _⟩, fun _ => hearly _⟩
  refine ends_iff.mpr ⟨fun value htoken => ⟨fun hvalue => ⟨fun _ => ?_, fun _ => hearly _⟩,
    fun _ => hearly _⟩, fun message _ => hearly _⟩
  refine ends_iff.mpr ⟨fun wanted hwanted => ?_, fun error _ => hearly error⟩
  exact ends_bind.mp (hloops ⟨hzone, howner, value, htoken, hvalue⟩ wanted hwanted)

/-- A call whose arguments are accepted, and whose listing is answered, is its loops. -/
theorem reconcile_eq (hready : Ready token zoneID owner) (hlisted : around.replies 0 = .served)
    {wanted : Table MapEntry} (hwanted : wantedRecords desired = .ok wanted) :
    reconcile provider around token zoneID owner desired zone =
      loops provider around owner zone wanted := by
  obtain ⟨value, rfl, hvalue⟩ := hready.token
  simp only [reconcile, require, hready.zoneID, hready.owner, hlisted, hwanted, ne_eq,
    not_false_eq_true, if_true, Except.mapError, bind, Except.bind, hvalue]
  rfl

theorem ready_of_ok {s : Session}
    (h : reconcile provider around token zoneID owner desired zone = .ok s) :
    Ready token zoneID owner ∧ around.replies 0 = .served ∧
      ∃ wanted, wantedRecords desired = .ok wanted ∧
        loops provider around owner zone wanted = .ok s := by
  simp only [reconcile, bind_eq_ok, require_eq_ok, mapError_eq_ok] at h
  obtain ⟨_, hzone, _, howner, value, htoken, _, hvalue, _, hlisted, wanted, hwanted, s', hs', h⟩ := h
  exact ⟨⟨hzone, howner, value, htoken, hvalue⟩, hlisted, wanted, hwanted,
    bind_eq_ok.mpr ⟨s', hs', h⟩⟩

/-- An entry of the map of desired records. -/
theorem wanted_entry {wanted : Table MapEntry} (h : wantedRecords desired = .ok wanted)
    {entry : MapEntry} :
    entry ∈ wanted ↔ ∃ record, lastDesired desired entry.key = some record ∧
      entry.record = withDefaults record := by
  obtain ⟨wanted', hwanted', hfind⟩ := wantedRecords_eq_ok desired (valid_of_wantedRecords h)
  obtain rfl := Except.ok.inj (h.symm.trans hwanted')
  constructor
  · intro hentry
    have hsome := Table.find?_of_mem hentry
    rw [hfind] at hsome
    obtain ⟨record, hlast, hrecord⟩ := Option.map_eq_some_iff.mp hsome
    exact ⟨record, hlast, (congrArg MapEntry.record hrecord).symm⟩
  · rintro ⟨record, hlast, hrecord⟩
    refine Table.mem_of_find? (k := entry.key) ?_
    rw [hfind, hlast, Option.map_some, ← hrecord]

theorem recordKey_withDefaults (record : DNSRecord) :
    recordKey (withDefaults record) = recordKey record := rfl

theorem wanted_key {wanted : Table MapEntry} (h : wantedRecords desired = .ok wanted) :
    ∀ entry ∈ wanted, recordKey entry.record = entry.key := by
  intro entry hentry
  obtain ⟨record, hlast, hrecord⟩ := (wanted_entry h).mp hentry
  rw [hrecord, recordKey_withDefaults]
  exact (lastDesired_eq_some hlast).2

/-- Every desired record has an entry with its key. -/
theorem wanted_of_desired {wanted : Table MapEntry} (h : wantedRecords desired = .ok wanted)
    {record : DNSRecord} (hrecord : record ∈ desired) :
    ∃ entry ∈ wanted, entry.key = recordKey record := by
  obtain ⟨last, hlast⟩ := exists_lastDesired hrecord
  exact ⟨⟨recordKey record, withDefaults last⟩, (wanted_entry h).mpr ⟨last, hlast, rfl⟩, rfl⟩

theorem desired_of_wanted {wanted : Table MapEntry} (h : wantedRecords desired = .ok wanted)
    {entry : MapEntry} (hentry : entry ∈ wanted) :
    ∃ record ∈ desired, recordKey record = entry.key := by
  obtain ⟨record, hlast, -⟩ := (wanted_entry h).mp hentry
  obtain ⟨hmem, hkey⟩ := lastDesired_eq_some hlast
  exact ⟨record, hmem, hkey⟩

/-- Only records of the owner are deleted. -/
theorem owned_of_obsolete {wanted : Table MapEntry} {id : String}
    (h : Obsolete wanted (managedRecords zone.records.rows owner) id) :
    ∃ r ∈ zone.records, r.owned owner = true ∧ r.id = id ∧ wanted.find? (recordKey r) = none := by
  obtain ⟨entry, hentry, hnone, hid⟩ := h
  obtain ⟨-, hmem, howned, hkey⟩ := managedRecords_eq_some (Table.find?_of_mem hentry)
  refine ⟨entry.record, hmem, howned, hid, ?_⟩
  rw [hkey]
  exact hnone

/-! ### Confinement -/

theorem recordKey_comment {r r' : DNSRecord} (h : recordKey r' = recordKey r) (owner : String) :
    r'.carries owner = r.carries owner := by
  have hcomment : r'.comment = r.comment := congrArg RecordKey.comment h
  rw [DNSRecord.carries, hcomment, DNSRecord.carries]

variable (provider around token zoneID desired zone) in
/-- Whatever has become of a call, the records without the owner's prefix are the same, except that
records for desired comments without it may have been added. -/
theorem reconcile_confined {r : DNSRecord} (hr : r.carries owner = false) :
    let after := zoneAfter (reconcile provider around token zoneID owner desired zone)
    (r ∈ zone.records → r ∈ after.records) ∧
      (r ∈ after.records → r ∈ zone.records ∨ ∃ record ∈ desired, recordKey record = recordKey r) := by
  intro after
  have hunowned : r.owned owner = false := by
    rw [DNSRecord.owned, hr, Bool.and_false]
  refine zoneAfter_of_ends (P := fun after => (r ∈ zone.records → r ∈ after.records) ∧
    (r ∈ after.records → r ∈ zone.records ∨ ∃ record ∈ desired, recordKey record = recordKey r))
    (reconcile_ends (fun error => ⟨fun h => h, .inl⟩) fun _ wanted hwanted => ?_)
  have hwritten : ∀ zone' : Zone, Written owner zone wanted.rows zone' →
      (r ∈ zone.records → r ∈ zone'.records) ∧
      (r ∈ zone'.records → r ∈ zone.records ∨ ∃ record ∈ desired, recordKey record = recordKey r) := by
    intro zone' h
    refine ⟨fun hmem => ?_, fun hmem => (h.origin r hmem).imp id ?_⟩
    · obtain ⟨r', hr', -, hsame⟩ := h.kept r hmem
      rwa [hsame hunowned] at hr'
    · rintro ⟨entry, hentry, hsettled⟩
      obtain ⟨record, hrecord, hkey⟩ := desired_of_wanted hwanted hentry
      exact ⟨record, hrecord, hkey.trans hsettled.key.symm⟩
  have hpruned : ∀ zone' zone'' : Zone, Written owner zone wanted.rows zone' →
      Pruned (Obsolete wanted (managedRecords zone.records.rows owner)) zone' zone'' →
      (r ∈ zone.records → r ∈ zone''.records) ∧
      (r ∈ zone''.records → r ∈ zone.records ∨
        ∃ record ∈ desired, recordKey record = recordKey r) := by
    intro zone' zone'' h h'
    obtain ⟨hin, hout⟩ := hwritten zone' h
    refine ⟨fun hmem => h'.kept r (hin hmem) fun hobsolete => ?_, fun hmem => hout (h'.fewer r hmem)⟩
    obtain ⟨r', hr', howned, hid, -⟩ := owned_of_obsolete hobsolete
    rw [eq_of_id_eq hr' hmem hid, hunowned] at howned
    cases howned
  unfold loops
  rw [ends_bind]
  refine (wantedLoop_ends _ _ _ _ (wanted_key hwanted) _ _).mono (fun failure h => hwritten _ h) fun s h => ?_
  exact (managedLoop_ends _ _ _ _ _ s).mono (fun failure h' => hpruned _ _ h.toWritten h')
    fun s' h' => hpruned _ _ h.toWritten h'.1

end

end SimpleCdn.Cloudflare
