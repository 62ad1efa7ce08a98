import SimpleCdn.Integrations.Exactness

/-!
# Failing calls

A call that fails, at whichever request, has not emptied a desired name: the deletes come last, and
by then every desired record is there.  A call that refuses to manage a name has made no request
unless some other desired record could be written; the names are checked one by one between the
writes.
-/

namespace SimpleCdn.Cloudflare

/-- Somebody else holds the name of the desired record. -/
def Held (zone : Zone) (owner : String) (record : DNSRecord) : Prop :=
  ∃ r ∈ zone.records, conflicts owner record r = true

/-- The desired record needs a request that the provider carries out: its address is free, or the
owner's record with its key has another TTL or proxied flag. -/
def Writable (zone : Zone) (owner : String) (desired : List DNSRecord) (record : DNSRecord) : Prop :=
  (∀ r ∈ zone.records, recordIsA r = true → address r ≠ address record) ∨
    ∃ r ∈ zone.records, r.owned owner = true ∧ recordKey r = recordKey record ∧
      ∃ last, lastDesired desired (recordKey record) = some last ∧
        (r.ttl ≠ (withDefaults last).ttl ∨ r.proxied ≠ (withDefaults last).proxied)

section

variable {provider : Provider} {around : Surroundings} {token : Except String String}
  {zoneID owner : String} {desired : List DNSRecord} {zone : Zone} {wanted : Table MapEntry}
  {entry : MapEntry}

/-! ### Names that had a record -/

/-- Every desired name that had a record of the owner has one still. -/
def NamesKept (before after : Zone) (owner : String) (desired : List DNSRecord) : Prop :=
  ∀ record ∈ desired, ∀ r ∈ before.records, r.owned owner = true →
    canonicalRecordName r.name = canonicalRecordName record.name →
    ∃ r' ∈ after.records, r'.owned owner = true ∧
      canonicalRecordName r'.name = canonicalRecordName record.name

theorem namesKept_of_written {done : List MapEntry} {after : Zone}
    (h : Written owner zone done after) : NamesKept zone after owner desired := by
  intro record _ r hr howned hname
  obtain ⟨r', hr', hsame, -⟩ := h.kept r hr
  refine ⟨r', hr', (hsame.owned owner).trans howned, ?_⟩
  exact (congrArg RecordKey.name hsame.key).trans hname

/-- While the second loop runs, the desired records are there. -/
theorem namesKept_of_pruned (hcarries : ∀ record ∈ desired, record.carries owner = true)
    (hwanted : wantedRecords desired = .ok wanted) {before after : Zone}
    (hwrote : Wrote owner zone wanted.rows before)
    (hpruned : Pruned (Obsolete wanted (managedRecords zone.records.rows owner)) before after) :
    NamesKept zone after owner desired := by
  intro record hrecord _ _ _ _
  obtain ⟨entry, hentry, hkey⟩ := wanted_of_desired hwanted hrecord
  obtain ⟨r, hr, hsettled⟩ := hwrote.settled entry hentry
  have hrkey : recordKey r = recordKey record := hsettled.key.trans hkey
  refine ⟨r, hpruned.kept r hr ?_, owned_of_desired (hcarries record hrecord) hrkey hsettled.isA,
    congrArg RecordKey.name hrkey⟩
  rintro hobsolete
  obtain ⟨r', hr', -, hid, hnone⟩ := owned_of_obsolete hobsolete
  rw [← (hwrote.same_of_id hr' hr hid.symm).key, hsettled.key] at hnone
  exact Table.find?_eq_none_iff.mp hnone entry hentry rfl

theorem reconcile_namesKept (hcarries : ∀ record ∈ desired, record.carries owner = true) :
    NamesKept zone
      (zoneAfter (reconcile provider around token zoneID owner desired zone)) owner desired := by
  refine zoneAfter_of_ends (P := fun after => NamesKept zone after owner desired)
    (reconcile_ends (fun error => namesKept_of_written (.start owner zone))
      fun _ wanted hwanted => ?_)
  unfold loops
  rw [ends_bind]
  refine (wantedLoop_ends _ _ _ _ (wanted_key hwanted) _ _).mono (fun failure h => namesKept_of_written h)
    fun s h => ?_
  exact (managedLoop_ends _ _ _ _ _ s).mono
    (fun failure h' => namesKept_of_pruned hcarries hwanted h h')
    fun s' h' => namesKept_of_pruned hcarries hwanted h h'.1

/-! ### Refusals -/

def ReconcileError.isRefusal : ReconcileError → Bool
  | refusing .. => true
  | _ => false

/-- The call ends in a refusal only when it has made no request. -/
def RefusesFirst (result : Except Failure Session) : Prop :=
  Ends (fun failure => failure.1.isRefusal = true → failure.2.made = []) (fun _ => True) result

theorem conflicts_name {a b r : DNSRecord} (h : canonicalRecordName a.name = canonicalRecordName b.name) :
    conflicts owner a r = conflicts owner b r := by
  rw [conflicts, conflicts, h]

variable (provider) in
/-- A request of the first loop on a record that is neither held nor writable fails. -/
theorem apply_error_of_not_writable (hwanted : wantedRecords desired = .ok wanted)
    (hentry : entry ∈ wanted) {record : DNSRecord} (hkey : recordKey record = entry.key)
    (hnot : ¬Writable zone owner desired record) (request : Request)
    (hneeded : neededRequest (managedRecords zone.records.rows owner) entry = some request) :
    ∃ message, zone.apply provider request = .error message := by
  have hekey := wanted_key hwanted entry hentry
  obtain ⟨last, hlast, hrecord⟩ := (wanted_entry hwanted).mp hentry
  unfold neededRequest at hneeded
  split at hneeded
  · next existing hfind =>
    obtain ⟨-, hmem, howned, hrkey⟩ := managedRecords_eq_some hfind
    split at hneeded
    · next hdiffers =>
      rw [hrecord] at hdiffers
      exact absurd (.inr ⟨_, hmem, howned, hrkey.trans hkey.symm, last, hkey ▸ hlast, hdiffers⟩) hnot
    · cases hneeded
  · obtain rfl := Option.some.inj hneeded
    simp only [Zone.apply]
    split
    · next htaken =>
      refine absurd (.inl fun r hr hA haddress => ?_) hnot
      have hne := Table.find?_eq_none_iff.mp (provider.fresh zone entry.record) r hr
      refine Zone.taken_eq_false.mp htaken r hr hne hA (haddress.trans ?_)
      exact address_of_key (hkey.trans hekey.symm)
    · exact ⟨_, rfl⟩

theorem issue_error {replies : Nat → Reply} {s : Session} {request : Request} {message : String}
    (h : s.zone.apply provider request = .error message) :
    s.issue provider replies request =
      .error (.call message, ⟨s.zone, s.made ++ [request]⟩) := by
  unfold Session.issue
  rw [h]

theorem refusesFirst_issue {replies : Nat → Reply} (s : Session) (request : Request) :
    Ends (fun failure => failure.1.isRefusal = true → failure.2.made = [])
      (fun _ => True) (s.issue provider replies request) :=
  issue_ends s request (fun _ _ => trivial) (fun _ _ _ h => by cases h) fun _ h => by cases h

/-- The second loop does not refuse. -/
theorem refusesFirst_managed (order : Iteration) (managed : Table MapEntry) (s : Session) :
    RefusesFirst ((order.order managed.rows).foldlM
      (reconcileManaged provider around.replies wanted) s) := by
  refine ends_foldlM (P := fun _ _ => True) (fun done entry rest s hl _ => ?_) trivial
  unfold reconcileManaged
  split
  · trivial
  · exact refusesFirst_issue s _

/-- When no desired record is held, or those that are not cannot be written, a refusal comes before
any request. -/
theorem refusesFirst_of_not_mixed (hwanted : wantedRecords desired = .ok wanted)
    (h : (∃ record ∈ desired, Held zone owner record) → ∀ record ∈ desired,
      ¬Held zone owner record → ¬Writable zone owner desired record) :
    RefusesFirst (loops provider around owner zone wanted) := by
  unfold RefusesFirst loops
  rw [ends_bind]
  have hperm := around.wantedOrder.perm wanted.rows
  -- Until it refuses, the first loop has either made no request, or no desired record is held.
  refine (ends_foldlM (l := around.wantedOrder.order wanted.rows) (b := (⟨zone, []⟩ : Session))
    (f := reconcileWanted provider around.replies owner zone.records.rows
      (managedRecords zone.records.rows owner))
    (E := fun failure => failure.1.isRefusal = true → failure.2.made = [])
    (P := fun _ s => (∃ record ∈ desired, Held zone owner record) → s = ⟨zone, []⟩) ?_ ?_).mono
    (fun _ hf => hf) fun s _ => refusesFirst_managed _ _ s
  · intro done entry rest s hl hs
    have hentry : entry ∈ wanted := by
      refine hperm.mem_iff.mp ?_
      rw [hl]
      exact List.mem_append_right _ List.mem_cons_self
    obtain ⟨record, hrecord, hkey⟩ := desired_of_wanted hwanted hentry
    have hconflicts : ∀ r, conflicts owner entry.record r = conflicts owner record r := fun r =>
      conflicts_name (congrArg RecordKey.name
        ((wanted_key hwanted entry hentry).trans hkey.symm))
    unfold reconcileWanted
    cases hfind : zone.records.rows.find? (conflicts owner entry.record) with
    | some r =>
      have hheld : Held zone owner record := by
        refine ⟨r, List.mem_of_find?_eq_some hfind, ?_⟩
        rw [← hconflicts]
        exact List.find?_some hfind
      exact fun _ => by rw [hs ⟨record, hrecord, hheld⟩]
    | none =>
      have hnotheld : ¬Held zone owner record := by
        rintro ⟨r, hr, hconflict⟩
        rw [← hconflicts] at hconflict
        exact List.find?_eq_none.mp hfind r hr hconflict
      dsimp only
      cases hneeded : neededRequest (managedRecords zone.records.rows owner) entry with
      | none => exact hs
      | some request =>
        dsimp only
        by_cases hsome : ∃ record ∈ desired, Held zone owner record
        · obtain ⟨message, herror⟩ := apply_error_of_not_writable provider hwanted
            hentry hkey (h hsome record hrecord hnotheld) request hneeded
          have hzone : s.zone = zone := by rw [hs hsome]
          rw [issue_error (hzone ▸ herror)]
          exact fun hrefusal => by cases hrefusal
        · exact (refusesFirst_issue s request).mono (fun _ hf => hf) fun s' _ hheld =>
            absurd hheld hsome
  · exact fun _ => rfl

/-! ### A write before a refusal -/

/-- The order that takes one entry first, if it is there. -/
def Iteration.front (e : MapEntry) (order : Iteration) : Iteration where
  order entries :=
    (order.order entries).filter (fun x => x = e) ++ (order.order entries).filter (fun x => !(x = e))
  perm entries := (List.filter_append_perm _ _).trans (order.perm entries)

theorem Iteration.order_front {e : MapEntry} {order : Iteration} {entries : List MapEntry}
    (hnodup : entries.Nodup) (he : e ∈ entries) :
    (order.front e).order entries = e :: (order.order entries).filter (fun x => !(x = e)) := by
  have hperm := order.perm entries
  have hfront : (order.order entries).filter (fun x => x = e) = [e] := by
    rw [List.filter_eq, List.count_eq_one_of_mem (hperm.nodup_iff.mpr hnodup)
      (hperm.mem_iff.mpr he)]
    rfl
  show (order.order entries).filter (fun x => x = e) ++ _ = _
  rw [hfront]
  rfl

variable (provider) in
/-- A writable record gets its request carried out. -/
theorem exists_request_of_writable (hwanted : wantedRecords desired = .ok wanted)
    (hentry : entry ∈ wanted) {record : DNSRecord} (hkey : recordKey record = entry.key)
    (h : Writable zone owner desired record) :
    ∃ request zone', neededRequest (managedRecords zone.records.rows owner) entry = some request ∧
      zone.apply provider request = .ok zone' := by
  have hekey := wanted_key hwanted entry hentry
  obtain ⟨last, hlast, hrecord⟩ := (wanted_entry hwanted).mp hentry
  have haddress : address record = address entry.record := address_of_key (hkey.trans hekey.symm)
  rcases h with hfree | ⟨r, hr, howned, hrkey, last', hlast', hdiffers⟩
  · have hnone : (managedRecords zone.records.rows owner).find? entry.key = none := by
      cases hfind : (managedRecords zone.records.rows owner).find? entry.key with
      | none => rfl
      | some existing =>
        obtain ⟨-, hmem, howned, hrkey⟩ := managedRecords_eq_some hfind
        exact absurd (address_of_key (hrkey.trans hkey.symm))
          (hfree _ hmem (recordIsA_of_owned howned))
    have htaken : zone.taken (provider.assign zone entry.record) entry.record = false := by
      refine Zone.taken_eq_false.mpr fun other hother _ hA heq => ?_
      exact hfree other hother hA (heq.trans haddress.symm)
    refine ⟨_, zone.put _ _ htaken, by rw [neededRequest, hnone], ?_⟩
    simp only [Zone.apply, dif_pos htaken]
  · have hfound := managedRecords_of_mem hr howned
    rw [hrkey, hkey] at hfound
    have hsame : last' = last := by
      rw [hkey, hlast] at hlast'
      exact (Option.some.inj hlast').symm
    have htaken : zone.taken r.id entry.record = false := by
      refine Zone.taken_eq_false.mpr fun other hother hne hA heq => hne ?_
      rw [zone.unique other hother r hr hA (recordIsA_of_owned howned)
        (heq.trans (haddress.symm.trans (address_of_key hrkey).symm))]
    refine ⟨.update r.id entry.record, zone.put _ _ htaken, ?_, ?_⟩
    · rw [neededRequest, hfound]
      refine if_pos ?_
      rw [hrecord, ← hsame]
      exact hdiffers
    · simp only [Zone.apply, Table.find?_of_mem hr, key_dnsRecord]
      rw [show zone.records.find? r.id = some r from Table.find?_of_mem hr]
      simp only [dif_pos htaken]

variable (provider) in
theorem not_refusesFirst_of_mixed (hready : Ready token zoneID owner)
    (hwanted : wantedRecords desired = .ok wanted) {held writable : DNSRecord}
    (hheldmem : held ∈ desired) (hheld : Held zone owner held) (hmem : writable ∈ desired)
    (hnotheld : ¬Held zone owner writable) (hwritable : Writable zone owner desired writable) :
    ∃ around, ¬RefusesFirst (reconcile provider around token zoneID owner desired zone) := by
  obtain ⟨eh, heh, hkeyh⟩ := wanted_of_desired hwanted hheldmem
  obtain ⟨ew, hew, hkeyw⟩ := wanted_of_desired hwanted hmem
  have hnameh : ∀ r, conflicts owner eh.record r = conflicts owner held r := fun r =>
    conflicts_name (congrArg RecordKey.name ((wanted_key hwanted eh heh).trans hkeyh))
  have hnamew : ∀ r, conflicts owner ew.record r = conflicts owner writable r := fun r =>
    conflicts_name (congrArg RecordKey.name ((wanted_key hwanted ew hew).trans hkeyw))
  obtain ⟨r, hr, hconflict⟩ := hheld
  have hne : eh ≠ ew := by
    rintro rfl
    refine hnotheld ⟨r, hr, ?_⟩
    rw [← hnamew, hnameh]
    exact hconflict
  -- The loop takes the writable record first and the held one next.
  let order : Iteration := ((⟨id, fun _ => .refl _⟩ : Iteration).front eh).front ew
  refine ⟨⟨fun _ => .served, order, ⟨id, fun _ => .refl _⟩⟩, fun hrefuses => ?_⟩
  have hnodup : wanted.rows.Nodup := List.Nodup.of_map _ wanted.nodup
  have horder : order.order wanted.rows = ew :: eh ::
      (wanted.rows.filter fun x => !(x = eh)).filter fun x => !(x = ew) := by
    rw [Iteration.order_front hnodup hew, Iteration.order_front hnodup heh, List.filter_cons,
      if_pos (by simp [hne])]
    rfl
  have hfirst : zone.records.rows.find? (conflicts owner ew.record) = none := by
    refine List.find?_eq_none.mpr fun r hr hconflict => hnotheld ⟨r, hr, ?_⟩
    rw [← hnamew]
    exact hconflict
  obtain ⟨request, zone', hneeded, happly⟩ :=
    exists_request_of_writable provider hwanted hew hkeyw.symm hwritable
  cases hsecond : zone.records.rows.find? (conflicts owner eh.record) with
  | none =>
    rw [← hnameh] at hconflict
    exact List.find?_eq_none.mp hsecond r hr hconflict
  | some r' =>
    have hstep : reconcileWanted provider (fun _ => .served) owner zone.records.rows
        (managedRecords zone.records.rows owner) ⟨zone, []⟩ ew = .ok ⟨zone', [request]⟩ := by
      rw [reconcileWanted, hfirst]
      dsimp only
      rw [hneeded]
      exact issue_served (fun _ => rfl) happly
    have hstop : reconcileWanted provider (fun _ => .served) owner zone.records.rows
        (managedRecords zone.records.rows owner) ⟨zone', [request]⟩ eh =
          .error (.refusing eh.record.name r'.id (recordTypeLabel r') owner,
            ⟨zone', [request]⟩) := by
      rw [reconcileWanted, hsecond]
    rw [reconcile_eq hready rfl hwanted, loops, horder, List.foldlM_cons, hstep] at hrefuses
    have hrest := hrefuses
    simp only [bind, Except.bind, List.foldlM_cons, hstop] at hrest
    cases hrest rfl

/-- Whatever becomes of a call, no desired name loses its last record.  A refusal comes before any
request, in every order of the loops, exactly unless one desired name is held by somebody else and
another, that is not, has a record to be written. -/
theorem reconcile_fails_safely (provider : Provider) (token : Except String String)
    (zoneID owner : String) (desired : List DNSRecord) (zone : Zone)
    (hcarries : ∀ record ∈ desired, record.carries owner = true) :
    (∀ around, NamesKept zone
      (zoneAfter (reconcile provider around token zoneID owner desired zone)) owner desired) ∧
    ((∀ around, RefusesFirst (reconcile provider around token zoneID owner desired zone)) ↔
      ¬(Ready token zoneID owner ∧ (∀ record ∈ desired, Valid record) ∧
        (∃ record ∈ desired, Held zone owner record) ∧
        ∃ record ∈ desired, ¬Held zone owner record ∧ Writable zone owner desired record)) := by
  refine ⟨fun around => reconcile_namesKept hcarries, fun h => ?_, fun h around => ?_⟩
  · rintro ⟨hready, hvalid, ⟨held, hheldmem, hheld⟩, writable, hmem, hnotheld, hwritable⟩
    obtain ⟨wanted, hwanted, -⟩ := wantedRecords_eq_ok desired hvalid
    obtain ⟨around, hnot⟩ := not_refusesFirst_of_mixed provider hready hwanted
      hheldmem hheld hmem hnotheld hwritable
    exact hnot (h around)
  · refine reconcile_ends (fun error _ => rfl) fun hready wanted hwanted => ?_
    refine refusesFirst_of_not_mixed hwanted fun hheld record hrecord hnot hwritable => ?_
    exact h ⟨hready, valid_of_wantedRecords hwanted, hheld, record, hrecord, hnot, hwritable⟩

end

/-! ### A name among others -/

/-- Surroundings in which every request is answered and maps keep their order. -/
def plainSurroundings : Surroundings :=
  ⟨fun _ => .served, ⟨fun entries => entries, fun _ => .refl _⟩,
    ⟨fun entries => entries, fun _ => .refl _⟩⟩

/-- A name whose record is replaced keeps a record. -/
theorem zoneOfA_kept :
    NamesKept zoneOfA
      (zoneAfter (reconcile longerIDs plainSurroundings (.ok "token") "zone" "site=s"
        [siteRecord "" "b" "203.0.113.2" 60] zoneOfA)) "site=s"
      [siteRecord "" "b" "203.0.113.2" 60] :=
  (reconcile_fails_safely longerIDs (.ok "token") "zone" "site=s"
    [siteRecord "" "b" "203.0.113.2" 60] zoneOfA (by decide +kernel)).1
    plainSurroundings

/-- The second name of the site has a record made by hand. -/
def zoneWithManual : Zone where
  records := ⟨[⟨"1", "A", "shop.example.com", "198.51.100.1", "", 300, false⟩], by decide⟩
  unique := by
    intro r hr r' hr' _ _ _
    exact (List.mem_singleton.mp hr).trans (List.mem_singleton.mp hr').symm

/-- The record for the first name is created before the second name is refused. -/
theorem zoneWithManual_written :
    (match reconcile longerIDs plainSurroundings (.ok "token") "zone" "site=s"
        [siteRecord "" "a" "203.0.113.1" 60,
          { siteRecord "" "a" "203.0.113.1" 60 with name := "shop.example.com" }] zoneWithManual with
      | .ok _ => none
      | .error failure => some (failure.1.message, failure.2.made)) =
      some ("refusing to manage DNS name shop.example.com because record 1 (A) is not owned by site=s",
        [.create (siteRecord "" "a" "203.0.113.1" 60)]) := by
  decide +kernel

end SimpleCdn.Cloudflare
