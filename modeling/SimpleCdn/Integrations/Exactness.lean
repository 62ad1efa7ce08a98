import Mathlib.Algebra.GroupWithZero.Nat
import Mathlib.Algebra.Order.BigOperators.Group.List
import Mathlib.Algebra.Order.Group.Nat
import SimpleCdn.Integrations.Converging

/-!
# Exactly the desired records

The records of the owner after a call that succeeds are the desired ones, and a second call finds
nothing to do.  Creates come before deletes, so an address that the owner holds under another
comment makes the provider refuse the create, and every later call with it.
-/

namespace SimpleCdn.Cloudflare

/-- No desired name is held by a record that is not the owner's. -/
def NamesFree (zone : Zone) (owner : String) (desired : List DNSRecord) : Prop :=
  ∀ record ∈ desired, ∀ r ∈ zone.records,
    canonicalRecordName r.name = canonicalRecordName record.name → r.owned owner = true

/-- The owner's A records are one for each desired name, content and comment, with the TTL and the
proxied flag of the last desired record with these. -/
structure Exact (zone : Zone) (owner : String) (desired : List DNSRecord) : Prop where
  present : ∀ key record, lastDesired desired key = some record →
    ∃ r ∈ zone.records, r.owned owner = true ∧ recordKey r = key ∧
      r.ttl = (withDefaults record).ttl ∧ r.proxied = (withDefaults record).proxied ∧
      ∀ r' ∈ zone.records, r'.owned owner = true → recordKey r' = key → r' = r
  only : ∀ r ∈ zone.records, r.owned owner = true → ∃ record ∈ desired, recordKey record = recordKey r

/-- No request is lost. -/
def Surroundings.Served (around : Surroundings) : Prop :=
  ∀ n, around.replies n = .served

/-- The call succeeds with exactly the desired records, leaves what is not the owner's, and a
second one makes no request. -/
def Converges (provider : Provider) (around : Surroundings) (token : Except String String)
    (zoneID owner : String) (desired : List DNSRecord) (zone : Zone) : Prop :=
  ∃ s, reconcile provider around token zoneID owner desired zone = .ok s ∧
    Exact s.zone owner desired ∧
    (∀ r, r.carries owner = false → (r ∈ s.zone.records ↔ r ∈ zone.records)) ∧
    ∀ around' : Surroundings, around'.Served →
      ∃ s', reconcile provider around' token zoneID owner desired s.zone = .ok s' ∧ s'.made = []

/-- The arguments are accepted, every desired record is the owner's, no two of them want one address
for two comments, and the owner holds none of their addresses with another comment. -/
structure Reconcilable (zone : Zone) (token : Except String String) (zoneID owner : String)
    (desired : List DNSRecord) : Prop where
  ready : Ready token zoneID owner
  valid : ∀ record ∈ desired, Valid record ∧ record.carries owner = true
  distinct : ∀ record ∈ desired, ∀ record' ∈ desired, address record = address record' →
    record.comment = record'.comment
  unheld : ∀ record ∈ desired, ∀ r ∈ zone.records, r.owned owner = true →
    address r = address record → r.comment = record.comment

section

variable {provider : Provider} {around : Surroundings} {token : Except String String}
  {zoneID owner : String} {desired : List DNSRecord} {zone : Zone} {wanted : Table MapEntry}
  {entry : MapEntry} {done : List MapEntry} {s : Session}

theorem recordKey_eq {r r' : DNSRecord} (haddress : address r = address r')
    (hcomment : r.comment = r'.comment) : recordKey r = recordKey r' := by
  obtain ⟨hname, hcontent⟩ := Prod.mk.inj haddress
  exact RecordKey.mk.injEq .. ▸ ⟨hname, hcontent, hcomment⟩

theorem address_of_key {r r' : DNSRecord} (h : recordKey r = recordKey r') :
    address r = address r' :=
  congrArg RecordKey.address h

/-- A loop that cannot fail succeeds. -/
theorem exists_ok {x : Except Failure Session} {Q : Session → Prop}
    (h : Ends (fun _ => False) Q x) : ∃ s, x = .ok s ∧ Q s := by
  cases x with
  | ok s => exact ⟨s, rfl, h⟩
  | error failure => exact h.elim

theorem find?_conflicts (hwanted : wantedRecords desired = .ok wanted)
    (hfree : NamesFree zone owner desired) (hentry : entry ∈ wanted) :
    zone.records.rows.find? (conflicts owner entry.record) = none := by
  refine List.find?_eq_none.mpr fun r hr hconflict => ?_
  obtain ⟨record, hrecord, hkey⟩ := desired_of_wanted hwanted hentry
  have hname : canonicalRecordName record.name = canonicalRecordName entry.record.name :=
    congrArg RecordKey.name (hkey.trans (wanted_key hwanted entry hentry).symm)
  simp only [conflicts, Bool.and_eq_true, decide_eq_true_eq, Bool.not_eq_true'] at hconflict
  rw [hfree record hrecord r hr (hconflict.1.trans hname.symm)] at hconflict
  exact absurd hconflict.2 Bool.true_eq_false.mp

/-! ### The condition is enough -/

variable (provider) in
theorem reconcileWanted_ok (hok : Reconcilable zone token zoneID owner desired)
    (hserved : around.Served) (hwanted : wantedRecords desired = .ok wanted)
    (hfree : NamesFree zone owner desired) (hdone : ∀ e ∈ done, e ∈ wanted)
    (hentry : entry ∈ wanted) (hnew : entry ∉ done) (h : Wrote owner zone done s.zone) :
    ∃ s', reconcileWanted provider around.replies owner zone.records.rows
      (managedRecords zone.records.rows owner) s entry = .ok s' := by
  obtain ⟨record, hrecord, hrkey⟩ := desired_of_wanted hwanted hentry
  have hkey := wanted_key hwanted entry hentry
  have haddress : address record = address entry.record := address_of_key (hrkey.trans hkey.symm)
  unfold reconcileWanted
  rw [find?_conflicts hwanted hfree hentry]
  dsimp only
  cases hneeded : neededRequest (managedRecords zone.records.rows owner) entry with
  | none => exact ⟨s, rfl⟩
  | some request =>
    dsimp only
    unfold neededRequest at hneeded
    split at hneeded
    · next existing hfind =>
      obtain ⟨-, hmem, howned, hekey⟩ := managedRecords_eq_some hfind
      obtain ⟨r, hr, hsame, -⟩ := h.kept existing.record hmem
      split at hneeded
      · obtain rfl := Option.some.inj hneeded
        -- The record to update is there, and no other can have its address.
        have hfound : s.zone.records.find? existing.record.id = some r :=
          Table.find?_eq_some_iff.mpr ⟨hr, hsame.id⟩
        have htaken : s.zone.taken existing.record.id entry.record = false := by
          refine Zone.taken_eq_false.mpr fun other hother hne hA heq => hne ?_
          have hrA : recordIsA r = true := hsame.isA.trans (recordIsA_of_owned howned)
          have hraddress : address r = address entry.record :=
            address_of_key ((hsame.key.trans hekey).trans hkey.symm)
          rw [s.zone.unique other hother r hr hA hrA (heq.trans hraddress.symm)]
          exact hsame.id
        have happly : s.zone.apply provider (.update existing.record.id entry.record) =
            .ok (s.zone.put _ _ htaken) := by
          simp only [Zone.apply, hfound, dif_pos htaken]
        exact ⟨_, issue_served hserved happly⟩
      · cases hneeded
    · next hfind =>
      obtain rfl := Option.some.inj hneeded
      have htaken : s.zone.taken (provider.assign s.zone entry.record) entry.record = false := by
        refine Zone.taken_eq_false.mpr fun other hother _ hA heq => ?_
        rcases h.origin other hother with hlisted | ⟨e, he, hsettled⟩
        · -- A listed record with the address is the owner's, and so has the key already.
          have howned := hfree record hrecord other hlisted
            (congrArg Prod.fst (heq.trans haddress.symm))
          have hcomment := hok.unheld record hrecord other hlisted howned
            (heq.trans haddress.symm)
          have hfound := managedRecords_of_mem hlisted howned
          rw [recordKey_eq (heq.trans haddress.symm) hcomment, hrkey, hfind] at hfound
          cases hfound
        · -- Another desired record does not want the address for another comment.
          obtain ⟨record', hrecord', hrkey'⟩ := desired_of_wanted hwanted (hdone e he)
          have haddress' : address record' = address record := by
            rw [haddress, ← heq]
            exact address_of_key (hrkey'.trans hsettled.key.symm)
          have hsame : e = entry := by
            refine Table.eq_of_key_eq (hdone e he) hentry ?_
            show e.key = entry.key
            rw [← hrkey', ← hrkey]
            exact recordKey_eq haddress' (hok.distinct _ hrecord' _ hrecord haddress')
          rw [hsame] at he
          exact hnew he
      have happly : s.zone.apply provider (.create entry.record) =
          .ok (s.zone.put _ _ htaken) := by
        simp only [Zone.apply, dif_pos htaken]
      exact ⟨_, issue_served hserved happly⟩

variable (provider) in
theorem wantedLoop_ok (hok : Reconcilable zone token zoneID owner desired)
    (hserved : around.Served) (hwanted : wantedRecords desired = .ok wanted)
    (hfree : NamesFree zone owner desired) :
    ∃ s, (around.wantedOrder.order wanted.rows).foldlM
        (reconcileWanted provider around.replies owner zone.records.rows
          (managedRecords zone.records.rows owner)) ⟨zone, []⟩ = .ok s ∧
      Wrote owner zone wanted.rows s.zone := by
  have hperm := around.wantedOrder.perm wanted.rows
  have hnodup : (around.wantedOrder.order wanted.rows).Nodup :=
    hperm.nodup_iff.mpr (List.Nodup.of_map _ wanted.nodup)
  have hloop := ends_foldlM (l := around.wantedOrder.order wanted.rows)
    (b := (⟨zone, []⟩ : Session))
    (f := reconcileWanted provider around.replies owner zone.records.rows
      (managedRecords zone.records.rows owner))
    (E := fun _ => False) (P := fun done s => Wrote owner zone done s.zone) ?_ ?_
  · obtain ⟨s, hs, -⟩ := exists_ok hloop
    refine ⟨s, hs, ?_⟩
    exact (ends_iff.mp (wantedLoop_ends _ _ _ _ (wanted_key hwanted) around.wantedOrder [])).1 s hs
  · intro done entry rest s hl h
    have hmem : ∀ e ∈ around.wantedOrder.order wanted.rows, e ∈ wanted := fun e he =>
      hperm.mem_iff.mp he
    rw [hl] at hmem hnodup
    have hdone : ∀ e ∈ done, e ∈ wanted := fun e he => hmem e (List.mem_append_left _ he)
    have hentry : entry ∈ wanted := hmem entry (List.mem_append_right _ List.mem_cons_self)
    have hnew : entry ∉ done := fun he =>
      List.disjoint_of_nodup_append hnodup he List.mem_cons_self
    obtain ⟨s', hs'⟩ := reconcileWanted_ok provider hok hserved hwanted hfree hdone hentry
      hnew h
    have hends := reconcileWanted_ends provider around.replies
      (wanted_key hwanted) hdone hentry h
    rw [hs'] at hends ⊢
    exact hends
  · exact ⟨.start owner zone, fun e he => absurd he List.not_mem_nil⟩

/-- Entries of the map of the owner's records have records of their own. -/
theorem managed_id_inj {e e' : MapEntry} (he : e ∈ managedRecords zone.records.rows owner)
    (he' : e' ∈ managedRecords zone.records.rows owner) (hid : e.record.id = e'.record.id) :
    e = e' := by
  obtain ⟨-, hmem, -, hkey⟩ := managedRecords_eq_some (Table.find?_of_mem he)
  obtain ⟨-, hmem', -, hkey'⟩ := managedRecords_eq_some (Table.find?_of_mem he')
  refine Table.eq_of_key_eq he he' (hkey.symm.trans ?_)
  rw [eq_of_id_eq hmem hmem' hid]
  exact hkey'

variable (provider wanted) in
theorem managedLoop_ok (hserved : around.Served)
    (h : ∀ e ∈ managedRecords zone.records.rows owner, ∃ r ∈ s.zone.records, r.id = e.record.id) :
    ∃ s', (around.managedOrder.order (managedRecords zone.records.rows owner).rows).foldlM
      (reconcileManaged provider around.replies wanted) s = .ok s' := by
  have hperm := around.managedOrder.perm (managedRecords zone.records.rows owner).rows
  have hnodup : (around.managedOrder.order (managedRecords zone.records.rows owner).rows).Nodup :=
    hperm.nodup_iff.mpr (List.Nodup.of_map _ (managedRecords zone.records.rows owner).nodup)
  have hloop := ends_foldlM
    (l := around.managedOrder.order (managedRecords zone.records.rows owner).rows) (b := s)
    (f := reconcileManaged provider around.replies wanted) (E := fun _ => False)
    (P := fun done s' => ∀ e ∈ managedRecords zone.records.rows owner, e ∉ done →
      ∃ r ∈ s'.zone.records, r.id = e.record.id) ?_ ?_
  · obtain ⟨s', hs', -⟩ := exists_ok hloop
    exact ⟨s', hs'⟩
  · intro done entry rest s' hl hpresent
    have hentry : entry ∈ managedRecords zone.records.rows owner := by
      refine hperm.mem_iff.mp ?_
      rw [hl]
      exact List.mem_append_right _ List.mem_cons_self
    have hnew : entry ∉ done := by
      rw [hl] at hnodup
      exact fun he => List.disjoint_of_nodup_append hnodup he List.mem_cons_self
    have hrest : ∀ {e}, e ∉ done ++ [entry] → e ∉ done ∧ e ≠ entry := by
      intro e he
      exact ⟨fun hmem => he (List.mem_append_left _ hmem), fun heq => he (by simp [heq])⟩
    unfold reconcileManaged
    split
    · exact fun e he hnot => hpresent e he (hrest hnot).1
    · obtain ⟨r, hr, hid⟩ := hpresent entry hentry hnew
      have hfound : s'.zone.records.find? entry.record.id = some r :=
        Table.find?_eq_some_iff.mpr ⟨hr, hid⟩
      have happly : s'.zone.apply provider (.delete entry.record.id) =
          .ok (s'.zone.without entry.record.id) := by
        simp only [Zone.apply, hfound]
      rw [issue_served hserved happly]
      intro e he hnot
      obtain ⟨r', hr', hid'⟩ := hpresent e he (hrest hnot).1
      refine ⟨r', mem_without.mpr ⟨hr', fun heq => (hrest hnot).2 ?_⟩, hid'⟩
      exact managed_id_inj he hentry (hid'.symm.trans heq)
  · exact fun e he _ => h e he

variable (provider) in
/-- Both loops of a call succeed, and what they leave. -/
theorem loops_ok (hok : Reconcilable zone token zoneID owner desired)
    (hserved : around.Served) (hwanted : wantedRecords desired = .ok wanted)
    (hfree : NamesFree zone owner desired) :
    ∃ s s' : Session, loops provider around owner zone wanted = .ok s' ∧
      Wrote owner zone wanted.rows s.zone ∧
      Pruned (Obsolete wanted (managedRecords zone.records.rows owner)) s.zone s'.zone ∧
      ∀ r ∈ s'.zone.records, ¬Obsolete wanted (managedRecords zone.records.rows owner) r.id := by
  obtain ⟨s, hs, hwrote⟩ := wantedLoop_ok provider hok hserved hwanted hfree
  have hpresent : ∀ e ∈ managedRecords zone.records.rows owner,
      ∃ r ∈ s.zone.records, r.id = e.record.id := by
    intro e he
    obtain ⟨-, hmem, -, -⟩ := managedRecords_eq_some (Table.find?_of_mem he)
    obtain ⟨r, hr, hsame, -⟩ := hwrote.kept e.record hmem
    exact ⟨r, hr, hsame.id⟩
  obtain ⟨s', hs'⟩ := managedLoop_ok provider wanted hserved hpresent
  have hends := (ends_iff.mp (managedLoop_ends provider around.replies wanted
    (managedRecords zone.records.rows owner) around.managedOrder s)).1 s' hs'
  exact ⟨s, s', bind_eq_ok.mpr ⟨s, hs, hs'⟩, hwrote, hends.1, hends.2⟩

theorem owned_of_desired {record r : DNSRecord} (hrecord : record.carries owner = true)
    (hkey : recordKey r = recordKey record) (hA : recordIsA r = true) : r.owned owner = true := by
  rw [DNSRecord.owned, hA, recordKey_comment hkey, hrecord]
  rfl

/-- After both loops every record of the owner is desired. -/
theorem desired_of_loops (hwanted : wantedRecords desired = .ok wanted) {before after : Zone}
    (hwrote : Wrote owner zone wanted.rows before)
    (hpruned : Pruned (Obsolete wanted (managedRecords zone.records.rows owner)) before after)
    (hgone : ∀ r ∈ after.records,
      ¬Obsolete wanted (managedRecords zone.records.rows owner) r.id)
    {r : DNSRecord} (hr : r ∈ after.records) (howned : r.owned owner = true) :
    ∃ record ∈ desired, recordKey record = recordKey r := by
  rcases hwrote.origin r (hpruned.fewer r hr) with hlisted | ⟨entry, hentry, hsettled⟩
  · -- A listed record of the owner is deleted unless it is desired.
    cases hfind : wanted.find? (recordKey r) with
    | none =>
      refine absurd ⟨⟨recordKey r, r⟩, ?_, hfind, rfl⟩ (hgone r hr)
      exact Table.mem_of_find? (managedRecords_of_mem hlisted howned)
    | some entry =>
      obtain ⟨record, hrecord, hkey⟩ := desired_of_wanted hwanted (Table.mem_of_find? hfind)
      exact ⟨record, hrecord, hkey.trans (Table.key_of_find? hfind)⟩
  · obtain ⟨record, hrecord, hkey⟩ := desired_of_wanted hwanted hentry
    exact ⟨record, hrecord, hkey.trans hsettled.key.symm⟩

/-- A call that succeeds, whatever its arguments, leaves the owner no record that is not desired. -/
theorem desired_of_ok (h : reconcile provider around token zoneID owner desired zone = .ok s)
    {r : DNSRecord} (hr : r ∈ s.zone.records) (howned : r.owned owner = true) :
    ∃ record ∈ desired, recordKey record = recordKey r := by
  obtain ⟨-, -, wanted, hwanted, hloops⟩ := ready_of_ok h
  obtain ⟨s₁, hs₁, hs₂⟩ := bind_eq_ok.mp hloops
  have hwrote := (ends_iff.mp (wantedLoop_ends provider around.replies owner zone
    (wanted_key hwanted) around.wantedOrder [])).1 s₁ hs₁
  have hpruned := (ends_iff.mp (managedLoop_ends provider
    around.replies wanted (managedRecords zone.records.rows owner)
    around.managedOrder s₁)).1 s hs₂
  exact desired_of_loops hwanted hwrote hpruned.1 hpruned.2 hr howned

/-- After both loops the records of the owner are the desired ones. -/
theorem exact_of_loops (hok : Reconcilable zone token zoneID owner desired)
    (hwanted : wantedRecords desired = .ok wanted) {before after : Zone}
    (hwrote : Wrote owner zone wanted.rows before)
    (hpruned : Pruned (Obsolete wanted (managedRecords zone.records.rows owner)) before after)
    (hgone : ∀ r ∈ after.records,
      ¬Obsolete wanted (managedRecords zone.records.rows owner) r.id) :
    Exact after owner desired := by
  constructor
  · intro key record hlast
    obtain ⟨hmem, rfl⟩ := lastDesired_eq_some hlast
    have hentry : (⟨recordKey record, withDefaults record⟩ : MapEntry) ∈ wanted :=
      (wanted_entry hwanted).mpr ⟨record, hlast, rfl⟩
    obtain ⟨r, hr, hsettled⟩ := hwrote.settled _ hentry
    have howned := owned_of_desired (hok.valid record hmem).2 hsettled.key hsettled.isA
    refine ⟨r, hpruned.kept r hr fun hobsolete => ?_, howned, hsettled.key, hsettled.ttl,
      hsettled.proxied, fun r' hr' howned' hkey' => ?_⟩
    · obtain ⟨r', hr', -, hid, hnone⟩ := owned_of_obsolete hobsolete
      have hkey := (hwrote.same_of_id hr' hr hid.symm).key
      rw [← hkey, hsettled.key] at hnone
      exact Table.find?_eq_none_iff.mp hnone _ hentry rfl
    · refine before.unique r' (hpruned.fewer r' hr') r hr (recordIsA_of_owned howned')
        hsettled.isA ?_
      exact address_of_key (hkey'.trans hsettled.key.symm)
  · exact fun r hr howned => desired_of_loops hwanted hwrote hpruned hgone hr howned

theorem namesFree_of_loops (hok : Reconcilable zone token zoneID owner desired)
    (hwanted : wantedRecords desired = .ok wanted) (hfree : NamesFree zone owner desired)
    {before after : Zone} (hwrote : Wrote owner zone wanted.rows before)
    (hfewer : ∀ r ∈ after.records, r ∈ before.records) : NamesFree after owner desired := by
  intro record hrecord r hr hname
  rcases hwrote.origin r (hfewer r hr) with hlisted | ⟨entry, hentry, hsettled⟩
  · exact hfree record hrecord r hlisted hname
  · obtain ⟨record', hrecord', hkey⟩ := desired_of_wanted hwanted hentry
    exact owned_of_desired (hok.valid record' hrecord').2 (hsettled.key.trans hkey.symm)
      hsettled.isA

/-- A call makes no request when the records are the desired ones already. -/
theorem reconcile_again (hready : Ready token zoneID owner) (hserved : around.Served)
    (hwanted : wantedRecords desired = .ok wanted) (hexact : Exact zone owner desired)
    (hfree : NamesFree zone owner desired) :
    reconcile provider around token zoneID owner desired zone = .ok ⟨zone, []⟩ := by
  rw [reconcile_eq hready (hserved 0) hwanted]
  refine bind_eq_ok.mpr ⟨⟨zone, []⟩, ?_, ?_⟩
  · have hloop := ends_foldlM (l := around.wantedOrder.order wanted.rows)
      (b := (⟨zone, []⟩ : Session))
      (f := reconcileWanted provider around.replies owner zone.records.rows
        (managedRecords zone.records.rows owner))
      (E := fun _ => False) (P := fun _ s => s = ⟨zone, []⟩) ?_ rfl
    · obtain ⟨s, hs, rfl⟩ := exists_ok hloop
      exact hs
    · rintro done entry rest s hl rfl
      have hentry : entry ∈ wanted := by
        refine (around.wantedOrder.perm wanted.rows).mem_iff.mp ?_
        rw [hl]
        exact List.mem_append_right _ List.mem_cons_self
      obtain ⟨record, hlast, hrecord⟩ := (wanted_entry hwanted).mp hentry
      obtain ⟨r, hr, howned, hkey, httl, hproxied, -⟩ := hexact.present _ _ hlast
      have hneeded : neededRequest (managedRecords zone.records.rows owner) entry = none := by
        rw [neededRequest, ← hkey, managedRecords_of_mem hr howned, hrecord]
        exact if_neg (not_or.mpr ⟨not_not.mpr httl, not_not.mpr hproxied⟩)
      rw [reconcileWanted, find?_conflicts hwanted hfree hentry]
      dsimp only
      rw [hneeded]
      rfl
  · have hloop := ends_foldlM
      (l := around.managedOrder.order (managedRecords zone.records.rows owner).rows)
      (b := (⟨zone, []⟩ : Session)) (f := reconcileManaged provider around.replies wanted)
      (E := fun _ => False) (P := fun _ s => s = ⟨zone, []⟩) ?_ rfl
    · obtain ⟨s, hs, rfl⟩ := exists_ok hloop
      exact hs
    · rintro done entry rest s hl rfl
      have hentry : entry ∈ managedRecords zone.records.rows owner := by
        refine (around.managedOrder.perm _).mem_iff.mp ?_
        rw [hl]
        exact List.mem_append_right _ List.mem_cons_self
      obtain ⟨-, hmem, howned, hkey⟩ := managedRecords_eq_some (Table.find?_of_mem hentry)
      obtain ⟨record, hrecord, hrkey⟩ := hexact.only entry.record hmem howned
      obtain ⟨entry', hentry', hkey'⟩ := wanted_of_desired hwanted hrecord
      have hfound : wanted.find? entry.key = some entry' :=
        Table.find?_eq_some_iff.mpr ⟨hentry', hkey'.trans (hrkey.trans hkey)⟩
      rw [reconcileManaged, hfound]
      rfl

theorem converges_of_reconcilable (hok : Reconcilable zone token zoneID owner desired)
    (hserved : around.Served) (hfree : NamesFree zone owner desired) :
    Converges provider around token zoneID owner desired zone := by
  obtain ⟨wanted, hwanted, -⟩ := wantedRecords_eq_ok desired fun record hrecord =>
    (hok.valid record hrecord).1
  obtain ⟨s, s', hs', hwrote, hpruned, hgone⟩ := loops_ok provider hok hserved
    hwanted hfree
  have hexact := exact_of_loops hok hwanted hwrote hpruned hgone
  have hresult : reconcile provider around token zoneID owner desired zone = .ok s' := by
    rw [reconcile_eq hok.ready (hserved 0) hwanted, hs']
  refine ⟨s', hresult, hexact, fun r hr => ?_, fun around' hserved' => ?_⟩
  · have hconfined := reconcile_confined provider around token zoneID desired zone hr
    rw [hresult] at hconfined
    refine ⟨fun hmem => (hconfined.2 hmem).resolve_right ?_, hconfined.1⟩
    rintro ⟨record, hrecord, hkey⟩
    rw [← recordKey_comment hkey owner, (hok.valid record hrecord).2] at hr
    cases hr
  · exact ⟨_, reconcile_again hok.ready hserved' hwanted hexact
      (namesFree_of_loops hok hwanted hfree hwrote hpruned.fewer), rfl⟩

/-! ### The condition is needed -/

theorem reconcilable_of_converges
    (h : Converges provider around token zoneID owner desired zone) :
    Reconcilable zone token zoneID owner desired := by
  obtain ⟨s, hs, hexact, -, -⟩ := h
  obtain ⟨hready, -, wanted, hwanted, hloops⟩ := ready_of_ok hs
  obtain ⟨s₁, hs₁, -⟩ := bind_eq_ok.mp hloops
  have hwrote := (ends_iff.mp (wantedLoop_ends provider around.replies owner zone
    (wanted_key hwanted) around.wantedOrder [])).1 s₁ hs₁
  -- The record that the call leaves for a desired one.
  have hpresent : ∀ record ∈ desired, ∃ r ∈ s.zone.records, r.owned owner = true ∧
      recordKey r = recordKey record := by
    intro record hrecord
    obtain ⟨last, hlast⟩ := exists_lastDesired hrecord
    obtain ⟨r, hr, howned, hkey, -⟩ := hexact.present _ _ hlast
    exact ⟨r, hr, howned, hkey⟩
  refine ⟨hready, fun record hrecord => ?_, fun record hrecord record' hrecord' haddress => ?_,
    fun record hrecord r hr howned haddress => ?_⟩
  · obtain ⟨r, -, howned, hkey⟩ := hpresent record hrecord
    refine ⟨valid_of_wantedRecords hwanted record hrecord, ?_⟩
    rw [← recordKey_comment hkey]
    exact carries_of_owned howned
  · obtain ⟨r, hr, howned, hkey⟩ := hpresent record hrecord
    obtain ⟨r', hr', howned', hkey'⟩ := hpresent record' hrecord'
    have hsame : r = r' := by
      refine s.zone.unique r hr r' hr' (recordIsA_of_owned howned) (recordIsA_of_owned howned') ?_
      exact (address_of_key hkey).trans (haddress.trans (address_of_key hkey').symm)
    rw [← show r.comment = record.comment from congrArg RecordKey.comment hkey, hsame]
    exact congrArg RecordKey.comment hkey'
  · -- After the first loop the record is still there, beside the one that is desired.
    obtain ⟨entry, hentry, hekey⟩ := wanted_of_desired hwanted hrecord
    obtain ⟨r₁, hr₁, hsettled⟩ := hwrote.settled entry hentry
    obtain ⟨r₂, hr₂, hsame, -⟩ := hwrote.kept r hr
    have hkey₁ : recordKey r₁ = recordKey record := hsettled.key.trans hekey
    have heq : r₁ = r₂ := by
      refine s₁.zone.unique r₁ hr₁ r₂ hr₂ hsettled.isA
        (hsame.isA.trans (recordIsA_of_owned howned)) ?_
      exact (address_of_key hkey₁).trans (haddress.symm.trans (address_of_key hsame.key).symm)
    have hkey₂ : recordKey r = recordKey record := by
      rw [← hsame.key, ← heq, hkey₁]
    exact congrArg RecordKey.comment hkey₂

/-! ### Prefixes of owners -/

theorem hasPrefix_ownerPrefix {comment owner : String}
    (h : Text.hasPrefix comment (ownerPrefix owner) = true) :
    ∃ rest, comment.toList = managedRecordPrefix.toList ++ (owner.toList ++ ';' :: rest) := by
  obtain ⟨rest, hrest⟩ := List.isPrefixOf_iff_prefix.mp h
  refine ⟨rest, ?_⟩
  rw [← hrest, ownerPrefix, String.toList_append, String.toList_append]
  simp only [List.append_assoc]
  rfl

/-- A separator ends each owner, so one that begins like another is not confused with it. -/
theorem owner_eq_of_carries {r : DNSRecord} {owner owner' : String} (h : ';' ∉ owner.toList)
    (h' : ';' ∉ owner'.toList) (hr : r.carries owner = true) (hr' : r.carries owner' = true) :
    owner = owner' := by
  obtain ⟨rest, hrest⟩ := hasPrefix_ownerPrefix hr
  obtain ⟨rest', hrest'⟩ := hasPrefix_ownerPrefix hr'
  have heq := List.append_cancel_left (hrest.symm.trans hrest')
  have htake : ∀ (l rest : List Char), ';' ∉ l →
      (l ++ ';' :: rest).takeWhile (· ≠ ';') = l := by
    intro l rest hl
    have hall : ∀ c ∈ l, decide (c ≠ ';') = true := by
      intro c hc
      refine decide_eq_true fun hsep => hl ?_
      rwa [hsep] at hc
    rw [List.takeWhile_append_of_pos hall]
    simp
  have hlists := htake _ rest h
  rw [heq, htake _ rest' h'] at hlists
  exact String.toList_injective hlists.symm

/-- A call never changes a record without the owner's prefix, not even when its own owner begins
like this one.  When the desired names are free of others and no request is lost, it converges,
in every order of its loops, exactly when the records of the owner and the desired ones do not
dispute an address. -/
theorem reconcile_converges_iff (provider : Provider) (token : Except String String)
    (zoneID owner : String) (desired : List DNSRecord) (zone : Zone) :
    (∀ around r, r.carries owner = false →
      let after := zoneAfter (reconcile provider around token zoneID owner desired zone)
      (r ∈ zone.records → r ∈ after.records) ∧
        (r ∈ after.records →
          r ∈ zone.records ∨ ∃ record ∈ desired, recordKey record = recordKey r)) ∧
    (∀ around r owner', owner' ≠ owner → ';' ∉ owner.toList → ';' ∉ owner'.toList →
      r.carries owner' = true → r ∈ zone.records →
      r ∈ (zoneAfter (reconcile provider around token zoneID owner desired zone)).records) ∧
    (NamesFree zone owner desired →
      ((∀ around : Surroundings, around.Served →
          Converges provider around token zoneID owner desired zone) ↔
        Reconcilable zone token zoneID owner desired)) := by
  refine ⟨fun around r hr => reconcile_confined _ _ _ _ _ _ hr, ?_, fun hfree => ⟨fun h => ?_, fun h => ?_⟩⟩
  · intro around r owner' hne howner howner' hcarries hmem
    have hnot : r.carries owner = false := by
      refine Bool.eq_false_iff.mpr fun hr => hne ?_
      exact (owner_eq_of_carries howner howner' hr hcarries).symm
    exact (reconcile_confined _ _ _ _ _ _ hnot).1 hmem
  · exact reconcilable_of_converges
      (h ⟨fun _ => .served, ⟨id, fun _ => .refl _⟩, ⟨id, fun _ => .refl _⟩⟩ fun _ => rfl)
  · exact fun around hserved => converges_of_reconcilable h hserved hfree

end

/-! ### A node that takes over the address of another -/

/-- A provider whose identifiers are longer than any in the zone. -/
def longerIDs : Provider where
  assign zone _ :=
    String.ofList (List.replicate ((zone.records.rows.map fun r => r.id.length).sum + 1) 'x')
  fresh zone record := by
    refine Table.find?_eq_none_iff.mpr fun r hr hid => ?_
    have hlength : r.id.length ≤ (zone.records.rows.map fun r => r.id.length).sum :=
      List.le_sum_of_mem (List.mem_map_of_mem hr)
    have hid : r.id = _ := hid
    rw [hid] at hlength
    simp at hlength

def siteRecord (id node content : String) (ttl : Int) : DNSRecord :=
  ⟨id, "A", "www.example.com", content, "cdn-platform:site=s;node=" ++ node, ttl, false⟩

/-- The zone has the record of node `a`. -/
def zoneOfA : Zone where
  records := ⟨[siteRecord "1" "a" "203.0.113.1" 60], by decide⟩
  unique := by
    intro r hr r' hr' _ _ _
    exact (List.mem_singleton.mp hr).trans (List.mem_singleton.mp hr').symm

/-- Node `b` at another address takes over, and the record of node `a` gets another TTL. -/
theorem zoneOfA_converges (around : Surroundings) (hserved : around.Served) :
    Converges longerIDs around (.ok "token") "zone" "site=s"
      [siteRecord "" "b" "203.0.113.2" 60, siteRecord "" "a" "203.0.113.1" 300] zoneOfA :=
  (reconcile_converges_iff longerIDs (.ok "token") "zone" "site=s" _ zoneOfA).2.2
    (by unfold NamesFree; decide +kernel) |>.mpr
    ⟨⟨by decide +kernel, by decide +kernel, "token", rfl, by decide⟩,
      by unfold Valid; decide +kernel, by decide +kernel, by decide +kernel⟩ around hserved

/-- When node `b` has the address that node `a` had, the create is refused. -/
theorem zoneOfA_refused :
    NamesFree zoneOfA "site=s" [siteRecord "" "b" "203.0.113.1" 60] ∧
    (match reconcile longerIDs ⟨fun _ => .served, ⟨id, fun _ => .refl _⟩, ⟨id, fun _ => .refl _⟩⟩
        (.ok "token") "zone" "site=s" [siteRecord "" "b" "203.0.113.1" 60] zoneOfA with
      | .ok _ => none
      | .error failure => some failure.1.message) = some "An identical record already exists." := by
  refine ⟨?_, by decide +kernel⟩
  unfold NamesFree
  decide +kernel

end SimpleCdn.Cloudflare
