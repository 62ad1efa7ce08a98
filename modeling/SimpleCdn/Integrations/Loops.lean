import SimpleCdn.Integrations.Records

/-!
# The two loops of a reconciliation

The first loop only adds records and changes the TTL and the proxied flag of the owner's; the
second only deletes the owner's records that are not desired.  Both hold at whichever request the
reconciliation ends, and whatever becomes of that request.
-/

namespace SimpleCdn.Cloudflare

/-- The two records differ at most in what an update changes. -/
structure SameRecord (r r' : DNSRecord) : Prop where
  id : r'.id = r.id
  isA : recordIsA r' = recordIsA r
  key : recordKey r' = recordKey r

/-- The record is what the entry of the map of desired records asks for. -/
structure Settled (entry : MapEntry) (record : DNSRecord) : Prop where
  isA : recordIsA record = true
  key : recordKey record = entry.key
  ttl : record.ttl = entry.record.ttl
  proxied : record.proxied = entry.record.proxied

/-- What the first loop makes of a zone, when it has taken up these entries. -/
structure Written (owner : String) (listed : Zone) (done : List MapEntry) (zone : Zone) : Prop where
  kept : ∀ r ∈ listed.records, ∃ r' ∈ zone.records, SameRecord r r' ∧
    (r.owned owner = false → r' = r)
  origin : ∀ r ∈ zone.records, r ∈ listed.records ∨ ∃ entry ∈ done, Settled entry r

theorem SameRecord.refl (r : DNSRecord) : SameRecord r r := ⟨rfl, rfl, rfl⟩

theorem SameRecord.owned {r r' : DNSRecord} (h : SameRecord r r') (owner : String) :
    r'.owned owner = r.owned owner := by
  have hcomment : r'.comment = r.comment := congrArg RecordKey.comment h.key
  rw [DNSRecord.owned, DNSRecord.owned, h.isA, DNSRecord.carries, DNSRecord.carries, hcomment]

theorem SameRecord.trans {r r' r'' : DNSRecord} (h : SameRecord r r') (h' : SameRecord r' r'') :
    SameRecord r r'' :=
  ⟨h'.id.trans h.id, h'.isA.trans h.isA, h'.key.trans h.key⟩

section

variable {provider : Provider} {replies : Nat → Reply} {owner : String} {listed zone zone' : Zone}
  {done : List MapEntry} {entry : MapEntry} {wanted : Table MapEntry}

theorem Written.start (owner : String) (zone : Zone) : Written owner zone [] zone where
  kept r hr := ⟨r, hr, .refl r, fun _ => rfl⟩
  origin r hr := .inl hr

theorem Written.mono {done' : List MapEntry} (h : Written owner listed done zone)
    (hsub : ∀ entry ∈ done, entry ∈ done') : Written owner listed done' zone where
  kept := h.kept
  origin r hr := (h.origin r hr).imp id fun ⟨entry, hentry, hsettled⟩ =>
    ⟨entry, hsub entry hentry, hsettled⟩

theorem settled_stored (id : String) (h : recordKey entry.record = entry.key) :
    Settled entry (stored id entry.record) :=
  ⟨rfl, h, rfl, rfl⟩

/-- The record of the zone that a record of the listing has become. -/
theorem Written.same_of_id (h : Written owner listed done zone) {r r' : DNSRecord}
    (hr : r ∈ listed.records) (hr' : r' ∈ zone.records) (hid : r'.id = r.id) : SameRecord r r' := by
  obtain ⟨r'', hr'', hsame, -⟩ := h.kept r hr
  rwa [eq_of_id_eq hr' hr'' (hid.trans hsame.id.symm)]

theorem Written.create (h : Written owner listed done zone)
    (hkey : recordKey entry.record = entry.key)
    (happly : zone.apply provider (.create entry.record) = .ok zone') :
    Written owner listed (done ++ [entry]) zone' ∧
      (∀ r ∈ zone.records, r ∈ zone'.records) ∧ ∃ r ∈ zone'.records, Settled entry r := by
  obtain ⟨htaken, rfl⟩ := apply_create happly
  have hstays : ∀ r ∈ zone.records,
      r ∈ (zone.put (provider.assign zone entry.record) entry.record htaken).records := by
    intro r hr
    refine mem_put.mpr (.inr ⟨hr, fun hid => ?_⟩)
    exact Table.find?_eq_none_iff.mp (provider.fresh zone entry.record) r hr hid
  refine ⟨⟨fun r hr => ?_, fun r' hr' => ?_⟩, hstays, ?_⟩
  · obtain ⟨r', hr', hsame⟩ := h.kept r hr
    exact ⟨r', hstays r' hr', hsame⟩
  · rcases mem_put.mp hr' with rfl | ⟨hmem, -⟩
    · exact .inr ⟨entry, by simp, settled_stored _ hkey⟩
    · exact (h.mono fun e he => List.mem_append_left _ he).origin r' hmem
  · exact ⟨_, mem_put.mpr (.inl rfl), settled_stored _ hkey⟩

/-- An update of a record of the owner with the key of the entry. -/
theorem Written.update (h : Written owner listed done zone)
    (hkey : recordKey entry.record = entry.key) {r : DNSRecord} (hr : r ∈ listed.records)
    (howned : r.owned owner = true) (hrkey : recordKey r = entry.key)
    (happly : zone.apply provider (.update r.id entry.record) = .ok zone') :
    Written owner listed (done ++ [entry]) zone' ∧
      (∀ r' ∈ zone.records, r' ∈ zone'.records ∨ recordKey r' = entry.key) ∧
      ∃ r' ∈ zone'.records, Settled entry r' := by
  obtain ⟨htaken, rfl⟩ := apply_update happly
  have hstored : SameRecord r (stored r.id entry.record) :=
    ⟨rfl, (recordIsA_of_owned howned).symm, hkey.trans hrkey.symm⟩
  refine ⟨⟨fun r₀ hr₀ => ?_, fun r' hr' => ?_⟩, fun r' hr' => ?_, ?_⟩
  · by_cases hid : r₀.id = r.id
    · obtain rfl := eq_of_id_eq hr₀ hr hid
      refine ⟨_, mem_put.mpr (.inl rfl), hstored, fun hnot => ?_⟩
      rw [howned] at hnot
      cases hnot
    · obtain ⟨r', hr', hsame, hunowned⟩ := h.kept r₀ hr₀
      refine ⟨r', mem_put.mpr (.inr ⟨hr', ?_⟩), hsame, hunowned⟩
      rw [hsame.id]
      exact hid
  · rcases mem_put.mp hr' with rfl | ⟨hmem, -⟩
    · exact .inr ⟨entry, by simp, settled_stored _ hkey⟩
    · exact (h.mono fun e he => List.mem_append_left _ he).origin r' hmem
  · by_cases hid : r'.id = r.id
    · exact .inr ((h.same_of_id hr hr' hid).key.trans hrkey)
    · exact .inl (mem_put.mpr (.inr ⟨hr', hid⟩))
  · exact ⟨_, mem_put.mpr (.inl rfl), settled_stored _ hkey⟩

/-- What the first loop has reached after these entries. -/
structure Wrote (owner : String) (listed : Zone) (done : List MapEntry) (zone : Zone) : Prop
    extends Written owner listed done zone where
  settled : ∀ entry ∈ done, ∃ r ∈ zone.records, Settled entry r

variable (provider replies) in
theorem reconcileWanted_ends (hkeyed : ∀ entry ∈ wanted, recordKey entry.record = entry.key)
    (hdone : ∀ entry ∈ done, entry ∈ wanted)
    (hentry : entry ∈ wanted) {s : Session} (h : Wrote owner listed done s.zone) :
    Ends (fun failure => Written owner listed (done ++ [entry]) failure.2.zone)
      (fun s => Wrote owner listed (done ++ [entry]) s.zone)
      (reconcileWanted provider replies owner listed.records.rows
        (managedRecords listed.records.rows owner) s entry) := by
  have hgrown : Written owner listed (done ++ [entry]) s.zone :=
    h.mono fun e he => List.mem_append_left _ he
  have hkey := hkeyed entry hentry
  unfold reconcileWanted
  split
  · exact hgrown
  · unfold neededRequest
    cases hfind : (managedRecords listed.records.rows owner).find? entry.key with
    | none =>
      have hstep : ∀ zone, s.zone.apply provider (.create entry.record) = .ok zone →
          Wrote owner listed (done ++ [entry]) zone := by
        intro zone happly
        obtain ⟨hwritten, hstays, hsettled⟩ := h.create hkey happly
        refine ⟨hwritten, fun e he => ?_⟩
        rcases List.mem_append.mp he with he | he
        · obtain ⟨r, hr, hr'⟩ := h.settled e he
          exact ⟨r, hstays r hr, hr'⟩
        · obtain rfl := List.mem_singleton.mp he
          exact hsettled
      exact issue_ends s _ hstep (fun zone _ hz => (hstep zone hz).toWritten) fun _ => hgrown
    | some existing =>
      obtain ⟨-, hmem, howned, hrkey⟩ := managedRecords_eq_some hfind
      dsimp only
      by_cases hdiffers : existing.record.ttl ≠ entry.record.ttl ∨
          existing.record.proxied ≠ entry.record.proxied
      · rw [if_pos hdiffers]
        have hstep : ∀ zone,
            s.zone.apply provider (.update existing.record.id entry.record) = .ok zone →
            Wrote owner listed (done ++ [entry]) zone := by
          intro zone happly
          obtain ⟨hwritten, hstays, hsettled⟩ := h.update hkey hmem howned hrkey happly
          refine ⟨hwritten, fun e he => ?_⟩
          rcases List.mem_append.mp he with he | he
          · obtain ⟨r, hr, hr'⟩ := h.settled e he
            rcases hstays r hr with hr | hr
            · exact ⟨r, hr, hr'⟩
            · -- Only a record with the key of the entry goes, and the entry of a key is unique.
              have hsame : e = entry :=
                Table.eq_of_key_eq (hdone e he) hentry (hr'.key.symm.trans hr)
              rw [hsame]
              exact hsettled
          · obtain rfl := List.mem_singleton.mp he
            exact hsettled
        exact issue_ends s _ hstep (fun zone _ hz => (hstep zone hz).toWritten) fun _ => hgrown
      · rw [if_neg hdiffers]
        simp only [ne_eq, not_or, not_not] at hdiffers
        refine ⟨hgrown, fun e he => ?_⟩
        rcases List.mem_append.mp he with he | he
        · exact h.settled e he
        · obtain rfl := List.mem_singleton.mp he
          -- The listed record is as desired already, and so is what has become of it.
          obtain ⟨r, hr, hsame, -⟩ := h.kept existing.record hmem
          refine ⟨r, hr, ?_⟩
          rcases h.origin r hr with hlisted | ⟨e', he', hsettled⟩
          · rw [eq_of_id_eq hlisted hmem hsame.id]
            exact ⟨recordIsA_of_owned howned, hrkey, hdiffers.1, hdiffers.2⟩
          · have heq : e' = e := by
              refine Table.eq_of_key_eq (hdone e' he') hentry ?_
              exact hsettled.key.symm.trans (hsame.key.trans hrkey)
            rwa [heq] at hsettled

variable (provider replies owner listed) in
/-- What the first loop keeps, at whichever request it ends. -/
theorem wantedLoop_ends (hkeyed : ∀ entry ∈ wanted, recordKey entry.record = entry.key)
    (order : Iteration) (made : List Request) :
    Ends (fun failure => Written owner listed wanted.rows failure.2.zone)
      (fun s => Wrote owner listed wanted.rows s.zone)
      ((order.order wanted.rows).foldlM
        (reconcileWanted provider replies owner listed.records.rows
          (managedRecords listed.records.rows owner)) ⟨listed, made⟩) := by
  have hperm := order.perm wanted.rows
  have hloop := ends_foldlM (l := order.order wanted.rows) (b := (⟨listed, made⟩ : Session))
    (f := reconcileWanted provider replies owner listed.records.rows
      (managedRecords listed.records.rows owner))
    (E := fun failure => Written owner listed (order.order wanted.rows) failure.2.zone)
    (P := fun done s => Wrote owner listed done s.zone) ?_ ?_
  · refine hloop.mono (fun failure h => h.mono fun e he => hperm.mem_iff.mp he) fun s h => ?_
    exact ⟨h.mono fun e he => hperm.mem_iff.mp he, fun e he => h.settled e (hperm.mem_iff.mpr he)⟩
  · intro done entry rest s hl h
    have hmem : ∀ e ∈ done ++ [entry], e ∈ wanted := by
      intro e he
      refine hperm.mem_iff.mp ?_
      rw [hl]
      rcases List.mem_append.mp he with he | he
      · exact List.mem_append_left _ he
      · obtain rfl := List.mem_singleton.mp he
        exact List.mem_append_right _ List.mem_cons_self
    refine (reconcileWanted_ends provider replies hkeyed (fun e he => hmem e (List.mem_append_left _ he))
      (hmem entry (by simp)) h).mono (fun failure hf => ?_) fun s hs => hs
    refine hf.mono fun e he => ?_
    rw [hl]
    rcases List.mem_append.mp he with he | he
    · exact List.mem_append_left _ he
    · obtain rfl := List.mem_singleton.mp he
      exact List.mem_append_right _ List.mem_cons_self
  · exact ⟨.start owner listed, fun e he => absurd he List.not_mem_nil⟩

/-! ### The second loop -/

/-- A record that the second loop deletes. -/
def Obsolete (wanted managed : Table MapEntry) (id : String) : Prop :=
  ∃ entry ∈ managed, wanted.find? entry.key = none ∧ entry.record.id = id

/-- What the second loop makes of a zone, at whichever request it ends. -/
structure Pruned (obsolete : String → Prop) (before after : Zone) : Prop where
  fewer : ∀ r ∈ after.records, r ∈ before.records
  kept : ∀ r ∈ before.records, ¬obsolete r.id → r ∈ after.records

theorem Pruned.start (obsolete : String → Prop) (zone : Zone) : Pruned obsolete zone zone :=
  ⟨fun _ h => h, fun _ h _ => h⟩

theorem Pruned.without {obsolete : String → Prop} {before after : Zone}
    (h : Pruned obsolete before after) {id : String} (hid : obsolete id) :
    Pruned obsolete before (after.without id) where
  fewer r hr := h.fewer r (mem_without.mp hr).1
  kept r hr hnot := mem_without.mpr ⟨h.kept r hr hnot, fun heq => hnot (heq ▸ hid)⟩

variable (provider replies wanted) in
theorem managedLoop_ends (managed : Table MapEntry) (order : Iteration) (s : Session) :
    Ends (fun failure => Pruned (Obsolete wanted managed) s.zone failure.2.zone)
      (fun s' => Pruned (Obsolete wanted managed) s.zone s'.zone ∧
        ∀ r ∈ s'.zone.records, ¬Obsolete wanted managed r.id)
      ((order.order managed.rows).foldlM (reconcileManaged provider replies wanted) s) := by
  have hperm := order.perm managed.rows
  have hloop := ends_foldlM (l := order.order managed.rows) (b := s)
    (f := reconcileManaged provider replies wanted)
    (E := fun failure => Pruned (Obsolete wanted managed) s.zone failure.2.zone)
    (P := fun done s' => Pruned (Obsolete wanted managed) s.zone s'.zone ∧
      ∀ r ∈ s'.zone.records, ∀ entry ∈ done, wanted.find? entry.key = none →
        entry.record.id ≠ r.id) ?_ ?_
  · refine hloop.mono (fun failure h => h) fun s' ⟨hpruned, hgone⟩ => ⟨hpruned, fun r hr => ?_⟩
    rintro ⟨entry, hentry, hnone, hid⟩
    exact hgone r hr entry (hperm.mem_iff.mpr hentry) hnone hid
  · intro done entry rest s' hl ⟨hpruned, hgone⟩
    have hentry : entry ∈ managed := by
      refine hperm.mem_iff.mp ?_
      rw [hl]
      exact List.mem_append_right _ List.mem_cons_self
    unfold reconcileManaged
    split
    · next other hsome =>
      refine ⟨hpruned, fun r hr e he hnone => ?_⟩
      rcases List.mem_append.mp he with he | he
      · exact hgone r hr e he hnone
      · obtain rfl := List.mem_singleton.mp he
        rw [hsome] at hnone
        cases hnone
    · next hnone =>
      have hobsolete : Obsolete wanted managed entry.record.id := ⟨entry, hentry, hnone, rfl⟩
      refine issue_ends s' _ (fun zone happly => ?_) (fun zone _ happly => ?_) fun _ => hpruned
      · obtain rfl := apply_delete happly
        refine ⟨hpruned.without hobsolete, fun r hr e he hnone => ?_⟩
        obtain ⟨hmem, hid⟩ := mem_without.mp hr
        rcases List.mem_append.mp he with he | he
        · exact hgone r hmem e he hnone
        · obtain rfl := List.mem_singleton.mp he
          exact Ne.symm hid
      · obtain rfl := apply_delete happly
        exact hpruned.without hobsolete
  · exact ⟨.start _ _, fun r hr e he => absurd he List.not_mem_nil⟩

end

end SimpleCdn.Cloudflare
