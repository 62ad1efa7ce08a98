import SimpleCdn.Dismissal.System

/-!
# What stays dismissed

A message is deleted by the time it was made at, and made again by the time its row was updated at.
The two agree as long as the row is only updated together with its status, and the limit only moves
forward; then a dismissed message is not made again when its row has been deleted.

The limit is the date three months before, and the dates of three months run on into the next one:
the limit of the first of June is before that of the last of May.
-/

namespace SimpleCdn.Dismissal

open MessageCentre Stamps Transition

/-- The step leaves the time of each dismissed message and that of its row in agreement, and does
not move the limit back over it. -/
def Allowed (s : State) : Action → Prop
  | .writeTask id status _ => s.hasTask (id, status) = true → (id, status) ∉ s.dismissed
  | .dismiss id _ => ∀ message ∈ s.centre.messages, message.id = id → message.dismissedAt = none →
      ∀ row ∈ s.centre.tasks, row.key = message.key → row.updatedAt = message.createdAt
  | .reconcile now => ∀ row ∈ s.centre.tasks, row.key ∈ s.dismissed →
      stamp row.updatedAt < s.cutoff → stamp row.updatedAt < stamp (threeMonthsBefore now)
  | _ => True

instance decidableAllowed (s : State) : ∀ action, Decidable (Allowed s action)
  | .writeTask id status _ => inferInstanceAs
      (Decidable (s.hasTask (id, status) = true → (id, status) ∉ s.dismissed))
  | .dismiss id _ => inferInstanceAs
      (Decidable (∀ message ∈ s.centre.messages, message.id = id → message.dismissedAt = none →
        ∀ row ∈ s.centre.tasks, row.key = message.key → row.updatedAt = message.createdAt))
  | .reconcile now => inferInstanceAs
      (Decidable (∀ row ∈ s.centre.tasks, row.key ∈ s.dismissed →
        stamp row.updatedAt < s.cutoff → stamp row.updatedAt < stamp (threeMonthsBefore now)))
  | .deleteTask .. | .markRead .. | .markAllRead .. => .isTrue trivial

/-- The state of a dismissed message: dismissed in the table and as old as its row, or deleted and
its row too old to be found. -/
structure Kept (s : State) (key : Key) : Prop where
  present : ∀ message ∈ s.centre.messages, message.key = key → message.dismissedAt ≠ none ∧
    ∀ row ∈ s.centre.tasks, row.key = key → row.updatedAt = message.createdAt
  absent : (∀ message ∈ s.centre.messages, message.key ≠ key) →
    ∀ row ∈ s.centre.tasks, row.key = key → stamp row.updatedAt < s.cutoff

structure Inv (s : State) : Prop where
  unique : s.Unique
  kept : ∀ key ∈ s.dismissed, Kept s key

theorem Kept.not_visible {s : State} {key : Key} (h : Kept s key) : ¬ s.Visible key := by
  rintro ⟨message, hmessage, hkey, hnone⟩
  exact (h.present message hmessage hkey).1 hnone

theorem inv_initial : Inv initial :=
  ⟨List.nodup_nil, fun _ h => absurd h List.not_mem_nil⟩

/-! ### One step -/

section

variable {s : State} {key : Key}

/-- What is before a limit is before the later of it and another. -/
theorem lt_later {a b c : List UInt8} (h : a < c) : a < if b < c then c else b := by
  split
  · exact h
  · next hbc =>
    by_contra hab
    exact hbc (List.lt_of_le_of_lt (List.not_lt.mp hab) h)

theorem lt_later' {a b c : List UInt8} (h : a < b) : a < if b < c then c else b := by
  split
  · next hbc => exact List.lt_trans h hbc
  · exact h

/-- Rows that go, or are about something else, do not matter. -/
theorem Kept.of_tasks (h : Kept s key) {tasks : List TaskRow} {dismissed : List Key}
    (htasks : ∀ row ∈ tasks, row.key = key → row ∈ s.centre.tasks) :
    Kept ⟨{ s.centre with tasks := tasks }, dismissed, s.cutoff⟩ key := by
  refine ⟨fun message hmessage hkey => ?_, fun hnone row hrow hkey => ?_⟩
  · obtain ⟨hdismissed, hage⟩ := h.present message hmessage hkey
    exact ⟨hdismissed, fun row hrow hrowKey => hage row (htasks row hrow hrowKey) hrowKey⟩
  · exact h.absent hnone row (htasks row hrow hkey) hkey

/-- Reading and dismissing messages keeps what is dismissed, and the times. -/
theorem Kept.of_map (h : Kept s key) {f : Message → Message} {dismissed : List Key}
    (hkey : ∀ message, (f message).key = message.key)
    (hcreated : ∀ message, (f message).createdAt = message.createdAt)
    (hdismissed : ∀ message, message.dismissedAt ≠ none → (f message).dismissedAt ≠ none) :
    Kept ⟨{ s.centre with messages := s.centre.messages.map f }, dismissed, s.cutoff⟩ key := by
  refine ⟨fun message hmessage heq => ?_, fun hnone row hrow heq => ?_⟩
  · obtain ⟨old, hold, rfl⟩ := List.mem_map.mp hmessage
    obtain ⟨hgone, hage⟩ := h.present old hold ((hkey old).symm.trans heq)
    exact ⟨hdismissed old hgone, fun row hrow hrowKey =>
      (hage row hrow hrowKey).trans (hcreated old).symm⟩
  · refine h.absent (fun message hmessage heq' => ?_) row hrow heq
    exact hnone (f message) (List.mem_map_of_mem hmessage) ((hkey message).trans heq')

theorem mem_forget {id : String} {type : SourceType} :
    key ∈ s.forget id type ↔ key ∈ s.dismissed ∧ ¬(key.1 = id ∧ key.2.type = type) := by
  simp only [State.forget, List.mem_filter, Bool.not_eq_true', Bool.and_eq_false_iff,
    decide_eq_false_iff_not, not_and_or]

/-- A row in the status is written only if its message has not been dismissed. -/
theorem kept_writeTask (h : Inv s) {id : String} {status : SourceStatus} {now : Int}
    (hallowed : Allowed s (.writeTask id status now))
    (hkey : key ∈ (s.act (.writeTask id status now)).dismissed) :
    Kept (s.act (.writeTask id status now)) key := by
  have hboth : key ∈ s.dismissed ∧ key ≠ (id, status) := by
    simp only [State.act] at hkey
    split at hkey
    · next hsame =>
      refine ⟨hkey, ?_⟩
      rintro rfl
      exact hallowed hsame hkey
    · obtain ⟨hmem, hother⟩ := mem_forget.mp hkey
      refine ⟨hmem, ?_⟩
      rintro rfl
      exact hother ⟨rfl, rfl⟩
  refine (h.kept key hboth.1).of_tasks fun row hrow hrowKey => ?_
  rcases List.mem_cons.mp hrow with rfl | hrow
  · exact absurd hrowKey.symm hboth.2
  · exact (List.mem_filter.mp hrow).1

theorem kept_reconcile (h : Inv s) {now : Int} (hallowed : Allowed s (.reconcile now))
    (hkey : key ∈ s.dismissed) : Kept (s.act (.reconcile now)) key := by
  have hspec := Centre.reconciled s.centre (stamp (threeMonthsBefore now))
  have hkept := h.kept key hkey
  have htasks : (s.act (.reconcile now)).centre.tasks = s.centre.tasks := hspec.tasks
  refine ⟨fun message hmessage heq => ?_, fun hnone row hrow heq => ?_⟩
  · rw [htasks]
    rcases hspec.added message hmessage with hold | ⟨row, hrow, hrowKey, hfound, hnew⟩
    · exact hkept.present message hold heq
    · -- the row of a dismissed message is too old to be found
      exfalso
      have hrowKey : row.key = key := hrowKey.symm.trans heq
      refine hfound (hallowed row hrow (hrowKey ▸ hkey) (hkept.absent ?_ row hrow hrowKey))
      intro old hold holdKey
      rw [Centre.hasMessage_eq_true.mpr ⟨old, hold, holdKey.trans hrowKey.symm⟩] at hnew
      exact Bool.noConfusion hnew
  · rw [htasks] at hrow
    by_cases hold : ∃ message ∈ s.centre.messages, message.key = key
    · obtain ⟨message, hmessage, hmessageKey⟩ := hold
      have hexpired : message.expired (stamp (threeMonthsBefore now)) = true := by
        by_contra hstays
        exact hnone message (hspec.kept message hmessage (Bool.not_eq_true _ ▸ hstays)) hmessageKey
      rw [Message.expired, Bool.and_eq_true, decide_eq_true_eq] at hexpired
      rw [(hkept.present message hmessage hmessageKey).2 row hrow heq]
      exact lt_later hexpired.2
    · refine lt_later' (hkept.absent (fun message hmessage hmessageKey => ?_) row hrow heq)
      exact hold ⟨message, hmessage, hmessageKey⟩

theorem kept_dismiss (h : Inv s) {id : Nat} {now : Int} (hallowed : Allowed s (.dismiss id now))
    (hkey : key ∈ s.shown id ++ s.dismissed) : Kept (s.act (.dismiss id now)) key := by
  by_cases hold : key ∈ s.dismissed
  · refine (h.kept key hold).of_map (fun m => ?_) (fun m => ?_) (fun m => ?_)
    · split <;> rfl
    · split <;> rfl
    · split
      · exact fun _ => Option.some_ne_none now
      · exact fun h => h
  · -- the message that was shown is the only one about its row
    obtain ⟨shown, hshown, rfl⟩ := List.mem_map.mp
      ((List.mem_append.mp hkey).resolve_right hold)
    simp only [List.mem_filter, Bool.and_eq_true, decide_eq_true_eq] at hshown
    obtain ⟨hmem, hid, hnone⟩ := hshown
    refine ⟨fun message hmessage heq => ?_, fun hgone => ?_⟩
    · obtain ⟨old, hmemOld, rfl⟩ := List.mem_map.mp hmessage
      have hsame : old = shown := by
        refine List.inj_on_of_nodup_map h.unique hmemOld hmem ?_
        rw [← heq]
        split <;> rfl
      rw [hsame, if_pos ⟨hid, hnone⟩]
      exact ⟨Option.some_ne_none now, hallowed shown hmem hid hnone⟩
    · refine absurd ?_ (hgone _ (List.mem_map_of_mem hmem))
      split <;> rfl

end

theorem Inv.act {s : State} (h : Inv s) {action : Action} (hallowed : Allowed s action) :
    Inv (s.act action) := by
  refine ⟨h.unique.act action, fun key hkey => ?_⟩
  cases action with
  | writeTask id status now => exact kept_writeTask h hallowed hkey
  | deleteTask id type =>
    exact (h.kept key (mem_forget.mp hkey).1).of_tasks fun row hrow _ =>
      (List.mem_filter.mp hrow).1
  | reconcile now => exact kept_reconcile h hallowed hkey
  | markRead id now =>
    refine (h.kept key hkey).of_map (fun m => ?_) (fun m => ?_) (fun m => ?_)
    · split <;> rfl
    · split <;> rfl
    · split <;> exact fun h => h
  | markAllRead now =>
    refine (h.kept key hkey).of_map (fun m => ?_) (fun m => ?_) (fun m => ?_)
    · split <;> rfl
    · split <;> rfl
    · split <;> exact fun h => h
  | dismiss id now => exact kept_dismiss h hallowed hkey

/-! ### Runs -/

/-- There is never more than one message about a row in a status, and in a run of allowed steps no
message is shown again that was dismissed while its row keeps the status. -/
theorem messages_stable (actions : List Action) :
    Always State.act State.Unique initial actions ∧
      (Along State.act Allowed initial actions → Always State.act State.Lasting initial actions) := by
  refine ⟨?_, fun hallowed => ?_⟩
  · have hall : Along State.act (fun _ _ => True) initial actions :=
      along_iff_prefix.mpr fun _ _ _ => trivial
    exact hall.always (fun _ action h _ => h.act action) unique_initial
  · have hinv : Always State.act Inv initial actions :=
      hallowed.always (fun _ _ h hstep => h.act hstep) inv_initial
    exact hinv.mono fun _ h key hkey => (h.kept key hkey).not_visible

/-- An upgrade fails on the second of March; its message is dismissed, and the centre is listed on
the last of May and on the first of June. -/
def juneRun : List Action :=
  [.writeTask "upgrade" (.nodeUpgrade .failed) 1772452800000000000,
    .reconcile 1772456400000000000, .dismiss 0 1772460000000000000,
    .reconcile 1780228800000000000, .reconcile 1780315200000000000]

/-- The limit of the first of June is the first of March, and that of the last of May the third. -/
theorem juneRun_shows_again :
    (juneRun.filterMap Action.time).Pairwise (· ≤ ·) ∧
      ("upgrade", SourceStatus.nodeUpgrade .failed) ∈ (run State.act initial juneRun).dismissed ∧
      (run State.act initial juneRun).Visible ("upgrade", .nodeUpgrade .failed) := by
  have hstate : run State.act initial juneRun =
      ⟨⟨[⟨"upgrade", .nodeUpgrade .failed, 1772452800000000000⟩],
        [⟨1, ("upgrade", .nodeUpgrade .failed), none, none, 1772452800000000000⟩], 2⟩,
        [("upgrade", .nodeUpgrade .failed)], stamp 1772539200000000000⟩ := by decide +kernel
  rw [hstate]
  exact ⟨by decide, List.mem_cons_self, _, List.mem_cons_self, rfl, rfl⟩

/-- The uninstall of a node has failed and its message was dismissed; the node is revoked four
months later, which sets the time of the job and leaves its status. -/
def revokedRun : List Action :=
  [.writeTask "node:1" (.nodeUninstall .failed) 1772452800000000000,
    .reconcile 1772456400000000000, .dismiss 0 1772460000000000000,
    .reconcile 1783000000000000000,
    .writeTask "node:1" (.nodeUninstall .failed) 1783000001000000000,
    .reconcile 1783000002000000000]

theorem revokedRun_shows_again :
    ¬ (run State.act initial revokedRun).Lasting := by
  have hstate : run State.act initial revokedRun =
      ⟨⟨[⟨"node:1", .nodeUninstall .failed, 1783000001000000000⟩],
        [⟨1, ("node:1", .nodeUninstall .failed), none, none, 1783000001000000000⟩], 2⟩,
        [("node:1", .nodeUninstall .failed)],
        stamp (threeMonthsBefore 1783000002000000000)⟩ := by decide +kernel
  rw [hstate]
  exact fun h => h _ List.mem_cons_self ⟨_, List.mem_cons_self, rfl, rfl⟩

/-- A message that is dismissed in April stays so when it is deleted in July. -/
theorem julyRun_stable :
    Always State.act State.Lasting initial
      [.writeTask "upgrade" (.nodeUpgrade .failed) 1775044800000000000,
        .reconcile 1775048400000000000, .dismiss 0 1775052000000000000,
        .reconcile 1783000000000000000, .reconcile 1783000002000000000] :=
  (messages_stable _).2 (by decide +kernel)

end SimpleCdn.Dismissal
