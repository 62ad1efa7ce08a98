import Mathlib.Data.List.Sort
import SimpleCdn.Store.Schema
import SimpleCdn.Store.Stamps

/-!
# The message centre

Messages about tasks are derived from the task rows each time the centre is listed: a row in a
notable status that has been updated in the last three months gets a message, unless there is one
about it in that status.  The same transaction deletes the messages that were created before, if
they have been read or dismissed.  An administrator dismisses a message; its row stays until then.

Both limits are texts, and are compared as texts.  A row is named by its table and its ID; that of
an uninstall job is the node and the time the job was created.
-/

namespace SimpleCdn.MessageCentre

open Stamps

/-! ### Rows -/

/-- The tables messages are derived from, `source_type`. -/
inductive SourceType
  | deploymentTask
  | nodeUpgrade
  | nodeUninstall
  deriving DecidableEq, Repr

/-- The status of a row, with its table. -/
inductive SourceStatus
  | deploymentTask (status : TaskStatus)
  | nodeUpgrade (status : NodeUpgradeStatus)
  | nodeUninstall (status : NodeUninstallJobStatus)
  deriving DecidableEq, Repr

def SourceStatus.type : SourceStatus → SourceType
  | .deploymentTask _ => .deploymentTask
  | .nodeUpgrade _ => .nodeUpgrade
  | .nodeUninstall _ => .nodeUninstall

/-- The statuses a message is made about. -/
def SourceStatus.notified : SourceStatus → Bool
  | .deploymentTask status => [.queued, .succeeded, .partialSuccess, .failed].contains status
  | .nodeUpgrade status => [.queued, .succeeded, .failed].contains status
  | .nodeUninstall status =>
    [.preparing, .failed, .succeeded, .forced, .canceled].contains status

/-- `(source_id, source_type, source_status)` -/
abbrev Key := String × SourceStatus

structure TaskRow where
  id : String
  status : SourceStatus
  updatedAt : Int
  deriving DecidableEq, Repr

def TaskRow.key (row : TaskRow) : Key := (row.id, row.status)

/-- The row is that of the table with the ID. -/
def TaskRow.named (row : TaskRow) (id : String) (type : SourceType) : Bool :=
  row.id = id && row.status.type = type

structure Message where
  id : Nat
  key : Key
  readAt : Option Int
  dismissedAt : Option Int
  createdAt : Int
  deriving DecidableEq, Repr

/-- What the `DELETE` of a reconciliation looks for. -/
def Message.expired (message : Message) (cutoff : List UInt8) : Bool :=
  (message.readAt.isSome || message.dismissedAt.isSome) && decide (stamp message.createdAt < cutoff)

/-- `now().AddDate(0, -3, 0)` -/
def threeMonthsBefore (now : Int) : Int :=
  let seconds := secondsOf now
  let day := Calendar.toDays (dateOf seconds).minusThreeMonths - 719468
  (day * 86400 + seconds % 86400) * 1000000000 + nanosecondOf now

/-- `nextID` stands for the UUIDs that have not been used. -/
structure Centre where
  tasks : List TaskRow
  messages : List Message
  nextID : Nat
  deriving DecidableEq, Repr

namespace Centre

def empty : Centre := ⟨[], [], 0⟩

variable (centre : Centre)

/-! ### Tasks -/

/-- A task row is inserted or updated, at `now`. -/
def writeTask (id : String) (status : SourceStatus) (now : Int) : Centre :=
  { centre with
    tasks := ⟨id, status, now⟩ :: centre.tasks.filter fun row => !row.named id status.type }

def deleteTask (id : String) (type : SourceType) : Centre :=
  { centre with tasks := centre.tasks.filter fun row => !row.named id type }

/-! ### Messages -/

def hasMessage (key : Key) : Bool :=
  centre.messages.any fun message => message.key = key

/-- `MarkMessageRead` -/
def markMessageRead (id : Nat) (now : Int) : Centre :=
  { centre with
    messages := centre.messages.map fun message =>
      if message.id = id ∧ message.dismissedAt = none then
        { message with readAt := some (message.readAt.getD now) }
      else message }

/-- `MarkAllMessagesRead` -/
def markAllMessagesRead (now : Int) : Centre :=
  { centre with
    messages := centre.messages.map fun message =>
      if message.dismissedAt = none ∧ message.readAt = none then
        { message with readAt := some now }
      else message }

/-- `DeleteMessage` -/
def deleteMessage (id : Nat) (now : Int) : Centre :=
  { centre with
    messages := centre.messages.map fun message =>
      if message.id = id ∧ message.dismissedAt = none then
        { message with dismissedAt := some now }
      else message }

/-! ### Reconciling -/

/-- The rows one of the three queries finds. -/
def messageCandidates (type : SourceType) (cutoff : List UInt8) : List TaskRow :=
  ((centre.tasks.filter fun row => row.status.type = type && row.status.notified &&
      !decide (stamp row.updatedAt < cutoff) && !centre.hasMessage row.key).insertionSort
    fun a b => ¬ stamp b.updatedAt < stamp a.updatedAt).take 200

/-- `INSERT OR IGNORE` of the message about a row. -/
def insertMessage (row : TaskRow) : Centre :=
  if centre.hasMessage row.key then centre
  else
    { centre with
      messages := centre.messages ++ [⟨centre.nextID, row.key, none, none, row.updatedAt⟩]
      nextID := centre.nextID + 1 }

/-- `ReconcileTaskMessages` with the limit `cutoff`. -/
def reconcileWith (cutoff : List UInt8) : Centre :=
  let candidates := centre.messageCandidates .deploymentTask cutoff ++
    centre.messageCandidates .nodeUpgrade cutoff ++ centre.messageCandidates .nodeUninstall cutoff
  let inserted := candidates.foldl insertMessage centre
  { inserted with messages := inserted.messages.filter fun message => !message.expired cutoff }

/-- `ReconcileTaskMessages` -/
def reconcileTaskMessages (now : Int) : Centre :=
  centre.reconcileWith (stamp (threeMonthsBefore now))

/-! ### What the operations do to the messages -/

variable {centre}

theorem hasMessage_eq_true {key : Key} :
    centre.hasMessage key = true ↔ ∃ message ∈ centre.messages, message.key = key := by
  simp only [hasMessage, List.any_eq_true, decide_eq_true_eq]

theorem mem_messageCandidates {type : SourceType} {cutoff : List UInt8} {row : TaskRow}
    (h : row ∈ centre.messageCandidates type cutoff) :
    row ∈ centre.tasks ∧ ¬ stamp row.updatedAt < cutoff ∧ centre.hasMessage row.key = false := by
  have hmem := List.mem_filter.mp ((List.mem_insertionSort _).mp (List.mem_of_mem_take h))
  simp only [Bool.and_eq_true, Bool.not_eq_true', decide_eq_true_eq, decide_eq_false_iff_not]
    at hmem
  exact ⟨hmem.1, hmem.2.1.2, hmem.2.2⟩

/-- Inserting messages about rows keeps those there are and adds no second one about anything. -/
structure Extends (rows : List TaskRow) (centre result : Centre) : Prop where
  tasks : result.tasks = centre.tasks
  kept : ∀ message ∈ centre.messages, message ∈ result.messages
  added : ∀ message ∈ result.messages, message ∈ centre.messages ∨
    ∃ row ∈ rows, message.key = row.key ∧ message.dismissedAt = none ∧
      message.createdAt = row.updatedAt
  unique : (centre.messages.map Message.key).Nodup → (result.messages.map Message.key).Nodup

theorem extends_insertMessage (centre : Centre) (row : TaskRow) :
    Extends [row] centre (centre.insertMessage row) := by
  rw [insertMessage]
  split
  · exact ⟨rfl, fun _ h => h, fun _ h => Or.inl h, fun h => h⟩
  · next hnew =>
    refine ⟨rfl, fun _ h => List.mem_append_left _ h, fun message h => ?_, fun h => ?_⟩
    · rcases List.mem_append.mp h with h | h
      · exact Or.inl h
      · rw [List.mem_singleton.mp h]
        exact Or.inr ⟨row, List.mem_cons_self, rfl, rfl, rfl⟩
    · rw [List.map_append, List.nodup_append]
      refine ⟨h, List.nodup_singleton _, ?_⟩
      rintro key hkey _ hrow rfl
      obtain ⟨message, hmessage, heq⟩ := List.mem_map.mp hkey
      rw [List.map_singleton, List.mem_singleton] at hrow
      exact hnew (hasMessage_eq_true.mpr ⟨message, hmessage, heq.trans hrow⟩)

theorem extends_foldl (rows : List TaskRow) :
    ∀ centre : Centre, Extends rows centre (rows.foldl insertMessage centre) := by
  induction rows with
  | nil => exact fun _ => ⟨rfl, fun _ h => h, fun _ h => Or.inl h, fun h => h⟩
  | cons row rows ih =>
    intro centre
    have hfirst := extends_insertMessage centre row
    have hrest := ih (centre.insertMessage row)
    refine ⟨hrest.tasks.trans hfirst.tasks, fun m h => hrest.kept m (hfirst.kept m h),
      fun m h => ?_, fun h => hrest.unique (hfirst.unique h)⟩
    rcases hrest.added m h with h | ⟨r, hr, hmessage⟩
    · rcases hfirst.added m h with h | ⟨r, hr, hmessage⟩
      · exact Or.inl h
      · rw [List.mem_singleton.mp hr] at hmessage
        exact Or.inr ⟨row, List.mem_cons_self, hmessage⟩
    · exact Or.inr ⟨r, List.mem_cons_of_mem _ hr, hmessage⟩

/-- What a reconciliation leaves in the table. -/
structure Reconciled (cutoff : List UInt8) (centre result : Centre) : Prop where
  tasks : result.tasks = centre.tasks
  kept : ∀ message ∈ centre.messages, message.expired cutoff = false →
    message ∈ result.messages
  added : ∀ message ∈ result.messages, message ∈ centre.messages ∨
    ∃ row ∈ centre.tasks, message.key = row.key ∧ ¬ stamp row.updatedAt < cutoff ∧
      centre.hasMessage row.key = false
  unique : (centre.messages.map Message.key).Nodup → (result.messages.map Message.key).Nodup

theorem reconciled (centre : Centre) (cutoff : List UInt8) :
    Reconciled cutoff centre (centre.reconcileWith cutoff) := by
  have hinserted := extends_foldl (centre.messageCandidates .deploymentTask cutoff ++
    centre.messageCandidates .nodeUpgrade cutoff ++
    centre.messageCandidates .nodeUninstall cutoff) centre
  refine ⟨hinserted.tasks, fun m hm hkept => ?_, fun m hm => ?_, fun h => ?_⟩
  · exact List.mem_filter.mpr ⟨hinserted.kept m hm, by rw [hkept]; rfl⟩
  · rcases hinserted.added m (List.mem_filter.mp hm).1 with h | ⟨row, hrow, hkey, -⟩
    · exact Or.inl h
    · have hrow : row ∈ centre.tasks ∧ ¬ stamp row.updatedAt < cutoff ∧
          centre.hasMessage row.key = false := by
        simp only [List.mem_append] at hrow
        rcases hrow with (hrow | hrow) | hrow
        · exact mem_messageCandidates hrow
        · exact mem_messageCandidates hrow
        · exact mem_messageCandidates hrow
      exact Or.inr ⟨row, hrow.1, hkey, hrow.2⟩
  · exact (hinserted.unique h).sublist (List.filter_sublist.map _)

end Centre

end SimpleCdn.MessageCentre
