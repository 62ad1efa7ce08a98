import SimpleCdn.Lib.Transition
import SimpleCdn.Store.Messages

/-!
# Dismissing messages

Task rows change, the centre is listed and its messages are read and dismissed, in any order.  A row
that takes another status, or goes away, ends what the messages about its old status were about.

`dismissed` is the set of the messages an administrator has dismissed, each for as long as its row
keeps the status; `cutoff` is the latest limit of the reconciliations so far, as texts are ordered.
No step decides by either.
-/

namespace SimpleCdn.Dismissal

open MessageCentre Stamps Transition

structure State where
  centre : Centre
  dismissed : List Key
  cutoff : List UInt8
  deriving DecidableEq

inductive Action
  | writeTask (id : String) (status : SourceStatus) (now : Int)
  | deleteTask (id : String) (type : SourceType)
  | reconcile (now : Int)
  | markRead (id : Nat) (now : Int)
  | markAllRead (now : Int)
  | dismiss (id : Nat) (now : Int)

/-- When the action is taken, where its time matters. -/
def Action.time : Action → Option Int
  | .writeTask _ _ now | .reconcile now | .markRead _ now | .markAllRead now | .dismiss _ now =>
    some now
  | .deleteTask .. => none

def initial : State := ⟨Centre.empty, [], []⟩

/-- A row in the status is there. -/
def State.hasTask (s : State) (key : Key) : Bool :=
  s.centre.tasks.any fun row => row.key = key

/-- What is about the row of the table ends. -/
def State.forget (s : State) (id : String) (type : SourceType) : List Key :=
  s.dismissed.filter fun key => !(key.1 = id && key.2.type = type)

/-- The keys of the messages that `DeleteMessage` dismisses. -/
def State.shown (s : State) (id : Nat) : List Key :=
  (s.centre.messages.filter fun message => message.id = id && message.dismissedAt = none).map
    Message.key

def State.act (s : State) : Action → State
  | .writeTask id status now =>
    { s with
      centre := s.centre.writeTask id status now
      dismissed := if s.hasTask (id, status) then s.dismissed else s.forget id status.type }
  | .deleteTask id type =>
    { s with centre := s.centre.deleteTask id type, dismissed := s.forget id type }
  | .reconcile now =>
    let cutoff := stamp (threeMonthsBefore now)
    { s with
      centre := s.centre.reconcileTaskMessages now
      cutoff := if s.cutoff < cutoff then cutoff else s.cutoff }
  | .markRead id now => { s with centre := s.centre.markMessageRead id now }
  | .markAllRead now => { s with centre := s.centre.markAllMessagesRead now }
  | .dismiss id now =>
    { s with centre := s.centre.deleteMessage id now, dismissed := s.shown id ++ s.dismissed }

/-- A message that is listed. -/
def State.Visible (s : State) (key : Key) : Prop :=
  ∃ message ∈ s.centre.messages, message.key = key ∧ message.dismissedAt = none

/-- At most one message is about each row in each status. -/
def State.Unique (s : State) : Prop :=
  (s.centre.messages.map Message.key).Nodup

/-- No dismissed message is shown while its row keeps the status. -/
def State.Lasting (s : State) : Prop :=
  ∀ key ∈ s.dismissed, ¬ s.Visible key

/-! ### One message about each status -/

theorem map_key_map {f : Message → Message} (hf : ∀ message, (f message).key = message.key)
    (messages : List Message) :
    (messages.map f).map Message.key = messages.map Message.key := by
  rw [List.map_map]
  exact List.map_congr_left fun message _ => hf message

theorem State.Unique.act {s : State} (h : s.Unique) (action : Action) : (s.act action).Unique := by
  cases action with
  | writeTask id status now => exact h
  | deleteTask id type => exact h
  | reconcile now => exact (Centre.reconciled s.centre _).unique h
  | markRead id now =>
    show ((s.centre.messages.map _).map Message.key).Nodup
    rw [map_key_map fun message => by split <;> rfl]
    exact h
  | markAllRead now =>
    show ((s.centre.messages.map _).map Message.key).Nodup
    rw [map_key_map fun message => by split <;> rfl]
    exact h
  | dismiss id now =>
    show ((s.centre.messages.map _).map Message.key).Nodup
    rw [map_key_map fun message => by split <;> rfl]
    exact h

theorem unique_initial : initial.Unique := List.nodup_nil

theorem unique_of_run (actions : List Action) : (run State.act initial actions).Unique :=
  run_invariant (fun _ action h => h.act action) unique_initial actions

end SimpleCdn.Dismissal
