import SimpleCdn.Store.Schema

/-!
# Delivered notifications

For each key the table holds whether its incident is still active, and when a message about it was
last delivered.  Keys are taken as trimmed, as those of all callers are.
-/

namespace SimpleCdn

structure NotificationDeliveryState where
  key : String
  active : Bool
  lastSentAt : Time
  deriving DecidableEq

instance : Keyed NotificationDeliveryState String := ⟨NotificationDeliveryState.key⟩

@[simp] theorem key_notificationDeliveryState (state : NotificationDeliveryState) :
    key state = state.key := rfl

structure NotificationStore where
  deliveries : Table NotificationDeliveryState

namespace NotificationStore

def empty : NotificationStore := ⟨∅⟩

/-- `NotificationDeliveryState`; none is `ErrNotFound`. -/
def deliveryState (db : NotificationStore) (key : String) : Option NotificationDeliveryState :=
  db.deliveries.find? key

def markNotificationDelivered (db : NotificationStore) (key : String) (active : Bool)
    (sentAt : Time) : NotificationStore :=
  ⟨db.deliveries.upsert ⟨key, active, sentAt⟩⟩

def resolveNotificationDelivery (db : NotificationStore) (key : String) : NotificationStore :=
  ⟨db.deliveries.update (fun state => state.key = key) fun state => { state with active := false }⟩

variable {db : NotificationStore} {key key' : String} {active : Bool} {sentAt : Time}

@[simp] theorem deliveryState_mark : (db.markNotificationDelivered key active sentAt).deliveryState
    key' = if key = key' then some ⟨key, active, sentAt⟩ else db.deliveryState key' := by
  unfold markNotificationDelivered deliveryState
  rw [Table.find?_upsert]
  rfl

@[simp] theorem deliveryState_resolve : (db.resolveNotificationDelivery key).deliveryState key' =
    if key' = key then (db.deliveryState key').map fun state => { state with active := false }
    else db.deliveryState key' := by
  unfold resolveNotificationDelivery deliveryState
  rw [Table.find?_update]
  cases hfind : db.deliveries.find? key' with
  | none => simp
  | some state =>
    have hkey : state.key = key' := Table.key_of_find? hfind
    by_cases hsame : key' = key
    · simp [hkey, hsame]
    · simp [hkey, hsame]

end NotificationStore

end SimpleCdn
