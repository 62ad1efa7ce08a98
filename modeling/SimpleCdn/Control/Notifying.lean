import SimpleCdn.Control.Settings
import SimpleCdn.Store.Notifications

/-!
# Notifications

`NotifyNotification` decides whether a message is sent.  A message that resolves an incident is sent
only for an incident that is active; another one may be held back while the incident of its key is
active, or for a while after the last message.  It says where the call ended; what a message looks
like on the wire is left out.
-/

namespace SimpleCdn

inductive NotificationCategory
  | availability
  | monitoring
  | certificate
  | backup
  /-- Any other text; it counts as `availability`. -/
  | other (text : String)
  deriving DecidableEq

def NotificationCategory.text : NotificationCategory → String
  | .availability => "availability"
  | .monitoring => "monitoring"
  | .certificate => "certificate"
  | .backup => "backup"
  | .other text => text

inductive NotificationSeverity
  | info
  | success
  | warning
  | error
  deriving DecidableEq

structure NotificationDetail where
  label : String
  value : String
  deriving DecidableEq

structure Notification where
  category : NotificationCategory
  severity : NotificationSeverity
  subject : String
  message : String
  details : List NotificationDetail
  occurredAt : Time
  key : String
  cooldown : Time
  suppressUntilResolved : Bool
  resolved : Bool
  notifyOnResolve : Bool
  deriving DecidableEq

/-- The calls that a call of `NotifyNotification` makes may fail. -/
structure NotifyFailures where
  read : Bool
  deliver : Bool
  write : Bool
  deriving DecidableEq

def noFailures : NotifyFailures := ⟨false, false, false⟩

/-- Where a call ends. -/
inductive Handling
  /-- Nothing to send. -/
  | ignored
  /-- The incident of the key is active already. -/
  | suppressed
  /-- The last message is not a cooldown ago. -/
  | cooling
  /-- The delivery state could not be read. -/
  | unread
  | undelivered
  /-- Sent, and written down if there was anything to write. -/
  | delivered
  /-- Sent, but not written down. -/
  | unrecorded
  /-- The incident is over, without a message. -/
  | closed
  | unclosed
  deriving DecidableEq

/-- The call returned an error. -/
def Handling.failed : Handling → Bool
  | .unread | .undelivered | .unrecorded | .unclosed => true
  | _ => false

/-- A message went out. -/
def Handling.sent : Handling → Bool
  | .delivered | .unrecorded => true
  | _ => false

def smtpNotificationCategoryEnabled (profile : SMTPProfile) (category : NotificationCategory) :
    Bool :=
  (profile.notificationCategories.getD []).contains category.text

/-- An invalid category becomes the first one. -/
def effectiveCategory (category : NotificationCategory) : NotificationCategory :=
  if validNotificationCategory category.text then category else .availability

/-- The profile lets messages of the category through. -/
def notifies (profile : SMTPProfile) (category : NotificationCategory) : Bool :=
  profile.enabled && smtpNotificationCategoryEnabled profile (effectiveCategory category)

namespace NotificationStore

/-- A message goes out; `after` is written down. -/
def deliver (db after : NotificationStore) (failures : NotifyFailures) :
    Handling × NotificationStore :=
  if failures.deliver then (.undelivered, db)
  else if failures.write then (.unrecorded, db)
  else (.delivered, after)

/-- A message that ends an incident. -/
def notifyResolved (db : NotificationStore) (readOnly enabled : Bool)
    (notification : Notification) (failures : NotifyFailures) : Handling × NotificationStore :=
  if failures.read then (.unread, db)
  else match db.deliveryState notification.key with
  | none => (.ignored, db)
  | some state =>
    let announces := enabled && notification.notifyOnResolve
    let resolved := db.resolveNotificationDelivery notification.key
    if state.active = false then (.ignored, db)
    else if readOnly then
      if announces then db.deliver db { failures with write := false } else (.ignored, db)
    else if announces then db.deliver resolved failures
    else if failures.write then (.unclosed, db)
    else (.closed, resolved)

/-- The last message of the key is not a cooldown ago. -/
def coolingDown (db : NotificationStore) (key : String) (cooldown now : Time) : Bool :=
  (db.deliveryState key).any fun state => 0 < cooldown && now < state.lastSentAt + cooldown

/-- The incident of the key is active. -/
def incidentActive (db : NotificationStore) (key : String) : Bool :=
  (db.deliveryState key).any NotificationDeliveryState.active

/-- A message about an incident that has a key. -/
def notifyIncident (db : NotificationStore) (notification : Notification)
    (failures : NotifyFailures) (now : Time) : Handling × NotificationStore :=
  if failures.read then (.unread, db)
  else if notification.suppressUntilResolved && db.incidentActive notification.key then
    (.suppressed, db)
  else if db.coolingDown notification.key notification.cooldown now then (.cooling, db)
  else db.deliver (db.markNotificationDelivered notification.key true now) failures

def notifyNotification (db : NotificationStore) (profile : SMTPProfile) (readOnly : Bool)
    (notification : Notification) (failures : NotifyFailures) (now : Time) :
    Handling × NotificationStore :=
  let enabled := notifies profile notification.category
  if notification.resolved && notification.key ≠ "" then
    db.notifyResolved readOnly enabled notification failures
  else if enabled = false then (.ignored, db)
  else if readOnly || notification.key = "" then db.deliver db { failures with write := false }
  else db.notifyIncident notification failures now

/-! ### What a call writes -/

section

variable {db after : NotificationStore} {readOnly enabled active : Bool}
  {notification : Notification} {failures : NotifyFailures} {now sentAt : Time} {key key' : String}

theorem deliver_db (db after : NotificationStore) (failures : NotifyFailures) :
    (db.deliver after failures).2 = db ∨
      (db.deliver after failures).1 = .delivered ∧ (db.deliver after failures).2 = after := by
  unfold deliver
  split
  · exact .inl rfl
  · split
    · exact .inl rfl
    · exact .inr ⟨rfl, rfl⟩

theorem notifyResolved_db : (db.notifyResolved readOnly enabled notification failures).2 = db ∨
    (db.notifyResolved readOnly enabled notification failures).2 =
      db.resolveNotificationDelivery notification.key := by
  unfold notifyResolved
  split
  · exact .inl rfl
  · split
    · exact .inl rfl
    · simp only
      split
      · exact .inl rfl
      · split
        · split
          · rcases deliver_db db db { failures with write := false } with hsame | ⟨-, hafter⟩
            · exact .inl hsame
            · exact .inl hafter
          · exact .inl rfl
        · split
          · rcases deliver_db db (db.resolveNotificationDelivery notification.key) failures with
              hsame | ⟨-, hafter⟩
            · exact .inl hsame
            · exact .inr hafter
          · split
            · exact .inl rfl
            · exact .inr rfl

/-- A message about an incident is written down only when it has gone out. -/
theorem notifyIncident_db : (db.notifyIncident notification failures now).2 = db ∨
    (db.notifyIncident notification failures now).1 = .delivered ∧
      (db.notifyIncident notification failures now).2 =
        db.markNotificationDelivered notification.key true now := by
  unfold notifyIncident
  split
  · exact .inl rfl
  · split
    · exact .inl rfl
    · split
      · exact .inl rfl
      · exact deliver_db db _ failures

/-- An active incident whose calls succeed is over afterwards. -/
theorem notifyResolved_ends (hread : failures.read = false) (hwrite : failures.write = false)
    (hdeliver : enabled = true → failures.deliver = false) :
    (db.notifyResolved false enabled notification failures).2.incidentActive notification.key =
      false := by
  have hresolved : (db.resolveNotificationDelivery notification.key).incidentActive
      notification.key = false := by
    unfold incidentActive
    rw [deliveryState_resolve, if_pos rfl]
    cases db.deliveryState notification.key with
    | none => rfl
    | some state => rfl
  unfold notifyResolved
  rw [if_neg (by rw [hread]; nofun)]
  split
  · next hnone =>
    rw [incidentActive, hnone]
    rfl
  · next state hstate =>
    simp only
    split
    · next hinactive =>
      rw [incidentActive, hstate]
      exact hinactive
    · simp only [Bool.false_eq_true, if_false]
      split
      · next hannounces =>
        have henabled : enabled = true := (Bool.and_eq_true _ _ ▸ hannounces).1
        rw [deliver, if_neg (by rw [hdeliver henabled]; nofun), if_neg (by rw [hwrite]; nofun)]
        exact hresolved
      · rw [if_neg (by rw [hwrite]; nofun)]
        exact hresolved

theorem notifyResolved_inactive (h : db.incidentActive notification.key = false) :
    (db.notifyResolved readOnly enabled notification failures).2 = db := by
  unfold notifyResolved
  split
  · rfl
  · split
    · rfl
    · next state hstate =>
      rw [incidentActive, hstate] at h
      simp only [if_pos (show state.active = false from h)]

theorem incidentActive_mark_ne (h : key' ≠ key) :
    (db.markNotificationDelivered key active sentAt).incidentActive key' =
      db.incidentActive key' := by
  unfold incidentActive
  rw [deliveryState_mark, if_neg (Ne.symm h)]

theorem incidentActive_resolve_ne (h : key' ≠ key) :
    (db.resolveNotificationDelivery key).incidentActive key' = db.incidentActive key' := by
  unfold incidentActive
  rw [deliveryState_resolve, if_neg h]

end

end NotificationStore

end SimpleCdn
