import SimpleCdn.Domain.Settings
import SimpleCdn.Store.Schema

/-!
# Control settings

The one row of `control_settings` and the table of encrypted secrets.  An upsert of some columns
gives the others their defaults when the row is not there yet.  The two JSON columns are held as
the lists they encode; a category list may be JSON `null`.
-/

namespace SimpleCdn

structure SMTPSettings where
  override : Bool
  enabled : Bool
  host : String
  port : Int
  username : String
  fromAddress : String
  recipients : List String
  notificationCategories : Option (List String)
  security : String
  deriving DecidableEq

structure ControlSettings where
  dnsDefaultTTLSeconds : Int
  cacheDefaultSizeGB : Int
  branding : BrandingSettings
  smtp : SMTPSettings
  backupOverride : Bool
  backup : BackupSettings
  updatedAt : Option Time
  deriving DecidableEq

/-- The row of `control_settings`. -/
structure ControlSettingsRow where
  dnsDefaultTTLSeconds : Int
  cacheDefaultSizeGB : Int
  smtp : SMTPSettings
  backupOverride : Bool
  backup : BackupSettings
  branding : BrandingSettings
  updatedAt : Time
  deriving DecidableEq

structure SecretRow where
  name : String
  ciphertext : List UInt8
  updatedAt : Time
  deriving DecidableEq

instance : Keyed SecretRow String := ⟨SecretRow.name⟩

@[simp] theorem key_secretRow (row : SecretRow) : key row = row.name := rfl

structure SettingsStore where
  controlSettings : Option ControlSettingsRow
  secrets : Table SecretRow

def SettingsStore.empty : SettingsStore := ⟨none, ∅⟩

def secretCloudflareAPIToken : String := "cloudflare_api_token"
def secretSMTPPassword : String := "smtp_password"
def secretBackupAccessKey : String := "backup_s3_secret_access_key"
def secretBackupPassword : String := "backup_restic_password"

/-- `defaultSMTPNotificationCategories`. -/
def smtpNotificationCategories : List String :=
  ["availability", "monitoring", "certificate", "backup"]

/-- The columns' defaults. -/
def defaultControlSettingsRow (now : Time) : ControlSettingsRow where
  dnsDefaultTTLSeconds := 60
  cacheDefaultSizeGB := 1
  smtp := ⟨false, false, "", 587, "", "", [], some smtpNotificationCategories, "starttls"⟩
  backupOverride := false
  backup := ⟨"", "", "us-east-1", "03:25", 1200⟩
  branding := ⟨"simple_cdn", "控制面板", ""⟩
  updatedAt := now

namespace SettingsStore

/-! ### Reading -/

/-- `ControlSettings`, of a row that is there. -/
def readControlSettings (packages : SettingsPackages) (row : ControlSettingsRow) :
    Except StoreError ControlSettings := do
  (validateDNSTTLSeconds row.dnsDefaultTTLSeconds).mapError fun text =>
    .wrapped "stored DNS TTL" (.message text)
  (validateCacheMaxSizeGB row.cacheDefaultSizeGB).mapError fun text =>
    .wrapped "stored cache default" (.message text)
  let branding := normalizeBrandingSettings row.branding
  (validateBrandingSettings packages branding).mapError fun text =>
    .wrapped "stored branding settings" (.message text)
  return {
    dnsDefaultTTLSeconds := row.dnsDefaultTTLSeconds
    cacheDefaultSizeGB := row.cacheDefaultSizeGB
    branding := branding
    smtp := {
      row.smtp with
      notificationCategories := some
        (row.smtp.notificationCategories.getD smtpNotificationCategories) }
    backupOverride := row.backupOverride
    backup := normalizeBackupSettings row.backup
    updatedAt := some row.updatedAt }

def readSettings (db : SettingsStore) (packages : SettingsPackages) :
    Except StoreError ControlSettings :=
  match db.controlSettings with
  | some row => readControlSettings packages row
  | none =>
    return {
      dnsDefaultTTLSeconds := 60
      cacheDefaultSizeGB := 1
      branding := defaultBrandingSettings
      smtp := ⟨false, false, "", 0, "", "", [], some smtpNotificationCategories, ""⟩
      backupOverride := false
      backup := ⟨"", "", defaultBackupRegion, defaultBackupTime, 1200⟩
      updatedAt := none }

def secret (db : SettingsStore) (name : String) : Except StoreError (List UInt8) := do
  let row ← orError (db.secrets.find? name) .notFound
  return row.ciphertext

/-! ### Writing -/

/-- `INSERT INTO control_settings … ON CONFLICT(id) DO UPDATE`, setting some columns. -/
def upsertSettings (db : SettingsStore) (now : Time)
    (f : ControlSettingsRow → ControlSettingsRow) : SettingsStore :=
  { db with
    controlSettings := some {
      f (db.controlSettings.getD (defaultControlSettingsRow now)) with updatedAt := now } }

/-- `UPDATE control_settings … WHERE id=1`. -/
def updateSettings (db : SettingsStore) (now : Time)
    (f : ControlSettingsRow → ControlSettingsRow) : SettingsStore :=
  { db with controlSettings := db.controlSettings.map fun row => { f row with updatedAt := now } }

def upsertSecret (db : SettingsStore) (name : String) (ciphertext : List UInt8) (now : Time) :
    SettingsStore :=
  { db with secrets := db.secrets.upsert ⟨name, ciphertext, now⟩ }

def deleteSecrets (db : SettingsStore) (names : List String) : SettingsStore :=
  { db with secrets := db.secrets.delete fun row => names.contains row.name }

def saveBrandingSettings (db : SettingsStore) (packages : SettingsPackages)
    (settings : BrandingSettings) (now : Time) : Except StoreError SettingsStore := do
  let settings := normalizeBrandingSettings settings
  (validateBrandingSettings packages settings).mapError StoreError.message
  return db.upsertSettings now fun row => { row with branding := settings }

def saveDNSDefaultTTL (db : SettingsStore) (seconds : Int) (now : Time) :
    Except StoreError SettingsStore := do
  (validateDNSTTLSeconds seconds).mapError StoreError.message
  return db.upsertSettings now fun row => { row with dnsDefaultTTLSeconds := seconds }

def saveCacheDefaultSizeGB (db : SettingsStore) (size : Int) (now : Time) :
    Except StoreError SettingsStore := do
  (validateCacheMaxSizeGB size).mapError StoreError.message
  return db.upsertSettings now fun row => { row with cacheDefaultSizeGB := size }

def setSecret (db : SettingsStore) (name : String) (ciphertext : List UInt8) (now : Time) :
    Except StoreError SettingsStore := do
  require (Text.trimSpace name ≠ "" ∧ ciphertext ≠ [])
    (.message "secret name and ciphertext are required")
  return db.upsertSecret name ciphertext now

def deleteSecret (db : SettingsStore) (name : String) : Except StoreError SettingsStore := do
  require (Text.trimSpace name ≠ "") (.message "secret name is required")
  return db.deleteSecrets [name]

def saveSMTPSettings (db : SettingsStore) (settings : SMTPSettings)
    (passwordCiphertext : List UInt8) (replacePassword : Bool) (now : Time) : SettingsStore :=
  let categories := settings.notificationCategories.getD smtpNotificationCategories
  let saved := db.upsertSettings now fun row =>
    { row with
      smtp := { settings with override := true, notificationCategories := some categories } }
  if replacePassword then
    if passwordCiphertext.isEmpty then saved.deleteSecrets [secretSMTPPassword]
    else saved.upsertSecret secretSMTPPassword passwordCiphertext now
  else saved

def clearSMTPSettings (db : SettingsStore) (now : Time) : SettingsStore :=
  (db.updateSettings now fun row => { row with smtp := { row.smtp with override := false } }
    ).deleteSecrets [secretSMTPPassword]

/-- A secret of the backup profile, written only when it is replaced. -/
def replaceSecret (db : SettingsStore) (name : String) (ciphertext : List UInt8) (replace : Bool)
    (required : String) (now : Time) : Except StoreError SettingsStore :=
  if replace then do
    require (ciphertext ≠ []) (.message required)
    return db.upsertSecret name ciphertext now
  else return db

def saveBackupSettings (db : SettingsStore) (settings : BackupSettings)
    (accessKeyCiphertext : List UInt8) (replaceAccessKey : Bool)
    (passwordCiphertext : List UInt8) (replacePassword : Bool) (now : Time) :
    Except StoreError SettingsStore := do
  let settings := normalizeBackupSettings settings
  let db := db.upsertSettings now fun row => { row with backupOverride := true, backup := settings }
  let db ← db.replaceSecret secretBackupAccessKey accessKeyCiphertext replaceAccessKey
    "encrypted S3 secret access key is required" now
  db.replaceSecret secretBackupPassword passwordCiphertext replacePassword
    "encrypted Restic repository password is required" now

def clearBackupSettings (db : SettingsStore) (now : Time) : SettingsStore :=
  (db.updateSettings now fun row => { row with backupOverride := false }).deleteSecrets
    [secretBackupAccessKey, secretBackupPassword]

end SettingsStore

end SimpleCdn
