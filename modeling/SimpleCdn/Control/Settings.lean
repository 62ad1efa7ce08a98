import SimpleCdn.Store.Settings

/-!
# The settings manager

The control plane keeps the effective settings in memory: what the database overrides, and what
the environment gives otherwise.  They are loaded when the manager is made, and each operation
writes the database first and then its part of the memory.

A call draws the nonces of its encryptions, and a call of the store may fail.
-/

namespace SimpleCdn

/-- The encryption of secrets. -/
structure Cipher where
  encrypt : Nat → String → List UInt8
  decrypt : List UInt8 → Except String String
  decrypt_nil : decrypt [] = .error "ciphertext is too short"
  decrypt_encrypt : ∀ nonce plaintext, decrypt (encrypt nonce plaintext) = .ok plaintext

theorem Cipher.encrypt_ne_nil (cipher : Cipher) (nonce : Nat) (plaintext : String) :
    cipher.encrypt nonce plaintext ≠ [] := by
  intro hnil
  have h := cipher.decrypt_encrypt nonce plaintext
  rw [hnil, cipher.decrypt_nil] at h
  cases h

structure SMTPProfile where
  enabled : Bool
  host : String
  port : Int
  username : String
  fromAddress : String
  recipients : List String
  /-- A list that is not given is not an empty one. -/
  notificationCategories : Option (List String)
  security : String
  deriving DecidableEq

structure EnvironmentSettings where
  cloudflareAPIToken : String
  smtp : SMTPProfile
  smtpPassword : String
  backup : BackupSettings
  backupAccessKey : String
  backupPassword : String
  deriving DecidableEq

structure SettingsManager where
  env : EnvironmentSettings
  dnsTTL : Int
  cacheSizeGB : Int
  branding : BrandingSettings
  token : String
  tokenDB : Bool
  smtp : SMTPProfile
  smtpPass : String
  smtpDB : Bool
  backup : BackupSettings
  backupSecret : String
  backupPass : String
  backupDB : Bool
  deriving DecidableEq

/-! ### SMTP profiles -/

/-- The non-empty values, without those whose key has been there before. -/
def distinctBy (key : String → String) : List String → List String → List String
  | _, [] => []
  | seen, value :: values =>
    if value = "" ∨ key value ∈ seen then distinctBy key seen values
    else value :: distinctBy key (key value :: seen) values

def normalizeSMTPProfile (packages : SettingsPackages) (profile : SMTPProfile) : SMTPProfile :=
  let security := packages.toLower (Text.trimSpace profile.security)
  { profile with
    host := Text.trimSpace profile.host
    username := Text.trimSpace profile.username
    fromAddress := Text.trimSpace profile.fromAddress
    security := security
    port := if profile.port = 0 then (if security = "tls" then 465 else 587) else profile.port
    recipients := distinctBy packages.toLower [] (profile.recipients.map Text.trimSpace)
    notificationCategories := some <| match profile.notificationCategories with
      | none => smtpNotificationCategories
      | some categories => distinctBy id []
        (categories.map fun category => packages.toLower (Text.trimSpace category)) }

def cloneSMTPProfile (profile : SMTPProfile) : SMTPProfile :=
  { profile with notificationCategories := some (profile.notificationCategories.getD []) }

def smtpProfileFromStore (packages : SettingsPackages) (settings : SMTPSettings) : SMTPProfile :=
  normalizeSMTPProfile packages {
    enabled := settings.enabled
    host := settings.host
    port := settings.port
    username := settings.username
    fromAddress := settings.fromAddress
    recipients := settings.recipients
    notificationCategories := settings.notificationCategories
    security := settings.security }

def smtpProfileToStore (profile : SMTPProfile) : SMTPSettings where
  override := true
  enabled := profile.enabled
  host := profile.host
  port := profile.port
  username := profile.username
  fromAddress := profile.fromAddress
  recipients := profile.recipients
  notificationCategories := some (profile.notificationCategories.getD [])
  security := profile.security

/-- `parseMailbox` finds an address. -/
def parseMailbox (packages : SettingsPackages) (value : String) : Except String Unit := do
  let value := Text.trimSpace value
  require (containsAny value ['\r', '\n'] = false) "address contains invalid characters"
  require (packages.parsesAddress value = true) "invalid email address"

/-- `SMTPNotifier.Validate`. -/
def validateSMTPNotifier (packages : SettingsPackages) (profile : SMTPProfile) :
    Except String Unit := do
  require (Text.trimSpace profile.host ≠ "" ∧ containsAny profile.host ['\r', '\n'] = false)
    "SMTP host is required"
  require (1 ≤ profile.port ∧ profile.port ≤ 65535) "SMTP port must be between 1 and 65535"
  require (profile.security = "starttls" ∨ profile.security = "tls")
    "SMTP security must be starttls or tls"
  require (Text.trimSpace profile.fromAddress ≠ "") "SMTP from address is required"
  (parseMailbox packages profile.fromAddress).mapError ("SMTP from address: " ++ ·)
  require (profile.recipients ≠ []) "at least one SMTP recipient is required"
  profile.recipients.forM fun recipient =>
    (parseMailbox packages recipient).mapError ("SMTP recipient: " ++ ·)
  require (containsAny profile.username ['\r', '\n'] = false)
    "SMTP username contains invalid characters"

/-- `ValidNotificationCategory`. -/
def validNotificationCategory (category : String) : Bool :=
  smtpNotificationCategories.contains category

def validateCategory (category : String) : Except String Unit :=
  require (validNotificationCategory category = true)
    ("unsupported SMTP notification category " ++ category.quote)

def validateSMTP (packages : SettingsPackages) (profile : SMTPProfile) (password : String) :
    Except String SMTPProfile := do
  let profile := normalizeSMTPProfile packages profile
  require (1 ≤ profile.port ∧ profile.port ≤ 65535) "SMTP port must be between 1 and 65535"
  require (profile.security = "starttls" ∨ profile.security = "tls")
    "SMTP security must be starttls or tls"
  require (∀ value ∈ [profile.host, profile.username, profile.fromAddress] ++ profile.recipients,
    containsAny value ['\r', '\n'] = false) "SMTP settings contain invalid characters"
  (profile.notificationCategories.getD []).forM validateCategory
  if profile.enabled then
    require (profile.username = "" ∨ password ≠ "")
      "SMTP password is required when username is configured"
    validateSMTPNotifier packages profile
  return profile

/-! ### Loading -/

/-- A stored secret; an error if it cannot be decrypted. -/
def loadSecret (cipher : Cipher) (db : SettingsStore) (name label : String) :
    Except StoreError (Option String) :=
  match db.secrets.find? name with
  | some row => do
    let plaintext ← (cipher.decrypt row.ciphertext).mapError fun text =>
      .wrapped ("decrypt " ++ label) (.message text)
    return some plaintext
  | none => return none

/-- What `NewSettingsManager` makes of the environment. -/
def normalizeEnvironment (packages : SettingsPackages) (env : EnvironmentSettings) :
    EnvironmentSettings :=
  { env with
    cloudflareAPIToken := Text.trimSpace env.cloudflareAPIToken
    smtp := normalizeSMTPProfile packages env.smtp
    backup := normalizeBackupSettings env.backup }

/-- The effective token, and whether it is the database's. -/
def loadToken (cipher : Cipher) (db : SettingsStore) (env : EnvironmentSettings) :
    Except StoreError (String × Bool) := do
  let stored ← loadSecret cipher db secretCloudflareAPIToken "Cloudflare API token"
  return match stored with
    | some token => (token, true)
    | none => (env.cloudflareAPIToken, false)

def loadSMTP (packages : SettingsPackages) (cipher : Cipher) (db : SettingsStore)
    (persisted : SMTPSettings) (env : EnvironmentSettings) :
    Except StoreError (SMTPProfile × String × Bool) :=
  if persisted.override then do
    let password ← loadSecret cipher db secretSMTPPassword "SMTP password"
    return (smtpProfileFromStore packages persisted, password.getD "", true)
  else return (env.smtp, env.smtpPassword, false)

def loadBackup (cipher : Cipher) (db : SettingsStore) (override : Bool)
    (persisted : BackupSettings) (env : EnvironmentSettings) :
    Except StoreError (BackupSettings × String × String × Bool) :=
  if override then do
    let secret ← orError (← loadSecret cipher db secretBackupAccessKey "S3 secret access key")
      (.message "stored backup override is missing the S3 secret access key")
    let password ← orError
      (← loadSecret cipher db secretBackupPassword "Restic repository password")
      (.message "stored backup override is missing the Restic repository password")
    return (normalizeBackupSettings persisted, secret, password, true)
  else return (env.backup, env.backupAccessKey, env.backupPassword, false)

def newSettingsManager (packages : SettingsPackages) (cipher : Cipher) (db : SettingsStore)
    (environment : EnvironmentSettings) : Except StoreError SettingsManager := do
  let env := normalizeEnvironment packages environment
  let persisted ← db.readSettings packages
  let token ← loadToken cipher db env
  let smtp ← loadSMTP packages cipher db persisted.smtp env
  let backup ← loadBackup cipher db persisted.backupOverride persisted.backup env
  return {
    env := env
    dnsTTL := persisted.dnsDefaultTTLSeconds
    cacheSizeGB := persisted.cacheDefaultSizeGB
    branding := normalizeBrandingSettings persisted.branding
    token := token.1
    tokenDB := token.2
    smtp := smtp.1
    smtpPass := smtp.2.1
    smtpDB := smtp.2.2
    backup := backup.1
    backupSecret := backup.2.1
    backupPass := backup.2.2.1
    backupDB := backup.2.2.2 }

/-! ### Operations -/

/-- A call of the store, which may fail without an effect. -/
def storeCall (failure : Option StoreError) (result : Except StoreError SettingsStore) :
    Except StoreError SettingsStore :=
  match failure with
  | some e => .error e
  | none => result

/-- An encryption, with the nonce that has been drawn if one could be. -/
def Cipher.seal (cipher : Cipher) (nonce : Option Nat) (plaintext : String) :
    Except StoreError (List UInt8) := do
  let nonce ← orError nonce (.message "unexpected EOF")
  return cipher.encrypt nonce plaintext

/-- An encryption of what is to be replaced. -/
def Cipher.sealIf (cipher : Cipher) (replace : Bool) (nonce : Option Nat) (plaintext : String) :
    Except StoreError (List UInt8) :=
  if replace then cipher.seal nonce plaintext else return []

namespace SettingsManager

variable (packages : SettingsPackages) (cipher : Cipher) (m : SettingsManager) (db : SettingsStore)
  (failure : Option StoreError) (now : Time)

def saveBranding (settings : BrandingSettings) :
    Except StoreError (SettingsManager × SettingsStore) := do
  let settings := normalizeBrandingSettings settings
  (validateBrandingSettings packages settings).mapError StoreError.message
  let db ← storeCall failure (db.saveBrandingSettings packages settings now)
  return ({ m with branding := settings }, db)

def saveDNSDefaultTTL (seconds : Int) : Except StoreError (SettingsManager × SettingsStore) := do
  (validateDNSTTLSeconds seconds).mapError StoreError.message
  let db ← storeCall failure (db.saveDNSDefaultTTL seconds now)
  return ({ m with dnsTTL := seconds }, db)

def saveCacheDefaultSizeGB (size : Int) : Except StoreError (SettingsManager × SettingsStore) := do
  (validateCacheMaxSizeGB size).mapError StoreError.message
  let db ← storeCall failure (db.saveCacheDefaultSizeGB size now)
  return ({ m with cacheSizeGB := size }, db)

def saveCloudflareToken (token : String) (nonce : Option Nat) :
    Except StoreError (SettingsManager × SettingsStore) := do
  let token := Text.trimSpace token
  require (token ≠ "") (.message "Cloudflare API token is required")
  let ciphertext ← cipher.seal nonce token
  let db ← storeCall failure (db.setSecret secretCloudflareAPIToken ciphertext now)
  return ({ m with token := token, tokenDB := true }, db)

def clearCloudflareToken : Except StoreError (SettingsManager × SettingsStore) := do
  let db ← storeCall failure (db.deleteSecret secretCloudflareAPIToken)
  return ({ m with token := m.env.cloudflareAPIToken, tokenDB := false }, db)

def saveSMTP (profile : SMTPProfile) (password : Option String) (nonce : Option Nat) :
    Except StoreError (SettingsManager × SettingsStore) := do
  let profile := normalizeSMTPProfile packages profile
  let resolvedPassword := if profile.username = "" then "" else password.getD m.smtpPass
  let validated ← (validateSMTP packages profile resolvedPassword).mapError StoreError.message
  let replacePassword := password.isSome || !m.smtpDB || validated.username = ""
  let encrypted ← cipher.sealIf (replacePassword && resolvedPassword ≠ "") nonce resolvedPassword
  let db ← storeCall failure
    (return db.saveSMTPSettings (smtpProfileToStore validated) encrypted replacePassword now)
  return ({ m with smtp := validated, smtpPass := resolvedPassword, smtpDB := true }, db)

def clearSMTP : Except StoreError (SettingsManager × SettingsStore) := do
  let db ← storeCall failure (return db.clearSMTPSettings now)
  return ({ m with
    smtp := cloneSMTPProfile m.env.smtp, smtpPass := m.env.smtpPassword, smtpDB := false }, db)

/-- `resolveBackupCandidate`: a secret that is not given is the current one. -/
def resolveBackupCandidate (settings : BackupSettings)
    (secretAccessKey resticPassword : Option String) :
    Except StoreError (BackupSettings × String × String) := do
  let settings := normalizeBackupSettings settings
  let secret := secretAccessKey.getD m.backupSecret
  let password := resticPassword.getD m.backupPass
  (validateBackupSettings settings secret password).mapError StoreError.message
  return (settings, secret, password)

def saveBackup (settings : BackupSettings) (secretAccessKey resticPassword : Option String)
    (nonce nonce' : Option Nat) : Except StoreError (SettingsManager × SettingsStore) := do
  let (settings, secret, password) ←
    m.resolveBackupCandidate settings secretAccessKey resticPassword
  let replaceAccessKey := secretAccessKey.isSome || !m.backupDB
  let replacePassword := resticPassword.isSome || !m.backupDB
  let encryptedAccessKey ← cipher.sealIf replaceAccessKey nonce secret
  let encryptedPassword ← cipher.sealIf replacePassword nonce' password
  let db ← storeCall failure (db.saveBackupSettings settings encryptedAccessKey replaceAccessKey
    encryptedPassword replacePassword now)
  return ({ m with
    backup := settings, backupSecret := secret, backupPass := password, backupDB := true }, db)

def clearBackup : Except StoreError (SettingsManager × SettingsStore) := do
  let db ← storeCall failure (return db.clearBackupSettings now)
  return ({ m with
    backup := m.env.backup
    backupSecret := m.env.backupAccessKey
    backupPass := m.env.backupPassword
    backupDB := false }, db)

end SettingsManager

end SimpleCdn
