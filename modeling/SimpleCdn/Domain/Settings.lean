import SimpleCdn.Domain.SiteLists
import SimpleCdn.Domain.Validate
import SimpleCdn.Lib.Url

/-!
# Settings

The values an administrator may set for the whole control plane, with their normalisers and
checks.  Sending mail, decoding images and the letters beyond ASCII belong to packages; what the
program uses of them is a parameter.
-/

namespace SimpleCdn

structure ImageConfig where
  width : Int
  height : Int
  format : String
  deriving DecidableEq

/-- What the settings use of packages. -/
structure SettingsPackages where
  /-- `strings.ToLower`. -/
  toLower : String → String
  toLower_ascii : ∀ s : String, s.toList.all Char.isLower = true → toLower s = s
  /-- `mail.ParseAddress` finds an address. -/
  parsesAddress : String → Bool
  /-- `base64.StdEncoding.DecodeString`. -/
  decodeBase64 : String → Option (List UInt8)
  /-- `image.DecodeConfig`. -/
  decodeConfig : List UInt8 → Option ImageConfig

/-- `strings.ContainsAny`. -/
def containsAny (s : String) (chars : List Char) : Bool :=
  s.toList.any chars.contains

def validateDNSTTLSeconds (value : Int) : Except String Unit :=
  require (60 ≤ value ∧ value ≤ 300) "DNS TTL must be between 60 and 300 seconds"

/-! ### Branding -/

structure BrandingSettings where
  name : String
  subtitle : String
  logoDataURL : String
  deriving DecidableEq

def defaultBrandingSettings : BrandingSettings := ⟨"simple_cdn", "控制面板", ""⟩

def normalizeBrandingSettings (settings : BrandingSettings) : BrandingSettings where
  name := Text.trimSpace settings.name
  subtitle := Text.trimSpace settings.subtitle
  logoDataURL := Text.trimSpace settings.logoDataURL

/-- `unicode.IsControl` holds of one of the characters. -/
def containsControlCharacter (value : String) : Bool :=
  value.toList.any fun c => c.toNat < 0x20 || (0x7f ≤ c.toNat && c.toNat ≤ 0x9f)

/-- `strings.Cut`. -/
def cutText (separator : List Char) : List Char → Option (List Char × List Char)
  | [] => none
  | c :: cs =>
    if separator.isPrefixOf (c :: cs) then some ([], (c :: cs).drop separator.length)
    else (cutText separator cs).map fun parts => (c :: parts.1, parts.2)

def maxBrandLogoBytes : Nat := 131072

/-- The format that a media type stands for. -/
def logoFormat (mediaType : List Char) : Option String :=
  if mediaType = "image/png".toList then some "png"
  else if mediaType = "image/jpeg".toList then some "jpeg"
  else none

def validateBrandLogoDataURL (packages : SettingsPackages) (value : String) :
    Except String Unit := do
  if value = "" then return ()
  let (metadata, encoded) ← orError (cutText ";base64,".toList value.toList)
    "brand logo must be a base64-encoded PNG or JPEG image"
  let mediaType := if "data:".toList.isPrefixOf metadata then metadata.drop 5 else metadata
  let expectedFormat ← orError (logoFormat mediaType) "brand logo must be a PNG or JPEG image"
  require (Text.byteLength (String.ofList encoded) ≤ (maxBrandLogoBytes + 2) / 3 * 4)
    "brand logo is too large"
  let contents ← orError ((packages.decodeBase64 (String.ofList encoded)).filter (· ≠ []))
    "brand logo contains invalid base64 image data"
  require (contents.length ≤ maxBrandLogoBytes) "brand logo is too large"
  let config ← orError ((packages.decodeConfig contents).filter (·.format = expectedFormat))
    "brand logo image data does not match its media type"
  require (0 < config.width ∧ 0 < config.height ∧ config.width ≤ 1024 ∧ config.height ≤ 1024)
    "brand logo dimensions must not exceed 1024 by 1024 pixels"

def validateBrandingSettings (packages : SettingsPackages) (settings : BrandingSettings) :
    Except String Unit := do
  let settings := normalizeBrandingSettings settings
  require (settings.name ≠ "") "brand name is required"
  require (settings.name.length ≤ 48) "brand name is too long"
  require (settings.subtitle.length ≤ 80) "brand subtitle is too long"
  require (containsControlCharacter settings.name = false ∧
    containsControlCharacter settings.subtitle = false)
    "brand settings contain invalid control characters"
  validateBrandLogoDataURL packages settings.logoDataURL

@[simp] theorem normalizeBrandingSettings_idem (settings : BrandingSettings) :
    normalizeBrandingSettings (normalizeBrandingSettings settings) =
      normalizeBrandingSettings settings := by
  simp [normalizeBrandingSettings]

/-- The check looks at the normalised settings only. -/
@[simp] theorem validateBrandingSettings_normalize (packages : SettingsPackages)
    (settings : BrandingSettings) :
    validateBrandingSettings packages (normalizeBrandingSettings settings) =
      validateBrandingSettings packages settings := by
  unfold validateBrandingSettings
  rw [normalizeBrandingSettings_idem]

theorem defaultBrandingSettings_valid (packages : SettingsPackages) :
    validateBrandingSettings packages defaultBrandingSettings = .ok () := by
  have hname : normalizeBrandingSettings defaultBrandingSettings = defaultBrandingSettings := by
    decide +kernel
  have hchecks : defaultBrandingSettings.name ≠ "" ∧ defaultBrandingSettings.name.length ≤ 48 ∧
      defaultBrandingSettings.subtitle.length ≤ 80 ∧
      containsControlCharacter defaultBrandingSettings.name = false ∧
      containsControlCharacter defaultBrandingSettings.subtitle = false := by
    decide +kernel
  obtain ⟨hempty, hlength, hsubtitle, hcontrol, hcontrol'⟩ := hchecks
  simp only [validateBrandingSettings, hname, bind_eq_ok, require_eq_ok, exists_const]
  exact ⟨hempty, hlength, hsubtitle, ⟨hcontrol, hcontrol'⟩, rfl⟩

/-! ### Backups -/

structure BackupSettings where
  repository : String
  accessKeyID : String
  region : String
  backupTime : String
  randomDelaySeconds : Int
  deriving DecidableEq

def defaultBackupRegion : String := "us-east-1"

def defaultBackupTime : String := "03:25"

def normalizeBackupSettings (settings : BackupSettings) : BackupSettings :=
  let region := Text.trimSpace settings.region
  let backupTime := Text.trimSpace settings.backupTime
  { settings with
    repository := Text.trimSpace settings.repository
    accessKeyID := Text.trimSpace settings.accessKeyID
    region := if region = "" then defaultBackupRegion else region
    backupTime := if backupTime = "" then defaultBackupTime else backupTime }

/-- `backupRegionPattern` matches. -/
def validBackupRegion (region : String) : Bool :=
  let alphanumeric c := isLetterDigitHyphen c && c ≠ '-'
  region.toList.length ≤ 64 && region.toList.head?.any alphanumeric &&
    region.toList.getLast?.any alphanumeric && region.toList.all isLetterDigitHyphen

/-- `time.Parse` accepts a text of five bytes as `15:04`. -/
def validBackupTime (text : String) : Bool :=
  match text.toList with
  | [a, b, ':', c, d] =>
    [a, b, c, d].all Url.isDigit && (a.toNat - 48) * 10 + (b.toNat - 48) < 24 &&
      (c.toNat - 48) * 10 + (d.toNat - 48) < 60
  | _ => false

/-- A key or password: not empty, of at most `bound` bytes, on one line. -/
def validSecretText (bound : Nat) (text : String) : Bool :=
  text ≠ "" && Text.byteLength text ≤ bound && !containsAny text ['\r', '\n', '\x00']

/-- The repository's URL names an S3 bucket, and nothing else. -/
def validRepository (repository : String) : Bool :=
  Text.byteLength repository ≤ 2048 && Text.hasPrefix repository "s3:https://" &&
    (Url.parse (repository.toList.drop 3)).any fun url =>
      url.scheme = "https".toList && url.host ≠ [] && url.path.any (· ≠ '/') && url.user.isNone &&
        url.rawQuery.isEmpty && url.fragment.isEmpty

def validateBackupSettings (settings : BackupSettings) (secretAccessKey resticPassword : String) :
    Except String Unit := do
  let settings := normalizeBackupSettings settings
  require (validRepository settings.repository = true)
    "backup repository must use s3:https:// and include a bucket name"
  require (validSecretText 512 settings.accessKeyID = true) "S3 access key ID is invalid"
  require (validSecretText 4096 secretAccessKey = true) "S3 secret access key is invalid"
  require (validBackupRegion settings.region = true) "S3 region is invalid"
  require (validBackupTime settings.backupTime = true) "backup time must use HH:MM"
  require (0 ≤ settings.randomDelaySeconds ∧ settings.randomDelaySeconds ≤ 86400)
    "backup random delay must be between 0 and 86400 seconds"
  require (validSecretText 4096 resticPassword = true) "Restic repository password is invalid"

@[simp] theorem normalizeBackupSettings_idem (settings : BackupSettings) :
    normalizeBackupSettings (normalizeBackupSettings settings) =
      normalizeBackupSettings settings := by
  have hdefaults : Text.trimSpace defaultBackupRegion = defaultBackupRegion ∧
      Text.trimSpace defaultBackupTime = defaultBackupTime ∧ defaultBackupRegion ≠ "" ∧
      defaultBackupTime ≠ "" := by
    decide +kernel
  obtain ⟨hregion, htime, hregion', htime'⟩ := hdefaults
  unfold normalizeBackupSettings
  by_cases hr : Text.trimSpace settings.region = ""
  · by_cases ht : Text.trimSpace settings.backupTime = ""
    · simp [hr, ht, hregion, htime, hregion', htime']
    · simp [hr, ht, hregion, hregion']
  · by_cases ht : Text.trimSpace settings.backupTime = ""
    · simp [hr, ht, htime, htime']
    · simp [hr, ht]

end SimpleCdn
