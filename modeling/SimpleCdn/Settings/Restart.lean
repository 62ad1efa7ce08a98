import SimpleCdn.Control.Settings
import SimpleCdn.Lib.Transition

/-!
# The memory and a restart

However the settings are saved and cleared, and whatever calls of the store fail, the manager holds
what a new one would load from the database.  `Served` says what that means for each part of the
memory; a row that is not there counts as one with the columns' defaults.
-/

namespace SimpleCdn.Settings

open Transition SettingsStore

/-! ### Normal forms -/

section

variable {packages : SettingsPackages} {key : String → String} {seen values : List String}

/-- The result has no empty value, and no key twice. -/
theorem distinctBy_spec (key : String → String) (values : List String) (seen : List String) :
    (∀ value ∈ distinctBy key seen values, value ∈ values ∧ value ≠ "" ∧ key value ∉ seen) ∧
      ((distinctBy key seen values).map key).Nodup := by
  induction values generalizing seen with
  | nil => exact ⟨nofun, List.nodup_nil⟩
  | cons value values ih =>
    rw [distinctBy]
    split
    · next hskip =>
      refine ⟨fun v hv => ?_, (ih seen).2⟩
      obtain ⟨hmem, hrest⟩ := (ih seen).1 v hv
      exact ⟨List.mem_cons_of_mem _ hmem, hrest⟩
    · next htake =>
      obtain ⟨hempty, hnew⟩ := not_or.mp htake
      obtain ⟨hvalues, hnodup⟩ := ih (key value :: seen)
      refine ⟨fun v hv => ?_, ?_⟩
      · rcases List.mem_cons.mp hv with rfl | hv
        · exact ⟨List.mem_cons_self, hempty, hnew⟩
        · obtain ⟨hmem, hne, hseen⟩ := hvalues v hv
          exact ⟨List.mem_cons_of_mem _ hmem, hne, fun h => hseen (List.mem_cons_of_mem _ h)⟩
      · rw [List.map_cons, List.nodup_cons]
        refine ⟨fun hmem => ?_, hnodup⟩
        obtain ⟨v, hv, hkey⟩ := List.mem_map.mp hmem
        exact (hvalues v hv).2.2 (hkey ▸ List.mem_cons_self)

/-- A list that is already so stays as it is. -/
theorem distinctBy_eq_self (hempty : ∀ value ∈ values, value ≠ "")
    (hseen : ∀ value ∈ values, key value ∉ seen) (hnodup : (values.map key).Nodup) :
    distinctBy key seen values = values := by
  induction values generalizing seen with
  | nil => rfl
  | cons value values ih =>
    rw [List.map_cons, List.nodup_cons] at hnodup
    rw [distinctBy, if_neg (not_or.mpr ⟨hempty value List.mem_cons_self,
      hseen value List.mem_cons_self⟩)]
    congr 1
    refine ih (fun v hv => hempty v (List.mem_cons_of_mem _ hv)) (fun v hv hmem => ?_) hnodup.2
    rcases List.mem_cons.mp hmem with heq | hmem
    · exact hnodup.1 (List.mem_map.mpr ⟨v, hv, heq⟩)
    · exact hseen v (List.mem_cons_of_mem _ hv) hmem

/-- Values that a first pass has kept pass a second one. -/
theorem distinctBy_map {f : String → String} (hf : ∀ value ∈ values, f value = value)
    (hempty : ∀ value ∈ values, value ≠ "") (hnodup : (values.map key).Nodup) :
    distinctBy key [] (values.map f) = values := by
  have hsame : values.map f = values := (List.map_congr_left hf).trans (List.map_id _)
  rw [hsame]
  exact distinctBy_eq_self hempty (fun _ _ => List.not_mem_nil) hnodup

/-- What a profile that has passed the checks looks like. -/
structure Normal (packages : SettingsPackages) (profile : SMTPProfile) : Prop where
  normalized : ∃ raw, profile = normalizeSMTPProfile packages raw
  port : profile.port ≠ 0
  security : profile.security = "starttls" ∨ profile.security = "tls"
  categories : ∀ category ∈ profile.notificationCategories.getD [],
    category ∈ smtpNotificationCategories

/-- The words that the checks leave are written in lower-case letters. -/
theorem toLower_word {word : String}
    (h : word ∈ "starttls" :: "tls" :: smtpNotificationCategories) :
    packages.toLower (Text.trimSpace word) = word := by
  have hwords : ∀ word ∈ "starttls" :: "tls" :: smtpNotificationCategories,
      Text.trimSpace word = word ∧ word.toList.all Char.isLower = true := by
    decide +kernel
  obtain ⟨htrim, hlower⟩ := hwords word h
  rw [htrim]
  exact packages.toLower_ascii word hlower

theorem Normal.fixed {profile : SMTPProfile} (h : Normal packages profile) :
    normalizeSMTPProfile packages profile = profile := by
  obtain ⟨raw, hraw⟩ := h.normalized
  have hhost : Text.trimSpace profile.host = profile.host := by
    rw [hraw]
    exact Text.trimSpace_trimSpace raw.host
  have husername : Text.trimSpace profile.username = profile.username := by
    rw [hraw]
    exact Text.trimSpace_trimSpace raw.username
  have hfrom : Text.trimSpace profile.fromAddress = profile.fromAddress := by
    rw [hraw]
    exact Text.trimSpace_trimSpace raw.fromAddress
  have hsecurity : packages.toLower (Text.trimSpace profile.security) = profile.security := by
    rcases h.security with hword | hword
    · rw [hword]
      exact toLower_word List.mem_cons_self
    · rw [hword]
      exact toLower_word (List.mem_cons_of_mem _ List.mem_cons_self)
  have hrecipients : distinctBy packages.toLower [] (profile.recipients.map Text.trimSpace) =
      profile.recipients := by
    obtain ⟨hvalues, hnodup⟩ := distinctBy_spec packages.toLower (raw.recipients.map Text.trimSpace) []
    have hlist : profile.recipients =
        distinctBy packages.toLower [] (raw.recipients.map Text.trimSpace) := by rw [hraw]; rfl
    rw [← hlist] at hvalues hnodup
    refine distinctBy_map (fun value hvalue => ?_) (fun value hvalue => (hvalues value hvalue).2.1)
      hnodup
    obtain ⟨recipient, -, rfl⟩ := List.mem_map.mp (hvalues value hvalue).1
    exact Text.trimSpace_trimSpace recipient
  obtain ⟨categories, hcategories, hdistinct⟩ : ∃ categories,
      profile.notificationCategories = some categories ∧ categories.Nodup := by
    rw [hraw]
    refine ⟨_, rfl, ?_⟩
    split
    · decide
    · next given _ =>
      simpa using (distinctBy_spec id
        (given.map fun category => packages.toLower (Text.trimSpace category)) []).2
  have hwords : ∀ category ∈ categories, category ∈ smtpNotificationCategories := by
    simpa [hcategories] using h.categories
  have hfixed : distinctBy id []
      (categories.map fun category => packages.toLower (Text.trimSpace category)) = categories := by
    refine distinctBy_map (fun category hmem => ?_) (fun category hmem => ?_) (by simpa using hdistinct)
    · exact toLower_word (List.mem_cons_of_mem _ (List.mem_cons_of_mem _ (hwords category hmem)))
    · rintro rfl
      exact absurd (hwords "" hmem) (by decide)
  obtain ⟨enabled, host, port, username, fromAddress, recipients, notificationCategories,
    security⟩ := profile
  simp only at hhost husername hfrom hsecurity hrecipients hcategories
  subst hcategories
  simp only [normalizeSMTPProfile, hhost, husername, hfrom, hsecurity, hrecipients, hfixed,
    if_neg h.port]

theorem forM_eq_ok {ε α : Type} {f : α → Except ε Unit} {l : List α} {u : Unit}
    (h : l.forM f = .ok u) : ∀ a ∈ l, f a = .ok () := by
  induction l with
  | nil => exact nofun
  | cons a l ih =>
    obtain ⟨⟨⟩, hhead, hrest⟩ := bind_eq_ok.mp h
    intro b hb
    rcases List.mem_cons.mp hb with rfl | hb
    · exact hhead
    · exact ih hrest b hb

/-- A profile that the checks let through. -/
theorem validateSMTP_normal {profile validated : SMTPProfile} {password : String}
    (h : validateSMTP packages profile password = .ok validated) :
    validated = normalizeSMTPProfile packages profile ∧ Normal packages validated := by
  simp only [validateSMTP, bind_eq_ok, require_eq_ok, exists_const] at h
  obtain ⟨hport, hsecurity, -, ⟨⟩, hcategories, h⟩ := h
  have hvalidated : validated = normalizeSMTPProfile packages profile := by
    split at h
    · simp only [bind_eq_ok, pure_eq_ok] at h
      obtain ⟨-, -, -, -, rfl⟩ := h
      rfl
    · exact (pure_eq_ok.mp h).symm
  subst hvalidated
  refine ⟨rfl, ⟨profile, rfl⟩, fun hzero => ?_, hsecurity, fun category hmem => ?_⟩
  · rw [hzero] at hport
    omega
  · have hvalid := forM_eq_ok hcategories category hmem
    simpa [validateCategory, validNotificationCategory] using hvalid

end

/-! ### What a restart loads -/

/-- The row, or the columns' defaults. -/
def row (db : SettingsStore) : ControlSettingsRow :=
  db.controlSettings.getD (defaultControlSettingsRow 0)

section

variable {packages : SettingsPackages} {cipher : Cipher} {db db' : SettingsStore}
  {environment env : EnvironmentSettings} {m m' : SettingsManager} {failure : Option StoreError}
  {now : Time}

/-- A missing list of categories is the list of all. -/
theorem smtpProfileFromStore_categories (settings : SMTPSettings) :
    smtpProfileFromStore packages { settings with
      notificationCategories := some
        (settings.notificationCategories.getD smtpNotificationCategories) } =
      smtpProfileFromStore packages settings := by
  cases hcategories : settings.notificationCategories with
  | some categories => simp [smtpProfileFromStore, hcategories]
  | none =>
    have hall : distinctBy id [] (smtpNotificationCategories.map fun category =>
        packages.toLower (Text.trimSpace category)) = smtpNotificationCategories := by
      refine distinctBy_map (fun category hmem => ?_) (by decide) (by decide)
      exact toLower_word (List.mem_cons_of_mem _ (List.mem_cons_of_mem _ hmem))
    simp [smtpProfileFromStore, normalizeSMTPProfile, hcategories, hall]

/-- What is read, by the row. -/
structure Read (packages : SettingsPackages) (row : ControlSettingsRow)
    (persisted : ControlSettings) : Prop where
  dnsTTL : persisted.dnsDefaultTTLSeconds = row.dnsDefaultTTLSeconds
  cacheSizeGB : persisted.cacheDefaultSizeGB = row.cacheDefaultSizeGB
  branding : persisted.branding = normalizeBrandingSettings row.branding
  override : persisted.smtp.override = row.smtp.override
  profile : row.smtp.override = true →
    smtpProfileFromStore packages persisted.smtp = smtpProfileFromStore packages row.smtp
  backupOverride : persisted.backupOverride = row.backupOverride
  backup : persisted.backup = normalizeBackupSettings row.backup

structure ValidRow (packages : SettingsPackages) (row : ControlSettingsRow) : Prop where
  ttl : validateDNSTTLSeconds row.dnsDefaultTTLSeconds = .ok ()
  cacheSize : validateCacheMaxSizeGB row.cacheDefaultSizeGB = .ok ()
  brand : validateBrandingSettings packages row.branding = .ok ()

theorem readSettings_ok {persisted : ControlSettings} :
    db.readSettings packages = .ok persisted →
      ValidRow packages (row db) ∧ Read packages (row db) persisted := by
  intro h
  unfold SettingsStore.readSettings at h
  unfold row
  cases hrow : db.controlSettings with
  | some stored =>
    simp only [hrow, readControlSettings, bind_eq_ok, mapError_eq_ok, pure_eq_ok,
      validateBrandingSettings_normalize] at h
    obtain ⟨⟨⟩, httl, ⟨⟩, hcache, ⟨⟩, hbrand, rfl⟩ := h
    exact ⟨⟨httl, hcache, hbrand⟩, rfl, rfl, rfl, rfl,
      fun _ => smtpProfileFromStore_categories stored.smtp, rfl, rfl⟩
  | none =>
    simp only [hrow, pure_eq_ok] at h
    subst h
    refine ⟨⟨by decide, by decide, defaultBrandingSettings_valid packages⟩, rfl, rfl, ?_, rfl,
      (fun hnone => by cases hnone), rfl, ?_⟩
    · decide +kernel
    · decide +kernel

theorem readSettings_valid (h : ValidRow packages (row db)) :
    ∃ persisted, db.readSettings packages = .ok persisted := by
  unfold SettingsStore.readSettings
  unfold row at h
  cases hrow : db.controlSettings with
  | some stored =>
    rw [hrow] at h
    simp only [readControlSettings, bind_eq_ok, mapError_eq_ok, pure_eq_ok,
      validateBrandingSettings_normalize]
    exact ⟨_, (), h.ttl, (), h.cacheSize, (), h.brand, rfl⟩
  | none => exact ⟨_, rfl⟩

theorem loadSMTP_congr {settings settings' : SMTPSettings}
    (hoverride : settings.override = settings'.override)
    (hprofile : settings'.override = true →
      smtpProfileFromStore packages settings = smtpProfileFromStore packages settings') :
    loadSMTP packages cipher db settings env = loadSMTP packages cipher db settings' env := by
  unfold loadSMTP
  rw [hoverride]
  split
  · next h => rw [hprofile h]
  · rfl

theorem loadBackup_normalize (override : Bool) (settings : BackupSettings) :
    loadBackup cipher db override (normalizeBackupSettings settings) env =
      loadBackup cipher db override settings env := by
  unfold loadBackup
  rw [normalizeBackupSettings_idem]

/-- Each part of the memory is what the row, the secrets and the environment give. -/
structure Served (packages : SettingsPackages) (cipher : Cipher) (db : SettingsStore)
    (environment : EnvironmentSettings) (m : SettingsManager) : Prop where
  env : m.env = normalizeEnvironment packages environment
  valid : ValidRow packages (row db)
  dnsTTL : m.dnsTTL = (row db).dnsDefaultTTLSeconds
  cacheSizeGB : m.cacheSizeGB = (row db).cacheDefaultSizeGB
  branding : m.branding = normalizeBrandingSettings (row db).branding
  token : loadToken cipher db m.env = .ok (m.token, m.tokenDB)
  smtp : loadSMTP packages cipher db (row db).smtp m.env = .ok (m.smtp, m.smtpPass, m.smtpDB)
  backup : loadBackup cipher db (row db).backupOverride (row db).backup m.env =
    .ok (m.backup, m.backupSecret, m.backupPass, m.backupDB)

theorem served_iff : newSettingsManager packages cipher db environment = .ok m ↔
    Served packages cipher db environment m := by
  constructor
  · intro h
    simp only [newSettingsManager, bind_eq_ok, pure_eq_ok] at h
    obtain ⟨persisted, hread, token, htoken, smtp, hsmtp, backup, hbackup, rfl⟩ := h
    obtain ⟨hvalid, hsame⟩ := readSettings_ok hread
    rw [loadSMTP_congr hsame.override hsame.profile] at hsmtp
    rw [hsame.backupOverride, hsame.backup, loadBackup_normalize] at hbackup
    exact ⟨rfl, hvalid, hsame.dnsTTL, hsame.cacheSizeGB,
      by rw [hsame.branding, normalizeBrandingSettings_idem], htoken, hsmtp, hbackup⟩
  · intro h
    obtain ⟨persisted, hread⟩ := readSettings_valid h.valid
    obtain ⟨-, hsame⟩ := readSettings_ok hread
    have htoken := h.token
    have hsmtp := h.smtp
    have hbackup := h.backup
    rw [h.env] at htoken hsmtp hbackup
    rw [← loadSMTP_congr hsame.override hsame.profile] at hsmtp
    rw [← loadBackup_normalize, ← hsame.backupOverride, ← hsame.backup] at hbackup
    simp only [newSettingsManager, bind_eq_ok, pure_eq_ok]
    refine ⟨persisted, hread, _, htoken, _, hsmtp, _, hbackup, ?_⟩
    have hbranding : normalizeBrandingSettings persisted.branding = m.branding := by
      rw [hsame.branding, normalizeBrandingSettings_idem, h.branding]
    rw [hbranding, hsame.dnsTTL, ← h.dnsTTL, hsame.cacheSizeGB, ← h.cacheSizeGB, ← h.env]

/-! ### Secrets -/

theorem loadSecret_of_secrets (h : db'.secrets = db.secrets) (name label : String) :
    loadSecret cipher db' name label = loadSecret cipher db name label := by
  unfold loadSecret
  rw [h]

theorem loadSecret_upsert (nonce : Nat) (plaintext name label : String) (now : Time) :
    loadSecret cipher (db.upsertSecret name (cipher.encrypt nonce plaintext) now) name label =
      .ok (some plaintext) := by
  have hfind : (db.secrets.upsert ⟨name, cipher.encrypt nonce plaintext, now⟩).find? name =
      some ⟨name, cipher.encrypt nonce plaintext, now⟩ := by
    rw [Table.find?_upsert]
    simp
  unfold loadSecret upsertSecret
  rw [hfind]
  simp [cipher.decrypt_encrypt]

theorem loadSecret_upsert_ne (ciphertext : List UInt8) {name other : String} (h : other ≠ name)
    (label : String) (now : Time) :
    loadSecret cipher (db.upsertSecret name ciphertext now) other label =
      loadSecret cipher db other label := by
  have hfind : (db.secrets.upsert ⟨name, ciphertext, now⟩).find? other = db.secrets.find? other := by
    rw [Table.find?_upsert]
    simp [Ne.symm h]
  unfold loadSecret upsertSecret
  rw [hfind]

theorem loadSecret_delete (names : List String) (name label : String) :
    loadSecret cipher (db.deleteSecrets names) name label =
      if name ∈ names then .ok none else loadSecret cipher db name label := by
  have hfind : (db.secrets.delete fun row => names.contains row.name).find? name =
      if name ∈ names then none else db.secrets.find? name := by
    rw [Table.find?_delete]
    cases hrow : db.secrets.find? name with
    | none => simp
    | some row =>
      have hname : row.name = name := Table.key_of_find? hrow
      by_cases hmem : name ∈ names
      · simp [Option.filter, hname, hmem]
      · simp [Option.filter, hname, hmem]
  unfold loadSecret deleteSecrets
  rw [hfind]
  by_cases hmem : name ∈ names
  · rw [if_pos hmem, if_pos hmem]
    rfl
  · rw [if_neg hmem, if_neg hmem]

/-! ### Operations -/

theorem storeCall_eq_ok {result : Except StoreError SettingsStore}
    (h : storeCall failure result = .ok db') : result = .ok db' := by
  cases failure with
  | none => exact h
  | some e => cases h

/-- An operation on the row that leaves alone what the profiles override. -/
theorem Served.ofRow (h : Served packages cipher db environment m) {dnsTTL cacheSizeGB : Int}
    {branding : BrandingSettings} {t : Time}
    (hrow : row db' = {
      row db with
      dnsDefaultTTLSeconds := dnsTTL
      cacheDefaultSizeGB := cacheSizeGB
      branding := branding
      updatedAt := t })
    (hsecrets : db'.secrets = db.secrets) (hvalid : ValidRow packages (row db')) :
    Served packages cipher db' environment {
      m with
      dnsTTL := dnsTTL
      cacheSizeGB := cacheSizeGB
      branding := normalizeBrandingSettings branding } where
  env := h.env
  valid := hvalid
  dnsTTL := by rw [hrow]
  cacheSizeGB := by rw [hrow]
  branding := by rw [hrow]
  token := by
    rw [← h.token]
    unfold loadToken
    rw [loadSecret_of_secrets hsecrets]
  smtp := by
    rw [hrow, ← h.smtp]
    unfold loadSMTP
    rw [loadSecret_of_secrets hsecrets]
  backup := by
    rw [hrow, ← h.backup]
    unfold loadBackup
    rw [loadSecret_of_secrets hsecrets, loadSecret_of_secrets hsecrets]

/-- An upsert starts from the row, up to its time. -/
theorem row_upsertSettings (db : SettingsStore) (now : Time)
    (f : ControlSettingsRow → ControlSettingsRow) :
    ∃ t, row (db.upsertSettings now f) = { f { row db with updatedAt := t } with updatedAt := now } := by
  unfold upsertSettings row
  cases db.controlSettings with
  | some stored => exact ⟨stored.updatedAt, rfl⟩
  | none => exact ⟨now, rfl⟩

/-- An update of the row, which is not made when there is none. -/
theorem row_updateSettings (db : SettingsStore) (now : Time)
    (f : ControlSettingsRow → ControlSettingsRow) :
    row (db.updateSettings now f) = { f (row db) with updatedAt := now } ∨
      db.controlSettings = none ∧ row (db.updateSettings now f) = row db := by
  unfold updateSettings row
  cases db.controlSettings with
  | some stored => exact .inl rfl
  | none => exact .inr ⟨rfl, rfl⟩

theorem Served.saveBranding (h : Served packages cipher db environment m)
    {settings : BrandingSettings}
    (hsave : m.saveBranding packages db failure now settings = .ok (m', db')) :
    Served packages cipher db' environment m' := by
  simp only [SettingsManager.saveBranding, bind_eq_ok, mapError_eq_ok, pure_eq_ok,
    Prod.mk.injEq] at hsave
  obtain ⟨⟨⟩, hvalid, db₁, hstore, rfl, rfl⟩ := hsave
  have hstored := storeCall_eq_ok hstore
  simp only [saveBrandingSettings, normalizeBrandingSettings_idem, bind_eq_ok, mapError_eq_ok,
    pure_eq_ok] at hstored
  obtain ⟨-, -, rfl⟩ := hstored
  obtain ⟨t, hrow⟩ := row_upsertSettings db now fun row =>
    { row with branding := normalizeBrandingSettings settings }
  have hserved := h.ofRow hrow rfl (by rw [hrow]; exact ⟨h.valid.ttl, h.valid.cacheSize, hvalid⟩)
  rw [normalizeBrandingSettings_idem, ← h.dnsTTL, ← h.cacheSizeGB] at hserved
  exact hserved

theorem Served.saveDNSDefaultTTL (h : Served packages cipher db environment m) {seconds : Int}
    (hsave : m.saveDNSDefaultTTL db failure now seconds = .ok (m', db')) :
    Served packages cipher db' environment m' := by
  simp only [SettingsManager.saveDNSDefaultTTL, bind_eq_ok, mapError_eq_ok, pure_eq_ok,
    Prod.mk.injEq] at hsave
  obtain ⟨⟨⟩, hvalid, db₁, hstore, rfl, rfl⟩ := hsave
  have hstored := storeCall_eq_ok hstore
  simp only [SettingsStore.saveDNSDefaultTTL, bind_eq_ok, mapError_eq_ok, pure_eq_ok] at hstored
  obtain ⟨-, -, rfl⟩ := hstored
  obtain ⟨t, hrow⟩ := row_upsertSettings db now fun row =>
    { row with dnsDefaultTTLSeconds := seconds }
  have hserved := h.ofRow hrow rfl (by rw [hrow]; exact ⟨hvalid, h.valid.cacheSize, h.valid.brand⟩)
  rw [← h.cacheSizeGB, ← h.branding] at hserved
  exact hserved

theorem Served.saveCacheDefaultSizeGB (h : Served packages cipher db environment m) {size : Int}
    (hsave : m.saveCacheDefaultSizeGB db failure now size = .ok (m', db')) :
    Served packages cipher db' environment m' := by
  simp only [SettingsManager.saveCacheDefaultSizeGB, bind_eq_ok, mapError_eq_ok, pure_eq_ok,
    Prod.mk.injEq] at hsave
  obtain ⟨⟨⟩, hvalid, db₁, hstore, rfl, rfl⟩ := hsave
  have hstored := storeCall_eq_ok hstore
  simp only [SettingsStore.saveCacheDefaultSizeGB, bind_eq_ok, mapError_eq_ok, pure_eq_ok]
    at hstored
  obtain ⟨-, -, rfl⟩ := hstored
  obtain ⟨t, hrow⟩ := row_upsertSettings db now fun row => { row with cacheDefaultSizeGB := size }
  have hserved := h.ofRow hrow rfl (by rw [hrow]; exact ⟨h.valid.ttl, hvalid, h.valid.brand⟩)
  rw [← h.dnsTTL, ← h.branding] at hserved
  exact hserved

/-- Nothing but secrets has changed, and nobody's of the profiles. -/
theorem Served.ofToken (h : Served packages cipher db environment m) (hrow : row db' = row db)
    (hother : ∀ name label, name ≠ secretCloudflareAPIToken →
      loadSecret cipher db' name label = loadSecret cipher db name label)
    {token : String} {tokenDB : Bool}
    (htoken : loadToken cipher db' m.env = .ok (token, tokenDB)) :
    Served packages cipher db' environment { m with token := token, tokenDB := tokenDB } where
  env := h.env
  valid := hrow ▸ h.valid
  dnsTTL := hrow ▸ h.dnsTTL
  cacheSizeGB := hrow ▸ h.cacheSizeGB
  branding := hrow ▸ h.branding
  token := htoken
  smtp := by
    rw [hrow, ← h.smtp]
    unfold loadSMTP
    rw [hother _ _ (by decide)]
  backup := by
    rw [hrow, ← h.backup]
    unfold loadBackup
    rw [hother _ _ (by decide), hother _ _ (by decide)]

theorem Served.saveCloudflareToken (h : Served packages cipher db environment m) {text : String}
    {nonce : Option Nat}
    (hsave : m.saveCloudflareToken cipher db failure now text nonce = .ok (m', db')) :
    Served packages cipher db' environment m' := by
  simp only [SettingsManager.saveCloudflareToken, Cipher.seal, bind_eq_ok, require_eq_ok,
    orError_eq_ok, pure_eq_ok, Prod.mk.injEq, exists_const] at hsave
  obtain ⟨-, ciphertext, ⟨nonce, -, rfl⟩, db₁, hstore, rfl, rfl⟩ := hsave
  have hstored := storeCall_eq_ok hstore
  simp only [setSecret, bind_eq_ok, require_eq_ok, pure_eq_ok, exists_const] at hstored
  obtain ⟨-, rfl⟩ := hstored
  refine h.ofToken ?_ (fun name label hname => loadSecret_upsert_ne _ hname label now) ?_
  · rfl
  · unfold loadToken
    rw [loadSecret_upsert]
    rfl

theorem Served.clearCloudflareToken (h : Served packages cipher db environment m)
    (hclear : m.clearCloudflareToken db failure = .ok (m', db')) :
    Served packages cipher db' environment m' := by
  simp only [SettingsManager.clearCloudflareToken, bind_eq_ok, pure_eq_ok, Prod.mk.injEq] at hclear
  obtain ⟨db₁, hstore, rfl, rfl⟩ := hclear
  have hstored := storeCall_eq_ok hstore
  simp only [deleteSecret, bind_eq_ok, require_eq_ok, pure_eq_ok, exists_const] at hstored
  obtain ⟨-, rfl⟩ := hstored
  refine h.ofToken ?_ (fun name label hname => ?_) ?_
  · rfl
  · rw [loadSecret_delete, if_neg]
    rw [List.mem_singleton]
    exact hname
  · unfold loadToken
    rw [loadSecret_delete, if_pos List.mem_cons_self]
    rfl

/-- The SMTP columns and the password have changed. -/
theorem Served.ofSMTP (h : Served packages cipher db environment m) {settings : SMTPSettings}
    {t : Time} (hrow : row db' = { row db with smtp := settings, updatedAt := t })
    (hother : ∀ name label, name ≠ secretSMTPPassword →
      loadSecret cipher db' name label = loadSecret cipher db name label)
    {profile : SMTPProfile} {password : String} {smtpDB : Bool}
    (hsmtp : loadSMTP packages cipher db' settings m.env = .ok (profile, password, smtpDB)) :
    Served packages cipher db' environment
      { m with smtp := profile, smtpPass := password, smtpDB := smtpDB } where
  env := h.env
  valid := by
    rw [hrow]
    exact ⟨h.valid.ttl, h.valid.cacheSize, h.valid.brand⟩
  dnsTTL := by
    rw [hrow]
    exact h.dnsTTL
  cacheSizeGB := by
    rw [hrow]
    exact h.cacheSizeGB
  branding := by
    rw [hrow]
    exact h.branding
  token := by
    rw [← h.token]
    unfold loadToken
    rw [hother _ _ (by decide)]
  smtp := by
    rw [hrow]
    exact hsmtp
  backup := by
    rw [hrow, ← h.backup]
    unfold loadBackup
    rw [hother _ _ (by decide), hother _ _ (by decide)]

/-- A password that is not replaced is the one in the memory. -/
theorem Served.password (h : Served packages cipher db environment m) (hdb : m.smtpDB = true) :
    ∃ stored, loadSecret cipher db secretSMTPPassword "SMTP password" = .ok stored ∧
      stored.getD "" = m.smtpPass := by
  have hsmtp := h.smtp
  unfold loadSMTP at hsmtp
  split at hsmtp
  · simp only [bind_eq_ok, pure_eq_ok, Prod.mk.injEq] at hsmtp
    obtain ⟨stored, hstored, -, hpassword, -⟩ := hsmtp
    exact ⟨stored, hstored, hpassword⟩
  · simp only [pure_eq_ok, Prod.mk.injEq] at hsmtp
    rw [hdb] at hsmtp
    cases hsmtp.2.2

/-- The password that is in the database after a save. -/
theorem loadSecret_saveSMTP (settings : SMTPSettings) {password : String} {ciphertext : List UInt8}
    {replace : Bool} {nonce : Option Nat} (now : Time)
    (hseal : cipher.sealIf (replace && password ≠ "") nonce password = .ok ciphertext)
    (hkept : replace = false → ∃ stored,
      loadSecret cipher db secretSMTPPassword "SMTP password" = .ok stored ∧
        stored.getD "" = password) :
    ∃ stored, loadSecret cipher (db.saveSMTPSettings settings ciphertext replace now)
      secretSMTPPassword "SMTP password" = .ok stored ∧ stored.getD "" = password := by
  unfold saveSMTPSettings
  cases replace with
  | false => exact hkept rfl
  | true =>
    simp only [if_true]
    by_cases hempty : password = ""
    · simp only [hempty, Cipher.sealIf, ne_eq, not_true_eq_false, decide_false, Bool.and_false,
        Bool.false_eq_true, if_false, pure_eq_ok] at hseal
      subst hseal
      refine ⟨none, ?_, hempty.symm⟩
      simp only [List.isEmpty_nil, if_true]
      rw [loadSecret_delete, if_pos List.mem_cons_self]
    · simp only [hempty, Cipher.sealIf, Cipher.seal, ne_eq, not_false_eq_true, decide_true,
        Bool.and_true, if_true, bind_eq_ok, orError_eq_ok, pure_eq_ok] at hseal
      obtain ⟨n, -, rfl⟩ := hseal
      refine ⟨some password, ?_, rfl⟩
      have hne : (cipher.encrypt n password).isEmpty = false := by
        simpa using cipher.encrypt_ne_nil n password
      simp only [hne, Bool.false_eq_true, if_false]
      exact loadSecret_upsert n password _ _ now

theorem loadSecret_saveSMTP_ne {settings : SMTPSettings} {ciphertext : List UInt8} {replace : Bool}
    {name : String} (hname : name ≠ secretSMTPPassword) (label : String) :
    loadSecret cipher (db.saveSMTPSettings settings ciphertext replace now) name label =
      loadSecret cipher db name label := by
  unfold saveSMTPSettings
  split
  · split
    · rw [loadSecret_delete, if_neg (by simpa using hname)]
      exact loadSecret_of_secrets rfl _ _
    · rw [loadSecret_upsert_ne _ hname]
      exact loadSecret_of_secrets rfl _ _
  · exact loadSecret_of_secrets rfl _ _

/-- The columns that a save writes, whatever becomes of the password. -/
theorem row_saveSMTPSettings (db : SettingsStore) (now : Time) (profile : SMTPProfile)
    (ciphertext : List UInt8) (replace : Bool) :
    ∃ t, row (db.saveSMTPSettings (smtpProfileToStore profile) ciphertext replace now) =
      { row db with smtp := smtpProfileToStore profile, updatedAt := t } := by
  obtain ⟨t, hrow⟩ := row_upsertSettings db now fun row =>
    { row with smtp := smtpProfileToStore profile }
  refine ⟨now, ?_⟩
  unfold saveSMTPSettings
  split
  · split
    · exact hrow
    · exact hrow
  · exact hrow

/-- A profile that has passed the checks is read back as it was written. -/
theorem Normal.stored {profile : SMTPProfile} (h : Normal packages profile) :
    smtpProfileFromStore packages (smtpProfileToStore profile) = profile := by
  have hfixed := h.fixed
  obtain ⟨raw, hraw⟩ := h.normalized
  have hcategories : some (profile.notificationCategories.getD []) =
      profile.notificationCategories := by
    rw [hraw]
    rfl
  unfold smtpProfileFromStore smtpProfileToStore
  simp only [hcategories]
  exact hfixed

theorem Served.saveSMTP (h : Served packages cipher db environment m) {profile : SMTPProfile}
    {password : Option String} {nonce : Option Nat}
    (hsave : m.saveSMTP packages cipher db failure now profile password nonce = .ok (m', db')) :
    Served packages cipher db' environment m' := by
  simp only [SettingsManager.saveSMTP, bind_eq_ok, mapError_eq_ok, pure_eq_ok,
    Prod.mk.injEq] at hsave
  obtain ⟨validated, hvalidated, ciphertext, hseal, db₁, hstore, rfl, rfl⟩ := hsave
  obtain ⟨hnormal, hfixed⟩ := validateSMTP_normal hvalidated
  obtain rfl := pure_eq_ok.mp (storeCall_eq_ok hstore)
  obtain ⟨t, hrow⟩ := row_saveSMTPSettings db now validated ciphertext
    (password.isSome || !m.smtpDB || decide (validated.username = ""))
  have husername : validated.username = (normalizeSMTPProfile packages profile).username := by
    rw [hnormal]
    exact Text.trimSpace_trimSpace profile.username
  -- a password that is not replaced is that of an override, for a user who is still there
  have hkept : (password.isSome || !m.smtpDB || decide (validated.username = "")) = false →
      ∃ stored, loadSecret cipher db secretSMTPPassword "SMTP password" = .ok stored ∧
        stored.getD "" = if (normalizeSMTPProfile packages profile).username = "" then ""
          else password.getD m.smtpPass := by
    intro hkeep
    simp only [Bool.or_eq_false_iff, Bool.not_eq_false', decide_eq_false_iff_not] at hkeep
    obtain ⟨⟨hnone, hdb⟩, huser⟩ := hkeep
    rw [husername] at huser
    rw [if_neg huser]
    cases password with
    | none => exact h.password hdb
    | some given => cases hnone
  obtain ⟨stored, hstored, hpassword⟩ :=
    loadSecret_saveSMTP (smtpProfileToStore validated) now hseal hkept
  refine h.ofSMTP hrow (fun name label hname => loadSecret_saveSMTP_ne hname label) ?_
  rw [← hpassword]
  unfold loadSMTP
  show (do
    let password ← loadSecret cipher _ secretSMTPPassword "SMTP password"
    return (smtpProfileFromStore packages (smtpProfileToStore validated), password.getD "",
      true)) = _
  rw [hstored, hfixed.stored]
  rfl

theorem Served.clearSMTP (h : Served packages cipher db environment m)
    (hclear : m.clearSMTP db failure now = .ok (m', db')) :
    Served packages cipher db' environment m' := by
  simp only [SettingsManager.clearSMTP, bind_eq_ok, pure_eq_ok, Prod.mk.injEq] at hclear
  obtain ⟨db₁, hstore, rfl, rfl⟩ := hclear
  obtain rfl := pure_eq_ok.mp (storeCall_eq_ok hstore)
  have hother : ∀ name label, name ≠ secretSMTPPassword →
      loadSecret cipher (db.clearSMTPSettings now) name label = loadSecret cipher db name label := by
    intro name label hname
    unfold clearSMTPSettings
    rw [loadSecret_delete, if_neg (by simpa using hname)]
    exact loadSecret_of_secrets rfl _ _
  have hclone : cloneSMTPProfile m.env.smtp = m.env.smtp := by
    rw [h.env]
    rfl
  have hrow : ∃ settings t, settings.override = false ∧
      row (db.clearSMTPSettings now) = { row db with smtp := settings, updatedAt := t } := by
    rcases row_updateSettings db now fun row =>
      { row with smtp := { row.smtp with override := false } } with hset | ⟨hnone, hsame⟩
    · exact ⟨_, _, rfl, hset⟩
    · refine ⟨(row db).smtp, (row db).updatedAt, ?_, hsame⟩
      unfold row
      rw [hnone]
      rfl
  obtain ⟨settings, t, hoverride, hrow⟩ := hrow
  refine h.ofSMTP hrow hother ?_
  unfold loadSMTP
  rw [hoverride, hclone]
  rfl

/-- The backup columns and the two secrets have changed. -/
theorem Served.ofBackup (h : Served packages cipher db environment m) {override : Bool}
    {settings : BackupSettings} {t : Time}
    (hrow : row db' = {
      row db with backupOverride := override, backup := settings, updatedAt := t })
    (hother : ∀ name label, name ≠ secretBackupAccessKey → name ≠ secretBackupPassword →
      loadSecret cipher db' name label = loadSecret cipher db name label)
    {profile : BackupSettings} {secret password : String} {backupDB : Bool}
    (hbackup : loadBackup cipher db' override settings m.env =
      .ok (profile, secret, password, backupDB)) :
    Served packages cipher db' environment
      { m with
        backup := profile, backupSecret := secret, backupPass := password, backupDB := backupDB }
    where
  env := h.env
  valid := by
    rw [hrow]
    exact ⟨h.valid.ttl, h.valid.cacheSize, h.valid.brand⟩
  dnsTTL := by
    rw [hrow]
    exact h.dnsTTL
  cacheSizeGB := by
    rw [hrow]
    exact h.cacheSizeGB
  branding := by
    rw [hrow]
    exact h.branding
  token := by
    rw [← h.token]
    unfold loadToken
    rw [hother _ _ (by decide) (by decide)]
  smtp := by
    rw [hrow, ← h.smtp]
    unfold loadSMTP
    rw [hother _ _ (by decide) (by decide)]
  backup := by
    rw [hrow]
    exact hbackup

/-- Secrets that are not replaced are those in the memory. -/
theorem Served.secrets (h : Served packages cipher db environment m) (hdb : m.backupDB = true) :
    loadSecret cipher db secretBackupAccessKey "S3 secret access key" = .ok (some m.backupSecret) ∧
    loadSecret cipher db secretBackupPassword "Restic repository password" =
      .ok (some m.backupPass) := by
  have hbackup := h.backup
  unfold loadBackup at hbackup
  split at hbackup
  · simp only [bind_eq_ok, orError_eq_ok, pure_eq_ok, Prod.mk.injEq] at hbackup
    obtain ⟨stored, hstored, secret, hsecret, stored', hstored', password, hpassword, -, rfl, rfl,
      -⟩ := hbackup
    exact ⟨hsecret ▸ hstored, hpassword ▸ hstored'⟩
  · simp only [pure_eq_ok, Prod.mk.injEq] at hbackup
    rw [hdb] at hbackup
    cases hbackup.2.2.2

/-- A secret of the backup profile after a save: the new one, or the one there was. -/
theorem loadSecret_replaceSecret {name label plaintext required : String} {replace : Bool}
    {ciphertext : List UInt8} {nonce : Option Nat}
    (hseal : cipher.sealIf replace nonce plaintext = .ok ciphertext)
    (hreplace : db.replaceSecret name ciphertext replace required now = .ok db')
    (hkept : replace = false → loadSecret cipher db name label = .ok (some plaintext)) :
    loadSecret cipher db' name label = .ok (some plaintext) := by
  cases replace with
  | false =>
    obtain rfl := pure_eq_ok.mp hreplace
    exact hkept rfl
  | true =>
    simp only [replaceSecret, if_true, bind_eq_ok, require_eq_ok, pure_eq_ok,
      exists_const] at hreplace
    simp only [Cipher.sealIf, Cipher.seal, if_true, bind_eq_ok, orError_eq_ok,
      pure_eq_ok] at hseal
    obtain ⟨n, -, rfl⟩ := hseal
    obtain ⟨-, rfl⟩ := hreplace
    exact loadSecret_upsert n plaintext name label now

theorem loadSecret_replaceSecret_ne {name other label required : String} {replace : Bool}
    {ciphertext : List UInt8} (hne : other ≠ name)
    (hreplace : db.replaceSecret name ciphertext replace required now = .ok db') :
    loadSecret cipher db' other label = loadSecret cipher db other label := by
  cases replace with
  | false =>
    obtain rfl := pure_eq_ok.mp hreplace
    rfl
  | true =>
    simp only [replaceSecret, if_true, bind_eq_ok, require_eq_ok, pure_eq_ok,
      exists_const] at hreplace
    obtain ⟨-, rfl⟩ := hreplace
    exact loadSecret_upsert_ne _ hne label now

theorem row_replaceSecret {name required : String} {replace : Bool} {ciphertext : List UInt8}
    (hreplace : db.replaceSecret name ciphertext replace required now = .ok db') :
    row db' = row db := by
  cases replace with
  | false =>
    obtain rfl := pure_eq_ok.mp hreplace
    rfl
  | true =>
    simp only [replaceSecret, if_true, bind_eq_ok, require_eq_ok, pure_eq_ok,
      exists_const] at hreplace
    obtain ⟨-, rfl⟩ := hreplace
    rfl

theorem Served.saveBackup (h : Served packages cipher db environment m) {settings : BackupSettings}
    {secretAccessKey resticPassword : Option String} {nonce nonce' : Option Nat}
    (hsave : m.saveBackup cipher db failure now settings secretAccessKey resticPassword nonce
      nonce' = .ok (m', db')) :
    Served packages cipher db' environment m' := by
  simp only [SettingsManager.saveBackup, SettingsManager.resolveBackupCandidate, bind_eq_ok,
    mapError_eq_ok, pure_eq_ok, Prod.mk.injEq] at hsave
  obtain ⟨-, ⟨⟨⟩, -, rfl⟩, key, hkey, password, hpassword, db₁, hstore, rfl, rfl⟩ := hsave
  have hstored := storeCall_eq_ok hstore
  simp only [saveBackupSettings, normalizeBackupSettings_idem, bind_eq_ok] at hstored
  obtain ⟨db₂, hfirst, hsecond⟩ := hstored
  obtain ⟨t, hset⟩ := row_upsertSettings db now fun row =>
    { row with backupOverride := true, backup := normalizeBackupSettings settings }
  have hrow : row db₁ = {
      row db with
      backupOverride := true, backup := normalizeBackupSettings settings, updatedAt := now } := by
    rw [row_replaceSecret hsecond, row_replaceSecret hfirst, hset]
  have hdistinct : secretBackupAccessKey ≠ secretBackupPassword := by decide
  -- a secret that is not replaced is that of an override
  have hkept : ∀ given : Option String, (given.isSome || !m.backupDB) = false →
      given = none ∧ m.backupDB = true := by
    intro given hkeep
    simpa using hkeep
  have hsecret : loadSecret cipher db₁ secretBackupAccessKey "S3 secret access key" =
      .ok (some (secretAccessKey.getD m.backupSecret)) := by
    rw [loadSecret_replaceSecret_ne hdistinct hsecond]
    refine loadSecret_replaceSecret hkey hfirst fun hkeep => ?_
    obtain ⟨rfl, hdb⟩ := hkept _ hkeep
    exact (h.secrets hdb).1
  have hrestic : loadSecret cipher db₁ secretBackupPassword "Restic repository password" =
      .ok (some (resticPassword.getD m.backupPass)) := by
    refine loadSecret_replaceSecret hpassword hsecond fun hkeep => ?_
    obtain ⟨rfl, hdb⟩ := hkept _ hkeep
    rw [loadSecret_replaceSecret_ne hdistinct.symm hfirst]
    exact (h.secrets hdb).2
  refine h.ofBackup hrow (fun name label hname hname' => ?_) ?_
  · rw [loadSecret_replaceSecret_ne hname' hsecond, loadSecret_replaceSecret_ne hname hfirst]
    exact loadSecret_of_secrets rfl _ _
  · unfold loadBackup
    rw [if_pos rfl, hsecret, hrestic, normalizeBackupSettings_idem]
    rfl

theorem Served.clearBackup (h : Served packages cipher db environment m)
    (hclear : m.clearBackup db failure now = .ok (m', db')) :
    Served packages cipher db' environment m' := by
  simp only [SettingsManager.clearBackup, bind_eq_ok, pure_eq_ok, Prod.mk.injEq] at hclear
  obtain ⟨db₁, hstore, rfl, rfl⟩ := hclear
  obtain rfl := pure_eq_ok.mp (storeCall_eq_ok hstore)
  have hrow : ∃ t, row (db.clearBackupSettings now) = {
      row db with backupOverride := false, backup := (row db).backup, updatedAt := t } := by
    rcases row_updateSettings db now fun row => { row with backupOverride := false }
      with hset | ⟨hnone, hsame⟩
    · exact ⟨now, hset⟩
    · refine ⟨(row db).updatedAt, ?_⟩
      show row (db.updateSettings now fun row => { row with backupOverride := false }) = _
      rw [hsame]
      unfold row
      rw [hnone]
      rfl
  obtain ⟨t, hrow⟩ := hrow
  refine h.ofBackup hrow (fun name label hname hname' => ?_) rfl
  unfold clearBackupSettings
  rw [loadSecret_delete, if_neg (by simp [hname, hname'])]
  exact loadSecret_of_secrets rfl _ _

end

/-! ### Runs -/

inductive Call
  | saveBranding (settings : BrandingSettings)
  | saveDNSDefaultTTL (seconds : Int)
  | saveCacheDefaultSizeGB (size : Int)
  | saveCloudflareToken (token : String) (nonce : Option Nat)
  | clearCloudflareToken
  | saveSMTP (profile : SMTPProfile) (password : Option String) (nonce : Option Nat)
  | clearSMTP
  | saveBackup (settings : BackupSettings) (secretAccessKey resticPassword : Option String)
      (nonce nonce' : Option Nat)
  | clearBackup

/-- A call, the failure of its call of the store if that fails, and the time. -/
structure Action where
  call : Call
  failure : Option StoreError
  now : Time

structure State where
  db : SettingsStore
  manager : SettingsManager

variable (packages : SettingsPackages) (cipher : Cipher)

def Call.apply (m : SettingsManager) (db : SettingsStore) (failure : Option StoreError)
    (now : Time) : Call → Except StoreError (SettingsManager × SettingsStore)
  | .saveBranding settings => m.saveBranding packages db failure now settings
  | .saveDNSDefaultTTL seconds => m.saveDNSDefaultTTL db failure now seconds
  | .saveCacheDefaultSizeGB size => m.saveCacheDefaultSizeGB db failure now size
  | .saveCloudflareToken token nonce => m.saveCloudflareToken cipher db failure now token nonce
  | .clearCloudflareToken => m.clearCloudflareToken db failure
  | .saveSMTP profile password nonce =>
    m.saveSMTP packages cipher db failure now profile password nonce
  | .clearSMTP => m.clearSMTP db failure now
  | .saveBackup settings secretAccessKey resticPassword nonce nonce' =>
    m.saveBackup cipher db failure now settings secretAccessKey resticPassword nonce nonce'
  | .clearBackup => m.clearBackup db failure now

/-- A call that fails leaves the memory and the database as they are. -/
def step (s : State) (a : Action) : State :=
  match a.call.apply packages cipher s.manager s.db a.failure a.now with
  | .ok (manager, db) => ⟨db, manager⟩
  | .error _ => s

variable {packages cipher}

theorem Served.call {db db' : SettingsStore} {environment : EnvironmentSettings}
    {m m' : SettingsManager} {failure : Option StoreError} {now : Time}
    (h : Served packages cipher db environment m) {call : Call}
    (happly : call.apply packages cipher m db failure now = .ok (m', db')) :
    Served packages cipher db' environment m' := by
  cases call with
  | saveBranding => exact h.saveBranding happly
  | saveDNSDefaultTTL => exact h.saveDNSDefaultTTL happly
  | saveCacheDefaultSizeGB => exact h.saveCacheDefaultSizeGB happly
  | saveCloudflareToken => exact h.saveCloudflareToken happly
  | clearCloudflareToken => exact h.clearCloudflareToken happly
  | saveSMTP => exact h.saveSMTP happly
  | clearSMTP => exact h.clearSMTP happly
  | saveBackup => exact h.saveBackup happly
  | clearBackup => exact h.clearBackup happly

theorem Served.step {environment : EnvironmentSettings} {s : State}
    (h : Served packages cipher s.db environment s.manager) (a : Action) :
    Served packages cipher (step packages cipher s a).db environment
      (step packages cipher s a).manager := by
  unfold Settings.step
  split
  · next happly => exact h.call happly
  · exact h

/-- After any calls, a manager made from the database and the environment is the one in use. -/
theorem settings_survive_restart {environment : EnvironmentSettings} {db : SettingsStore}
    {m : SettingsManager} (h : newSettingsManager packages cipher db environment = .ok m)
    (as : List Action) :
    newSettingsManager packages cipher (run (step packages cipher) ⟨db, m⟩ as).db environment =
      .ok (run (step packages cipher) ⟨db, m⟩ as).manager := by
  rw [served_iff] at h ⊢
  exact run_invariant (P := fun s : State => Served packages cipher s.db environment s.manager)
    (fun _ a hs => hs.step a) h as

theorem toLower_of_isLower {s : String} (h : s.toList.all Char.isLower = true) : s.toLower = s := by
  apply String.ext
  show (s.map Char.toLower).toList = s.toList
  rw [String.toList_map]
  refine (List.map_congr_left fun c hc => ?_).trans (List.map_id _)
  have hlower := List.all_eq_true.mp h c hc
  unfold Char.toLower
  rw [dif_neg]
  · rfl
  · rintro ⟨hle, hge⟩
    unfold Char.isLower at hlower
    simp only [Bool.and_eq_true, decide_eq_true_eq, ge_iff_le,
      UInt32.le_iff_toNat_le] at hlower hle hge
    simp at hlower hle hge
    omega

/-- Packages that know ASCII letters, and no images. -/
def asciiPackages : SettingsPackages where
  toLower := String.toLower
  toLower_ascii := fun _ h => toLower_of_isLower h
  parsesAddress := fun address => address.toList.contains '@'
  decodeBase64 := fun _ => none
  decodeConfig := fun _ => none

/-- The text after the nonce. -/
def openSealed : List UInt8 → Except String String
  | [] => .error "ciphertext is too short"
  | _ :: text =>
    match String.fromUTF8? ⟨text.toArray⟩ with
    | some plaintext => .ok plaintext
    | none => .error "cipher: message authentication failed"

def plainCipher : Cipher where
  encrypt := fun nonce plaintext => UInt8.ofNat nonce :: plaintext.toUTF8.data.toList
  decrypt := openSealed
  decrypt_nil := rfl
  decrypt_encrypt := by
    intro nonce plaintext
    have htext : String.fromUTF8? ⟨plaintext.toUTF8.data.toList.toArray⟩ = some plaintext := by
      rw [Array.toArray_toList]
      unfold String.fromUTF8?
      exact dif_pos plaintext.isValidUTF8
    simp only [openSealed, htext]

def plainEnvironment : EnvironmentSettings where
  cloudflareAPIToken := " token "
  smtp := ⟨false, "", 0, "", "", [], none, ""⟩
  smtpPassword := ""
  backup := ⟨"", "", "", "", 1200⟩
  backupAccessKey := ""
  backupPassword := ""

def mailProfile : SMTPProfile :=
  ⟨true, "mail.example.org ", 0, "ops", "cdn@example.org", ["a@example.org", "A@example.org"],
    some ["Backup", "monitoring"], "TLS"⟩

def savingCalls : List Action :=
  [⟨.saveDNSDefaultTTL 120, none, 1⟩,
   ⟨.saveSMTP mailProfile (some "secret") (some 7), none, 2⟩,
   ⟨.clearSMTP, some (.message "database is locked"), 3⟩,
   ⟨.saveCloudflareToken " other" (some 8), none, 4⟩]

theorem settings_survive_restart_saved : ∃ m,
    newSettingsManager asciiPackages plainCipher .empty plainEnvironment = .ok m ∧
    newSettingsManager asciiPackages plainCipher
      (run (step asciiPackages plainCipher) ⟨.empty, m⟩ savingCalls).db plainEnvironment =
        .ok (run (step asciiPackages plainCipher) ⟨.empty, m⟩ savingCalls).manager :=
  ⟨_, rfl, settings_survive_restart rfl savingCalls⟩

end SimpleCdn.Settings
