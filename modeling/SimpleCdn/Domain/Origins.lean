import SimpleCdn.Domain.Settings
import SimpleCdn.Domain.SiteLists
import SimpleCdn.Domain.Types
import SimpleCdn.Domain.Validate
import SimpleCdn.Lib.Net

/-!
# Host names and origins

A host name that validation accepts is made of letters, digits, hyphens, dots and colons and does
not end in a dot, so trimming it changes nothing.  `ValidateOrigin` trims the three texts of an
origin, fills in the Host header and checks each of them; what it returns it accepts again
unchanged.
-/

namespace SimpleCdn

/-! ### The text of a host name -/

/-- The characters of host names, without a dot at the end. -/
structure HostText (cs : List Char) : Prop where
  nonempty : cs ≠ []
  chars : ∀ c ∈ cs, isLetterDigitHyphen c = true ∨ c = '.' ∨ c = ':'
  last : cs.getLast? ≠ some '.'

theorem isLetterDigitHyphen_of_hexValue {c : Char} (h : (Url.hexValue c).isSome = true) :
    isLetterDigitHyphen c = true := by
  rw [Url.hexValue] at h
  simp only [isLetterDigitHyphen, Bool.or_eq_true, Bool.and_eq_true, decide_eq_true_eq]
  split at h
  · next hdigit =>
    simp only [Url.isDigit, Bool.and_eq_true, decide_eq_true_eq] at hdigit
    exact Or.inl (Or.inr hdigit)
  · split at h
    · next hsmall =>
      simp only [Bool.and_eq_true, decide_eq_true_eq] at hsmall
      exact Or.inl (Or.inl (Or.inl ⟨hsmall.1, Char.le_trans hsmall.2 (by decide)⟩))
    · split at h
      · next hcapital =>
        simp only [Bool.and_eq_true, decide_eq_true_eq] at hcapital
        exact Or.inl (Or.inl (Or.inr ⟨hcapital.1, Char.le_trans hcapital.2 (by decide)⟩))
      · exact absurd h (by simp)

theorem isSpace_letterDigitHyphen {c : Char} (h : isLetterDigitHyphen c = true) :
    Text.isSpace c = false := by
  simp only [isLetterDigitHyphen, Bool.or_eq_true, Bool.and_eq_true, decide_eq_true_eq,
    Char.le_def, UInt32.le_iff_toNat_le] at h
  have hbounds : 0x2d ≤ c.toNat ∧ c.toNat ≤ 0x7a := by
    rcases h with ((h | h) | h) | rfl
    · exact ⟨le_trans (by decide) h.1, h.2⟩
    · exact ⟨le_trans (by decide) h.1, le_trans h.2 (by decide)⟩
    · exact ⟨le_trans (by decide) h.1, le_trans h.2 (by decide)⟩
    · decide
  simp only [Text.isSpace, Bool.or_eq_false_iff, Bool.and_eq_false_iff, decide_eq_false_iff_not]
  omega

/-- Every character that is not a dot stands in one of the labels. -/
theorem mem_splitOn {c : Char} {cs : List Char} (hmem : c ∈ cs) (hdot : c ≠ '.') :
    ∃ label ∈ cs.splitOn '.', c ∈ label := by
  induction cs with
  | nil => exact absurd hmem List.not_mem_nil
  | cons x xs ih =>
    rw [List.splitOn_cons_eq_if_modifyHead]
    obtain ⟨label, labels, hlabels⟩ := List.exists_cons_of_ne_nil (List.splitOn_ne_nil '.' xs)
    rw [hlabels] at ih ⊢
    rcases List.mem_cons.mp hmem with rfl | hmem
    · rw [if_neg (by simpa using hdot)]
      exact ⟨c :: label, List.mem_cons_self, List.mem_cons_self⟩
    · obtain ⟨found, hfound, hc⟩ := ih hmem
      split
      · exact ⟨found, List.mem_cons_of_mem _ hfound, hc⟩
      · rcases List.mem_cons.mp hfound with rfl | hfound
        · exact ⟨x :: found, List.mem_cons_self, List.mem_cons_of_mem _ hc⟩
        · exact ⟨found, List.mem_cons_of_mem _ hfound, hc⟩

/-- A dot at the end leaves an empty label behind it. -/
theorem nil_mem_splitOn {cs : List Char} (h : cs.getLast? = some '.') : [] ∈ cs.splitOn '.' := by
  obtain ⟨before, rfl⟩ := List.getLast?_eq_some_iff.mp h
  rw [List.splitOn_append_cons_self]
  exact List.mem_append_right _ (by simp)

theorem hostText_of_validHostname {value : String}
    (h : validHostname Net.parsesIP value = true) : HostText value.toList := by
  rw [validHostname, Bool.or_eq_true] at h
  rcases h with h | h
  · obtain ⟨htext, hsome⟩ := Net.parsesIP_text h
    exact ⟨hsome, fun c hc => (htext.chars c hc).imp_left isLetterDigitHyphen_of_hexValue,
      htext.last⟩
  · simp only [Bool.and_eq_true, decide_eq_true_eq, List.all_eq_true] at h
    obtain ⟨⟨⟨hsome, -⟩, -⟩, hlabels⟩ := h
    refine ⟨fun hnil => hsome (String.toList_eq_nil_iff.mp hnil), fun c hc => ?_, fun hlast => ?_⟩
    · by_cases hdot : c = '.'
      · exact Or.inr (Or.inl hdot)
      · obtain ⟨label, hlabel, hc⟩ := mem_splitOn hc hdot
        have hvalid := hlabels label hlabel
        simp only [validLabel, Bool.and_eq_true, List.all_eq_true] at hvalid
        exact Or.inl (hvalid.2 c hc)
    · have hvalid := hlabels [] (nil_mem_splitOn hlast)
      simp [validLabel] at hvalid

namespace HostText

variable {value : String}

theorem isSpace_eq_false (h : HostText value.toList) {c : Char} (hc : c ∈ value.toList) :
    Text.isSpace c = false := by
  rcases h.chars c hc with hc | rfl | rfl
  · exact isSpace_letterDigitHyphen hc
  · decide
  · decide

theorem trimSpace (h : HostText value.toList) : Text.trimSpace value = value := by
  have hkept : ∀ cs : List Char, (∀ c ∈ cs, c ∈ value.toList) →
      cs.dropWhile Text.isSpace = cs := by
    intro cs hcs
    rw [List.dropWhile_eq_self_iff]
    intro hpos
    simp [h.isSpace_eq_false (hcs _ (List.getElem_mem hpos))]
  rw [Text.trimSpace, hkept _ (fun _ hc => hc), hkept _ (fun _ hc => List.mem_reverse.mp hc),
    List.reverse_reverse, String.ofList_toList]

theorem trimSuffix (h : HostText value.toList) : Text.trimSuffix value "." = value := by
  rw [Text.trimSuffix, if_neg]
  intro hsuffix
  obtain ⟨before, hbefore⟩ := List.isSuffixOf_iff_suffix.mp hsuffix
  apply h.last
  rw [← hbefore]
  simp

end HostText

theorem HostText.ne_empty {value : String} (h : HostText value.toList) : value ≠ "" :=
  fun hempty => h.nonempty (by rw [hempty]; rfl)

/-- Lowering a text twice is lowering it once. -/
theorem map_toLower_idem {toLower : Char → Char} (hlower : ∀ c, toLower (toLower c) = toLower c)
    (value : String) : (value.map toLower).map toLower = value.map toLower := by
  apply String.ext
  simp [hlower]

/-! ### Ports and Host headers -/

/-- `strconv.Atoi` of digits; a number beyond `int` is beyond every range checked here. -/
def decimal (cs : List Char) : Option Int :=
  if cs ≠ [] ∧ cs.all Url.isDigit then
    some (cs.foldl (fun value c => 10 * value + (c.toNat - '0'.toNat : Nat)) 0)
  else none

/-- `strconv.Atoi` -/
def atoi : List Char → Option Int
  | '-' :: cs => (decimal cs).map fun value => -value
  | '+' :: cs => decimal cs
  | cs => decimal cs

def validPort (port : List Char) : Bool :=
  (atoi port).any fun value => 1 ≤ value && value ≤ 65535

/-- `ValidHostHeader` -/
def validHostHeader (value : String) : Bool :=
  !containsAny value [' ', '\t', '\r', '\n', '/', '@', '?', '#'] &&
    match Net.splitHostPort value.toList with
    | some (host, port) =>
      let isBracket := fun c => decide (c = '[' ∨ c = ']')
      validHostname Net.parsesIP (String.ofList ((host.dropWhile isBracket).rdropWhile isBracket)) &&
        validPort port
    | none => validHostname Net.parsesIP value

/-! ### Origins -/

/-- `ValidateOrigin` -/
def validateOrigin (toLower : Char → Char) (origin : Origin) : Except String Origin := do
  let url := Text.trimSpace origin.url
  let absolute := "must be an absolute HTTP(S), WebSocket, or gRPC URL"
  let parsed ← orError (Url.parse url.toList) absolute
  require (parsed.scheme ≠ [] ∧ parsed.host ≠ []) absolute
  let scheme := String.ofList parsed.scheme
  require (validOriginScheme scheme = true) "scheme must be http, https, ws, wss, grpc, or grpcs"
  require (parsed.user = none ∧ parsed.rawQuery = [] ∧ parsed.fragment = [] ∧
      (parsed.path = [] ∨ parsed.path = ['/']))
    "must not include credentials, path, query, or fragment"
  let hostname := String.ofList parsed.hostname
  require (validHostname Net.parsesIP hostname = true) "invalid origin hostname"
  require (parsed.port = [] ∨ validPort parsed.port = true) "invalid origin port"
  let given := Text.trimSpace origin.hostHeader
  let hostHeader := if given = "" then hostname else given
  require (validHostHeader hostHeader = true) "invalid origin Host header"
  let tlsServerName := (Text.trimSpace origin.tlsServerName).map toLower
  require (tlsServerName = "" ∨ originUsesTLS scheme = true)
    "TLS server name is only supported for HTTPS, WSS, or GRPCS origins"
  require (tlsServerName = "" ∨ (Net.parsesIP tlsServerName = false ∧
      validHostname Net.parsesIP tlsServerName = true))
    "invalid TLS server name; use a DNS hostname without a port or wildcard"
  return { origin with url := url, hostHeader := hostHeader, tlsServerName := tlsServerName }

/-- An origin that was accepted is accepted again, and nothing in it changes. -/
theorem validateOrigin_idem {toLower : Char → Char}
    (hlower : ∀ c, toLower (toLower c) = toLower c) {origin origin' : Origin}
    (h : validateOrigin toLower origin = .ok origin') :
    validateOrigin toLower origin' = .ok origin' := by
  simp only [validateOrigin, bind_eq_ok, orError_eq_ok, require_eq_ok, pure_eq_ok,
    exists_const] at h ⊢
  obtain ⟨parsed, hparsed, habsolute, hscheme, hbare, hhostname, hport, hheader, htls, hname,
    rfl⟩ := h
  have hhost := hostText_of_validHostname hhostname
  generalize hgiven : (if Text.trimSpace origin.hostHeader = "" then String.ofList parsed.hostname
    else Text.trimSpace origin.hostHeader) = header at hheader ⊢
  generalize hlowered : (Text.trimSpace origin.tlsServerName).map toLower = name at htls hname ⊢
  have htrimmed : Text.trimSpace header = header ∧ header ≠ "" := by
    rw [← hgiven]
    split
    · exact ⟨hhost.trimSpace, hhost.ne_empty⟩
    · next hsome => exact ⟨Text.trimSpace_trimSpace _, hsome⟩
  have hfixed : (Text.trimSpace name).map toLower = name := by
    rcases hname with hempty | ⟨-, hvalid⟩
    · rw [hempty]
      apply String.ext
      simp [Text.trimSpace]
    · rw [(hostText_of_validHostname hvalid).trimSpace, ← hlowered, map_toLower_idem hlower]
  refine ⟨parsed, ?_⟩
  simp only [Text.trimSpace_trimSpace, htrimmed.1, if_neg htrimmed.2, hfixed]
  exact ⟨hparsed, habsolute, hscheme, hbare, hhostname, hport, hheader, htls, hname, trivial⟩

end SimpleCdn
