import Mathlib.Data.List.SplitOn
import SimpleCdn.Lib.Checked
import SimpleCdn.Lib.Text

/-!
# The domains and nodes of a site

`NormalizeAndValidateSite` accepts a site with at least one domain and one node.  Domains are
brought to lower case without a trailing dot; neither list has anything twice.  `toLower` is
`unicode.ToLower`, which also takes some characters beyond ASCII to ASCII letters.
-/

namespace SimpleCdn

def isLetterDigitHyphen (c : Char) : Bool :=
  ('a' ≤ c && c ≤ 'z') || ('A' ≤ c && c ≤ 'Z') || ('0' ≤ c && c ≤ '9') || c = '-'

def validLabel (label : List Char) : Bool :=
  label ≠ [] && (label.map Char.utf8Size).sum ≤ 63 && label.head? ≠ some '-' &&
    label.getLast? ≠ some '-' && label.all isLetterDigitHyphen

/-- `ValidHostname`; `parsesIP` is whether `net.ParseIP` accepts a text. -/
def validHostname (parsesIP : String → Bool) (value : String) : Bool :=
  parsesIP value || (value ≠ "" && Text.byteLength value ≤ 253 &&
    !value.toList.tails.any ['.', '.'].isPrefixOf && (value.toList.splitOn '.').all validLabel)

def normalizeDomain (toLower : Char → Char) (parsesIP : String → Bool) (domains : List String)
    (domainName : String) : Except String (List String) := do
  let domainName := (Text.trimSuffix (Text.trimSpace domainName) ".").map toLower
  require (parsesIP domainName = false)
    ("site domain " ++ domainName.quote ++ " must be a DNS hostname, not an IP address")
  require (validHostname parsesIP domainName = true) ("invalid domain " ++ domainName.quote)
  require (domainName ∉ domains) ("duplicate domain " ++ domainName.quote)
  return domains ++ [domainName]

def normalizeDomains (toLower : Char → Char) (parsesIP : String → Bool) (domains : List String) :
    Except String (List String) := do
  require (domains ≠ []) "at least one domain is required"
  domains.foldlM (normalizeDomain toLower parsesIP) []

def normalizeNodeID (nodes : List String) (nodeID : String) : Except String (List String) := do
  let nodeID := Text.trimSpace nodeID
  require (nodeID ≠ "") "node ID is required"
  require (nodeID ∉ nodes) ("duplicate node ID " ++ nodeID.quote)
  return nodes ++ [nodeID]

def normalizeNodeIDs (nodes : List String) : Except String (List String) := do
  require (nodes ≠ []) "at least one node is required"
  nodes.foldlM normalizeNodeID []

/-- A loop that adds one new element at each pass makes as many distinct ones as it takes. -/
theorem nodup_of_foldlM {f : List String → String → Except String (List String)}
    (hstep : ∀ done x done', f done x = .ok done' → ∃ y, y ∉ done ∧ done' = done ++ [y])
    {l result : List String} (h : l.foldlM f [] = .ok result) :
    result.Nodup ∧ result.length = l.length := by
  have hends := ends_foldlM (f := f) (l := l) (b := []) (E := fun _ => True)
    (P := fun done result => result.Nodup ∧ result.length = done.length) ?_ ?_
  · rw [h] at hends
    exact hends
  · rintro done x rest b - ⟨hnodup, hlength⟩
    refine ends_iff.mpr ⟨fun b' hb' => ?_, fun _ _ => trivial⟩
    obtain ⟨y, hnew, rfl⟩ := hstep b x b' hb'
    refine ⟨?_, ?_⟩
    · refine List.nodup_append.mpr ⟨hnodup, by simp, ?_⟩
      rintro a ha _ hb rfl
      exact hnew (List.mem_singleton.mp hb ▸ ha)
    · simp only [List.length_append, List.length_singleton, hlength]
  · exact ⟨List.nodup_nil, rfl⟩

theorem normalizeDomains_ok {toLower : Char → Char} {parsesIP : String → Bool}
    {domains result : List String} (h : normalizeDomains toLower parsesIP domains = .ok result) :
    result.Nodup ∧ result ≠ [] := by
  simp only [normalizeDomains, bind_eq_ok, require_eq_ok] at h
  obtain ⟨_, hne, h⟩ := h
  obtain ⟨hnodup, hlength⟩ := nodup_of_foldlM (fun done x done' hstep => by
    simp only [normalizeDomain, bind_eq_ok, require_eq_ok, pure_eq_ok] at hstep
    obtain ⟨_, -, _, -, _, hnew, rfl⟩ := hstep
    exact ⟨_, hnew, rfl⟩) h
  refine ⟨hnodup, fun hnil => hne ?_⟩
  rw [hnil] at hlength
  exact List.length_eq_zero_iff.mp hlength.symm

theorem normalizeNodeIDs_ok {nodes result : List String} (h : normalizeNodeIDs nodes = .ok result) :
    result.Nodup ∧ result ≠ [] := by
  simp only [normalizeNodeIDs, bind_eq_ok, require_eq_ok] at h
  obtain ⟨_, hne, h⟩ := h
  obtain ⟨hnodup, hlength⟩ := nodup_of_foldlM (fun done x done' hstep => by
    simp only [normalizeNodeID, bind_eq_ok, require_eq_ok, pure_eq_ok] at hstep
    obtain ⟨_, -, _, hnew, rfl⟩ := hstep
    exact ⟨_, hnew, rfl⟩) h
  refine ⟨hnodup, fun hnil => hne ?_⟩
  rw [hnil] at hlength
  exact List.length_eq_zero_iff.mp hlength.symm

end SimpleCdn
