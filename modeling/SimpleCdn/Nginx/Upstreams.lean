import SimpleCdn.Domain.Origins
import SimpleCdn.Nginx.Render

/-!
# The address of an upstream

`ValidateOrigin` and `parseOrigin` read the same URL.  The renderer adds the default port of the
scheme to a host that has none, but a host may also end in a colon with no port behind it; then
the address has two colons.
-/

namespace SimpleCdn.Nginx

/-- The explicit port of a URL, or the default port of its scheme. -/
def upstreamPort (url : Url.URL) : List Char :=
  if url.port ≠ [] then url.port
  else if originUsesTLS (String.ofList url.scheme) then "443".toList else "80".toList

/-- The address names the host of the URL, in brackets if it is an IPv6 address, and behind one
colon the port. -/
structure Usable (url : Url.URL) (address : String) : Prop where
  text : address =
    Text.joinHostPort (String.ofList url.hostname) (String.ofList (upstreamPort url))
  port : validPort (upstreamPort url) = true

/-- What an accepted origin's URL is like. -/
theorem validateOrigin_url {toLower : Char → Char} {origin origin' : Origin}
    (h : validateOrigin toLower origin = .ok origin') :
    ∃ url, Url.parse origin'.url.toList = some url ∧ url.scheme ≠ [] ∧ url.host ≠ [] ∧
      validOriginScheme (String.ofList url.scheme) = true ∧
      (url.path = [] ∨ url.path = ['/']) ∧
      validHostname Net.parsesIP (String.ofList url.hostname) = true ∧
      (url.port = [] ∨ validPort url.port = true) := by
  simp only [validateOrigin, bind_eq_ok, orError_eq_ok, require_eq_ok, pure_eq_ok,
    exists_const] at h
  obtain ⟨url, hparse, habsolute, hscheme, hbare, hhostname, hport, -, -, -, rfl⟩ := h
  exact ⟨url, hparse, habsolute.1, habsolute.2, hscheme, hbare.2.2.2, hhostname, hport⟩

theorem validPort_upstreamPort {url : Url.URL}
    (h : url.port = [] ∨ validPort url.port = true) : validPort (upstreamPort url) = true := by
  rw [upstreamPort]
  split
  · next hsome => exact h.resolve_left hsome
  · split
    · decide
    · decide

/-- The part of a host before its port is what `net.JoinHostPort` writes for the host name. -/
theorem joinHostPort_hostname {url : Url.URL} {part : List Char}
    (hvalid : validHostname Net.parsesIP (String.ofList url.hostname) = true)
    (hpart : (part = url.hostname ∧ ':' ∉ url.hostname) ∨
      (part = '[' :: url.hostname ++ [']'] ∧ Url.isIPv6 url.hostname = true))
    (port : List Char) :
    Text.joinHostPort (String.ofList url.hostname) (String.ofList port) =
      String.ofList (part ++ ':' :: port) := by
  apply String.ext
  rw [Text.joinHostPort]
  rcases hpart with ⟨rfl, hcolon⟩ | ⟨rfl, haddress⟩
  · rw [if_neg]
    · simp
    · have htext := hostText_of_validHostname hvalid
      rw [String.toList_ofList] at htext ⊢
      rw [List.any_eq_true]
      rintro ⟨c, hc, hspecial⟩
      rw [Bool.or_eq_true, decide_eq_true_eq, decide_eq_true_eq] at hspecial
      rcases hspecial with rfl | rfl
      · exact hcolon hc
      · exact absurd (htext.chars _ hc) (by decide)
  · rw [if_pos]
    · simp
    · rw [String.toList_ofList, List.any_eq_true]
      exact ⟨':', Net.colon_mem_of_isIPv6 haddress, by decide⟩

theorem parseOrigin_ok {origin : Origin} {url : Url.URL}
    (hparse : Url.parse origin.url.toList = some url) (hscheme : url.scheme ≠ [])
    (hhost : url.host ≠ []) (hknown : validOriginScheme (String.ofList url.scheme) = true)
    (hpath : url.path = [] ∨ url.path = ['/']) :
    ∃ parsed, parseOrigin origin = .ok parsed ∧
      parsed.host = url.host ++ if url.port = [] then ':' :: upstreamPort url else [] := by
  simp only [parseOrigin, bind_eq_ok, orError_eq_ok, require_eq_ok, exists_const]
  by_cases hport : url.port = []
  · refine ⟨_, ⟨url, hparse, ⟨hscheme, hhost⟩, hknown, hpath, if_pos hport⟩, ?_⟩
    rw [if_pos hport, upstreamPort, if_neg (not_not_intro hport)]
    split
    · rfl
    · rfl
  · refine ⟨url, ⟨url, hparse, ⟨hscheme, hhost⟩, hknown, hpath, if_neg hport⟩, ?_⟩
    rw [if_neg hport, List.append_nil]

/-- The address of an upstream is usable unless the host of its URL ends in a colon. -/
theorem upstream_usable_iff {toLower : Char → Char} {origin origin' : Origin}
    (h : validateOrigin toLower origin = .ok origin') :
    ∃ url parsed, Url.parse origin'.url.toList = some url ∧ parseOrigin origin' = .ok parsed ∧
      (Usable url (upstream origin' parsed).hostPort ↔ url.host.getLast? ≠ some ':') := by
  obtain ⟨url, hparse, hscheme, hhost, hknown, hpath, hvalid, hport⟩ := validateOrigin_url h
  obtain ⟨parsed, hparsed, hparsedHost⟩ := parseOrigin_ok hparse hscheme hhost hknown hpath
  obtain ⟨cs, hcs⟩ := Url.parse_host hparse hhost
  obtain ⟨part, hpart, hdigits, hsplit⟩ := Url.splitHostPort_spec hcs
  refine ⟨url, parsed, hparse, hparsed, ?_⟩
  have husable : Usable url (upstream origin' parsed).hostPort ↔
      parsed.host = part ++ ':' :: upstreamPort url := by
    have hjoin := joinHostPort_hostname hvalid hpart (upstreamPort url)
    refine ⟨fun husable => ?_, fun heq => ⟨?_, validPort_upstreamPort hport⟩⟩
    · exact String.ofList_injective (husable.text.trans hjoin)
    · exact (congrArg String.ofList heq).trans hjoin.symm
  have hend : part.getLast? ≠ some ':' := by
    rcases hpart with ⟨rfl, hcolon⟩ | ⟨rfl, -⟩
    · exact fun hlast => hcolon (List.mem_of_getLast? hlast)
    · rw [List.getLast?_concat]
      decide
  change url.port.all Url.isDigit = true at hdigits
  change (url.host = part ∧ url.port = []) ∨ url.host = part ++ ':' :: url.port at hsplit
  rw [husable, hparsedHost]
  rcases hsplit with ⟨hhostPart, hnone⟩ | hhostPart
  · rw [if_pos hnone, hhostPart]
    exact iff_of_true rfl hend
  · by_cases hnone : url.port = []
    · -- a colon with no port: the default port brings one of its own
      rw [if_pos hnone, hhostPart, hnone]
      refine iff_of_false (fun heq => ?_) (fun hlast => hlast List.getLast?_concat)
      have hlength := congrArg List.length heq
      simp at hlength
    · rw [if_neg hnone, List.append_nil, hhostPart, upstreamPort, if_pos hnone]
      refine iff_of_true rfl fun hlast => ?_
      obtain ⟨c, digits, hcons⟩ := List.exists_cons_of_ne_nil hnone
      have hcolon : ':' ∈ url.port := by
        apply List.mem_of_getLast?
        rw [hcons] at hlast ⊢
        simpa [List.getLast?_append, List.getLast?_cons] using hlast
      exact Url.notMem_digits hdigits (by decide) hcolon

/-- An origin with a colon and no port. -/
def openPort : Origin := ⟨"http://origin.example.com:", "origin.example.com", "", true⟩

def openPortURL : Url.URL :=
  ⟨"http".toList, [], none, "origin.example.com:".toList, [], [], []⟩

theorem openPort_unusable :
    validateOrigin Char.toLower openPort = .ok openPort ∧
      Url.parse openPort.url.toList = some openPortURL ∧
      ∀ parsed, parseOrigin openPort = .ok parsed →
        (upstream openPort parsed).hostPort = "origin.example.com::80" ∧
          ¬Usable openPortURL (upstream openPort parsed).hostPort := by
  refine ⟨by decide +kernel, by decide +kernel, fun parsed hparsed => ?_⟩
  have hrendered : parseOrigin openPort =
      .ok { openPortURL with host := "origin.example.com::80".toList } := by decide +kernel
  obtain rfl := Except.ok.inj (hparsed.symm.trans hrendered)
  refine ⟨by decide +kernel, fun husable => ?_⟩
  exact absurd husable.text (by decide +kernel)

theorem upstream_usable_address :
    ∃ url parsed, Url.parse "https://[2001:db8::1]".toList = some url ∧
      parseOrigin ⟨"https://[2001:db8::1]", "2001:db8::1", "", true⟩ = .ok parsed ∧
      (Usable url (upstream ⟨"https://[2001:db8::1]", "2001:db8::1", "", true⟩ parsed).hostPort ↔
        url.host.getLast? ≠ some ':') :=
  upstream_usable_iff (show validateOrigin Char.toLower ⟨" https://[2001:db8::1]", "", "", true⟩ =
    .ok ⟨"https://[2001:db8::1]", "2001:db8::1", "", true⟩ by decide +kernel)

end SimpleCdn.Nginx
