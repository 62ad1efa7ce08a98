import SimpleCdn.Lib.Url

/-!
# Hosts, ports and addresses

`splitHostPort` follows `net.SplitHostPort` of Go's standard library: the port stands behind the
last colon, and only a bracketed host may contain more than one.  `parsesIP` is whether
`net.ParseIP` accepts a text; an accepted text has no other characters than hexadecimal digits,
dots and colons, and does not end in a dot.
-/

namespace SimpleCdn.Net

open Url (cut cutLast hexValue isDigit isIPv4 isIPv6 ipv4Fields ipv6Groups)

/-- `net.SplitHostPort` -/
def splitHostPort (hostport : List Char) : Option (List Char × List Char) :=
  match cutLast ':' hostport with
  | (none, _) => none
  | (some host, port) =>
    match hostport with
    | '[' :: rest =>
      match cut ']' rest with
      | (inner, some after) =>
        if after = ':' :: port ∧ '[' ∉ rest ∧ ']' ∉ after then some (inner, port) else none
      | (_, none) => none
    | _ => if ':' ∉ host ∧ '[' ∉ hostport ∧ ']' ∉ hostport then some (host, port) else none

example : splitHostPort "[2001:db8::1]:443".toList =
    some ("2001:db8::1".toList, "443".toList) := by decide

example : splitHostPort "2001:db8::1".toList = none := by decide

/-- `net.ParseIP` accepts the text; unlike `netip.ParseAddr` it takes no zone. -/
def parsesIP (value : String) : Bool :=
  isIPv4 value.toList || (isIPv6 value.toList && !value.toList.contains '%')

/-! ### The text of an address -/

/-- The characters of addresses, without a dot at the end. -/
structure AddressText (cs : List Char) : Prop where
  chars : ∀ c ∈ cs, (hexValue c).isSome ∨ c = '.' ∨ c = ':'
  last : cs.getLast? ≠ some '.'

theorem AddressText.append {cs ds : List Char} (hcs : AddressText cs) (hds : AddressText ds) :
    AddressText (cs ++ ds) := by
  refine ⟨fun c hc => ?_, ?_⟩
  · rcases List.mem_append.mp hc with hc | hc
    · exact hcs.chars c hc
    · exact hds.chars c hc
  · rw [List.getLast?_append]
    rcases hlast : ds.getLast? with _ | d
    · simpa using hcs.last
    · simpa [hlast] using hds.last

theorem isSome_hexValue_of_isDigit {c : Char} (h : isDigit c = true) :
    (hexValue c).isSome = true := by
  rw [hexValue, if_pos h]
  rfl

theorem AddressText.digits {cs : List Char} (h : ∀ c ∈ cs, (hexValue c).isSome = true) :
    AddressText cs := by
  refine ⟨fun c hc => Or.inl (h c hc), fun hlast => ?_⟩
  have hdot := h '.' (List.mem_of_getLast? hlast)
  exact absurd hdot (by decide)

theorem AddressText.colon : AddressText [':'] :=
  ⟨fun c hc => Or.inr (Or.inr (List.mem_singleton.mp hc)), by decide⟩

/-- Behind a dot the digits start again, so a dot is never the last character. -/
theorem ipv4Fields_text {octets digits value : Nat} {cs : List Char}
    (h : ipv4Fields octets digits value cs = true) :
    AddressText cs ∧ (cs = [] → 0 < digits) := by
  induction cs generalizing octets digits value with
  | nil =>
    simp only [ipv4Fields, Bool.and_eq_true, decide_eq_true_eq] at h
    exact ⟨⟨fun c hc => absurd hc List.not_mem_nil, by simp⟩, fun _ => h.2⟩
  | cons c cs ih =>
    rw [ipv4Fields] at h
    split at h
    · next hdigit =>
      simp only [Bool.and_eq_true] at h
      have hdigits : AddressText [c] := .digits fun d hd => by
        rw [List.mem_singleton.mp hd]
        exact isSome_hexValue_of_isDigit hdigit
      exact ⟨hdigits.append (ih h.2).1, nofun⟩
    · simp only [Bool.and_eq_true, decide_eq_true_eq] at h
      obtain ⟨⟨⟨rfl, -⟩, -⟩, h⟩ := h
      obtain ⟨htext, hsome⟩ := ih h
      refine ⟨⟨fun d hd => ?_, ?_⟩, nofun⟩
      · rcases List.mem_cons.mp hd with rfl | hd
        · exact Or.inr (Or.inl rfl)
        · exact htext.chars d hd
      · rw [List.getLast?_cons]
        rcases hlast : cs.getLast? with _ | d
        · exact absurd (hsome (List.getLast?_eq_none_iff.mp hlast)) (Nat.lt_irrefl 0)
        · have := htext.last
          simpa [hlast] using this

theorem isIPv4_text {cs : List Char} (h : isIPv4 cs = true) : AddressText cs :=
  (ipv4Fields_text h).1

/-- The groups of an IPv6 address are hexadecimal digits and colons, with an IPv4 address at most
at the end. -/
theorem ipv6Groups_text {fuel groups : Nat} {ellipsis : Bool} {cs : List Char}
    (h : ipv6Groups fuel groups ellipsis cs = true) : AddressText cs := by
  induction fuel generalizing groups ellipsis cs with
  | zero => exact absurd h (by simp [ipv6Groups])
  | succ fuel ih =>
    generalize hdigits : (cs.takeWhile fun c => (hexValue c).isSome) = digits
    have hleading : AddressText digits := .digits fun c hc =>
      List.all_eq_true.mp (hdigits ▸ List.all_takeWhile) c hc
    have hsplit : digits ++ cs.drop digits.length = cs :=
      List.prefix_iff_eq_append.mp (hdigits ▸ List.takeWhile_prefix _)
    generalize hrest : cs.drop digits.length = rest at hsplit
    rw [ipv6Groups] at h
    simp only [hdigits, hrest] at h
    split at h
    · simp only [Bool.and_eq_true, List.isEmpty_iff] at h
      rw [h.1]
      exact ⟨nofun, nofun⟩
    · split at h
      · exact absurd h Bool.false_ne_true
      · rw [← hsplit]
        refine hleading.append ?_
        split at h
        · exact ⟨nofun, nofun⟩
        · simp only [Bool.and_eq_true] at h
          have htext := isIPv4_text h.1.2
          rw [← hsplit] at htext
          exact ⟨fun c hc => htext.chars c (List.mem_append_right _ hc), fun hlast =>
            htext.last (by rw [List.getLast?_append, hlast]; rfl)⟩
        · next rest =>
          rw [Bool.and_eq_true] at h
          refine AddressText.colon.append (AddressText.colon.append ?_)
          obtain ⟨-, h⟩ := h
          split at h
          · next hempty =>
            rw [List.isEmpty_iff.mp hempty]
            exact ⟨nofun, nofun⟩
          · exact ih h
        · simp only [Bool.and_eq_true] at h
          exact AddressText.colon.append (ih h.2)
        · exact absurd h Bool.false_ne_true

theorem isIPv6_text {cs : List Char} (h : isIPv6 cs = true) (hzone : '%' ∉ cs) :
    AddressText cs := by
  rw [isIPv6, Url.cut_of_notMem hzone] at h
  simp only [Bool.and_eq_true] at h
  obtain ⟨-, h⟩ := h
  split at h
  · exact AddressText.colon.append AddressText.colon
  · exact AddressText.colon.append (AddressText.colon.append (ipv6Groups_text h))
  · exact ipv6Groups_text h

theorem colon_mem_of_isIPv6 {cs : List Char} (h : isIPv6 cs = true) : ':' ∈ cs := by
  rw [isIPv6] at h
  simp only [Bool.and_eq_true, List.contains_iff_mem] at h
  rw [(Url.cut_spec '%' cs).2]
  exact List.mem_append_left _ h.1.1

/-- What `net.ParseIP` accepts is not empty and has the characters of an address. -/
theorem parsesIP_text {value : String} (h : parsesIP value = true) :
    AddressText value.toList ∧ value.toList ≠ [] := by
  rw [parsesIP, Bool.or_eq_true] at h
  rcases h with h | h
  · exact ⟨isIPv4_text h, fun hnil => by rw [hnil] at h; exact absurd h (by decide)⟩
  · rw [Bool.and_eq_true] at h
    refine ⟨isIPv6_text h.1 (by simpa using h.2), fun hnil => ?_⟩
    exact List.ne_nil_of_mem (colon_mem_of_isIPv6 h.1) hnil

end SimpleCdn.Net
