import Mathlib.Data.List.Perm.Subperm
import Mathlib.Data.List.Nodup
import SimpleCdn.Lib.Text

/-!
# The migration of monitoring target names

Every target gets a name of its own: its old name or its address, cut to the limit, or such a text
with a number behind it.  The loop that looks for one has no bound of its own; `fuel` bounds it
here, and enough fuel always finds a name.
-/

namespace SimpleCdn.TargetNames

def maxMonitoringTargetNameLength : ℕ := 64

/-- A row of `monitoring_targets`. -/
structure Target where
  id : String
  name : String
  address : String
  deriving DecidableEq, Repr

/-- `fmt.Sprintf(" (%d)", sequence)` -/
def suffix (sequence : ℕ) : List Char :=
  ' ' :: '(' :: (Nat.toDigits 10 sequence ++ [')'])

def suffixed (base : List Char) (sequence : ℕ) : List Char :=
  base.take (maxMonitoringTargetNameLength - (suffix sequence).length) ++ suffix sequence

section

variable (toLower : Char → Char)

/-- The loop of `uniqueMigratedMonitoringTargetName`; `used` are the lowered names taken. -/
def findName (base : List Char) (used : List (List Char)) : ℕ → ℕ → List Char → Option (List Char)
  | 0, _, _ => none
  | fuel + 1, sequence, candidate =>
    if candidate.map toLower ∉ used then some candidate
    else findName base used fuel (sequence + 1) (suffixed base sequence)

/-- `uniqueMigratedMonitoringTargetName` -/
def uniqueMigratedMonitoringTargetName (fuel : ℕ) (base : List Char) (used : List (List Char)) :
    Option (List Char) :=
  findName toLower base used fuel 2 (base.take maxMonitoringTargetNameLength)

/-- The text a name is made from. -/
def Target.base (target : Target) : List Char :=
  let base := Text.trimSpace target.name
  (if base = "" then target.address else base).toList

/-- The loop of `migrateMonitoringTargetNames`. -/
def renameTargets (fuel : ℕ) : List Target → List (List Char) → Option (List Target)
  | [], _ => some []
  | target :: targets, used => do
    let name ← uniqueMigratedMonitoringTargetName toLower fuel target.base used
    let renamed ← renameTargets fuel targets (name.map toLower :: used)
    return { target with name := String.ofList name } :: renamed

/-- `migrateMonitoringTargetNames`, of the targets in the order of the query. -/
def migrateMonitoringTargetNames (fuel : ℕ) (targets : List Target) : Option (List Target) :=
  renameTargets toLower fuel targets []

end

/-- `COLLATE NOCASE`: ASCII letters are compared without their case. -/
def nocase (name : String) : List Char := name.toList.map Char.toLower

/-! ### The candidates -/

section

variable {toLower : Char → Char} {base candidate name : List Char} {used : List (List Char)}
  {fuel sequence : ℕ}

/-- The digits of a number are what stands in front of the closing bracket. -/
theorem suffix_digits (front : List Char) (sequence : ℕ) :
    ((front ++ suffix sequence).reverse.tail.takeWhile Char.isDigit).reverse =
      Nat.toDigits 10 sequence := by
  have hreverse : (front ++ suffix sequence).reverse.tail =
      (Nat.toDigits 10 sequence).reverse ++ '(' :: ' ' :: front.reverse := by
    rw [suffix, List.reverse_append, List.reverse_cons, List.reverse_cons, List.reverse_append]
    simp
  have hdigits : ∀ c ∈ (Nat.toDigits 10 sequence).reverse, c.isDigit = true := fun c hc =>
    Nat.isDigit_of_mem_toDigits (by decide) (by decide) (List.mem_reverse.mp hc)
  rw [hreverse, List.takeWhile_append_of_pos hdigits, List.takeWhile_cons_of_neg (by decide),
    List.append_nil, List.reverse_reverse]

theorem toDigits_inj {m n : ℕ} (h : Nat.toDigits 10 m = Nat.toDigits 10 n) : m = n := by
  have hm : Nat.ofDigitChars 10 (Nat.toDigits 10 m) 0 = m := Nat.ofDigitChars_ten_toDigits
  rw [h, Nat.ofDigitChars_ten_toDigits] at hm
  exact hm.symm

theorem toLower_of_isDigit {c : Char} (h : c.isDigit = true) :
    c.toNat < 128 ∧ c.toLower = c := by
  rw [Char.isDigit, Bool.and_eq_true, decide_eq_true_iff, decide_eq_true_iff] at h
  have hle : c.toNat ≤ 57 := h.2
  refine ⟨by omega, dif_neg fun hupper => ?_⟩
  have hge : 65 ≤ c.toNat := hupper.1
  omega

/-- Lowering leaves a suffix as it is. -/
theorem map_suffix (hlower : ∀ c : Char, c.toNat < 128 → toLower c = c.toLower) (sequence : ℕ) :
    (suffix sequence).map toLower = suffix sequence := by
  have hascii : ∀ c : Char, c.toNat < 128 → c.toLower = c → toLower c = c :=
    fun c hc hsame => (hlower c hc).trans hsame
  refine (List.map_congr_left fun c hc => ?_).trans (List.map_id _)
  rw [suffix, List.mem_cons, List.mem_cons, List.mem_append, List.mem_singleton] at hc
  rcases hc with rfl | rfl | hc | rfl
  · exact hascii _ (by decide) (by decide)
  · exact hascii _ (by decide) (by decide)
  · obtain ⟨hsmall, hsame⟩ :=
      toLower_of_isDigit (Nat.isDigit_of_mem_toDigits (by decide) (by decide) hc)
    exact hascii c hsmall hsame
  · exact hascii _ (by decide) (by decide)

theorem map_suffixed (hlower : ∀ c : Char, c.toNat < 128 → toLower c = c.toLower)
    (base : List Char) (sequence : ℕ) : (suffixed base sequence).map toLower =
      (base.take (maxMonitoringTargetNameLength - (suffix sequence).length)).map toLower ++
        suffix sequence := by
  rw [suffixed, List.map_append, map_suffix hlower]

/-- Names with different numbers are different. -/
theorem suffixed_inj (hlower : ∀ c : Char, c.toNat < 128 → toLower c = c.toLower)
    (base : List Char) {m n : ℕ}
    (h : (suffixed base m).map toLower = (suffixed base n).map toLower) : m = n := by
  rw [map_suffixed hlower, map_suffixed hlower] at h
  refine toDigits_inj ?_
  rw [← suffix_digits _ m, h, suffix_digits]

theorem length_suffixed_le (base : List Char) (h : sequence < 10 ^ 61) :
    (suffixed base sequence).length ≤ maxMonitoringTargetNameLength := by
  have hdigits : (Nat.toDigits 10 sequence).length ≤ 61 :=
    (Nat.length_toDigits_le_iff (by decide) (by decide)).mpr h
  have hsuffix : (suffix sequence).length = (Nat.toDigits 10 sequence).length + 3 := by
    rw [suffix, List.length_cons, List.length_cons, List.length_append, List.length_singleton]
  have htake := List.length_take_le
    (maxMonitoringTargetNameLength - (suffix sequence).length) base
  have hlimit : maxMonitoringTargetNameLength = 64 := rfl
  rw [suffixed, List.length_append]
  omega

theorem suffixed_ne_nil (base : List Char) (sequence : ℕ) : suffixed base sequence ≠ [] :=
  List.append_ne_nil_of_right_ne_nil _ (List.cons_ne_nil _ _)

/-! ### The loop -/

/-- When no name has been found all the candidates are taken. -/
theorem taken_of_findName (h : findName toLower base used fuel sequence candidate = none) :
    ∀ k, k + 1 < fuel → (suffixed base (sequence + k)).map toLower ∈ used := by
  induction fuel generalizing sequence candidate with
  | zero => exact fun k hk => absurd hk (Nat.not_lt_zero _)
  | succ fuel ih =>
    rw [findName] at h
    split at h
    · cases h
    · intro k hk
      cases k with
      | zero =>
        cases fuel with
        | zero => exact absurd hk (Nat.lt_irrefl _)
        | succ fuel =>
          rw [findName] at h
          split at h
          · cases h
          · next hnot => exact not_not.mp hnot
      | succ k =>
        have hlater := ih h k (by omega)
        rwa [Nat.add_right_comm, Nat.add_assoc] at hlater

theorem mem_of_findName (h : findName toLower base used fuel sequence candidate = some name) :
    name.map toLower ∉ used ∧ (name = candidate ∨
      ∃ k, k < sequence + fuel ∧ name = suffixed base k) := by
  induction fuel generalizing sequence candidate with
  | zero => cases h
  | succ fuel ih =>
    rw [findName] at h
    split at h
    · next hnew =>
      obtain rfl := Option.some.inj h
      exact ⟨hnew, .inl rfl⟩
    · obtain ⟨hnew, rfl | ⟨k, hk, rfl⟩⟩ := ih h
      · exact ⟨hnew, .inr ⟨sequence, by omega, rfl⟩⟩
      · exact ⟨hnew, .inr ⟨k, by omega, rfl⟩⟩

/-- More fuel finds the same name. -/
theorem findName_fuel {fuel' : ℕ} (hle : fuel ≤ fuel')
    (h : findName toLower base used fuel sequence candidate = some name) :
    findName toLower base used fuel' sequence candidate = some name := by
  induction fuel generalizing sequence candidate fuel' with
  | zero => cases h
  | succ fuel ih =>
    obtain ⟨fuel', rfl⟩ : ∃ n, fuel' = n + 1 := ⟨fuel' - 1, by omega⟩
    rw [findName] at h ⊢
    split at h
    · next hnew => rw [if_pos hnew, h]
    · next hold => rw [if_neg hold, ih (by omega) h]

/-- One of two more candidates than there are names taken is free. -/
theorem findName_total (hlower : ∀ c : Char, c.toNat < 128 → toLower c = c.toLower)
    (base : List Char) (used : List (List Char)) (candidate : List Char) :
    ∃ name, findName toLower base used (used.length + 2) 2 candidate = some name := by
  cases hfind : findName toLower base used (used.length + 2) 2 candidate with
  | some name => exact ⟨name, rfl⟩
  | none =>
    have htaken := taken_of_findName hfind
    have hnodup : ((List.range (used.length + 1)).map fun k =>
        (suffixed base (2 + k)).map toLower).Nodup := by
      refine List.Nodup.map (fun m n h => ?_) List.nodup_range
      exact Nat.add_left_cancel (suffixed_inj hlower base h)
    have hsubset : ((List.range (used.length + 1)).map fun k =>
        (suffixed base (2 + k)).map toLower) ⊆ used := by
      intro name hname
      obtain ⟨k, hk, rfl⟩ := List.mem_map.mp hname
      exact htaken k (by rw [List.mem_range] at hk; omega)
    have hlength := (List.subperm_of_subset hnodup hsubset).length_le
    rw [List.length_map, List.length_range] at hlength
    omega

/-- A name that has been found is free, not empty and within the limit. -/
theorem uniqueName_total (hlower : ∀ c : Char, c.toNat < 128 → toLower c = c.toLower)
    (hbase : base ≠ []) (hused : used.length < 2 ^ 63) :
    ∃ name, (∀ fuel, used.length + 2 ≤ fuel →
        uniqueMigratedMonitoringTargetName toLower fuel base used = some name) ∧
      name.map toLower ∉ used ∧ name ≠ [] ∧ name.length ≤ maxMonitoringTargetNameLength := by
  obtain ⟨name, hname⟩ := findName_total hlower base used (base.take maxMonitoringTargetNameLength)
  obtain ⟨hnew, hshape⟩ := mem_of_findName hname
  refine ⟨name, fun fuel hfuel => findName_fuel hfuel hname, hnew, ?_⟩
  rcases hshape with rfl | ⟨k, hk, rfl⟩
  · refine ⟨fun hnil => ?_, List.length_take_le _ _⟩
    rcases List.take_eq_nil_iff.mp hnil with hzero | hnil
    · cases hzero
    · exact hbase hnil
  · exact ⟨suffixed_ne_nil base k, length_suffixed_le base (by omega)⟩

theorem base_ne_nil {target : Target} (h : target.address ≠ "") : target.base ≠ [] := by
  have hne : ∀ text : String, text ≠ "" → text.toList ≠ [] :=
    fun text htext hnil => htext (String.toList_eq_nil_iff.mp hnil)
  rw [Target.base]
  split
  · exact hne _ h
  · next hname => exact hne _ hname

/-! ### All targets -/

/-- What the loop makes of the targets: names that are not among those taken. -/
theorem renameTargets_total (hlower : ∀ c : Char, c.toNat < 128 → toLower c = c.toLower)
    {targets : List Target} (haddress : ∀ target ∈ targets, target.address ≠ "")
    (used : List (List Char)) (hlength : used.length + targets.length < 2 ^ 63) :
    ∃ renamed : List Target, (∀ fuel, used.length + targets.length + 2 ≤ fuel →
        renameTargets toLower fuel targets used = some renamed) ∧
      renamed.map (fun target => (target.id, target.address)) =
        targets.map (fun target => (target.id, target.address)) ∧
      (renamed.Pairwise fun a b =>
        a.name.toList.map toLower ≠ b.name.toList.map toLower) ∧
      ∀ target ∈ renamed, target.name.toList.map toLower ∉ used ∧ target.name ≠ "" ∧
        target.name.toList.length ≤ maxMonitoringTargetNameLength := by
  induction targets generalizing used with
  | nil =>
    exact ⟨[], fun _ _ => rfl, rfl, .nil, fun _ h => absurd h List.not_mem_nil⟩
  | cons target targets ih =>
    rw [List.length_cons] at hlength
    obtain ⟨name, hname, hnew, hne, hle⟩ :=
      uniqueName_total hlower (base_ne_nil (haddress target List.mem_cons_self))
        (show used.length < 2 ^ 63 by omega)
    obtain ⟨renamed, hrenamed, hrows, hpairwise, hnames⟩ :=
      ih (fun t ht => haddress t (List.mem_cons_of_mem _ ht)) (name.map toLower :: used)
        (by rw [List.length_cons]; omega)
    refine ⟨{ target with name := String.ofList name } :: renamed, fun fuel hfuel => ?_, ?_, ?_, ?_⟩
    · rw [List.length_cons] at hfuel hrenamed
      rw [renameTargets, hname fuel (by omega), Option.bind_eq_bind, Option.bind_some,
        hrenamed fuel (by omega)]
      rfl
    · rw [List.map_cons, List.map_cons, hrows]
    · refine List.pairwise_cons.mpr ⟨fun other hother heq => ?_, hpairwise⟩
      refine (hnames other hother).1 ?_
      rw [String.toList_ofList] at heq
      rw [← heq]
      exact List.mem_cons_self
    · intro other hother
      rcases List.mem_cons.mp hother with rfl | hother
      · rw [String.toList_ofList]
        refine ⟨hnew, fun hempty => hne ?_, hle⟩
        have hlist := congrArg String.toList hempty
        rwa [String.toList_ofList] at hlist
      · obtain ⟨hfree, hkept⟩ := hnames other hother
        exact ⟨fun hmem => hfree (List.mem_cons_of_mem _ hmem), hkept⟩

theorem toLower_ascii_iff (c : Char) : c.toLower.toNat < 128 ↔ c.toNat < 128 := by
  unfold Char.toLower
  split
  · next h =>
    have hle : c.toNat ≤ 90 := h.2
    have hval : (c.val + ('a'.val - 'A'.val)).toNat = (c.toNat + 32) % 2 ^ 32 := UInt32.toNat_add _ _
    change (c.val + ('a'.val - 'A'.val)).toNat < 128 ↔ c.toNat < 128
    omega
  · rfl

/-- Characters that are equal without the case of ASCII letters have one lower case. -/
theorem lower_char (hlower : ∀ c : Char, c.toNat < 128 → toLower c = c.toLower) {c d : Char}
    (h : c.toLower = d.toLower) : toLower c = toLower d := by
  have hother : ∀ c : Char, ¬ c.toNat < 128 → c.toLower = c := by
    intro c hc
    refine dif_neg fun hupper => hc ?_
    have hle : c.toNat ≤ 90 := hupper.2
    omega
  have hboth : c.toNat < 128 ↔ d.toNat < 128 := by
    rw [← toLower_ascii_iff c, h, toLower_ascii_iff d]
  by_cases hc : c.toNat < 128
  · rw [hlower c hc, hlower d (hboth.mp hc), h]
  · rw [hother c hc, hother d fun hd => hc (hboth.mpr hd)] at h
    rw [h]

/-- Names that are equal without the case of ASCII letters are equal when they are lowered. -/
theorem lower_of_nocase (hlower : ∀ c : Char, c.toNat < 128 → toLower c = c.toLower) {a b : String}
    (h : nocase a = nocase b) : a.toList.map toLower = b.toList.map toLower := by
  have hlists : ∀ l m : List Char, l.map Char.toLower = m.map Char.toLower →
      l.map toLower = m.map toLower := by
    intro l
    induction l with
    | nil =>
      intro m hm
      rw [List.map_eq_nil_iff.mp hm.symm]
    | cons c l ih =>
      intro m hm
      cases m with
      | nil => cases hm
      | cons d m =>
        obtain ⟨hhead, htail⟩ := List.cons.inj hm
        rw [List.map_cons, List.map_cons, lower_char hlower hhead, ih m htail]
  exact hlists _ _ h

end

/-- Names that differ by their case, are missing, or look like a generated one. -/
def sampleTargets : List Target :=
  [⟨"1", " Edge", "192.0.2.1:443"⟩, ⟨"2", "edge (2)", "192.0.2.2:443"⟩,
    ⟨"3", "EDGE", "192.0.2.3:443"⟩, ⟨"4", "", "192.0.2.4:443"⟩]

example : (migrateMonitoringTargetNames Char.toLower 6 sampleTargets).map (List.map Target.name) =
    some ["Edge", "edge (2)", "EDGE (3)", "192.0.2.4:443"] := by decide +kernel

end SimpleCdn.TargetNames
