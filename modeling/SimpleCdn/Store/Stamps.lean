import Mathlib.Data.Nat.Log
import Mathlib.Tactic.IntervalCases
import SimpleCdn.Lib.Calendar
import SimpleCdn.Lib.Positional

/-!
# Stored timestamps

The store keeps times as text and compares the texts in its statements, byte by byte.  The text is
`time.RFC3339Nano` in UTC: the year in four digits or more, and the fraction of the second without
the zeros at its end.

An instant is a number of nanoseconds since the Unix epoch.  The order of the texts is that of the
instants except where the earlier one is the later one cut to fewer digits of its second: the text
of the later one then goes on with a digit or the point, and that of the earlier one with the `Z`,
which is greater than both.  Years of different lengths are the other exception.
-/

namespace SimpleCdn.Stamps

open Positional

/-! ### The text -/

def digit (d : Nat) : UInt8 := UInt8.ofNat (48 + d)

def decimal (width n : Nat) : List UInt8 := fixed digit 10 width n

/-- The digits of a number that is written with at least `width` of them. -/
def digits (width : Nat) (x : Int) : Nat :=
  max width (Nat.log 10 x.natAbs + 1)

/-- `appendInt`. -/
def appendInt (x : Int) (width : Nat) : List UInt8 :=
  (if x < 0 then ['-'.toUInt8] else []) ++ decimal (digits width x) x.natAbs

/-- `appendNano`, up to nine digits after the point. -/
def appendNano (nanosecond : Nat) : List UInt8 :=
  let fraction := (decimal 9 nanosecond).rdropWhile (· = digit 0)
  if fraction = [] then [] else '.'.toUInt8 :: fraction

def secondsOf (t : Int) : Int := t / 1000000000

def nanosecondOf (t : Int) : Nat := (t % 1000000000).toNat

/-- The date of a second; the epoch is 719468 days after the first of March of the year 0. -/
def dateOf (seconds : Int) : Calendar.Date :=
  Calendar.date (seconds / 86400 + 719468)

/-- What stands between the year and the fraction. -/
def secondText (seconds : Int) : List UInt8 :=
  let clock := seconds % 86400
  '-'.toUInt8 :: (appendInt (dateOf seconds).month 2 ++
  '-'.toUInt8 :: (appendInt (dateOf seconds).day 2 ++
  'T'.toUInt8 :: (appendInt (clock / 3600) 2 ++
  ':'.toUInt8 :: (appendInt (clock % 3600 / 60) 2 ++
  ':'.toUInt8 :: appendInt (clock % 60) 2))))

/-- `stamp`, the bytes of `t.UTC().Format(time.RFC3339Nano)`. -/
def stamp (t : Int) : List UInt8 :=
  appendInt (dateOf (secondsOf t)).year 4 ++
    (secondText (secondsOf t) ++ (appendNano (nanosecondOf t) ++ ['Z'.toUInt8]))

example : stamp 1767225600500000000 = "2026-01-01T00:00:00.5Z".toUTF8.data.toList := by
  decide +kernel

/-! ### Which instants are out of order -/

/-- The one instant is the other cut to a number of digits of its second. -/
def CutOf (t u : Int) : Prop :=
  ∃ k ≤ 9, t = u / 10 ^ k * 10 ^ k

/-- The text of the earlier year is the greater one. -/
def YearsReversed (y z : Int) : Prop :=
  (0 ≤ y ∧ z < y * 10 ^ (digits 4 z - digits 4 y)) ∨
    (z < 0 ∧ z * 10 ^ (digits 4 y - digits 4 z) ≥ y)

def yearOf (t : Int) : Int := (dateOf (secondsOf t)).year

/-- `t` is before `u` and its text is after that of `u`. -/
def OutOfOrder (t u : Int) : Prop :=
  t < u ∧ (CutOf t u ∨ yearOf t < yearOf u ∧ YearsReversed (yearOf t) (yearOf u))

/-- No years of four digits are reversed. -/
theorem not_yearsReversed {y z : Int} (hy : 0 ≤ y) (hyz : y < z) (hz : z ≤ 9999) :
    ¬ YearsReversed y z := by
  have hdigits : ∀ x : Int, 0 ≤ x → x ≤ 9999 → digits 4 x = 4 := by
    intro x hx hx'
    have hlog : Nat.log 10 x.natAbs < 4 := Nat.log_lt_of_lt_pow' (by decide) (by omega)
    rw [digits]
    omega
  rintro (⟨-, h⟩ | ⟨h, -⟩)
  · rw [hdigits y hy (by omega), hdigits z (by omega) hz] at h
    omega
  · omega

/-! ### The order of the parts -/

theorem digit_lt_digit {i j : Nat} (h : i < j) (hj : j < 10) : digit i < digit j := by
  rw [UInt8.lt_iff_toNat_lt, digit, digit, UInt8.toNat_ofNat', UInt8.toNat_ofNat']
  omega

theorem digit_ne_zero {i : Nat} (hi : i < 10) (h : i ≠ 0) : digit i ≠ digit 0 := by
  intro heq
  have hlt := digit_lt_digit (Nat.pos_of_ne_zero h) hi
  rw [heq] at hlt
  exact absurd hlt (UInt8.lt_irrefl _)

theorem digit_lt_z {i : Nat} (hi : i < 10) : digit i < 'Z'.toUInt8 := by
  rw [UInt8.lt_iff_toNat_lt, digit, UInt8.toNat_ofNat']
  show _ < 90
  omega

theorem dash_lt_digit {i : Nat} (hi : i < 10) : '-'.toUInt8 < digit i := by
  rw [UInt8.lt_iff_toNat_lt, digit, UInt8.toNat_ofNat']
  show 45 < _
  omega

theorem decimal_lt {k m n : Nat} (h : m < n) (hn : n < 10 ^ k) : decimal k m < decimal k n :=
  fixed_lt (fun _ _ hij hj => digit_lt_digit hij hj) h hn

theorem length_decimal (k n : Nat) : (decimal k n).length = k := length_fixed k n

theorem decimal_eq_append {k l : Nat} (h : k ≤ l) (n : Nat) :
    decimal l n = decimal k (n / 10 ^ (l - k)) ++ decimal (l - k) n := fixed_eq_append h n

theorem decimal_eq_cons {k : Nat} (hk : 0 < k) (n : Nat) :
    ∃ i < 10, ∃ rest, decimal k n = digit i :: rest := by
  obtain ⟨i, rest, h⟩ : ∃ i rest, decimal k n = digit (i % 10) :: rest := fixed_eq_cons hk n
  exact ⟨i % 10, Nat.mod_lt i (by decide), rest, h⟩

/-! ### Years -/

/-- Numbers of different lengths that a dash follows are compared at the shorter length. -/
theorem dashed_lt {m n k l : Nat} (hmn : m < n) (hkl : k ≤ l) (hn : n < 10 ^ l)
    (h : m * 10 ^ (l - k) ≤ n) (x y : List UInt8) :
    decimal k m ++ '-'.toUInt8 :: x < decimal l n ++ '-'.toUInt8 :: y := by
  have hcut : n / 10 ^ (l - k) < 10 ^ k := by
    refine Nat.div_lt_of_lt_mul ?_
    rwa [← Nat.pow_add, Nat.sub_add_cancel hkl]
  rw [decimal_eq_append hkl, List.append_assoc]
  rcases ((Nat.le_div_iff_mul_le (Nat.pow_pos (by decide))).mpr h).lt_or_eq with hlt | heq
  · refine append_lt_append (decimal_lt hlt hcut) ?_
    rw [length_decimal, length_decimal]
  · -- the first digits are the same, so there are more of them
    have hmore : 0 < l - k := by
      refine Nat.pos_of_ne_zero fun hzero => ?_
      rw [hzero, Nat.pow_zero, Nat.div_one] at heq
      omega
    obtain ⟨i, hi, rest, hrest⟩ := decimal_eq_cons hmore n
    rw [← heq, hrest]
    exact List.append_left_lt (List.cons_lt_cons_iff.mpr (.inl (dash_lt_digit hi)))

theorem dashed_gt {m n k l : Nat} (hkl : k ≤ l) (hm : m < 10 ^ k) (h : n < m * 10 ^ (l - k))
    (x y : List UInt8) :
    decimal l n ++ '-'.toUInt8 :: x < decimal k m ++ '-'.toUInt8 :: y := by
  have hlt : n / 10 ^ (l - k) < m := Nat.div_lt_of_lt_mul (Nat.mul_comm m _ ▸ h)
  rw [decimal_eq_append hkl, List.append_assoc]
  refine append_lt_append (decimal_lt hlt hm) ?_
  rw [length_decimal, length_decimal]

theorem lt_pow_digits (width : Nat) (x : Int) : x.natAbs < 10 ^ digits width x :=
  (Nat.lt_pow_succ_log_self (by decide) _).trans_le
    (Nat.pow_le_pow_right (by decide) (Nat.le_max_right _ _))

theorem digits_mono {width : Nat} {x y : Int} (h : x.natAbs ≤ y.natAbs) :
    digits width x ≤ digits width y :=
  max_le_max_left width (Nat.succ_le_succ (Nat.log_mono_right h))

section

variable {y z : Int}

/-- Where the digits of one are a sign and a number. -/
theorem appendInt_nonneg (h : 0 ≤ y) (width : Nat) :
    appendInt y width = decimal (digits width y) y.natAbs := by
  rw [appendInt, if_neg (by omega), List.nil_append]

theorem appendInt_neg (h : y < 0) (width : Nat) :
    appendInt y width = '-'.toUInt8 :: decimal (digits width y) y.natAbs := by
  rw [appendInt, if_pos h, List.singleton_append]

theorem mul_pow_of_nonneg (h : 0 ≤ y) (j : Nat) :
    y * 10 ^ j = ((y.natAbs * 10 ^ j : Nat) : Int) := by
  rw [Nat.cast_mul, Int.natAbs_of_nonneg h]
  push_cast
  rfl

theorem mul_pow_of_neg (h : y < 0) (j : Nat) :
    y * 10 ^ j = -((y.natAbs * 10 ^ j : Nat) : Int) := by
  rw [Nat.cast_mul, Int.ofNat_natAbs_of_nonpos h.le]
  push_cast
  rw [Int.neg_mul, Int.neg_neg]

theorem digits_pos (y : Int) : 0 < digits 4 y :=
  (by decide : 0 < 4).trans_le (Nat.le_max_left _ _)

/-- The text of an earlier year is the smaller one unless the two are reversed. -/
theorem year_lt (hyz : y < z) (h : ¬ YearsReversed y z) (x x' : List UInt8) :
    appendInt y 4 ++ '-'.toUInt8 :: x < appendInt z 4 ++ '-'.toUInt8 :: x' := by
  rw [YearsReversed, not_or, not_and, not_and] at h
  rcases lt_or_ge y 0 with hy | hy
  · rcases lt_or_ge z 0 with hz | hz
    · have hkept := h.2 hz
      rw [mul_pow_of_neg hz] at hkept
      rw [appendInt_neg hy, appendInt_neg hz]
      refine List.cons_lt_cons_iff.mpr (.inr ⟨rfl, ?_⟩)
      exact dashed_gt (digits_mono (by omega)) (lt_pow_digits 4 z) (by omega) x x'
    · obtain ⟨i, hi, rest, hrest⟩ := decimal_eq_cons (digits_pos z) z.natAbs
      rw [appendInt_neg hy, appendInt_nonneg hz, hrest]
      exact List.cons_lt_cons_iff.mpr (.inl (dash_lt_digit hi))
  · have hkept := h.1 hy
    rw [mul_pow_of_nonneg hy] at hkept
    rw [appendInt_nonneg hy, appendInt_nonneg (by omega)]
    exact dashed_lt (by omega) (digits_mono (by omega)) (lt_pow_digits 4 z) (by omega) x x'

theorem year_gt (hyz : y < z) (h : YearsReversed y z) (x x' : List UInt8) :
    appendInt z 4 ++ '-'.toUInt8 :: x' < appendInt y 4 ++ '-'.toUInt8 :: x := by
  rcases h with ⟨hy, hless⟩ | ⟨hz, hless⟩
  · rw [mul_pow_of_nonneg hy] at hless
    rw [appendInt_nonneg hy, appendInt_nonneg (by omega)]
    exact dashed_gt (digits_mono (by omega)) (lt_pow_digits 4 y) (by omega) x' x
  · rw [mul_pow_of_neg hz] at hless
    rw [appendInt_neg hz, appendInt_neg (by omega)]
    refine List.cons_lt_cons_iff.mpr (.inr ⟨rfl, ?_⟩)
    exact dashed_lt (by omega) (digits_mono (by omega)) (lt_pow_digits 4 y) (by omega) x' x

end

/-! ### Seconds of a year -/

theorem appendInt_two {x : Int} (h : 0 ≤ x) (h' : x < 100) : appendInt x 2 = decimal 2 x.natAbs := by
  have hlog : Nat.log 10 x.natAbs < 2 := Nat.log_lt_of_lt_pow' (by decide) (by omega)
  rw [appendInt_nonneg h, digits, Nat.max_eq_left hlog]

/-- Two digits and what follows them. -/
theorem two_lt {x y : Int} (hx : 0 ≤ x) (hxy : x < y) (hy : y < 100) (f g : List UInt8) :
    appendInt x 2 ++ f < appendInt y 2 ++ g := by
  rw [appendInt_two hx (hxy.trans hy), appendInt_two (by omega) hy]
  refine append_lt_append (decimal_lt (by omega) (by omega)) ?_
  rw [length_decimal, length_decimal]

theorem two_eq {x y : Int} (h : x = y) {f g : List UInt8} (hrest : f < g) :
    appendInt x 2 ++ f < appendInt y 2 ++ g := by
  rw [h]
  exact List.append_left_lt hrest

theorem cons_lt {a : UInt8} {f g : List UInt8} (h : f < g) : a :: f < a :: g :=
  List.cons_lt_cons_iff.mpr (.inr ⟨rfl, h⟩)

theorem length_secondText (s : Int) : (secondText s).length = 15 := by
  obtain ⟨hmonth, hmonth', hday, hday'⟩ := Calendar.date_ranges (s / 86400 + 719468)
  have hclock : ∀ x : Int, 0 ≤ x → x < 100 → (appendInt x 2).length = 2 := fun x hx hx' => by
    rw [appendInt_two hx hx', length_decimal]
  simp only [secondText, List.length_cons, List.length_append, dateOf]
  rw [hclock _ (by omega) (by omega), hclock _ (by omega) (by omega), hclock _ (by omega) (by omega),
    hclock _ (by omega) (by omega), hclock _ (by omega) (by omega)]

/-- Within a year the texts of the seconds are in their order. -/
theorem secondText_lt {r s : Int} (h : r < s) (hyear : (dateOf r).year = (dateOf s).year) :
    secondText r < secondText s := by
  obtain ⟨hmonth, -, hday, -⟩ := Calendar.date_ranges (r / 86400 + 719468)
  obtain ⟨-, hmonth', -, hday'⟩ := Calendar.date_ranges (s / 86400 + 719468)
  unfold secondText
  dsimp only
  rcases (Int.ediv_le_ediv (by decide : (0 : Int) < 86400) h.le).lt_or_eq with hdays | hdays
  · rcases Calendar.date_before (Int.add_lt_add_right hdays 719468) with
      hyears | ⟨-, hmonths | ⟨hmonths, hdates⟩⟩
    · exact absurd hyear hyears.ne
    · exact cons_lt (two_lt (hmonth.trans' (by decide)) hmonths (by omega) _ _)
    · exact cons_lt (two_eq hmonths (cons_lt
        (two_lt (hday.trans' (by decide)) hdates (by omega) _ _)))
  · -- the same day, so the clocks differ
    have hdate : dateOf r = dateOf s := by rw [dateOf, dateOf, hdays]
    rw [hdate]
    refine cons_lt (two_eq rfl (cons_lt (two_eq rfl (cons_lt ?_))))
    have hclock : r % 86400 < s % 86400 := by omega
    rcases (Int.ediv_le_ediv (by decide : (0 : Int) < 3600) hclock.le).lt_or_eq with hhour | hhour
    · exact two_lt (by omega) hhour (by omega) _ _
    · refine two_eq hhour (cons_lt ?_)
      have hrest : r % 86400 % 3600 < s % 86400 % 3600 := by omega
      rcases (Int.ediv_le_ediv (by decide : (0 : Int) < 60) hrest.le).lt_or_eq with
        hminute | hminute
      · exact two_lt (by omega) hminute (by omega) _ _
      · refine two_eq hminute (cons_lt ?_)
        have hsecond : r % 86400 % 60 < s % 86400 % 60 := by omega
        have hlast := two_lt (by omega) hsecond (by omega) [] []
        rwa [List.append_nil, List.append_nil] at hlast

/-! ### Fractions -/

theorem appendNano_spec (n : Nat) : ∃ j ≤ 9, 10 ^ j ∣ n ∧ (j < 9 → ¬ 10 ^ (j + 1) ∣ n) ∧
    appendNano n = if j = 9 then [] else '.'.toUInt8 :: decimal (9 - j) (n / 10 ^ j) := by
  obtain ⟨j, hj, hdvd, htext, hmore⟩ := @rdropWhile_fixed UInt8 digit 10 _
    (fun i hi hne => digit_ne_zero hi hne) (by decide) 9 n
  refine ⟨j, hj, hdvd, hmore, ?_⟩
  have hfraction : (decimal 9 n).rdropWhile (· = digit 0) = decimal (9 - j) (n / 10 ^ j) := htext
  rw [appendNano, hfraction]
  by_cases hnine : j = 9
  · rw [if_pos hnine, hnine]
    exact if_pos rfl
  · rw [if_neg hnine]
    refine if_neg fun hnil => ?_
    have hlength := congrArg List.length hnil
    rw [length_decimal, List.length_nil] at hlength
    omega

section

variable {m n : Nat}

/-- Cut at a digit that both have. -/
theorem decimal_cut {j l : Nat} (hjl : j ≤ l) (hl : l ≤ 9) (n : Nat) :
    decimal (9 - j) (n / 10 ^ j) =
      decimal (9 - l) (n / 10 ^ l) ++ decimal (l - j) (n / 10 ^ j) := by
  rw [decimal_eq_append (show 9 - l ≤ 9 - j by omega), Nat.div_div_eq_div_mul, ← Nat.pow_add,
    show j + (9 - j - (9 - l)) = l by omega, show 9 - j - (9 - l) = l - j by omega]

theorem div_pow_lt {j : Nat} (hj : j ≤ 9) (hn : n < 10 ^ 9) : n / 10 ^ j < 10 ^ (9 - j) := by
  refine Nat.div_lt_of_lt_mul ?_
  rwa [← Nat.pow_add, Nat.add_sub_cancel' hj]

theorem fraction_lt (hmn : m < n) (hn : n < 10 ^ 9)
    (h : ¬ ∃ k ≤ 9, m = n / 10 ^ k * 10 ^ k) :
    appendNano m ++ ['Z'.toUInt8] < appendNano n ++ ['Z'.toUInt8] := by
  obtain ⟨j, hj, hdvd, -, htext⟩ := appendNano_spec m
  obtain ⟨l, hl, hdvd', -, htext'⟩ := appendNano_spec n
  have hj9 : j ≠ 9 := by
    rintro rfl
    have hzero := Nat.eq_zero_of_dvd_of_lt hdvd (hmn.trans hn)
    exact h ⟨9, le_rfl, by rw [hzero, Nat.div_eq_of_lt hn, Nat.zero_mul]⟩
  have hl9 : l ≠ 9 := by
    rintro rfl
    have hzero := Nat.eq_zero_of_dvd_of_lt hdvd' hn
    omega
  rw [htext, if_neg hj9, htext', if_neg hl9, List.cons_append, List.cons_append]
  refine cons_lt ?_
  rcases Nat.le_total j l with hjl | hlj
  · rw [decimal_cut hjl hl, List.append_assoc]
    refine append_lt_append (decimal_lt ?_ (div_pow_lt hl hn)) (by rw [length_decimal, length_decimal])
    refine Nat.div_lt_of_lt_mul ?_
    rwa [Nat.mul_div_cancel' hdvd']
  · rw [decimal_cut (j := l) hlj hj, List.append_assoc]
    refine append_lt_append (decimal_lt ?_ (div_pow_lt hj hn)) (by rw [length_decimal, length_decimal])
    refine lt_of_le_of_ne (Nat.div_le_div_right hmn.le) fun heq => h ⟨j, hj, ?_⟩
    rw [← heq, Nat.div_mul_cancel hdvd]

theorem fraction_gt {k : Nat} (hk : k ≤ 9) (hmn : m < n) (h : m = n / 10 ^ k * 10 ^ k) :
    appendNano n ++ ['Z'.toUInt8] < appendNano m ++ ['Z'.toUInt8] := by
  obtain ⟨j, hj, hdvd, hmore, htext⟩ := appendNano_spec m
  obtain ⟨l, hl, hdvd', -, htext'⟩ := appendNano_spec n
  have hkj : k ≤ j := by
    by_contra hless
    refine hmore (by omega) ((Nat.pow_dvd_pow 10 (by omega : j + 1 ≤ k)).trans ?_)
    exact ⟨n / 10 ^ k, by rw [h, Nat.mul_comm]⟩
  have hlk : l < k := by
    by_contra hmore
    have hcut := Nat.div_mul_cancel ((Nat.pow_dvd_pow 10 (Nat.not_lt.mp hmore)).trans hdvd')
    omega
  have hhead : n / 10 ^ j = m / 10 ^ j := by
    have hpow : 10 ^ k ≤ 10 ^ j := Nat.pow_le_pow_right (by decide) hkj
    have hcut : n < n / 10 ^ k * 10 ^ k + 10 ^ k := Nat.lt_div_mul_add (Nat.pow_pos (by decide))
    have hm := Nat.div_mul_cancel hdvd
    refine Nat.div_eq_of_lt_le (by omega) ?_
    rw [Nat.succ_mul]
    omega
  rw [htext', if_neg (by omega), decimal_cut (j := l) (by omega : l ≤ j) hj, hhead]
  obtain ⟨i, hi, rest, hrest⟩ := decimal_eq_cons (by omega : 0 < j - l) (n / 10 ^ l)
  rw [hrest, htext]
  split
  · exact List.cons_lt_cons_iff.mpr (.inl (by decide))
  · rw [List.cons_append, List.cons_append, List.append_assoc]
    refine cons_lt (List.append_left_lt (List.cons_lt_cons_iff.mpr (.inl (digit_lt_z hi))))

end

/-! ### The order of the texts -/

/-- An instant cut to a number of digits is in the same second. -/
theorem cutOf_iff {t u : Int} : CutOf t u ↔ secondsOf t = secondsOf u ∧
    ∃ k ≤ 9, nanosecondOf t = nanosecondOf u / 10 ^ k * 10 ^ k := by
  unfold CutOf secondsOf nanosecondOf
  constructor
  · rintro ⟨k, hk, h⟩
    refine ⟨?_, k, hk, ?_⟩
    · interval_cases k <;> omega
    · interval_cases k <;> omega
  · rintro ⟨hseconds, k, hk, h⟩
    refine ⟨k, hk, ?_⟩
    interval_cases k <;> omega

section

variable {t u : Int}

theorem nanosecondOf_lt (t : Int) : nanosecondOf t < 10 ^ 9 := by
  unfold nanosecondOf
  omega

theorem stamp_eq (t : Int) : stamp t = appendInt (yearOf t) 4 ++
    (secondText (secondsOf t) ++ (appendNano (nanosecondOf t) ++ ['Z'.toUInt8])) := rfl

theorem year_mono (h : t ≤ u) : yearOf t ≤ yearOf u := by
  have hdays : secondsOf t / 86400 ≤ secondsOf u / 86400 := by
    unfold secondsOf
    omega
  rcases hdays.lt_or_eq with hlt | heq
  · rcases Calendar.date_before (Int.add_lt_add_right hlt 719468) with hyears | ⟨hyears, -⟩
    · exact hyears.le
    · exact hyears.le
  · rw [yearOf, yearOf, dateOf, dateOf, heq]

theorem stamp_lt (htu : t < u) (h : ¬ OutOfOrder t u) : stamp t < stamp u := by
  rw [OutOfOrder, not_and, not_or, not_and] at h
  obtain ⟨hcut, hyears⟩ := h htu
  rw [stamp_eq, stamp_eq]
  rcases (year_mono htu.le).lt_or_eq with hyear | hyear
  · exact year_lt hyear (hyears hyear) _ _
  · rw [hyear]
    refine List.append_left_lt ?_
    have hseconds : secondsOf t ≤ secondsOf u := Int.ediv_le_ediv (by decide) htu.le
    rcases hseconds.lt_or_eq with hlt | heq
    · refine append_lt_append (secondText_lt hlt hyear) ?_
      rw [length_secondText, length_secondText]
    · rw [heq]
      refine List.append_left_lt (fraction_lt ?_ (nanosecondOf_lt u) fun hnanos => ?_)
      · unfold secondsOf at heq
        unfold nanosecondOf
        omega
      · exact hcut (cutOf_iff.mpr ⟨heq, hnanos⟩)

theorem stamp_gt (h : OutOfOrder t u) : stamp u < stamp t := by
  obtain ⟨htu, hcut | ⟨hyear, hreversed⟩⟩ := h
  · obtain ⟨heq, k, hk, hnanos⟩ := cutOf_iff.mp hcut
    have hlt : nanosecondOf t < nanosecondOf u := by
      unfold secondsOf at heq
      unfold nanosecondOf
      omega
    rw [stamp_eq, stamp_eq, yearOf, yearOf, heq]
    exact List.append_left_lt (List.append_left_lt (fraction_gt hk hlt hnanos))
  · rw [stamp_eq, stamp_eq]
    exact year_gt hyear hreversed _ _

end

theorem stamp_asymm {t u : Int} (h : stamp t < stamp u) : ¬ stamp u < stamp t :=
  List.lt_asymm h

/-- Timestamps order like times except where a fraction is cut or years are reversed. -/
theorem stamp_order_iff (t u : Int) :
    (t < u ↔ stamp t < stamp u) ↔ ¬ OutOfOrder t u ∧ ¬ OutOfOrder u t := by
  constructor
  · intro h
    refine ⟨fun hout => ?_, fun hout => ?_⟩
    · exact stamp_asymm (stamp_gt hout) (h.mp hout.1)
    · exact absurd (h.mpr (stamp_gt hout)) (Int.not_lt.mpr hout.1.le)
  · rintro ⟨htu, hut⟩
    constructor
    · exact fun hlt => stamp_lt hlt htu
    · intro hstamp
      rcases lt_trichotomy t u with hlt | heq | hgt
      · exact hlt
      · rw [heq] at hstamp
        exact absurd hstamp (stamp_asymm hstamp)
      · exact absurd hstamp (stamp_asymm (stamp_lt hgt hut))

/-- A whole second is stamped after the half second that follows it. -/
theorem half_second_reversed : ¬ ∀ t u : Int, t < u ↔ stamp t < stamp u := by
  intro h
  have hstamp := (h 0 500000000).mp (by decide)
  revert hstamp
  decide +kernel

end SimpleCdn.Stamps
