import Mathlib.Algebra.GroupWithZero.Nat
import Mathlib.Data.List.DropRight
import Mathlib.Data.List.Lex
import Mathlib.Data.Nat.Init

/-!
# Numbers in positional notation

`fixed digit b k n` writes the lowest `k` digits of `n` in base `b`, the highest first.  At one
width the lexicographic order of the texts is the order of the numbers, whatever follows them.  A
text without its zeros at the end is the text of a smaller width, and between two widths one text
may continue the other.
-/

namespace SimpleCdn.Positional

variable {α : Type*}

def fixed (digit : Nat → α) (b : Nat) : Nat → Nat → List α
  | 0, _ => []
  | k + 1, n => fixed digit b k (n / b) ++ [digit (n % b)]

section

variable {digit : Nat → α} {b : Nat}

@[simp] theorem length_fixed (k n : Nat) : (fixed digit b k n).length = k := by
  induction k generalizing n with
  | zero => rfl
  | succ k ih => rw [fixed, List.length_append, ih, List.length_singleton]

/-- The digits from the `j`-th on, and those below. -/
theorem fixed_add (k j n : Nat) :
    fixed digit b (k + j) n = fixed digit b k (n / b ^ j) ++ fixed digit b j n := by
  induction j generalizing n with
  | zero => rw [Nat.add_zero, Nat.pow_zero, Nat.div_one, fixed, List.append_nil]
  | succ j ih =>
    rw [← Nat.add_assoc, fixed, ih, fixed, Nat.div_div_eq_div_mul, Nat.pow_succ', List.append_assoc]

/-- The first digits of a wider text. -/
theorem fixed_eq_append {k l : Nat} (h : k ≤ l) (n : Nat) :
    fixed digit b l n = fixed digit b k (n / b ^ (l - k)) ++ fixed digit b (l - k) n := by
  rw [← fixed_add, Nat.add_sub_cancel' h]

theorem fixed_eq_cons {k : Nat} (hk : 0 < k) (n : Nat) :
    ∃ i rest, fixed digit b k n = digit (i % b) :: rest := by
  obtain ⟨k, rfl⟩ := Nat.exists_eq_succ_of_ne_zero hk.ne'
  refine ⟨n / b ^ k, fixed digit b k n, ?_⟩
  rw [Nat.succ_eq_one_add, fixed_add, fixed, fixed, List.nil_append]
  rfl

/-- Zeros at the end are dropped one by one. -/
theorem rdropWhile_fixed [DecidableEq α] (hzero : ∀ i, i < b → i ≠ 0 → digit i ≠ digit 0)
    (hb : 0 < b) (k n : Nat) :
    ∃ j ≤ k, b ^ j ∣ n ∧ (fixed digit b k n).rdropWhile (· = digit 0) =
      fixed digit b (k - j) (n / b ^ j) ∧ (j < k → ¬ b ^ (j + 1) ∣ n) := by
  induction k generalizing n with
  | zero => exact ⟨0, le_rfl, ⟨n, (Nat.one_mul n).symm⟩, rfl, fun h => absurd h (Nat.lt_irrefl 0)⟩
  | succ k ih =>
    by_cases hlast : n % b = 0
    · obtain ⟨j, hj, ⟨m, hm⟩, htext, hmore⟩ := ih (n / b)
      have hn : n = b ^ (j + 1) * m := by
        rw [Nat.pow_succ', Nat.mul_assoc, ← hm, Nat.mul_div_cancel' (Nat.dvd_of_mod_eq_zero hlast)]
      refine ⟨j + 1, Nat.succ_le_succ hj, ⟨m, hn⟩, ?_, fun h hdvd => ?_⟩
      · rw [fixed, List.rdropWhile_concat_pos _ _ _ (by simp [hlast]), htext,
          Nat.succ_sub_succ, Nat.div_div_eq_div_mul, Nat.pow_succ']
      · refine hmore (Nat.lt_of_succ_lt_succ h) ?_
        rw [Nat.pow_succ'] at hdvd
        exact (Nat.dvd_div_iff_mul_dvd (Nat.dvd_of_mod_eq_zero hlast)).mpr hdvd
    · refine ⟨0, Nat.zero_le _, Nat.one_dvd n, ?_, fun _ hdvd => ?_⟩
      · have hdigit := hzero _ (Nat.mod_lt n hb) hlast
        rw [fixed, List.rdropWhile_concat_neg _ _ _ (by simpa using hdigit), Nat.sub_zero,
          Nat.pow_zero, Nat.div_one, fixed]
      · rw [Nat.zero_add, Nat.pow_one] at hdvd
        exact hlast (Nat.mod_eq_zero_of_dvd hdvd)

end

/-! ### The lexicographic order -/

section

variable [LT α]

/-- A difference in fields of one length decides. -/
theorem append_lt_append {f g x y : List α} (h : f < g) (hlength : f.length = g.length) :
    f ++ x < g ++ y := by
  induction f generalizing g with
  | nil =>
    rw [List.eq_nil_of_length_eq_zero hlength.symm] at h
    cases h
  | cons a f ih =>
    cases g with
    | nil => cases hlength
    | cons c g =>
      rw [List.cons_append, List.cons_append, List.cons_lt_cons_iff]
      rcases List.cons_lt_cons_iff.mp h with hhead | ⟨hhead, htail⟩
      · exact .inl hhead
      · exact .inr ⟨hhead, ih htail (Nat.succ.inj hlength)⟩

variable {digit : Nat → α} {b : Nat}

theorem fixed_lt (hdigit : ∀ i j, i < j → j < b → digit i < digit j) {k m n : Nat} (h : m < n)
    (hn : n < b ^ k) : fixed digit b k m < fixed digit b k n := by
  induction k generalizing m n with
  | zero =>
    rw [Nat.pow_zero] at hn
    omega
  | succ k ih =>
    have hb : 0 < b := by
      refine Nat.pos_of_ne_zero fun hb => ?_
      rw [hb, Nat.zero_pow (Nat.succ_pos k)] at hn
      omega
    rw [fixed, fixed]
    rcases (Nat.div_le_div_right (c := b) h.le).lt_or_eq with hhigh | hhigh
    · refine append_lt_append (ih hhigh ?_) (by rw [length_fixed, length_fixed])
      rw [Nat.pow_succ] at hn
      exact Nat.div_lt_of_lt_mul (Nat.mul_comm b _ ▸ hn)
    · have hm := Nat.div_add_mod m b
      have hn' := Nat.div_add_mod n b
      rw [hhigh] at hm ⊢
      refine List.append_left_lt (List.cons_lt_cons_iff.mpr (.inl ?_))
      exact hdigit _ _ (by omega) (Nat.mod_lt n hb)

end

end SimpleCdn.Positional
