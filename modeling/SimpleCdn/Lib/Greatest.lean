import Mathlib.Order.Lattice
import Mathlib.Data.List.Dedup
import Mathlib.Data.List.Perm.Subperm
import Mathlib.Order.Basic

/-!
# The greatest value of each key

A list of entries asks for values of its keys.  `KeepsGreatest` says that a selection has the
greatest value of each key it keeps, and that it leaves keys out only beyond a limit, the ones with
the smallest values.  A map in which later entries replace earlier ones has the last value of each
key instead; `Top.keepsGreatest_iff` says when that makes no difference.
-/

namespace SimpleCdn.Greatest

variable {κ ν : Type*} [DecidableEq κ] [LinearOrder ν]

structure KeepsGreatest (limit : Nat) (asked kept : List (κ × ν)) : Prop where
  nodup : (kept.map Prod.fst).Nodup
  greatest : ∀ p ∈ kept, p ∈ asked ∧ ∀ q ∈ asked, q.1 = p.1 → q.2 ≤ p.2
  size : kept.length = min limit (asked.map Prod.fst).dedup.length
  cut : ∀ q ∈ asked, q.1 ∉ kept.map Prod.fst → ∀ p ∈ kept, q.2 ≤ p.2

/-- The last entry of each key. -/
def lastEntries : List (κ × ν) → List (κ × ν)
  | [] => []
  | p :: rest => if p.1 ∈ rest.map Prod.fst then lastEntries rest else p :: lastEntries rest

/-- The last value of a key is its greatest, or the key is left out for either: as many keys as
the limit have a last value that is as great. -/
def LastIsGreatest (limit : Nat) (asked : List (κ × ν)) : Prop :=
  ∀ p ∈ lastEntries asked, ∀ q ∈ asked, q.1 = p.1 →
    q.2 ≤ p.2 ∨ limit ≤ ((lastEntries asked).filter fun r => q.2 ≤ r.2).length

/-- `kept` has the entries of `map` with the greatest values. -/
structure Top (limit : Nat) (map kept : List (κ × ν)) : Prop where
  sub : kept ⊆ map
  nodup : (kept.map Prod.fst).Nodup
  size : kept.length = min limit map.length
  cut : ∀ q ∈ map, q ∉ kept → ∀ p ∈ kept, q.2 ≤ p.2

instance (limit : Nat) (asked : List (κ × ν)) : Decidable (LastIsGreatest limit asked) :=
  inferInstanceAs (Decidable (∀ p ∈ lastEntries asked, ∀ q ∈ asked, q.1 = p.1 →
    q.2 ≤ p.2 ∨ limit ≤ ((lastEntries asked).filter fun r => q.2 ≤ r.2).length))

variable {limit : Nat} {asked map map' kept kept' : List (κ × ν)} {p q : κ × ν} {k : κ}

/-! ### Last entries -/

theorem keys_lastEntries (asked : List (κ × ν)) :
    (lastEntries asked).map Prod.fst = (asked.map Prod.fst).dedup := by
  induction asked with
  | nil => rfl
  | cons p rest ih =>
    rw [lastEntries, List.map_cons]
    by_cases hlater : p.1 ∈ rest.map Prod.fst
    · rw [if_pos hlater, List.dedup_cons_of_mem hlater, ih]
    · rw [if_neg hlater, List.dedup_cons_of_notMem hlater, List.map_cons, ih]

theorem nodup_lastEntries (asked : List (κ × ν)) : ((lastEntries asked).map Prod.fst).Nodup := by
  rw [keys_lastEntries]
  exact List.nodup_dedup _

theorem mem_keys_lastEntries :
    k ∈ (lastEntries asked).map Prod.fst ↔ k ∈ asked.map Prod.fst := by
  rw [keys_lastEntries, List.mem_dedup]

theorem mem_lastEntries_append {before after : List (κ × ν)} :
    p ∈ lastEntries (before ++ after) ↔
      p ∈ lastEntries after ∨ (p ∈ lastEntries before ∧ p.1 ∉ after.map Prod.fst) := by
  induction before with
  | nil => simp [lastEntries]
  | cons first rest ih =>
    have hlater : first.1 ∈ (rest ++ after).map Prod.fst ↔
        first.1 ∈ rest.map Prod.fst ∨ first.1 ∈ after.map Prod.fst := by
      rw [List.map_append, List.mem_append]
    rw [List.cons_append, lastEntries, lastEntries]
    by_cases hrest : first.1 ∈ rest.map Prod.fst
    · rw [if_pos (hlater.mpr (.inl hrest)), if_pos hrest, ih]
    · by_cases hafter : first.1 ∈ after.map Prod.fst
      · rw [if_pos (hlater.mpr (.inr hafter)), if_neg hrest, ih, List.mem_cons]
        refine or_congr_right (and_congr_left fun hp => ⟨.inr, ?_⟩)
        rintro (rfl | hmem)
        · exact absurd hafter hp
        · exact hmem
      · rw [if_neg (hlater.not.mpr (not_or.mpr ⟨hrest, hafter⟩)), if_neg hrest, List.mem_cons, ih,
          List.mem_cons]
        constructor
        · rintro (rfl | hlast | ⟨hmem, hp⟩)
          · exact .inr ⟨.inl rfl, hafter⟩
          · exact .inl hlast
          · exact .inr ⟨.inr hmem, hp⟩
        · rintro (hlast | ⟨rfl | hmem, hp⟩)
          · exact .inr (.inl hlast)
          · exact .inl rfl
          · exact .inr (.inr ⟨hmem, hp⟩)

/-- A list with one entry for each key keeps them all. -/
theorem lastEntries_of_nodup (h : (asked.map Prod.fst).Nodup) : lastEntries asked = asked := by
  induction asked with
  | nil => rfl
  | cons p rest ih =>
    rw [List.map_cons, List.nodup_cons] at h
    rw [lastEntries, if_neg h.1, ih h.2]

theorem mem_of_mem_lastEntries (h : p ∈ lastEntries asked) : p ∈ asked := by
  induction asked with
  | nil => exact h
  | cons first rest ih =>
    rw [lastEntries] at h
    split at h
    · exact List.mem_cons_of_mem first (ih h)
    · rcases List.mem_cons.mp h with rfl | h
      · exact List.mem_cons_self
      · exact List.mem_cons_of_mem first (ih h)

/-! ### Selections -/

theorem eq_of_key_eq (h : (map.map Prod.fst).Nodup) (hp : p ∈ map) (hq : q ∈ map)
    (hkey : p.1 = q.1) : p = q :=
  List.inj_on_of_nodup_map h hp hq hkey

/-- Fewer entries than the limit exceed one that is kept. -/
theorem Top.exceeding_lt (h : Top limit map kept) (hmap : (map.map Prod.fst).Nodup)
    (hp : p ∈ kept) {v : ν} (hv : p.2 < v) : (map.filter fun r => v ≤ r.2).length < limit := by
  have hsub : (p :: map.filter fun r => v ≤ r.2) ⊆ kept := by
    intro r hr
    rcases List.mem_cons.mp hr with rfl | hr
    · exact hp
    · obtain ⟨hmem, hle⟩ := List.mem_filter.mp hr
      by_contra hcut
      exact absurd (h.cut r hmem hcut p hp) (not_le.mpr (hv.trans_le (of_decide_eq_true hle)))
  have hnodup : (p :: map.filter fun r => v ≤ r.2).Nodup := by
    refine List.nodup_cons.mpr ⟨fun hmem => ?_, hmap.of_map.filter _⟩
    exact absurd (of_decide_eq_true (List.mem_filter.mp hmem).2) (not_le.mpr hv)
  have hlength := (hnodup.subperm hsub).length_le
  have hsize := h.size
  rw [List.length_cons] at hlength
  omega

theorem Top.keepsGreatest_iff (h : Top limit map kept) (hmap : (map.map Prod.fst).Nodup)
    (hlast : ∀ p, p ∈ map ↔ p ∈ lastEntries asked) :
    KeepsGreatest limit asked kept ↔ LastIsGreatest limit asked := by
  have hperm : map.Perm (lastEntries asked) :=
    (List.perm_ext_iff_of_nodup hmap.of_map (nodup_lastEntries asked).of_map).mpr hlast
  have hcount : ∀ v : ν, ((lastEntries asked).filter fun r => v ≤ r.2).length =
      (map.filter fun r => v ≤ r.2).length := fun v => (hperm.filter _).length_eq.symm
  have hkeys : map.length = (asked.map Prod.fst).dedup.length := by
    rw [hperm.length_eq, ← keys_lastEntries, List.length_map]
  constructor
  · intro hkept p hp q hq hkey
    by_cases hmem : p ∈ kept
    · exact .inl ((hkept.greatest p hmem).2 q hq hkey)
    · -- the key is left out, so what is kept reaches the limit
      right
      have hout : q.1 ∉ kept.map Prod.fst := by
        intro hin
        obtain ⟨r, hr, hrkey⟩ := List.mem_map.mp hin
        have hsame := eq_of_key_eq hmap (h.sub hr) ((hlast p).mpr hp) (hrkey.trans hkey)
        exact hmem (hsame ▸ hr)
      have hsub : kept ⊆ map.filter fun r => q.2 ≤ r.2 := fun r hr =>
        List.mem_filter.mpr ⟨h.sub hr, decide_eq_true (hkept.cut q hq hout r hr)⟩
      have hlt : kept.length < map.length := by
        have hcons : (p :: kept).Nodup := List.nodup_cons.mpr ⟨hmem, h.nodup.of_map⟩
        exact (hcons.subperm (List.cons_subset.mpr ⟨(hlast p).mpr hp, h.sub⟩)).length_le
      have hle := (h.nodup.of_map.subperm hsub).length_le
      have hsize := h.size
      rw [hcount]
      omega
  · intro hgreatest
    have hreach : ∀ p ∈ kept, ∀ r ∈ map, ∀ q ∈ asked, q.1 = r.1 → r.2 ≤ p.2 → q.2 ≤ p.2 := by
      intro p hp r hr q hq hkey hle
      rcases hgreatest r ((hlast r).mp hr) q hq hkey with hq | hmany
      · exact hq.trans hle
      · by_contra hnot
        have hfew := h.exceeding_lt hmap hp (not_le.mp hnot)
        rw [hcount] at hmany
        omega
    refine ⟨h.nodup, fun p hp => ⟨?_, fun q hq hkey => ?_⟩, by rw [h.size, hkeys], ?_⟩
    · exact mem_of_mem_lastEntries ((hlast p).mp (h.sub hp))
    · exact hreach p hp p (h.sub hp) q hq hkey le_rfl
    · intro q hq hout p hp
      obtain ⟨r, hr, hkey⟩ := List.mem_map.mp
        (mem_keys_lastEntries.mpr (List.mem_map.mpr ⟨q, hq, rfl⟩))
      have hcut : r ∉ kept := fun hin => hout (List.mem_map.mpr ⟨r, hin, hkey⟩)
      have hmem := (hlast r).mpr hr
      exact hreach p hp r hmem q hq hkey.symm (h.cut r hmem hcut p hp)

theorem KeepsGreatest.perm (h : KeepsGreatest limit asked kept) (hperm : kept.Perm kept') :
    KeepsGreatest limit asked kept' where
  nodup := (hperm.map _).nodup_iff.mp h.nodup
  greatest := fun p hp => h.greatest p (hperm.mem_iff.mpr hp)
  size := hperm.length_eq ▸ h.size
  cut := fun q hq hout p hp =>
    h.cut q hq (fun hin => hout ((hperm.map _).mem_iff.mp hin)) p (hperm.mem_iff.mpr hp)

end SimpleCdn.Greatest
