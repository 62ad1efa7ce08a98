import Mathlib.Data.List.Nodup
import Mathlib.Data.List.Perm.Basic

/-!
# Keyed tables

A table is a list of rows with pairwise distinct keys, so a row with a key already present
cannot be built into one.  The operations are the statements a relational store executes:
look a row up by its key, insert a row (refused when the key is taken), insert or replace,
update the rows a condition selects, delete the rows a condition selects.

The simp lemmas say what each operation does to a lookup by key and to membership, so that
proofs about a store never unfold an operation.
-/

namespace SimpleCdn

/-- The rows of type `ρ` carry their own primary key. -/
class Keyed (ρ : Type*) (κ : outParam Type*) where
  key : ρ → κ

export Keyed (key)

/-- Rows with pairwise distinct keys, in insertion order. -/
structure Table (ρ : Type*) {κ : Type*} [Keyed ρ κ] where
  rows : List ρ
  nodup : (rows.map key).Nodup

namespace Table

variable {ρ κ : Type*} [Keyed ρ κ]

instance : Membership ρ (Table ρ) := ⟨fun T r => r ∈ T.rows⟩

instance : EmptyCollection (Table ρ) := ⟨⟨[], List.nodup_nil⟩⟩

instance : Inhabited (Table ρ) := ⟨∅⟩

theorem mem_iff {T : Table ρ} {r : ρ} : r ∈ T ↔ r ∈ T.rows := Iff.rfl

@[simp] theorem not_mem_empty (r : ρ) : r ∉ (∅ : Table ρ) := List.not_mem_nil

/-- `EXISTS (SELECT 1 … WHERE p)`. -/
def any (T : Table ρ) (p : ρ → Bool) : Bool :=
  T.rows.any p

@[simp] theorem any_eq_true {T : Table ρ} {p : ρ → Bool} :
    T.any p = true ↔ ∃ r ∈ T, p r = true := by
  simp [any, mem_iff]

@[simp] theorem any_eq_false {T : Table ρ} {p : ρ → Bool} :
    T.any p = false ↔ ∀ r ∈ T, p r = false := by
  simp [any, mem_iff]

/-- Two rows of a table with one key are the same row. -/
theorem eq_of_key_eq {T : Table ρ} {r r' : ρ} (hr : r ∈ T) (hr' : r' ∈ T)
    (hkey : key r = key r') : r = r' :=
  List.inj_on_of_nodup_map T.nodup hr hr' hkey

section Update

/-- `UPDATE … SET f WHERE p`; the assignment may not touch the key. -/
def update (T : Table ρ) (p : ρ → Bool) (f : ρ → ρ)
    (hf : ∀ r, key (f r) = key r := by intro _; rfl) : Table ρ where
  rows := T.rows.map fun r => if p r then f r else r
  nodup := by
    have hkeys : ∀ r, key (if p r then f r else r) = key r := by
      intro r
      split
      · exact hf r
      · rfl
    simpa [Function.comp_def, hkeys] using T.nodup

/-- `DELETE … WHERE p`. -/
def delete (T : Table ρ) (p : ρ → Bool) : Table ρ where
  rows := T.rows.filter fun r => !p r
  nodup := T.nodup.sublist (List.filter_sublist.map _)

variable {T : Table ρ} {p : ρ → Bool} {f : ρ → ρ}

/-- An update that selects no row changes nothing. -/
theorem update_eq_self {hf : ∀ r, key (f r) = key r} (h : ∀ r ∈ T.rows, p r = false) :
    T.update p f hf = T := by
  obtain ⟨rows, hnodup⟩ := T
  have hrows : (rows.map fun r => if p r then f r else r) = rows := by
    calc
      (rows.map fun r => if p r then f r else r) = rows.map id := by
        refine List.map_congr_left fun r hr => ?_
        rw [h r hr]
        rfl
      _ = rows := List.map_id rows
  simp only [update, hrows]

theorem mem_update {hf : ∀ r, key (f r) = key r} {r : ρ} :
    r ∈ T.update p f hf ↔ ∃ r₀ ∈ T, r = if p r₀ then f r₀ else r₀ := by
  constructor
  · intro h
    obtain ⟨r₀, hr₀, heq⟩ := List.mem_map.mp h
    exact ⟨r₀, hr₀, heq.symm⟩
  · rintro ⟨r₀, hr₀, heq⟩
    exact List.mem_map.mpr ⟨r₀, hr₀, heq.symm⟩

@[simp] theorem mem_delete {r : ρ} : r ∈ T.delete p ↔ r ∈ T ∧ p r = false := by
  simp [mem_iff, delete]

end Update

section Lookup

variable [DecidableEq κ]

/-- The row with key `k`. -/
def find? (T : Table ρ) (k : κ) : Option ρ :=
  T.rows.find? fun r => key r = k

/-- `INSERT`, refused when the key is taken. -/
def insert? (T : Table ρ) (r : ρ) : Option (Table ρ) :=
  if h : key r ∈ T.rows.map key then none
  else some ⟨T.rows ++ [r], by simpa [List.nodup_append, T.nodup] using fun x hx he => h (by
    simpa using ⟨x, hx, he⟩)⟩

/-- `INSERT … ON CONFLICT DO UPDATE`: replace the row with this key, or add it. -/
def upsert (T : Table ρ) (r : ρ) : Table ρ :=
  match T.insert? r with
  | some T' => T'
  | none => ⟨T.rows.map fun x => if key x = key r then r else x, by
      have hkeys : ∀ x, key (if key x = key r then r else x) = key x := by
        intro x
        split
        · next h => exact h.symm
        · rfl
      simpa [Function.comp_def, hkeys] using T.nodup⟩

variable {T T' : Table ρ} {p : ρ → Bool} {f : ρ → ρ} {k : κ} {r : ρ}

theorem find?_eq_some_iff : T.find? k = some r ↔ r ∈ T ∧ key r = k := by
  constructor
  · intro h
    exact ⟨List.mem_of_find?_eq_some h, by simpa using List.find?_some h⟩
  · rintro ⟨hmem, hkey⟩
    cases hfind : T.find? k with
    | none =>
      have hnone := List.find?_eq_none.mp hfind r hmem
      simp [hkey] at hnone
    | some r' =>
      have hmem' : r' ∈ T := List.mem_of_find?_eq_some hfind
      have hkey' : key r' = k := by simpa using List.find?_some hfind
      rw [eq_of_key_eq hmem hmem' (hkey.trans hkey'.symm)]

theorem find?_eq_none_iff : T.find? k = none ↔ ∀ r ∈ T, key r ≠ k := by
  simp [find?, mem_iff]

theorem find?_of_mem (h : r ∈ T) : T.find? (key r) = some r :=
  find?_eq_some_iff.mpr ⟨h, rfl⟩

theorem mem_of_find? (h : T.find? k = some r) : r ∈ T :=
  (find?_eq_some_iff.mp h).1

theorem key_of_find? (h : T.find? k = some r) : key r = k :=
  (find?_eq_some_iff.mp h).2

@[simp] theorem find?_empty (k : κ) : (∅ : Table ρ).find? k = none := rfl

@[simp] theorem find?_update {hf : ∀ r, key (f r) = key r} (k : κ) :
    (T.update p f hf).find? k = (T.find? k).map fun r => if p r then f r else r := by
  cases hfind : T.find? k with
  | none =>
    refine find?_eq_none_iff.mpr fun r hr => ?_
    obtain ⟨r₀, hr₀, rfl⟩ := mem_update.mp hr
    have hne := find?_eq_none_iff.mp hfind r₀ hr₀
    split
    · rwa [hf]
    · exact hne
  | some r₀ =>
    obtain ⟨hmem, hkey⟩ := find?_eq_some_iff.mp hfind
    refine find?_eq_some_iff.mpr ⟨mem_update.mpr ⟨r₀, hmem, rfl⟩, ?_⟩
    simp only
    split
    · rw [hf, hkey]
    · exact hkey

/-- An update that selects by key, and perhaps by a further condition. -/
theorem find?_update_key (hf : ∀ r, key (f r) = key r) (k k' : κ) :
    (T.update (fun r => key r = k && p r) f hf).find? k' =
      if k' = k then (T.find? k').map fun r => if p r then f r else r else T.find? k' := by
  rw [find?_update]
  cases hfind : T.find? k' with
  | none => simp
  | some r =>
    have hkey : key r = k' := (find?_eq_some_iff.mp hfind).2
    by_cases hk : k' = k
    · simp [hkey, hk]
    · simp [hkey, hk]

theorem find?_delete (k : κ) :
    (T.delete p).find? k = (T.find? k).filter fun r => !p r := by
  cases hfind : T.find? k with
  | none =>
    refine find?_eq_none_iff.mpr fun r hr => ?_
    exact find?_eq_none_iff.mp hfind r (mem_delete.mp hr).1
  | some r₀ =>
    obtain ⟨hmem, hkey⟩ := find?_eq_some_iff.mp hfind
    cases hp : p r₀ with
    | false =>
      rw [find?_eq_some_iff.mpr ⟨mem_delete.mpr ⟨hmem, hp⟩, hkey⟩]
      simp [Option.filter, hp]
    | true =>
      simp only [Option.filter, hp, Bool.not_true, Bool.false_eq_true, if_false]
      refine find?_eq_none_iff.mpr fun r hr hk => ?_
      obtain ⟨hmem', hp'⟩ := mem_delete.mp hr
      rw [eq_of_key_eq hmem' hmem (hk.trans hkey.symm), hp] at hp'
      cases hp'

/-- Deleting the row with one key. -/
theorem find?_delete_key (hp : ∀ r, p r = decide (key r = k)) (k' : κ) :
    (T.delete p).find? k' = if k' = k then none else T.find? k' := by
  rw [find?_delete]
  cases hfind : T.find? k' with
  | none => simp
  | some r =>
    have hkey : key r = k' := key_of_find? hfind
    by_cases hk : k' = k
    · simp [Option.filter, hp, hkey, hk]
    · simp [Option.filter, hp, hkey, hk]

theorem insert?_eq_some_iff :
    T.insert? r = some T' ↔ T.find? (key r) = none ∧ T'.rows = T.rows ++ [r] := by
  unfold insert?
  split
  · next h =>
    obtain ⟨x, hx, hkey⟩ := List.mem_map.mp h
    simp only [reduceCtorEq, false_iff, not_and]
    intro hnone
    exact absurd hkey (find?_eq_none_iff.mp hnone x hx)
  · next h =>
    have hnone : T.find? (key r) = none :=
      find?_eq_none_iff.mpr fun x hx hkey => h (List.mem_map.mpr ⟨x, hx, hkey⟩)
    simp only [hnone, true_and, Option.some.injEq]
    constructor
    · rintro rfl
      rfl
    · intro hrows
      cases T'
      simp_all

theorem insert?_eq_none_iff : T.insert? r = none ↔ ∃ r₀, T.find? (key r) = some r₀ := by
  unfold insert?
  split
  · next h =>
    obtain ⟨x, hx, hkey⟩ := List.mem_map.mp h
    simpa using ⟨x, find?_eq_some_iff.mpr ⟨hx, hkey⟩⟩
  · next h =>
    simp only [reduceCtorEq, false_iff, not_exists]
    intro r₀ hr₀
    exact h (List.mem_map.mpr ⟨r₀, mem_of_find? hr₀, key_of_find? hr₀⟩)

theorem mem_of_insert? (h : T.insert? r = some T') {x : ρ} : x ∈ T' ↔ x ∈ T ∨ x = r := by
  simp [mem_iff, (insert?_eq_some_iff.mp h).2]

theorem find?_of_insert? (h : T.insert? r = some T') (k : κ) :
    T'.find? k = if key r = k then some r else T.find? k := by
  obtain ⟨hnone, hrows⟩ := insert?_eq_some_iff.mp h
  simp only [find?, hrows, List.find?_append]
  by_cases hk : key r = k
  · subst hk
    have hnone' : T.rows.find? (fun x => decide (key x = key r)) = none := hnone
    simp [hnone']
  · simp [hk]

theorem find?_upsert (k : κ) :
    (T.upsert r).find? k = if key r = k then some r else T.find? k := by
  unfold upsert
  cases hins : T.insert? r with
  | some T' => exact find?_of_insert? hins k
  | none =>
    obtain ⟨r₀, hr₀⟩ := insert?_eq_none_iff.mp hins
    obtain ⟨hmem₀, hkey₀⟩ := find?_eq_some_iff.mp hr₀
    by_cases hk : key r = k
    · rw [if_pos hk]
      refine find?_eq_some_iff.mpr ⟨?_, hk⟩
      exact List.mem_map.mpr ⟨r₀, hmem₀, by simp [hkey₀]⟩
    · rw [if_neg hk]
      cases hfind : T.find? k with
      | none =>
        refine find?_eq_none_iff.mpr fun x hx => ?_
        obtain ⟨y, hy, rfl⟩ := List.mem_map.mp hx
        split
        · exact hk
        · exact find?_eq_none_iff.mp hfind y hy
      | some y =>
        obtain ⟨hy, hyk⟩ := find?_eq_some_iff.mp hfind
        refine find?_eq_some_iff.mpr ⟨List.mem_map.mpr ⟨y, hy, ?_⟩, hyk⟩
        rw [if_neg]
        rw [hyk]
        exact fun h => hk h.symm

theorem mem_upsert {x : ρ} : x ∈ T.upsert r ↔ x = r ∨ (x ∈ T ∧ key x ≠ key r) := by
  constructor
  · intro hx
    have hfind := find?_of_mem hx
    rw [find?_upsert] at hfind
    split at hfind
    · left; simpa using hfind.symm
    · next h => exact Or.inr ⟨mem_of_find? hfind, fun hk => h hk.symm⟩
  · rintro (rfl | ⟨hx, hk⟩)
    · exact mem_of_find? (k := key x) (by simp [find?_upsert])
    · refine mem_of_find? (k := key x) ?_
      rw [find?_upsert, if_neg (fun h => hk h.symm)]
      exact find?_of_mem hx

end Lookup

end Table

end SimpleCdn
