import Mathlib.Algebra.Order.Ring.Unbundled.Rat

/-!
# Shared dictionaries

A dictionary of numbers whose entries expire, as nginx shares one between its workers.  An entry is
there until its time; after that every operation treats it as absent, and `incr` and `add` write
over it.  Nothing is evicted before its time.
-/

namespace SimpleCdn

structure SharedDict.Entry where
  value : ℕ
  expires : ℚ

/-- The entries that have been written, the expired ones included. -/
def SharedDict (κ : Type) : Type :=
  κ → Option SharedDict.Entry

namespace SharedDict

variable {κ : Type}

def empty : SharedDict κ := fun _ => none

/-- The entry of the key, unless it has expired. -/
def find (dict : SharedDict κ) (key : κ) (now : ℚ) : Option Entry :=
  (dict key).filter fun entry => now < entry.expires

def get (dict : SharedDict κ) (key : κ) (now : ℚ) : Option ℕ :=
  (dict.find key now).map Entry.value

section

variable {dict : SharedDict κ} {key : κ} {now : ℚ} {entry : Entry}

theorem find_of_lt (h : dict key = some entry) (hlive : now < entry.expires) :
    dict.find key now = some entry := by
  rw [find, h]
  exact if_pos (decide_eq_true hlive)

theorem find_eq_some (h : dict.find key now = some entry) :
    dict key = some entry ∧ now < entry.expires := by
  rw [find, Option.filter_eq_some_iff] at h
  exact ⟨h.1, of_decide_eq_true h.2⟩

theorem find_of_none (h : dict key = none) : dict.find key now = none := by
  rw [find, h]
  rfl

end

/-! ### Writing -/

variable [DecidableEq κ]

def set (dict : SharedDict κ) (key : κ) (entry : Option Entry) : SharedDict κ :=
  fun other => if other = key then entry else dict other

/-- `incr(key, 1, 0, ttl)`: a new entry begins at one and expires after `ttl`; one that is there
keeps its time. -/
def incr (dict : SharedDict κ) (key : κ) (ttl now : ℚ) : ℕ × SharedDict κ :=
  match dict.find key now with
  | some entry => (entry.value + 1, dict.set key (some ⟨entry.value + 1, entry.expires⟩))
  | none => (1, dict.set key (some ⟨1, now + ttl⟩))

/-- `add(key, value, ttl)`, which fails when the key is there. -/
def add (dict : SharedDict κ) (key : κ) (value : ℕ) (ttl now : ℚ) : Bool × SharedDict κ :=
  match dict.find key now with
  | some _ => (false, dict)
  | none => (true, dict.set key (some ⟨value, now + ttl⟩))

def delete (dict : SharedDict κ) (key : κ) : SharedDict κ :=
  dict.set key none

/-- `expire(key, ttl)`, of a key that is there. -/
def expire (dict : SharedDict κ) (key : κ) (ttl now : ℚ) : SharedDict κ :=
  match dict.find key now with
  | some entry => dict.set key (some { entry with expires := now + ttl })
  | none => dict

/-! ### What an operation leaves alone -/

section

variable {dict : SharedDict κ} {key other : κ} {ttl now : ℚ}

@[simp] theorem set_self (entry : Option Entry) : dict.set key entry key = entry :=
  if_pos rfl

theorem set_of_ne (entry : Option Entry) (h : other ≠ key) : dict.set key entry other = dict other :=
  if_neg h

theorem incr_of_ne (h : other ≠ key) : (dict.incr key ttl now).2 other = dict other := by
  rw [incr]
  split
  · exact set_of_ne _ h
  · exact set_of_ne _ h

theorem add_of_ne {value : ℕ} (h : other ≠ key) :
    (dict.add key value ttl now).2 other = dict other := by
  rw [add]
  split
  · rfl
  · exact set_of_ne _ h

theorem delete_of_ne (h : other ≠ key) : dict.delete key other = dict other :=
  set_of_ne _ h

theorem delete_self : dict.delete key key = none :=
  set_self _

theorem expire_of_ne (h : other ≠ key) : dict.expire key ttl now other = dict other := by
  rw [expire]
  rcases dict.find key now with _ | entry
  · rfl
  · exact set_of_ne _ h

/-! ### What an operation does to its key -/

theorem incr_of_find {entry : Entry} (h : dict.find key now = some entry) :
    (dict.incr key ttl now).1 = entry.value + 1 ∧
      (dict.incr key ttl now).2 key = some ⟨entry.value + 1, entry.expires⟩ := by
  rw [incr, h]
  exact ⟨rfl, set_self _⟩

theorem incr_of_not_find (h : dict.find key now = none) :
    (dict.incr key ttl now).1 = 1 ∧ (dict.incr key ttl now).2 key = some ⟨1, now + ttl⟩ := by
  rw [incr, h]
  exact ⟨rfl, set_self _⟩

end

end SharedDict

end SimpleCdn
