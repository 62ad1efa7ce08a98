import Mathlib.Data.List.Infix
import Mathlib.Data.List.TakeWhile

/-!
# Scanners

A scanner reads a piece from the front of a text.  What it reads depends on the piece and on little
of what is ahead: on the next character, and on whether `:]` is still to come, which the classes of
a regular expression ask.  Both are part of the structure, so that whoever changes the text behind a
piece only has to keep these.
-/

namespace SimpleCdn.Regexp

/-- The end of the name of a class. -/
def nameEnd : List Char := [':', ']']

/-- What is ahead looks the same to a scanner that succeeds. -/
structure Alike (rest other : List Char) : Prop where
  head : rest.head? = other.head?
  ends : ¬nameEnd <:+: rest → ¬nameEnd <:+: other
  tailEnds : ¬nameEnd <:+: rest.tail → ¬nameEnd <:+: other.tail

theorem nameEnd_infix_cons {c : Char} {cs : List Char} :
    nameEnd <:+: c :: cs ↔ (c = ':' ∧ cs.head? = some ']') ∨ nameEnd <:+: cs := by
  rw [List.infix_cons_iff]
  refine or_congr_left ?_
  rcases cs with _ | ⟨d, cs⟩
  · simp [nameEnd]
  · simp [nameEnd, eq_comm]

theorem Alike.cons {rest other : List Char} (h : Alike rest other) (c : Char) :
    Alike (c :: rest) (c :: other) := by
  refine ⟨rfl, fun hends hother => hends ?_, h.ends⟩
  rw [nameEnd_infix_cons] at hother ⊢
  rcases hother with ⟨hc, hhead⟩ | hother
  · exact Or.inl ⟨hc, h.head.trans hhead⟩
  · exact Or.inr (not_not.mp fun hrest => h.ends hrest hother)

theorem Alike.append {rest other : List Char} (h : Alike rest other) (text : List Char) :
    Alike (text ++ rest) (text ++ other) := by
  induction text with
  | nil => exact h
  | cons c text ih => exact ih.cons c

theorem eq_nil_of_append {text rest : List Char} (h : text ++ rest = rest) : text = [] := by
  have hlength := congrArg List.length h
  rw [List.length_append] at hlength
  exact List.eq_nil_of_length_eq_zero (by omega)

/-- A reader of the front of a text. -/
structure Scan (α : Type) where
  run : List Char → Option (α × List Char)
  suffix : ∀ {cs : List Char} {a : α} {rest : List Char}, run cs = some (a, rest) → rest <:+ cs
  stable : ∀ {text rest other : List Char} {a : α}, run (text ++ rest) = some (a, rest) →
    Alike rest other → run (text ++ other) = some (a, other)

namespace Scan

variable {α β : Type}

protected def pure (a : α) : Scan α where
  run cs := some (a, cs)
  suffix h := by
    cases h
    exact List.suffix_rfl
  stable {text rest other b} h _ := by
    obtain ⟨rfl, htext⟩ := Prod.mk.inj (Option.some.inj h)
    rw [eq_nil_of_append htext, List.nil_append]

protected def bind (x : Scan α) (f : α → Scan β) : Scan β where
  run cs := (x.run cs).bind fun (a, rest) => (f a).run rest
  suffix h := by
    obtain ⟨⟨a, middle⟩, hx, hf⟩ := Option.bind_eq_some_iff.mp h
    exact ((f a).suffix hf).trans (x.suffix hx)
  stable {text rest other b} h halike := by
    obtain ⟨⟨a, middle⟩, hx, hf⟩ := Option.bind_eq_some_iff.mp h
    obtain ⟨second, rfl⟩ := (f a).suffix hf
    obtain ⟨first, hfirst⟩ := x.suffix hx
    rw [← List.append_assoc, List.append_cancel_right_eq] at hfirst
    subst hfirst
    rw [List.append_assoc] at hx ⊢
    rw [x.stable hx (halike.append second)]
    exact (f a).stable hf halike

instance : Monad Scan where
  pure := Scan.pure
  bind := Scan.bind

protected def fail : Scan α where
  run _ := none
  suffix h := absurd h nofun
  stable h := absurd h nofun

/-- The next character, which stays. -/
def peek : Scan (Option Char) where
  run cs := some (cs.head?, cs)
  suffix h := by
    cases h
    exact List.suffix_rfl
  stable {text rest other a} h halike := by
    obtain ⟨rfl, htext⟩ := Prod.mk.inj (Option.some.inj h)
    rw [eq_nil_of_append htext, List.nil_append, List.nil_append, halike.head]

def next : Scan Char where
  run
    | [] => none
    | c :: cs => some (c, cs)
  suffix {cs a rest} h := by
    rcases cs with _ | ⟨c, tail⟩
    · exact absurd h nofun
    · cases h
      exact List.suffix_cons a rest
  stable {text rest other a} h _ := by
    rcases text with _ | ⟨c, text⟩
    · rcases rest with _ | ⟨c, rest⟩
      · exact absurd h nofun
      · exact absurd (Prod.mk.inj (Option.some.inj h)).2.symm (List.cons_ne_self c rest)
    · obtain ⟨rfl, htext⟩ := Prod.mk.inj (Option.some.inj h)
      rw [eq_nil_of_append htext]
      rfl

/-- The characters up to the first that `p` does not hold of. -/
def takeWhile (p : Char → Bool) : Scan (List Char) where
  run cs := some (cs.takeWhile p, cs.dropWhile p)
  suffix {cs a rest} h := by
    obtain ⟨-, rfl⟩ := Prod.mk.inj (Option.some.inj h)
    exact List.dropWhile_suffix p
  stable {text rest other a} h halike := by
    obtain ⟨rfl, hrest⟩ := Prod.mk.inj (Option.some.inj h)
    -- exactly the text was taken
    have htake : (text ++ rest).takeWhile p = text := by
      have hboth := List.takeWhile_append_dropWhile (p := p) (l := text ++ rest)
      rw [hrest] at hboth
      exact List.append_cancel_right hboth
    have hall : ∀ c ∈ text, p c = true := by
      rw [← htake]
      exact fun c hc => List.mem_takeWhile_imp hc
    have hstop : ∀ c ∈ other.head?, ¬p c = true := by
      rw [← halike.head]
      rw [List.dropWhile_append_of_pos hall] at hrest
      rcases rest with _ | ⟨d, rest⟩
      · exact nofun
      · intro c hc hp
        obtain rfl : d = c := Option.some.inj hc
        exact List.dropWhile_eq_self_iff.mp hrest (Nat.succ_pos _) hp
    rw [htake, List.takeWhile_append_of_pos hall, List.dropWhile_append_of_pos hall]
    rcases other with _ | ⟨d, other⟩
    · simp
    · rw [List.takeWhile_cons_of_neg (hstop d rfl), List.dropWhile_cons_of_neg (hstop d rfl),
        List.append_nil]

/-! ### Loops -/

/-- Items until there is no other; an item is not empty. -/
def collectFrom (item : Scan (Option α)) : ℕ → List Char → Option (List α × List Char)
  | 0, _ => none
  | fuel + 1, cs =>
    match item.run cs with
    | none => none
    | some (none, rest) => some ([], rest)
    | some (some a, rest) =>
      if rest.length < cs.length then
        (collectFrom item fuel rest).map fun (items, rest) => (a :: items, rest)
      else none

theorem collectFrom_suffix {item : Scan (Option α)} {fuel : ℕ} {cs rest : List Char}
    {items : List α} (h : collectFrom item fuel cs = some (items, rest)) : rest <:+ cs := by
  induction fuel generalizing cs items with
  | zero => exact absurd h nofun
  | succ fuel ih =>
    rw [collectFrom] at h
    rcases hitem : item.run cs with _ | ⟨_ | a, middle⟩
    · rw [hitem] at h
      exact absurd h nofun
    · rw [hitem] at h
      cases h
      exact item.suffix hitem
    · rw [hitem] at h
      dsimp only at h
      split at h
      · obtain ⟨⟨items, rest⟩, hrest, heq⟩ := Option.map_eq_some_iff.mp h
        cases heq
        exact (ih hrest).trans (item.suffix hitem)
      · exact absurd h nofun

/-- Reading a text takes no more steps than it has characters, whatever comes behind it. -/
theorem collectFrom_stable {item : Scan (Option α)} {fuel : ℕ} {text rest other : List Char}
    {items : List α} {enough : ℕ}
    (h : collectFrom item fuel (text ++ rest) = some (items, rest)) (halike : Alike rest other)
    (henough : text.length < enough) :
    collectFrom item enough (text ++ other) = some (items, other) := by
  induction fuel generalizing text items enough with
  | zero => exact absurd h nofun
  | succ fuel ih =>
    obtain ⟨enough, rfl⟩ : ∃ n, enough = n + 1 := ⟨enough - 1, by omega⟩
    rw [collectFrom] at h ⊢
    rcases hitem : item.run (text ++ rest) with _ | ⟨_ | a, middle⟩
    · rw [hitem] at h
      exact absurd h nofun
    · rw [hitem] at h
      cases h
      rw [item.stable hitem halike]
    · rw [hitem] at h
      dsimp only at h
      split at h
      · next hprogress =>
        obtain ⟨⟨items, rest⟩, hrest, heq⟩ := Option.map_eq_some_iff.mp h
        cases heq
        obtain ⟨second, rfl⟩ := collectFrom_suffix hrest
        obtain ⟨first, hfirst⟩ := item.suffix hitem
        rw [← List.append_assoc, List.append_cancel_right_eq] at hfirst
        subst hfirst
        simp only [List.length_append] at hprogress henough
        rw [List.append_assoc] at hitem ⊢
        rw [item.stable hitem (halike.append second)]
        dsimp only
        rw [if_pos (by simp only [List.length_append]; omega),
          ih hrest (show second.length < enough by omega)]
        rfl
      · exact absurd h nofun

def collect (item : Scan (Option α)) : Scan (List α) where
  run cs := collectFrom item (cs.length + 1) cs
  suffix h := collectFrom_suffix h
  stable h halike := collectFrom_stable h halike (by rw [List.length_append]; omega)

end Scan

end SimpleCdn.Regexp
