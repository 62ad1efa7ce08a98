import Mathlib.Algebra.GroupWithZero.Nat
import Mathlib.Data.List.DropRight

/-!
# Text

The operations of Go's `strings` package that the program applies to user input, on the
characters of a string, and the length of a Go string, which counts the bytes of its UTF-8
encoding.
-/

namespace SimpleCdn.Text

/-- `unicode.IsSpace`. -/
def isSpace (c : Char) : Bool :=
  let n := c.toNat
  (9 ≤ n && n ≤ 13) || n = 0x20 || n = 0x85 || n = 0xA0 || n = 0x1680 ||
    (0x2000 ≤ n && n ≤ 0x200A) || n = 0x2028 || n = 0x2029 || n = 0x202F || n = 0x205F || n = 0x3000

/-- `strings.TrimSpace`. -/
def trimSpace (s : String) : String :=
  String.ofList ((s.toList.dropWhile isSpace).reverse.dropWhile isSpace).reverse

/-- `strings.HasPrefix`. -/
def hasPrefix (s start : String) : Bool :=
  start.toList.isPrefixOf s.toList

/-- `strings.TrimSuffix`. -/
def trimSuffix (s ending : String) : String :=
  if ending.toList.isSuffixOf s.toList then
    String.ofList (s.toList.take (s.toList.length - ending.toList.length))
  else s

/-- `replaceAll`; the next `skip` characters belong to the last occurrence. -/
def replaceFrom (old new : List Char) : Nat → List Char → List Char
  | _, [] => []
  | skip + 1, _ :: cs => replaceFrom old new skip cs
  | 0, c :: cs =>
    if old.isPrefixOf (c :: cs) then new ++ replaceFrom old new (old.length - 1) cs
    else c :: replaceFrom old new 0 cs

/-- `strings.ReplaceAll`, of a text that is not empty. -/
def replaceAll (old new cs : List Char) : List Char :=
  replaceFrom old new 0 cs

/-- Replacing a character replaces each occurrence on its own. -/
theorem replaceAll_singleton (a : Char) (new cs : List Char) :
    replaceAll [a] new cs = cs.flatMap fun c => if c = a then new else [c] := by
  rw [replaceAll]
  induction cs with
  | nil => rfl
  | cons c cs ih =>
    rw [replaceFrom, List.flatMap_cons, List.length_singleton, Nat.sub_self, ih]
    by_cases hc : c = a
    · simp [List.isPrefixOf, hc]
    · simp [List.isPrefixOf, hc, Ne.symm hc]

/-- `strings.Fields` -/
def fields (cs : List Char) : List (List Char) :=
  (cs.splitOnP isSpace).filter (· ≠ [])

/-- `strings.Contains` -/
def contains (s part : String) : Bool :=
  s.toList.tails.any part.toList.isPrefixOf

/-- `len`, in bytes. -/
def byteLength (s : String) : Nat :=
  (s.toList.map Char.utf8Size).sum

/-- `net.JoinHostPort`. -/
def joinHostPort (host port : String) : String :=
  if host.toList.any (fun c => c = ':' || c = '%') then "[" ++ host ++ "]:" ++ port
  else host ++ ":" ++ port

/-- What is left of a text that begins without a space still begins so. -/
theorem dropWhile_rdropWhile {α : Type} {p : α → Bool} {l : List α} (h : l.dropWhile p = l) :
    (l.rdropWhile p).dropWhile p = l.rdropWhile p := by
  rw [List.dropWhile_eq_self_iff] at h ⊢
  intro hpos
  obtain ⟨rest, hrest⟩ := List.rdropWhile_prefix p l
  have hlength : 0 < l.length := by
    rw [← hrest, List.length_append]
    omega
  have hhead : (l.rdropWhile p)[0] = l[0] := (List.rdropWhile_prefix p l).getElem hpos
  rw [hhead]
  exact h hlength

@[simp] theorem trimSpace_trimSpace (s : String) : trimSpace (trimSpace s) = trimSpace s := by
  have hinner := List.dropWhile_idempotent (p := isSpace) s.toList
  show String.ofList (((String.ofList _).toList.dropWhile isSpace).rdropWhile isSpace) =
    String.ofList ((s.toList.dropWhile isSpace).rdropWhile isSpace)
  rw [String.toList_ofList]
  have houter := dropWhile_rdropWhile hinner
  rw [List.rdropWhile] at houter
  rw [houter]
  show String.ofList (List.rdropWhile isSpace (List.rdropWhile isSpace _)) = _
  rw [List.rdropWhile_idempotent]

theorem charToLower_toLower (c : Char) : c.toLower.toLower = c.toLower := by
  unfold Char.toLower
  split
  · next h =>
    -- a letter that has been lowered is past the capitals
    rw [dif_neg]
    rintro ⟨-, hle⟩
    simp only [ge_iff_le, UInt32.le_iff_toNat_le, UInt32.toNat_add] at h hle
    simp at h hle
    omega
  · rfl

@[simp] theorem toLower_toLower (s : String) : s.toLower.toLower = s.toLower := by
  apply String.ext
  show ((s.map Char.toLower).map Char.toLower).toList = (s.map Char.toLower).toList
  simp [charToLower_toLower]

end SimpleCdn.Text
