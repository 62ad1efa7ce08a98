import Mathlib.Algebra.GroupWithZero.Nat
import Mathlib.Data.List.Basic

/-!
# Characters and bytes

`encode` is the UTF-8 encoding of a text.  `decode` reads any bytes as a text, as a loop over a Go
string does: a byte with which no encoding of a character begins is read as the replacement
character.  A text that is cut at a byte and read again consists of its first characters and of a
replacement character for each byte of the one that has been cut.
-/

namespace SimpleCdn.Utf8

abbrev Bytes := List UInt8

/-- `utf8.RuneError` -/
def runeError : Char := '\uFFFD'

def encode (text : List Char) : Bytes := text.flatMap String.utf8EncodeChar

/-- The characters of the first `n` bytes at least; each character takes one of them. -/
def decodeFirst : ℕ → Bytes → List Char
  | 0, _ => []
  | _, [] => []
  | n + 1, bytes@(_ :: tail) =>
    match bytes.toByteArray.utf8DecodeChar? 0 with
    | some c => c :: decodeFirst n (bytes.drop c.utf8Size)
    | none => runeError :: decodeFirst n tail

def decode (bytes : Bytes) : List Char := decodeFirst bytes.length bytes

/-! ### Reading one character -/

theorem encode_cons (c : Char) (text : List Char) :
    encode (c :: text) = String.utf8EncodeChar c ++ encode text := List.flatMap_cons

theorem encode_append (text more : List Char) : encode (text ++ more) = encode text ++ encode more :=
  List.flatMap_append

theorem encodeChar_pos (c : Char) : 0 < (String.utf8EncodeChar c).length := by
  rw [String.length_utf8EncodeChar]
  exact c.utf8Size_pos

/-- A character that is read stands at the front of the bytes. -/
theorem prefix_of_decodeChar {bytes : Bytes} {c : Char}
    (h : bytes.toByteArray.utf8DecodeChar? 0 = some c) : String.utf8EncodeChar c <+: bytes := by
  obtain ⟨tail, htail⟩ := ByteArray.exists_of_utf8DecodeChar?_eq_some h
  refine ⟨tail.data.toList, ?_⟩
  have hlists := congrArg (fun b => b.data.toList) htail
  simpa using hlists.symm

theorem decodeChar_of_isPrefix {bytes : Bytes} {c : Char} (h : String.utf8EncodeChar c <+: bytes) :
    bytes.toByteArray.utf8DecodeChar? 0 = some c := by
  obtain ⟨tail, rfl⟩ := h
  rw [List.toByteArray_append]
  exact ByteArray.utf8DecodeChar?_utf8EncodeChar_append

theorem decodeFirst_nil (n : ℕ) : decodeFirst n [] = [] := by
  cases n <;> rfl

/-- Enough characters are as good as one for each byte. -/
theorem decodeFirst_congr {m n : ℕ} {bytes : Bytes} (hm : bytes.length ≤ m)
    (hn : bytes.length ≤ n) : decodeFirst m bytes = decodeFirst n bytes := by
  induction m generalizing n bytes with
  | zero =>
    rw [List.length_eq_zero_iff.mp (Nat.le_zero.mp hm), decodeFirst_nil, decodeFirst_nil]
  | succ m ih =>
    cases bytes with
    | nil => rw [decodeFirst_nil, decodeFirst_nil]
    | cons b tail =>
      rw [List.length_cons] at hm hn
      obtain ⟨n, rfl⟩ : ∃ k, n = k + 1 := ⟨n - 1, by omega⟩
      rw [decodeFirst, decodeFirst]
      split
      · next c _ =>
        have hpos := c.utf8Size_pos
        have hdrop : ((b :: tail).drop c.utf8Size).length ≤ tail.length := by
          rw [List.length_drop, List.length_cons]
          omega
        rw [ih (by omega) (show _ ≤ n by omega)]
      · rw [ih (by omega) (show _ ≤ n by omega)]

theorem decode_nil : decode [] = [] := rfl

theorem decode_of_isPrefix {bytes : Bytes} {c : Char} (h : String.utf8EncodeChar c <+: bytes) :
    decode bytes = c :: decode (bytes.drop c.utf8Size) := by
  cases bytes with
  | nil => exact absurd (List.prefix_nil.mp h) String.utf8EncodeChar_ne_nil
  | cons b tail =>
    have hpos := c.utf8Size_pos
    have hdrop : ((b :: tail).drop c.utf8Size).length ≤ tail.length := by
      rw [List.length_drop, List.length_cons]
      omega
    rw [decode, List.length_cons, decodeFirst, decodeChar_of_isPrefix h]
    exact congrArg (c :: ·) (decodeFirst_congr hdrop (Nat.le_refl _))

theorem decode_of_none {b : UInt8} {tail : Bytes}
    (h : (b :: tail).toByteArray.utf8DecodeChar? 0 = none) :
    decode (b :: tail) = runeError :: decode tail := by
  rw [decode, List.length_cons, decodeFirst, h]
  rfl

theorem decode_encode_append (text : List Char) (bytes : Bytes) :
    decode (encode text ++ bytes) = text ++ decode bytes := by
  induction text with
  | nil => rfl
  | cons c text ih =>
    rw [encode_cons, List.append_assoc, decode_of_isPrefix (List.prefix_append _ _),
      ← String.length_utf8EncodeChar c, List.drop_left, ih, List.cons_append]

/-- A text that is written and read again is the same. -/
@[simp] theorem decode_encode (text : List Char) : decode (encode text) = text := by
  have htext := decode_encode_append text []
  rwa [List.append_nil, decode_nil, List.append_nil] at htext

/-! ### Cut texts -/

/-- Bytes with which no character begins are replaced one by one. -/
theorem decode_of_not_first {bytes : Bytes} (h : ∀ b ∈ bytes, ¬ b.IsUTF8FirstByte) :
    decode bytes = List.replicate bytes.length runeError := by
  induction bytes with
  | nil => rfl
  | cons b tail ih =>
    have hnone : (b :: tail).toByteArray.utf8DecodeChar? 0 = none := by
      cases hchar : (b :: tail).toByteArray.utf8DecodeChar? 0 with
      | none => rfl
      | some c =>
        obtain ⟨more, hmore⟩ := prefix_of_decodeChar hchar
        have hpos := encodeChar_pos c
        have hfirst : (String.utf8EncodeChar c)[0].IsUTF8FirstByte :=
          UInt8.isUTF8FirstByte_getElem_utf8EncodeChar.mpr rfl
        refine absurd hfirst (h _ ?_)
        rw [← hmore]
        exact List.mem_append_left _ (List.getElem_mem _)
    rw [decode_of_none hnone, ih fun c hc => h c (List.mem_cons_of_mem _ hc), List.length_cons,
      List.replicate_succ]

/-- The first bytes of a character without the last of them are replaced one by one. -/
theorem decode_part {part : Bytes} {c : Char} (hpart : part <+: String.utf8EncodeChar c)
    (hshort : part.length < (String.utf8EncodeChar c).length) :
    decode part = List.replicate part.length runeError := by
  cases part with
  | nil => rfl
  | cons b tail =>
    have hnone : (b :: tail).toByteArray.utf8DecodeChar? 0 = none := by
      cases hchar : (b :: tail).toByteArray.utf8DecodeChar? 0 with
      | none => rfl
      | some d =>
        -- the character that is read would be the one that has been cut
        have hleads := prefix_of_decodeChar hchar
        have hsame : d = c := Option.some.inj
          ((decodeChar_of_isPrefix (hleads.trans hpart)).symm.trans
            (decodeChar_of_isPrefix List.prefix_rfl))
        rw [hsame] at hleads
        exact absurd hleads.length_le (Nat.not_le_of_lt hshort)
    have hothers : ∀ x ∈ tail, ¬ x.IsUTF8FirstByte := by
      intro x hx hfirst
      obtain ⟨i, hi, rfl⟩ := List.mem_iff_getElem.mp hx
      have hle := hpart.length_le
      rw [List.length_cons] at hle
      have hnext : i + 1 < (String.utf8EncodeChar c).length := by omega
      have hget : (String.utf8EncodeChar c)[i + 1] = tail[i] := by
        rw [← hpart.getElem (by rw [List.length_cons]; omega)]
        rfl
      rw [← hget, UInt8.isUTF8FirstByte_getElem_utf8EncodeChar] at hfirst
      cases hfirst
    rw [decode_of_none hnone, decode_of_not_first hothers, List.length_cons, List.replicate_succ]

/-- The first bytes of a text are those of its first characters, and perhaps some of the next. -/
theorem take_encode (n : ℕ) (text : List Char) : ∃ kept part, kept <+: text ∧
    (encode text).take n = encode kept ++ part ∧
    (part = [] ∨ ∃ c, part <+: String.utf8EncodeChar c ∧
      part.length < (String.utf8EncodeChar c).length) := by
  induction text generalizing n with
  | nil => exact ⟨[], [], List.prefix_rfl, List.take_nil, .inl rfl⟩
  | cons c text ih =>
    rw [encode_cons]
    by_cases hlong : (String.utf8EncodeChar c).length ≤ n
    · obtain ⟨kept, part, hkept, htake, hpart⟩ := ih (n - (String.utf8EncodeChar c).length)
      refine ⟨c :: kept, part, (List.prefix_cons_inj c).mpr hkept, ?_, hpart⟩
      rw [List.take_append, List.take_of_length_le hlong, htake, encode_cons, List.append_assoc]
    · have hshort : n < (String.utf8EncodeChar c).length := Nat.lt_of_not_le hlong
      refine ⟨[], (String.utf8EncodeChar c).take n, List.nil_prefix, ?_,
        .inr ⟨c, List.take_prefix _ _, ?_⟩⟩
      · rw [List.take_append_of_le_length (Nat.le_of_lt hshort)]
        rfl
      · rw [List.length_take]
        omega

theorem length_encode (text : List Char) : (encode text).length = (text.map Char.utf8Size).sum := by
  rw [encode, List.length_flatMap]
  congr 1
  exact List.map_congr_left fun c _ => String.length_utf8EncodeChar c

end SimpleCdn.Utf8
