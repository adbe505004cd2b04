import Mathlib.Data.List.Basic

/-! # Text as UTF-8 bytes

Text is a list of characters. Decoding is strict: it gives a text exactly for
the bytes that are its encoding.
-/

namespace SnipeIt.Support.Utf8

def encode (text : List Char) : List UInt8 := text.flatMap String.utf8EncodeChar

def decode (bytes : List UInt8) : Option (List Char) :=
  bytes.toByteArray.utf8Decode?.map Array.toList

theorem encode_append (text text' : List Char) :
    encode (text ++ text') = encode text ++ encode text' := List.flatMap_append

theorem encode_cons (c : Char) (text : List Char) :
    encode (c :: text) = String.utf8EncodeChar c ++ encode text := List.flatMap_cons

theorem toNat_of_isDigit {c : Char} (h : c.isDigit) : 48 ≤ c.toNat ∧ c.toNat ≤ 57 := by
  simpa [Char.isDigit, UInt32.le_iff_toNat_le] using h

theorem encodeChar_ascii {c : Char} (h : c.toNat < 128) :
    String.utf8EncodeChar c = [c.val.toUInt8] := by
  apply String.utf8EncodeChar_eq_singleton
  have hle : c.val ≤ 0x7f := UInt32.le_iff_toNat_le.mpr (Nat.lt_succ_iff.mp h)
  simp [Char.utf8Size, hle]

theorem encode_ascii {text : List Char} (h : ∀ c ∈ text, c.toNat < 128) :
    encode text = text.map fun c => c.val.toUInt8 := by
  induction text with
  | nil => rfl
  | cons c text ih =>
    rw [encode_cons, encodeChar_ascii (h c List.mem_cons_self),
      ih fun d hd => h d (List.mem_cons_of_mem c hd)]
    rfl

/-- Only an ASCII character has a byte below 128 in its encoding. -/
theorem le_of_mem_encodeChar {c : Char} (h : 128 ≤ c.toNat) {b : UInt8}
    (hb : b ∈ String.utf8EncodeChar c) : 128 ≤ b := by
  have hor {x y : UInt8} (hy : 128 ≤ y) : 128 ≤ x ||| y := by
    rw [UInt8.le_iff_toNat_le] at hy ⊢
    rw [UInt8.toNat_or]
    exact Nat.le_trans hy Nat.right_le_or
  rcases Char.utf8Size_eq c with hsize | hsize | hsize | hsize
  · have hnat : c.toNat ≤ 127 := UInt32.le_iff_toNat_le.mp (Char.utf8Size_eq_one_iff.mp hsize)
    omega
  · rw [String.utf8EncodeChar_eq_cons_cons hsize] at hb
    simp only [List.mem_cons, List.not_mem_nil, or_false] at hb
    rcases hb with rfl | rfl <;> exact hor (by decide)
  · rw [String.utf8EncodeChar_eq_cons_cons_cons hsize] at hb
    simp only [List.mem_cons, List.not_mem_nil, or_false] at hb
    rcases hb with rfl | rfl | rfl <;> exact hor (by decide)
  · rw [String.utf8EncodeChar_eq_cons_cons_cons_cons hsize] at hb
    simp only [List.mem_cons, List.not_mem_nil, or_false] at hb
    rcases hb with rfl | rfl | rfl | rfl <;> exact hor (by decide)

/-- The ASCII bytes of the encoding are those of the ASCII characters. -/
theorem mem_encode_iff {b : UInt8} (hb : b.toNat < 128) {text : List Char} :
    b ∈ encode text ↔ ∃ c ∈ text, c.toNat = b.toNat := by
  rw [encode, List.mem_flatMap]
  have hascii {c : Char} (hc : c.toNat < 128) : c.val.toUInt8.toNat = c.toNat := by
    rw [UInt32.toNat_toUInt8]
    exact Nat.mod_eq_of_lt (by change c.toNat < 2 ^ 8; omega)
  constructor
  · rintro ⟨c, hc, hmem⟩
    refine ⟨c, hc, ?_⟩
    by_cases hlt : c.toNat < 128
    · rw [encodeChar_ascii hlt] at hmem
      rw [List.mem_singleton.mp hmem, hascii hlt]
    · have hle := UInt8.le_iff_toNat_le.mp (le_of_mem_encodeChar (Nat.not_lt.mp hlt) hmem)
      exact absurd hb (Nat.not_lt.mpr hle)
  · rintro ⟨c, hc, heq⟩
    have hlt : c.toNat < 128 := heq ▸ hb
    refine ⟨c, hc, ?_⟩
    rw [encodeChar_ascii hlt, List.mem_singleton]
    exact UInt8.toNat_inj.mp (heq.symm.trans (hascii hlt).symm)

theorem utf8Encode_eq (text : List Char) : text.utf8Encode = (encode text).toByteArray := rfl

theorem toByteArray_injective : Function.Injective (List.toByteArray : List UInt8 → ByteArray) := by
  intro bytes bytes' h
  have hdata := congrArg ByteArray.data h
  simpa using hdata

theorem decode_encode (text : List Char) : decode (encode text) = some text := by
  rw [decode, ← utf8Encode_eq, List.utf8Decode?_utf8Encode]
  rfl

theorem decode_eq_some_iff {bytes : List UInt8} {text : List Char} :
    decode bytes = some text ↔ encode text = bytes := by
  constructor
  · intro h
    obtain ⟨chars, hdecode, rfl⟩ := Option.map_eq_some_iff.mp h
    have hsome : bytes.toByteArray.utf8Decode?.isSome := by rw [hdecode]; rfl
    apply toByteArray_injective
    rw [← utf8Encode_eq,
      ← ByteArray.utf8Encode_get_utf8Decode? (b := bytes.toByteArray) (h := hsome)]
    simp only [hdecode, Option.get_some]
  · rintro rfl
    exact decode_encode text

theorem encode_injective : Function.Injective encode := by
  intro text text' h
  have hdecode := decode_encode text
  rw [h, decode_encode] at hdecode
  exact (Option.some.inj hdecode).symm

/-- The characters that are printed for numbers and names. -/
def Printable (text : List Char) : Prop := ∀ c ∈ text, 32 ≤ c.toNat ∧ c.toNat < 128

instance (text : List Char) : Decidable (Printable text) :=
  show Decidable (∀ c ∈ text, 32 ≤ c.toNat ∧ c.toNat < 128) from List.decidableBAll _ text

theorem printable_append {text text' : List Char} :
    Printable (text ++ text') ↔ Printable text ∧ Printable text' := List.forall_mem_append

theorem printable_digits {digits : List Char} (h : ∀ d ∈ digits, d.isDigit) : Printable digits := by
  intro d hd
  have hdigit := toNat_of_isDigit (h d hd)
  omega

theorem not_mem_encode_printable {text : List Char} (h : Printable text) {b : UInt8}
    (hb : b.toNat < 32) : b ∉ encode text := by
  rw [mem_encode_iff (by omega)]
  rintro ⟨c, hc, heq⟩
  have hle := (h c hc).1
  omega

theorem length_encode_printable {text : List Char} (h : Printable text) :
    (encode text).length = text.length := by
  rw [encode_ascii fun c hc => (h c hc).2, List.length_map]

end SnipeIt.Support.Utf8
