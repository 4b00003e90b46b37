import Mathlib.Tactic.SplitIfs
import PipeShell.Text.Utf8

/-!
# Text as bytes and back

Text that is encoded reads back as it was (`decode?_encode`), and bytes that read as text are its
encoding (`encode_of_decode?`).  A zero byte stands for the character NUL and for nothing else
(`zero_mem_encode_iff`).
-/

set_option autoImplicit false

namespace PipeShell.Text

/-- The text can be an argument, a path and a part of an environment value. -/
def NulFree (text : String) : Prop := '\x00' ∉ text.toList

instance (text : String) : Decidable (NulFree text) :=
  inferInstanceAs (Decidable ('\x00' ∉ text.toList))

theorem nulFree_append {left right : String} :
    NulFree (left ++ right) ↔ NulFree left ∧ NulFree right := by
  rw [NulFree, String.toList_append, List.mem_append, not_or]
  rfl

theorem encode_eq_flatMap (text : String) :
    encode text = text.toList.flatMap String.utf8EncodeChar := by
  rw [encode, String.toUTF8_eq_toByteArray, ← String.ofList_toList (s := text),
    String.toByteArray_ofList, List.utf8Encode, List.toList_data_toByteArray, String.toList_ofList]

/-- The byte of an ASCII character is in its own encoding only: the bytes of longer encodings are
all above those of ASCII. -/
theorem mem_utf8EncodeChar_iff {c : Char} (ascii : c.val.toNat < 128) (other : Char) :
    UInt8.ofNat c.val.toNat ∈ String.utf8EncodeChar other ↔ other = c := by
  have code : other = c ↔ other.val.toNat = c.val.toNat :=
    ⟨fun same => same ▸ rfl, fun same => Char.ext (UInt32.toNat_inj.mp same)⟩
  have valid : other.val.toNat < 0x110000 := by
    rcases other.valid with low | high
    · exact Nat.lt_trans low (by decide)
    · exact high.2
  rw [code, String.utf8EncodeChar.eq_def]
  dsimp only
  split_ifs <;>
    simp only [List.mem_cons, List.not_mem_nil, or_false, ← UInt8.toNat_inj,
      UInt8.toNat_ofNat'] <;>
    omega

theorem mem_encode_iff {c : Char} (ascii : c.val.toNat < 128) (text : String) :
    UInt8.ofNat c.val.toNat ∈ encode text ↔ c ∈ text.toList := by
  rw [encode_eq_flatMap, List.mem_flatMap]
  simp only [mem_utf8EncodeChar_iff ascii, exists_eq_right]

theorem zero_mem_encode_iff (text : String) : 0 ∈ encode text ↔ ¬ NulFree text := by
  rw [NulFree, Decidable.not_not]
  exact mem_encode_iff (c := '\x00') (by decide) text

theorem fromUTF8?_toUTF8 (text : String) : String.fromUTF8? text.toUTF8 = some text := by
  rw [String.fromUTF8?, String.toUTF8_eq_toByteArray, dif_pos text.isValidUTF8]
  rfl

theorem decode?_encode (text : String) : decode? (encode text) = some text :=
  fromUTF8?_toUTF8 text

theorem encode_of_decode? {bytes : Bytes} {text : String} (decoded : decode? bytes = some text) :
    encode text = bytes := by
  rw [decode?, String.fromUTF8?] at decoded
  split at decoded
  · obtain rfl := Option.some.inj decoded
    rfl
  · cases decoded

end PipeShell.Text
