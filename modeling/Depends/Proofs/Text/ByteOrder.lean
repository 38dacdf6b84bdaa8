import Depends.Text.Utf8
import Mathlib.Data.List.Lex
import Mathlib.Data.String.Basic

/-!
The order of texts is the order of their UTF-8 bytes (`encode_lt_encode`): the code of a smaller character comes before
the code of a larger one, whatever follows them.
-/
namespace Depends.Text

/-! ### The bytes of a text -/

theorem get!_eq (bytes : ByteArray) {i : Nat} (inside : i < bytes.data.toList.length) :
    bytes.get! i = bytes.data.toList[i] := by
  have present : i < bytes.data.size := by simpa using inside
  cases bytes
  simp [ByteArray.get!,present]

theorem toList_loop (bytes : ByteArray) (i : Nat) (read : List UInt8) :
    ByteArray.toList.loop bytes i read = read.reverse ++ bytes.data.toList.drop i := by
  rw [ByteArray.toList.loop.eq_1]
  split
  · rename_i inside
    have present : i < bytes.data.toList.length := by simpa using inside
    rw [toList_loop bytes (i + 1),List.drop_eq_getElem_cons present,get!_eq bytes present,List.reverse_cons,
      List.append_assoc,List.singleton_append]
  · rename_i past
    rw [List.drop_eq_nil_of_le (by simpa using past),List.append_nil]
termination_by bytes.size - i

theorem encode_eq (text : String) : encode text = text.toList.flatMap String.utf8EncodeChar := by
  have bytes : text.toByteArray = (text.toList.flatMap String.utf8EncodeChar).toByteArray := by
    conv_lhs => rw [← String.ofList_toList (s := text),String.toByteArray_ofList]
    rfl
  rw [encode,String.toUTF8,ByteArray.toList,toList_loop,bytes,List.toList_data_toByteArray]
  rfl

/-! ### The order of the codes -/

theorem ofNat_lt_ofNat {m n : Nat} (small : m < 256) (small' : n < 256) : UInt8.ofNat m < UInt8.ofNat n ↔ m < n := by
  rw [UInt8.lt_iff_toNat_lt,UInt8.toNat_ofNat',UInt8.toNat_ofNat',Nat.mod_eq_of_lt small,Nat.mod_eq_of_lt small']

theorem ofNat_inj {m n : Nat} (small : m < 256) (small' : n < 256) : UInt8.ofNat m = UInt8.ofNat n ↔ m = n := by
  rw [← UInt8.toNat_inj,UInt8.toNat_ofNat',UInt8.toNat_ofNat',Nat.mod_eq_of_lt small,Nat.mod_eq_of_lt small']

/-- The code of a smaller character comes first, whatever follows. -/
theorem code_lt {c d : Char} (less : c < d) (after after' : List UInt8) :
    String.utf8EncodeChar c ++ after < String.utf8EncodeChar d ++ after' := by
  have smaller : c.val.toNat < d.val.toNat := less
  have bound : d.val.toNat < 0x110000 := by
    rcases d.valid with low | high
    · omega
    · exact high.2
  simp only [String.utf8EncodeChar]
  generalize c.val.toNat = m at *
  generalize d.val.toNat = n at *
  -- The digits to base 64 decide, from the first one on.
  have twice : ∀ k, k / 4096 = k / 64 / 64 := fun k => by rw [Nat.div_div_eq_div_mul]
  have thrice : ∀ k, k / 262144 = k / 64 / 64 / 64 := fun k => by rw [Nat.div_div_eq_div_mul,Nat.div_div_eq_div_mul]
  split_ifs
  all_goals
    simp (disch := omega) only [List.cons_append,List.nil_append,List.cons_lt_cons_iff,ofNat_lt_ofNat,ofNat_inj,twice,
      thrice]
    clear twice thrice
    omega

theorem flatMap_code_lt {cs ds : List Char} (less : cs < ds) :
    cs.flatMap String.utf8EncodeChar < ds.flatMap String.utf8EncodeChar := by
  induction cs generalizing ds with
  | nil =>
    cases ds with
    | nil => exact absurd less (lt_irrefl _)
    | cons d ds =>
      cases code : String.utf8EncodeChar d with
      | nil => exact absurd code String.utf8EncodeChar_ne_nil
      | cons byte bytes => simp [code]
  | cons c cs ih =>
    cases ds with
    | nil => cases less
    | cons d ds =>
      rw [List.flatMap_cons,List.flatMap_cons]
      rcases List.cons_lt_cons_iff.mp less with first | ⟨rfl,later⟩
      · exact code_lt first _ _
      · exact List.append_left_lt (ih later)

theorem encode_lt_of_lt {text text' : String} (less : text < text') : encode text < encode text' := by
  rw [encode_eq,encode_eq]
  exact flatMap_code_lt (String.lt_iff.mp less)

/-- Texts are ordered as their bytes are. -/
theorem encode_lt_encode {text text' : String} : encode text < encode text' ↔ text < text' := by
  refine ⟨fun less => ?_,encode_lt_of_lt⟩
  rcases lt_trichotomy text text' with first | rfl | last
  · exact first
  · exact absurd less (List.lt_irrefl _)
  · exact absurd less (List.lt_asymm (encode_lt_of_lt last))

end Depends.Text
