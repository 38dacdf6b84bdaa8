import Depends.Text.Utf8
import Mathlib.Data.List.Basic

/-!
Bytes that are decoded in parts. A sequence at the front of some bytes is read the same whatever follows them, unless the
bytes begin a sequence that they do not finish (`sequence?_append`). So decoding may stop there and go on with more
bytes (`decode_append`).
-/
namespace Depends.Text

variable {a : UInt8} {rest : List UInt8}

/-- Bytes that are not cut are read the same whatever follows them. -/
theorem sequence?_append (whole : isCut (a :: rest) = false) (more : List UInt8) :
    sequence? (a :: (rest ++ more)) = sequence? (a :: rest) := by
  -- Only a front that is shorter than its first byte asks for can be read otherwise, and such a front is cut.
  rcases rest with _ | ⟨b,_ | ⟨c,_ | ⟨d,rest⟩⟩⟩
  · simp only [isCut,within,Bool.and_eq_false_iff,decide_eq_false_iff_not,UInt8.le_iff_toNat_le,
      UInt8.reduceToNat] at whole
    simp only [sequence?,UInt8.le_iff_toNat_le,UInt8.reduceToNat,Bool.and_eq_true,decide_eq_true_eq]
    grind
  · simp only [isCut,isCut.leads,within,beq_iff_eq,Bool.and_eq_false_iff,decide_eq_false_iff_not,
      UInt8.le_iff_toNat_le,UInt8.reduceToNat,apply_ite UInt8.toNat,← UInt8.toNat_inj] at whole
    rcases more with _ | ⟨c,_ | ⟨d,more⟩⟩
    · rfl
    all_goals
      simp only [sequence?,within,beq_iff_eq,List.cons_append,List.nil_append,Bool.and_eq_true,decide_eq_true_eq,
        UInt8.le_iff_toNat_le,UInt8.reduceToNat,apply_ite UInt8.toNat,← UInt8.toNat_inj]
      grind
  · simp only [isCut,isCut.leads,within,beq_iff_eq,Bool.and_eq_false_iff,decide_eq_false_iff_not,
      UInt8.le_iff_toNat_le,UInt8.reduceToNat,apply_ite UInt8.toNat,← UInt8.toNat_inj] at whole
    rcases more with _ | ⟨d,more⟩
    · rfl
    · simp only [sequence?,within,beq_iff_eq,List.cons_append,List.nil_append,Bool.and_eq_true,decide_eq_true_eq,
        UInt8.le_iff_toNat_le,UInt8.reduceToNat,apply_ite UInt8.toNat,← UInt8.toNat_inj]
      grind
  · rfl

/-- A sequence lies within the bytes at whose front it stands. -/
theorem sequence?_size {c : Char} {size : Nat} (found : sequence? (a :: rest) = some (c,size)) :
    0 < size ∧ size ≤ (a :: rest).length := by
  unfold sequence? at found
  grind

/-- More bytes only matter for the sequence that is not finished. -/
theorem decode_append (bytes more : List UInt8) :
    decode (bytes ++ more) = (decodeWhole bytes).1 ++ decode ((decodeWhole bytes).2 ++ more) := by
  fun_induction decodeWhole bytes with
  | case1 => rfl
  | case2 a rest cut => rfl
  | case3 a rest whole c size found cs left later ih =>
    obtain ⟨some,inside⟩ := sequence?_size found
    have same := (sequence?_append (Bool.eq_false_iff.mpr whole) more).trans found
    rw [List.length_cons] at inside
    rw [List.cons_append,decode,same]
    dsimp only
    rw [List.drop_append_of_le_length (by omega),ih,later]
    rfl
  | case4 a rest whole found cs left later ih =>
    have same := (sequence?_append (Bool.eq_false_iff.mpr whole) more).trans found
    rw [List.cons_append,decode,same]
    dsimp only
    rw [ih,later]
    rfl

end Depends.Text
