import Depends.Number
import Mathlib.Algebra.Group.Nat.Defs
import Mathlib.Data.List.DropRight
import Mathlib.Data.Nat.Init

/-!
Digits as text. With a fixed number of places the order of texts is the order of numbers; without the zeros
at the end it is so only between digits of which neither continue the others.
-/
namespace Depends.Digits

/-- The value of digits in base ten. -/
def value (digits : List Char) : Nat := digits.foldl (fun n c => n * 10 + (c.toNat - 48)) 0

/-- The last digits of a number, as many as there are places. -/
def fixed : Nat → Nat → List Char
  | 0,_ => []
  | places + 1,n => fixed places (n / 10) ++ [Nat.digitChar (n % 10)]

/-- Digits without the zeros at their end. -/
def trimmed (digits : List Char) : List Char := digits.rdropWhile (· == '0')

theorem digitChar_toNat {d : Nat} (small : d < 10) : (Nat.digitChar d).toNat = 48 + d := by
  have table : ∀ d : Fin 10, (Nat.digitChar d).toNat = 48 + d := by decide
  exact table ⟨d,small⟩

theorem digitChar_lt {d e : Nat} (small : d < 10) (small' : e < 10) : Nat.digitChar d < Nat.digitChar e ↔ d < e := by
  have table : ∀ d e : Fin 10, Nat.digitChar d < Nat.digitChar e ↔ d < e := by decide
  exact table ⟨d,small⟩ ⟨e,small'⟩

/-! ### Values -/

theorem foldl_value (digits : List Char) (n : Nat) :
    digits.foldl (fun n c => n * 10 + (c.toNat - 48)) n = n * 10 ^ digits.length + value digits := by
  induction digits generalizing n with
  | nil => simp [value]
  | cons c digits ih =>
    rw [value,List.foldl_cons,List.foldl_cons,ih,ih (0 * 10 + (c.toNat - 48)),List.length_cons,Nat.pow_succ]
    rw [Nat.zero_mul,Nat.zero_add,Nat.add_mul,Nat.mul_assoc,Nat.mul_comm 10,Nat.add_assoc]

theorem value_append (digits more : List Char) : value (digits ++ more) = value digits * 10 ^ more.length + value more := by
  rw [value,List.foldl_append,foldl_value]
  rfl

theorem value_zeros (count : Nat) : value (List.replicate count '0') = 0 := by
  induction count with
  | zero => rfl
  | succ count ih => rw [List.replicate_succ',value_append,ih]; rfl

@[simp] theorem length_fixed (places n : Nat) : (fixed places n).length = places := by
  induction places generalizing n with
  | zero => rfl
  | succ places ih => simp [fixed,ih]

theorem isDigit_of_mem_fixed {places n : Nat} {c : Char} (member : c ∈ fixed places n) : c.isDigit = true := by
  induction places generalizing n with
  | zero => cases member
  | succ places ih =>
    rcases List.mem_append.mp member with earlier | last
    · exact ih earlier
    · rw [List.mem_singleton.mp last,Nat.isDigit_digitChar]
      exact decide_eq_true (Nat.mod_lt _ (by decide))

theorem value_fixed {places n : Nat} (fits : n < 10 ^ places) : value (fixed places n) = n := by
  induction places generalizing n with
  | zero =>
    have zero : n = 0 := by simpa using fits
    rw [zero]
    rfl
  | succ places ih =>
    have last : value [Nat.digitChar (n % 10)] = n % 10 := by
      simp [value,digitChar_toNat (Nat.mod_lt n (by decide))]
    rw [fixed,value_append,ih (by rw [Nat.pow_succ] at fits; omega),last,List.length_singleton]
    omega

theorem fixed_injective {places m n : Nat} (left : m < 10 ^ places) (right : n < 10 ^ places)
    (same : fixed places m = fixed places n) : m = n := by
  rw [← value_fixed left,same,value_fixed right]

theorem fixed_zero (places : Nat) : fixed places 0 = List.replicate places '0' := by
  induction places with
  | zero => rfl
  | succ places ih => rw [fixed,Nat.zero_div,ih,List.replicate_succ']; rfl

theorem toDigits_eq_fixed {places n : Nat} (fits : n < 10 ^ (places + 1)) :
    List.replicate (places + 1 - (Nat.toDigits 10 n).length) '0' ++ Nat.toDigits 10 n = fixed (places + 1) n := by
  induction places generalizing n with
  | zero =>
    have small : n < 10 := by simpa using fits
    simp [Nat.toDigits_of_lt_base small,fixed,Nat.mod_eq_of_lt small]
  | succ places ih =>
    by_cases small : n < 10
    · rw [Nat.toDigits_of_lt_base small,fixed,Nat.div_eq_of_lt small,fixed_zero,Nat.mod_eq_of_lt small]
      simp
    · have fewer : n / 10 < 10 ^ (places + 1) := by
        rw [Nat.pow_succ] at fits
        omega
      rw [fixed,← ih fewer,Nat.toDigits_of_base_le (by decide) (by omega),List.length_append,List.length_singleton,
        Nat.add_sub_add_right,List.append_assoc]

theorem toList_padded {places n : Nat} (some : 0 < places) (fits : n < 10 ^ places) :
    (Number.padded places n).toList = fixed places n := by
  obtain ⟨places,rfl⟩ := Nat.exists_eq_succ_of_ne_zero (Nat.ne_of_gt some)
  rw [← toDigits_eq_fixed fits]
  simp [Number.padded,← String.length_toList,Nat.toList_repr]

/-! ### Numbers as texts -/

theorem isDigit_of_mem_toString {n : Nat} {c : Char} (member : c ∈ (toString n).toList) : c.isDigit = true := by
  rw [Nat.toString_eq_repr,Nat.toList_repr] at member
  exact Nat.isDigit_of_mem_toDigits (by decide) (by decide) member

theorem toString_injective (m n : Nat) (same : toString m = toString n) : m = n := by
  have digits := congrArg (fun text => Nat.ofDigitChars 10 text.toList 0) same
  rw [Nat.toString_eq_repr,Nat.toString_eq_repr,Nat.toList_repr,Nat.toList_repr] at digits
  rwa [Nat.ofDigitChars_toDigits (by decide) (by decide),Nat.ofDigitChars_toDigits (by decide) (by decide)] at digits

theorem toString_toList_ne_nil (n : Nat) : (toString n).toList ≠ [] := by
  rw [Nat.toString_eq_repr,Nat.toList_repr]
  exact Nat.toDigits_ne_nil

/-! ### Order -/

theorem append_lt_append {α : Type} [LT α] [Std.Irrefl fun a b : α => a < b] {left right more more' : List α}
    (length : left.length = right.length) :
    left ++ more < right ++ more' ↔ left < right ∨ left = right ∧ more < more' := by
  induction left generalizing right with
  | nil =>
    have empty : right = [] := List.length_eq_zero_iff.mp length.symm
    simp [empty]
  | cons c left ih =>
    cases right with
    | nil => cases length
    | cons d right =>
      have tails := ih (Nat.succ.inj length)
      simp only [List.cons_append,List.cons_lt_cons_iff,tails,List.cons.injEq]
      constructor
      · rintro (first | ⟨rfl,second | ⟨rfl,third⟩⟩)
        · exact .inl (.inl first)
        · exact .inl (.inr ⟨rfl,second⟩)
        · exact .inr ⟨⟨rfl,rfl⟩,third⟩
      · rintro ((first | ⟨rfl,second⟩) | ⟨⟨rfl,rfl⟩,third⟩)
        · exact .inl first
        · exact .inr ⟨rfl,.inl second⟩
        · exact .inr ⟨rfl,.inr ⟨rfl,third⟩⟩

/-- Numbers with the same number of places are ordered as their digits. -/
theorem fixed_lt {places m n : Nat} (left : m < 10 ^ places) (right : n < 10 ^ places) :
    fixed places m < fixed places n ↔ m < n := by
  induction places generalizing m n with
  | zero =>
    have zero : m = 0 ∧ n = 0 := by simpa using And.intro left right
    simp [fixed,zero.1,zero.2]
  | succ places ih =>
    have left' : m / 10 < 10 ^ places := by rw [Nat.pow_succ] at left; omega
    have right' : n / 10 < 10 ^ places := by rw [Nat.pow_succ] at right; omega
    have same : fixed places (m / 10) = fixed places (n / 10) ↔ m / 10 = n / 10 :=
      ⟨fixed_injective left' right',fun equal => by rw [equal]⟩
    rw [fixed,fixed,append_lt_append (by simp),ih left' right',same,List.cons_lt_cons_iff,
      digitChar_lt (Nat.mod_lt _ (by decide)) (Nat.mod_lt _ (by decide))]
    simp only [List.lt_irrefl,and_false,or_false]
    omega

/-- Two texts: one begins with the other, or there is a first difference. -/
theorem first_difference (left right : List Char) :
    left <+: right ∨ right <+: left ∨ ∃ same c d more more',
      c ≠ d ∧ left = same ++ c :: more ∧ right = same ++ d :: more' := by
  induction left generalizing right with
  | nil => exact .inl List.nil_prefix
  | cons c left ih =>
    cases right with
    | nil => exact .inr (.inl List.nil_prefix)
    | cons d right =>
      by_cases equal : c = d
      · subst equal
        rcases ih right with first | second | ⟨same,a,b,more,more',different,rfl,rfl⟩
        · exact .inl (List.cons_prefix_cons.mpr ⟨rfl,first⟩)
        · exact .inr (.inl (List.cons_prefix_cons.mpr ⟨rfl,second⟩))
        · exact .inr (.inr ⟨c :: same,a,b,more,more',different,rfl,rfl⟩)
      · exact .inr (.inr ⟨[],c,d,left,right,equal,rfl,rfl⟩)

theorem lt_of_difference {α : Type} [LT α] [Std.Irrefl fun a b : α => a < b] {same more more' : List α} {c d : α}
    (different : c ≠ d) : same ++ c :: more < same ++ d :: more' ↔ c < d := by
  rw [append_lt_append rfl,List.cons_lt_cons_iff]
  simp [different,List.lt_irrefl]

/-! ### Without zeros at the end -/

theorem isPrefix_trimmed (digits : List Char) : trimmed digits <+: digits :=
  List.rdropWhile_prefix _ _

theorem trimmed_append (digits : List Char) :
    digits = trimmed digits ++ List.replicate (digits.length - (trimmed digits).length) '0' := by
  have parts : trimmed digits ++ digits.rtakeWhile (· == '0') = digits := List.rdropWhile_append_rtakeWhile
  have zeros : digits.rtakeWhile (· == '0') = List.replicate (digits.rtakeWhile (· == '0')).length '0' :=
    List.eq_replicate_of_mem fun c member => by simpa using List.mem_rtakeWhile_imp member
  have length := congrArg List.length parts
  rw [List.length_append] at length
  rw [show digits.length - (trimmed digits).length = (digits.rtakeWhile (· == '0')).length by omega,← zeros,parts]

/-- Trimmed digits have the value of the digits up to a power of ten. -/
theorem value_trimmed (digits : List Char) :
    value (trimmed digits) * 10 ^ (digits.length - (trimmed digits).length) = value digits := by
  have split := value_append (trimmed digits) (List.replicate (digits.length - (trimmed digits).length) '0')
  rw [← trimmed_append,value_zeros,List.length_replicate] at split
  exact split.symm

/-- Digits that continue others, with the same number of places, do not make a smaller number. -/
theorem value_le_of_continued {left right : List Char} (length : left.length = right.length)
    (continued : trimmed left <+: trimmed right) : value left ≤ value right := by
  obtain ⟨more,continued⟩ := continued
  have shorter := (isPrefix_trimmed right).length_le
  have sizes : left.length - (trimmed left).length = more.length + (right.length - (trimmed right).length) := by
    rw [← continued,List.length_append] at shorter ⊢
    omega
  rw [← value_trimmed left,← value_trimmed right,sizes,← continued,value_append,Nat.pow_add,Nat.add_mul,Nat.mul_assoc]
  exact Nat.le_add_right ..

end Depends.Digits
