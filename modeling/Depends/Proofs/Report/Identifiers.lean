import Depends.Proofs.Text.Digits
import Depends.Report.Diagram
import Mathlib.Data.List.Basic
import Mathlib.Data.List.Nodup

/-!
The identifiers of the files of a diagram. The first file of a base has the base itself, and every later one has the
base with its number. Numbered bases are read back from their texts (`suffixed_eq_iff`), so two files share an
identifier exactly when the number of one of them makes its base into the base of the other (`identifiers_nodup_iff`).
Names that do not end in a digit are never that unlucky.
-/
namespace Depends.Report

variable {base other : String} {m n : Nat}

/-! ### Numbered bases -/

/-- The identifier of a file that comes after `n` others of its base. -/
def suffixed (base : String) (n : Nat) : String :=
  if n = 0 then base else base ++ "_" ++ toString (n + 1)

/-- What stands before and after the first mark is determined by a list. -/
theorem append_cons_inj {α : Type} {mark : α} {front front' back back' : List α} (clean : mark ∉ front)
    (clean' : mark ∉ front') (same : front ++ mark :: back = front' ++ mark :: back') :
    front = front' ∧ back = back' := by
  induction front generalizing front' with
  | nil =>
    cases front' with
    | nil => exact ⟨rfl,(List.cons.inj same).2⟩
    | cons a front' => exact absurd ((List.cons.inj same).1 ▸ List.mem_cons_self) clean'
  | cons a front ih =>
    cases front' with
    | nil => exact absurd ((List.cons.inj same).1 ▸ List.mem_cons_self) clean
    | cons a' front' =>
      obtain ⟨rfl,tails⟩ := List.cons.inj same
      rw [List.mem_cons,not_or] at clean clean'
      obtain ⟨fronts,backs⟩ := ih clean.2 clean'.2 tails
      exact ⟨congrArg _ fronts,backs⟩

theorem numbered_inj (same : base ++ "_" ++ toString m = other ++ "_" ++ toString n) : base = other ∧ m = n := by
  have clean : ∀ k : Nat, '_' ∉ (toString k).toList.reverse := by
    intro k mark
    rw [List.mem_reverse] at mark
    exact absurd (Digits.isDigit_of_mem_toString mark) (by decide)
  -- Digits have no underscore, so the last underscore is the one before the number: read the texts backwards.
  have backwards := congrArg (fun text => text.toList.reverse) same
  simp only [String.toList_append,List.reverse_append,show "_".toList.reverse = ['_'] from rfl,
    List.singleton_append] at backwards
  obtain ⟨numbers,bases⟩ := append_cons_inj (clean m) (clean n) backwards
  constructor
  · exact String.toList_inj.mp (List.reverse_inj.mp bases)
  · exact Digits.toString_injective m n (String.toList_inj.mp (List.reverse_inj.mp numbers))

theorem base_ne_numbered : base ≠ base ++ "_" ++ toString n := by
  intro same
  have length := congrArg String.length same
  simp only [String.length_append] at length
  have mark : "_".length = 1 := rfl
  omega

/-- Two identifiers are the same when base and number are, or when one of them is a base and the other is numbered. -/
theorem suffixed_eq_iff : suffixed base m = suffixed other n ↔
    base = other ∧ m = n ∨ m = 0 ∧ n ≠ 0 ∧ base = other ++ "_" ++ toString (n + 1) ∨
      m ≠ 0 ∧ n = 0 ∧ base ++ "_" ++ toString (m + 1) = other := by
  unfold suffixed
  by_cases first : m = 0
  · by_cases second : n = 0
    · simp [first,second]
    · simp [first,second,Ne.symm second]
  · by_cases second : n = 0
    · simp [first,second]
    · simp only [first,second,↓reduceIte,false_and,or_false,and_false,ne_eq,not_false_eq_true]
      constructor
      · intro same
        obtain ⟨bases,numbers⟩ := numbered_inj same
        exact ⟨bases,Nat.succ.inj numbers⟩
      · rintro ⟨rfl,rfl⟩
        rfl

/-! ### Occurrences in a list -/

theorem count_take_lt {α : Type} [DecidableEq α] {items : List α} {a : α} {i j : Nat} (here : items[i]? = some a)
    (before : i < j) : (items.take i).count a < (items.take j).count a := by
  have one : (items.take (i + 1)).count a = (items.take i).count a + 1 := by
    rw [List.take_add_one,here,Option.toList_some,List.count_append,List.count_singleton_self]
  have more : (items.take (i + 1)).count a ≤ (items.take j).count a :=
    (List.take_sublist_take_left before).count_le a
  omega

theorem count_take_lt_count {α : Type} [DecidableEq α] {items : List α} {a : α} {i : Nat}
    (here : items[i]? = some a) : (items.take i).count a < items.count a := by
  have inside : i < items.length := (List.getElem?_eq_some_iff.mp here).1
  have less := count_take_lt here inside
  rwa [List.take_length] at less

/-- Every number below the count of an item is the number of times that it stands before one of its places. -/
theorem exists_occurrence {α : Type} [DecidableEq α] {items : List α} {a : α} {n : Nat} (fewer : n < items.count a) :
    ∃ i, items[i]? = some a ∧ (items.take i).count a = n := by
  induction items generalizing n with
  | nil => simp at fewer
  | cons item items ih =>
    by_cases same : item = a
    · subst same
      cases n with
      | zero => exact ⟨0,rfl,rfl⟩
      | succ n =>
        rw [List.count_cons_self] at fewer
        obtain ⟨i,here,count⟩ := ih (Nat.lt_of_succ_lt_succ fewer)
        refine ⟨i + 1,here,?_⟩
        rw [List.take_succ_cons,List.count_cons_self,count]
    · rw [List.count_cons_of_ne same] at fewer
      obtain ⟨i,here,count⟩ := ih fewer
      refine ⟨i + 1,here,?_⟩
      rw [List.take_succ_cons,List.count_cons_of_ne same,count]

/-! ### The identifiers of names -/

@[simp] theorem length_identifiers (names : List String) : (identifiers names).length = names.length := by
  simp [identifiers]

theorem getElem?_identifiers {names : List String} {i : Nat} (here : (names.map identifier)[i]? = some base) :
    (identifiers names)[i]? = some (suffixed base (((names.map identifier).take i).count base)) := by
  have inside : i < (names.map identifier).length := (List.getElem?_eq_some_iff.mp here).1
  have found : (names.map identifier).getD i "" = base := by rw [List.getD_eq_getElem?_getD,here,Option.getD_some]
  simp only [identifiers,List.getElem?_map,List.getElem?_range inside,Option.map_some,found]
  rfl

/-- A number never makes a base into another one. -/
def NumbersApart (bases : List String) : Prop :=
  ∀ base ∈ bases, ∀ n, 2 ≤ n → n ≤ bases.count base → base ++ "_" ++ toString n ∉ bases

theorem numbersApart_of_nodup {names : List String} (distinct : (identifiers names).Nodup) :
    NumbersApart (names.map identifier) := by
  intro base listed n several within met
  -- The file with the number `n` and the first file of the base that is met have the same identifier.
  have before : n - 1 < (names.map identifier).count base := by omega
  obtain ⟨i,here,count⟩ := exists_occurrence before
  obtain ⟨j,there,first⟩ := exists_occurrence (List.count_pos_iff.mpr met)
  have left := getElem?_identifiers here
  have right := getElem?_identifiers there
  rw [count,suffixed,if_neg (by omega),Nat.sub_add_cancel (by omega)] at left
  rw [first,suffixed,if_pos rfl,← left] at right
  have inside : j < (identifiers names).length := by
    rw [length_identifiers,← List.length_map identifier]
    exact (List.getElem?_eq_some_iff.mp there).1
  have same : j = i := (List.getElem?_inj inside distinct).mp right
  subst same
  rw [here] at there
  exact base_ne_numbered (Option.some.inj there)

theorem nodup_of_numbersApart {names : List String} (apart : NumbersApart (names.map identifier)) :
    (identifiers names).Nodup := by
  rw [List.nodup_iff_getElem?_ne_getElem?]
  intro i j before inside same
  rw [length_identifiers,← List.length_map identifier] at inside
  obtain ⟨base,here⟩ : ∃ base, (names.map identifier)[i]? = some base := ⟨_,List.getElem?_eq_getElem (by omega)⟩
  obtain ⟨other,there⟩ : ∃ other, (names.map identifier)[j]? = some other := ⟨_,List.getElem?_eq_getElem inside⟩
  rw [getElem?_identifiers here,getElem?_identifiers there,Option.some.injEq,suffixed_eq_iff] at same
  rcases same with ⟨rfl,counts⟩ | ⟨-,numbered,met⟩ | ⟨numbered,-,met⟩
  · have less := count_take_lt here before
    omega
  · have within := count_take_lt_count there
    apply apart other (List.mem_of_getElem? there) _ _ within
    · rw [← met]
      exact List.mem_of_getElem? here
    · omega
  · have within := count_take_lt_count here
    apply apart base (List.mem_of_getElem? here) _ _ within
    · rw [met]
      exact List.mem_of_getElem? there
    · omega

/-! ### Names that do not end in a digit -/

/-- The last character is a digit. -/
def endsInDigit (text : String) : Bool := text.toList.getLast?.any Char.isDigit

theorem endsInDigit_append (front : String) {back : String} (some : back.toList ≠ []) :
    endsInDigit (front ++ back) = endsInDigit back := by
  rw [endsInDigit,String.toList_append,List.getLast?_append_of_ne_nil _ some]
  rfl

theorem endsInDigit_toString (n : Nat) : endsInDigit (toString n) = true := by
  have some := Digits.toString_toList_ne_nil n
  rw [endsInDigit,List.getLast?_eq_some_getLast some]
  exact Digits.isDigit_of_mem_toString (List.getLast_mem some)

theorem endsInDigit_identifier {name : String} (plain : endsInDigit name = false) :
    endsInDigit (identifier name) = false := by
  have kept : endsInDigit (String.ofList (name.toList.map fun c => if Text.isLetter c || Text.isDigit c then c else '_')) =
      false := by
    rw [endsInDigit,String.toList_ofList,List.getLast?_map]
    rw [endsInDigit] at plain
    cases last : name.toList.getLast? with
    | none => rfl
    | some c =>
      rw [last,Option.any_some] at plain
      rw [Option.map_some,Option.any_some]
      split
      · exact plain
      · rfl
  unfold identifier
  split
  · decide
  · rename_i filled
    have some : name.toList ≠ [] := fun empty => filled (String.toList_eq_nil_iff.mp empty)
    dsimp only
    split
    · rw [endsInDigit_append _ (by simpa using some)]
      exact kept
    · exact kept

/-- Every file has an identifier, and no two of them have the same one exactly when no base becomes another base of the
list by an underscore and the number of one of its files from the second on. Files whose names do not end in a digit
always have identifiers of their own. -/
theorem identifiers_nodup_iff (names : List String) :
    (identifiers names).length = names.length ∧
      ((identifiers names).Nodup ↔ NumbersApart (names.map identifier)) ∧
      ((∀ name ∈ names, endsInDigit name = false) → (identifiers names).Nodup) := by
  refine ⟨length_identifiers names,⟨numbersApart_of_nodup,nodup_of_numbersApart⟩,?_⟩
  intro plain
  apply nodup_of_numbersApart
  intro base listed n several within met
  obtain ⟨name,member,same⟩ := List.mem_map.mp met
  have digit : endsInDigit (identifier name) = true := by
    rw [same,endsInDigit_append _ (Digits.toString_toList_ne_nil n)]
    exact endsInDigit_toString n
  rw [endsInDigit_identifier (plain name member)] at digit
  cases digit

/-- The number of the second `a.cs` makes its base into that of the third file. -/
theorem identifiers_collide :
    identifiers ["a.cs","a.cs","a_cs_2"] = ["a_cs","a_cs_2","a_cs_2"] ∧
      ¬ (identifiers ["a.cs","a.cs","a_cs_2"]).Nodup := by
  have collided : identifiers ["a.cs","a.cs","a_cs_2"] = ["a_cs","a_cs_2","a_cs_2"] := by decide +kernel
  refine ⟨collided,?_⟩
  rw [collided]
  decide

end Depends.Report
