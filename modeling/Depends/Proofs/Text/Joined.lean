import Depends.Text.Fields

/-!
Reading joined texts back. Texts with a common separator that none of them contains are found again by splitting at it
(`split_join`) and so are determined by what they make together (`join_inj`); lines that each end with the separator are
found again too (`split_lines`). Lines each of which is one of two are determined when neither of the two continues the
other (`join_choices_eq_iff`).
-/
namespace Depends.Text

variable {α : Type} {s t u : String}

@[simp] theorem join_empty_cons (line : String) (lines : List String) :
    join "" (line :: lines) = line ++ join "" lines := by
  cases lines with
  | nil => simp [join]
  | cons next lines => simp [join]

theorem fields_eq_splitOn (separator : Char) (cs : List Char) : fields separator cs = cs.splitOn separator := by
  induction cs with
  | nil => rfl
  | cons c cs ih =>
    rw [fields,ih,List.splitOn_cons_eq_if_modifyHead]
    by_cases cut : c = separator
    · simp [cut]
    · obtain ⟨field,more,split⟩ := List.exists_cons_of_ne_nil (List.splitOn_ne_nil separator cs)
      simp [cut,split]

theorem fields_append (separator : Char) (front back : List Char) :
    fields separator (front ++ separator :: back) = fields separator front ++ fields separator back := by
  induction front with
  | nil => simp [fields]
  | cons c front ih =>
    obtain ⟨field,more,split⟩ : ∃ field more, fields separator front = field :: more := by
      rw [fields_eq_splitOn]
      exact List.exists_cons_of_ne_nil (List.splitOn_ne_nil separator front)
    rw [List.cons_append,fields,fields,ih,split]
    by_cases cut : c = separator
    · simp [cut]
    · simp [cut]

theorem split_append (separator : Char) (front back : String) :
    split separator (front ++ String.singleton separator ++ back) = split separator front ++ split separator back := by
  simp [split,fields_append]

theorem not_mem_of_mem_fields {separator : Char} {cs field : List Char} (member : field ∈ fields separator cs) :
    separator ∉ field := by
  induction cs generalizing field with
  | nil =>
    rw [List.mem_singleton.mp member]
    exact List.not_mem_nil
  | cons c cs ih =>
    rw [fields] at member
    split at member
    · rcases List.mem_cons.mp member with rfl | later
      · exact List.not_mem_nil
      · exact ih later
    · rename_i other
      cases split : fields separator cs with
      | nil =>
        rw [split,List.mem_singleton] at member
        simpa [member] using Ne.symm other
      | cons first more =>
        rw [split] at ih member
        rcases List.mem_cons.mp member with rfl | later
        · have plain := ih List.mem_cons_self
          simpa [plain] using Ne.symm other
        · exact ih (List.mem_cons_of_mem _ later)

/-- No field of a text has the separator. -/
theorem not_mem_of_mem_split {separator : Char} {text field : String} (member : field ∈ split separator text) :
    separator ∉ field.toList := by
  obtain ⟨chars,listed,rfl⟩ := List.mem_map.mp member
  rw [String.toList_ofList]
  exact not_mem_of_mem_fields listed

/-- Splitting finds the joined texts again. -/
theorem split_join (separator : Char) {parts : List String} (filled : parts ≠ [])
    (clean : ∀ part ∈ parts, separator ∉ part.toList) :
    split separator (join (String.singleton separator) parts) = parts := by
  have cut : (join (String.singleton separator) parts).toList.splitOn separator = parts.map String.toList := by
    rw [join,String.toList_intercalate,String.toList_singleton]
    exact List.splitOn_intercalate separator (by simpa using clean) (by simpa using filled)
  simp [split,fields_eq_splitOn,cut]

theorem join_inj (separator : Char) {parts parts' : List String} (some : parts ≠ []) (some' : parts' ≠ [])
    (clean : ∀ part ∈ parts, separator ∉ part.toList) (clean' : ∀ part ∈ parts', separator ∉ part.toList) :
    join (String.singleton separator) parts = join (String.singleton separator) parts' ↔ parts = parts' := by
  refine ⟨fun same => ?_,fun same => by rw [same]⟩
  rw [← split_join separator some clean,← split_join separator some' clean',same]

theorem join_cons (separator : String) {part : String} {parts : List String} (filled : parts ≠ []) :
    join separator (part :: parts) = part ++ separator ++ join separator parts := by
  obtain ⟨next,parts,rfl⟩ := List.exists_cons_of_ne_nil filled
  simp [join,String.append_assoc]

theorem mem_join {separator : String} {parts : List String} {c : Char} (member : c ∈ (join separator parts).toList) :
    c ∈ separator.toList ∨ ∃ part ∈ parts, c ∈ part.toList := by
  induction parts with
  | nil => simp [join] at member
  | cons part parts ih =>
    cases parts with
    | nil => exact .inr ⟨part,by simp,by simpa [join] using member⟩
    | cons next parts =>
      rw [join_cons separator (List.cons_ne_nil next parts),String.toList_append,String.toList_append,List.mem_append,
        List.mem_append] at member
      rcases member with (here | between) | later
      · exact .inr ⟨part,List.mem_cons_self,here⟩
      · exact .inl between
      · rcases ih later with between | ⟨other,listed,inside⟩
        · exact .inl between
        · exact .inr ⟨other,List.mem_cons_of_mem _ listed,inside⟩

/-- Texts that each end with a separator, as texts with separators between them. -/
theorem join_ended (separator : String) (lines : List String) :
    join "" (lines.map (· ++ separator)) = join separator (lines ++ [""]) := by
  induction lines with
  | nil => simp [join]
  | cons line lines ih => rw [List.map_cons,join_empty_cons,ih,List.cons_append,join_cons _ (by simp)]

/-- Splitting finds the lines again, and nothing after the last separator. -/
theorem split_lines (separator : Char) {lines : List String} (clean : ∀ line ∈ lines, separator ∉ line.toList) :
    split separator (join "" (lines.map (· ++ String.singleton separator))) = lines ++ [""] := by
  rw [join_ended]
  refine split_join separator (by simp) fun line member => ?_
  rcases List.mem_append.mp member with listed | last
  · exact clean line listed
  · simp [List.mem_singleton.mp last]

/-! ### Lines of which neither continues the other -/

/-- The texts differ, whatever follows them. -/
def Apart (s t : String) : Prop := ∀ rest rest' : String, s ++ rest ≠ t ++ rest'

theorem apart_of_not_continued (front : ¬ s.toList <+: t.toList) (back : ¬ t.toList <+: s.toList) : Apart s t := by
  intro rest rest' same
  have chars : s.toList ++ rest.toList = t.toList ++ rest'.toList := by
    simpa using congrArg String.toList same
  rcases List.append_eq_append_iff.mp chars with ⟨more,longer,-⟩ | ⟨more,longer,-⟩
  · exact front ⟨more,longer.symm⟩
  · exact back ⟨more,longer.symm⟩

theorem Apart.symm (apart : Apart s t) : Apart t s := fun rest rest' same => apart rest' rest same.symm

theorem Apart.after (apart : Apart s t) (u : String) : Apart (u ++ s) (u ++ t) := by
  intro rest rest' same
  rw [String.append_assoc,String.append_assoc,String.append_right_inj] at same
  exact apart rest rest' same

theorem Apart.before (apart : Apart s t) (u u' : String) : Apart (s ++ u) (t ++ u') := by
  intro rest rest' same
  rw [String.append_assoc,String.append_assoc] at same
  exact apart _ _ same

theorem Apart.inside (apart : Apart (s ++ u) (t ++ u)) (front : String) :
    Apart (front ++ s ++ u) (front ++ t ++ u) := by
  rw [String.append_assoc,String.append_assoc]
  exact apart.after front

/-- Lines that are chosen from two each show which ones were chosen, and what follows them. -/
theorem join_choices_eq_iff (line : α → Bool → String) (apart : ∀ a, Apart (line a true) (line a false))
    (items : List α) (choice choice' : α → Bool) (rest rest' : String) :
    join "" (items.map fun a => line a (choice a)) ++ rest = join "" (items.map fun a => line a (choice' a)) ++ rest' ↔
      (∀ a ∈ items, choice a = choice' a) ∧ rest = rest' := by
  induction items with
  | nil => simp [join]
  | cons a items ih =>
    simp only [List.map_cons,join_empty_cons,String.append_assoc,List.forall_mem_cons]
    by_cases same : choice a = choice' a
    · rw [same,String.append_right_inj,ih]
      simp
    · simp only [same,false_and,iff_false]
      intro equal
      cases here : choice a with
      | true =>
        have other : choice' a = false := by simpa [here] using same
        rw [here,other] at equal
        exact apart a _ _ equal
      | false =>
        have other : choice' a = true := by simpa [here] using same
        rw [here,other] at equal
        exact (apart a).symm _ _ equal

end Depends.Text
