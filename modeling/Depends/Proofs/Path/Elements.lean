import Depends.Path
import Depends.Proofs.Text.Joined
import Mathlib.Data.List.Basic

/-!
Absolute paths and their elements. A simplified absolute path is written by its elements (`ofElements`), which are
names: not empty, without slashes, and no step that stays or goes up. The elements are read back from the path
(`elements_ofElements`), joining adds one element at the end (`append_ofElements`), and every path that is seen from an
absolute working directory is of this form (`exists_elements_absolute`).
-/
namespace Depends

namespace Path

variable {directory path name : String} {names es : List String}

/-- An element of a simplified path. -/
structure IsName (name : String) : Prop where
  filled : name ≠ ""
  noStay : name ≠ "."
  noUp : name ≠ ".."
  noSlash : '/' ∉ name.toList

instance (name : String) : Decidable (IsName name) :=
  decidable_of_iff (name ≠ "" ∧ name ≠ "." ∧ name ≠ ".." ∧ '/' ∉ name.toList)
    ⟨fun ⟨a,b,c,d⟩ => ⟨a,b,c,d⟩,fun h => ⟨h.filled,h.noStay,h.noUp,h.noSlash⟩⟩

/-- The absolute path with the given elements. -/
def ofElements (names : List String) : String := "/" ++ Text.join "/" names

/-! ### Elements and the path they make -/

theorem isAbsolute_slash (rest : String) : isAbsolute ("/" ++ rest) = true := by
  simp [isAbsolute]

theorem isAbsolute_append (absolute : isAbsolute path = true) (rest : String) : isAbsolute (path ++ rest) = true := by
  simp only [isAbsolute,beq_iff_eq] at absolute ⊢
  rw [String.toList_append,List.head?_append,absolute,Option.some_or]

theorem clean_of_isAbsolute (absolute : isAbsolute path = true) : clean path = ofElements (elements path) := by
  simp [clean,absolute,ofElements]

theorem isAbsolute_ofElements (names : List String) : isAbsolute (ofElements names) = true := isAbsolute_slash _

theorem split_ofElements (named : ∀ name ∈ names, IsName name) :
    Text.split '/' (ofElements names) = if names = [] then ["",""] else "" :: names := by
  split
  · rename_i empty
    subst empty
    decide
  · rename_i filled
    have joined : ofElements names = Text.join (String.singleton '/') ("" :: names) := by
      rw [Text.join_cons _ filled]
      rfl
    rw [joined]
    refine Text.split_join '/' (List.cons_ne_nil _ _) ?_
    exact List.forall_mem_cons.mpr ⟨by simp,fun name member => (named name member).noSlash⟩

theorem pushElement_name (named : IsName name) (rooted : Bool) (kept : List String) :
    pushElement rooted kept name = name :: kept := by
  simp [pushElement,named.filled,named.noStay,named.noUp]

theorem foldl_pushElement (named : ∀ name ∈ names, IsName name) (rooted : Bool) (kept : List String) :
    names.foldl (pushElement rooted) kept = names.reverse ++ kept := by
  induction names generalizing kept with
  | nil => rfl
  | cons name names ih =>
    rw [List.forall_mem_cons] at named
    rw [List.foldl_cons,pushElement_name named.1,ih named.2]
    simp

/-- Names in front of which nothing stands are the elements of their path. -/
theorem foldl_split_ofElements (named : ∀ name ∈ names, IsName name) (rooted : Bool) :
    (Text.split '/' (ofElements names)).foldl (pushElement rooted) [] = names.reverse := by
  rw [split_ofElements named]
  split
  · rename_i empty
    subst empty
    rfl
  · rw [List.foldl_cons,show pushElement rooted [] "" = [] from rfl,foldl_pushElement named,List.append_nil]

theorem elements_ofElements (named : ∀ name ∈ names, IsName name) : elements (ofElements names) = names := by
  rw [elements,foldl_split_ofElements named,List.reverse_reverse]

/-- Paths of different names are different. -/
theorem ofElements_inj {names' : List String} (named : ∀ name ∈ names, IsName name)
    (named' : ∀ name ∈ names', IsName name) : ofElements names = ofElements names' ↔ names = names' := by
  refine ⟨fun same => ?_,fun same => by rw [same]⟩
  rw [← elements_ofElements named,← elements_ofElements named',same]

theorem ofElements_ne_empty (names : List String) : ofElements names ≠ "" := by
  intro empty
  simpa [ofElements] using congrArg String.toList empty

/-- Joining a name adds it as the last element. -/
theorem append_of_isAbsolute (absolute : isAbsolute path = true) (last : IsName name) :
    append path name = ofElements (elements path ++ [name]) := by
  have longer : isAbsolute (path ++ "/" ++ name) = true := isAbsolute_append (isAbsolute_append absolute _) _
  have filled : path ≠ "" := by
    rintro rfl
    cases absolute
  have pieces : Text.split '/' name = [name] := by
    have single := Text.split_join '/' (List.cons_ne_nil name []) (by simpa using last.noSlash)
    simpa [Text.join] using single
  have parts : elements (path ++ "/" ++ name) = elements path ++ [name] := by
    rw [elements,elements,longer,absolute,show "/" = String.singleton '/' from rfl,Text.split_append,
      List.foldl_append,pieces,List.foldl_cons,pushElement_name last,List.foldl_nil,List.reverse_cons]
  rw [append]
  simp only [beq_iff_eq,filled,last.filled,Bool.and_eq_true,and_false,↓reduceIte]
  rw [clean_of_isAbsolute longer,parts]

theorem append_ofElements (named : ∀ name ∈ names, IsName name) (last : IsName name) :
    append (ofElements names) name = ofElements (names ++ [name]) := by
  rw [append_of_isAbsolute (isAbsolute_ofElements names) last,elements_ofElements named]

theorem foldl_append_ofElements (here : ∀ name ∈ es, IsName name) (named : ∀ name ∈ names, IsName name) :
    names.foldl append (ofElements es) = ofElements (es ++ names) := by
  induction names generalizing es with
  | nil => simp
  | cons name names ih =>
    rw [List.forall_mem_cons] at named
    have longer : ∀ other ∈ es ++ [name], IsName other :=
      List.forall_mem_append.mpr ⟨here,List.forall_mem_singleton.mpr named.1⟩
    rw [List.foldl_cons,append_ofElements here named.1,ih longer named.2,List.append_assoc,List.singleton_append]

/-! ### Paths below a path -/

/-- `path` is made from `outer` by joining names to it, at least one. -/
def Below (outer path : String) : Prop :=
  ∃ names, names ≠ [] ∧ (∀ name ∈ names, IsName name) ∧ path = names.foldl append outer

theorem Below.trans {outer inner : String} (inside : Below outer inner) (further : Below inner path) :
    Below outer path := by
  obtain ⟨names,filled,named,rfl⟩ := inside
  obtain ⟨more,-,named',rfl⟩ := further
  exact ⟨names ++ more,by simp [filled],List.forall_mem_append.mpr ⟨named,named'⟩,List.foldl_append.symm⟩

theorem below_ofElements (here : ∀ name ∈ es, IsName name) :
    Below (ofElements es) path ↔
      ∃ names, names ≠ [] ∧ (∀ name ∈ names, IsName name) ∧ path = ofElements (es ++ names) := by
  unfold Below
  refine exists_congr fun names => and_congr_right fun _ => and_congr_right fun named => ?_
  rw [foldl_append_ofElements here named]

/-- What lies strictly between two paths of which one is below the other. -/
theorem forall_between {P : String → Prop} (here : ∀ name ∈ es, IsName name) (named : ∀ name ∈ names, IsName name) :
    (∀ folder, Below (ofElements es) folder → Below folder (ofElements (es ++ names)) → P folder) ↔
      ∀ between more, names = between ++ more → between ≠ [] → more ≠ [] → P (ofElements (es ++ between)) := by
  constructor
  · rintro holds between more rfl entered further
    rw [List.forall_mem_append] at named
    refine holds _ ((below_ofElements here).mpr ⟨between,entered,named.1,rfl⟩) ?_
    refine (below_ofElements (List.forall_mem_append.mpr ⟨here,named.1⟩)).mpr ⟨more,further,named.2,?_⟩
    rw [List.append_assoc]
  · intro holds folder inside outside
    obtain ⟨between,entered,between_named,rfl⟩ := (below_ofElements here).mp inside
    have there := List.forall_mem_append.mpr ⟨here,between_named⟩
    obtain ⟨more,further,more_named,same⟩ := (below_ofElements there).mp outside
    rw [ofElements_inj (List.forall_mem_append.mpr ⟨here,named⟩) (List.forall_mem_append.mpr ⟨there,more_named⟩),
      List.append_assoc] at same
    exact holds between more (List.append_cancel_left same) entered further

/-! ### The elements of a path are names -/

theorem pushElement_named {element : String} (named : ∀ name ∈ names, IsName name) (plain : '/' ∉ element.toList) :
    ∀ name ∈ pushElement true names element, IsName name := by
  unfold pushElement
  split
  · exact named
  · rename_i moves
    simp only [Bool.or_eq_true,beq_iff_eq,not_or] at moves
    split
    · split
      · simp
      · rename_i outer
        exact absurd rfl (named ".." (by simp)).noUp
      · exact fun name member => named name (List.mem_cons_of_mem _ member)
    · rename_i noUp
      exact List.forall_mem_cons.mpr ⟨⟨moves.1,moves.2,by simpa using noUp,plain⟩,named⟩

theorem foldl_pushElement_named {pieces : List String} (plain : ∀ piece ∈ pieces, '/' ∉ piece.toList)
    (named : ∀ name ∈ names, IsName name) : ∀ name ∈ pieces.foldl (pushElement true) names, IsName name := by
  induction pieces generalizing names with
  | nil => exact named
  | cons piece pieces ih =>
    rw [List.forall_mem_cons] at plain
    exact ih plain.2 (pushElement_named named plain.1)

theorem isName_of_mem_elements (absolute : isAbsolute path = true) : ∀ name ∈ elements path, IsName name := by
  intro name member
  rw [elements,absolute,List.mem_reverse] at member
  exact foldl_pushElement_named (fun piece listed => Text.not_mem_of_mem_split listed) (by simp) name member

/-- What lies below an absolute path is what lies below the simplified path. -/
theorem below_simplified {outer : String} (absolute : isAbsolute outer = true) :
    Below outer path ↔ Below (ofElements (elements outer)) path := by
  unfold Below
  refine exists_congr fun names => and_congr_right fun filled => and_congr_right fun named => ?_
  obtain ⟨name,more,rfl⟩ := List.exists_cons_of_ne_nil filled
  rw [List.forall_mem_cons] at named
  rw [List.foldl_cons,List.foldl_cons,append_of_isAbsolute absolute named.1,
    append_ofElements (isName_of_mem_elements absolute) named.1]

/-- A path seen from an absolute working directory is written by names. -/
theorem exists_elements_absolute (rooted : isAbsolute directory = true) (path : String) :
    ∃ names, (∀ name ∈ names, IsName name) ∧ absolute directory path = ofElements names := by
  have cleaned : ∀ {path : String}, isAbsolute path = true →
      ∃ names, (∀ name ∈ names, IsName name) ∧ clean path = ofElements names :=
    fun absolute => ⟨_,isName_of_mem_elements absolute,clean_of_isAbsolute absolute⟩
  have filled : directory ≠ "" := by
    rintro rfl
    cases rooted
  unfold absolute
  split
  · rename_i already
    exact cleaned already
  · simp only [append,beq_iff_eq,filled,Bool.and_eq_true,false_and,↓reduceIte]
    split
    · exact cleaned rooted
    · exact cleaned (isAbsolute_append (isAbsolute_append rooted _) _)

end Path

end Depends
