import Depends.Proofs.Path.Elements
import Depends.Proofs.Text.Digits
import Mathlib.Data.List.Lex
import Mathlib.Data.String.Basic

/-!
The order of paths. Ascending order of the elements is the order of the texts when the slash is taken as the first of
all characters (`ranks_lt_ranks`). In the usual order of texts two paths may come the other way round, which is so
exactly when they cross: the first lies in a folder, and the second continues the path of this folder with a character
that is smaller than a slash (`pairwise_lt_iff`).
-/
namespace Depends.Path

variable {path path' : String} {names es es' : List String} {cs ds more more' : List Char} {c d : Char}

/-- `path` goes on with a slash where `path'` goes on with a smaller character. -/
def Crosses (path path' : String) : Prop :=
  ∃ folder inside outside : String, ∃ mark : Char, mark < '/' ∧
    path = folder ++ "/" ++ inside ∧ path' = folder ++ String.singleton mark ++ outside

/-- The place of a character when the slash comes first. -/
def rank (c : Char) : Nat := if c = '/' then 0 else c.toNat + 1

/-- A path by the places of its characters when the slash comes first. -/
def ranks (path : String) : List Nat := path.toList.map rank

/-! ### The slash as the first character -/

theorem rank_lt_iff : rank c < rank d ↔ d ≠ '/' ∧ (c = '/' ∨ c < d) := by
  unfold rank
  split
  · rename_i slash
    split
    · rename_i other
      simp [other]
    · rename_i other
      simp [slash,other]
  · rename_i plain
    split
    · rename_i other
      simp [other]
    · rename_i other
      simp only [plain,other,false_or,not_false_eq_true,ne_eq,true_and,Nat.add_lt_add_iff_right]
      exact Iff.rfl

theorem rank_injective : Function.Injective rank := by
  intro c d same
  unfold rank at same
  split at same
  · rename_i slash
    split at same
    · rename_i other
      rw [slash,other]
    · cases same
  · split at same
    · cases same
    · exact Char.toNat_inj.mp (Nat.succ.inj same)

/-- Characters without slashes keep their order, whatever stands behind the next slash. -/
theorem map_rank_lt (plain : '/' ∉ ds) (less : cs < ds) (ends : more = [] ∨ ∃ rest, more = '/' :: rest) :
    (cs ++ more).map rank < (ds ++ more').map rank := by
  induction cs generalizing ds with
  | nil =>
    cases ds with
    | nil => cases less
    | cons d ds =>
      rcases ends with rfl | ⟨rest,rfl⟩
      · exact .nil
      · refine List.cons_lt_cons_iff.mpr (.inl (rank_lt_iff.mpr ⟨?_,.inl rfl⟩))
        rintro rfl
        simp at plain
  | cons c cs ih =>
    cases ds with
    | nil => cases less
    | cons d ds =>
      rw [List.mem_cons,not_or] at plain
      refine List.cons_lt_cons_iff.mpr ?_
      rcases List.cons_lt_cons_iff.mp less with first | ⟨rfl,later⟩
      · exact .inl (rank_lt_iff.mpr ⟨Ne.symm plain.1,.inr first⟩)
      · exact .inr ⟨rfl,ih plain.2 later⟩

/-! ### Elements -/

/-- The characters of elements, each with a slash in front. -/
def written (names : List String) : List Char := names.flatMap fun name => '/' :: name.toList

theorem toList_ofElements (filled : names ≠ []) : (ofElements names).toList = written names := by
  rw [ofElements,String.toList_append]
  induction names with
  | nil => exact absurd rfl filled
  | cons name names ih =>
    cases names with
    | nil => simp [Text.join,written]
    | cons next names =>
      rw [Text.join_cons _ (List.cons_ne_nil _ _)]
      have rest := ih (List.cons_ne_nil _ _)
      simp only [written,List.flatMap_cons] at rest ⊢
      simp [← rest]

theorem written_ends (names : List String) : written names = [] ∨ ∃ rest, written names = '/' :: rest := by
  cases names with
  | nil => exact .inl rfl
  | cons name names => exact .inr ⟨_,rfl⟩

theorem written_lt (named : ∀ name ∈ es', IsName name) (less : es < es') :
    (written es).map rank < (written es').map rank := by
  induction es generalizing es' with
  | nil =>
    cases es' with
    | nil => cases less
    | cons name' es' => exact .nil
  | cons name es ih =>
    cases es' with
    | nil => cases less
    | cons name' es' =>
      rw [List.forall_mem_cons] at named
      rw [written,written,List.flatMap_cons,List.flatMap_cons,List.cons_append,List.cons_append,List.map_cons,
        List.map_cons,List.cons_lt_cons_iff]
      refine .inr ⟨rfl,?_⟩
      rcases List.cons_lt_cons_iff.mp less with first | ⟨rfl,later⟩
      · exact map_rank_lt named.1.noSlash (String.lt_iff.mp first) (written_ends es)
      · rw [List.map_append,List.map_append]
        exact List.append_left_lt (ih named.2 later)

theorem ranks_lt_of_lt (named : ∀ name ∈ es', IsName name) (less : es < es') :
    ranks (ofElements es) < ranks (ofElements es') := by
  have filled' : es' ≠ [] := by
    rintro rfl
    exact absurd less (List.not_lt_nil _)
  by_cases filled : es = []
  · subst filled
    rw [ranks,ranks,toList_ofElements filled']
    cases es' with
    | nil => exact absurd rfl filled'
    | cons name es' =>
      cases shape : name.toList with
      | nil => exact absurd (String.toList_eq_nil_iff.mp shape) (named name List.mem_cons_self).filled
      | cons c cs =>
        simp only [written,List.flatMap_cons,shape]
        exact List.cons_lt_cons_iff.mpr (.inr ⟨rfl,.nil⟩)
  · rw [ranks,ranks,toList_ofElements filled,toList_ofElements filled']
    exact written_lt named less

/-- Elements are ordered as their paths are when the slash comes first. -/
theorem ranks_lt_ranks (named : ∀ name ∈ es, IsName name) (named' : ∀ name ∈ es', IsName name) :
    ranks (ofElements es) < ranks (ofElements es') ↔ es < es' := by
  refine ⟨fun less => ?_,ranks_lt_of_lt named'⟩
  rcases lt_trichotomy es es' with first | rfl | last
  · exact first
  · exact absurd less (lt_irrefl _)
  · exact absurd less (lt_asymm (ranks_lt_of_lt named last))

/-- The last element decides between two files of one folder. -/
theorem exists_front (es : List String) : ∃ front, ∀ name, ofElements (es ++ [name]) = front ++ name := by
  refine ⟨String.ofList (written es ++ ['/']),fun name => String.toList_inj.mp ?_⟩
  rw [toList_ofElements (by simp)]
  simp [written]

/-! ### Crossing paths -/

theorem Crosses.lt (crosses : Crosses path path') : path' < path := by
  obtain ⟨folder,inside,outside,mark,smaller,rfl,rfl⟩ := crosses
  rw [String.lt_iff]
  simp only [String.toList_append,String.toList_singleton,List.append_assoc,List.singleton_append]
  exact (Digits.lt_of_difference (ne_of_lt smaller)).mpr smaller

theorem Crosses.ranks_lt (crosses : Crosses path path') : ranks path < ranks path' := by
  obtain ⟨folder,inside,outside,mark,smaller,rfl,rfl⟩ := crosses
  simp only [ranks,String.toList_append,String.toList_singleton,List.append_assoc,List.singleton_append,List.map_append]
  refine List.append_left_lt (List.cons_lt_cons_iff.mpr (.inl ?_))
  exact rank_lt_iff.mpr ⟨ne_of_lt smaller,.inl rfl⟩

/-- Only crossing paths come the other way round when the slash comes first. -/
theorem lt_or_crosses (less : ranks path < ranks path') : path < path' ∨ Crosses path path' := by
  rw [String.lt_iff]
  rcases Digits.first_difference path.toList path'.toList with
    ⟨rest,longer⟩ | ⟨rest,longer⟩ | ⟨same,c,d,rest,rest',different,here,there⟩
  · cases rest with
    | nil =>
      rw [List.append_nil] at longer
      rw [ranks,ranks,longer] at less
      exact absurd less (lt_irrefl _)
    | cons c rest =>
      have more : path.toList ++ [] < path.toList ++ c :: rest := List.append_left_lt (List.nil_lt_cons c rest)
      rw [List.append_nil,longer] at more
      exact .inl more
  · rw [ranks,ranks,← longer,List.map_append] at less
    exact absurd less (List.not_lt.mpr List.le_append_left)
  · rw [ranks,ranks,here,there,List.map_append,List.map_append,List.map_cons,List.map_cons,
      Digits.lt_of_difference (rank_injective.ne different)] at less
    obtain ⟨plain,rfl | first⟩ := rank_lt_iff.mp less
    · rcases lt_or_gt_of_ne plain with smaller | greater
      · refine .inr ⟨String.ofList same,String.ofList rest,String.ofList rest',d,smaller,?_,?_⟩
        all_goals simp [← String.toList_inj,here,there]
      · rw [here,there]
        exact .inl ((Digits.lt_of_difference different).mpr greater)
    · rw [here,there]
      exact .inl ((Digits.lt_of_difference different).mpr first)

/-- Paths in ascending order, with the slash as the first character, are in ascending order as texts when no two of them
cross. -/
theorem pairwise_lt_iff {paths : List String} (ascending : paths.Pairwise fun p q => ranks p < ranks q) :
    paths.Pairwise (· < ·) ↔ ∀ p ∈ paths, ∀ q ∈ paths, ¬ Crosses p q := by
  constructor
  · intro sorted p here q there crosses
    obtain ⟨i,inside,rfl⟩ := List.getElem_of_mem here
    obtain ⟨j,inside',rfl⟩ := List.getElem_of_mem there
    rcases lt_trichotomy i j with earlier | rfl | later
    · exact lt_asymm crosses.lt (List.pairwise_iff_getElem.mp sorted i j inside inside' earlier)
    · exact lt_irrefl _ crosses.lt
    · exact lt_asymm crosses.ranks_lt (List.pairwise_iff_getElem.mp ascending j i inside' inside later)
  · intro apart
    exact ascending.imp_of_mem fun {p q} here there less => (lt_or_crosses less).resolve_right (apart p here q there)

end Depends.Path
