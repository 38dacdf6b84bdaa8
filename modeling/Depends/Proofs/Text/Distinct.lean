import Depends.Text.Fields
import Mathlib.Data.List.Induction
import Mathlib.Data.List.Nodup

/-!
Lists in which nothing comes twice. An item that was not seen before comes last (`eraseDups_snoc`), and different texts
are sorted into strictly ascending order (`sorted_pairwise`). Among entries with different names, what stands under a
name is found under it (`lookup_eq_some_iff`).
-/
namespace Depends

theorem eraseDups_snoc {α : Type} [BEq α] [LawfulBEq α] (items : List α) (item : α) :
    (items ++ [item]).eraseDups = if item ∈ items then items.eraseDups else items.eraseDups ++ [item] := by
  rw [List.eraseDups_append]
  by_cases seen : item ∈ items
  · simp [List.removeAll,seen]
  · simp [List.removeAll,seen,List.eraseDups_cons]

theorem lookup_cons_ne {β : Type} {key wanted : String} (different : wanted ≠ key) (value : β)
    (pairs : List (String × β)) : ((key,value) :: pairs).lookup wanted = pairs.lookup wanted := by
  rw [List.lookup_cons,beq_eq_false_iff_ne.mpr different]

theorem lookup_eq_some_iff {β : Type} {entries : List (String × β)} {name : String} {value : β}
    (distinct : (entries.map (·.1)).Nodup) : entries.lookup name = some value ↔ (name,value) ∈ entries := by
  rw [List.lookup_eq_some_iff]
  constructor
  · rintro ⟨front,back,rfl,-⟩
    simp
  · intro member
    obtain ⟨front,back,rfl⟩ := List.append_of_mem member
    refine ⟨front,back,rfl,fun entry earlier => ?_⟩
    rw [List.map_append,List.nodup_append] at distinct
    exact bne_iff_ne.mpr (distinct.2.2 entry.1 (List.mem_map_of_mem earlier) name (by simp)).symm

namespace Text

section Dedupe

variable {α : Type} [BEq α] [LawfulBEq α] {item : α} {items : List α}

end Dedupe

theorem mem_sorted {text : String} {items : List String} : text ∈ sorted items ↔ text ∈ items := List.mem_mergeSort

theorem sorted_pairwise {items : List String} (distinct : items.Nodup) : (sorted items).Pairwise (· < ·) := by
  have ordered : (sorted items).Pairwise fun a b => decide (a ≤ b) = true := by
    refine List.pairwise_mergeSort ?_ ?_ items
    · simp only [decide_eq_true_eq]
      exact fun a b c => String.le_trans
    · simp only [Bool.or_eq_true,decide_eq_true_eq]
      exact String.le_total
  have apart : (sorted items).Nodup := (List.mergeSort_perm items _).nodup_iff.mpr distinct
  refine (ordered.and apart).imp fun {a b} both => ?_
  by_contra later
  exact both.2 (String.le_antisymm (of_decide_eq_true both.1) later)

end Text

end Depends
