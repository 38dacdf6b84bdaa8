import Mathlib.Data.List.Induction

/-!
Matching of opening and closing items, last in first out. Items match across a balanced list, so an opening
item is unclosed when no closing item stands behind it after a balanced list (`Unclosed`). The positions of
the unclosed items form a stack (`OpenAt`): an opening item puts its position on top, a closing item takes the
top off when there is one, and every other item leaves them as they are.
-/
namespace Depends

variable {α : Type}

/-- A list in which every opening item is closed by a later one, and every closing item closes an earlier
one. -/
inductive Balanced (opens closes : α → Bool) : List α → Prop
  | nil : Balanced opens closes []
  | neutral {a : α} {rest : List α} : opens a = false → closes a = false → Balanced opens closes rest →
      Balanced opens closes (a :: rest)
  | nested {a b : α} {inner rest : List α} : opens a = true → Balanced opens closes inner → closes b = true →
      Balanced opens closes rest → Balanced opens closes (a :: (inner ++ b :: rest))

/-- The item at a position opens, and no later item closes it: none stands behind it after a balanced list. -/
def Unclosed (opens closes : α → Bool) (items : List α) (i : Nat) : Prop :=
  ∃ a after, items.drop i = a :: after ∧ opens a = true ∧
    ∀ inner b rest, after = inner ++ b :: rest → closes b = true → ¬ Balanced opens closes inner

variable {opens closes : α → Bool} {items more : List α} {i : Nat}

theorem Balanced.append (first : Balanced opens closes items) (second : Balanced opens closes more) :
    Balanced opens closes (items ++ more) := by
  induction first with
  | nil => exact second
  | neutral plain still _ ih => exact .neutral plain still ih
  | nested opening inner closing _ _ ih =>
    rw [List.cons_append,List.append_assoc,List.cons_append]
    exact .nested opening inner closing ih

theorem Balanced.congr {opens' : α → Bool} (balanced : Balanced opens closes items)
    (same : ∀ a ∈ items, opens' a = opens a) : Balanced opens' closes items := by
  induction balanced with
  | nil => exact .nil
  | neutral plain still _ ih =>
    rw [List.forall_mem_cons] at same
    exact .neutral (same.1.trans plain) still (ih same.2)
  | nested opening _ closing _ ihInner ihRest =>
    rw [List.forall_mem_cons,List.forall_mem_append,List.forall_mem_cons] at same
    exact .nested (same.1.trans opening) (ihInner same.2.1) closing (ihRest same.2.2.2)

theorem Unclosed.lt_length (unclosed : Unclosed opens closes items i) : i < items.length := by
  obtain ⟨a,after,here,-⟩ := unclosed
  by_contra past
  rw [List.drop_eq_nil_of_le (Nat.le_of_not_lt past)] at here
  cases here

theorem unclosed_append_right (front : List α) :
    Unclosed opens closes (front ++ items) (front.length + i) ↔ Unclosed opens closes items i := by
  unfold Unclosed
  rw [List.drop_length_add_append]

/-- What is unclosed in a list was unclosed before more items came. -/
theorem Unclosed.left (unclosed : Unclosed opens closes (items ++ more) i) (inside : i < items.length) :
    Unclosed opens closes items i := by
  obtain ⟨a,after,here,opening,free⟩ := unclosed
  rw [List.drop_append_of_le_length (Nat.le_of_lt inside),List.drop_eq_getElem_cons inside,List.cons_append] at here
  obtain ⟨same,rfl⟩ := List.cons.inj here
  refine ⟨items[i],items.drop (i + 1),List.drop_eq_getElem_cons inside,same ▸ opening,?_⟩
  intro inner b rest split closing
  exact free inner b (rest ++ more) (by rw [split,List.append_assoc,List.cons_append]) closing

/-- In a balanced list nothing is unclosed. -/
theorem Balanced.not_unclosed (balanced : Balanced opens closes items)
    (apart : ∀ a, opens a = true → closes a = false) : ¬ Unclosed opens closes items i := by
  induction balanced generalizing i with
  | nil => exact fun unclosed => absurd unclosed.lt_length (Nat.not_lt_zero i)
  | @neutral a rest plain still _ ih =>
    cases i with
    | zero =>
      rintro ⟨b,after,here,opening,-⟩
      obtain ⟨rfl,-⟩ := List.cons.inj here
      rw [plain] at opening
      cases opening
    | succ i => exact ih
  | @nested a b inner rest opening balanced closing _ ihInner ihRest =>
    cases i with
    | zero =>
      rintro ⟨c,after,here,-,free⟩
      obtain ⟨-,rfl⟩ := List.cons.inj here
      exact free inner b rest rfl closing balanced
    | succ i =>
      intro unclosed
      have later : Unclosed opens closes (inner ++ b :: rest) i := unclosed
      rcases Nat.lt_or_ge i inner.length with inside | outside
      · exact ihInner (later.left inside)
      · obtain ⟨k,rfl⟩ := Nat.exists_eq_add_of_le outside
        rw [unclosed_append_right] at later
        cases k with
        | zero =>
          obtain ⟨c,after,here,opening',-⟩ := later
          obtain ⟨rfl,-⟩ := List.cons.inj here
          rw [apart _ opening'] at closing
          cases closing
        | succ k => exact ihRest later

/-- What is unclosed after one more item: the item itself when it opens, and what was unclosed before unless the
item closes it. -/
theorem unclosed_snoc {x : α} : Unclosed opens closes (items ++ [x]) i ↔
    i = items.length ∧ opens x = true ∨
      Unclosed opens closes items i ∧ (closes x = true → ¬ Balanced opens closes (items.drop (i + 1))) := by
  constructor
  · intro unclosed
    have bound := unclosed.lt_length
    rw [List.length_append,List.length_singleton] at bound
    rcases Nat.lt_or_eq_of_le (Nat.le_of_lt_succ bound) with inside | rfl
    · refine .inr ⟨unclosed.left inside,fun closing balanced => ?_⟩
      obtain ⟨a,after,here,-,free⟩ := unclosed
      rw [List.drop_append_of_le_length (Nat.le_of_lt inside),List.drop_eq_getElem_cons inside,List.cons_append]
        at here
      exact free _ x [] (List.cons.inj here).2.symm closing balanced
    · obtain ⟨a,after,here,opening,-⟩ := unclosed
      rw [List.drop_left] at here
      exact .inl ⟨rfl,(List.cons.inj here).1 ▸ opening⟩
  · rintro (⟨rfl,opening⟩ | ⟨unclosed,free⟩)
    · refine ⟨x,[],List.drop_left,opening,fun inner b rest split => ?_⟩
      simp at split
    · have inside := unclosed.lt_length
      obtain ⟨a,after,here,opening,earlier⟩ := unclosed
      have behind : items.drop (i + 1) = after := by
        rw [List.drop_eq_getElem_cons inside] at here
        exact (List.cons.inj here).2
      -- A closing item behind a balanced list is the new one, or it was there before.
      refine ⟨a,after ++ [x],?_,opening,fun inner b rest split closing => ?_⟩
      · rw [List.drop_append_of_le_length (Nat.le_of_lt inside),here,List.cons_append]
      · rcases List.eq_nil_or_concat rest with rfl | ⟨rest,last,rfl⟩
        · obtain ⟨rfl,same⟩ := List.append_inj' split rfl
          obtain rfl := (List.cons.inj same).1
          rw [← behind]
          exact free closing
        · rw [List.concat_eq_append,← List.cons_append,← List.append_assoc] at split
          exact earlier inner b rest (List.append_inj' split rfl).1 closing

/-! ### The stack of positions -/

/-- Positions of items that are open one inside the other: before the first of them nothing is unclosed, and
between each of them and the next one the items are balanced. -/
inductive Chained (opens closes : α → Bool) : List α → List Nat → Prop
  | none {items : List α} : (∀ i, ¬ Unclosed opens closes items i) → Chained opens closes items []
  | opened {items inner : List α} {positions : List Nat} {a : α} : Chained opens closes items positions →
      opens a = true → Balanced opens closes inner →
        Chained opens closes (items ++ a :: inner) (positions ++ [items.length])

/-- The positions of the unclosed items of a list, the innermost last. -/
structure OpenAt (opens closes : α → Bool) (items : List α) (positions : List Nat) : Prop where
  ascending : positions.Pairwise (· < ·)
  unclosed : ∀ i, i ∈ positions ↔ Unclosed opens closes items i
  chained : Chained opens closes items positions

theorem Chained.append {positions : List Nat} (chained : Chained opens closes items positions)
    (balanced : Balanced opens closes more) (apart : ∀ a, opens a = true → closes a = false) :
    Chained opens closes (items ++ more) positions := by
  cases chained with
  | none nothing =>
    refine .none fun i unclosed => ?_
    rcases Nat.lt_or_ge i items.length with inside | outside
    · exact nothing i (unclosed.left inside)
    · obtain ⟨k,rfl⟩ := Nat.exists_eq_add_of_le outside
      exact balanced.not_unclosed apart ((unclosed_append_right items).mp unclosed)
  | opened before opening inner =>
    rw [List.append_assoc,List.cons_append]
    exact .opened before opening (inner.append balanced)

theorem OpenAt.nil : OpenAt opens closes [] [] := by
  have nothing : ∀ i, ¬ Unclosed opens closes [] i := fun i unclosed => absurd unclosed.lt_length (Nat.not_lt_zero i)
  exact ⟨.nil,fun i => ⟨fun member => absurd member List.not_mem_nil,fun unclosed => absurd unclosed (nothing i)⟩,
    .none nothing⟩

variable {positions : List Nat} {x : α}

theorem OpenAt.lt_length (openAt : OpenAt opens closes items positions) (member : i ∈ positions) : i < items.length :=
  ((openAt.unclosed i).mp member).lt_length

/-- An opening item is put on top. -/
theorem OpenAt.opening (openAt : OpenAt opens closes items positions) (opening : opens x = true)
    (apart : ∀ a, opens a = true → closes a = false) :
    OpenAt opens closes (items ++ [x]) (positions ++ [items.length]) := by
  refine ⟨?_,fun i => ?_,.opened openAt.chained opening .nil⟩
  · refine List.pairwise_append.mpr ⟨openAt.ascending,List.pairwise_singleton _ _,fun i member j last => ?_⟩
    rw [List.mem_singleton.mp last]
    exact openAt.lt_length member
  · rw [unclosed_snoc,List.mem_append,List.mem_singleton,openAt.unclosed,or_comm]
    simp [opening,apart x opening]

/-- An item that neither opens nor closes changes nothing. -/
theorem OpenAt.neutral (openAt : OpenAt opens closes items positions) (plain : opens x = false)
    (still : closes x = false) (apart : ∀ a, opens a = true → closes a = false) :
    OpenAt opens closes (items ++ [x]) positions := by
  refine ⟨openAt.ascending,fun i => ?_,openAt.chained.append (.neutral plain still .nil) apart⟩
  rw [unclosed_snoc,openAt.unclosed]
  simp [plain,still]

/-- A closing item takes the top off. It closes the item on top, behind which everything is balanced, and no other
one, behind which the item on top is unclosed. -/
theorem OpenAt.closing (openAt : OpenAt opens closes items positions) (closing : closes x = true)
    (apart : ∀ a, opens a = true → closes a = false) :
    OpenAt opens closes (items ++ [x]) positions.dropLast := by
  have plain : opens x = false := by
    rw [Bool.eq_false_iff]
    intro opening
    rw [apart x opening] at closing
    cases closing
  obtain ⟨ascending,unclosed,chained⟩ := openAt
  cases chained with
  | none nothing =>
    have still : ∀ i, ¬ Unclosed opens closes (items ++ [x]) i := by
      intro i later
      rw [unclosed_snoc,plain] at later
      exact nothing i (later.resolve_left fun opening => by cases opening.2).1
    exact ⟨.nil,fun i => ⟨fun member => absurd member List.not_mem_nil,fun later => absurd later (still i)⟩,.none still⟩
  | @opened items inner positions a before opening balanced =>
    rw [List.dropLast_concat]
    refine ⟨(List.pairwise_append.mp ascending).1,fun i => ?_,?_⟩
    · have top : Unclosed opens closes (items ++ a :: inner) items.length :=
        (unclosed _).mp (List.mem_append_right _ (List.mem_singleton_self _))
      rw [unclosed_snoc,← unclosed,List.mem_append,List.mem_singleton,plain]
      constructor
      · intro member
        have below : i < items.length :=
          (List.pairwise_append.mp ascending).2.2 i member items.length (List.mem_singleton_self _)
        -- The item on top is unclosed in what stands behind this one, counted from there.
        refine .inr ⟨.inl member,fun _ closed => closed.not_unclosed apart (i := items.length - (i + 1)) ?_⟩
        have parts : items ++ a :: inner = (items ++ a :: inner).take (i + 1) ++ (items ++ a :: inner).drop (i + 1) :=
          (List.take_append_drop _ _).symm
        have size : ((items ++ a :: inner).take (i + 1)).length = i + 1 := by
          rw [List.length_take,List.length_append]
          omega
        rw [parts,show items.length = ((items ++ a :: inner).take (i + 1)).length + (items.length - (i + 1)) by omega,
          unclosed_append_right] at top
        exact top
      · rintro (⟨-,opened⟩ | ⟨member,free⟩)
        · cases opened
        · refine member.resolve_right fun same => free closing ?_
          rw [same,List.drop_length_add_append]
          exact balanced
    · have joined : items ++ a :: inner ++ [x] = items ++ a :: (inner ++ x :: []) := by simp
      rw [joined]
      exact before.append (.nested opening balanced closing .nil) apart

end Depends
