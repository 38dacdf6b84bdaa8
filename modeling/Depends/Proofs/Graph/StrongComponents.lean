import Depends.Graph.Components
import Depends.Proofs.Graph.Reachability
import Mathlib.Data.List.Basic
import Mathlib.Data.List.Perm.Subperm

/-!
The components of a grown graph are its strong components: they share out the nodes, none is empty, and
two nodes stand in one component exactly if they reach each other (`components_partition`).

The search is followed call by call. Between calls a state is `Sound`: the nodes found are those on the
stack and those of complete components, and the complete components are closed under edges, none of which
leads to a later component. A call for a node leaves the stack below it alone; what it adds on top is
reached from the node, leads back below, and has no edge to anything below that is older than the number
returned (`Visited`). While the edges of a node are followed one by one, the same holds of the nodes above
it (`Exploring`).
-/
namespace Depends

/-- Nodes that are listed once each are no more than the graph has. -/
theorem Graph.length_le_size {g : Graph} {nodes : List Nat} (distinct : nodes.Nodup)
    (inside : ∀ v ∈ nodes, v < g.size) : nodes.length ≤ g.size := by
  have few := (distinct.subperm fun v member => List.mem_range.mpr (inside v member)).length_le
  rwa [List.length_range] at few

namespace ComponentSearch

/-- The nodes of complete components. -/
def settled (s : ComponentSearch) : List Nat := s.components.flatten

/-- What holds of a state between two calls of the search. -/
structure Sound (g : Graph) (s : ComponentSearch) : Prop where
  bounded : ∀ v ∈ s.found, v < g.size
  distinct : s.found.Nodup
  shared : (s.stack ++ s.settled).Perm s.found
  closed : ∀ v ∈ s.settled, ∀ w ∈ g.successors v, w ∈ s.settled
  strong : ∀ c ∈ s.components, c ≠ [] ∧ ∀ v ∈ c, ∀ w, w ∈ c ↔ g.Mutual v w
  ordered : s.components.Pairwise fun earlier later => ∀ v ∈ earlier, ∀ w ∈ g.successors v, w ∉ later

section
variable {g : Graph} {s t : ComponentSearch} {v w : Nat}

theorem number?_eq_none : s.number? v = none ↔ v ∉ s.found := List.idxOf?_eq_none_iff

theorem number?_of_mem (member : v ∈ s.found) : s.number? v = some (s.found.idxOf v) := by
  have inside := List.idxOf_lt_length_of_mem member
  unfold number?
  rw [List.findIdx?_eq_some_iff_findIdx_eq]
  exact ⟨inside,rfl⟩

theorem idxOf_stable (grown : s.found <+: t.found) (member : v ∈ s.found) :
    t.found.idxOf v = s.found.idxOf v := by
  obtain ⟨more,rest⟩ := grown
  rw [← rest,List.idxOf_append_of_mem member]

theorem le_idxOf_of_not_mem (grown : s.found <+: t.found) (fresh : v ∉ s.found) :
    s.found.length ≤ t.found.idxOf v := by
  obtain ⟨more,rest⟩ := grown
  rw [← rest,List.idxOf_append_of_notMem fresh]
  omega

theorem Sound.found_of_stack (sound : s.Sound g) (member : v ∈ s.stack) : v ∈ s.found :=
  sound.shared.mem_iff.mp (List.mem_append_left _ member)

theorem Sound.stack_or_settled (sound : s.Sound g) (member : v ∈ s.found) : v ∈ s.stack ∨ v ∈ s.settled :=
  List.mem_append.mp (sound.shared.mem_iff.mpr member)

theorem Sound.nodup (sound : s.Sound g) : (s.stack ++ s.settled).Nodup :=
  sound.shared.nodup_iff.mpr sound.distinct

theorem Sound.not_settled (sound : s.Sound g) (member : v ∈ s.stack) : v ∉ s.settled :=
  fun other => (List.nodup_append.mp sound.nodup).2.2 v member v other rfl

theorem Sound.length_lt (sound : s.Sound g) (fresh : v ∉ s.found) (inside : v < g.size) :
    s.found.length < g.size := by
  have distinct : (v :: s.found).Nodup := List.nodup_cons.mpr ⟨fresh,sound.distinct⟩
  have bounded : ∀ u ∈ v :: s.found, u < g.size := List.forall_mem_cons.mpr ⟨inside,sound.bounded⟩
  exact Graph.length_le_size distinct bounded

theorem Sound.start : ({} : ComponentSearch).Sound g := by
  refine ⟨?_,List.nodup_nil,List.Perm.refl _,?_,?_,List.Pairwise.nil⟩
  · intro v member; cases member
  · intro v member; cases member
  · intro c member; cases member

theorem Sound.discover (sound : s.Sound g) (fresh : v ∉ s.found) (inside : v < g.size) :
    (s.discover v).Sound g := by
  refine ⟨?_,?_,?_,sound.closed,sound.strong,sound.ordered⟩
  · intro u member
    rcases List.mem_append.mp member with earlier | last
    · exact sound.bounded u earlier
    · rw [List.mem_singleton.mp last]
      exact inside
  · exact List.nodup_append.mpr ⟨sound.distinct,List.pairwise_singleton _ v,by
      intro u member w last
      rw [List.mem_singleton.mp last]
      rintro rfl
      exact fresh member⟩
  · exact (sound.shared.cons v).trans (List.perm_append_singleton v s.found).symm

end

/-- What a call for `v` in state `s` leaves behind: the number `low`, the state `t`, and the nodes
`above` that now stand on top of the stack of `s`. -/
structure Visited (g : Graph) (v : Nat) (s : ComponentSearch) (above : List Nat) (low : Nat)
    (t : ComponentSearch) : Prop where
  sound : t.Sound g
  grown : s.found <+: t.found
  met : v ∈ t.found
  stacked : t.stack = above ++ s.stack
  fresh : ∀ u ∈ above, u ∉ s.found
  reached : ∀ u ∈ above, g.Reaches v u
  back : ∀ u ∈ above, ∃ w ∈ s.stack, g.Reaches u w
  bound : ∀ u ∈ above, ∀ w ∈ g.successors u, w ∈ s.stack → low ≤ s.found.idxOf w
  explored : ∀ u ∈ t.found, u ∉ s.found → ∀ w ∈ g.successors u, w ∈ t.found
  lowest : s.found.length ≤ low ∨ ∃ w ∈ s.stack, s.found.idxOf w = low ∧ g.Reaches v w

/-- How far a call for `v` in state `s` is after following the edges to `done`: the smallest number
`low` so far, the state `t`, and the nodes `above` that now stand above `v` on the stack. -/
structure Exploring (g : Graph) (v : Nat) (s : ComponentSearch) (done above : List Nat) (low : Nat)
    (t : ComponentSearch) : Prop where
  sound : t.Sound g
  unseen : v ∉ s.found
  grown : s.found ++ [v] <+: t.found
  stacked : t.stack = above ++ v :: s.stack
  fresh : ∀ u ∈ above, u ∉ s.found ++ [v]
  reached : ∀ u ∈ above, g.Reaches v u
  back : ∀ u ∈ above, ∃ w ∈ v :: s.stack, g.Reaches u w
  bound : ∀ u ∈ above, ∀ w ∈ g.successors u, w ∈ s.stack → low ≤ s.found.idxOf w
  explored : ∀ u ∈ t.found, u ∉ s.found ++ [v] → ∀ w ∈ g.successors u, w ∈ t.found
  followed : ∀ w ∈ done, w ∈ t.found
  direct : ∀ w ∈ done, w ∈ s.stack → low ≤ s.found.idxOf w
  low_le : low ≤ s.found.length
  lowest : low = s.found.length ∨ ∃ w ∈ s.stack, s.found.idxOf w = low ∧ g.Reaches v w

/-! ### Following the edges of a node -/

section
variable {g : Graph} {s t u : ComponentSearch} {v w low found : Nat} {done above higher : List Nat}

theorem Exploring.begin (sound : s.Sound g) (unseen : v ∉ s.found) (inside : v < g.size) :
    Exploring g v s [] [] s.found.length (s.discover v) where
  sound := sound.discover unseen inside
  unseen := unseen
  grown := List.prefix_refl _
  stacked := rfl
  fresh := by intro u member; cases member
  reached := by intro u member; cases member
  back := by intro u member; cases member
  bound := by intro u member; cases member
  explored := fun u member new => absurd member new
  followed := by intro w member; cases member
  direct := by intro w member; cases member
  low_le := Nat.le_refl _
  lowest := .inl rfl

theorem Exploring.older (exploring : Exploring g v s done above low t) : s.found <+: t.found :=
  (List.prefix_append _ _).trans exploring.grown

theorem Exploring.length_lt (exploring : Exploring g v s done above low t) :
    s.found.length < t.found.length := by
  have longer := exploring.grown.length_le
  simp only [List.length_append,List.length_cons,List.length_nil] at longer
  omega

theorem Exploring.stack_subset (exploring : Exploring g v s done above low t) (member : w ∈ s.stack) :
    w ∈ t.stack := by
  rw [exploring.stacked]
  exact List.mem_append_right _ (List.mem_cons_of_mem _ member)

theorem Exploring.below (exploring : Exploring g v s done above low t) (member : w ∈ t.stack)
    (older : t.found.idxOf w < s.found.length) : w ∈ s.stack ∧ s.found.idxOf w = t.found.idxOf w := by
  have early : w ∈ s.found := by
    by_contra late
    have := le_idxOf_of_not_mem exploring.older late
    omega
  refine ⟨?_,(idxOf_stable exploring.older early).symm⟩
  rw [exploring.stacked] at member
  rcases List.mem_append.mp member with top | rest
  · exact absurd (List.mem_append_left _ early) (exploring.fresh w top)
  · rcases List.mem_cons.mp rest with rfl | below
    · exact absurd early exploring.unseen
    · exact below

theorem Exploring.idxOf_below (start : s.Sound g) (exploring : Exploring g v s done above low t)
    (member : w ∈ s.stack) : t.found.idxOf w = s.found.idxOf w :=
  idxOf_stable exploring.older (start.found_of_stack member)

/-- An edge to a node on the stack. -/
theorem Exploring.meet (start : s.Sound g) (exploring : Exploring g v s done above low t)
    (edge : w ∈ g.successors v) (member : w ∈ t.stack) :
    Exploring g v s (done ++ [w]) above (min low (t.found.idxOf w)) t where
  sound := exploring.sound
  unseen := exploring.unseen
  grown := exploring.grown
  stacked := exploring.stacked
  fresh := exploring.fresh
  reached := exploring.reached
  back := exploring.back
  bound := fun u top x leads below => Nat.le_trans (Nat.min_le_left _ _) (exploring.bound u top x leads below)
  explored := exploring.explored
  followed := by
    intro x listed
    rcases List.mem_append.mp listed with earlier | last
    · exact exploring.followed x earlier
    · rw [List.mem_singleton.mp last]
      exact exploring.sound.found_of_stack member
  direct := by
    intro x listed below
    rcases List.mem_append.mp listed with earlier | last
    · exact Nat.le_trans (Nat.min_le_left _ _) (exploring.direct x earlier below)
    · rw [List.mem_singleton.mp last] at below ⊢
      rw [exploring.idxOf_below start below]
      exact Nat.min_le_right _ _
  low_le := Nat.le_trans (Nat.min_le_left _ _) exploring.low_le
  lowest := by
    rcases Nat.lt_or_ge (t.found.idxOf w) low with smaller | larger
    · have bound := exploring.low_le
      obtain ⟨below,same⟩ := exploring.below member (by omega)
      rw [Nat.min_eq_right (by omega)]
      exact .inr ⟨w,below,same,.single edge⟩
    · rw [Nat.min_eq_left larger]
      exact exploring.lowest

/-- An edge to a node of a complete component. -/
theorem Exploring.pass (exploring : Exploring g v s done above low t) (member : w ∈ t.found)
    (gone : w ∉ t.stack) : Exploring g v s (done ++ [w]) above low t :=
  { exploring with
    followed := by
      intro x listed
      rcases List.mem_append.mp listed with earlier | last
      · exact exploring.followed x earlier
      · rw [List.mem_singleton.mp last]
        exact member
    direct := by
      intro x listed below
      rcases List.mem_append.mp listed with earlier | last
      · exact exploring.direct x earlier below
      · rw [List.mem_singleton.mp last] at below
        exact absurd (exploring.stack_subset below) gone }

/-- An edge to a node that the search had not found before and has now visited. -/
theorem Exploring.descend (start : s.Sound g) (exploring : Exploring g v s done above low t)
    (edge : w ∈ g.successors v) (unseen : w ∉ t.found) (visited : Visited g w t higher found u) :
    Exploring g v s (done ++ [w]) (higher ++ above) (min low found) u where
  sound := visited.sound
  unseen := exploring.unseen
  grown := exploring.grown.trans visited.grown
  stacked := by rw [visited.stacked,exploring.stacked,List.append_assoc]
  fresh := by
    intro x member early
    rcases List.mem_append.mp member with new | old
    · exact visited.fresh x new (exploring.grown.subset early)
    · exact exploring.fresh x old early
  reached := by
    intro x member
    rcases List.mem_append.mp member with new | old
    · exact (Graph.Reaches.single edge).trans (visited.reached x new)
    · exact exploring.reached x old
  back := by
    intro x member
    rcases List.mem_append.mp member with new | old
    · -- The visit leads back to its own stack, whose upper part leads back further.
      obtain ⟨y,stacked,path⟩ := visited.back x new
      rw [exploring.stacked] at stacked
      rcases List.mem_append.mp stacked with upper | lower
      · obtain ⟨z,below,onward⟩ := exploring.back y upper
        exact ⟨z,below,path.trans onward⟩
      · exact ⟨y,lower,path⟩
    · exact exploring.back x old
  bound := by
    intro x member y leads below
    rcases List.mem_append.mp member with new | old
    · have least := visited.bound x new y leads (exploring.stack_subset below)
      rw [exploring.idxOf_below start below] at least
      exact Nat.le_trans (Nat.min_le_right _ _) least
    · exact Nat.le_trans (Nat.min_le_left _ _) (exploring.bound x old y leads below)
  explored := by
    intro x member new y leads
    by_cases early : x ∈ t.found
    · exact visited.grown.subset (exploring.explored x early new y leads)
    · exact visited.explored x member early y leads
  followed := by
    intro x listed
    rcases List.mem_append.mp listed with earlier | last
    · exact visited.grown.subset (exploring.followed x earlier)
    · rw [List.mem_singleton.mp last]
      exact visited.met
  direct := by
    intro x listed below
    rcases List.mem_append.mp listed with earlier | last
    · exact Nat.le_trans (Nat.min_le_left _ _) (exploring.direct x earlier below)
    · rw [List.mem_singleton.mp last] at below
      exact absurd (exploring.older.subset (start.found_of_stack below)) unseen
  low_le := Nat.le_trans (Nat.min_le_left _ _) exploring.low_le
  lowest := by
    rcases Nat.lt_or_ge found low with smaller | larger
    · have bound := exploring.low_le
      have longer := exploring.length_lt
      rw [Nat.min_eq_right (by omega)]
      rcases visited.lowest with own | ⟨y,stacked,number,path⟩
      · omega
      · obtain ⟨below,same⟩ := exploring.below stacked (by omega)
        exact .inr ⟨y,below,same.trans number,(Graph.Reaches.single edge).trans path⟩
    · rw [Nat.min_eq_left larger]
      exact exploring.lowest

/-! ### The end of a call -/

theorem complete_eq {rest : List Nat} (stacked : t.stack = above ++ v :: rest) (single : v ∉ above) :
    t.complete v = { t with components := t.components ++ [above ++ [v]], stack := rest } := by
  have other : ∀ u ∈ above, (u != v) = true := by
    intro u member
    rw [bne_iff_ne]
    rintro rfl
    exact single member
  have upper : t.stack.takeWhile (· != v) = above := by
    rw [stacked,List.takeWhile_append_of_pos other]
    simp
  have lower : t.stack.dropWhile (· != v) = v :: rest := by
    rw [stacked,List.dropWhile_append_of_pos other]
    simp
  simp only [complete,upper,lower,List.drop_succ_cons,List.drop_zero]

/-- The top of the stack down to `v` may be completed when its edges stay inside it or lead to complete
components, `v` reaches all of it, and all of it leads back to `v` or below. -/
theorem Sound.complete {rest : List Nat} (sound : t.Sound g) (stacked : t.stack = above ++ v :: rest)
    (leads : ∀ u ∈ above ++ [v], ∀ w ∈ g.successors u, w ∈ above ++ [v] ∨ w ∈ t.settled)
    (reached : ∀ u ∈ above, g.Reaches v u) (back : ∀ u ∈ above, ∃ w ∈ v :: rest, g.Reaches u w) :
    (t.complete v).Sound g := by
  have distinct := sound.nodup
  rw [stacked] at distinct
  have single : v ∉ above := by
    intro member
    have upper := (List.nodup_append.mp distinct).1
    exact (List.nodup_append.mp upper).2.2 v member v (List.mem_cons_self ..) rfl
  rw [complete_eq stacked single]
  have settled : ∀ other : List Nat, (t.components ++ [other]).flatten = t.settled ++ other := by
    intro other
    simp [ComponentSearch.settled]
  -- The new component together with the complete ones is closed under edges.
  have closed : ∀ u ∈ t.settled ++ (above ++ [v]), ∀ w ∈ g.successors u, w ∈ t.settled ++ (above ++ [v]) := by
    intro u member w edge
    rcases List.mem_append.mp member with old | new
    · exact List.mem_append_left _ (sound.closed u old w edge)
    · rcases leads u new w edge with inside | complete
      · exact List.mem_append_right _ inside
      · exact List.mem_append_left _ complete
  have shared : (rest ++ (t.settled ++ (above ++ [v]))).Perm t.found := by
    refine List.Perm.trans ?_ sound.shared
    rw [stacked]
    calc (rest ++ (t.settled ++ (above ++ [v]))).Perm ((above ++ [v]) ++ (rest ++ t.settled)) := by
          rw [← List.append_assoc]
          exact List.perm_append_comm
      _ = above ++ v :: rest ++ t.settled := by simp
  have onStack : ∀ u ∈ above ++ [v], u ∈ t.stack := by
    intro u member
    rw [stacked]
    rcases List.mem_append.mp member with top | last
    · exact List.mem_append_left _ top
    · rw [List.mem_singleton.mp last]
      exact List.mem_append_right _ (List.mem_cons_self ..)
  -- Nothing in the new component reaches below it, so what leads back leads to `v`.
  have home : ∀ u ∈ above ++ [v], g.Mutual u v := by
    intro u member
    rcases List.mem_append.mp member with top | last
    · refine ⟨?_,reached u top⟩
      obtain ⟨w,stays,path⟩ := back u top
      rcases List.mem_cons.mp stays with rfl | below
      · exact path
      · have inside := path.mem_of_closed closed (List.mem_append_right _ member)
        have apart := shared.nodup_iff.mpr sound.distinct
        exact absurd rfl ((List.nodup_append.mp apart).2.2 w below w inside)
    · rw [List.mem_singleton.mp last]
      exact ⟨.refl,.refl⟩
  refine ⟨sound.bounded,sound.distinct,?_,?_,?_,?_⟩
  · simpa only [ComponentSearch.settled,settled] using shared
  · simpa only [ComponentSearch.settled,settled] using closed
  · intro c member
    rcases List.mem_append.mp member with old | new
    · exact sound.strong c old
    · rw [List.mem_singleton.mp new]
      refine ⟨by simp,fun u inside w => ⟨fun other => (home u inside).trans (home w other).symm,?_⟩⟩
      intro both
      rcases List.mem_append.mp (both.1.mem_of_closed closed (List.mem_append_right _ inside)) with old | new
      · have gone := both.2.mem_of_closed sound.closed old
        exact absurd gone (sound.not_settled (onStack u inside))
      · exact new
  · refine List.pairwise_append.mpr ⟨sound.ordered,List.pairwise_singleton _ _,?_⟩
    intro c old last new u inside w edge member
    rw [List.mem_singleton.mp new] at member
    have gone := sound.closed u (List.mem_flatten.mpr ⟨c,old,inside⟩) w edge
    exact sound.not_settled (onStack w member) gone

/-- After all edges of `v` were followed, every node found in the call has its edges inside what is
found. -/
theorem Exploring.explored_all (exploring : Exploring g v s (g.successors v) above low t) (x : Nat)
    (member : x ∈ t.found) (new : x ∉ s.found) : ∀ w ∈ g.successors x, w ∈ t.found := by
  by_cases own : x = v
  · subst own
    exact exploring.followed
  · exact exploring.explored x member (by simp [new,own])

/-- A call whose node leads below leaves its nodes on the stack. -/
theorem Exploring.retire (exploring : Exploring g v s (g.successors v) above low t)
    (older : low ≠ s.found.length) : Visited g v s (above ++ [v]) low t where
  sound := exploring.sound
  grown := exploring.older
  met := exploring.grown.subset (by simp)
  stacked := by rw [exploring.stacked]; simp
  fresh := by
    intro x member
    rcases List.mem_append.mp member with top | last
    · exact fun early => exploring.fresh x top (List.mem_append_left _ early)
    · rw [List.mem_singleton.mp last]
      exact exploring.unseen
  reached := by
    intro x member
    rcases List.mem_append.mp member with top | last
    · exact exploring.reached x top
    · rw [List.mem_singleton.mp last]
      exact .refl
  back := by
    obtain ⟨w,below,-,path⟩ := exploring.lowest.resolve_left older
    intro x member
    rcases List.mem_append.mp member with top | last
    · obtain ⟨y,stays,onward⟩ := exploring.back x top
      rcases List.mem_cons.mp stays with rfl | lower
      · exact ⟨w,below,onward.trans path⟩
      · exact ⟨y,lower,onward⟩
    · rw [List.mem_singleton.mp last]
      exact ⟨w,below,path⟩
  bound := by
    intro x member w edge below
    rcases List.mem_append.mp member with top | last
    · exact exploring.bound x top w edge below
    · rw [List.mem_singleton.mp last] at edge
      exact exploring.direct w edge below
  explored := exploring.explored_all
  lowest := .inr (exploring.lowest.resolve_left older)

/-- A call whose node leads nowhere below completes a component. -/
theorem Exploring.finish (start : s.Sound g) (exploring : Exploring g v s (g.successors v) above low t)
    (own : low = s.found.length) : Visited g v s [] low (t.complete v) := by
  -- An edge to a node below would have brought the number down.
  have inside : ∀ u ∈ above ++ [v], ∀ w ∈ g.successors u, w ∉ s.stack := by
    intro u member w edge below
    have number := List.idxOf_lt_length_of_mem (start.found_of_stack below)
    rcases List.mem_append.mp member with top | last
    · have := exploring.bound u top w edge below
      omega
    · rw [List.mem_singleton.mp last] at edge
      have := exploring.direct w edge below
      omega
  have leads : ∀ u ∈ above ++ [v], ∀ w ∈ g.successors u, w ∈ above ++ [v] ∨ w ∈ t.settled := by
    intro u member w edge
    have found : u ∈ t.found ∧ u ∉ s.found := by
      rcases List.mem_append.mp member with top | last
      · refine ⟨exploring.sound.found_of_stack ?_,fun early => exploring.fresh u top (by simp [early])⟩
        rw [exploring.stacked]
        exact List.mem_append_left _ top
      · rw [List.mem_singleton.mp last]
        exact ⟨exploring.grown.subset (by simp),exploring.unseen⟩
    rcases exploring.sound.stack_or_settled (exploring.explored_all u found.1 found.2 w edge) with stays | gone
    · rw [exploring.stacked,List.append_cons] at stays
      rcases List.mem_append.mp stays with upper | below
      · exact .inl upper
      · exact absurd below (inside u member w edge)
    · exact .inr gone
  have sound := exploring.sound.complete exploring.stacked leads exploring.reached exploring.back
  have single : v ∉ above := fun member => exploring.fresh v member (by simp)
  rw [complete_eq exploring.stacked single] at sound ⊢
  refine ⟨sound,exploring.older,exploring.grown.subset (by simp),rfl,?_,?_,?_,?_,exploring.explored_all,.inl (Nat.le_of_eq own.symm)⟩
  · intro u member; cases member
  · intro u member; cases member
  · intro u member; cases member
  · intro u member; cases member

end

end ComponentSearch

namespace Graph
open ComponentSearch

variable {g : Graph}

/-- Follows one edge of a call: an undiscovered node is visited, a node on the stack gives its number. -/
def follow (g : Graph) (fuel : Nat) (state : Nat × ComponentSearch) (w : Nat) : Nat × ComponentSearch :=
  match state.2.number? w with
  | none => (min state.1 (g.visit fuel w state.2).1,(g.visit fuel w state.2).2)
  | some number => if state.2.stack.contains w then (min state.1 number,state.2) else state

theorem visit_succ (fuel v : Nat) (s : ComponentSearch) :
    g.visit (fuel + 1) v s =
      let last := (g.successors v).foldl (g.follow fuel) (s.found.length,s.discover v)
      (last.1,if last.1 = s.found.length then last.2.complete v else last.2) := rfl

/-- Every call for an undiscovered node does what `Visited` says when its fuel covers the nodes that are
still undiscovered. -/
theorem visit_visited (edges : g.Closed) : ∀ (fuel v : Nat) (s : ComponentSearch), s.Sound g → v ∉ s.found →
    v < g.size → g.size ≤ s.found.length + fuel →
      ∃ above, Visited g v s above (g.visit fuel v s).1 (g.visit fuel v s).2 := by
  intro fuel
  induction fuel with
  | zero =>
    intro v s sound unseen inside enough
    have := sound.length_lt unseen inside
    omega
  | succ fuel ih =>
    intro v s sound unseen inside enough
    -- One edge after the other, with what was followed so far as the induction's index.
    have run : ∀ (more done above : List Nat) (state : Nat × ComponentSearch), done ++ more = g.successors v →
        Exploring g v s done above state.1 state.2 →
          ∃ above', Exploring g v s (g.successors v) above' (more.foldl (g.follow fuel) state).1
            (more.foldl (g.follow fuel) state).2 := by
      intro more
      induction more with
      | nil =>
        intro done above state parts exploring
        rw [List.append_nil] at parts
        exact ⟨above,parts ▸ exploring⟩
      | cons w more inner =>
        intro done above state parts exploring
        have edge : w ∈ g.successors v := parts ▸ List.mem_append_right _ (List.mem_cons_self ..)
        have rest : (done ++ [w]) ++ more = g.successors v := by rw [← parts]; simp
        rw [List.foldl_cons]
        by_cases found : w ∈ state.2.found
        · by_cases stays : w ∈ state.2.stack
          · refine inner (done ++ [w]) above _ rest ?_
            simpa [follow,number?_of_mem found,stays] using exploring.meet sound edge stays
          · refine inner (done ++ [w]) above _ rest ?_
            simpa [follow,number?_of_mem found,stays] using exploring.pass found stays
        · have longer := exploring.length_lt
          obtain ⟨higher,visited⟩ := ih w state.2 exploring.sound found (edges v w edge) (by omega)
          refine inner (done ++ [w]) (higher ++ above) _ rest ?_
          simpa [follow,number?_eq_none.mpr found] using exploring.descend sound edge found visited
    obtain ⟨above,exploring⟩ := run (g.successors v) [] [] (s.found.length,s.discover v) rfl
      (Exploring.begin sound unseen inside)
    rw [visit_succ]
    by_cases own : ((g.successors v).foldl (g.follow fuel) (s.found.length,s.discover v)).1 = s.found.length
    · exact ⟨[],by simpa only [own,↓reduceIte] using exploring.finish sound own⟩
    · exact ⟨above ++ [v],by simpa only [own,↓reduceIte] using exploring.retire own⟩

/-- Between two roots nothing is on the stack, and the nodes so far are found. -/
structure Rooted (g : Graph) (roots : List Nat) (s : ComponentSearch) : Prop where
  sound : s.Sound g
  empty : s.stack = []
  found : ∀ v ∈ roots, v ∈ s.found

theorem Rooted.visit (edges : g.Closed) {roots : List Nat} {s : ComponentSearch} (rooted : Rooted g roots s)
    {v : Nat} (inside : v < g.size) : Rooted g (roots ++ [v]) (g.visitRoot s v) := by
  unfold visitRoot
  split
  · rename_i unseen
    obtain ⟨above,visited⟩ := visit_visited edges g.size v s rooted.sound (number?_eq_none.mp unseen) inside
      (by omega)
    refine ⟨visited.sound,?_,?_⟩
    · rw [visited.stacked,rooted.empty,List.append_nil,List.eq_nil_iff_forall_not_mem]
      intro u member
      obtain ⟨w,below,-⟩ := visited.back u member
      rw [rooted.empty] at below
      cases below
    · intro u member
      rcases List.mem_append.mp member with earlier | last
      · exact visited.grown.subset (rooted.found u earlier)
      · rw [List.mem_singleton.mp last]
        exact visited.met
  · rename_i number seen
    refine ⟨rooted.sound,rooted.empty,?_⟩
    intro u member
    rcases List.mem_append.mp member with earlier | last
    · exact rooted.found u earlier
    · rw [List.mem_singleton.mp last]
      by_contra unseen
      rw [number?_eq_none.mpr unseen] at seen
      cases seen

theorem rooted_roots (edges : g.Closed) : ∀ n ≤ g.size,
    Rooted g (List.range n) ((List.range n).foldl g.visitRoot {}) := by
  intro n
  induction n with
  | zero => intro _; exact ⟨.start,rfl,by simp⟩
  | succ n ih =>
    intro bound
    rw [List.range_succ,List.foldl_append]
    exact (ih (by omega)).visit edges bound

/-- The components of a grown graph share out its nodes, none of them is empty, and two nodes stand in
one component exactly if they reach each other. -/
theorem components_partition (additions : List Addition) :
    let g := grown additions
    g.components.flatten.Perm (List.range g.size) ∧ (∀ c ∈ g.components, c ≠ []) ∧
      ∀ v w, v < g.size → w < g.size →
        ((∃ c ∈ g.components, v ∈ c ∧ w ∈ c) ↔ g.Reaches v w ∧ g.Reaches w v) := by
  intro g
  have rooted := rooted_roots (grown_closed additions) g.size (Nat.le_refl _)
  have sound := rooted.sound
  have all : ∀ v, v ∈ g.components.flatten ↔ v ∈ (((List.range g.size).foldl g.visitRoot {}).found) := by
    have shared := sound.shared
    rw [rooted.empty,List.nil_append] at shared
    exact fun v => shared.mem_iff
  refine ⟨?_,fun c member => (sound.strong c member).1,?_⟩
  · have distinct := sound.nodup
    rw [rooted.empty,List.nil_append] at distinct
    refine (List.perm_ext_iff_of_nodup distinct List.nodup_range).mpr fun v => (all v).trans ?_
    exact ⟨fun found => List.mem_range.mpr (sound.bounded v found),rooted.found v⟩
  · intro v w inside _
    constructor
    · rintro ⟨c,member,left,right⟩
      exact ((sound.strong c member).2 v left w).mp right
    · intro both
      obtain ⟨c,member,left⟩ := List.mem_flatten.mp ((all v).mpr (rooted.found v (List.mem_range.mpr inside)))
      exact ⟨c,member,left,((sound.strong c member).2 v left w).mpr both⟩

end Graph
end Depends
