import Depends.Proofs.Graph.Cycles
import Mathlib.Algebra.Order.BigOperators.Group.List
import Mathlib.Data.List.Chain
import Mathlib.Data.List.GetD
import Mathlib.Order.Bounds.Basic

/-!
The condensation of a graph: its strong components, with the edges between different ones. Components come out so that
an edge between two of them leads to the earlier one (`components_reverse_topological`). So one sweep over them finds
how deep each of them lies, the length of a longest path that starts there (`isGreatest_depthOf`).
-/
namespace Depends.Graph

variable {g : Graph} {n u v w : Nat}

/-! ### The order of components -/

theorem Reaches.lt_size (closed : g.Closed) (path : g.Reaches v w) (inside : v < g.size) : w < g.size := by
  induction path with
  | refl => exact inside
  | tail _ edge _ => exact closed _ _ edge

theorem lt_size_of_successor (edge : w ∈ g.successors v) : v < g.size := by
  obtain ⟨e,member,-⟩ := List.mem_map.mp edge
  exact lt_size_of_mem_edges member

theorem lt_size_of_mem_component (closed : g.Closed) {members : List Nat} (listed : members ∈ g.components)
    (member : v ∈ members) : v < g.size :=
  List.mem_range.mp ((components_perm closed).mem_iff.mp (List.mem_flatten.mpr ⟨members,listed,member⟩))

/-- Every node has a component, and its number is that of the component. -/
theorem componentOf_spec (closed : g.Closed) (inside : v < g.size) :
    ∃ bound : componentOf g.components v < g.components.length, v ∈ g.components[componentOf g.components v] := by
  have found := (components_perm closed).mem_iff.mpr (List.mem_range.mpr inside)
  obtain ⟨members,listed,member⟩ := List.mem_flatten.mp found
  obtain ⟨c,bound,rfl⟩ := List.mem_iff_getElem.mp listed
  obtain rfl := (componentOf_eq_iff closed bound).mpr member
  exact ⟨bound,member⟩

theorem componentOf_eq_componentOf (closed : g.Closed) (inside : v < g.size) :
    componentOf g.components w = componentOf g.components v ↔ g.Mutual v w := by
  obtain ⟨bound,member⟩ := componentOf_spec closed inside
  have sound := (rooted_roots closed g.size (Nat.le_refl _)).sound
  rw [componentOf_eq_iff closed bound]
  exact (sound.strong _ (List.getElem_mem bound)).2 v member w

/-- No edge leads to a later component. -/
theorem componentOf_le (closed : g.Closed) (edge : w ∈ g.successors v) :
    componentOf g.components w ≤ componentOf g.components v := by
  obtain ⟨bound,member⟩ := componentOf_spec closed (lt_size_of_successor edge)
  obtain ⟨bound',member'⟩ := componentOf_spec closed (closed v w edge)
  by_contra later
  have ordered := (rooted_roots closed g.size (Nat.le_refl _)).sound.ordered
  exact List.pairwise_iff_getElem.mp ordered _ _ bound bound' (Nat.lt_of_not_le later) v member w edge member'

/-- Both ends of an edge of a grown graph stand in components, and when these are different ones, that of the target
comes out before that of the source. -/
theorem components_reverse_topological (additions : List Addition) :
    let g := grown additions
    ∀ v, ∀ w ∈ g.successors v,
      (∃ c ∈ g.components, v ∈ c) ∧ (∃ d ∈ g.components, w ∈ d) ∧
        ∀ (i j : Nat) (c d : List Nat), g.components[i]? = some c → g.components[j]? = some d → v ∈ c → w ∈ d →
          i ≠ j → j < i := by
  intro g v w edge
  have closed := grown_closed additions
  obtain ⟨bound,member⟩ := componentOf_spec closed (lt_size_of_successor edge)
  obtain ⟨bound',member'⟩ := componentOf_spec closed (closed v w edge)
  refine ⟨⟨_,List.getElem_mem bound,member⟩,⟨_,List.getElem_mem bound',member'⟩,?_⟩
  intro i j c d source target left right different
  obtain ⟨inside,rfl⟩ := List.getElem?_eq_some_iff.mp source
  obtain ⟨inside',rfl⟩ := List.getElem?_eq_some_iff.mp target
  have order := componentOf_le closed edge
  rw [(componentOf_eq_iff closed inside).mpr left,(componentOf_eq_iff closed inside').mpr right] at order
  omega

/-- A file that leads into a ring of two, from which an edge leads out to a fourth file. -/
def ringed : List Addition :=
  [.node "a",.node "b",.node "c",.node "d",.edge 0 1 "b",.edge 1 2 "c",.edge 2 1 "b",.edge 2 3 "d"]

theorem leaf_before_ring : 3 ∈ (grown ringed).successors 2 ∧ (grown ringed).components = [[3],[2,1],[0]] ∧
    ∀ i j : Nat, (grown ringed).components[i]? = some [2,1] → (grown ringed).components[j]? = some [3] → i ≠ j →
      j < i :=
  ⟨by decide,by decide,fun i j ring leaf =>
    (components_reverse_topological ringed 2 3 (by decide)).2.2 i j [2,1] [3] ring leaf (by decide) (by decide)⟩

/-! ### Cycles -/

/-- A node lies on a cycle: edges lead from it back to it. -/
def Circles (g : Graph) (v : Nat) : Prop := Relation.TransGen (fun v w => w ∈ g.successors v) v v

theorem one_lt_length_iff {members : List Nat} (distinct : members.Nodup) (member : v ∈ members) :
    1 < members.length ↔ ∃ w ∈ members, w ≠ v := by
  match members with
  | [] => cases member
  | [only] => simp_all
  | first :: second :: rest =>
    have different : first ≠ second := fun same => by simp [same] at distinct
    simp only [List.length_cons,Nat.lt_add_left_iff_pos,Nat.zero_lt_succ,true_iff]
    by_cases here : first = v
    · exact ⟨second,by simp,fun same => different (here.trans same.symm)⟩
    · exact ⟨first,by simp,here⟩

/-- The metrics find the nodes that lie on a cycle. -/
theorem onCycle_iff (closed : g.Closed) (inside : v < g.size) : g.onCycle v = true ↔ g.Circles v := by
  obtain ⟨bound,member⟩ := componentOf_spec closed inside
  have same : ∀ w, w ∈ g.components[componentOf g.components v] ↔ g.Mutual v w := fun w => by
    rw [← componentOf_eq_iff closed bound,componentOf_eq_componentOf closed inside]
  have distinct := (List.nodup_flatten.mp (nodup_flatten_components closed)).1 _ (List.getElem_mem bound)
  have loop : g.hasLoop v = true ↔ v ∈ g.successors v := by simp [hasLoop,hasEdge]
  rw [onCycle,Bool.or_eq_true,decide_eq_true_eq,loop,List.getD_eq_getElem?_getD,List.getElem?_eq_getElem bound,
    Option.getD_some,one_lt_length_iff distinct member]
  constructor
  · rintro (⟨w,other,different⟩ | edge)
    · -- Another node of the component is reached, and leads back.
      obtain ⟨there,back⟩ := (same w).mp other
      rcases Relation.reflTransGen_iff_eq_or_transGen.mp there with equal | way
      · exact absurd equal different
      · exact way.trans_left back
    · exact .single edge
  · intro circle
    obtain ⟨w,edge,back⟩ := Relation.TransGen.head'_iff.mp circle
    by_cases own : w = v
    · exact .inr (own ▸ edge)
    · exact .inl ⟨w,(same w).mpr ⟨.single edge,back⟩,own⟩

/-! ### Depth -/

/-- An edge of the condensation: it leads from the component of one node to the component of another, which is
a different one. -/
def Descends (g : Graph) (v w : Nat) : Prop :=
  ¬ g.Mutual v w ∧ ∃ u x, g.Mutual v u ∧ x ∈ g.successors u ∧ g.Mutual x w

/-- The lengths of the paths of the condensation that start at the component of a node. Each component on the way is
named by one of its nodes. -/
def descents (g : Graph) (v : Nat) : Set Nat :=
  { n | ∃ path, (v :: path).IsChain g.Descends ∧ path.length = n }

/-- The depth that the sweep finds for the component of a node. -/
def depthOf (g : Graph) (v : Nat) : Nat :=
  (g.componentDepths g.components).getD (componentOf g.components v) 0

theorem zero_mem_descents : 0 ∈ g.descents v := ⟨[],by simp,rfl⟩

theorem succ_mem_descents : n + 1 ∈ g.descents v ↔ ∃ w, g.Descends v w ∧ n ∈ g.descents w := by
  constructor
  · rintro ⟨path,chain,length⟩
    cases path with
    | nil => cases length
    | cons w path =>
      rw [List.isChain_cons_cons] at chain
      exact ⟨w,chain.1,path,chain.2,Nat.succ.inj length⟩
  · rintro ⟨w,step,path,chain,rfl⟩
    exact ⟨w :: path,List.isChain_cons_cons.mpr ⟨step,chain⟩,rfl⟩

theorem Descends.lt_size (closed : g.Closed) (step : g.Descends v w) : w < g.size := by
  obtain ⟨-,u,x,-,edge,there⟩ := step
  exact there.1.lt_size closed (closed u x edge)

theorem Descends.componentOf_lt (closed : g.Closed) (inside : v < g.size) (step : g.Descends v w) :
    componentOf g.components w < componentOf g.components v := by
  obtain ⟨apart,u,x,here,edge,there⟩ := step
  have order := componentOf_le closed edge
  rw [(componentOf_eq_componentOf closed inside).mpr here] at order
  rw [← (componentOf_eq_componentOf closed (closed u x edge)).mpr there] at order
  have different := mt (componentOf_eq_componentOf closed inside).mp apart
  omega

theorem le_componentOf (closed : g.Closed) (inside : v < g.size) (length : n ∈ g.descents v) :
    n ≤ componentOf g.components v := by
  induction n generalizing v with
  | zero => exact Nat.zero_le _
  | succ n ih =>
    obtain ⟨w,step,rest⟩ := succ_mem_descents.mp length
    have below := step.componentOf_lt closed inside
    have bound := ih (step.lt_size closed) rest
    omega

theorem isGreatest_foldl_max (numbers : List Nat) : IsGreatest { n | n = 0 ∨ n ∈ numbers } (numbers.foldl max 0) := by
  rw [List.foldl_max]
  cases largest : numbers.max? with
  | none =>
    obtain rfl := List.max?_eq_none_iff.mp largest
    exact ⟨.inl rfl,fun n member => by simpa using member⟩
  | some m =>
    obtain ⟨member,bound⟩ := List.max?_eq_some_iff.mp largest
    simp only [Option.getD_some,Nat.zero_max]
    refine ⟨.inr member,fun n listed => ?_⟩
    rcases listed with rfl | inside
    · exact Nat.zero_le _
    · exact bound n inside

/-- The depth of one component, once the components below it have theirs. -/
theorem isGreatest_componentDepth (closed : g.Closed) {depths : List Nat} (inside : v < g.size)
    (below : ∀ w < g.size, componentOf g.components w < componentOf g.components v →
      IsGreatest (g.descents w) (depths.getD (componentOf g.components w) 0)) {members : List Nat}
    (component : ∀ u, u ∈ members ↔ g.Mutual v u) :
    IsGreatest (g.descents v) (g.componentDepth g.components depths members) := by
  unfold componentDepth
  extract_lets lengths
  have listed : ∀ n, n ∈ lengths ↔ ∃ u, g.Mutual v u ∧ ∃ w ∈ g.successors u, ¬ g.Mutual v w ∧
      depths.getD (componentOf g.components w) 0 + 1 = n := by
    intro n
    simp only [lengths,List.mem_flatMap,List.mem_filterMap,component]
    refine exists_congr fun u => and_congr_right fun here => exists_congr fun w => and_congr_right fun _ => ?_
    rw [(componentOf_eq_componentOf closed inside).mpr here]
    by_cases same : g.Mutual v w
    · simp [same,(componentOf_eq_componentOf closed inside).mpr same]
    · simp [same,mt (componentOf_eq_componentOf closed inside).mp same]
  obtain ⟨reached,largest⟩ := isGreatest_foldl_max lengths
  constructor
  · rcases reached with none | member
    · rw [none]
      exact zero_mem_descents
    · obtain ⟨u,here,w,edge,apart,length⟩ := (listed _).mp member
      have step : g.Descends v w := ⟨apart,u,w,here,edge,.refl,.refl⟩
      have deepest := below w (closed u w edge) (step.componentOf_lt closed inside)
      rw [← length]
      exact succ_mem_descents.mpr ⟨w,step,deepest.1⟩
  · intro n length
    cases n with
    | zero => exact Nat.zero_le _
    | succ n =>
      obtain ⟨w,step,rest⟩ := succ_mem_descents.mp length
      have bound := (below w (step.lt_size closed) (step.componentOf_lt closed inside)).2 rest
      obtain ⟨apart,u,x,here,edge,there⟩ := step
      -- The edge may lead to another node of the component of `w`.
      have outside : ¬ g.Mutual v x := fun joined => apart (joined.trans there)
      have counted := largest (.inr ((listed _).mpr ⟨u,here,x,edge,outside,rfl⟩))
      rw [(componentOf_eq_componentOf closed (closed u x edge)).mpr there] at bound
      omega

/-- The sweep over the first components. -/
def sweep (g : Graph) (front : List (List Nat)) : List Nat :=
  front.foldl (fun depths members => depths ++ [g.componentDepth g.components depths members]) []

theorem sweep_snoc (front : List (List Nat)) (members : List Nat) :
    g.sweep (front ++ [members]) = g.sweep front ++ [g.componentDepth g.components (g.sweep front) members] := by
  simp only [sweep,List.foldl_append,List.foldl_cons,List.foldl_nil]

theorem length_sweep (front : List (List Nat)) : (g.sweep front).length = front.length := by
  induction front using List.reverseRecOn with
  | nil => rfl
  | append_singleton front members ih => simp [sweep_snoc,ih]

/-- The sweep finds the depths of the components that it has passed. -/
theorem isGreatest_sweep (closed : g.Closed) {front back : List (List Nat)} (split : g.components = front ++ back) :
    ∀ v < g.size, componentOf g.components v < front.length →
      IsGreatest (g.descents v) ((g.sweep front).getD (componentOf g.components v) 0) := by
  induction front using List.reverseRecOn generalizing back with
  | nil => exact fun v _ none => absurd none (Nat.not_lt_zero _)
  | append_singleton front members ih =>
    rw [List.append_assoc,List.singleton_append] at split
    intro v inside passed
    rw [List.length_append,List.length_singleton] at passed
    rw [sweep_snoc]
    rcases Nat.lt_or_ge (componentOf g.components v) front.length with earlier | last
    · rw [List.getD_append _ _ _ _ (by rwa [length_sweep])]
      exact ih split v inside earlier
    · have here : componentOf g.components v = front.length := by omega
      rw [List.getD_append_right _ _ _ _ (by rwa [length_sweep]),length_sweep,here,Nat.sub_self,List.getD_cons_zero]
      refine isGreatest_componentDepth closed inside (fun w below before => ?_) fun u => ?_
      · exact ih split w below (here ▸ before)
      · have place : g.components[front.length]? = some members := by simp [split]
        obtain ⟨bound,same⟩ := List.getElem?_eq_some_iff.mp place
        rw [← same,← componentOf_eq_iff closed bound,← here,componentOf_eq_componentOf closed inside]

/-- The depth of a node is the length of a longest path of the condensation that starts at its component. -/
theorem isGreatest_depthOf (closed : g.Closed) (inside : v < g.size) : IsGreatest (g.descents v) (g.depthOf v) :=
  isGreatest_sweep closed (List.append_nil _).symm v inside (componentOf_spec closed inside).1

example : (List.range 4).map (grown ringed).depthOf = [2,1,1,0] := by decide

theorem depthOf_congr (closed : g.Closed) (inside : v < g.size) (both : g.Mutual v w) : g.depthOf w = g.depthOf v := by
  rw [depthOf,depthOf,(componentOf_eq_componentOf closed inside).mpr both]

/-- Exactly the components that no edge leaves have depth 0. -/
theorem depthOf_eq_zero (closed : g.Closed) (inside : v < g.size) :
    g.depthOf v = 0 ↔ ∀ u, g.Mutual v u → ∀ w ∈ g.successors u, g.Mutual v w := by
  obtain ⟨path,longest⟩ := isGreatest_depthOf closed inside
  constructor
  · intro none u here w edge
    by_contra apart
    have step : g.Descends v w := ⟨apart,u,w,here,edge,.refl,.refl⟩
    have length := longest (succ_mem_descents.mpr ⟨w,step,zero_mem_descents⟩)
    omega
  · intro stays
    by_contra some
    obtain ⟨n,positive⟩ := Nat.exists_eq_succ_of_ne_zero some
    rw [positive] at path
    obtain ⟨w,⟨apart,u,x,here,edge,there⟩,-⟩ := succ_mem_descents.mp path
    exact apart ((stays u here x edge).trans there)

theorem depthOf_lt_size (closed : g.Closed) (inside : v < g.size) : g.depthOf v < g.size := by
  have path := le_componentOf closed inside (isGreatest_depthOf closed inside).1
  obtain ⟨bound,-⟩ := componentOf_spec closed inside
  have few : g.components.length ≤ g.components.flatten.length := by
    have sizes := List.length_le_sum_of_one_le (g.components.map List.length) fun size listed => ?_
    · rwa [List.length_map,← List.length_flatten] at sizes
    · obtain ⟨members,member,rfl⟩ := List.mem_map.mp listed
      exact List.length_pos_iff.mpr (components_ne_nil closed member)
  have all := (components_perm closed).length_eq
  rw [List.length_range] at all
  omega

end Depends.Graph
