import Depends.Proofs.Graph.Condensation
import Depends.Proofs.Graph.Growth

/-!
The search for a chain between two files. It discovers nodes in the order of their distance from the start: those in line
are at one distance or at the next one, and all nearer ones are discovered (`Searching`). So the search ends, the way
back over what nodes were discovered from ends, and what it lists is a shortest chain (`chain_shortest`).
-/
namespace Depends

/-- A search with nothing left to do: it has met its goal, or nobody is in line. -/
def ChainSearch.Ended (s : ChainSearch) : Prop := s.reached = true ∨ s.line = []

namespace Graph

variable {g : Graph} {source goal k left n v w : Nat} {todo : List Nat} {s : ChainSearch}

/-! ### Chains -/

/-- A list that leads from one item to another, each related to the next. -/
structure Joins {α : Type} (leads : α → α → Prop) (a b : α) (items : List α) : Prop where
  first : items.head? = some a
  last : items.getLast? = some b
  linked : items.IsChain leads

section Joins

variable {α β : Type} {leads : α → α → Prop} {a b c : α} {items : List α}

theorem Joins.single (leads : α → α → Prop) (a : α) : Joins leads a a [a] := ⟨rfl,rfl,.singleton a⟩

theorem Joins.snoc (joins : Joins leads a b items) (step : leads b c) : Joins leads a c (items ++ [c]) := by
  refine ⟨by simp [joins.first],List.getLast?_concat,List.isChain_append.mpr ⟨joins.linked,.singleton c,?_⟩⟩
  intro x final y only
  obtain rfl : b = x := Option.some.inj (joins.last.symm.trans final)
  obtain rfl : c = y := Option.some.inj only
  exact step

/-- The last item is the first one, or what stands before it leads to it. -/
theorem Joins.of_snoc (joins : Joins leads a b (items ++ [c])) :
    c = b ∧ (items = [] ∧ a = b ∨ ∃ m, Joins leads a m items ∧ leads m b) := by
  obtain ⟨first,last,linked⟩ := joins
  rw [List.getLast?_concat,Option.some.injEq] at last
  subst last
  refine ⟨rfl,?_⟩
  cases final : items.getLast? with
  | none =>
    obtain rfl := List.getLast?_eq_none_iff.mp final
    exact .inl ⟨rfl,(Option.some.inj first).symm⟩
  | some m =>
    obtain ⟨front,-,step⟩ := List.isChain_append.mp linked
    have start : items.head? = some a := by
      cases items with
      | nil => cases final
      | cons => exact first
    exact .inr ⟨m,⟨start,final,front⟩,step m final c rfl⟩

theorem Joins.map {leads' : β → β → Prop} (joins : Joins leads a b items) (f : α → β)
    (along : ∀ x y, leads x y → leads' (f x) (f y)) : Joins leads' (f a) (f b) (items.map f) :=
  ⟨by simp [joins.first],by simp [joins.last],List.isChain_map_of_isChain f along joins.linked⟩

end Joins

/-! ### Distances -/

/-- Edges lead from a node to another one in a number of steps. -/
inductive Leads (g : Graph) (v : Nat) : Nat → Nat → Prop where
  | here : Leads g v 0 v
  | step {n u w : Nat} (before : Leads g v n u) (edge : w ∈ g.successors u) : Leads g v (n + 1) w

/-- The numbers of steps in which edges lead from a node to another one. The least of them is the distance. -/
def distances (g : Graph) (v w : Nat) : Set Nat := { n | g.Leads v n w }

theorem reaches_iff_leads : g.Reaches v w ↔ ∃ n, g.Leads v n w := by
  constructor
  · intro path
    induction path with
    | refl => exact ⟨0,.here⟩
    | tail _ edge ih =>
      obtain ⟨n,before⟩ := ih
      exact ⟨n + 1,before.step edge⟩
  · rintro ⟨n,leads⟩
    induction leads with
    | here => exact .refl
    | step _ edge ih => exact ih.tail edge

theorem isLeast_distances_self : IsLeast (g.distances v v) 0 := ⟨.here,fun _ _ => Nat.zero_le _⟩

/-- A chain of files has one file more than it has steps. -/
theorem Joins.leads {origin target : String} {files : List String} {i j : Nat}
    (joins : Joins g.Linked origin target files) (start : g.find? origin = some i) (goal : g.find? target = some j) :
    ∃ n, g.Leads i n j ∧ files.length = n + 1 := by
  induction files using List.reverseRecOn generalizing target j with
  | nil => cases joins.first
  | append_singleton files file ih =>
    obtain ⟨rfl,⟨rfl,rfl⟩ | ⟨between,front,link⟩⟩ := joins.of_snoc
    · obtain rfl : i = j := Option.some.inj (start.symm.trans goal)
      exact ⟨0,.here,rfl⟩
    · obtain ⟨v,w,first,second,edge⟩ := link
      obtain rfl : w = j := Option.some.inj (second.symm.trans goal)
      obtain ⟨n,before,length⟩ := ih front first
      exact ⟨n + 1,before.step (List.contains_iff_mem.mp edge),by simp [length]⟩

/-! ### What is discovered -/

/-- What a search knows of the nodes that it discovered: each has a distance from the start, below their number, and each
but the start was discovered over an edge from one that is a step nearer. -/
structure Charted (g : Graph) (source : Nat) (s : ChainSearch) : Prop where
  start : source ∈ s.seen
  distinct : s.seen.Nodup
  inside : ∀ w ∈ s.seen, w < g.size
  near : ∀ w ∈ s.seen, ∃ n < s.seen.length, IsLeast (g.distances source w) n
  noted : ∀ w ∈ s.seen, w ≠ source → ∃ u ∈ s.seen, s.origins.lookup w = some u ∧ w ∈ g.successors u ∧
    ∃ n, IsLeast (g.distances source u) n ∧ IsLeast (g.distances source w) (n + 1)

theorem Charted.discover (charted : g.Charted source s) (known : v ∈ s.seen) (new : w ∉ s.seen)
    (edge : w ∈ g.successors v) (inside : w < g.size) (nearer : IsLeast (g.distances source v) k)
    (distance : IsLeast (g.distances source w) (k + 1)) (line : List Nat) (reached : Bool) :
    g.Charted source ⟨line,s.seen ++ [w],(w,v) :: s.origins,reached⟩ := by
  have cases : ∀ {u}, u ∈ s.seen ++ [w] → u ∈ s.seen ∨ u = w := fun member => by simpa using member
  have more : ∀ n ≤ s.seen.length, n < (s.seen ++ [w]).length := fun n few => by
    simpa using Nat.lt_succ_of_le few
  refine ⟨List.mem_append_left _ charted.start,charted.distinct.append (List.nodup_singleton w)
    (List.disjoint_singleton.mpr new),?_,?_,?_⟩
  · intro u member
    rcases cases member with old | rfl
    · exact charted.inside u old
    · exact inside
  · intro u member
    rcases cases member with old | rfl
    · obtain ⟨n,few,least⟩ := charted.near u old
      exact ⟨n,more n few.le,least⟩
    · obtain ⟨n,few,least⟩ := charted.near v known
      obtain rfl := least.unique nearer
      exact ⟨n + 1,more (n + 1) few,distance⟩
  · intro u member other
    rcases cases member with old | rfl
    · obtain ⟨origin,listed,found,edge,steps⟩ := charted.noted u old other
      have different : u ≠ w := fun same => new (same ▸ old)
      refine ⟨origin,List.mem_append_left _ listed,?_,edge,steps⟩
      rw [List.lookup_cons,beq_eq_false_iff_ne.mpr different]
      exact found
    · exact ⟨v,List.mem_append_left _ known,by simp,edge,k,nearer,distance⟩

/-- The way back from a discovered node ends, and it has as many steps as the node is away. -/
theorem Charted.wayTo? (charted : g.Charted source s) :
    ∀ {n fuel v : Nat}, v ∈ s.seen → IsLeast (g.distances source v) n → n < fuel →
      ∃ nodes, s.wayTo? source fuel v = some nodes ∧ Joins (fun v w => w ∈ g.successors v) source v nodes ∧
        nodes.length = n + 1 ∧ nodes.Nodup ∧ ∀ u ∈ nodes, ∃ m ≤ n, IsLeast (g.distances source u) m := by
  intro n
  induction n with
  | zero =>
    intro fuel v known least enough
    obtain ⟨fuel,rfl⟩ := Nat.exists_eq_succ_of_ne_zero (Nat.ne_of_gt enough)
    obtain rfl : v = source := by
      cases least.1
      rfl
    exact ⟨[v],by simp [ChainSearch.wayTo?],.single _ v,rfl,List.nodup_singleton v,by simpa using least⟩
  | succ n ih =>
    intro fuel v known least enough
    obtain ⟨fuel,rfl⟩ := Nat.exists_eq_succ_of_ne_zero (Nat.ne_of_gt (Nat.zero_lt_of_lt enough))
    have other : v ≠ source := by
      rintro rfl
      cases least.unique isLeast_distances_self
    obtain ⟨u,listed,found,edge,m,nearer,farther⟩ := charted.noted v known other
    obtain rfl : m = n := Nat.succ.inj (farther.unique least)
    obtain ⟨nodes,way,joins,length,distinct,near⟩ := ih listed nearer (Nat.lt_of_succ_lt_succ enough)
    refine ⟨nodes ++ [v],by simp [ChainSearch.wayTo?,other,found,way],joins.snoc edge,by simp [length],?_,?_⟩
    · -- All nodes before are nearer.
      refine distinct.append (List.nodup_singleton v) (List.disjoint_singleton.mpr fun member => ?_)
      obtain ⟨l,below,nearest⟩ := near v member
      have same := nearest.unique least
      omega
    · intro x member
      rcases List.mem_append.mp member with before | only
      · obtain ⟨l,below,nearest⟩ := near x before
        exact ⟨l,by omega,nearest⟩
      · rw [List.mem_singleton.mp only]
        exact ⟨m + 1,Nat.le_refl _,least⟩

/-! ### The search under way -/

/-- The nodes are at one distance from the start and, behind those, at the next one. -/
def Layered (g : Graph) (source k : Nat) (line : List Nat) : Prop :=
  ∃ front back, line = front ++ back ∧ (∀ w ∈ front, IsLeast (g.distances source w) k) ∧
    ∀ w ∈ back, IsLeast (g.distances source w) (k + 1)

theorem Layered.le {line : List Nat} (layered : g.Layered source k line) (member : w ∈ line)
    (leads : g.Leads source n w) : k ≤ n := by
  obtain ⟨front,back,rfl,first,second⟩ := layered
  rcases List.mem_append.mp member with near | far
  · exact (first w near).2 leads
  · exact Nat.le_of_succ_le ((second w far).2 leads)

theorem Layered.snoc {line : List Nat} (layered : g.Layered source k line)
    (least : IsLeast (g.distances source w) (k + 1)) : g.Layered source k (line ++ [w]) := by
  obtain ⟨front,back,rfl,first,second⟩ := layered
  refine ⟨front,back ++ [w],List.append_assoc ..,first,fun u member => ?_⟩
  rcases List.mem_append.mp member with before | only
  · exact second u before
  · exact List.mem_singleton.mp only ▸ least

/-- The first node is at the distance of the line, or it opens the next one. -/
theorem Layered.uncons {line : List Nat} (layered : g.Layered source k (v :: line)) :
    ∃ k', IsLeast (g.distances source v) k' ∧ g.Layered source k' line := by
  obtain ⟨front,back,split,first,second⟩ := layered
  cases front with
  | nil =>
    rw [List.nil_append] at split
    rw [← split,List.forall_mem_cons] at second
    exact ⟨k + 1,second.1,line,[],(List.append_nil _).symm,second.2,fun _ none => nomatch none⟩
  | cons u front =>
    obtain ⟨rfl,rest⟩ := List.cons.inj split
    rw [List.forall_mem_cons] at first
    exact ⟨k,first.1,front,back,rest,first.2,second⟩

/-- A search that has not met its goal and has left a number of nodes; the edges of one node to some others are still to be
followed. What stands in line is at one distance or, behind that, at the next one, and an edge that was followed leads to
a discovered node. -/
structure Searching (g : Graph) (source goal k left v : Nat) (todo : List Nat) (s : ChainSearch) : Prop
    extends Charted g source s where
  going : s.reached = false
  sought : goal ∉ s.seen
  listed : ∀ w ∈ s.line, w ∈ s.seen
  layered : g.Layered source k s.line
  turn : ∀ w ∈ todo, v ∈ s.seen ∧ w ∈ g.successors v ∧ IsLeast (g.distances source v) k
  settled : ∀ u ∈ s.seen, ∀ w ∈ g.successors u, w ∈ s.seen ∨ u ∈ s.line ∨ u = v ∧ w ∈ todo
  counted : s.seen.length = left + s.line.length

/-- A search that has met its goal. -/
structure Found (g : Graph) (source goal : Nat) (s : ChainSearch) : Prop extends Charted g source s where
  reached : s.reached = true
  met : goal ∈ s.seen

theorem Searching.begin (inside : source < g.size) (different : source ≠ goal) :
    g.Searching source goal 0 0 source [] (.start source) where
  start := List.mem_singleton_self _
  distinct := List.nodup_singleton _
  inside w member := List.mem_singleton.mp member ▸ inside
  near w member := ⟨0,by simp [ChainSearch.start],List.mem_singleton.mp member ▸ isLeast_distances_self⟩
  noted w member other := absurd (List.mem_singleton.mp member) other
  going := rfl
  sought member := different (List.mem_singleton.mp member).symm
  listed w member := member
  layered := ⟨[source],[],rfl,by simpa using isLeast_distances_self,by simp⟩
  turn w none := nomatch none
  settled u member w edge := .inr (.inl member)
  counted := rfl

/-- Everything that is no farther than the nodes in line is discovered. -/
theorem Searching.seen_of_leads (searching : g.Searching source goal k left v todo s) {m : Nat}
    (leads : g.Leads source m w) (near : m ≤ k) : w ∈ s.seen := by
  induction leads with
  | here => exact searching.start
  | @step n u w before edge ih =>
    -- The node before it is too near to stand in line or to be the one whose edges are being followed.
    rcases searching.settled u (ih (by omega)) w edge with seen | line | ⟨rfl,member⟩
    · exact seen
    · have far := searching.layered.le line before
      omega
    · have far : k ≤ n := (searching.turn w member).2.2.2 before
      omega

/-- A node that is discovered now is one step farther than the one that it is discovered from. -/
theorem Searching.isLeast_new (searching : g.Searching source goal k left v todo s) (member : w ∈ todo)
    (new : w ∉ s.seen) : IsLeast (g.distances source w) (k + 1) := by
  obtain ⟨-,edge,least⟩ := searching.turn w member
  refine ⟨Leads.step least.1 edge,fun m leads => ?_⟩
  by_contra nearer
  exact new (searching.seen_of_leads leads (by omega))

/-! ### Following edges -/

theorem follow_seen (known : w ∈ s.seen) : s.follow goal v w = s := by
  simp [ChainSearch.follow,known]

theorem follow_reached (finished : s.reached = true) : s.follow goal v w = s := by
  simp [ChainSearch.follow,finished]

theorem follow_new (going : s.reached = false) (new : w ∉ s.seen) :
    s.follow goal v w =
      ⟨if w = goal then s.line else s.line ++ [w],s.seen ++ [w],(w,v) :: s.origins,w == goal⟩ := by
  simp [ChainSearch.follow,going,new]

theorem foldl_follow_reached (finished : s.reached = true) : todo.foldl (ChainSearch.follow goal v) s = s := by
  induction todo with
  | nil => rfl
  | cons w todo ih => rw [List.foldl_cons,follow_reached finished,ih]

theorem Searching.skip (searching : g.Searching source goal k left v (w :: todo) s) (known : w ∈ s.seen) :
    g.Searching source goal k left v todo s where
  toCharted := searching.toCharted
  going := searching.going
  sought := searching.sought
  listed := searching.listed
  layered := searching.layered
  turn u member := searching.turn u (List.mem_cons_of_mem _ member)
  settled u member x edge := by
    rcases searching.settled u member x edge with seen | line | ⟨rfl,listed⟩
    · exact .inl seen
    · exact .inr (.inl line)
    · rcases List.mem_cons.mp listed with rfl | later
      · exact .inl known
      · exact .inr (.inr ⟨rfl,later⟩)
  counted := searching.counted

theorem Searching.enter (closed : g.Closed) (searching : g.Searching source goal k left v (w :: todo) s)
    (new : w ∉ s.seen) (other : w ≠ goal) :
    g.Searching source goal k left v todo ⟨s.line ++ [w],s.seen ++ [w],(w,v) :: s.origins,false⟩ := by
  obtain ⟨known,edge,nearer⟩ := searching.turn w (List.mem_cons_self ..)
  have distance := searching.isLeast_new (List.mem_cons_self ..) new
  exact
    { toCharted := searching.discover known new edge (closed v w edge) nearer distance _ _
      going := rfl
      sought := by simpa using ⟨searching.sought,Ne.symm other⟩
      listed := by
        intro u member
        rcases List.mem_append.mp member with before | only
        · exact List.mem_append_left _ (searching.listed u before)
        · exact List.mem_append_right _ only
      layered := searching.layered.snoc distance
      turn := by
        intro u member
        obtain ⟨seen,rest⟩ := searching.turn u (List.mem_cons_of_mem _ member)
        exact ⟨List.mem_append_left _ seen,rest⟩
      settled := by
        intro u member x edge
        rcases List.mem_append.mp member with before | only
        · rcases searching.settled u before x edge with seen | line | ⟨rfl,listed⟩
          · exact .inl (List.mem_append_left _ seen)
          · exact .inr (.inl (List.mem_append_left _ line))
          · rcases List.mem_cons.mp listed with rfl | later
            · exact .inl (List.mem_append_right _ (List.mem_singleton_self _))
            · exact .inr (.inr ⟨rfl,later⟩)
        · exact .inr (.inl (List.mem_append_right _ only))
      counted := by
        have before := searching.counted
        simp only [List.length_append,List.length_singleton]
        omega }

theorem Searching.meet (closed : g.Closed) (searching : g.Searching source goal k left v (goal :: todo) s) :
    g.Found source goal ⟨s.line,s.seen ++ [goal],(goal,v) :: s.origins,true⟩ := by
  obtain ⟨known,edge,nearer⟩ := searching.turn goal (List.mem_cons_self ..)
  have distance := searching.isLeast_new (List.mem_cons_self ..) searching.sought
  exact
    { toCharted := searching.discover known searching.sought edge (closed v goal edge) nearer distance _ _
      reached := rfl
      met := List.mem_append_right _ (List.mem_singleton_self _) }

/-- One edge leads to the goal, or the search goes on. -/
theorem Searching.follow (closed : g.Closed) (searching : g.Searching source goal k left v (w :: todo) s) :
    g.Found source goal (s.follow goal v w) ∨ g.Searching source goal k left v todo (s.follow goal v w) := by
  by_cases known : w ∈ s.seen
  · rw [follow_seen known]
    exact .inr (searching.skip known)
  · rw [follow_new searching.going known]
    by_cases last : w = goal
    · subst last
      rw [if_pos rfl,beq_self_eq_true]
      exact .inl (searching.meet closed)
    · rw [if_neg last,beq_eq_false_iff_ne.mpr last]
      exact .inr (searching.enter closed known last)

theorem Searching.followAll (closed : g.Closed) (searching : g.Searching source goal k left v todo s) :
    g.Found source goal (todo.foldl (ChainSearch.follow goal v) s) ∨
      g.Searching source goal k left v [] (todo.foldl (ChainSearch.follow goal v) s) := by
  induction todo generalizing s with
  | nil => exact .inr searching
  | cons w todo ih =>
    rw [List.foldl_cons]
    rcases searching.follow closed with found | going
    · rw [foldl_follow_reached found.reached]
      exact .inl found
    · exact ih going

/-! ### Rounds -/

/-- The first node in line is left. -/
theorem Searching.leave {u : Nat} {line : List Nat} (searching : g.Searching source goal k left v [] s)
    (split : s.line = u :: line) :
    ∃ k', g.Searching source goal k' (left + 1) u (g.successors u) { s with line } := by
  obtain ⟨k',least,layered⟩ := (split ▸ searching.layered).uncons
  have known : u ∈ s.seen := searching.listed u (by simp [split])
  refine ⟨k',⟨⟨searching.start,searching.distinct,searching.inside,searching.near,searching.noted⟩,
    searching.going,searching.sought,?_,layered,fun w edge => ⟨known,edge,least⟩,?_,?_⟩⟩
  · intro w member
    exact searching.listed w (by simpa [split] using .inr member)
  · intro x member w edge
    rcases searching.settled x member w edge with seen | line | ⟨-,none⟩
    · exact .inl seen
    · rw [split] at line
      rcases List.mem_cons.mp line with rfl | later
      · exact .inr (.inr ⟨rfl,edge⟩)
      · exact .inr (.inl later)
    · cases none
  · have before := searching.counted
    rw [split,List.length_cons] at before
    change s.seen.length = left + 1 + line.length
    omega

theorem advance_reached (finished : s.reached = true) : s.advance g goal = s := by
  simp [ChainSearch.advance,finished]

theorem advance_nobody (finished : s.line = []) : s.advance g goal = s := by
  simp [ChainSearch.advance,finished]

/-- A round leaves one more node, and it meets the goal or the search goes on. -/
theorem Searching.advance (closed : g.Closed) (searching : g.Searching source goal k left v [] s)
    (waiting : s.line ≠ []) :
    g.Found source goal (s.advance g goal) ∨
      ∃ k' u, g.Searching source goal k' (left + 1) u [] (s.advance g goal) := by
  obtain ⟨u,rest,line⟩ := List.exists_cons_of_ne_nil waiting
  obtain ⟨k',leaving⟩ := searching.leave line
  have round : s.advance g goal = (g.successors u).foldl (ChainSearch.follow goal u) { s with line := rest } := by
    simp [ChainSearch.advance,line,searching.going]
  rw [round]
  rcases leaving.followAll closed with found | going
  · exact .inl found
  · exact .inr ⟨k',u,going⟩

/-- After some rounds the goal is met, or nobody is in line, or as many nodes have been left. -/
theorem searching_rounds (closed : g.Closed) (inside : source < g.size) (different : source ≠ goal) (rounds : Nat) :
    let s := Nat.repeat (ChainSearch.advance g goal) rounds (.start source)
    g.Found source goal s ∨ ∃ k left v, g.Searching source goal k left v [] s ∧ (s.line = [] ∨ left = rounds) := by
  induction rounds with
  | zero => exact .inr ⟨0,0,source,.begin inside different,.inr rfl⟩
  | succ rounds ih =>
    simp only [Nat.repeat]
    generalize Nat.repeat (ChainSearch.advance g goal) rounds (.start source) = s at ih
    rcases ih with found | ⟨k,left,v,searching,progress⟩
    · rw [advance_reached found.reached]
      exact .inl found
    · by_cases finished : s.line = []
      · rw [advance_nobody finished]
        exact .inr ⟨k,left,v,searching,.inl finished⟩
      · obtain rfl := progress.resolve_left finished
        rcases searching.advance closed finished with found | ⟨k',u,further⟩
        · exact .inl found
        · exact .inr ⟨k',left + 1,u,further,.inr rfl⟩

/-- The search ends: it has met the goal, or nobody is in line and no edges lead to the goal. -/
theorem search_ends (closed : g.Closed) (inside : source < g.size) (different : source ≠ goal) :
    g.Found source goal (g.search source goal) ∨
      (g.search source goal).reached = false ∧ (g.search source goal).line = [] ∧ ¬ g.Reaches source goal := by
  rcases searching_rounds closed inside different g.size with found | ⟨k,left,v,searching,progress⟩
  · exact .inl found
  · have finished : (g.search source goal).line = [] := by
      rcases progress with finished | all
      · exact finished
      · have few := length_le_size searching.distinct searching.inside
        have counted := searching.counted
        exact List.length_eq_zero_iff.mp (by rw [search]; omega)
    refine .inr ⟨searching.going,finished,fun path => searching.sought ?_⟩
    refine path.mem_of_closed (fun u member w edge => ?_) searching.start
    rcases searching.settled u member w edge with seen | line | ⟨-,none⟩
    · exact seen
    · exact absurd line (finished ▸ List.not_mem_nil)
    · cases none

/-! ### Chains of nodes -/

/-- The nodes of a shortest chain, each of them once. -/
structure Shortest (g : Graph) (source target : Nat) (nodes : List Nat) : Prop where
  joins : Joins (fun v w => w ∈ g.successors v) source target nodes
  distinct : nodes.Nodup
  inside : ∀ v ∈ nodes, v < g.size
  least : ∃ n, nodes.length = n + 1 ∧ IsLeast (g.distances source target) n

theorem Found.wayTo? (closed : g.Closed) (inside : source < g.size) (found : g.Found source goal s) :
    ∃ nodes, s.wayTo? source g.size goal = some nodes ∧ g.Shortest source goal nodes := by
  obtain ⟨n,few,least⟩ := found.near goal found.met
  have enough : n < g.size := Nat.lt_of_lt_of_le few (length_le_size found.distinct found.inside)
  obtain ⟨nodes,way,joins,length,distinct,near⟩ := found.toCharted.wayTo? found.met least enough
  refine ⟨nodes,way,joins,distinct,fun v member => ?_,n,length,least⟩
  obtain ⟨m,-,nearest⟩ := near v member
  exact (reaches_iff_leads.mpr ⟨m,nearest.1⟩).lt_size closed inside

/-- A chain is found between two nodes exactly when edges lead from one to the other, and it is a shortest one. -/
theorem chainNodes?_cases (closed : g.Closed) (inside : source < g.size) :
    ¬ g.Reaches source goal ∧ g.chainNodes? source goal = none ∨
      g.Reaches source goal ∧ ∃ nodes, g.chainNodes? source goal = some nodes ∧ g.Shortest source goal nodes := by
  unfold chainNodes?
  by_cases same : source = goal
  · subst same
    rw [if_pos rfl]
    exact .inr ⟨.refl,[source],rfl,.single _ source,List.nodup_singleton _,by simpa using inside,0,rfl,
      isLeast_distances_self⟩
  · rw [if_neg same]
    rcases search_ends closed inside same with found | ⟨going,-,apart⟩
    · obtain ⟨nodes,way,shortest⟩ := found.wayTo? closed inside
      obtain ⟨n,-,least⟩ := shortest.least
      simp only [found.reached,if_true]
      exact .inr ⟨reaches_iff_leads.mpr ⟨n,least.1⟩,nodes,way,shortest⟩
    · simp only [going]
      exact .inl ⟨apart,rfl⟩

/-! ### Chains of files -/

theorem Shortest.files (proper : g.Proper) {nodes : List Nat} {origin target : String} {i j : Nat}
    (shortest : g.Shortest i j nodes) (start : g.find? origin = some i) (goal : g.find? target = some j) :
    Joins g.Linked origin target (nodes.map g.pathOf) ∧ (nodes.map g.pathOf).Nodup ∧
      ∀ files, Joins g.Linked origin target files → (nodes.map g.pathOf).length ≤ files.length := by
  refine ⟨?_,?_,?_⟩
  · have links : Joins g.Linked (g.pathOf i) (g.pathOf j) (nodes.map g.pathOf) :=
      shortest.joins.map g.pathOf fun v w edge =>
        linked_of_successor proper.paths edge (pathAt?_eq_pathOf (lt_size_of_successor edge))
          (pathAt?_eq_pathOf (proper.closed v w edge))
    rwa [pathOf_eq start,pathOf_eq goal] at links
  · exact shortest.distinct.map_on fun v member w member' same =>
      pathOf_injective proper.paths (shortest.inside v member) (shortest.inside w member') same
  · intro files joins
    obtain ⟨n,length,least⟩ := shortest.least
    obtain ⟨m,leads,length'⟩ := joins.leads start goal
    have shorter : n ≤ m := least.2 leads
    rw [List.length_map]
    omega

/-- What is found between two files of a proper graph. -/
theorem Proper.chain?_cases (proper : g.Proper) {origin target : String} {i j : Nat} (start : g.find? origin = some i)
    (goal : g.find? target = some j) :
    ¬ Relation.ReflTransGen g.Linked origin target ∧ g.chain? origin target = none ∨
      Relation.ReflTransGen g.Linked origin target ∧
        ∃ nodes, g.chain? origin target = some (nodes.map g.pathOf) ∧ g.Shortest i j nodes := by
  rw [← reaches_iff_links proper.paths start goal]
  have found : g.chain? origin target = (g.chainNodes? i j).map (·.map g.pathOf) := by
    simp only [chain?,start,goal,Option.bind_eq_bind,Option.bind_some,Option.pure_def,Option.map_eq_bind,
      Function.comp_def]
  rcases chainNodes?_cases proper.closed (find?_lt start) with ⟨apart,none⟩ | ⟨path,nodes,some,shortest⟩
  · exact .inl ⟨apart,by rw [found,none,Option.map_none]⟩
  · exact .inr ⟨path,nodes,by rw [found,some,Option.map_some],shortest⟩

theorem chain?_nodes {origin target : String} {files : List String} (found : g.chain? origin target = some files) :
    ∃ i j, g.find? origin = some i ∧ g.find? target = some j := by
  simp only [chain?,Option.bind_eq_bind,Option.bind_eq_some_iff] at found
  obtain ⟨i,start,j,goal,-⟩ := found
  exact ⟨i,j,start,goal⟩

/-- In every grown graph a chain is found between two files exactly when both are nodes and links lead from one to the
other. It starts with the one and ends with the other, each file is linked to the next, none comes twice, and no chain
between the two is shorter. The search ends within as many rounds as there are nodes, and once the goal is met, so does
the way back. -/
theorem chain_shortest (additions : List Addition) (source target : String) :
    let g := grown additions
    ((∃ files, g.chain? source target = some files) ↔
        source ∈ g.nodes.map (·.path) ∧ target ∈ g.nodes.map (·.path) ∧
          Relation.ReflTransGen g.Linked source target) ∧
      (∀ files, g.chain? source target = some files →
        Joins g.Linked source target files ∧ files.Nodup ∧
          ∀ other, Joins g.Linked source target other → files.length ≤ other.length) ∧
      ∀ i j, g.find? source = some i → g.find? target = some j → i ≠ j →
        (g.search i j).Ended ∧
          ((g.search i j).reached = true → ∃ nodes, (g.search i j).wayTo? i g.size j = some nodes) := by
  intro g
  have proper : g.Proper := grown_proper additions
  refine ⟨?_,?_,?_⟩
  · rw [← find?_isSome_iff,← find?_isSome_iff]
    constructor
    · rintro ⟨files,found⟩
      obtain ⟨i,j,start,goal⟩ := chain?_nodes found
      rcases proper.chain?_cases start goal with ⟨-,none⟩ | ⟨path,-⟩
      · cases none.symm.trans found
      · exact ⟨by simp [start],by simp [goal],path⟩
    · rintro ⟨known,known',path⟩
      obtain ⟨i,start⟩ := Option.isSome_iff_exists.mp known
      obtain ⟨j,goal⟩ := Option.isSome_iff_exists.mp known'
      rcases proper.chain?_cases start goal with ⟨apart,-⟩ | ⟨-,nodes,found,-⟩
      · exact absurd path apart
      · exact ⟨_,found⟩
  · intro files found
    obtain ⟨i,j,start,goal⟩ := chain?_nodes found
    rcases proper.chain?_cases start goal with ⟨-,none⟩ | ⟨-,nodes,some,shortest⟩
    · cases none.symm.trans found
    · obtain rfl := Option.some.inj (some.symm.trans found)
      exact shortest.files proper start goal
  · intro i j start goal different
    rcases search_ends proper.closed (find?_lt start) different with found | ⟨going,finished,-⟩
    · obtain ⟨nodes,way,-⟩ := found.wayTo? proper.closed (find?_lt start)
      exact ⟨.inl found.reached,fun _ => ⟨nodes,way⟩⟩
    · exact ⟨.inr finished,fun reached => nomatch going.symm.trans reached⟩

end Graph

end Depends
