import Depends.Semi.Stream

/-!
Where semi-expressions stand. Reading starts on line 1 and never goes back, so both lines of a semi-expression are
positive (`semis_placed`), it does not end before the line where it begins, and the next one does not begin before
the line where it ends (`semis_ordered`).
-/
namespace Depends

/-- A semi-expression of a file, with lines that a file has. -/
structure Semi.Placed (path : String) (semi : Semi) : Prop where
  path : semi.path = path
  start : semi.start ≠ 0
  line : semi.line ≠ 0

/-- Semi-expressions one after the other: each begins on or after a first line and ends on or after the line where
it begins, and none begins before an earlier one has ended. -/
structure Semi.Ordered (first : Int) (units : List Semi) : Prop where
  begins : ∀ unit ∈ units, first ≤ unit.start
  ends : ∀ unit ∈ units, unit.start ≤ unit.line
  pairwise : units.Pairwise fun earlier later => earlier.line ≤ later.start

namespace Semi.Ordered

variable {first : Int} {units : List Semi} {i j : Nat} {unit : Semi}

theorem line_le {later : Semi} (ordered : Semi.Ordered first units) (here : units[i]? = some unit)
    (there : units[j]? = some later) (le : i ≤ j) : unit.line ≤ later.line := by
  rcases Nat.lt_or_eq_of_le le with behind | rfl
  · obtain ⟨inside,rfl⟩ := List.getElem?_eq_some_iff.mp here
    obtain ⟨within,rfl⟩ := List.getElem?_eq_some_iff.mp there
    have apart := List.pairwise_iff_getElem.mp ordered.pairwise i j inside within behind
    exact Int.le_trans apart (ordered.ends _ (List.getElem_mem within))
  · exact Int.le_of_eq (congrArg Semi.line (Option.some.inj (here.symm.trans there)))

theorem line_le_last {last : Semi} (ordered : Semi.Ordered first units) (here : units[i]? = some unit)
    (final : units.getLast? = some last) : unit.line ≤ last.line := by
  have inside : i < units.length := (List.getElem?_eq_some_iff.mp here).1
  rw [List.getLast?_eq_getElem?] at final
  exact ordered.line_le here final (by omega)

end Semi.Ordered

theorem nextToken_line_le (lex : Lexicon) (cs : List Char) (line : Nat) :
    line ≤ (nextToken lex cs line).2.line ∧
      ∀ token ∈ (nextToken lex cs line).1, line ≤ token.line ∧ token.line ≤ (nextToken lex cs line).2.line := by
  fun_induction nextToken lex cs line with
  | case1 line => simp
  | case2 c cs line piece after skips ih =>
    have later : line ≤ after := Nat.le_add_right ..
    refine ⟨Nat.le_trans later ih.1,fun token found => ?_⟩
    obtain ⟨low,high⟩ := ih.2 token found
    exact ⟨Nat.le_trans later low,high⟩
  | case3 c cs line piece after keeps =>
    refine ⟨Nat.le_add_right ..,fun token found => ?_⟩
    obtain rfl := Option.mem_some.mp found
    exact ⟨Nat.le_refl line,Nat.le_add_right ..⟩

namespace Gathering

variable {first : Nat} {unit : Gathering}

/-- The lines of a unit: the present one, and the first one once there is a token. -/
structure Lined (first : Nat) (unit : Gathering) : Prop where
  line : first ≤ unit.line
  start : unit.tokens ≠ [] → first ≤ unit.start ∧ unit.start ≤ unit.line

theorem add_line (unit : Gathering) (token : Token) : (unit.add token).line = token.line := by
  unfold Gathering.add
  split <;> split <;> rfl

/-- The first word gives a unit the line where it starts. -/
theorem add_start (unit : Gathering) (token : Token) :
    (unit.add token).start =
      if token.kind ≠ .newline ∧ unit.tokens = [] then token.line else unit.start := by
  by_cases newline : token.kind = .newline
  · simp [Gathering.add,newline]
  · simp only [Gathering.add,newline,↓reduceIte,ne_eq,not_false_eq_true,true_and,List.isEmpty_iff]
    split <;> rfl

theorem Lined.add (lined : unit.Lined first) {token : Token} (later : unit.line ≤ token.line) :
    (unit.add token).Lined first ∧ (unit.add token).line = token.line := by
  have line := add_line unit token
  have reached : first ≤ token.line := Nat.le_trans lined.line later
  refine ⟨⟨line ▸ reached,fun filled => ?_⟩,line⟩
  rw [line]
  have earlier : unit.tokens ≠ [] → first ≤ unit.start ∧ unit.start ≤ token.line := by
    intro present
    obtain ⟨low,high⟩ := lined.start present
    exact ⟨low,Nat.le_trans high later⟩
  by_cases newline : token.kind = .newline
  · have same : (unit.add token).tokens = unit.tokens := by simp [Gathering.add,newline]
    rw [same] at filled
    rw [add_start,if_neg (by simp [newline])]
    exact earlier filled
  · rw [add_start]
    split
    · exact ⟨reached,Nat.le_refl _⟩
    · rename_i some
      exact earlier fun empty => some ⟨newline,empty⟩

end Gathering

/-- Reading a unit keeps its lines in order and ends on or after its last line. -/
theorem gather_lined {first : Nat} (lex : Lexicon) (unit : Gathering) (cs : List Char) (line : Nat)
    (lined : unit.Lined first) (reached : unit.line ≤ line) :
    (gather lex unit cs line).unit.Lined first ∧
      (gather lex unit cs line).unit.line ≤ (gather lex unit cs line).place.line := by
  fun_induction gather lex unit cs line with
  | case1 unit cs line place found =>
    have later := (nextToken_line_le lex cs line).1
    rw [found] at later
    exact ⟨lined,Nat.le_trans reached later⟩
  | case2 unit cs line token place found _ ih =>
    have later := (nextToken_line_le lex cs line).1
    rw [found] at later
    exact ih lined (Nat.le_trans reached later)
  | case3 unit cs line token place found _ added _ ih =>
    have later := nextToken_line_le lex cs line
    rw [found] at later
    obtain ⟨low,high⟩ := later.2 token rfl
    obtain ⟨kept,at_token⟩ := lined.add (Nat.le_trans reached low)
    exact ih ⟨kept.line,kept.start⟩ (at_token ▸ high)
  | case4 unit cs line token place found _ added =>
    have later := nextToken_line_le lex cs line
    rw [found] at later
    obtain ⟨low,high⟩ := later.2 token rfl
    obtain ⟨kept,at_token⟩ := lined.add (Nat.le_trans reached low)
    exact ⟨kept,at_token ▸ high⟩
  | case5 unit cs line token place found _ added _ _ ih =>
    have later := nextToken_line_le lex cs line
    rw [found] at later
    obtain ⟨low,high⟩ := later.2 token rfl
    obtain ⟨kept,at_token⟩ := lined.add (Nat.le_trans reached low)
    exact ih kept (at_token ▸ high)

theorem semiReads_ordered (lex : Lexicon) (path : String) (cs : List Char) (line : Nat) :
    Semi.Ordered line ((semiReads lex path cs line).1.map (·.semi)) := by
  fun_induction semiReads lex path cs line with
  | case1 => exact ⟨by simp,by simp,.nil⟩
  | case2 cs line result read filled more last rest ih =>
    obtain ⟨lined,after⟩ := gather_lined lex { line } cs line ⟨Nat.le_refl line,fun absent => absurd rfl absent⟩
      (Nat.le_refl line)
    obtain ⟨low,high⟩ := lined.start filled
    rw [rest] at ih
    -- What comes later begins where this one left off.
    have later : ∀ unit ∈ more.map (·.semi), read.semi.line ≤ unit.start := by
      intro unit member
      exact Int.le_trans (Int.ofNat_le.mpr after) (ih.begins unit member)
    have here : read.semi.start ≤ read.semi.line := Int.ofNat_le.mpr high
    have beginning : (line : Int) ≤ read.semi.start := Int.ofNat_le.mpr low
    rw [List.map_cons]
    refine ⟨?_,?_,List.pairwise_cons.mpr ⟨later,ih.pairwise⟩⟩
    · rw [List.forall_mem_cons]
      refine ⟨beginning,fun unit member => ?_⟩
      exact Int.le_trans beginning (Int.le_trans here (later unit member))
    · rw [List.forall_mem_cons]
      exact ⟨here,ih.ends⟩

/-- The semi-expressions of a text stand one after the other, from line 1 on. -/
theorem semis_ordered (lex : Lexicon) (path : String) (text : List Char) : Semi.Ordered 1 (semis lex path text) :=
  semiReads_ordered lex path (normalizeLines text) 1

theorem semiReads_path (lex : Lexicon) (path : String) (cs : List Char) (line : Nat) :
    ∀ read ∈ (semiReads lex path cs line).1, read.semi.path = path := by
  fun_induction semiReads lex path cs line with
  | case1 => simp
  | case2 cs line result read filled more last rest ih =>
    rw [rest] at ih
    rw [List.forall_mem_cons]
    exact ⟨rfl,ih⟩

/-- The semi-expressions of a text stand on lines of the text. -/
theorem semis_placed (lex : Lexicon) (path : String) (text : List Char) :
    ∀ semi ∈ semis lex path text, semi.Placed path := by
  intro semi member
  have ordered := semis_ordered lex path text
  have low := ordered.begins semi member
  have high := ordered.ends semi member
  obtain ⟨read,listed,rfl⟩ := List.mem_map.mp member
  exact ⟨semiReads_path lex path _ 1 read listed,by omega,by omega⟩

end Depends
