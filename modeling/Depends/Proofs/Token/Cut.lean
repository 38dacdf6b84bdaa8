import Depends.Token.States

/-!
Where chunks begin and end. Each class has a start condition of its own (`starts`), and a chunk belongs to
the first class, in order of priority, whose condition holds where it begins. A run of line feeds ends where
no line feed follows, and a run of the fallback class where another class starts.
-/
namespace Depends

/-- The start condition of a class on the text ahead, the other classes left aside. -/
def starts (lex : Lexicon) : TokenKind → List Char → Bool
  | .newline,cs => cs[0]? == some '\n'
  | .whitespace,cs => cs[0]?.any isBlankChar
  | .word,cs => cs[0]?.any Text.isWord
  | .blockComment,cs => cs[0]? == some '/' && cs[1]? == some '*'
  | .lineComment,cs => cs[0]? == some '/' && cs[1]? == some '/'
  | .pair,cs => cs[0]?.any fun a => cs[1]?.any fun b => lex.pairs.contains (a,b)
  | .single,cs => cs[0]?.any lex.singles.contains
  | .doubleQuote,cs => quoteOpening cs != 0
  | .singleQuote,cs => opensCharacter cs
  | .punct,cs => !cs.isEmpty

private theorem find?_cons_ite {α : Type} (p : α → Bool) (a : α) (l : List α) :
    (a :: l).find? p = if p a = true then some a else l.find? p := by
  rw [List.find?_cons]
  cases p a <;> rfl

/-- The class that opens is the first one that starts. -/
theorem opening_eq_find? (lex : Lexicon) (cs : List Char) : opening lex cs = claimants.find? (starts lex · cs) := by
  cases cs with
  | nil => rfl
  | cons c cs =>
    have newline : (starts lex .newline (c :: cs) = true) = (c = '\n') := by simp [starts]
    have blank : (starts lex .whitespace (c :: cs) = true) = (c ≠ '\n' ∧ Text.isSpace c = true) := by
      simp [starts,isBlankChar]
    have word : (starts lex .word (c :: cs) = true) = (Text.isWord c = true) := by simp [starts]
    have block : (starts lex .blockComment (c :: cs) = true) = (c = '/' ∧ cs.head? = some '*') := by
      simp [starts,List.head?_eq_getElem?]
    have line : (starts lex .lineComment (c :: cs) = true) = (c = '/' ∧ cs.head? = some '/') := by
      simp [starts,List.head?_eq_getElem?]
    have pair : (starts lex .pair (c :: cs) = true) = (cs.head?.any (fun d => lex.pairs.contains (c,d)) = true) := by
      simp [starts,List.head?_eq_getElem?]
    have single : (starts lex .single (c :: cs) = true) = (lex.singles.contains c = true) := by simp [starts]
    have double : (starts lex .doubleQuote (c :: cs) = true) = (quoteOpening (c :: cs) ≠ 0) := by simp [starts]
    simp only [opening,claimants,find?_cons_ite,List.find?_nil,newline,blank,word,block,line,pair,single,double]
    by_cases feed : c = '\n'
    · rw [if_pos feed,if_pos feed]
    · simp only [feed,↓reduceIte,ne_eq,not_false_eq_true,true_and]
      rfl

theorem opening_ne_punct (lex : Lexicon) (cs : List Char) : opening lex cs ≠ some .punct := by
  rw [opening_eq_find?]
  intro found
  exact absurd (List.mem_of_find?_eq_some found) (by decide)

theorem chunk_kind (lex : Lexicon) (c : Char) (cs : List Char) :
    (chunk lex c cs).kind = (opening lex (c :: cs)).getD .punct := by
  cases found : opening lex (c :: cs) with
  | none => simp [chunk,found]
  | some kind =>
    have claimed : kind ≠ .punct := fun same => opening_ne_punct lex (c :: cs) (same ▸ found)
    cases kind with
    | punct => exact absurd rfl claimed
    | _ => simp [chunk,found]

/-- A chunk is of the first class, in order of priority, that starts where it begins. -/
theorem chunk_priority (lex : Lexicon) (c : Char) (cs : List Char) :
    priority.find? (starts lex · (c :: cs)) = some (chunk lex c cs).kind := by
  rw [chunk_kind,opening_eq_find?,priority,List.find?_append]
  cases claimants.find? (starts lex · (c :: cs)) with
  | none => simp [starts]
  | some kind => rfl

theorem chunk_newline {lex : Lexicon} {c : Char} {cs : List Char} (kind : (chunk lex c cs).kind = .newline) :
    (∀ d ∈ (chunk lex c cs).raw, d = '\n') ∧ (chunk lex c cs).rest.head? ≠ some '\n' := by
  have opens : opening lex (c :: cs) = some .newline := by
    rw [chunk_kind] at kind
    cases found : opening lex (c :: cs) with
    | none => simp [found] at kind
    | some other =>
      rw [found,Option.getD_some] at kind
      rw [kind]
  have first : c = '\n' := by
    rw [opening_eq_find?] at opens
    have holds := List.find?_some opens
    simpa [starts] using holds
  simp only [chunk,opens]
  constructor
  · intro d member
    rcases List.mem_cons.mp member with rfl | later
    · exact first
    · exact beq_iff_eq.mp (List.all_eq_true.mp List.all_takeWhile d later)
  · intro next
    have stopped := List.head?_dropWhile_not (· == '\n') cs
    rw [next] at stopped
    simp at stopped

theorem unclaimed_opening (lex : Lexicon) (cs : List Char) :
    ∀ k, k < (unclaimed lex cs).1.length → opening lex (cs.drop k) = none := by
  fun_induction unclaimed lex cs with
  | case1 => intro k inside; cases inside
  | case2 c cs kind opens => intro k inside; cases inside
  | case3 c cs none run rest found ih =>
    intro k inside
    cases k with
    | zero => exact none
    | succ k =>
      rw [List.drop_succ_cons]
      refine ih k ?_
      rw [found]
      simpa using inside

/-- After the first character of a chunk of the fallback class no other class starts in it. -/
theorem chunk_punct {lex : Lexicon} {c : Char} {cs : List Char} (kind : (chunk lex c cs).kind = .punct) {k : Nat}
    (later : 0 < k) (inside : k < (chunk lex c cs).raw.length) {other : TokenKind} (different : other ≠ .punct) :
    starts lex other ((c :: cs).drop k) = false := by
  have opens : opening lex (c :: cs) = none := by
    rw [chunk_kind] at kind
    cases found : opening lex (c :: cs) with
    | none => rfl
    | some other =>
      rw [found,Option.getD_some] at kind
      exact absurd (kind ▸ found) (opening_ne_punct lex _)
  obtain ⟨k,rfl⟩ := Nat.exists_eq_succ_of_ne_zero (Nat.ne_of_gt later)
  simp only [chunk,opens,List.length_cons] at inside
  have nothing := unclaimed_opening lex cs k (by omega)
  rw [opening_eq_find?,List.find?_eq_none] at nothing
  have listed : other ∈ claimants := by
    cases other <;> first | exact absurd rfl different | decide
  rw [List.drop_succ_cons]
  exact Bool.eq_false_iff.mpr (nothing other listed)

end Depends
