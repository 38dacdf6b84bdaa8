import Depends.Proofs.Semi.Partition

/-!
Heads of `for` stay in one piece. A head pays for its two semicolons, so tokens that spell heads leave the count of owed
semicolons as they found it and have no semicolon that ends a unit (`ForHead.neutral`). A unit that starts with heads
therefore goes on to the first brace or semicolon after them (`forHeads_whole`).
-/
namespace Depends

variable {owed : Nat} {first second block : List Token} {token : Token}

/-! ### Semicolons that are paid for -/

/-- Every semicolon among the tokens belongs to the head of a `for`, given how many are owed in front of them. -/
def Paid : Nat → List Token → Prop
  | _, [] => True
  | owed, token :: rest => (token.text = ";" → 0 < owed) ∧ Paid (owe owed token) rest

theorem paid_append : Paid owed (first ++ second) ↔ Paid owed first ∧ Paid (first.foldl owe owed) second := by
  induction first generalizing owed with
  | nil => simp [Paid]
  | cons token first ih => simp only [List.cons_append,Paid,ih,List.foldl_cons,and_assoc]

theorem Paid.semicolon {after : List Token} (paid : Paid owed (first ++ token :: after))
    (semicolon : token.text = ";") : 0 < first.foldl owe owed :=
  (paid_append.mp paid).2.1 semicolon

/-- Tokens that pay for their semicolons themselves, whatever is owed in front of them. -/
structure Neutral (block : List Token) : Prop where
  paid : ∀ owed, Paid owed block
  kept : ∀ owed, block.foldl owe owed = owed

theorem Neutral.nil : Neutral [] := ⟨fun _ => trivial,fun _ => rfl⟩

theorem Neutral.append (here : Neutral first) (there : Neutral second) : Neutral (first ++ second) := by
  constructor
  · intro owed
    exact paid_append.mpr ⟨here.paid owed,there.paid _⟩
  · intro owed
    rw [List.foldl_append,here.kept,there.kept]

theorem Neutral.flatten {blocks : List (List Token)} (each : ∀ block ∈ blocks, Neutral block) :
    Neutral blocks.flatten := by
  induction blocks with
  | nil => exact .nil
  | cons block blocks ih =>
    rw [List.forall_mem_cons] at each
    exact each.1.append (ih each.2)

/-! ### Heads -/

/-- A token that may stand in a clause of a head: neither a semicolon nor a brace nor the word `for`. -/
structure Token.Clausal (token : Token) : Prop where
  notSemicolon : token.text ≠ ";"
  notOpen : token.text ≠ openBrace
  notClose : token.text ≠ closeBrace
  notFor : ¬ (token.kind = .word ∧ token.text = "for")

instance (token : Token) : Decidable token.Clausal :=
  decidable_of_iff (token.text ≠ ";" ∧ token.text ≠ openBrace ∧ token.text ≠ closeBrace ∧
      ¬ (token.kind = .word ∧ token.text = "for"))
    ⟨fun ⟨a,b,c,d⟩ => ⟨a,b,c,d⟩,fun h => ⟨h.notSemicolon,h.notOpen,h.notClose,h.notFor⟩⟩

/-- The kept tokens of a head `for ( A ; B ; C )`. -/
structure ForHead where
  word : Token
  opening : Token
  first : List Token
  firstEnd : Token
  second : List Token
  secondEnd : Token
  third : List Token
  closing : Token
  word_for : word.kind = .word ∧ word.text = "for"
  opening_paren : opening.text = "("
  first_clausal : ∀ token ∈ first, token.Clausal
  firstEnd_semicolon : firstEnd.text = ";"
  second_clausal : ∀ token ∈ second, token.Clausal
  secondEnd_semicolon : secondEnd.text = ";"
  third_clausal : ∀ token ∈ third, token.Clausal
  closing_paren : closing.text = ")"

/-- The tokens of a head in order. -/
def ForHead.tokens (head : ForHead) : List Token :=
  head.word :: ((head.opening :: head.first) ++
    head.firstEnd :: (head.second ++ head.secondEnd :: (head.third ++ [head.closing])))

theorem neutral_clause (plain : ∀ token ∈ block, token.Clausal) : Neutral block := by
  induction block with
  | nil => exact .nil
  | cons token block ih =>
    rw [List.forall_mem_cons] at plain
    have rest := ih plain.2
    have same : ∀ owed, owe owed token = owed := by
      intro owed
      simp [owe,plain.1.notSemicolon,plain.1.notFor]
    constructor
    · intro owed
      exact ⟨fun semicolon => absurd semicolon plain.1.notSemicolon,rest.paid _⟩
    · intro owed
      rw [List.foldl_cons,same,rest.kept]

theorem clausal_of_paren (paren : token.text = "(" ∨ token.text = ")") : token.Clausal := by
  rcases paren with text | text <;> constructor <;> simp [text,openBrace,closeBrace]

theorem owe_for (word : token.kind = .word) (text : token.text = "for") (owed : Nat) : owe owed token = owed + 2 := by
  simp [owe,word,text,TokenKind.isComment]

theorem owe_semicolon (solid : token.kind.isComment = false) (text : token.text = ";") (owed : Nat) :
    owe owed token = owed - 1 := by
  simp [owe,solid,text]

namespace ForHead

/-- A head owes two semicolons from its first word on and has both of them. -/
theorem neutral (head : ForHead) (kept : ∀ token ∈ head.tokens, token.isWord = true) : Neutral head.tokens := by
  have solid : ∀ token ∈ head.tokens, token.kind.isComment = false := by
    intro token member
    have word := kept token member
    simp only [Token.isWord,Bool.and_eq_true,Bool.not_eq_true'] at word
    exact word.1
  have initial : Neutral (head.opening :: head.first) :=
    neutral_clause (List.forall_mem_cons.mpr ⟨clausal_of_paren (.inl head.opening_paren),head.first_clausal⟩)
  have condition : Neutral head.second := neutral_clause head.second_clausal
  have step : Neutral (head.third ++ [head.closing]) :=
    (neutral_clause head.third_clausal).append
      (neutral_clause (by simpa using clausal_of_paren (.inr head.closing_paren)))
  have owes := owe_for head.word_for.1 head.word_for.2
  have pays := owe_semicolon (solid head.firstEnd (by simp [tokens])) head.firstEnd_semicolon
  have pays' := owe_semicolon (solid head.secondEnd (by simp [tokens])) head.secondEnd_semicolon
  constructor
  · intro owed
    refine ⟨fun semicolon => absurd (head.word_for.2.symm.trans semicolon) (by decide),?_⟩
    refine paid_append.mpr ⟨initial.paid _,?_⟩
    rw [initial.kept,owes]
    refine ⟨fun _ => by omega,paid_append.mpr ⟨condition.paid _,?_⟩⟩
    rw [condition.kept,pays]
    exact ⟨fun _ => by omega,step.paid _⟩
  · intro owed
    rw [tokens,List.foldl_cons,List.foldl_append,initial.kept,List.foldl_cons,List.foldl_append,condition.kept,
      List.foldl_cons,step.kept,owes,pays,pays']
    omega

theorem notBrace (head : ForHead) :
    ∀ token ∈ head.tokens, token.text ≠ openBrace ∧ token.text ≠ closeBrace := by
  have clause : ∀ {tokens : List Token}, (∀ token ∈ tokens, token.Clausal) →
      ∀ token ∈ tokens, token.text ≠ openBrace ∧ token.text ≠ closeBrace :=
    fun plain token member => ⟨(plain token member).notOpen,(plain token member).notClose⟩
  intro token member
  simp only [tokens,List.mem_append,List.mem_cons,List.not_mem_nil,or_false] at member
  rcases member with rfl | (rfl | inside) | rfl | inside | rfl | inside | rfl
  · rw [head.word_for.2]; decide
  · rw [head.opening_paren]; decide
  · exact clause head.first_clausal token inside
  · rw [head.firstEnd_semicolon]; decide
  · exact clause head.second_clausal token inside
  · rw [head.secondEnd_semicolon]; decide
  · exact clause head.third_clausal token inside
  · rw [head.closing_paren]; decide

end ForHead

/-! ### The unit that starts with heads -/

/-- The line ends among the tokens of a text have the text of one. -/
theorem tokensFrom_newline (lex : Lexicon) (cs : List Char) (line : Nat) :
    ∀ token ∈ tokensFrom lex cs line, token.kind = .newline → token.text = "\n" := by
  unfold tokensFrom
  fun_induction tokensWithLines lex cs line with
  | case1 => simp
  | case2 cs line token place found more last rest ih =>
    rw [rest] at ih
    rw [List.map_cons,List.forall_mem_cons]
    exact ⟨nextToken_newline found,ih⟩

/-- Comments and line ends owe and pay nothing. -/
theorem foldl_owe_filter (feeds : ∀ token ∈ block, token.kind = .newline → token.text = "\n") :
    (block.filter Token.isWord).foldl owe owed = block.foldl owe owed := by
  induction block generalizing owed with
  | nil => rfl
  | cons token block ih =>
    rw [List.forall_mem_cons] at feeds
    by_cases kept : token.isWord = true
    · rw [List.filter_cons_of_pos kept,List.foldl_cons,List.foldl_cons,ih feeds.2]
    · rw [List.filter_cons_of_neg kept,List.foldl_cons,ih feeds.2]
      congr 1
      by_cases newline : token.kind = .newline
      · simp [owe,newline,feeds.1 newline,TokenKind.isComment]
      · have comment : token.kind.isComment = true := by simpa [Token.isWord,newline] using kept
        simp [owe,comment]

/-- A block whose kept tokens start with heads of `for`, and go on without semicolons and braces. -/
structure StartsWithHeads (block : List Token) : Prop where
  neutral : Neutral (block.filter Token.isWord)
  notBrace : ∀ token ∈ block.filter Token.isWord, token.text ≠ openBrace ∧ token.text ≠ closeBrace
  starts : (words block).head? = some "for"

theorem startsWithHeads {heads : List ForHead} {rest : List Token}
    (spelled : block.filter Token.isWord = heads.flatMap ForHead.tokens ++ rest) (filled : heads ≠ [])
    (plain : ∀ token ∈ rest, token.Clausal) : StartsWithHeads block := by
  have kept : ∀ head ∈ heads, ∀ token ∈ head.tokens, token.isWord = true := by
    intro head listed token member
    have inside : token ∈ block.filter Token.isWord := by
      rw [spelled]
      exact List.mem_append_left _ (List.mem_flatMap.mpr ⟨head,listed,member⟩)
    exact (List.mem_filter.mp inside).2
  refine ⟨?_,?_,?_⟩
  · rw [spelled,List.flatMap_def]
    refine (Neutral.flatten ?_).append (neutral_clause plain)
    rw [List.forall_mem_map]
    exact fun head listed => head.neutral (kept head listed)
  · rw [spelled]
    intro token member
    rcases List.mem_append.mp member with inside | inside
    · obtain ⟨head,-,inside⟩ := List.mem_flatMap.mp inside
      exact head.notBrace token inside
    · exact ⟨(plain token inside).notOpen,(plain token inside).notClose⟩
  · obtain ⟨head,heads,rfl⟩ := List.exists_cons_of_ne_nil filled
    simp [words,spelled,ForHead.tokens,head.word_for.2]

/-- No token of such a block ends its unit. -/
theorem StartsWithHeads.unended (starts : StartsWithHeads block)
    (feeds : ∀ token ∈ block, token.kind = .newline → token.text = "\n") : Unended block := by
  intro before token after split ended
  have member : token.isWord = true → token ∈ block.filter Token.isWord := by
    intro kept
    simp [split,kept]
  -- The first word is `for` as soon as there is one.
  have leads : ∀ word, (words before).head? = some word → word = "for" := by
    intro word first
    have whole := starts.starts
    rw [split,words_append,List.head?_append,first,Option.some_or] at whole
    exact Option.some.inj whole
  cases ended with
  | semicolon kept text free =>
    have paid := starts.neutral.paid 0
    rw [split,List.filter_append,List.filter_cons_of_pos kept] at paid
    have owes := paid.semicolon text
    rw [foldl_owe_filter fun token inside => feeds token (by simp [split,inside])] at owes
    exact absurd free (Nat.ne_of_gt owes)
  | brace kept text =>
    have clean := starts.notBrace token (member kept)
    exact text.elim clean.1 clean.2
  | label _ _ first =>
    rcases first with first | first
    · exact absurd (leads _ first) (by decide)
    · exact absurd (leads _ first) (by decide)
  | bracket _ _ first => exact absurd (leads _ first) (by decide)
  | directive _ first => exact absurd (leads _ first) (by decide)

/-- The first token that ends a unit is where reading it stops. -/
theorem gather_of_ends {lex : Lexicon} {cs : List Char} {line : Nat} {before after : List Token}
    (ahead : tokensFrom lex cs line = before ++ token :: after) (unended : Unended before)
    (ends : EndsUnit before token) :
    let result := gather lex { line } cs line
    result.exhausted = false ∧ result.unit.tokens = words (before ++ [token]) ∧
      tokensFrom lex result.place.rest result.place.line = after := by
  intro result
  obtain ⟨more,joined,kept,ended⟩ := gather_block lex { line } cs line [] ⟨rfl,rfl⟩ .nil
  rw [List.nil_append] at kept ended
  rw [ahead] at joined
  split at ended
  · -- The whole text would be one block that nothing ends.
    rw [ended.1,tokensFrom_nil,List.append_nil] at joined
    exact absurd ends (ended.2 before token after joined.symm)
  · rename_i met
    obtain ⟨before',token',rfl,ends',unended'⟩ := ended
    rw [List.append_assoc,List.singleton_append,List.append_eq_append_iff] at joined
    have same : before = before' ∧ token = token' ∧ after = tokensFrom lex result.place.rest result.place.line := by
      rcases joined with ⟨gap,longer,rest⟩ | ⟨gap,longer,rest⟩
      · cases gap with
        | nil =>
          obtain ⟨rfl,rfl⟩ := List.cons.inj rest
          exact ⟨by simp [longer],rfl,rfl⟩
        | cons other gap =>
          obtain ⟨rfl,-⟩ := List.cons.inj rest
          exact absurd ends (unended' before token gap longer)
      · cases gap with
        | nil =>
          obtain ⟨rfl,rfl⟩ := List.cons.inj rest
          exact ⟨by simp [longer],rfl,rfl⟩
        | cons other gap =>
          obtain ⟨rfl,-⟩ := List.cons.inj rest
          exact absurd ends' (unended before' token' gap longer)
    obtain ⟨rfl,rfl,rfl⟩ := same
    exact ⟨by simpa using met,kept,rfl⟩

/-- Wherever a source stands in front of one or more heads of `for`, one after the other, with any comments and line
ends between their tokens, then tokens without semicolons and braces, and an opening brace or a semicolon: the next
semi-expression has exactly the words up to this last token, and the reader stands behind it. -/
theorem forHeads_whole (lex : Lexicon) (path : String) (exhausted : Bool) {source : Source} (settled : source.Settled)
    {heads : List ForHead} {rest before after : List Token} {last : Token}
    (ahead : tokensFrom lex source.remaining source.line = before ++ last :: after)
    (spelled : before.filter Token.isWord = heads.flatMap ForHead.tokens ++ rest) (filled : heads ≠ [])
    (plain : ∀ token ∈ rest, token.Clausal) (kept : last.isWord = true)
    (ends : last.text = openBrace ∨ last.text = ";") :
    ∃ (semi : Semi) (moved : Source),
      SemiReader.next ⟨⟨lex,some source⟩,path,exhausted⟩ = (semi,⟨⟨lex,some moved⟩,path,exhausted⟩) ∧
        semi.tokens = (heads.flatMap ForHead.tokens ++ rest ++ [last]).map (·.text) ∧ semi.path = path ∧
        moved.Settled ∧ tokensFrom lex moved.remaining moved.line = after := by
  have feeds : ∀ token ∈ before, token.kind = .newline → token.text = "\n" := by
    intro token member
    exact tokensFrom_newline lex source.remaining source.line token (by simp [ahead,member])
  have starts := startsWithHeads spelled filled plain
  have ended : EndsUnit before last := by
    rcases ends with text | text
    · exact .brace kept (.inl text)
    · refine .semicolon kept text ?_
      rw [owedAfter,← foldl_owe_filter feeds,starts.neutral.kept]
  obtain ⟨going,tokens,behind⟩ := gather_of_ends ahead (starts.unended feeds) ended
  let unit := (gather lex { line := source.line } source.remaining source.line).unit
  obtain ⟨moved,collected,still,place⟩ :=
    SemiReader.collect_eq lex _ { line := source.line } source settled (Nat.le_refl _)
  refine ⟨unit.toSemi path,moved,?_,?_,rfl,still,?_⟩
  · simp only [SemiReader.next,TokenReader.line,Option.elim_some,collected,going,Bool.or_false,unit]
  · show unit.tokens = _
    rw [tokens,words,List.filter_append,spelled]
    simp [kept]
  · rw [← behind,← place]

/-- The first tokens of a text, at most so many. -/
def tokensUpTo (lex : Lexicon) : Nat → List Char → Nat → List Token
  | 0, _, _ => []
  | count + 1, cs, line =>
    match nextToken lex cs line with
    | (none, _) => []
    | (some token, place) => token :: tokensUpTo lex count place.rest place.line

theorem take_tokensFrom (lex : Lexicon) (count : Nat) (cs : List Char) (line : Nat) :
    (tokensFrom lex cs line).take count = tokensUpTo lex count cs line := by
  induction count generalizing cs line with
  | zero => simp [tokensUpTo]
  | succ count ih =>
    cases found : nextToken lex cs line with
    | mk token place =>
      cases token with
      | none => simp [tokensFrom_none found,tokensUpTo,found]
      | some token => simp [tokensFrom_some found,tokensUpTo,found,ih]

/-- Two heads with a comment and line ends between their tokens, and the start of a body. -/
def nestedHeads : List Char := "for(int i;i<n;)//rows\n for(;;)\n\x7bx".toList

/-- The first head of the text. -/
def countingHead : ForHead where
  word := ⟨"for",.word,1⟩
  opening := ⟨"(",.single,1⟩
  first := [⟨"int",.word,1⟩,⟨"i",.word,1⟩]
  firstEnd := ⟨";",.single,1⟩
  second := [⟨"i",.word,1⟩,⟨"<",.single,1⟩,⟨"n",.word,1⟩]
  secondEnd := ⟨";",.single,1⟩
  third := []
  closing := ⟨")",.single,1⟩
  word_for := ⟨rfl,rfl⟩
  opening_paren := rfl
  first_clausal := by decide
  firstEnd_semicolon := rfl
  second_clausal := by decide
  secondEnd_semicolon := rfl
  third_clausal := by decide
  closing_paren := rfl

/-- The second head of the text, whose clauses are empty. -/
def endlessHead : ForHead where
  word := ⟨"for",.word,2⟩
  opening := ⟨"(",.single,2⟩
  first := []
  firstEnd := ⟨";",.single,2⟩
  second := []
  secondEnd := ⟨";",.single,2⟩
  third := []
  closing := ⟨")",.single,2⟩
  word_for := ⟨rfl,rfl⟩
  opening_paren := rfl
  first_clausal := by decide
  firstEnd_semicolon := rfl
  second_clausal := by decide
  secondEnd_semicolon := rfl
  third_clausal := by decide
  closing_paren := rfl

/-- The tokens of the text up to the brace. -/
def headTokens : List Token :=
  countingHead.tokens ++ [⟨"//rows",.lineComment,1⟩,⟨"\n",.newline,1⟩] ++ endlessHead.tokens ++
    [⟨"\n",.newline,2⟩]

theorem forHeads_whole_nested :
    tokensUpTo .standard 19 nestedHeads 1 = headTokens ++ [⟨openBrace,.single,3⟩] ∧
      ∃ (semi : Semi) (moved : Source),
        SemiReader.next ⟨⟨.standard,some (Source.ofText nestedHeads)⟩,"a.cs",false⟩ =
            (semi,⟨⟨.standard,some moved⟩,"a.cs",false⟩) ∧
          semi.tokens = ["for","(","int","i",";","i","<","n",";",")","for","(",";",";",")",openBrace] ∧
          semi.path = "a.cs" ∧ moved.Settled ∧
          tokensFrom .standard moved.remaining moved.line = (tokensFrom .standard nestedHeads 1).drop 19 := by
  have read : tokensUpTo .standard 19 nestedHeads 1 = headTokens ++ [⟨openBrace,.single,3⟩] := by decide +kernel
  refine ⟨read,?_⟩
  have view : (Source.ofText nestedHeads).remaining = nestedHeads := by decide
  have ahead : tokensFrom .standard (Source.ofText nestedHeads).remaining (Source.ofText nestedHeads).line =
      headTokens ++ ⟨openBrace,.single,3⟩ :: (tokensFrom .standard nestedHeads 1).drop 19 := by
    rw [view]
    refine (List.take_append_drop 19 (tokensFrom .standard nestedHeads 1)).symm.trans ?_
    rw [take_tokensFrom,read,List.append_assoc,List.singleton_append]
  have spelled : headTokens.filter Token.isWord = [countingHead,endlessHead].flatMap ForHead.tokens ++ [] := by decide
  have filled : [countingHead,endlessHead] ≠ [] := by simp
  have plain : ∀ token ∈ ([] : List Token), token.Clausal := by decide
  exact forHeads_whole .standard "a.cs" false (Source.ofText_settled nestedHeads) ahead spelled filled plain rfl
    (.inl rfl)

end Depends
