import Depends.Proofs.Token.Lossless
import Depends.Semi.Reader

/-!
Semi-expressions partition the tokens of a text. The tokens fall into blocks, one for each
semi-expression, and a semi-expression has the words of its block: every token that is neither a comment
nor a line end. A block ends at the first token that ends a unit (`EndsUnit`); only the last one may run
into the end of the text instead. A reader delivers an empty semi-expression only when nothing is left, so
what follows the last block has no words (`semis_partition`).
-/
namespace Depends

/-! ### Where units end -/

/-- A token that a semi-expression keeps: neither a comment nor a line end. -/
def Token.isWord (token : Token) : Bool := !token.kind.isComment && token.kind != .newline

/-- The texts of the tokens that a semi-expression keeps. -/
def words (block : List Token) : List String := (block.filter Token.isWord).map (·.text)

/-- The semicolons that still belong to heads of `for` after one more token: each `for` has two of them, and
each semicolon takes up one. -/
def owe (owed : Nat) (token : Token) : Nat :=
  if token.kind.isComment then owed
  else if token.kind = .word ∧ token.text = "for" then owed + 2
  else if token.text = ";" then owed - 1
  else owed

/-- The semicolons that still belong to heads of `for` after the tokens of a unit. -/
def owedAfter (block : List Token) : Nat := block.foldl owe 0

/-- A token ends the unit whose tokens so far are given: a semicolon that belongs to no head of a `for`, a
brace, the colon of a label, the bracket that closes an attribute, or the line end of a directive. -/
inductive EndsUnit (block : List Token) (token : Token) : Prop
  | semicolon : token.isWord = true → token.text = ";" → owedAfter block = 0 → EndsUnit block token
  | brace : token.isWord = true → token.text = openBrace ∨ token.text = closeBrace → EndsUnit block token
  | label : token.isWord = true → token.text = ":" →
      (words block).head? = some "case" ∨ (words block).head? = some "default" → EndsUnit block token
  | bracket : token.isWord = true → token.text = "]" → (words block).head? = some "[" → EndsUnit block token
  | directive : token.kind = .newline → (words block).head? = some "#" → EndsUnit block token

/-- No token of a block ends it. -/
def Unended (block : List Token) : Prop :=
  ∀ before token after, block = before ++ token :: after → ¬ EndsUnit before token

/-- A block ends at its first token that ends a unit. -/
def EndsFirst (block : List Token) : Prop :=
  ∃ before token, block = before ++ [token] ∧ EndsUnit before token ∧ Unended before

theorem words_append (first second : List Token) : words (first ++ second) = words first ++ words second := by
  simp [words]

theorem words_flatten (blocks : List (List Token)) : words blocks.flatten = (blocks.map words).flatten := by
  induction blocks with
  | nil => rfl
  | cons block blocks ih => rw [List.flatten_cons,words_append,ih,List.map_cons,List.flatten_cons]

theorem Unended.nil : Unended [] := by
  intro before token after split
  simp at split

theorem Unended.snoc {block : List Token} {token : Token} (unended : Unended block)
    (continues : ¬ EndsUnit block token) : Unended (block ++ [token]) := by
  intro before other after split
  rcases List.eq_nil_or_concat after with rfl | ⟨after,last,rfl⟩
  · obtain ⟨rfl,same⟩ := List.append_inj' split rfl
    obtain rfl := (List.cons.inj same).1
    exact continues
  · rw [List.concat_eq_append,← List.cons_append,← List.append_assoc] at split
    obtain ⟨rfl,-⟩ := List.append_inj' split rfl
    exact unended before other after rfl

/-- A block that ends at a token has words: the token is one, or it follows a number sign. -/
theorem EndsFirst.words_ne_nil {block : List Token} (ends : EndsFirst block) : words block ≠ [] := by
  obtain ⟨before,token,rfl,ended,-⟩ := ends
  rw [words_append]
  have last : token.isWord = true → words before ++ words [token] ≠ [] := by
    intro kept
    simp [words,kept]
  cases ended with
  | semicolon kept => exact last kept
  | brace kept => exact last kept
  | label kept => exact last kept
  | bracket kept => exact last kept
  | directive _ first =>
    intro empty
    rw [(List.append_eq_nil_iff.mp empty).1] at first
    cases first

/-! ### One unit -/

/-- The tokens of a text from a place on. -/
def tokensFrom (lex : Lexicon) (cs : List Char) (line : Nat) : List Token :=
  (tokensWithLines lex cs line).1.map (·.1)

theorem tokensFrom_none {lex : Lexicon} {cs : List Char} {line : Nat} {place : Cursor}
    (found : nextToken lex cs line = (none,place)) : tokensFrom lex cs line = [] := by
  unfold tokensFrom
  rw [tokensWithLines]
  split
  · rfl
  · rename_i other
    rw [found] at other
    cases other

theorem tokensFrom_some {lex : Lexicon} {cs : List Char} {line : Nat} {token : Token} {place : Cursor}
    (found : nextToken lex cs line = (some token,place)) :
    tokensFrom lex cs line = token :: tokensFrom lex place.rest place.line := by
  unfold tokensFrom
  rw [tokensWithLines]
  split
  · rename_i other
    rw [found] at other
    cases other
  · rename_i other
    rw [found] at other
    cases other
    rfl

@[simp] theorem tokensFrom_nil (lex : Lexicon) (line : Nat) : tokensFrom lex [] line = [] := by
  have ended : nextToken lex [] line = (none,⟨[],line⟩) := by simp [nextToken]
  exact tokensFrom_none ended

theorem nextToken_none {lex : Lexicon} {cs : List Char} {line : Nat} {place : Cursor}
    (found : nextToken lex cs line = (none,place)) : place.rest = [] := by
  fun_induction nextToken lex cs line with
  | case1 line =>
    cases found
    rfl
  | case2 c cs line piece after skips ih => exact ih found
  | case3 c cs line piece after keeps => cases found

theorem nextToken_newline {lex : Lexicon} {cs : List Char} {line : Nat} {token : Token} {place : Cursor}
    (found : nextToken lex cs line = (some token,place)) (newline : token.kind = .newline) : token.text = "\n" := by
  fun_induction nextToken lex cs line with
  | case1 line => cases found
  | case2 c cs line piece after skips ih => exact ih found
  | case3 c cs line piece after keeps =>
    cases found
    exact if_pos newline

namespace Gathering

/-- A unit under construction has taken in a block of tokens. -/
structure Holds (unit : Gathering) (block : List Token) : Prop where
  tokens : unit.tokens = words block
  owed : unit.owed = owedAfter block

variable {unit : Gathering} {block : List Token} {token : Token}

theorem Holds.comment (holds : unit.Holds block) (comment : token.kind.isComment = true) :
    unit.Holds (block ++ [token]) := by
  constructor
  · simp [holds.tokens,words,Token.isWord,comment]
  · simp [owedAfter,owe,comment,holds.owed]

theorem Holds.add_tokens (holds : unit.Holds block) (solid : token.kind.isComment = false) :
    (unit.add token).tokens = words (block ++ [token]) := by
  have kept : (unit.add token).tokens = if token.kind = .newline then unit.tokens else unit.tokens ++ [token.text] := by
    simp only [Gathering.add]
    split <;> split <;> rfl
  rw [kept,words_append,holds.tokens]
  split
  · rename_i newline
    simp [words,Token.isWord,newline]
  · rename_i other
    simp [words,Token.isWord,solid,other]

theorem add_owed (unit : Gathering) (token : Token) :
    (unit.add token).owed = if token.kind = .word ∧ token.text = "for" then unit.owed + 2 else unit.owed := by
  simp only [Gathering.add]
  split <;> split <;> rfl

/-- A semicolon of a `for` head is taken in and paid for. -/
theorem Holds.absorb (holds : unit.Holds block) (solid : token.kind.isComment = false)
    (absorbed : (unit.add token).absorbs token = true) :
    { unit.add token with owed := (unit.add token).owed - 1 }.Holds (block ++ [token]) := by
  refine ⟨holds.add_tokens solid,?_⟩
  simp only [absorbs,Bool.and_eq_true,beq_iff_eq] at absorbed
  simp [add_owed,owedAfter,owe,solid,absorbed.1,holds.owed]

theorem Holds.add (holds : unit.Holds block) (solid : token.kind.isComment = false)
    (free : ¬ (unit.add token).absorbs token = true) : (unit.add token).Holds (block ++ [token]) := by
  refine ⟨holds.add_tokens solid,?_⟩
  rw [add_owed,holds.owed]
  simp only [absorbs,add_owed,holds.owed,Bool.and_eq_true,beq_iff_eq,decide_eq_true_eq,not_and] at free
  simp only [owedAfter,List.foldl_append,List.foldl_cons,List.foldl_nil,owe,solid,Bool.false_eq_true,↓reduceIte]
  split
  · rfl
  · rename_i plain
    split
    · rename_i semicolon
      have paid := free semicolon
      rw [if_neg plain] at paid
      simp only [owedAfter] at paid
      omega
    · rfl

/-- The first word of a unit, seen from a token that is another word. -/
theorem Holds.first_iff (holds : unit.Holds block) (solid : token.kind.isComment = false) {word : String}
    (filled : word ≠ "") (other : token.text ≠ word) :
    (unit.add token).tokens.head?.getD "" = word ↔ (words block).head? = some word := by
  rw [holds.add_tokens solid,words_append,List.head?_append]
  cases (words block).head? with
  | some first => simp
  | none =>
    by_cases kept : token.isWord = true
    · simp [words,kept,other]
    · simp [words,kept,filled.symm]

/-- The reader ends a unit where `EndsUnit` says so. -/
theorem Holds.ends_iff (holds : unit.Holds block) (solid : token.kind.isComment = false)
    (feed : token.kind = .newline → token.text = "\n") :
    EndsUnit block token ↔ (unit.add token).absorbs token = false ∧ (unit.add token).endsWith token = true := by
  have first : ∀ word, word ≠ "" → token.text ≠ word →
      ((unit.add token).tokens.head?.getD "" = word ↔ (words block).head? = some word) :=
    fun word => holds.first_iff solid
  by_cases newline : token.kind = .newline
  · have text := feed newline
    have sign := first "#" (by decide) (by rw [text]; decide)
    have dropped : token.isWord = false := by simp [Token.isWord,newline]
    constructor
    · intro ended
      cases ended with
      | directive _ follows => simp [absorbs,text,endsWith,newline,sign.mpr follows]
      | _ kept => rw [dropped] at kept; cases kept
    · rintro ⟨-,ended⟩
      simp only [endsWith,newline,↓reduceIte,beq_iff_eq,sign] at ended
      exact .directive newline ended
  · have kept : token.isWord = true := by simp [Token.isWord,solid,newline]
    have owed : token.text = ";" → (unit.add token).owed = owedAfter block := by
      intro semicolon
      rw [add_owed,if_neg (by simp [semicolon]),holds.owed]
    constructor
    · intro ended
      cases ended with
      | semicolon _ text free => simp [absorbs,endsWith,newline,text,owed text,free]
      | brace _ text =>
        rcases text with text | text
        · simp [absorbs,endsWith,newline,text,show openBrace ≠ ";" by decide]
        · simp [absorbs,endsWith,newline,text,show closeBrace ≠ ";" by decide]
      | label _ text follows =>
        rw [← first "case" (by decide) (by rw [text]; decide),← first "default" (by decide) (by rw [text]; decide)]
          at follows
        simp [absorbs,endsWith,newline,text,follows]
      | bracket _ text follows =>
        rw [← first "[" (by decide) (by rw [text]; decide)] at follows
        simp [absorbs,endsWith,newline,text,follows]
      | directive other _ => exact absurd other newline
    · rintro ⟨free,ended⟩
      simp only [endsWith,newline,↓reduceIte] at ended
      split at ended
      · rename_i text
        rcases text with text | text | text
        · refine .semicolon kept text ?_
          simpa [absorbs,text,owed text] using free
        · exact .brace kept (.inl text)
        · exact .brace kept (.inr text)
      · split at ended
        · rename_i text
          rw [Bool.or_eq_true,beq_iff_eq,beq_iff_eq,first "case" (by decide) (by rw [text]; decide),
            first "default" (by decide) (by rw [text]; decide)] at ended
          exact .label kept text ended
        · split at ended
          · rename_i text
            rw [beq_iff_eq,first "[" (by decide) (by rw [text]; decide)] at ended
            exact .bracket kept text ended
          · cases ended

end Gathering

theorem gather_none {lex : Lexicon} {cs : List Char} {line : Nat} {place : Cursor} (unit : Gathering)
    (found : nextToken lex cs line = (none,place)) : gather lex unit cs line = ⟨unit,true,place⟩ := by
  rw [gather]
  split
  · rename_i other
    rw [found] at other
    cases other
    rfl
  · rename_i other
    rw [found] at other
    cases other

theorem gather_some {lex : Lexicon} {cs : List Char} {line : Nat} {token : Token} {place : Cursor} (unit : Gathering)
    (found : nextToken lex cs line = (some token,place)) :
    gather lex unit cs line =
      if token.kind.isComment then gather lex unit place.rest place.line
      else if (unit.add token).absorbs token then
        gather lex { unit.add token with owed := (unit.add token).owed - 1 } place.rest place.line
      else if (unit.add token).endsWith token then ⟨unit.add token,false,place⟩
      else gather lex (unit.add token) place.rest place.line := by
  rw [gather]
  split
  · rename_i other
    rw [found] at other
    cases other
  · rename_i other
    rw [found] at other
    cases other
    rfl

/-- Reading that went on from a block took in the tokens up to the first one that ends the unit, or all that were
left. -/
def Gathered.Extends (result : Gathered) (lex : Lexicon) (block : List Token) (cs : List Char) (line : Nat) : Prop :=
  ∃ more, tokensFrom lex cs line = more ++ tokensFrom lex result.place.rest result.place.line ∧
    result.unit.tokens = words (block ++ more) ∧
      if result.exhausted then result.place.rest = [] ∧ Unended (block ++ more) else EndsFirst (block ++ more)

theorem Gathered.Extends.step {result : Gathered} {lex : Lexicon} {block : List Token} {cs : List Char} {line : Nat}
    {token : Token} {place : Cursor} (found : nextToken lex cs line = (some token,place))
    (later : result.Extends lex (block ++ [token]) place.rest place.line) : result.Extends lex block cs line := by
  obtain ⟨more,rest,kept,ended⟩ := later
  rw [← List.append_cons] at kept ended
  exact ⟨token :: more,by rw [tokensFrom_some found,rest]; rfl,kept,ended⟩

/-- The invariant of the loop: the unit holds a block that no token of it ends. -/
theorem gather_block (lex : Lexicon) (unit : Gathering) (cs : List Char) (line : Nat) :
    ∀ block, unit.Holds block → Unended block → (gather lex unit cs line).Extends lex block cs line := by
  fun_induction gather lex unit cs line with
  | case1 unit cs line place found =>
    intro block holds unended
    have nothing := nextToken_none found
    refine ⟨[],?_,?_,nothing,?_⟩
    · rw [tokensFrom_none found,nothing,tokensFrom_nil]
      rfl
    · rw [List.append_nil]
      exact holds.tokens
    · rw [List.append_nil]
      exact unended
  | case2 unit cs line token place found comment ih =>
    -- A comment is no word and no line end, so it cannot end a unit.
    intro block holds unended
    have continues : ¬ EndsUnit block token := by
      rintro (⟨kept⟩ | ⟨kept⟩ | ⟨kept⟩ | ⟨kept⟩ | ⟨newline⟩)
      · simp [Token.isWord,comment] at kept
      · simp [Token.isWord,comment] at kept
      · simp [Token.isWord,comment] at kept
      · simp [Token.isWord,comment] at kept
      · simp [newline,TokenKind.isComment] at comment
    exact .step found (ih _ (holds.comment comment) (unended.snoc continues))
  | case3 unit cs line token place found solid added absorbed ih =>
    intro block holds unended
    have solid' : token.kind.isComment = false := by simpa using solid
    have continues : ¬ EndsUnit block token := by
      rw [holds.ends_iff solid' (nextToken_newline found),not_and]
      intro free
      rw [absorbed] at free
      cases free
    exact .step found (ih _ (holds.absorb solid' absorbed) (unended.snoc continues))
  | case4 unit cs line token place found solid added free ends =>
    intro block holds unended
    have solid' : token.kind.isComment = false := by simpa using solid
    have ended : EndsUnit block token :=
      (holds.ends_iff solid' (nextToken_newline found)).mpr ⟨by simpa using free,ends⟩
    exact ⟨[token],tokensFrom_some found,holds.add_tokens solid',block,token,rfl,ended,unended⟩
  | case5 unit cs line token place found solid added free runs ih =>
    intro block holds unended
    have solid' : token.kind.isComment = false := by simpa using solid
    have continues : ¬ EndsUnit block token := by
      rw [holds.ends_iff solid' (nextToken_newline found),not_and]
      exact fun _ => runs
    exact .step found (ih _ (holds.add solid' free) (unended.snoc continues))

/-! ### All units -/

/-- Tokens fall into blocks that each end at their first token that ends a unit; the last block may run into
the end of the tokens. What follows the blocks has no words. -/
structure Blocks (tokens : List Token) (blocks : List (List Token)) (rest : List Token) : Prop where
  joined : tokens = blocks.flatten ++ rest
  ended : ∀ block ∈ blocks.dropLast, EndsFirst block
  last : ∀ block ∈ blocks.getLast?, EndsFirst block ∨ Unended block ∧ rest = []
  wordless : words rest = []

theorem Blocks.cons {block tokens rest : List Token} {blocks : List (List Token)} (ends : EndsFirst block)
    (later : Blocks tokens blocks rest) : Blocks (block ++ tokens) (block :: blocks) rest := by
  refine ⟨?_,?_,?_,later.wordless⟩
  · rw [later.joined,List.flatten_cons,List.append_assoc]
  · intro other member
    cases blocks with
    | nil => cases member
    | cons next blocks =>
      rcases List.mem_cons.mp member with rfl | inside
      · exact ends
      · exact later.ended other inside
  · intro other final
    cases blocks with
    | nil =>
      obtain rfl : block = other := by simpa using final
      exact .inl ends
    | cons next blocks => exact later.last other (by simpa using final)

theorem semiReads_nil (lex : Lexicon) (path : String) (line : Nat) :
    (semiReads lex path [] line) = ([],⟨{ tokens := [], path, start := 0, line },true,line⟩) := by
  have ended : gather lex { line } [] line = ⟨{ line },true,⟨[],line⟩⟩ := gather_none _ (by simp [nextToken])
  rw [semiReads]
  simp [ended,Gathering.toSemi]

/-- The semi-expressions have the words of the blocks of the tokens. -/
theorem semiReads_blocks (lex : Lexicon) (path : String) (cs : List Char) (line : Nat) :
    ∃ blocks rest, Blocks (tokensFrom lex cs line) blocks rest ∧
      (semiReads lex path cs line).1.map (·.semi.tokens) = blocks.map words := by
  have start : ∀ line : Nat, ({ line } : Gathering).Holds [] := fun _ => ⟨rfl,rfl⟩
  fun_induction semiReads lex path cs line with
  | case1 cs line result read empty =>
    obtain ⟨block,joined,kept,ended⟩ := gather_block lex { line } cs line [] (start line) .nil
    rw [List.nil_append] at kept ended
    have wordless : words block = [] := kept.symm.trans empty
    split at ended
    · -- A unit without words that runs into the end leaves no tokens behind it.
      rw [ended.1,tokensFrom_nil,List.append_nil] at joined
      refine ⟨[],block,⟨joined,?_,?_,wordless⟩,rfl⟩
      · exact fun block member => absurd member List.not_mem_nil
      · exact fun block member => absurd member (Option.not_mem_none block)
    · exact absurd wordless ended.words_ne_nil
  | case2 cs line result read filled more last rest ih =>
    obtain ⟨block,joined,kept,ended⟩ := gather_block lex { line } cs line [] (start line) .nil
    rw [List.nil_append] at kept ended
    obtain ⟨blocks,after,later,same⟩ := ih
    rw [rest] at same
    split at ended
    · -- Nothing is left, so this is the last block and no other one follows.
      have nothing : more = [] := by
        rw [show result.place.rest = [] from ended.1,semiReads_nil] at rest
        exact (Prod.mk.inj rest).1.symm
      rw [ended.1,tokensFrom_nil,List.append_nil] at joined
      refine ⟨[block],[],⟨by simp [joined],?_,?_,rfl⟩,?_⟩
      · exact fun block member => absurd member List.not_mem_nil
      · intro other final
        obtain rfl : block = other := by simpa using final
        exact .inr ⟨ended.2,rfl⟩
      · rw [nothing]
        exact congrArg (· :: []) kept
    · refine ⟨block :: blocks,after,?_,?_⟩
      · rw [joined]
        exact .cons ended later
      · rw [List.map_cons,List.map_cons,same]
        exact congrArg (· :: _) kept

/-! ### Delivery -/

namespace SemiReader

/-- What a reader delivers, one semi-expression after the other, up to the first empty one. It delivers an empty
one only when it has met the end and nothing is left of the text. -/
inductive Delivers : SemiReader → List Semi → Prop
  | finished {reader after : SemiReader} {semi : Semi} : reader.next = (semi,after) → semi.tokens = [] →
      after.exhausted = true → after.tokens.left = 0 → Delivers reader []
  | semi {reader after : SemiReader} {semi : Semi} {semis : List Semi} : reader.next = (semi,after) →
      semi.tokens ≠ [] → Delivers after semis → Delivers reader (semi :: semis)

/-- Collecting a unit from a reader gathers it from the text that the reader has before it. -/
theorem collect_eq (lex : Lexicon) (budget : Nat) :
    ∀ (unit : Gathering) (source : Source), source.Settled → source.remaining.length ≤ budget →
      ∃ moved : Source, collect budget unit ⟨lex,some source⟩ =
          ((gather lex unit source.remaining source.line).unit,
            (gather lex unit source.remaining source.line).exhausted,⟨lex,some moved⟩) ∧
        moved.Settled ∧
          (⟨moved.remaining,moved.line⟩ : Cursor) = (gather lex unit source.remaining source.line).place := by
  induction budget with
  | zero =>
    intro unit source settled bound
    obtain ⟨moved,delivered,still,place⟩ := TokenReader.next_eq lex settled
    have empty : source.remaining = [] := List.length_eq_zero_iff.mp (Nat.le_zero.mp bound)
    have found : nextToken lex source.remaining source.line = (none,⟨[],source.line⟩) := by
      rw [empty,nextToken]
    rw [found] at place
    refine ⟨moved,?_,still,?_⟩
    · rw [collect,delivered,gather_none unit found]
    · rw [place,gather_none unit found]
  | succ budget ih =>
    intro unit source settled bound
    obtain ⟨moved,delivered,still,place⟩ := TokenReader.next_eq lex settled
    cases found : nextToken lex source.remaining source.line with
    | mk token behind =>
      rw [found] at delivered place
      subst place
      cases token with
      | none =>
        rw [gather_none unit found]
        exact ⟨moved,by rw [collect,delivered],still,rfl⟩
      | some token =>
        have shorter : moved.remaining.length ≤ budget :=
          Nat.le_of_lt_succ (Nat.lt_of_lt_of_le (nextToken_rest_lt lex _ _ _ _ found) bound)
        rw [collect,delivered,gather_some unit found]
        dsimp only
        split
        · exact ih unit moved still shorter
        · split
          · exact ih _ moved still shorter
          · split
            · exact ⟨moved,rfl,still,rfl⟩
            · exact ih _ moved still shorter

/-- A reader of a text delivers the semi-expressions of the text. -/
theorem delivers_semiReads (lex : Lexicon) (path : String) (cs : List Char) (line : Nat) :
    ∀ (source : Source) (exhausted : Bool), source.Settled → source.remaining = cs → source.line = line →
      Delivers ⟨⟨lex,some source⟩,path,exhausted⟩ ((semiReads lex path cs line).1.map (·.semi)) := by
  fun_induction semiReads lex path cs line with
  | case1 cs line result read empty =>
    rintro source exhausted settled rfl rfl
    obtain ⟨moved,collected,-,place⟩ := collect_eq lex _ { line := source.line } source settled (Nat.le_refl _)
    obtain ⟨block,-,kept,ended⟩ := gather_block lex { line := source.line } source.remaining source.line []
      ⟨rfl,rfl⟩ .nil
    rw [List.nil_append] at kept ended
    split at ended
    · rename_i met
      have nothing : moved.remaining = [] := (congrArg Cursor.rest place).trans ended.1
      have next : SemiReader.next ⟨⟨lex,some source⟩,path,exhausted⟩ =
          (read.semi,⟨⟨lex,some moved⟩,path,exhausted || true⟩) := by
        simp only [SemiReader.next,TokenReader.line,Option.elim_some,collected,met]
        rfl
      exact .finished next empty (Bool.or_true exhausted) (congrArg List.length nothing)
    · exact absurd (kept.symm.trans empty) ended.words_ne_nil
  | case2 cs line result read filled more last rest ih =>
    rintro source exhausted settled rfl rfl
    obtain ⟨moved,collected,still,place⟩ := collect_eq lex _ { line := source.line } source settled (Nat.le_refl _)
    have next : SemiReader.next ⟨⟨lex,some source⟩,path,exhausted⟩ =
        (read.semi,⟨⟨lex,some moved⟩,path,exhausted || result.exhausted⟩) := by
      simp only [SemiReader.next,TokenReader.line,Option.elim_some,collected]
      rfl
    have later := ih moved (exhausted || result.exhausted) still (congrArg Cursor.rest place)
      (congrArg Cursor.line place)
    rw [rest] at later
    exact .semi next filled later

end SemiReader

/-- For every text and all options of the lexicon: the semi-expressions together have the words of the tokens of
the text, none lost, doubled or moved. The tokens fall into blocks whose words the semi-expressions are; every
block before the last ends at its first token that ends a unit, and so does the last one unless the text ends
first. A reader delivers these semi-expressions, and an empty one only when nothing is left of the text. -/
theorem semis_partition (lex : Lexicon) (path : String) (text : List Char) :
    (semis lex path text).flatMap (·.tokens) = words (tokens lex text) ∧
      (∃ blocks rest, Blocks (tokens lex text) blocks rest ∧
        (semis lex path text).map (·.tokens) = blocks.map words) ∧
      SemiReader.Delivers { tokens := { lex, source := some (Source.ofText text) }, path } (semis lex path text) := by
  obtain ⟨blocks,rest,cut,same⟩ := semiReads_blocks lex path (normalizeLines text) 1
  have kept : (semis lex path text).map (·.tokens) = blocks.map words := by
    rw [← same,semis,List.map_map]
    rfl
  refine ⟨?_,⟨blocks,rest,cut,kept⟩,?_⟩
  · calc (semis lex path text).flatMap (·.tokens)
        = (blocks.map words).flatten := by rw [← kept,List.flatMap_def]
      _ = words (blocks.flatten ++ rest) := by rw [words_append,cut.wordless,List.append_nil,words_flatten]
      _ = words (tokens lex text) := by rw [← cut.joined]; rfl
  · exact SemiReader.delivers_semiReads lex path (normalizeLines text) 1 (Source.ofText text) false
      (Source.ofText_settled text) (Source.remaining_ofText text) rfl

end Depends
