import Depends.Proofs.Semi.Lines
import Depends.Proofs.Semi.Partition
import Mathlib.Data.List.Forall2

/-!
The lines of semi-expressions and the tokens that they come from. A semi-expression starts on the line on
which its first word begins and has the line of its last token, comments apart. So the lines never go back from
one semi-expression to the next, and none is below the last line of the text (`semis_lines`).
-/
namespace Depends

variable {lex : Lexicon} {token : Token} {block : List Token}

/-! ### The line of the end -/

/-- The line reached and the line feeds that are left always make up the line of the end. -/
theorem nextToken_end (lex : Lexicon) (cs : List Char) (line : Nat) :
    (nextToken lex cs line).2.line + (nextToken lex cs line).2.rest.count '\n' = line + cs.count '\n' := by
  fun_induction nextToken lex cs line with
  | case1 line => rfl
  | case2 c cs line piece after skips ih =>
    rw [ih,← chunk_append lex c cs,List.count_append,← Nat.add_assoc]
  | case3 c cs line piece after keeps =>
    rw [← chunk_append lex c cs,List.count_append,← Nat.add_assoc]

theorem gather_end (lex : Lexicon) (unit : Gathering) (cs : List Char) (line : Nat) :
    (gather lex unit cs line).place.line + (gather lex unit cs line).place.rest.count '\n' = line + cs.count '\n' := by
  fun_induction gather lex unit cs line with
  | case1 unit cs line place found =>
    have total := nextToken_end lex cs line
    rwa [found] at total
  | case2 unit cs line token place found _ ih =>
    have total := nextToken_end lex cs line
    rw [found] at total
    exact ih.trans total
  | case3 unit cs line token place found _ added _ ih =>
    have total := nextToken_end lex cs line
    rw [found] at total
    exact ih.trans total
  | case4 unit cs line token place found =>
    have total := nextToken_end lex cs line
    rwa [found] at total
  | case5 unit cs line token place found _ added _ _ ih =>
    have total := nextToken_end lex cs line
    rw [found] at total
    exact ih.trans total

/-- No semi-expression ends below the last line of the text. -/
theorem semiReads_line_le (lex : Lexicon) (path : String) (cs : List Char) (line : Nat) :
    ∀ read ∈ (semiReads lex path cs line).1, read.semi.line ≤ (line + cs.count '\n' : Nat) := by
  fun_induction semiReads lex path cs line with
  | case1 => simp
  | case2 cs line result read filled more last rest ih =>
    have total := gather_end lex { line } cs line
    obtain ⟨-,reached⟩ := gather_lined lex { line } cs line ⟨Nat.le_refl line,fun absent => absurd rfl absent⟩
      (Nat.le_refl line)
    rw [rest] at ih
    rw [List.forall_mem_cons]
    constructor
    · exact Int.ofNat_le.mpr (Nat.le_trans reached (total ▸ Nat.le_add_right ..))
    · intro other member
      exact total ▸ ih other member

/-! ### The tokens of a unit -/

/-- A block of tokens has words when it has a first one. -/
theorem words_eq_nil_iff : words block = [] ↔ block.find? Token.isWord = none := by
  simp [words]

namespace Gathering

variable {unit : Gathering}

/-- The lines of a unit are those of a block of tokens: it starts where the first word begins, and has the line of the
last token that is no comment. -/
structure Marks (unit : Gathering) (block : List Token) : Prop where
  start : ∀ first, block.find? Token.isWord = some first → unit.start = first.line
  line : ∀ last, (block.filter (!·.kind.isComment)).getLast? = some last → unit.line = last.line

theorem Marks.comment (marks : unit.Marks block) (comment : token.kind.isComment = true) :
    unit.Marks (block ++ [token]) := by
  have noWord : token.isWord = false := by simp [Token.isWord,comment]
  constructor
  · intro first found
    rw [List.find?_append] at found
    exact marks.start first (by simpa [noWord] using found)
  · intro last final
    rw [List.filter_append] at final
    exact marks.line last (by simpa [comment] using final)

theorem Marks.add (marks : unit.Marks block) (holds : unit.Holds block) (solid : token.kind.isComment = false) :
    (unit.add token).Marks (block ++ [token]) := by
  constructor
  · intro first found
    rw [List.find?_append] at found
    have empty : unit.tokens = [] ↔ block.find? Token.isWord = none := by rw [holds.tokens,words_eq_nil_iff]
    cases earlier : block.find? Token.isWord with
    | some other =>
      rw [earlier,Option.some_or] at found
      rw [add_start,if_neg (by simp [empty,earlier])]
      exact marks.start first (earlier.trans found)
    | none =>
      rw [earlier,Option.none_or] at found
      obtain rfl := List.mem_singleton.mp (List.mem_of_find?_eq_some found)
      have word := List.find?_some found
      simp only [Token.isWord,Bool.and_eq_true,bne_iff_ne] at word
      rw [add_start,if_pos ⟨word.2,empty.mpr earlier⟩]
  · intro last final
    obtain rfl : token = last := by simpa [List.filter_append,solid] using final
    exact add_line unit token

end Gathering

/-- Reading that went on from a block took in the next tokens and marks their lines. -/
theorem gather_marks (lex : Lexicon) (unit : Gathering) (cs : List Char) (line : Nat) :
    ∀ block, unit.Holds block → unit.Marks block → ∃ more,
      tokensFrom lex cs line =
        more ++ tokensFrom lex (gather lex unit cs line).place.rest (gather lex unit cs line).place.line ∧
      (gather lex unit cs line).unit.tokens = words (block ++ more) ∧
        (gather lex unit cs line).unit.Marks (block ++ more) := by
  fun_induction gather lex unit cs line with
  | case1 unit cs line place found =>
    intro block holds marks
    refine ⟨[],?_,?_,?_⟩
    · rw [tokensFrom_none found,nextToken_none found,tokensFrom_nil,List.nil_append]
    · rw [List.append_nil]
      exact holds.tokens
    · rwa [List.append_nil]
  | case2 unit cs line token place found comment ih =>
    intro block holds marks
    obtain ⟨more,rest,kept,marked⟩ := ih _ (holds.comment comment) (marks.comment comment)
    rw [← List.append_cons] at kept marked
    exact ⟨token :: more,by rw [tokensFrom_some found,rest]; rfl,kept,marked⟩
  | case3 unit cs line token place found solid added absorbed ih =>
    intro block holds marks
    have solid' : token.kind.isComment = false := by simpa using solid
    have added := marks.add holds solid'
    obtain ⟨more,rest,kept,marked⟩ := ih _ (holds.absorb solid' absorbed) ⟨added.start,added.line⟩
    rw [← List.append_cons] at kept marked
    exact ⟨token :: more,by rw [tokensFrom_some found,rest]; rfl,kept,marked⟩
  | case4 unit cs line token place found solid added free ends =>
    intro block holds marks
    have solid' : token.kind.isComment = false := by simpa using solid
    exact ⟨[token],tokensFrom_some found,holds.add_tokens solid',marks.add holds solid'⟩
  | case5 unit cs line token place found solid added free runs ih =>
    intro block holds marks
    have solid' : token.kind.isComment = false := by simpa using solid
    obtain ⟨more,rest,kept,marked⟩ := ih _ (holds.add solid' free) (marks.add holds solid')
    rw [← List.append_cons] at kept marked
    exact ⟨token :: more,by rw [tokensFrom_some found,rest]; rfl,kept,marked⟩

/-- A semi-expression has the words of a block of tokens. It starts on the line of the first one, and has the
line of the last token of the block, comments apart. -/
structure Semi.Spans (semi : Semi) (block : List Token) : Prop where
  tokens : semi.tokens = words block
  start : ∃ first, block.find? Token.isWord = some first ∧ semi.start = first.line
  line : ∃ last, (block.filter (!·.kind.isComment)).getLast? = some last ∧ semi.line = last.line

theorem Gathering.Marks.spans {unit : Gathering} (marks : unit.Marks block) (kept : unit.tokens = words block)
    (filled : unit.tokens ≠ []) (path : String) : (unit.toSemi path).Spans block := by
  rw [kept,ne_eq,words_eq_nil_iff,← ne_eq,Option.ne_none_iff_exists'] at filled
  obtain ⟨first,found⟩ := filled
  have solid : block.filter (!·.kind.isComment) ≠ [] := by
    have word := List.find?_some found
    simp only [Token.isWord,Bool.and_eq_true] at word
    exact List.ne_nil_of_mem (List.mem_filter.mpr ⟨List.mem_of_find?_eq_some found,word.1⟩)
  have final := List.getLast?_eq_some_getLast solid
  exact ⟨kept,⟨first,found,congrArg Int.ofNat (marks.start first found)⟩,
    ⟨_,final,congrArg Int.ofNat (marks.line _ final)⟩⟩

/-- The semi-expressions span blocks of the tokens, one after the other. -/
theorem semiReads_spans (lex : Lexicon) (path : String) (cs : List Char) (line : Nat) :
    ∃ blocks rest, tokensFrom lex cs line = blocks.flatten ++ rest ∧
      List.Forall₂ Semi.Spans ((semiReads lex path cs line).1.map (·.semi)) blocks := by
  fun_induction semiReads lex path cs line with
  | case1 => exact ⟨[],_,rfl,.nil⟩
  | case2 cs line result read filled more last rest ih =>
    obtain ⟨block,joined,kept,marks⟩ := gather_marks lex { line } cs line [] ⟨rfl,rfl⟩ ⟨by simp,by simp⟩
    obtain ⟨blocks,after,later,spans⟩ := ih
    rw [rest] at spans
    refine ⟨block :: blocks,after,?_,.cons (marks.spans kept filled path) spans⟩
    rw [joined,List.flatten_cons,List.append_assoc]
    exact congrArg (block ++ ·) later

/-! ### Where tokens begin -/

/-- Two places with the same next token have the same tokens from there on. -/
theorem tokensFrom_congr {lex : Lexicon} {cs ds : List Char} {line other : Nat}
    (same : nextToken lex cs line = nextToken lex ds other) : tokensFrom lex cs line = tokensFrom lex ds other := by
  cases found : nextToken lex ds other with
  | mk token place =>
    cases token with
    | none => rw [tokensFrom_none (same.trans found),tokensFrom_none found]
    | some token => rw [tokensFrom_some (same.trans found),tokensFrom_some found]

theorem tokensFrom_cons (lex : Lexicon) (c : Char) (cs : List Char) (line : Nat) :
    tokensFrom lex (c :: cs) line =
      if lex.skips (chunk lex c cs).kind then
        tokensFrom lex (chunk lex c cs).rest (line + (chunk lex c cs).raw.count '\n')
      else ⟨(chunk lex c cs).text,(chunk lex c cs).kind,line⟩ ::
        tokensFrom lex (chunk lex c cs).rest (line + (chunk lex c cs).raw.count '\n') := by
  have next := nextToken.eq_2 lex line c cs
  split
  · rename_i skipped
    exact tokensFrom_congr (next.trans (if_pos skipped))
  · rename_i kept
    exact tokensFrom_some (next.trans (if_neg kept))

/-- The tokens of a text are those of its pieces that are not left out. Each is on the line that the pieces before it
lead to. -/
theorem tokensFrom_pieces (lex : Lexicon) (cs : List Char) :
    ∀ before : List Char, tokensFrom lex cs (1 + before.count '\n') =
      (tokensOf before (pieces lex cs)).filter (!lex.skips ·.kind) := by
  fun_induction pieces lex cs with
  | case1 =>
    intro before
    rw [tokensFrom_nil,tokensOf,List.filter_nil]
  | case2 c cs ih =>
    intro before
    have later := ih (before ++ (chunk lex c cs).raw)
    rw [List.count_append,← Nat.add_assoc] at later
    rw [tokensFrom_cons,later,tokensOf]
    by_cases blank : (chunk lex c cs).kind = .whitespace
    · have skipped : lex.skips (chunk lex c cs).kind = true := by simp [Lexicon.skips,blank]
      rw [if_pos skipped,if_pos blank]
    · rw [if_neg blank,List.filter_cons]
      cases lex.skips (chunk lex c cs).kind <;> rfl

/-- For every text and all options of the lexicon: the semi-expressions that a reader delivers, up to the first
empty one, stand one after the other from line 1 on, each ending on or after the line where it begins and not below
the last line of the text. They span blocks of the tokens of the text: a semi-expression starts on the line on
which its first word begins, one plus the number of line feeds before it. -/
theorem semis_lines (lex : Lexicon) (path : String) (text : List Char) :
    SemiReader.Delivers { tokens := { lex, source := some (Source.ofText text) }, path } (semis lex path text) ∧
      Semi.Ordered 1 (semis lex path text) ∧
      (∀ semi ∈ semis lex path text, semi.line ≤ (1 + (normalizeLines text).count '\n' : Nat)) ∧
      ∃ blocks rest, (tokensOf [] (pieces lex (normalizeLines text))).filter (!lex.skips ·.kind) =
        blocks.flatten ++ rest ∧ List.Forall₂ Semi.Spans (semis lex path text) blocks := by
  refine ⟨?_,semis_ordered lex path text,?_,?_⟩
  · exact SemiReader.delivers_semiReads lex path (normalizeLines text) 1 (Source.ofText text) false
      (Source.ofText_settled text) (Source.remaining_ofText text) rfl
  · intro semi member
    obtain ⟨read,listed,rfl⟩ := List.mem_map.mp member
    exact semiReads_line_le lex path (normalizeLines text) 1 read listed
  · rw [← tokensFrom_pieces lex (normalizeLines text) []]
    exact semiReads_spans lex path (normalizeLines text) 1

end Depends
