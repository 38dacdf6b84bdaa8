import Depends.Proofs.Token.Peeking
import Depends.Token.Reader

/-!
Reading tokens loses nothing. A text falls into pieces, one for each chunk, and a reader delivers them in
order, the blanks left out (`tokens_lossless`). Every token takes characters off the text.
-/
namespace Depends

/-! ### Pieces of a text -/

/-- A piece of a text with its class. -/
structure Piece where
  kind : TokenKind
  raw : List Char
  deriving DecidableEq, Repr

/-- The text of the token that a piece makes: one line feed for a run of them. -/
def Piece.text (piece : Piece) : String := if piece.kind = .newline then "\n" else String.ofList piece.raw

/-- The pieces of a text: its chunks. -/
def pieces (lex : Lexicon) : List Char → List Piece
  | [] => []
  | c :: cs => ⟨(chunk lex c cs).kind,(chunk lex c cs).raw⟩ :: pieces lex (chunk lex c cs).rest
termination_by cs => cs.length
decreasing_by exact chunk_rest_lt lex c cs

/-- A piece is cut well before the text that follows it: it is not empty, it is of the first class in order
of priority that starts where it begins, a run of line feeds is maximal, and no other class starts inside a
piece of the fallback class. -/
structure WellCut (lex : Lexicon) (piece : Piece) (after : List Char) : Prop where
  filled : piece.raw ≠ []
  kind : priority.find? (starts lex · (piece.raw ++ after)) = some piece.kind
  newline : piece.kind = .newline → (∀ c ∈ piece.raw, c = '\n') ∧ after.head? ≠ some '\n'
  punct : piece.kind = .punct → ∀ k, 0 < k → k < piece.raw.length →
    ∀ other, other ≠ TokenKind.punct → starts lex other ((piece.raw ++ after).drop k) = false

/-- A text is made of pieces, each of them cut well. -/
structure Factors (lex : Lexicon) (text : List Char) (parts : List Piece) : Prop where
  joined : parts.flatMap Piece.raw = text
  cut : ∀ before piece after, parts = before ++ piece :: after → WellCut lex piece (after.flatMap Piece.raw)

theorem chunk_wellCut (lex : Lexicon) (c : Char) (cs : List Char) :
    WellCut lex ⟨(chunk lex c cs).kind,(chunk lex c cs).raw⟩ (chunk lex c cs).rest := by
  refine ⟨chunk_raw_ne_nil lex c cs,?_,chunk_newline,?_⟩
  · rw [chunk_append]
    exact chunk_priority lex c cs
  · intro kind k later inside other different
    rw [chunk_append]
    exact chunk_punct kind later inside different

/-- The pieces of a text factor it. -/
theorem pieces_factors (lex : Lexicon) (text : List Char) : Factors lex text (pieces lex text) := by
  fun_induction pieces lex text with
  | case1 => exact ⟨rfl,fun before piece after split => by simp at split⟩
  | case2 c cs ih =>
    constructor
    · rw [List.flatMap_cons,ih.joined]
      exact chunk_append lex c cs
    · intro before piece after split
      cases before with
      | nil =>
        obtain ⟨rfl,rfl⟩ := List.cons.inj split
        rw [ih.joined]
        exact chunk_wellCut lex c cs
      | cons first before => exact ih.cut before piece after (List.cons.inj split).2

/-- The tokens that pieces make after the text before them: none for blanks; the line is one plus the number
of line feeds before. -/
def tokensOf (before : List Char) : List Piece → List Token
  | [] => []
  | piece :: more =>
    let later := tokensOf (before ++ piece.raw) more
    if piece.kind = .whitespace then later else ⟨piece.text,piece.kind,1 + before.count '\n'⟩ :: later

/-! ### Delivery -/

namespace TokenReader

/-- The number of characters that a reader still has before it. -/
def left (reader : TokenReader) : Nat := reader.source.elim 0 (·.remaining.length)

/-- What a reader delivers, token after token, until it has no more. Every token takes characters off the
text. -/
inductive Delivers : TokenReader → List Token → Prop
  | finished {reader after : TokenReader} : reader.next = (none,after) → Delivers reader []
  | token {reader after : TokenReader} {t : Token} {tokens : List Token} : reader.next = (some t,after) →
      after.left < reader.left → Delivers after tokens → Delivers reader (t :: tokens)

theorem next_eq (lex : Lexicon) {source : Source} (settled : source.Settled) :
    ∃ moved : Source, TokenReader.next ⟨lex,some source⟩ =
        ((nextToken lex source.remaining source.line).1,⟨lex,some moved⟩) ∧
      moved.Settled ∧ (⟨moved.remaining,moved.line⟩ : Cursor) = (nextToken lex source.remaining source.line).2 := by
  have ahead : source.Ahead source.remaining source.line := ⟨settled,rfl,rfl⟩
  obtain ⟨moved,read,behind⟩ := Source.Ahead.getToken lex (source.remaining.length + 1) ahead (Nat.lt_succ_self _)
  refine ⟨moved,?_,behind.settled,?_⟩
  · simp only [next,read]
  · rw [behind.remaining,behind.line]

/-- A chunk that is not skipped is the next token, and the source stands behind it. -/
theorem next_chunk {lex : Lexicon} {source : Source} (settled : source.Settled) {c : Char} {cs : List Char}
    (ahead : source.remaining = c :: cs) (kept : lex.skips (chunk lex c cs).kind = false) :
    ∃ moved : Source, TokenReader.next ⟨lex,some source⟩ =
        (some ⟨(chunk lex c cs).text,(chunk lex c cs).kind,source.line⟩,⟨lex,some moved⟩) ∧
      moved.Settled ∧ moved.remaining = (chunk lex c cs).rest ∧
        moved.line = source.line + (chunk lex c cs).raw.count '\n' := by
  obtain ⟨moved,read,still,place⟩ := next_eq lex settled
  have delivered : ¬ lex.skips (chunk lex c cs).kind = true := Bool.eq_false_iff.mp kept
  rw [ahead,nextToken,if_neg delivered] at read place
  obtain ⟨rest,line⟩ := Cursor.mk.inj place
  exact ⟨moved,read,still,rest,line⟩

end TokenReader

/-- The next token is that of the first piece that is no blank. -/
theorem nextToken_pieces {lex : Lexicon} (comments : lex.comments = true) (cs : List Char) (line : Nat) :
    ∀ before : List Char, line = 1 + before.count '\n' →
      match nextToken lex cs line with
      | (none,_) => tokensOf before (pieces lex cs) = []
      | (some token,place) => ∃ taken, place.line = 1 + (before ++ taken).count '\n' ∧
          tokensOf before (pieces lex cs) = token :: tokensOf (before ++ taken) (pieces lex place.rest) := by
  have skipped : ∀ kind, lex.skips kind = (kind == .whitespace) := by
    intro kind
    simp [Lexicon.skips,comments]
  fun_induction nextToken lex cs line with
  | case1 line =>
    intro before _
    simp [pieces,tokensOf]
  | case2 c cs line piece after skips ih =>
    intro before lines
    have blank : (chunk lex c cs).kind = .whitespace := by
      rw [skipped] at skips
      exact beq_iff_eq.mp skips
    have next := ih (before ++ piece.raw) (by simp only [after,lines,List.count_append]; omega)
    rw [pieces,tokensOf]
    simp only [blank,↓reduceIte]
    revert next
    cases nextToken lex piece.rest after with
    | mk token place =>
      cases token with
      | none => exact id
      | some token =>
        rintro ⟨taken,line,same⟩
        exact ⟨piece.raw ++ taken,by rw [← List.append_assoc]; exact line,by rw [← List.append_assoc]; exact same⟩
  | case3 c cs line piece after keeps =>
    intro before lines
    have solid : (chunk lex c cs).kind ≠ .whitespace := by
      rw [skipped] at keeps
      exact fun same => keeps (beq_iff_eq.mpr same)
    refine ⟨piece.raw,?_,?_⟩
    · simp only [after,lines,List.count_append]
      omega
    · rw [pieces,tokensOf]
      simp only [solid,↓reduceIte,lines]
      rfl

/-- A reader delivers the tokens of the pieces of the text before it. -/
theorem delivers_pieces {lex : Lexicon} (comments : lex.comments = true) (size : Nat) :
    ∀ (source : Source) (before : List Char), source.remaining.length ≤ size → source.Settled →
      source.line = 1 + before.count '\n' →
        TokenReader.Delivers ⟨lex,some source⟩ (tokensOf before (pieces lex source.remaining)) := by
  induction size with
  | zero =>
    intro source before bound settled line
    obtain ⟨moved,delivered,-⟩ := TokenReader.next_eq lex settled
    have empty : source.remaining = [] := List.length_eq_zero_iff.mp (Nat.le_zero.mp bound)
    rw [empty] at delivered ⊢
    rw [nextToken] at delivered
    rw [pieces,tokensOf]
    exact .finished delivered
  | succ size ih =>
    intro source before bound settled line
    obtain ⟨moved,delivered,still,place⟩ := TokenReader.next_eq lex settled
    have next := nextToken_pieces comments source.remaining source.line before line
    cases found : nextToken lex source.remaining source.line with
    | mk token behind =>
      rw [found] at delivered place next
      cases token with
      | none =>
        rw [show tokensOf before (pieces lex source.remaining) = [] from next]
        exact .finished delivered
      | some token =>
        obtain ⟨taken,behindLine,same⟩ := next
        have shorter : behind.rest.length < source.remaining.length := nextToken_rest_lt lex _ _ _ _ found
        subst place
        rw [same]
        refine .token delivered shorter (ih moved (before ++ taken) ?_ still behindLine)
        exact Nat.le_of_lt_succ (Nat.lt_of_lt_of_le shorter bound)

/-- For every text and all operator sets, with comments delivered: the text with normalized line ends factors
into well cut pieces, and a reader delivers exactly the tokens of these pieces, the blanks left out, each on
the line that the pieces before it lead to. Every token makes progress, and the reader comes to an end. -/
theorem tokens_lossless (pairs : List (Char × Char)) (singles : List Char) (text : List Char) :
    ∃ parts, Factors { pairs, singles } (normalizeLines text) parts ∧
      TokenReader.Delivers { lex := { pairs, singles }, source := some (Source.ofText text) } (tokensOf [] parts) := by
  refine ⟨pieces { pairs, singles } (normalizeLines text),pieces_factors _ _,?_⟩
  have delivered : TokenReader.Delivers { lex := { pairs, singles }, source := some (Source.ofText text) } _ :=
    delivers_pieces rfl _ (Source.ofText text) [] (Nat.le_refl _) (Source.ofText_settled text) rfl
  rwa [Source.remaining_ofText] at delivered

end Depends
