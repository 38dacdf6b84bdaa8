import Depends.Proofs.Token.Enclosures

/-!
Character literals. Recognition looks at three or four fixed places (`opensCharacter_iff`), extraction scans for a quote
after an even number of backslashes, as in a string. The two agree on every literal but one: of three quotes, which
recognition takes for a quote between quotes, the scan takes only the first two (`characters_whole_iff`).
-/
namespace Depends

/-- A character literal: a quote, a character other than a backslash and a quote, or a quote, a backslash, a character
and a quote. -/
inductive CharacterLiteral : List Char → Prop
  | plain {c : Char} : c ≠ '\\' → CharacterLiteral ['\'',c,'\'']
  | escape (c : Char) : CharacterLiteral ['\'','\\',c,'\'']

/-- The literal whose character is a quote that no backslash escapes. -/
def threeQuotes : List Char := ['\'','\'','\'']

/-! ### Recognition -/

/-- Character literals open where one stands, and nowhere else. -/
theorem opensCharacter_iff (text : List Char) :
    opensCharacter text = true ↔ ∃ literal after, CharacterLiteral literal ∧ text = literal ++ after := by
  constructor
  · intro opens
    fun_cases opensCharacter text with
    | case1 rest =>
      -- The second place behind the backslash has a quote, so both places are there.
      match rest,opens with
      | c :: d :: after,opens =>
        have closing : d = '\'' := by simpa [opensCharacter] using opens
        subst closing
        exact ⟨_,after,.escape c,rfl⟩
    | case2 c after plain => exact ⟨_,after,.plain plain,rfl⟩
    | case3 => simp [opensCharacter] at opens
  · rintro ⟨literal,after,character,rfl⟩
    cases character with
    | plain backslash => simp [opensCharacter]
    | escape c => rfl

/-- Where a character literal opens, its class is the one that opens unless an operator stands there. -/
theorem opening_character_iff (lex : Lexicon) {cs : List Char} (opens : opensCharacter ('\'' :: cs) = true) :
    opening lex ('\'' :: cs) = some .singleQuote ↔
      cs.head?.any (fun d => lex.pairs.contains ('\'',d)) = false ∧ lex.singles.contains '\'' = false := by
  have plain : Text.isSpace '\'' = false ∧ Text.isWord '\'' = false := by decide
  have noString : quoteOpening ('\'' :: cs) = 0 := by simp [quoteOpening]
  simp only [opening,plain,noString,opens]
  cases cs.head?.any (fun d => lex.pairs.contains ('\'',d)) with
  | true => simp
  | false => cases lex.singles.contains '\'' <;> simp

/-- No standard operator stands where a character literal opens. -/
theorem opening_character_standard (comments : Bool) {cs : List Char} (opens : opensCharacter ('\'' :: cs) = true) :
    opening (Enclosure.operators comments) ('\'' :: cs) = some .singleQuote := by
  refine (opening_character_iff _ opens).mpr ⟨?_,rfl⟩
  rw [Option.any_eq_false]
  intro d _
  simp [Enclosure.operators,Lexicon.standard,Lexicon.standardPairs]

/-- The class of a character literal is found by looking at the literal and no further. -/
theorem openingDemand_character {lex : Lexicon} {literal after : List Char} (character : CharacterLiteral literal)
    (opens : opening lex (literal ++ after) = some .singleQuote) :
    openingDemand lex (literal ++ after) = literal.length := by
  have plain : Text.isSpace '\'' = false ∧ Text.isWord '\'' = false := by decide
  have stands : opensCharacter (literal ++ after) = true := (opensCharacter_iff _).mpr ⟨literal,after,character,rfl⟩
  cases character with
  | plain backslash => simpa [openingDemand,plain] using (opening_character_iff lex stands).mp opens
  | escape c => simpa [openingDemand,plain] using (opening_character_iff lex stands).mp opens

/-! ### Extraction -/

theorem escapedBody_quote (quote : Char) (cs : List Char) : escapedBody quote false (quote :: cs) = ([quote],cs) := by
  simp [escapedBody]

/-- After the opening quote the scan takes the rest of the literal. Of three quotes it takes the second one only: with no
backslash in front the quote that should be the character closes the literal. -/
theorem escapedBody_character {literal after : List Char} (character : CharacterLiteral literal) :
    escapedBody '\'' false (literal.tail ++ after) =
      if literal = threeQuotes then (['\''],'\'' :: after) else (literal.tail,after) := by
  cases character with
  | @plain c backslash =>
    by_cases quote : c = '\''
    · subst quote
      exact escapedBody_quote '\'' ('\'' :: after)
    · have apart : ['\'',c,'\''] ≠ threeQuotes := by simpa [threeQuotes] using quote
      rw [if_neg apart,List.tail_cons,List.cons_append,escapedBody_cons (by simp [quote]),
        beq_eq_false_iff_ne.mpr backslash,Bool.false_and,List.singleton_append,escapedBody_quote]
  | escape c =>
    -- Whatever the escaped character is, the number of backslashes right before the last quote is even.
    have apart : ['\'','\\',c,'\''] ≠ threeQuotes := by simp [threeQuotes]
    have taken : escapedBody '\'' true (c :: '\'' :: after) = ([c,'\''],after) := by
      rw [escapedBody_cons (by simp),Bool.not_true,Bool.and_false,escapedBody_quote]
    rw [if_neg apart,List.tail_cons,List.cons_append,escapedBody_cons (by decide)]
    simp [taken]

/-- The scan never runs past the closing quote. -/
theorem escapedBody_character_inside {literal after : List Char} (character : CharacterLiteral literal) :
    (escapedBody '\'' false (literal.tail ++ after)).1 <+: literal.tail := by
  rw [escapedBody_character character]
  by_cases three : literal = threeQuotes
  · rw [if_pos three,three]
    exact ⟨['\''],rfl⟩
  · simp only [if_neg three,List.prefix_rfl]

/-- The scan ends at the closing quote of every literal but three quotes. -/
theorem escapedBody_character_iff {literal after : List Char} (character : CharacterLiteral literal) :
    escapedBody '\'' false (literal.tail ++ after) = (literal.tail,after) ↔ literal ≠ threeQuotes := by
  rw [escapedBody_character character]
  by_cases three : literal = threeQuotes
  · simp [three,threeQuotes]
  · simp [three]

/-! ### Delivery -/

namespace TokenReader

variable {lex : Lexicon} {source : Source} {literal after : List Char}

/-- A reader delivers the opening quote with what the scan takes. -/
theorem next_character (settled : source.Settled) (character : CharacterLiteral literal)
    (ahead : source.remaining = literal ++ after) (opens : opening lex source.remaining = some .singleQuote) :
    let body := escapedBody '\'' false (literal.tail ++ after)
    ∃ moved : Source, TokenReader.next ⟨lex,some source⟩ =
        (some ⟨String.ofList ('\'' :: body.1),.singleQuote,source.line⟩,⟨lex,some moved⟩) ∧
      moved.Settled ∧ moved.remaining = body.2 ∧ moved.line = source.line + ('\'' :: body.1).count '\n' := by
  have first : literal ++ after = '\'' :: (literal.tail ++ after) := by cases character <;> rfl
  rw [first] at ahead
  rw [ahead] at opens
  have cut : chunk lex '\'' (literal.tail ++ after) = ⟨.singleQuote,
      '\'' :: (escapedBody '\'' false (literal.tail ++ after)).1,(escapedBody '\'' false (literal.tail ++ after)).2⟩ := by
    simp [chunk,opens]
  have kept : lex.skips (chunk lex '\'' (literal.tail ++ after)).kind = false := by rw [cut]; rfl
  have delivered := next_chunk settled ahead kept
  rw [cut] at delivered
  exact delivered

/-- A literal is the next token, and the source stands behind it, unless it is three quotes. -/
theorem next_character_iff (settled : source.Settled) (character : CharacterLiteral literal)
    (ahead : source.remaining = literal ++ after) (opens : opening lex source.remaining = some .singleQuote) :
    (∃ moved : Source, TokenReader.next ⟨lex,some source⟩ =
        (some ⟨String.ofList literal,.singleQuote,source.line⟩,⟨lex,some moved⟩) ∧
      moved.Settled ∧ moved.remaining = after ∧ moved.line = source.line + literal.count '\n') ↔
        literal ≠ threeQuotes := by
  have delivered := next_character settled character ahead opens
  rw [escapedBody_character character] at delivered
  constructor
  · rintro ⟨_,whole,-⟩ rfl
    obtain ⟨_,parted,-⟩ := delivered
    rw [whole] at parted
    simp [threeQuotes] at parted
  · intro apart
    have quoted : '\'' :: literal.tail = literal := by cases character <;> rfl
    simpa only [if_neg apart,quoted] using delivered

end TokenReader

/-! ### Recognition and extraction -/

/-- Wherever a source stands, a character literal opens exactly where one is ahead. The scan for its end never runs past
the closing quote, and it ends there exactly when the literal is not three quotes. With the standard operators it is
always the class that opens. Where it is, with any operators, this is found by looking at the literal and no further, and
the literal is the next token, with the source behind it, exactly when it is not three quotes. -/
theorem characters_whole_iff (lex : Lexicon) {source : Source} (settled : source.Settled) :
    (opensCharacter source.remaining = true ↔
        ∃ literal after, CharacterLiteral literal ∧ source.remaining = literal ++ after) ∧
      ∀ literal after, CharacterLiteral literal → source.remaining = literal ++ after →
        (escapedBody '\'' false source.remaining.tail).1 <+: literal.tail ∧
        (escapedBody '\'' false source.remaining.tail = (literal.tail,after) ↔ literal ≠ threeQuotes) ∧
        (∀ comments, opening (Enclosure.operators comments) source.remaining = some .singleQuote) ∧
        (opening lex source.remaining = some .singleQuote →
          openingDemand lex source.remaining = literal.length ∧
            ((∃ moved : Source, TokenReader.next ⟨lex,some source⟩ =
                (some ⟨String.ofList literal,.singleQuote,source.line⟩,⟨lex,some moved⟩) ∧
              moved.Settled ∧ moved.remaining = after ∧ moved.line = source.line + literal.count '\n') ↔
                literal ≠ threeQuotes)) := by
  refine ⟨opensCharacter_iff _,?_⟩
  intro literal after character ahead
  have split : source.remaining = '\'' :: (literal.tail ++ after) := by
    rw [ahead]
    cases character <;> rfl
  have behind : source.remaining.tail = literal.tail ++ after := by rw [split]; rfl
  have stands : opensCharacter source.remaining = true := (opensCharacter_iff _).mpr ⟨literal,after,character,ahead⟩
  rw [behind]
  refine ⟨escapedBody_character_inside character,escapedBody_character_iff character,?_,?_⟩
  · intro comments
    rw [split] at stands ⊢
    exact opening_character_standard comments stands
  · intro opens
    refine ⟨?_,TokenReader.next_character_iff settled character ahead opens⟩
    rw [ahead] at opens ⊢
    exact openingDemand_character character opens

/-- A quote that a backslash escapes, as a literal. -/
def escapedQuote : List Char := ['\'','\\','\'','\'']

theorem characters_whole_iff_escaped :
    (Source.ofText (escapedQuote ++ [';'])).Settled ∧ CharacterLiteral escapedQuote ∧
      (Source.ofText (escapedQuote ++ [';'])).remaining = escapedQuote ++ [';'] ∧
      opening (Enclosure.operators true) (Source.ofText (escapedQuote ++ [';'])).remaining = some .singleQuote ∧
      openingDemand (Enclosure.operators true) (Source.ofText (escapedQuote ++ [';'])).remaining = 4 ∧
      ∃ moved : Source, TokenReader.next ⟨Enclosure.operators true,some (Source.ofText (escapedQuote ++ [';']))⟩ =
          (some ⟨String.ofList escapedQuote,.singleQuote,1⟩,⟨Enclosure.operators true,some moved⟩) ∧
        moved.Settled ∧ moved.remaining = [';'] ∧ moved.line = 1 := by
  have settled := Source.ofText_settled (escapedQuote ++ [';'])
  have character : CharacterLiteral escapedQuote := .escape '\''
  have ahead : (Source.ofText (escapedQuote ++ [';'])).remaining = escapedQuote ++ [';'] := by decide
  obtain ⟨-,-,standard,taken⟩ :=
    (characters_whole_iff (Enclosure.operators true) settled).2 escapedQuote [';'] character ahead
  obtain ⟨demand,delivered⟩ := taken (standard true)
  exact ⟨settled,character,ahead,standard true,demand,delivered.mpr (by decide)⟩

/-- Recognition looks at all of three quotes, and the token that is delivered has two of them; the third is left. -/
theorem three_quotes_parted :
    opensCharacter threeQuotes = true ∧ openingDemand (Enclosure.operators true) threeQuotes = 3 ∧
      escapedBody '\'' false threeQuotes.tail = (['\''],['\'']) ∧
      ∃ moved : Source, TokenReader.next ⟨Enclosure.operators true,some (Source.ofText threeQuotes)⟩ =
          (some ⟨String.ofList ['\'','\''],.singleQuote,1⟩,⟨Enclosure.operators true,some moved⟩) ∧
        moved.remaining = ['\''] := by
  have settled := Source.ofText_settled threeQuotes
  have character : CharacterLiteral threeQuotes := .plain (by decide)
  have ahead : (Source.ofText threeQuotes).remaining = threeQuotes ++ [] := by decide
  have opens : opening (Enclosure.operators true) threeQuotes = some .singleQuote :=
    opening_character_standard true (by decide)
  obtain ⟨moved,read,-,left,-⟩ := TokenReader.next_character settled character ahead opens
  have demand : openingDemand (Enclosure.operators true) (threeQuotes ++ []) = 3 :=
    openingDemand_character character opens
  exact ⟨by decide,demand,by decide,moved,read,left⟩

end Depends
