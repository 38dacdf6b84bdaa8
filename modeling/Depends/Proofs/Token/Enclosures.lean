import Depends.Proofs.Token.Lossless

/-!
Block comments and strings as grammars. A comment runs to the first closing mark, a string to the first quote that is
not part of a unit of its body: a backslash takes the character after it along, and in a verbatim string a quote takes a
second one along. The scanners, which go character by character, find exactly these ends (`ending_ends`), and without
one they run to the end of the text (`ending_unended`). So each comment or string is one token (`enclosures_whole`).
-/
namespace Depends

/-- What has an opening mark and runs to a closing one: block comments, and strings with and without escapes. -/
inductive Enclosure where
  | comment
  | escaped
  | verbatim
  deriving DecidableEq, Repr

/-- The inside of a string with escapes: characters other than quotes and backslashes, and backslashes that each take the
character after them along, whichever it is. -/
inductive EscapedText : List Char → Prop
  | nil : EscapedText []
  | plain {c : Char} {cs : List Char} : c ≠ '"' → c ≠ '\\' → EscapedText cs → EscapedText (c :: cs)
  | escape {cs : List Char} (c : Char) : EscapedText cs → EscapedText ('\\' :: c :: cs)

/-- The inside of a verbatim string: characters other than quotes, and doubled quotes. -/
inductive VerbatimText : List Char → Prop
  | nil : VerbatimText []
  | plain {c : Char} {cs : List Char} : c ≠ '"' → VerbatimText cs → VerbatimText (c :: cs)
  | doubled {cs : List Char} : VerbatimText cs → VerbatimText ('"' :: '"' :: cs)

namespace Enclosure

/-- The class of the tokens. -/
def kind : Enclosure → TokenKind
  | comment => .blockComment
  | escaped => .doubleQuote
  | verbatim => .doubleQuote

/-- The opening marks. -/
def openings : Enclosure → List (List Char)
  | comment => [['/','*']]
  | escaped => [['"'],['$','"']]
  | verbatim => [['@','"'],['$','@','"'],['@','$','"']]

/-- A body with its closing mark, in front of the text that follows. -/
inductive Ends : Enclosure → List Char → List Char → Prop
  | comment {inner after : List Char} : ¬ ['*','/'] <:+: inner → Ends comment (inner ++ ['*','/']) after
  | escaped {inner after : List Char} : EscapedText inner → Ends escaped (inner ++ ['"']) after
  | verbatim {inner after : List Char} : VerbatimText inner → after.head? ≠ some '"' →
      Ends verbatim (inner ++ ['"']) after

/-- The characters from an opening mark to the closing one, in front of the text that follows; all of the text when
nothing closes it. -/
inductive Spans (e : Enclosure) : List Char → List Char → Prop
  | ended {mark body after : List Char} : mark ∈ e.openings → e.Ends body after → Spans e (mark ++ body) after
  | unended {mark text : List Char} : mark ∈ e.openings →
      (∀ body after, text = body ++ after → ¬ e.Ends body after) → Spans e (mark ++ text) []

/-- What the scanner takes after the opening mark, and what it leaves. -/
def ending : Enclosure → List Char → List Char × List Char
  | comment => commentBody
  | escaped => escapedBody '"' false
  | verbatim => verbatimBody

end Enclosure

/-! ### Comments -/

theorem commentBody_cons {c : Char} {cs : List Char} (goesOn : ∀ rest, c = '*' → cs ≠ '/' :: rest) :
    commentBody (c :: cs) = (c :: (commentBody cs).1,(commentBody cs).2) := by
  rw [commentBody]
  rintro rest rfl rfl
  exact goesOn rest rfl rfl

theorem commentBody_ends {inner after : List Char} (clear : ¬ ['*','/'] <:+: inner) :
    commentBody (inner ++ '*' :: '/' :: after) = (inner ++ ['*','/'],after) := by
  induction inner with
  | nil => rfl
  | cons c inner ih =>
    rw [List.infix_cons_iff,not_or] at clear
    obtain ⟨first,later⟩ := clear
    have goesOn : ∀ rest, c = '*' → inner ++ '*' :: '/' :: after ≠ '/' :: rest := by
      rintro rest rfl next
      cases inner with
      | nil => simp at next
      | cons d inner =>
        obtain ⟨rfl,-⟩ := List.cons.inj next
        exact first ⟨inner,rfl⟩
    rw [List.cons_append,commentBody_cons goesOn,ih later]
    rfl

theorem commentBody_cases (text : List Char) :
    (∃ inner after, text = inner ++ '*' :: '/' :: after ∧ ¬ ['*','/'] <:+: inner) ∨ commentBody text = (text,[]) := by
  induction text with
  | nil => exact .inr rfl
  | cons c cs ih =>
    by_cases closes : c = '*' ∧ ∃ rest, cs = '/' :: rest
    · obtain ⟨rfl,rest,rfl⟩ := closes
      exact .inl ⟨[],rest,rfl,by simp⟩
    · have goesOn : ∀ rest, c = '*' → cs ≠ '/' :: rest := fun rest star slash => closes ⟨star,rest,slash⟩
      rcases ih with ⟨inner,after,split,clear⟩ | all
      · refine .inl ⟨c :: inner,after,by rw [split]; rfl,?_⟩
        rw [List.infix_cons_iff,not_or]
        refine ⟨?_,clear⟩
        rintro ⟨more,first⟩
        obtain ⟨rfl,next⟩ := List.cons.inj first
        apply goesOn (more ++ '*' :: '/' :: after) rfl
        rw [split,← next]
        rfl
      · right
        rw [commentBody_cons goesOn,all]

/-! ### Strings with escapes -/

theorem escapedBody_cons {quote c : Char} {escaped : Bool} (goesOn : ¬ (c = quote ∧ escaped = false)) (cs : List Char) :
    escapedBody quote escaped (c :: cs) =
      (c :: (escapedBody quote (c == '\\' && !escaped) cs).1,(escapedBody quote (c == '\\' && !escaped) cs).2) := by
  rw [escapedBody,if_neg goesOn]

theorem escapedBody_ends {inner : List Char} (text : EscapedText inner) (after : List Char) :
    escapedBody '"' false (inner ++ '"' :: after) = (inner ++ ['"'],after) := by
  induction text with
  | nil => simp [escapedBody]
  | @plain c cs quote backslash _ ih =>
    rw [List.cons_append,escapedBody_cons (by simp [quote]),beq_eq_false_iff_ne.mpr backslash,Bool.false_and,ih]
    rfl
  | @escape cs c _ ih =>
    have next : escapedBody '"' true (c :: (cs ++ '"' :: after)) =
        (c :: (escapedBody '"' false (cs ++ '"' :: after)).1,(escapedBody '"' false (cs ++ '"' :: after)).2) := by
      rw [escapedBody_cons (by simp),Bool.not_true,Bool.and_false]
    rw [List.cons_append,List.cons_append,escapedBody_cons (by decide)]
    simp [next,ih]

/-- A text has a closing quote, or the scanner takes all of it. The backslash that stands before the text, if there is
one, belongs to what is inside. -/
theorem escapedBody_cases (text : List Char) : ∀ escaped : Bool,
    (∃ inner after, EscapedText inner ∧ (if escaped then '\\' :: text else text) = inner ++ '"' :: after) ∨
      escapedBody '"' escaped text = (text,[]) := by
  induction text with
  | nil => exact fun _ => .inr rfl
  | cons c cs ih =>
    intro escaped
    by_cases closes : c = '"' ∧ escaped = false
    · obtain ⟨rfl,rfl⟩ := closes
      exact .inl ⟨[],cs,.nil,rfl⟩
    · rw [escapedBody_cons closes]
      rcases ih (c == '\\' && !escaped) with ⟨inner,after,found,split⟩ | all
      · left
        cases escaped with
        | true =>
          have rest : cs = inner ++ '"' :: after := by simpa using split
          refine ⟨'\\' :: c :: inner,after,.escape c found,?_⟩
          rw [rest]
          rfl
        | false =>
          have quote : c ≠ '"' := fun same => closes ⟨same,rfl⟩
          by_cases backslash : c = '\\'
          · subst backslash
            exact ⟨inner,after,found,split⟩
          · have rest : cs = inner ++ '"' :: after := by simpa [backslash] using split
            refine ⟨c :: inner,after,.plain quote backslash found,?_⟩
            rw [rest]
            rfl
      · right
        rw [all]

/-! ### Verbatim strings -/

theorem verbatimBody_cons {c : Char} (plain : c ≠ '"') (cs : List Char) :
    verbatimBody (c :: cs) = (c :: (verbatimBody cs).1,(verbatimBody cs).2) := by
  rw [verbatimBody]
  · rw [if_neg plain]
  · rintro rest rfl -
    exact plain rfl

theorem verbatimBody_quote {cs : List Char} (single : cs.head? ≠ some '"') : verbatimBody ('"' :: cs) = (['"'],cs) := by
  rw [verbatimBody]
  · rw [if_pos rfl]
  · rintro rest - rfl
    exact single rfl

theorem verbatimBody_ends {inner after : List Char} (text : VerbatimText inner) (single : after.head? ≠ some '"') :
    verbatimBody (inner ++ '"' :: after) = (inner ++ ['"'],after) := by
  induction text with
  | nil => exact verbatimBody_quote single
  | plain quote _ ih => rw [List.cons_append,verbatimBody_cons quote,ih]; rfl
  | doubled _ ih => rw [List.cons_append,List.cons_append,verbatimBody,ih]; rfl

theorem verbatimBody_cases (text : List Char) :
    (∃ inner after, VerbatimText inner ∧ after.head? ≠ some '"' ∧ text = inner ++ '"' :: after) ∨
      verbatimBody text = (text,[]) := by
  fun_induction verbatimBody text with
  | case1 => exact .inr rfl
  | case2 cs body rest found ih =>
    rcases ih with ⟨inner,after,text,single,split⟩ | all
    · exact .inl ⟨'"' :: '"' :: inner,after,.doubled text,single,by rw [split]; rfl⟩
    · right
      obtain ⟨rfl,rfl⟩ := Prod.mk.inj (found.symm.trans all)
      rfl
  | case3 cs alone =>
    refine .inl ⟨[],cs,.nil,?_,rfl⟩
    intro next
    obtain ⟨rest,same⟩ := List.head?_eq_some_iff.mp next
    exact alone rest rfl same
  | case4 c cs alone plain body rest found ih =>
    rcases ih with ⟨inner,after,text,single,split⟩ | all
    · exact .inl ⟨c :: inner,after,.plain plain text,single,by rw [split]; rfl⟩
    · right
      obtain ⟨rfl,rfl⟩ := Prod.mk.inj (found.symm.trans all)
      rfl

/-! ### The end of an enclosure -/

namespace Enclosure

/-- The scanner stops at the end that the grammar gives. -/
theorem ending_ends {e : Enclosure} {body after : List Char} (ends : e.Ends body after) :
    e.ending (body ++ after) = (body,after) := by
  cases ends with
  | comment clear =>
    rw [List.append_assoc]
    exact commentBody_ends clear
  | escaped text =>
    rw [List.append_assoc]
    exact escapedBody_ends text after
  | verbatim text single =>
    rw [List.append_assoc]
    exact verbatimBody_ends text single

/-- Where the grammar has no end, the scanner runs to the end of the text. -/
theorem ending_unended {e : Enclosure} {text : List Char}
    (unended : ∀ body after, text = body ++ after → ¬ e.Ends body after) : e.ending text = (text,[]) := by
  cases e with
  | comment =>
    rcases commentBody_cases text with ⟨inner,after,rfl,clear⟩ | all
    · exact absurd (.comment clear) (unended (inner ++ ['*','/']) after (by simp))
    · exact all
  | escaped =>
    rcases escapedBody_cases text false with ⟨inner,after,found,split⟩ | all
    · exact absurd (.escaped found) (unended (inner ++ ['"']) after (by simpa using split))
    · exact all
  | verbatim =>
    rcases verbatimBody_cases text with ⟨inner,after,found,single,rfl⟩ | all
    · exact absurd (.verbatim found single) (unended (inner ++ ['"']) after (by simp))
    · exact all

/-- The standard operators, with or without comments. -/
def operators (comments : Bool) : Lexicon := { Lexicon.standard with comments }

/-- No standard operator begins with a mark of a string. -/
theorem opening_quote (comments : Bool) (c : Char) (cs : List Char) (mark : c = '"' ∨ c = '$' ∨ c = '@')
    (opens : quoteOpening (c :: cs) ≠ 0) : opening (operators comments) (c :: cs) = some .doubleQuote := by
  have pairs : cs.head?.any (fun d => (operators comments).pairs.contains (c,d)) = false := by
    rw [Option.any_eq_false]
    intro d _
    rcases mark with rfl | rfl | rfl <;> simp [operators,Lexicon.standard,Lexicon.standardPairs]
  have plain : c ≠ '\n' ∧ Text.isSpace c = false ∧ Text.isWord c = false ∧ c ≠ '/' ∧
      Lexicon.standardSingles.contains c = false := by
    rcases mark with rfl | rfl | rfl <;> decide
  obtain ⟨feed,space,word,slash,single⟩ := plain
  rw [show Lexicon.standardSingles = (operators comments).singles from rfl] at single
  simp only [opening,feed,space,word,slash,pairs,single,Bool.false_eq_true,false_and,↓reduceIte]
  rw [if_pos opens]

/-- After an opening mark the chunk goes on as the scanner finds its end. -/
theorem chunk_marked (comments : Bool) {e : Enclosure} {mark : List Char} (listed : mark ∈ e.openings)
    (text : List Char) : ∃ c cs, mark ++ text = c :: cs ∧
      chunk (operators comments) c cs = ⟨e.kind,mark ++ (e.ending text).1,(e.ending text).2⟩ := by
  cases e with
  | comment =>
    rw [openings,List.mem_singleton] at listed
    subst listed
    refine ⟨'/','*' :: text,rfl,?_⟩
    have opens : opening (operators comments) ('/' :: '*' :: text) = some .blockComment := by
      have plain : Text.isSpace '/' = false ∧ Text.isWord '/' = false := by decide
      simp [opening,plain.1,plain.2]
    simp [chunk,opens,kind,ending]
  | escaped =>
    simp only [openings,List.mem_cons,List.not_mem_nil,or_false] at listed
    rcases listed with rfl | rfl
    · have opens := opening_quote comments '"' text (.inl rfl) (by simp [quoteOpening])
      exact ⟨'"',text,rfl,by simp [chunk,opens,quoteOpening,stringBody,kind,ending]⟩
    · have opens := opening_quote comments '$' ('"' :: text) (.inr (.inl rfl)) (by simp [quoteOpening])
      exact ⟨'$','"' :: text,rfl,by simp [chunk,opens,quoteOpening,stringBody,kind,ending]⟩
  | verbatim =>
    simp only [openings,List.mem_cons,List.not_mem_nil,or_false] at listed
    rcases listed with rfl | rfl | rfl
    · have opens := opening_quote comments '@' ('"' :: text) (.inr (.inr rfl)) (by simp [quoteOpening])
      exact ⟨'@','"' :: text,rfl,by simp [chunk,opens,quoteOpening,stringBody,kind,ending]⟩
    · have opens := opening_quote comments '$' ('@' :: '"' :: text) (.inr (.inl rfl))
        (by simp [quoteOpening])
      exact ⟨'$','@' :: '"' :: text,rfl,by simp [chunk,opens,quoteOpening,stringBody,kind,ending]⟩
    · have opens := opening_quote comments '@' ('$' :: '"' :: text) (.inr (.inr rfl))
        (by simp [quoteOpening])
      exact ⟨'@','$' :: '"' :: text,rfl,by simp [chunk,opens,quoteOpening,stringBody,kind,ending]⟩

theorem chunk_spans (comments : Bool) {e : Enclosure} {whole after : List Char} (spans : e.Spans whole after) :
    ∃ c cs, whole ++ after = c :: cs ∧ chunk (operators comments) c cs = ⟨e.kind,whole,after⟩ := by
  cases spans with
  | ended listed ends =>
    obtain ⟨c,cs,split,cut⟩ := chunk_marked comments listed (_ ++ after)
    rw [ending_ends ends] at cut
    exact ⟨c,cs,by rw [List.append_assoc,split],cut⟩
  | unended listed unended =>
    obtain ⟨c,cs,split,cut⟩ := chunk_marked comments listed _
    rw [ending_unended unended] at cut
    exact ⟨c,cs,by rw [List.append_nil,split],cut⟩

end Enclosure

/-- With the standard operators, and wherever a source stands in front of an opening mark: the block comment or string
that begins there, up to the end that its grammar gives or to the end of the text when it has none, is one chunk of
its class, and when such chunks are delivered, it is the next token and the source stands behind it. -/
theorem enclosures_whole (comments : Bool) (e : Enclosure) {source : Source} (settled : source.Settled)
    {whole after : List Char} (ahead : source.remaining = whole ++ after) (spans : e.Spans whole after) :
    let lex : Lexicon := Enclosure.operators comments
    (∃ c cs, source.remaining = c :: cs ∧ chunk lex c cs = ⟨e.kind,whole,after⟩) ∧
      (lex.skips e.kind = false → ∃ moved : Source, TokenReader.next ⟨lex,some source⟩ =
          (some ⟨String.ofList whole,e.kind,source.line⟩,⟨lex,some moved⟩) ∧
        moved.Settled ∧ moved.remaining = after ∧ moved.line = source.line + whole.count '\n') := by
  intro lex
  obtain ⟨c,cs,split,cut⟩ := Enclosure.chunk_spans comments spans
  rw [← ahead] at split
  refine ⟨⟨c,cs,split,cut⟩,?_⟩
  intro delivered
  obtain ⟨moved,read,still,place⟩ := TokenReader.next_eq lex settled
  have text : Chunk.text ⟨e.kind,whole,after⟩ = String.ofList whole := by
    cases e <;> rfl
  have next : nextToken lex source.remaining source.line =
      (some ⟨String.ofList whole,e.kind,source.line⟩,⟨after,source.line + whole.count '\n'⟩) := by
    rw [split,nextToken]
    simp only [lex,cut,text]
    rw [if_neg (by simpa [lex] using delivered)]
  rw [next] at read place
  obtain ⟨rest,line⟩ := Cursor.mk.inj place
  exact ⟨moved,read,still,rest,line⟩

/-- A verbatim string with a doubled quote inside and a backslash in front of its closing quote. -/
def quotedPath : List Char := ['$','@','"','a','"','"','b','\\','"']

theorem enclosures_whole_path :
    (Source.ofText (quotedPath ++ ['+','"','c','"'])).Settled ∧
      (Source.ofText (quotedPath ++ ['+','"','c','"'])).remaining = quotedPath ++ ['+','"','c','"'] ∧
      Enclosure.verbatim.Spans quotedPath ['+','"','c','"'] ∧
      (Enclosure.operators true).skips .doubleQuote = false ∧
      ∃ moved : Source, TokenReader.next ⟨Enclosure.operators true,some (Source.ofText (quotedPath ++ ['+','"','c','"']))⟩ =
          (some ⟨String.ofList quotedPath,.doubleQuote,1⟩,⟨Enclosure.operators true,some moved⟩) ∧
        moved.Settled ∧ moved.remaining = ['+','"','c','"'] ∧ moved.line = 1 := by
  have settled := Source.ofText_settled (quotedPath ++ ['+','"','c','"'])
  have ahead : (Source.ofText (quotedPath ++ ['+','"','c','"'])).remaining = quotedPath ++ ['+','"','c','"'] := by decide
  have inner : VerbatimText ['a','"','"','b','\\'] :=
    .plain (by decide) (.doubled (.plain (by decide) (.plain (by decide) .nil)))
  have mark : ['$','@','"'] ∈ Enclosure.verbatim.openings := by decide
  have spans : Enclosure.verbatim.Spans quotedPath ['+','"','c','"'] := .ended mark (.verbatim inner (by decide))
  have delivered : (Enclosure.operators true).skips .doubleQuote = false := rfl
  exact ⟨settled,ahead,spans,delivered,(enclosures_whole true .verbatim settled ahead spans).2 delivered⟩

end Depends
