import Depends.Proofs.Source.View
import Depends.Proofs.Token.Cut

/-!
Reading tokens off a source against cutting chunks off a text. A source answers what it is asked like the text that it
has still to deliver, as long as nobody looks further ahead than it allows. Each class of tokens keeps to that: it finds
on the source what its start condition says of the text (`Ahead.startsToken`), and takes off the source what is cut off
the text (`Ahead.extract`). So the next token of a source is that of its text, with the source behind it
(`Ahead.getToken`), and the class of a token is found by looking just as far as `openingDemand` says
(`Ahead.recognized`).
-/
namespace Depends

/-- The characters inspected to find the class that opens here. -/
def openingDemand (lex : Lexicon) : List Char → Nat
  | [] => 1
  | c :: cs =>
    if c = '\n' ∨ Text.isSpace c ∨ Text.isWord c then 1
    else if c = '/' ∧ (cs.head? = some '*' ∨ cs.head? = some '/') then 2
    else if cs.head?.any (fun d => lex.pairs.contains (c,d)) ∨ lex.singles.contains c then 2
    else
      match c :: cs with
      | '@' :: '$' :: _ => 3
      | '$' :: '@' :: _ => 3
      | '\'' :: '\\' :: _ => 4
      | '\'' :: _ :: _ => 3
      | _ => 2

/-- The characters that a string opening is looked for in. -/
def quoteLook (cs : List Char) : Nat :=
  if Source.isMark cs[0]? then if Source.isMark cs[1]? ∧ cs[0]? ≠ cs[1]? then 3 else 2 else 1

/-- The characters that a character literal is looked for in. -/
def characterLook (cs : List Char) : Nat :=
  if cs[0]? = some '\'' then if cs[1]? = some '\\' then 4 else if cs[1]? = none then 2 else 3 else 1

/-- The characters inspected to see whether a token of a class starts. -/
def look : TokenKind → List Char → Nat
  | .blockComment,cs => if cs[0]? = some '/' then 2 else 1
  | .lineComment,cs => if cs[0]? = some '/' then 2 else 1
  | .pair,_ => 2
  | .doubleQuote,cs => quoteLook cs
  | .singleQuote,cs => characterLook cs
  | _,_ => 1

namespace Source

variable {s : Source} {text : List Char} {line : Nat}

/-! ### Where a token starts -/

theorem Ahead.peek_zero (ahead : s.Ahead text line) : s.peek 0 = (text[0]?,s.require 1) := ahead.peek (by decide)

/-- Looking further after some characters were inspected. -/
theorem Ahead.peek_again (ahead : s.Ahead text line) (seen : Nat) {n : Nat} (near : n < maxLookahead) :
    (s.require seen).peek n = (text[n]?,s.require (max seen (n + 1))) := by
  rw [(ahead.require seen).peek near,require_require]

theorem Ahead.startsWith (ahead : s.Ahead text line) (first second : Char) :
    s.startsWith first second =
      (text[0]? == some first && text[1]? == some second,s.require (if text[0]? = some first then 2 else 1)) := by
  have next : (s.require 1).peek 1 = (text[1]?,s.require 2) := ahead.peek_again 1 (by decide)
  rw [Source.startsWith,ahead.peek_zero]
  by_cases here : text[0]? = some first
  · simp [here,next]
  · simp [here]

/-- The two marks that may stand in front of the quote of a string, in either order. -/
def Marks (mark other : Char) : Prop := mark = '@' ∧ other = '$' ∨ mark = '$' ∧ other = '@'

theorem exists_marks {c : Char} (mark : isMark (some c) = true) : ∃ other, Marks c other := by
  have either : c = '@' ∨ c = '$' := by simpa [isMark] using mark
  rcases either with rfl | rfl
  · exact ⟨'$',.inl ⟨rfl,rfl⟩⟩
  · exact ⟨'@',.inr ⟨rfl,rfl⟩⟩

theorem Marks.other_iff {mark other : Char} (marks : Marks mark other) (c : Option Char) :
    (isMark c = true ∧ some mark ≠ c) ↔ c = some other := by
  rcases marks with ⟨rfl,rfl⟩ | ⟨rfl,rfl⟩ <;> simp only [isMark,Bool.or_eq_true,beq_iff_eq] <;> grind

/-- Behind a mark a string opens with the quote, or with the other mark and the quote. -/
theorem Marks.quoteOpening {mark other : Char} (marks : Marks mark other) (cs : List Char) :
    quoteOpening (mark :: cs) =
      if cs[0]? = some '"' then 2 else if cs[0]? = some other ∧ cs[1]? = some '"' then 3 else 0 := by
  rcases cs with _ | ⟨b,cs⟩
  · rcases marks with ⟨rfl,rfl⟩ | ⟨rfl,rfl⟩ <;> rfl
  · by_cases second : b = '"'
    · rcases marks with ⟨rfl,rfl⟩ | ⟨rfl,rfl⟩ <;> simp [second,Depends.quoteOpening]
    · by_cases both : b = other
      · rcases cs with _ | ⟨c,cs⟩
        · rcases marks with ⟨rfl,rfl⟩ | ⟨rfl,rfl⟩ <;> simp [both,Depends.quoteOpening]
        · by_cases third : c = '"'
          · rcases marks with ⟨rfl,rfl⟩ | ⟨rfl,rfl⟩ <;> simp [both,third,Depends.quoteOpening]
          · rcases marks with ⟨rfl,rfl⟩ | ⟨rfl,rfl⟩ <;> simp [both,third,Depends.quoteOpening]
      · rcases marks with ⟨rfl,rfl⟩ | ⟨rfl,rfl⟩ <;> simp [second,both,Depends.quoteOpening]

theorem Ahead.quoteSize (ahead : s.Ahead text line) : s.quoteSize = (quoteOpening text,s.require (quoteLook text)) := by
  have second : (s.require 1).peek 1 = (text[1]?,s.require 2) := ahead.peek_again 1 (by decide)
  have third : (s.require 2).peek 2 = (text[2]?,s.require 3) := ahead.peek_again 2 (by decide)
  rw [Source.quoteSize,ahead.peek_zero]
  simp only [second,third,quoteLook]
  cases text with
  | nil => rfl
  | cons a cs =>
    cases marked : isMark (some a) with
    | true =>
      obtain ⟨other,marks⟩ := exists_marks marked
      have plain : a ≠ '"' ∧ other ≠ '"' := by rcases marks with ⟨rfl,rfl⟩ | ⟨rfl,rfl⟩ <;> decide
      simp only [marks.quoteOpening,List.getElem?_cons_zero,List.getElem?_cons_succ,marks.other_iff,marked]
      by_cases opens : cs[0]? = some '"'
      · simp [opens,plain,Ne.symm plain.2]
      · by_cases both : cs[0]? = some other
        · simp [both,plain]
        · simp [opens,both,plain]
    | false =>
      have neither : a ≠ '@' ∧ a ≠ '$' := by simpa [isMark] using marked
      by_cases quote : a = '"'
      · simp [quote,quoteOpening,isMark]
      · simp [quote,marked,neither,quoteOpening]

theorem Ahead.startsCharacter (ahead : s.Ahead text line) :
    s.startsCharacter = (opensCharacter text,s.require (characterLook text)) := by
  have second : (s.require 1).peek 1 = (text[1]?,s.require 2) := ahead.peek_again 1 (by decide)
  have third : (s.require 2).peek 2 = (text[2]?,s.require 3) := ahead.peek_again 2 (by decide)
  have fourth : (s.require 2).peek 3 = (text[3]?,s.require 4) := ahead.peek_again 2 (by decide)
  rw [Source.startsCharacter,ahead.peek_zero]
  simp only [second,third,fourth]
  rcases text with _ | ⟨a,_ | ⟨b,cs⟩⟩
  · rfl
  · by_cases quote : a = '\''
    · simp [quote,opensCharacter,characterLook]
    · simp [quote,opensCharacter,characterLook]
  · by_cases quote : a = '\''
    · by_cases backslash : b = '\\'
      · simp [quote,backslash,opensCharacter,characterLook]
      · rcases cs with _ | ⟨c,cs⟩
        · simp [quote,backslash,opensCharacter,characterLook]
        · by_cases closing : c = '\''
          · simp [quote,backslash,closing,opensCharacter,characterLook]
          · simp [quote,backslash,closing,opensCharacter,characterLook]
    · simp [quote,opensCharacter,characterLook]

/-- A class finds on the source what its start condition says of the text ahead. -/
theorem Ahead.startsToken (ahead : s.Ahead text line) (lex : Lexicon) (kind : TokenKind) :
    s.startsToken lex kind = (starts lex kind text,s.require (look kind text)) := by
  have second : (s.require 1).peek 1 = (text[1]?,s.require 2) := ahead.peek_again 1 (by decide)
  cases kind with
  | blockComment => exact ahead.startsWith '/' '*'
  | lineComment => exact ahead.startsWith '/' '/'
  | doubleQuote => rw [Source.startsToken,ahead.quoteSize]; rfl
  | singleQuote => exact ahead.startsCharacter
  | punct => rw [Source.startsToken,ahead.atEnd]; rfl
  | pair =>
    rw [Source.startsToken,ahead.peek_zero]
    simp only [second]
    rfl
  | _ => rw [Source.startsToken,ahead.peek_zero]; rfl

/-- The characters inspected to find the first of some classes of which a token starts. -/
def firstLook (lex : Lexicon) (cs : List Char) : List TokenKind → Nat
  | [] => 0
  | kind :: kinds => if starts lex kind cs then look kind cs else max (look kind cs) (firstLook lex cs kinds)

theorem Ahead.firstStart (lex : Lexicon) (kinds : List TokenKind) : ∀ {s : Source}, s.Ahead text line →
    s.firstStart lex kinds = (kinds.find? (starts lex · text),s.require (firstLook lex text kinds)) := by
  induction kinds with
  | nil =>
    intro s ahead
    simp [Source.firstStart,firstLook,Source.require,readMore]
  | cons kind kinds ih =>
    intro s ahead
    rw [Source.firstStart,ahead.startsToken,List.find?_cons,firstLook]
    cases here : starts lex kind text with
    | true => rfl
    | false =>
      have later := ih (ahead.require (look kind text))
      rw [require_require] at later
      exact later

/-- Behind the first character of a literal two more places are looked at, or three behind a backslash. -/
theorem literalLook_eq (c : Char) (cs : List Char) :
    max 2 (if quoteOpening (c :: cs) ≠ 0 then quoteLook (c :: cs)
        else max (quoteLook (c :: cs)) (characterLook (c :: cs))) =
      match c :: cs with
      | '@' :: '$' :: _ => 3
      | '$' :: '@' :: _ => 3
      | '\'' :: '\\' :: _ => 4
      | '\'' :: _ :: _ => 3
      | _ => 2 := by
  by_cases quote : c = '\''
  · have noString : quoteOpening (c :: cs) = 0 := by simp [quote,quoteOpening]
    rw [if_neg (not_not_intro noString)]
    subst quote
    rcases cs with _ | ⟨b,cs⟩
    · rfl
    · by_cases backslash : b = '\\'
      · simp [backslash,quoteLook,characterLook,isMark]
      · simp [backslash,quoteLook,characterLook,isMark]
  · have noCharacter : characterLook (c :: cs) = 1 := by simp [quote,characterLook]
    cases marked : isMark (some c) with
    | true =>
      obtain ⟨other,marks⟩ := exists_marks marked
      have look : quoteLook (c :: cs) = if cs[0]? = some other then 3 else 2 := by
        simp only [quoteLook,List.getElem?_cons_zero,List.getElem?_cons_succ,marked,marks.other_iff,↓reduceIte]
      have same : (if quoteOpening (c :: cs) ≠ 0 then quoteLook (c :: cs)
          else max (quoteLook (c :: cs)) (characterLook (c :: cs))) = quoteLook (c :: cs) := by
        rw [noCharacter,look]
        repeat' split
        all_goals omega
      rw [same,look]
      rcases cs with _ | ⟨b,cs⟩
      · rcases marks with ⟨rfl,rfl⟩ | ⟨rfl,rfl⟩ <;> rfl
      · by_cases both : b = other
        · rcases marks with ⟨rfl,rfl⟩ | ⟨rfl,rfl⟩ <;> simp [both]
        · rcases marks with ⟨rfl,rfl⟩ | ⟨rfl,rfl⟩ <;> simp [both]
    | false =>
      have neither : c ≠ '@' ∧ c ≠ '$' := by simpa [isMark] using marked
      have look : quoteLook (c :: cs) = 1 := by simp [quoteLook,marked]
      simp [noCharacter,look,quote,neither]

theorem firstLook_claimants (lex : Lexicon) (c : Char) (cs : List Char) :
    firstLook lex (c :: cs) claimants = openingDemand lex (c :: cs) := by
  simp only [claimants,firstLook,starts,look,openingDemand]
  by_cases early : c = '\n' ∨ Text.isSpace c = true ∨ Text.isWord c = true
  · rw [if_pos early]
    by_cases feed : c = '\n'
    · simp [feed]
    · by_cases space : Text.isSpace c = true
      · simp [feed,space,isBlankChar]
      · have word : Text.isWord c = true := (early.resolve_left feed).resolve_left space
        simp [feed,space,word,isBlankChar]
  · rw [if_neg early,← literalLook_eq]
    simp only [not_or,Bool.not_eq_true] at early
    obtain ⟨feed,space,word⟩ := early
    simp only [List.getElem?_cons_zero,List.getElem?_cons_succ,List.head?_eq_getElem?,Option.any_some,isBlankChar,feed,
      space,word,bne_iff_ne,Nat.max_zero,ite_self,Option.some.injEq,beq_iff_eq,Bool.and_eq_true,Bool.and_false,
      Bool.false_eq_true,↓reduceIte]
    generalize (if quoteOpening (c :: cs) ≠ 0 then quoteLook (c :: cs)
      else max (quoteLook (c :: cs)) (characterLook (c :: cs))) = literal
    generalize cs[0]?.any (fun d => lex.pairs.contains (c,d)) = pair
    generalize lex.singles.contains c = single
    by_cases slash : c = '/'
    · by_cases block : cs[0]? = some '*'
      · simp [slash,block]
      · by_cases comment : cs[0]? = some '/'
        · simp [slash,comment]
        · cases pair <;> cases single <;> simp [slash,block,comment,← Nat.max_assoc]
    · cases pair <;> cases single <;> simp [slash,← Nat.max_assoc]

/-- Which class opens is found by looking as far as the text demands. -/
theorem Ahead.recognized {c : Char} {cs : List Char} (ahead : s.Ahead (c :: cs) line) (lex : Lexicon) :
    s.firstStart lex claimants = (opening lex (c :: cs),s.require (openingDemand lex (c :: cs))) := by
  rw [Ahead.firstStart lex claimants ahead,opening_eq_find?,firstLook_claimants]

/-! ### Where it ends -/

/-- What a reading took off a text, and what is left of the text. -/
def Takes (outcome : List Char × Source) (taken rest : List Char) (line : Nat) : Prop :=
  ∃ t, outcome = (taken,t) ∧ t.Ahead rest (line + taken.count '\n')

variable {t : Source} {c : Char} {cs rest first second : List Char} {budget : Nat}

private theorem exists_room {size : Nat} (enough : size < budget) : ∃ left, budget = left + 1 := ⟨budget - 1,by omega⟩

private theorem cons_of_first {cs : List Char} (first : cs[0]? = some c) : ∃ rest, cs = c :: rest := by
  cases cs with
  | nil => cases first
  | cons d cs => exact ⟨cs,congrArg (· :: cs) (Option.some.inj first)⟩

/-- What was taken one after the other was taken together. -/
theorem Ahead.join (behind : t.Ahead rest (line + first.count '\n' + second.count '\n')) :
    t.Ahead rest (line + (first ++ second).count '\n') := by
  rwa [List.count_append,← Nat.add_assoc]

theorem Ahead.shift (ahead : s.Ahead (c :: cs) line) : ∃ t, s.shift = (c,t) ∧ t.Ahead cs (line + [c].count '\n') := by
  refine ⟨(s.require 1).drop 1,?_,ahead.consume⟩
  rw [Source.shift,ahead.next]
  rfl

theorem Ahead.shiftMany (count : Nat) : ∀ {s : Source} {text : List Char} {line : Nat}, s.Ahead text line →
    count ≤ text.length → Takes (s.shiftMany count) (text.take count) (text.drop count) line := by
  induction count with
  | zero => exact fun {s _ _} ahead _ => ⟨s,rfl,ahead⟩
  | succ count ih =>
    intro s text line ahead inside
    obtain ⟨c,cs,rfl⟩ := List.exists_cons_of_length_pos (Nat.lt_of_lt_of_le (Nat.succ_pos count) inside)
    obtain ⟨t,shifted,behind⟩ := ahead.shift
    obtain ⟨u,more,last⟩ := ih behind (Nat.le_of_succ_le_succ inside)
    refine ⟨u,?_,last.join⟩
    simp only [Source.shiftMany,shifted,more,List.take_succ_cons]

theorem Ahead.scanWhile (keeps : Char → Bool) (text : List Char) : ∀ {budget : Nat} {s : Source} {line : Nat},
    s.Ahead text line → text.length < budget →
      Takes (s.scanWhile keeps budget) (text.takeWhile keeps) (text.dropWhile keeps) line := by
  induction text with
  | nil =>
    intro budget s line ahead enough
    obtain ⟨budget,rfl⟩ := exists_room enough
    refine ⟨s.require 1,?_,ahead.require 1⟩
    rw [Source.scanWhile,ahead.peek_zero]
    rfl
  | cons c cs ih =>
    intro budget s line ahead enough
    obtain ⟨budget,rfl⟩ := exists_room enough
    cases kept : keeps c with
    | false =>
      refine ⟨s.require 1,?_,?_⟩
      · simp [Source.scanWhile,ahead.peek_zero,kept]
      · simpa [kept] using ahead.require 1
    | true =>
      obtain ⟨t,shifted,behind⟩ := (ahead.require 1).shift
      obtain ⟨u,run,last⟩ := ih behind (Nat.lt_of_succ_lt_succ enough)
      refine ⟨u,?_,?_⟩
      · simp [Source.scanWhile,ahead.peek_zero,kept,shifted,run]
      · rw [List.takeWhile_cons_of_pos kept,List.dropWhile_cons_of_pos kept]
        exact last.join

theorem Ahead.scanComment (text : List Char) : ∀ {budget : Nat} {s : Source} {line : Nat},
    s.Ahead text line → text.length < budget →
      Takes (s.scanComment budget) (commentBody text).1 (commentBody text).2 line := by
  fun_induction commentBody text with
  | case1 =>
    intro budget s line ahead enough
    obtain ⟨budget,rfl⟩ := exists_room enough
    refine ⟨s.require 1,?_,ahead.require 1⟩
    rw [Source.scanComment,ahead.atEnd]
    rfl
  | case2 rest =>
    intro budget s line ahead enough
    obtain ⟨budget,rfl⟩ := exists_room enough
    have inside := ahead.require 1
    obtain ⟨t,shifted,behind⟩ := (inside.require 2).shiftMany 2 (by simp)
    refine ⟨t,?_,behind⟩
    simpa [Source.scanComment,ahead.atEnd,inside.startsWith] using shifted
  | case3 c cs closing body rest found ih =>
    intro budget s line ahead enough
    obtain ⟨budget,rfl⟩ := exists_room enough
    have inside := ahead.require 1
    obtain ⟨t,shifted,behind⟩ := (inside.require (if c = '*' then 2 else 1)).shift
    obtain ⟨u,more,last⟩ := ih behind (Nat.lt_of_succ_lt_succ enough)
    rw [found] at more last
    have goesOn : c = '*' → ¬ cs[0]? = some '/' := by
      intro star slash
      obtain ⟨cs,rfl⟩ := cons_of_first slash
      exact closing cs star rfl
    refine ⟨u,?_,last.join⟩
    simp only [Source.scanComment,ahead.atEnd,inside.startsWith,List.getElem?_cons_zero,List.getElem?_cons_succ,
      Option.some.injEq,shifted,more]
    simpa using fun star slash => absurd slash (goesOn star)

theorem Ahead.scanVerbatim (text : List Char) : ∀ {budget : Nat} {s : Source} {line : Nat},
    s.Ahead text line → text.length < budget →
      Takes (s.scanVerbatim budget) (verbatimBody text).1 (verbatimBody text).2 line := by
  fun_induction verbatimBody text with
  | case1 =>
    intro budget s line ahead enough
    obtain ⟨budget,rfl⟩ := exists_room enough
    refine ⟨s.require 1,?_,ahead.require 1⟩
    rw [Source.scanVerbatim,ahead.atEnd]
    rfl
  | case2 cs body rest found ih =>
    intro budget s line ahead enough
    obtain ⟨budget,rfl⟩ := exists_room enough
    obtain ⟨t,first,behind⟩ := (ahead.require 1).shift
    obtain ⟨u,second,further⟩ := (behind.require 1).shift
    obtain ⟨v,more,last⟩ := ih further (Nat.lt_of_succ_lt (Nat.lt_of_succ_lt_succ enough))
    rw [found] at more last
    refine ⟨v,?_,last.join.join⟩
    simp [Source.scanVerbatim,ahead.atEnd,first,behind.peek_zero,second,more]
  | case3 cs single =>
    intro budget s line ahead enough
    obtain ⟨budget,rfl⟩ := exists_room enough
    obtain ⟨t,first,behind⟩ := (ahead.require 1).shift
    have alone : ¬ cs[0]? = some '"' := by
      intro double
      obtain ⟨cs,rfl⟩ := cons_of_first double
      exact single cs rfl rfl
    refine ⟨t.require 1,?_,behind.require 1⟩
    simp [Source.scanVerbatim,ahead.atEnd,first,behind.peek_zero,alone]
  | case4 c cs _ inside body rest found ih =>
    intro budget s line ahead enough
    obtain ⟨budget,rfl⟩ := exists_room enough
    obtain ⟨t,first,behind⟩ := (ahead.require 1).shift
    obtain ⟨u,more,last⟩ := ih behind (Nat.lt_of_succ_lt_succ enough)
    rw [found] at more last
    refine ⟨u,?_,last.join⟩
    simp [Source.scanVerbatim,ahead.atEnd,first,inside,more]

/-- The number of backslashes right before a place tells whether it is escaped. -/
theorem Ahead.scanEscaped (quote : Char) (escaped : Bool) (text : List Char) :
    ∀ (backslashes : Nat) {budget : Nat} {s : Source} {line : Nat}, escaped = decide (backslashes % 2 = 1) →
      s.Ahead text line → text.length < budget →
        Takes (s.scanEscaped quote backslashes budget) (escapedBody quote escaped text).1
          (escapedBody quote escaped text).2 line := by
  fun_induction escapedBody quote escaped text with
  | case1 escaped =>
    intro backslashes budget s line odd ahead enough
    obtain ⟨budget,rfl⟩ := exists_room enough
    refine ⟨s.require 1,?_,ahead.require 1⟩
    rw [Source.scanEscaped,ahead.atEnd]
    rfl
  | case2 escaped c cs closes =>
    intro backslashes budget s line odd ahead enough
    obtain ⟨budget,rfl⟩ := exists_room enough
    obtain ⟨t,first,behind⟩ := (ahead.require 1).shift
    have even : backslashes % 2 = 0 := by
      have plain : ¬ backslashes % 2 = 1 := by simpa [closes.2] using odd
      omega
    refine ⟨t,?_,behind⟩
    simp [Source.scanEscaped,ahead.atEnd,first,closes.1,even]
  | case3 escaped c cs inside body rest found ih =>
    intro backslashes budget s line odd ahead enough
    obtain ⟨budget,rfl⟩ := exists_room enough
    obtain ⟨t,first,behind⟩ := (ahead.require 1).shift
    have goesOn : ¬ (c = quote ∧ backslashes % 2 = 0) := by
      rintro ⟨same,even⟩
      exact inside ⟨same,by simp [odd,even]⟩
    have next : (c == '\\' && !escaped) = decide ((if c = '\\' then backslashes + 1 else 0) % 2 = 1) := by
      by_cases backslash : c = '\\'
      · rcases Nat.mod_two_eq_zero_or_one backslashes with even | uneven
        · simp [odd,backslash,Nat.add_mod,even]
        · simp [odd,backslash,Nat.add_mod,uneven]
      · simp [backslash]
    obtain ⟨u,more,last⟩ := ih _ next behind (Nat.lt_of_succ_lt_succ enough)
    rw [found] at more last
    refine ⟨u,?_,last.join⟩
    simp [Source.scanEscaped,ahead.atEnd,first,goesOn,more]

theorem Ahead.scanUnclaimed (lex : Lexicon) (text : List Char) : ∀ {budget : Nat} {s : Source} {line : Nat},
    s.Ahead text line → text.length < budget →
      Takes (s.scanUnclaimed lex budget) (unclaimed lex text).1 (unclaimed lex text).2 line := by
  fun_induction unclaimed lex text with
  | case1 =>
    intro budget s line ahead enough
    obtain ⟨budget,rfl⟩ := exists_room enough
    refine ⟨s.require 1,?_,ahead.require 1⟩
    rw [Source.scanUnclaimed,ahead.atEnd]
    rfl
  | case2 c cs kind opens =>
    intro budget s line ahead enough
    obtain ⟨budget,rfl⟩ := exists_room enough
    have inside := ahead.require 1
    refine ⟨_,?_,inside.require (openingDemand lex (c :: cs))⟩
    simp [Source.scanUnclaimed,ahead.atEnd,inside.recognized,opens]
  | case3 c cs none run rest found ih =>
    intro budget s line ahead enough
    obtain ⟨budget,rfl⟩ := exists_room enough
    have inside := ahead.require 1
    obtain ⟨t,first,behind⟩ := (inside.require (openingDemand lex (c :: cs))).shift
    obtain ⟨u,more,last⟩ := ih behind (Nat.lt_of_succ_lt_succ enough)
    rw [found] at more last
    refine ⟨u,?_,last.join⟩
    simp [Source.scanUnclaimed,ahead.atEnd,inside.recognized,none,first,more]

/-- The body of a string is read by the marks in front of it. -/
theorem Ahead.scanBody (ahead : s.Ahead text line) (mark : List Char) (enough : text.length < budget) :
    Takes (if mark.contains '@' then s.scanVerbatim budget else s.scanEscaped '"' 0 budget) (stringBody mark text).1
      (stringBody mark text).2 line := by
  unfold stringBody
  split
  · exact Ahead.scanVerbatim text ahead enough
  · exact Ahead.scanEscaped '"' false text 0 rfl ahead enough

/-! ### Tokens -/

/-- A class that opens starts a token. -/
theorem starts_of_opening {lex : Lexicon} {text : List Char} {kind : TokenKind} (opens : opening lex text = some kind) :
    starts lex kind text = true := by
  rw [opening_eq_find?] at opens
  have first := List.find?_some opens
  exact first

theorem quoteOpening_le (cs : List Char) : quoteOpening cs ≤ cs.length := by
  unfold quoteOpening
  split <;> simp

section

variable {lex : Lexicon} (ahead : s.Ahead (c :: cs) line)
include ahead

/-- A run is read as its first character and what follows. -/
theorem Ahead.scanRun {keeps : Char → Bool} (kept : keeps c = true) (enough : (c :: cs).length < budget) :
    Takes (s.scanWhile keeps budget) (c :: cs.takeWhile keeps) (cs.dropWhile keeps) line := by
  have run := Ahead.scanWhile keeps (c :: cs) ahead enough
  rwa [List.takeWhile_cons_of_pos kept,List.dropWhile_cons_of_pos kept] at run

theorem Ahead.extract_newline (opens : opening lex (c :: cs) = some .newline) (enough : cs.length < budget) :
    ∃ t, s.extract lex budget .newline = (['\n'],t) ∧
      t.Ahead (chunk lex c cs).rest (line + (chunk lex c cs).raw.count '\n') := by
  obtain ⟨t,first,behind⟩ := ahead.shift
  obtain ⟨u,more,last⟩ := Ahead.scanWhile (· == '\n') cs behind enough
  simp only [chunk,opens]
  refine ⟨u,?_,last.join⟩
  simp only [Source.extract,first,more]

theorem Ahead.extract_whitespace (opens : opening lex (c :: cs) = some .whitespace)
    (enough : (c :: cs).length < budget) :
    Takes (s.extract lex budget .whitespace) (chunk lex c cs).raw (chunk lex c cs).rest line := by
  have blank : isBlankChar c = true := by simpa [starts] using starts_of_opening opens
  simp only [chunk,opens]
  exact ahead.scanRun blank enough

theorem Ahead.extract_word (opens : opening lex (c :: cs) = some .word) (enough : (c :: cs).length < budget) :
    Takes (s.extract lex budget .word) (chunk lex c cs).raw (chunk lex c cs).rest line := by
  have letter : Text.isWord c = true := by simpa [starts] using starts_of_opening opens
  simp only [chunk,opens]
  exact ahead.scanRun letter enough

theorem Ahead.extract_lineComment (opens : opening lex (c :: cs) = some .lineComment)
    (enough : (c :: cs).length < budget) :
    Takes (s.extract lex budget .lineComment) (chunk lex c cs).raw (chunk lex c cs).rest line := by
  have slash : c = '/' ∧ cs[0]? = some '/' := by simpa [starts] using starts_of_opening opens
  simp only [chunk,opens]
  exact ahead.scanRun (by simp [slash]) enough

theorem Ahead.extract_blockComment (opens : opening lex (c :: cs) = some .blockComment)
    (enough : (c :: cs).length < budget) :
    Takes (s.extract lex budget .blockComment) (chunk lex c cs).raw (chunk lex c cs).rest line := by
  have mark : c = '/' ∧ cs[0]? = some '*' := by simpa [starts] using starts_of_opening opens
  obtain ⟨cs,rfl⟩ := cons_of_first mark.2
  obtain ⟨t,first,behind⟩ := Ahead.shiftMany 2 ahead (by simp)
  obtain ⟨u,body,last⟩ := Ahead.scanComment cs behind (Nat.lt_of_succ_lt (Nat.lt_of_succ_lt enough))
  simp only [chunk,opens]
  refine ⟨u,?_,last.join⟩
  simp only [Source.extract,first,body]
  rfl

theorem Ahead.extract_pair (opens : opening lex (c :: cs) = some .pair) :
    Takes (s.extract lex budget .pair) (chunk lex c cs).raw (chunk lex c cs).rest line := by
  have two : ∃ d, cs[0]? = some d := by
    have pair := starts_of_opening opens
    cases cs with
    | nil => simp [starts] at pair
    | cons d cs => exact ⟨d,rfl⟩
  obtain ⟨d,second⟩ := two
  obtain ⟨cs,rfl⟩ := cons_of_first second
  simp only [chunk,opens]
  exact Ahead.shiftMany 2 ahead (by simp)

theorem Ahead.extract_single (opens : opening lex (c :: cs) = some .single) :
    Takes (s.extract lex budget .single) (chunk lex c cs).raw (chunk lex c cs).rest line := by
  simp only [chunk,opens]
  exact Ahead.shiftMany 1 ahead (by simp)

theorem Ahead.extract_doubleQuote (opens : opening lex (c :: cs) = some .doubleQuote)
    (enough : (c :: cs).length < budget) :
    Takes (s.extract lex budget .doubleQuote) (chunk lex c cs).raw (chunk lex c cs).rest line := by
  have quoted : quoteOpening (c :: cs) ≠ 0 := by simpa [starts] using starts_of_opening opens
  obtain ⟨size,marked⟩ := Nat.exists_eq_succ_of_ne_zero quoted
  have inside := quoteOpening_le (c :: cs)
  rw [marked] at inside
  obtain ⟨t,mark,behind⟩ := Ahead.shiftMany (size + 1) (ahead.require (quoteLook (c :: cs))) inside
  rw [List.take_succ_cons] at mark behind
  rw [List.drop_succ_cons] at behind
  have fewer : (cs.drop size).length < budget := by
    rw [List.length_drop]
    exact Nat.lt_of_le_of_lt (Nat.sub_le _ _) (Nat.lt_of_succ_lt enough)
  obtain ⟨u,body,last⟩ := behind.scanBody (c :: cs.take size) fewer
  simp only [chunk,opens,marked,Nat.succ_eq_add_one,Nat.add_sub_cancel]
  refine ⟨u,?_,last.join⟩
  simp only [Source.extract,ahead.quoteSize,marked,Nat.succ_eq_add_one,mark,body]

theorem Ahead.extract_singleQuote (opens : opening lex (c :: cs) = some .singleQuote) (enough : cs.length < budget) :
    Takes (s.extract lex budget .singleQuote) (chunk lex c cs).raw (chunk lex c cs).rest line := by
  obtain ⟨t,first,behind⟩ := ahead.shift
  obtain ⟨u,body,last⟩ := Ahead.scanEscaped '\'' false cs 0 rfl behind enough
  simp only [chunk,opens]
  refine ⟨u,?_,last.join⟩
  simp only [Source.extract,first,body]

theorem Ahead.extract_punct (opens : opening lex (c :: cs) = none) (enough : cs.length < budget) :
    Takes (s.extract lex budget .punct) (chunk lex c cs).raw (chunk lex c cs).rest line := by
  obtain ⟨t,first,behind⟩ := ahead.shift
  obtain ⟨u,run,last⟩ := Ahead.scanUnclaimed lex cs behind enough
  simp only [chunk,opens]
  refine ⟨u,?_,last.join⟩
  simp only [Source.extract,first,run]

/-- The class of a chunk takes off the source what the chunk has; of a run of line feeds it delivers one. -/
theorem Ahead.extract (lex : Lexicon) (enough : (c :: cs).length < budget) :
    ∃ chars t, s.extract lex budget (chunk lex c cs).kind = (chars,t) ∧ String.ofList chars = (chunk lex c cs).text ∧
      t.Ahead (chunk lex c cs).rest (line + (chunk lex c cs).raw.count '\n') := by
  have fewer : cs.length < budget := Nat.lt_of_succ_lt enough
  have whole : ∀ {kind}, kind ≠ .newline → (chunk lex c cs).kind = kind →
      Takes (s.extract lex budget kind) (chunk lex c cs).raw (chunk lex c cs).rest line →
        ∃ chars t, s.extract lex budget (chunk lex c cs).kind = (chars,t) ∧
          String.ofList chars = (chunk lex c cs).text ∧
            t.Ahead (chunk lex c cs).rest (line + (chunk lex c cs).raw.count '\n') := by
    rintro kind other rfl ⟨t,read,behind⟩
    exact ⟨_,t,read,(if_neg other).symm,behind⟩
  have kind := chunk_kind lex c cs
  cases opens : opening lex (c :: cs) with
  | none => exact whole (by decide) (by rw [kind,opens]; rfl) (ahead.extract_punct opens fewer)
  | some first =>
    rw [opens,Option.getD_some] at kind
    cases first with
    | newline =>
      obtain ⟨t,read,behind⟩ := ahead.extract_newline opens fewer
      exact ⟨_,t,kind ▸ read,(if_pos kind).symm,behind⟩
    | whitespace => exact whole (by decide) kind (ahead.extract_whitespace opens enough)
    | word => exact whole (by decide) kind (ahead.extract_word opens enough)
    | blockComment => exact whole (by decide) kind (ahead.extract_blockComment opens enough)
    | lineComment => exact whole (by decide) kind (ahead.extract_lineComment opens enough)
    | pair => exact whole (by decide) kind (ahead.extract_pair opens)
    | single => exact whole (by decide) kind (ahead.extract_single opens)
    | doubleQuote => exact whole (by decide) kind (ahead.extract_doubleQuote opens enough)
    | singleQuote => exact whole (by decide) kind (ahead.extract_singleQuote opens fewer)
    | punct => exact absurd opens (opening_ne_punct lex _)

/-- One chunk is cut off; unless it is skipped it is the token. -/
theorem Ahead.getToken_step (lex : Lexicon) (enough : (c :: cs).length < budget + 1) :
    ∃ t, s.getToken lex (budget + 1) = (if lex.skips (chunk lex c cs).kind then t.getToken lex budget
        else (some ⟨(chunk lex c cs).text,(chunk lex c cs).kind,line⟩,t)) ∧
      t.Ahead (chunk lex c cs).rest (line + (chunk lex c cs).raw.count '\n') := by
  have inside := ahead.require 1
  obtain ⟨chars,t,read,same,behind⟩ := (inside.require (firstLook lex (c :: cs) priority)).extract lex enough
  refine ⟨t,?_,behind⟩
  simp only [Source.getToken,ahead.atEnd,List.isEmpty_cons,Ahead.firstStart lex priority inside,chunk_priority,
    Option.getD_some,read,same,inside.line]
  rfl

end

/-- The next token of a source is that of the text that it has still to deliver, and the source then stands
behind it. -/
theorem Ahead.getToken (lex : Lexicon) (budget : Nat) : ∀ {s : Source} {text : List Char} {line : Nat},
    s.Ahead text line → text.length < budget →
      ∃ t, s.getToken lex budget = ((nextToken lex text line).1,t) ∧
        t.Ahead (nextToken lex text line).2.rest (nextToken lex text line).2.line := by
  induction budget with
  | zero => exact fun _ enough => absurd enough (Nat.not_lt_zero _)
  | succ budget ih =>
    intro s text line ahead enough
    cases text with
    | nil =>
      refine ⟨s.require 1,?_,?_⟩
      · rw [Source.getToken,ahead.atEnd,nextToken]
        rfl
      · rw [nextToken]
        exact ahead.require 1
    | cons c cs =>
      obtain ⟨t,step,behind⟩ := ahead.getToken_step lex enough
      by_cases skips : lex.skips (chunk lex c cs).kind = true
      · have shorter := Nat.lt_of_lt_of_le (chunk_rest_lt lex c cs) (Nat.le_of_lt_succ enough)
        obtain ⟨u,read,last⟩ := ih behind shorter
        rw [nextToken,if_pos skips]
        exact ⟨u,(step.trans (if_pos skips)).trans read,last⟩
      · rw [nextToken,if_neg skips]
        exact ⟨t,step.trans (if_neg skips),behind⟩

end Source

end Depends
