import Depends.Proofs.Source.View
import Depends.Proofs.Text.Decoding

/-!
What a source answers when it is asked in any order. A source fills its queue only as far as it has to and notices the
end of its text only when it asks for more, but none of this shows: its answers are those of a place in the text with
normalized line ends, which only consuming a character moves on (`answers_of_place`).
-/
namespace Depends.Source

/-- What a source can be asked for. -/
inductive Call where
  | peek (n : Int)
  | next
  | atEnd
  | line
  deriving DecidableEq

/-- An answer: a character, or none at the end; whether nothing is left; the number of a line. -/
inductive Answer where
  | char (c : Option Char)
  | ended (ended : Bool)
  | line (number : Nat)
  deriving DecidableEq

/-- The answer of a source, and the source after it. -/
def ask (s : Source) : Call → Answer × Source
  | .peek n => (.char (s.peek n).1,(s.peek n).2)
  | .next => (.char s.next.1,s.next.2)
  | .atEnd => (.ended s.atEnd.1,s.atEnd.2)
  | .line => (.line s.line,s)

/-- The source after some calls. -/
def after (s : Source) (calls : List Call) : Source := calls.foldl (fun s call => (s.ask call).2) s

/-- The answer at a place of a text, which is the number of characters in front of it. -/
def answerAt (text : List Char) (place : Nat) : Call → Answer
  | .peek n => .char (if 0 ≤ n ∧ n < 4 then text[place + n.toNat]? else none)
  | .next => .char text[place]?
  | .atEnd => .ended (text.length ≤ place)
  | .line => .line (1 + (text.take place).count '\n')

/-- The source has still to deliver what follows a place of a text, and stands on the line of that place. -/
def StandsAt (text : List Char) (place : Nat) (s : Source) : Prop :=
  s.Ahead (text.drop place) (1 + (text.take place).count '\n')

variable {s : Source} {text : List Char} {place : Nat}

/-! ### One call -/

/-- Consuming a character moves on by one place. At the end nothing is consumed, and all later places are the end. -/
theorem StandsAt.consume (stands : StandsAt text place s) : StandsAt text (place + 1) ((s.require 1).drop 1) := by
  have longer : text.take (place + 1) = text.take place ++ (text.drop place).take 1 := List.take_add
  have moved := Ahead.consume stands
  rwa [List.tail_drop,Nat.add_assoc,← List.count_append,← longer] at moved

theorem StandsAt.ask (stands : StandsAt text place s) (call : Call) :
    (s.ask call).1 = answerAt text place call ∧
      StandsAt text (place + [call].count .next) (s.ask call).2 := by
  cases call with
  | peek n =>
    by_cases inside : 0 ≤ n ∧ n < 4
    · obtain ⟨k,rfl⟩ := Int.eq_ofNat_of_zero_le inside.1
      have near : k < maxLookahead := by unfold maxLookahead; omega
      rw [Source.ask,Ahead.peek stands near,answerAt,if_pos inside,List.getElem?_drop]
      exact ⟨rfl,Ahead.require stands _⟩
    · have looked : s.peek n = (none,s) := if_neg inside
      rw [Source.ask,looked,answerAt,if_neg inside]
      exact ⟨rfl,stands⟩
  | next =>
    rw [Source.ask,Ahead.next stands,answerAt,List.head?_drop]
    exact ⟨rfl,stands.consume⟩
  | atEnd =>
    have past : (text.drop place).isEmpty = decide (text.length ≤ place) := by
      rw [Bool.eq_iff_iff,List.isEmpty_iff,List.drop_eq_nil_iff,decide_eq_true_eq]
    rw [Source.ask,Ahead.atEnd stands,answerAt,past]
    exact ⟨rfl,Ahead.require stands 1⟩
  | line => exact ⟨congrArg Answer.line (Ahead.line stands),stands⟩

/-! ### Any calls -/

theorem StandsAt.after (stands : StandsAt text place s) (calls : List Call) :
    StandsAt text (place + calls.count .next) (s.after calls) := by
  induction calls generalizing s place with
  | nil => exact stands
  | cons call calls ih =>
    rw [← List.singleton_append,List.count_append,← Nat.add_assoc]
    exact ih (stands.ask call).2

/-- However the bytes of a file are loaded, the blocks together have its characters. -/
theorem blocksOf_chars (fuel : Nat) (carried data : List UInt8) :
    (blocksOf fuel carried data).flatMap Block.chars = Text.decode (carried ++ data) := by
  have last : ∀ (fuel : Nat) (carried : List UInt8),
      (blocksOf fuel carried []).flatMap Block.chars = Text.decode carried := by
    intro fuel carried
    cases carried with
    | nil => simp [blocksOf,Text.decode]
    | cons a carried => simp [blocksOf]
  induction fuel generalizing carried data with
  | zero =>
    cases data with
    | nil => rw [last,List.append_nil]
    | cons a data => simp [blocksOf]
  | succ fuel ih =>
    cases data with
    | nil => rw [last,List.append_nil]
    | cons a data =>
      rw [blocksOf]
      · dsimp only
        rw [List.flatMap_cons,ih,← Text.decode_append,List.append_assoc,List.take_append_drop]
      · simp

/-- A source of which nothing has been read: over a text in memory, over one whose end is a failure, or over the text
of an open file. -/
inductive Opened : List Char → Source → Prop
  | text (text : List Char) : Opened text (ofText text)
  | failing (text : List Char) (failure : Failure) : Opened text (failing text failure)
  | file (path : String) (data : List UInt8) : Opened (Text.decode data) (ofFile path data)

theorem Opened.stands (opened : Opened text s) : StandsAt (normalizeLines text) 0 s := by
  cases opened with
  | text => exact ⟨ofText_settled text,remaining_ofText text,rfl⟩
  | failing _ failure =>
    refine ⟨?_,remaining_ofText text,rfl⟩
    intro ended
    cases ended
  | file path data =>
    refine ⟨?_,?_,rfl⟩
    · intro ended
      cases ended
    · simp [ofFile,remaining,blocksOf_chars]

/-- Whatever a source was asked before, it answers like the place in the normalized text that is reached by as many
characters as it was asked to consume. So calls that consume nothing change no later answer. -/
theorem answers_of_place (opened : Opened text s) :
    (∀ calls call, ((s.after calls).ask call).1 = answerAt (normalizeLines text) (calls.count .next) call) ∧
      ∀ before quiet later call, quiet ≠ .next →
        ((s.after (before ++ quiet :: later)).ask call).1 = ((s.after (before ++ later)).ask call).1 := by
  have answers : ∀ calls call,
      ((s.after calls).ask call).1 = answerAt (normalizeLines text) (calls.count .next) call := by
    intro calls call
    have stands := opened.stands.after calls
    rw [Nat.zero_add] at stands
    exact (stands.ask call).1
  refine ⟨answers,?_⟩
  intro before quiet later call other
  have counts : (before ++ quiet :: later).count .next = (before ++ later).count .next := by
    rw [List.count_append,List.count_append,List.count_cons_of_ne other]
  rw [answers,answers,counts]

/-- A file with a line that ends in two characters and one that ends in a carriage return. -/
def returns : Source := ofFile "a.cs" [97,13,10,98,13]

theorem answers_of_place_returns : Opened ['a','\r','\n','b','\r'] returns ∧
    normalizeLines ['a','\r','\n','b','\r'] = ['a','\n','b','\n'] ∧
      ((returns.after [.peek 3,.atEnd]).ask (.peek 1)).1 = .char (some '\n') ∧
        ((returns.after [.peek 3,.next,.peek (-1)]).ask .next).1 = .char (some '\n') ∧
          ((returns.after [.next,.peek 7,.next]).ask .line).1 = ((returns.after [.next,.next]).ask .line).1 ∧
            ((returns.after [.next,.next,.next,.next,.next]).ask .atEnd).1 = .ended true := by
  have read : Text.decode [97,13,10,98,13] = ['a','\r','\n','b','\r'] := by decide +kernel
  have opened : Opened ['a','\r','\n','b','\r'] returns := read ▸ .file "a.cs" _
  obtain ⟨answers,unchanged⟩ := answers_of_place opened
  refine ⟨opened,by decide,?_,?_,?_,?_⟩
  · exact answers [.peek 3,.atEnd] (.peek 1)
  · exact answers [.peek 3,.next,.peek (-1)] .next
  · exact unchanged [.next] (.peek 7) [.next] .line (by decide)
  · exact answers [.next,.next,.next,.next,.next] .atEnd

end Depends.Source
