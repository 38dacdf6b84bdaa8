import Depends.Text.Utf8

/-!
Reading globs. `*` is a run, `?` one character, brackets hold a class or one range, braces hold
alternatives, and a backslash makes the next character literal. A class must be closed and not empty,
and a range must not run backwards. Open braces are closed at the end. A null character ends a text and
is dropped; outside of a text it ends the glob.
-/
namespace Depends

/-- Which characters may stand in one place. -/
inductive CharTest where
  | any
  | member (negated : Bool) (chars : List Char)
  | between (negated : Bool) (low high : Char)
  deriving DecidableEq, Repr

/-- The character may stand in the place. -/
def CharTest.accepts (c : Char) : CharTest → Bool
  | any => true
  | member negated chars => chars.contains c != negated
  | between negated low high => (low ≤ c && c ≤ high) != negated

/-- A part of a glob without alternatives. A run is written with one star or with two. -/
inductive GlobPart where
  | text (chars : List Char)
  | run (stars : Nat)
  | one (test : CharTest)
  deriving DecidableEq, Repr

/-- A part of a glob. -/
inductive GlobNode where
  | part (part : GlobPart)
  | choice (options : List (List GlobNode))

namespace GlobNode

mutual

/-- Two parts are written alike. -/
def same : GlobNode → GlobNode → Bool
  | part p, part q => p == q
  | choice os, choice ps => sameOptions os ps
  | _, _ => false

/-- Two lists of parts are written alike. -/
def sameAll : List GlobNode → List GlobNode → Bool
  | [], [] => true
  | n :: ns, m :: ms => same n m && sameAll ns ms
  | _, _ => false

/-- Two lists of alternatives are written alike. -/
def sameOptions : List (List GlobNode) → List (List GlobNode) → Bool
  | [], [] => true
  | o :: os, p :: ps => sameAll o p && sameOptions os ps
  | _, _ => false

end

end GlobNode

/-- A part of a glob, or a mark of its alternatives. -/
inductive GlobToken where
  | part (part : GlobPart)
  | opening
  | comma
  | closing
  deriving DecidableEq, Repr

namespace GlobToken

/-- A text up to a character that stops it, and what follows from there. -/
def spelled (stops : Char → Bool) : List Char → List Char × List Char
  | [] => ([], [])
  | ['\\'] => ([], [])
  | '\\' :: c :: cs =>
    if c.toNat = 0 then ([], cs)
    else let (chars, rest) := spelled stops cs; (c :: chars, rest)
  | c :: cs =>
    if c.toNat = 0 then ([], cs)
    else if stops c then ([], c :: cs)
    else let (chars, rest) := spelled stops cs; (c :: chars, rest)

theorem spelled_rest_le (stops : Char → Bool) (cs : List Char) :
    (spelled stops cs).2.length ≤ cs.length := by
  fun_induction spelled stops cs <;> simp_all <;> omega

theorem spelled_rest_lt (stops : Char → Bool) (c : Char) (cs : List Char) (goesOn : stops c = false) :
    (spelled stops (c :: cs)).2.length < (c :: cs).length := by
  have le := spelled_rest_le stops
  unfold spelled
  split
  · simp_all
  · simp
  · next d ds eq =>
    cases eq
    split
    · simp only [List.length_cons]; omega
    · have := le ds; simp only [List.length_cons]; omega
  · next d ds _ _ eq =>
    cases eq
    split
    · simp
    · have := le cs; simp [goesOn]; omega

/-- The class after its opening bracket and its negation mark, and what follows its closing bracket. -/
def classBody? (negated : Bool) : List Char → Option (CharTest × List Char)
  | low :: '-' :: high :: ']' :: rest =>
    if high < low || low.toNat == 0 || high.toNat == 0 then none
    else some (.between negated low high, rest)
  | _ :: '-' :: _ => none
  | cs =>
    match spelled (· == ']') cs with
    | (c :: chars, ']' :: rest) => some (.member negated (c :: chars), rest)
    | _ => none

/-- The class after its opening bracket, and what follows. -/
def class? : List Char → Option (CharTest × List Char)
  | '!' :: cs => classBody? true cs
  | cs => classBody? false cs

theorem classBody?_rest_lt (negated : Bool) (cs : List Char) (test : CharTest) (rest : List Char)
    (found : classBody? negated cs = some (test, rest)) : rest.length < cs.length := by
  unfold classBody? at found
  split at found
  · split at found
    · cases found
    · cases found; simp only [List.length_cons]; omega
  · cases found
  · split at found
    · next eq =>
      cases found
      have le := spelled_rest_le (· == ']') cs
      rw [eq] at le
      exact le
    · cases found

theorem class?_rest_lt (cs : List Char) (test : CharTest) (rest : List Char)
    (found : class? cs = some (test, rest)) : rest.length < cs.length := by
  unfold class? at found
  split at found
  · have lt := classBody?_rest_lt _ _ _ _ found
    simp only [List.length_cons]; omega
  · exact classBody?_rest_lt _ _ _ _ found

/-- A character that ends a text inside so many open braces. -/
def endsText (depth : Nat) (c : Char) : Bool :=
  c == '?' || c == '*' || c == '[' || c == '\x7b' || (0 < depth && (c == ',' || c == '\x7d'))

/-- A text as tokens; an empty one is left out. -/
def ofText : List Char → List GlobToken
  | [] => []
  | chars => [part (.text chars)]

/-- The tokens of a glob inside so many open braces; a comma or a closing brace outside of braces is
literal. -/
def scan? (depth : Nat) : List Char → Option (List GlobToken)
  | [] => some []
  | '*' :: '*' :: cs => (scan? depth cs).map (part (.run 2) :: ·)
  | '*' :: cs => (scan? depth cs).map (part (.run 1) :: ·)
  | '?' :: cs => (scan? depth cs).map (part (.one .any) :: ·)
  | '\x7b' :: cs => (scan? (depth + 1) cs).map (opening :: ·)
  | '[' :: cs =>
    match _found : class? cs with
    | none => none
    | some (test, rest) => (scan? depth rest).map (part (.one test) :: ·)
  | c :: cs =>
    if c.toNat = 0 then some []
    else if _stop : endsText depth c then
      if c = ',' then (scan? depth cs).map (comma :: ·) else (scan? (depth - 1) cs).map (closing :: ·)
    else
      let text := spelled (endsText depth) (c :: cs)
      (scan? depth text.2).map (ofText text.1 ++ ·)
termination_by cs => cs.length
decreasing_by
  all_goals first
    | exact Nat.lt_succ_of_lt (class?_rest_lt _ _ _ _found)
    | exact spelled_rest_lt _ _ _ (by simpa using _stop)
    | (simp only [List.length_cons]; omega)

end GlobToken

/-- The alternatives of a pair of braces while they are read: those that are finished, and the one that
is growing. -/
structure GlobFrame where
  finished : List (List GlobNode) := []
  growing : List GlobNode := []

namespace GlobFrame

/-- The growing alternative with one more part. -/
def push (frame : GlobFrame) (node : GlobNode) : GlobFrame :=
  { frame with growing := frame.growing ++ [node] }

/-- The choice between all alternatives. -/
def close (frame : GlobFrame) : GlobNode := .choice (frame.finished ++ [frame.growing])

/-- The frames after one more token, the innermost first. -/
def step : GlobFrame × List GlobFrame → GlobToken → GlobFrame × List GlobFrame
  | (frame, outer), .part item => (frame.push (.part item), outer)
  | (frame, outer), .opening => ({}, frame :: outer)
  | (frame, outer), .comma => ({ finished := frame.finished ++ [frame.growing] }, outer)
  | (frame, []), .closing => (frame, [])
  | (frame, around :: outer), .closing => (around.push frame.close, outer)

/-- The parts that tokens make up; braces that are still open are closed at the end. -/
def nodes (tokens : List GlobToken) : List GlobNode :=
  let (frame, outer) := tokens.foldl step ({}, [])
  (outer.foldl (fun inner around => around.push inner.close) frame).growing

end GlobFrame

/-- The parts of a glob. -/
def GlobNode.read? (text : String) : Option (List GlobNode) :=
  if text.toList.contains Text.replacement then none
  else (GlobToken.scan? 0 text.toList).map GlobFrame.nodes

end Depends
