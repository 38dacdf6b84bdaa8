import Depends.Glob.Basic
import Depends.Number

/-!
From the parts of a glob to a glob that is ready to match. Alternatives share what they begin and end
with. Neighbours are glued where they stand for a number of characters or all have a fixed length; of
what is left, the longest part of fixed length is searched for.
-/
namespace Depends

namespace GlobNode

/-- What alternatives begin and end with alike, found from both ends at once. -/
structure Shared where
  left : List GlobNode := []
  right : List GlobNode := []
  leftEnded : Bool := false
  rightEnded : Bool := false

/-- One more step inwards: compares the part `i` from the left and the part `i` from the right of the
shortest alternative with those of another. Where the two meet, a part is shared on the left. -/
def Shared.compare (shortest : List GlobNode) (i : Nat) (ended : Bool × Bool) (other : List GlobNode) :
    Bool × Bool :=
  if ended.1 && ended.2 then ended
  else
    let differs (a b : Option GlobNode) : Bool :=
      match a, b with
      | some a, some b => !a.same b
      | _, _ => true
    let left := ended.1 || differs shortest[i]? other[i]?
    let meets := !left && shortest.length - 1 - i ≤ i
    (left, ended.2 || meets || differs shortest.reverse[i]? other.reverse[i]?)

/-- The shared parts after so many steps inwards. -/
def Shared.steps (shortest : List GlobNode) (others : List (List GlobNode)) : Nat → Nat → Shared → Shared
  | 0, _, s => s
  | fuel + 1, i, s =>
    if s.left.length + s.right.length < shortest.length && !(s.leftEnded && s.rightEnded) then
      let (leftEnded, rightEnded) :=
        others.foldl (compare shortest i) (s.leftEnded, s.rightEnded)
      let left := if leftEnded then s.left else s.left ++ shortest[i]?.toList
      let right := if rightEnded then s.right else shortest.reverse[i]?.toList ++ s.right
      steps shortest others fuel (i + 1) { left, right, leftEnded, rightEnded }
    else s

/-- What two or more alternatives share. -/
def Shared.of (options : List (List GlobNode)) : Shared :=
  let least := (options.map List.length).foldl min ((options.map List.length).headD 0)
  let i := (options.findIdx? fun o => o.length = least).getD 0
  match options[i]? with
  | some shortest =>
    if options.length ≤ 1 then {} else steps shortest (options.eraseIdx i) shortest.length 0 {}
  | none => {}

/-- The alternatives without what they share, each once. -/
def Shared.rest (shared : Shared) (options : List (List GlobNode)) : List (List GlobNode) :=
  let cut (o : List GlobNode) := (o.drop shared.left.length).take
    (o.length - shared.left.length - shared.right.length)
  (options.map cut).foldl (fun kept o => if kept.any (sameAll · o) then kept else kept ++ [o]) []

end GlobNode

namespace Glob

/-- A glob as a run of characters: the characters that it must not spell together. -/
def lacking? : Glob → Option (List Char)
  | run | one .any => some []
  | one (.member true chars) => some chars
  | _ => none

/-- Neighbours that together stand for a number of characters. -/
def glueRun? (globs : List Glob) : Option Glob := do
  let all ← globs.mapM lacking?
  let lacking := all.headD []
  let singles := (globs.filter fun g => g.length?.isSome).length
  if globs.length ≤ 1 || all.any (· != lacking) then none
  else if singles = globs.length then some (span singles lacking)
  else if singles = 0 then some run
  else some (atLeast singles)

/-- Neighbours that all have a fixed length. -/
def glueRow? (globs : List Glob) : Option Glob := do
  let lengths ← globs.mapM length?
  if globs.length ≤ 1 then none else some (row (Number.total lengths) globs)

/-- Neighbours as one glob. -/
def glue? (globs : List Glob) : Option Glob := (glueRun? globs).orElse fun _ => glueRow? globs

/-- A stretch of neighbours that have been glued. -/
structure Glued where
  first : Nat
  count : Nat
  glob : Glob

/-- The second stretch replaces the first when it is longer, in characters or in parts. -/
def Glued.better : Option Glued → Glued → Option Glued
  | none, new => some new
  | some old, new =>
    let longer := match old.glob.length?, new.glob.length? with
      | some a, some b => a < b
      | _, _ => false
    if longer || old.count < new.count then some new else some old

/-- The best stretch to glue. -/
def bestGlued (globs : List Glob) : Option Glued :=
  let stretches := (List.range globs.length).flatMap fun first =>
    ((List.range (globs.length - first)).reverse.map (· + 1)).filterMap fun count =>
      (glue? ((globs.drop first).take count)).map fun glob => { first, count, glob : Glued }
  stretches.foldl Glued.better none

/-- Neighbours glued as long as any can be. -/
def glueAll : Nat → List Glob → List Glob
  | 0, globs => globs
  | fuel + 1, globs =>
    match bestGlued globs with
    | none => globs
    | some best => glueAll fuel (globs.take best.first ++ best.glob :: globs.drop (best.first + best.count))

/-- A search for a middle between two sides; a text between runs needs none. -/
def searching (middle : Glob) (left right : Option Glob) : Glob :=
  match middle, left, right with
  | text s, some run, some run => holds s
  | text s, some run, none => ends s
  | text s, none, some run => starts s
  | text s, none, some (ends last) => startsAndEnds s last
  | text s, some (starts first), none => startsAndEnds first s
  | _, _, _ =>
    let lengthOf (side : Option Glob) : Option Nat := side.elim (some 0) length?
    let length := do return (← lengthOf left) + (← middle.length?) + (← lengthOf right)
    around length middle left right

/-- The place of the longest glob of fixed length; of several, the last. -/
def longest? (globs : List Glob) : Option Nat :=
  let lengths := globs.map length?
  let most := (lengths.filterMap id).foldl max 0
  (lengths.reverse.findIdx? (· == some most)).map (globs.length - 1 - ·)

/-- Globs that stand one after the other as one glob. -/
def assemble : Nat → List Glob → Glob
  | _, [] => nothing
  | _, [g] => g
  | 0, _ => nothing
  | fuel + 1, g :: globs =>
    match glue? (g :: globs), longest? (g :: globs) with
    | some glued, _ => glued
    | none, none => searching g none (some (assemble fuel globs))
    | none, some i =>
      let side (part : List Glob) : Option Glob := if part.isEmpty then none else some (assemble fuel part)
      searching (((g :: globs)[i]?).getD nothing) (side ((g :: globs).take i)) (side ((g :: globs).drop (i + 1)))

/-- Globs that stand one after the other, glued first. -/
def sequence (globs : List Glob) : Glob :=
  let glued := glueAll globs.length globs
  assemble glued.length glued

/-- The fixed length of a choice. Options without fixed length are passed over until one has it. -/
def choiceLength : Option Nat → List Glob → Option Nat
  | length, [] => length
  | none, g :: gs => choiceLength g.length? gs
  | some length, g :: gs => if g.length? = some length then choiceLength (some length) gs else none

/-- A choice; a single option needs none. -/
def choosing : List Glob → Glob
  | [g] => g
  | options => oneOf (choiceLength none options) options

/-- A part without alternatives. A class of one character is a text. -/
def ofPart : GlobPart → Glob
  | .text chars => text (String.ofList chars)
  | .run _ => run
  | .one (.member false [c]) => text (String.singleton c)
  | .one test => one test

mutual

/-- The parts of a glob as one glob, down to a depth. -/
def ofNodes : Nat → List GlobNode → Glob
  | 0, _ => nothing
  | fuel + 1, nodes =>
    sequence (nodes.map fun
      | .part part => ofPart part
      | .choice options => ofOptions fuel options)

/-- Alternatives as one glob, down to a depth. What they share is taken out. -/
def ofOptions : Nat → List (List GlobNode) → Glob
  | 0, _ => nothing
  | fuel + 1, options =>
    let shared := GlobNode.Shared.of options
    if shared.left.isEmpty && shared.right.isEmpty then choosing (options.map fun o => ofNodes fuel o)
    else
      let outer (part : List GlobNode) : List Glob := if part.isEmpty then [] else [ofNodes fuel part]
      let inner := match shared.rest options with
        | [] => []
        | [only] => outer only
        | rest => [ofOptions fuel rest]
      sequence (outer shared.left ++ inner ++ outer shared.right)

end

/-- Compiles a glob. -/
def compile? (text : String) : Option Glob :=
  (GlobNode.read? text).map fun nodes => ofNodes (2 * text.length + 2) nodes

end Glob

end Depends
