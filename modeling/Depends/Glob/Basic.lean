import Depends.Glob.Syntax

/-!
Globs that are ready to match. A name is matched by its bytes: a part of a fixed number of characters is
cut off the front, and the cut falls after the first byte of its last character, so a longer character
does not match there. Parts of unknown length are searched for. A part of no characters after the end
of a name cannot be cut off; then there is no answer.
-/
namespace Depends

/-- A glob that is ready to match. `around` searches for its middle, between what may stand before and
after it; a missing side must be empty. A choice, a row and a search know how many characters they
take, if that number is fixed. -/
inductive Glob where
  | nothing
  | run
  | one (test : CharTest)
  | text (s : String)
  | starts (s : String)
  | ends (s : String)
  | startsAndEnds (first last : String)
  | holds (s : String)
  | atLeast (count : Nat)
  | span (count : Nat) (lacking : List Char)
  | oneOf (length : Option Nat) (options : List Glob)
  | row (length : Nat) (parts : List Glob)
  | around (length : Option Nat) (middle : Glob) (left right : Option Glob)

/-- Where a glob matches inside of a name: from which byte on, and how many bytes it may take. -/
structure Hit where
  start : Nat
  sizes : List Nat
  deriving DecidableEq, Repr

namespace Glob

/-- The fixed number of characters that a glob takes. -/
def length? : Glob → Option Nat
  | nothing => some 0
  | one _ => some 1
  | text s => some s.length
  | row length _ => some length
  | oneOf length _ | around length _ _ _ => length
  | _ => none

/-- The places where the characters of a name start. -/
def startsOf (name : List UInt8) : List Nat := (Text.places 0 name).map (·.1)

/-- The places where the characters of a name end, by the size that each has when it is written. -/
def endsOf (name : List UInt8) : List Nat := (Text.places 0 name).map fun (i, c) => i + c.utf8Size

/-- All places where a part of a name may end. -/
def bordersOf (name : List UInt8) : List Nat := startsOf name ++ [name.length]

/-- The name is one character that passes the test. An empty name counts as a replacement character. -/
def isOne (test : CharTest) (name : List UInt8) : Bool :=
  match Text.places 0 name with
  | [] => test.accepts Text.replacement
  | [(_, c)] => test.accepts c
  | _ => false

/-- The bytes to cut off for so many characters: all up to the first byte of the last of them. No
characters take as many as all; they cannot be cut off an empty name. -/
def piece? (length : Nat) (name : List UInt8) : Option (Option Nat) :=
  if length = 0 then (startsOf name).getLast?.map fun i => some (i + 1)
  else some ((startsOf name)[length - 1]?.map (· + 1))

/-- The ends of occurrences of `last`, from the end of the name to its front, without overlap. -/
def endsBefore (last : List UInt8) : Nat → List UInt8 → List Nat
  | 0, _ => []
  | fuel + 1, name =>
    match Text.indexOf? last.reverse name.reverse with
    | none => []
    | some i =>
      let stop := name.length - i
      stop :: endsBefore last fuel (name.take (stop - last.length))

/-- Where a glob without inner parts matches first. -/
def leafHit? (name : List UInt8) : Glob → Option Hit
  | nothing => some ⟨0, [0]⟩
  | run => some ⟨0, bordersOf name⟩
  | one test => ((Text.places 0 name).find? fun (_, c) => test.accepts c).map fun (i, c) => ⟨i, [c.utf8Size]⟩
  | text s => (Text.indexOf? (Text.encode s) name).map fun i => ⟨i, [s.utf8ByteSize]⟩
  | starts s =>
    (Text.indexOf? (Text.encode s) name).map fun i =>
      let size := s.utf8ByteSize
      ⟨i, size :: (endsOf (name.drop (i + size))).map (size + ·)⟩
  | ends s => (Text.indexOf? (Text.encode s) name).map fun i => ⟨0, [i + s.utf8ByteSize]⟩
  | startsAndEnds first last => do
    let i ← Text.indexOf? (Text.encode first) name
    match endsBefore (Text.encode last) name.length (name.drop i) with
    | [] => none
    | sizes => some ⟨i, sizes⟩
  | holds s =>
    (Text.indexOf? (Text.encode s) name).map fun i =>
      let size := i + s.utf8ByteSize
      ⟨0, (bordersOf (name.drop size)).map (size + ·)⟩
  | atLeast count =>
    match (endsOf name).drop (count - 1) with
    | [] => none
    | sizes => if name.length < count then none else some ⟨0, sizes⟩
  | span count lacking =>
    let upTo := 0 :: (endsOf name).take count
    let needle := Text.encode (String.ofList lacking)
    let free := bordersOf (name.take ((Text.indexOf? needle name).getD name.length))
    let sizes := ((endsOf name).drop (count - 1)).filter fun i =>
      upTo.contains i && (lacking.isEmpty || free.contains i)
    if sizes.isEmpty || name.length < count then none else some ⟨0, sizes⟩
  | _ => none

/-- The earlier of two hits; hits at the same place are joined. -/
def earlier : Option Hit → Option Hit → Option Hit
  | none, other => other
  | hit, none => hit
  | some a, some b =>
    if b.start < a.start then some b
    else if a.start < b.start then some a
    else some ⟨a.start, a.sizes ++ b.sizes⟩

/-- Searches a name from an offset on for a middle with matching sides, left of a limit. -/
def search (find : List UInt8 → Option (Option Hit)) (left right : List UInt8 → Option Bool)
    (name : List UInt8) (limit : Nat) : Nat → Nat → Option Bool
  | 0, _ => some false
  | fuel + 1, offset =>
    if offset < limit then do
      match ← find ((name.take limit).drop offset) with
      | none => return false
      | some hit =>
        let start := offset + hit.start
        if ← left (name.take start) then
          if ← hit.sizes.reverse.anyM fun size => right (name.drop (start + size)) then return true
        search find left right name limit fuel (start + Text.firstSize (name.drop start))
    else some false

mutual

/-- The glob matches all bytes of a name. -/
def takes? : Glob → List UInt8 → Option Bool
  | nothing, name => some name.isEmpty
  | run, _ => some true
  | one test, name => some (isOne test name)
  | text s, name => some (name == Text.encode s)
  | starts s, name => some ((Text.encode s).isPrefixOf name)
  | ends s, name => some ((Text.encode s).isSuffixOf name)
  | startsAndEnds first last, name =>
    some ((Text.encode first).isPrefixOf name && (Text.encode last).isSuffixOf name)
  | holds s, name => some (Text.indexOf? (Text.encode s) name).isSome
  | atLeast count, name => some (count ≤ (Text.places 0 name).length)
  | span count lacking, name =>
    some ((Text.places 0 name).length == count &&
      (lacking.isEmpty || (Text.indexOf? (Text.encode (String.ofList lacking)) name).isNone))
  | oneOf _ options, name => anyTakes? options name
  | row length parts, name =>
    if (Text.places 0 name).length = length then rowTakes? parts name else some false
  | around length middle left right, name =>
    if name.length < length.getD 0 then some false
    else search (fun b => find? middle b) (fun b => sideTakes? left b) (fun b => sideTakes? right b) name
      (name.length - ((right.bind length?).getD 0)) (name.length + 1) ((left.bind length?).getD 0)

/-- One of the globs matches. -/
def anyTakes? : List Glob → List UInt8 → Option Bool
  | [], _ => some false
  | g :: gs, name =>
    match takes? g name with
    | some false => anyTakes? gs name
    | answer => answer

/-- The globs match pieces of a name, one after the other; what follows them is not asked. -/
def rowTakes? : List Glob → List UInt8 → Option Bool
  | [], _ => some true
  | g :: gs, name =>
    match piece? (g.length?.getD 0) name with
    | none => none
    | some none => some false
    | some (some size) =>
      match takes? g (name.take size) with
      | some true => rowTakes? gs (name.drop size)
      | answer => answer

/-- A side of a search matches; a missing side is empty. -/
def sideTakes? : Option Glob → List UInt8 → Option Bool
  | none, name => some name.isEmpty
  | some g, name => takes? g name

/-- Where the glob matches first. Searches are not searched for. -/
def find? : Glob → List UInt8 → Option (Option Hit)
  | oneOf _ options, name => findAny? options name
  | row length parts, name =>
    let fits := (startsOf name).filter fun i => length ≤ name.length - i
    (fits.findM? fun i => rowTakes? parts (name.drop i)).map fun i => i.map (⟨·, [length]⟩)
  | g, name => some (leafHit? name g)

/-- Where one of the globs matches first. -/
def findAny? : List Glob → List UInt8 → Option (Option Hit)
  | [], _ => some none
  | g :: gs, name => do
    let hit ← find? g name
    let more ← findAny? gs name
    return earlier hit more

end

/-- The glob matches a whole name, if there is an answer. -/
def accepts? (glob : Glob) (name : String) : Option Bool := glob.takes? (Text.encode name)

end Glob

end Depends
