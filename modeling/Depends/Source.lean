import Depends.Failure
import Depends.Text.Utf8

/-!
A character source with bounded lookahead and a line counter. Characters arrive from a text that may be
loaded block by block, a carriage return with or without a line feed is delivered as one line feed, and
reading past the end may report a failure. `Source.remaining` is the view: what the source will still
deliver.
-/
namespace Depends

/-- Every carriage return, together with a line feed right after it, becomes one line feed. -/
def normalizeLines : List Char → List Char
  | [] => []
  | '\r' :: '\n' :: cs => '\n' :: normalizeLines cs
  | c :: cs => (if c = '\r' then '\n' else c) :: normalizeLines cs

/-- The furthest position that may be looked at, plus one. -/
def maxLookahead : Nat := 4

/-- The number of bytes that one load of a file brings in. -/
def blockSize : Nat := 4096

/-- What one load of a file makes readable. The last `cut` bytes of it belong to a character of the next
block. -/
structure Block where
  chars : List Char
  cut : Nat := 0
  deriving Repr

/-- A stream of characters. `queue` has the characters looked at and not consumed, `pending` those that
are loaded, `blocks` those that an open file still holds; `cut` bytes of the first of these are loaded.
`ending` is what a read past the end reports, `fault` what such a read did report. -/
structure Source where
  queue : List Char := []
  pending : List Char
  cut : Nat := 0
  blocks : List Block := []
  ending : Option Failure := none
  ended : Bool := false
  fault : Option Failure := none
  line : Nat := 1
  handle : Option String := none
  deriving Repr

namespace Source

/-- A source over a text. -/
def ofText (text : List Char) : Source :=
  { pending := text }

/-- A source over a text whose end is a read failure. -/
def failing (text : List Char) (failure : Failure) : Source :=
  { pending := text, ending := some failure }

/-- The blocks of a file after `carried` bytes of a character that the block before did not finish. At
the end such bytes stand for themselves. -/
def blocksOf : Nat → List UInt8 → List UInt8 → List Block
  | _, carried, [] => if carried.isEmpty then [] else [{ chars := Text.decode carried }]
  | 0, carried, data => [{ chars := Text.decode (carried ++ data) }]
  | fuel + 1, carried, data =>
    let room := blockSize - carried.length
    let (chars, left) := Text.decodeWhole (carried ++ data.take room)
    { chars, cut := left.length } :: blocksOf fuel left (data.drop room)

/-- A source over an open file, none of which is loaded yet. -/
def ofFile (path : String) (data : List UInt8) : Source :=
  { pending := [], blocks := blocksOf data.length [] data, handle := some path }

/-- A source over an opened path that refuses to be read. -/
def refusing (path : String) (refusal : Refusal) : Source :=
  { pending := [], ending := some (.file "read" path refusal), handle := some path }

/-- What the source will still deliver. -/
def remaining (s : Source) : List Char :=
  s.queue ++ normalizeLines (s.pending ++ s.blocks.flatMap Block.chars)

/-- One character off the loaded text, loading blocks as needed; what is left is loaded text, bytes of a
character beyond it, and blocks. -/
def take (pending : List Char) (cut : Nat) : List Block → Option (Char × List Char × Nat × List Block)
  | [] =>
    match pending with
    | [] => none
    | c :: rest => some (c, rest, cut, [])
  | block :: blocks =>
    match pending with
    | [] => take block.chars block.cut blocks
    | c :: rest => some (c, rest, cut, block :: blocks)

/-- Reads one more character into the queue, or notices the end. -/
def read (s : Source) : Source :=
  if s.ended then s
  else
    match take s.pending s.cut s.blocks with
    | none => { s with ended := true, fault := s.ending, pending := [], cut := 0, blocks := [] }
    | some (c, pending, cut, blocks) =>
      if c = '\r' then
        match take pending cut blocks with
        | some (next, pending', cut', blocks') =>
          let kept := if next = '\n' then pending' else next :: pending'
          { s with queue := s.queue ++ ['\n'], pending := kept, cut := cut', blocks := blocks' }
        | none => { s with queue := s.queue ++ ['\n'], pending, cut, blocks }
      else { s with queue := s.queue ++ [c], pending, cut, blocks }

/-- Tries to have `count` more characters in the queue. -/
def readMore : Nat → Source → Source
  | 0, s => s
  | count + 1, s => readMore count s.read

/-- Tries to have at least `count` characters in the queue. -/
def require (s : Source) (count : Nat) : Source :=
  readMore (count - s.queue.length) s

/-- The character `n` positions ahead, within the lookahead; nothing is consumed. -/
def peek (s : Source) (n : Int) : Option Char × Source :=
  if 0 ≤ n ∧ n < maxLookahead then
    let s := s.require (n.toNat + 1)
    (s.queue[n.toNat]?, s)
  else (none, s)

/-- Consumes `count` characters of the queue; every line feed starts a line. -/
def drop (s : Source) (count : Nat) : Source :=
  { s with queue := s.queue.drop count, line := s.line + (s.queue.take count).count '\n' }

/-- Consumes one character. -/
def next (s : Source) : Option Char × Source :=
  let s := s.require 1
  (s.queue.head?, s.drop 1)

/-- Nothing is left. -/
def atEnd (s : Source) : Bool × Source :=
  let s := s.require 1
  (s.queue.isEmpty, s)

/-- Closes an open file. What is loaded is still delivered, bytes of an unfinished character one by one; a
read that needs more reports the closed file. -/
def close (s : Source) : Source :=
  match s.handle with
  | none => s
  | some path =>
    { s with
      pending := s.pending ++ List.replicate s.cut Text.replacement
      cut := 0
      blocks := []
      ending := some (.file "read" path .closed)
      handle := none }

end Source

end Depends
