import Depends.Text.Letter

/-!
Cutting and joining texts at a separator, and trimming white space.
-/
namespace Depends.Text

/-- The fields between separators; a text without separator is one field. -/
def fields (separator : Char) : List Char → List (List Char)
  | [] => [[]]
  | c :: cs =>
    if c = separator then [] :: fields separator cs
    else
      match fields separator cs with
      | [] => [[c]]
      | field :: more => (c :: field) :: more

/-- The fields of a text. -/
def split (separator : Char) (s : String) : List String :=
  (fields separator s.toList).map String.ofList

/-- Texts joined with a separator between them. -/
def join (separator : String) (parts : List String) : String :=
  separator.intercalate parts

/-- White space removed at both ends. -/
def trimChars (cs : List Char) : List Char :=
  ((cs.dropWhile isSpace).reverse.dropWhile isSpace).reverse

/-- White space removed at both ends of a text. -/
def trim (s : String) : String :=
  String.ofList (trimChars s.toList)

/-- A text with nothing but white space. -/
def isBlank (s : String) : Bool :=
  s.toList.all isSpace

/-- `needle` is a contiguous part of the characters. -/
def occursIn (needle : List Char) : List Char → Bool
  | [] => needle.isEmpty
  | c :: cs => needle.isPrefixOf (c :: cs) || occursIn needle cs

/-- A text that has one of the given non-empty parts. -/
def containsAny (s : String) (parts : List String) : Bool :=
  parts.any fun part => part != "" && occursIn part.toList s.toList

/-- A list without later repetitions. -/
def dedupe {α : Type} [BEq α] (items : List α) : List α :=
  items.foldl (fun kept item => if kept.contains item then kept else kept ++ [item]) []

/-- Texts in ascending order of their code points, which is the order of their UTF-8 bytes. -/
def sorted (items : List String) : List String :=
  items.mergeSort fun a b => a ≤ b

end Depends.Text
