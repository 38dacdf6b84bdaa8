import Depends.Text.Fields

/-!
Slash-separated file paths as texts: last element, lexical simplification, joining and resolution
against a working directory.
-/
namespace Depends.Path

open Depends.Text

/-- A path that starts at the root. -/
def isAbsolute (path : String) : Bool :=
  path.toList.head? == some '/'

/-- The last element of a path. An empty path has `.`, a path of slashes has `/`. -/
def base (path : String) : String :=
  if path == "" then "."
  else
    let trimmed := (path.toList.reverse.dropWhile (· == '/'))
    let last := (trimmed.takeWhile (· != '/')).reverse
    if last.isEmpty then "/" else String.ofList last

/-- One more element after the elements kept so far, which are innermost first. A parent step removes
the element before it, except at the root and after another parent step. -/
def pushElement (rooted : Bool) (kept : List String) (element : String) : List String :=
  if element == "" || element == "." then kept
  else if element == ".." then
    match kept with
    | [] => if rooted then [] else [".."]
    | ".." :: _ => ".." :: kept
    | _ :: outer => outer
  else element :: kept

/-- The elements of a path after simplification, outermost first. -/
def elements (path : String) : List String :=
  ((split '/' path).foldl (pushElement (isAbsolute path)) []).reverse

/-- The shortest path with the same meaning, without looking at any file. -/
def clean (path : String) : String :=
  let inner := join "/" (elements path)
  if isAbsolute path then "/" ++ inner
  else if inner == "" then "." else inner

/-- The path without its last element. -/
def parent (path : String) : String :=
  clean (String.ofList (path.toList.reverse.dropWhile (· != '/')).reverse)

/-- Two paths joined by a slash and simplified; an empty side adds nothing. -/
def append (first second : String) : String :=
  if first == "" && second == "" then ""
  else if first == "" then clean second
  else if second == "" then clean first
  else clean (first ++ "/" ++ second)

/-- A path seen from a working directory. -/
def absolute (directory path : String) : String :=
  if isAbsolute path then clean path else append directory path

/-- `path` is `outer` or lies inside it. -/
def isWithin (path outer : String) : Bool :=
  let path := clean path
  let outer := clean outer
  path == outer || outer == "." ||
    ((if outer == "/" then "" else outer) ++ "/").toList.isPrefixOf path.toList

end Depends.Path
