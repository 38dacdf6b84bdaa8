import Depends.Files.Walk
import Depends.Glob.Basic
import Depends.Path
import Depends.Text.Lower

/-!
Which files take part in an analysis, and which folders are passed over. A filter is made of matchers,
which look at base names only. Any test of names will do; a program has globs.
-/
namespace Depends

/-- Something that accepts some names. -/
class Matcher (matcher : Type) where
  accepts : matcher → String → Bool

instance : Matcher (String → Bool) := ⟨fun test => test⟩

/-- A glob does not accept the names for which it gives no answer. -/
instance : Matcher Glob := ⟨fun glob name => (glob.accepts? name).getD false⟩

/-- The rules of selection. -/
structure FileFilter (matcher : Type := Glob) where
  pattern : matcher
  excludedTexts : List String := []
  excludedFolders : List matcher := []
  excludedFiles : List matcher := []

namespace FileFilter

variable {matcher : Type} [Matcher matcher]

/-- The folder at a path is passed over. -/
def skipsFolder (filter : FileFilter matcher) (path : String) : Bool :=
  filter.excludedFolders.any (Matcher.accepts · (Path.base path))

/-- The file at a path takes part: its base name fits the pattern, in lower case or as it is, and nothing
excludes it. -/
def takesFile (filter : FileFilter matcher) (path : String) : Bool :=
  let name := Path.base path
  [Text.lower name, name].any (Matcher.accepts filter.pattern) &&
    !Text.containsAny path filter.excludedTexts && !filter.excludedFiles.any (Matcher.accepts · name)

end FileFilter

end Depends
