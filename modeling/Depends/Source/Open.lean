import Depends.Files.Tree
import Depends.Source

/-!
Opening a file as a character source.
-/
namespace Depends

/-- A character source over the file at a path. A folder opens and then refuses to be read. -/
def Source.openFile (files : Files) (path : String) : Except Failure Source :=
  match files.opened path with
  | .error refusal =>
    .error (((Failure.file "open" path refusal).wrap .sourceUnavailable "open source").detail "path" path)
  | .ok (.folder _) => .ok (Source.refusing path .isDirectory)
  | .ok (.file file) => .ok (Source.ofFile path file.content.data)

end Depends
