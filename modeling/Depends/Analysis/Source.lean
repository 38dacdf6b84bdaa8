import Depends.Files.Tree
import Depends.Semi.Stream

/-!
Where an analysis takes semi-expressions from: a source has a state of its own, may refuse a file, may
crash on one, and knows whether the run has been called off.
-/
namespace Depends

/-- Why a source gives nothing for a file. -/
inductive ReadFault where
  | failed (failure : Failure)
  | crashed (text : String)
  deriving DecidableEq, Repr

/-- The failure of a file that was not given. A crash counts as a malformed construct of the file. -/
def ReadFault.failure (path : String) : ReadFault → Failure
  | failed failure => failure
  | crashed text => (Failure.ofCode .malformed ("panic: " ++ text)).detail "path" path

/-- A supplier of the semi-expressions of files. -/
structure SemiSource (σ : Type) where
  semis : String → σ → Except ReadFault (List Semi) × σ
  isCancelled : σ → Bool

/-- The semi-expressions of the file at a path. -/
def Files.semis (files : Files) (lex : Lexicon) (path : String) : Except Failure (List Semi) :=
  match files.opened path with
  | .error refusal =>
    .error (((Failure.file "open" path refusal).wrap .sourceUnavailable "open source").detail "path" path)
  | .ok (.folder _) =>
    .error (((Failure.file "read" path .isDirectory).wrap .sourceUnavailable "read source").detail
      "path" path)
  | .ok (.file file) => .ok (Depends.semis lex path (Text.decode file.content.data))

/-- The semi-expressions of a file in a run that may have been called off, which ends a file at its
first semi-expression. -/
def Files.semisUnless (files : Files) (cancelled : Bool) (lex : Lexicon) (path : String) :
    Except ReadFault (List Semi) :=
  match files.semis lex path with
  | .error failure => .error (.failed failure)
  | .ok units => if cancelled && !units.isEmpty then .error (.failed .cancelled) else .ok units

/-- The source that reads files afresh each time. -/
def SemiSource.reading (lex : Lexicon) (cancelled : Bool) : SemiSource Files where
  semis path files := (files.semisUnless cancelled lex path, files)
  isCancelled _ := cancelled

end Depends
