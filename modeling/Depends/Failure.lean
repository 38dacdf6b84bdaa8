import Depends.Text.Fields

/-!
What can go wrong, as causes. A failure is a bare message, a note on another failure, a file operation
that the system refused, a cancelled run, a query for an unknown file, a path whose name a glob gives no
answer for, or a coded failure that may carry details by key and wrap another one. `Failure.message` has all wordings.
-/
namespace Depends

/-- The classes of coded failures. -/
inductive Code where
  | notFound
  | validation
  | internal
  | sourceUnavailable
  | malformed
  | scopeUnderflow
  | other (label : String)
  deriving DecidableEq, Repr

/-- The label of a code in messages. -/
def Code.label : Code → String
  | .notFound => "NOT_FOUND"
  | .validation => "VALIDATION_ERROR"
  | .internal => "INTERNAL_ERROR"
  | .sourceUnavailable => "SOURCE_UNAVAILABLE"
  | .malformed => "MALFORMED_CONSTRUCT"
  | .scopeUnderflow => "SCOPE_UNDERFLOW"
  | .other label => label

/-- The code with a given label. -/
def Code.ofLabel (label : String) : Code :=
  match [notFound, validation, internal, sourceUnavailable, malformed, scopeUnderflow].find?
      (fun code => code.label == label) with
  | some code => code
  | none => .other label

/-- Why the system refuses a file operation. -/
inductive Refusal where
  | missing
  | notDirectory
  | isDirectory
  | closed
  | noPermission
  deriving DecidableEq, Repr

/-- The system's wording of a refusal. -/
def Refusal.message : Refusal → String
  | .missing => "no such file or directory"
  | .notDirectory => "not a directory"
  | .isDirectory => "is a directory"
  | .closed => "file already closed"
  | .noPermission => "permission denied"

/-- The head of a coded failure. The details have one value per key. -/
structure CodedHead where
  code : Code
  text : String
  details : List (String × String) := []
  deriving DecidableEq, Repr

/-- A cause of failure. A note keeps the wording that it had when it was made. -/
inductive Failure where
  | plain (text : String)
  | note (text : String) (cause : Failure)
  | file (operation path : String) (refusal : Refusal)
  | cancelled
  | unknownTarget (path : String)
  | unanswered (path : String)
  | coded (head : CodedHead)
  | wrapped (head : CodedHead) (cause : Failure)
  deriving DecidableEq, Repr

/-- The details in ascending order of keys, and nothing when there are none. -/
def CodedHead.detailText (head : CodedHead) : String :=
  if head.details.isEmpty then ""
  else
    let keys := Text.sorted (head.details.map (·.1))
    let pairs := keys.map fun key => key ++ ":" ++ (head.details.lookup key).getD ""
    " map[" ++ Text.join " " pairs ++ "]"

/-- The code and the text of a head. -/
def CodedHead.title (head : CodedHead) : String :=
  "[" ++ head.code.label ++ "] " ++ head.text

/-- Sets a detail; a later value replaces an earlier one. -/
def CodedHead.set (head : CodedHead) (key value : String) : CodedHead :=
  if head.details.any (·.1 == key) then
    { head with details := head.details.map fun pair => if pair.1 == key then (key, value) else pair }
  else { head with details := head.details ++ [(key, value)] }

namespace Failure

/-- The wording of a failure: causes follow a colon, details of a coded failure come last. -/
def message : Failure → String
  | plain text => text
  | note text _ => text
  | file operation path refusal => operation ++ " " ++ path ++ ": " ++ refusal.message
  | cancelled => "context canceled"
  | unknownTarget path => "impact target not found: " ++ path
  | unanswered path => "no glob answer: " ++ path
  | coded head => head.title ++ head.detailText
  | wrapped head cause => head.title ++ ": " ++ cause.message ++ head.detailText

/-- A coded failure without cause. -/
def ofCode (code : Code) (text : String) : Failure :=
  coded { code, text }

/-- A remark in front of a failure, worded at once. -/
def remark (cause : Failure) (text : String) : Failure :=
  note (text ++ ": " ++ cause.message) cause

/-- A remark in front of a failure that may be missing. -/
def remark? (text : String) : Option Failure → Failure
  | some cause => cause.remark text
  | none => plain (text ++ ": %!w(<nil>)")

/-- A coded failure around one that may be missing. -/
def wrap? (code : Code) (text : String) : Option Failure → Failure
  | some cause => wrapped { code, text } cause
  | none => coded { code, text }

/-- A coded failure around another one. -/
def wrap (cause : Failure) (code : Code) (text : String) : Failure :=
  wrapped { code, text } cause

/-- The code of the outermost coded failure. -/
def code? : Failure → Option Code
  | coded head => some head.code
  | wrapped head _ => some head.code
  | note _ cause => cause.code?
  | _ => none

/-- The code of the outermost coded failure, and `internal` when there is none. -/
def code (failure : Failure) : Code :=
  failure.code?.getD .internal

/-- The failure has the given code. -/
def hasCode (failure : Failure) (code : Code) : Bool :=
  failure.code? == some code

/-- Sets a detail on the outermost coded failure, if there is one. -/
def set? (key value : String) : Failure → Option Failure
  | coded head => some (coded (head.set key value))
  | wrapped head cause => some (wrapped (head.set key value) cause)
  | note text cause => (set? key value cause).map (note text)
  | _ => none

/-- Adds a detail; a failure without code is wrapped as an internal one. -/
def detail (failure : Failure) (key value : String) : Failure :=
  (failure.set? key value).getD
    (wrapped { code := .internal, text := "wrapped error", details := [(key, value)] } failure)

/-- Adds a detail to a failure that may be missing. -/
def detail? (key value : String) : Option Failure → Failure
  | some failure => failure.detail key value
  | none => coded { code := .internal, text := "wrapped error", details := [(key, value)] }

/-- The failure directly behind this one. -/
def cause? : Failure → Option Failure
  | note _ cause => some cause
  | wrapped _ cause => some cause
  | unknownTarget _ => some (plain "impact target not found")
  | _ => none

/-- The failure comes from a cancelled run. -/
def isCancelled : Failure → Bool
  | cancelled => true
  | note _ cause => cause.isCancelled
  | wrapped _ cause => cause.isCancelled
  | _ => false

end Failure

end Depends
