import Depends.Text.Fields
import Depends.Text.Percent

/-!
Addresses of databases. A path names a database by the address `file:path` with options after a question
mark, so percent signs, question marks and number signs in the path have a meaning of their own.
-/
namespace Depends

/-- What may be done with a database: only reads, changes to a file that exists, changes to a file that is
made if it is missing, or changes that no file keeps. -/
inductive Access where
  | read
  | change
  | create
  | memory
  deriving DecidableEq, Repr

namespace Access

/-- The access that a word asks for. -/
def ofWord? (word : String) : Option Access :=
  [("ro", read), ("rw", change), ("rwc", create), ("memory", memory)].lookup word

/-- The place of an access in the order in which later words may only take away. -/
def rank : Access → Nat
  | read => 1
  | change => 2
  | create => 3
  | memory => 4

/-- The access after one more word; only a database in memory can be asked for at any time. -/
def restrict? (now : Access) (word : String) : Option Access :=
  (ofWord? word).filter fun next => next == memory || next.rank ≤ now.rank

end Access

/-- A database: the name of its file, which is empty for one without a file, and the access to it. -/
structure Address where
  name : String
  access : Access
  deriving DecidableEq, Repr

namespace Address

/-- The options that every database is opened with. -/
def standardOptions : String := "_pragma=busy_timeout(2000)&_pragma=journal_mode(WAL)"

/-- The address without a host, which must be empty or this one. -/
def dropHost? (address : List Char) : Option (List Char) :=
  match address with
  | '/' :: '/' :: rest =>
    let host := String.ofList (rest.takeWhile (· != '/'))
    if host == "" || host == "localhost" then some (rest.dropWhile (· != '/')) else none
  | _ => some address

/-- What a part of an address stands for, up to an encoded zero byte. -/
def partText (part : List Char) : String :=
  Text.ofBytes ((Text.Percent.bytes part).takeWhile (· != 0))

/-- The names and values of options. An option without a name does not count. -/
def options (query : List Char) : List (String × String) :=
  ((Text.fields '&' query).map fun option =>
    (partText (option.takeWhile (· != '=')), partText (option.dropWhile (· != '=')).tail)).filter (·.1 != "")

/-- The access after one more option. A statement cannot hold a question mark, a cache is shared or
private, and there is a choice of ways to reach files. -/
def applyOption (access : Access) : String × String → Option Access
  | ("mode", value) => access.restrict? value
  | ("cache", value) => if ["shared", "private"].contains value then some access else none
  | ("vfs", value) =>
    if value == "memdb" then some .memory
    else if ["unix", "unix-dotfile", "unix-excl", "unix-none"].contains value then some access
    else none
  | ("_pragma", value) => if value.toList.contains '?' then none else some access
  | _ => some access

/-- Options are well encoded, and no semicolon stands between them. -/
def isWellFormed (query : List Char) : Bool :=
  Text.Percent.isValid query && !query.contains ';'

/-- The database that a path names; a number sign ends its address. -/
def ofPath? (path : String) : Option Address := do
  let whole := (path ++ "?" ++ standardOptions).toList
  guard (isWellFormed (whole.dropWhile (· != '?')).tail)
  let address := (← dropHost? whole).takeWhile fun c => c != '#' && c != '\x00'
  let name := partText (address.takeWhile (· != '?'))
  let access ← (options (address.dropWhile (· != '?')).tail).foldlM applyOption .create
  return { name := if name == ":memory:" || access == .memory then "" else name, access }

end Address

end Depends
