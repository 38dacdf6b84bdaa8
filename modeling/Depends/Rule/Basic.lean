import Depends.Failure
import Depends.Rule.Shape

/-!
The rules that recognize semi-expressions. A rule either declines or hands token lists, in order, to
whatever acts on it.
-/
namespace Depends

open Depends.Text (isName)

/-- What a rule recognizes. -/
inductive Rule where
  | aliasDirective
  | namespaceHeader
  | typeHeader
  | delegate
  | functionHeader
  | anyOpening
  | closing
  | usingDirective
  | inherited
  | reference
  deriving DecidableEq, Repr

/-- What recognition depends on: the namespace root whose imports are ignored, and the words that head
statements with parentheses. -/
structure RuleOptions where
  builtinRoot : String
  controlWords : List String
  deriving DecidableEq, Repr

namespace RuleOptions

/-- Words that head a statement in parentheses and declare no function. -/
def standardControl : List String :=
  ["if", "for", "foreach", "while", "catch", "using", "switch", "lock", "fixed", "else", "do", "try",
    "finally", "checked", "unchecked", "return", "new", "typeof", "nameof", "when", "base", "this"]

/-- The standard options. -/
def standard : RuleOptions := { builtinRoot := "System", controlWords := standardControl }

/-- Given options; when nothing is given they are the standard ones. -/
def orStandard (builtinRoot : String) (controlWords : List String) : RuleOptions :=
  if builtinRoot == "" && controlWords.isEmpty then standard else { builtinRoot, controlWords }

/-- The control words in force; none given means the standard ones. -/
def control (options : RuleOptions) : List String :=
  if options.controlWords.isEmpty then standardControl else options.controlWords

end RuleOptions

namespace Rule

/-- The rule with a label; any other text means references. -/
def ofLabel : String → Rule
  | "alias" => aliasDirective
  | "namespace" => namespaceHeader
  | "type" => typeHeader
  | "delegate" => delegate
  | "function" => functionHeader
  | "anonymous" => anyOpening
  | "leaving" => closing
  | "using" => usingDirective
  | "inherited" => inherited
  | _ => reference

/-- The tokens between a position and the last token. -/
def inner (tokens : List String) (start : Nat) : List String := (tokens.drop start).dropLast

/-- An alias directive gives the alias and the segments of its target. -/
def aliasParts? (tokens : List String) : Option (List String) :=
  if isAliasDirective tokens then
    let equals := (tokens.findIdx? (· == "=")).getD 0
    let target := stripDots (inner tokens (equals + 1))
    if target.isEmpty then none else some (tokens.getD (equals - 1) "" :: target)
  else none

/-- A namespace header, with a body or for the whole file, gives the segments of its name. -/
def namespaceParts? (tokens : List String) : Option (List String) :=
  match tokens.findIdx? (· == "namespace") with
  | none => none
  | some i =>
    if tokens.getLast? = some openBrace ∨ tokens.getLast? = some ";" then
      let segments := stripDots (inner tokens (i + 1))
      if ¬ segments.isEmpty ∧ segments.all isName then some segments else none
    else none

/-- A delegate declaration gives its name: the one before the parameter list, or else the second token
after the keyword. -/
def delegateName? (tokens : List String) : Option String :=
  match tokens.findIdx? (· == "delegate") with
  | none => none
  | some i =>
    if tokens.getLast? = some ";" then
      let before :=
        match paren? tokens (i + 1) with
        | some p => if i + 1 < p then ((nameBefore tokens p).map (·.1)).getD "" else ""
        | none => ""
      let name := if isName before then before else tokens.getD (i + 2) ""
      if isName name then some name else none
    else none

/-- The opening of a function body gives the function's name, which is no control word and does not
follow `new`. -/
def functionName? (options : RuleOptions) (tokens : List String) : Option String :=
  if tokens.getLast? = some openBrace then
    match paren? tokens 0 with
    | none => none
    | some p =>
      match nameBefore tokens p with
      | none => none
      | some (name, i) =>
        if isName name ∧ ¬ options.control.contains name ∧ ¬ (0 < i ∧ tokens.getD (i - 1) "" = "new")
        then some name else none
  else none

/-- An import directive gives the segments of the namespace, or nothing to act on when it is an alias
or names the builtin root. -/
def usingParts? (options : RuleOptions) (tokens : List String) : Option (List (List String)) :=
  match usingStart? tokens with
  | none => none
  | some start =>
    if tokens.getLast? = some ";" then
      if isAliasDirective tokens then some []
      else
        let body := inner tokens (start + 1)
        let body := if body.head? = some "static" then body.tail else body
        if body.all (fun t => t == "." || isName t) then
          match stripDots body with
          | [] => none
          | root :: more => if root = options.builtinRoot then some [] else some [root :: more]
        else none
    else none

/-- The header of a type gives every type named after the declared one, its own generic parameters
apart. -/
def inheritedParts? (tokens : List String) : Option (List (List String)) :=
  match typeHeader? tokens with
  | none => none
  | some (i, _, _) =>
    let (skip, start) := genericParameters tokens (i + 2)
    some (qualifiedGroups tokens start skip)

/-- What a rule hands on for the given tokens; none when it declines. -/
def parts? (options : RuleOptions) (rule : Rule) (tokens : List String) : Option (List (List String)) :=
  match rule with
  | aliasDirective => (aliasParts? tokens).map ([·])
  | namespaceHeader => (namespaceParts? tokens).map fun segments => ["namespace" :: segments]
  | typeHeader => (typeHeader? tokens).map fun (_, word, name) => [[word, name]]
  | delegate => (delegateName? tokens).map fun name => [["delegate", name]]
  | functionHeader => (functionName? options tokens).map fun name => [["function", name]]
  | anyOpening => if tokens.getLast? = some openBrace then some [["control", "anonymous"]] else none
  | closing => if tokens.getLast? = some closeBrace then some [[closeBrace]] else none
  | usingDirective => usingParts? options tokens
  | inherited => inheritedParts? tokens
  | reference => some (qualifiedGroups tokens 0 [])

/-- What a rule hands on for a semi-expression, with the place of the semi-expression. -/
def test (options : RuleOptions) (rule : Rule) (semi : Semi) : Option (List Semi) :=
  (rule.parts? options semi.tokens).map fun parts => parts.map semi.withTokens

end Rule

/-- Offers a semi-expression to rules in order. The first rule that takes it ends the search; its
reaction sees what the rule hands on, part after part, until one fails. -/
def offer {σ : Type} (options : RuleOptions) (semi : Semi) :
    List (Rule × (Semi → σ → Except Failure Unit × σ)) → σ → Except Failure Unit × σ
  | [], state => (.ok (), state)
  | (rule, react) :: rules, state =>
    match rule.test options semi with
    | none => offer options semi rules state
    | some parts => run react parts state
where
  run (react : Semi → σ → Except Failure Unit × σ) : List Semi → σ → Except Failure Unit × σ
    | [], state => (.ok (), state)
    | part :: parts, state =>
      match react part state with
      | (.ok (), state) => run react parts state
      | (.error failure, state) => (.error failure, state)

end Depends
