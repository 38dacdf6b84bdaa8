import Depends.Rule.Action

/-!
The rule lists of the passes. The declaring pass records what files declare; the tracking rules keep
the same scopes without recording; the referring rules import namespaces and add edges.
-/
namespace Depends

/-- Rules in order, each with its action; a rule without action only stops the search. -/
abbrev RuleList := List (Rule × Option Action)

namespace RuleList

/-- Records aliases, declarations and scope extents. -/
def declaring : RuleList :=
  [(.aliasDirective, some .saveAlias), (.namespaceHeader, some (.openScope true)),
    (.typeHeader, some .declareType), (.delegate, some .declareType),
    (.functionHeader, some (.openScope true)), (.anyOpening, some (.openScope true)),
    (.closing, some .closeScope)]

/-- Keeps the scopes in step. -/
def tracking : RuleList :=
  [(.aliasDirective, none), (.namespaceHeader, some (.openScope false)),
    (.typeHeader, some (.openScope false)), (.delegate, none),
    (.functionHeader, some (.openScope false)), (.anyOpening, some (.openScope false)),
    (.closing, some .closeScope)]

/-- Records imports and adds edges for references. -/
def referring : RuleList :=
  [(.usingDirective, some .saveUsing), (.namespaceHeader, none), (.closing, none),
    (.inherited, some .addReference), (.reference, some .addReference)]

/-- The reactions of the rules on a repository. -/
def reactions (rules : RuleList) : List (Rule × (Semi → Repository → Except Failure Unit × Repository)) :=
  rules.map fun (rule, action) =>
    (rule, match action with
      | some action => action.perform
      | none => fun _ r => (.ok (), r))

/-- Offers a semi-expression to the rules. -/
def apply (options : RuleOptions) (rules : RuleList) (semi : Semi) (r : Repository) :
    Except Failure Unit × Repository :=
  offer options semi rules.reactions r

end RuleList

/-- Offers a semi-expression to several rule lists in turn; a failure ends it. -/
def applyAll (options : RuleOptions) (semi : Semi) :
    List RuleList → Repository → Except Failure Unit × Repository
  | [], r => (.ok (), r)
  | rules :: more, r =>
    match rules.apply options semi r with
    | (.ok (), r) => applyAll options semi more r
    | (.error failure, r) => (.error failure, r)

end Depends
