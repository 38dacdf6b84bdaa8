import Depends.Proofs.Rule.Generics
import Depends.Proofs.Scope.Nesting
import Mathlib.Data.List.GetD

/-!
Headers of methods with a body, and what the declaring rules make of them: modifiers and a type, a name, generic
parameters, parameters, and constraint clauses. Such a header opens the scope of a function and declares no type, unless
a constraint `class` or `struct` is taken for the keyword of a type and the `where` of the next clause for its name
(`methodHeader_opens_function_iff`).
-/
namespace Depends

open Depends.Text (isName)

variable {options : RuleOptions} {word next : String}

/-! ### Method headers -/

/-- The words that open a namespace or a type. -/
def openingWords : List String := "namespace" :: typeWords

/-- Names other than the words that open a namespace or a type. -/
abbrev PlainName := { token : String // isName token = true ∧ token ∉ openingWords }

/-- What a type parameter has to be: a class, a struct, something with a constructor, or something that has a type by a
dotted name. -/
inductive Constraint where
  | reference
  | value
  | constructible (fused : Bool)
  | named (first : PlainName) (more : List PlainName)

namespace Constraint

/-- The tokens of a constraint. The parentheses of a constructor may be one token. -/
def tokens : Constraint → List String
  | reference => ["class"]
  | value => ["struct"]
  | constructible true => ["new","()"]
  | constructible false => ["new","(",")"]
  | named first more => first.val :: more.flatMap fun segment => [".",segment.val]

/-- The word of the constraint that also opens a type. -/
def word? : Constraint → Option String
  | reference => some "class"
  | value => some "struct"
  | _ => none

end Constraint

/-- The constraints on one type parameter. -/
structure ConstraintClause where
  parameter : PlainName
  first : Constraint
  more : List Constraint

namespace ConstraintClause

/-- The tokens of constraints, with commas between them. -/
def joined : Constraint → List Constraint → List String
  | first, [] => first.tokens
  | first, second :: more => first.tokens ++ "," :: joined second more

/-- The tokens of a clause. -/
def tokens (clause : ConstraintClause) : List String :=
  "where" :: clause.parameter.val :: ":" :: joined clause.first clause.more

/-- Some constraint has a word that also opens a type. -/
def hasWord (first : Constraint) (more : List Constraint) : Bool :=
  first.word?.isSome || more.any (·.word?.isSome)

/-- The first word that also opens a type, when its constraint is the last one. -/
def finalWord? : Constraint → List Constraint → Option String
  | first, [] => first.word?
  | first, second :: more => if first.word?.isSome then none else finalWord? second more

/-- The constraint word that is followed by the `where` of another clause, when no such word comes before it. -/
def strayWord? : List ConstraintClause → Option String
  | [] => none
  | clause :: clauses =>
    if hasWord clause.first clause.more then
      if clauses.isEmpty then none else finalWord? clause.first clause.more
    else strayWord? clauses

end ConstraintClause

/-- The header of a method with a body. Without parameters the parentheses may be one token, which stands for `none`. -/
structure MethodHeader (options : RuleOptions) where
  modifiers : List String
  name : String
  generics : List String
  parameters : Option (List String)
  clauses : List ConstraintClause
  name_isName : isName name = true
  name_notControl : name ∉ options.control
  name_notNew : modifiers.getLast? ≠ some "new"
  generics_list : generics = [] ∨ GenericList generics
  noParen : ∀ t ∈ modifiers ++ generics, opensParen t = false
  noWord : ∀ t ∈ modifiers ++ generics ++ parameters.getD [], t ∉ openingWords

namespace MethodHeader

variable (header : MethodHeader options)

/-- The parameters in their parentheses. -/
def parenthesized : List String :=
  match header.parameters with
  | none => ["()"]
  | some parameters => "(" :: (parameters ++ [")"])

/-- The clauses and the brace that opens the body. -/
def tail : List String := header.clauses.flatMap ConstraintClause.tokens ++ [openBrace]

/-- The tokens of a header. -/
def tokens : List String :=
  header.modifiers ++ header.name :: (header.generics ++ (header.parenthesized ++ header.tail))

/-- The constraint word that is taken for the keyword of a type. A method that itself has the name of such a keyword
keeps the search from its clauses. -/
def strayWord? : Option String :=
  if header.name ∈ typeWords then none else ConstraintClause.strayWord? header.clauses

end MethodHeader

/-! ### The first word that opens a type -/

/-- The keyword and the name of the type that tokens declare. -/
def declaredType? (tokens : List String) : Option (String × String) := (typeHeader? tokens).map (·.2)

/-- Tokens without a word that opens a type can be left out in front. -/
theorem declaredType?_append {front back : List String} (plain : ∀ t ∈ front, t ∉ typeWords) (some : back ≠ []) :
    declaredType? (front ++ back) = declaredType? back := by
  have none : front.findIdx? typeWords.contains = none := by
    rw [List.findIdx?_eq_none_iff]
    intro t member
    simpa using plain t member
  have word : typeWord? (front ++ back) = (typeWord? back).map (· + front.length) := by
    rw [typeWord?,List.findIdx?_append,none,Option.none_or]
    rfl
  have shifted : ∀ i, (front ++ back).getD (i + front.length) "" = back.getD i "" := by
    intro i
    rw [List.getD_append_right _ _ _ _ (by omega),Nat.add_sub_cancel]
  unfold declaredType? typeHeader?
  rw [List.getLast?_append_of_ne_nil _ some,word]
  split
  · cases typeWord? back with
    | none => rfl
    | some i =>
      simp only [Option.map_some,shifted,show i + front.length + 1 = i + 1 + front.length by omega]
      split <;> rfl
  · rfl

/-- Where a word that opens a type comes first, the token after it decides. -/
theorem declaredType?_word {more : List String} (listed : word ∈ typeWords)
    (opens : (word :: next :: more).getLast? = some openBrace) :
    declaredType? (word :: next :: more) = if isName next then some (word,next) else none := by
  have first : typeWord? (word :: next :: more) = some 0 := by
    rw [typeWord?,List.findIdx?_cons]
    simp [listed]
  unfold declaredType? typeHeader?
  rw [if_pos opens,first]
  simp only [List.getD_cons_zero,List.getD_cons_succ]
  split <;> rfl

namespace ConstraintClause

theorem not_mem_typeWords (name : PlainName) : name.val ∉ typeWords :=
  fun listed => name.property.2 (List.mem_cons_of_mem _ listed)

/-- The only word of a constraint that opens something is its own. -/
theorem word?_of_mem_tokens {c : Constraint} {t : String} (member : t ∈ c.tokens) (listed : t ∈ openingWords) :
    c.word? = some t := by
  cases c with
  | reference => rw [List.mem_singleton.mp member]; rfl
  | value => rw [List.mem_singleton.mp member]; rfl
  | constructible fused =>
    have plain : ∀ t ∈ (Constraint.constructible fused).tokens, t ∉ openingWords := by cases fused <;> decide
    exact absurd listed (plain t member)
  | named first more =>
    rcases List.mem_cons.mp member with rfl | later
    · exact absurd listed first.property.2
    · obtain ⟨segment,-,inside⟩ := List.mem_flatMap.mp later
      simp only [List.mem_cons,List.not_mem_nil,or_false] at inside
      rcases inside with rfl | rfl
      · exact absurd listed (by decide)
      · exact absurd listed segment.property.2

theorem tokens_plain {c : Constraint} (wordless : c.word? = none) : ∀ t ∈ c.tokens, t ∉ typeWords := by
  intro t member listed
  have word := word?_of_mem_tokens member (List.mem_cons_of_mem _ listed)
  rw [wordless] at word
  cases word

theorem tokens_word {c : Constraint} (some : c.word? = some word) : c.tokens = [word] ∧ word ∈ typeWords := by
  cases c with
  | reference =>
    obtain rfl := Option.some.inj some
    exact ⟨rfl,by decide⟩
  | value =>
    obtain rfl := Option.some.inj some
    exact ⟨rfl,by decide⟩
  | constructible fused => cases some
  | named first more => cases some

/-- The constraints of a clause declare a type when the first word among them is also the end of the clause and a name
follows; without such a word what follows decides. -/
theorem declaredType?_joined (first : Constraint) (more : List Constraint) {rest : List String}
    (opens : (next :: rest).getLast? = some openBrace) :
    declaredType? (joined first more ++ next :: rest) =
      if hasWord first more then
        if isName next then (finalWord? first more).map (·,next) else none
      else declaredType? (next :: rest) := by
  induction more generalizing first with
  | nil =>
    cases found : first.word? with
    | none =>
      rw [joined,declaredType?_append (tokens_plain found) (List.cons_ne_nil _ _)]
      simp [hasWord,found]
    | some word =>
      obtain ⟨single,listed⟩ := tokens_word found
      have last : (word :: next :: rest).getLast? = some openBrace := by rwa [List.getLast?_cons_cons]
      rw [joined,single,List.singleton_append,declaredType?_word listed last]
      simp [hasWord,finalWord?,found]
  | cons second more ih =>
    have last : ("," :: (joined second more ++ next :: rest)).getLast? = some openBrace := by
      rw [← List.cons_append,List.getLast?_append_of_ne_nil _ (List.cons_ne_nil _ _),opens]
    rw [joined,List.append_assoc,List.cons_append]
    cases found : first.word? with
    | none =>
      have comma : ∀ t ∈ first.tokens ++ [","], t ∉ typeWords := by
        intro t member
        rcases List.mem_append.mp member with inside | sep
        · exact tokens_plain found t inside
        · rw [List.mem_singleton.mp sep]
          decide
      rw [← List.singleton_append,← List.append_assoc,declaredType?_append comma (by simp),ih]
      simp [hasWord,finalWord?,found]
    | some word =>
      obtain ⟨single,listed⟩ := tokens_word found
      have whole : (word :: "," :: (joined second more ++ next :: rest)).getLast? = some openBrace := by
        rwa [List.getLast?_cons_cons]
      rw [single,List.singleton_append,declaredType?_word listed whole]
      have separator : isName "," = false := by decide
      simp [hasWord,finalWord?,found,separator]

/-- The clauses declare a type when one of their words is followed by the `where` of another clause, which becomes the
name of the type. -/
theorem declaredType?_clauses (clauses : List ConstraintClause) :
    declaredType? (clauses.flatMap tokens ++ [openBrace]) = (strayWord? clauses).map (·,"where") := by
  induction clauses with
  | nil => decide
  | cons clause clauses ih =>
    have head : ∀ t ∈ ["where",clause.parameter.val,":"], t ∉ typeWords := by
      intro t member
      simp only [List.mem_cons,List.not_mem_nil,or_false] at member
      rcases member with rfl | rfl | rfl
      · decide
      · exact not_mem_typeWords clause.parameter
      · decide
    have split : (clause :: clauses).flatMap tokens ++ [openBrace] = ["where",clause.parameter.val,":"] ++
        (joined clause.first clause.more ++ (clauses.flatMap tokens ++ [openBrace])) := by
      simp [tokens]
    rw [split,declaredType?_append head (by simp),strayWord?]
    cases clauses with
    | nil =>
      rw [List.flatMap_nil,List.nil_append,declaredType?_joined clause.first clause.more rfl]
      have brace : isName openBrace = false := by decide
      have nothing : declaredType? [openBrace] = none := by decide
      simp [brace,nothing,strayWord?]
    | cons second clauses =>
      have rest : (second :: clauses).flatMap tokens ++ [openBrace] = "where" :: second.parameter.val :: ":" ::
          (joined second.first second.more ++ (clauses.flatMap tokens ++ [openBrace])) := by
        simp [tokens]
      have last : ((second :: clauses).flatMap tokens ++ [openBrace]).getLast? = some openBrace := by simp
      rw [rest] at last ih ⊢
      have name : isName "where" = true := by decide
      rw [declaredType?_joined clause.first clause.more last,ih]
      by_cases word : hasWord clause.first clause.more = true
      · simp [name,word]
      · simp [word]

end ConstraintClause

/-! ### What the rules see in a header -/

theorem ne_of_isName {token other : String} (name : isName token = true) (noName : isName other = false) :
    token ≠ other := by
  rintro rfl
  rw [name] at noName
  cases noName

theorem angleWeight_of_isName {token : String} (name : isName token = true) : angleWeight token = 0 := by
  unfold angleWeight
  rw [if_neg (ne_of_isName name (by decide)),if_neg (ne_of_isName name (by decide)),
    if_neg (ne_of_isName name (by decide)),if_neg (ne_of_isName name (by decide))]

theorem opensParen_of_isName {token : String} (name : isName token = true) : opensParen token = false := by
  rw [opensParen,beq_eq_false_iff_ne.mpr (ne_of_isName name (by decide)),
    beq_eq_false_iff_ne.mpr (ne_of_isName name (by decide))]
  rfl

namespace MethodHeader

variable (header : MethodHeader options)

/-- The parameters begin with an opening parenthesis, which is no name and no separator of names. -/
theorem parenthesized_cons : ∃ paren more, header.parenthesized = paren :: more ∧ opensParen paren = true ∧
    isName paren = false ∧ (paren != "." && paren != "::") = true := by
  unfold parenthesized
  cases header.parameters with
  | none => exact ⟨"()",[],rfl,by decide⟩
  | some parameters => exact ⟨"(",parameters ++ [")"],rfl,by decide⟩

theorem tail_ne_nil : header.tail ≠ [] := by simp [tail]

theorem tokens_eq : header.tokens =
    (header.modifiers ++ header.name :: (header.generics ++ header.parenthesized)) ++ header.tail := by
  simp [tokens]

theorem tokens_getLast? : header.tokens.getLast? = some openBrace := by
  rw [tokens_eq,List.getLast?_append_of_ne_nil _ header.tail_ne_nil,tail,List.getLast?_concat]

theorem plain_modifiers : ∀ t ∈ header.modifiers, t ∉ openingWords := by
  intro t member
  exact header.noWord t (by simp [member])

theorem plain_generics : ∀ t ∈ header.generics, t ∉ openingWords := by
  intro t member
  exact header.noWord t (by simp [member])

theorem plain_parenthesized : ∀ t ∈ header.parenthesized, t ∉ openingWords := by
  intro t member
  have plain := header.noWord t
  unfold parenthesized at member
  cases given : header.parameters with
  | none =>
    rw [given] at member
    rw [List.mem_singleton.mp member]
    decide
  | some parameters =>
    rw [given] at member plain
    simp only [List.mem_cons,List.mem_append,List.not_mem_nil,or_false] at member
    rcases member with rfl | inside | rfl
    · decide
    · exact plain (by simp [inside])
    · decide

/-- The token after the name is a bracket. -/
theorem after_name : ∃ next more, header.generics ++ (header.parenthesized ++ header.tail) = next :: more ∧
    isName next = false := by
  obtain ⟨paren,more,begins,-,noName,-⟩ := header.parenthesized_cons
  rcases header.generics_list with none | list
  · exact ⟨paren,more ++ header.tail,by rw [none,begins]; rfl,noName⟩
  · obtain ⟨rest,bracket,-⟩ := list.stays
    exact ⟨"<",rest ++ (header.parenthesized ++ header.tail),by rw [bracket]; rfl,by decide⟩

/-- A header declares a type when one of its constraint words strays. -/
theorem declaredType?_tokens : declaredType? header.tokens = header.strayWord?.map (·,"where") := by
  have plain : ∀ {t : String}, t ∉ openingWords → t ∉ typeWords :=
    fun other listed => other (List.mem_cons_of_mem _ listed)
  unfold strayWord?
  by_cases listed : header.name ∈ typeWords
  · obtain ⟨next,more,after,other⟩ := header.after_name
    have last := header.tokens_getLast?
    rw [tokens,after,List.getLast?_append_of_ne_nil _ (List.cons_ne_nil _ _)] at last
    rw [tokens,after,declaredType?_append (fun t member => plain (header.plain_modifiers t member)) (List.cons_ne_nil _ _),
      declaredType?_word listed last]
    simp [listed,other]
  · have front : ∀ t ∈ header.modifiers ++ header.name :: (header.generics ++ header.parenthesized), t ∉ typeWords := by
      intro t member
      simp only [List.mem_append,List.mem_cons] at member
      rcases member with modifier | rfl | generic | parameter
      · exact plain (header.plain_modifiers t modifier)
      · exact listed
      · exact plain (header.plain_generics t generic)
      · exact plain (header.plain_parenthesized t parameter)
    rw [tokens_eq,declaredType?_append front header.tail_ne_nil,tail,ConstraintClause.declaredType?_clauses]
    simp [listed]

/-- No token of the clauses is the word that opens a namespace. -/
theorem namespace_not_mem_tail : "namespace" ∉ header.tail := by
  have single : ∀ c : Constraint, "namespace" ∉ c.tokens := by
    intro c member
    have word := ConstraintClause.word?_of_mem_tokens member List.mem_cons_self
    exact absurd (ConstraintClause.tokens_word word).2 (by decide)
  have joined : ∀ (more : List Constraint) (first : Constraint), "namespace" ∉ ConstraintClause.joined first more := by
    intro more
    induction more with
    | nil => exact fun first => single first
    | cons second more ih =>
      intro first member
      rcases List.mem_append.mp member with inside | later
      · exact single first inside
      · rcases List.mem_cons.mp later with comma | rest
        · exact absurd comma (by decide)
        · exact ih second rest
  intro member
  rcases List.mem_append.mp member with inside | brace
  · obtain ⟨clause,-,token⟩ := List.mem_flatMap.mp inside
    simp only [ConstraintClause.tokens,List.mem_cons] at token
    rcases token with keyword | same | colon | constraint
    · exact absurd keyword (by decide)
    · exact clause.parameter.property.2 (same ▸ List.mem_cons_self)
    · exact absurd colon (by decide)
    · exact joined clause.more clause.first constraint
  · exact absurd (List.mem_singleton.mp brace) (by decide)

/-- A header opens no namespace. Even a method with the name `namespace` does not, since a parenthesis follows. -/
theorem namespaceParts?_tokens : Rule.namespaceParts? header.tokens = none := by
  have clear : ∀ {items : List String}, "namespace" ∉ items → items.findIdx? (· == "namespace") = none := by
    intro items absent
    rw [List.findIdx?_eq_none_iff]
    intro t member
    rw [beq_eq_false_iff_ne]
    rintro rfl
    exact absent member
  have modifiers : "namespace" ∉ header.modifiers :=
    fun member => header.plain_modifiers _ member List.mem_cons_self
  have rest : "namespace" ∉ header.generics ++ (header.parenthesized ++ header.tail) := by
    intro member
    simp only [List.mem_append] at member
    rcases member with generic | parameter | clause
    · exact header.plain_generics _ generic List.mem_cons_self
    · exact header.plain_parenthesized _ parameter List.mem_cons_self
    · exact header.namespace_not_mem_tail clause
  have position : header.tokens.findIdx? (· == "namespace") =
      if header.name = "namespace" then some header.modifiers.length else none := by
    rw [tokens,List.findIdx?_append,clear modifiers,Option.none_or,List.findIdx?_cons,clear rest]
    by_cases same : header.name = "namespace"
    · simp [same]
    · simp [same]
  unfold Rule.namespaceParts?
  rw [position]
  by_cases same : header.name = "namespace"
  · rw [if_pos same]
    obtain ⟨paren,more,begins,-,noName,kept⟩ := header.parenthesized_cons
    have inner : Rule.inner header.tokens (header.modifiers.length + 1) =
        header.generics ++ (header.parenthesized ++ header.clauses.flatMap ConstraintClause.tokens) := by
      have behind : header.tokens.drop (header.modifiers.length + 1) =
          (header.generics ++ (header.parenthesized ++ header.clauses.flatMap ConstraintClause.tokens)) ++ [openBrace] := by
        rw [tokens,tail,List.drop_length_add_append]
        simp
      rw [Rule.inner,behind,List.dropLast_concat]
    have listed : paren ∈ stripDots (Rule.inner header.tokens (header.modifiers.length + 1)) := by
      rw [inner,stripDots,List.mem_filter]
      exact ⟨by simp [begins],kept⟩
    have blocked : (stripDots (Rule.inner header.tokens (header.modifiers.length + 1))).all isName = false := by
      rw [List.all_eq_false]
      exact ⟨paren,listed,by simp [noName]⟩
    simp [blocked]
  · rw [if_neg same]

/-- The first parenthesis of a header is that of its parameters. -/
theorem paren?_tokens : paren? header.tokens 0 = some (header.modifiers.length + 1 + header.generics.length) := by
  obtain ⟨paren,more,begins,opens,-⟩ := header.parenthesized_cons
  have front : ∀ t ∈ header.modifiers ++ header.name :: header.generics, opensParen t = false := by
    intro t member
    simp only [List.mem_append,List.mem_cons] at member
    rcases member with modifier | rfl | generic
    · exact header.noParen t (by simp [modifier])
    · exact opensParen_of_isName header.name_isName
    · exact header.noParen t (by simp [generic])
  have split : header.tokens =
      [] ++ ((header.modifiers ++ header.name :: header.generics) ++ paren :: (more ++ header.tail)) := by
    simp [tokens,begins]
  have first := paren?_first front opens [] (more ++ header.tail)
  rw [← split] at first
  rw [show 0 = ([] : List String).length from rfl,first]
  simp only [List.length_append,List.length_cons,List.length_nil,Nat.add_zero,Option.some.injEq]
  omega

theorem nameBefore_tokens : nameBefore header.tokens (header.modifiers.length + 1 + header.generics.length) =
    some (header.name,header.modifiers.length) := by
  rcases header.generics_list with none | list
  · rw [none,List.length_nil,Nat.add_zero,tokens]
    exact nameBefore_plain (Int.le_of_eq (angleWeight_of_isName header.name_isName)) _ _
  · exact nameBefore_generics list _ _ _

theorem functionName?_tokens : Rule.functionName? options header.tokens = some header.name := by
  have new : ¬ (0 < header.modifiers.length ∧ header.tokens.getD (header.modifiers.length - 1) "" = "new") := by
    rw [tokens,getD_front_eq_iff]
    exact header.name_notNew
  unfold Rule.functionName?
  rw [if_pos header.tokens_getLast?,header.paren?_tokens]
  simp only [header.nameBefore_tokens]
  rw [if_pos ⟨header.name_isName,by simpa using header.name_notControl,new⟩]

/-- A header has the role of a function, or of a type with the name `where` when one of its constraint words strays. -/
theorem roleOf_tokens : roleOf options header.tokens =
    match header.strayWord? with
    | none => .opens .function header.name []
    | some word => .declares (DeclKind.ofLabel word) "where" := by
  have noSemicolon : header.tokens.getLast? ≠ some ";" := by
    rw [header.tokens_getLast?]
    decide
  have binding : Rule.aliasParts? header.tokens = none := by
    rw [Option.eq_none_iff_forall_ne_some]
    intro parts taken
    exact noSemicolon (aliasParts?_last taken)
  have delegate : Rule.delegateName? header.tokens = none := by
    rw [Option.eq_none_iff_forall_ne_some]
    intro name taken
    exact noSemicolon (delegateName?_last taken)
  have typed := header.declaredType?_tokens
  unfold roleOf
  rw [binding,header.namespaceParts?_tokens,delegate,header.functionName?_tokens]
  unfold declaredType? at typed
  cases stray : header.strayWord? with
  | none =>
    rw [stray,Option.map_none,Option.map_eq_none_iff] at typed
    rw [typed]
  | some word =>
    rw [stray,Option.map_some,Option.map_eq_some_iff] at typed
    obtain ⟨⟨i,found⟩,taken,rfl⟩ := typed
    rw [taken]

theorem mem_typeWords_of_strayWord? (stray : header.strayWord? = some word) : word ∈ typeWords := by
  have typed := header.declaredType?_tokens
  rw [stray,Option.map_some,declaredType?,Option.map_eq_some_iff] at typed
  obtain ⟨⟨i,found⟩,taken,rfl⟩ := typed
  exact typeHeader?_word taken

end MethodHeader

/-- The types are the same as before, and one scope has been opened: that of a function with the given name. -/
def OpensFunction (name : String) (r after : Repository) : Prop :=
  after.types = r.types ∧
    ∃ frame, after.stack.items = r.stack.items ++ [frame] ∧ frame.kind = .function ∧ frame.name = name

/-- The declaring rules go through every method header without a failure. It opens the scope of a function with the
name of the method and declares no type, exactly when no constraint word of its clauses strays. Otherwise it declares a
type with the name `where`, whose kind the word says, and opens the scope of that type instead. -/
theorem methodHeader_opens_function_iff (options : RuleOptions) (header : MethodHeader options) (semi : Semi)
    (r : Repository) :
    ∃ after, RuleList.declaring.apply options (semi.withTokens header.tokens) r = (.ok (),after) ∧
      (OpensFunction header.name r after ↔ header.strayWord? = none) ∧
      ∀ word, header.strayWord? = some word → ∃ frame d, after.stack.items = r.stack.items ++ [frame] ∧
        frame.kind = DeclKind.ofLabel word ∧ frame.name = "where" ∧ after.types = r.types.add "where" d ∧
        d.kind = DeclKind.ofLabel word ∧ d.name = "where" := by
  refine ⟨_,declaring_apply options (semi.withTokens header.tokens) r,?_⟩
  rw [show (semi.withTokens header.tokens).tokens = header.tokens from rfl,header.roleOf_tokens]
  cases stray : header.strayWord? with
  | none =>
    refine ⟨iff_of_true ⟨rfl,_,rfl,rfl,join_single header.name⟩ rfl,?_⟩
    intro word some
    cases some
  | some word =>
    have kind := ofLabel_typeWord (header.mem_typeWords_of_strayWord? stray)
    constructor
    · refine iff_of_false ?_ (Option.some_ne_none word)
      rintro ⟨-,frame,items,function,-⟩
      have same : frame.kind = DeclKind.ofLabel word := by
        have last := congrArg List.getLast? items
        simp only [Role.declare,Repository.enter,Repository.pushScope,Repository.enlist,Repository.announce,Stack.push,
          List.getLast?_concat,Option.some.injEq] at last
        rw [← last]
      rw [← same,function] at kind
      exact absurd kind (by decide)
    · intro other some
      obtain rfl := Option.some.inj some
      exact ⟨_,_,rfl,rfl,join_single "where",rfl,rfl,rfl⟩

/-- The header of `public T Get<T>(int id) where T : class`. -/
def oneClause : MethodHeader .standard where
  modifiers := ["public","T"]
  name := "Get"
  generics := ["<","T",">"]
  parameters := some ["int","id"]
  clauses := [⟨⟨"T",by decide⟩,.reference,[]⟩]
  name_isName := by decide
  name_notControl := by decide
  name_notNew := by decide
  generics_list := .inr ⟨["T"],.token (by decide) .nil,.keep _ (.keep _ (.keep _ .nil))⟩
  noParen := by decide
  noWord := by decide

theorem one_clause_opens :
    oneClause.tokens = ["public","T","Get","<","T",">","(","int","id",")","where","T",":","class",openBrace] ∧
      ∃ after, RuleList.declaring.apply .standard ⟨oneClause.tokens,"a.cs",1,1⟩ {} = (.ok (),after) ∧
        OpensFunction "Get" {} after := by
  refine ⟨by decide,?_⟩
  obtain ⟨after,run,opens,-⟩ := methodHeader_opens_function_iff .standard oneClause ⟨[],"a.cs",1,1⟩ {}
  have kept : oneClause.strayWord? = none := by decide
  exact ⟨after,run,opens.mpr kept⟩

/-- The header of `void M<T,U>() where T : class where U : struct`. -/
def twoClauses : MethodHeader .standard where
  modifiers := ["void"]
  name := "M"
  generics := ["<","T",",","U",">"]
  parameters := none
  clauses := [⟨⟨"T",by decide⟩,.reference,[]⟩,⟨⟨"U",by decide⟩,.value,[]⟩]
  name_isName := by decide
  name_notControl := by decide
  name_notNew := by decide
  generics_list := .inr ⟨["T",",","U"],.token (by decide) (.token (by decide) (.token (by decide) .nil)),
    .keep _ (.keep _ (.keep _ (.keep _ (.keep _ .nil))))⟩
  noParen := by decide
  noWord := by decide

/-- The `where` of the second clause becomes the name of a class, and the method has no scope. -/
theorem second_clause_declared :
    twoClauses.tokens = ["void","M","<","T",",","U",">","()","where","T",":","class","where","U",":","struct",
        openBrace] ∧
      ∃ after, RuleList.declaring.apply .standard ⟨twoClauses.tokens,"a.cs",1,1⟩ {} = (.ok (),after) ∧
        ¬ OpensFunction "M" {} after ∧
          after.stack.items.map (fun frame => (frame.kind,frame.name)) = [(.classType,"where")] ∧
            after.types.all.map (fun entry => (entry.2.kind,entry.1)) = [(.classType,"where")] := by
  refine ⟨by decide +kernel,_,rfl,?_,by decide +kernel,by decide +kernel⟩
  rintro ⟨same,-⟩
  have declared : ({} : Repository).types.all.length = 1 := by
    rw [← same]
    decide +kernel
  exact absurd declared (by decide)

end Depends
