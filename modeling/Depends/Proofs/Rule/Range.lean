import Depends.Proofs.Scope.Nesting

/-!
Every read of a token is in range. The rules read tokens and cut them at positions that searches gave them. Here each
of them is written once more with reads that can miss (`Semi.read?`, `Semi.slice?`): one outside the tokens has no
result, and then the rule has none. Since all reads are in range, the rules written this way always have a result, and
it is that of the rules that run (`Checked.test_eq`). The same holds of the actions, and so of a whole rule list
(`Checked.apply_eq`).
-/
namespace Depends

open Depends.Text (isName)

/-- The token at a position of the semi-expression. -/
def Semi.read? (semi : Semi) (i : Int) : Option String := if i < 0 then none else semi.tokens[i.toNat]?

/-- A result of reads, none when one of them is out of range. -/
abbrev Checked (α : Type) := Option α

namespace Checked

/-! ### The rules with checked reads -/

/-- The tokens between a position and the last token. -/
def inner (semi : Semi) (start : Int) : Checked (List String) :=
  (semi.slice? start (semi.size - 1)).map (·.tokens)

def aliasParts (semi : Semi) : Checked (Option (List String)) :=
  if isAliasDirective semi.tokens then do
    let equals : Int := match semi.find? "=" with
      | some i => i
      | none => -1
    let target := stripDots (← inner semi (equals + 1))
    if target.isEmpty then some none else some (some (semi.token (equals - 1) :: target))
  else some none

def namespaceParts (semi : Semi) : Checked (Option (List String)) :=
  match semi.find? "namespace" with
  | none => some none
  | some i =>
    if semi.last = openBrace ∨ semi.last = ";" then do
      let segments := stripDots (← inner semi (i + 1))
      if ¬ segments.isEmpty ∧ segments.all isName then some (some segments) else some none
    else some none

def typeHeader (semi : Semi) : Checked (Option (Nat × String × String)) :=
  if semi.last = openBrace then
    match typeWord? semi.tokens with
    | none => some none
    | some i =>
      if isName (semi.token (i + 1)) then do
        let word ← semi.read? i
        let name ← semi.read? (i + 1)
        some (some (i,word,name))
      else some none
  else some none

/-- The position of the first parameter list from a position on. -/
def paren (semi : Semi) (i : Nat) : Checked (Option Nat) :=
  if i < semi.size then do
    let token ← semi.read? i
    if opensParen token then some (some i) else paren semi (i + 1)
  else some none
termination_by semi.size - i

/-- The position where a generic argument list begins whose tokens before a position are read backwards, and -1 when
it has no beginning. -/
def angles (semi : Semi) (depth : Int) : Nat → Checked Int
  | 0 => some (-1)
  | i + 1 => do
    let token ← semi.read? i
    let depth := depth + angleWeight token
    if depth ≤ 0 then some i else angles semi depth i

def nameBefore (semi : Semi) (p : Nat) : Checked (Option (String × Nat)) := do
  let last := semi.token (p - 1)
  let i : Int ← if last = ">" ∨ last = ">>" then (angles semi 0 p).map (· - 1) else some (p - 1)
  if i < 0 then some none
  else do
    let name ← semi.read? i
    some (some (name,i.toNat))

def delegateName (semi : Semi) : Checked (Option String) :=
  match semi.find? "delegate" with
  | none => some none
  | some i =>
    if semi.last = ";" then do
      let before ← match ← paren semi (i + 1) with
        | some p => if i + 1 < p then (nameBefore semi p).map fun found => (found.map (·.1)).getD "" else some ""
        | none => some ""
      let name := if isName before then before else semi.token (i + 2)
      if isName name then some (some name) else some none
    else some none

def functionName (options : RuleOptions) (semi : Semi) : Checked (Option String) :=
  if semi.last = openBrace then do
    match ← paren semi 0 with
    | none => some none
    | some p =>
      if p = 0 then some none
      else
        match ← nameBefore semi p with
        | none => some none
        | some (name,i) =>
          if isName name ∧ ¬ options.control.contains name ∧ semi.token (i - 1) ≠ "new" then some (some name)
          else some none
  else some none

/-- The body of an import directive without a leading `static`. -/
def afterStatic (body : Semi) : Checked Semi :=
  if 0 < body.size then do
    let first ← body.read? 0
    if first = "static" then body.slice? 1 body.size else some body
  else some body

def usingParts (options : RuleOptions) (semi : Semi) : Checked (Option (List (List String))) :=
  match usingStart? semi.tokens with
  | none => some none
  | some start =>
    if semi.last = ";" then
      if isAliasDirective semi.tokens then some (some [])
      else do
        let body ← afterStatic (semi.withTokens (← inner semi (start + 1)))
        if body.tokens.all (fun t => t == "." || isName t) then
          let path := semi.withTokens (stripDots body.tokens)
          if path.size = 0 then some none
          else do
            let root ← path.read? 0
            if root = options.builtinRoot then some (some []) else some (some [path.tokens])
        else some none
    else some none

/-- The position where a name begins with its qualifier, from the position of the name. -/
def qualifierStart (semi : Semi) : Nat → Checked Nat
  | i + 2 => do
    let dot ← semi.read? (i + 1)
    if dot = "." then do
      let outer ← semi.read? i
      if isName outer then qualifierStart semi i else some (i + 2)
    else some (i + 2)
  | i => some i

def groups (semi : Semi) (skip : List String) (i : Nat) : Checked (List (List String)) :=
  if i < semi.size then do
    let token ← semi.read? i
    if isTypeName token ∧ ¬ skip.contains token then do
      let start ← qualifierStart semi i
      let group ← semi.slice? start (i + 1)
      let more ← groups semi skip (i + 1)
      some (stripDots group.tokens :: more)
    else groups semi skip (i + 1)
  else some []
termination_by semi.size - i

/-- The names up to the end of a generic parameter list, and the position of its end. -/
def parameters (semi : Semi) (i : Nat) : Checked (List String × Nat) :=
  if i < semi.size then do
    let token ← semi.read? i
    if token = ">" then some ([],i)
    else do
      let (names,stop) ← parameters semi (i + 1)
      some (if isName token then token :: names else names,stop)
  else some ([],i)
termination_by semi.size - i

def inheritedParts (semi : Semi) : Checked (Option (List (List String))) := do
  match ← typeHeader semi with
  | none => some none
  | some (i,_,_) =>
    let (skip,start) ← if semi.token (i + 2) = "<" then parameters semi (i + 2) else some ([],i + 2)
    (groups semi skip start).map some

/-- What a rule hands on for a semi-expression. -/
def parts (options : RuleOptions) (rule : Rule) (semi : Semi) : Checked (Option (List (List String))) :=
  match rule with
  | .aliasDirective => (aliasParts semi).map (·.map ([·]))
  | .namespaceHeader => (namespaceParts semi).map (·.map fun segments => ["namespace" :: segments])
  | .typeHeader => (typeHeader semi).map (·.map fun (_,word,name) => [[word,name]])
  | .delegate => (delegateName semi).map (·.map fun name => [["delegate",name]])
  | .functionHeader => (functionName options semi).map (·.map fun name => [["function",name]])
  | .anyOpening => some (if semi.last = openBrace then some [["control","anonymous"]] else none)
  | .closing => some (if semi.last = closeBrace then some [[closeBrace]] else none)
  | .usingDirective => usingParts options semi
  | .inherited => inheritedParts semi
  | .reference => (groups semi [] 0).map some

def test (options : RuleOptions) (rule : Rule) (semi : Semi) : Checked (Option (List Semi)) :=
  (parts options rule semi).map (·.map fun parts => parts.map semi.withTokens)

/-- The kind, the name and the name's segments of a scope. -/
def scopeParts (part : Semi) : Checked (Except Failure (DeclKind × String × List String)) :=
  if part.size < 2 then some (.error (Action.malformed part "scope entry needs a kind and a name"))
  else do
    let kind ← part.read? 0
    let path ← part.slice? 1 part.size
    some (.ok (DeclKind.ofLabel kind,Text.join "." path.tokens,path.tokens))

/-- Opens a scope; on request it is recorded too, unless it belongs to a statement. -/
def openScope (record : Bool) (part : Semi) (r : Repository) : Checked (Except Failure Unit × Repository) := do
  match ← scopeParts part with
  | .error failure => some (.error failure,r)
  | .ok (kind,name,path) =>
    let r :=
      if record ∧ kind ≠ .control then
        let (d,r) := r.register
          { kind, name, file := part.path, scope := r.scopePath, beginLine := part.start, beginScopes := r.scopeCount + 1 }
        r.record d
      else r
    some (.ok (),(r.pushScope kind name path part.start).2)

def declareType (part : Semi) (r : Repository) : Checked (Except Failure Unit × Repository) := do
  match ← scopeParts part with
  | .error failure => some (.error failure,r)
  | .ok (kind,name,path) =>
    let bodiless := kind = .delegateType
    let (d,r) := r.register
      { kind, name, file := part.path, scope := r.scopePath, beginLine := part.start
        endLine := if bodiless then part.start else 0
        beginScopes := if bodiless then (r.scopeCount : Int) else (r.scopeCount : Int) + 1
        endScopes := if bodiless then (r.scopeCount : Int) else 0 }
    let r := r.record d
    let r := if r.types.hasSite name d then r.note .duplicateType else r
    let r := { r with types := r.types.add name d }
    some (.ok (),if bodiless then r else (r.pushScope kind name path part.start).2)

def saveAlias (part : Semi) (r : Repository) : Checked (Except Failure Unit × Repository) :=
  if part.size < 2 then some (.error (Action.malformed part "alias needs a name and a target"),r)
  else do
    let name ← part.read? 0
    let target ← part.slice? 1 part.size
    some (.ok (),r.recordAlias part.path name target.tokens)

/-- The declaration that a reference means. -/
def resolve (part : Semi) (r : Repository) : Checked (Option Declaration) :=
  let reference := part.withTokens (Action.expandAliases part r)
  if reference.size = 0 then some none
  else do
    let name ← reference.read? (reference.size - 1)
    let qualifier ← reference.slice? 0 (reference.size - 1)
    some (r.types.find? name (Action.candidates part.path qualifier.tokens r))

/-- Adds an edge to the file that declares the type, when it is another file. -/
def addReference (part : Semi) (r : Repository) : Checked Repository := do
  match ← resolve part r with
  | none => some r
  | some d =>
    if d.file = part.path then some r
    else
      let (source,r) := r.ensureNode part.path
      let (target,r) := r.ensureNode d.file
      let (added,graph) := r.graph.addEdge source target d.fileName
      let r := { r with graph }
      some (if added then r.note .dependencyFound else r)

/-- Acts on a part; closing a scope and importing a namespace take no token by its position. -/
def perform (action : Action) (part : Semi) (r : Repository) : Checked (Except Failure Unit × Repository) :=
  match action with
  | .openScope record => openScope record part r
  | .declareType => declareType part r
  | .closeScope => some (.ok (),Action.closeScopeOn part r)
  | .saveAlias => saveAlias part r
  | .saveUsing =>
    if part.size = 0 then some (.error (Action.malformed part "using directive without a namespace"),r)
    else some (.ok (),r.recordUsing part.path part.tokens)
  | .addReference => (addReference part r).map (.ok (),·)

/-- Acts on what a rule hands on, part after part, until one fails. -/
def performAll (action : Option Action) : List Semi → Repository → Checked (Except Failure Unit × Repository)
  | [], r => some (.ok (),r)
  | part :: parts, r => do
    let performed ← match action with
      | some action => perform action part r
      | none => some (.ok (),r)
    match performed with
    | (.ok (),r) => performAll action parts r
    | (.error failure,r) => some (.error failure,r)

/-- Offers a semi-expression to the rules of a list. -/
def apply (options : RuleOptions) : RuleList → Semi → Repository → Checked (Except Failure Unit × Repository)
  | [], _, r => some (.ok (),r)
  | (rule,action) :: rules, semi, r => do
    match ← test options rule semi with
    | none => apply options rules semi r
    | some parts => performAll action parts r

/-! ### Reads in range -/

variable {semi : Semi} {i : Nat}

@[simp] theorem read?_natCast (semi : Semi) (i : Nat) : semi.read? (i : Int) = semi.tokens[i]? := by
  simp [Semi.read?,Int.not_lt.mpr (Int.natCast_nonneg i)]

theorem read?_eq (inside : i < semi.size) : semi.read? (i : Int) = some (semi.tokens.getD i "") := by
  rw [read?_natCast,List.getD_eq_getElem?_getD,List.getElem?_eq_getElem inside]
  rfl

@[simp] theorem token_natCast (semi : Semi) (i : Nat) : semi.token (i : Int) = semi.tokens.getD i "" := by
  simp [Semi.token,Int.not_lt.mpr (Int.natCast_nonneg i)]

theorem inner_eq (inside : i < semi.size) : inner semi i = some (Rule.inner semi.tokens i) := by
  have bounds : (0 : Int) ≤ i ∧ (i : Int) ≤ semi.size - 1 ∧ (semi.size : Int) - 1 ≤ semi.size := by omega
  have stop : ((semi.size : Int) - 1).toNat = semi.tokens.length - 1 := by
    simp only [Semi.size]
    omega
  rw [inner,Semi.slice?,if_pos bounds,stop,Int.toNat_natCast]
  simp [Rule.inner,Semi.withTokens,List.dropLast_eq_take,List.drop_take]
  omega

/-- A token that differs from the last one has a token after it. -/
theorem succ_lt_of_ne_last {tokens : List String} {token last : String} (here : tokens[i]? = some token)
    (ended : tokens.getLast? = some last) (different : token ≠ last) : i + 1 < tokens.length := by
  obtain ⟨bound,rfl⟩ := List.getElem?_eq_some_iff.mp here
  by_contra beyond
  have final : i = tokens.length - 1 := by omega
  subst final
  rw [List.getLast?_eq_getElem?,List.getElem?_eq_getElem bound] at ended
  exact different (Option.some.inj ended)

theorem getElem?_of_findIdx? {tokens : List String} {word : String} (found : tokens.findIdx? (· == word) = some i) :
    tokens[i]? = some word := by
  obtain ⟨bound,same,-⟩ := List.findIdx?_eq_some_iff_getElem.mp found
  rw [List.getElem?_eq_getElem bound,beq_iff_eq.mp same]

theorem usingStart?_shape {tokens : List String} {start : Nat} (keyword : usingStart? tokens = some start) :
    ∃ front rest, tokens = front ++ "using" :: rest ∧ front.length = start ∧ (front = [] ∨ front = ["global"]) := by
  unfold usingStart? at keyword
  split at keyword
  · rename_i rest
    exact ⟨[],rest,rfl,Option.some.inj keyword,.inl rfl⟩
  · rename_i rest
    exact ⟨["global"],rest,rfl,Option.some.inj keyword,.inr rfl⟩
  · cases keyword

/-- An alias directive has its equals sign after the name, and more tokens after that. -/
theorem isAliasDirective_shape {tokens : List String} (directive : isAliasDirective tokens = true) :
    ∃ start, tokens.findIdx? (· == "=") = some (start + 1) ∧ start + 2 < tokens.length := by
  unfold isAliasDirective at directive
  split at directive
  · cases directive
  · rename_i start keyword
    simp only [Bool.and_eq_true,beq_iff_eq] at directive
    obtain ⟨⟨last,equals⟩,named⟩ := directive
    obtain ⟨front,rest,rfl,rfl,front'⟩ := usingStart?_shape keyword
    obtain ⟨name,rest,rfl⟩ : ∃ name more, rest = name :: "=" :: more := by
      match rest with
      | [] => simp at equals
      | [name] => simp at equals
      | name :: second :: more =>
        refine ⟨name,more,?_⟩
        simpa using equals
    have different : name ≠ "=" := by
      rintro rfl
      have reading : (front ++ "using" :: "=" :: "=" :: rest).getD (front.length + 1) "" = "=" := by simp
      rw [reading] at named
      exact absurd named (by decide)
    refine ⟨front.length + 1,?_,?_⟩
    · rcases front' with rfl | rfl
      · simp [List.findIdx?_cons,different]
      · simp [List.findIdx?_cons,different]
    · -- The last token is a semicolon, so the equals sign is not the last one.
      cases rest with
      | nil => simp at last
      | cons first rest =>
        simp only [List.length_append,List.length_cons]
        omega

theorem aliasParts_eq (semi : Semi) : aliasParts semi = some (Rule.aliasParts? semi.tokens) := by
  unfold aliasParts Rule.aliasParts?
  split
  · rename_i directive
    obtain ⟨start,equals,inside⟩ := isAliasDirective_shape directive
    have cut : inner semi ((start + 2 : Nat) : Int) = some (Rule.inner semi.tokens (start + 2)) := inner_eq inside
    have before : semi.token ((start + 1 : Nat) - 1 : Int) = semi.tokens.getD start "" := by
      rw [← token_natCast]
      simp
    simp only [Semi.find?,equals,Option.getD_some,Nat.add_sub_cancel]
    rw [show ((start + 1 : Nat) : Int) + 1 = (start + 2 : Nat) by omega,cut,before]
    exact (apply_ite some _ _ _).symm
  · rfl

theorem namespaceParts_eq (semi : Semi) : namespaceParts semi = some (Rule.namespaceParts? semi.tokens) := by
  unfold namespaceParts Rule.namespaceParts?
  simp only [Semi.last_eq_iff (show openBrace ≠ "" by decide),Semi.last_eq_iff (show ";" ≠ "" by decide),Semi.find?]
  cases found : semi.tokens.findIdx? (· == "namespace") with
  | none => rfl
  | some i =>
    dsimp only
    split
    · rename_i ended
      have here := getElem?_of_findIdx? found
      have inside : i + 1 < semi.size := by
        rcases ended with ended | ended
        · exact succ_lt_of_ne_last here ended (by decide)
        · exact succ_lt_of_ne_last here ended (by decide)
      rw [show (i : Int) + 1 = (i + 1 : Nat) by omega,inner_eq inside]
      exact (apply_ite some _ _ _).symm
    · rfl

theorem typeHeader_eq (semi : Semi) : typeHeader semi = some (typeHeader? semi.tokens) := by
  unfold typeHeader typeHeader?
  simp only [Semi.last_eq_iff (show openBrace ≠ "" by decide)]
  split
  · cases found : typeWord? semi.tokens with
    | none => rfl
    | some i =>
      dsimp only
      rw [show (i : Int) + 1 = (i + 1 : Nat) by omega,token_natCast]
      split
      · rename_i named
        have inside : i + 1 < semi.size := by
          by_contra beyond
          rw [List.getD_eq_getElem?_getD,List.getElem?_eq_none (Nat.not_lt.mp beyond)] at named
          exact absurd named (by decide)
        rw [read?_eq inside,read?_eq (Nat.lt_of_succ_lt inside)]
        rfl
      · rfl
  · rfl

/-! ### Searches -/

theorem drop_eq_cons (inside : i < semi.size) : semi.tokens.drop i = semi.tokens.getD i "" :: semi.tokens.drop (i + 1) := by
  rw [List.getD_eq_getElem?_getD,List.getElem?_eq_getElem inside]
  exact List.drop_eq_getElem_cons inside

theorem paren_eq (semi : Semi) (i : Nat) : paren semi i = some (paren? semi.tokens i) := by
  fun_induction paren semi i with
  | case1 i inside ih =>
    have step : paren? semi.tokens i =
        if opensParen (semi.tokens.getD i "") then some i else paren? semi.tokens (i + 1) := by
      rw [paren?,paren?,drop_eq_cons inside,List.findIdx?_cons]
      split
      · simp
      · rw [Option.map_map]
        congr 1
        funext k
        simp only [Function.comp_apply]
        omega
    rw [read?_eq inside,step]
    simp only [Option.bind_eq_bind,Option.bind_some]
    split
    · rfl
    · exact ih
  | case2 i outside =>
    rw [paren?,List.drop_eq_nil_of_le (Nat.not_lt.mp outside)]
    rfl

theorem paren?_lt {tokens : List String} {start p : Nat} (found : paren? tokens start = some p) : p < tokens.length := by
  obtain ⟨k,position,rfl⟩ := Option.map_eq_some_iff.mp found
  obtain ⟨bound,-⟩ := List.findIdx?_eq_some_iff_getElem.mp position
  rw [List.length_drop] at bound
  omega

theorem take_succ (inside : i < semi.size) :
    semi.tokens.take (i + 1) = semi.tokens.take i ++ [semi.tokens.getD i ""] := by
  rw [List.getD_eq_getElem?_getD,List.take_add_one,List.getElem?_eq_getElem inside]
  rfl

theorem reverse_take_succ (inside : i < semi.size) :
    (semi.tokens.take (i + 1)).reverse = semi.tokens.getD i "" :: (semi.tokens.take i).reverse := by
  rw [take_succ inside,List.reverse_append]
  rfl

/-- What stands before a generic argument list are the tokens before the position where it begins. -/
theorem angles_eq (semi : Semi) (depth : Int) (n : Nat) (inside : n ≤ semi.size) :
    ∃ start : Int, angles semi depth n = some start ∧ start < n ∧
      skipAngles depth (semi.tokens.take n).reverse = (semi.tokens.take start.toNat).reverse ∧ -1 ≤ start := by
  induction n generalizing depth with
  | zero => exact ⟨-1,rfl,by omega,rfl,by omega⟩
  | succ i ih =>
    rw [reverse_take_succ inside]
    simp only [angles,read?_eq (Nat.lt_of_succ_le inside),Option.bind_eq_bind,Option.bind_some,skipAngles]
    split
    · exact ⟨i,rfl,by omega,by simp,by omega⟩
    · obtain ⟨start,found,below,before,above⟩ := ih _ (Nat.le_of_succ_le inside)
      exact ⟨start,found,by omega,before,above⟩

/-- The name at the end of the tokens before a position. -/
def lastName (semi : Semi) (i : Int) : Checked (Option (String × Nat)) :=
  if i < 0 then some none
  else do
    let name ← semi.read? i
    some (some (name,i.toNat))

theorem lastName_eq (semi : Semi) {start : Int} (inside : start ≤ semi.size) :
    lastName semi (start - 1) = some (match (semi.tokens.take start.toNat).reverse with
      | [] => none
      | name :: before => some (name,before.length)) := by
  unfold lastName
  by_cases empty : start ≤ 0
  · rw [if_pos (by omega),show start.toNat = 0 by omega]
    rfl
  · obtain ⟨i,rfl⟩ : ∃ i : Nat, start = (i + 1 : Nat) := ⟨start.toNat - 1,by omega⟩
    have bound : i < semi.size := by omega
    rw [if_neg (by omega),show ((i + 1 : Nat) : Int) - 1 = i by omega,read?_eq bound,Int.toNat_natCast,
      Int.toNat_natCast,reverse_take_succ bound]
    simp only [Option.bind_eq_bind,Option.bind_some,List.length_reverse,List.length_take]
    rw [Nat.min_eq_left (show i ≤ semi.tokens.length from Nat.le_of_lt bound)]

theorem nameBefore_eq {p : Nat} (inside : p ≤ semi.size) :
    nameBefore semi p = some (Depends.nameBefore semi.tokens p) := by
  have plain := lastName_eq semi (Int.ofNat_le.mpr inside)
  unfold nameBefore Depends.nameBefore beforeGenerics
  cases p with
  | zero => rfl
  | succ i =>
    rw [Int.toNat_natCast] at plain
    rw [reverse_take_succ inside] at plain ⊢
    rw [show ((i + 1 : Nat) : Int) - 1 = i by omega,token_natCast] at *
    dsimp only
    split
    · obtain ⟨start,found,below,before,above⟩ := angles_eq semi 0 (i + 1) inside
      rw [reverse_take_succ inside] at before
      rw [found,before]
      exact lastName_eq semi (by omega)
    · exact plain

theorem delegateName_eq (semi : Semi) : delegateName semi = some (Rule.delegateName? semi.tokens) := by
  unfold delegateName Rule.delegateName?
  simp only [Semi.last_eq_iff (show ";" ≠ "" by decide),Semi.find?]
  cases semi.tokens.findIdx? (· == "delegate") with
  | none => rfl
  | some i =>
    dsimp only
    split
    · rw [show (i : Int) + 2 = (i + 2 : Nat) by omega,token_natCast,paren_eq]
      cases found : paren? semi.tokens (i + 1) with
      | none => exact (apply_ite some _ _ _).symm
      | some p =>
        simp only [Option.bind_eq_bind,Option.bind_some,nameBefore_eq (Nat.le_of_lt (paren?_lt found)),Option.map_some]
        split
        · exact (apply_ite some _ _ _).symm
        · exact (apply_ite some _ _ _).symm
    · rfl

theorem functionName_eq (options : RuleOptions) (semi : Semi) :
    functionName options semi = some (Rule.functionName? options semi.tokens) := by
  unfold functionName Rule.functionName?
  simp only [Semi.last_eq_iff (show openBrace ≠ "" by decide),paren_eq,Option.bind_eq_bind,Option.bind_some]
  split
  · cases found : paren? semi.tokens 0 with
    | none => rfl
    | some p =>
      dsimp only
      split
      · rename_i first
        subst first
        rfl
      · rw [nameBefore_eq (Nat.le_of_lt (paren?_lt found))]
        cases Depends.nameBefore semi.tokens p with
        | none => rfl
        | some found =>
          obtain ⟨name,i⟩ := found
          have before : semi.token ((i : Int) - 1) ≠ "new" ↔ ¬ (0 < i ∧ semi.tokens.getD (i - 1) "" = "new") := by
            cases i with
            | zero => simp [Semi.token]
            | succ i => simp
          simp only [Option.bind_some,before]
          exact (apply_ite some _ _ _).symm
  · rfl

/-! ### Directives and names -/

theorem slice?_tail {part : Semi} {first : String} {rest : List String} (tokens : part.tokens = first :: rest) :
    part.slice? 1 part.size = some (part.withTokens rest) := by
  have bounds : (0 : Int) ≤ 1 ∧ (1 : Int) ≤ part.size ∧ (part.size : Int) ≤ part.size := by
    simp only [Semi.size,tokens,List.length_cons]
    omega
  rw [Semi.slice?,if_pos bounds]
  simp [Semi.size,tokens]

theorem afterStatic_eq (semi : Semi) (body : List String) :
    afterStatic (semi.withTokens body) =
      some (semi.withTokens (if body.head? = some "static" then body.tail else body)) := by
  unfold afterStatic
  cases body with
  | nil => rfl
  | cons first rest =>
    have tail : (semi.withTokens (first :: rest)).slice? 1 (semi.withTokens (first :: rest)).size =
        some ((semi.withTokens (first :: rest)).withTokens rest) := slice?_tail rfl
    rw [tail]
    simp only [Semi.size,Semi.withTokens,List.length_cons,Nat.zero_lt_succ,↓reduceIte,Semi.read?,Option.bind_eq_bind,
      List.head?_cons,Option.some.injEq,List.tail_cons]
    exact (apply_ite some _ _ _).symm.trans (congrArg some (apply_ite semi.withTokens _ _ _).symm)

theorem usingParts_eq (options : RuleOptions) (semi : Semi) :
    usingParts options semi = some (Rule.usingParts? options semi.tokens) := by
  unfold usingParts Rule.usingParts?
  simp only [Semi.last_eq_iff (show ";" ≠ "" by decide)]
  cases keyword : usingStart? semi.tokens with
  | none => rfl
  | some start =>
    dsimp only
    split
    · rename_i ended
      split
      · rfl
      · have here : semi.tokens[start]? = some "using" := by
          obtain ⟨front,rest,tokens,rfl,-⟩ := usingStart?_shape keyword
          simp [tokens]
        have inside : start + 1 < semi.size := succ_lt_of_ne_last here ended (by decide)
        rw [show (start : Int) + 1 = (start + 1 : Nat) by omega,inner_eq inside]
        simp only [Option.bind_eq_bind,Option.bind_some]
        generalize Rule.inner semi.tokens (start + 1) = body
        rw [afterStatic_eq]
        generalize (if body.head? = some "static" then body.tail else body) = body
        simp only [Option.bind_some,Semi.withTokens]
        split
        · cases stripDots body with
          | nil => rfl
          | cons root more =>
            simp only [Semi.size,List.length_cons,Nat.succ_ne_zero,↓reduceIte,Semi.read?]
            exact (apply_ite some _ _ _).symm
        · rfl
    · rfl

theorem drop_take_last (inside : i < semi.size) : (semi.tokens.take (i + 1)).drop i = [semi.tokens.getD i ""] := by
  rw [List.drop_take,drop_eq_cons inside]
  simp

theorem dottedBack_plain {name second : String} {before : List String} (other : second ≠ ".") :
    dottedBack (name :: second :: before) = [name] := by
  cases before with
  | nil => simp [dottedBack]
  | cons outer before => simp [dottedBack,other]

/-- The qualifier of a name begins where the names that dots join to its front do. -/
theorem qualifierStart_eq (semi : Semi) (i : Nat) (inside : i < semi.size) :
    ∃ start ≤ i, qualifierStart semi i = some start ∧
      (dottedBack (semi.tokens.take (i + 1)).reverse).reverse = (semi.tokens.take (i + 1)).drop start := by
  fun_induction qualifierStart semi i with
  | case1 i ih =>
    have second : i + 1 < semi.size := Nat.lt_of_succ_lt inside
    have third : i < semi.size := Nat.lt_of_succ_lt second
    have alone : (semi.tokens.take (i + 2 + 1)).drop (i + 2) = [semi.tokens.getD (i + 2) ""] := drop_take_last inside
    rw [show i.succ.succ = i + 2 from rfl] at *
    rw [reverse_take_succ inside,reverse_take_succ second,show (i : Int) + 1 = (i + 1 : Nat) by omega,read?_eq second,
      read?_eq third]
    simp only [Option.bind_eq_bind,Option.bind_some]
    by_cases dot : semi.tokens.getD (i + 1) "" = "."
    · rw [if_pos dot,dot]
      by_cases named : isName (semi.tokens.getD i "") = true
      · obtain ⟨start,bound,found,front⟩ := ih third
        have longer : semi.tokens.take (i + 2 + 1) = semi.tokens.take (i + 1) ++ [".",semi.tokens.getD (i + 2) ""] := by
          rw [take_succ inside,take_succ second,dot]
          simp
        refine ⟨start,by omega,by rw [if_pos named,found],?_⟩
        rw [longer,List.drop_append_of_le_length (by simp only [List.length_take,Semi.size] at *; omega),← front,
          reverse_take_succ third,dottedBack,if_pos named]
        simp
      · refine ⟨i + 2,Nat.le_refl _,by rw [if_neg named],?_⟩
        rw [alone,reverse_take_succ third,dottedBack,if_neg named]
        rfl
    · rw [dottedBack_plain dot,if_neg dot]
      exact ⟨i + 2,Nat.le_refl _,rfl,alone.symm⟩
  | case2 i small =>
    refine ⟨i,Nat.le_refl _,rfl,?_⟩
    rw [drop_take_last inside,reverse_take_succ inside]
    -- With at most one token before the name there is no qualifier.
    match i with
    | 0 => rfl
    | 1 =>
      rw [reverse_take_succ (Nat.lt_of_succ_lt inside)]
      simp [dottedBack]
    | n + 2 => exact absurd rfl (small n)

theorem slice?_eq (semi : Semi) {start stop : Nat} (ordered : start ≤ stop) (inside : stop ≤ semi.size) :
    semi.slice? start stop = some (semi.withTokens ((semi.tokens.take stop).drop start)) := by
  have bounds : (0 : Int) ≤ start ∧ (start : Int) ≤ stop ∧ (stop : Int) ≤ semi.size := by omega
  rw [Semi.slice?,if_pos bounds]
  rfl

theorem filterMap_range_step {α : Type} (chosen : Nat → Prop) [DecidablePred chosen] (value : Nat → α) {n : Nat}
    (inside : i < n) :
    (List.range n).filterMap (fun j => if i ≤ j ∧ chosen j then some (value j) else none) =
      (if chosen i then [value i] else []) ++
        (List.range n).filterMap (fun j => if i + 1 ≤ j ∧ chosen j then some (value j) else none) := by
  induction n with
  | zero => omega
  | succ n ih =>
    rw [List.range_succ,List.filterMap_append,List.filterMap_append]
    by_cases earlier : i < n
    · have last : (i ≤ n ∧ chosen n) ↔ (i + 1 ≤ n ∧ chosen n) := by
        rw [and_iff_right (Nat.le_of_lt earlier),and_iff_right (Nat.succ_le_of_lt earlier)]
      rw [ih earlier,List.append_assoc]
      simp only [List.filterMap_cons,List.filterMap_nil,last]
    · obtain rfl : i = n := by omega
      -- Only the last position is left, and it is the given one.
      have before : ∀ start, i ≤ start →
          (List.range i).filterMap (fun j => if start ≤ j ∧ chosen j then some (value j) else none) = [] := by
        intro start above
        rw [List.filterMap_eq_nil_iff]
        intro j member
        have below := List.mem_range.mp member
        exact if_neg fun held => by omega
      rw [before i (Nat.le_refl _),before (i + 1) (Nat.le_succ _)]
      by_cases here : chosen i
      · simp [here]
      · simp [here]

/-- The qualified names from a position on are that of the token there, if it has one, and those after it. -/
theorem qualifiedGroups_step {tokens : List String} (inside : i < tokens.length) (skip : List String) :
    qualifiedGroups tokens i skip =
      (if isTypeName (tokens.getD i "") ∧ ¬ skip.contains (tokens.getD i "") then [qualifiedAt tokens i] else []) ++
        qualifiedGroups tokens (i + 1) skip :=
  filterMap_range_step (fun j => isTypeName (tokens.getD j "") ∧ ¬ skip.contains (tokens.getD j ""))
    (qualifiedAt tokens) inside

theorem qualifiedGroups_end {tokens : List String} (outside : tokens.length ≤ i) (skip : List String) :
    qualifiedGroups tokens i skip = [] := by
  rw [qualifiedGroups,List.filterMap_eq_nil_iff]
  intro j member
  have below := List.mem_range.mp member
  exact if_neg fun held => by omega

theorem groups_eq (semi : Semi) (skip : List String) (i : Nat) :
    groups semi skip i = some (qualifiedGroups semi.tokens i skip) := by
  fun_induction groups semi skip i with
  | case1 i inside ih =>
    rw [read?_eq inside,qualifiedGroups_step inside]
    simp only [Option.bind_eq_bind,Option.bind_some]
    split
    · obtain ⟨start,bound,found,front⟩ := qualifierStart_eq semi i inside
      rw [found,show (i : Int) + 1 = (i + 1 : Nat) by omega]
      simp only [Option.bind_some]
      rw [slice?_eq semi (by omega) inside,ih]
      simp [qualifiedAt,front,Semi.withTokens]
    · rw [ih]
      rfl
  | case2 i outside => rw [qualifiedGroups_end (Nat.not_lt.mp outside)]

theorem parameters_eq (semi : Semi) (i : Nat) (inside : i ≤ semi.size) :
    parameters semi i = some (((semi.tokens.drop i).takeWhile (· != ">")).filter isName,
      i + ((semi.tokens.drop i).takeWhile (· != ">")).length) := by
  fun_induction parameters semi i with
  | case1 i bound ih =>
    rw [read?_eq bound,drop_eq_cons bound]
    simp only [Option.bind_eq_bind,Option.bind_some]
    by_cases closing : semi.tokens.getD i "" = ">"
    · rw [if_pos closing,List.takeWhile_cons,if_neg (by simpa using closing)]
      rfl
    · rw [if_neg closing,ih bound,List.takeWhile_cons,if_pos (bne_iff_ne.mpr closing)]
      simp only [Option.bind_some,List.filter_cons,List.length_cons]
      congr 2
      omega
  | case2 i outside =>
    rw [List.drop_eq_nil_of_le (Nat.not_lt.mp outside)]
    rfl

theorem inheritedParts_eq (semi : Semi) : inheritedParts semi = some (Rule.inheritedParts? semi.tokens) := by
  unfold inheritedParts Rule.inheritedParts?
  rw [typeHeader_eq]
  cases header : typeHeader? semi.tokens with
  | none => rfl
  | some found =>
    obtain ⟨i,word,name⟩ := found
    simp only [Option.bind_eq_bind,Option.bind_some]
    rw [show (i : Int) + 2 = (i + 2 : Nat) by omega,token_natCast]
    have opening : semi.tokens.getD (i + 2) "" = "<" ↔ semi.tokens[i + 2]? = some "<" := by
      rw [List.getD_eq_getElem?_getD]
      cases semi.tokens[i + 2]? with
      | none => simp
      | some token => simp
    unfold genericParameters
    by_cases list : semi.tokens[i + 2]? = some "<"
    · have inside : i + 2 ≤ semi.size := Nat.le_of_lt (List.getElem?_eq_some_iff.mp list).1
      rw [if_pos (opening.mpr list),if_pos list,parameters_eq semi _ inside]
      simp only [Option.bind_some,groups_eq,Option.map_some]
    · rw [if_neg (fun held => list (opening.mp held)),if_neg list]
      simp only [groups_eq,Option.map_some]

theorem parts_eq (options : RuleOptions) (rule : Rule) (semi : Semi) :
    parts options rule semi = some (rule.parts? options semi.tokens) := by
  cases rule with
  | aliasDirective => simp [parts,Rule.parts?,aliasParts_eq]
  | namespaceHeader => simp [parts,Rule.parts?,namespaceParts_eq]
  | typeHeader => simp [parts,Rule.parts?,typeHeader_eq]
  | delegate => simp [parts,Rule.parts?,delegateName_eq]
  | functionHeader => simp [parts,Rule.parts?,functionName_eq]
  | anyOpening => simp [parts,Rule.parts?,Semi.last_eq_iff (show openBrace ≠ "" by decide)]
  | closing => simp [parts,Rule.parts?,Semi.last_eq_iff (show closeBrace ≠ "" by decide)]
  | usingDirective => simp [parts,Rule.parts?,usingParts_eq]
  | inherited => simp [parts,Rule.parts?,inheritedParts_eq]
  | reference => simp [parts,Rule.parts?,groups_eq]

/-- With every read checked, a rule has the result that it has. -/
theorem test_eq (options : RuleOptions) (rule : Rule) (semi : Semi) :
    test options rule semi = some (rule.test options semi) := by
  rw [test,parts_eq]
  rfl

/-! ### What actions take from their parts -/

theorem scopeParts_eq (part : Semi) : scopeParts part = some (Action.scopeParts part) := by
  unfold scopeParts Action.scopeParts
  match tokens : part.tokens with
  | [] => simp [Semi.size,tokens]
  | [kind] => simp [Semi.size,tokens]
  | kind :: first :: more =>
    rw [slice?_tail tokens]
    simp [Semi.size,tokens,Semi.read?,Semi.withTokens]

theorem saveAlias_eq (part : Semi) (r : Repository) :
    saveAlias part r = some (Action.saveAlias.perform part r) := by
  unfold saveAlias Action.perform
  match tokens : part.tokens with
  | [] => simp [Semi.size,tokens]
  | [name] => simp [Semi.size,tokens]
  | name :: first :: more =>
    rw [slice?_tail tokens]
    simp [Semi.size,tokens,Semi.read?,Semi.withTokens]

theorem resolve_eq (part : Semi) (r : Repository) : resolve part r = some (Action.resolve? part r) := by
  unfold resolve Action.resolve?
  generalize Action.expandAliases part r = reference
  dsimp only
  rcases List.eq_nil_or_concat reference with rfl | ⟨qualifier,name,rfl⟩
  · rfl
  · generalize held : part.withTokens (qualifier.concat name) = whole
    have tokens : whole.tokens = qualifier ++ [name] := by simp [← held,Semi.withTokens]
    have size : whole.size = qualifier.length + 1 := by simp [Semi.size,tokens]
    have last : whole.read? ((whole.size : Int) - 1) = some name := by
      rw [size,show ((qualifier.length + 1 : Nat) : Int) - 1 = (qualifier.length : Nat) by omega,read?_natCast]
      simp [tokens]
    have front : whole.slice? 0 ((whole.size : Int) - 1) = some (whole.withTokens qualifier) := by
      have cut := slice?_eq whole (Nat.zero_le qualifier.length) (by omega)
      rw [size,show ((qualifier.length + 1 : Nat) : Int) - 1 = (qualifier.length : Nat) by omega]
      refine cut.trans (congrArg (fun tokens => some (whole.withTokens tokens)) ?_)
      simp [tokens]
    rw [if_neg (by omega),last,front]
    simp [Semi.withTokens]

theorem addReference_eq (part : Semi) (r : Repository) :
    addReference part r = some (Action.addReferenceOn part r) := by
  unfold addReference Action.addReferenceOn
  rw [resolve_eq]
  cases Action.resolve? part r with
  | none => rfl
  | some d =>
    simp only [Option.bind_eq_bind,Option.bind_some]
    split <;> rfl

theorem perform_eq (action : Action) (part : Semi) (r : Repository) :
    perform action part r = some (action.perform part r) := by
  cases action with
  | openScope record =>
    simp only [perform,openScope,Action.perform,Action.openScopeOn,scopeParts_eq]
    cases Action.scopeParts part <;> rfl
  | declareType =>
    simp only [perform,declareType,Action.perform,Action.declareTypeOn,scopeParts_eq]
    cases Action.scopeParts part <;> rfl
  | closeScope => rfl
  | saveAlias => exact saveAlias_eq part r
  | saveUsing =>
    simp only [perform,Action.perform,Semi.size,List.length_eq_zero_iff,List.isEmpty_iff]
    split <;> rfl
  | addReference =>
    rw [perform,addReference_eq]
    rfl

/-- With every read checked, a rule list does to a repository what it does. -/
theorem apply_eq (options : RuleOptions) (rules : RuleList) (semi : Semi) (r : Repository) :
    apply options rules semi r = some (rules.apply options semi r) := by
  have handed : ∀ (action : Option Action) (parts : List Semi) (r : Repository),
      performAll action parts r =
        some (offer.run (match action with | some action => action.perform | none => fun _ r => (.ok (),r)) parts r) := by
    intro action parts
    induction parts with
    | nil => intro r; rfl
    | cons part parts ih =>
      intro r
      cases action with
      | none => exact ih r
      | some action =>
        simp only [performAll,offer.run,perform_eq,Option.bind_eq_bind,Option.bind_some]
        rcases action.perform part r with ⟨failure | done,q⟩
        · rfl
        · exact ih q
  induction rules with
  | nil => rfl
  | cons first rules ih =>
    obtain ⟨rule,action⟩ := first
    simp only [RuleList.apply,RuleList.reactions,List.map_cons,offer] at ih ⊢
    rw [apply,test_eq,Option.bind_eq_bind,Option.bind_some]
    cases rule.test options semi with
    | none => exact ih
    | some parts => exact handed action parts r

end Checked
end Depends
