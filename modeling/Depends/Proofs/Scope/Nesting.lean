import Depends.Proofs.Analysis.Declaring
import Depends.Proofs.Scope.Brackets
import Mathlib.Data.List.Basic

/-!
Scopes are brackets. Whatever rule takes a semi-expression, it opens a scope exactly when it ends in an opening
brace or is the header of a namespace for the whole file, and closes one exactly when it ends in a closing brace.
So the open scopes are those of the unclosed semi-expressions, outermost first, and the scope of a declared type
is made of the names of the scopes that are open before it (`scopes_are_brackets`).
-/
namespace Depends

namespace Semi

/-- The header of a namespace that reaches to the end of the file. -/
def opensFile (semi : Semi) : Bool :=
  semi.last == ";" && (Rule.aliasParts? semi.tokens).isNone && (Rule.namespaceParts? semi.tokens).isSome

/-- The last token opens a body. -/
def opensBody (semi : Semi) : Bool := semi.last == openBrace

/-- A semi-expression that opens a scope. -/
def opensScope (semi : Semi) : Bool := semi.opensBody || semi.opensFile

/-- A semi-expression that closes a scope. -/
def closesScope (semi : Semi) : Bool := semi.last == closeBrace

theorem last_eq_iff {semi : Semi} {token : String} (filled : token ≠ "") :
    semi.last = token ↔ semi.tokens.getLast? = some token := by
  unfold last
  cases semi.tokens.getLast? with
  | none => simp [filled.symm]
  | some other => simp

theorem opensScope_apart (semi : Semi) (opening : semi.opensScope = true) : semi.closesScope = false := by
  unfold opensScope opensBody opensFile at opening
  unfold closesScope
  rw [beq_eq_false_iff_ne]
  intro closing
  simp only [closing,show (closeBrace == openBrace) = false by decide,show (closeBrace == ";") = false by decide,
    Bool.false_and,Bool.or_self,Bool.false_eq_true] at opening

end Semi

/-! ### What ends the tokens that a rule takes -/

theorem aliasParts?_last {tokens parts : List String} (taken : Rule.aliasParts? tokens = some parts) :
    tokens.getLast? = some ";" := by
  unfold Rule.aliasParts? at taken
  split at taken
  · rename_i directive
    unfold isAliasDirective at directive
    split at directive
    · cases directive
    · simp only [Bool.and_eq_true,beq_iff_eq] at directive
      exact directive.1.1
  · cases taken

theorem namespaceParts?_last {tokens parts : List String} (taken : Rule.namespaceParts? tokens = some parts) :
    tokens.getLast? = some openBrace ∨ tokens.getLast? = some ";" := by
  unfold Rule.namespaceParts? at taken
  split at taken
  · cases taken
  · split at taken
    · assumption
    · cases taken

theorem typeHeader?_last {tokens : List String} {found : Nat × String × String} (taken : typeHeader? tokens = some found) :
    tokens.getLast? = some openBrace := by
  unfold typeHeader? at taken
  split at taken
  · assumption
  · cases taken

theorem delegateName?_last {tokens : List String} {name : String} (taken : Rule.delegateName? tokens = some name) :
    tokens.getLast? = some ";" := by
  unfold Rule.delegateName? at taken
  split at taken
  · cases taken
  · split at taken
    · assumption
    · cases taken

theorem functionName?_last {options : RuleOptions} {tokens : List String} {name : String}
    (taken : Rule.functionName? options tokens = some name) : tokens.getLast? = some openBrace := by
  unfold Rule.functionName? at taken
  split at taken
  · assumption
  · cases taken

namespace Role

/-- The scope that a semi-expression opens, when it is the given one of its file. -/
def frame? (semi : Semi) (count : Nat) : Role → Option Frame
  | opens kind first more =>
    some { kind, name := Text.join "." (first :: more), path := first :: more, beginLine := semi.start
           beginScopes := count }
  | declares kind name => some { kind, name, path := [name], beginLine := semi.start, beginScopes := count }
  | _ => none

/-- The kind and the name of the type that a semi-expression declares. -/
def type? : Role → Option (DeclKind × String)
  | declares kind name => some (kind,name)
  | delegates name => some (.delegateType,name)
  | _ => none

/-- What a role means for the scopes, seen from the last token. -/
inductive Nests (semi : Semi) (role : Role) : Prop
  | opening : semi.opensScope = true → (∀ count, (role.frame? semi count).isSome = true) → Nests semi role
  | closing : semi.opensScope = false → semi.closesScope = true → role = .closes → Nests semi role
  | neutral : semi.opensScope = false → semi.closesScope = false → role ≠ .closes →
      (∀ count, role.frame? semi count = none) → Nests semi role

end Role

open Role in
/-- Exactly the semi-expressions that end in an opening brace and the headers of namespaces for whole files open a
scope, and exactly those that end in a closing brace close one. -/
theorem roleOf_nests (options : RuleOptions) (semi : Semi) : Nests semi (roleOf options semi.tokens) := by
  have body : semi.tokens.getLast? = some openBrace → semi.opensScope = true := by
    intro last
    simp [Semi.opensScope,Semi.opensBody,(Semi.last_eq_iff (by decide)).mpr last]
  have semicolon : semi.tokens.getLast? = some ";" → semi.opensBody = false ∧ semi.closesScope = false := by
    intro last
    simp only [Semi.opensBody,Semi.closesScope,(Semi.last_eq_iff (by decide)).mpr last]
    decide
  unfold roleOf
  cases binding : Rule.aliasParts? semi.tokens with
  | some parts =>
    obtain ⟨name,first,more,rfl⟩ := aliasParts?_shape binding
    obtain ⟨plain,still⟩ := semicolon (aliasParts?_last binding)
    exact .neutral (by simp [Semi.opensScope,plain,Semi.opensFile,binding]) still (by simp) fun _ => rfl
  | none =>
    cases header : Rule.namespaceParts? semi.tokens with
    | some parts =>
      obtain ⟨first,more,rfl⟩ := namespaceParts?_shape header
      refine .opening ?_ fun _ => rfl
      rcases namespaceParts?_last header with last | last
      · exact body last
      · simp [Semi.opensScope,Semi.opensFile,(Semi.last_eq_iff (by decide)).mpr last,binding,header]
    | none =>
      have file : semi.opensFile = false := by simp [Semi.opensFile,header]
      cases typed : typeHeader? semi.tokens with
      | some found => exact .opening (body (typeHeader?_last typed)) fun _ => rfl
      | none =>
        cases delegate : Rule.delegateName? semi.tokens with
        | some name =>
          obtain ⟨plain,still⟩ := semicolon (delegateName?_last delegate)
          exact .neutral (by simp [Semi.opensScope,plain,file]) still (by simp) fun _ => rfl
        | none =>
          cases function : Rule.functionName? options semi.tokens with
          | some name => exact .opening (body (functionName?_last function)) fun _ => rfl
          | none =>
            by_cases opening : semi.tokens.getLast? = some openBrace
            · simp only [opening,↓reduceIte]
              exact .opening (body opening) fun _ => rfl
            · have plain : semi.opensBody = false := by
                rw [Semi.opensBody,beq_eq_false_iff_ne,ne_eq,Semi.last_eq_iff (by decide)]
                exact opening
              by_cases closing : semi.tokens.getLast? = some closeBrace
              · simp only [closing,show ¬ (some closeBrace = some openBrace) by decide,↓reduceIte]
                refine .closing (by simp [Semi.opensScope,plain,file]) ?_ rfl
                rw [Semi.closesScope,beq_iff_eq,Semi.last_eq_iff (by decide)]
                exact closing
              · simp only [opening,closing,↓reduceIte]
                refine .neutral (by simp [Semi.opensScope,plain,file]) ?_ (by simp) fun _ => rfl
                rw [Semi.closesScope,beq_eq_false_iff_ne,ne_eq,Semi.last_eq_iff (by decide)]
                exact closing

/-! ### The scopes that are open -/

namespace Repository

theorem leave_items (r : Repository) (semi : Semi) : (r.leave semi).stack.items = r.stack.items.dropLast := by
  rw [(leave_scopes r semi).2]
  unfold Stack.pop
  cases top : r.stack.items.getLast? with
  | none => rw [List.getLast?_eq_none_iff.mp top]; rfl
  | some frame => rfl

/-- A semi-expression that closes nothing puts its scope on top, when it opens one. -/
theorem declare_scopes {role : Role} (still : role ≠ .closes) (semi : Semi) (r : Repository) :
    (role.declare semi r).stack.items = r.stack.items ++ (role.frame? semi (r.scopeCount + 1)).toList ∧
      (role.declare semi r).scopeCount = r.scopeCount + (role.frame? semi (r.scopeCount + 1)).toList.length := by
  cases role with
  | opens kind first more =>
    simp only [Role.declare]
    split <;> exact ⟨rfl,rfl⟩
  | declares kind name => exact ⟨rfl,rfl⟩
  | closes => exact absurd rfl still
  | binds name first more => exact ⟨(List.append_nil _).symm,rfl⟩
  | delegates name => exact ⟨(List.append_nil _).symm,rfl⟩
  | plain => exact ⟨(List.append_nil _).symm,rfl⟩

theorem declared_snoc (options : RuleOptions) (units : List Semi) (unit : Semi) (r : Repository) :
    r.declared options (units ++ [unit]) = (roleOf options unit.tokens).declare unit (r.declared options units) := by
  rw [declared,List.foldl_append]
  rfl

end Repository

/-- The scope that the semi-expression at a position opens. -/
def frameAt (options : RuleOptions) (units : List Semi) (i : Nat) : Option Frame :=
  units[i]?.bind fun unit =>
    (roleOf options unit.tokens).frame? unit ((units.take (i + 1)).countP Semi.opensScope)

theorem frameAt_append (options : RuleOptions) {units : List Semi} (more : List Semi) {i : Nat} (inside : i < units.length) :
    frameAt options (units ++ more) i = frameAt options units i := by
  rw [frameAt,frameAt,List.getElem?_append_left inside,List.take_append_of_le_length inside]

theorem frameAt_last (options : RuleOptions) (units : List Semi) (unit : Semi) :
    frameAt options (units ++ [unit]) units.length =
      (roleOf options unit.tokens).frame? unit ((units ++ [unit]).countP Semi.opensScope) := by
  rw [frameAt,List.getElem?_concat_length,List.take_of_length_le (by simp)]
  rfl

/-- Whatever comes in a file, the open scopes are those of the unclosed semi-expressions, and as many have been
opened as semi-expressions open one. -/
theorem declared_scopes (options : RuleOptions) (path : String) (r : Repository) (units : List Semi) :
    ∃ positions, OpenAt Semi.opensScope Semi.closesScope units positions ∧
      ((r.beginFile path).declared options units).stack.items.map some = positions.map (frameAt options units) ∧
        ((r.beginFile path).declared options units).scopeCount = units.countP Semi.opensScope := by
  induction units using List.reverseRecOn with
  | nil => exact ⟨[],.nil,rfl,rfl⟩
  | append_singleton units unit ih =>
    obtain ⟨positions,openAt,frames,count⟩ := ih
    have earlier : positions.map (frameAt options (units ++ [unit])) = positions.map (frameAt options units) :=
      List.map_congr_left fun i member => frameAt_append options [unit] (openAt.lt_length member)
    -- The last semi-expression decides by its last token, whatever rule takes it.
    rw [Repository.declared_snoc]
    generalize (r.beginFile path).declared options units = q at frames count ⊢
    rcases roleOf_nests options unit with ⟨opening,framed⟩ | ⟨plain,closing,role⟩ | ⟨plain,still,other,frameless⟩
    · have other : roleOf options unit.tokens ≠ .closes := by
        intro closes
        rw [closes] at framed
        cases framed 0
      obtain ⟨items,counted⟩ := Repository.declare_scopes other unit q
      obtain ⟨frame,framed⟩ := Option.isSome_iff_exists.mp (framed (q.scopeCount + 1))
      have total : (units ++ [unit]).countP Semi.opensScope = q.scopeCount + 1 := by
        rw [List.countP_append,List.countP_singleton,opening,count]
        rfl
      refine ⟨positions ++ [units.length],openAt.opening opening Semi.opensScope_apart,?_,?_⟩
      · rw [items,List.map_append,List.map_append,frames,earlier,framed]
        rw [List.map_singleton,frameAt_last,total,framed]
        rfl
      · rw [counted,framed,total]
        rfl
    · rw [role]
      refine ⟨positions.dropLast,openAt.closing closing Semi.opensScope_apart,?_,?_⟩
      · rw [Role.declare,Repository.leave_items,List.map_dropLast,frames,List.map_dropLast,earlier]
      · rw [Role.declare,(Repository.leave_scopes q unit).1,count,List.countP_append,List.countP_singleton,plain]
        rfl
    · obtain ⟨items,counted⟩ := Repository.declare_scopes other unit q
      rw [frameless] at items counted
      refine ⟨positions,openAt.neutral plain still Semi.opensScope_apart,?_,?_⟩
      · rw [items,Option.toList_none,List.append_nil,frames,earlier]
      · rw [counted,count,List.countP_append,List.countP_singleton,plain]
        rfl

/-! ### The types that are declared -/

/-- What is declared, and where, whatever lines it spans. -/
def Declaration.outline (d : Declaration) : Declaration :=
  { kind := d.kind, name := d.name, file := d.file, scope := d.scope }

theorem Declaration.outline_sameSite (d : Declaration) : d.outline.sameSite d = true := sameSite_iff.mpr ⟨rfl,rfl⟩

/-- The names of the namespaces and types among some scopes, outermost first. -/
def namingPath (frames : List Frame) : List String := (frames.filter Frame.isNaming).flatMap (·.path)

/-- The type that a semi-expression declares in given scopes. -/
def Semi.type? (options : RuleOptions) (frames : List Frame) (semi : Semi) : Option Declaration :=
  (roleOf options semi.tokens).type?.map fun found =>
    { kind := found.1, name := found.2, file := semi.path, scope := namingPath frames }

theorem roleOf_opens {options : RuleOptions} {tokens : List String} {kind : DeclKind} {first : String}
    {more : List String} (role : roleOf options tokens = .opens kind first more) : kind.isType = false := by
  unfold roleOf at role
  split at role
  · cases role
  split at role
  · cases role
    rfl
  split at role
  · cases role
  split at role
  · cases role
  split at role
  · cases role
    rfl
  split at role
  · cases role
    rfl
  split at role <;> cases role

namespace Repository

/-- The types among the recorded declarations and the entries of the type table are the given ones. -/
structure Outlined (recorded : List Declaration) (table : TypeTable) (r : Repository) : Prop where
  locations : (r.locations.map Declaration.outline).filter (·.kind.isType) = recorded
  types : r.types.map Declaration.outline = table

theorem Outlined.stable (recorded : List Declaration) (table : TypeTable) : Stable (Outlined recorded table) := by
  refine ⟨fun r stack outlined => ⟨outlined.locations,outlined.types⟩,
    fun r notice outlined => ⟨outlined.locations,outlined.types⟩,fun r serial line scopes outlined => ?_⟩
  have same : ∀ d : Declaration,
      (if d.serial = serial then d.closeAt line scopes else d).outline = d.outline := by
    intro d
    split <;> rfl
  constructor
  · rw [← outlined.locations]
    simp only [close,List.map_map,Function.comp_def,same]
  · rw [← outlined.types]
    simp only [close,TypeTable.map,List.map_map,Function.comp_def,same]

variable {recorded : List Declaration} {table : TypeTable} {r : Repository}

theorem Outlined.announce (outlined : r.Outlined recorded table) {d : Declaration} (other : d.kind.isType = false) :
    (r.announce d).Outlined recorded table := by
  refine ⟨?_,outlined.types⟩
  simp [Repository.announce,outlined.locations,Declaration.outline,other]

theorem Outlined.enlist (outlined : r.Outlined recorded table) {d : Declaration} (type : d.kind.isType = true) :
    (r.enlist d).Outlined (recorded ++ [d.outline]) (table.add d.name d.outline) := by
  constructor
  · simp [Repository.enlist,Repository.announce,outlined.locations,Declaration.outline,type]
  · simp only [Repository.enlist]
    rw [TypeTable.map_add Declaration.outline_sameSite,outlined.types]
    rfl

/-- A semi-expression records the type that it declares in the scopes that are open, and no other one. -/
theorem Outlined.declare (outlined : r.Outlined recorded table) (options : RuleOptions) (semi : Semi) :
    ((roleOf options semi.tokens).declare semi r).Outlined (recorded ++ (semi.type? options r.stack.items).toList)
      ((semi.type? options r.stack.items).toList.foldl (fun table d => table.add d.name d) table) := by
  have entered : ∀ {recorded table} {q : Repository}, q.Outlined recorded table →
      ∀ kind first more, (q.enter semi kind first more).Outlined recorded table :=
    fun inside _ _ _ => ⟨inside.locations,inside.types⟩
  unfold Semi.type?
  cases role : roleOf options semi.tokens with
  | declares kind name =>
    have type : kind.isType = true := by
      have listed := roleOf_declares role
      simp only [typeKinds,List.mem_cons,List.not_mem_nil,or_false] at listed
      rcases listed with rfl | rfl | rfl | rfl <;> rfl
    exact entered (outlined.enlist (d := r.beginning semi kind name) type) _ _ _
  | delegates name => exact outlined.enlist (d := r.bodiless semi name) rfl
  | opens kind first more =>
    simp only [Role.type?,Option.map_none,Option.toList_none,List.append_nil,List.foldl_nil,Role.declare]
    split
    · exact entered outlined _ _ _
    · exact entered (outlined.announce (roleOf_opens role)) _ _ _
  | closes =>
    simp only [Role.type?,Option.map_none,Option.toList_none,List.append_nil,List.foldl_nil]
    exact (Outlined.stable recorded table).leave outlined semi
  | binds name first more =>
    simp only [Role.type?,Option.map_none,Option.toList_none,List.append_nil,List.foldl_nil]
    exact ⟨outlined.locations,outlined.types⟩
  | plain =>
    simp only [Role.type?,Option.map_none,Option.toList_none,List.append_nil,List.foldl_nil]
    exact outlined

end Repository

/-- The types that the semi-expressions of a file declare, each in the scopes that are open before it. -/
def typesIn (options : RuleOptions) (path : String) (r : Repository) (units : List Semi) : List Declaration :=
  (List.range units.length).filterMap fun i =>
    units[i]?.bind (Semi.type? options (r.upTo options [.declaring] path (units.take i)).stack.items)

theorem typesIn_snoc (options : RuleOptions) (path : String) (r : Repository) (units : List Semi) (unit : Semi) :
    typesIn options path r (units ++ [unit]) =
      typesIn options path r units ++
        (unit.type? options (r.upTo options [.declaring] path units).stack.items).toList := by
  unfold typesIn
  rw [List.length_append,List.length_singleton,List.range_succ,List.filterMap_append]
  congr 1
  · refine List.filterMap_congr fun i member => ?_
    have inside := List.mem_range.mp member
    rw [List.getElem?_append_left inside,List.take_append_of_le_length (Nat.le_of_lt inside)]
  · simp only [List.filterMap_cons,List.filterMap_nil,List.getElem?_concat_length,List.take_left,Option.bind_some]
    cases unit.type? options (r.upTo options [.declaring] path units).stack.items <;> rfl

theorem declared_types (options : RuleOptions) (path : String) (r : Repository) (units : List Semi) :
    ((r.beginFile path).declared options units).Outlined
      ((r.locations.map Declaration.outline).filter (·.kind.isType) ++ typesIn options path r units)
      ((typesIn options path r units).foldl (fun table d => table.add d.name d) (r.types.map Declaration.outline)) := by
  induction units using List.reverseRecOn with
  | nil => exact ⟨(List.append_nil _).symm,rfl⟩
  | append_singleton units unit ih =>
    rw [Repository.declared_snoc,typesIn_snoc,upTo_declaring,List.foldl_append,← List.append_assoc]
    exact ih.declare options unit

/-- Scopes are brackets, whatever semi-expressions a file has. As many scopes have been opened as semi-expressions
open one. The open scopes are, outermost first, one for each semi-expression that opens a scope and is not closed
by a later one; a semi-expression that closes a scope when none is open changes none. The types that are recorded
are those that the semi-expressions declare, each in the scope that the namespaces and types around it name. And
when the braces are balanced and no namespace is one for the whole file, no scope is left open. -/
theorem scopes_are_brackets (options : RuleOptions) (path : String) (r : Repository) (units : List Semi) :
    (offerAll options [.declaring] units 0 (r.beginFile path)).1 = none ∧
      let q := r.upTo options [.declaring] path units
      q.scopeCount = units.countP Semi.opensScope ∧
        (∃ positions : List Nat, positions.Pairwise (· < ·) ∧
          (∀ i, i ∈ positions ↔ Unclosed Semi.opensScope Semi.closesScope units i) ∧
            q.stack.items.map some = positions.map (frameAt options units)) ∧
        (q.locations.map Declaration.outline).filter (·.kind.isType) =
          (r.locations.map Declaration.outline).filter (·.kind.isType) ++ typesIn options path r units ∧
        q.types.map Declaration.outline =
          (typesIn options path r units).foldl (fun table d => table.add d.name d) (r.types.map Declaration.outline) ∧
        (Balanced Semi.opensBody Semi.closesScope units → (∀ unit ∈ units, unit.opensFile = false) →
          q.stack.items = []) := by
  obtain ⟨positions,openAt,frames,count⟩ := declared_scopes options path r units
  obtain ⟨locations,types⟩ := declared_types options path r units
  refine ⟨by rw [offerAll_declaring],?_⟩
  rw [upTo_declaring]
  refine ⟨count,⟨positions,openAt.ascending,openAt.unclosed,frames⟩,locations,types,fun balanced braced => ?_⟩
  have scopes : Balanced Semi.opensScope Semi.closesScope units :=
    balanced.congr fun unit member => by simp [Semi.opensScope,braced unit member]
  cases positions with
  | nil => exact List.map_eq_nil_iff.mp frames
  | cons i positions =>
    exact absurd ((openAt.unclosed i).mp (List.mem_cons_self ..)) (scopes.not_unclosed Semi.opensScope_apart)

/-- A type in a dotted namespace, with a method in it. -/
def nestedUnits : List Semi :=
  [⟨["namespace","N",".","M",openBrace],"a.cs",1,1⟩,⟨["class","Foo",openBrace],"a.cs",2,2⟩,
    ⟨["delegate","void","D","(",")",";"],"a.cs",3,3⟩,⟨["void","F","(",")",openBrace],"a.cs",4,4⟩,
    ⟨[closeBrace],"a.cs",5,5⟩,⟨[closeBrace],"a.cs",6,6⟩,⟨[closeBrace],"a.cs",7,7⟩]

theorem nestedUnits_balanced : Balanced Semi.opensBody Semi.closesScope nestedUnits := by
  have method : Balanced Semi.opensBody Semi.closesScope ((nestedUnits.drop 3).take 2) :=
    .nested (by decide) .nil (by decide) .nil
  have body : Balanced Semi.opensBody Semi.closesScope ((nestedUnits.drop 2).take 3) :=
    .neutral (by decide) (by decide) method
  have type : Balanced Semi.opensBody Semi.closesScope ((nestedUnits.drop 1).take 5) :=
    .nested (by decide) body (by decide) .nil
  exact .nested (by decide) type (by decide) .nil

theorem nestedUnits_closed :
    Balanced Semi.opensBody Semi.closesScope nestedUnits ∧ (∀ unit ∈ nestedUnits, unit.opensFile = false) ∧
      (({} : Repository).upTo .standard [.declaring] "a.cs" nestedUnits).stack.items = [] ∧
        typesIn .standard "a.cs" {} nestedUnits =
          [{ kind := .classType, name := "Foo", file := "a.cs", scope := ["N","M"] },
            { kind := .delegateType, name := "D", file := "a.cs", scope := ["N","M","Foo"] }] :=
  have braced : ∀ unit ∈ nestedUnits, unit.opensFile = false := by decide
  ⟨nestedUnits_balanced,braced,
    (scopes_are_brackets .standard "a.cs" {} nestedUnits).2.2.2.2.2 nestedUnits_balanced braced,by decide +kernel⟩

end Depends
