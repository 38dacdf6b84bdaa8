import Depends.Rule.Pass

/-!
What a semi-expression does in each pass, said once. The rules of the declaring and of the tracking pass
agree on its `Role`: it binds an alias, opens a scope, declares a type with a body, declares a delegate,
closes a scope, or does nothing. `declaring_apply` and `tracking_apply` give the repository after it,
`referring_apply` what the referring rules make of it. None of the passes fails on a semi-expression.
-/
namespace Depends

/-- What a semi-expression does to the scopes and declarations of its file. The name of a scope has at
least one segment. -/
inductive Role where
  | binds (name first : String) (more : List String)
  | opens (kind : DeclKind) (first : String) (more : List String)
  | declares (kind : DeclKind) (name : String)
  | delegates (name : String)
  | closes
  | plain
  deriving DecidableEq, Repr

/-- The role of a semi-expression: that of the first rule that takes its tokens. -/
def roleOf (options : RuleOptions) (tokens : List String) : Role :=
  match Rule.aliasParts? tokens with
  | some (name :: first :: more) => .binds name first more
  | _ =>
    match Rule.namespaceParts? tokens with
    | some (first :: more) => .opens .space first more
    | _ =>
      match typeHeader? tokens with
      | some (_,word,name) => .declares (DeclKind.ofLabel word) name
      | none =>
        match Rule.delegateName? tokens with
        | some name => .delegates name
        | none =>
          match Rule.functionName? options tokens with
          | some name => .opens .function name []
          | none =>
            if tokens.getLast? = some openBrace then .opens .control "anonymous" []
            else if tokens.getLast? = some closeBrace then .closes
            else .plain

namespace Repository

/-- The declaration that a semi-expression begins in the scopes that are open, without a serial. -/
def beginning (r : Repository) (semi : Semi) (kind : DeclKind) (name : String) : Declaration :=
  { kind, name, file := semi.path, scope := r.scopePath, beginLine := semi.start
    beginScopes := (r.scopeCount : Int) + 1 }

/-- The declaration of a delegate, which ends where it begins. -/
def bodiless (r : Repository) (semi : Semi) (name : String) : Declaration :=
  { kind := .delegateType, name, file := semi.path, scope := r.scopePath, beginLine := semi.start
    endLine := semi.start, beginScopes := r.scopeCount, endScopes := r.scopeCount }

/-- Records a declaration under the next serial. -/
def announce (r : Repository) (d : Declaration) : Repository :=
  { r with locations := r.locations ++ [{ d with serial := r.nextSerial }], nextSerial := r.nextSerial + 1 }

/-- Records a declaration under the next serial and enters it in the table, noting a site that is
taken. -/
def enlist (r : Repository) (d : Declaration) : Repository :=
  let numbered := { d with serial := r.nextSerial }
  { r.announce d with
    types := r.types.add d.name numbered
    journal := if r.types.hasSite d.name numbered then r.journal ++ [.duplicateType] else r.journal }

/-- Opens a scope where a semi-expression begins. -/
def enter (r : Repository) (semi : Semi) (kind : DeclKind) (first : String) (more : List String) : Repository :=
  (r.pushScope kind (Text.join "." (first :: more)) (first :: more) semi.start).2

/-- Closes the innermost scope where a semi-expression ends. -/
def leave (r : Repository) (semi : Semi) : Repository := Action.closeScopeOn semi r

end Repository

namespace Role

/-- The repository after the declaring rules saw a semi-expression. -/
def declare (semi : Semi) : Role → Repository → Repository
  | binds name first more, r => r.recordAlias semi.path name (first :: more)
  | opens kind first more, r =>
    (if kind = .control then r
      else r.announce (r.beginning semi kind (Text.join "." (first :: more)))).enter semi kind first more
  | declares kind name, r => (r.enlist (r.beginning semi kind name)).enter semi kind name []
  | delegates name, r => r.enlist (r.bodiless semi name)
  | closes, r => r.leave semi
  | plain, r => r

/-- The repository after the tracking rules saw a semi-expression. -/
def track (semi : Semi) : Role → Repository → Repository
  | opens kind first more, r => r.enter semi kind first more
  | declares kind name, r => r.enter semi kind name []
  | closes, r => r.leave semi
  | _, r => r

end Role

theorem aliasParts?_shape {tokens parts : List String} (taken : Rule.aliasParts? tokens = some parts) :
    ∃ name first more, parts = name :: first :: more := by
  unfold Rule.aliasParts? at taken
  split at taken
  · simp only at taken
    split at taken
    · cases taken
    · rename_i filled
      obtain ⟨first,more,target⟩ := List.exists_cons_of_ne_nil (fun empty => filled (List.isEmpty_iff.mpr empty))
      exact ⟨_,first,more,by rw [← Option.some.inj taken,target]⟩
  · cases taken

theorem namespaceParts?_shape {tokens parts : List String} (taken : Rule.namespaceParts? tokens = some parts) :
    ∃ first more, parts = first :: more := by
  unfold Rule.namespaceParts? at taken
  split at taken
  · cases taken
  · split at taken
    · simp only at taken
      split at taken
      · rename_i filled
        refine List.exists_cons_of_ne_nil fun empty => filled.1 ?_
        rw [Option.some.inj taken,empty]
        rfl
      · cases taken
    · cases taken

theorem join_single (name : String) : Text.join "." [name] = name := rfl

theorem typeHeader?_word {tokens : List String} {i : Nat} {word name : String}
    (taken : typeHeader? tokens = some (i,word,name)) : word ∈ typeWords := by
  unfold typeHeader? at taken
  split at taken
  · split at taken
    · cases taken
    · rename_i j position
      simp only at taken
      split at taken
      · obtain ⟨inside,listed,-⟩ := List.findIdx?_eq_some_iff_getElem.mp position
        obtain ⟨-,rfl,-⟩ := Prod.mk.inj (Option.some.inj taken) |>.imp id Prod.mk.inj
        simpa [inside] using listed
      · cases taken
  · cases taken

/-- The kinds of types that have a body. -/
def typeKinds : List DeclKind := [.classType,.structType,.interfaceType,.enumType]

theorem ofLabel_typeWord {word : String} (listed : word ∈ typeWords) : DeclKind.ofLabel word ∈ typeKinds := by
  simp only [typeWords,List.mem_cons,List.not_mem_nil,or_false] at listed
  rcases listed with rfl | rfl | rfl | rfl <;> decide

theorem openScopeOn_true (semi : Semi) (kind : DeclKind) (label first : String) (more : List String)
    (r : Repository) (labelled : DeclKind.ofLabel label = kind) :
    Action.openScopeOn true (semi.withTokens (label :: first :: more)) r =
      (.ok (),(Role.opens kind first more).declare semi r) := by
  simp only [Action.openScopeOn,Action.scopeParts,Semi.withTokens,labelled,Role.declare]
  split
  · rename_i recorded
    simp [recorded.2,Repository.enter,Repository.announce,Repository.beginning,Repository.register,
      Repository.record]
  · rename_i plain
    have control : kind = .control := by simpa using plain
    simp [control,Repository.enter]

theorem openScopeOn_false (semi : Semi) (kind : DeclKind) (label first : String) (more : List String)
    (r : Repository) (labelled : DeclKind.ofLabel label = kind) :
    Action.openScopeOn false (semi.withTokens (label :: first :: more)) r =
      (.ok (),r.enter semi kind first more) := by
  simp [Action.openScopeOn,Action.scopeParts,Semi.withTokens,labelled,Repository.enter]

theorem declareTypeOn_body (semi : Semi) (word name : String) (r : Repository) (listed : word ∈ typeWords) :
    Action.declareTypeOn (semi.withTokens [word,name]) r =
      (.ok (),(Role.declares (DeclKind.ofLabel word) name).declare semi r) := by
  have kind := ofLabel_typeWord listed
  have body : DeclKind.ofLabel word ≠ .delegateType := by
    intro same
    rw [same] at kind
    exact absurd kind (by decide)
  simp only [Action.declareTypeOn,Action.scopeParts,Semi.withTokens,join_single,body,↓reduceIte,Role.declare,
    Repository.register,Repository.record,Repository.enlist,Repository.announce,Repository.beginning,
    Repository.note,Repository.enter]
  split <;> simp_all [Repository.scopePath]

theorem declareTypeOn_delegate (semi : Semi) (name : String) (r : Repository) :
    Action.declareTypeOn (semi.withTokens ["delegate",name]) r =
      (.ok (),(Role.delegates name).declare semi r) := by
  have kind : DeclKind.ofLabel "delegate" = .delegateType := by decide
  simp only [Action.declareTypeOn,Action.scopeParts,Semi.withTokens,join_single,kind,↓reduceIte,Role.declare,
    Repository.register,Repository.record,Repository.enlist,Repository.announce,Repository.bodiless,
    Repository.note]
  split <;> simp_all [Repository.scopePath]

/-- The declaring rules do what the role of a semi-expression says. -/
theorem declaring_apply (options : RuleOptions) (semi : Semi) (r : Repository) :
    RuleList.declaring.apply options semi r = (.ok (),(roleOf options semi.tokens).declare semi r) := by
  unfold RuleList.apply RuleList.reactions RuleList.declaring roleOf
  simp only [List.map_cons,List.map_nil,offer,Rule.test,Rule.parts?]
  cases binding : Rule.aliasParts? semi.tokens with
  | some parts =>
    obtain ⟨name,first,more,rfl⟩ := aliasParts?_shape binding
    rfl
  | none =>
    cases header : Rule.namespaceParts? semi.tokens with
    | some parts =>
      obtain ⟨first,more,rfl⟩ := namespaceParts?_shape header
      simp [offer.run,Action.perform,openScopeOn_true semi .space "namespace" first more r (by decide)]
    | none =>
      cases typed : typeHeader? semi.tokens with
      | some found =>
        obtain ⟨i,word,name⟩ := found
        simp [offer.run,Action.perform,declareTypeOn_body semi word name r (typeHeader?_word typed)]
      | none =>
        cases delegate : Rule.delegateName? semi.tokens with
        | some name => simp [offer.run,Action.perform,declareTypeOn_delegate]
        | none =>
          cases function : Rule.functionName? options semi.tokens with
          | some name =>
            simp [offer.run,Action.perform,openScopeOn_true semi .function "function" name [] r (by decide)]
          | none =>
            by_cases opening : semi.tokens.getLast? = some openBrace
            · simp [opening,offer.run,Action.perform,
                openScopeOn_true semi .control "control" "anonymous" [] r (by decide)]
            · by_cases closing : semi.tokens.getLast? = some closeBrace
              · simp [closing,offer.run,Action.perform,Role.declare,Repository.leave,
                  Action.closeScopeOn,Semi.withTokens,show closeBrace ≠ openBrace by decide]
              · simp [opening,closing,Role.declare]

/-- The tracking rules do what the role of a semi-expression says. -/
theorem tracking_apply (options : RuleOptions) (semi : Semi) (r : Repository) :
    RuleList.tracking.apply options semi r = (.ok (),(roleOf options semi.tokens).track semi r) := by
  unfold RuleList.apply RuleList.reactions RuleList.tracking roleOf
  simp only [List.map_cons,List.map_nil,offer,Rule.test,Rule.parts?]
  cases binding : Rule.aliasParts? semi.tokens with
  | some parts =>
    obtain ⟨name,first,more,rfl⟩ := aliasParts?_shape binding
    rfl
  | none =>
    cases header : Rule.namespaceParts? semi.tokens with
    | some parts =>
      obtain ⟨first,more,rfl⟩ := namespaceParts?_shape header
      simp [offer.run,Action.perform,Role.track,openScopeOn_false semi .space "namespace" first more r (by decide)]
    | none =>
      cases typed : typeHeader? semi.tokens with
      | some found =>
        obtain ⟨i,word,name⟩ := found
        simp [offer.run,Action.perform,Role.track,openScopeOn_false semi _ word name [] r rfl]
      | none =>
        cases delegate : Rule.delegateName? semi.tokens with
        | some name => simp [offer.run,Role.track]
        | none =>
          cases function : Rule.functionName? options semi.tokens with
          | some name =>
            simp [offer.run,Action.perform,Role.track,
              openScopeOn_false semi .function "function" name [] r (by decide)]
          | none =>
            by_cases opening : semi.tokens.getLast? = some openBrace
            · simp [opening,offer.run,Action.perform,Role.track,
                openScopeOn_false semi .control "control" "anonymous" [] r (by decide)]
            · by_cases closing : semi.tokens.getLast? = some closeBrace
              · simp [closing,offer.run,Action.perform,Role.track,Repository.leave,
                  Action.closeScopeOn,Semi.withTokens,show closeBrace ≠ openBrace by decide]
              · simp [opening,closing,Role.track]

/-- The parts of a semi-expression that are looked up as type names: none in an import, in the header of
a namespace or at a closing brace; the names after the declared one in the header of a type; every
qualified name otherwise. -/
def lookedUp (options : RuleOptions) (semi : Semi) : List Semi :=
  if (Rule.usingDirective.test options semi).isSome || (Rule.namespaceHeader.test options semi).isSome ||
      (Rule.closing.test options semi).isSome then []
  else ((Rule.inherited.test options semi).or (Rule.reference.test options semi)).getD []

/-- The namespaces that a semi-expression imports. -/
def imported (options : RuleOptions) (semi : Semi) : List (List String) :=
  (Rule.usingParts? options semi.tokens).getD []

theorem usingParts?_filled {options : RuleOptions} {tokens : List String} {parts : List (List String)}
    (taken : Rule.usingParts? options tokens = some parts) : ∀ part ∈ parts, part ≠ [] := by
  unfold Rule.usingParts? at taken
  intro part member
  split at taken
  · cases taken
  · split at taken
    · split at taken
      · rw [← Option.some.inj taken] at member
        cases member
      · extract_lets body named at taken
        split at taken
        · split at taken
          · cases taken
          · split at taken
            · rw [← Option.some.inj taken] at member
              cases member
            · rw [← Option.some.inj taken] at member
              rw [List.mem_singleton.mp member]
              exact List.cons_ne_nil _ _
        · cases taken
    · cases taken

private theorem run_imports (semi : Semi) (paths : List (List String)) (filled : ∀ path ∈ paths, path ≠ []) :
    ∀ r : Repository, offer.run Action.saveUsing.perform (paths.map semi.withTokens) r =
      (.ok (),paths.foldl (fun r path => r.recordUsing semi.path path) r) := by
  induction paths with
  | nil => intro r; rfl
  | cons path paths ih =>
    intro r
    have present : path.isEmpty = false := by
      rw [List.isEmpty_eq_false_iff]
      exact filled path (List.mem_cons_self ..)
    simp only [List.map_cons,offer.run,Action.perform,Semi.withTokens,present,Bool.false_eq_true,↓reduceIte,
      List.foldl_cons]
    exact ih (fun other member => filled other (List.mem_cons_of_mem _ member)) _

private theorem run_references (parts : List Semi) :
    ∀ r : Repository, offer.run Action.addReference.perform parts r =
      (.ok (),parts.foldl (fun r part => Action.addReferenceOn part r) r) := by
  induction parts with
  | nil => intro r; rfl
  | cons part parts ih => intro r; exact ih _

/-- The referring rules import what a semi-expression imports, then look up its references. -/
theorem referring_apply (options : RuleOptions) (semi : Semi) (r : Repository) :
    RuleList.referring.apply options semi r =
      (.ok (),(lookedUp options semi).foldl (fun r part => Action.addReferenceOn part r)
        ((imported options semi).foldl (fun r path => r.recordUsing semi.path path) r)) := by
  unfold RuleList.apply RuleList.reactions RuleList.referring lookedUp imported
  simp only [List.map_cons,List.map_nil,offer]
  cases directive : Rule.usingParts? options semi.tokens with
  | some paths =>
    simp only [Rule.test,Rule.parts?,directive,Option.map_some,Option.isSome_some,Bool.true_or,↓reduceIte,
      Option.getD_some,List.foldl_nil]
    exact run_imports semi paths (usingParts?_filled directive) r
  | none =>
    simp only [Rule.test,Rule.parts?,directive,Option.map_none,Option.isSome_none,Bool.false_or,
      Option.getD_none,List.foldl_nil]
    cases header : Rule.namespaceParts? semi.tokens with
    | some parts => simp [offer.run]
    | none =>
      by_cases closing : semi.tokens.getLast? = some closeBrace
      · simp [closing,offer.run]
      · cases inherited : Rule.inheritedParts? semi.tokens with
        | some parts => simp [closing,run_references]
        | none => simp [closing,run_references]

/-- A semi-expression in the dependency pass. -/
theorem applyAll_references (options : RuleOptions) (semi : Semi) (r : Repository) :
    applyAll options semi [.tracking,.referring] r =
      (.ok (),(lookedUp options semi).foldl (fun r part => Action.addReferenceOn part r)
        ((imported options semi).foldl (fun r path => r.recordUsing semi.path path)
          ((roleOf options semi.tokens).track semi r))) := by
  simp only [applyAll,tracking_apply,referring_apply]

theorem applyAll_declaring (options : RuleOptions) (semi : Semi) (r : Repository) :
    applyAll options semi [.declaring] r = (.ok (),(roleOf options semi.tokens).declare semi r) := by
  simp only [applyAll,declaring_apply]

end Depends
