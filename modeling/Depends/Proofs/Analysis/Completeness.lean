import Depends.Proofs.Analysis.Rerun

/-!
Which references become edges. When the dependency pass reaches a semi-expression, it looks up the parts that
`lookedUp` gives, in the scopes that are open and with the imports recorded so far, and the graph gets exactly the
edges to the files where these are declared (`analyze_linked`). A semi-expression that ends in a closing brace has no
such parts, whatever else stands in it: a reference there is an edge only when the file has another one to the
same place (`references_linked_iff`).
-/
namespace Depends

/-! ### What is looked up -/

/-- The qualified names in a semi-expression, each at its place. -/
def Semi.references (semi : Semi) : List Semi := (qualifiedGroups semi.tokens 0 []).map semi.withTokens

/-- No import directive, no header of a namespace and none of a type. -/
structure Semi.Ordinary (options : RuleOptions) (semi : Semi) : Prop where
  directive : Rule.usingParts? options semi.tokens = none
  header : Rule.namespaceParts? semi.tokens = none
  type : typeHeader? semi.tokens = none

variable {options : RuleOptions} {unit : Semi}

theorem lookedUp_ordinary (ordinary : unit.Ordinary options) (still : unit.tokens.getLast? ≠ some closeBrace) :
    lookedUp options unit = unit.references := by
  simp [lookedUp,Rule.test,Rule.parts?,Rule.inheritedParts?,ordinary.directive,ordinary.header,ordinary.type,still,
    Semi.references]

theorem lookedUp_within {part : Semi} (member : part ∈ lookedUp options unit) :
    Rule.usingParts? options unit.tokens = none ∧ Rule.namespaceParts? unit.tokens = none ∧
      unit.tokens.getLast? ≠ some closeBrace := by
  unfold lookedUp at member
  split at member
  · cases member
  · rename_i none
    simpa [Rule.test,Rule.parts?,and_assoc] using none

namespace Repository

variable {r q : Repository} {path : String}

/-- The repository in which the next semi-expression is looked at, when some have been seen. -/
def advanceAll (options : RuleOptions) (units : List Semi) (r : Repository) : Repository :=
  units.foldl (fun r unit => r.advance options unit) r

/-- One of some parts means a declaration in another file, which is the given one. -/
def Means (r : Repository) (path : String) (parts : List Semi) (target : String) : Prop :=
  target ≠ path ∧ ∃ part ∈ parts, (Action.resolve? part r).map (·.file) = some target

instance (r : Repository) (path : String) (parts : List Semi) (target : String) :
    Decidable (r.Means path parts target) := inferInstanceAs (Decidable (_ ∧ _))

theorem mem_referred {units : List Semi} {d : Declaration} : ∀ {r : Repository}, d ∈ referred options units r ↔
    ∃ before unit after, units = before ++ unit :: after ∧ ∃ part ∈ lookedUp options unit,
      Action.resolve? part ((r.advanceAll options before).advance options unit) = some d := by
  induction units with
  | nil => simp [referred]
  | cons first units ih =>
    intro r
    rw [referred,List.mem_append,List.mem_filterMap,ih]
    constructor
    · rintro (⟨part,member,found⟩ | ⟨before,unit,after,rfl,part,member,found⟩)
      · exact ⟨[],first,units,rfl,part,member,found⟩
      · exact ⟨first :: before,unit,after,rfl,part,member,found⟩
    · rintro ⟨before,unit,after,split,part,member,found⟩
      cases before with
      | nil =>
        obtain ⟨rfl,rfl⟩ := List.cons.inj split
        exact .inl ⟨part,member,found⟩
      | cons other before =>
        obtain ⟨rfl,rfl⟩ := List.cons.inj split
        exact .inr ⟨before,unit,after,rfl,part,member,found⟩

/-! ### The state in which a semi-expression is reached -/

theorem Sees.trans {s : Repository} (first : r.Sees path q) (second : q.Sees path s) : r.Sees path s :=
  ⟨⟨second.stack.trans first.stack,second.scopeCount.trans first.scopeCount⟩,second.types.trans first.types,
    second.aliases.trans first.aliases,second.usings.trans first.usings⟩

/-- Reading the references of semi-expressions keeps step with advancing over them. -/
theorem Sees.offerAll (options : RuleOptions) {units : List Semi} (placed : ∀ unit ∈ units, unit.path = path) :
    ∀ {r q : Repository} (line : Int), r.Sees path q → r.AllClosed → q.AllClosed →
      ∃ last s, offerAll options [.tracking,.referring] units line q = (none,last,s) ∧
        (r.advanceAll options units).Sees path s := by
  induction units with
  | nil => exact fun line sees _ _ => ⟨line,_,rfl,sees⟩
  | cons unit units ih =>
    intro r q line sees closed closed'
    rw [List.forall_mem_cons] at placed
    obtain ⟨next,applied,step,after⟩ := applyAll_referred options placed.1 closed'
    have advanced := (sees.advance closed closed' options placed.1).trans step
    obtain ⟨last,s,offered,later⟩ := ih placed.2 unit.line advanced (advance_allClosed closed options unit)
      (after.allClosed closed')
    refine ⟨last,s,?_,later⟩
    rw [Depends.offerAll,applied]
    exact offered

theorem resolve?_enter {kind : DeclKind} (other : kind ≠ .space) (part unit : Semi) (first : String)
    (more : List String) (r : Repository) :
    Action.resolve? part (r.enter unit kind first more) = Action.resolve? part r := by
  have spaces : (r.enter unit kind first more).namespacePath = r.namespacePath := by
    simp [namespacePath,enter,pushScope,Stack.push,other]
  simp only [Action.resolve?,Action.candidates,spaces]
  rfl

/-- A semi-expression that neither heads a namespace nor closes a scope changes nothing for its references. -/
theorem resolve?_track (header : Rule.namespaceParts? unit.tokens = none)
    (still : unit.tokens.getLast? ≠ some closeBrace) (part : Semi) (r : Repository) :
    Action.resolve? part ((roleOf options unit.tokens).track unit r) = Action.resolve? part r := by
  unfold roleOf
  simp only [header,still,↓reduceIte]
  split
  · rfl
  split
  · rename_i typed
    refine resolve?_enter (fun space => ?_) part unit _ _ r
    exact absurd (space ▸ ofLabel_typeWord (typeHeader?_word typed)) (by decide)
  split
  · rfl
  split
  · exact resolve?_enter (by decide) part unit _ _ r
  split
  · exact resolve?_enter (by decide) part unit _ _ r
  · rfl

theorem resolve?_advance (directive : Rule.usingParts? options unit.tokens = none)
    (header : Rule.namespaceParts? unit.tokens = none) (still : unit.tokens.getLast? ≠ some closeBrace) (part : Semi)
    (r : Repository) : Action.resolve? part (r.advance options unit) = Action.resolve? part r := by
  rw [advance,imported,directive]
  exact resolve?_track header still part r

theorem mem_otherFiles {declarations : List Declaration} {target : String} :
    target ∈ otherFiles path declarations ↔ target ≠ path ∧ ∃ d ∈ declarations, d.file = target := by
  simp [otherFiles,and_comm]

/-- The targets of a file are the other files that its looked-up references mean where they are reached. -/
theorem mem_targets {units : List Semi} (placed : ∀ unit ∈ units, unit.path = path) (closed : r.AllClosed)
    {target : String} : target ∈ r.targets options path units ↔ ∃ before unit after, units = before ++ unit :: after ∧
      (r.upTo options [.tracking,.referring] path before).Means path (lookedUp options unit) target := by
  -- The pass looks a part up after its semi-expression was tracked, which makes no difference for such parts.
  have same : ∀ before unit after, units = before ++ unit :: after → ∀ part ∈ lookedUp options unit,
      Action.resolve? part (((r.beginFile path).advanceAll options before).advance options unit) =
        Action.resolve? part (r.upTo options [.tracking,.referring] path before) := by
    rintro before unit after rfl part member
    rw [List.forall_mem_append,List.forall_mem_cons] at placed
    obtain ⟨directive,header,still⟩ := lookedUp_within member
    obtain ⟨last,s,offered,sees⟩ := Sees.offerAll options placed.1 (r := r.beginFile path) (q := r.beginFile path) 0
      ⟨⟨rfl,rfl⟩,rfl,rfl,rfl⟩ closed closed
    rw [resolve?_advance directive header still,upTo,offered]
    exact (sees.resolve? ((lookedUp_path member).trans placed.2.1)).symm
  rw [targets,mem_otherFiles]
  constructor
  · rintro ⟨other,d,member,rfl⟩
    obtain ⟨before,unit,after,split,part,listed,found⟩ := mem_referred.mp member
    rw [same before unit after split part listed] at found
    exact ⟨before,unit,after,split,other,part,listed,congrArg (Option.map (·.file)) found⟩
  · rintro ⟨before,unit,after,split,other,part,listed,found⟩
    obtain ⟨d,resolved,file⟩ := Option.map_eq_some_iff.mp found
    rw [← same before unit after split part listed] at resolved
    exact ⟨other,d,mem_referred.mpr ⟨before,unit,after,split,part,listed,resolved⟩,file⟩

end Repository

/-! ### All files -/

/-- The repository of a run over files when the dependency pass has done some of them. -/
def reachedAfter (files : Files) (lex : Lexicon) (options : RuleOptions) (paths done : List String) :
    Option Repository :=
  match (readParts (.reading lex false) options paths 0 files).1 with
  | .error _ => none
  | .ok parts =>
    match (readReferences (.reading lex false) options done (takeParts {} parts).repository files).1 with
    | .error _ => none
    | .ok (r,_) => some r

variable {paths : List String}

/-- A file has exactly the edges that its looked-up references call for where they are reached. -/
theorem analyze_linked (files : Files) (lex : Lexicon) (options : RuleOptions) (distinct : paths.Nodup)
    (readable : ∀ path ∈ paths, files.Readable path) :
    ∃ a, analyze (.reading lex false) options paths files = (.ok a,files) ∧
      ∀ earlier path later, paths = earlier ++ path :: later →
        ∃ r, reachedAfter files lex options paths earlier = some r ∧ ∀ target,
          (a.graph.Linked path target ↔ ∃ before unit after, files.unitsAt lex path = before ++ unit :: after ∧
            (r.upTo options [.tracking,.referring] path before).Means path (lookedUp options unit) target) := by
  obtain ⟨parts,journal,shapes,read,taken⟩ := takeParts_readable files lex options readable {}
  obtain ⟨-,graph,linked⟩ := absorbAll_unlinked shapes (r := { journal }) Graph.closed_empty
  have closed : (({ journal } : Repository).absorbAll parts).AllClosed :=
    absorbAll_allClosed shapes fun d member => absurd member List.not_mem_nil
  generalize ({ journal } : Repository).absorbAll parts = m at taken graph linked closed
  have unlinked : ∀ source target, ¬ m.graph.Linked source target := by
    intro source target present
    obtain ⟨i,j,found,-⟩ := (linked source target).mp present
    simp at found
  obtain ⟨q,referred,-,-,-,grown,-⟩ := readReferences_eq files lex options distinct readable closed
  refine ⟨{ repository := q.note .analysisComplete, files := paths, components := q.graph.components, skipped := [] },
    ?_,?_⟩
  · simp only [analyze,Repository.analyze,read,taken,referred,List.append_nil]
  · rintro earlier path later rfl
    have before := (List.nodup_append.mp distinct).1
    have fresh : path ∉ earlier := fun member =>
      (List.nodup_append.mp distinct).2.2 path member path (List.mem_cons_self ..) rfl
    -- What the files before this one add is not seen by its references.
    obtain ⟨r,reached,types,aliases,locations,-,usings⟩ := readReferences_eq files lex options before
      (fun other member => readable other (List.mem_append_left _ member)) closed
    refine ⟨r,?_,fun target => ?_⟩
    · rw [reachedAfter,show readParts (.reading lex false) options (earlier ++ path :: later) 0 files = (.ok parts,files)
        from read]
      simp only [taken,reached]
    · have placed : ∀ unit ∈ files.unitsAt lex path, unit.path = path :=
        fun unit member => (files.unitsAt_placed lex path unit member).path
      have ended : r.AllClosed := fun d member => closed d (locations ▸ member)
      have edge : q.graph.Linked path target ↔ target ∈ r.targets options path (files.unitsAt lex path) := by
        rw [grown,Graph.linked_connectAll graph,or_iff_right (unlinked path target),mem_links,
          and_iff_right (List.mem_append_right _ (List.mem_cons_self ..)),
          Repository.targets_congr options placed closed ended types aliases (usings path fresh)]
      rw [← Repository.mem_targets placed ended]
      exact edge

/-- Over readable files with different paths a run succeeds, and for each file, from the state in which the
dependency pass comes to it: every qualified name in an ordinary semi-expression that does not end in a closing brace
and means a type of another file, where it is reached, is an edge to that file. The same holds of all ordinary
semi-expressions exactly when every file that one ending in a closing brace leads to is also one that a looked-up
reference leads to. -/
theorem references_linked_iff (files : Files) (lex : Lexicon) (options : RuleOptions) {paths : List String}
    (distinct : paths.Nodup) (readable : ∀ path ∈ paths, files.Readable path) :
    ∃ a, analyze (.reading lex false) options paths files = (.ok a,files) ∧
      ∀ earlier path later, paths = earlier ++ path :: later →
        ∃ r, reachedAfter files lex options paths earlier = some r ∧
          (∀ before unit after, files.unitsAt lex path = before ++ unit :: after → unit.Ordinary options →
            unit.tokens.getLast? ≠ some closeBrace → ∀ target,
              (r.upTo options [.tracking,.referring] path before).Means path unit.references target →
                a.graph.Linked path target) ∧
          ((∀ before unit after, files.unitsAt lex path = before ++ unit :: after → unit.Ordinary options → ∀ target,
              (r.upTo options [.tracking,.referring] path before).Means path unit.references target →
                a.graph.Linked path target) ↔
            ∀ before unit after, files.unitsAt lex path = before ++ unit :: after → unit.Ordinary options →
              unit.tokens.getLast? = some closeBrace → ∀ target,
                (r.upTo options [.tracking,.referring] path before).Means path unit.references target →
                  ∃ before' unit' after', files.unitsAt lex path = before' ++ unit' :: after' ∧
                    (r.upTo options [.tracking,.referring] path before').Means path (lookedUp options unit') target) := by
  obtain ⟨a,run,linked⟩ := analyze_linked files lex options distinct readable
  refine ⟨a,run,fun earlier path later split => ?_⟩
  obtain ⟨r,reached,edges⟩ := linked earlier path later split
  have complete : ∀ before unit after, files.unitsAt lex path = before ++ unit :: after → unit.Ordinary options →
      unit.tokens.getLast? ≠ some closeBrace → ∀ target,
        (r.upTo options [.tracking,.referring] path before).Means path unit.references target →
          a.graph.Linked path target := by
    intro before unit after placed ordinary still target means
    rw [← lookedUp_ordinary ordinary still] at means
    exact (edges target).mpr ⟨before,unit,after,placed,means⟩
  refine ⟨r,reached,complete,?_,?_⟩
  · intro all before unit after placed ordinary _ target means
    exact (edges target).mp (all before unit after placed ordinary target means)
  · intro covered before unit after placed ordinary target means
    by_cases closing : unit.tokens.getLast? = some closeBrace
    · exact (edges target).mpr (covered before unit after placed ordinary closing target means)
    · exact complete before unit after placed ordinary closing target means

/-- A reference in the type of a field. -/
def fieldReference : Files := twoFiles "class Foo \x7b \x7d" "class B \x7b Foo f; \x7d"

def fieldHeader : Semi := ⟨["class","B",openBrace],"b.cs",1,1⟩

def fieldBody : Semi := ⟨["Foo","f",";"],"b.cs",1,1⟩

theorem holds_of_any {α : Type} (property : α → Prop) [DecidablePred property] {found : Option α} {a : α}
    (here : found = some a) (holds : found.any (fun a => property a) = true) : property a := by
  rw [here,Option.any_some,decide_eq_true_eq] at holds
  exact holds

set_option maxRecDepth 100000 in
theorem field_linked :
    ∃ a, analyze (.reading .standard false) .standard ["a.cs","b.cs"] fieldReference = (.ok a,fieldReference) ∧
      a.graph.Linked "b.cs" "a.cs" := by
  obtain ⟨a,run,each⟩ := references_linked_iff fieldReference .standard .standard (by decide) (twoFiles_readable _ _)
  obtain ⟨r,reached,complete,-⟩ := each ["a.cs"] "b.cs" [] rfl
  refine ⟨a,run,complete [fieldHeader] fieldBody [⟨[closeBrace],"b.cs",1,1⟩] ?_ ⟨?_,?_,?_⟩ ?_ "a.cs" ?_⟩
  · decide +kernel
  · decide
  · decide
  · decide
  · decide
  · exact holds_of_any (fun r : Repository =>
      (r.upTo .standard [.tracking,.referring] "b.cs" [fieldHeader]).Means "b.cs" fieldBody.references "a.cs")
      reached (by decide +kernel)

/-- A reference in the last value of an enumeration. -/
def enumReference : Files := twoFiles "class Foo \x7b \x7d" "enum E \x7b A = Foo.X \x7d"

def enumHeader : Semi := ⟨["enum","E",openBrace],"b.cs",1,1⟩

/-- The values of the enumeration, with the brace that closes it. -/
def enumBody : Semi := ⟨["A","=","Foo",".","X",closeBrace],"b.cs",1,1⟩

set_option maxRecDepth 100000 in
/-- The closing brace of the enumeration hides the reference before it: there is no edge. -/
theorem enum_unlinked :
    ∃ a r, analyze (.reading .standard false) .standard ["a.cs","b.cs"] enumReference = (.ok a,enumReference) ∧
      reachedAfter enumReference .standard .standard ["a.cs","b.cs"] ["a.cs"] = some r ∧
        enumReference.unitsAt .standard "b.cs" = [enumHeader] ++ enumBody :: [] ∧ enumBody.Ordinary .standard ∧
          (r.upTo .standard [.tracking,.referring] "b.cs" [enumHeader]).Means "b.cs" enumBody.references "a.cs" ∧
            ¬ a.graph.Linked "b.cs" "a.cs" := by
  obtain ⟨a,run,each⟩ := analyze_linked enumReference .standard .standard (by decide) (twoFiles_readable _ _)
  obtain ⟨r,reached,-⟩ := each ["a.cs"] "b.cs" [] rfl
  refine ⟨a,r,run,reached,?_,⟨?_,?_,?_⟩,?_,?_⟩
  · decide +kernel
  · decide
  · decide
  · decide
  · exact holds_of_any (fun r : Repository =>
      (r.upTo .standard [.tracking,.referring] "b.cs" [enumHeader]).Means "b.cs" enumBody.references "a.cs")
      reached (by decide +kernel)
  · have result : (analyze (.reading .standard false) .standard ["a.cs","b.cs"] enumReference).1.toOption = some a := by
      rw [run]
      rfl
    obtain ⟨here,there,none⟩ := holds_of_any (fun a : Analysis =>
      a.graph.find? "b.cs" = some 1 ∧ a.graph.find? "a.cs" = some 0 ∧ a.graph.hasEdge 1 0 = false)
      result (by decide +kernel)
    rintro ⟨i,j,source,target,edge⟩
    obtain rfl := Option.some.inj (here.symm.trans source)
    obtain rfl := Option.some.inj (there.symm.trans target)
    rw [none] at edge
    cases edge

end Depends
