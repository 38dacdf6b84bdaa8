import Depends.Proofs.Analysis.Completeness
import Depends.Proofs.Scope.Tracking
import Depends.Proofs.Text.Distinct

/-!
Why there is an edge. An edge of a run leads from one file to another one, is the only one between the two, and its
label is the base name of the file that it leads to. It stands for a reference (`Mention`): a qualified name in a
semi-expression of the first file, with the aliases of the file replaced, that is looked up in the namespaces around
the semi-expression, then in each of those that the file has imported before it, then in none. The earliest type in
the first of these scopes that has one is declared in the second file (`edges_justified`).
-/
namespace Depends

/-! ### References in the text of a file -/

/-- The namespaces that semi-expressions import, each where it comes first. -/
def importsOf (options : RuleOptions) (units : List Semi) : List (List String) :=
  (units.flatMap (imported options)).eraseDups

/-- The names of the namespaces among scopes, outermost first. -/
def spacePath (scopes : List Frame) : List String := (scopes.filter (·.kind == .space)).flatMap (·.path)

/-- The scopes that semi-expressions leave open, outermost first: those of the unclosed ones. -/
def LeavesOpen (options : RuleOptions) (units : List Semi) (scopes : List Frame) : Prop :=
  ∃ positions : List Nat, positions.Pairwise (· < ·) ∧
    (∀ i, i ∈ positions ↔ Unclosed Semi.opensScope Semi.closesScope units i) ∧
      scopes.map some = positions.map (frameAt options units)

/-- A qualified name in a file with aliases: the semi-expression where it stands, with those before and after it, the
scopes around it, and the reference that it is when its aliases are replaced, cut into qualifier and name. -/
structure Mention (options : RuleOptions) (aliases : AliasTable) (units : List Semi) where
  before : List Semi
  unit : Semi
  after : List Semi
  group : List String
  scopes : List Frame
  qualifier : List String
  name : String
  place : units = before ++ unit :: after
  grouped : group ∈ qualifiedGroups unit.tokens 0 []
  around : LeavesOpen options before scopes
  expanded : group.flatMap (fun token => (aliases.lookup token).getD [token]) = qualifier ++ [name]

variable {options : RuleOptions} {aliases : AliasTable} {units : List Semi} {unit : Semi}

/-- The scopes in which the name is looked up, in order: that of the namespaces around it, each one that was imported
before it, and none, all with the qualifier. -/
def Mention.candidates (mention : Mention options aliases units) : List (List String) :=
  (spacePath mention.scopes ++ mention.qualifier) ::
    (importsOf options mention.before).map (· ++ mention.qualifier) ++ [mention.qualifier]

theorem qualifiedGroups_subset (tokens : List String) (start : Nat) (skip : List String) :
    qualifiedGroups tokens start skip ⊆ qualifiedGroups tokens 0 [] := by
  intro group listed
  obtain ⟨i,inside,taken⟩ := List.mem_filterMap.mp listed
  refine List.mem_filterMap.mpr ⟨i,inside,?_⟩
  dsimp only at taken ⊢
  split at taken
  · rename_i named
    rwa [if_pos ⟨Nat.zero_le i,named.2.1,by simp⟩]
  · cases taken

/-- The header of a type gives some of the qualified names, every other semi-expression all of them or none. -/
theorem lookedUp_group {part : Semi} (member : part ∈ lookedUp options unit) :
    ∃ group ∈ qualifiedGroups unit.tokens 0 [], part = unit.withTokens group := by
  unfold lookedUp at member
  split at member
  · cases member
  · cases header : typeHeader? unit.tokens with
    | none =>
      simp only [Rule.test,Rule.parts?,Rule.inheritedParts?,header,Option.map_none,Option.none_or,Option.map_some,
        Option.getD_some,List.mem_map] at member
      obtain ⟨group,listed,rfl⟩ := member
      exact ⟨group,listed,rfl⟩
    | some found =>
      simp only [Rule.test,Rule.parts?,Rule.inheritedParts?,header,Option.map_some,Option.some_or,
        Option.getD_some,List.mem_map] at member
      obtain ⟨group,listed,rfl⟩ := member
      exact ⟨group,qualifiedGroups_subset _ _ _ listed,rfl⟩

theorem importsOf_snoc (options : RuleOptions) (units : List Semi) (unit : Semi) :
    importsOf options (units ++ [unit]) = (units.flatMap (imported options) ++ imported options unit).eraseDups := by
  simp [importsOf]

/-! ### The state in which a reference is looked up -/

namespace Repository

variable {r q : Repository} {path : String}

theorem usingsOf_importAll_self {seen : List (List String)} (known : r.usingsOf path = seen.eraseDups)
    (spaces : List (List String)) : (r.importAll path spaces).usingsOf path = (seen ++ spaces).eraseDups := by
  induction spaces generalizing r seen with
  | nil => simpa [importAll] using known
  | cons space spaces ih =>
    have step : (r.recordUsing path space).usingsOf path = (seen ++ [space]).eraseDups := by
      rw [usingsOf_recordUsing_self,known,eraseDups_snoc]
      simp only [List.contains_iff_mem,List.mem_eraseDups]
    have later := ih step
    rwa [List.append_assoc] at later

/-- The second repository is where the dependency pass stands in a file when it has seen some of its
semi-expressions: it knows what the first one knows, and of the file the scopes and the imports so far. -/
structure Reached (options : RuleOptions) (path : String) (before : List Semi) (r q : Repository) : Prop where
  closed : q.AllClosed
  types : q.types = r.types
  aliases : q.aliases = r.aliases
  scopes : q.scopes = scopesAfter options before ([],0)
  usings : q.usingsOf path = importsOf options before

theorem Reached.advance {before : List Semi} (reached : Reached options path before r q) (placed : unit.path = path) :
    Reached options path (before ++ [unit]) r (q.advance options unit) := by
  refine ⟨advance_allClosed reached.closed options unit,?_,?_,?_,?_⟩
  · rw [types_advance reached.closed,reached.types]
  · rw [aliases_advance,reached.aliases]
  · obtain ⟨usings,advanced⟩ := advance_only options unit q
    rw [advanced]
    refine (scopes_track (roleOf options unit.tokens) unit q).trans ?_
    rw [reached.scopes,scopesAfter,scopesAfter,List.foldl_append]
    rfl
  · rw [importsOf_snoc,Repository.advance,placed]
    refine usingsOf_importAll_self ?_ (imported options unit)
    rw [usingsOf,(Refined.track (roleOf options unit.tokens) unit q).usings]
    exact reached.usings

theorem reached_advanceAll (options : RuleOptions) (closed : r.AllClosed) (fresh : r.usingsOf path = [])
    (units : List Semi) (placed : ∀ unit ∈ units, unit.path = path) :
    Reached options path units r ((r.beginFile path).advanceAll options units) := by
  induction units using List.reverseRecOn with
  | nil => exact ⟨closed,rfl,rfl,rfl,fresh⟩
  | append_singleton units unit ih =>
    rw [List.forall_mem_append,List.forall_mem_singleton] at placed
    have last := (ih placed.1).advance placed.2
    rwa [advanceAll,List.foldl_append]

theorem Reached.leavesOpen {before : List Semi} (reached : Reached options path before r q) :
    LeavesOpen options before q.stack.items := by
  have same : q.stack.items = ((r.beginFile path).declared options before).stack.items :=
    congrArg Prod.fst (reached.scopes.trans (scopes_declared options before (r.beginFile path)).symm)
  obtain ⟨positions,openAt,frames,-⟩ := declared_scopes options path r before
  exact ⟨positions,openAt.ascending,openAt.unclosed,same ▸ frames⟩

/-- A target of a file without earlier imports is another file, and a reference in the text of the first one leads to
it. -/
theorem exists_mention (closed : r.AllClosed) (fresh : r.usingsOf path = [])
    (placed : ∀ unit ∈ units, unit.path = path) {target : String} (member : target ∈ r.targets options path units) :
    target ≠ path ∧ ∃ (mention : Mention options (r.aliasesOf path) units) (d : Declaration),
      r.types.Earliest mention.name mention.candidates d ∧ d.file = target := by
  obtain ⟨other,d,referred,file⟩ := mem_otherFiles.mp member
  obtain ⟨before,unit,after,rfl,part,listed,found⟩ := mem_referred.mp referred
  rw [List.forall_mem_append,List.forall_mem_cons] at placed
  obtain ⟨directive,header,still⟩ := lookedUp_within listed
  rw [resolve?_advance directive header still] at found
  have reached := reached_advanceAll options closed fresh before placed.1
  generalize (r.beginFile path).advanceAll options before = q at found reached
  obtain ⟨qualifier,name,expanded,earliest⟩ := resolve?_eq_some found
  obtain ⟨group,grouped,rfl⟩ := lookedUp_group listed
  have aliases : q.aliasesOf path = r.aliasesOf path := by rw [aliasesOf,aliasesOf,reached.aliases]
  refine ⟨other,⟨before,unit,after,group,q.stack.items,qualifier,name,rfl,grouped,reached.leavesOpen,?_⟩,d,?_,file⟩
  · rw [← aliases,← placed.2.1]
    exact expanded
  · have candidates : Action.candidates (unit.withTokens group).path qualifier q =
        (spacePath q.stack.items ++ qualifier) :: (importsOf options before).map (· ++ qualifier) ++ [qualifier] := by
      rw [Action.candidates,show (unit.withTokens group).path = path from placed.2.1,reached.usings]
      rfl
    rwa [candidates,reached.types] at earliest

end Repository

/-! ### All files -/

variable {files : Files} {lex : Lexicon} {paths : List String}

theorem absorbAll_tidy {parts : List FilePart} (shapes : List.Forall₂ (IsPart files lex options) paths parts) :
    ∀ {r : Repository}, r.graph.Tidy → (r.absorbAll parts).graph.Tidy := by
  induction shapes with
  | nil => exact fun tidy => tidy
  | @cons path part _ _ shape _ ih =>
    intro r tidy
    obtain ⟨-,-,-,grown⟩ := Repository.absorb_tables r shape.tables
    simp only [Repository.absorbAll,List.foldl_cons,shape.path]
    exact ih (grown ▸ tidy.addNode path)

/-- The graph of a run is tidy, since no file is linked to itself. -/
theorem analyze_tidy (files : Files) (lex : Lexicon) (options : RuleOptions) (distinct : paths.Nodup)
    (readable : ∀ path ∈ paths, files.Readable path) {a : Analysis}
    (run : analyze (.reading lex false) options paths files = (.ok a,files)) : a.graph.Tidy := by
  obtain ⟨parts,journal,result,shapes,run',done⟩ := analyze_readable files lex options distinct readable
    (r := {}) (fun d member => absurd member List.not_mem_nil)
  obtain rfl : a = result := Except.ok.inj (congrArg Prod.fst (run.symm.trans run'))
  rw [Analysis.graph,done.graph]
  refine (absorbAll_tidy shapes (r := { journal }) Graph.Tidy.empty).connectAll ?_
  rintro ⟨source,target⟩ member
  exact (Repository.mem_otherFiles.mp (mem_links.mp member).2).1

/-- The edges of a run over readable files with different paths: every file has one node, and every edge is the only
one between its nodes, leads to another file, has the base name of that file as its label, and stands for a
reference. A qualified name in the text of the first file, with the aliases of the file replaced, has a first
candidate scope with a type of that name, and the earliest such type in the table is declared in the second file. -/
theorem edges_justified (files : Files) (lex : Lexicon) (options : RuleOptions) {paths : List String}
    (distinct : paths.Nodup) (readable : ∀ path ∈ paths, files.Readable path) :
    ∃ a, analyze (.reading lex false) options paths files = (.ok a,files) ∧ (a.graph.nodes.map (·.path)).Nodup ∧
      ∀ node ∈ a.graph.nodes, (node.edges.map (·.target)).Nodup ∧ ∀ edge ∈ node.edges,
        ∃ goal, a.graph.nodes[edge.target]? = some goal ∧ node.path ≠ goal.path ∧ edge.label = Path.base goal.path ∧
          node.path ∈ paths ∧
            ∃ (mention : Mention options (a.repository.aliasesOf node.path) (files.unitsAt lex node.path))
              (d : Declaration), a.repository.types.Earliest mention.name mention.candidates d ∧ d.file = goal.path := by
  obtain ⟨m,a,run,done,closed,usings,graph,unlinked,-⟩ := analyze_first files lex options distinct readable
  have tidy := analyze_tidy files lex options distinct readable run
  refine ⟨a,run,tidy.paths,fun node member => ?_⟩
  obtain ⟨i,here⟩ := List.mem_iff_getElem?.mp member
  have edges : a.graph.edges i = node.edges := by rw [Graph.edges,here]; rfl
  have origin : a.graph.pathAt? i = some node.path := by rw [Graph.pathAt?,List.getElem?_map,here]; rfl
  refine ⟨edges ▸ tidy.single i,fun edge listed => ?_⟩
  rw [← edges] at listed
  obtain ⟨target,goal,other,label⟩ := tidy.labels i edge listed
  have linked := tidy.linked listed origin goal
  rw [Graph.pathAt?,List.getElem?_map] at goal
  obtain ⟨node',there,rfl⟩ := Option.map_eq_some_iff.mp goal
  rw [Analysis.graph,done.graph,Graph.linked_connectAll graph,or_iff_right (unlinked _ _),mem_links] at linked
  obtain ⟨different,mention,d,earliest,file⟩ := Repository.exists_mention closed (by rw [Repository.usingsOf,usings]; rfl)
    (fun unit member => (files.unitsAt_placed lex node.path unit member).path) linked.2
  have aliases : a.repository.aliasesOf node.path = m.aliasesOf node.path := by
    rw [Repository.aliasesOf,Repository.aliasesOf,done.aliases]
  rw [done.types,aliases]
  exact ⟨node',there,different.symm,label,linked.1,mention,d,earliest,file⟩

/-- A reference through an alias for a namespace, which is the qualifier of a further one. -/
def aliasReference : Files :=
  twoFiles "namespace N.M \x7b class Foo \x7b \x7d \x7d" "using A = N; namespace N \x7b class B \x7b A.M.Foo f; \x7d \x7d"

set_option maxRecDepth 100000 in
/-- The edge of the file with the alias stands for a reference to the type in the other file. -/
theorem alias_edge_justified :
    ["a.cs","b.cs"].Nodup ∧ (∀ path ∈ ["a.cs","b.cs"], aliasReference.Readable path) ∧
      ∃ a, analyze (.reading .standard false) .standard ["a.cs","b.cs"] aliasReference = (.ok a,aliasReference) ∧
        a.graph.nodes = [⟨"a.cs",[]⟩,⟨"b.cs",[⟨0,"a.cs"⟩]⟩] ∧
          ∃ (mention : Mention .standard (a.repository.aliasesOf "b.cs") (aliasReference.unitsAt .standard "b.cs"))
            (d : Declaration), a.repository.types.Earliest mention.name mention.candidates d ∧ d.file = "a.cs" := by
  have distinct : ["a.cs","b.cs"].Nodup := by decide
  have readable : ∀ path ∈ ["a.cs","b.cs"], aliasReference.Readable path := twoFiles_readable _ _
  obtain ⟨a,run,-,justified⟩ := edges_justified aliasReference .standard .standard distinct readable
  have result : (analyze (.reading .standard false) .standard ["a.cs","b.cs"] aliasReference).1.toOption = some a := by
    rw [run]
    rfl
  have nodes := holds_of_any (fun a : Analysis => a.graph.nodes = [⟨"a.cs",[]⟩,⟨"b.cs",[⟨0,"a.cs"⟩]⟩]) result
    (by decide +kernel)
  obtain ⟨-,edges⟩ := justified ⟨"b.cs",[⟨0,"a.cs"⟩]⟩ (by simp [nodes])
  obtain ⟨goal,there,-,-,-,mention,d,earliest,file⟩ := edges ⟨0,"a.cs"⟩ (by simp)
  obtain rfl : ⟨"a.cs",[]⟩ = goal := by simpa [nodes] using there
  exact ⟨distinct,readable,a,run,nodes,mention,d,earliest,file⟩

end Depends
