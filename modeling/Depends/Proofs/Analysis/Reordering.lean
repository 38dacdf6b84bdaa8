import Depends.Proofs.Analysis.Interference
import Depends.Proofs.Analysis.Separation
import Depends.Proofs.Graph.Classes

/-!
The order of the files. When no two files declare a type of the same name in the same scope, the type table says for a
name and a scope in which file the type is declared, in whatever order the files were taken over
(`absorbed_home?_iff`). So every file has the same edges after a run over the files in another order, and the files fall
into the same components (`order_irrelevant`).
-/
namespace Depends

/-! ### Tables by their sites -/

namespace TypeTable

variable {table : TypeTable} {name : String} {scope : List String}

/-- Adds declarations under their names. -/
def addAll (table : TypeTable) (declarations : List Declaration) : TypeTable :=
  declarations.foldl (fun table d => table.add d.name d) table

theorem mem_all_addAll {declarations : List Declaration} {p : String × Declaration}
    (member : p ∈ (table.addAll declarations).all) : p ∈ table.all ∨ ∃ d ∈ declarations, p = (d.name,d) := by
  induction declarations generalizing table with
  | nil => exact .inl member
  | cons first declarations ih =>
    rcases ih member with earlier | ⟨d,later,same⟩
    · rcases mem_all_add earlier with before | rfl
      · exact .inl before
      · exact .inr ⟨first,List.mem_cons_self ..,rfl⟩
    · exact .inr ⟨d,List.mem_cons_of_mem _ later,same⟩

theorem hasSite_addAll_mono {declarations : List Declaration} {d : Declaration} (taken : table.hasSite name d = true) :
    (table.addAll declarations).hasSite name d = true := by
  induction declarations generalizing table with
  | nil => exact taken
  | cons first declarations ih => exact ih (hasSite_add_mono taken)

theorem hasSite_addAll {declarations : List Declaration} {d : Declaration} (member : d ∈ declarations) :
    (table.addAll declarations).hasSite d.name d = true := by
  induction declarations generalizing table with
  | nil => cases member
  | cons first declarations ih =>
    rcases List.mem_cons.mp member with rfl | later
    · have kept : ((table.add d.name d).addAll declarations).hasSite d.name d = true := hasSite_addAll_mono hasSite_add_self
      exact kept
    · exact ih later

theorem mem_of_home? {file : String} (found : table.home? name scope = some file) :
    ∃ d, (name,d) ∈ table.all ∧ d.scope = scope ∧ d.file = file := by
  obtain ⟨d,first,home⟩ := Option.map_eq_some_iff.mp found
  refine ⟨d,mem_all_of_mem_lookup (List.mem_of_find?_eq_some first),?_,home⟩
  simpa using List.find?_some first

theorem home?_of_hasSite {d : Declaration} (taken : table.hasSite name d = true) :
    ∃ file, table.home? name d.scope = some file := by
  obtain ⟨e,member,same⟩ := List.any_eq_true.mp taken
  have present : ((table.lookup name).find? (·.scope == d.scope)).isSome :=
    List.find?_isSome.mpr ⟨e,member,beq_iff_eq.mpr (Declaration.sameSite_iff.mp same).2⟩
  obtain ⟨first,found⟩ := Option.isSome_iff_exists.mp present
  exact ⟨first.file,by rw [home?,found]; rfl⟩

end TypeTable

/-! ### What files declare -/

/-- The types that the text of a file declares. -/
def Files.typesAt (files : Files) (lex : Lexicon) (options : RuleOptions) (path : String) : List Declaration :=
  typesIn options path {} (files.unitsAt lex path)

/-- The type table of a file, up to lines and numbers. -/
theorem own_outline (options : RuleOptions) (path : String) (units : List Semi) :
    (Repository.own options path units 0).types.map Declaration.outline =
      TypeTable.addAll {} (typesIn options path {} units) :=
  ((Repository.Outlined.stable _ _).endFile (declared_types options path {} units) _).types

theorem mem_typesIn_of_own {options : RuleOptions} {path : String} {units : List Semi} {serial : Nat}
    {p : String × Declaration} (member : p ∈ (Repository.own options path units serial).types.all) :
    ∃ d ∈ typesIn options path {} units, d.name = p.1 ∧ d.scope = p.2.scope := by
  obtain ⟨-,covers⟩ := Repository.own_alike options path units 0 serial
  obtain ⟨e,first,same⟩ := covers p member
  have outlined : (p.1,e.outline) ∈ (TypeTable.addAll {} (typesIn options path {} units)).all := by
    rw [← own_outline]
    exact TypeTable.mem_all_map.mpr ⟨e,first,rfl⟩
  rcases TypeTable.mem_all_addAll outlined with none | ⟨d,listed,equal⟩
  · cases none
  · obtain ⟨name,rfl⟩ := Prod.mk.inj equal
    exact ⟨_,listed,name.symm,(Declaration.sameSite_iff.mp same).2⟩

theorem own_of_mem_typesIn {options : RuleOptions} {path : String} {units : List Semi} (serial : Nat) {d : Declaration}
    (member : d ∈ typesIn options path {} units) :
    ∃ e, (d.name,e) ∈ (Repository.own options path units serial).types.all ∧ e.scope = d.scope := by
  have taken : (TypeTable.addAll {} (typesIn options path {} units)).hasSite d.name d = true :=
    TypeTable.hasSite_addAll member
  rw [← own_outline] at taken
  obtain ⟨e,listed,same⟩ := TypeTable.exists_of_hasSite taken
  obtain ⟨first,inside,rfl⟩ := TypeTable.mem_all_map.mp listed
  obtain ⟨-,covers⟩ := Repository.own_alike options path units serial 0
  obtain ⟨e,found,again⟩ := covers (d.name,first) inside
  refine ⟨e,found,(Declaration.sameSite_iff.mp again).2.trans ?_⟩
  exact (Declaration.sameSite_iff.mp same).2

section

variable {files : Files} {lex : Lexicon} {options : RuleOptions} {paths : List String} {parts : List FilePart}

/-- Every type in the table after the type pass is one that a file declares. -/
theorem mem_all_absorbAll (shapes : List.Forall₂ (IsPart files lex options) paths parts) {p : String × Declaration} :
    ∀ {r : Repository}, p ∈ (r.absorbAll parts).types.all → p ∈ r.types.all ∨ p.2.file ∈ paths ∧
      ∃ d ∈ files.typesAt lex options p.2.file, d.name = p.1 ∧ d.scope = p.2.scope := by
  induction shapes with
  | nil => exact .inl
  | @cons path part paths _ shape _ ih =>
    intro r member
    simp only [Repository.absorbAll,List.foldl_cons,shape.path] at ih member
    rcases ih member with earlier | ⟨listed,declared⟩
    · rw [(Repository.absorb_tables r shape.tables).1] at earlier
      rcases TypeTable.mem_all_merge earlier with before | added
      · exact .inl before
      · obtain ⟨serial,own⟩ := shape.repository
        rw [own] at added
        have here := Repository.own_filed options serial (files.unitsAt_placed lex path) p added
        rw [here]
        exact .inr ⟨List.mem_cons_self ..,mem_typesIn_of_own added⟩
    · exact .inr ⟨List.mem_cons_of_mem _ listed,declared⟩

theorem hasSite_absorbAll_mono {name : String} {e : Declaration}
    (shapes : List.Forall₂ (IsPart files lex options) paths parts) :
    ∀ {r : Repository}, r.types.hasSite name e = true → (r.absorbAll parts).types.hasSite name e = true := by
  induction shapes with
  | nil => exact fun taken => taken
  | @cons path part _ _ shape _ ih =>
    intro r taken
    simp only [Repository.absorbAll,List.foldl_cons,shape.path] at ih ⊢
    refine ih ?_
    rw [(Repository.absorb_tables r shape.tables).1]
    exact TypeTable.hasSite_merge_mono taken

/-- Every type that a file declares has its site in the table after the type pass. -/
theorem hasSite_absorbAll (shapes : List.Forall₂ (IsPart files lex options) paths parts) {path : String}
    {d : Declaration} (listed : path ∈ paths) (declared : d ∈ files.typesAt lex options path) :
    ∀ {r : Repository}, ∃ e, (r.absorbAll parts).types.hasSite d.name e = true ∧ e.scope = d.scope := by
  induction shapes with
  | nil => cases listed
  | @cons first part _ more shape shapes ih =>
    intro r
    have next : r.absorbAll (part :: more) = (r.absorb part.repository first).absorbAll more := by
      rw [Repository.absorbAll,List.foldl_cons,shape.path]
      rfl
    rw [next]
    rcases List.mem_cons.mp listed with rfl | later
    · obtain ⟨serial,own⟩ := shape.repository
      obtain ⟨e,member,same⟩ := own_of_mem_typesIn serial declared
      refine ⟨e,hasSite_absorbAll_mono shapes ?_,same⟩
      rw [(Repository.absorb_tables r shape.tables).1]
      exact TypeTable.hasSite_merge (own ▸ member)
    · exact ih later

theorem absorbAll_settled (shapes : List.Forall₂ (IsPart files lex options) paths parts) :
    ∀ {r : Repository}, r.Settled → (r.absorbAll parts).Settled := by
  induction shapes with
  | nil => exact fun settled => settled
  | @cons path part _ _ shape _ ih =>
    intro r settled
    obtain ⟨serial,own⟩ := shape.repository
    simp only [Repository.absorbAll,List.foldl_cons,shape.path]
    refine ih (settled.absorb shape.tables shape.allClosed ?_)
    rw [own]
    exact Repository.own_filed options serial (files.unitsAt_placed lex path)

end

/-- The dependency pass over files that are nodes adds no node. -/
theorem Repository.Settled.referAll (options : RuleOptions) {given : List (String × List Semi)}
    (placed : ∀ file ∈ given, ∀ unit ∈ file.2, unit.path = file.1) :
    ∀ {r : Repository}, r.Settled → (∀ file ∈ given, (r.graph.find? file.1).isSome) →
      r.Undisturbed (r.referAll options given) := by
  induction given with
  | nil => exact fun _ _ => .refl _
  | cons file given ih =>
    intro r settled nodes
    rw [List.forall_mem_cons] at placed nodes
    obtain ⟨q,read,same⟩ := settled.readUnits nodes.1 options placed.1
    have next : r.referAll options (file :: given) = q.referAll options given := by
      rw [Repository.referAll,List.foldl_cons,read]
      rfl
    rw [next]
    refine same.trans (ih placed.2 (settled.undisturbed same) fun other member => ?_)
    rw [Graph.find?_congr same.nodes]
    exact nodes.2 other member

theorem find?_addNodes {path : String} {paths : List String} : ∀ {g : Graph},
    ((paths.foldl (fun g path => (g.addNode path).2) g).find? path).isSome ↔ path ∈ paths ∨ (g.find? path).isSome := by
  induction paths with
  | nil => simp
  | cons first paths ih =>
    intro g
    rw [List.foldl_cons,ih,Graph.find?_addNode,List.mem_cons]
    by_cases here : path = first
    · simp [here]
    · simp [here]

/-! ### Runs over readable files -/

section

variable {files : Files} {lex : Lexicon} {paths : List String}

theorem filter_readable (readable : ∀ path ∈ paths, files.Readable path) :
    (paths.filter fun path => (files.semis lex path).isOk) = paths := by
  refine List.filter_eq_self.mpr fun path member => ?_
  rw [Files.semis_eq lex (readable path member)]
  rfl

/-- The dependency pass of a run adds no node. -/
theorem analyzed_paths (files : Files) (lex : Lexicon) (options : RuleOptions) (paths : List String) :
    (files.analyzed lex options paths).graph.nodes.map (·.path) =
      (files.absorbed lex options paths).graph.nodes.map (·.path) := by
  have shapes := absorbed_shapes files lex options paths
  have settled : (files.absorbed lex options paths).Settled := by
    refine absorbAll_settled shapes ⟨?_,?_⟩
    · exact fun d member => absurd member List.not_mem_nil
    · exact fun p member => absurd member List.not_mem_nil
  refine (settled.referAll options (files.given_placed lex paths) fun file member => ?_).nodes
  have listed : file.1 ∈ (files.given lex paths).map (·.1) := List.mem_map_of_mem member
  rw [Files.given_names] at listed
  rw [Files.absorbed,absorbAll_nodes shapes,find?_addNodes]
  exact .inl listed

/-- After a run the nodes are the files. -/
theorem analyzed_nodes (options : RuleOptions) (readable : ∀ path ∈ paths, files.Readable path) (path : String) :
    ((files.analyzed lex options paths).graph.find? path).isSome ↔ path ∈ paths := by
  have shapes := absorbed_shapes files lex options paths
  rw [filter_readable readable] at shapes
  rw [Graph.find?_congr (analyzed_paths files lex options paths),Files.absorbed,absorbAll_nodes shapes,find?_addNodes]
  simp

/-- When no two files declare a type of the same name in the same scope, the table leads to the file that declares it. -/
theorem absorbed_home?_iff (options : RuleOptions) (readable : ∀ path ∈ paths, files.Readable path)
    (unique : ∀ p ∈ paths, ∀ q ∈ paths, ∀ d ∈ files.typesAt lex options p, ∀ e ∈ files.typesAt lex options q,
      d.name = e.name → d.scope = e.scope → p = q) {name : String} {scope : List String} {file : String} :
    (files.absorbed lex options paths).types.home? name scope = some file ↔
      file ∈ paths ∧ ∃ d ∈ files.typesAt lex options file, d.name = name ∧ d.scope = scope := by
  have shapes := absorbed_shapes files lex options paths
  rw [filter_readable readable] at shapes
  have declaring : ∀ {file}, (files.absorbed lex options paths).types.home? name scope = some file →
      file ∈ paths ∧ ∃ d ∈ files.typesAt lex options file, d.name = name ∧ d.scope = scope := by
    intro file found
    obtain ⟨d,member,rfl,rfl⟩ := TypeTable.mem_of_home? found
    rcases mem_all_absorbAll shapes member with none | declared
    · cases none
    · exact declared
  refine ⟨declaring,?_⟩
  rintro ⟨listed,d,declared,rfl,rfl⟩
  obtain ⟨e,taken,same⟩ := hasSite_absorbAll shapes listed declared (r := {})
  obtain ⟨home,found⟩ := TypeTable.home?_of_hasSite taken
  rw [same] at found
  -- What the table leads to declares the type too, so it is the file.
  obtain ⟨other,e,again,name,scope⟩ := declaring found
  obtain rfl : file = home := unique file listed home other d declared e again name.symm scope.symm
  exact found

end

/-- The strong components of a run as sets of paths. -/
def Analysis.partition (a : Analysis) : Finset (Finset String) :=
  (a.components.map fun members => (members.filterMap a.graph.pathAt?).toFinset).toFinset

theorem Analysis.partition_eq {a : Analysis} (components : a.components = a.graph.components) :
    a.partition = a.graph.classes := by
  rw [partition,components,Graph.classes]

/-- Readable files with different paths, no two of which declare a type of the same name in the same scope: whatever the
order in which they are listed, every file has the same edges, with the same targets and labels in the same order, and
the files fall into the same strong components. -/
theorem order_irrelevant (files : Files) (lex : Lexicon) (options : RuleOptions) {paths others : List String}
    (distinct : paths.Nodup) (readable : ∀ path ∈ paths, files.Readable path)
    (unique : ∀ p ∈ paths, ∀ q ∈ paths, ∀ d ∈ files.typesAt lex options p, ∀ e ∈ files.typesAt lex options q,
      d.name = e.name → d.scope = e.scope → p = q)
    (order : others.Perm paths) :
    ∃ a b, analyze (.reading lex false) options paths files = (.ok a,files) ∧
      analyze (.reading lex false) options others files = (.ok b,files) ∧
        (∀ path ∈ paths, ∃ edges, a.graph.outgoing? path = some edges ∧ b.graph.outgoing? path = some edges) ∧
          b.partition = a.partition := by
  have member : ∀ {path}, path ∈ others ↔ path ∈ paths := order.mem_iff
  have distinct' : others.Nodup := order.nodup_iff.mpr distinct
  have readable' : ∀ path ∈ others, files.Readable path := fun path listed => readable path (member.mp listed)
  obtain ⟨a,run,components,agrees⟩ := analyze_reading files lex options paths
  obtain ⟨b,run',components',agrees'⟩ := analyze_reading files lex options others
  -- Where the table leads to is said without the order of the files.
  have homes : ∀ name scope, (files.absorbed lex options others).types.home? name scope =
      (files.absorbed lex options paths).types.home? name scope := by
    intro name scope
    refine Option.ext fun file => ?_
    rw [absorbed_home?_iff options readable unique,
      absorbed_home?_iff options readable' fun p first q second => unique p (member.mp first) q (member.mp second),member]
  have edges : ∀ path ∈ paths, ∃ edges, a.graph.outgoing? path = some edges ∧ b.graph.outgoing? path = some edges := by
    intro path listed
    rw [Analysis.graph,Analysis.graph,agrees.graph,agrees'.graph]
    exact edges_of_homes lex options (readable path listed) (readable path listed) rfl
      (List.count_eq_one_of_mem distinct listed) (List.count_eq_one_of_mem distinct' (member.mpr listed)) homes
  refine ⟨a,b,run,run',edges,?_⟩
  rw [Analysis.partition_eq components,Analysis.partition_eq components']
  refine Graph.classes_of_outgoing (analyze_tidy files lex options distinct readable run)
    (analyze_tidy files lex options distinct' readable' run') (fun path => ?_) (fun path => ?_) edges
  · rw [Analysis.graph,agrees.graph]
    exact analyzed_nodes options readable path
  · rw [Analysis.graph,agrees'.graph,← member]
    exact analyzed_nodes options readable' path

/-- Two files that refer to each other, one of them through an import. -/
def crossing : Files := twoFiles "namespace N \x7b class Foo \x7b Bar b; \x7d \x7d" "using N; class Bar \x7b Foo f; \x7d"

set_option maxRecDepth 100000 in
theorem crossing_order_irrelevant :
    ∃ a b, analyze (.reading .standard false) .standard ["a.cs","b.cs"] crossing = (.ok a,crossing) ∧
      analyze (.reading .standard false) .standard ["b.cs","a.cs"] crossing = (.ok b,crossing) ∧
        b.graph.outgoing? "a.cs" = some [("b.cs","b.cs")] ∧ b.graph.outgoing? "b.cs" = some [("a.cs","a.cs")] ∧
          a.components = [[1,0]] ∧ b.partition = a.partition := by
  have unique : ∀ p ∈ ["a.cs","b.cs"], ∀ q ∈ ["a.cs","b.cs"], ∀ d ∈ crossing.typesAt .standard .standard p,
      ∀ e ∈ crossing.typesAt .standard .standard q, d.name = e.name → d.scope = e.scope → p = q := by
    decide +kernel
  obtain ⟨a,b,run,run',edges,same⟩ := order_irrelevant crossing .standard .standard (by decide)
    (twoFiles_readable _ _) unique (List.Perm.swap "a.cs" "b.cs" [])
  have left : edgesOfRun ["a.cs","b.cs"] crossing "a.cs" = some [("b.cs","b.cs")] := by decide +kernel
  have right : edgesOfRun ["a.cs","b.cs"] crossing "b.cs" = some [("a.cs","a.cs")] := by decide +kernel
  have one : ((analyze (.reading .standard false) .standard ["a.cs","b.cs"] crossing).1.toOption.map (·.components)) =
      some [[1,0]] := by decide +kernel
  rw [edgesOfRun,run] at left right
  rw [run] at one
  obtain ⟨first,found,again⟩ := edges "a.cs" (by decide)
  obtain ⟨second,found',again'⟩ := edges "b.cs" (by decide)
  obtain rfl : first = [("b.cs","b.cs")] := Option.some.inj (found.symm.trans left)
  obtain rfl : second = [("a.cs","a.cs")] := Option.some.inj (found'.symm.trans right)
  exact ⟨a,b,run,run',again,again',Option.some.inj one,same⟩

end Depends
