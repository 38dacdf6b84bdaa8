import Depends.Proofs.Analysis.Reordering
import Depends.Proofs.Graph.Cycles
import Depends.Proofs.Graph.Growth

/-!
The graph of a run and its cycles. The type pass makes a node of every file that can be read, in the order in which the
files are first listed, and the dependency pass adds no node and no edge from a file to itself (`tidy_referAll`). So the
components with several members, the components with a cycle and what the metrics say about cycles agree
(`cycles_agree`).
-/
namespace Depends

instance (files : Files) (path : String) : Decidable (files.Readable path) :=
  match opened : files.open? path with
  | .ok file => isTrue ⟨file,opened⟩
  | .error _ => isFalse fun ⟨_,other⟩ => by simp [opened] at other

theorem Files.semis_isOk (files : Files) (lex : Lexicon) (path : String) :
    (files.semis lex path).isOk = decide (files.Readable path) := by
  by_cases readable : files.Readable path
  · simp [readable,Files.semis_eq lex readable,Except.isOk,Except.toBool]
  · obtain ⟨failure,refused,-⟩ := Files.semis_unreadable readable lex
    simp [readable,refused,Except.isOk,Except.toBool]

/-- Adding nodes leaves out what is there. -/
theorem paths_addNodes {seen : List String} (paths : List String) : ∀ {g : Graph},
    g.nodes.map (·.path) = seen.eraseDups →
      (paths.foldl (fun g path => (g.addNode path).2) g).nodes.map (·.path) = (seen ++ paths).eraseDups := by
  induction paths generalizing seen with
  | nil => simp
  | cons path paths ih =>
    intro g known
    have rest := ih (Graph.paths_addNode known path)
    rwa [List.append_assoc] at rest

theorem Repository.tidy_referAll (options : RuleOptions) {given : List (String × List Semi)}
    (placed : ∀ file ∈ given, ∀ unit ∈ file.2, unit.path = file.1) :
    ∀ {r : Repository}, r.AllClosed → r.graph.Tidy → (r.referAll options given).graph.Tidy := by
  induction given with
  | nil => exact fun _ tidy => tidy
  | cons file given ih =>
    intro r closed tidy
    rw [List.forall_mem_cons] at placed
    obtain ⟨q,read,after⟩ := readUnits_referred options placed.1 closed
    have next : r.referAll options (file :: given) = q.referAll options given := by
      rw [referAll,List.foldl_cons,read]
      rfl
    rw [next]
    refine ih placed.2 (after.allClosed closed) ?_
    rw [after.graph]
    exact tidy.connectAll (linksFrom_apart options file.1 file.2)

/-! ### Runs -/

theorem absorbed_paths (files : Files) (lex : Lexicon) (options : RuleOptions) (paths : List String) :
    (files.absorbed lex options paths).graph.nodes.map (·.path) = (paths.filter (files.Readable ·)).eraseDups := by
  rw [Files.absorbed,absorbAll_nodes (absorbed_shapes files lex options paths)]
  simp only [Files.semis_isOk]
  exact @paths_addNodes [] _ _ rfl

theorem analyzed_tidy (files : Files) (lex : Lexicon) (options : RuleOptions) (paths : List String) :
    (files.analyzed lex options paths).graph.Tidy :=
  Repository.tidy_referAll options (files.given_placed lex paths) (absorbed_allClosed files lex options paths)
    (absorbed_tidy files lex options paths)

/-- What the type pass of a run leaves. -/
theorem readParts_absorbed (files : Files) (lex : Lexicon) (options : RuleOptions) (paths : List String) :
    ∃ parts, readParts (.reading lex false) options paths 0 files = (.ok parts,files) ∧
      (takeParts {} parts).repository.graph = (files.absorbed lex options paths).graph := by
  obtain ⟨q,agrees,taken⟩ := Answers.takeParts_eq (reading_benign files lex paths) options {} 0
  rw [reading_given] at agrees
  refine ⟨_,(readParts_answers paths (reading_running lex files) 0).trans (by rw [after_reading]),?_⟩
  rw [taken]
  exact agrees.graph

/-! ### Runs that were called off -/

/-- A run that was called off reads a file only when there is nothing in it. -/
theorem readFile_cancelled (files : Files) (lex : Lexicon) (options : RuleOptions) (lists : List RuleList)
    (path : String) (r : Repository) :
    (∃ failure q, readFile (.reading lex true) options lists path r files = (some failure,q,files)) ∨
      ∃ q, readFile (.reading lex true) options lists path r files = (none,q,files) ∧
        readFile (.reading lex false) options lists path r files = (none,q,files) := by
  simp only [readFile,SemiSource.reading,Files.semisUnless]
  cases files.semis lex path with
  | error failure => exact .inl ⟨failure,_,rfl⟩
  | ok units =>
    cases units with
    | nil => exact .inr ⟨_,rfl,rfl⟩
    | cons unit units => exact .inl ⟨.cancelled,_,rfl⟩

theorem readParts_cancelled (files : Files) (lex : Lexicon) (options : RuleOptions) (paths : List String) : ∀ serial,
    readParts (.reading lex true) options paths serial files = (.error .cancelled,files) ∨
      readParts (.reading lex true) options paths serial files =
        readParts (.reading lex false) options paths serial files := by
  induction paths with
  | nil => exact fun _ => .inr rfl
  | cons path paths ih =>
    intro serial
    rw [readParts,readParts]
    rcases readFile_cancelled files lex options [.declaring] path { nextSerial := serial } with
      ⟨failure,q,read⟩ | ⟨q,read,same⟩
    · rw [read]
      exact .inl rfl
    · rw [read,same]
      simp only [Option.isSome_none,Bool.false_and,Bool.false_eq_true,↓reduceIte]
      rcases ih q.nextSerial with failed | rest
      · rw [failed]
        exact .inl rfl
      · rw [rest]
        exact .inr rfl

theorem readReferences_cancelled (files : Files) (lex : Lexicon) (options : RuleOptions) (paths : List String) : ∀ r,
    readReferences (.reading lex true) options paths r files = (.error .cancelled,files) ∨
      readReferences (.reading lex true) options paths r files =
        readReferences (.reading lex false) options paths r files := by
  induction paths with
  | nil => exact fun _ => .inr rfl
  | cons path paths ih =>
    intro r
    rw [readReferences,readReferences]
    rcases readFile_cancelled files lex options [.tracking,.referring] path r with ⟨failure,q,read⟩ | ⟨q,read,same⟩
    · rw [read]
      exact .inl rfl
    · rw [read,same]
      exact ih q

/-- A run that was called off fails as such, or it goes as if it had not been. -/
theorem analyze_cancelled (files : Files) (lex : Lexicon) (options : RuleOptions) (paths : List String) :
    analyze (.reading lex true) options paths files = (.error .cancelled,files) ∨
      readParts (.reading lex true) options paths 0 files = readParts (.reading lex false) options paths 0 files ∧
        analyze (.reading lex true) options paths files = analyze (.reading lex false) options paths files := by
  obtain ⟨parts,done,-⟩ := readParts_absorbed files lex options paths
  unfold analyze Repository.analyze
  rcases readParts_cancelled files lex options paths 0 with failed | same
  · rw [failed]
    exact .inl rfl
  · rw [same,done]
    dsimp only
    rcases readReferences_cancelled files lex options (takeParts {} parts).succeeded (takeParts {} parts).repository
      with failed | same
    · rw [failed]
      exact .inl rfl
    · rw [same]
      exact .inr ⟨rfl,rfl⟩

/-- Whatever files are given, in whatever order and number, readable or not: either the run was called off and fails as
such, or it succeeds. Then the nodes are the files that can be read, in the order in which they are first listed, and
all of them come from the type pass; no node has an edge to itself; and the components with several members are the
components with a cycle, their files are those that the metrics put on a cycle, and the groups that the metrics make of
these by component are the components, one by one. -/
theorem cycles_agree (files : Files) (lex : Lexicon) (cancelled : Bool) (options : RuleOptions) (paths : List String) :
    (∃ parts a, readParts (.reading lex cancelled) options paths 0 files = (.ok parts,files) ∧
        analyze (.reading lex cancelled) options paths files = (.ok a,files) ∧
          a.graph.nodes.map (·.path) = (paths.filter (files.Readable ·)).eraseDups ∧
          (takeParts {} parts).repository.graph.nodes.map (·.path) = a.graph.nodes.map (·.path) ∧
          (∀ v, a.graph.hasLoop v = false) ∧ a.components = a.graph.components ∧ a.cyclic = a.graph.cycles ∧
          ((a.graph.metrics.filter (·.inCycle)).map (·.path)).Perm (a.cyclic.flatten.map a.graph.pathOf) ∧
          List.Forall₂ List.Perm (a.cyclic.map fun members => members.map a.graph.pathOf) a.graph.cycleGroups) ∨
      cancelled = true ∧ analyze (.reading lex cancelled) options paths files = (.error .cancelled,files) := by
  obtain ⟨parts,read,taken⟩ := readParts_absorbed files lex options paths
  obtain ⟨a,run,components,agrees⟩ := analyze_reading files lex options paths
  have graph : a.graph = (files.analyzed lex options paths).graph := agrees.graph
  have tidy : a.graph.Tidy := graph ▸ analyzed_tidy files lex options paths
  have nodes := analyzed_paths files lex options paths
  rw [← graph] at nodes
  have loops := tidy.hasLoop_eq
  have cyclic : a.cyclic = a.graph.cycles := by
    rw [Analysis.cyclic,components,Graph.cycles]
    exact List.filter_congr fun members _ => (Graph.isCyclic_of_no_loop loops members).symm
  have same : readParts (.reading lex cancelled) options paths 0 files = (.ok parts,files) ∧
      analyze (.reading lex cancelled) options paths files = (.ok a,files) ∨
        cancelled = true ∧ analyze (.reading lex cancelled) options paths files = (.error .cancelled,files) := by
    cases cancelled with
    | false => exact .inl ⟨read,run⟩
    | true =>
      rcases analyze_cancelled files lex options paths with failed | ⟨parts,all⟩
      · exact .inr ⟨rfl,failed⟩
      · exact .inl ⟨parts.trans read,all.trans run⟩
  refine same.imp_left fun succeeded => ⟨parts,a,succeeded.1,succeeded.2,?_,?_,loops,components,cyclic,?_,?_⟩
  · exact nodes.trans (absorbed_paths files lex options paths)
  · rw [taken,nodes]
  · rw [cyclic]
    exact Graph.inCycle_perm tidy.closed
  · rw [cyclic]
    exact Graph.cycles_groups tidy.closed

end Depends
