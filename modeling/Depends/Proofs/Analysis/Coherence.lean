import Depends.Analysis.Run
import Depends.Proofs.Graph.Growth
import Depends.Proofs.Repository.Continuing

/-!
What holds of a repository after every run, whatever files the source gives, refuses or crashes on. Actions add nodes
and edges, and nothing else touches the graph. So the graph stays one that grew by additions (`Coherent`), through
actions, files, passes and whole runs, also when a run starts from what an earlier one left (`Started.coherent`).
-/
namespace Depends

/-! ### What an operation keeps, runs of operations keep -/

section

variable {σ : Type} {property : σ → Prop} {react : Semi → σ → Except Failure Unit × σ}

theorem offer_run_keeps (keeps : ∀ part state, property state → property (react part state).2) (parts : List Semi) :
    ∀ {state : σ}, property state → property (offer.run react parts state).2 := by
  induction parts with
  | nil => exact fun holds => holds
  | cons part parts ih =>
    intro state holds
    have next := keeps part state holds
    unfold offer.run
    split
    · rename_i done
      exact ih (by rwa [done] at next)
    · rename_i done
      rwa [done] at next

theorem offer_keeps {options : RuleOptions} {semi : Semi}
    {rules : List (Rule × (Semi → σ → Except Failure Unit × σ))}
    (keeps : ∀ rule ∈ rules, ∀ part state, property state → property (rule.2 part state).2) {state : σ}
    (holds : property state) : property (offer options semi rules state).2 := by
  induction rules with
  | nil => exact holds
  | cons first rules ih =>
    rw [List.forall_mem_cons] at keeps
    unfold offer
    split
    · exact ih keeps.2
    · exact offer_run_keeps keeps.1 _ holds

end

namespace Repository

variable {r q : Repository}

/-- The graph is such as additions make it. -/
def Coherent (r : Repository) : Prop := r.graph.Grown

theorem Coherent.fresh (serial : Nat) : ({ nextSerial := serial } : Repository).Coherent := .empty

theorem Coherent.stable : Stable Coherent :=
  ⟨fun _ _ coherent => coherent,fun _ _ coherent => coherent,fun _ _ _ _ coherent => coherent⟩

/-! ### Actions -/

theorem Coherent.ensureNode (coherent : r.Coherent) (path : String) : (r.ensureNode path).2.Coherent :=
  Graph.Grown.addNode coherent path

theorem Coherent.recordUsing (coherent : r.Coherent) (file : String) (path : List String) :
    (r.recordUsing file path).Coherent := by
  unfold Repository.recordUsing
  split <;> exact coherent

theorem Coherent.recordAlias (coherent : r.Coherent) (file name : String) (target : List String) :
    (r.recordAlias file name target).Coherent :=
  coherent

theorem Coherent.openScopeOn (coherent : r.Coherent) (record : Bool) (part : Semi) :
    (Action.openScopeOn record part r).2.Coherent := by
  unfold Action.openScopeOn
  split
  · exact coherent
  · dsimp only
    split <;> exact coherent

theorem Coherent.declareTypeOn (coherent : r.Coherent) (part : Semi) :
    (Action.declareTypeOn part r).2.Coherent := by
  unfold Action.declareTypeOn
  split
  · exact coherent
  · dsimp only [Repository.register,Repository.record]
    split <;> split <;> exact coherent

theorem Coherent.addReferenceOn (coherent : r.Coherent) (part : Semi) : (Action.addReferenceOn part r).Coherent := by
  unfold Action.addReferenceOn
  split
  · exact coherent
  · rename_i d _
    split
    · exact coherent
    · have nodes := (coherent.ensureNode part.path).ensureNode d.file
      have linked := Graph.Grown.addEdge nodes (r.ensureNode part.path).1 ((r.ensureNode part.path).2.ensureNode d.file).1
        d.fileName
      dsimp only
      split <;> exact linked

theorem Coherent.perform (coherent : r.Coherent) (action : Action) (part : Semi) :
    (action.perform part r).2.Coherent := by
  cases action with
  | openScope record => exact coherent.openScopeOn record part
  | declareType => exact coherent.declareTypeOn part
  | closeScope => exact Coherent.stable.leave coherent part
  | saveAlias =>
    unfold Action.perform
    dsimp only
    split
    · exact coherent.recordAlias _ _ _
    · exact coherent
  | saveUsing =>
    unfold Action.perform
    dsimp only
    split
    · exact coherent
    · exact coherent.recordUsing _ _
  | addReference => exact coherent.addReferenceOn part

/-! ### Files -/

theorem Coherent.apply (coherent : r.Coherent) (options : RuleOptions) (rules : RuleList) (unit : Semi) :
    (rules.apply options unit r).2.Coherent := by
  refine offer_keeps (fun rule member part state holds => ?_) coherent
  obtain ⟨⟨pattern,action⟩,-,rfl⟩ := List.mem_map.mp member
  cases action with
  | none => exact holds
  | some action => exact holds.perform action part

theorem Coherent.applyAll (options : RuleOptions) (unit : Semi) (lists : List RuleList) :
    ∀ {r : Repository}, r.Coherent → (applyAll options unit lists r).2.Coherent := by
  induction lists with
  | nil => exact fun coherent => coherent
  | cons rules lists ih =>
    intro r coherent
    have next := coherent.apply options rules unit
    unfold Depends.applyAll
    split
    · rename_i done
      exact ih (by rwa [done] at next)
    · rename_i done
      rwa [done] at next

theorem Coherent.offerAll (options : RuleOptions) (lists : List RuleList) (units : List Semi) :
    ∀ {line : Int} {r : Repository}, r.Coherent → (offerAll options lists units line r).2.2.Coherent := by
  induction units with
  | nil => exact fun coherent => coherent
  | cons unit units ih =>
    intro line r coherent
    have next := Coherent.applyAll options unit lists coherent
    unfold Depends.offerAll
    split
    · rename_i done
      exact ih (by rwa [done] at next)
    · rename_i done
      rwa [done] at next

theorem Coherent.readFile {σ : Type} (coherent : r.Coherent) (source : SemiSource σ) (options : RuleOptions)
    (lists : List RuleList) (path : String) (state : σ) :
    (readFile source options lists path r state).2.1.Coherent := by
  have begun : (r.beginFile path).Coherent := coherent
  unfold Depends.readFile
  split
  · exact Coherent.stable.endFile begun 0
  · split
    · exact Coherent.stable.endFile begun 0
    · exact Coherent.stable.endFile (Coherent.offerAll options lists _ begun) _

/-! ### Passes -/

theorem Coherent.merge (coherent : r.Coherent) (other : Repository) : (r.merge other).Coherent := by
  unfold Repository.merge
  extract_lets entered imported
  have next : entered.Coherent := coherent
  have held : imported.Coherent :=
    List.foldlRecOn _ _ next fun b holds pair _ =>
      List.foldlRecOn _ _ holds fun b holds path _ => holds.recordUsing pair.1 path
  exact List.foldlRecOn _ _ held fun b holds pair _ =>
    List.foldlRecOn _ _ holds fun b holds a _ => holds.recordAlias pair.1 a.1 a.2

end Repository

theorem TypesRead.take_coherent {found : TypesRead} (coherent : found.repository.Coherent) (part : FilePart) :
    (found.take part).repository.Coherent := by
  have absorbed : ∀ r : Repository, r.Coherent → ((r.merge part.repository).ensureNode part.path).2.Coherent :=
    fun r holds => (holds.merge part.repository).ensureNode part.path
  unfold TypesRead.take
  split
  · exact absorbed _ coherent
  · rename_i failure _
    have noted := Repository.Coherent.stable.note _ (.fileSkipped failure.isCancelled) coherent
    dsimp only
    split
    · exact absorbed _ noted
    · exact noted

theorem takeParts_coherent {r : Repository} (coherent : r.Coherent) (parts : List FilePart) :
    (takeParts r parts).repository.Coherent :=
  List.foldlRecOn (motive := fun found => found.repository.Coherent) parts TypesRead.take
    coherent fun _ holds part _ => TypesRead.take_coherent holds part

theorem readReferences_coherent {σ : Type} (source : SemiSource σ) (options : RuleOptions) (paths : List String) :
    ∀ {r q : Repository} {state after : σ} {skipped : List SkippedFile}, r.Coherent →
      readReferences source options paths r state = (.ok (q,skipped),after) → q.Coherent := by
  induction paths with
  | nil =>
    intro r q state after skipped coherent run
    cases run
    exact coherent
  | cons path paths ih =>
    intro r q state after skipped coherent run
    have next := coherent.readFile source options [.tracking,.referring] path state
    unfold readReferences at run
    split at run
    rename_i failure read state' done
    rw [done] at next
    split at run
    · exact ih next run
    · split at run
      · cases run
      · split at run
        · cases run
        · rename_i rest
          cases run
          exact ih (Repository.Coherent.stable.note _ _ next) rest

namespace Repository

variable {r : Repository}

theorem Coherent.analyze {σ : Type} (coherent : r.Coherent) {source : SemiSource σ} {options : RuleOptions}
    {paths : List String} {state after : σ} {a : Analysis}
    (run : r.analyze source options paths state = (.ok a,after)) :
    a.repository.Coherent ∧ a.components = a.graph.components := by
  unfold Repository.analyze at run
  split at run
  · cases run
  · rename_i parts _ _
    dsimp only at run
    split at run
    · cases run
    · rename_i rest
      cases run
      have done := readReferences_coherent source options _ (takeParts_coherent coherent parts) rest
      exact ⟨Coherent.stable.note _ _ done,rfl⟩

/-- A repository in which a run can start: a fresh one, or one that an earlier run left. -/
inductive Started : Repository → Prop where
  | fresh : Started {}
  | again {σ : Type} {r : Repository} {source : SemiSource σ} {options : RuleOptions} {paths : List String}
      {state after : σ} {a : Analysis} (started : Started r)
      (run : r.analyze source options paths state = (.ok a,after)) : Started a.repository

theorem Started.coherent (started : r.Started) : r.Coherent := by
  induction started with
  | fresh => exact .fresh 0
  | again _ run ih => exact (ih.analyze run).1

end Repository

end Depends
