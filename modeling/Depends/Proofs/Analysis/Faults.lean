import Depends.Proofs.Analysis.Declaring
import Depends.Proofs.Analysis.References
import Depends.Proofs.Rule.Range

/-!
Where the failures of a run come from. The rules fail on no semi-expression and read no token out of range, so a file
that a run reports as skipped is one that the source did not give, and the reported failure is the source's
(`rules_never_fail`).
-/
namespace Depends

variable {σ : Type} {source : SemiSource σ} {options : RuleOptions} {state : σ}

/-- The state of a source that was asked for files. -/
def SemiSource.after (source : SemiSource σ) (asked : List String) (state : σ) : σ :=
  asked.foldl (fun state path => (source.semis path state).2) state

theorem SemiSource.after_append (source : SemiSource σ) (first second : List String) (state : σ) :
    source.after (first ++ second) state = source.after second (source.after first state) := List.foldl_append

/-- One of the requests was for the path, and the source answered it with the failure. -/
def SemiSource.Refused (source : SemiSource σ) (state : σ) (requests : List String) (path : String)
    (failure : Failure) : Prop :=
  ∃ before fault, before ++ [path] <+: requests ∧ (source.semis path (source.after before state)).1 = .error fault ∧
    failure = fault.failure path

theorem SemiSource.Refused.earlier {requests more : List String} {path : String} {failure : Failure}
    (refused : source.Refused state requests path failure) : source.Refused state (requests ++ more) path failure := by
  obtain ⟨before,fault,asked,answer⟩ := refused
  exact ⟨before,fault,asked.trans (List.prefix_append requests more),answer⟩

theorem SemiSource.Refused.later {requests first : List String} {path : String} {failure : Failure}
    (refused : source.Refused (source.after first state) requests path failure) :
    source.Refused state (first ++ requests) path failure := by
  obtain ⟨before,fault,asked,answer,same⟩ := refused
  refine ⟨first ++ before,fault,?_,?_,same⟩
  · rw [List.append_assoc]
    exact (List.prefix_append_right_inj first).mpr asked
  · rwa [SemiSource.after_append]

/-- What the dependency pass does with one semi-expression. -/
def Repository.refer (options : RuleOptions) (unit : Semi) (r : Repository) : Repository :=
  (lookedUp options unit).foldl (fun r part => Action.addReferenceOn part r) (r.advance options unit)

/-- The references of a file are read to its end. -/
theorem readUnits_referring (options : RuleOptions) (path : String) (units : List Semi) (r : Repository) :
    readUnits options [.tracking,.referring] path units r =
      (none,(units.foldl (fun r unit => r.refer options unit) (r.beginFile path)).endFile
        ((units.getLast?.map (·.line)).getD 0)) := by
  have applied : ∀ unit q, applyAll options unit [.tracking,.referring] q = (.ok (),q.refer options unit) :=
    applyAll_references options
  simp only [readUnits,offerAll_steps applied,Option.map_none]

/-- A file that fails was refused by the source, or the run has been called off. -/
theorem readFile_failure (source : SemiSource σ) {lists : List RuleList}
    (quiet : ∀ path units r, (readUnits options lists path units r).1 = none) (path : String) (r : Repository) (state : σ) :
    ∃ failure q, readFile source options lists path r state = (failure,q,source.after [path] state) ∧
      ∀ f, failure = some f → source.isCancelled (source.after [path] state) = false →
        source.Refused state [path] path f := by
  cases asked : source.semis path state with
  | mk answer next =>
    have reached : source.after [path] state = next := by
      simp only [SemiSource.after,List.foldl_cons,List.foldl_nil,asked]
    rw [reached,readFile,asked]
    cases answer with
    | error fault =>
      refine ⟨_,_,rfl,fun f failed _ => ⟨[],fault,List.prefix_rfl,?_,(Option.some.inj failed).symm⟩⟩
      exact congrArg Prod.fst asked
    | ok units =>
      dsimp only
      by_cases stopped : (source.isCancelled next && !units.isEmpty) = true
      · rw [if_pos stopped]
        refine ⟨_,_,rfl,fun f _ running => ?_⟩
        rw [running] at stopped
        cases stopped
      · rw [if_neg stopped]
        refine ⟨_,_,rfl,fun f failed _ => ?_⟩
        rw [quiet] at failed
        cases failed

/-- The type pass is called off, or every failure that it finds is the source's. -/
theorem readParts_refused (source : SemiSource σ) (options : RuleOptions) (paths : List String) :
    ∀ (serial : Nat) (state : σ),
    (∃ final, readParts source options paths serial state = (.error .cancelled,final)) ∨
      ∃ parts, readParts source options paths serial state = (.ok parts,source.after paths state) ∧
        ∀ part ∈ parts, ∀ failure, part.failure = some failure → source.Refused state paths part.path failure := by
  induction paths with
  | nil => exact fun serial state => .inr ⟨[],rfl,fun part member => absurd member List.not_mem_nil⟩
  | cons path paths ih =>
    intro serial state
    have quiet : ∀ path units r, (readUnits options [.declaring] path units r).1 = none := by
      intro path units r
      rw [readUnits_declaring]
    obtain ⟨failure,q,read,blamed⟩ := readFile_failure source quiet path { nextSerial := serial } state
    rw [readParts,read]
    dsimp only
    -- A failure in a run that was called off ends the pass; any other one is the source's and stays with its file.
    by_cases stopped : (failure.isSome && source.isCancelled (source.after [path] state)) = true
    · exact .inl ⟨_,if_pos stopped⟩
    · rw [if_neg stopped]
      rcases ih q.nextSerial (source.after [path] state) with ⟨final,failed⟩ | ⟨parts,rest,later⟩
      · exact .inl ⟨final,by rw [failed]⟩
      · refine .inr ⟨⟨path,q,failure⟩ :: parts,by rw [rest]; rfl,?_⟩
        rw [List.forall_mem_cons]
        constructor
        · intro f failed
          have found : failure = some f := failed
          refine (blamed f found ?_).earlier
          simpa [found] using stopped
        · exact fun part member f failed => (later part member f failed).later

theorem mem_takeParts_skipped {r : Repository} {parts : List FilePart} {s : SkippedFile}
    (member : s ∈ (takeParts r parts).skipped) : ∃ part ∈ parts, part.path = s.path ∧ part.failure = some s.failure := by
  have run : ∀ (parts : List FilePart) (found : TypesRead), s ∈ (parts.foldl TypesRead.take found).skipped →
      s ∈ found.skipped ∨ ∃ part ∈ parts, part.path = s.path ∧ part.failure = some s.failure := by
    intro parts
    induction parts with
    | nil => exact fun found listed => .inl listed
    | cons part parts ih =>
      intro found listed
      rcases ih _ listed with before | ⟨other,inside,same⟩
      · unfold TypesRead.take at before
        split at before
        · exact .inl before
        · rename_i failure failed
          rcases List.mem_append.mp before with old | new
          · exact .inl old
          · rw [List.mem_singleton.mp new]
            exact .inr ⟨part,List.mem_cons_self ..,rfl,failed⟩
      · exact .inr ⟨other,List.mem_cons_of_mem _ inside,same⟩
  rcases run parts _ member with none | found
  · cases none
  · exact found

/-- The dependency pass is called off, or every failure that it finds is the source's. -/
theorem readReferences_refused (source : SemiSource σ) (options : RuleOptions) (paths : List String) :
    ∀ (r : Repository) (state : σ),
    (∃ final, readReferences source options paths r state = (.error .cancelled,final)) ∨
      ∃ q skipped, readReferences source options paths r state = (.ok (q,skipped),source.after paths state) ∧
        ∀ s ∈ skipped, source.Refused state paths s.path s.failure := by
  induction paths with
  | nil => exact fun r state => .inr ⟨r,[],rfl,fun s member => absurd member List.not_mem_nil⟩
  | cons path paths ih =>
    intro r state
    have quiet : ∀ path units r, (readUnits options [.tracking,.referring] path units r).1 = none := by
      intro path units r
      rw [readUnits_referring]
    obtain ⟨failure,q,read,blamed⟩ := readFile_failure source quiet path r state
    rw [readReferences,read]
    cases failure with
    | none =>
      rcases ih q (source.after [path] state) with failed | ⟨last,skipped,rest,later⟩
      · exact .inl failed
      · exact .inr ⟨last,skipped,rest,fun s member => (later s member).later⟩
    | some failure =>
      dsimp only
      by_cases stopped : source.isCancelled (source.after [path] state) = true
      · exact .inl ⟨_,if_pos stopped⟩
      · rw [if_neg stopped]
        rcases ih (q.noteSkipped failure) (source.after [path] state) with ⟨final,failed⟩ | ⟨last,skipped,rest,later⟩
        · exact .inl ⟨final,by rw [failed]⟩
        · refine .inr ⟨last,⟨path,.dependencies,failure⟩ :: skipped,by rw [rest]; rfl,?_⟩
          rw [List.forall_mem_cons]
          exact ⟨(blamed failure rfl (by simpa using stopped)).earlier,fun s member => (later s member).later⟩

/-- The declaring, the tracking and the referring rules go through with every semi-expression, whatever its tokens and
whatever the repository: with each read of a token checked to be in range they have a result, which is what they do,
and it is no failure. So a run over any source fails only when it is called off, and each file that it skips is one
that the source was asked for and answered with the failure that is reported. -/
theorem rules_never_fail (options : RuleOptions) :
    (∀ rules ∈ [RuleList.declaring,.tracking,.referring], ∀ (semi : Semi) (r : Repository),
      ∃ q, Checked.apply options rules semi r = some (.ok (),q) ∧ rules.apply options semi r = (.ok (),q)) ∧
    ∀ {σ : Type} (source : SemiSource σ) (paths : List String) (r : Repository) (state : σ),
      (∃ final, r.analyze source options paths state = (.error .cancelled,final)) ∨
        ∃ a requests, r.analyze source options paths state = (.ok a,source.after requests state) ∧
          ∀ s ∈ a.skipped, source.Refused state requests s.path s.failure := by
  constructor
  · intro rules member semi r
    have goes : ∃ q, rules.apply options semi r = (.ok (),q) := by
      simp only [List.mem_cons,List.not_mem_nil,or_false] at member
      rcases member with rfl | rfl | rfl
      · exact ⟨_,declaring_apply options semi r⟩
      · exact ⟨_,tracking_apply options semi r⟩
      · exact ⟨_,referring_apply options semi r⟩
    obtain ⟨q,done⟩ := goes
    exact ⟨q,by rw [Checked.apply_eq,done],done⟩
  · intro σ source paths r state
    unfold Repository.analyze
    rcases readParts_refused source options paths r.nextSerial state with
      ⟨final,failed⟩ | ⟨parts,read,refused⟩
    · exact .inl ⟨final,by rw [failed]⟩
    · rw [read]
      dsimp only
      rcases readReferences_refused source options (takeParts r parts).succeeded
        (takeParts r parts).repository (source.after paths state) with ⟨final,failed⟩ | ⟨q,skipped,done,later⟩
      · exact .inl ⟨final,by rw [failed]⟩
      · refine .inr ⟨_,paths ++ (takeParts r parts).succeeded,by rw [done,SemiSource.after_append],fun s member => ?_⟩
        rcases List.mem_append.mp member with early | late
        · obtain ⟨part,inside,same,failure⟩ := mem_takeParts_skipped early
          exact (same ▸ refused part inside s.failure failure).earlier
        · exact (later s late).later

/-- A source that gives a first file without semi-expressions and crashes on every other one. -/
def crashing : SemiSource (List String) where
  semis path asked := (if path = "a.cs" then .ok [] else .error (.crashed "out of range"),asked ++ [path])
  isCancelled _ := false

theorem crash_blamed :
    (∃ q, Checked.apply .standard .declaring ⟨[],"a.cs",1,1⟩ {} = some (.ok (),q) ∧
      RuleList.declaring.apply .standard ⟨[],"a.cs",1,1⟩ {} = (.ok (),q)) ∧
    ∃ a requests, analyze crashing .standard ["a.cs","b.cs"] [] = (.ok a,crashing.after requests []) ∧
      (a.skipped.map fun s => (s.path,s.failure.hasCode .malformed)) = [("b.cs",true)] ∧
        ∀ s ∈ a.skipped, crashing.Refused [] requests s.path s.failure := by
  obtain ⟨goes,blamed⟩ := rules_never_fail .standard
  refine ⟨goes .declaring (List.mem_cons_self ..) ⟨[],"a.cs",1,1⟩ {},?_⟩
  have reported : ((analyze crashing .standard ["a.cs","b.cs"] []).1.toOption.map fun a =>
      a.skipped.map fun s => (s.path,s.failure.hasCode .malformed)) = some [("b.cs",true)] := by decide +kernel
  rcases blamed crashing ["a.cs","b.cs"] {} [] with ⟨final,failed⟩ | ⟨a,requests,run,refused⟩
  · rw [analyze,failed] at reported
    cases reported
  · rw [analyze,run] at reported
    exact ⟨a,requests,run,Option.some.inj reported,refused⟩

end Depends
