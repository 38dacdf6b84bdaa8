import Depends.Proofs.Analysis.Faults

/-!
What was noted is never read. Two repositories that differ in the journal only (`Agrees`) differ in the journal only
after every step of the passes: after taking a file over and after reading its references.
-/
namespace Depends.Repository

/-- The same repository, whatever was noted. -/
def Agrees (r q : Repository) : Prop := { r with journal := [] } = { q with journal := [] }

/-- A step that does the same whatever was noted before. -/
def Deaf (step : Repository → Repository) : Prop := ∀ r q, r.Agrees q → (step r).Agrees (step q)

variable {r q s : Repository}

theorem Agrees.symm (agrees : r.Agrees q) : q.Agrees r := Eq.symm agrees

theorem Agrees.trans (first : r.Agrees q) (second : q.Agrees s) : r.Agrees s := Eq.trans first second

theorem Agrees.journal (agrees : r.Agrees q) : q = { r with journal := q.journal } := by
  have same : { q with journal := q.journal } = { r with journal := q.journal } :=
    congrArg (fun s : Repository => { s with journal := q.journal }) agrees.symm
  exact same

theorem Agrees.types (agrees : r.Agrees q) : r.types = q.types := by rw [agrees.journal]

theorem Agrees.graph (agrees : r.Agrees q) : r.graph = q.graph := by rw [agrees.journal]

theorem agrees_note (r : Repository) (notice : Notice) : r.Agrees (r.note notice) := rfl

/-- It is enough to look at a repository with another journal. -/
theorem Deaf.intro {step : Repository → Repository}
    (same : ∀ (r : Repository) journal, (step r).Agrees (step { r with journal })) : Deaf step := by
  intro r q agrees
  rw [agrees.journal]
  exact same r q.journal

theorem Deaf.comp {first second : Repository → Repository} (later : Deaf second) (earlier : Deaf first) :
    Deaf fun r => second (first r) :=
  fun r q agrees => later _ _ (earlier r q agrees)

theorem Deaf.foldl {α : Type} {step : α → Repository → Repository} (deaf : ∀ x, Deaf (step x)) (items : List α) :
    Deaf fun r => items.foldl (fun r x => step x r) r := by
  induction items with
  | nil => exact fun _ _ agrees => agrees
  | cons x items ih => exact fun r q agrees => ih _ _ (deaf x r q agrees)

/-! ### Scopes -/

theorem Agrees.popScope (agrees : r.Agrees q) (line : Int) :
    (∃ failure, r.popScope line = .error failure ∧ q.popScope line = .error failure) ∨
      ∃ frame r' q', r.popScope line = .ok (frame,r') ∧ q.popScope line = .ok (frame,q') ∧ r'.Agrees q' := by
  rw [agrees.journal]
  unfold Repository.popScope
  cases r.stack.pop with
  | error failure => exact .inl ⟨failure,rfl,rfl⟩
  | ok popped =>
    obtain ⟨frame,stack⟩ := popped
    have same : ∀ frame, openFor? { r with journal := q.journal } frame = r.openFor? frame := fun _ => rfl
    simp only [same]
    cases r.openFor? { frame with endLine := line, endScopes := r.scopeCount } with
    | none => exact .inr ⟨_,_,_,rfl,rfl,rfl⟩
    | some d => exact .inr ⟨_,_,_,rfl,rfl,rfl⟩

theorem deaf_leave (semi : Semi) : Deaf fun r => r.leave semi := by
  intro r q agrees
  show (r.leave semi).Agrees (q.leave semi)
  unfold Repository.leave Action.closeScopeOn
  rcases agrees.popScope semi.line with ⟨failure,left,right⟩ | ⟨frame,r',q',left,right,after⟩
  · rw [left,right]
    exact agrees
  · rw [left,right]
    exact after

theorem deaf_track (role : Role) (semi : Semi) : Deaf (role.track semi) := by
  cases role with
  | closes => exact deaf_leave semi
  | opens kind first more => exact Deaf.intro fun r journal => rfl
  | declares kind name => exact Deaf.intro fun r journal => rfl
  | binds name first more => exact fun _ _ agrees => agrees
  | delegates name => exact fun _ _ agrees => agrees
  | plain => exact fun _ _ agrees => agrees

theorem deaf_closeScopes (line : Int) (count : Nat) : Deaf (closeScopes line count) := by
  induction count with
  | zero => exact fun _ _ agrees => agrees
  | succ count ih =>
    intro r q agrees
    have same : q.stack = r.stack := by rw [agrees.journal]
    unfold closeScopes
    rw [same]
    extract_lets noted noted'
    have still : noted.Agrees noted' := by
      unfold noted noted'
      split
      · exact agrees
      · exact agrees
    rcases still.popScope line with ⟨failure,left,right⟩ | ⟨frame,r',q',left,right,after⟩
    · rw [left,right]
      exact still
    · rw [left,right]
      exact ih _ _ after

theorem deaf_endFile (line : Int) : Deaf fun r => r.endFile line := by
  intro r q agrees
  have same : q.stack = r.stack := by rw [agrees.journal]
  have closed := deaf_closeScopes line r.stack.items.length r q agrees
  show (r.endFile line).Agrees (q.endFile line)
  unfold endFile
  rw [same,closed.journal]
  rfl

/-! ### Tables -/

theorem deaf_recordUsing (file : String) (path : List String) : Deaf fun r => r.recordUsing file path := by
  refine Deaf.intro fun r journal => ?_
  have same : usingsOf { r with journal } file = r.usingsOf file := rfl
  unfold recordUsing
  rw [same]
  split <;> rfl

theorem deaf_recordAlias (file name : String) (target : List String) : Deaf fun r => r.recordAlias file name target :=
  Deaf.intro fun _ _ => rfl

theorem deaf_addReferenceOn (part : Semi) : Deaf (Action.addReferenceOn part) := by
  refine Deaf.intro fun r journal => ?_
  obtain ⟨noted,left⟩ := addReferenceOn_eq part r
  obtain ⟨noted',right⟩ := addReferenceOn_eq part { r with journal }
  rw [left,right]
  rfl

/-! ### Files -/

theorem deaf_absorb (other : Repository) (path : String) : Deaf fun r => r.absorb other path := by
  have tables : Deaf fun r : Repository =>
      { r with
        types := r.types.merge other.types
        locations := r.locations ++ other.locations
        nextSerial := max r.nextSerial other.nextSerial } := Deaf.intro fun _ _ => rfl
  have imports : Deaf fun r =>
      other.usings.foldl (fun r pair => pair.2.foldl (fun r path => r.recordUsing pair.1 path) r) r :=
    Deaf.foldl (fun pair => Deaf.foldl (deaf_recordUsing pair.1) pair.2) other.usings
  have aliases : Deaf fun r =>
      other.aliases.foldl (fun r pair => pair.2.foldl (fun r a => r.recordAlias pair.1 a.1 a.2) r) r :=
    Deaf.foldl (fun pair => Deaf.foldl (fun a => deaf_recordAlias pair.1 a.1 a.2) pair.2) other.aliases
  have node : Deaf fun r => (r.ensureNode path).2 := Deaf.intro fun _ _ => rfl
  exact node.comp (aliases.comp (imports.comp tables))

theorem deaf_refer (options : RuleOptions) (unit : Semi) : Deaf (refer options unit) := by
  have tracked := deaf_track (roleOf options unit.tokens) unit
  have imports : Deaf fun r => r.importAll unit.path (imported options unit) :=
    Deaf.foldl (deaf_recordUsing unit.path) (imported options unit)
  have references : Deaf fun r => (lookedUp options unit).foldl (fun r part => Action.addReferenceOn part r) r :=
    Deaf.foldl deaf_addReferenceOn (lookedUp options unit)
  exact references.comp (imports.comp tracked)

/-- The dependency pass over one file. -/
theorem deaf_readUnits (options : RuleOptions) (path : String) (units : List Semi) :
    Deaf fun r => (readUnits options [.tracking,.referring] path units r).2 := by
  simp only [readUnits_referring]
  have started : Deaf fun r => r.beginFile path := Deaf.intro fun _ _ => rfl
  exact (deaf_endFile _).comp ((Deaf.foldl (deaf_refer options) units).comp started)

end Depends.Repository
