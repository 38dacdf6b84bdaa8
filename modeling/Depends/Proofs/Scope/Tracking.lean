import Depends.Proofs.Scope.Nesting

/-!
Both passes see the same scopes. What a semi-expression does to the open scopes is decided by its role alone, whether
its declaration is recorded or not (`Role.scopes`), and by nothing that a repository knows apart from the scopes. So
the declaring and the tracking rules, started with the same scopes, have the same scopes after every
semi-expression (`passes_share_scopes`).
-/
namespace Depends

/-- A scope as it was opened: its kind, name, path, first line and count. -/
def Frame.opened (frame : Frame) : Frame := { frame with endLine := 0, endScopes := 0 }

/-- The open scopes and the number of scopes opened so far, after a semi-expression with the role. -/
def Role.scopes (semi : Semi) (role : Role) (before : List Frame × Nat) : List Frame × Nat :=
  match role with
  | closes => (before.1.dropLast,before.2)
  | role =>
    let opened := (role.frame? semi (before.2 + 1)).toList
    (before.1 ++ opened,before.2 + opened.length)

/-- The open scopes and the number of scopes opened so far, after semi-expressions. -/
def scopesAfter (options : RuleOptions) (units : List Semi) (before : List Frame × Nat) : List Frame × Nat :=
  units.foldl (fun scopes unit => (roleOf options unit.tokens).scopes unit scopes) before

namespace Repository

/-- The open scopes and the number of scopes opened so far. -/
def scopes (r : Repository) : List Frame × Nat := (r.stack.items,r.scopeCount)

/-- The repository after the tracking rules saw the semi-expressions of a file. -/
def tracked (options : RuleOptions) (units : List Semi) (r : Repository) : Repository :=
  units.foldl (fun r unit => (roleOf options unit.tokens).track unit r) r

theorem scopes_leave (semi : Semi) (r : Repository) : (r.leave semi).scopes = Role.closes.scopes semi r.scopes := by
  simp only [scopes,Role.scopes,leave_items,(leave_scopes r semi).1]

theorem scopes_declare (role : Role) (semi : Semi) (r : Repository) :
    (role.declare semi r).scopes = role.scopes semi r.scopes := by
  by_cases closing : role = .closes
  · subst closing
    exact scopes_leave semi r
  · obtain ⟨items,count⟩ := declare_scopes closing semi r
    rw [scopes,items,count]
    unfold Role.scopes
    split
    · exact absurd rfl closing
    · rfl

theorem scopes_track (role : Role) (semi : Semi) (r : Repository) :
    (role.track semi r).scopes = role.scopes semi r.scopes := by
  cases role with
  | opens kind first more => rfl
  | declares kind name => rfl
  | closes => exact scopes_leave semi r
  | binds name first more => simp [Role.track,Role.scopes,Role.frame?]
  | delegates name => simp [Role.track,Role.scopes,Role.frame?]
  | plain => simp [Role.track,Role.scopes,Role.frame?]

/-- Steps that treat the scopes as the roles say do so over all semi-expressions. -/
theorem scopes_foldl {options : RuleOptions} {step : Semi → Repository → Repository}
    (kept : ∀ unit r, (step unit r).scopes = (roleOf options unit.tokens).scopes unit r.scopes) (units : List Semi) :
    ∀ r : Repository, (units.foldl (fun r unit => step unit r) r).scopes = scopesAfter options units r.scopes := by
  induction units with
  | nil => intro r; rfl
  | cons unit units ih =>
    intro r
    rw [List.foldl_cons,ih,kept]
    rfl

theorem scopes_declared (options : RuleOptions) (units : List Semi) (r : Repository) :
    (r.declared options units).scopes = scopesAfter options units r.scopes :=
  scopes_foldl (fun unit => scopes_declare (roleOf options unit.tokens) unit) units r

theorem scopes_tracked (options : RuleOptions) (units : List Semi) (r : Repository) :
    (r.tracked options units).scopes = scopesAfter options units r.scopes :=
  scopes_foldl (fun unit => scopes_track (roleOf options unit.tokens) unit) units r

end Repository

theorem offerAll_tracking (options : RuleOptions) (units : List Semi) (line : Int) (r : Repository) :
    offerAll options [.tracking] units line r =
      (none,(units.getLast?.map (·.line)).getD line,r.tracked options units) :=
  offerAll_steps (fun unit r => by simp only [applyAll,tracking_apply]) units line r

/-- The same scopes, as they were opened, and as many opened so far. -/
structure SameOpened (left right : List Frame × Nat) : Prop where
  frames : left.1.map Frame.opened = right.1.map Frame.opened
  count : left.2 = right.2

variable {left right : List Frame × Nat}

theorem SameOpened.scopes (same : SameOpened left right) (role : Role) (semi : Semi) :
    SameOpened (role.scopes semi left) (role.scopes semi right) := by
  obtain ⟨frames,count⟩ := same
  unfold Role.scopes
  split
  · exact ⟨by rw [List.map_dropLast,List.map_dropLast,frames],count⟩
  · constructor
    · simp only [List.map_append,frames,count]
    · simp only [count]

theorem SameOpened.scopesAfter (options : RuleOptions) (units : List Semi) :
    ∀ {left right : List Frame × Nat}, SameOpened left right →
      SameOpened (scopesAfter options units left) (scopesAfter options units right) := by
  induction units with
  | nil => exact fun same => same
  | cons unit units ih => exact fun same => ih (same.scopes (roleOf options unit.tokens) unit)

/-- Whatever semi-expressions come and whatever the rules are told, the declaring and the tracking rules go through
them without a failure, and when they start with the same scopes, they have the same scopes after every one: each
open scope has the same kind, name, path, first line and count in both, and as many have been opened. -/
theorem passes_share_scopes (options : RuleOptions) (units : List Semi) {r q : Repository}
    (frames : r.stack.items.map Frame.opened = q.stack.items.map Frame.opened) (count : r.scopeCount = q.scopeCount) :
    ∀ i, ∃ line r' q', offerAll options [.declaring] (units.take i) 0 r = (none,line,r') ∧
      offerAll options [.tracking] (units.take i) 0 q = (none,line,q') ∧
        r'.stack.items.map Frame.opened = q'.stack.items.map Frame.opened ∧ r'.scopeCount = q'.scopeCount := by
  intro i
  have start : SameOpened r.scopes q.scopes := ⟨frames,count⟩
  have after := start.scopesAfter options (units.take i)
  rw [← Repository.scopes_declared,← Repository.scopes_tracked] at after
  exact ⟨_,_,_,offerAll_declaring options (units.take i) 0 r,offerAll_tracking options (units.take i) 0 q,
    after.frames,after.count⟩

/-- A repository in which a namespace is open, with its declaration. -/
def openSpace : Repository where
  file := "a.cs"
  stack := { items := [⟨.space,"N",["N"],1,0,1,0⟩] }
  scopeCount := 1
  locations := [{ kind := .space, name := "N", file := "a.cs", beginLine := 1, beginScopes := 1 }]
  nextSerial := 1

/-- The same scope in a repository that knows no declaration and closed another scope before. -/
def openSpaceAlone : Repository where
  file := "b.cs"
  stack := { items := [⟨.space,"N",["N"],1,7,1,3⟩], lastPopped := some ⟨.control,"anonymous",["anonymous"],1,1,2,2⟩ }
  scopeCount := 1

theorem passes_share_scopes_nested :
    openSpace.stack.items.map Frame.opened = openSpaceAlone.stack.items.map Frame.opened ∧
      openSpace.scopeCount = openSpaceAlone.scopeCount ∧
        ∀ i, ∃ line r' q', offerAll .standard [.declaring] (nestedUnits.take i) 0 openSpace = (none,line,r') ∧
          offerAll .standard [.tracking] (nestedUnits.take i) 0 openSpaceAlone = (none,line,q') ∧
            r'.stack.items.map Frame.opened = q'.stack.items.map Frame.opened ∧ r'.scopeCount = q'.scopeCount :=
  have frames : openSpace.stack.items.map Frame.opened = openSpaceAlone.stack.items.map Frame.opened := by decide
  ⟨frames,rfl,passes_share_scopes .standard nestedUnits frames rfl⟩

end Depends
