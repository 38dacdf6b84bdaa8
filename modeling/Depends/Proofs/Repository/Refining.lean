import Depends.Proofs.Repository.Closing
import Depends.Proofs.Repository.Tables

/-!
What closing scopes leaves alone. It fills in ends of open declarations and touches neither their sites
nor the other tables (`Refined`), and which scopes are open afterwards does not depend on the declarations
(`SameScopes`). When every declaration has its end, closing scopes changes nothing but the scopes.
-/
namespace Depends.Repository

/-- The second repository is the first one with ends of open declarations filled in, scopes and journal
apart. -/
structure Refined (r q : Repository) : Prop where
  usings : q.usings = r.usings
  aliases : q.aliases = r.aliases
  graph : q.graph = r.graph
  declarations : ∃ change : Declaration → Declaration, (∀ d, (change d).sameSite d = true) ∧
    (r.AllClosed → change = id) ∧ q.locations = r.locations.map change ∧ q.types = r.types.map change

variable {r q : Repository} {semi : Semi}

theorem Refined.of_eq (usings : q.usings = r.usings) (aliases : q.aliases = r.aliases) (graph : q.graph = r.graph)
    (locations : q.locations = r.locations) (types : q.types = r.types) : r.Refined q := by
  refine ⟨usings,aliases,graph,id,Declaration.sameSite_refl,fun _ => rfl,?_,?_⟩
  · rw [locations,List.map_id]
  · rw [types,TypeTable.map_id]

theorem Refined.locations_eq (refined : r.Refined q) (closed : r.AllClosed) : q.locations = r.locations := by
  obtain ⟨change,-,fixed,locations,-⟩ := refined.declarations
  rw [locations,fixed closed,List.map_id]

theorem Refined.types_eq (refined : r.Refined q) (closed : r.AllClosed) : q.types = r.types := by
  obtain ⟨change,-,fixed,-,types⟩ := refined.declarations
  rw [types,fixed closed,TypeTable.map_id]

theorem Refined.allClosed (refined : r.Refined q) (closed : r.AllClosed) : q.AllClosed := by
  intro d member
  rw [refined.locations_eq closed] at member
  exact closed d member

theorem Refined.trans {s : Repository} (first : r.Refined q) (second : q.Refined s) : r.Refined s := by
  obtain ⟨change,site,fixed,locations,types⟩ := first.declarations
  obtain ⟨change',site',fixed',locations',types'⟩ := second.declarations
  refine ⟨second.usings.trans first.usings,second.aliases.trans first.aliases,second.graph.trans first.graph,
    change' ∘ change,?_,?_,?_,?_⟩
  · exact fun d => Declaration.sameSite_trans (site' _) (site d)
  · intro closed
    rw [fixed closed,fixed' (first.allClosed closed)]
    rfl
  · rw [locations',locations,List.map_map]
  · rw [types',types]
    simp [TypeTable.map]

theorem Refined.popScope {line : Int} {closed : Frame} (popped : r.popScope line = .ok (closed,q)) : r.Refined q := by
  unfold Repository.popScope at popped
  split at popped
  · cases popped
  · dsimp only at popped
    split at popped
    · cases popped
      exact .of_eq rfl rfl rfl rfl rfl
    · rename_i frame stack _ d found
      cases popped
      refine ⟨rfl,rfl,rfl,_,?_,?_,rfl,rfl⟩
      · intro e
        split
        · exact Declaration.sameSite_refl e
        · exact Declaration.sameSite_refl e
      · -- A declaration is found only among the open ones.
        intro ended
        have member := List.mem_of_find?_eq_some found
        have without := List.find?_some found
        simp only [Bool.and_eq_true,beq_iff_eq] at without
        exact absurd without.1.1.1 (ended d (List.mem_reverse.mp member))

theorem Refined.leave (r : Repository) (semi : Semi) : r.Refined (r.leave semi) := by
  unfold Repository.leave Action.closeScopeOn
  split
  · exact .of_eq rfl rfl rfl rfl rfl
  · rename_i popped
    exact .popScope popped

theorem Refined.closeScopes (line : Int) (count : Nat) : ∀ r : Repository, r.Refined (r.closeScopes line count) := by
  induction count with
  | zero => exact fun r => .of_eq rfl rfl rfl rfl rfl
  | succ count ih =>
    intro r
    unfold Repository.closeScopes
    extract_lets noted
    have same : r.Refined noted := by
      unfold noted
      split <;> exact .of_eq rfl rfl rfl rfl rfl
    split
    · exact same
    · rename_i popped
      exact same.trans ((Refined.popScope popped).trans (ih _))

theorem Refined.endFile (r : Repository) (line : Int) : r.Refined (r.endFile line) :=
  (Refined.closeScopes line _ r).trans (.of_eq rfl rfl rfl rfl rfl)

/-- Keeping the scopes in step refines a repository. -/
theorem Refined.track (role : Role) (semi : Semi) (r : Repository) : r.Refined (role.track semi r) := by
  cases role with
  | opens kind first more => exact .of_eq rfl rfl rfl rfl rfl
  | declares kind name => exact .of_eq rfl rfl rfl rfl rfl
  | closes => exact .leave r semi
  | binds name first more => exact .of_eq rfl rfl rfl rfl rfl
  | delegates name => exact .of_eq rfl rfl rfl rfl rfl
  | plain => exact .of_eq rfl rfl rfl rfl rfl

/-! ### Scopes -/

/-- The same scopes are open. -/
structure SameScopes (r q : Repository) : Prop where
  stack : q.stack = r.stack
  scopeCount : q.scopeCount = r.scopeCount

theorem SameScopes.scopePath (same : r.SameScopes q) : q.scopePath = r.scopePath := by
  unfold Repository.scopePath
  rw [same.stack]

theorem SameScopes.namespacePath (same : r.SameScopes q) : q.namespacePath = r.namespacePath := by
  unfold Repository.namespacePath
  rw [same.stack]

theorem SameScopes.enter (same : r.SameScopes q) (semi : Semi) (kind : DeclKind) (first : String)
    (more : List String) : (r.enter semi kind first more).SameScopes (q.enter semi kind first more) := by
  constructor
  · simp only [Repository.enter,pushScope,same.stack,same.scopeCount]
  · simp only [Repository.enter,pushScope,same.scopeCount]

/-- Closing a scope takes it off the open ones, whatever becomes of a declaration. -/
theorem leave_scopes (r : Repository) (semi : Semi) :
    (r.leave semi).scopeCount = r.scopeCount ∧
      (r.leave semi).stack = match r.stack.pop with
        | .error _ => r.stack
        | .ok (frame,stack) =>
          { stack with lastPopped := some { frame with endLine := semi.line, endScopes := r.scopeCount } } := by
  unfold Repository.leave Action.closeScopeOn Repository.popScope
  cases r.stack.pop with
  | error failure => exact ⟨rfl,rfl⟩
  | ok popped =>
    obtain ⟨frame,stack⟩ := popped
    dsimp only
    cases r.openFor? { frame with endLine := semi.line, endScopes := r.scopeCount } with
    | none => exact ⟨rfl,rfl⟩
    | some d => exact ⟨rfl,rfl⟩

theorem SameScopes.leave (same : r.SameScopes q) (semi : Semi) : (r.leave semi).SameScopes (q.leave semi) := by
  obtain ⟨count,stack⟩ := leave_scopes r semi
  obtain ⟨count',stack'⟩ := leave_scopes q semi
  constructor
  · rw [stack,stack',same.stack,same.scopeCount]
  · rw [count,count',same.scopeCount]

theorem SameScopes.track (same : r.SameScopes q) (role : Role) (semi : Semi) :
    (role.track semi r).SameScopes (role.track semi q) := by
  cases role with
  | opens kind first more => exact same.enter semi kind first more
  | declares kind name => exact same.enter semi kind name []
  | closes => exact same.leave semi
  | binds name first more => exact same
  | delegates name => exact same
  | plain => exact same

end Depends.Repository
