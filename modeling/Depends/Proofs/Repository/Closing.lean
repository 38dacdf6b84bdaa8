import Depends.Proofs.Rule.Role
import Depends.Proofs.Semi.Lines

/-!
Open declarations and open scopes go together. While the declarations of a file are read, those without
an end stand in the order of the open scopes they belong to, statement scopes apart (`Matched`). So the
end of a scope is filled in for the declaration that was recorded with it, and at the end of the file no
declaration is left open (`declared_allClosed`).
-/
namespace Depends

/-- What ties a declaration to a scope: the kind, the name, the first line and the count of scopes. -/
def Declaration.key (d : Declaration) : DeclKind × String × Int × Int :=
  (d.kind,d.name,d.beginLine,d.beginScopes)

/-- What ties a scope to a declaration. -/
def Frame.key (f : Frame) : DeclKind × String × Int × Int := (f.kind,f.name,f.beginLine,f.beginScopes)

@[simp] theorem Declaration.closeAt_endLine (d : Declaration) (line scopes : Int) :
    (d.closeAt line scopes).endLine = line := rfl

namespace Repository

/-- The declarations without an end. -/
def openDeclarations (r : Repository) : List Declaration := r.locations.filter (·.endLine == 0)

/-- The open scopes that have a declaration. -/
def declaredFrames (r : Repository) : List Frame := r.stack.items.filter (·.kind != .control)

/-- The declarations of one file, numbered apart, with an open scope for each that has no end. -/
structure Matched (r : Repository) : Prop where
  here : ∀ d ∈ r.locations, d.file = r.file
  numbered : ∀ d ∈ r.locations, d.serial < r.nextSerial
  distinct : (r.locations.map (·.serial)).Nodup
  matched : r.openDeclarations.map Declaration.key = r.declaredFrames.map Frame.key

/-- Every declaration has an end. -/
def AllClosed (r : Repository) : Prop := ∀ d ∈ r.locations, d.endLine ≠ 0

variable {r q : Repository} {semi : Semi}

theorem Matched.congr (matched : r.Matched) (file : q.file = r.file) (locations : q.locations = r.locations)
    (next : q.nextSerial = r.nextSerial) (stack : q.stack.items = r.stack.items) : q.Matched := by
  refine ⟨?_,?_,?_,?_⟩
  · rw [locations,file]
    exact matched.here
  · rw [locations,next]
    exact matched.numbered
  · rw [locations]
    exact matched.distinct
  · have same := matched.matched
    simp only [openDeclarations,declaredFrames,locations,stack] at same ⊢
    exact same

theorem Matched.begin (r : Repository) (path : String) (empty : r.locations = []) : (r.beginFile path).Matched := by
  refine ⟨?_,?_,?_,?_⟩ <;> simp [beginFile,empty,openDeclarations,declaredFrames]

theorem Matched.announce_numbers (matched : r.Matched) (d : Declaration) (here : d.file = r.file) :
    (∀ e ∈ (r.announce d).locations, e.file = r.file) ∧
      (∀ e ∈ (r.announce d).locations, e.serial < r.nextSerial + 1) ∧
        ((r.announce d).locations.map (·.serial)).Nodup := by
  refine ⟨?_,?_,?_⟩
  · intro e member
    rcases List.mem_append.mp member with earlier | last
    · exact matched.here e earlier
    · rw [List.mem_singleton.mp last]
      exact here
  · intro e member
    rcases List.mem_append.mp member with earlier | last
    · have := matched.numbered e earlier
      omega
    · rw [List.mem_singleton.mp last]
      exact Nat.lt_succ_self _
  · simp only [announce,List.map_append,List.map_cons,List.map_nil]
    refine List.nodup_append.mpr ⟨matched.distinct,List.pairwise_singleton _ _,?_⟩
    intro serial member other last same
    obtain ⟨e,earlier,rfl⟩ := List.mem_map.mp member
    have := matched.numbered e earlier
    rw [List.mem_singleton.mp last] at same
    omega

theorem Matched.open (matched : r.Matched) (d : Declaration) (here : d.file = r.file) (endless : d.endLine = 0)
    (kind : d.kind ≠ .control) {stack : Stack Frame} {frame : Frame} (items : stack.items = r.stack.items ++ [frame])
    (same : d.key = frame.key) (count : Nat) (types : TypeTable) (journal : List Notice) :
    { r.announce d with stack, types, journal, scopeCount := count }.Matched := by
  obtain ⟨file,numbered,distinct⟩ := matched.announce_numbers d here
  refine ⟨file,numbered,distinct,?_⟩
  have stays : (frame.kind != .control) = true := by
    have first := congrArg Prod.fst same
    simp only [Declaration.key,Frame.key] at first
    rw [← first]
    exact bne_iff_ne.mpr kind
  have before := matched.matched
  simp only [openDeclarations,declaredFrames] at before ⊢
  simp only [announce,List.filter_append,List.map_append,before,items]
  simp [endless,stays,← same,Declaration.key]

theorem Matched.enlist_closed (matched : r.Matched) (d : Declaration) (here : d.file = r.file)
    (ended : d.endLine ≠ 0) : (r.enlist d).Matched := by
  obtain ⟨file,numbered,distinct⟩ := matched.announce_numbers d here
  refine ⟨file,numbered,distinct,?_⟩
  have before := matched.matched
  simp only [openDeclarations,declaredFrames] at before ⊢
  simp only [enlist,announce,List.filter_append,List.map_append,before]
  simp [ended]

/-! ### The end of a scope -/

/-- Filling in the end of a declaration that is the only one with its serial takes it off the open
ones. -/
private theorem close_filter {locations before : List Declaration} {d : Declaration} {line scopes : Int}
    (distinct : (locations.map (·.serial)).Nodup) (ended : line ≠ 0)
    (opened : locations.filter (·.endLine == 0) = before ++ [d]) :
    (locations.map fun e => if e.serial = d.serial then e.closeAt line scopes else e).filter (·.endLine == 0) =
      before := by
  have apart : ∀ e ∈ before, e.serial ≠ d.serial := by
    have parts : ((locations.filter (·.endLine == 0)).map (·.serial)).Nodup :=
      (List.filter_sublist.map _).nodup distinct
    rw [opened,List.map_append] at parts
    intro e member same
    exact (List.nodup_append.mp parts).2.2 _ (List.mem_map_of_mem member) d.serial (by simp) same
  have kept : ∀ l : List Declaration,
      (l.map fun e => if e.serial = d.serial then e.closeAt line scopes else e).filter (·.endLine == 0) =
        (l.filter (·.endLine == 0)).filter (·.serial != d.serial) := by
    intro l
    induction l with
    | nil => rfl
    | cons e l ih =>
      rw [List.map_cons]
      by_cases same : e.serial = d.serial
      · by_cases openBefore : e.endLine = 0
        · rw [if_pos same,List.filter_cons_of_neg (by simpa using ended),ih,
            List.filter_cons_of_pos (by simpa using openBefore),List.filter_cons_of_neg (by simpa using same)]
        · rw [if_pos same,List.filter_cons_of_neg (by simpa using ended),ih,
            List.filter_cons_of_neg (by simpa using openBefore)]
      · by_cases openBefore : e.endLine = 0
        · rw [if_neg same,List.filter_cons_of_pos (by simpa using openBefore),ih,
            List.filter_cons_of_pos (by simpa using openBefore),List.filter_cons_of_pos (by simpa using same)]
        · rw [if_neg same,List.filter_cons_of_neg (by simpa using openBefore),ih,
            List.filter_cons_of_neg (by simpa using openBefore)]
  rw [kept,opened,List.filter_append]
  simp only [List.filter_cons,bne_self_eq_false,Bool.false_eq_true,↓reduceIte,List.filter_nil,List.append_nil]
  exact List.filter_eq_self.mpr fun e member => bne_iff_ne.mpr (apart e member)

/-- The scope on top is the one whose declaration is the last without an end. -/
private theorem openFor?_eq {before : List Declaration} {d : Declaration} {frame : Frame}
    (opened : r.openDeclarations = before ++ [d]) (here : d.file = r.file) (kind : d.kind = frame.kind)
    (name : d.name = frame.name) : r.openFor? frame = some d := by
  have reversed : r.locations.reverse.filter (·.endLine == 0) = d :: before.reverse := by
    rw [List.filter_reverse]
    simp only [openDeclarations] at opened
    simp [opened]
  have found : (r.locations.reverse.filter (·.endLine == 0)).find?
      (fun e => e.file == r.file && e.kind == frame.kind && e.name == frame.name) = some d := by
    rw [reversed]
    simp [here,kind,name]
  rw [List.find?_filter] at found
  rw [← found]
  unfold openFor?
  congr 1
  funext e
  simp only [Bool.and_assoc,Bool.decide_and,Bool.decide_eq_true]

theorem pop_items {items : List Frame} {frame : Frame} (top : r.stack.items = items ++ [frame]) :
    r.stack.pop = .ok (frame,{ items,lastPopped := some frame }) := by
  simp [Stack.pop,top]

/-- A statement scope has no declaration: no open declaration is one of a statement. -/
theorem Matched.openFor?_control (matched : r.Matched) {frame : Frame} (kind : frame.kind = .control)
    (line scopes : Int) : r.openFor? { frame with endLine := line, endScopes := scopes } = none := by
  rw [openFor?,List.find?_eq_none]
  intro d member held
  simp only [Bool.and_eq_true,beq_iff_eq] at held
  have listed : d.key ∈ r.openDeclarations.map Declaration.key := by
    refine List.mem_map_of_mem (List.mem_filter.mpr ⟨List.mem_reverse.mp member,?_⟩)
    simpa using held.1.1.1
  rw [matched.matched] at listed
  obtain ⟨f,framed,keys⟩ := List.mem_map.mp listed
  have first := congrArg Prod.fst keys
  simp only [Declaration.key,Frame.key] at first
  have declared := (List.mem_filter.mp framed).2
  rw [first,held.1.2,kind] at declared
  simp at declared

/-- Any other scope on top has its declaration, which is the last open one and is found whatever end the scope is
given. -/
theorem Matched.openFor?_top (matched : r.Matched) {items : List Frame} {frame : Frame}
    (top : r.stack.items = items ++ [frame]) (kind : frame.kind ≠ .control) (line scopes : Int) :
    ∃ before d, r.openDeclarations = before ++ [d] ∧ d.key = frame.key ∧
      before.map Declaration.key = (items.filter (·.kind != .control)).map Frame.key ∧
        r.openFor? { frame with endLine := line, endScopes := scopes } = some d := by
  have same := matched.matched
  simp only [declaredFrames,top,List.filter_append,List.map_append] at same
  obtain ⟨before,last,opened,keys,lastKey⟩ := List.map_eq_append_iff.mp same
  have stays : (frame.kind != .control) = true := bne_iff_ne.mpr kind
  simp only [List.filter_cons,stays,↓reduceIte,List.filter_nil,List.map_cons,List.map_nil] at lastKey
  obtain ⟨d,rest,rfl,key,nothing⟩ := List.map_eq_cons_iff.mp lastKey
  rw [List.map_eq_nil_iff.mp nothing] at opened
  have member : d ∈ r.locations := by
    have inside : d ∈ r.openDeclarations := by rw [opened]; simp
    exact (List.mem_filter.mp inside).1
  have parts := key
  simp only [Declaration.key,Frame.key,Prod.mk.injEq] at parts
  exact ⟨before,d,opened,key,keys,openFor?_eq opened (matched.here d member) parts.1 parts.2.1⟩

/-- Closing the innermost scope fills in the end of its declaration, and no other one. -/
theorem Matched.popScope (matched : r.Matched) {items : List Frame} {frame : Frame}
    (top : r.stack.items = items ++ [frame]) {line : Int} (ended : line ≠ 0) :
    ∃ closed q, r.popScope line = .ok (closed,q) ∧ q.Matched ∧ q.stack.items = items ∧ q.file = r.file := by
  unfold Repository.popScope
  rw [pop_items top]
  dsimp only
  by_cases kind : frame.kind = .control
  · rw [matched.openFor?_control kind line r.scopeCount]
    refine ⟨_,_,rfl,⟨matched.here,matched.numbered,matched.distinct,?_⟩,rfl,rfl⟩
    have same := matched.matched
    simp only [declaredFrames,top,List.filter_append,List.map_append] at same
    simpa [openDeclarations,declaredFrames,kind] using same
  · obtain ⟨before,d,opened,-,keys,found⟩ := matched.openFor?_top top kind line r.scopeCount
    rw [found]
    refine ⟨_,_,rfl,⟨?_,?_,?_,?_⟩,rfl,rfl⟩
    · intro e listed
      obtain ⟨old,oldMember,rfl⟩ := List.mem_map.mp listed
      have here := matched.here old oldMember
      split <;> exact here
    · intro e listed
      obtain ⟨old,oldMember,rfl⟩ := List.mem_map.mp listed
      have bound := matched.numbered old oldMember
      split <;> exact bound
    · have serials : (r.close d.serial line r.scopeCount).locations.map (·.serial) =
          r.locations.map (·.serial) := by
        simp only [close,List.map_map]
        refine List.map_congr_left fun e _ => ?_
        simp only [Function.comp_apply]
        split <;> rfl
      exact serials ▸ matched.distinct
    · have left : (r.close d.serial line r.scopeCount).openDeclarations = before :=
        close_filter matched.distinct ended opened
      exact (congrArg (List.map Declaration.key) left).trans keys

theorem Matched.enter_control (matched : r.Matched) (semi : Semi) (first : String) (more : List String) :
    (r.enter semi .control first more).Matched := by
  refine ⟨matched.here,matched.numbered,matched.distinct,?_⟩
  have same := matched.matched
  simp only [openDeclarations,declaredFrames] at same ⊢
  simpa [enter,pushScope,Stack.push] using same

/-- A brace that closes nothing changes no scope; another one closes the innermost scope. -/
theorem Matched.leave (matched : r.Matched) (ended : semi.line ≠ 0) :
    (r.leave semi).Matched ∧ (r.leave semi).file = r.file := by
  unfold Repository.leave Action.closeScopeOn
  rcases List.eq_nil_or_concat r.stack.items with empty | ⟨items,frame,top⟩
  · have failed : ∃ failure, r.popScope semi.line = .error failure := by
      simp [Repository.popScope,Stack.pop,empty]
    obtain ⟨failure,failed⟩ := failed
    rw [failed]
    exact ⟨matched.congr rfl rfl rfl rfl,rfl⟩
  · obtain ⟨closed,q,popped,kept,-,file⟩ := matched.popScope (List.concat_eq_append ▸ top) ended
    rw [popped]
    exact ⟨kept,file⟩

end Repository

theorem roleOf_declares {options : RuleOptions} {tokens : List String} {kind : DeclKind} {name : String}
    (role : roleOf options tokens = .declares kind name) : kind ∈ typeKinds := by
  unfold roleOf at role
  split at role
  · cases role
  split at role
  · cases role
  split at role
  · rename_i header
    cases role
    exact ofLabel_typeWord (typeHeader?_word header)
  split at role
  · cases role
  split at role
  · cases role
  split at role
  · cases role
  split at role <;> cases role

namespace Repository

variable {r : Repository}

theorem Matched.declare (matched : r.Matched) (options : RuleOptions) {semi : Semi} (placed : semi.Placed r.file) :
    ((roleOf options semi.tokens).declare semi r).Matched ∧
      ((roleOf options semi.tokens).declare semi r).file = r.file := by
  cases role : roleOf options semi.tokens with
  | binds name first more => exact ⟨matched.congr rfl rfl rfl rfl,rfl⟩
  | opens kind first more =>
    by_cases control : kind = .control
    · subst control
      exact ⟨matched.enter_control semi first more,rfl⟩
    · simp only [Role.declare,control,↓reduceIte]
      exact ⟨matched.open _ placed.path rfl control rfl rfl _ _ _,rfl⟩
  | declares kind name =>
    have control : kind ≠ .control := by
      intro same
      exact absurd (same ▸ roleOf_declares role) (by decide)
    exact ⟨matched.open (r.beginning semi kind name) placed.path rfl control rfl rfl _ _ _,rfl⟩
  | delegates name =>
    exact ⟨matched.enlist_closed (r.bodiless semi name) placed.path placed.start,rfl⟩
  | closes => exact matched.leave placed.line
  | plain => exact ⟨matched,rfl⟩

/-- The repository after the declaring rules saw the semi-expressions of a file. -/
def declared (options : RuleOptions) (units : List Semi) (r : Repository) : Repository :=
  units.foldl (fun r unit => (roleOf options unit.tokens).declare unit r) r

theorem Matched.declared (options : RuleOptions) (units : List Semi) :
    ∀ r : Repository, r.Matched → (∀ unit ∈ units, unit.Placed r.file) → (r.declared options units).Matched := by
  induction units with
  | nil => exact fun _ matched _ => matched
  | cons unit units ih =>
    intro r matched placed
    obtain ⟨kept,file⟩ := matched.declare options (placed unit (List.mem_cons_self ..))
    exact ih _ kept fun other member => file ▸ placed other (List.mem_cons_of_mem _ member)

/-- With no scope open there is no open declaration. -/
theorem Matched.allClosed (matched : r.Matched) (empty : r.stack.items = []) : r.AllClosed := by
  have nothing := matched.matched
  simp only [declaredFrames,empty,List.filter_nil,List.map_nil,List.map_eq_nil_iff,openDeclarations,
    List.filter_eq_nil_iff,beq_iff_eq] at nothing
  exact nothing

/-- Closing all scopes closes all declarations. -/
theorem Matched.closeScopes {line : Int} (ended : line ≠ 0) (count : Nat) :
    ∀ r : Repository, r.Matched → r.stack.items.length = count → (r.closeScopes line count).AllClosed := by
  induction count with
  | zero => exact fun r matched empty => matched.allClosed (List.length_eq_zero_iff.mp empty)
  | succ count ih =>
    intro r matched size
    obtain ⟨items,frame,top⟩ := List.eq_nil_or_concat r.stack.items |>.resolve_left fun empty => by simp [empty] at size
    have noted : ∀ q : Repository, q.Matched → q.stack.items = items ++ [frame] →
        ∃ closed after, q.popScope line = .ok (closed,after) ∧ (after.closeScopes line count).AllClosed := by
      intro q kept same
      obtain ⟨closed,after,popped,matchedAfter,left,-⟩ := kept.popScope same ended
      refine ⟨closed,after,popped,ih after matchedAfter ?_⟩
      simpa [top,left] using size
    rw [List.concat_eq_append] at top
    unfold Repository.closeScopes
    split
    · obtain ⟨closed,after,popped,closedAll⟩ := noted (r.note .scopeLeftOpen) (matched.congr rfl rfl rfl rfl) top
      dsimp only
      rw [popped]
      exact closedAll
    · obtain ⟨closed,after,popped,closedAll⟩ := noted r matched top
      dsimp only
      rw [popped]
      exact closedAll

/-- The declarations of a file that was read to its end all have an end. -/
theorem declared_allClosed (options : RuleOptions) (path : String) {units : List Semi} (r : Repository)
    (empty : r.locations = []) (placed : ∀ unit ∈ units, unit.Placed path) :
    (((r.beginFile path).declared options units).endFile ((units.getLast?.map (·.line)).getD 0)).AllClosed := by
  have matched := Matched.declared options units (r.beginFile path) (Matched.begin r path empty) placed
  cases last : units.getLast? with
  | none =>
    rw [List.getLast?_eq_none_iff.mp last]
    intro d member
    rw [show d ∈ ((r.beginFile path).declared options [] |>.endFile _).locations ↔ d ∈ r.locations from Iff.rfl,
      empty] at member
    cases member
  | some unit =>
    exact Matched.closeScopes (placed unit (List.mem_of_getLast? last)).line _ _ matched rfl

end Repository
end Depends
