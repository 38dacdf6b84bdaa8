import Depends.Proofs.Scope.Nesting
import Mathlib.Data.List.Forall2
import Mathlib.Data.List.Nodup

/-!
How far declarations reach. A declaration is recorded together with a scope, and it gets its end when that very scope
is closed, by the semi-expression that takes it off the stack (`ClosedAt`) or at the end of the file (`LeftOpen`),
however the braces stand and however often a kind and a name occur. A delegate has no scope and ends where it begins.
So every declaration of a text stands on lines of the text, and its counts tell how many scopes were opened in it
(`extents_of_text`).
-/
namespace Depends

/-! ### What is recorded, and with which scope -/

/-- Semi-expressions with the role record a declaration. -/
def Role.records : Role → Bool
  | opens kind _ _ => kind != .control
  | declares _ _ => true
  | delegates _ => true
  | _ => false

/-- The positions of the semi-expressions that record a declaration. -/
def recordings (options : RuleOptions) (units : List Semi) : List Nat :=
  (List.range units.length).filter fun i => units[i]?.any fun unit => (roleOf options unit.tokens).records

/-- What a role does to the recorded declarations when it closes no scope. -/
inductive Role.Recording (semi : Semi) (r : Repository) (role : Role) : Prop
  | nothing : role.records = false → (role.declare semi r).locations = r.locations → Recording semi r role
  | bodiless {name : String} : role.records = true →
      (role.declare semi r).locations = r.locations ++ [{ r.bodiless semi name with serial := r.nextSerial }] →
        Recording semi r role
  | scoped {frame : Frame} {d : Declaration} : role.records = true → role.frame? semi (r.scopeCount + 1) = some frame →
      d.key = frame.key → d.endLine = 0 → (role.declare semi r).locations = r.locations ++ [d] → Recording semi r role

theorem Role.recording {role : Role} (still : role ≠ .closes) (semi : Semi) (r : Repository) :
    role.Recording semi r := by
  cases role with
  | binds name first more => exact .nothing rfl rfl
  | plain => exact .nothing rfl rfl
  | closes => exact absurd rfl still
  | delegates name => exact .bodiless rfl rfl
  | declares kind name =>
    exact .scoped (d := { r.beginning semi kind name with serial := r.nextSerial }) rfl rfl rfl rfl rfl
  | opens kind first more =>
    by_cases control : kind = .control
    · subst control
      exact .nothing rfl rfl
    · refine .scoped (d := { r.beginning semi kind (Text.join "." (first :: more)) with serial := r.nextSerial })
        (bne_iff_ne.mpr control) rfl rfl rfl ?_
      simp only [Role.declare,control,↓reduceIte]
      rfl

variable {options : RuleOptions} {units : List Semi} {i : Nat}

theorem recordings_snoc (options : RuleOptions) (units : List Semi) (unit : Semi) :
    recordings options (units ++ [unit]) =
      recordings options units ++ if (roleOf options unit.tokens).records then [units.length] else [] := by
  unfold recordings
  rw [List.length_append,List.length_singleton,List.range_succ,List.filter_append]
  congr 1
  · refine List.filter_congr fun i member => ?_
    rw [List.getElem?_append_left (List.mem_range.mp member)]
  · simp [List.filter_cons]

theorem frameAt_eq_some {frame : Frame} (framed : frameAt options units i = some frame) :
    ∃ unit, units[i]? = some unit ∧ unit.opensScope = true ∧ frame.beginLine = unit.start ∧
      frame.beginScopes = (units.take (i + 1)).countP Semi.opensScope := by
  obtain ⟨unit,here,made⟩ := Option.bind_eq_some_iff.mp framed
  refine ⟨unit,here,?_,?_⟩
  · rcases roleOf_nests options unit with ⟨opening,-⟩ | ⟨-,-,closes⟩ | ⟨-,-,-,frameless⟩
    · exact opening
    · rw [closes] at made
      cases made
    · rw [frameless] at made
      cases made
  · cases role : roleOf options unit.tokens with
    | opens kind first more =>
      rw [role] at made
      cases made
      exact ⟨rfl,rfl⟩
    | declares kind name =>
      rw [role] at made
      cases made
      exact ⟨rfl,rfl⟩
    | _ =>
      rw [role] at made
      cases made

theorem countP_take_succ {unit : Semi} (here : units[i]? = some unit) (opening : unit.opensScope = true) :
    (units.take (i + 1)).countP Semi.opensScope = (units.take i).countP Semi.opensScope + 1 := by
  simp [List.take_add_one,here,opening]

/-- Scopes of different semi-expressions have different counts. -/
theorem frameAt_injective {j : Nat} {frame other : Frame} (framed : frameAt options units i = some frame)
    (framed' : frameAt options units j = some other) (same : frame.beginScopes = other.beginScopes) : i = j := by
  obtain ⟨unit,here,opening,-,count⟩ := frameAt_eq_some framed
  obtain ⟨unit',here',opening',-,count'⟩ := frameAt_eq_some framed'
  have first := countP_take_succ here opening
  have second := countP_take_succ here' opening'
  have grows : ∀ {a b : Nat}, a ≤ b →
      (units.take a).countP Semi.opensScope ≤ (units.take b).countP Semi.opensScope :=
    fun le => (List.take_sublist_take_left le).countP_le
  rcases Nat.lt_trichotomy i j with before | equal | behind
  · have := grows (show i + 1 ≤ j from before)
    omega
  · exact equal
  · have := grows (show j + 1 ≤ i from behind)
    omega

/-- From a semi-expression that opens a scope on, as many scopes are opened as the counts say. -/
theorem countP_drop {unit : Semi} (here : units[i]? = some unit) (opening : unit.opensScope = true) :
    (units.countP Semi.opensScope : Int) - (units.take (i + 1)).countP Semi.opensScope + 1 =
      (units.drop i).countP Semi.opensScope := by
  have step := countP_take_succ here opening
  have parts : (units.take i).countP Semi.opensScope + (units.drop i).countP Semi.opensScope =
      units.countP Semi.opensScope := by
    rw [← List.countP_append,List.take_append_drop]
  omega

/-! ### The end that a scope gives its declaration -/

namespace Repository

variable {r q : Repository}

/-- The declarations after the end of the one with a serial is filled in. -/
def fillIn (serial : Nat) (line scopes : Int) (d : Declaration) : Declaration :=
  if d.serial = serial then d.closeAt line scopes else d

theorem Matched.eq_of_serial (matched : r.Matched) {d e : Declaration} (member : d ∈ r.locations)
    (listed : e ∈ r.locations) (same : d.serial = e.serial) : d = e :=
  List.inj_on_of_nodup_map matched.distinct member listed same

/-- Closing the innermost scope fills in the declaration recorded with it, if it has one. -/
theorem Matched.popScope_fills (matched : r.Matched) {items : List Frame} {frame : Frame}
    (top : r.stack.items = items ++ [frame]) {line : Int} {closed : Frame} (popped : r.popScope line = .ok (closed,q)) :
    q.scopeCount = r.scopeCount ∧
      (q.locations = r.locations ∨ ∃ d ∈ r.locations, d.endLine = 0 ∧ d.key = frame.key ∧
        q.locations = r.locations.map (fillIn d.serial line r.scopeCount)) := by
  unfold Repository.popScope at popped
  rw [pop_items top] at popped
  dsimp only at popped
  by_cases kind : frame.kind = .control
  · rw [matched.openFor?_control kind line r.scopeCount] at popped
    cases popped
    exact ⟨rfl,.inl rfl⟩
  · obtain ⟨before,d,opened,key,-,found⟩ := matched.openFor?_top top kind line r.scopeCount
    rw [found] at popped
    cases popped
    have inside : d ∈ r.openDeclarations := by rw [opened]; simp
    obtain ⟨member,endless⟩ := List.mem_filter.mp inside
    exact ⟨rfl,.inr ⟨d,member,by simpa using endless,key,rfl⟩⟩

/-- Closing all scopes fills in all open declarations alike. -/
theorem Matched.closeScopes_fills {line : Int} (ended : line ≠ 0) (count : Nat) :
    ∀ r : Repository, r.Matched → r.stack.items.length = count → (r.closeScopes line count).locations =
      r.locations.map fun d => if d.endLine = 0 then d.closeAt line r.scopeCount else d := by
  induction count with
  | zero =>
    intro r matched empty
    have closed := matched.allClosed (List.length_eq_zero_iff.mp empty)
    refine (List.map_id _).symm.trans (List.map_congr_left fun d member => ?_)
    rw [if_neg (closed d member)]
    rfl
  | succ count ih =>
    intro r matched size
    obtain ⟨items,frame,top⟩ := List.eq_nil_or_concat r.stack.items |>.resolve_left fun empty => by simp [empty] at size
    rw [List.concat_eq_append] at top
    have step : ∀ q : Repository, q.Matched → q.stack.items = items ++ [frame] →
        ∃ closed after, q.popScope line = .ok (closed,after) ∧ (after.closeScopes line count).locations =
          q.locations.map fun d => if d.endLine = 0 then d.closeAt line q.scopeCount else d := by
      intro q kept same
      obtain ⟨closed,after,popped,matchedAfter,left,-⟩ := kept.popScope same ended
      refine ⟨closed,after,popped,?_⟩
      rw [ih after matchedAfter (by simpa [top,left] using size)]
      obtain ⟨scopes,filled⟩ := kept.popScope_fills same popped
      rw [scopes]
      rcases filled with unchanged | ⟨d,member,endless,-,changed⟩
      · rw [unchanged]
      · rw [changed,List.map_map]
        refine List.map_congr_left fun e listed => ?_
        simp only [Function.comp_apply,fillIn]
        split
        · rename_i serial
          rw [kept.eq_of_serial listed member serial]
          simp [endless,ended]
        · rfl
    unfold Repository.closeScopes
    split
    · obtain ⟨closed,after,popped,filled⟩ := step (r.note .scopeLeftOpen) (matched.congr rfl rfl rfl rfl) top
      dsimp only
      rw [popped]
      exact filled
    · obtain ⟨closed,after,popped,filled⟩ := step r matched top
      dsimp only
      rw [popped]
      exact filled

end Repository

/-! ### Extents -/

/-- The declaration was recorded with the scope that the semi-expression at the first position opened, and got its end
when the one at the second position took that scope off the stack: the scope popped there has this end. The counts
tell the number of scopes opened from the first position to the second. -/
structure ClosedAt (options : RuleOptions) (path : String) (r : Repository) (units : List Semi) (i j : Nat)
    (d : Declaration) : Prop where
  behind : i < j
  line : ∃ unit, units[j]? = some unit ∧ d.endLine = unit.line
  popped : ∃ frame below, frameAt options units i = some frame ∧ d.key = frame.key ∧
    (r.upTo options [.declaring] path (units.take j)).stack.items = below ++ [frame] ∧
      (r.upTo options [.declaring] path (units.take (j + 1))).stack =
        { items := below, lastPopped := some { frame with endLine := d.endLine, endScopes := d.endScopes } }
  scopes : d.endScopes - d.beginScopes + 1 = ((units.take (j + 1)).drop i).countP Semi.opensScope

/-- The declaration was recorded with the scope that the semi-expression at a position opened, and got its end when
the file ended with that scope on the stack. -/
structure LeftOpen (options : RuleOptions) (path : String) (r : Repository) (units : List Semi) (i : Nat)
    (d : Declaration) : Prop where
  line : ∃ unit, units.getLast? = some unit ∧ d.endLine = unit.line
  frame : ∃ frame ∈ (r.upTo options [.declaring] path units).stack.items,
    frameAt options units i = some frame ∧ d.key = frame.key
  count : d.endScopes = (r.upTo options [.declaring] path units).scopeCount
  scopes : d.endScopes - d.beginScopes + 1 = (units.drop i).countP Semi.opensScope

/-- The declaration of a delegate by the semi-expression at a position. -/
structure Bodiless (units : List Semi) (i : Nat) (d : Declaration) : Prop where
  kind : d.kind = .delegateType
  lines : ∃ unit, units[i]? = some unit ∧ d.beginLine = unit.start ∧ d.endLine = unit.start

/-- How far a declaration reaches that the semi-expression at a position recorded. -/
inductive Extent (options : RuleOptions) (path : String) (r : Repository) (units : List Semi) (i : Nat)
    (d : Declaration) : Prop
  | delegate : Bodiless units i d → Extent options path r units i d
  | closed {j : Nat} : ClosedAt options path r units i j d → Extent options path r units i d
  | unclosed : LeftOpen options path r units i d → Extent options path r units i d

/-- How far a declaration reaches while the file is still read: an open one waits for its scope. -/
inductive Progress (options : RuleOptions) (path : String) (r : Repository) (units : List Semi) (i : Nat)
    (d : Declaration) : Prop
  | delegate : Bodiless units i d → Progress options path r units i d
  | closed {j : Nat} : ClosedAt options path r units i j d → Progress options path r units i d
  | waiting {frame : Frame} : d.endLine = 0 → frameAt options units i = some frame → d.key = frame.key →
      Progress options path r units i d

variable {path : String} {r : Repository} {d : Declaration} {j : Nat}

theorem lt_length_of_frameAt {frame : Frame} (framed : frameAt options units i = some frame) : i < units.length := by
  obtain ⟨unit,here,-⟩ := frameAt_eq_some framed
  exact (List.getElem?_eq_some_iff.mp here).1

theorem ClosedAt.append (closed : ClosedAt options path r units i j d) (more : List Semi) :
    ClosedAt options path r (units ++ more) i j d := by
  obtain ⟨behind,⟨unit,here,line⟩,⟨frame,below,framed,key,before,after⟩,scopes⟩ := closed
  have inside : j < units.length := (List.getElem?_eq_some_iff.mp here).1
  refine ⟨behind,⟨unit,?_,line⟩,⟨frame,below,?_,key,?_,?_⟩,?_⟩
  · rw [List.getElem?_append_left inside,here]
  · rw [frameAt_append options more (Nat.lt_trans behind inside),framed]
  · rw [List.take_append_of_le_length (Nat.le_of_lt inside),before]
  · rw [List.take_append_of_le_length inside,after]
  · rw [List.take_append_of_le_length inside,scopes]

theorem Progress.append (progress : Progress options path r units i d) (more : List Semi) :
    Progress options path r (units ++ more) i d := by
  cases progress with
  | delegate bodiless =>
    obtain ⟨kind,unit,here,begins,ends⟩ := bodiless
    have inside : i < units.length := (List.getElem?_eq_some_iff.mp here).1
    exact .delegate ⟨kind,unit,by rw [List.getElem?_append_left inside,here],begins,ends⟩
  | closed closed => exact .closed (closed.append more)
  | waiting endless framed key =>
    exact .waiting endless (by rw [frameAt_append options more (lt_length_of_frameAt framed),framed]) key

/-- The semi-expression that takes the scope of a declaration off the stack closes the declaration. -/
theorem ClosedAt.of_top {unit : Semi} {frame : Frame} {below : List Frame} (role : roleOf options unit.tokens = .closes)
    (framed : frameAt options units i = some frame) (key : d.key = frame.key)
    (top : ((r.beginFile path).declared options units).stack.items = below ++ [frame]) :
    ClosedAt options path r (units ++ [unit]) i units.length
      (d.closeAt unit.line ((r.beginFile path).declared options units).scopeCount) := by
  have inside := lt_length_of_frameAt framed
  obtain ⟨opener,here,opening,-,count⟩ := frameAt_eq_some framed
  obtain ⟨-,-,-,total⟩ := declared_scopes options path r units
  have still : unit.opensScope = false := by
    rcases roleOf_nests options unit with ⟨-,opened⟩ | ⟨plain,-⟩ | ⟨plain,-⟩
    · have none := opened 0
      rw [role] at none
      cases none
    · exact plain
    · exact plain
  have whole : (units ++ [unit]).take (units.length + 1) = units ++ [unit] := List.take_of_length_le (by simp)
  refine ⟨inside,⟨unit,by simp,rfl⟩,⟨frame,below,?_,key,?_,?_⟩,?_⟩
  · rw [frameAt_append options [unit] inside,framed]
  · rw [List.take_left,upTo_declaring,top]
  · rw [whole,upTo_declaring,Repository.declared_snoc,role,Role.declare,(Repository.leave_scopes _ unit).2,
      Repository.pop_items top]
    rfl
  · have opened := congrArg (fun key => key.2.2.2) key
    simp only [Declaration.key,Frame.key] at opened
    simp only [Declaration.closeAt,opened,count,total]
    rw [countP_drop here opening,whole,List.drop_append_of_le_length (Nat.le_of_lt inside),List.countP_append]
    simp [still]

/-- A scope on the stack is known by what ties it to its declaration: its count is that of one semi-expression. -/
theorem frame_eq_of_key {frame other : Frame} (framed : frameAt options units i = some frame)
    (member : other ∈ ((r.beginFile path).declared options units).stack.items) (key : other.key = frame.key) :
    other = frame := by
  obtain ⟨positions,-,frames,-⟩ := declared_scopes options path r units
  have listed : some other ∈ positions.map (frameAt options units) := by
    rw [← frames]
    exact List.mem_map_of_mem member
  obtain ⟨k,-,framed'⟩ := List.mem_map.mp listed
  have counts := congrArg (fun key => key.2.2.2) key
  obtain rfl := frameAt_injective framed' framed counts
  exact Option.some.inj (framed'.symm.trans framed)

/-- A declaration that has no end waits for its scope. -/
theorem Progress.waits (progress : Progress options path r units i d) (placed : ∀ unit ∈ units, unit.Placed path)
    (endless : d.endLine = 0) : ∃ frame, frameAt options units i = some frame ∧ d.key = frame.key := by
  cases progress with
  | delegate bodiless =>
    obtain ⟨-,unit,here,-,ends⟩ := bodiless
    exact absurd (ends.symm.trans endless) (placed unit (List.mem_of_getElem? here)).start
  | closed closed =>
    obtain ⟨-,⟨unit,here,line⟩,-,-⟩ := closed
    exact absurd (line.symm.trans endless) (placed unit (List.mem_of_getElem? here)).line
  | waiting _ framed key => exact ⟨_,framed,key⟩

/-- A semi-expression that closes a scope closes the declaration recorded with that scope, and no other one. -/
theorem Progress.leave (placed : ∀ other ∈ units, other.Placed path) {unit : Semi}
    (role : roleOf options unit.tokens = .closes) (matched : ((r.beginFile path).declared options units).Matched)
    (progress : List.Forall₂ (Progress options path r units) (recordings options units)
      ((r.beginFile path).declared options units).locations) :
    List.Forall₂ (Progress options path r (units ++ [unit])) (recordings options units)
      (((r.beginFile path).declared options units).leave unit).locations := by
  have still : List.Forall₂ (Progress options path r (units ++ [unit])) (recordings options units)
      ((r.beginFile path).declared options units).locations :=
    progress.imp fun i d before => before.append [unit]
  unfold Repository.leave Action.closeScopeOn
  split
  · exact still
  · rename_i popped
    rcases List.eq_nil_or_concat ((r.beginFile path).declared options units).stack.items with empty | ⟨below,frame,top⟩
    · simp [Repository.popScope,Stack.pop,empty] at popped
    · rw [List.concat_eq_append] at top
      obtain ⟨-,unchanged | ⟨d,member,endless,key,changed⟩⟩ := matched.popScope_fills top popped
      · rw [unchanged]
        exact still
      · rw [changed,List.forall₂_map_right_iff]
        rw [List.forall₂_iff_zip] at progress ⊢
        refine ⟨progress.1,fun {i e} listed => ?_⟩
        have before := progress.2 listed
        unfold Repository.fillIn
        split
        · -- The declaration that was found is the one whose scope is on top.
          rename_i serial
          obtain rfl := matched.eq_of_serial (List.of_mem_zip listed).2 member serial
          obtain ⟨own,framed,ownKey⟩ := before.waits placed endless
          have onTop : frame ∈ ((r.beginFile path).declared options units).stack.items := by simp [top]
          obtain rfl := frame_eq_of_key framed onTop (key.symm.trans ownKey)
          exact .closed (.of_top role framed ownKey top)
        · exact before.append [unit]

theorem declared_progress (options : RuleOptions) (path : String) (r : Repository) (empty : r.locations = [])
    (units : List Semi) (placed : ∀ unit ∈ units, unit.Placed path) :
    List.Forall₂ (Progress options path r units) (recordings options units)
      ((r.beginFile path).declared options units).locations := by
  induction units using List.reverseRecOn with
  | nil =>
    rw [show ((r.beginFile path).declared options []).locations = r.locations from rfl,empty]
    exact .nil
  | append_singleton units unit ih =>
    rw [List.forall_mem_append,List.forall_mem_singleton] at placed
    have before := ih placed.1
    have matched := Repository.Matched.declared options units (r.beginFile path) (.begin r path empty) placed.1
    rw [Repository.declared_snoc,recordings_snoc]
    by_cases closing : roleOf options unit.tokens = .closes
    · rw [closing]
      simp only [Role.records,Bool.false_eq_true,↓reduceIte,List.append_nil]
      exact Progress.leave placed.1 closing matched before
    · have still := before.imp fun i d (before : Progress options path r units i d) => before.append [unit]
      rcases Role.recording closing unit ((r.beginFile path).declared options units) with
        ⟨none,same⟩ | ⟨some,more⟩ | ⟨some,framed,key,endless,more⟩
      · rw [none,same]
        simpa using still
      · rw [some,more]
        refine List.rel_append still (.cons (.delegate ⟨rfl,unit,by simp,rfl,rfl⟩) .nil)
      · rw [some,more]
        refine List.rel_append still (.cons (.waiting endless ?_ key) .nil)
        obtain ⟨-,-,-,count⟩ := declared_scopes options path r (units ++ [unit])
        obtain ⟨-,counted⟩ := Repository.declare_scopes closing unit ((r.beginFile path).declared options units)
        rw [frameAt_last,← count,Repository.declared_snoc,counted,framed]
        exact framed

/-- At the end of the file every declaration has its end from the scope that it was recorded with. -/
theorem read_extents (options : RuleOptions) (path : String) (r : Repository) (empty : r.locations = [])
    (units : List Semi) (placed : ∀ unit ∈ units, unit.Placed path) :
    List.Forall₂ (Extent options path r units) (recordings options units)
      (readUnits options [.declaring] path units r).2.locations := by
  have progress := declared_progress options path r empty units placed
  have matched := Repository.Matched.declared options units (r.beginFile path) (.begin r path empty) placed
  rw [readUnits_declaring]
  cases last : units.getLast? with
  | none =>
    obtain rfl := List.getLast?_eq_none_iff.mp last
    rw [show (((r.beginFile path).declared options []).endFile _).locations = r.locations from rfl,empty]
    exact .nil
  | some unit =>
    have ended := (placed unit (List.mem_of_getLast? last)).line
    have filled := Repository.Matched.closeScopes_fills ended _ _ matched rfl
    change List.Forall₂ _ _ (Repository.closeScopes unit.line _ ((r.beginFile path).declared options units)).locations
    rw [filled,List.forall₂_map_right_iff]
    rw [List.forall₂_iff_zip] at progress ⊢
    refine ⟨progress.1,fun {i d} listed => ?_⟩
    have before := progress.2 listed
    split
    · rename_i endless
      obtain ⟨frame,framed,key⟩ := before.waits placed endless
      -- An open declaration has its scope on the stack.
      have waiting : d.key ∈ ((r.beginFile path).declared options units).declaredFrames.map Frame.key := by
        rw [← matched.matched]
        exact List.mem_map_of_mem (List.mem_filter.mpr ⟨(List.of_mem_zip listed).2,by simpa using endless⟩)
      obtain ⟨other,inside,otherKey⟩ := List.mem_map.mp waiting
      have member := (List.mem_filter.mp inside).1
      obtain rfl := frame_eq_of_key framed member (otherKey.trans key)
      obtain ⟨opener,here,opening,-,count⟩ := frameAt_eq_some framed
      obtain ⟨-,-,-,total⟩ := declared_scopes options path r units
      have opened := congrArg (fun key => key.2.2.2) key
      simp only [Declaration.key,Frame.key] at opened
      refine .unclosed ⟨⟨unit,last,rfl⟩,⟨other,?_,framed,key⟩,?_,?_⟩
      · rw [upTo_declaring]
        exact member
      · rw [upTo_declaring]
        rfl
      · simp only [Declaration.closeAt,opened,count,total]
        exact countP_drop here opening
    · rename_i ends
      cases before with
      | delegate bodiless => exact .delegate bodiless
      | closed closed => exact .closed closed
      | waiting endless _ _ => exact absurd endless ends

/-! ### Lines of the text -/

/-- The semi-expression that recorded a declaration gives its first line, and the last one is that of a
semi-expression which did not come earlier, save for a delegate. -/
theorem Extent.span (extent : Extent options path r units i d) :
    ∃ opener, units[i]? = some opener ∧ d.beginLine = opener.start ∧
      (d.endLine = opener.start ∨ ∃ j closer, i ≤ j ∧ units[j]? = some closer ∧ d.endLine = closer.line) := by
  have beginning : ∀ {frame : Frame}, frameAt options units i = some frame → d.key = frame.key →
      ∃ opener, units[i]? = some opener ∧ d.beginLine = opener.start := by
    intro frame framed key
    obtain ⟨opener,here,-,line,-⟩ := frameAt_eq_some framed
    have same := congrArg (fun key => key.2.2.1) key
    exact ⟨opener,here,same.trans line⟩
  cases extent with
  | delegate bodiless =>
    obtain ⟨-,unit,here,begins,ends⟩ := bodiless
    exact ⟨unit,here,begins,.inl ends⟩
  | closed closed =>
    obtain ⟨behind,⟨closer,there,line⟩,⟨frame,_,framed,key,-,-⟩,-⟩ := closed
    obtain ⟨opener,here,begins⟩ := beginning framed key
    exact ⟨opener,here,begins,.inr ⟨_,closer,Nat.le_of_lt behind,there,line⟩⟩
  | unclosed left =>
    obtain ⟨⟨closer,final,line⟩,⟨frame,-,framed,key⟩,-,-⟩ := left
    obtain ⟨opener,here,begins⟩ := beginning framed key
    have inside := lt_length_of_frameAt framed
    rw [List.getLast?_eq_getElem?] at final
    exact ⟨opener,here,begins,.inr ⟨_,closer,by omega,final,line⟩⟩

/-- An extent lies between the first line and the last semi-expression. -/
theorem Extent.lines {first : Int} (ordered : Semi.Ordered first units) (extent : Extent options path r units i d) :
    first ≤ d.beginLine ∧ d.beginLine ≤ d.endLine ∧ ∃ last, units.getLast? = some last ∧ d.endLine ≤ last.line := by
  obtain ⟨opener,here,begins,ends⟩ := extent.span
  have member := List.mem_of_getElem? here
  have low := ordered.begins opener member
  have high := ordered.ends opener member
  obtain ⟨last,final⟩ : ∃ last, units.getLast? = some last :=
    Option.ne_none_iff_exists'.mp fun empty => by simp [List.getLast?_eq_none_iff.mp empty] at here
  refine ⟨begins ▸ low,?_,last,final,?_⟩
  · rcases ends with ends | ⟨j,closer,behind,there,ends⟩
    · exact Int.le_of_eq (begins.trans ends.symm)
    · rw [begins,ends]
      exact Int.le_trans high (ordered.line_le here there behind)
  · rcases ends with ends | ⟨j,closer,-,there,ends⟩
    · rw [ends]
      exact Int.le_trans high (ordered.line_le_last here final)
    · rw [ends]
      exact ordered.line_le_last there final

/-- The declarations of a text, in order: each reaches as far as the scope that it was recorded with, and on lines of
the text. -/
theorem extents_of_text (lex : Lexicon) (options : RuleOptions) (path : String) (text : List Char) (serial : Nat) :
    let units := semis lex path text
    let outcome := readUnits options [.declaring] path units { nextSerial := serial }
    outcome.1 = none ∧
      List.Forall₂ (Extent options path { nextSerial := serial } units) (recordings options units) outcome.2.locations ∧
        ∀ d ∈ outcome.2.locations, 1 ≤ d.beginLine ∧ d.beginLine ≤ d.endLine ∧
          ∃ last, units.getLast? = some last ∧ d.endLine ≤ last.line := by
  intro units outcome
  have extents : List.Forall₂ (Extent options path { nextSerial := serial } units) (recordings options units)
      outcome.2.locations :=
    read_extents options path { nextSerial := serial } rfl units (semis_placed lex path text)
  refine ⟨?_,extents,fun d member => ?_⟩
  · change (readUnits options [.declaring] path units { nextSerial := serial }).1 = none
    rw [readUnits_declaring]
  · obtain ⟨i,inside,rfl⟩ := List.getElem_of_mem member
    exact (extents.get (extents.length_eq ▸ inside) inside).lines (semis_ordered lex path text)

end Depends
