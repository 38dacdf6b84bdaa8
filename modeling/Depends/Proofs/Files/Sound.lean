import Depends.Files.Walk
import Depends.Proofs.Path.Elements
import Depends.Proofs.Text.Distinct
import Mathlib.Data.String.Basic

/-!
Sound file systems. The entries of a folder have distinct names in ascending order that can be elements of a path, and
what stands at the root is a folder. Every file system that is made from an empty one is sound (`Sound.write` and the
like). In a sound one, a simplified absolute path leads to what the tree has below the names of its elements
(`stat_ofElements`).
-/
namespace Depends

variable {name : String} {names : List String} {tree item found : Tree} {entries : List (String × Tree)}

namespace Tree

/-- The folders have distinct names in ascending order, each of which can be an element of a path. -/
inductive Sound : Tree → Prop
  | file (file : File) : Sound (.file file)
  | folder {entries : List (String × Tree)} :
      (entries.map (·.1)).Pairwise (· < ·) → (∀ entry ∈ entries, Path.IsName entry.1) →
      (∀ entry ∈ entries, entry.2.Sound) → Sound (.folder entries)

theorem Sound.empty : (Tree.folder []).Sound := .folder .nil (by simp) (by simp)

/-! ### What stands at a place -/

theorem find_append (tree : Tree) (names more : List String) :
    tree.find (names ++ more) = (tree.find names).bind (·.find more) := by
  induction names generalizing tree with
  | nil => rfl
  | cons name names ih =>
    cases tree with
    | file file => rfl
    | folder entries =>
      rw [List.cons_append,find,find]
      cases entries.lookup name with
      | none => rfl
      | some below => exact ih below

theorem nodup_names (ascending : (entries.map (·.1)).Pairwise (· < ·)) : (entries.map (·.1)).Nodup :=
  ascending.imp fun less same => by simp [same] at less

theorem Sound.lookup (sound : (Tree.folder entries).Sound) (found : entries.lookup name = some tree) :
    Path.IsName name ∧ tree.Sound := by
  cases sound with
  | folder ascending named inner =>
    have member := (lookup_eq_some_iff (nodup_names ascending)).mp found
    exact ⟨named _ member,inner _ member⟩

theorem Sound.find (sound : tree.Sound) (here : tree.find names = .ok found) :
    (∀ name ∈ names, Path.IsName name) ∧ found.Sound := by
  induction names generalizing tree with
  | nil =>
    cases here
    exact ⟨by simp,sound⟩
  | cons name names ih =>
    cases tree with
    | file file => cases here
    | folder entries =>
      rw [Tree.find] at here
      cases below : entries.lookup name with
      | none => simp [below] at here
      | some next =>
        rw [below] at here
        obtain ⟨named,inner⟩ := sound.lookup below
        obtain ⟨more,sound⟩ := ih inner here
        exact ⟨List.forall_mem_cons.mpr ⟨named,more⟩,sound⟩

/-! ### Changes -/

theorem mem_insertEntry {entry : String × Tree} (member : entry ∈ insertEntry name tree entries) :
    entry = (name,tree) ∨ entry ∈ entries := by
  induction entries with
  | nil => exact .inl (List.mem_singleton.mp member)
  | cons first entries ih =>
    rw [insertEntry] at member
    split at member
    · exact (List.mem_cons.mp member).imp_right (List.mem_cons_of_mem _)
    · split at member
      · exact List.mem_cons.mp member
      · rcases List.mem_cons.mp member with rfl | later
        · exact .inr List.mem_cons_self
        · exact (ih later).imp_right (List.mem_cons_of_mem _)

theorem pairwise_insertEntry (ascending : (entries.map (·.1)).Pairwise (· < ·)) :
    ((insertEntry name tree entries).map (·.1)).Pairwise (· < ·) := by
  induction entries with
  | nil => simp [insertEntry]
  | cons first entries ih =>
    have parts := List.pairwise_cons.mp ascending
    rw [insertEntry]
    split
    · rename_i same
      rw [beq_iff_eq] at same
      rw [List.map_cons,same]
      exact ascending
    · rename_i other
      split
      · rename_i less
        rw [List.map_cons,List.pairwise_cons]
        refine ⟨fun later member => ?_,ascending⟩
        rcases List.mem_cons.mp member with rfl | member
        · exact less
        · exact lt_trans less (parts.1 later member)
      · rename_i notLess
        rw [List.map_cons,List.pairwise_cons]
        refine ⟨fun later member => ?_,ih parts.2⟩
        obtain ⟨entry,listed,rfl⟩ := List.mem_map.mp member
        rcases mem_insertEntry listed with rfl | old
        · exact lt_of_le_of_ne (not_lt.mp notLess) fun same => other (by simp [same])
        · exact parts.1 entry.1 (List.mem_map_of_mem old)

theorem Sound.put (sound : tree.Sound) (named : ∀ name ∈ names, Path.IsName name) (whole : item.Sound) :
    (Tree.put item names tree).Sound := by
  induction names generalizing tree with
  | nil => exact whole
  | cons name names ih =>
    rw [List.forall_mem_cons] at named
    cases tree with
    | file file => exact sound
    | folder entries =>
      have below : ((entries.lookup name).getD (.folder [])).Sound := by
        cases old : entries.lookup name with
        | none => exact .empty
        | some old' => exact (sound.lookup old).2
      have inner := ih below named.2
      cases sound with
      | folder ascending names' inner' =>
        refine .folder (pairwise_insertEntry ascending) (fun entry member => ?_) fun entry member => ?_
        · rcases mem_insertEntry member with rfl | old
          · exact named.1
          · exact names' entry old
        · rcases mem_insertEntry member with rfl | old
          · exact inner
          · exact inner' entry old

theorem isFolder_put (folder : tree.isFolder = true) (filled : names = [] → item.isFolder = true) :
    (Tree.put item names tree).isFolder = true := by
  cases names with
  | nil => exact filled rfl
  | cons name names =>
    cases tree with
    | file file => cases folder
    | folder entries => rfl

/-- Changing what stands under one name leaves the names as they are. -/
theorem Sound.changed (sound : (Tree.folder entries).Sound) {change : Tree → Tree}
    (kept : ∀ tree : Tree, tree.Sound → (change tree).Sound) (name : String) :
    (Tree.folder (entries.map fun entry => if entry.1 == name then (name,change entry.2) else entry)).Sound := by
  cases sound with
  | folder ascending named inner =>
    have same : ∀ entry : String × Tree,
        (if entry.1 == name then (name,change entry.2) else entry).1 = entry.1 := by
      intro entry
      split
      · rename_i here
        exact (beq_iff_eq.mp here).symm
      · rfl
    refine .folder ?_ ?_ ?_
    · rw [List.map_map]
      exact (List.map_congr_left fun entry _ => same entry) ▸ ascending
    · rw [List.forall_mem_map]
      intro entry member
      rw [same]
      exact named entry member
    · rw [List.forall_mem_map]
      intro entry member
      split
      · exact kept _ (inner entry member)
      · exact inner entry member

theorem Sound.erase (sound : tree.Sound) (names : List String) : (Tree.erase names tree).Sound := by
  induction names generalizing tree with
  | nil => exact sound
  | cons name names ih =>
    cases tree with
    | file file => exact sound
    | folder entries =>
      cases names with
      | nil =>
        cases sound with
        | folder ascending named inner =>
          have kept : (entries.filter (·.1 != name)).Sublist entries := List.filter_sublist
          exact .folder (ascending.sublist (kept.map _)) (fun entry member => named entry (kept.subset member))
            fun entry member => inner entry (kept.subset member)
      | cons next names => exact sound.changed (fun tree whole => ih whole) name

theorem isFolder_erase (folder : tree.isFolder = true) (names : List String) :
    (Tree.erase names tree).isFolder = true := by
  cases tree with
  | file file => cases folder
  | folder entries =>
    match names with
    | [] => rfl
    | [_] => rfl
    | _ :: _ :: _ => rfl

end Tree

namespace Files

variable {files after : Files} {path : String} {file : File}

/-- The tree is sound and has a folder at its root, and the working directory is written by names. -/
structure Sound (files : Files) : Prop where
  root : files.root.Sound
  rooted : files.root.isFolder = true
  directory : ∀ name ∈ files.directory, Path.IsName name

theorem isAbsolute_workingDirectory (files : Files) : Path.isAbsolute files.workingDirectory = true :=
  Path.isAbsolute_slash _

/-- The path of a root or of any other argument, as the elements that lead to it. -/
theorem exists_absolute (files : Files) (path : String) :
    ∃ names, (∀ name ∈ names, Path.IsName name) ∧
      Path.absolute files.workingDirectory path = Path.ofElements names :=
  Path.exists_elements_absolute files.isAbsolute_workingDirectory path

/-! ### Simplified paths -/

/-- Walking names and looking at the place reached is finding them in the tree. -/
theorem walk_names {root : Tree} (named : ∀ name ∈ names, Path.IsName name) (place : List String) :
    (walk root place names).bind root.find = root.find (place ++ names) := by
  induction names generalizing place with
  | nil =>
    rw [List.append_nil]
    rfl
  | cons name names ih =>
    rw [List.forall_mem_cons] at named
    rw [Tree.find_append,walk]
    cases here : root.find place with
    | error refusal => rfl
    | ok tree =>
      cases tree with
      | file file => rfl
      | folder entries =>
        have next := ih named.2 (place ++ [name])
        rw [List.append_assoc,List.singleton_append,Tree.find_append,here] at next
        simpa [named.1.filled,named.1.noStay,named.1.noUp] using next

/-- An empty element at the root stays there. -/
theorem walk_empty {root : Tree} (rooted : root.isFolder = true) (names : List String) :
    walk root [] ("" :: names) = walk root [] names := by
  cases root with
  | file file => cases rooted
  | folder entries => rfl

theorem stat_ofElements (sound : files.Sound) (named : ∀ name ∈ names, Path.IsName name) :
    files.stat (Path.ofElements names) = files.root.find names := by
  have stat : files.stat (Path.ofElements names) = (files.locate (Path.ofElements names)).bind files.root.find := by
    rw [stat]
    cases files.locate (Path.ofElements names) <;> rfl
  have locate : files.locate (Path.ofElements names) = walk files.root [] names := by
    rw [locate]
    simp only [beq_iff_eq,Path.ofElements_ne_empty,↓reduceIte,Path.isAbsolute_ofElements,Path.split_ofElements named]
    split
    · rename_i empty
      rw [walk_empty sound.rooted,walk_empty sound.rooted,empty]
    · exact walk_empty sound.rooted names
  rw [stat,locate,walk_names named,List.nil_append]

/-- What stands below a place is found in the tree that stands there. -/
theorem stat_append {es : List String} (sound : files.Sound) (here : ∀ name ∈ es, Path.IsName name)
    (named : ∀ name ∈ names, Path.IsName name) (standing : files.stat (Path.ofElements es) = .ok tree) :
    files.stat (Path.ofElements (es ++ names)) = tree.find names := by
  rw [stat_ofElements sound here] at standing
  rw [stat_ofElements sound (List.forall_mem_append.mpr ⟨here,named⟩),Tree.find_append,standing]
  rfl

/-- A walk leads to the place that the path has without looking at any file. -/
theorem walk_place {root : Tree} {place elements : List String} (here : ∀ name ∈ place, Path.IsName name)
    (plain : ∀ element ∈ elements, '/' ∉ element.toList) (reached : walk root place elements = .ok names) :
    names = (elements.foldl (Path.pushElement true) place.reverse).reverse := by
  induction elements generalizing place with
  | nil =>
    rw [walk] at reached
    cases reached
    rw [List.foldl_nil,List.reverse_reverse]
  | cons element elements ih =>
    rw [List.forall_mem_cons] at plain
    rw [walk] at reached
    rw [List.foldl_cons]
    split at reached
    · cases reached
    · cases reached
    · split at reached
      · rename_i stays
        have pushed : Path.pushElement true place.reverse element = place.reverse := if_pos stays
        rw [pushed]
        exact ih here plain.2 reached
      · rename_i moves
        split at reached
        · rename_i up
          have pushed : Path.pushElement true place.reverse element = place.dropLast.reverse := by
            unfold Path.pushElement
            rw [if_neg moves,if_pos up]
            rcases List.eq_nil_or_concat' place with rfl | ⟨front,last,rfl⟩
            · rfl
            · have noUp := (here last (by simp)).noUp
              rw [List.dropLast_concat,List.reverse_concat]
              split
              · rename_i empty
                cases empty
              · rename_i steps
                exact absurd (List.cons.inj steps).1 noUp
              · rename_i steps
                exact (List.cons.inj steps).2.symm
          rw [pushed]
          exact ih (fun name member => here name (List.dropLast_subset _ member)) plain.2 reached
        · rename_i noUp
          simp only [Bool.or_eq_true,beq_iff_eq,not_or] at moves
          have named : Path.IsName element := ⟨moves.1,moves.2,by simpa using noUp,plain.1⟩
          rw [Path.pushElement_name named,← List.reverse_concat]
          exact ih (List.forall_mem_append.mpr ⟨here,List.forall_mem_singleton.mpr named⟩) plain.2 reached

/-- What stands at an absolute path stands at the simplified path. -/
theorem stat_simplified (sound : files.Sound) (absolute : Path.isAbsolute path = true)
    (standing : files.stat path = .ok tree) : files.stat (Path.ofElements (Path.elements path)) = .ok tree := by
  have filled : path ≠ "" := by
    rintro rfl
    cases absolute
  rw [stat,locate,if_neg (by simpa using filled),if_pos absolute] at standing
  cases reached : walk files.root [] (Text.split '/' path) with
  | error refusal =>
    rw [reached] at standing
    cases standing
  | ok place =>
    rw [reached] at standing
    have lexical : place = Path.elements path := by
      rw [walk_place (by simp) (fun element member => Text.not_mem_of_mem_split member) reached,Path.elements,absolute]
      rfl
    rw [stat_ofElements sound (Path.isName_of_mem_elements absolute),← lexical]
    exact standing

/-! ### Operations -/

/-- A path leads to a place that is written by names. -/
theorem walk_named {root : Tree} {place elements : List String}
    (plain : ∀ element ∈ elements, '/' ∉ element.toList) (here : ∀ name ∈ place, Path.IsName name)
    (reached : walk root place elements = .ok names) : ∀ name ∈ names, Path.IsName name := by
  have start : ∀ name ∈ place.reverse, Path.IsName name := fun name member => here name (List.mem_reverse.mp member)
  rw [walk_place here plain reached]
  exact fun name member => Path.foldl_pushElement_named plain start name (List.mem_reverse.mp member)

theorem locate_named (sound : files.Sound) (reached : files.locate path = .ok names) :
    ∀ name ∈ names, Path.IsName name := by
  rw [locate] at reached
  split at reached
  · cases reached
  · refine walk_named (fun element member => Text.not_mem_of_mem_split member) ?_ reached
    split
    · simp
    · exact sound.directory

theorem Sound.put (sound : files.Sound) {item : Tree} (whole : item.Sound)
    (named : ∀ name ∈ names, Path.IsName name) (filled : names = [] → item.isFolder = true) :
    ({ files with root := Tree.put item names files.root } : Files).Sound :=
  ⟨sound.root.put named whole,Tree.isFolder_put sound.rooted filled,sound.directory⟩

theorem Sound.empty {directory : String} (rooted : Path.isAbsolute directory = true) :
    (Files.empty directory).Sound := by
  have named := Path.isName_of_mem_elements rooted
  exact ⟨Tree.Sound.empty.put named .empty,Tree.isFolder_put rfl fun _ => rfl,named⟩

theorem Sound.write (sound : files.Sound) (written : files.write path file = .ok after) : after.Sound := by
  unfold Files.write at written
  split at written
  · cases written
  · rename_i place reached
    split at written
    · cases written
    · cases written
    · rename_i free _
      cases written
      refine sound.put (.file file) (locate_named sound reached) fun top => ?_
      -- The root is a folder, and a folder is not overwritten.
      subst top
      cases shape : files.root with
      | file other => simpa [shape,Tree.isFolder] using sound.rooted
      | folder entries =>
        have here : files.root.find [] = .ok (.folder entries) := by rw [Tree.find,shape]
        exact absurd here (free _)

theorem Sound.makeFolder (sound : files.Sound) (made : files.makeFolder path = .ok after) : after.Sound := by
  unfold Files.makeFolder at made
  split at made
  · cases made
    exact sound
  · cases made
  · split at made
    · cases made
    · rename_i place reached
      cases made
      exact sound.put .empty (locate_named sound reached) fun _ => rfl

theorem Sound.makeFolders (sound : files.Sound) (made : files.makeFolders path = .ok after) : after.Sound := by
  unfold Files.makeFolders at made
  generalize ancestors path = paths at made
  induction paths generalizing files with
  | nil =>
    cases made
    exact sound
  | cons path paths ih =>
    rw [List.foldlM_cons] at made
    cases first : files.makeFolder path with
    | error failure => simp [first,bind,Except.bind] at made
    | ok next =>
      rw [first] at made
      exact ih (sound.makeFolder first) made

theorem Sound.writeWithFolders (sound : files.Sound) (written : files.writeWithFolders path file = .ok after) :
    after.Sound := by
  unfold Files.writeWithFolders at written
  simp only at written
  split at written
  · cases made : files.makeFolders (Path.parent path) with
    | error failure => simp [made,bind,Except.bind] at written
    | ok next =>
      rw [made] at written
      exact (sound.makeFolders made).write written
  · exact sound.write written

theorem Sound.place (sound : files.Sound) (file : File)
    (below : Path.absolute files.workingDirectory path ≠ "/") : (files.place path file).Sound := by
  obtain ⟨names,named,absolute⟩ := files.exists_absolute path
  rw [absolute] at below
  have filled : names ≠ [] := by
    rintro rfl
    exact below (by decide)
  unfold Files.place
  rw [absolute,Path.elements_ofElements named]
  exact sound.put (.file file) named fun empty => absurd empty filled

theorem Sound.placeFolder (sound : files.Sound) (path : String) : (files.placeFolder path).Sound := by
  obtain ⟨names,named,absolute⟩ := files.exists_absolute path
  unfold Files.placeFolder
  split
  · exact sound
  · rw [absolute,Path.elements_ofElements named]
    exact sound.put .empty named fun _ => rfl

theorem Sound.remove (sound : files.Sound) (path : String) : (files.remove path).Sound := by
  unfold Files.remove
  split
  · exact sound
  · exact ⟨sound.root.erase _,Tree.isFolder_erase sound.rooted _,sound.directory⟩

end Files

end Depends
