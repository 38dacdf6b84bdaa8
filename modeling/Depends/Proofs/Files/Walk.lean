import Depends.Proofs.Files.Sound

/-!
Walks over sound trees. The walk from a folder visits what can be reached from there without passing a folder that is to
be skipped (`mem_walkFrom`), each with the path that leads to it, and the visits are in ascending order of the names on
the way, element by element (`walkFrom_pairwise`).
-/
namespace Depends.Tree

variable {skips : String → Bool} {path name : String} {es names : List String} {tree found : Tree}
  {entries : List (String × Tree)} {visit : Visit}

/-! ### Looking for what stands below -/

theorem find_cons_iff (distinct : (entries.map (·.1)).Nodup) :
    (folder entries).find (name :: names) = .ok found ↔
      ∃ below, (name,below) ∈ entries ∧ below.find names = .ok found := by
  simp only [← lookup_eq_some_iff distinct]
  rw [find]
  cases entries.lookup name with
  | none => simp
  | some below => simp

/-- Something stands below a folder only. -/
theorem isFolder_iff_of_find (here : tree.find names = .ok found) :
    tree.isFolder = true ↔ (names = [] → found.isFolder = true) := by
  cases names with
  | nil =>
    cases here
    simp
  | cons name names =>
    cases tree with
    | file file => cases here
    | folder entries => simp [isFolder]

/-! ### What is visited -/

theorem walkEntries_eq (skips : String → Bool) (path : String) (entries : List (String × Tree)) :
    walkEntries skips path entries = entries.flatMap fun entry =>
      if entry.2.isFolder && skips (Path.append path entry.1) then []
      else entry.2.walkFrom skips (Path.append path entry.1) := by
  induction entries with
  | nil => rw [walkEntries,List.flatMap_nil]
  | cons entry entries ih => rw [walkEntries,List.flatMap_cons,ih]

theorem mem_walkEntries : visit ∈ walkEntries skips path entries ↔
    ∃ entry ∈ entries, (entry.2.isFolder && skips (Path.append path entry.1)) = false ∧
      visit ∈ entry.2.walkFrom skips (Path.append path entry.1) := by
  rw [walkEntries_eq,List.mem_flatMap]
  refine exists_congr fun entry => and_congr_right fun _ => ?_
  split
  · rename_i skipped
    simp [skipped]
  · rename_i entered
    simp [Bool.eq_false_iff.mpr entered]

/-- None of the folders that are entered on the way along the names is to be skipped. What is found at the end is
entered when it is a folder. -/
def Passes (skips : String → Bool) (es names : List String) (found : Tree) : Prop :=
  ∀ between more, names = between ++ more → between ≠ [] → (more = [] → found.isFolder = true) →
    skips (Path.ofElements (es ++ between)) = false

theorem passes_nil : Passes skips es [] found := fun _ _ split entered _ =>
  absurd (List.append_eq_nil_iff.mp split.symm).1 entered

theorem passes_cons : Passes skips es (name :: names) found ↔
    ((names = [] → found.isFolder = true) → skips (Path.ofElements (es ++ [name])) = false) ∧
      Passes skips (es ++ [name]) names found := by
  constructor
  · intro passes
    refine ⟨passes [name] names rfl (List.cons_ne_nil _ _),fun between more split _ last => ?_⟩
    rw [List.append_assoc]
    exact passes (name :: between) more (by rw [split,List.cons_append]) (List.cons_ne_nil _ _) last
  · rintro ⟨first,later⟩ between more split entered last
    cases between with
    | nil => exact absurd rfl entered
    | cons other between =>
      rw [List.cons_append,List.cons.injEq] at split
      obtain ⟨rfl,split⟩ := split
      cases between with
      | nil =>
        obtain rfl : names = more := split
        exact first last
      | cons next between =>
        have deeper := later _ more split (List.cons_ne_nil next between) last
        rwa [List.append_assoc] at deeper

/-- The visits are what is found by names, with the path along these names, where no skipped folder is in the way. -/
theorem mem_walkFrom (sound : tree.Sound) (here : ∀ name ∈ es, Path.IsName name) :
    visit ∈ tree.walkFrom skips (Path.ofElements es) ↔
      ∃ names found, tree.find names = .ok found ∧ visit = ⟨Path.ofElements (es ++ names),found.isFolder⟩ ∧
        Passes skips es names found := by
  induction sound generalizing es with
  | file file =>
    rw [walkFrom,List.mem_singleton]
    constructor
    · rintro rfl
      exact ⟨[],.file file,rfl,by rw [List.append_nil]; rfl,passes_nil⟩
    · rintro ⟨names,found,reached,rfl,-⟩
      cases names with
      | nil =>
        cases reached
        rw [List.append_nil]
        rfl
      | cons name names => cases reached
  | @folder entries ascending named inner ih =>
    have distinct := nodup_names ascending
    have longer : ∀ entry ∈ entries, ∀ name ∈ es ++ [entry.1], Path.IsName name := fun entry member =>
      List.forall_mem_append.mpr ⟨here,List.forall_mem_singleton.mpr (named entry member)⟩
    rw [walkFrom,List.mem_cons,mem_walkEntries]
    constructor
    · rintro (rfl | ⟨⟨name,below⟩,member,entered,walked⟩)
      · exact ⟨[],.folder entries,rfl,by rw [List.append_nil]; rfl,passes_nil⟩
      · rw [Path.append_ofElements here (named _ member)] at entered walked
        obtain ⟨names,found,reached,rfl,passes⟩ := (ih _ member (longer _ member)).mp walked
        refine ⟨name :: names,found,(find_cons_iff distinct).mpr ⟨below,member,reached⟩,by simp,?_⟩
        refine passes_cons.mpr ⟨fun last => ?_,passes⟩
        simpa [(isFolder_iff_of_find reached).mpr last] using entered
    · rintro ⟨names,found,reached,rfl,passes⟩
      cases names with
      | nil =>
        cases reached
        rw [List.append_nil]
        exact .inl rfl
      | cons name names =>
        obtain ⟨below,member,reached⟩ := (find_cons_iff distinct).mp reached
        obtain ⟨first,later⟩ := passes_cons.mp passes
        rw [← isFolder_iff_of_find reached] at first
        refine .inr ⟨(name,below),member,?_,?_⟩
        all_goals rw [Path.append_ofElements here (named _ member)]
        · cases shape : below.isFolder with
          | false => rfl
          | true => exact first shape
        · exact (ih _ member (longer _ member)).mpr ⟨names,found,reached,by simp,later⟩

/-- The files among the visits are found by names along which no folder strictly between is to be skipped. -/
theorem mem_walkFrom_file (sound : tree.Sound) (here : ∀ name ∈ es, Path.IsName name) :
    ⟨path,false⟩ ∈ tree.walkFrom skips (Path.ofElements es) ↔
      ∃ names file, tree.find names = .ok (.file file) ∧ path = Path.ofElements (es ++ names) ∧
        ∀ between more, names = between ++ more → between ≠ [] → more ≠ [] →
          skips (Path.ofElements (es ++ between)) = false := by
  rw [mem_walkFrom sound here]
  refine exists_congr fun names => ?_
  constructor
  · rintro ⟨found,reached,visited,passes⟩
    obtain ⟨rfl,plain⟩ := Visit.mk.inj visited
    cases found with
    | folder entries => cases plain
    | file file =>
      refine ⟨file,reached,rfl,fun between more split entered further => ?_⟩
      exact passes between more split entered fun last => absurd last further
  · rintro ⟨file,reached,rfl,passes⟩
    refine ⟨.file file,reached,rfl,fun between more split entered last => ?_⟩
    refine passes between more split entered fun ends => ?_
    cases last ends

/-- The files directly in a folder are found by one name. -/
theorem mem_ownFiles (sound : tree.Sound) (here : ∀ name ∈ es, Path.IsName name) :
    path ∈ tree.ownFiles (Path.ofElements es) ↔
      ∃ name file, tree.find [name] = .ok (.file file) ∧ path = Path.ofElements (es ++ [name]) := by
  cases sound with
  | file file => simp [ownFiles,find]
  | @folder entries ascending named inner =>
    simp only [find_cons_iff (nodup_names ascending),ownFiles,List.mem_map,List.mem_filter]
    constructor
    · rintro ⟨⟨name,below⟩,⟨member,plain⟩,rfl⟩
      cases below with
      | folder entries => cases plain
      | file file => exact ⟨name,file,⟨_,member,rfl⟩,Path.append_ofElements here (named _ member)⟩
    · rintro ⟨name,file,⟨below,member,reached⟩,rfl⟩
      cases reached
      exact ⟨(name,.file file),⟨member,rfl⟩,Path.append_ofElements here (named _ member)⟩

/-! ### The order of the visits -/

/-- The elements of a visited path go on from those of the start. -/
theorem elements_visited (sound : tree.Sound) (here : ∀ name ∈ es, Path.IsName name)
    (visited : visit ∈ tree.walkFrom skips (Path.ofElements es)) :
    ∃ names, (∀ name ∈ names, Path.IsName name) ∧ visit.path = Path.ofElements (es ++ names) ∧
      Path.elements visit.path = es ++ names := by
  obtain ⟨names,found,reached,rfl,-⟩ := (mem_walkFrom sound here).mp visited
  have named := (sound.find reached).1
  exact ⟨names,named,rfl,Path.elements_ofElements (List.forall_mem_append.mpr ⟨here,named⟩)⟩

/-- The visits are in ascending order of their elements. -/
theorem walkFrom_pairwise (sound : tree.Sound) (here : ∀ name ∈ es, Path.IsName name) :
    (tree.walkFrom skips (Path.ofElements es)).Pairwise fun v w => Path.elements v.path < Path.elements w.path := by
  induction sound generalizing es with
  | file file =>
    rw [walkFrom]
    exact List.pairwise_singleton _ _
  | @folder entries ascending named inner ih =>
    have longer : ∀ entry ∈ entries, ∀ name ∈ es ++ [entry.1], Path.IsName name := fun entry member =>
      List.forall_mem_append.mpr ⟨here,List.forall_mem_singleton.mpr (named entry member)⟩
    -- What is visited below an entry has the elements of the entry in front.
    have below : ∀ entry ∈ entries, ∀ visit ∈ entry.2.walkFrom skips (Path.append (Path.ofElements es) entry.1),
        ∃ names, Path.elements visit.path = es ++ entry.1 :: names := by
      intro entry member visit visited
      rw [Path.append_ofElements here (named entry member)] at visited
      obtain ⟨names,-,-,parts⟩ := elements_visited (inner entry member) (longer entry member) visited
      exact ⟨names,by rw [parts,List.append_assoc,List.singleton_append]⟩
    rw [walkFrom,List.pairwise_cons]
    constructor
    · intro visit visited
      obtain ⟨entry,member,-,visited⟩ := mem_walkEntries.mp visited
      obtain ⟨names,parts⟩ := below entry member visit visited
      rw [parts,Path.elements_ofElements here]
      have more : es ++ [] < es ++ entry.1 :: names := List.append_left_lt (List.nil_lt_cons _ _)
      rwa [List.append_nil] at more
    · rw [walkEntries_eq,List.pairwise_flatMap]
      constructor
      · intro entry member
        split
        · exact .nil
        · rw [Path.append_ofElements here (named entry member)]
          exact ih entry member (longer entry member)
      · refine (List.pairwise_map.mp ascending).imp_of_mem fun {first second} member member' less => ?_
        intro visit visited visit' visited'
        rw [List.mem_ite_nil_left] at visited visited'
        obtain ⟨names,parts⟩ := below first member visit visited.2
        obtain ⟨names',parts'⟩ := below second member' visit' visited'.2
        rw [parts,parts']
        exact List.append_left_lt (List.cons_lt_cons_iff.mpr (.inl less))

end Depends.Tree
