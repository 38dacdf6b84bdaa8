import Depends.Rule.Basic
import Mathlib.Data.List.GetD
import Mathlib.Data.List.Induction

/-!
Generic lists and the names in front of them. A list is read backwards with a depth, which its closing brackets raise
and its opening ones lower. However the closing brackets are fused, the depth stays above zero until the outermost
opening bracket is read (`GenericList.stays`), and so the reader stops right there (`nameBefore_generics`). A function
or a delegate with generic parameters therefore gets the name in front of them (`generics_skipped`).
-/
namespace Depends

open Depends.Text (isName)

variable {tokens plain fused front back : List String} {t : String} {d : Int}

/-! ### Lists of generic parameters and arguments -/

/-- What stands between angle brackets: tokens that are no brackets, and lists in brackets of their own. -/
inductive AngleText : List String → Prop
  | nil : AngleText []
  | token {t : String} {more : List String} : angleWeight t = 0 → AngleText more → AngleText (t :: more)
  | nested {inner more : List String} : AngleText inner → AngleText more →
      AngleText ("<" :: (inner ++ ">" :: more))

/-- The same tokens, except that some pairs of closing brackets side by side are one token. -/
inductive Fused : List String → List String → Prop
  | nil : Fused [] []
  | keep (t : String) {plain fused : List String} : Fused plain fused → Fused (t :: plain) (t :: fused)
  | pair {plain fused : List String} : Fused plain fused → Fused (">" :: ">" :: plain) (">>" :: fused)

/-- A list in angle brackets, with its closing brackets fused in any way. -/
def GenericList (tokens : List String) : Prop := ∃ inner, AngleText inner ∧ Fused ("<" :: (inner ++ [">"])) tokens

/-! ### The depth -/

/-- What tokens add to the depth. -/
def angleDepth (tokens : List String) : Int := tokens.foldr (fun t depth => angleWeight t + depth) 0

@[simp] theorem angleDepth_nil : angleDepth [] = 0 := rfl

@[simp] theorem angleDepth_cons (t : String) (tokens : List String) :
    angleDepth (t :: tokens) = angleWeight t + angleDepth tokens := rfl

@[simp] theorem angleDepth_append (front back : List String) :
    angleDepth (front ++ back) = angleDepth front + angleDepth back := by
  induction front with
  | nil => simp
  | cons t front ih => rw [List.cons_append,angleDepth_cons,angleDepth_cons,ih,Int.add_assoc]

@[simp] theorem angleWeight_open : angleWeight "<" = -1 := by decide

@[simp] theorem angleWeight_close : angleWeight ">" = 1 := by decide

@[simp] theorem angleWeight_closeTwo : angleWeight ">>" = 2 := by decide

theorem angleWeight_pos (closes : 0 < angleWeight t) : t = ">" ∨ t = ">>" := by
  by_contra other
  rw [not_or] at other
  unfold angleWeight at closes
  rw [if_neg other.1,if_neg other.2] at closes
  split at closes
  · omega
  · split at closes <;> omega

/-- Read backwards from a depth, the tokens never bring it down to zero. -/
def StaysOpen (d : Int) (tokens : List String) : Prop :=
  ∀ back, back <:+ tokens → back ≠ [] → 0 < d + angleDepth back

theorem AngleText.depth (text : AngleText tokens) :
    angleDepth tokens = 0 ∧ ∀ back, back <:+ tokens → 0 ≤ angleDepth back := by
  induction text with
  | nil =>
    refine ⟨rfl,?_⟩
    intro back ending
    rw [List.suffix_nil.mp ending]
    exact Int.le_refl 0
  | @token t more weightless _ ih =>
    obtain ⟨total,above⟩ := ih
    have whole : angleDepth (t :: more) = 0 := by rw [angleDepth_cons,weightless,total]; rfl
    refine ⟨whole,?_⟩
    intro back ending
    rcases List.suffix_cons_iff.mp ending with rfl | later
    · omega
    · exact above back later
  | @nested inner more _ _ ihInner ihMore =>
    obtain ⟨innerTotal,innerAbove⟩ := ihInner
    obtain ⟨moreTotal,moreAbove⟩ := ihMore
    have whole : angleDepth ("<" :: (inner ++ ">" :: more)) = 0 := by simp [innerTotal,moreTotal]
    refine ⟨whole,?_⟩
    intro back ending
    rcases List.suffix_cons_iff.mp ending with rfl | ⟨front,split⟩
    · omega
    · rcases List.append_eq_append_iff.mp split with ⟨rest,rfl,rfl⟩ | ⟨rest,-,later⟩
      · have inside := innerAbove rest (List.suffix_append ..)
        simp only [angleDepth_append,angleDepth_cons,angleWeight_close,moreTotal]
        omega
      · have ending : back <:+ ">" :: more := ⟨rest,later.symm⟩
        rcases List.suffix_cons_iff.mp ending with rfl | after
        · simp [moreTotal]
        · exact moreAbove back after

theorem Fused.depth (fusing : Fused plain fused) : angleDepth fused = angleDepth plain := by
  induction fusing with
  | nil => rfl
  | keep t _ ih => rw [angleDepth_cons,angleDepth_cons,ih]
  | pair _ ih =>
    simp only [angleDepth_cons,angleWeight_close,angleWeight_closeTwo,ih]
    omega

/-- The ends of fused tokens are ends of the plain ones, fused. -/
theorem Fused.ending (fusing : Fused plain fused) (ending : back <:+ fused) :
    ∃ last', last' <:+ plain ∧ Fused last' back := by
  induction fusing with
  | nil =>
    rw [List.suffix_nil.mp ending]
    exact ⟨[],List.suffix_rfl,.nil⟩
  | @keep t plain fused fusing ih =>
    rcases List.suffix_cons_iff.mp ending with rfl | later
    · exact ⟨t :: plain,List.suffix_rfl,.keep t fusing⟩
    · obtain ⟨last',inside,same⟩ := ih later
      exact ⟨last',inside.trans (List.suffix_cons ..),same⟩
  | @pair plain fused fusing ih =>
    rcases List.suffix_cons_iff.mp ending with rfl | later
    · exact ⟨">" :: ">" :: plain,List.suffix_rfl,.pair fusing⟩
    · obtain ⟨last',inside,same⟩ := ih later
      exact ⟨last',(inside.trans (List.suffix_cons ..)).trans (List.suffix_cons ..),same⟩

theorem StaysOpen.of_fused (stays : StaysOpen d plain) (fusing : Fused plain fused) : StaysOpen d fused := by
  intro back ending some
  obtain ⟨last',inside,same⟩ := fusing.ending ending
  rw [same.depth]
  apply stays last' inside
  rintro rfl
  cases same
  exact some rfl

/-- A list begins with its outermost opening bracket. The tokens after it keep the depth above zero and end one above
where they began. -/
theorem GenericList.stays (list : GenericList tokens) :
    ∃ rest, tokens = "<" :: rest ∧ rest ≠ [] ∧ StaysOpen 0 rest ∧ angleDepth rest = 1 := by
  obtain ⟨inner,text,fusing⟩ := list
  obtain ⟨total,above⟩ := text.depth
  generalize whole : "<" :: (inner ++ [">"]) = plain at fusing
  cases fusing with
  | nil => cases whole
  | pair fusing => exact absurd (List.cons.inj whole).1 (by decide)
  | @keep t _ rest fusing =>
    obtain ⟨rfl,rfl⟩ := List.cons.inj whole
    have stays : StaysOpen 0 (inner ++ [">"]) := by
      intro back ending some
      rcases List.suffix_concat_iff.mp ending with rfl | ⟨front,rfl,inside⟩
      · exact absurd rfl some
      · have level := above front inside
        simp only [angleDepth_append,angleDepth_cons,angleWeight_close,angleDepth_nil]
        omega
    have depth : angleDepth rest = 1 := by
      rw [fusing.depth]
      simp [total]
    refine ⟨rest,rfl,?_,stays.of_fused fusing,depth⟩
    rintro rfl
    cases depth

/-! ### Reading backwards -/

/-- Tokens that keep the depth above zero are read to their front. -/
theorem skipAngles_staysOpen (before : List String) (stays : StaysOpen d tokens) :
    skipAngles d (tokens.reverse ++ before) = skipAngles (d + angleDepth tokens) before := by
  induction tokens using List.reverseRecOn generalizing d with
  | nil => simp
  | append_singleton tokens t ih =>
    have last : 0 < d + angleWeight t := by
      have last := stays [t] (List.suffix_append ..) (by simp)
      simpa using last
    have earlier : StaysOpen (d + angleWeight t) tokens := by
      rintro back ⟨front,rfl⟩ _
      have level := stays (back ++ [t]) ⟨front,by simp⟩ (by simp)
      simp only [angleDepth_append,angleDepth_cons,angleDepth_nil] at level
      omega
    rw [List.reverse_append,List.reverse_singleton,List.singleton_append,List.cons_append,skipAngles]
    simp only [show ¬ d + angleWeight t ≤ 0 by omega,↓reduceIte]
    rw [ih earlier,angleDepth_append,angleDepth_cons,angleDepth_nil]
    congr 1
    omega

theorem beforeGenerics_generics (list : GenericList tokens) (front rest : List String) :
    beforeGenerics (front ++ (tokens ++ rest)) (front.length + tokens.length) = front.reverse := by
  obtain ⟨after,rfl,some,stays,depth⟩ := list.stays
  obtain ⟨firsts,last,split⟩ := (List.eq_nil_or_concat after).resolve_left some
  rw [List.concat_eq_append] at split
  have closes : last = ">" ∨ last = ">>" := by
    apply angleWeight_pos
    have level := stays [last] (by rw [split]; exact List.suffix_append ..) (by simp)
    simpa using level
  have skipped : skipAngles 0 (after.reverse ++ "<" :: front.reverse) = front.reverse := by
    rw [skipAngles_staysOpen _ stays,depth,skipAngles]
    simp
  have backwards : ((front ++ ("<" :: after ++ rest)).take (front.length + ("<" :: after).length)).reverse =
      after.reverse ++ "<" :: front.reverse := by
    rw [List.take_length_add_append,List.take_left,List.reverse_append,List.reverse_cons,List.append_assoc]
    rfl
  unfold beforeGenerics
  rw [backwards]
  rw [split,List.reverse_append,List.reverse_singleton,List.singleton_append,List.cons_append] at skipped ⊢
  simp only [closes,↓reduceIte]
  exact skipped

/-- In front of a generic list stands the name. -/
theorem nameBefore_generics (list : GenericList tokens) (front : List String) (name : String) (rest : List String) :
    nameBefore (front ++ name :: (tokens ++ rest)) (front.length + 1 + tokens.length) = some (name,front.length) := by
  have before := beforeGenerics_generics list (front ++ [name]) rest
  rw [List.append_assoc,List.singleton_append,List.length_append,List.length_singleton,List.reverse_append,
    List.reverse_singleton,List.singleton_append] at before
  rw [nameBefore,before]
  simp

/-- Without a generic list the token in front is the name. -/
theorem nameBefore_plain {name : String} (plain : angleWeight name ≤ 0) (front rest : List String) :
    nameBefore (front ++ name :: rest) (front.length + 1) = some (name,front.length) := by
  have backwards : ((front ++ name :: rest).take (front.length + 1)).reverse = name :: front.reverse := by
    rw [List.take_length_add_append]
    simp
  have noBracket : ¬ (name = ">" ∨ name = ">>") := by
    rintro (rfl | rfl) <;> simp at plain
  unfold nameBefore beforeGenerics
  rw [backwards]
  simp [noBracket]

/-! ### Functions and delegates with a generic list -/

/-- The parameter list from a position on begins at the first parenthesis. -/
theorem paren?_first {next : String} (plain : ∀ t ∈ front, opensParen t = false) (opens : opensParen next = true)
    (passed rest : List String) :
    paren? (passed ++ (front ++ next :: rest)) passed.length = some (front.length + passed.length) := by
  have none : front.findIdx? opensParen = none := List.findIdx?_eq_none_iff.mpr plain
  rw [paren?,List.drop_left,List.findIdx?_append,none,Option.none_or,List.findIdx?_cons,opens]
  simp

/-- The token in front of a place is the last one before it. -/
theorem getD_front_eq_iff {word : String} (rest : List String) :
    (0 < front.length ∧ (front ++ rest).getD (front.length - 1) "" = word) ↔ front.getLast? = some word := by
  cases front using List.reverseRecOn with
  | nil => simp
  | append_singleton front last => simp

/-- For every list of generic parameters or arguments, however its closing brackets are fused, and all tokens around
it: read backwards from the token behind the list, the name is the token in front of the list. So where that next token
opens the parameter list of a function or of a delegate, what is declared has this name. -/
theorem generics_skipped (list : GenericList tokens) (options : RuleOptions) (front rest : List String)
    (name next : String) :
    let whole := front ++ name :: (tokens ++ next :: rest)
    let p := front.length + 1 + tokens.length
    (whole[p]? = some next ∧ whole[front.length]? = some name ∧ nameBefore whole p = some (name,front.length)) ∧
      (opensParen next = true → (∀ t ∈ front ++ name :: tokens, opensParen t = false) →
        whole.getLast? = some openBrace → Rule.functionName? options whole =
          if isName name ∧ name ∉ options.control ∧ front.getLast? ≠ some "new" then some name else none) ∧
      (∀ before between, front = before ++ "delegate" :: between → "delegate" ∉ before →
        opensParen next = true → (∀ t ∈ between ++ name :: tokens, opensParen t = false) →
        whole.getLast? = some ";" → isName name = true → Rule.delegateName? whole = some name) := by
  intro whole p
  have named : nameBefore whole p = some (name,front.length) := nameBefore_generics list front name (next :: rest)
  have split : whole = (front ++ name :: tokens) ++ next :: rest := by simp [whole]
  have behind : (front ++ name :: tokens).length = p := by
    simp only [List.length_append,List.length_cons,p]
    omega
  refine ⟨⟨?_,?_,named⟩,?_,?_⟩
  · rw [split,List.getElem?_append_right (Nat.le_of_eq behind),behind,Nat.sub_self]
    rfl
  · rw [List.getElem?_append_right (Nat.le_refl _),Nat.sub_self]
    rfl
  · intro opens plain final
    have paren : paren? whole 0 = some p := by
      rw [split,← behind]
      exact paren?_first plain opens [] rest
    unfold Rule.functionName?
    rw [if_pos final,paren]
    simp only [named,whole,getD_front_eq_iff]
    simp only [List.contains_eq_mem,decide_eq_true_eq,ne_eq]
  · rintro before between rfl absent opens plain final nameIs
    have keyword : whole.findIdx? (· == "delegate") = some before.length := by
      have none : before.findIdx? (· == "delegate") = none := by
        rw [List.findIdx?_eq_none_iff]
        exact fun t member => beq_eq_false_iff_ne.mpr fun same => absent (same ▸ member)
      rw [split,List.append_assoc,List.append_assoc,List.findIdx?_append,none,Option.none_or,List.cons_append,
        List.findIdx?_cons]
      simp
    have paren : paren? whole (before.length + 1) = some p := by
      have parts : whole = (before ++ ["delegate"]) ++ ((between ++ name :: tokens) ++ next :: rest) := by
        simp [whole]
      have passed : (before ++ ["delegate"]).length = before.length + 1 := by simp
      rw [parts,← passed,paren?_first plain opens _ rest,← behind]
      simp
      omega
    have later : before.length + 1 < p := by simp [p]; omega
    unfold Rule.delegateName?
    rw [keyword]
    simp only [final,paren,later,named,nameIs,↓reduceIte,Option.map_some,Option.getD_some]

/-- The parameters in `Merge<Key, Map<Key, List<int>>>`, the last two of the closing brackets being one token. -/
def mapParameters : List String := ["<","Key",",","Map","<","Key",",","List","<","int",">",">>"]

/-- A function and a delegate with nested parameters. -/
theorem generics_skipped_nested :
    GenericList mapParameters ∧
      nameBefore (["void"] ++ "Merge" :: (mapParameters ++ "()" :: [openBrace])) 14 = some ("Merge",1) ∧
      Rule.functionName? .standard (["void"] ++ "Merge" :: (mapParameters ++ "()" :: [openBrace])) = some "Merge" ∧
      Rule.delegateName? (["delegate","void"] ++ "Merge" :: (mapParameters ++ "(" :: [")",";"])) = some "Merge" := by
  have innermost : AngleText ("<" :: (["int"] ++ ">" :: [])) := .nested (.token (by decide) .nil) .nil
  have arguments : AngleText ["Key",",","List","<","int",">"] :=
    .token (by decide) (.token (by decide) (.token (by decide) innermost))
  have outer : AngleText ("<" :: (["Key",",","List","<","int",">"] ++ ">" :: [])) := .nested arguments .nil
  have list : GenericList mapParameters := by
    refine ⟨["Key",",","Map","<","Key",",","List","<","int",">",">"],?_,?_⟩
    · exact .token (by decide) (.token (by decide) (.token (by decide) outer))
    · exact .keep _ (.keep _ (.keep _ (.keep _ (.keep _ (.keep _ (.keep _ (.keep _ (.keep _ (.keep _ (.keep _
        (.pair .nil)))))))))))
  obtain ⟨⟨-,-,named⟩,function,-⟩ := generics_skipped list .standard ["void"] [openBrace] "Merge" "()"
  obtain ⟨-,-,delegate⟩ := generics_skipped list .standard ["delegate","void"] [")",";"] "Merge" "("
  refine ⟨list,named,?_,?_⟩
  · rw [function (by decide) (by decide) (by decide)]
    decide
  · exact delegate [] ["void"] rfl (by decide) (by decide) (by decide) (by decide) (by decide)

end Depends
