import Depends.Source

/-!
What reading does to the view of a source. Looking ahead moves characters into the queue and leaves
`remaining` as it is; consuming characters of the queue takes them off the front of `remaining` and counts
their line feeds.
-/
namespace Depends.Source

variable {s : Source}

/-- A source that noticed its end has nothing left to load. -/
def Settled (s : Source) : Prop := s.ended = true → s.pending = [] ∧ s.blocks.flatMap Block.chars = []

theorem ofText_settled (text : List Char) : (ofText text).Settled := by
  intro ended
  cases ended

@[simp] theorem remaining_ofText (text : List Char) : (ofText text).remaining = normalizeLines text := by
  simp [ofText,remaining]

theorem normalizeLines_cons {c : Char} (plain : c ≠ '\r') (cs : List Char) :
    normalizeLines (c :: cs) = c :: normalizeLines cs := by
  rw [normalizeLines]
  · simp [plain]
  · rintro rest rfl -
    exact plain rfl

theorem normalizeLines_return {c : Char} (plain : c ≠ '\n') (cs : List Char) :
    normalizeLines ('\r' :: c :: cs) = '\n' :: normalizeLines (c :: cs) := by
  rw [normalizeLines]
  · simp
  · rintro rest - same
    exact plain (List.cons.inj same).1

theorem take_none {pending : List Char} {cut : Nat} {blocks : List Block} (nothing : take pending cut blocks = none) :
    pending = [] ∧ blocks.flatMap Block.chars = [] := by
  induction blocks generalizing pending cut with
  | nil =>
    cases pending with
    | nil => exact ⟨rfl,rfl⟩
    | cons c rest => cases nothing
  | cons block blocks ih =>
    cases pending with
    | nil =>
      obtain ⟨chars,later⟩ := ih nothing
      exact ⟨rfl,by rw [List.flatMap_cons,chars,later,List.nil_append]⟩
    | cons c rest => cases nothing

theorem take_some {pending rest : List Char} {cut cut' : Nat} {blocks blocks' : List Block} {c : Char}
    (taken : take pending cut blocks = some (c,rest,cut',blocks')) :
    pending ++ blocks.flatMap Block.chars = c :: (rest ++ blocks'.flatMap Block.chars) := by
  induction blocks generalizing pending cut with
  | nil =>
    cases pending with
    | nil => cases taken
    | cons d more =>
      cases taken
      rfl
  | cons block blocks ih =>
    cases pending with
    | nil =>
      rw [List.nil_append,List.flatMap_cons]
      exact ih taken
    | cons d more =>
      cases taken
      rfl

/-- One more character in the queue, if there is one; the view stays. -/
structure Reads (s t : Source) (count : Nat) : Prop where
  remaining : t.remaining = s.remaining
  line : t.line = s.line
  settled : t.Settled
  queue : min (s.queue.length + count) s.remaining.length ≤ t.queue.length

theorem min_le_length_snoc (queue : List Char) (c : Char) (most : Nat) :
    min (queue.length + 1) most ≤ (queue ++ [c]).length := by
  rw [List.length_append]
  exact Nat.min_le_left _ _

theorem read_reads (settled : s.Settled) : s.Reads s.read 1 := by
  by_cases ended : s.ended = true
  · have same : s.read = s := by simp [read,ended]
    obtain ⟨pending,blocks⟩ := settled ended
    refine ⟨by rw [same],by rw [same],by rwa [same],?_⟩
    simp [same,Source.remaining,pending,blocks,normalizeLines]
  · unfold read
    rw [if_neg ended]
    cases taken : take s.pending s.cut s.blocks with
    | none =>
      obtain ⟨pending,blocks⟩ := take_none taken
      refine ⟨?_,rfl,fun _ => ⟨rfl,rfl⟩,?_⟩
      · simp [Source.remaining,pending,blocks]
      · simp [Source.remaining,pending,blocks,normalizeLines]
    | some found =>
      obtain ⟨c,rest,cut,blocks⟩ := found
      have parts := take_some taken
      dsimp only
      by_cases carriage : c = '\r'
      · subst carriage
        rw [if_pos rfl]
        cases next : take rest cut blocks with
        | none =>
          obtain ⟨empty,nothing⟩ := take_none next
          refine ⟨?_,rfl,fun e => absurd e ended,min_le_length_snoc ..⟩
          simp [Source.remaining,parts,empty,nothing,normalizeLines]
        | some following =>
          obtain ⟨d,rest',cut',blocks'⟩ := following
          have after := take_some next
          refine ⟨?_,rfl,fun e => absurd e ended,min_le_length_snoc ..⟩
          by_cases feed : d = '\n'
          · subst feed
            simp [Source.remaining,parts,after,normalizeLines]
          · simp [Source.remaining,parts,after,feed,normalizeLines_return feed]
      · rw [if_neg carriage]
        refine ⟨?_,rfl,fun e => absurd e ended,min_le_length_snoc ..⟩
        simp [Source.remaining,parts,normalizeLines_cons carriage]

theorem Reads.trans {t u : Source} {m n : Nat} (first : s.Reads t m) (second : t.Reads u n) : s.Reads u (m + n) := by
  refine ⟨second.remaining.trans first.remaining,second.line.trans first.line,second.settled,?_⟩
  have left := first.queue
  have right := second.queue
  rw [first.remaining] at right
  omega

theorem readMore_reads (count : Nat) : ∀ {s : Source}, s.Settled → s.Reads (readMore count s) count := by
  induction count with
  | zero => exact fun settled => ⟨rfl,rfl,settled,Nat.min_le_left ..⟩
  | succ count ih =>
    intro s settled
    have first := read_reads settled
    have all := first.trans (ih first.settled)
    rwa [Nat.add_comm] at all

/-- After asking for characters those that there are stand in the queue. -/
theorem require_reads (settled : s.Settled) (count : Nat) :
    (s.require count).remaining = s.remaining ∧ (s.require count).line = s.line ∧ (s.require count).Settled ∧
      min count s.remaining.length ≤ (s.require count).queue.length := by
  have reads := readMore_reads (count - s.queue.length) settled
  refine ⟨reads.remaining,reads.line,reads.settled,?_⟩
  have queue := reads.queue
  unfold require
  omega

/-- A character that was asked for stands in the queue where the view has it. -/
theorem getElem?_require (settled : s.Settled) (n : Nat) : (s.require (n + 1)).queue[n]? = s.remaining[n]? := by
  obtain ⟨view,-,-,queue⟩ := require_reads settled (n + 1)
  rw [← view] at queue ⊢
  rw [remaining] at queue ⊢
  by_cases inside : n < (s.require (n + 1)).queue.length
  · rw [List.getElem?_append_left inside]
  · rw [List.getElem?_eq_none (by omega),List.getElem?_eq_none (by omega)]

theorem drop_of_empty (empty : s.queue = []) (count : Nat) : s.drop count = s := by
  cases s
  simp_all [drop]

/-! ### Asking again -/

theorem readMore_add (m n : Nat) : ∀ s : Source, readMore (m + n) s = readMore n (readMore m s) := by
  induction m with
  | zero => intro s; rw [Nat.zero_add]; rfl
  | succ m ih => intro s; rw [Nat.succ_add]; exact ih s.read

theorem readMore_ended (count : Nat) (ended : s.ended = true) : readMore count s = s := by
  have same : s.read = s := if_pos ended
  induction count with
  | zero => rfl
  | succ count ih => rw [readMore,same,ih]

/-- A character comes into the queue, or the end is noticed. -/
theorem read_cases (s : Source) : s.read.queue.length = s.queue.length + 1 ∨ s.read.ended = true := by
  unfold read
  split
  · exact .inr ‹_›
  · split
    · exact .inr rfl
    · split
      · split <;> exact .inl (List.length_append ..)
      · exact .inl (List.length_append ..)

theorem readMore_cases (count : Nat) :
    ∀ s : Source, (readMore count s).queue.length = s.queue.length + count ∨ (readMore count s).ended = true := by
  induction count with
  | zero => exact fun s => .inl rfl
  | succ count ih =>
    intro s
    rcases read_cases s with longer | ended
    · rcases ih s.read with all | ended
      · exact .inl (by rw [readMore,all,longer]; omega)
      · exact .inr ended
    · exact .inr (by rw [readMore,readMore_ended count ended]; exact ended)

/-- Asking twice is asking for the greater number of characters. -/
theorem require_require (s : Source) (first second : Nat) :
    (s.require first).require second = s.require (max first second) := by
  have more : ∀ count, readMore count (s.require first) = readMore (first - s.queue.length + count) s :=
    fun count => (readMore_add _ _ s).symm
  rcases readMore_cases (first - s.queue.length) s with all | ended
  · have queue : (s.require first).queue.length = s.queue.length + (first - s.queue.length) := all
    rw [require,more,queue,require]
    congr 1
    omega
  · have noticed : (s.require first).ended = true := ended
    have split : max first second - s.queue.length =
        first - s.queue.length + (max first second - s.queue.length - (first - s.queue.length)) := by omega
    have wanted : s.require (max first second) = readMore (max first second - s.queue.length) s := rfl
    rw [wanted,split,← more,readMore_ended _ noticed,Source.require,readMore_ended _ noticed]

/-! ### One call -/

/-- A source has still to deliver a text, and stands on a line. -/
structure Ahead (s : Source) (text : List Char) (line : Nat) : Prop where
  settled : s.Settled
  remaining : s.remaining = text
  line : s.line = line

variable {text : List Char} {line : Nat}

theorem Ahead.require (ahead : s.Ahead text line) (count : Nat) : (s.require count).Ahead text line := by
  obtain ⟨view,same,settled,-⟩ := require_reads ahead.settled count
  exact ⟨settled,view.trans ahead.remaining,same.trans ahead.line⟩

theorem Ahead.peek (ahead : s.Ahead text line) {n : Nat} (near : n < maxLookahead) :
    s.peek n = (text[n]?,s.require (n + 1)) := by
  have inside : 0 ≤ (n : Int) ∧ (n : Int) < maxLookahead := by omega
  rw [Source.peek,if_pos inside]
  simp only [Int.toNat_natCast,getElem?_require ahead.settled,ahead.remaining]

theorem Ahead.next (ahead : s.Ahead text line) : s.next = (text.head?,(s.require 1).drop 1) := by
  rw [Source.next,List.head?_eq_getElem?,List.head?_eq_getElem?,← ahead.remaining]
  exact congrArg (·,(s.require 1).drop 1) (getElem?_require ahead.settled 0)

theorem Ahead.atEnd (ahead : s.Ahead text line) : s.atEnd = (text.isEmpty,s.require 1) := by
  have first := getElem?_require ahead.settled 0
  rw [ahead.remaining] at first
  have same : (s.require 1).queue.isEmpty = text.isEmpty := by
    rw [Bool.eq_iff_iff,List.isEmpty_iff,List.isEmpty_iff,← List.head?_eq_none_iff,← List.head?_eq_none_iff,
      List.head?_eq_getElem?,List.head?_eq_getElem?,first]
  rw [Source.atEnd,same]

/-- Consuming a character moves behind it. At the end nothing is consumed. -/
theorem Ahead.consume (ahead : s.Ahead text line) :
    ((s.require 1).drop 1).Ahead text.tail (line + (text.take 1).count '\n') := by
  obtain ⟨settled,view,same⟩ := ahead.require 1
  cases text with
  | nil =>
    rw [drop_of_empty (List.append_eq_nil_iff.mp view).1]
    exact ⟨settled,view,same⟩
  | cons c cs =>
    have first := getElem?_require ahead.settled 0
    rw [ahead.remaining] at first
    have filled : (s.require 1).queue ≠ [] := by
      intro empty
      simp [empty] at first
    obtain ⟨d,queue,here⟩ := List.exists_cons_of_ne_nil filled
    simp only [Source.remaining,here,List.cons_append] at view
    obtain ⟨rfl,rest⟩ := List.cons.inj view
    refine ⟨settled,?_,?_⟩
    · simpa [drop,Source.remaining,here] using rest
    · simp [drop,here,same]

end Depends.Source
