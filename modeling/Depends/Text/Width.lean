import Depends.Number
import Depends.Text.Cluster
import Depends.Text.Fields

/-!
How many columns a text takes on a terminal. Sequences that set a style or clear a line take none, and
a cluster takes as many as the first of its characters that takes any.
-/
namespace Depends.Text

/-- The characters above the Latin blocks that take no column: marks that are named combining, and
format characters. -/
def blankRanges : CodeRanges := [
  (0x300, 0x36f), (0x483, 0x489), (0x70f, 0x70f), (0x7eb, 0x7f3), (0xc00, 0xc00), (0xc04, 0xc04),
  (0xcf3, 0xcf3), (0xd00, 0xd01), (0x135d, 0x135f), (0x180b, 0x180e), (0x1a7f, 0x1a7f),
  (0x1ab0, 0x1ace), (0x1b6b, 0x1b73), (0x1dc0, 0x1dff), (0x200b, 0x200f), (0x2028, 0x202e),
  (0x206a, 0x206f), (0x20d0, 0x20f0), (0x2cef, 0x2cf1), (0x2de0, 0x2dff), (0x3099, 0x309a),
  (0xa66f, 0xa672), (0xa674, 0xa67d), (0xa69e, 0xa69f), (0xa6f0, 0xa6f1), (0xa8e0, 0xa8f1),
  (0xfe20, 0xfe2f), (0xfeff, 0xfeff), (0xfff9, 0xfffb), (0xfffe, 0xffff), (0x101fd, 0x101fd),
  (0x10376, 0x1037a), (0x10eab, 0x10eac), (0x10f46, 0x10f50), (0x10f82, 0x10f85),
  (0x11300, 0x11301), (0x1133b, 0x1133c), (0x11366, 0x1136c), (0x11370, 0x11374),
  (0x16af0, 0x16af4), (0x1cf00, 0x1cf2d), (0x1cf30, 0x1cf46), (0x1d165, 0x1d169),
  (0x1d16d, 0x1d172), (0x1d17b, 0x1d182), (0x1d185, 0x1d18b), (0x1d1aa, 0x1d1ad),
  (0x1d242, 0x1d244), (0x1e000, 0x1e006), (0x1e008, 0x1e018), (0x1e01b, 0x1e021),
  (0x1e023, 0x1e024), (0x1e026, 0x1e02a), (0x1e08f, 0x1e08f), (0x1e8d0, 0x1e8d6)]

/-- The East Asian wide and full-width characters. -/
def wideRanges : CodeRanges := [
  (0x1100, 0x115f), (0x231a, 0x231b), (0x2329, 0x232a), (0x23e9, 0x23ec), (0x23f0, 0x23f0),
  (0x23f3, 0x23f3), (0x25fd, 0x25fe), (0x2614, 0x2615), (0x2648, 0x2653), (0x267f, 0x267f),
  (0x2693, 0x2693), (0x26a1, 0x26a1), (0x26aa, 0x26ab), (0x26bd, 0x26be), (0x26c4, 0x26c5),
  (0x26ce, 0x26ce), (0x26d4, 0x26d4), (0x26ea, 0x26ea), (0x26f2, 0x26f3), (0x26f5, 0x26f5),
  (0x26fa, 0x26fa), (0x26fd, 0x26fd), (0x2705, 0x2705), (0x270a, 0x270b), (0x2728, 0x2728),
  (0x274c, 0x274c), (0x274e, 0x274e), (0x2753, 0x2755), (0x2757, 0x2757), (0x2795, 0x2797),
  (0x27b0, 0x27b0), (0x27bf, 0x27bf), (0x2b1b, 0x2b1c), (0x2b50, 0x2b50), (0x2b55, 0x2b55),
  (0x2e80, 0x2e99), (0x2e9b, 0x2ef3), (0x2f00, 0x2fd5), (0x2ff0, 0x303e), (0x3041, 0x3096),
  (0x3099, 0x30ff), (0x3105, 0x312f), (0x3131, 0x318e), (0x3190, 0x31e3), (0x31ef, 0x321e),
  (0x3220, 0x3247), (0x3250, 0x4dbf), (0x4e00, 0xa48c), (0xa490, 0xa4c6), (0xa960, 0xa97c),
  (0xac00, 0xd7a3), (0xf900, 0xfaff), (0xfe10, 0xfe19), (0xfe30, 0xfe52), (0xfe54, 0xfe66),
  (0xfe68, 0xfe6b), (0xff01, 0xff60), (0xffe0, 0xffe6), (0x16fe0, 0x16fe4), (0x16ff0, 0x16ff1),
  (0x17000, 0x187f7), (0x18800, 0x18cd5), (0x18d00, 0x18d08), (0x1aff0, 0x1aff3),
  (0x1aff5, 0x1affb), (0x1affd, 0x1affe), (0x1b000, 0x1b122), (0x1b132, 0x1b132),
  (0x1b150, 0x1b152), (0x1b155, 0x1b155), (0x1b164, 0x1b167), (0x1b170, 0x1b2fb),
  (0x1f004, 0x1f004), (0x1f0cf, 0x1f0cf), (0x1f18e, 0x1f18e), (0x1f191, 0x1f19a),
  (0x1f200, 0x1f202), (0x1f210, 0x1f23b), (0x1f240, 0x1f248), (0x1f250, 0x1f251),
  (0x1f260, 0x1f265), (0x1f300, 0x1f320), (0x1f32d, 0x1f335), (0x1f337, 0x1f37c),
  (0x1f37e, 0x1f393), (0x1f3a0, 0x1f3ca), (0x1f3cf, 0x1f3d3), (0x1f3e0, 0x1f3f0),
  (0x1f3f4, 0x1f3f4), (0x1f3f8, 0x1f43e), (0x1f440, 0x1f440), (0x1f442, 0x1f4fc),
  (0x1f4ff, 0x1f53d), (0x1f54b, 0x1f54e), (0x1f550, 0x1f567), (0x1f57a, 0x1f57a),
  (0x1f595, 0x1f596), (0x1f5a4, 0x1f5a4), (0x1f5fb, 0x1f64f), (0x1f680, 0x1f6c5),
  (0x1f6cc, 0x1f6cc), (0x1f6d0, 0x1f6d2), (0x1f6d5, 0x1f6d7), (0x1f6dc, 0x1f6df),
  (0x1f6eb, 0x1f6ec), (0x1f6f4, 0x1f6fc), (0x1f7e0, 0x1f7eb), (0x1f7f0, 0x1f7f0),
  (0x1f90c, 0x1f93a), (0x1f93c, 0x1f945), (0x1f947, 0x1f9ff), (0x1fa70, 0x1fa7c),
  (0x1fa80, 0x1fa88), (0x1fa90, 0x1fabd), (0x1fabf, 0x1fac5), (0x1face, 0x1fadb),
  (0x1fae0, 0x1fae8), (0x1faf0, 0x1faf8), (0x20000, 0x2fffd), (0x30000, 0x3fffd)]

/-- The columns of one character. -/
def charWidth (c : Char) : Nat :=
  let code := c.toNat
  if code < 0x20 || (0x7f ≤ code && code ≤ 0x9f) || code == 0xad then 0
  else if code < 0x300 then 1
  else if blankRanges.contains code then 0
  else if wideRanges.contains code then 2
  else 1

/-- What follows a sequence that sets a style or clears a line, when one has begun before the
characters. Its parameters have one to three digits each. -/
def afterStyle? (cs : List Char) : Option (List Char) :=
  let parameters := cs.takeWhile fun c => c.isDigit || c == ';'
  match cs.drop parameters.length with
  | last :: rest =>
    if (parameters.isEmpty || (fields ';' parameters).all fun f => 1 ≤ f.length && f.length ≤ 3) &&
        (last == 'm' || last == '|' || last == 'K') then some rest
    else none
  | [] => none

theorem afterStyle?_length_lt (cs rest : List Char) (found : afterStyle? cs = some rest) :
    rest.length < cs.length := by
  simp only [afterStyle?] at found
  split at found
  · next last tail eq =>
    split at found
    · cases found
      have := congrArg List.length eq
      simp only [List.length_drop, List.length_cons] at this
      omega
    · cases found
  · cases found

/-- The characters without sequences that set a style or clear a line. -/
def plain : List Char → List Char
  | '\x1b' :: '[' :: cs =>
    match _found : afterStyle? cs with
    | some rest => plain rest
    | none => '\x1b' :: plain ('[' :: cs)
  | c :: cs => c :: plain cs
  | [] => []
termination_by cs => cs.length
decreasing_by
  · have := afterStyle?_length_lt _ _ _found
    simp only [List.length_cons]
    omega
  · simp
  · simp

/-- The columns of a cluster. -/
def clusterWidth (cluster : List Char) : Nat :=
  ((cluster.map charWidth).find? (0 < ·)).getD 0

/-- The columns of a text. The last `cut` characters stand for the bytes of a character that has been
cut off: they belong to the cluster before them. -/
def width (s : String) (cut : Nat := 0) : Nat :=
  let cs := plain s.toList
  let whole := clusters (cs.take (cs.length - cut))
  let rest := cs.drop (cs.length - cut)
  let all := if cut = 0 then whole else whole.dropLast ++ [whole.getLast?.getD [] ++ rest]
  Number.total (all.map clusterWidth)

end Depends.Text
