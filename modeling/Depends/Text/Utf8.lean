/-!
Bytes as text. Well-formed UTF-8 sequences give their characters; each byte that starts no such
sequence gives one replacement character, so every byte string reads as some text.
-/
namespace Depends.Text

/-- The character that stands for a byte outside every well-formed sequence. -/
def replacement : Char := Char.ofNat 0xfffd

/-- A byte between the given bounds. -/
def within (low high b : UInt8) : Bool :=
  low ≤ b && b ≤ high

/-- A byte that continues a sequence. -/
def continues (b : UInt8) : Bool := within 0x80 0xbf b

/-- The payload of a continuation byte. -/
def payload (b : UInt8) : Nat := b.toNat % 64

/-- The well-formed sequence at the front of the bytes: its character and its length. -/
def sequence? : List UInt8 → Option (Char × Nat)
  | [] => none
  | a :: rest =>
    if a < 0x80 then some (Char.ofNat a.toNat, 1)
    else if 0xc2 ≤ a && a ≤ 0xdf then
      match rest with
      | b :: _ => if continues b then some (Char.ofNat (a.toNat % 32 * 64 + payload b), 2) else none
      | _ => none
    else if 0xe0 ≤ a && a ≤ 0xef then
      let low : UInt8 := if a == 0xe0 then 0xa0 else 0x80
      let high : UInt8 := if a == 0xed then 0x9f else 0xbf
      match rest with
      | b :: c :: _ =>
        if within low high b && continues c then
          some (Char.ofNat (a.toNat % 16 * 4096 + payload b * 64 + payload c), 3)
        else none
      | _ => none
    else if 0xf0 ≤ a && a ≤ 0xf4 then
      let low : UInt8 := if a == 0xf0 then 0x90 else 0x80
      let high : UInt8 := if a == 0xf4 then 0x8f else 0xbf
      match rest with
      | b :: c :: d :: _ =>
        if within low high b && continues c && continues d then
          some (Char.ofNat (a.toNat % 8 * 262144 + payload b * 4096 + payload c * 64 + payload d), 4)
        else none
      | _ => none
    else none

/-- The characters of a byte string. -/
def decode : List UInt8 → List Char
  | [] => []
  | a :: rest =>
    match sequence? (a :: rest) with
    | some (c, size) => c :: decode (rest.drop (size - 1))
    | none => replacement :: decode rest
termination_by bytes => bytes.length
decreasing_by all_goals simp only [List.length_drop, List.length_cons]; omega

/-- The bytes begin a well-formed sequence that they do not finish. -/
def isCut : List UInt8 → Bool
  | [a] => within 0xc2 0xf4 a
  | [a, b] => within 0xe0 0xf4 a && leads a b
  | [a, b, c] => within 0xf0 0xf4 a && leads a b && continues c
  | _ => false
where
  /-- The second byte may follow the first. -/
  leads (a b : UInt8) : Bool :=
    within (if a == 0xe0 then 0xa0 else if a == 0xf0 then 0x90 else 0x80)
      (if a == 0xed then 0x9f else if a == 0xf4 then 0x8f else 0xbf) b

/-- The characters of a byte string up to a sequence that it does not finish, and the bytes of that
sequence. -/
def decodeWhole : List UInt8 → List Char × List UInt8
  | [] => ([], [])
  | a :: rest =>
    if isCut (a :: rest) then ([], a :: rest)
    else
      match sequence? (a :: rest) with
      | some (c, size) => let (cs, left) := decodeWhole (rest.drop (size - 1)); (c :: cs, left)
      | none => let (cs, left) := decodeWhole rest; (replacement :: cs, left)
termination_by bytes => bytes.length
decreasing_by all_goals simp only [List.length_drop, List.length_cons]; omega

/-- The number of bytes that the first character takes. -/
def firstSize (bytes : List UInt8) : Nat :=
  match sequence? bytes with
  | some (_, size) => size
  | none => min 1 bytes.length

/-- The characters of a byte string, each with the place where it starts; the string itself starts at
`start`. -/
def places (start : Nat) : List UInt8 → List (Nat × Char)
  | [] => []
  | a :: rest =>
    match sequence? (a :: rest) with
    | some (c, size) => (start, c) :: places (start + 1 + (size - 1)) (rest.drop (size - 1))
    | none => (start, replacement) :: places (start + 1) rest
termination_by bytes => bytes.length
decreasing_by all_goals simp only [List.length_drop, List.length_cons]; omega

/-- The place where a byte string first occurs in another. -/
def indexOf? (needle : List UInt8) : List UInt8 → Option Nat
  | [] => if needle.isEmpty then some 0 else none
  | b :: bytes =>
    if needle.isPrefixOf (b :: bytes) then some 0 else (indexOf? needle bytes).map (· + 1)

/-- Every byte belongs to a well-formed sequence. -/
def isWellFormed : List UInt8 → Bool
  | [] => true
  | a :: rest =>
    match sequence? (a :: rest) with
    | some (_, size) => isWellFormed (rest.drop (size - 1))
    | none => false
termination_by bytes => bytes.length
decreasing_by all_goals simp only [List.length_drop, List.length_cons]; omega

/-- The UTF-8 bytes of a text. -/
def encode (s : String) : List UInt8 := s.toUTF8.toList

/-- The characters at the front that fit into so many bytes, and how many bytes are left over. -/
def fitting (size : Nat) : List Char → List Char × Nat
  | [] => ([], size)
  | c :: cs =>
    if c.utf8Size ≤ size then
      let (whole, left) := fitting (size - c.utf8Size) cs
      (c :: whole, left)
    else ([], size)

/-- The text that a byte string reads as. -/
def ofBytes (bytes : List UInt8) : String := String.ofList (decode bytes)

end Depends.Text
