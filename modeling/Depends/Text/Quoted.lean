import Depends.Text.Printable

/-!
Texts in double quotes, with escapes for the quote, the backslash and everything that does not print.
-/
namespace Depends.Text

/-- Hexadecimal digits of a number, at least as many as asked for. -/
def hex (places n : Nat) : List Char :=
  let digits := Nat.toDigits 16 n
  List.replicate (places - digits.length) '0' ++ digits

/-- The quoted form of one character. -/
def quoteChar (c : Char) : List Char :=
  if c = '"' then ['\\', '"']
  else if c = '\\' then ['\\', '\\']
  else if isPrintable c then [c]
  else
    match c.toNat with
    | 0x07 => ['\\', 'a']
    | 0x08 => ['\\', 'b']
    | 0x09 => ['\\', 't']
    | 0x0a => ['\\', 'n']
    | 0x0b => ['\\', 'v']
    | 0x0c => ['\\', 'f']
    | 0x0d => ['\\', 'r']
    | code =>
      if code < 0x20 || code == 0x7f then ['\\', 'x'] ++ hex 2 code
      else if code < 0x10000 then ['\\', 'u'] ++ hex 4 code
      else ['\\', 'U'] ++ hex 8 code

/-- A text in double quotes. -/
def quoted (s : String) : String :=
  String.ofList ('"' :: s.toList.flatMap quoteChar ++ ['"'])

end Depends.Text
