import ThreadedCode.Text.Printable

/-!
# Quoted text

The spelling of a text inside a message: in double quotes, with escapes for quotes, backslashes
and everything that would not show.
-/

namespace ThreadedCode

namespace Quoted

/-- The spelling of one character. -/
def spell : Char → List Char
  | '\x00' => ['\\', '0']
  | '\t' => ['\\', 't']
  | '\r' => ['\\', 'r']
  | '\n' => ['\\', 'n']
  | '"' => ['\\', '"']
  | '\\' => ['\\', '\\']
  | char =>
    if Printable.isPrintable char then [char]
    else ['\\', 'u', '\x7b'] ++ Nat.toDigits 16 char.toNat ++ ['\x7d']

/-- The text in quotes. -/
def quote (text : String) : String :=
  String.ofList ('"' :: text.toList.flatMap spell ++ ['"'])

end Quoted

end ThreadedCode
