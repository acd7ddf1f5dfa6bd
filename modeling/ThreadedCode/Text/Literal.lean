/-!
# String literals

The spelling of a text as a C++ string literal. Every character outside printable ASCII is spelled
by the octal escapes of its bytes, which end after three digits whatever follows them. A slash
after a star is escaped too, so a literal can stand inside a block comment without ending it.
-/

namespace ThreadedCode

namespace Literal

/-- The last octal digit of a number. -/
def octalDigit (number : Nat) : Char := Char.ofNat (48 + number % 8)

/-- The three-digit octal escape of a byte. -/
def octalEscape (byte : UInt8) : List Char :=
  ['\\', octalDigit (byte.toNat / 64), octalDigit (byte.toNat / 8), octalDigit byte.toNat]

/-- The spelling of one character, given whether it comes right after a star. -/
def spell (afterStar : Bool) : Char → List Char
  | '\t' => ['\\', 't']
  | '\r' => ['\\', 'r']
  | '\n' => ['\\', 'n']
  | '\\' => ['\\', '\\']
  | '\'' => ['\\', '\'']
  | '"' => ['\\', '"']
  | '/' => if afterStar then octalEscape 0x2F else ['/']
  | char =>
    if 0x20 ≤ char.toNat ∧ char.toNat ≤ 0x7E then [char]
    else (String.utf8EncodeChar char).flatMap octalEscape

/-- The spelling of a sequence of characters, given whether it comes right after a star. -/
def spellAll : Bool → List Char → List Char
  | _, [] => []
  | afterStar, char :: rest => spell afterStar char ++ spellAll (char == '*') rest

/-- The literal for a text, quotes included. -/
def quote (text : String) : String :=
  String.ofList ('"' :: spellAll false text.toList ++ ['"'])

end Literal

end ThreadedCode
