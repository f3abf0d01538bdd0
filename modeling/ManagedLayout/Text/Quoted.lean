import ManagedLayout.Text.Printable

/-!
# Quoted texts

Messages show a text that they refuse between double quotes. Inside, a quote, a backslash and the
usual blanks are escaped by a letter, and a character that does not print by its code.
-/

namespace ManagedLayout.Text

/-- The hexadecimal digits of a number, in lower case, without leading zeros. -/
def hexadecimal (value : Nat) : String := String.ofList (Nat.toDigits 16 value)

/-- How one character is written inside a quoted text. -/
def quotedChar (char : Char) : String :=
  match char with
  | '"' => "\\\""
  | '\\' => "\\\\"
  | '\t' => "\\t"
  | '\n' => "\\n"
  | '\r' => "\\r"
  | '\x00' => "\\0"
  | _ =>
    if isPrintable char then char.toString
    else "\\u" ++ "\x7b" ++ hexadecimal char.toNat ++ "\x7d"

/-- A text between double quotes. -/
def quoted (text : String) : String :=
  "\"" ++ text.toList.foldl (fun done char ↦ done ++ quotedChar char) "" ++ "\""

end ManagedLayout.Text
