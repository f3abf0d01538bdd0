import ManagedLayout.Json.Basic
import ManagedLayout.Text.Utf8

/-!
# Tokens of a JSON text

The lexer is a finite automaton: it takes one byte at a time, and collects the tokens that are
complete. What a number, a word or a string may look like is decided when it ends. Outside of
strings every byte is that of an ASCII character; inside, the bytes need not encode a text.
-/

namespace ManagedLayout.Json

inductive Token where
  | openBrace
  | closeBrace
  | openBracket
  | closeBracket
  | colon
  | comma
  /-- A value that is written as a word or as a number. -/
  | scalar (value : Json)
  /-- A string; without its text, if half of a surrogate pair stands alone in it, or if its bytes
  are those of no text. -/
  | string (text? : Option String)
  deriving Repr

/-- A piece of a string: a byte as it stands in the text, an escaped character, or half of a
surrogate pair, given by its code unit. -/
inductive Piece where
  | byte (value : UInt8)
  | char (value : Char)
  | surrogate (unit : Nat)
  deriving Repr

namespace Piece

def isHighSurrogate (unit : Nat) : Bool := 0xD800 ≤ unit && unit < 0xDC00

def isLowSurrogate (unit : Nat) : Bool := 0xDC00 ≤ unit && unit < 0xE000

/-- The piece that a code unit stands for. -/
def ofUnit (unit : Nat) : Piece :=
  if isHighSurrogate unit || isLowSurrogate unit then surrogate unit else char (Char.ofNat unit)

/-- The bytes of pieces, each high surrogate together with the low one after it; none if one is left
alone. The bytes collected so far come in reverse. -/
def bytesInto (done : List UInt8) : List Piece → Option (List UInt8)
  | [] => some done.reverse
  | byte value :: rest => bytesInto (value :: done) rest
  | char value :: rest => bytesInto ((String.utf8EncodeChar value).reverse ++ done) rest
  | surrogate high :: surrogate low :: rest =>
    if isHighSurrogate high && isLowSurrogate low then
      let value := Char.ofNat (0x10000 + (high - 0xD800) * 0x400 + (low - 0xDC00))
      bytesInto ((String.utf8EncodeChar value).reverse ++ done) rest
    else none
  | surrogate _ :: _ => none

/-- The text that pieces make up, if they make up one. -/
def join (pieces : List Piece) : Option String := do Text.ofUtf8? (← bytesInto [] pieces)

end Piece

/-- What the lexer is in the middle of; characters and pieces come in reverse. -/
inductive Pending where
  | nothing
  | number (chars : List Char)
  | word (chars : List Char)
  | string (pieces : List Piece)
  /-- Behind a backslash. -/
  | escape (pieces : List Piece)
  /-- Behind a backslash and a `u`, with the value of the hexadecimal digits so far. -/
  | unicode (pieces : List Piece) (count : Nat) (value : Nat)

/-- The tokens found so far, in reverse, and what is pending. -/
structure Lexer where
  tokens : List Token
  pending : Pending

namespace Lexer

def start : Lexer := ⟨[], .nothing⟩

def isBlank (char : Char) : Bool := char == ' ' || char == '\t' || char == '\n' || char == '\r'

def isNumberStart (char : Char) : Bool := char == '-' || char.isDigit

def continuesNumber (char : Char) : Bool :=
  char.isDigit || char == '+' || char == '-' || char == '.' || char == 'e' || char == 'E'

/-- The token of a character that is one by itself. -/
def punctuation? : Char → Option Token
  | '{' => some .openBrace
  | '}' => some .closeBrace
  | '[' => some .openBracket
  | ']' => some .closeBracket
  | ':' => some .colon
  | ',' => some .comma
  | _ => none

/-- The value of a word. -/
def word? (chars : List Char) : Option Json :=
  if chars = ['n', 'u', 'l', 'l'] then some .null
  else if chars = ['t', 'r', 'u', 'e'] then some (.bool true)
  else if chars = ['f', 'a', 'l', 's', 'e'] then some (.bool false)
  else none

/-- The character that a letter behind a backslash stands for. -/
def escaped? : Char → Option Char
  | '"' => some '"'
  | '\\' => some '\\'
  | '/' => some '/'
  | 'b' => some '\x08'
  | 'f' => some '\x0c'
  | 'n' => some '\n'
  | 'r' => some '\r'
  | 't' => some '\t'
  | _ => none

def hexDigit? (char : Char) : Option Nat :=
  if '0' ≤ char && char ≤ '9' then some (char.toNat - '0'.toNat)
  else if 'a' ≤ char && char ≤ 'f' then some (char.toNat - 'a'.toNat + 10)
  else if 'A' ≤ char && char ≤ 'F' then some (char.toNat - 'A'.toNat + 10)
  else none

/-- Takes a character while nothing is pending. -/
def startToken (tokens : List Token) (char : Char) : Option Lexer :=
  if isBlank char then some ⟨tokens, .nothing⟩
  else if isNumberStart char then some ⟨tokens, .number [char]⟩
  else if char.isAlpha then some ⟨tokens, .word [char]⟩
  else if char == '"' then some ⟨tokens, .string []⟩
  else do return ⟨(← punctuation? char) :: tokens, .nothing⟩

/-- Completes a number or a word that the text goes on behind. -/
def endToken (lexer : Lexer) : Option (List Token) :=
  match lexer.pending with
  | .nothing => some lexer.tokens
  | .number chars => do return .scalar (.number (← Number.ofChars? chars.reverse)) :: lexer.tokens
  | .word chars => do return .scalar (← word? chars.reverse) :: lexer.tokens
  | _ => none

/-- Takes one byte. -/
def step (lexer : Lexer) (byte : UInt8) : Option Lexer :=
  let char := Char.ofUInt8 byte
  match lexer.pending with
  | .nothing => startToken lexer.tokens char
  | .number chars =>
    if continuesNumber char then some { lexer with pending := .number (char :: chars) }
    else do startToken (← lexer.endToken) char
  | .word chars =>
    if char.isAlpha then some { lexer with pending := .word (char :: chars) }
    else do startToken (← lexer.endToken) char
  | .string pieces =>
    if char == '"' then some ⟨.string (Piece.join pieces.reverse) :: lexer.tokens, .nothing⟩
    else if char == '\\' then some { lexer with pending := .escape pieces }
    else if byte < 0x20 then none
    else some { lexer with pending := .string (.byte byte :: pieces) }
  | .escape pieces =>
    if char == 'u' then some { lexer with pending := .unicode pieces 0 0 }
    else do return { lexer with pending := .string (.char (← escaped? char) :: pieces) }
  | .unicode pieces count value => do
    let value := 16 * value + (← hexDigit? char)
    if count < 3 then return { lexer with pending := .unicode pieces (count + 1) value }
    else return { lexer with pending := .string (Piece.ofUnit value :: pieces) }

end Lexer

/-- The tokens of the bytes of a text; none if a part of the text is no token. -/
def tokens? (bytes : List UInt8) : Option (List Token) := do
  let lexer ← bytes.foldlM Lexer.step Lexer.start
  return (← lexer.endToken).reverse

end ManagedLayout.Json
