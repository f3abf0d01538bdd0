import ManagedLayout.Json.Printer
import ManagedLayout.Json.Token
import ManagedLayout.Proofs.Text.Digits
import Mathlib.Tactic.IntervalCases

/-!
# Tokens of printed texts

What the printer writes for a string, a number or a word, the lexer takes for one token with the
same value. A number or a word ends only where the text goes on with something else, or not at all.
-/

namespace ManagedLayout

namespace Text

/-- The bytes of a text are those of its characters. -/
theorem utf8_eq_flatMap (text : String) :
    utf8 text = text.toList.flatMap String.utf8EncodeChar := by
  have encoded : text.toUTF8 = text.toList.utf8Encode := String.utf8Encode_toList.symm
  rw [utf8, encoded, List.utf8Encode, List.toList_data_toByteArray]

theorem utf8_append (text other : String) : utf8 (text ++ other) = utf8 text ++ utf8 other := by
  simp [utf8_eq_flatMap]

end Text

namespace Json

open Lexer (step)
open Text (utf8 utf8_append utf8_eq_flatMap)

/-- The bytes start with a character that neither a number nor a word goes on with. -/
def Delimits : List UInt8 → Prop
  | [] => False
  | byte :: _ =>
    Lexer.continuesNumber (Char.ofUInt8 byte) = false ∧ (Char.ofUInt8 byte).isAlpha = false

/-- The bytes are those of the tokens, of which the last one may still be pending. -/
def Lexes (bytes : List UInt8) (tokens : List Token) : Prop :=
  ∀ done, ∃ lexer, bytes.foldlM step ⟨done, .nothing⟩ = some lexer ∧
    lexer.endToken = some (tokens.reverse ++ done)

/-- The bytes are those of the tokens, whatever follows. -/
def LexesAll (bytes : List UInt8) (tokens : List Token) : Prop :=
  ∀ done, bytes.foldlM step ⟨done, .nothing⟩ = some ⟨tokens.reverse ++ done, .nothing⟩

theorem LexesAll.lexes {bytes : List UInt8} {tokens : List Token} (lexes : LexesAll bytes tokens) :
    Lexes bytes tokens := fun done ↦ ⟨_, lexes done, rfl⟩

/-- In front of a delimiter, a token that could go on is as good as complete. -/
theorem step_of_endToken {lexer : Lexer} {done : List Token} {byte : UInt8} {rest : List UInt8}
    (ended : lexer.endToken = some done) (delimits : Delimits (byte :: rest)) :
    lexer.step byte = step ⟨done, .nothing⟩ byte := by
  obtain ⟨noNumber, noWord⟩ := delimits
  obtain ⟨tokens, pending⟩ := lexer
  cases pending with
  | nothing =>
    obtain rfl : tokens = done := Option.some.inj ended
    rfl
  | number chars => simp [step, noNumber, ended]
  | word chars => simp [step, noWord, ended]
  | string | escape | unicode => nomatch ended

namespace LexesAll

variable {bytes others : List UInt8} {tokens otherTokens : List Token}

theorem append (lexes : LexesAll bytes tokens) (lexesOthers : LexesAll others otherTokens) :
    LexesAll (bytes ++ others) (tokens ++ otherTokens) := fun done ↦ by
  simp [lexes done, lexesOthers (tokens.reverse ++ done)]

theorem append_lexes (lexes : LexesAll bytes tokens) (lexesOthers : Lexes others otherTokens) :
    Lexes (bytes ++ others) (tokens ++ otherTokens) := fun done ↦ by
  obtain ⟨lexer, lexed, ended⟩ := lexesOthers (tokens.reverse ++ done)
  exact ⟨lexer, by simp [lexes done, lexed], by simp [ended]⟩

end LexesAll

namespace Lexes

variable {bytes others : List UInt8} {tokens otherTokens : List Token}

/-- A pending token makes no difference to a delimiter behind it. -/
theorem foldlM_append (lexes : Lexes bytes tokens) (delimits : Delimits others)
    (done : List Token) :
    (bytes ++ others).foldlM step ⟨done, .nothing⟩ =
      others.foldlM step ⟨tokens.reverse ++ done, .nothing⟩ := by
  obtain ⟨lexer, lexed, ended⟩ := lexes done
  cases others with
  | nil => nomatch delimits
  | cons byte rest =>
    rw [List.foldlM_append, lexed, List.foldlM_cons, ← step_of_endToken ended delimits]
    rfl

theorem append (lexes : Lexes bytes tokens) (lexesOthers : Lexes others otherTokens)
    (delimits : Delimits others) : Lexes (bytes ++ others) (tokens ++ otherTokens) := fun done ↦ by
  obtain ⟨lexer, lexed, ended⟩ := lexesOthers (tokens.reverse ++ done)
  exact ⟨lexer, by rw [lexes.foldlM_append delimits, lexed], by simp [ended]⟩

theorem append_lexesAll (lexes : Lexes bytes tokens) (lexesOthers : LexesAll others otherTokens)
    (delimits : Delimits others) :
    LexesAll (bytes ++ others) (tokens ++ otherTokens) := fun done ↦ by
  rw [lexes.foldlM_append delimits, lexesOthers (tokens.reverse ++ done)]
  simp

/-- The last token is complete where the text ends. -/
theorem tokens?_eq (lexes : Lexes bytes tokens) : tokens? bytes = some tokens := by
  obtain ⟨lexer, lexed, ended⟩ := lexes []
  simp [tokens?, Lexer.start, lexed, ended]

end Lexes

/-! ### Blanks -/

theorem utf8_lineBreak (level : Nat) :
    utf8 (lineBreak level) = 0x0A :: List.replicate (2 * level) 0x20 := by
  have lineFeed : utf8 "\n" = [0x0A] := by decide
  have blank : String.utf8EncodeChar ' ' = [0x20] := by decide
  rw [lineBreak, utf8_append, lineFeed, utf8_eq_flatMap, String.toList_ofList, List.flatMap,
    List.map_replicate, blank, List.flatten_replicate_singleton]
  rfl

theorem lexesAll_lineBreak (level : Nat) : LexesAll (utf8 (lineBreak level)) [] := fun done ↦ by
  have blanks (count : Nat) :
      List.foldlM step ⟨done, .nothing⟩ (List.replicate count 0x20) = some ⟨done, .nothing⟩ := by
    induction count with
    | zero => rfl
    | succ count ih => exact ih
  rw [utf8_lineBreak]
  exact blanks _

theorem delimits_lineBreak (level : Nat) (rest : List UInt8) :
    Delimits (utf8 (lineBreak level) ++ rest) := by
  rw [utf8_lineBreak]
  exact ⟨rfl, rfl⟩

/-! ### Numbers -/

/-- The byte of an ASCII character. -/
theorem utf8EncodeChar_of_ascii {char : Char} (isAscii : char.toNat < 128) :
    ∃ byte, String.utf8EncodeChar char = [byte] ∧ Char.ofUInt8 byte = char := by
  have small : char.val.toNat < 128 := isAscii
  refine ⟨UInt8.ofNat char.val.toNat, if_pos (by omega), Char.toNat_inj.mp ?_⟩
  exact UInt8.toNat_ofNat_of_lt' (Nat.lt_of_lt_of_le small (by decide))

theorem ascii_of_continuesNumber {char : Char} (continues : Lexer.continuesNumber char = true) :
    char.toNat < 128 := by
  simp only [Lexer.continuesNumber, Bool.or_eq_true, beq_iff_eq] at continues
  obtain ((((isDigit | rfl) | rfl) | rfl) | rfl) | rfl := continues
  · simp [Char.isDigit, UInt32.le_iff_toNat_le] at isDigit
    omega
  all_goals decide

theorem foldlM_number {chars : List Char} (all : ∀ char ∈ chars, Lexer.continuesNumber char = true)
    (done : List Token) (before : List Char) :
    (chars.flatMap String.utf8EncodeChar).foldlM step ⟨done, .number before⟩ =
      some ⟨done, .number (chars.reverse ++ before)⟩ := by
  induction chars generalizing before with
  | nil => rfl
  | cons char chars ih =>
    obtain ⟨continues, all⟩ := List.forall_mem_cons.mp all
    obtain ⟨byte, encoded, decoded⟩ := utf8EncodeChar_of_ascii (ascii_of_continuesNumber continues)
    simp [encoded, step, decoded, continues, ih all]

theorem lexes_number {char : Char} {rest : List Char} {number : Number}
    (isStart : Lexer.isNumberStart char = true)
    (all : ∀ char ∈ rest, Lexer.continuesNumber char = true)
    (read : Number.ofChars? (char :: rest) = some number) :
    Lexes ((char :: rest).flatMap String.utf8EncodeChar) [.scalar (.number number)] := fun done ↦ by
  have continues : Lexer.continuesNumber char = true := by
    simp only [Lexer.isNumberStart, Bool.or_eq_true, beq_iff_eq] at isStart
    obtain rfl | isDigit := isStart
    · rfl
    · simp [Lexer.continuesNumber, isDigit]
  have noBlank : Lexer.isBlank char = false := by
    by_contra isBlank
    simp only [Lexer.isBlank, Bool.not_eq_false, Bool.or_eq_true, beq_iff_eq] at isBlank
    obtain ((rfl | rfl) | rfl) | rfl := isBlank <;> exact absurd isStart (by decide)
  obtain ⟨byte, encoded, decoded⟩ := utf8EncodeChar_of_ascii (ascii_of_continuesNumber continues)
  refine ⟨⟨done, .number (rest.reverse ++ [char])⟩, ?_, ?_⟩
  · simp [encoded, step, decoded, Lexer.startToken, noBlank, isStart, foldlM_number all]
  · simp [Lexer.endToken, read]

theorem lexes_integer (value : Int) :
    Lexes (utf8 (Number.text (.integer value))) [.scalar (.number (.integer value))] := by
  have read := Number.ofChars?_text value
  rw [utf8_eq_flatMap]
  rw [Number.toList_text] at read ⊢
  have digits : ∀ char ∈ Nat.toDigits 10 value.natAbs, Lexer.continuesNumber char = true :=
    fun char mem ↦ by simp [Lexer.continuesNumber, isDigit_of_mem_toDigits mem]
  by_cases isNegative : value < 0
  · rw [if_pos isNegative] at read ⊢
    exact lexes_number rfl digits read
  · rw [if_neg isNegative, List.nil_append] at read ⊢
    cases written : Nat.toDigits 10 value.natAbs with
    | nil => exact absurd written Nat.toDigits_ne_nil
    | cons digit rest =>
      rw [written] at read digits
      have isDigit : digit.isDigit = true :=
        isDigit_of_mem_toDigits (written ▸ List.mem_cons_self)
      exact lexes_number (by simp [Lexer.isNumberStart, isDigit])
        (List.forall_mem_cons.mp digits).2 read

/-! ### Strings -/

/-- The characters that a string cannot hold as they are. -/
def IsEscaped (char : Char) : Prop := char = '"' ∨ char = '\\' ∨ char.toNat < 0x20

instance : DecidablePred IsEscaped := fun _ ↦ inferInstanceAs (Decidable (_ ∨ _))

/-- The pieces that the lexer takes a printed character for: itself if it is escaped, else its
bytes. -/
def printedPieces (char : Char) : List Piece :=
  if IsEscaped char then [.char char] else (String.utf8EncodeChar char).map .byte

/-- The byte of no escaped character. -/
def IsUnescapedByte (byte : UInt8) : Prop :=
  byte.toNat ≠ 0x22 ∧ byte.toNat ≠ 0x5C ∧ 0x20 ≤ byte.toNat

theorem foldlM_unescaped {bytes : List UInt8} (all : ∀ byte ∈ bytes, IsUnescapedByte byte)
    (done : List Token) (before : List Piece) :
    bytes.foldlM step ⟨done, .string before⟩ =
      some ⟨done, .string ((bytes.map .byte).reverse ++ before)⟩ := by
  induction bytes generalizing before with
  | nil => rfl
  | cons byte bytes ih =>
    obtain ⟨⟨noQuote, noBackslash, noControl⟩, all⟩ := List.forall_mem_cons.mp all
    have isNot (char : Char) (other : byte.toNat ≠ char.toNat) : Char.ofUInt8 byte ≠ char :=
      fun same ↦ other (congrArg Char.toNat same)
    have large : ¬ byte < 0x20 := by simpa [UInt8.lt_iff_toNat_lt] using noControl
    have taken : step ⟨done, .string before⟩ byte =
        some ⟨done, .string (.byte byte :: before)⟩ := by
      simp [step, isNot '"' noQuote, isNot '\\' noBackslash, large]
    simp [taken, ih all]

/-- The bytes of a character outside of ASCII are all above those of ASCII. -/
theorem isUnescapedByte_of_mem {char : Char} (unescaped : ¬ IsEscaped char) {byte : UInt8}
    (mem : byte ∈ String.utf8EncodeChar char) : IsUnescapedByte byte := by
  obtain ⟨noQuote, noBackslash, noControl⟩ : char.val.toNat ≠ 0x22 ∧ char.val.toNat ≠ 0x5C ∧
      0x20 ≤ char.val.toNat := by
    refine ⟨fun same ↦ unescaped (.inl (Char.toNat_inj.mp same)),
      fun same ↦ unescaped (.inr (.inl (Char.toNat_inj.mp same))), ?_⟩
    by_contra small
    exact unescaped (.inr (.inr (Nat.lt_of_not_le small)))
  unfold IsUnescapedByte
  simp only [String.utf8EncodeChar] at mem
  split_ifs at mem <;>
    simp only [List.mem_cons, List.not_mem_nil, or_false, ← UInt8.toNat_inj,
      UInt8.toNat_ofNat'] at mem <;>
    omega

theorem escapedChar_of_not_isEscaped {char : Char} (unescaped : ¬ IsEscaped char) :
    escapedChar char = char.toString := by
  have large : ¬ char.toNat < 0x20 := fun small ↦ unescaped (.inr (.inr small))
  unfold escapedChar
  split
  case h_8 => rw [if_neg (by omega), if_neg large]
  all_goals exact absurd (by decide) unescaped

theorem foldlM_escapedChar (char : Char) (done : List Token) (before : List Piece) :
    (utf8 (escapedChar char)).foldlM step ⟨done, .string before⟩ =
      some ⟨done, .string ((printedPieces char).reverse ++ before)⟩ := by
  by_cases escaped : IsEscaped char
  · obtain rfl | rfl | isControl := escaped
    · rfl
    · rfl
    · -- A control character is escaped by a letter of its own or by its code; each is run.
      have control (code : Nat) (small : code < 0x20) :
          (utf8 (escapedChar (Char.ofNat code))).foldlM step ⟨done, .string before⟩ =
            some ⟨done, .string ((printedPieces (Char.ofNat code)).reverse ++ before)⟩ := by
        interval_cases code <;> rfl
      rw [← Char.ofNat_toNat char]
      exact control _ isControl
  · have written : utf8 (escapedChar char) = String.utf8EncodeChar char := by
      simp [escapedChar_of_not_isEscaped escaped, utf8_eq_flatMap]
    rw [written, printedPieces, if_neg escaped]
    exact foldlM_unescaped (fun _ ↦ isUnescapedByte_of_mem escaped) done before

theorem bytesInto_printedPieces (char : Char) (done : List UInt8) (rest : List Piece) :
    Piece.bytesInto done (printedPieces char ++ rest) =
      Piece.bytesInto ((String.utf8EncodeChar char).reverse ++ done) rest := by
  unfold printedPieces
  split
  · rfl
  · generalize String.utf8EncodeChar char = bytes
    induction bytes generalizing done with
    | nil => rfl
    | cons byte bytes ih => simp [Piece.bytesInto, ih]

theorem join_printedPieces (text : String) :
    Piece.join (text.toList.flatMap printedPieces) = some text := by
  have bytes (chars : List Char) (done : List UInt8) :
      Piece.bytesInto done (chars.flatMap printedPieces) =
        some (done.reverse ++ chars.flatMap String.utf8EncodeChar) := by
    induction chars generalizing done with
    | nil => simp [Piece.bytesInto]
    | cons char chars ih => simp [bytesInto_printedPieces, ih]
  simp [Piece.join, bytes, ← utf8_eq_flatMap]

theorem utf8_foldl_escapedChar (chars : List Char) (before : String) :
    utf8 (chars.foldl (fun done char ↦ done ++ escapedChar char) before) =
      utf8 before ++ chars.flatMap fun char ↦ utf8 (escapedChar char) := by
  induction chars generalizing before with
  | nil => simp
  | cons char chars ih => simp [ih, utf8_append]

theorem foldlM_escapedChars (chars : List Char) (done : List Token) (before : List Piece) :
    (chars.flatMap fun char ↦ utf8 (escapedChar char)).foldlM step ⟨done, .string before⟩ =
      some ⟨done, .string ((chars.flatMap printedPieces).reverse ++ before)⟩ := by
  induction chars generalizing before with
  | nil => rfl
  | cons char chars ih => simp [foldlM_escapedChar, ih]

theorem lexesAll_string (text : String) :
    LexesAll (utf8 (stringText text)) [.string (some text)] := fun done ↦ by
  have quote : utf8 "\"" = [0x22] := by decide
  have start : step ⟨done, .nothing⟩ 0x22 = some ⟨done, .string []⟩ := rfl
  have stop (pieces : List Piece) : step ⟨done, .string pieces⟩ 0x22 =
      some ⟨.string (Piece.join pieces.reverse) :: done, .nothing⟩ := rfl
  have empty : utf8 "" = [] := by decide
  simp [stringText, utf8_append, quote, utf8_foldl_escapedChar, empty, start, foldlM_escapedChars,
    stop, join_printedPieces]

end Json

end ManagedLayout
