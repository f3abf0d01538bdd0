import ManagedLayout.Format.Choice
import ManagedLayout.Format.Collection
import ManagedLayout.Format.Record
import ManagedLayout.Format.Scalar
import Mathlib.Data.List.Basic

/-!
# Reading the binary form of a value

A reader takes a value off the front of a sequence of bytes. What it may take off is a spelling of
the value: the bytes that the value is written as, except that an absent index may also stand there
as the word of all ones, in 64 bits. A format is exact if its reader takes off the spellings of
values, all of them, and nothing else. Formats are put together from exact formats, and are exact
again.

The number of items of a list, and of bytes of a text, is written in 64 bits. Values whose lists and
texts are not longer than that are called storable; others are never read.
-/

namespace ManagedLayout

/-- The bytes that a piece may be read from: those that it is written as, and for the absent index
also its word. -/
def Word.IsSpelling : Word → List UInt8 → Prop
  | byte value, bytes => bytes = [value]
  | index raw, bytes =>
    bytes = indexBytes raw ∨ raw = Index.absentWord ∧ bytes = littleEndian 8 raw.toNat

/-- The bytes are spellings of the pieces, one behind the other. -/
inductive Spells : List Word → List UInt8 → Prop
  | nil : Spells [] []
  | cons {word : Word} {words : List Word} {piece bytes : List UInt8} :
    word.IsSpelling piece → Spells words bytes → Spells (word :: words) (piece ++ bytes)

namespace Spells

variable {words otherWords : List Word} {bytes : List UInt8}

theorem nil_iff : Spells [] bytes ↔ bytes = [] :=
  ⟨fun | .nil => rfl, fun same ↦ same ▸ .nil⟩

theorem cons_iff {word : Word} :
    Spells (word :: words) bytes ↔
      ∃ piece rest, bytes = piece ++ rest ∧ word.IsSpelling piece ∧ Spells words rest := by
  constructor
  · rintro (_ | ⟨isSpelling, spells⟩)
    exact ⟨_, _, rfl, isSpelling, spells⟩
  · rintro ⟨piece, rest, rfl, isSpelling, spells⟩
    exact .cons isSpelling spells

theorem byte_cons_iff {value : UInt8} :
    Spells (.byte value :: words) bytes ↔ ∃ rest, bytes = value :: rest ∧ Spells words rest := by
  simp [cons_iff, Word.IsSpelling]

theorem append_iff :
    Spells (words ++ otherWords) bytes ↔
      ∃ front back, bytes = front ++ back ∧ Spells words front ∧ Spells otherWords back := by
  induction words generalizing bytes with
  | nil => simp [nil_iff]
  | cons word words ih =>
    simp only [List.cons_append, cons_iff, ih]
    constructor
    · rintro ⟨piece, _, rfl, isSpelling, front, back, rfl, spells, others⟩
      exact ⟨piece ++ front, back, by simp, ⟨piece, front, rfl, isSpelling, spells⟩, others⟩
    · rintro ⟨_, back, rfl, ⟨piece, front, rfl, isSpelling, spells⟩, others⟩
      exact ⟨piece, front ++ back, by simp, isSpelling, front, back, rfl, spells, others⟩

/-- Single bytes have one spelling. -/
theorem bytes_iff {written : List UInt8} : Spells (written.map .byte) bytes ↔ bytes = written := by
  induction written generalizing bytes with
  | nil => exact nil_iff
  | cons value written ih => simp [cons_iff, ih, Word.IsSpelling]

theorem natural_iff {width value : Nat} :
    Spells (Format.naturalWords width value) bytes ↔ bytes = littleEndian width value := bytes_iff

/-- An index is read from its word, and the absent one also from -1 in 64 bits. -/
theorem index_iff {raw : UInt32} :
    Spells [.index raw] bytes ↔ ∃ number,
      (number = UInt64.size - 1 ∧ raw = Index.absentWord ∨ number = raw.toNat) ∧
        bytes = littleEndian 8 number := by
  simp only [cons_iff, nil_iff, Word.IsSpelling, Word.indexBytes]
  constructor
  · rintro ⟨_, _, rfl, rfl | ⟨isAbsent, rfl⟩, rfl⟩
    · by_cases isAbsent : raw = 0xFFFFFFFF
      · exact ⟨_, .inl ⟨rfl, isAbsent⟩, by rw [if_pos isAbsent, List.append_nil]⟩
      · exact ⟨_, .inr rfl, by rw [if_neg isAbsent, List.append_nil]⟩
    · exact ⟨_, .inr rfl, List.append_nil _⟩
  · rintro ⟨number, ⟨rfl, isAbsent⟩ | rfl, rfl⟩
    · exact ⟨_, [], (List.append_nil _).symm, .inl (congrArg _ (if_pos isAbsent).symm), rfl⟩
    · refine ⟨_, [], (List.append_nil _).symm, ?_, rfl⟩
      by_cases isAbsent : raw = 0xFFFFFFFF
      · exact .inr ⟨isAbsent, rfl⟩
      · exact .inl (congrArg _ (if_neg isAbsent).symm)

/-- What is written is a spelling. -/
theorem written (words : List Word) : Spells words (words.flatMap Word.bytes) := by
  induction words with
  | nil => exact .nil
  | cons word words ih =>
    refine .cons ?_ ih
    cases word with
    | byte value => exact rfl
    | index raw => exact .inl rfl

/-- All spellings take as many bytes as what is written. -/
theorem length_eq (spells : Spells words bytes) :
    bytes.length = (words.flatMap Word.bytes).length := by
  induction spells with
  | nil => rfl
  | @cons word words piece bytes isSpelling _ ih =>
    have same : piece.length = word.bytes.length := by
      cases word with
      | byte value => exact congrArg List.length isSpelling
      | index raw =>
        obtain rfl | ⟨-, rfl⟩ := isSpelling
        · rfl
        · simp [Word.bytes, Word.indexBytes, length_littleEndian]
    simp [same, ih]

end Spells

/-- The reader takes a value off the front of the bytes exactly if they start with a spelling of
it. -/
def Reads {Value : Type} (reader : List UInt8 → Option (Value × List UInt8))
    (spelled : Value → List UInt8 → Prop) : Prop :=
  ∀ bytes value rest,
    reader bytes = some (value, rest) ↔ ∃ front, bytes = front ++ rest ∧ spelled value front

namespace Reads

variable {Value Other : Type} {reader : List UInt8 → Option (Value × List UInt8)}
  {spelled : Value → List UInt8 → Prop}

theorem congr {otherwise : Value → List UInt8 → Prop} (reads : Reads reader spelled)
    (same : ∀ value front, spelled value front ↔ otherwise value front) :
    Reads reader otherwise :=
  fun bytes value rest ↦ by simp only [reads bytes value rest, same]

/-- Nothing is taken off. -/
theorem pure (value : Value) :
    Reads (fun bytes ↦ some (value, bytes)) fun found front ↦ found = value ∧ front = [] := by
  intro bytes found rest
  simp only [Option.some.injEq, Prod.mk.injEq]
  constructor
  · rintro ⟨rfl, rfl⟩
    exact ⟨[], rfl, rfl, rfl⟩
  · rintro ⟨_, rfl, rfl, rfl⟩
    exact ⟨rfl, rfl⟩

/-- Nothing is taken off, and there may be no value. -/
theorem ofOption (value? : Option Value) :
    Reads (fun bytes ↦ do return (← value?, bytes)) fun found front ↦
      value? = some found ∧ front = [] := by
  intro bytes found rest
  cases value? with
  | none => simp
  | some value => exact pure value bytes found rest |>.trans (by simp [eq_comm])

/-- One reader after the other. -/
theorem bind (reads : Reads reader spelled)
    {next : Value → List UInt8 → Option (Other × List UInt8)}
    {nextSpelled : Value → Other → List UInt8 → Prop}
    (nextReads : ∀ value, Reads (next value) (nextSpelled value)) :
    Reads (fun bytes ↦ do let (value, rest) ← reader bytes; next value rest)
      fun found front ↦ ∃ value head tail,
        front = head ++ tail ∧ spelled value head ∧ nextSpelled value found tail := by
  intro bytes found rest
  simp only [Option.bind_eq_bind, Option.bind_eq_some_iff, Prod.exists]
  constructor
  · rintro ⟨value, middle, read, nextRead⟩
    obtain ⟨head, rfl, isSpelled⟩ := (reads _ _ _).mp read
    obtain ⟨tail, rfl, nextIsSpelled⟩ := (nextReads _ _ _ _).mp nextRead
    exact ⟨head ++ tail, by simp, value, head, tail, rfl, isSpelled, nextIsSpelled⟩
  · rintro ⟨_, rfl, value, head, tail, rfl, isSpelled, nextIsSpelled⟩
    exact ⟨value, tail ++ rest, (reads _ _ _).mpr ⟨head, by simp, isSpelled⟩,
      (nextReads _ _ _ _).mpr ⟨tail, rfl, nextIsSpelled⟩⟩

/-- What is read is carried over to another type. -/
theorem map (reads : Reads reader spelled) {build : Value → Other} {parts : Other → Value}
    (build_parts : ∀ value, build (parts value) = value)
    (parts_build : ∀ value, parts (build value) = value) :
    Reads (fun bytes ↦ do let (value, rest) ← reader bytes; return (build value, rest))
      fun found front ↦ spelled (parts found) front := by
  refine (reads.bind fun value ↦ .pure (build value)).congr fun found front ↦ ?_
  constructor
  · rintro ⟨value, head, tail, rfl, isSpelled, rfl, rfl⟩
    rwa [parts_build, List.append_nil]
  · intro isSpelled
    exact ⟨parts found, front, [], by simp, isSpelled, (build_parts found).symm, rfl⟩

/-- What was read is read again when more bytes follow. -/
theorem append (reads : Reads reader spelled) {bytes rest : List UInt8} {value : Value}
    (read : reader bytes = some (value, rest)) (more : List UInt8) :
    reader (bytes ++ more) = some (value, rest ++ more) := by
  obtain ⟨front, rfl, isSpelled⟩ := (reads _ _ _).mp read
  exact (reads _ _ _).mpr ⟨front, by simp, isSpelled⟩

end Reads

/-- The numbers that fit the width are read from their own bytes. -/
theorem reads_ofLittleEndian? (width : Nat) :
    Reads (ofLittleEndian? width)
      fun value front ↦ value < Nat.pow 256 width ∧ front = littleEndian width value := by
  intro bytes value rest
  constructor
  · intro read
    induction width generalizing bytes value with
    | zero =>
      obtain ⟨rfl, rfl⟩ := Prod.mk.inj (Option.some.inj read)
      exact ⟨[], rfl, Nat.one_pos, rfl⟩
    | succ width ih =>
      cases bytes with
      | nil => nomatch read
      | cons byte bytes =>
        simp only [ofLittleEndian?, Option.bind_eq_bind, Option.bind_eq_some_iff,
          Prod.exists] at read
        obtain ⟨high, middle, read, same⟩ := read
        obtain ⟨rfl, rfl⟩ := Prod.mk.inj (Option.some.inj same)
        obtain ⟨front, rfl, fits, rfl⟩ := ih _ _ read
        have low : byte.toNat < 256 := byte.toNat_lt
        refine ⟨byte :: littleEndian width high, rfl, ?_, ?_⟩
        · change _ < Nat.pow 256 width * 256
          omega
        · have quotient : (byte.toNat + 256 * high) / 256 = high := by omega
          have remainder : UInt8.ofNat (byte.toNat + 256 * high) = byte := by
            apply UInt8.toNat_inj.mp
            simp
          rw [littleEndian, quotient, remainder]
  · rintro ⟨_, rfl, fits, rfl⟩
    exact ofLittleEndian?_littleEndian width value rest fits

/-- The reader of the format takes the spellings of storable values off the front of the bytes, and
nothing else. -/
class Format.Exact {Value : Type} (format : Format Value)
    (storable : outParam (Value → Prop)) : Prop where
  reads : Reads format.parse fun value front ↦
    storable value ∧ Spells (format.words value) front

/-- The fields of a record, likewise. -/
class Fields.Exact {Values : Type} (fields : Fields Values)
    (storable : outParam (Values → Prop)) : Prop where
  reads : Reads fields.parse fun values front ↦
    storable values ∧ Spells (fields.words values) front

/-- The cases of a choice, of which there are `count`, likewise: each behind its own number. -/
class Cases.Exact {Values : Type} (cases : Cases Values) (count : outParam Nat)
    (storable : outParam (Values → Prop)) : Prop where
  number_lt : ∀ values, (cases.words values).1 < count
  reads : ∀ number, Reads (cases.parse number) fun values front ↦
    (cases.words values).1 = number ∧ storable values ∧ Spells (cases.words values).2 front

namespace Format

variable {Value : Type}

/-! ### Single values -/

theorem exact_natural {width : Nat} {toNat : Value → Nat} {ofNat : Nat → Value}
    (ofNat_toNat : ∀ value, ofNat (toNat value) = value)
    (toNat_lt : ∀ value, toNat value < Nat.pow 256 width)
    (toNat_ofNat : ∀ number < Nat.pow 256 width, toNat (ofNat number) = number) :
    (natural width toNat ofNat).Exact fun _ ↦ True where
  reads := by
    refine ((reads_ofLittleEndian? width).bind fun number ↦ .pure (ofNat number)).congr
      fun value front ↦ ?_
    rw [natural, Spells.natural_iff]
    constructor
    · rintro ⟨number, head, tail, rfl, ⟨fits, rfl⟩, rfl, rfl⟩
      exact ⟨trivial, by rw [toNat_ofNat _ fits, List.append_nil]⟩
    · rintro ⟨-, rfl⟩
      exact ⟨toNat value, _, [], (List.append_nil _).symm, ⟨toNat_lt value, rfl⟩,
        (ofNat_toNat value).symm, rfl⟩

instance : uint8.Exact fun _ ↦ True :=
  exact_natural (fun _ ↦ UInt8.ofNat_toNat) UInt8.toNat_lt fun _ ↦ UInt8.toNat_ofNat_of_lt'

instance : uint16.Exact fun _ ↦ True :=
  exact_natural (fun _ ↦ UInt16.ofNat_toNat) UInt16.toNat_lt fun _ ↦ UInt16.toNat_ofNat_of_lt'

instance : uint32.Exact fun _ ↦ True :=
  exact_natural (fun _ ↦ UInt32.ofNat_toNat) UInt32.toNat_lt fun _ ↦ UInt32.toNat_ofNat_of_lt'

instance : uint64.Exact fun _ ↦ True :=
  exact_natural (fun _ ↦ UInt64.ofNat_toNat) UInt64.toNat_lt fun _ ↦ UInt64.toNat_ofNat_of_lt'

instance : int32.Exact fun _ ↦ True where
  reads := by
    have asWord : (natural 4 (·.toUInt32.toNat) fun number ↦ (UInt32.ofNat number).toInt32).Exact
        fun _ ↦ True :=
      exact_natural (fun value ↦ by simp) (fun value ↦ value.toUInt32.toNat_lt) fun number fits ↦
        by simpa using UInt32.toNat_ofNat_of_lt' fits
    exact asWord.reads

instance : flag.Exact fun _ ↦ True where
  reads bytes value rest := by
    simp only [flag, Spells.byte_cons_iff, Spells.nil_iff, true_and]
    constructor
    · intro read
      split at read
      · obtain ⟨rfl, rfl⟩ := Prod.mk.inj (Option.some.inj read)
        exact ⟨[0], rfl, [], rfl, rfl⟩
      · obtain ⟨rfl, rfl⟩ := Prod.mk.inj (Option.some.inj read)
        exact ⟨[1], rfl, [], rfl, rfl⟩
      · nomatch read
    · rintro ⟨_, rfl, _, rfl, rfl⟩
      cases value <;> rfl

/-- The bytes that are taken are any of the given number. -/
theorem reads_takeBytes? (count : Nat) :
    Reads (takeBytes? count) fun taken front ↦ taken.length = count ∧ front = taken := by
  intro bytes taken rest
  simp only [takeBytes?, List.splitAt_eq]
  constructor
  · intro read
    split at read
    next enough =>
      obtain ⟨rfl, rfl⟩ := Prod.mk.inj (Option.some.inj read)
      exact ⟨bytes.take count, (List.take_append_drop count bytes).symm, enough, rfl⟩
    next => nomatch read
  · rintro ⟨_, rfl, rfl, rfl⟩
    simp

instance : text.Exact fun value ↦ value.utf8ByteSize < UInt64.size where
  reads := by
    refine ((reads_ofLittleEndian? 8).bind fun size ↦
      (reads_takeBytes? size).bind fun taken ↦ .ofOption (Text.ofUtf8? taken)).congr
      fun value front ↦ ?_
    simp only [text, Spells.append_iff, Spells.natural_iff, Spells.bytes_iff,
      Text.ofUtf8?_eq_some_iff]
    constructor
    · rintro ⟨_, _, _, rfl, ⟨fits, rfl⟩, _, _, _, rfl, ⟨rfl, rfl⟩, rfl, rfl⟩
      exact ⟨fits, _, _, rfl, rfl, List.append_nil _⟩
    · rintro ⟨fits, _, _, rfl, rfl, rfl⟩
      exact ⟨_, _, _, rfl, ⟨fits, rfl⟩, _, _, [], (List.append_nil _).symm, ⟨rfl, rfl⟩, rfl, rfl⟩

instance {kind : TableKind} : (index : Format (Index kind)).Exact fun _ ↦ True where
  reads := by
    have decoded (number : Nat) :
        Reads (fun bytes ↦
          if number = UInt64.size - 1 then some ((Index.absent : Index kind), bytes)
          else if number < UInt32.size then some (⟨UInt32.ofNat number⟩, bytes)
          else none)
          fun value front ↦ (number = UInt64.size - 1 ∧ value.raw = Index.absentWord ∨
            number = value.raw.toNat) ∧ front = [] := by
      have small (raw : UInt32) : raw.toNat < UInt64.size - 1 :=
        Nat.lt_of_lt_of_le raw.toNat_lt (by decide)
      split_ifs with isAbsent fits
      · refine (Reads.pure _).congr fun ⟨raw⟩ front ↦ and_congr_left fun _ ↦ ?_
        rw [or_iff_left (isAbsent ▸ Nat.ne_of_gt (small raw)), and_iff_right isAbsent,
          Index.absent, Index.mk.injEq]
      · refine (Reads.pure _).congr fun ⟨raw⟩ front ↦ and_congr_left fun _ ↦ ?_
        rw [Index.mk.injEq, or_iff_right fun given ↦ isAbsent given.1]
        constructor
        · rintro rfl
          exact (UInt32.toNat_ofNat_of_lt' fits).symm
        · rintro rfl
          exact UInt32.ofNat_toNat.symm
      · rintro bytes ⟨raw⟩ rest
        simp only [reduceCtorEq, false_iff, not_exists, not_and]
        rintro _ - (given | rfl)
        · exact absurd given.1 isAbsent
        · exact absurd raw.toNat_lt fits
    refine ((reads_ofLittleEndian? 8).bind decoded).congr fun value front ↦ ?_
    rw [index, Spells.index_iff]
    constructor
    · rintro ⟨number, _, _, rfl, ⟨fits, rfl⟩, isNumber, rfl⟩
      exact ⟨trivial, number, isNumber, List.append_nil _⟩
    · rintro ⟨-, number, isNumber, rfl⟩
      refine ⟨number, _, [], (List.append_nil _).symm, ⟨?_, rfl⟩, isNumber, rfl⟩
      obtain ⟨rfl, -⟩ | rfl := isNumber
      · decide
      · exact Nat.lt_of_lt_of_le value.raw.toNat_lt (by decide)

example :
    let parse := (index : Format (Index .types)).parse
    parse (List.replicate 8 0xFF) = some (.absent, []) ∧
      parse (List.replicate 4 0xFF ++ List.replicate 4 0) = some (.absent, []) := by decide

instance : version.Exact fun _ ↦ True where
  reads := by
    have parse_eq : version.parse = fun bytes ↦ do
        let (major, rest) ← uint32.parse bytes
        let (minor, rest) ← uint32.parse rest
        return (⟨major, minor⟩, rest) := by
      funext bytes
      simp [version, uint32, natural, Option.bind_assoc]
    have part : Reads uint32.parse fun value front ↦ True ∧ Spells (uint32.words value) front :=
      Exact.reads
    rw [parse_eq]
    refine (part.bind fun major ↦ part.bind fun minor ↦
      .pure (Version.mk major minor)).congr fun ⟨major, minor⟩ front ↦ ?_
    change _ ↔ True ∧ Spells (uint32.words major ++ uint32.words minor) front
    rw [Spells.append_iff]
    constructor
    · rintro ⟨_, head, _, rfl, ⟨-, spells⟩, _, tail, _, rfl, ⟨-, others⟩, ⟨⟩, rfl⟩
      exact ⟨trivial, head, tail, by simp, spells, others⟩
    · rintro ⟨-, head, tail, rfl, spells, others⟩
      exact ⟨major, head, tail, rfl, ⟨trivial, spells⟩, minor, tail, [], by simp,
        ⟨trivial, others⟩, rfl, rfl⟩

/-! ### Lists and optional values -/

section

variable {format : Format Value} {storable : Value → Prop}
  [exact : format.Exact storable]

/-- The values are taken off one after the other, behind those found before. -/
theorem reads_parseMany (count : Nat) (found : List Value) :
    Reads (format.parseMany count found) fun values front ↦ ∃ later,
      values = found.reverse ++ later ∧ later.length = count ∧ (∀ value ∈ later, storable value) ∧
        Spells (later.flatMap format.words) front := by
  induction count generalizing found with
  | zero =>
    refine (Reads.pure found.reverse).congr fun values front ↦ ?_
    constructor
    · rintro ⟨rfl, rfl⟩
      exact ⟨[], by simp, rfl, by simp, .nil⟩
    · rintro ⟨later, rfl, none, -, spells⟩
      obtain rfl := List.length_eq_zero_iff.mp none
      exact ⟨by simp, Spells.nil_iff.mp spells⟩
  | succ count ih =>
    refine (exact.reads.bind fun value ↦ ih (value :: found)).congr fun values front ↦ ?_
    constructor
    · rintro ⟨value, head, tail, rfl, ⟨isStorable, spells⟩, later, rfl, rfl, areStorable, others⟩
      exact ⟨value :: later, by simp, rfl, List.forall_mem_cons.mpr ⟨isStorable, areStorable⟩,
        Spells.append_iff.mpr ⟨head, tail, rfl, spells, others⟩⟩
    · rintro ⟨later, rfl, isCount, areStorable, spells⟩
      obtain ⟨value, later, rfl⟩ := List.exists_cons_of_length_eq_add_one isCount
      obtain ⟨isStorable, areStorable⟩ := List.forall_mem_cons.mp areStorable
      obtain ⟨head, tail, rfl, spells, others⟩ := Spells.append_iff.mp spells
      exact ⟨value, head, tail, rfl, ⟨isStorable, spells⟩, later, by simp, Nat.succ.inj isCount,
        areStorable, others⟩

instance : format.list.Exact fun values ↦
    values.length < UInt64.size ∧ ∀ value ∈ values, storable value where
  reads := by
    refine ((reads_ofLittleEndian? 8).bind fun count ↦ reads_parseMany count []).congr
      fun values front ↦ ?_
    simp only [list, Spells.append_iff, Spells.natural_iff]
    constructor
    · rintro ⟨count, _, tail, rfl, ⟨fits, rfl⟩, _, rfl, rfl, areStorable, spells⟩
      exact ⟨⟨fits, areStorable⟩, _, tail, rfl, rfl, spells⟩
    · rintro ⟨⟨fits, areStorable⟩, _, tail, rfl, rfl, spells⟩
      exact ⟨_, _, tail, rfl, ⟨fits, rfl⟩, values, rfl, rfl, areStorable, spells⟩

instance : format.optional.Exact fun value? ↦ ∀ value ∈ value?, storable value where
  reads bytes value? rest := by
    constructor
    · intro read
      simp only [optional] at read
      split at read
      · obtain ⟨rfl, rfl⟩ := Prod.mk.inj (Option.some.inj read)
        exact ⟨[0], rfl, by simp, .written [.byte 0]⟩
      · simp only [Option.bind_eq_bind, Option.bind_eq_some_iff, Prod.exists] at read
        obtain ⟨value, _, read, same⟩ := read
        obtain ⟨rfl, rfl⟩ := Prod.mk.inj (Option.some.inj same)
        obtain ⟨front, rfl, isStorable, spells⟩ := (exact.reads _ _ _).mp read
        exact ⟨1 :: front, rfl, by simpa using isStorable,
          Spells.byte_cons_iff.mpr ⟨front, rfl, spells⟩⟩
      · nomatch read
    · rintro ⟨_, rfl, isStorable, spells⟩
      cases value? with
      | none =>
        obtain ⟨_, rfl, nothing⟩ := Spells.byte_cons_iff.mp spells
        obtain rfl := Spells.nil_iff.mp nothing
        rfl
      | some value =>
        obtain ⟨front, rfl, others⟩ := Spells.byte_cons_iff.mp spells
        have read : format.parse (front ++ rest) = some (value, rest) :=
          (exact.reads _ _ _).mpr ⟨front, rfl, isStorable value rfl, others⟩
        simp only [optional, List.cons_append, read]
        rfl

theorem exact_map {Other : Type} (build : Value → Other) (parts : Other → Value)
    (build_parts : ∀ value, build (parts value) = value)
    (parts_build : ∀ value, parts (build value) = value) :
    (format.map build parts).Exact fun value ↦ storable (parts value) where
  reads := exact.reads.map build_parts parts_build

instance : format.array.Exact fun values ↦
    values.size < UInt64.size ∧ ∀ value ∈ values, storable value where
  reads := (format.list.exact_map List.toArray Array.toList (by simp) (by simp)).reads.congr
    fun values front ↦ by simp [array]

instance {kind : TableKind} : (table format : Format (Table kind Value)).Exact fun table ↦
    table.size < UInt64.size ∧ ∀ value ∈ table.toList, storable value :=
  format.list.exact_map Table.ofList Table.toList Table.ofList_toList Table.toList_ofList

end

/-! ### Enumerations -/

/-- A value of an enumeration is read by its number. -/
theorem exact_enumeration [DecidableEq Value] {all : List Value} (name : Value → String)
    (mem_all : ∀ value, value ∈ all) (distinct : all.Nodup)
    (fits : all.length ≤ Nat.pow 256 4) :
    (enumeration all name).Exact fun _ ↦ True where
  reads := by
    refine ((reads_ofLittleEndian? 4).bind fun number ↦ .ofOption all[number]?).congr
      fun value front ↦ ?_
    simp only [enumeration, Spells.natural_iff]
    constructor
    · rintro ⟨number, _, _, rfl, ⟨-, rfl⟩, isValue, rfl⟩
      obtain ⟨inside, rfl⟩ := List.getElem?_eq_some_iff.mp isValue
      rw [distinct.idxOf_getElem number inside, List.append_nil]
      exact ⟨trivial, rfl⟩
    · rintro ⟨-, rfl⟩
      have inside := List.idxOf_lt_length_of_mem (mem_all value)
      exact ⟨_, _, [], (List.append_nil _).symm, ⟨Nat.lt_of_lt_of_le inside fits, rfl⟩,
        List.getElem?_idxOf (mem_all value), rfl⟩

end Format

/-! ### Records -/

section

variable {Value Values : Type}

instance {name : String} {format : Format Value} {storable : Value → Prop}
    [exact : format.Exact storable] : (Field.required name format).format.Exact storable := exact

instance {name : String} {format : Format Value} {value : Value} {storable : Value → Prop}
    [exact : format.Exact storable] : (Field.defaulted name format value).format.Exact storable :=
  exact

instance : Fields.none.Exact fun _ ↦ True where
  reads := (Reads.pure ()).congr fun _ front ↦ by simp [Fields.none, Spells.nil_iff]

instance {field : Field Value} {fields : Fields Values} {storable : Value → Prop}
    {areStorable : Values → Prop} [exact : field.format.Exact storable]
    [exactFields : fields.Exact areStorable] :
    (Fields.cons field fields).Exact fun values ↦ storable values.1 ∧ areStorable values.2 where
  reads := by
    refine (exact.reads.bind fun value ↦ exactFields.reads.bind fun values ↦
      .pure (value, values)).congr fun values front ↦ ?_
    simp only [Fields.cons, Spells.append_iff]
    constructor
    · rintro ⟨value, head, _, rfl, ⟨isStorable, spells⟩, others, tail, _, rfl,
        ⟨othersAreStorable, othersSpell⟩, rfl, rfl⟩
      exact ⟨⟨isStorable, othersAreStorable⟩, head, tail, by simp, spells, othersSpell⟩
    · rintro ⟨⟨isStorable, othersAreStorable⟩, head, tail, rfl, spells, othersSpell⟩
      exact ⟨_, head, tail, rfl, ⟨isStorable, spells⟩, _, tail, [], (List.append_nil _).symm,
        ⟨othersAreStorable, othersSpell⟩, rfl, rfl⟩

/-- Records are read if their parts are. -/
theorem Format.Exact.record {fields : Fields Values} {areStorable : Values → Prop}
    [exact : fields.Exact areStorable] {build : Values → Value} {values : Value → Values}
    {storable : Value → Prop} (build_values : ∀ value, build (values value) = value)
    (values_build : ∀ parts, values (build parts) = parts)
    (storable_iff : ∀ value, storable value ↔ areStorable (values value)) :
    (Format.record fields build values).Exact storable where
  reads := (exact.reads.map build_values values_build).congr fun value front ↦ by
    rw [storable_iff]
    rfl

/-! ### Choices -/

instance Cases.exact_none : Cases.none.Exact 0 nofun where
  number_lt := nofun
  reads _ _ := nofun

instance {name : String} {format : Format Value} {cases : Cases Values} {count : Nat}
    {storable : Value → Prop} {areStorable : Values → Prop} [exact : format.Exact storable]
    [exactCases : cases.Exact count areStorable] :
    (Cases.payload name format cases).Exact (count + 1) (Sum.elim storable areStorable) where
  number_lt
    | .inl _ => Nat.zero_lt_succ count
    | .inr values => Nat.succ_lt_succ (exactCases.number_lt values)
  reads
    | 0 => by
      refine (exact.reads.bind fun value ↦ .pure (Sum.inl value)).congr fun value front ↦ ?_
      cases value <;> simp [Cases.payload]
    | number + 1 => by
      refine ((exactCases.reads number).bind fun values ↦ .pure (Sum.inr values)).congr
        fun value front ↦ ?_
      cases value <;> simp [Cases.payload]

instance {name : String} {cases : Cases Values} {count : Nat} {areStorable : Values → Prop}
    [exactCases : cases.Exact count areStorable] :
    (Cases.plain name cases).Exact (count + 1) (Sum.elim (fun _ ↦ True) areStorable) where
  number_lt
    | .inl _ => Nat.zero_lt_succ count
    | .inr values => Nat.succ_lt_succ (exactCases.number_lt values)
  reads
    | 0 => by
      refine (Reads.pure (Sum.inl ())).congr fun value front ↦ ?_
      cases value <;> simp [Cases.plain, Spells.nil_iff]
    | number + 1 => by
      refine ((exactCases.reads number).bind fun values ↦ .pure (Sum.inr values)).congr
        fun value front ↦ ?_
      cases value <;> simp [Cases.plain]

/-- Choices are read if their payloads are. -/
theorem Format.Exact.choice {cases : Cases Values} {count : Nat} {areStorable : Values → Prop}
    [exact : cases.Exact count areStorable] {build : Values → Value} {values : Value → Values}
    {storable : Value → Prop} (build_values : ∀ value, build (values value) = value)
    (values_build : ∀ parts, values (build parts) = parts)
    (storable_iff : ∀ value, storable value ↔ areStorable (values value))
    (fits : count ≤ Nat.pow 256 4) :
    (Format.choice cases build values).Exact storable where
  reads := by
    refine ((reads_ofLittleEndian? 4).bind fun number ↦
      (exact.reads number).map build_values values_build).congr fun value front ↦ ?_
    simp only [Format.choice, Spells.append_iff, Spells.natural_iff, storable_iff]
    constructor
    · rintro ⟨number, _, tail, rfl, ⟨-, rfl⟩, rfl, isStorable, spells⟩
      exact ⟨isStorable, _, tail, rfl, rfl, spells⟩
    · rintro ⟨isStorable, _, tail, rfl, rfl, spells⟩
      exact ⟨_, _, tail, rfl, ⟨Nat.lt_of_lt_of_le (exact.number_lt _) fits, rfl⟩, rfl, isStorable,
        spells⟩

end

end ManagedLayout
