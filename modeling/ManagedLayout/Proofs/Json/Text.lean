import ManagedLayout.Json.Parser
import ManagedLayout.Proofs.Json.Lexing

/-!
# Reading printed texts

A JSON value is read back from the text that it is printed as, if all its numbers are integers and
all its parts have a meaning. The text is taken apart into the tokens of the value, and these are
put together to the value again; either way, arrays and objects follow from what they hold.
-/

namespace ManagedLayout.Json

open Text (utf8 utf8_append)

/-- The value has no decimals, which may lose digits, and no parts without a meaning. -/
inductive IsPlain : Json → Prop
  | null : IsPlain null
  | bool (value : Bool) : IsPlain (bool value)
  | integer (value : Int) : IsPlain (number (.integer value))
  | string (text : String) : IsPlain (string text)
  | array {items : List Json} : (∀ item ∈ items, IsPlain item) → IsPlain (array items)
  | object {members : List (String × Json)} :
    (∀ member ∈ members, IsPlain member.2) → IsPlain (object members)

/-- The tokens of parts between brackets. -/
def blockTokens (opening closing : Token) (parts : List (List Token)) : List Token :=
  opening :: [Token.comma].intercalate parts ++ [closing]

mutual

/-- The tokens of a value. -/
def tokens : Json → List Token
  | string text => [.string (some text)]
  | array items => blockTokens .openBracket .closeBracket (itemTokens items)
  | object members => blockTokens .openBrace .closeBrace (memberTokens members)
  | value => [.scalar value]

/-- The tokens of the items of an array. -/
def itemTokens : List Json → List (List Token)
  | [] => []
  | item :: rest => item.tokens :: itemTokens rest

/-- The tokens of the members of an object. -/
def memberTokens : List (String × Json) → List (List Token)
  | [] => []
  | (key, value) :: rest => (.string (some key) :: .colon :: value.tokens) :: memberTokens rest

end

theorem itemTokens_eq_map (items : List Json) : itemTokens items = items.map tokens := by
  induction items with
  | nil => rfl
  | cons item items ih => rw [itemTokens, ih, List.map_cons]

/-- The tokens of one member. -/
def namedTokens (member : String × Json) : List Token :=
  .string (some member.1) :: .colon :: member.2.tokens

theorem memberTokens_eq_map (members : List (String × Json)) :
    memberTokens members = members.map namedTokens := by
  induction members with
  | nil => rfl
  | cons member members ih => rw [memberTokens, ih, List.map_cons, namedTokens]

theorem prettyItems_eq_map (level : Nat) (items : List Json) :
    prettyItems level items = items.map (prettyAt level) := by
  induction items with
  | nil => rfl
  | cons item items ih => rw [prettyItems, ih, List.map_cons]

theorem prettyMembers_eq_map (level : Nat) (members : List (String × Json)) :
    prettyMembers level members =
      members.map fun member ↦ stringText member.1 ++ ": " ++ member.2.prettyAt level := by
  induction members with
  | nil => rfl
  | cons member members ih => rw [prettyMembers, ih, List.map_cons]

/-- Parts with something between any two of them: one part, and the others behind a separator. -/
theorem intercalate_cons {Item : Type} (separator first : List Item) (rest : List (List Item)) :
    separator.intercalate (first :: rest) = first ++ rest.flatMap (separator ++ ·) := by
  induction rest generalizing first with
  | nil => simp
  | cons next rest ih => simp [List.intercalate_cons_cons, ih]

theorem utf8_intercalate (separator : String) (texts : List String) :
    utf8 (separator.intercalate texts) = (utf8 separator).intercalate (texts.map utf8) := by
  induction texts with
  | nil => rfl
  | cons text texts ih =>
    cases texts with
    | nil => simp
    | cons next texts =>
      rw [String.intercalate_cons_cons, utf8_append, utf8_append, ih]
      simp [List.intercalate_cons_cons]

/-! ### From the text to the tokens -/

/-- The lines of a block behind the first one. -/
theorem lexesAll_lines {bytes closing : List UInt8} {first : List Token} {last : Token}
    (lexes : Lexes bytes first) (lexesClosing : LexesAll closing [last])
    (delimits : Delimits closing) (level : Nat) (parts : List (String × List Token))
    (lexesParts : ∀ part ∈ parts, Lexes (utf8 part.1) part.2) :
    LexesAll
      (bytes ++ parts.flatMap (fun part ↦ utf8 ("," ++ lineBreak level) ++ utf8 part.1) ++ closing)
      (first ++ parts.flatMap (fun part ↦ .comma :: part.2) ++ [last]) := by
  induction parts generalizing bytes first with
  | nil => simpa using lexes.append_lexesAll lexesClosing delimits
  | cons part parts ih =>
    obtain ⟨lexesPart, lexesParts⟩ := List.forall_mem_cons.mp lexesParts
    have separator : LexesAll (utf8 ("," ++ lineBreak level)) [.comma] := by
      have comma : LexesAll (utf8 ",") [.comma] := fun _ ↦ rfl
      rw [utf8_append]
      exact comma.append (lexesAll_lineBreak level)
    have delimits : Delimits (utf8 ("," ++ lineBreak level) ++ utf8 part.1) := by
      rw [utf8_append]
      exact ⟨rfl, rfl⟩
    simpa using ih (lexes.append (separator.append_lexes lexesPart) delimits) lexesParts

theorem lexesAll_block {left right : String} {opening closing : Token}
    (lexesLeft : LexesAll (utf8 left) [opening]) (lexesRight : LexesAll (utf8 right) [closing])
    (level : Nat) (parts : List (String × List Token))
    (lexesParts : ∀ part ∈ parts, Lexes (utf8 part.1) part.2) :
    LexesAll (utf8 (block level left right (parts.map Prod.fst)))
      (blockTokens opening closing (parts.map Prod.snd)) := by
  cases parts with
  | nil => simpa [block, blockTokens, utf8_append] using lexesLeft.append lexesRight
  | cons part parts =>
    obtain ⟨lexesPart, lexesParts⟩ := List.forall_mem_cons.mp lexesParts
    have start := lexesLeft.append (lexesAll_lineBreak (level + 1))
    have stop := (lexesAll_lineBreak level).append lexesRight
    have lines := lexesAll_lines lexesPart stop (delimits_lineBreak level _) (level + 1) parts
      lexesParts
    simpa [block, blockTokens, utf8_append, utf8_intercalate, intercalate_cons, List.flatMap_map]
      using start.append lines

theorem lexes_array {items : List Json} (level : Nat)
    (lexesItems : ∀ item ∈ items, Lexes (utf8 (item.prettyAt (level + 1))) item.tokens) :
    Lexes (utf8 ((array items).prettyAt level)) (array items).tokens := by
  have opening : LexesAll (utf8 "[") [.openBracket] := fun _ ↦ rfl
  have closing : LexesAll (utf8 "]") [.closeBracket] := fun _ ↦ rfl
  have lexed := lexesAll_block opening closing level
    (items.map fun item ↦ (item.prettyAt (level + 1), item.tokens))
    (List.forall_mem_map.mpr lexesItems)
  simpa [prettyAt, tokens, prettyItems_eq_map, itemTokens_eq_map, Function.comp_def]
    using lexed.lexes

theorem lexes_object {members : List (String × Json)} (level : Nat)
    (lexesValues : ∀ member ∈ members,
      Lexes (utf8 (member.2.prettyAt (level + 1))) member.2.tokens) :
    Lexes (utf8 ((object members).prettyAt level)) (object members).tokens := by
  have opening : LexesAll (utf8 "\x7b") [.openBrace] := fun _ ↦ rfl
  have closing : LexesAll (utf8 "\x7d") [.closeBrace] := fun _ ↦ rfl
  have colon : LexesAll (utf8 ": ") [.colon] := fun _ ↦ rfl
  have lexesMember (member : String × Json) (mem : member ∈ members) :
      Lexes (utf8 (stringText member.1 ++ ": " ++ member.2.prettyAt (level + 1)))
        (namedTokens member) := by
    rw [utf8_append, utf8_append]
    exact ((lexesAll_string member.1).append colon).append_lexes (lexesValues member mem)
  have lexed := lexesAll_block opening closing level
    (members.map fun member ↦
      (stringText member.1 ++ ": " ++ member.2.prettyAt (level + 1), namedTokens member))
    (by simpa only [List.forall_mem_map] using lexesMember)
  simpa [prettyAt, tokens, prettyMembers_eq_map, memberTokens_eq_map, Function.comp_def]
    using lexed.lexes

/-- The text of a value is lexed as its tokens. -/
theorem lexes_prettyAt {value : Json} (isPlain : value.IsPlain) (level : Nat) :
    Lexes (utf8 (value.prettyAt level)) value.tokens := by
  induction isPlain generalizing level with
  | null => exact fun _ ↦ ⟨_, rfl, rfl⟩
  | bool value => cases value <;> exact fun _ ↦ ⟨_, rfl, rfl⟩
  | integer value => exact lexes_integer value
  | string text => exact (lexesAll_string text).lexes
  | array _ ih => exact lexes_array level fun item mem ↦ ih item mem (level + 1)
  | object _ ih => exact lexes_object level fun member mem ↦ ih member mem (level + 1)

/-! ### From the tokens to the value -/

/-- A value may come, as the first item of an array or elsewhere. -/
def Mode.ExpectsValue (mode : Mode) : Prop := mode = value ∨ mode = firstItem

theorem step_eq_startValue {mode : Mode} (expects : mode.ExpectsValue) (frames : List Frame)
    (token : Token) (notEnd : token ≠ .closeBracket) :
    Parser.step ⟨frames, mode⟩ token = Parser.startValue frames token := by
  obtain rfl | rfl := expects
  · rfl
  · unfold Parser.step
    split <;> simp_all

/-- The tokens are taken for the value wherever a value may come. -/
def Parses (tokens : List Token) (value : Json) : Prop :=
  ∀ frames mode, mode.ExpectsValue →
    tokens.foldlM Parser.step ⟨frames, mode⟩ = some ⟨frames, .complete value⟩

/-- The items of an array behind the first one. -/
theorem foldlM_items {items : List Json} (parses : ∀ item ∈ items, Parses item.tokens item)
    (frames : List Frame) (done : List Json) (value : Json) :
    List.foldlM Parser.step ⟨.items done :: frames, .complete value⟩
        (items.flatMap (fun item ↦ .comma :: item.tokens) ++ [.closeBracket]) =
      some ⟨frames, .complete (array (done.reverse ++ value :: items))⟩ := by
  induction items generalizing done value with
  | nil => simp [Parser.step]
  | cons item items ih =>
    obtain ⟨parsesItem, parses⟩ := List.forall_mem_cons.mp parses
    have comma : Parser.step ⟨.items done :: frames, .complete value⟩ .comma =
        some ⟨.items (value :: done) :: frames, .value⟩ := rfl
    have parsed := parsesItem (.items (value :: done) :: frames) .value (.inl rfl)
    simpa [comma, parsed] using ih parses (value :: done) item

theorem parses_array {items : List Json} (parses : ∀ item ∈ items, Parses item.tokens item) :
    Parses (array items).tokens (array items) := by
  intro frames mode expects
  have opened : Parser.step ⟨frames, mode⟩ .openBracket = some ⟨.items [] :: frames, .firstItem⟩ :=
    step_eq_startValue expects frames .openBracket nofun
  cases items with
  | nil =>
    have closed : Parser.step ⟨.items [] :: frames, .firstItem⟩ .closeBracket =
        some ⟨frames, .complete (array [])⟩ := rfl
    simp [tokens, itemTokens, blockTokens, opened, closed]
  | cons item items =>
    obtain ⟨parsesItem, parses⟩ := List.forall_mem_cons.mp parses
    have first := parsesItem (.items [] :: frames) .firstItem (.inr rfl)
    have others := foldlM_items parses frames [] item
    simpa [tokens, itemTokens_eq_map, blockTokens, intercalate_cons, List.flatMap_map, opened,
      first] using others

/-- Members whose keys have a text make up an object. -/
theorem objectOf_reverse (members : List (String × Json)) :
    Parser.objectOf (members.map (Prod.map some id)).reverse = object members := by
  have named (members : List (String × Json)) : members.mapM some = some members := by
    induction members with
    | nil => rfl
    | cons member members ih => simp [ih]
  simp [Parser.objectOf, Function.comp_def, named]

/-- A member behind the brace or the comma in front of it. -/
theorem foldlM_member {mode : Mode} {done : List (Option String × Json)}
    (expects : mode = .firstKey done ∨ mode = .key done) {member : String × Json}
    (parses : Parses member.2.tokens member.2) (frames : List Frame) :
    (namedTokens member).foldlM Parser.step ⟨frames, mode⟩ =
      some ⟨.members done (some member.1) :: frames, .complete member.2⟩ := by
  have named : Parser.step ⟨frames, mode⟩ (.string (some member.1)) =
      some ⟨frames, .colon done (some member.1)⟩ := by
    obtain rfl | rfl := expects <;> rfl
  have colon : Parser.step ⟨frames, .colon done (some member.1)⟩ .colon =
      some ⟨.members done (some member.1) :: frames, .value⟩ := rfl
  simp [namedTokens, named, colon, parses _ _ (.inl rfl)]

/-- The members of an object behind the first one. -/
theorem foldlM_members {members : List (String × Json)}
    (parses : ∀ member ∈ members, Parses member.2.tokens member.2)
    (frames : List Frame) (before : List (String × Json)) (key : String) (value : Json) :
    List.foldlM Parser.step
        ⟨.members (before.map (Prod.map some id)).reverse (some key) :: frames, .complete value⟩
        (members.flatMap (fun member ↦ .comma :: namedTokens member) ++ [.closeBrace]) =
      some ⟨frames, .complete (object (before ++ (key, value) :: members))⟩ := by
  induction members generalizing before key value with
  | nil => simpa [Parser.step] using objectOf_reverse (before ++ [(key, value)])
  | cons member members ih =>
    obtain ⟨parsesNext, parses⟩ := List.forall_mem_cons.mp parses
    have comma (done : List (Option String × Json)) :
        Parser.step ⟨.members done (some key) :: frames, .complete value⟩ .comma =
          some ⟨frames, .key ((some key, value) :: done)⟩ := rfl
    have next (done : List (Option String × Json)) :
        (namedTokens member).foldlM Parser.step ⟨frames, .key done⟩ = some _ :=
      foldlM_member (.inr rfl) parsesNext frames
    simpa [comma, next] using ih parses (before ++ [(key, value)]) member.1 member.2

theorem parses_object {members : List (String × Json)}
    (parses : ∀ member ∈ members, Parses member.2.tokens member.2) :
    Parses (object members).tokens (object members) := by
  intro frames mode expects
  have opened : Parser.step ⟨frames, mode⟩ .openBrace = some ⟨frames, .firstKey []⟩ :=
    step_eq_startValue expects frames .openBrace nofun
  cases members with
  | nil =>
    have closed : Parser.step ⟨frames, .firstKey []⟩ .closeBrace =
        some ⟨frames, .complete (object [])⟩ := rfl
    simp [tokens, memberTokens, blockTokens, opened, closed]
  | cons member members =>
    obtain ⟨parsesValue, parses⟩ := List.forall_mem_cons.mp parses
    have first : (namedTokens member).foldlM Parser.step ⟨frames, .firstKey []⟩ = some _ :=
      foldlM_member (.inl rfl) parsesValue frames
    have others := foldlM_members parses frames [] member.1 member.2
    simpa [tokens, memberTokens_eq_map, blockTokens, intercalate_cons, List.flatMap_map, opened,
      first] using others

/-- The tokens of a value are parsed to it. -/
theorem parses_tokens {value : Json} (isPlain : value.IsPlain) : Parses value.tokens value := by
  induction isPlain with
  | null | bool | integer | string =>
    intro frames mode expects
    simp [tokens, step_eq_startValue expects, Parser.startValue]
  | array _ ih => exact parses_array ih
  | object _ ih => exact parses_object ih

/-- **Printed texts are read back.** -/
theorem ofText?_pretty {value : Json} (isPlain : value.IsPlain) :
    ofText? value.pretty = some value := by
  have lexed : tokens? (utf8 value.pretty) = some value.tokens :=
    (lexes_prettyAt isPlain 0).tokens?_eq
  have parsed : value.tokens.foldlM Parser.step Parser.start = some ⟨[], .complete value⟩ :=
    parses_tokens isPlain [] .value (.inl rfl)
  simp [ofText?, ofBytes?, lexed, parsed, Parser.result?]

end ManagedLayout.Json
