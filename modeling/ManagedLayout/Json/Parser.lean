import ManagedLayout.Json.Token

/-!
# Reading JSON texts

The parser is a stack machine over tokens. The stack holds the arrays and objects that are open, so
that a text may nest to any depth.
-/

namespace ManagedLayout.Json

/-- An array or object that is open, with what it holds so far, in reverse. A key without a text
makes its object meaningless. -/
inductive Frame where
  | items (done : List Json)
  | members (done : List (Option String × Json)) (key? : Option String)

/-- What may come next. -/
inductive Mode where
  | value
  /-- A value, or the end of the array that was just opened. -/
  | firstItem
  /-- A key, or the end of the object that was just opened. -/
  | firstKey (done : List (Option String × Json))
  | key (done : List (Option String × Json))
  | colon (done : List (Option String × Json)) (key? : Option String)
  /-- The value is complete: what comes next belongs to the innermost open frame. -/
  | complete (value : Json)

/-- The open frames, innermost first. -/
structure Parser where
  frames : List Frame
  mode : Mode

namespace Parser

def start : Parser := ⟨[], .value⟩

/-- The object with these members, which come in reverse. -/
def objectOf (members : List (Option String × Json)) : Json :=
  match members.reverse.mapM fun (key?, value) ↦ key?.map fun key ↦ (key, value) with
  | some members => .object members
  | none => .meaningless

/-- Takes the first token of a value. -/
def startValue (frames : List Frame) : Token → Option Parser
  | .scalar value => some ⟨frames, .complete value⟩
  | .string (some text) => some ⟨frames, .complete (.string text)⟩
  | .string none => some ⟨frames, .complete .meaningless⟩
  | .openBracket => some ⟨.items [] :: frames, .firstItem⟩
  | .openBrace => some ⟨frames, .firstKey []⟩
  | _ => none

/-- Takes one token. -/
def step (parser : Parser) (token : Token) : Option Parser :=
  match parser.mode, parser.frames, token with
  | .value, frames, token => startValue frames token
  | .firstItem, .items [] :: frames, .closeBracket => some ⟨frames, .complete (.array [])⟩
  | .firstItem, frames, token => startValue frames token
  | .firstKey done, frames, .closeBrace => some ⟨frames, .complete (objectOf done)⟩
  | .firstKey done, frames, .string key? => some ⟨frames, .colon done key?⟩
  | .key done, frames, .string key? => some ⟨frames, .colon done key?⟩
  | .colon done key?, frames, .colon => some ⟨.members done key? :: frames, .value⟩
  | .complete value, .items done :: frames, .comma =>
    some ⟨.items (value :: done) :: frames, .value⟩
  | .complete value, .items done :: frames, .closeBracket =>
    some ⟨frames, .complete (.array (value :: done).reverse)⟩
  | .complete value, .members done key? :: frames, .comma =>
    some ⟨frames, .key ((key?, value) :: done)⟩
  | .complete value, .members done key? :: frames, .closeBrace =>
    some ⟨frames, .complete (objectOf ((key?, value) :: done))⟩
  | _, _, _ => none

/-- The value that the tokens taken make up. -/
def result? (parser : Parser) : Option Json :=
  match parser.frames, parser.mode with
  | [], .complete value => some value
  | _, _ => none

end Parser

/-- The value that the bytes of a text stand for; none if it is not a JSON text. -/
def ofBytes? (bytes : List UInt8) : Option Json := do
  (← (← tokens? bytes).foldlM Parser.step Parser.start).result?

/-- The value that a text stands for; none if it is not a JSON text. -/
def ofText? (text : String) : Option Json := ofBytes? (Text.utf8 text)

end ManagedLayout.Json
