import ManagedLayout.Json.Parser
import Mathlib.Algebra.BigOperators.Group.List.Basic
import Mathlib.Algebra.GroupWithZero.Nat
import Mathlib.Algebra.Order.BigOperators.Group.List
import Mathlib.Algebra.Order.Group.Nat
import Mathlib.Tactic.SplitIfs

/-!
# The size of what is read

A value is no larger than the text that it is read from: every item of an array and every byte of a
string takes up a byte of the text. The lexer and the parser collect no more than the bytes that they
have taken pay for.
-/

namespace ManagedLayout.Json

mutual

/-- The number of bytes that a value takes up in a text at least, if the keys of objects take up
none. -/
def size : Json → Nat
  | string text => text.utf8ByteSize + 1
  | array items => sizeOfItems items + 1
  | object members => sizeOfMembers members + 1
  | _ => 1

def sizeOfItems : List Json → Nat
  | [] => 0
  | item :: rest => item.size + sizeOfItems rest

def sizeOfMembers : List (String × Json) → Nat
  | [] => 0
  | (_, value) :: rest => value.size + sizeOfMembers rest

end

theorem sizeOfItems_eq_sum (items : List Json) : sizeOfItems items = (items.map size).sum := by
  induction items with
  | nil => rfl
  | cons item items ih => simp [sizeOfItems, ih]

theorem sizeOfMembers_eq_sum (members : List (String × Json)) :
    sizeOfMembers members = (members.map fun member ↦ member.2.size).sum := by
  induction members with
  | nil => rfl
  | cons member members ih => simp [sizeOfMembers, ih]

@[simp] theorem size_string (text : String) : (string text).size = text.utf8ByteSize + 1 := rfl

@[simp] theorem size_array (items : List Json) :
    (array items).size = (items.map size).sum + 1 := by
  rw [size, sizeOfItems_eq_sum]

@[simp] theorem size_object (members : List (String × Json)) :
    (object members).size = (members.map fun member ↦ member.2.size).sum + 1 := by
  rw [size, sizeOfMembers_eq_sum]

theorem size_pos (json : Json) : 0 < json.size := by cases json <;> exact Nat.succ_pos _

theorem length_lt_size_array (items : List Json) : items.length < (array items).size := by
  have noLonger : (items.map size).length ≤ (items.map size).sum :=
    List.length_le_sum_of_one_le _ (List.forall_mem_map.mpr fun item _ ↦ item.size_pos)
  rw [List.length_map] at noLonger
  rw [size_array]
  exact Nat.lt_succ_of_le noLonger

theorem size_lt_size_array {items : List Json} {item : Json} (mem : item ∈ items) :
    item.size < (array items).size := by
  rw [size_array]
  exact Nat.lt_succ_of_le (List.le_sum_of_mem (List.mem_map_of_mem mem))

theorem size_lt_size_object {members : List (String × Json)} {member : String × Json}
    (mem : member ∈ members) : member.2.size < (object members).size := by
  rw [size_object]
  exact Nat.lt_succ_of_le (List.le_sum_of_mem (List.mem_map.mpr ⟨member, mem, rfl⟩))

/-- A machine whose steps each pay for what they add has paid for all of it in the end. -/
theorem size_foldlM_le {State Item : Type} {step : State → Item → Option State}
    (size : State → Nat) (cost : Item → Nat)
    (size_step_le : ∀ {state item next}, step state item = some next →
      size next ≤ size state + cost item)
    {items : List Item} {start final : State} (stepped : items.foldlM step start = some final) :
    size final ≤ size start + (items.map cost).sum := by
  induction items generalizing start with
  | nil =>
    obtain rfl := Option.some.inj stepped
    exact Nat.le_refl _
  | cons item items ih =>
    rw [List.foldlM_cons] at stepped
    obtain ⟨next, step, stepped⟩ := Option.bind_eq_some_iff.mp stepped
    calc size final
      _ ≤ size next + (items.map cost).sum := ih stepped
      _ ≤ size start + cost item + (items.map cost).sum :=
        Nat.add_le_add_right (size_step_le step) _
      _ = size start + ((item :: items).map cost).sum := by simp [Nat.add_assoc]

/-! ### Strings -/

namespace Piece

/-- The number of bytes that a piece gives at most. Both halves of a surrogate pair count. -/
def size : Piece → Nat
  | byte _ => 1
  | char value => value.utf8Size
  | surrogate _ => 4

theorem size_ofUnit_le (unit : Nat) : (ofUnit unit).size ≤ 4 := by
  unfold ofUnit
  split
  · exact Nat.le_refl _
  · exact Char.utf8Size_le_four _

theorem length_bytesInto_le {done bytes : List UInt8} {pieces : List Piece}
    (joined : bytesInto done pieces = some bytes) :
    bytes.length ≤ done.length + (pieces.map size).sum := by
  fun_induction bytesInto done pieces with
  | case1 done =>
    obtain rfl := Option.some.inj joined
    simp
  | case2 done value rest ih =>
    have ended := ih joined
    simp only [List.length_cons, List.map_cons, List.sum_cons, size] at ended ⊢
    omega
  | case3 done value rest ih =>
    have ended := ih joined
    simp only [List.length_append, List.length_reverse, String.length_utf8EncodeChar, List.map_cons,
      List.sum_cons, size] at ended ⊢
    omega
  | case4 done high low rest isPair value ih =>
    have ended := ih joined
    have := value.utf8Size_le_four
    simp only [List.length_append, List.length_reverse, String.length_utf8EncodeChar, List.map_cons,
      List.sum_cons, size] at ended ⊢
    omega
  | case5 => nomatch joined
  | case6 => nomatch joined

theorem utf8ByteSize_join_le {pieces : List Piece} {text : String}
    (joined : join pieces = some text) : text.utf8ByteSize ≤ (pieces.map size).sum := by
  obtain ⟨bytes, joined, isText⟩ := Option.bind_eq_some_iff.mp joined
  obtain rfl := Text.ofUtf8?_eq_some_iff.mp isText
  simpa [Text.length_utf8] using length_bytesInto_le joined

end Piece

/-! ### Tokens -/

/-- The number of bytes that a token takes up at least. -/
def Token.size : Token → Nat
  | scalar value => value.size
  | string (some text) => text.utf8ByteSize + 1
  | _ => 1

/-- The number of bytes that have been taken for what is pending. -/
def Pending.size : Pending → Nat
  | nothing => 0
  | number _ | word _ => 1
  | string pieces => (pieces.map Piece.size).sum + 1
  | escape pieces => (pieces.map Piece.size).sum + 2
  | unicode pieces count _ => (pieces.map Piece.size).sum + count + 3

namespace Lexer

/-- The number of bytes that have been taken at least. -/
def size (lexer : Lexer) : Nat := (lexer.tokens.map Token.size).sum + lexer.pending.size

theorem size_punctuation?_eq {char : Char} {token : Token} (isMark : punctuation? char = some token) :
    token.size = 1 := by
  unfold punctuation? at isMark
  split at isMark <;> first | (obtain rfl := Option.some.inj isMark; rfl) | nomatch isMark

theorem size_word?_eq {chars : List Char} {value : Json} (isWord : word? chars = some value) :
    value.size = 1 := by
  unfold word? at isWord
  split_ifs at isWord <;> (obtain rfl := Option.some.inj isWord; rfl)

theorem utf8Size_escaped?_eq {letter char : Char} (isEscape : escaped? letter = some char) :
    char.utf8Size = 1 := by
  unfold escaped? at isEscape
  split at isEscape <;> first | (obtain rfl := Option.some.inj isEscape; rfl) | nomatch isEscape

theorem size_startToken_le {tokens : List Token} {char : Char} {lexer : Lexer}
    (started : startToken tokens char = some lexer) :
    lexer.size ≤ (tokens.map Token.size).sum + 1 := by
  unfold startToken at started
  split_ifs at started
  case neg =>
    obtain ⟨token, isMark, same⟩ := Option.bind_eq_some_iff.mp started
    obtain rfl := Option.some.inj same
    simp [size, Pending.size, size_punctuation?_eq isMark, Nat.add_comm]
  all_goals
    obtain rfl := Option.some.inj started
    simp [size, Pending.size]

theorem size_endToken_le {lexer : Lexer} {tokens : List Token}
    (ended : lexer.endToken = some tokens) : (tokens.map Token.size).sum ≤ lexer.size := by
  obtain ⟨done, pending⟩ := lexer
  cases pending with
  | nothing =>
    obtain rfl := Option.some.inj ended
    exact Nat.le_add_right _ _
  | number chars =>
    obtain ⟨number, -, same⟩ := Option.bind_eq_some_iff.mp ended
    obtain rfl := Option.some.inj same
    simp [size, Pending.size, Token.size, Json.size, Nat.add_comm]
  | word chars =>
    obtain ⟨value, isWord, same⟩ := Option.bind_eq_some_iff.mp ended
    obtain rfl := Option.some.inj same
    simp [size, Pending.size, Token.size, size_word?_eq isWord, Nat.add_comm]
  | string | escape | unicode => nomatch ended

/-- A byte pays for what is collected when it is taken. -/
theorem size_step_le {lexer next : Lexer} {byte : UInt8} (step : lexer.step byte = some next) :
    next.size ≤ lexer.size + 1 := by
  -- A number or a word ends where another token starts, and the byte pays for that one.
  have restarts {char : Char} (stepped : (do startToken (← lexer.endToken) char) = some next) :
      next.size ≤ lexer.size + 1 := by
    obtain ⟨tokens, ended, started⟩ := Option.bind_eq_some_iff.mp stepped
    exact Nat.le_trans (size_startToken_le started)
      (Nat.add_le_add_right (size_endToken_le ended) 1)
  obtain ⟨tokens, pending⟩ := lexer
  cases pending with
  | nothing => exact size_startToken_le step
  | number chars =>
    simp only [Lexer.step] at step
    split at step
    · obtain rfl := Option.some.inj step
      exact Nat.le_succ _
    · exact restarts step
  | word chars =>
    simp only [Lexer.step] at step
    split at step
    · obtain rfl := Option.some.inj step
      exact Nat.le_succ _
    · exact restarts step
  | string pieces =>
    simp only [Lexer.step] at step
    split_ifs at step
    · obtain rfl := Option.some.inj step
      have token : (Token.string (Piece.join pieces.reverse)).size ≤
          (pieces.map Piece.size).sum + 1 := by
        cases joined : Piece.join pieces.reverse with
        | none => exact Nat.le_add_left _ _
        | some text => simpa [Token.size] using Piece.utf8ByteSize_join_le joined
      simp only [size, Pending.size, List.map_cons, List.sum_cons]
      omega
    · obtain rfl := Option.some.inj step
      exact Nat.le_refl _
    · obtain rfl := Option.some.inj step
      simp only [size, Pending.size, Piece.size, List.map_cons, List.sum_cons]
      omega
  | escape pieces =>
    simp only [Lexer.step] at step
    split_ifs at step
    · obtain rfl := Option.some.inj step
      exact Nat.le_refl _
    · obtain ⟨char, isEscape, same⟩ := Option.bind_eq_some_iff.mp step
      obtain rfl := Option.some.inj same
      simp only [size, Pending.size, Piece.size, utf8Size_escaped?_eq isEscape, List.map_cons,
        List.sum_cons]
      omega
  | unicode pieces count value =>
    obtain ⟨digit, -, stepped⟩ := Option.bind_eq_some_iff.mp step
    split_ifs at stepped
    · obtain rfl := Option.some.inj stepped
      simp only [size, Pending.size]
      omega
    · obtain rfl := Option.some.inj stepped
      have := Piece.size_ofUnit_le (16 * value + digit)
      simp only [size, Pending.size, List.map_cons, List.sum_cons]
      omega

end Lexer

theorem size_tokens?_le {bytes : List UInt8} {tokens : List Token}
    (read : tokens? bytes = some tokens) : (tokens.map Token.size).sum ≤ bytes.length := by
  obtain ⟨lexer, lexed, read⟩ := Option.bind_eq_some_iff.mp read
  obtain ⟨reversed, ended, same⟩ := Option.bind_eq_some_iff.mp read
  obtain rfl := Option.some.inj same
  calc (reversed.reverse.map Token.size).sum
    _ = (reversed.map Token.size).sum := by simp
    _ ≤ lexer.size := Lexer.size_endToken_le ended
    _ ≤ Lexer.start.size + (bytes.map fun _ ↦ 1).sum := size_foldlM_le Lexer.size _ Lexer.size_step_le lexed
    _ = bytes.length := by simp [Lexer.size, Lexer.start, Pending.size, List.map_const']

/-! ### Values -/

/-- The size of the values of members. -/
def sizeOfValues (members : List (Option String × Json)) : Nat :=
  (members.map fun member ↦ member.2.size).sum

/-- The size of what is in an open array or object, and of the mark that opens it. -/
def Frame.size : Frame → Nat
  | items done => (done.map Json.size).sum + 1
  | members done _ => sizeOfValues done + 1

/-- The size of what no frame holds yet. -/
def Mode.size : Mode → Nat
  | value | firstItem => 0
  | firstKey done | key done | colon done _ => sizeOfValues done + 1
  | complete json => json.size

namespace Parser

def size (parser : Parser) : Nat := (parser.frames.map Frame.size).sum + parser.mode.size

/-- The keys that have a text make no difference to the values. -/
theorem map_snd_of_mapM {members : List (Option String × Json)} {named : List (String × Json)}
    (isNamed : (members.mapM fun (key?, value) ↦ key?.map fun key ↦ (key, value)) = some named) :
    named.map Prod.snd = members.map Prod.snd := by
  induction members generalizing named with
  | nil =>
    obtain rfl := Option.some.inj isNamed
    rfl
  | cons member members ih =>
    rw [List.mapM_cons] at isNamed
    obtain ⟨first, isFirst, isNamed⟩ := Option.bind_eq_some_iff.mp isNamed
    obtain ⟨rest, isRest, same⟩ := Option.bind_eq_some_iff.mp isNamed
    obtain rfl := Option.some.inj same
    obtain ⟨key, -, rfl⟩ := Option.map_eq_some_iff.mp isFirst
    simp [ih isRest]

theorem size_objectOf_le (members : List (Option String × Json)) :
    (objectOf members).size ≤ sizeOfValues members + 1 := by
  unfold objectOf
  split
  next named isNamed =>
    have values := congrArg (fun values ↦ (values.map Json.size).sum) (map_snd_of_mapM isNamed)
    simp only [List.map_map, List.map_reverse, List.sum_reverse] at values
    rw [size_object]
    exact Nat.le_of_eq (congrArg (· + 1) values)
  next => exact Nat.le_add_left _ _

theorem size_startValue_le {frames : List Frame} {token : Token} {parser : Parser}
    (started : startValue frames token = some parser) :
    parser.size ≤ (frames.map Frame.size).sum + token.size := by
  unfold startValue at started
  split at started
  case h_6 => nomatch started
  all_goals
    obtain rfl := Option.some.inj started
    simp [size, Mode.size, Frame.size, Token.size, sizeOfValues, Json.size, Nat.add_comm]

/-- A token pays for what is collected when it is taken. -/
theorem size_step_le {parser next : Parser} {token : Token}
    (step : parser.step token = some next) : next.size ≤ parser.size + token.size := by
  obtain ⟨frames, mode⟩ := parser
  simp only [Parser.step] at step
  split at step
  case h_1 | h_3 => exact size_startValue_le step
  case h_4 done =>
    obtain rfl := Option.some.inj step
    have := size_objectOf_le done
    simp only [size, Mode.size, Token.size]
    omega
  case h_11 value done key? frames =>
    obtain rfl := Option.some.inj step
    have := size_objectOf_le ((key?, value) :: done)
    simp only [size, Mode.size, Frame.size, Token.size, sizeOfValues, List.map_cons,
      List.sum_cons] at this ⊢
    omega
  case h_12 => nomatch step
  all_goals
    obtain rfl := Option.some.inj step
    simp only [size, Mode.size, Frame.size, Token.size, sizeOfValues, size_array, List.map_reverse,
      List.sum_reverse, List.map_cons, List.sum_cons, List.map_nil, List.sum_nil]
    omega

theorem size_result?_le {parser : Parser} {json : Json} (isResult : parser.result? = some json) :
    json.size ≤ parser.size := by
  unfold result? at isResult
  split at isResult
  next isComplete =>
    obtain rfl := Option.some.inj isResult
    simp [size, Mode.size, isComplete]
  next => nomatch isResult

end Parser

/-- **Values are no larger than their texts.** -/
theorem size_ofBytes?_le {bytes : List UInt8} {json : Json} (read : ofBytes? bytes = some json) :
    json.size ≤ bytes.length := by
  obtain ⟨tokens, lexed, read⟩ := Option.bind_eq_some_iff.mp read
  obtain ⟨parser, parsed, isResult⟩ := Option.bind_eq_some_iff.mp read
  calc json.size
    _ ≤ parser.size := Parser.size_result?_le isResult
    _ ≤ Parser.start.size + (tokens.map Token.size).sum :=
      size_foldlM_le Parser.size Token.size Parser.size_step_le parsed
    _ = (tokens.map Token.size).sum := Nat.zero_add _
    _ ≤ bytes.length := size_tokens?_le lexed

end ManagedLayout.Json
