import SourceGen.Json.Number
import SourceGen.Json.Token
/-! JSON values that are passed over, nested as deeply as they may be. -/

namespace SourceGen.Json

/-- What a value that is open holds. -/
inductive Frame where
  | list
  | object
  deriving DecidableEq, Repr

def Frame.closing : Frame → Char
  | list => ']'
  | object => '\x7d'

/-- What is wrong if the document ends inside a value. -/
def Frame.cutOff : Frame → Fault
  | list => .endInList
  | object => .endInObject

/-- What is wrong if neither the end of a value nor a comma follows. -/
def Frame.noEnd : Frame → Fault
  | list => .noListEnd
  | object => .noObjectEnd

inductive SkipState where
  | value
  | first
  | next
  deriving DecidableEq, Repr

/-- Where skipping stands: what is next, and the values that are open, the innermost one first. -/
structure Skipping where
  state : SkipState
  frames : List Frame
  rest : List Char

/-- Skips the start of a value: all of it, or the bracket that opens it. -/
def skipStart (frames : List Frame) (chars : List Char) : Except Error Skipping :=
  let whole (rest : Except Error (List Char)) : Except Error Skipping :=
    rest.map fun rest => ⟨.next, frames, rest⟩
  match skipSpace chars with
  | [] => .error (.before .endInValue [])
  | 'n' :: rest => whole (word "ull".toList rest)
  | 't' :: rest => whole (word "rue".toList rest)
  | 'f' :: rest => whole (word "alse".toList rest)
  | '"' :: rest => whole (skipText rest)
  | '[' :: rest => .ok ⟨.first, .list :: frames, rest⟩
  | '\x7b' :: rest => .ok ⟨.first, .object :: frames, rest⟩
  | c :: rest =>
    if c = '-' || c.isDigit then whole (skipNumber (c :: rest))
    else .error (.within .noValue (c :: rest))

def skipColon (chars : List Char) : Except Error (List Char) :=
  match skipSpace chars with
  | [] => .error (.before .endInObject [])
  | ':' :: rest => .ok rest
  | rest => .error (.within .noColon rest)

/-- Skips what stands in front of an item: the key, if there are keys. -/
def skipKey (frame : Frame) (chars : List Char) : Except Error (List Char) :=
  match frame with
  | .list => .ok chars
  | .object =>
    match skipSpace chars with
    | [] => .error (.before .endInObject [])
    | '"' :: rest =>
      match skipText rest with
      | .error error => .error error
      | .ok rest => skipColon rest
    | rest => .error (.within .keyNoText rest)

/-- Skips a part of a value: up to the start of the next value inside it, or up to its end. -/
def skipStep (skipping : Skipping) : Except Error Skipping :=
  match skipping.state, skipping.frames with
  | .value, frames => skipStart frames skipping.rest
  | _, [] => .ok skipping
  | state, frame :: frames =>
    let item (chars : List Char) : Except Error Skipping :=
      match skipKey frame chars with
      | .error error => .error error
      | .ok rest => skipStart (frame :: frames) rest
    match skipSpace skipping.rest with
    | [] => .error (.before frame.cutOff [])
    | c :: rest =>
      if c = frame.closing then .ok ⟨.next, frames, rest⟩
      else if state = .first then item (c :: rest)
      else if c = ',' then item rest
      else .error (.within frame.noEnd (c :: rest))

/-- Skips until no value is open. Every step takes a character, so a document of fewer characters
than `limit` does not run out of steps. -/
def skipSteps : Nat → Skipping → Except Error (List Char)
  | 0, skipping => .error (.before .endInValue skipping.rest)
  | limit + 1, skipping =>
    if skipping.state = .next ∧ skipping.frames = [] then .ok skipping.rest
    else
      match skipStep skipping with
      | .error error => .error error
      | .ok next => skipSteps limit next

def skipValue (chars : List Char) : Except Error (List Char) :=
  skipSteps (chars.length + 2) ⟨.value, [], chars⟩

end SourceGen.Json
