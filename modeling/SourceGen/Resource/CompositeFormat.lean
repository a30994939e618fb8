import SourceGen.Failure
import SourceGen.Text.Trim
/-! Composite formats: literal text with holes for arguments. -/

namespace SourceGen

/-- A place for an argument: its number, the width that it is padded to (on the right if negative),
and how it is formatted. -/
structure FormatHole where
  index : Nat
  alignment : Int
  format : Option String
  deriving DecidableEq, Repr

inductive FormatSegment where
  | literal (text : String)
  | hole (hole : FormatHole)
  deriving DecidableEq, Repr

namespace CompositeFormat

/-- A bound on argument numbers and widths. -/
def limit : Nat := 1000000

/-- A parser of the characters ahead of it; it leaves those that it did not use. -/
abbrev Parser (α : Type) := List Char → Except FormatFault (α × List Char)

/-- The number that `value` and the digits that follow spell. Something has to follow. -/
def digits (value : Nat) : Parser Nat
  | [] => .error .unexpectedEnd
  | c :: rest =>
    match Text.digitValue? c with
    | none => .ok (value, c :: rest)
    | some digit =>
      if value * 10 + digit < limit then digits (value * 10 + digit) rest
      else .error .tooLarge

/-- A number of at least one digit. -/
def number (missing : FormatFault) : Parser Nat
  | [] => .error .unexpectedEnd
  | c :: rest =>
    match Text.digitValue? c with
    | none => .error missing
    | some digit => digits digit rest

/-- The characters behind spaces. Something has to follow. -/
def skipSpaces : List Char → Except FormatFault (List Char)
  | [] => .error .unexpectedEnd
  | c :: rest => if c = ' ' then skipSpaces rest else .ok (c :: rest)

/-- A width, which has a sign if the padding stands behind the argument. -/
def width : Parser Int
  | '-' :: rest =>
    match number .expectedDigit rest with
    | .error fault => .error fault
    | .ok (value, after) => .ok (-value, after)
  | chars =>
    match number .expectedDigit chars with
    | .error fault => .error fault
    | .ok (value, after) => .ok (value, after)

/-- The width behind an argument number, if there is one. -/
def alignment : Parser Int
  | ',' :: rest =>
    match skipSpaces rest with
    | .error fault => .error fault
    | .ok chars =>
      match width chars with
      | .error fault => .error fault
      | .ok (value, after) =>
        match skipSpaces after with
        | .error fault => .error fault
        | .ok remaining => .ok (value, remaining)
  | chars => .ok (0, chars)

/-- The text up to the closing brace of a hole, and what stands behind that. -/
def formatText : Parser (List Char)
  | [] => .error .unexpectedEnd
  | c :: rest =>
    if c = '\x7d' then .ok ([], rest)
    else if c = '\x7b' then .error .braceInItem
    else
      match formatText rest with
      | .error fault => .error fault
      | .ok (text, remaining) => .ok (c :: text, remaining)

/-- The format of a hole, if there is one, and its closing brace. -/
def holeEnd : Parser (Option String)
  | [] => .error .unexpectedEnd
  | c :: rest =>
    if c = '\x7d' then .ok (none, rest)
    else if c = ':' then
      match formatText rest with
      | .error fault => .error fault
      | .ok (text, remaining) => .ok (some (String.ofList text), remaining)
    else .error .unexpectedCharacter

/-- A hole without its opening brace. -/
def hole (chars : List Char) : Except FormatFault (FormatHole × List Char) :=
  match number .expectedIndex chars with
  | .error fault => .error fault
  | .ok (index, afterIndex) =>
    match skipSpaces afterIndex with
    | .error fault => .error fault
    | .ok spaced =>
      match alignment spaced with
      | .error fault => .error fault
      | .ok (alignment, afterWidth) =>
        match holeEnd afterWidth with
        | .error fault => .error fault
        | .ok (format, remaining) => .ok (⟨index, alignment, format⟩, remaining)

def isBrace (c : Char) : Bool :=
  c = '\x7b' || c = '\x7d'

/-- Literal text, in which doubled braces stand for single ones, and what stands behind the opening
brace of the next hole, if there is one. -/
def literal : List Char → Except FormatFault (List Char × Option (List Char))
  | [] => .ok ([], none)
  | [c] => if isBrace c then .error .unexpectedEnd else .ok ([c], none)
  | c :: d :: rest =>
    if isBrace c then
      if d = c then
        match literal rest with
        | .error fault => .error fault
        | .ok (text, remaining) => .ok (c :: text, remaining)
      else if c = '\x7b' then .ok ([], some (d :: rest))
      else .error .unescapedBrace
    else
      match literal (d :: rest) with
      | .error fault => .error fault
      | .ok (text, remaining) => .ok (c :: text, remaining)

theorem digits_length {value n : Nat} {chars rest : List Char}
    (h : digits value chars = .ok (n, rest)) : rest.length ≤ chars.length := by
  fun_induction digits value chars <;> grind

theorem number_length {missing : FormatFault} {n : Nat} {chars rest : List Char}
    (h : number missing chars = .ok (n, rest)) : rest.length < chars.length := by
  unfold number at h
  grind [→ digits_length]

theorem skipSpaces_length {chars rest : List Char} (h : skipSpaces chars = .ok rest) :
    rest.length ≤ chars.length := by
  fun_induction skipSpaces chars <;> grind

theorem width_length {n : Int} {chars rest : List Char} (h : width chars = .ok (n, rest)) :
    rest.length ≤ chars.length := by
  unfold width at h
  grind [→ number_length]

theorem alignment_length {n : Int} {chars rest : List Char}
    (h : alignment chars = .ok (n, rest)) : rest.length ≤ chars.length := by
  unfold alignment at h
  grind [→ skipSpaces_length, → width_length]

theorem formatText_length {text chars rest : List Char}
    (h : formatText chars = .ok (text, rest)) : rest.length < chars.length := by
  fun_induction formatText chars generalizing text <;> grind

theorem holeEnd_length {format : Option String} {chars rest : List Char}
    (h : holeEnd chars = .ok (format, rest)) : rest.length < chars.length := by
  unfold holeEnd at h
  grind [→ formatText_length]

theorem hole_length {item : FormatHole} {chars rest : List Char}
    (h : hole chars = .ok (item, rest)) : rest.length < chars.length := by
  unfold hole at h
  grind [→ number_length, → skipSpaces_length, → alignment_length, → holeEnd_length]

theorem literal_length {text chars rest : List Char} (h : literal chars = .ok (text, some rest)) :
    rest.length < chars.length := by
  fun_induction literal chars generalizing text <;> grind

/-- The parts of a composite format: literals and holes in turn, a literal at either end. -/
def segments (chars : List Char) : Except FormatFault (List FormatSegment) :=
  match _read : literal chars with
  | .error fault => .error fault
  | .ok (text, none) => .ok [.literal (String.ofList text)]
  | .ok (text, some inside) =>
    match _filled : hole inside with
    | .error fault => .error fault
    | .ok (item, rest) =>
      match segments rest with
      | .error fault => .error fault
      | .ok parts => .ok (.literal (String.ofList text) :: .hole item :: parts)
termination_by chars.length
decreasing_by
  have := literal_length _read
  have := hole_length _filled
  omega

/-- The parts of a composite format, or why the text is none. -/
def parse (text : String) : Except Failure (List FormatSegment) :=
  match segments text.toList with
  | .error fault => .error (.format text fault)
  | .ok parts => .ok parts

end CompositeFormat

namespace FormatSegment

/-- The number of arguments that a part asks for. -/
def argumentCount : FormatSegment → Nat
  | literal _ => 0
  | hole item => item.index + 1

/-- The number of characters that a part has by itself. -/
def literalLength : FormatSegment → Nat
  | literal text => text.length
  | hole _ => 0

end FormatSegment

namespace CompositeFormat

/-- The number of arguments that the parts of a format ask for. -/
def minimumArgumentCount (segments : List FormatSegment) : Nat :=
  (segments.map FormatSegment.argumentCount).foldl max 0

def literalLength (segments : List FormatSegment) : Nat :=
  segments.foldr (fun segment length => segment.literalLength + length) 0

end CompositeFormat

end SourceGen
