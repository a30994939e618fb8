import SourceGen.Json.Fault
import SourceGen.Text.Trim
/-! Blanks, words and texts in JSON documents. -/

namespace SourceGen.Json

/-- Whether a character separates the parts of a document. -/
def isSpace (c : Char) : Bool :=
  c = ' ' || c = '\n' || c = '\t' || c = '\r'

/-- The document without the blanks at its front. -/
def skipSpace (chars : List Char) : List Char :=
  chars.dropWhile isSpace

/-- Reads the letters of a word that are left. -/
def word : List Char → List Char → Except Error (List Char)
  | [], rest => .ok rest
  | _ :: _, [] => .error (.before .endInValue [])
  | letter :: letters, c :: rest =>
    if c = letter then word letters rest else .error (.within .noWord (c :: rest))

/-- The character that a letter stands for behind a backslash. -/
def escaped? (c : Char) : Option Char :=
  match c with
  | '"' => some '"'
  | '\\' => some '\\'
  | '/' => some '/'
  | 'b' => some '\x08'
  | 'f' => some '\x0c'
  | 'n' => some '\n'
  | 'r' => some '\r'
  | 't' => some '\t'
  | _ => none

/-- What is wrong with an escape of which `count` digits are read, where no further digit follows.
An escape that has no room for four bytes is cut off. -/
def digitError (count : Nat) (rest : List Char) : Error :=
  if count + byteLength rest < 4 then .before .endInText []
  else ⟨.escape, count + byteLength rest - 4⟩

/-- Whether a number is the first half of a pair that stands for one character. -/
def isLeading (code : Nat) : Bool :=
  0xD800 ≤ code && code < 0xDC00

/-- Whether a number is the second half of a pair that stands for one character. -/
def isTrailing (code : Nat) : Bool :=
  0xDC00 ≤ code && code < 0xE000

/-- The character that a pair of numbers stands for. -/
def paired (leading trailing : Nat) : Char :=
  Char.ofNat (0x10000 + (leading - 0xD800) * 0x400 + (trailing - 0xDC00))

/-- What is being read inside a text. In an escape by number, `leading?` is the first half of a
pair, if there is one, and `code` is the value of the `count` digits read so far. -/
inductive TextMode where
  | plain
  | escape
  | digits (leading? : Option Nat) (code count : Nat)
  | pairEscape (leading : Nat)
  | pairLetter (leading : Nat)

/-- Puts a character in front of what is read. -/
def Reading.cons (c : Char) (reading : Reading (List Char)) : Reading (List Char) :=
  reading.map fun (chars, rest) => (c :: chars, rest)

/-- Reads the rest of a text behind its opening quote. -/
def textFrom : TextMode → List Char → Reading (List Char)
  | .digits _ _ count, [] => .error (digitError count [])
  | _, [] => .error (.before .endInText [])
  | .plain, c :: rest =>
    if c = '"' then .ok ([], rest)
    else if c = '\\' then textFrom .escape rest
    else if c < ' ' then .error (.before .control rest)
    else (textFrom .plain rest).cons c
  | .escape, c :: rest =>
    if c = 'u' then textFrom (.digits none 0 0) rest
    else
      match escaped? c with
      | some value => (textFrom .plain rest).cons value
      | none => .error (.within .escape (c :: rest))
  | .digits leading? code count, c :: rest =>
    match Text.hexDigitValue? c with
    | none => .error (digitError count (c :: rest))
    | some digit =>
      let value := code * 16 + digit
      if count < 3 then textFrom (.digits leading? value (count + 1)) rest
      else
        match leading? with
        | some leading =>
          if isTrailing value then (textFrom .plain rest).cons (paired leading value)
          else .error (.before .loneSurrogate rest)
        | none =>
          if isTrailing value then .error (.before .loneSurrogate rest)
          else if isLeading value then textFrom (.pairEscape value) rest
          else (textFrom .plain rest).cons (.ofNat value)
  | .pairEscape leading, c :: rest =>
    if c = '\\' then textFrom (.pairLetter leading) rest
    else .error (.within .endOfEscape (c :: rest))
  | .pairLetter leading, c :: rest =>
    if c = 'u' then textFrom (.digits (some leading) 0 0) rest
    else .error (.within .endOfEscape (c :: rest))

def text (chars : List Char) : Reading String :=
  (textFrom .plain chars).map fun (chars, rest) => (String.ofList chars, rest)

/-- What is being read inside a text that is skipped. -/
inductive SkipMode where
  | plain
  | escape
  | digits (count : Nat)

/-- Skips the rest of a text behind its opening quote. Numbers of escapes need not stand for
characters. -/
def skipTextFrom : SkipMode → List Char → Except Error (List Char)
  | .digits count, [] => .error (digitError count [])
  | _, [] => .error (.before .endInText [])
  | .plain, c :: rest =>
    if c = '"' then .ok rest
    else if c = '\\' then skipTextFrom .escape rest
    else if c < ' ' then .error (.before .control (c :: rest))
    else skipTextFrom .plain rest
  | .escape, c :: rest =>
    if c = 'u' then skipTextFrom (.digits 0) rest
    else if (escaped? c).isSome then skipTextFrom .plain rest
    else .error (.within .escape (c :: rest))
  | .digits count, c :: rest =>
    if (Text.hexDigitValue? c).isNone then .error (digitError count (c :: rest))
    else skipTextFrom (if count < 3 then .digits (count + 1) else .plain) rest

def skipText (chars : List Char) : Except Error (List Char) :=
  skipTextFrom .plain chars

end SourceGen.Json
