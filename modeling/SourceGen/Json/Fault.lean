import SourceGen.Decimal.Rounding
import SourceGen.Text.Quoted
import SourceGen.Text.Utf8
/-! What can be wrong with a JSON document, and where. -/

namespace SourceGen.Json

/-- The form of floating point numbers in messages. -/
def decimals : Decimal.Spelling := ⟨-5, true⟩

/-- A value that stands in place of another. -/
inductive Found where
  | null
  | boolean (value : Bool)
  | integer (value : Int)
  | decimal (negative : Bool) (value : Decimal.Binary)
  | text (value : String)
  | list
  | object
  deriving DecidableEq, Repr

def Found.description : Found → String
  | null => "null"
  | boolean value => "boolean `" ++ toString value ++ "`"
  | integer value => "integer `" ++ toString value ++ "`"
  | decimal negative value =>
    "floating point `" ++ decimals.binary .double negative value ++ "`"
  | text value => "string " ++ Text.quoted value
  | list => "sequence"
  | object => "map"

/-- What is wrong with a document. -/
inductive Fault where
  | endInList
  | endInObject
  | endInText
  | endInValue
  | noColon
  | noListEnd
  | noObjectEnd
  | noWord
  | noValue
  | escape
  | endOfEscape
  | loneSurrogate
  | control
  | number
  | numberRange
  | keyNoText
  | trailingComma
  | trailingCharacters
  | duplicateField (name : String)
  | type (found : Found) (expected : String)
  | length (found : Nat) (expected : String)
  deriving DecidableEq, Repr

def Fault.message : Fault → String
  | endInList => "EOF while parsing a list"
  | endInObject => "EOF while parsing an object"
  | endInText => "EOF while parsing a string"
  | endInValue => "EOF while parsing a value"
  | noColon => "expected `:`"
  | noListEnd => "expected `,` or `]`"
  | noObjectEnd => "expected `,` or `\x7d`"
  | noWord => "expected ident"
  | noValue => "expected value"
  | escape => "invalid escape"
  | endOfEscape => "unexpected end of hex escape"
  | loneSurrogate => "lone leading surrogate in hex escape"
  | control => "control character (\\u0000-\\u001F) found while parsing a string"
  | number => "invalid number"
  | numberRange => "number out of range"
  | keyNoText => "key must be a string"
  | trailingComma => "trailing comma"
  | trailingCharacters => "trailing characters"
  | duplicateField name => "duplicate field `" ++ name ++ "`"
  | type found expected => "invalid type: " ++ found.description ++ ", expected " ++ expected
  | length found expected => "invalid length " ++ toString found ++ ", expected " ++ expected

def byteLength (chars : List Char) : Nat :=
  chars.foldr (fun c length => c.utf8Size + length) 0

/-- A fault and its place, which is told by the number of bytes behind it. -/
structure Error where
  fault : Fault
  behind : Nat
  deriving DecidableEq, Repr

namespace Error

/-- A fault in front of the rest of a document. -/
def before (fault : Fault) (rest : List Char) : Error :=
  ⟨fault, byteLength rest⟩

/-- A fault at the first byte of the rest of a document, or at its end. -/
def within (fault : Fault) (rest : List Char) : Error :=
  ⟨fault, byteLength rest - 1⟩

/-- The line of the fault, from one, and the number of bytes on it up to the fault. -/
def position (document : String) (error : Error) : Nat × Nat :=
  let bytes := Text.utf8 document
  let read := bytes.take (bytes.length - error.behind)
  (1 + read.count 10, (read.reverse.takeWhile (· ≠ 10)).length)

def message (document : String) (error : Error) : String :=
  let (line, column) := error.position document
  error.fault.message ++ " at line " ++ toString line ++ " column " ++ toString column

end Error

/-- What is read from the front of a document, with the rest of it. -/
abbrev Reading (α : Type) := Except Error (α × List Char)

end SourceGen.Json
