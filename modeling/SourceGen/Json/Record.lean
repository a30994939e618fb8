import SourceGen.Json.Skip
/-! JSON documents that hold records of optional texts. -/

namespace SourceGen.Json

structure Shape where
  name : String
  fields : List String
  deriving DecidableEq, Repr

/-- A record as messages name it. -/
def Shape.expected (shape : Shape) : String :=
  "struct " ++ shape.name

/-- A record as messages name it that count its fields. -/
def Shape.sized (shape : Shape) : String :=
  shape.expected ++ " with " ++ toString shape.fields.length ++
    (if shape.fields.length = 1 then " element" else " elements")

/-- The text of each field that has one, in the order of the shape. -/
abbrev Record := List (Option String)

/-- What stands where something else is expected. A list or object is not read further. -/
def found (chars : List Char) : Reading Found :=
  match chars with
  | 'n' :: rest => (word "ull".toList rest).map (Found.null, ·)
  | 't' :: rest => (word "rue".toList rest).map (Found.boolean true, ·)
  | 'f' :: rest => (word "alse".toList rest).map (Found.boolean false, ·)
  | '"' :: rest => (text rest).map fun (value, rest) => (.text value, rest)
  | '[' :: rest => .ok (.list, '[' :: rest)
  | '\x7b' :: rest => .ok (.object, '\x7b' :: rest)
  | rest =>
    if rest.head?.any fun c => c = '-' || c.isDigit then
      (number rest).map fun (value, rest) =>
        match value with
        | .integer value => (.integer value, rest)
        | .decimal negative value => (.decimal negative value, rest)
    else .error (.within .noValue rest)

/-- The error of a value where something else is expected. -/
def unexpected (expected : String) (chars : List Char) : Error :=
  match found chars with
  | .error error => error
  | .ok (value, rest) => .before (.type value expected) rest

def optionalText (chars : List Char) : Reading (Option String) :=
  match skipSpace chars with
  | [] => .error (.before .endInValue [])
  | 'n' :: rest => (word "ull".toList rest).map (none, ·)
  | '"' :: rest => (text rest).map fun (value, rest) => (some value, rest)
  | rest => .error (unexpected "a string" rest)

/-- Reads up to the next item of a list, or up to the bracket that ends it. -/
def nextItem (isFirst : Bool) (chars : List Char) : Except Error (List Char) :=
  match skipSpace chars with
  | [] => .error (.before .endInList [])
  | ']' :: rest => .ok (']' :: rest)
  | c :: rest =>
    if isFirst then .ok (c :: rest)
    else if c = ',' then
      match skipSpace rest with
      | [] => .error (.before .endInValue [])
      | ']' :: rest => .error (.within .trailingComma (']' :: rest))
      | rest => .ok rest
    else .error (.within .noListEnd (c :: rest))

/-- Reads the bracket that ends a list of which all items are read. -/
def listEnd (chars : List Char) : Except Error (List Char) :=
  match skipSpace chars with
  | [] => .error (.before .endInList [])
  | ']' :: rest => .ok rest
  | ',' :: rest =>
    let rest := skipSpace rest
    .error (.within (if rest.head? = some ']' then .trailingComma else .trailingCharacters) rest)
  | rest => .error (.within .trailingCharacters rest)

/-- Reads the fields of a record that is written as a list; `count` of them are read. -/
def listedFields (shape : Shape) (count : Nat) : List String → List Char → Reading Record
  | [], chars => (listEnd chars).map ([], ·)
  | _ :: fields, chars =>
    match nextItem (count = 0) chars with
    | .error error => .error error
    | .ok (']' :: rest) => .error (.before (.length count shape.sized) rest)
    | .ok rest =>
      match optionalText rest with
      | .error error => .error error
      | .ok (value, rest) =>
        (listedFields shape (count + 1) fields rest).map fun (record, rest) =>
          (value :: record, rest)

/-- The place behind a field that an object has twice. What ends the object is read too. -/
def duplicateError (name : String) (chars : List Char) : Error :=
  match skipSpace chars with
  | '\x7d' :: rest => .before (.duplicateField name) rest
  | rest => .before (.duplicateField name) rest

/-- Reads up to the text of the next key of an object, or up to the brace that ends it. -/
def nextKey (isFirst : Bool) (chars : List Char) : Except Error (List Char) :=
  match skipSpace chars with
  | [] => .error (.before .endInObject [])
  | '\x7d' :: rest => .ok ('\x7d' :: rest)
  | c :: rest =>
    if isFirst then
      if c = '"' then .ok (c :: rest) else .error (.within .keyNoText (c :: rest))
    else if c = ',' then
      match skipSpace rest with
      | [] => .error (.before .endInValue [])
      | '"' :: rest => .ok ('"' :: rest)
      | '\x7d' :: rest => .error (.within .trailingComma ('\x7d' :: rest))
      | rest => .error (.within .keyNoText rest)
    else .error (.within .noObjectEnd (c :: rest))

/-- Reads the value of a field. The value of a field that is not of the shape is skipped. -/
def fieldValue (known : Bool) (chars : List Char) : Reading (Option String) :=
  match skipColon chars with
  | .error error => .error error
  | .ok rest => if known then optionalText rest else (skipValue rest).map (none, ·)

/-- Reads the fields of an object, of which some are read. Every field takes a character, so an
object of fewer characters than `limit` does not run out of steps. -/
def namedFields (shape : Shape) : Nat → List (String × Option String) → List Char →
    Reading (List (String × Option String))
  | 0, _, chars => .error (.before .endInObject chars)
  | limit + 1, read, chars =>
    match nextKey read.isEmpty chars with
    | .error error => .error error
    | .ok ('"' :: rest) =>
      match text rest with
      | .error error => .error error
      | .ok (name, rest) =>
        let known := shape.fields.contains name
        if known && (read.lookup name).isSome then .error (duplicateError name rest)
        else
          match fieldValue known rest with
          | .error error => .error error
          | .ok (value, rest) => namedFields shape limit ((name, value) :: read) rest
    | .ok rest => .ok (read, rest.drop 1)

def record (shape : Shape) (chars : List Char) : Reading Record :=
  match skipSpace chars with
  | [] => .error (.before .endInValue [])
  | '[' :: rest => listedFields shape 0 shape.fields rest
  | '\x7b' :: rest =>
    (namedFields shape (rest.length + 1) [] rest).map fun (read, rest) =>
      (shape.fields.map fun name => (read.lookup name).join, rest)
  | rest => .error (unexpected shape.expected rest)

/-- Reads the records of a list. Every record takes a character, so a list of fewer characters than
`limit` does not run out of steps. -/
def listedRecords (shape : Shape) : Nat → Bool → List Char → Reading (List Record)
  | 0, _, chars => .error (.before .endInList chars)
  | limit + 1, isFirst, chars =>
    match nextItem isFirst chars with
    | .error error => .error error
    | .ok (']' :: rest) => .ok ([], rest)
    | .ok rest =>
      match record shape rest with
      | .error error => .error error
      | .ok (read, rest) =>
        (listedRecords shape limit false rest).map fun (records, rest) => (read :: records, rest)

def records (shape : Shape) (chars : List Char) : Reading (List Record) :=
  match skipSpace chars with
  | [] => .error (.before .endInValue [])
  | '[' :: rest => listedRecords shape (rest.length + 1) true rest
  | rest => .error (unexpected "a sequence" rest)

/-- Reads a document that holds nothing else, or says what is wrong with it. -/
def parse {α : Type} (read : List Char → Reading α) (document : String) : Except String α :=
  match read document.toList with
  | .error error => .error (error.message document)
  | .ok (value, rest) =>
    let rest := skipSpace rest
    if rest.isEmpty then .ok value
    else .error (Error.message document (.within .trailingCharacters rest))

end SourceGen.Json
