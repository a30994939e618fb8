import SourceGen.Text.Trim
/-! XML documents as they are read from left to right. -/

namespace SourceGen.Xml

/-- Whether a character separates the parts of a tag. -/
def isSpace (c : Char) : Bool :=
  c = ' ' || c = '\t' || c = '\n' || c = '\r'

/-- A piece of a document. The attributes of a tag and the references in a text are not read yet. -/
inductive Event where
  | opening (name : String) (attributes : List Char)
  | empty (name : String) (attributes : List Char)
  | closing (name : String)
  | text (raw : List Char)
  | characters (content : List Char)
  | ignored
  deriving DecidableEq, Repr

/-- What stands behind an exclamation mark. -/
inductive Declaration where
  | comment
  | characters
  | documentType
  deriving DecidableEq, Repr

/-- What is being read. The characters seen so far are held in reverse. -/
inductive Mode where
  | text (seen : List Char)
  | markup
  | tag (quote : Option Char) (seen : List Char)
  | instruction (seen : List Char)
  | exclamation
  | declaration (form : Declaration) (seen : List Char)

/-- The name in a closing tag. Blanks behind it do not belong to it, but blanks alone are a name. -/
def closingName (name : List Char) : List Char :=
  if name.all isSpace then name else Text.dropWhileEnd isSpace name

def tagEvent (content : List Char) : Event :=
  match content with
  | '/' :: name => .closing (String.ofList (closingName name))
  | content =>
    let isEmpty := content.getLast? == some '/'
    let inner := if isEmpty then content.dropLast else content
    let name := String.ofList (inner.takeWhile fun c => !isSpace c)
    let attributes := inner.dropWhile fun c => !isSpace c
    if isEmpty then .empty name attributes else .opening name attributes

/-- Reads a character inside a tag. A closing bracket inside quotes does not end the tag. -/
def tagStep (quote : Option Char) (seen : List Char) (c : Char) : Mode × List Event :=
  match quote with
  | none =>
    if c = '>' then (.text [], [tagEvent seen.reverse])
    else (.tag (if c = '"' || c = '\'' then some c else none) (c :: seen), [])
  | some q => (.tag (if c = q then none else some q) (c :: seen), [])

def declarationForm? (c : Char) : Option Declaration :=
  match c with
  | '-' => some .comment
  | '[' => some .characters
  | 'D' | 'd' => some .documentType
  | _ => none

/-- Whether a closing bracket behind the characters seen ends a declaration. -/
def ends : Declaration → List Char → Bool
  | .comment, seen => 4 ≤ seen.length && ['-', '-'].isPrefixOf seen
  | .characters, seen => [']', ']'].isPrefixOf seen
  | .documentType, seen => seen.count '<' == seen.count '>'

def declarationEvent? (form : Declaration) (content : List Char) : Option Event :=
  match form with
  | .comment => if ['-', '-'].isPrefixOf content then some .ignored else none
  | .characters =>
    if "[CDATA[".toList.isPrefixOf content then
      some (.characters (content.drop 7).dropLast.dropLast)
    else none
  | .documentType =>
    if (content.take 7).map Char.toLower = "doctype".toList &&
        (content.drop 7).any fun c => !isSpace c then some .ignored
    else none

/-- Reads a character, which may complete a piece; none if the document is malformed. -/
def step (mode : Mode) (c : Char) : Option (Mode × List Event) :=
  match mode with
  | .text seen =>
    if c = '<' then some (.markup, if seen.isEmpty then [] else [.text seen.reverse])
    else some (.text (c :: seen), [])
  | .markup =>
    match c with
    | '!' => some (.exclamation, [])
    | '?' => some (.instruction [], [])
    | c => some (tagStep none [] c)
  | .tag quote seen => some (tagStep quote seen c)
  | .instruction seen =>
    if c = '>' && seen.isEmpty then none
    else if c = '>' && seen.head? == some '?' then some (.text [], [.ignored])
    else some (.instruction (c :: seen), [])
  | .exclamation => (declarationForm? c).map fun form => (.declaration form [c], [])
  | .declaration form seen =>
    if c = '>' && ends form seen then
      (declarationEvent? form seen.reverse).map fun event => (.text [], [event])
    else some (.declaration form (c :: seen), [])

/-- The pieces of the rest of a document, which must not end inside a markup. -/
def read : Mode → List Char → Option (List Event)
  | .text seen, [] => some (if seen.isEmpty then [] else [.text seen.reverse])
  | _, [] => none
  | mode, c :: rest =>
    match step mode c with
    | none => none
    | some (next, found) => (read next rest).map (found ++ ·)

/-- The pieces of a document, in front of which a byte order mark is ignored. -/
def events (document : String) : Option (List Event) :=
  match document.toList with
  | '\uFEFF' :: rest => read (.text []) rest
  | chars => read (.text []) chars

/-- The number that digits of a base spell. -/
def digitsValue? (base : Nat) (digits : List Char) : Option Nat :=
  if digits.isEmpty then none
  else
    digits.foldlM (fun value c =>
      ((Text.hexDigitValue? c).filter (· < base)).map fun digit => value * base + digit) 0

def numbered? (digits : List Char) : Option Char :=
  let code? := match digits with
    | 'x' :: hexadecimal => digitsValue? 16 hexadecimal
    | decimal => digitsValue? 10 decimal
  (code?.filter fun code => code ≠ 0 ∧ code.isValidChar).map Char.ofNat

/-- The character that a reference stands for. -/
def referenced? (name : List Char) : Option Char :=
  match name with
  | '#' :: digits => numbered? digits
  | name =>
    match String.ofList name with
    | "lt" => some '<'
    | "gt" => some '>'
    | "amp" => some '&'
    | "apos" => some '\''
    | "quot" => some '"'
    | _ => none

/-- Reads a text; inside a reference, `name` holds the characters of its name in reverse. -/
def unescapeFrom : Option (List Char) → List Char → Option (List Char)
  | none, [] => some []
  | some _, [] => none
  | none, c :: rest =>
    if c = '&' then unescapeFrom (some []) rest
    else (unescapeFrom none rest).map (c :: ·)
  | some name, c :: rest =>
    if c = '&' then none
    else if c = ';' then
      match referenced? name.reverse with
      | none => none
      | some value => (unescapeFrom none rest).map (value :: ·)
    else unescapeFrom (some (c :: name)) rest

/-- The text with its references replaced by the characters that they stand for. -/
def unescape (raw : List Char) : Option (List Char) :=
  unescapeFrom none raw

/-- What is being read of the attributes of a tag. -/
inductive AttributeMode where
  | between
  | key (seen : List Char)
  | afterKey (key : List Char)
  | afterEquals (key : List Char)
  | value (key : List Char) (quote : Char) (seen : List Char)

/-- Reads a character of the attributes of a tag, which may complete one. -/
def attributeStep (mode : AttributeMode) (c : Char) :
    Option (AttributeMode × List (String × List Char)) :=
  match mode with
  | .between => some (if isSpace c then .between else .key [c], [])
  | .key seen =>
    if c = '=' then some (.afterEquals seen.reverse, [])
    else if isSpace c then some (.afterKey seen.reverse, [])
    else some (.key (c :: seen), [])
  | .afterKey key =>
    if c = '=' then some (.afterEquals key, [])
    else if isSpace c then some (.afterKey key, [])
    else none
  | .afterEquals key =>
    if isSpace c then some (.afterEquals key, [])
    else if c = '"' || c = '\'' then some (.value key c [], [])
    else none
  | .value key quote seen =>
    if c = quote then some (.between, [(String.ofList key, seen.reverse)])
    else some (.value key quote (c :: seen), [])

/-- The keys and values of the rest of the attributes. -/
def readAttributes : AttributeMode → List Char → Option (List (String × List Char))
  | .between, [] => some []
  | _, [] => none
  | mode, c :: rest =>
    match attributeStep mode c with
    | none => none
    | some (next, found) => (readAttributes next rest).map (found ++ ·)

/-- The keys of the attributes of a tag, all different, with their values as they are written. -/
def attributes (chars : List Char) : Option (List (String × List Char)) :=
  (readAttributes .between chars).filter fun found => (found.map (·.1)).Nodup

end SourceGen.Xml
