import SourceGen.Syntax.Kind
import SourceGen.Text.Category
/-! Tokens of type names and member signatures, and how a text splits into them. -/

namespace SourceGen

/-- A stretch of source text and what it is. -/
structure Token where
  kind : Kind
  text : String
  deriving DecidableEq, Repr

namespace Token

/-- Reserved words, then the contextual words that count as keywords. -/
def keywords : List String :=
  ["abstract", "as", "base", "bool", "break", "byte", "case", "catch", "char", "checked", "class",
    "const", "continue", "decimal", "default", "delegate", "do", "double", "else", "enum", "event",
    "explicit", "extern", "false", "finally", "fixed", "float", "for", "foreach", "goto", "if",
    "implicit", "in", "int", "interface", "internal", "is", "lock", "long", "namespace", "new",
    "null", "object", "operator", "out", "override", "params", "private", "protected", "public",
    "readonly", "ref", "return", "sbyte", "sealed", "short", "sizeof", "stackalloc", "static",
    "string", "struct", "switch", "this", "throw", "true", "try", "typeof", "uint", "ulong",
    "unchecked", "unsafe", "ushort", "using", "virtual", "void", "volatile", "while",
    "async", "file", "get", "global", "init", "nint", "not", "nuint", "partial", "record", "set",
    "required", "scoped"]

def isKeyword (text : String) : Bool :=
  keywords.contains text

/-- The blanks between tokens. -/
def isSpace (c : Char) : Bool :=
  c = ' ' || c = '\t' || c = '\r' || c = '\n'

def isWordStart (c : Char) : Bool :=
  c = '_' || Text.isLetter c

def isWordPart (c : Char) : Bool :=
  isWordStart c || Text.isNumber c

def isDigitOrSeparator (c : Char) : Bool :=
  c.isDigit || c = '_'

/-- The number of characters at the front of the list that satisfy a test. -/
def countWhile (p : Char → Bool) (chars : List Char) : Nat :=
  (chars.takeWhile p).length

/-- The length of the fraction that follows the whole part of a number. -/
def fractionLength : List Char → Nat
  | '.' :: c :: rest => if c.isDigit then 2 + countWhile Char.isDigit rest else 0
  | _ => 0

/-- The length of what follows the first digit of a number. -/
def numberLength (rest : List Char) : Nat :=
  let whole := countWhile isDigitOrSeparator rest
  let fraction := fractionLength (rest.drop whole)
  whole + fraction + countWhile Char.isAlpha (rest.drop (whole + fraction))

/-- What follows the opening quote of a string, and how long it is. An open string ends before
the end of its line. -/
def stringTail : List Char → Kind × Nat
  | [] => (.error, 0)
  | ['\\'] => (.error, 1)
  | '"' :: _ => (.stringLiteral, 1)
  | '\n' :: _ => (.error, 0)
  | '\\' :: c :: rest =>
    if c = '\n' then (.error, 1)
    else ((stringTail rest).1, (stringTail rest).2 + 2)
  | _ :: rest => ((stringTail rest).1, (stringTail rest).2 + 1)

/-- What follows the opening quote of a character, and how long it is. -/
def charTail : List Char → Kind × Nat
  | '\\' :: '\n' :: _ => (.error, 1)
  | '\\' :: _ :: '\'' :: _ => (.charLiteral, 3)
  | '\\' :: _ :: _ => (.error, 2)
  | '\\' :: _ => (.error, 1)
  | '\'' :: _ => (.error, 0)
  | '\n' :: _ => (.error, 0)
  | _ :: '\'' :: _ => (.charLiteral, 2)
  | _ :: _ => (.error, 1)
  | [] => (.error, 0)

/-- The first and last code points whose encoding has the same length and lead byte as that of a
character beyond ASCII. -/
def leadBlock (code : Nat) : Nat × Nat :=
  let (size, least) :=
    if code < 0x800 then (0x40, 0x80)
    else if code < 0x10000 then (0x1000, 0x800)
    else (0x40000, 0x10000)
  let first := code / size * size
  (max first least, first + size - 1)

/-- Whether some letter beyond ASCII is encoded with the lead byte of this character. -/
def sharesLead (c : Char) : Bool :=
  if c.toNat < 0x80 then false
  else
    let (first, last) := leadBlock c.toNat
    Text.letterRanges.any fun range => range.1 ≤ last && first ≤ range.2

/-- What follows an at sign, and how long it is. -/
def verbatimTail : List Char → Kind × Nat
  | [] => (.error, 0)
  | c :: rest =>
    if isWordStart c then (.identifier, 1 + countWhile isWordPart rest)
    else (.error, if sharesLead c then 1 else 0)

/-- The longest operator or bracket that starts with a character, and how much of it follows. -/
def operatorTail (first : Char) (rest : List Char) : Kind × Nat :=
  match first, rest with
  | '\x7b', _ => (.leftBrace, 0)
  | '\x7d', _ => (.rightBrace, 0)
  | '(', _ => (.leftParen, 0)
  | ')', _ => (.rightParen, 0)
  | '[', _ => (.leftBracket, 0)
  | ']', _ => (.rightBracket, 0)
  | '<', '=' :: _ => (.lessEqual, 1)
  | '>', '=' :: _ => (.greaterEqual, 1)
  | '<', _ => (.leftAngle, 0)
  | '>', _ => (.rightAngle, 0)
  | ';', _ => (.semicolon, 0)
  | ',', _ => (.comma, 0)
  | '.', _ => (.dot, 0)
  | ':', ':' :: _ => (.colonColon, 1)
  | ':', _ => (.colon, 0)
  | '?', '?' :: '=' :: _ => (.questionQuestionEqual, 2)
  | '?', '?' :: _ => (.questionQuestion, 1)
  | '?', _ => (.question, 0)
  | '=', '=' :: _ => (.equalEqual, 1)
  | '!', '=' :: _ => (.notEqual, 1)
  | '=', '>' :: _ => (.fatArrow, 1)
  | '=', _ => (.equal, 0)
  | '+', '+' :: _ => (.plusPlus, 1)
  | '-', '-' :: _ => (.minusMinus, 1)
  | '+', _ => (.plus, 0)
  | '-', _ => (.minus, 0)
  | '*', _ => (.star, 0)
  | '&', '&' :: _ => (.ampAmp, 1)
  | '&', _ => (.amp, 0)
  | '|', '|' :: _ => (.pipePipe, 1)
  | '|', _ => (.pipe, 0)
  | '!', _ => (.bang, 0)
  | _, _ => (.error, 0)

def wordKind (text : String) : Kind :=
  if isKeyword text then .keyword else .identifier

/-- The kind of the longest token at a character, and how many more characters it takes. -/
def lexeme (first : Char) (rest : List Char) : Kind × Nat :=
  if isSpace first then (.whitespace, countWhile isSpace rest)
  else if isWordStart first then
    let length := countWhile isWordPart rest
    (wordKind (String.ofList (first :: rest.take length)), length)
  else if first.isDigit then (.numericLiteral, numberLength rest)
  else
    match first with
    | '@' => verbatimTail rest
    | '"' => stringTail rest
    | '\'' => charTail rest
    | '/' =>
      match rest with
      | '/' :: _ => (.lineComment, countWhile (· ≠ '\n') rest)
      | _ => (.error, 0)
    | _ => operatorTail first rest

def ofChars : List Char → List Token
  | [] => []
  | first :: rest =>
    let (kind, length) := lexeme first rest
    ⟨kind, String.ofList (first :: rest.take length)⟩ :: ofChars (rest.drop length)
termination_by chars => chars.length

/-- The tokens of a text, blanks included. -/
def tokenize (source : String) : List Token :=
  ofChars source.toList

/-- The tokens of a text without the blanks. -/
def significant (source : String) : List Token :=
  (tokenize source).filter (·.kind ≠ .whitespace)

def punct (kind : Kind) : Token :=
  ⟨kind, kind.spelling⟩

def ident (text : String) : Token :=
  ⟨.identifier, text⟩

def keyword (text : String) : Token :=
  ⟨.keyword, text⟩

end Token

end SourceGen
