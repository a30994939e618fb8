import SourceGen.Text.Category
/-! Trimming and splitting of texts, and the numbers that digits spell. -/

namespace SourceGen.Text

/-- The list without the last elements that satisfy a test. -/
def dropWhileEnd (p : Char → Bool) (chars : List Char) : List Char :=
  (chars.reverse.dropWhile p).reverse

/-- The text without blanks at either end. -/
def trim (text : String) : String :=
  String.ofList (dropWhileEnd isBlank (text.toList.dropWhile isBlank))

/-- The runs of characters between occurrences of a separator; one more than there are
separators. -/
def splitChars (separator : Char) : List Char → List (List Char)
  | [] => [[]]
  | c :: rest =>
    if c = separator then [] :: splitChars separator rest
    else
      match splitChars separator rest with
      | [] => [[c]]
      | part :: parts => (c :: part) :: parts

/-- The parts of a text between occurrences of a separator. -/
def split (text : String) (separator : Char) : List String :=
  (splitChars separator text.toList).map String.ofList

/-- The lines of a text without their breaks. A carriage return belongs to the line feed behind it. -/
def lines (text : String) : List String :=
  let parts := splitChars '\n' text.toList
  let ended := parts.dropLast.map fun line =>
    if line.getLast? = some '\r' then line.dropLast else line
  let last := parts.getLast?.filter fun line => !line.isEmpty
  (ended ++ last.toList).map String.ofList

def join (separator : String) (parts : List String) : String :=
  separator.intercalate parts

def digitValue? (c : Char) : Option Nat :=
  if c.isDigit then some (c.toNat - 48) else none

def hexDigitValue? (c : Char) : Option Nat :=
  if c.isDigit then some (c.toNat - 48)
  else if 'a' ≤ c ∧ c ≤ 'f' then some (c.toNat - 87)
  else if 'A' ≤ c ∧ c ≤ 'F' then some (c.toNat - 55)
  else none

/-- The value of decimal digits that follow those of `value`. -/
def digitsValue? (value : Nat) : List Char → Option Nat
  | [] => some value
  | c :: rest => (digitValue? c).bind fun digit => digitsValue? (value * 10 + digit) rest

/-- A number below `bound` written as decimal digits, at least one, after an optional plus. -/
def decimalBelow? (bound : Nat) (text : String) : Option Nat :=
  let digits :=
    match text.toList with
    | '+' :: rest => rest
    | chars => chars
  if digits.isEmpty then none
  else (digitsValue? 0 digits).filter (· < bound)

/-- The ASCII letters of a text in lower case. -/
def asciiLower (text : String) : String :=
  text.map Char.toLower

def endsWith (chars tail : List Char) : Bool :=
  tail.reverse.isPrefixOf chars.reverse

end SourceGen.Text
