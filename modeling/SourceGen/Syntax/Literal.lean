import SourceGen.Text.Category
import SourceGen.Decimal.Shortest
/-! The spelling of literals. -/

namespace SourceGen.Literal

/-- A digit of a hexadecimal number, in upper case. -/
def hexDigit (value : Nat) : Char :=
  if value < 10 then Char.ofNat (48 + value) else Char.ofNat (55 + value)

/-- Four hexadecimal digits. -/
def hexDigits (value : Nat) : List Char :=
  [hexDigit (value / 4096 % 16), hexDigit (value / 256 % 16), hexDigit (value / 16 % 16),
    hexDigit (value % 16)]

/-- A character as it is written inside a string literal. -/
def escaped (c : Char) : List Char :=
  match c with
  | '"' => ['\\', '"']
  | '\\' => ['\\', '\\']
  | '\n' => ['\\', 'n']
  | '\r' => ['\\', 'r']
  | '\t' => ['\\', 't']
  | '\x00' => ['\\', '0']
  | c => if Text.isControl c then '\\' :: 'u' :: hexDigits c.toNat else [c]

def string (value : String) : String :=
  String.ofList ('"' :: value.toList.flatMap escaped ++ ['"'])

/-- A floating point number that has a literal, or the name of one that has none. -/
inductive FloatSpelling where
  | literal (text : String)
  | member (name : String)

/-- The form of floating point numbers in literals. -/
def decimals : Decimal.Spelling := ⟨-4, false⟩

/-- The spelling of the floating point number with the given bits. -/
def float (format : Decimal.BinaryFormat) (suffix : String) (bits : Nat) : FloatSpelling :=
  match format.decode bits with
  | .notANumber => .member "NaN"
  | .infinite true => .member "NegativeInfinity"
  | .infinite false => .member "PositiveInfinity"
  | .finite negative mantissa exponent narrow =>
    .literal (decimals.finite negative mantissa exponent narrow ++ suffix)

end SourceGen.Literal
