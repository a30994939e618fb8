import SourceGen.Symbol.Display
/-! Constants as expressions. -/

namespace SourceGen

/-- The spelling of a character literal around the spelling of its character. -/
def charLiteral (inner : List Char) : String :=
  String.ofList ('\'' :: inner ++ ['\''])

/-- A character inside a literal in which only the quote and the backslash are escaped. -/
def plainChar (c : Char) : List Char :=
  match c with
  | '\'' => ['\\', '\'']
  | '\\' => ['\\', '\\']
  | c => [c]

/-- A character inside a literal in which control characters are escaped too. -/
def escapedChar (c : Char) : List Char :=
  match c with
  | '\'' => ['\\', '\'']
  | '"' => ['"']
  | c => Literal.escaped c

/-- A constant as an expression, given how a character is spelled inside its literal. -/
def Primitive.toExpr (spell : Char → List Char) : Primitive → Expr
  | string value => .string value
  | bool value => .bool value
  | char value => .char (charLiteral (spell value))
  | sbyte value => .number (toString value.toInt)
  | byte value => .number (toString value.toNat)
  | short value => .number (toString value.toInt)
  | ushort value => .number (toString value.toNat)
  | int value => .number (toString value.toInt)
  | uint value => .number (toString value.toNat ++ "U")
  | long value => .number (toString value.toInt ++ "L")
  | ulong value => .number (toString value.toNat ++ "UL")
  | float bits => .float bits.toNat
  | double bits => .double bits.toNat

/-- A number cast to the type of the given name. A negative operand stands in parentheses, as it
would otherwise be read as a subtraction. -/
def castNumber (typeName : String) (value : Int64) : Expr :=
  let literal := Expr.number (toString value.toInt.natAbs)
  .cast (.parse typeName)
    (if value < 0 then .parenthesized (.prefixed .minus literal) else literal)

namespace ConstantValue

mutual

/-- The expression that is written for a constant in a source file. -/
def toExpr : ConstantValue → Expr
  | null => .null
  | error => .default
  | primitive value => value.toExpr plainChar
  | enumeration owner value =>
    match owner.enumMemberName? value with
    | some member => .member (.qualified owner.fullName) member
    | none => castNumber owner.fullName value
  | type symbol => .typeOf (.parse symbol.fullName)
  | array _ items => .collection (toExprs items)

def toExprs : List ConstantValue → List Expr
  | [] => []
  | item :: items => toExpr item :: toExprs items

end

end ConstantValue

end SourceGen
