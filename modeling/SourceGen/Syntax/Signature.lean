import SourceGen.Syntax.Member
/-! Method signatures read from a text, such as a row of an endpoints file. -/

namespace SourceGen

/-- The result, name, type parameters and parameters of a method. -/
structure Signature where
  result : TypeExpr
  name : String
  typeParameters : List String := []
  parameters : List Parameter := []

namespace Signature

/-- Splits reversed tokens at the opening bracket that closes `depth` open pairs, into what stands
inside and what stands in front of it. -/
def splitOpening (opening closing : Kind) : Nat → List Token → Option (List Token × List Token)
  | _, [] => none
  | depth, token :: rest =>
    let keep (parts : List Token × List Token) := (token :: parts.1, parts.2)
    if token.kind = closing then (splitOpening opening closing (depth + 1) rest).map keep
    else if token.kind = opening then
      match depth with
      | 0 => none
      | 1 => some ([], rest)
      | depth + 2 => (splitOpening opening closing (depth + 1) rest).map keep
    else (splitOpening opening closing depth rest).map keep

/-- The tokens between the last token, a closing bracket, and its opening bracket, and those in
front of it. -/
def splitLastPair (opening closing : Kind) (tokens : List Token) :
    Option (List Token × List Token) :=
  (splitOpening opening closing 0 tokens.reverse).map fun (inside, before) =>
    ((inside.drop 1).reverse, before.reverse)

/-- How a token changes the number of open brackets. -/
def depthChange (kind : Kind) : Int :=
  match kind with
  | .leftParen | .leftAngle | .leftBracket | .leftBrace => 1
  | .rightParen | .rightAngle | .rightBracket | .rightBrace => -1
  | _ => 0

/-- The parts between commas that stand outside all brackets. -/
def splitCommas : Int → List Token → List (List Token)
  | _, [] => [[]]
  | depth, token :: rest =>
    if token.kind = .comma ∧ depth = 0 then [] :: splitCommas depth rest
    else
      match splitCommas (depth + depthChange token.kind) rest with
      | [] => [[token]]
      | part :: parts => (token :: part) :: parts

/-- The modifier that a word is in front of a parameter. -/
def parameterModifier? (token : Token) : Option Modifier :=
  if token.kind ≠ .keyword then none
  else
    match token.text with
    | "this" => some .receiver
    | "params" => some .variadic
    | "ref" => some .byRef
    | "out" => some .byOut
    | "in" => some .byIn
    | "scoped" => some .scopedRef
    | "readonly" => some .readOnly
    | _ => none

/-- The modifiers at the front of a parameter, and the rest of it. -/
def splitModifiers : List Token → List Modifier × List Token
  | [] => ([], [])
  | token :: rest =>
    match parameterModifier? token with
    | some modifier => (modifier :: (splitModifiers rest).1, (splitModifiers rest).2)
    | none => ([], token :: rest)

/-- The default value of a parameter: tokens as they are, but a negative number as an operator with
its operand. -/
def defaultValue? : List Token → Option Expr
  | [] => none
  | [sign, number] =>
    if sign.kind = .minus ∧ number.kind = .numericLiteral then
      some (.prefixed .minus (.number number.text))
    else some (.literal [sign, number])
  | tokens => some (.literal tokens)

/-- A parameter without its default value. -/
def bareParameter? (tokens : List Token) : Option Parameter :=
  let (modifiers, rest) := splitModifiers tokens
  match rest.reverse with
  | name :: type =>
    if name.kind = .identifier ∧ !type.isEmpty then
      some { modifiers, type := .tokens type.reverse, name := name.text }
    else none
  | [] => none

/-- A parameter with or without a default value. -/
def parameter? (tokens : List Token) : Option Parameter :=
  let declared := tokens.takeWhile (·.kind ≠ .equal)
  match tokens.dropWhile (·.kind ≠ .equal) with
  | [] => bareParameter? declared
  | _ :: value =>
    (defaultValue? value).bind fun value =>
      (bareParameter? declared).map fun parameter => { parameter with default := some value }

/-- The parameters between the parentheses. -/
def parameters? (tokens : List Token) : Option (List Parameter) :=
  if tokens.isEmpty then some [] else (splitCommas 0 tokens).mapM parameter?

/-- The name of a type parameter that stands alone. -/
def typeParameter? : List Token → Option String
  | [token] => if token.kind = .identifier then some token.text else none
  | _ => none

/-- The result type and name in front of the parameters and type parameters. -/
def named? (tokens : List Token) (typeParameters : List String) (parameters : List Parameter) :
    Option Signature :=
  match tokens.reverse with
  | name :: type =>
    if name.kind = .identifier ∧ !type.isEmpty then
      some ⟨.tokens type.reverse, name.text, typeParameters, parameters⟩
    else none
  | [] => none

def withoutSemicolon (tokens : List Token) : List Token :=
  match tokens.getLast? with
  | some token => if token.kind = .semicolon then tokens.dropLast else tokens
  | none => tokens

/-- Reads a signature whose tokens end with the parameters. -/
def ofTokens? (tokens : List Token) : Option Signature := do
  let last ← tokens.getLast?
  guard (last.kind = .rightParen)
  let (inside, before) ← splitLastPair .leftParen .rightParen tokens
  let angle ← before.getLast?
  if angle.kind = .rightAngle then
    let (names, front) ← splitLastPair .leftAngle .rightAngle before
    named? front (← (splitCommas 0 names).mapM typeParameter?) (← parameters? inside)
  else named? before [] (← parameters? inside)

/-- Reads a single method signature, with or without a semicolon at the end. -/
def parse? (text : String) : Option Signature :=
  let tokens := Token.significant text
  if tokens.any fun token => token.kind == .error || token.kind == .lineComment then none
  else ofTokens? (withoutSemicolon tokens)

def toDeclaration (signature : Signature) (body : Body) : Declaration :=
  .method signature.result signature.name signature.typeParameters signature.parameters body

end Signature

end SourceGen
