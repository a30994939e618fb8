import SourceGen.Proofs.Syntax.Literals
import SourceGen.Proofs.Syntax.Signature

/-! The values of constant expressions. A tree has a value if it is a literal, a number behind a
minus sign, a type in `typeof`, a number that is cast to a type, or a list of such expressions in
brackets. -/

namespace SourceGen

/-- The types of whole numbers in expressions. -/
inductive IntegerType where
  | int
  | uint
  | long
  | ulong
  deriving DecidableEq, Repr

/-- What can stand behind the digits of a whole number. -/
inductive NumberSuffix where
  | none
  | unsigned
  | long
  | unsignedLong
  deriving DecidableEq, Repr

/-- A whole number as it is written, without a sign. -/
structure IntegerLiteral where
  magnitude : Nat
  suffix : NumberSuffix
  deriving DecidableEq, Repr

/-- What a constant expression stands for. Types are given by the tokens of their names. -/
inductive Value where
  | null
  | bool (value : Bool)
  | string (value : String)
  | char (value : Char)
  | integer (type : IntegerType) (value : Int)
  | type (name : List Token)
  | enumeration (type : List Token) (value : Int)
  | list (items : List Value)

/-- A part of a constant expression: a token, a type, a number of which it is not known yet whether
a minus sign stands in front of it, or an expression with a value. -/
inductive ConstantPart where
  | token (token : Token)
  | type (name : List Token)
  | number (literal : IntegerLiteral)
  | value (value : Value)

/-- Whether the numbers of a type include a number. -/
def IntegerType.holds (type : IntegerType) (value : Int) : Bool :=
  match type with
  | int => -0x80000000 ≤ value ∧ value < 0x80000000
  | uint => 0 ≤ value ∧ value < 0x100000000
  | long => -0x8000000000000000 ≤ value ∧ value < 0x8000000000000000
  | ulong => 0 ≤ value ∧ value < 0x10000000000000000

/-- The type of the negative numbers, given the type of their opposites. -/
def IntegerType.negated? : IntegerType → Option IntegerType
  | int => some int
  | uint | long => some long
  | ulong => none

namespace NumberSuffix

def text : NumberSuffix → String
  | none => ""
  | unsigned => "U"
  | long => "L"
  | unsignedLong => "UL"

def ofChars? : List Char → Option NumberSuffix
  | [] => some none
  | ['U'] => some unsigned
  | ['L'] => some long
  | ['U', 'L'] => some unsignedLong
  | _ => Option.none

/-- The least type that a literal with the suffix can have. -/
def type : NumberSuffix → IntegerType
  | none => .int
  | unsigned => .uint
  | long => .long
  | unsignedLong => .ulong

/-- The types that a literal with the suffix can have. It has the first that holds its number. -/
def types : NumberSuffix → List IntegerType
  | none => [.int, .uint, .long, .ulong]
  | unsigned => [.uint, .ulong]
  | long => [.long, .ulong]
  | unsignedLong => [.ulong]

end NumberSuffix

namespace IntegerLiteral

/-- Decimal digits, at least one, and a suffix. -/
def ofChars? (chars : List Char) : Option IntegerLiteral :=
  let digits := chars.takeWhile Char.isDigit
  if digits.isEmpty then none
  else
    (NumberSuffix.ofChars? (chars.dropWhile Char.isDigit)).map
      (⟨Nat.ofDigitChars 10 digits 0, ·⟩)

/-- The number of a literal without a sign, and its type. -/
def value? (literal : IntegerLiteral) : Option Value :=
  (literal.suffix.types.find? (·.holds literal.magnitude)).map (.integer · literal.magnitude)

/-- The number of a literal behind a minus sign. The least numbers of the signed types are written
with literals that these types do not hold; the sign and the literal are one number then. -/
def negated? (literal : IntegerLiteral) : Option Value :=
  if literal = ⟨0x80000000, .none⟩ then some (.integer .int (-0x80000000))
  else if literal = ⟨0x8000000000000000, .none⟩ ∨ literal = ⟨0x8000000000000000, .long⟩ then
    some (.integer .long (-0x8000000000000000))
  else
    match literal.value? with
    | some (.integer type value) => type.negated?.map (.integer · (-value))
    | _ => none

end IntegerLiteral

namespace ConstantPart

def value? : ConstantPart → Option Value
  | number literal => literal.value?
  | value known => some known
  | _ => none

/-- The only token of a literal. The text of a number may begin with its sign. -/
def ofLiteral? (token : Token) : Option ConstantPart :=
  match token.kind with
  | .keyword =>
    if token.text = "null" then some (value .null)
    else if token.text = "true" then some (value (.bool true))
    else if token.text = "false" then some (value (.bool false))
    else none
  | .stringLiteral => (Literal.readString? token.text).map fun text => value (.string text)
  | .charLiteral => (Literal.readChar? token.text).map fun c => value (.char c)
  | .numericLiteral =>
    match token.text.toList with
    | '-' :: chars => ((IntegerLiteral.ofChars? chars).bind IntegerLiteral.negated?).map value
    | chars => (IntegerLiteral.ofChars? chars).map number
  | _ => none

/-- The expressions of a list with a comma between them, up to its closing bracket. -/
def items? : List ConstantPart → Option (List Value)
  | [item, token closing] =>
    if closing = .punct .rightBracket then item.value?.map ([·]) else none
  | item :: token comma :: parts =>
    if comma = .punct .comma then
      item.value?.bind fun first => (items? parts).map (first :: ·)
    else none
  | _ => none

/-- What the parts of a node are together. -/
def combine? : Kind → List ConstantPart → Option ConstantPart
  | .literal, [token literal] => ofLiteral? literal
  | .parenthesized, [token opening, inner, token closing] =>
    if opening = .punct .leftParen ∧ closing = .punct .rightParen then inner.value?.map value
    else none
  | .prefixUnary, [token sign, number literal] =>
    if sign = .punct .minus then literal.negated?.map value else none
  | .typeOf, [token word, token opening, type name, token closing] =>
    if word = .keyword "typeof" ∧ opening = .punct .leftParen ∧ closing = .punct .rightParen then
      some (value (.type name))
    else none
  | .cast, [token opening, type name, token closing, operand] =>
    if opening = .punct .leftParen ∧ closing = .punct .rightParen then
      match operand.value? with
      | some (.integer _ amount) => some (value (.enumeration name amount))
      | _ => none
    else none
  | .collectionExpression, [token opening, token closing] =>
    if opening = .punct .leftBracket ∧ closing = .punct .rightBracket then some (value (.list []))
    else none
  | .collectionExpression, token opening :: parts =>
    if opening = .punct .leftBracket then (items? parts).map fun items => value (.list items)
    else none
  | _, _ => none

end ConstantPart

namespace Tree

mutual

/-- What a tree is as a part of a constant expression. -/
def part? : Tree → Option ConstantPart
  | leaf token => some (.token token)
  | node kind _ children =>
    if kind = .type then some (.type (leavesOf children))
    else (partsOf? children).bind (ConstantPart.combine? kind)

def partsOf? : List Tree → Option (List ConstantPart)
  | [] => some []
  | tree :: trees => tree.part?.bind fun part => (partsOf? trees).map (part :: ·)

end

/-- The value of a constant expression. -/
def evaluate? (tree : Tree) : Option Value :=
  tree.part?.bind ConstantPart.value?

end Tree

namespace IntegerLiteral

variable {suffix : NumberSuffix} {magnitude : Nat}

private theorem toList_toString (magnitude : Nat) :
    (toString magnitude).toList = Nat.toDigits 10 magnitude := by
  rw [Nat.toString_eq_ofList_toDigits, String.toList_ofList]

/-- The digits of a number and its suffix are read as they were written. -/
theorem ofChars?_spelled (magnitude : Nat) (suffix : NumberSuffix) :
    ofChars? (toString magnitude ++ suffix.text).toList = some ⟨magnitude, suffix⟩ := by
  have hdigits : ∀ c ∈ Nat.toDigits 10 magnitude, c.isDigit = true := fun c hm =>
    Nat.isDigit_of_mem_toDigits (by decide) (by decide) hm
  have hsuffix : (suffix.text.toList.takeWhile Char.isDigit = [] ∧
      suffix.text.toList.dropWhile Char.isDigit = suffix.text.toList) ∧
      NumberSuffix.ofChars? suffix.text.toList = some suffix := by
    cases suffix <;> decide
  obtain ⟨⟨htake, hdrop⟩, hread⟩ := hsuffix
  have hne : Nat.toDigits 10 magnitude ≠ [] :=
    List.ne_nil_of_length_pos Nat.length_toDigits_pos
  rw [String.toList_append, toList_toString, ofChars?, List.takeWhile_append_of_pos hdigits,
    List.dropWhile_append_of_pos hdigits, htake, hdrop, hread]
  simp [hne, Nat.ofDigitChars_ten_toDigits]

/-- A literal has the first type among those of its suffix that holds its number. -/
private theorem value?_of_types {type : IntegerType} {front back : List IntegerType}
    (htypes : suffix.types = front ++ type :: back)
    (hfront : ∀ other ∈ front, other.holds magnitude = false)
    (hholds : type.holds magnitude = true) :
    value? ⟨magnitude, suffix⟩ = some (.integer type magnitude) := by
  have hnone : front.find? (·.holds magnitude) = none :=
    List.find?_eq_none.mpr (by simpa using hfront)
  have hfound : (type :: back).find? (·.holds magnitude) = some type :=
    List.find?_cons_of_pos hholds
  simp only [value?, htypes, List.find?_append, hnone, Option.none_or, hfound, Option.map_some]

theorem value?_of_holds (h : suffix.type.holds magnitude = true) :
    value? ⟨magnitude, suffix⟩ = some (.integer suffix.type magnitude) := by
  have hfirst : ∃ wider, suffix.types = [] ++ suffix.type :: wider := by
    cases suffix <;> exact ⟨_, rfl⟩
  obtain ⟨wider, htypes⟩ := hfirst
  exact value?_of_types htypes (by simp) h

/-- A number without a suffix that is short of 64 bits has a type with a sign, or the one of 32 bits
without. -/
theorem value?_none (h : magnitude < 0x8000000000000000) :
    ∃ type ∈ [IntegerType.int, .uint, .long],
      value? ⟨magnitude, .none⟩ = some (.integer type magnitude) := by
  by_cases hint : magnitude < 0x80000000
  · refine ⟨.int, by simp, value?_of_types (show _ = [] ++ _ :: _ from rfl) (by simp) ?_⟩
    simp only [IntegerType.holds, decide_eq_true_eq]
    omega
  by_cases huint : magnitude < 0x100000000
  · refine ⟨.uint, by simp, value?_of_types (show _ = [.int] ++ _ :: _ from rfl) ?_ ?_⟩
    · simp only [List.mem_singleton, forall_eq, IntegerType.holds, decide_eq_false_iff_not]
      omega
    · simp only [IntegerType.holds, decide_eq_true_eq]
      omega
  · refine ⟨.long, by simp, value?_of_types (show _ = [.int, .uint] ++ _ :: _ from rfl) ?_ ?_⟩
    · simp only [List.forall_mem_cons, List.not_mem_nil, false_imp_iff, implies_true, and_true,
        IntegerType.holds, decide_eq_false_iff_not]
      omega
    · simp only [IntegerType.holds, decide_eq_true_eq]
      omega

/-- Behind a minus sign a literal keeps its number, unless a least number is written with it. -/
private theorem negated?_of_value? {literal : IntegerLiteral} {type other : IntegerType}
    (hint : literal ≠ ⟨0x80000000, .none⟩) (hlong : literal.magnitude ≠ 0x8000000000000000)
    (hvalue : literal.value? = some (.integer type literal.magnitude))
    (htype : type.negated? = some other) :
    literal.negated? = some (.integer other (-literal.magnitude)) := by
  have hleast : ¬ (literal = ⟨0x8000000000000000, .none⟩ ∨
      literal = ⟨0x8000000000000000, .long⟩) := by
    rintro (rfl | rfl) <;> exact hlong rfl
  rw [negated?, if_neg hint, if_neg hleast, hvalue]
  simp only [htype, Option.map_some]

/-- The number behind a minus sign, where the least type of its suffix holds the negative number. -/
theorem negated?_of_holds (hpos : 0 < magnitude) (h : suffix.type.holds (-magnitude) = true) :
    negated? ⟨magnitude, suffix⟩ = some (.integer suffix.type (-magnitude)) := by
  cases suffix with
  | unsigned | unsignedLong =>
    simp only [NumberSuffix.type, IntegerType.holds, decide_eq_true_eq] at h
    omega
  | none =>
    simp only [NumberSuffix.type, IntegerType.holds, decide_eq_true_eq] at h
    by_cases hleast : magnitude = 0x80000000
    · subst hleast
      rfl
    · have hholds : NumberSuffix.none.type.holds magnitude = true := by
        simp only [NumberSuffix.type, IntegerType.holds, decide_eq_true_eq]
        omega
      exact negated?_of_value? (fun heq => hleast (congrArg IntegerLiteral.magnitude heq))
        (show magnitude ≠ 0x8000000000000000 by omega) (value?_of_holds hholds) rfl
  | long =>
    simp only [NumberSuffix.type, IntegerType.holds, decide_eq_true_eq] at h
    by_cases hleast : magnitude = 0x8000000000000000
    · subst hleast
      rfl
    · have hholds : NumberSuffix.long.type.holds magnitude = true := by
        simp only [NumberSuffix.type, IntegerType.holds, decide_eq_true_eq]
        omega
      exact negated?_of_value? (by simp only [ne_eq, mk.injEq, reduceCtorEq, and_false,
        not_false_eq_true]) hleast (value?_of_holds hholds) rfl

/-- Every number down to the least one of 64 bits can be written without a suffix. -/
theorem negated?_none (h : magnitude ≤ 0x8000000000000000) :
    ∃ type, negated? ⟨magnitude, .none⟩ = some (.integer type (-magnitude)) := by
  by_cases hint : magnitude = 0x80000000
  · exact ⟨.int, by subst hint; rfl⟩
  by_cases hlong : magnitude = 0x8000000000000000
  · exact ⟨.long, by subst hlong; rfl⟩
  obtain ⟨type, hm, hvalue⟩ := value?_none (show magnitude < 0x8000000000000000 by omega)
  have htype : ∃ other, type.negated? = some other := by
    simp only [List.mem_cons, List.not_mem_nil, or_false] at hm
    rcases hm with rfl | rfl | rfl <;> exact ⟨_, rfl⟩
  obtain ⟨other, hother⟩ := htype
  exact ⟨other, negated?_of_value? (fun heq => hint (congrArg IntegerLiteral.magnitude heq)) hlong
    hvalue hother⟩

end IntegerLiteral

namespace Tree

theorem evaluate?_eq {tree : Tree} {part : ConstantPart} (h : tree.part? = some part) :
    tree.evaluate? = part.value? := by
  rw [evaluate?, h, Option.bind_some]

theorem part?_leaf (token : Token) : (leaf token).part? = some (.token token) := by
  rw [part?]

theorem part?_literal (token : Token) :
    (Expr.literal [token]).toTree.part? = ConstantPart.ofLiteral? token := by
  simp [Expr.toTree, plain, part?, partsOf?, ConstantPart.combine?]

theorem part?_type (type : TypeExpr) : type.toTree.part? = some (.type (leavesOf type.parts)) := by
  simp [TypeExpr.toTree, plain, part?]

theorem part?_parse (name : String) :
    (TypeExpr.parse name).toTree.part? = some (.type (Token.significant name)) := by
  rw [part?_type, TypeExpr.parse, TypeExpr.parts, leavesOf_leaf]

end Tree

namespace Expr

theorem evaluate?_null : null.toTree.evaluate? = some .null := by
  rw [Tree.evaluate?, null, Tree.part?_literal]
  rfl

theorem evaluate?_bool (value : Bool) : (bool value).toTree.evaluate? = some (.bool value) := by
  rw [Tree.evaluate?, bool, Tree.part?_literal]
  cases value <;> rfl

theorem evaluate?_string (value : String) :
    (string value).toTree.evaluate? = some (.string value) := by
  rw [Tree.evaluate?, string, Tree.part?_literal]
  simp [ConstantPart.ofLiteral?, Literal.readString?_string, ConstantPart.value?]

theorem evaluate?_char (c : Char) :
    (char (charLiteral (escapedChar c))).toTree.evaluate? = some (.char c) := by
  rw [Tree.evaluate?, char, Tree.part?_literal]
  simp [ConstantPart.ofLiteral?, Literal.readChar?_charLiteral, ConstantPart.value?]

theorem part?_natural (magnitude : Nat) (suffix : NumberSuffix) :
    (number (toString magnitude ++ suffix.text)).toTree.part? =
      some (.number ⟨magnitude, suffix⟩) := by
  have hread := IntegerLiteral.ofChars?_spelled magnitude suffix
  have hsign : ∀ rest, (toString magnitude ++ suffix.text).toList ≠ '-' :: rest := by
    intro rest hminus
    -- a text that begins with a sign has no digits in front of its suffix
    rw [hminus] at hread
    simp [IntegerLiteral.ofChars?] at hread
  rw [number, Tree.part?_literal]
  simp only [ConstantPart.ofLiteral?, hread, Option.map_some]

theorem part?_negative {magnitude : Nat} {suffix : NumberSuffix} {value : Value}
    (h : IntegerLiteral.negated? ⟨magnitude, suffix⟩ = some value) :
    (number ("-" ++ toString magnitude ++ suffix.text)).toTree.part? = some (.value value) := by
  have hchars : ("-" ++ toString magnitude ++ suffix.text).toList =
      '-' :: (toString magnitude ++ suffix.text).toList := by
    simp [String.toList_append]
  rw [number, Tree.part?_literal]
  simp only [ConstantPart.ofLiteral?, hchars, IntegerLiteral.ofChars?_spelled, Option.bind_some, h,
    Option.map_some]

/-- A number is read again from its decimal digits if the least type of its suffix holds it. -/
theorem evaluate?_number {suffix : NumberSuffix} (value : Int)
    (h : suffix.type.holds value = true) :
    (number (toString value ++ suffix.text)).toTree.evaluate? =
      some (.integer suffix.type value) := by
  cases value with
  | ofNat magnitude =>
    exact (Tree.evaluate?_eq (part?_natural magnitude suffix)).trans
      (IntegerLiteral.value?_of_holds h)
  | negSucc magnitude =>
    have hnegated := IntegerLiteral.negated?_of_holds magnitude.succ_pos h
    exact Tree.evaluate?_eq (part?_negative hnegated)

theorem evaluate?_typeOf (name : String) :
    (typeOf (.parse name)).toTree.evaluate? = some (.type (Token.significant name)) := by
  simp [Tree.evaluate?, toTree, keywordCallTree, Tree.plain, Tree.keyword, Tree.punct, Tree.part?,
    Tree.partsOf?, Tree.part?_parse, ConstantPart.combine?, ConstantPart.value?]

theorem part?_digits (magnitude : Nat) :
    (number (toString magnitude)).toTree.part? = some (.number ⟨magnitude, .none⟩) := by
  simpa only [NumberSuffix.text, String.append_empty] using part?_natural magnitude .none

/-- What is cast to a type is read again as a number of that type. -/
private theorem evaluate?_cast {name : String} {operand : Expr} {type : IntegerType} {value : Int}
    (h : operand.toTree.evaluate? = some (.integer type value)) :
    (cast (.parse name) operand).toTree.evaluate? =
      some (.enumeration (Token.significant name) value) := by
  obtain ⟨part, hpart, hvalue⟩ := Option.bind_eq_some_iff.mp h
  have hparts : (cast (.parse name) operand).toTree.part? =
      ConstantPart.combine? .cast [.token (.punct .leftParen), .type (Token.significant name),
        .token (.punct .rightParen), part] := by
    simp [toTree, Tree.plain, Tree.punct, Tree.part?, Tree.partsOf?, Tree.part?_parse, hpart]
  have hcast : ConstantPart.combine? .cast [.token (.punct .leftParen),
      .type (Token.significant name), .token (.punct .rightParen), part] =
        some (.value (.enumeration (Token.significant name) value)) := by
    simp only [ConstantPart.combine?, and_self, if_true, hvalue]
  exact Tree.evaluate?_eq (hparts.trans hcast)

private theorem evaluate?_minus {magnitude : Nat} {value : Value}
    (h : IntegerLiteral.negated? ⟨magnitude, .none⟩ = some value) :
    (parenthesized (prefixed .minus (number (toString magnitude)))).toTree.evaluate? =
      some value := by
  have hminus : (prefixed .minus (number (toString magnitude))).toTree.part? =
      some (.value value) := by
    rw [toTree]
    simp only [Tree.plain, Tree.punct, Tree.part?, Tree.partsOf?, part?_digits]
    simp [ConstantPart.combine?, h]
  have hinside :
      (parenthesized (prefixed .minus (number (toString magnitude)))).toTree.part? =
        some (.value value) := by
    rw [toTree]
    simp only [Tree.plain, Tree.punct, Tree.part?, Tree.partsOf?, hminus]
    simp [ConstantPart.combine?, ConstantPart.value?]
  exact Tree.evaluate?_eq hinside

/-- The number behind a cast is read again, up to the least one of 64 bits. -/
theorem evaluate?_castNumber (typeName : String) (value : Int64) :
    (castNumber typeName value).toTree.evaluate? =
      some (.enumeration (Token.significant typeName) value.toInt) := by
  have hleast := value.le_toInt
  have hgreatest := value.toInt_lt
  have hsign : value < 0 ↔ value.toInt < 0 := Int64.lt_iff_toInt_lt
  rw [castNumber]
  by_cases hnegative : value < 0
  · have hvalue : -(value.toInt.natAbs : Int) = value.toInt := by
      have := hsign.mp hnegative
      omega
    obtain ⟨type, hread⟩ :=
      IntegerLiteral.negated?_none (show value.toInt.natAbs ≤ 0x8000000000000000 by omega)
    rw [if_pos hnegative]
    rw [hvalue] at hread
    exact evaluate?_cast (evaluate?_minus hread)
  · have hvalue : (value.toInt.natAbs : Int) = value.toInt := by
      have := mt hsign.mpr hnegative
      omega
    obtain ⟨type, -, hread⟩ :=
      IntegerLiteral.value?_none (show value.toInt.natAbs < 0x8000000000000000 by omega)
    rw [if_neg hnegative]
    rw [hvalue] at hread
    exact evaluate?_cast ((Tree.evaluate?_eq (part?_digits _)).trans hread)

/-- The items of a list are read again from their trees with commas between them. -/
private theorem items?_separated {trees : List Tree} {values : List Value} (hne : trees ≠ [])
    (h : List.Forall₂ (fun tree value => tree.evaluate? = some value) trees values) :
    ∃ parts, Tree.partsOf? (Tree.separated trees ++ [.punct .rightBracket]) = some parts ∧
      ConstantPart.items? parts = some values := by
  induction h with
  | nil => exact absurd rfl hne
  | @cons tree value trees values hfirst hrest ih =>
    obtain ⟨part, hpart, hvalue⟩ := Option.bind_eq_some_iff.mp hfirst
    cases hrest with
    | nil =>
      refine ⟨[part, .token (.punct .rightBracket)], ?_, ?_⟩
      · simp [Tree.separated, Tree.partsOf?, Tree.punct, Tree.part?, hpart]
      · simp [ConstantPart.items?, hvalue]
    | cons hnext hrest =>
      obtain ⟨parts, hparts, hitems⟩ := ih (by simp)
      have hmore : parts ≠ [] := by
        rintro rfl
        cases hitems
      refine ⟨part :: .token (.punct .comma) :: parts, ?_, ?_⟩
      · rw [Tree.separated, List.cons_append, List.cons_append, Tree.partsOf?, Tree.partsOf?,
          hparts, hpart, Tree.punct, Tree.part?_leaf]
        · rfl
        · simp
      · rw [ConstantPart.items?, if_pos rfl, hvalue, hitems, Option.bind_some, Option.map_some]
        exact hmore

theorem evaluate?_collection {items : List Expr} {values : List Value}
    (h : List.Forall₂ (fun item value => item.toTree.evaluate? = some value) items values) :
    (collection items).toTree.evaluate? = some (.list values) := by
  have htrees : List.Forall₂ (fun tree value => Tree.evaluate? tree = some value)
      (expressionTrees items) values := by
    induction h with
    | nil => exact .nil
    | cons hfirst _ ih => exact .cons hfirst ih
  have hparts : ∃ parts, Tree.partsOf? (Tree.enclosed .leftBracket .rightBracket
      (expressionTrees items)) = some (.token (.punct .leftBracket) :: parts) ∧
      ConstantPart.combine? .collectionExpression (.token (.punct .leftBracket) :: parts) =
        some (.value (.list values)) := by
    generalize expressionTrees items = trees at htrees
    cases htrees with
    | nil => exact ⟨[.token (.punct .rightBracket)], rfl, rfl⟩
    | cons hfirst hrest =>
      obtain ⟨parts, hparts, hitems⟩ := items?_separated (List.cons_ne_nil _ _) (.cons hfirst hrest)
      refine ⟨parts, ?_, ?_⟩
      · rw [Tree.enclosed, List.cons_append, Tree.partsOf?, hparts]
        rfl
      · rw [ConstantPart.combine?, if_pos rfl, hitems, Option.map_some]
        -- a closing bracket alone is no row of items
        rintro token rfl
        cases hitems
  obtain ⟨parts, hread, hlist⟩ := hparts
  have hpart : (collection items).toTree.part? = some (.value (.list values)) := by
    rw [toTree]
    simp [Tree.plain, Tree.part?, hread, hlist]
  exact Tree.evaluate?_eq hpart

end Expr

/-- A number with a suffix for 32 bits that needs more of them. -/
example : (Expr.number "4294967296U").toTree.evaluate? = some (.integer .ulong 4294967296) := by
  cbv

end SourceGen
