import SourceGen.Proofs.Symbol.FullName
import SourceGen.Proofs.Syntax.Evaluation
import SourceGen.Snapshot.Constant

/-! Constants and the expressions of their snapshots. A constant has a snapshot unless an argument
inside failed to bind, and the expression of the snapshot has the value of the constant. -/

namespace SourceGen

namespace ConstantValue

/-- Whether some part of a constant has a property: the constant itself, or what an array in it
holds. -/
inductive Contains (part : ConstantValue → Prop) : ConstantValue → Prop
  | self {value : ConstantValue} (h : part value) : Contains part value
  | item {element : TypeSymbol} {items : List ConstantValue} {item : ConstantValue}
      (hm : item ∈ items) (h : Contains part item) : Contains part (.array element items)

/-- Whether an argument failed to bind. -/
def HasError (value : ConstantValue) : Prop :=
  value.Contains (· = .error)

/-- Whether a number is not whole. -/
def HasFloat (value : ConstantValue) : Prop :=
  value.Contains fun part =>
    (∃ bits, part = .primitive (.float bits)) ∨ ∃ bits, part = .primitive (.double bits)

end ConstantValue

/-- What a constant stands for. Numbers shorter than 32 bits have no literals of their own. -/
def Primitive.meaning? : Primitive → Option Value
  | string value => some (.string value)
  | bool value => some (.bool value)
  | char value => some (.char value)
  | sbyte value => some (.integer .int value.toInt)
  | byte value => some (.integer .int value.toNat)
  | short value => some (.integer .int value.toInt)
  | ushort value => some (.integer .int value.toNat)
  | int value => some (.integer .int value.toInt)
  | uint value => some (.integer .uint value.toNat)
  | long value => some (.integer .long value.toInt)
  | ulong value => some (.integer .ulong value.toNat)
  | float _ | double _ => none

namespace ConstantValue

mutual

/-- What a constant stands for, if it is bound and all its numbers are whole. -/
def meaning? : ConstantValue → Option Value
  | null => some .null
  | primitive value => value.meaning?
  | enumeration owner value =>
    some (.enumeration (Token.significant owner.fullName) value.toInt)
  | type symbol => some (.type (Token.significant symbol.fullName))
  | array _ items => (meanings? items).map .list
  | error => none

def meanings? : List ConstantValue → Option (List Value)
  | [] => some []
  | item :: items => item.meaning?.bind fun first => (meanings? items).map (first :: ·)

end

section Parts

variable {part : ConstantValue → Prop} {element : TypeSymbol} {items : List ConstantValue}

theorem contains_array_iff (h : ¬ part (.array element items)) :
    Contains part (.array element items) ↔ ∃ item ∈ items, item.Contains part := by
  constructor
  · rintro (hself | ⟨hm, hitem⟩)
    · exact absurd hself h
    · exact ⟨_, hm, hitem⟩
  · rintro ⟨item, hm, hitem⟩
    exact .item hm hitem

/-- A constant that is no array has no other parts. -/
theorem contains_iff {value : ConstantValue} (h : ∀ element items, value ≠ .array element items) :
    value.Contains part ↔ part value := by
  refine ⟨?_, .self⟩
  rintro (hself | ⟨hm, hitem⟩)
  · exact hself
  · exact absurd rfl (h _ _)

theorem hasError_array : (array element items).HasError ↔ ∃ item ∈ items, item.HasError :=
  contains_array_iff (by simp)

theorem hasFloat_array : (array element items).HasFloat ↔ ∃ item ∈ items, item.HasFloat :=
  contains_array_iff (by simp)

end Parts

mutual

/-- Constants that are bound and have whole numbers only stand for something. -/
theorem meaning?_isSome : (value : ConstantValue) → ¬ value.HasError → ¬ value.HasFloat →
    ∃ meaning, value.meaning? = some meaning
  | null, _, _ => ⟨_, by rw [meaning?]⟩
  | type _, _, _ => ⟨_, by rw [meaning?]⟩
  | enumeration _ _, _, _ => ⟨_, by rw [meaning?]⟩
  | error, herror, _ => absurd (.self rfl) herror
  | primitive value, _, hfloat => by
    rw [meaning?]
    cases value with
    | float bits => exact absurd (.self (.inl ⟨bits, rfl⟩)) hfloat
    | double bits => exact absurd (.self (.inr ⟨bits, rfl⟩)) hfloat
    | _ => exact ⟨_, rfl⟩
  | array _ items, herror, hfloat => by
    rw [hasError_array] at herror
    rw [hasFloat_array] at hfloat
    obtain ⟨meanings, hmeanings⟩ := meanings?_isSome items herror hfloat
    exact ⟨.list meanings, by rw [meaning?, hmeanings, Option.map_some]⟩

theorem meanings?_isSome : (items : List ConstantValue) → (¬ ∃ item ∈ items, item.HasError) →
    (¬ ∃ item ∈ items, item.HasFloat) → ∃ meanings, meanings? items = some meanings
  | [], _, _ => ⟨[], by rw [meanings?]⟩
  | item :: items, herror, hfloat => by
    rw [List.exists_mem_cons_iff, not_or] at herror hfloat
    obtain ⟨first, hfirst⟩ := meaning?_isSome item herror.1 hfloat.1
    obtain ⟨rest, hrest⟩ := meanings?_isSome items herror.2 hfloat.2
    exact ⟨first :: rest, by rw [meanings?, hfirst, hrest, Option.bind_some, Option.map_some]⟩

end

end ConstantValue

namespace Constant

section Snapshot

theorem ofValue_array_eq_ok_iff {element : TypeSymbol} {items : List ConstantValue}
    {constant : Constant} : ofValue (.array element items) = .ok constant ↔
      ∃ constants, ofValues items = .ok constants ∧
        constant = .array element.fullName constants := by
  rw [ofValue]
  cases ofValues items <;> simp [eq_comm]

theorem ofValues_cons_eq_ok_iff {item : ConstantValue} {items : List ConstantValue}
    {constants : List Constant} : ofValues (item :: items) = .ok constants ↔
      ∃ first rest, ofValue item = .ok first ∧ ofValues items = .ok rest ∧
        constants = first :: rest := by
  rw [ofValues]
  cases ofValue item <;> cases ofValues items <;> simp [eq_comm]

private theorem ofValue_bound {value : ConstantValue} {constant : Constant}
    (harray : ∀ element items, value ≠ .array element items) (hbound : value ≠ .error)
    (h : ofValue value = .ok constant) :
    (value.HasError ∧ ofValue value = .error .unboundArgument) ∨
      (¬ value.HasError ∧ ∃ constant, ofValue value = .ok constant) :=
  .inr ⟨fun hunbound => hbound ((ConstantValue.contains_iff harray).mp hunbound), constant, h⟩

mutual

/-- The snapshot fails for a part that is not bound, and for nothing else. -/
theorem ofValue_cases : (value : ConstantValue) →
    (value.HasError ∧ ofValue value = .error .unboundArgument) ∨
      (¬ value.HasError ∧ ∃ constant, ofValue value = .ok constant)
  | .null => ofValue_bound (by simp) (by simp) (by rw [ofValue])
  | .primitive _ => ofValue_bound (by simp) (by simp) (by rw [ofValue])
  | .type _ => ofValue_bound (by simp) (by simp) (by rw [ofValue])
  | .enumeration _ _ => ofValue_bound (by simp) (by simp) (by rw [ofValue])
  | .error => .inl ⟨.self rfl, by rw [ofValue]⟩
  | .array element items => by
    rw [ConstantValue.hasError_array, ofValue]
    rcases ofValues_cases items with ⟨hunbound, hread⟩ | ⟨hbound, constants, hread⟩
    · exact .inl ⟨hunbound, by rw [hread]⟩
    · exact .inr ⟨hbound, .array element.fullName constants, by rw [hread]⟩

theorem ofValues_cases : (items : List ConstantValue) →
    ((∃ item ∈ items, item.HasError) ∧ ofValues items = .error .unboundArgument) ∨
      ((¬ ∃ item ∈ items, item.HasError) ∧ ∃ constants, ofValues items = .ok constants)
  | [] => .inr ⟨by simp, [], by rw [ofValues]⟩
  | item :: items => by
    rw [List.exists_mem_cons_iff, ofValues]
    rcases ofValue_cases item with ⟨hunbound, hread⟩ | ⟨hbound, constant, hread⟩
    · exact .inl ⟨.inl hunbound, by rw [hread]⟩
    rcases ofValues_cases items with ⟨hunbound, hreads⟩ | ⟨hrest, constants, hreads⟩
    · exact .inl ⟨.inr hunbound, by rw [hread, hreads]⟩
    · exact .inr ⟨not_or.mpr ⟨hbound, hrest⟩, constant :: constants, by rw [hread, hreads]⟩

end

end Snapshot

section Meaning

private theorem evaluate?_int (value : Int) (hleast : -0x80000000 ≤ value)
    (h : value < 0x80000000) :
    (Expr.number (toString value)).toTree.evaluate? = some (.integer .int value) := by
  have hholds : NumberSuffix.none.type.holds value = true := by
    simp only [NumberSuffix.type, IntegerType.holds, decide_eq_true_eq]
    exact ⟨hleast, h⟩
  simpa only [NumberSuffix.text, String.append_empty, NumberSuffix.type] using
    Expr.evaluate?_number value hholds

/-- The literals of a type have the value of the constant: the type holds all numbers of constants
that are written with its suffix. -/
theorem evaluate?_primitive {value : Primitive} {meaning : Value}
    (h : value.meaning? = some meaning) :
    (value.toExpr escapedChar).toTree.evaluate? = some meaning := by
  cases value with
  | float bits | double bits => cases h
  | string value =>
    obtain rfl := Option.some.inj h
    exact Expr.evaluate?_string value
  | bool value =>
    obtain rfl := Option.some.inj h
    exact Expr.evaluate?_bool value
  | char value =>
    obtain rfl := Option.some.inj h
    exact Expr.evaluate?_char value
  | sbyte value =>
    obtain rfl := Option.some.inj h
    have hleast := value.le_toInt
    have hgreatest := value.toInt_lt
    exact evaluate?_int value.toInt (by omega) (by omega)
  | byte value =>
    obtain rfl := Option.some.inj h
    have hgreatest := value.toNat_lt
    exact evaluate?_int value.toNat (by omega) (by omega)
  | short value =>
    obtain rfl := Option.some.inj h
    have hleast := value.le_toInt
    have hgreatest := value.toInt_lt
    exact evaluate?_int value.toInt (by omega) (by omega)
  | ushort value =>
    obtain rfl := Option.some.inj h
    have hgreatest := value.toNat_lt
    exact evaluate?_int value.toNat (by omega) (by omega)
  | int value =>
    obtain rfl := Option.some.inj h
    exact evaluate?_int value.toInt value.le_toInt value.toInt_lt
  | uint value =>
    obtain rfl := Option.some.inj h
    have hholds : NumberSuffix.unsigned.type.holds value.toNat = true := by
      have hgreatest := value.toNat_lt
      simp only [NumberSuffix.type, IntegerType.holds, decide_eq_true_eq]
      omega
    have hread := Expr.evaluate?_number value.toNat hholds
    exact hread
  | long value =>
    obtain rfl := Option.some.inj h
    have hholds : NumberSuffix.long.type.holds value.toInt = true := by
      simp only [NumberSuffix.type, IntegerType.holds, decide_eq_true_eq]
      exact ⟨value.le_toInt, value.toInt_lt⟩
    have hread := Expr.evaluate?_number value.toInt hholds
    exact hread
  | ulong value =>
    obtain rfl := Option.some.inj h
    have hholds : NumberSuffix.unsignedLong.type.holds value.toNat = true := by
      have hgreatest := value.toNat_lt
      simp only [NumberSuffix.type, IntegerType.holds, decide_eq_true_eq]
      omega
    have hread := Expr.evaluate?_number value.toNat hholds
    exact hread

mutual

/-- The expression of a snapshot has the value of the constant. -/
theorem evaluate?_ofValue : (value : ConstantValue) → {constant : Constant} → {meaning : Value} →
    ofValue value = .ok constant → value.meaning? = some meaning →
      constant.toExpr.toTree.evaluate? = some meaning
  | .null, _, _, hread, hmeaning => by
    cases hread
    cases hmeaning
    rw [toExpr]
    exact Expr.evaluate?_null
  | .primitive _, _, _, hread, hmeaning => by
    cases hread
    rw [ConstantValue.meaning?] at hmeaning
    rw [toExpr]
    exact evaluate?_primitive hmeaning
  | .type _, _, _, hread, hmeaning => by
    cases hread
    cases hmeaning
    rw [toExpr]
    exact Expr.evaluate?_typeOf _
  | .enumeration _ _, _, _, hread, hmeaning => by
    cases hread
    cases hmeaning
    rw [toExpr]
    exact Expr.evaluate?_castNumber _ _
  | .error, _, _, hread, _ => by cases hread
  | .array _ items, _, _, hread, hmeaning => by
    obtain ⟨constants, hconstants, rfl⟩ := ofValue_array_eq_ok_iff.mp hread
    obtain ⟨meanings, hmeanings, rfl⟩ := Option.map_eq_some_iff.mp hmeaning
    rw [toExpr]
    exact Expr.evaluate?_collection (evaluate?_ofValues items hconstants hmeanings)

theorem evaluate?_ofValues : (items : List ConstantValue) → {constants : List Constant} →
    {meanings : List Value} → ofValues items = .ok constants →
      ConstantValue.meanings? items = some meanings →
      List.Forall₂ (fun item value => item.toTree.evaluate? = some value) (toExprs constants)
        meanings
  | [], _, _, hread, hmeaning => by
    cases hread
    cases hmeaning
    rw [toExprs]
    exact .nil
  | item :: items, _, _, hread, hmeaning => by
    obtain ⟨constant, constants, hconstant, hconstants, rfl⟩ := ofValues_cons_eq_ok_iff.mp hread
    rw [ConstantValue.meanings?] at hmeaning
    obtain ⟨first, hfirst, hmeaning⟩ := Option.bind_eq_some_iff.mp hmeaning
    obtain ⟨rest, hrest, rfl⟩ := Option.map_eq_some_iff.mp hmeaning
    rw [toExprs]
    exact .cons (evaluate?_ofValue item hconstant hfirst)
      (evaluate?_ofValues items hconstants hrest)

end

end Meaning

/-- A constant has a snapshot unless an argument inside failed to bind. If all its numbers are
whole, the expression of the snapshot has the value of the constant. Types are given by the tokens
of their full names, which spell these names. -/
theorem ofValue_evaluates :
    (∀ value : ConstantValue,
      (ofValue value = .error .unboundArgument ↔ value.HasError) ∧
      ((∃ constant, ofValue value = .ok constant) ↔ ¬ value.HasError) ∧
      (¬ value.HasError → ¬ value.HasFloat → ∃ constant meaning, ofValue value = .ok constant ∧
        value.meaning? = some meaning ∧ constant.toExpr.toTree.evaluate? = some meaning)) ∧
    ∀ type : TypeSymbol, type.HasIdentifiers →
      Token.spaced Token.apartInName none (Token.significant type.fullName) = type.fullName := by
  refine ⟨fun value => ?_, fun type htype => ?_⟩
  · rcases ofValue_cases value with ⟨herror, hread⟩ | ⟨herror, constant, hread⟩
    · exact ⟨by simp [hread, herror], by simp [hread, herror], fun h => absurd herror h⟩
    · refine ⟨by simp [hread, herror], by simp [hread, herror], fun _ hfloat => ?_⟩
      obtain ⟨meaning, hmeaning⟩ := value.meaning?_isSome herror hfloat
      exact ⟨constant, meaning, hread, hmeaning, evaluate?_ofValue value hread hmeaning⟩
  · obtain ⟨last, hname, -⟩ := (htype.typeName (show DisplayStyle.IsFull {} from ⟨rfl, rfl⟩)).2
    exact hname.spaced_significant

/-- The least number of an enumeration, among texts and characters that need escapes. -/
theorem ofValue_evaluates_nested :
    let level := TypeSymbol.named .enumType "App" "Level"
    let value := ConstantValue.array (.special .object)
      [.enumeration level (-9223372036854775808), .primitive (.char '\n'), .null,
        .array (.special .string) [.primitive (.string "a\"b"), .primitive (.ulong 7)],
        .array (.special .int32) []]
    ∃ constant, ofValue value = .ok constant ∧
      constant.toExpr.toTree.evaluate? = some (.list
        [.enumeration (Token.significant "global::App.Level") (-9223372036854775808), .char '\n',
          .null, .list [.string "a\"b", .integer .ulong 7], .list []]) ∧
      Token.spaced Token.apartInName none (Token.significant "global::App.Level") =
        "global::App.Level" := by
  intro level value
  have herror : ¬ value.HasError := ((ofValue_evaluates.1 value).2.1).mp ⟨_, rfl⟩
  have hfloat : ¬ value.HasFloat := by
    simp only [value, ConstantValue.hasFloat_array, List.exists_mem_cons_iff, List.not_mem_nil,
      false_and, exists_false, or_false]
    simp [ConstantValue.HasFloat, ConstantValue.contains_iff]
  have hlevel : level.HasIdentifiers := by
    have hword {name : String} (h : name ∈ ["App", "Level"]) : Token.IsIdentifier name := by
      simp only [List.mem_cons, List.not_mem_nil, or_false] at h
      rw [Token.isIdentifier_iff]
      rcases h with rfl | rfl <;> exact .plain rfl (by decide) (by decide) (by decide)
    exact .ofInfo (by decide) (by decide)
      ⟨hword (by simp), ⟨["App"], by simpa using hword (by simp), rfl⟩, by simp⟩
  obtain ⟨constant, meaning, hread, hmeaning, hvalue⟩ :=
    (ofValue_evaluates.1 value).2.2 herror hfloat
  obtain rfl := Option.some.inj hmeaning
  exact ⟨constant, hread, hvalue, ofValue_evaluates.2 level hlevel⟩

end Constant

end SourceGen
