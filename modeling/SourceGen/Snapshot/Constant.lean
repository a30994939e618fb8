import SourceGen.Symbol.Constant
import SourceGen.Failure
/-! Constants without the symbols that they refer to, so that they can be compared. -/

namespace SourceGen

/-- A constant. Types are given by their full names. -/
inductive Constant where
  | null
  | primitive (value : Primitive)
  | type (name : String) (isUnbound : Bool)
  | enumeration (typeName : String) (value : Int64)
  | array (elementName : String) (items : List Constant)

namespace Constant

mutual

def decideEq : (a b : Constant) → Decidable (a = b)
  | null, null => isTrue rfl
  | primitive a, primitive b =>
    if h : a = b then isTrue (by rw [h]) else isFalse (by simpa using h)
  | type a x, type b y =>
    if h : a = b ∧ x = y then isTrue (by rw [h.1, h.2]) else isFalse (by simpa using h)
  | enumeration a x, enumeration b y =>
    if h : a = b ∧ x = y then isTrue (by rw [h.1, h.2]) else isFalse (by simpa using h)
  | array a x, array b y =>
    if h : a = b then
      match decideEqList x y with
      | isTrue g => isTrue (by rw [h, g])
      | isFalse g => isFalse (by simp [g])
    else isFalse (by simp [h])
  | null, primitive _ | null, type _ _ | null, enumeration _ _ | null, array _ _
  | primitive _, null | primitive _, type _ _ | primitive _, enumeration _ _
  | primitive _, array _ _ | type _ _, null | type _ _, primitive _ | type _ _, enumeration _ _
  | type _ _, array _ _ | enumeration _ _, null | enumeration _ _, primitive _
  | enumeration _ _, type _ _ | enumeration _ _, array _ _ | array _ _, null
  | array _ _, primitive _ | array _ _, type _ _ | array _ _, enumeration _ _ =>
    isFalse (by simp)

def decideEqList : (a b : List Constant) → Decidable (a = b)
  | [], [] => isTrue rfl
  | [], _ :: _ => isFalse (by simp)
  | _ :: _, [] => isFalse (by simp)
  | a :: as, b :: bs =>
    match decideEq a b, decideEqList as bs with
    | isTrue h, isTrue g => isTrue (by rw [h, g])
    | isFalse h, _ => isFalse (by simp [h])
    | _, isFalse g => isFalse (by simp [g])

end

instance : DecidableEq Constant := decideEq

mutual

/-- The snapshot of a constant. It fails if an argument inside failed to bind. -/
def ofValue : ConstantValue → Except Failure Constant
  | .null => .ok .null
  | .primitive value => .ok (.primitive value)
  | .type symbol => .ok (.type symbol.fullName symbol.info.isUnbound)
  | .enumeration owner value => .ok (.enumeration owner.fullName value)
  | .array element items =>
    match ofValues items with
    | .ok constants => .ok (.array element.fullName constants)
    | .error failure => .error failure
  | .error => .error .unboundArgument

def ofValues : List ConstantValue → Except Failure (List Constant)
  | [] => .ok []
  | value :: values =>
    match ofValue value with
    | .error failure => .error failure
    | .ok constant =>
      match ofValues values with
      | .error failure => .error failure
      | .ok constants => .ok (constant :: constants)

end

mutual

def toExpr : Constant → Expr
  | null => .null
  | primitive value => value.toExpr escapedChar
  | type name _ => .typeOf (.parse name)
  | enumeration typeName value => castNumber typeName value
  | array _ items => .collection (toExprs items)

def toExprs : List Constant → List Expr
  | [] => []
  | item :: items => toExpr item :: toExprs items

end

def string? : Constant → Option String
  | primitive (.string value) => some value
  | _ => none

def bool? : Constant → Option Bool
  | primitive (.bool value) => some value
  | _ => none

def enumValue? : Constant → Option Int64
  | enumeration _ value => some value
  | _ => none

def typeName? : Constant → Option String
  | type name _ => some name
  | _ => none

end Constant

end SourceGen
