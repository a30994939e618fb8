import SourceGen.Generator.Names
import SourceGen.Syntax.Member
/-! Turns of phrase that several generators write. -/

namespace SourceGen

def Parameter.simple (type : TypeExpr) (name : String) : Parameter :=
  { type, name }

/-- The receiver of an extension method. -/
def Parameter.extended (type : TypeExpr) (name : String) : Parameter :=
  { modifiers := [.receiver], type, name }

namespace Member

def method (modifiers : List Modifier) (result : TypeExpr) (name : String)
    (parameters : List Parameter) (statements : List Stmt) : Member :=
  .declare { modifiers } (.method result name [] parameters (.block statements))

def classOf (modifiers : List Modifier) (name : String) (members : List Member) : Member :=
  .declare { modifiers } (.type .classType name [] [] members)

/-- The member with one more group of attributes behind those it has. -/
def withAttributes (group : AttributeGroup) : Member → Member
  | declare header declaration =>
    declare { header with attributes := header.attributes ++ [group] } declaration

end Member

namespace AttributeGroup

/-- A single attribute with arguments. -/
def applied (name : String) (arguments : List Argument) : AttributeGroup :=
  single ⟨name, some arguments⟩

/-- Says of the field of a property that it may be null. -/
def fieldMaybeNull : AttributeGroup :=
  ⟨some "field", [⟨Names.maybeNull, none⟩]⟩

end AttributeGroup

namespace Expr

def requiredService (provider : Expr) (type : TypeExpr) : Expr :=
  .invoke (.genericMember provider "GetRequiredService" [type]) []

def requiredKeyedService (provider : Expr) (type : TypeExpr) (key : Expr) : Expr :=
  (genericMember provider "GetRequiredKeyedService" [type]).call [key]

def throwIfNull (argument : Expr) : Expr :=
  (member (.qualified (Names.global "System.ArgumentNullException")) "ThrowIfNull").call [argument]

def throwNotSupported : Expr :=
  .throw (.newObject (.parse (Names.global "System.NotSupportedException")) [])

end Expr

def Accessor.getting (value : Expr) : Accessor :=
  { keyword := .get, body := .expression value }

def Accessor.setting (value : Expr) : Accessor :=
  { keyword := .set, body := .expression value }

/-- A getter and a setter without bodies. -/
def Accessor.automatic : List Accessor :=
  [{ keyword := .get }, { keyword := .set }]

/-- Whether a node declares a type with base types. -/
def Site.hasBaseList (site : Site) : Bool :=
  site.kind.isTypeDeclaration &&
    site.children.any fun child => child.isNode && child.kind == .baseList

end SourceGen
