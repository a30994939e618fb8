import SourceGen.Compilation.Declaration
import SourceGen.Text.Quoted
/-! A program: its source files, and what the nodes of their trees are bound to. -/

namespace SourceGen

structure SourceFile where
  path : String
  root : Tree

/-- Whether a file is the output of a generator, going by its name. -/
def SourceFile.isGenerated (file : SourceFile) : Bool :=
  Text.endsWith file.path.toList ".g.cs".toList

/-- Values of nodes by file and span, the newest first. Nodes that have the same kind and the same
bytes share their value. -/
abbrev NodeMap (α : Type) := List ((Nat × Span) × α)

namespace NodeMap

variable {α : Type}

/-- The newest value of a node. -/
def find? (map : NodeMap α) (file : Nat) (span : Span) : Option α :=
  (List.find? (fun entry => decide (entry.1 = (file, span))) map).map (·.2)

end NodeMap

structure Compilation where
  assemblyName : String
  files : List SourceFile := []
  bindings : NodeMap Symbol := []
  expressionTypes : NodeMap TypeSymbol := []
  types : List (String × TypeSymbol) := []

structure CompilationInput where
  assemblyName : String
  declarations : List (String × List TypeSymbol) := []
  sources : List (String × Tree) := []
  references : List TypeSymbol := []
  expressionTypes : List (Nat × TypeSymbol) := []

/-- Whether a type is known by a metadata name of its own. -/
def TypeSymbol.isRegistered (type : TypeSymbol) : Bool :=
  match type.info.kind with
  | .parameter | .array | .pointer => false
  | _ => type.info.special.isNone

mutual

/-- Adds a type to the known types, and after it the types that it builds on, its containing type
and those of its attributes, unless its metadata name is known. -/
def TypeSymbol.register (known : List (String × TypeSymbol)) :
    TypeSymbol → List (String × TypeSymbol)
  | ⟨info, containing, arguments, base, interfaces, attributes, members, element⟩ =>
    let type : TypeSymbol :=
      ⟨info, containing, arguments, base, interfaces, attributes, members, element⟩
    if !type.isRegistered || known.any (·.1 == type.fullMetadataName) then known
    else
      let start := known ++ [(type.fullMetadataName, type)]
      let withBase := registerOptional start base
      let withInterfaces := registerAll withBase interfaces
      registerClasses (registerOptional withInterfaces containing) attributes

def registerOptional (known : List (String × TypeSymbol)) :
    Option TypeSymbol → List (String × TypeSymbol)
  | none => known
  | some type => type.register known

/-- Adds several types in order. -/
def registerAll (known : List (String × TypeSymbol)) :
    List TypeSymbol → List (String × TypeSymbol)
  | [] => known
  | type :: types => registerAll (type.register known) types

/-- Adds the types of several attributes in order. -/
def registerClasses (known : List (String × TypeSymbol)) :
    List AttributeData → List (String × TypeSymbol)
  | [] => known
  | ⟨type, _, _⟩ :: attributes => registerClasses (type.register known) attributes

end

namespace Compilation

def bindDeclared (file : Nat) (sites : List Site) (declared : Declared) : NodeMap Symbol :=
  (sites.filterMap fun site =>
    match site.anchor with
    | some (.declaration place) =>
      (declared.lookup place).map fun symbol => ((file, site.span), symbol)
    | _ => none).reverse

/-- The types of the expressions of a file. -/
def bindTyped (file : Nat) (sites : List Site) (types : List (Nat × TypeSymbol)) :
    NodeMap TypeSymbol :=
  (sites.filterMap fun site =>
    match site.anchor with
    | some (.expression number) =>
      (types.lookup number).map fun type => ((file, site.span), type)
    | _ => none).reverse

/-- The program with one more file, whose declarations have the given symbols. -/
def addFile (types : List (Nat × TypeSymbol)) (compilation : Compilation)
    (file : SourceFile × Declared) : Compilation :=
  let number := compilation.files.length
  let sites := file.1.root.descendants
  { compilation with
    files := compilation.files ++ [file.1]
    bindings := bindDeclared number sites file.2 ++ compilation.bindings
    expressionTypes := bindTyped number sites types ++ compilation.expressionTypes }

/-- Builds a program: the files that declare types, then those given as trees. -/
def ofInput (input : CompilationInput) : Compilation :=
  let declaring := input.declarations.map fun (path, types) =>
    let (unit, declared) := declareFile types
    (SourceFile.mk path unit.toTree, declared)
  let plain := input.sources.map fun (path, root) => (SourceFile.mk path root, [])
  let known := registerAll [] (input.declarations.flatMap (·.2) ++ input.references)
  (declaring ++ plain).foldl (addFile input.expressionTypes)
    { assemblyName := input.assemblyName, types := known }

def symbolAt? (compilation : Compilation) (file : Nat) (span : Span) : Option Symbol :=
  compilation.bindings.find? file span

def typeNamed? (compilation : Compilation) (name : String) : Option TypeSymbol :=
  compilation.types.lookup name

/-- The type that a text without a question mark at its end stands for. -/
def resolveBare? (compilation : Compilation) (text : String) : Option TypeSymbol :=
  match SpecialType.ofKeyword? text with
  | some special => some (.special special)
  | none =>
    let name := if text.startsWith "global::" then text else "global::" ++ text
    (compilation.types.find? fun entry => entry.2.fullName == name).map (·.2)

/-- The type that a text stands for; with a question mark at its end it is annotated. -/
def resolve? (compilation : Compilation) (text : String) : Option TypeSymbol :=
  match text.toList.reverse with
  | '?' :: rest =>
    (compilation.resolveBare? (String.ofList rest.reverse)).map TypeSymbol.annotated
  | _ => compilation.resolveBare? text

/-- The type of a node: what a written type stands for, or what an expression is known to be. -/
def typeAt? (compilation : Compilation) (file : Nat) (span : Span) (tree : Tree) :
    Option TypeSymbol :=
  if span.kind = .type then compilation.resolve? tree.inline
  else compilation.expressionTypes.find? file span

/-- The innermost type whose declaration is around a node. -/
def containingType? (compilation : Compilation) (file : Nat) (site : Site) : Option TypeSymbol :=
  site.enclosing.findSome? fun span =>
    if span.kind.isTypeDeclaration then (compilation.symbolAt? file span).bind Symbol.type?
    else none

/-- The nodes of all files with the numbers of their files, in order. -/
def sites (compilation : Compilation) : List (Nat × Site) :=
  compilation.files.zipIdx.flatMap fun (file, number) =>
    file.root.descendants.map fun site => (number, site)

end Compilation

/-- A declaration that carries a certain attribute. -/
structure AttributeCandidate where
  file : Nat
  span : Span
  symbol : Symbol
  attributes : List AttributeData
  containing : Option TypeSymbol

/-- A node of a certain form. -/
structure SyntaxCandidate where
  file : Nat
  span : Span
  symbol : Option Symbol

namespace Compilation

/-- The declarations of the kinds asked for whose symbols carry an attribute with the given metadata
name, with the attributes of that name. -/
def withAttribute (compilation : Compilation) (name : String) (accepts : Kind → Bool) :
    List AttributeCandidate :=
  compilation.sites.filterMap fun (file, site) =>
    if !site.kind.isMemberDeclaration || !accepts site.kind then none
    else
      (compilation.symbolAt? file site.span).bind fun symbol =>
        let attributes := symbol.attributes.filter (·.type.fullMetadataName == name)
        if attributes.isEmpty then none
        else some ⟨file, site.span, symbol, attributes, compilation.containingType? file site⟩

def withShape (compilation : Compilation) (accepts : Site → Bool) : List SyntaxCandidate :=
  compilation.sites.filterMap fun (file, site) =>
    if accepts site then some ⟨file, site.span, compilation.symbolAt? file site.span⟩ else none

/-- Whether a search notices that it was cancelled; it looks in front of each file. -/
def noticesCancel (compilation : Compilation) (cancelled : Bool) : Bool :=
  cancelled && !compilation.files.isEmpty

/-- The line that shows a program: its name, its files, and how many types it knows. -/
def summary (compilation : Compilation) : String :=
  "Compilation \x7b assembly_name: " ++ Text.quoted compilation.assemblyName ++ ", trees: " ++
    Text.quotedList (compilation.files.map (·.path)) ++ ", types: " ++
    toString compilation.types.length ++ " \x7d"

end Compilation

end SourceGen
