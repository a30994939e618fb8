import SourceGen.Compilation.Basic
import SourceGen.Diagnostic
import SourceGen.Failure
import SourceGen.Generator.Names
import SourceGen.Project.Config
/-! The rules that source files are checked against. -/

namespace SourceGen

namespace Span

/-- Where a node is in the file at a path. -/
def location (span : Span) (path : String) : Location :=
  ⟨path, span.start, span.stop⟩

end Span

namespace Analysis

/-- Whether a word keeps a type from being used outside its program. -/
def restricts (word : String) : Bool :=
  word == "internal" || word == "private" || word == "file"

/-- Whether one of the modifiers of a declaration restricts it. -/
def isRestricted (site : Site) : Bool :=
  match site.children.find? fun child => child.isNode && child.kind == .modifiers with
  | some modifiers => modifiers.children.any fun
    | .leaf token => restricts token.text
    | .node _ _ _ => false
  | none => false

/-- Types are internal or private. Records are not checked. -/
def checkAccessibility (path : String) (site : Site) : Option Diagnostic :=
  if isRestricted site then none
  else
    (site.childTokens.find? (·.2.kind == .identifier)).map fun (start, token) =>
      Rule.restrictedType.report
        (some ⟨path, start, start + token.text.utf8ByteSize⟩) [token.text]

/-- Methods that return tasks return value tasks, unless they override others or become
commands. -/
def checkTask (compilation : Compilation) (file : Nat) (path : String) (site : Site) :
    Option Diagnostic :=
  match compilation.symbolAt? file site.span with
  | some (.method method) =>
    let isCommand := method.attributes.any (·.type.fullMetadataName == Names.commandAttribute)
    if method.isOverride || isCommand || !method.returnType.isOrInherits Names.task then none
    else
      (site.childNodes.find? (·.1.kind == .type)).map fun (span, _) =>
        Rule.valueTask.report (some (span.location path)) []
  | _ => none

/-- Whether an expression is the value that its type starts with. -/
def isDefault (operand : Tree) : Bool :=
  operand.kind == .defaultOf ||
    (operand.kind == .literal && operand.leaves.head?.any (·.text == "default"))

/-- Nothing but the value that its type starts with is asserted not to be null. -/
def checkNullForgiving (path : String) (site : Site) : Option Diagnostic :=
  if site.toTree.leaves.getLast?.any (·.kind == .bang) then
    match site.childNodes with
    | (_, operand) :: _ =>
      if isDefault operand then none
      else some (Rule.nullForgiving.report (some (site.span.location path)) [])
    | [] => none
  else none

/-- Nothing is cast from or to a reference. -/
def checkCast (compilation : Compilation) (file : Nat) (path : String) (site : Site) :
    Option Diagnostic :=
  match site.childNodes with
  | (targetSpan, target) :: (operandSpan, operand) :: _ =>
    if operand.kind == .collectionExpression then none
    else
      let isValue (span : Span) (tree : Tree) : Bool :=
        (compilation.typeAt? file span tree).all (·.isValueType)
      if isValue targetSpan target && isValue operandSpan operand then none
      else some (Rule.slowCast.report (some (site.span.location path)) [])
  | _ => none

def checkSite (compilation : Compilation) (file : Nat) (path : String) (site : Site) :
    Option Diagnostic :=
  match site.kind with
  | .classDeclaration | .structDeclaration | .interfaceDeclaration | .enumDeclaration =>
    checkAccessibility path site
  | .methodDeclaration => checkTask compilation file path site
  | .postfixUnary => checkNullForgiving path site
  | .cast => checkCast compilation file path site
  | _ => none

def pathOf (diagnostic : Diagnostic) : String :=
  (diagnostic.location.map (·.path)).getD ""

def startOf (diagnostic : Diagnostic) : Nat :=
  (diagnostic.location.map (·.start)).getD 0

/-- Whether a finding comes no later than another: by path, position and rule. -/
def precedes (a b : Diagnostic) : Bool :=
  if pathOf a = pathOf b then
    if startOf a = startOf b then decide (a.id ≤ b.id) else decide (startOf a < startOf b)
  else decide (pathOf a < pathOf b)

end Analysis

namespace Compilation

/-- The files to check, with their numbers. Generated files are checked only if asked for. -/
def analyzedFiles (compilation : Compilation) (options : GeneratorOptions) :
    List (SourceFile × Nat) :=
  compilation.files.zipIdx.filter fun (file, _) =>
    options.analyzeGenerated || !file.isGenerated

def findings (compilation : Compilation) (options : GeneratorOptions) : List Diagnostic :=
  let found := (compilation.analyzedFiles options).flatMap fun (file, number) =>
    file.root.descendants.filterMap (Analysis.checkSite compilation number file.path)
  found.mergeSort Analysis.precedes

/-- Checks a program; it looks in front of each file whether it was cancelled. -/
def analyze (compilation : Compilation) (options : GeneratorOptions) (cancelled : Bool) :
    Except Failure (List Diagnostic) :=
  if cancelled && !(compilation.analyzedFiles options).isEmpty then .error .cancelled
  else .ok (compilation.findings options)

end Compilation

end SourceGen
