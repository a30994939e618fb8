import SourceGen.Generator.Basic
import SourceGen.Generator.Phrase
import SourceGen.Snapshot.Type
/-! The method by which a page unloads an object. -/

namespace SourceGen

/-- A page. -/
structure UnloadOverrideContext where
  hierarchy : Hierarchy
  deriving DecidableEq

namespace UnloadOverrideContext

/-- The page that a node declares: its base type is the one of all pages. -/
def ofCandidate (candidate : SyntaxCandidate) : Option UnloadOverrideContext :=
  (candidate.symbol.bind Symbol.type?).bind fun type =>
    if type.base.any (·.fullMetadataName == Names.scopedPage) then some ⟨.ofSymbol type⟩
    else none

def toUnit (context : UnloadOverrideContext) : CompilationUnit :=
  context.hierarchy.toUnit
    [.method [.publicAccess, .override] .void "UnloadObjectOverride"
      [.simple (.parse Names.dependencyObject) "unloadableObject"]
      [.expression ((Expr.ident "UnloadObject").call [.ident "unloadableObject"])]]
    []

end UnloadOverrideContext

/-- The generator of unloading; a page declared in several files is one unit of work. -/
def unloadOverrideStage : CompilationStage UnloadOverrideContext where
  kind := .unloadOverride
  polls _ := true
  units context := [(context.hierarchy.hint ".UnloadObjectOverride.g.cs", context.toUnit)]
  contexts compilation :=
    distinct
      ((compilation.withShape Site.hasBaseList).filterMap UnloadOverrideContext.ofCandidate)

end SourceGen
