import SourceGen.Compilation.Declaration
import SourceGen.Proofs.Syntax.Lexeme
import SourceGen.Proofs.Syntax.Members
import SourceGen.Snapshot.Type
import Mathlib.Data.List.Induction

/-! The file that adds members to a type. It declares a further part of every type of the chain
around that type, the outermost first, each inside of the part before it. Only the innermost part has
the members and base types, and only the outermost one has lines in front. -/

namespace SourceGen

namespace Tree

/-- The texts of the directives in a tree. -/
def directives (tree : Tree) : List String :=
  (tree.leaves.filter (·.kind == .directive)).map (·.text)

end Tree

namespace TypeSymbol

/-- The type and the types around it, the outermost first. -/
def nesting (type : TypeSymbol) : List TypeSymbol :=
  (type :: type.enclosing).reverse

end TypeSymbol

section Directives

namespace Tree

@[simp] theorem directives_leaf (token : Token) :
    (leaf token).directives = if token.kind = .directive then [token.text] else [] := by
  by_cases h : token.kind = .directive <;> simp [directives, leaves, h]

@[simp] theorem directives_keyword (word : String) : (keyword word).directives = [] := by
  simp [keyword, Token.keyword]

@[simp] theorem directives_ident (text : String) : (ident text).directives = [] := by
  simp [ident, Token.ident]

end Tree

namespace Token

end Token

end Directives

namespace TypeSymbol

variable {type : TypeSymbol} (lines : Trivia) (bases : List TypeExpr) (members : List Member)

end TypeSymbol

end SourceGen
