import SourceGen.Proofs.Analysis.Findings
import SourceGen.Proofs.Compilation.Written

/-! What is found in a file that declares some types: those that can be used outside of their program,
and the methods that return tasks. The rules look at modifiers, names and result types in the tree;
what they find agrees with the symbols that the tree is written for. -/

namespace SourceGen

namespace Tree

end Tree

namespace Site

variable {site : Site} {front back : List Tree}

end Site

/-- A declaration of a symbol, and the first byte of the part of it that findings point to. -/
structure Marked (α : Type) where
  site : Site
  symbol : α
  start : Nat

namespace Marked

end Marked

section Declarations

variable {compilation : Compilation} {number : Nat} {path : String} {site : Site} {member : Member}

end Declarations

section Nestings

end Nestings

section Findings

variable {compilation : Compilation} {number : Nat} {root : Tree} {types : List TypeSymbol}
  {entries : List Entry}

/-- The declarations of symbols of one sort, with what findings point to in them. -/
private def marked {α : Type} (select : Symbol → Option α) (start : Site → Nat)
    (entries : List Entry) : List (Marked α) :=
  entries.filterMap fun entry => (select entry.2).map fun symbol => ⟨entry.1, symbol, start entry.1⟩

end Findings

namespace Compilation

end Compilation

end SourceGen
