import SourceGen.Syntax.Layout
import SourceGen.Text.Trim
/-! Lines written before a declaration: documentation, comments and directives. -/

namespace SourceGen

/-- Lines before a declaration, one token per line. -/
structure Trivia where
  lines : List Token := []
  deriving DecidableEq, Repr

namespace Trivia

def push (trivia : Trivia) (kind : Kind) (text : String) : Trivia :=
  ⟨trivia.lines ++ [⟨kind, text⟩]⟩

/-- A directive on a line of its own. -/
def directive (trivia : Trivia) (text : String) : Trivia :=
  trivia.push .directive text

def comment (trivia : Trivia) (text : String) : Trivia :=
  trivia.push .lineComment ("// " ++ text)

/-- One line of documentation, without the carriage returns at its end. -/
def docLine (line : List Char) : Token :=
  ⟨.docComment, "/// " ++ String.ofList (Text.dropWhileEnd (· = '\r') line)⟩

/-- Documentation, one line for each line of the text. -/
def doc (trivia : Trivia) (text : String) : Trivia :=
  ⟨trivia.lines ++ (Text.splitChars '\n' text.toList).map docLine⟩

def summary (trivia : Trivia) (lines : List String) : Trivia :=
  (lines.foldl doc (trivia.doc "<summary>")).doc "</summary>"

def append (trivia other : Trivia) : Trivia :=
  ⟨trivia.lines ++ other.lines⟩

instance : Append Trivia := ⟨append⟩

/-- The directive that turns nullable annotations on. -/
def nullableEnable : Trivia :=
  directive {} "#nullable enable"

def isEmpty (trivia : Trivia) : Bool :=
  trivia.lines.isEmpty

def toTree (trivia : Trivia) : Tree :=
  .plain .leadingTrivia (trivia.lines.map .leaf)

def trees (trivia : Trivia) : List Tree :=
  if trivia.isEmpty then [] else [trivia.toTree]

end Trivia

end SourceGen
