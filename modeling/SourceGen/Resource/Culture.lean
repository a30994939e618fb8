import SourceGen.Project.Config
/-! The cultures that resource files are for, going by their names. -/

namespace SourceGen

/-- A name of a culture, or the name of none. -/
abbrev Locale := String

namespace Culture

/-- The locale of a file that is for no culture in particular. -/
def neutral : Locale := "Neutral"

/-- Whether a character is an ASCII letter or digit. -/
def isAlphanumeric (c : Char) : Bool :=
  c.isAlpha || c.isDigit

def isLanguage (chars : List Char) : Bool :=
  2 ≤ chars.length && chars.length ≤ 3 && chars.all Char.isAlpha

/-- Whether the characters narrow a language down. -/
def isSubtag (chars : List Char) : Bool :=
  2 ≤ chars.length && chars.length ≤ 8 && chars.all isAlphanumeric

/-- Whether the characters name a culture: a language and what narrows it down. -/
def isName (chars : List Char) : Bool :=
  match Text.splitChars '-' chars with
  | language :: subtags => isLanguage language && subtags.all isSubtag
  | [] => false

/-- A file name without its extension. A dot at its start does not begin an extension. -/
def stem (name : List Char) : List Char :=
  match splitLastDot? name with
  | some (before, _) => if before.isEmpty then name else before
  | none => name

/-- A file name without extension and culture, and the culture if there is one. -/
def splitStem (stem : List Char) : List Char × Locale :=
  match splitLastDot? stem with
  | some (before, after) =>
    if isName after then (before, String.ofList after) else (stem, neutral)
  | none => (stem, neutral)

/-- A path without extension and culture, and the culture. -/
def split (path : String) : String × Locale :=
  let (base, locale) := splitStem (stem (lastPathPart path.toList))
  (String.ofList (directoryPart path.toList ++ base), locale)

/-- Whether a locale comes no later than another: the neutral one first, then by their texts. -/
def precedes (a b : Locale) : Bool :=
  a == neutral || (b != neutral && decide (a ≤ b))

end Culture

end SourceGen
