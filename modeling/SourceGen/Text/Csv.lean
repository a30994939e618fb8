/-! Fields of a line, between commas that stand outside of quotes. -/

namespace SourceGen.Text

/-- Puts a character in front of the first field. -/
def consField (c : Char) : List (List Char) → List (List Char)
  | [] => [[c]]
  | field :: fields => (c :: field) :: fields

/-- The fields of the rest of a line. Inside quotes, two quotes stand for one. -/
def fieldsFrom : Bool → List Char → List (List Char)
  | _, [] => [[]]
  | true, '"' :: '"' :: rest => consField '"' (fieldsFrom true rest)
  | quoted, '"' :: rest => fieldsFrom (!quoted) rest
  | false, ',' :: rest => [] :: fieldsFrom false rest
  | quoted, c :: rest => consField c (fieldsFrom quoted rest)

def csvFields (line : String) : List String :=
  (fieldsFrom false line.toList).map String.ofList

end SourceGen.Text
