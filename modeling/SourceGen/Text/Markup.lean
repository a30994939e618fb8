/-! Text inside XML documentation. -/

namespace SourceGen.Text

/-- A character as it is written in the text of an element; quotes need no escape there. -/
def markupChar (c : Char) : List Char :=
  match c with
  | '&' => "&amp;".toList
  | '<' => "&lt;".toList
  | '>' => "&gt;".toList
  | c => [c]

/-- A text as it is written inside an element. -/
def markup (text : String) : String :=
  String.ofList (text.toList.flatMap markupChar)

/-- A text with its ampersands as they are written inside an element. -/
def ampersands (text : String) : String :=
  String.ofList (text.toList.flatMap fun c => if c = '&' then "&amp;".toList else [c])

end SourceGen.Text
