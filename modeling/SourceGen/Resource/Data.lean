import SourceGen.Xml.Event
/-! The data elements of a resource file. -/

namespace SourceGen

structure ResourceData where
  name : String
  typeName : Option String := none
  comment : Option String := none
  value : Option String := none
  deriving DecidableEq, Repr

namespace ResourceData

/-- A data element whose name may be missing. -/
structure Draft where
  name : Option String := none
  typeName : Option String := none
  comment : Option String := none
  value : Option String := none
  deriving DecidableEq, Repr

/-- A child of a data element that holds text. -/
inductive Part where
  | value
  | comment
  deriving DecidableEq, Repr

namespace Draft

/-- The element with the attributes of its tag. -/
def ofAttributes (attributes : List Char) : Option Draft :=
  (Xml.attributes attributes).bind fun found =>
    found.foldlM (fun draft (key, raw) =>
      if key = "name" then
        (Xml.unescape raw).map fun text => { draft with name := some (String.ofList text) }
      else if key = "type" then
        (Xml.unescape raw).map fun text => { draft with typeName := some (String.ofList text) }
      else some draft) {}

/-- The element with the text of a child, unless there was such a child before. -/
def record (draft : Draft) (part : Part) (text : String) : Draft :=
  match part with
  | .value => { draft with value := draft.value.or (some text) }
  | .comment => { draft with comment := draft.comment.or (some text) }

/-- The finished element; without a name there is none. -/
def finish (draft : Draft) : List ResourceData :=
  match draft.name with
  | some name => [⟨name, draft.typeName, draft.comment, draft.value⟩]
  | none => []

end Draft

/-- What is known after some pieces of a document: the names of the open elements, the innermost
first, whether the document has an element yet, the open data element, the child of it whose text is
read, and the finished data elements. -/
structure Progress where
  path : List String := []
  hasRoot : Bool := false
  current : Option Draft := none
  reading : Option (Part × List Char) := none
  found : List ResourceData := []
  deriving DecidableEq, Repr

def isData (path : List String) : Bool :=
  path == ["data", "root"]

/-- The child of a data element that a path is that of. -/
def part? (path : List String) : Option Part :=
  if path == ["value", "data", "root"] then some .value
  else if path == ["comment", "data", "root"] then some .comment
  else none

namespace Progress

/-- Opens an element. A document has only one outermost element. -/
def enter (progress : Progress) (name : String) : Option Progress :=
  if progress.path.isEmpty && progress.hasRoot then none
  else some { progress with path := name :: progress.path, hasRoot := true }

def leave (progress : Progress) : Progress :=
  { progress with path := progress.path.tail }

/-- Starts to read the element that was opened. -/
def start (progress : Progress) (attributes : List Char) : Option Progress :=
  if isData progress.path then
    (Draft.ofAttributes attributes).map fun draft => { progress with current := some draft }
  else
    match part? progress.path, progress.current with
    | some part, some _ =>
      some { progress with reading := progress.reading.or (some (part, [])) }
    | _, _ => some progress

/-- Reads the element that was opened if it is empty. -/
def startEmpty (progress : Progress) (attributes : List Char) : Option Progress :=
  if isData progress.path then
    (Draft.ofAttributes attributes).map fun draft =>
      { progress with found := progress.found ++ draft.finish }
  else
    match part? progress.path, progress.current with
    | some part, some draft => some { progress with current := some (draft.record part "") }
    | _, _ => some progress

/-- Finishes the text of a child of a data element. -/
def finishPart (progress : Progress) : Progress :=
  match progress.reading with
  | some (part, text) =>
    if progress.path.length = 3 then
      { progress with
        reading := none
        current := progress.current.map (·.record part (String.ofList text)) }
    else progress
  | none => progress

def finishData (progress : Progress) : Progress :=
  if isData progress.path then
    { progress with
      current := none
      found := progress.found ++ ((progress.current.map Draft.finish).getD []) }
  else progress

/-- Adds to the text of a child of a data element. -/
def append (progress : Progress) (text : List Char) : Progress :=
  { progress with reading := progress.reading.map fun (part, seen) => (part, seen ++ text) }

/-- Takes in a piece of the document; none if it cannot stand there. -/
def step (progress : Progress) : Xml.Event → Option Progress
  | .opening name attributes => (progress.enter name).bind (·.start attributes)
  | .empty name attributes =>
    ((progress.enter name).bind (·.startEmpty attributes)).map leave
  | .closing name =>
    if progress.path.head? = some name then some progress.finishPart.finishData.leave else none
  | .text raw =>
    (Xml.unescape raw).bind fun text =>
      if progress.reading.isNone && progress.path.isEmpty && !text.all Text.isBlank then none
      else some (progress.append text)
  | .characters content => some (progress.append content)
  | .ignored => some progress

end Progress

/-- The data elements of a document, given its pieces; none if it is malformed. -/
def ofEvents (events : List Xml.Event) : Option (List ResourceData) :=
  (events.foldlM Progress.step {}).bind fun progress =>
    if progress.path.isEmpty && progress.hasRoot then some progress.found else none

/-- The data elements of a document; none if it is malformed. -/
def read (document : String) : Option (List ResourceData) :=
  (Xml.events document).bind ofEvents

end ResourceData

end SourceGen
