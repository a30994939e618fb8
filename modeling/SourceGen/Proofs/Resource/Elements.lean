import SourceGen.Resource.Data
import Mathlib.Data.List.Forall2

/-! The data elements of a resource file, read off the tree of its document. Reading the pieces of
the document one after the other, with the names of the open elements and the text of one child at
hand, finds the same elements. -/

namespace SourceGen

namespace Xml

/-- A part of the tree of a document. Attributes and texts are what is meant, without references.
Instructions and declarations count as comments. -/
inductive Node where
  | element (name : String) (attributes : List (String × String)) (children : List Node)
  | empty (name : String) (attributes : List (String × String))
  | text (content : List Char)
  | characters (content : List Char)
  | comment

namespace Node

/-- The name of an element. -/
def name? : Node → Option String
  | element name _ _ | empty name _ => some name
  | _ => none

def attributes : Node → List (String × String)
  | element _ attributes _ | empty _ attributes => attributes
  | _ => []

def children : Node → List Node
  | element _ _ children => children
  | _ => []

mutual

/-- All text in a part of a document, however deep. -/
def content : Node → List Char
  | element _ _ children => contentOf children
  | text content | characters content => content
  | empty _ _ | comment => []

/-- All text in several parts of a document. -/
def contentOf : List Node → List Char
  | [] => []
  | node :: nodes => node.content ++ contentOf nodes

end

end Node

/-- Whether the rest of a tag writes these attributes. No two of them have the same name. -/
def WritesAttributes (raw : List Char) (attributes : List (String × String)) : Prop :=
  ∃ found, Xml.attributes raw = some found ∧
    List.Forall₂ (fun item meant =>
      item.1 = meant.1 ∧ unescape item.2 = some meant.2.toList) found attributes

/-- Whether the pieces of a document are those of parts of its tree, in some way to write these. -/
inductive Written : List Node → List Event → Prop
  | nil : Written [] []
  | element {name : String} {raw : List Char} {attributes : List (String × String)}
      {children nodes : List Node} {inside events : List Event}
      (tag : WritesAttributes raw attributes) (within : Written children inside)
      (rest : Written nodes events) :
    Written (.element name attributes children :: nodes)
      (.opening name raw :: (inside ++ .closing name :: events))
  | empty {name : String} {raw : List Char} {attributes : List (String × String)}
      {nodes : List Node} {events : List Event} (tag : WritesAttributes raw attributes)
      (rest : Written nodes events) :
    Written (.empty name attributes :: nodes) (.empty name raw :: events)
  | text {raw content : List Char} {nodes : List Node} {events : List Event}
      (meant : unescape raw = some content) (rest : Written nodes events) :
    Written (.text content :: nodes) (.text raw :: events)
  | characters {content : List Char} {nodes : List Node} {events : List Event}
      (rest : Written nodes events) :
    Written (.characters content :: nodes) (.characters content :: events)
  | comment {nodes : List Node} {events : List Event} (rest : Written nodes events) :
    Written (.comment :: nodes) (.ignored :: events)

/-- Whether pieces may stand in front of or behind the outermost element: comments and blanks. -/
def Surrounding (events : List Event) : Prop :=
  ∀ event ∈ events, event = .ignored ∨
    ∃ raw content, event = .text raw ∧ unescape raw = some content ∧ content.all Text.isBlank

end Xml

namespace ResourceData

open Xml (Node Event Written WritesAttributes Surrounding)

/-- All text in the first child with a name; none if there is no such child. -/
def firstText? (name : String) (children : List Node) : Option String :=
  (children.find? (·.name? == some name)).map fun child => String.ofList child.content

/-- The data that an element holds; without a name there is none. -/
def ofNode? (node : Node) : Option ResourceData :=
  (node.attributes.lookup "name").map fun name =>
    { name
      typeName := node.attributes.lookup "type"
      comment := firstText? "comment" node.children
      value := firstText? "value" node.children }

/-- What the data elements among several parts of a document hold, in their order. -/
def ofNodes (nodes : List Node) : List ResourceData :=
  (nodes.filter (·.name? == some "data")).filterMap ofNode?

/-- What the data elements of a document hold, given its outermost element. -/
def ofDocument (document : Node) : List ResourceData :=
  if document.name? = some "root" then ofNodes document.children else []

section Drafts

private theorem lookup_eq_none {attributes : List (String × String)} {key : String}
    (h : key ∉ attributes.map (·.1)) : attributes.lookup key = none := by
  rw [List.lookup_eq_none_iff]
  rintro ⟨name, value⟩ hm
  have hne : key ≠ name := fun he => h (he ▸ List.mem_map_of_mem hm)
  simpa using hne

/-- Attributes with different names fill in what they are the first to name. -/
private theorem foldlM_attributes {found : List (String × List Char)}
    {attributes : List (String × String)}
    (h : List.Forall₂ (fun item meant =>
      item.1 = meant.1 ∧ Xml.unescape item.2 = some meant.2.toList) found attributes)
    (hnodup : (attributes.map (·.1)).Nodup) (draft : Draft) :
    found.foldlM (fun draft (key, raw) =>
        if key = "name" then
          (Xml.unescape raw).map fun text => { draft with name := some (String.ofList text) }
        else if key = "type" then
          (Xml.unescape raw).map fun text => { draft with typeName := some (String.ofList text) }
        else some draft) draft =
      some { draft with
        name := (attributes.lookup "name").or draft.name
        typeName := (attributes.lookup "type").or draft.typeName } := by
  induction h generalizing draft with
  | nil => simp
  | @cons item meant found attributes hitem _ ih =>
    obtain ⟨key, raw⟩ := item
    obtain ⟨name, value⟩ := meant
    obtain ⟨rfl, hraw⟩ : key = name ∧ Xml.unescape raw = some value.toList := hitem
    obtain ⟨hkey, hrest⟩ : key ∉ attributes.map (·.1) ∧ (attributes.map (·.1)).Nodup := by
      simpa using hnodup
    rw [List.foldlM_cons]
    by_cases hname : key = "name"
    · subst hname
      simp [hraw, ih hrest, lookup_eq_none hkey, List.lookup_cons]
    · by_cases htype : key = "type"
      · subst htype
        simp [hraw, ih hrest, lookup_eq_none hkey, List.lookup_cons]
      · simp [hname, htype, ih hrest, List.lookup_cons, beq_false_of_ne (Ne.symm hname),
          beq_false_of_ne (Ne.symm htype)]

private theorem ofAttributes_eq {raw : List Char} {attributes : List (String × String)}
    (h : WritesAttributes raw attributes) :
    Draft.ofAttributes raw =
      some { name := attributes.lookup "name", typeName := attributes.lookup "type" } := by
  obtain ⟨found, hfound, hall⟩ := h
  have hkeys : found.map (·.1) = attributes.map (·.1) :=
    List.forall₂_eq_eq_eq ▸ (List.forall₂_map_left_iff.mpr
      (List.forall₂_map_right_iff.mpr (hall.imp fun _ _ h => h.1)))
  have hnodup : (found.map (·.1)).Nodup := by
    simpa using (Option.filter_eq_some_iff.mp hfound).2
  simp [Draft.ofAttributes, hfound, foldlM_attributes hall (hkeys ▸ hnodup)]

/-- The part of a data element that a child of it is. -/
private def childPart? (child : Node) : Option Part :=
  child.name?.bind fun name => part? [name, "data", "root"]

/-- The draft of a data element behind a child of the element. -/
private def Draft.behind (draft : Draft) (child : Node) : Draft :=
  match childPart? child with
  | some part => draft.record part (String.ofList child.content)
  | none => draft

private theorem foldl_behind (children : List Node) (draft : Draft) :
    children.foldl Draft.behind draft =
      { draft with
        comment := draft.comment.or (firstText? "comment" children)
        value := draft.value.or (firstText? "value" children) } := by
  induction children generalizing draft with
  | nil => simp [firstText?]
  | cons child children ih =>
    rw [List.foldl_cons, ih]
    by_cases hvalue : child.name? = some "value"
    · simp [Draft.behind, childPart?, hvalue, part?, Draft.record, firstText?]
    · by_cases hcomment : child.name? = some "comment"
      · simp [Draft.behind, childPart?, hcomment, part?, Draft.record, firstText?]
      · have hpart : childPart? child = none := by
          cases hname : child.name? with
          | none => simp [childPart?, hname]
          | some name => simp_all [childPart?, part?]
        simp [Draft.behind, hpart, hvalue, hcomment, firstText?]

end Drafts

section Reading

/-- The progress behind some pieces; none if one of them cannot stand there. -/
private def Progress.run (progress : Progress) (events : List Event) : Option Progress :=
  events.foldlM Progress.step progress

private theorem run_cons (progress : Progress) (event : Event) (events : List Event) :
    progress.run (event :: events) = (progress.step event).bind (·.run events) := rfl

private theorem run_append (progress : Progress) (events others : List Event) :
    progress.run (events ++ others) = (progress.run events).bind (·.run others) := by
  simp [Progress.run]

private theorem append_append (progress : Progress) (text other : List Char) :
    (progress.append text).append other = progress.append (text ++ other) := by
  cases h : progress.reading <;> simp [Progress.append, h]

private theorem append_of_idle {progress : Progress} (h : progress.reading = none)
    (text : List Char) : progress.append text = progress := by
  cases progress
  simp_all [Progress.append]

/-- The progress right behind the opening tag of an element. -/
private def Progress.inside (progress : Progress) (name : String) : Progress :=
  { progress with path := name :: progress.path }

private theorem enter_eq {progress : Progress} (hroot : progress.hasRoot = true)
    (hpath : progress.path ≠ []) (name : String) :
    progress.enter name = some (progress.inside name) := by
  cases progress
  simp_all [Progress.enter, Progress.inside]

private theorem step_text {progress : Progress} (hpath : progress.path ≠ []) {raw text : List Char}
    (h : Xml.unescape raw = some text) :
    progress.step (.text raw) = some (progress.append text) := by
  simp [Progress.step, h, hpath]

/-- Whether neither data elements nor their parts stand right below the innermost open element. A
child that is read is open then, or further out. -/
private structure IsRemote (progress : Progress) : Prop where
  hasRoot : progress.hasRoot = true
  notOutside : progress.path ≠ []
  notRoot : progress.path ≠ ["root"]
  notData : progress.path ≠ ["data", "root"]
  depth : progress.reading.isSome → 3 ≤ progress.path.length

private theorem IsRemote.append {progress : Progress} (h : IsRemote progress) (text : List Char) :
    IsRemote (progress.append text) :=
  ⟨h.hasRoot, h.notOutside, h.notRoot, h.notData, by simpa [Progress.append] using h.depth⟩

private theorem IsRemote.inside {progress : Progress} (h : IsRemote progress) (name : String) :
    IsRemote (progress.inside name) :=
  ⟨h.hasRoot, by simp [Progress.inside], by simp [Progress.inside, h.notOutside],
    by simp [Progress.inside, h.notRoot], fun hs => Nat.le_succ_of_le (h.depth hs)⟩

private theorem IsRemote.isData {progress : Progress} (h : IsRemote progress) (name : String) :
    isData (name :: progress.path) = false := by
  simp [ResourceData.isData, h.notRoot]

private theorem IsRemote.part? {progress : Progress} (h : IsRemote progress) (name : String) :
    part? (name :: progress.path) = none := by
  simp [ResourceData.part?, h.notData]

private theorem IsRemote.step_opening {progress : Progress} (h : IsRemote progress) (name : String)
    (raw : List Char) : progress.step (.opening name raw) = some (progress.inside name) := by
  simp [Progress.step, enter_eq h.hasRoot h.notOutside, Progress.start, Progress.inside,
    h.isData name, h.part? name]

private theorem IsRemote.step_empty {progress : Progress} (h : IsRemote progress) (name : String)
    (raw : List Char) : progress.step (.empty name raw) = some progress := by
  simp [Progress.step, enter_eq h.hasRoot h.notOutside, Progress.startEmpty, Progress.inside,
    h.isData name, h.part? name, Progress.leave]

private theorem IsRemote.step_closing {progress : Progress} (h : IsRemote progress)
    (name : String) : (progress.inside name).step (.closing name) = some progress := by
  have hpart : (progress.inside name).finishPart = progress.inside name := by
    cases hreading : progress.reading with
    | none => simp [Progress.finishPart, Progress.inside, hreading]
    | some read =>
      -- the child that is read ends further out
      have hlength : ¬progress.path.length + 1 = 3 := by
        have := h.depth (by simp [hreading])
        omega
      simp [Progress.finishPart, Progress.inside, hreading, hlength]
  have hdata : (progress.inside name).finishData = progress.inside name := by
    simp [Progress.finishData, Progress.inside, h.isData name]
  have hhead : (progress.inside name).path.head? = some name := rfl
  rw [Progress.step, if_pos hhead, hpart, hdata]
  rfl

/-- Far from the data elements nothing is found, and all text goes to the child that is read. -/
private theorem IsRemote.run {nodes : List Node} {events : List Event} (h : Written nodes events)
    {progress : Progress} (hremote : IsRemote progress) :
    progress.run events = some (progress.append (Node.contentOf nodes)) := by
  induction h generalizing progress with
  | nil => simp [Progress.run, Node.contentOf, Progress.append]
  | @element name raw attributes children nodes inside events tag within rest ihWithin ih =>
    have hafter := hremote.append (Node.contentOf children)
    have hinner : (progress.inside name).run inside =
        some ((progress.append (Node.contentOf children)).inside name) :=
      ihWithin (hremote.inside name)
    rw [run_cons, hremote.step_opening, Option.bind_some, run_append, hinner, Option.bind_some,
      run_cons, hafter.step_closing, Option.bind_some, ih hafter, append_append]
    simp [Node.contentOf, Node.content]
  | empty tag rest ih =>
    rw [run_cons, hremote.step_empty, Option.bind_some, ih hremote]
    simp [Node.contentOf, Node.content]
  | @text raw content nodes events meant rest ih =>
    rw [run_cons, step_text hremote.notOutside meant, Option.bind_some, ih (hremote.append content),
      append_append]
    simp [Node.contentOf, Node.content]
  | @characters content nodes events rest ih =>
    have hstep : progress.step (.characters content) = some (progress.append content) := rfl
    rw [run_cons, hstep, Option.bind_some, ih (hremote.append content), append_append]
    simp [Node.contentOf, Node.content]
  | comment rest ih =>
    have hstep : progress.step .ignored = some progress := rfl
    rw [run_cons, hstep, Option.bind_some, ih hremote]
    simp [Node.contentOf, Node.content]

/-- The progress inside a data element. -/
private def Progress.atData (draft : Draft) (found : List ResourceData) : Progress where
  path := ["data", "root"]
  hasRoot := true
  current := some draft
  found := found

/-- The progress inside of the outermost element, between its children. -/
private def Progress.atRoot (found : List ResourceData) : Progress where
  path := ["root"]
  hasRoot := true
  found := found

private theorem step_opening_part {name : String} {part : Part}
    (h : part? [name, "data", "root"] = some part) (draft : Draft) (found : List ResourceData)
    (raw : List Char) :
    (Progress.atData draft found).step (.opening name raw) =
      some { (Progress.atData draft found).inside name with reading := some (part, []) } := by
  simp [Progress.step, Progress.enter, Progress.start, Progress.atData, Progress.inside, isData, h]

private theorem step_closing_part (name : String) (part : Part) (draft : Draft)
    (found : List ResourceData) (text : List Char) :
    { (Progress.atData draft found).inside name with reading := some (part, text) }.step
        (.closing name) =
      some (.atData (draft.record part (String.ofList text)) found) := by
  simp [Progress.step, Progress.finishPart, Progress.finishData, Progress.atData, Progress.inside,
    isData, Progress.leave]

private theorem step_opening_other {name : String} (h : part? [name, "data", "root"] = none)
    (draft : Draft) (found : List ResourceData) (raw : List Char) :
    (Progress.atData draft found).step (.opening name raw) =
      some ((Progress.atData draft found).inside name) := by
  simp [Progress.step, Progress.enter, Progress.start, Progress.atData, Progress.inside, isData, h]

private theorem step_closing_other (name : String) (draft : Draft) (found : List ResourceData) :
    ((Progress.atData draft found).inside name).step (.closing name) =
      some (.atData draft found) := by
  simp [Progress.step, Progress.finishPart, Progress.finishData, Progress.atData, Progress.inside,
    isData, Progress.leave]

private theorem step_empty_data (name : String) (attributes : List (String × String))
    (draft : Draft) (found : List ResourceData) (raw : List Char) :
    (Progress.atData draft found).step (.empty name raw) =
      some (.atData (draft.behind (.empty name attributes)) found) := by
  cases h : part? [name, "data", "root"] <;>
    simp [Progress.step, Progress.enter, Progress.startEmpty, Progress.atData, isData, h,
      Draft.behind, childPart?, Node.name?, Node.content, Progress.leave]

private theorem remote_child (name : String) (draft : Draft) (found : List ResourceData)
    (reading : Option (Part × List Char)) :
    IsRemote { (Progress.atData draft found).inside name with reading := reading } :=
  ⟨rfl, by simp [Progress.inside], by simp [Progress.inside, Progress.atData],
    by simp [Progress.inside, Progress.atData], fun _ => Nat.le_refl 3⟩

/-- A child of a data element is read as a whole. -/
private theorem run_child {children : List Node} {inside : List Event}
    (h : Written children inside) (name : String) (attributes : List (String × String))
    (draft : Draft) (found : List ResourceData) (raw : List Char) (events : List Event) :
    (Progress.atData draft found).run (.opening name raw :: (inside ++ .closing name :: events)) =
      (Progress.atData (draft.behind (.element name attributes children)) found).run events := by
  cases hpart : part? [name, "data", "root"] with
  | some part =>
    have hbehind : draft.behind (.element name attributes children) =
        draft.record part (String.ofList (Node.contentOf children)) := by
      simp [Draft.behind, childPart?, Node.name?, hpart, Node.content]
    rw [run_cons, step_opening_part hpart, Option.bind_some, run_append,
      (remote_child name draft found _).run h, Option.bind_some, run_cons, hbehind]
    exact congrArg (Option.bind · _) (step_closing_part name part draft found _)
  | none =>
    have hremote : IsRemote ((Progress.atData draft found).inside name) :=
      remote_child name draft found none
    have hbehind : draft.behind (.element name attributes children) = draft := by
      simp [Draft.behind, childPart?, Node.name?, hpart]
    rw [run_cons, step_opening_other hpart, Option.bind_some, run_append, hremote.run h,
      Option.bind_some, append_of_idle rfl, run_cons, step_closing_other, Option.bind_some, hbehind]

/-- Inside a data element, its children fill in what it holds. -/
private theorem run_data {nodes : List Node} {events : List Event} (h : Written nodes events)
    (draft : Draft) (found : List ResourceData) :
    (Progress.atData draft found).run events =
      some (.atData (nodes.foldl Draft.behind draft) found) := by
  induction h generalizing draft with
  | nil => rfl
  | element tag within rest _ ih => rw [run_child within, ih, List.foldl_cons]
  | @empty name raw attributes nodes events tag rest ih =>
    rw [run_cons, step_empty_data name attributes, Option.bind_some, ih, List.foldl_cons]
  | @text raw content nodes events meant rest ih =>
    rw [run_cons, step_text (by simp [Progress.atData]) meant, Option.bind_some,
      append_of_idle rfl, ih]
    rfl
  | @characters content nodes events rest ih =>
    rw [List.foldl_cons]
    exact ih draft
  | comment rest ih => exact ih draft

private theorem step_opening_data {raw : List Char} {attributes : List (String × String)}
    (h : WritesAttributes raw attributes) (found : List ResourceData) :
    (Progress.atRoot found).step (.opening "data" raw) =
      some (.atData
        { name := attributes.lookup "name", typeName := attributes.lookup "type" } found) := by
  simp [Progress.step, Progress.enter, Progress.start, Progress.atRoot, isData, ofAttributes_eq h,
    Progress.atData]

private theorem step_closing_data (draft : Draft) (found : List ResourceData) :
    (Progress.atData draft found).step (.closing "data") =
      some (.atRoot (found ++ draft.finish)) := by
  simp [Progress.step, Progress.finishPart, Progress.finishData, Progress.atData, isData,
    Progress.leave, Progress.atRoot]

private theorem finish_behind (name : String) (attributes : List (String × String))
    (children : List Node) :
    (children.foldl Draft.behind
      { name := attributes.lookup "name", typeName := attributes.lookup "type" }).finish =
      (ofNode? (.element name attributes children)).toList := by
  rw [foldl_behind]
  cases h : attributes.lookup "name" <;>
    simp [Draft.finish, ofNode?, Node.attributes, Node.children, h]

private theorem ofNodes_data {node : Node} (h : node.name? = some "data") (nodes : List Node) :
    ofNodes (node :: nodes) = (ofNode? node).toList ++ ofNodes nodes := by
  cases hnode : ofNode? node <;> simp [ofNodes, h, hnode]

private theorem ofNodes_other {node : Node} (h : node.name? ≠ some "data") (nodes : List Node) :
    ofNodes (node :: nodes) = ofNodes nodes := by
  simp [ofNodes, h]

private theorem step_empty_root {raw : List Char} {attributes : List (String × String)}
    (h : WritesAttributes raw attributes) (found : List ResourceData) :
    (Progress.atRoot found).step (.empty "data" raw) =
      some (.atRoot (found ++ (ofNode? (.empty "data" attributes)).toList)) := by
  have hfinish : Draft.finish
      { name := attributes.lookup "name", typeName := attributes.lookup "type" } =
        (ofNode? (.empty "data" attributes)).toList :=
    finish_behind "data" attributes []
  simp [Progress.step, Progress.enter, Progress.startEmpty, Progress.atRoot, isData,
    ofAttributes_eq h, Progress.leave, hfinish]

/-- An element without data elements is read as a whole. -/
private theorem run_other {children : List Node} {inside : List Event}
    (h : Written children inside) {name : String} (hname : name ≠ "data")
    (found : List ResourceData) (raw : List Char) (events : List Event) :
    (Progress.atRoot found).run (.opening name raw :: (inside ++ .closing name :: events)) =
      (Progress.atRoot found).run events := by
  have hremote : IsRemote ((Progress.atRoot found).inside name) :=
    ⟨rfl, by simp [Progress.inside], by simp [Progress.inside, Progress.atRoot],
      by simp [Progress.inside, Progress.atRoot, hname], by simp [Progress.inside, Progress.atRoot]⟩
  have hopen : (Progress.atRoot found).step (.opening name raw) =
      some ((Progress.atRoot found).inside name) := by
    simp [Progress.step, Progress.enter, Progress.start, Progress.atRoot, Progress.inside, isData,
      hname, part?]
  have hclose : ((Progress.atRoot found).inside name).step (.closing name) =
      some (.atRoot found) := by
    simp [Progress.step, Progress.finishPart, Progress.finishData, Progress.atRoot,
      Progress.inside, isData, hname, Progress.leave]
  rw [run_cons, hopen, Option.bind_some, run_append, hremote.run h, Option.bind_some,
    append_of_idle rfl, run_cons, hclose, Option.bind_some]

/-- Inside of the outermost element, the data elements among its children are found. -/
private theorem run_root {nodes : List Node} {events : List Event} (h : Written nodes events)
    (found : List ResourceData) :
    (Progress.atRoot found).run events = some (.atRoot (found ++ ofNodes nodes)) := by
  induction h generalizing found with
  | nil => simp [Progress.run, ofNodes]
  | @element name raw attributes children nodes inside events tag within rest _ ih =>
    by_cases hname : name = "data"
    · subst hname
      rw [run_cons, step_opening_data tag, Option.bind_some, run_append, run_data within,
        Option.bind_some, run_cons, step_closing_data, Option.bind_some, ih,
        finish_behind "data", ofNodes_data rfl, List.append_assoc]
    · rw [run_other within hname, ih, ofNodes_other (by simpa [Node.name?] using hname)]
  | @empty name raw attributes nodes events tag rest ih =>
    by_cases hname : name = "data"
    · subst hname
      rw [run_cons, step_empty_root tag, Option.bind_some, ih, ofNodes_data rfl, List.append_assoc]
    · have hstep : (Progress.atRoot found).step (.empty name raw) = some (.atRoot found) := by
        simp [Progress.step, Progress.enter, Progress.startEmpty, Progress.atRoot, isData, hname,
          part?, Progress.leave]
      rw [run_cons, hstep, Option.bind_some, ih, ofNodes_other (by simpa [Node.name?] using hname)]
  | @text raw content nodes events meant rest ih =>
    rw [run_cons, step_text (by simp [Progress.atRoot]) meant, Option.bind_some,
      append_of_idle rfl, ih, ofNodes_other (by simp [Node.name?])]
  | @characters content nodes events rest ih =>
    rw [ofNodes_other (by simp [Node.name?])]
    exact ih found
  | comment rest ih =>
    rw [ofNodes_other (by simp [Node.name?])]
    exact ih found

/-- Outside of the outermost element, comments and blanks change nothing. -/
private theorem run_surrounding {events : List Event} (h : Surrounding events)
    {progress : Progress} (hreading : progress.reading = none) :
    progress.run events = some progress := by
  induction events with
  | nil => rfl
  | cons event events ih =>
    have hstep : progress.step event = some progress := by
      rcases h event (by simp) with rfl | ⟨raw, content, rfl, hraw, hblank⟩
      · rfl
      · simp only [Progress.step, hraw, Option.bind_some, hblank, Bool.not_true, Bool.and_false,
          Bool.false_eq_true, if_false, append_of_idle hreading]
    rw [run_cons, hstep, Option.bind_some, ih fun other hm => h other (by simp [hm])]

/-- The progress behind the outermost element. -/
private def Progress.atEnd (found : List ResourceData) : Progress where
  hasRoot := true
  found := found

/-- The outermost element is read as a whole. -/
private theorem run_document {document : Node} {events : List Event}
    (h : Written [document] events) (helement : document.name?.isSome) :
    Progress.run {} events = some (.atEnd (ofDocument document)) := by
  cases h with
  | @element name raw attributes children _ inside events tag within rest =>
    cases rest
    by_cases hname : name = "root"
    · subst hname
      have hopen : Progress.step {} (.opening "root" raw) = some (.atRoot []) := by
        simp [Progress.step, Progress.enter, Progress.start, Progress.atRoot, isData, part?]
      have hclose (found : List ResourceData) :
          (Progress.atRoot found).step (.closing "root") = some (.atEnd found) := by
        simp [Progress.step, Progress.finishPart, Progress.finishData, Progress.atRoot, isData,
          Progress.leave, Progress.atEnd]
      rw [run_cons, hopen, Option.bind_some, run_append, run_root within, Option.bind_some,
        run_cons, hclose]
      rfl
    · have hremote : IsRemote { path := [name], hasRoot := true } :=
        ⟨rfl, by simp, by simpa using hname, by simp, by simp⟩
      have hopen : Progress.step {} (.opening name raw) =
          some { path := [name], hasRoot := true } := by
        simp [Progress.step, Progress.enter, Progress.start, isData, part?]
      have hclose : Progress.step { path := [name], hasRoot := true } (.closing name) =
          some (.atEnd []) := by
        simp [Progress.step, Progress.finishPart, Progress.finishData, isData, Progress.leave,
          Progress.atEnd]
      rw [run_cons, hopen, Option.bind_some, run_append, hremote.run within, Option.bind_some,
        append_of_idle rfl, run_cons, hclose]
      simp [ofDocument, Node.name?, hname, Progress.run]
  | @empty name raw attributes _ events tag rest =>
    cases rest
    have hstep : Progress.step {} (.empty name raw) = some (.atEnd []) := by
      simp [Progress.step, Progress.enter, Progress.startEmpty, isData, part?, Progress.leave,
        Progress.atEnd]
    have hnone : ofDocument (.empty name attributes) = [] := by
      simp [ofDocument, Node.children, ofNodes]
    rw [run_cons, hstep, hnone]
    rfl
  | text | characters | comment => simp [Node.name?] at helement

end Reading

/-- Reading the pieces of a document gives, in their order, one data element for each element
`data` with a name right below an outermost element `root`: its name and type, and all text in the
first child `value` and the first child `comment` of it, if there are such children. -/
theorem ofEvents_eq_ofDocument {document : Node} {before events behind : List Event}
    (hbefore : Surrounding before) (hevents : Written [document] events)
    (hbehind : Surrounding behind) (helement : document.name?.isSome) :
    ofEvents (before ++ (events ++ behind)) = some (ofDocument document) := by
  have hrun : Progress.run {} (before ++ (events ++ behind)) =
      some (.atEnd (ofDocument document)) := by
    rw [run_append, run_surrounding hbefore rfl, Option.bind_some, run_append,
      run_document hevents helement, Option.bind_some, run_surrounding hbehind rfl]
  unfold ofEvents
  rw [show List.foldlM Progress.step {} _ = _ from hrun]
  rfl

/-- Text and characters of a value count at any depth, and a second value does not count. -/
theorem ofEvents_eq_ofDocument_nested :
    let text := "<!-- A --><root><data name=\"A\" type=\"T\">" ++
      "<value>a<b>&lt;</b><![CDATA[<c>]]></value><value>z</value><comment/></data><data/></root>\n"
    let value : Node :=
      .element "value" [] [.text ['a'], .element "b" [] [.text ['<']], .characters "<c>".toList]
    let document : Node :=
      .element "root" []
        [.element "data" [("name", "A"), ("type", "T")]
          [value, .element "value" [] [.text ['z']], .empty "comment" []], .empty "data" []]
    (∃ events, Xml.events text = some ([.ignored] ++ (events ++ [.text ['\n']])) ∧
        Written [document] events) ∧
      read text = some
        [{ name := "A", typeName := some "T", comment := some "", value := some "a<<c>" }] := by
  intro text value document
  let raw := " name=\"A\" type=\"T\"".toList
  let events : List Event :=
    [.opening "root" [], .opening "data" raw, .opening "value" [], .text ['a'], .opening "b" [],
      .text "&lt;".toList, .closing "b", .characters "<c>".toList, .closing "value",
      .opening "value" [], .text ['z'], .closing "value", .empty "comment" [], .closing "data",
      .empty "data" [], .closing "root"]
  have hevents : Xml.events text = some ([.ignored] ++ (events ++ [.text ['\n']])) := by
    decide +kernel
  have htag : WritesAttributes raw [("name", "A"), ("type", "T")] :=
    ⟨[("name", ['A']), ("type", ['T'])], by decide +kernel,
      .cons ⟨rfl, by decide⟩ (.cons ⟨rfl, by decide⟩ .nil)⟩
  have hplain : WritesAttributes [] [] := ⟨[], by decide, .nil⟩
  have hvalue : Written value.children [.text ['a'], .opening "b" [], .text "&lt;".toList,
      .closing "b", .characters "<c>".toList] :=
    .text (by decide) (.element hplain (.text (by decide +kernel) .nil) (.characters .nil))
  have hsecond : Written [.text ['z']] [.text ['z']] := .text (by decide) .nil
  have hdocument : Written [document] events :=
    .element hplain
      (.element htag (.element hplain hvalue (.element hplain hsecond (.empty hplain .nil)))
        (.empty hplain .nil))
      .nil
  have hbehind : Surrounding [.text ['\n']] := fun event hm =>
    .inr ⟨['\n'], ['\n'], List.mem_singleton.mp hm, by decide, by decide⟩
  refine ⟨⟨events, hevents, hdocument⟩, ?_⟩
  rw [read, hevents, Option.bind_some,
    ofEvents_eq_ofDocument (by simp [Surrounding]) hdocument hbehind rfl]
  decide

end ResourceData

end SourceGen
