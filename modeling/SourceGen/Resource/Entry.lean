import SourceGen.Generator.Basic
import SourceGen.Resource.CompositeFormat
import SourceGen.Resource.File
/-! Resource files of one class merged into the entries of that class. -/

namespace SourceGen

structure ResourceValue where
  locale : Locale
  value : Option String
  deriving DecidableEq, Repr

/-- An entry with its values for all locales. If its first value has holes, `formatArguments` says
how many arguments they take. -/
structure ResourceEntry where
  name : String
  typeName : Option String
  comment : Option String
  values : List ResourceValue
  formatArguments : Nat
  deriving DecidableEq, Repr

structure ResourceContext where
  key : ResourceKey
  entries : List ResourceEntry
  deriving DecidableEq, Repr

namespace ResourceEntry

def argumentsOf : Option ResourceValue → Nat
  | some ⟨_, some value⟩ =>
    if value.isEmpty then 0
    else
      match CompositeFormat.parse value with
      | .ok segments => CompositeFormat.minimumArgumentCount segments
      | .error _ => 0
  | _ => 0

def sortValues (values : List ResourceValue) : List ResourceValue :=
  values.mergeSort fun a b => Culture.precedes a.locale b.locale

/-- The entry of the elements with one name, given with their locales. The first of them decides its
type and comment. -/
def ofGroup (name : String) (group : List (Locale × ResourceData)) : ResourceEntry :=
  let first := group.head?.map (·.2)
  let values := sortValues (group.map fun (locale, data) => ⟨locale, data.value⟩)
  { name
    typeName := first.bind (·.typeName)
    comment := first.bind (·.comment)
    values := values
    formatArguments := argumentsOf values.head? }

/-- Whether the name of the entry reads like that of a method for its arguments. -/
def hidesFormat (entry : ResourceEntry) : Bool :=
  0 < entry.formatArguments &&
    Text.endsWith (Text.asciiLower entry.name).toList "format".toList

end ResourceEntry

namespace ResourceContext

/-- Whether a file decides no later than another about type and comment of an entry. -/
def decidesFirst (a b : ResourceFile) : Bool :=
  if a.locale = b.locale then decide (a.path ≤ b.path) else Culture.precedes a.locale b.locale

/-- The elements of files with their locales, by name. -/
def elements (files : List ResourceFile) : List (String × Locale × ResourceData) :=
  files.flatMap fun file => file.data.map fun data => (data.name, file.locale, data)

/-- The entries of a class, in the order in which their names first appear. -/
def mergeEntries (files : List ResourceFile) : List ResourceEntry :=
  (groupByKey (elements (files.mergeSort decidesFirst))).map fun (name, group) =>
    ResourceEntry.ofGroup name group

/-- The findings about the entries of a class. -/
def findings (files : List ResourceFile) : List Diagnostic :=
  ((mergeEntries files).filter (·.hidesFormat)).map fun entry =>
    Rule.resourceFormatSuffix.report none [entry.name]

/-- The class of some files, unless it has no entries. -/
def ofGroup (key : ResourceKey) (files : List ResourceFile) : Option ResourceContext :=
  let entries := mergeEntries files
  if entries.isEmpty then none else some ⟨key, sortByText (·.name) entries⟩

/-- The classes of the files that were read. -/
def group (read : List (Except Diagnostic ResourceFile)) : Collected ResourceContext :=
  let files := read.filterMap Except.toOption
  let groups := groupByKey (files.map fun file => (file.key, file))
  let skipped := read.filterMap fun
    | .error diagnostic => some diagnostic
    | .ok _ => none
  { contexts :=
      sortByText (·.key.resourceName) (groups.filterMap fun (key, files) => ofGroup key files)
    diagnostics := skipped ++ groups.flatMap fun (_, files) => findings files }

end ResourceContext

end SourceGen
