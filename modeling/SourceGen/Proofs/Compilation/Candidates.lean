import SourceGen.Proofs.Compilation.Bound

/-! What generators find in a program: of each declared type its own declaration and those of its
members, and in files that are given as trees nothing. -/

namespace SourceGen

/-- The types that the files of a program declare. -/
def CompilationInput.declaredTypes (input : CompilationInput) : List TypeSymbol :=
  input.declarations.flatMap fun file => SourceGen.declaredTypes file.2

/-- Only types that the files list are declared. -/
theorem CompilationInput.mem_listed {input : CompilationInput} {type : TypeSymbol}
    (h : type ∈ input.declaredTypes) :
    type ∈ input.declarations.flatMap (·.2) := by
  obtain ⟨file, hf, ht⟩ := List.mem_flatMap.mp h
  exact List.mem_flatMap.mpr ⟨file, hf, declaredTypes_subset ht⟩

/-- The candidate that a declaration is, without the place where it stands. -/
def candidate? (name : String) (accepts : Kind → Bool) (containing : Option TypeSymbol)
    (kind : Kind) (symbol : Symbol) : Option AttributeCandidate :=
  if !kind.isMemberDeclaration || !accepts kind then none
  else
    let attributes := symbol.attributes.filter (·.type.fullMetadataName == name)
    if attributes.isEmpty then none
    else some ⟨0, ⟨.compilationUnit, 0, 0⟩, symbol, attributes, containing⟩

/-- A declaration of a kind that is asked for is a candidate if it carries the attribute. -/
theorem candidate?_declared {name : String} {accepts : Kind → Bool} {kind : Kind}
    (hkind : (kind.isMemberDeclaration && accepts kind) = true) (containing : Option TypeSymbol)
    (symbol : Symbol) :
    candidate? name accepts containing kind symbol =
      match symbol.attributes.filter (·.type.fullMetadataName == name) with
      | [] => none
      | marker :: rest =>
        some ⟨0, ⟨.compilationUnit, 0, 0⟩, symbol, marker :: rest, containing⟩ := by
  obtain ⟨hmember, haccepts⟩ := Bool.and_eq_true_iff.mp hkind
  rw [candidate?, hmember, haccepts]
  cases symbol.attributes.filter (·.type.fullMetadataName == name) <;> rfl

/-- The candidates among the declarations of a type and of its members. -/
def TypeSymbol.candidates (name : String) (accepts : Kind → Bool) (type : TypeSymbol) :
    List AttributeCandidate :=
  (candidate? name accepts none type.declaredKind (.type type)).toList ++
    type.boundMembers.filterMap fun (kind, symbol) =>
      candidate? name accepts (some type) kind symbol

namespace TypeSymbol

private theorem candidate?_eq {name : String} {accepts : Kind → Bool}
    {containing : Option TypeSymbol} {kind : Kind} {symbol : Symbol} {found : AttributeCandidate}
    (h : candidate? name accepts containing kind symbol = some found) :
    found.symbol = symbol ∧ found.containing = containing := by
  simp only [candidate?] at h
  split at h
  · simp at h
  · split at h
    · simp at h
    · obtain rfl := Option.some.inj h
      exact ⟨rfl, rfl⟩

/-- A candidate of a type is the type itself or one of its members. -/
theorem mem_candidates {type : TypeSymbol} {name : String} {accepts : Kind → Bool}
    {found : AttributeCandidate} (h : found ∈ type.candidates name accepts) :
    (candidate? name accepts none type.declaredKind (.type type) = some found ∧
      found.symbol = .type type) ∨
    (found.symbol.type? = none ∧ found.containing = some type) := by
  rcases List.mem_append.mp h with h | h
  · have hf := Option.mem_toList.mp h
    exact .inl ⟨hf, (candidate?_eq hf).1⟩
  · obtain ⟨bound, hb, hf⟩ := List.mem_filterMap.mp h
    obtain ⟨hs, hc⟩ := candidate?_eq hf
    exact .inr ⟨hs ▸ (bound_of_member hb).2, hc⟩

/-- What is read from the members of a type has the key of the type. -/
theorem key_of_candidates (type : TypeSymbol) {name : String} {accepts : Kind → Bool} {κ ν : Type}
    {read : AttributeCandidate → Option (κ × ν)} {keyOf : TypeSymbol → κ}
    (hread : ∀ candidate found, read candidate = some found →
      candidate.symbol.type? = none ∧
        ∀ type, candidate.containing = some type → found.1 = keyOf type) :
    ∀ found ∈ (type.candidates name accepts).filterMap read, found.1 = keyOf type := by
  intro found hm
  obtain ⟨candidate, hc, hf⟩ := List.mem_filterMap.mp hm
  obtain ⟨hnone, hin⟩ := hread candidate found hf
  rcases mem_candidates hc with ⟨-, hs⟩ | ⟨-, hs⟩
  · simp [hs, Symbol.type?] at hnone
  · exact hin type hs

/-- What is read from types only is read from the declaration of the type itself. -/
theorem filterMap_candidates_type (type : TypeSymbol) {name : String} {accepts : Kind → Bool}
    {β : Type} {read : AttributeCandidate → Option β}
    (hread : ∀ candidate, candidate.symbol.type? = none → read candidate = none) :
    (type.candidates name accepts).filterMap read =
      ((candidate? name accepts none type.declaredKind (.type type)).bind read).toList := by
  have hmembers : (type.boundMembers.filterMap fun bound =>
      candidate? name accepts (some type) bound.1 bound.2).filterMap read = [] := by
    rw [List.filterMap_filterMap, List.filterMap_eq_nil_iff]
    intro bound hb
    cases hc : candidate? name accepts (some type) bound.1 bound.2 with
    | none => rfl
    | some candidate =>
      exact hread candidate ((candidate?_eq hc).1 ▸ (bound_of_member hb).2)
  rw [candidates, List.filterMap_append, hmembers, List.append_nil]
  cases candidate? name accepts none type.declaredKind (.type type) with
  | none => rfl
  | some candidate => cases hc : read candidate <;> simp [hc]

/-- What is read from methods only is read from the methods of the type; those of an enumeration are
not declared. -/
theorem filterMap_candidates_methods (type : TypeSymbol) {name : String} {accepts : Kind → Bool}
    {β : Type} {read : AttributeCandidate → Option β}
    (hread : ∀ candidate, candidate.symbol.method? = none → read candidate = none) :
    (type.candidates name accepts).filterMap read =
      if type.info.kind = .enumType then []
      else type.methods.filterMap fun method =>
        (candidate? name accepts (some type) (Symbol.method method).declarationKind
          (.method method)).bind read := by
  have hother {containing : Option TypeSymbol} {kind : Kind} {symbol : Symbol}
      (hs : symbol.method? = none) :
      (candidate? name accepts containing kind symbol).bind read = none := by
    cases hc : candidate? name accepts containing kind symbol with
    | none => rfl
    | some candidate => exact hread candidate ((candidate?_eq hc).1 ▸ hs)
  have hown : (candidate? name accepts none type.declaredKind (.type type)).toList.filterMap read =
      [] := by
    have h := @hother none type.declaredKind (.type type) rfl
    cases hc : candidate? name accepts none type.declaredKind (.type type) <;> simp_all
  rw [candidates, List.filterMap_append, hown, List.nil_append, boundMembers_eq, memberSymbols]
  split
  · rfl
  · rw [List.filterMap_map, List.filterMap_filterMap, methods, List.filterMap_filterMap,
      List.filterMap_filterMap]
    refine List.filterMap_congr fun member _ => ?_
    cases member with
    | field field =>
      simp only [MemberSymbol.declared?]
      split
      · rfl
      · exact hother rfl
    | property property => exact hother rfl
    | method method => rfl

end TypeSymbol

/-- A candidate without the place where it stands; what contains a type is a part of the type. -/
def AttributeCandidate.bare (candidate : AttributeCandidate) : AttributeCandidate :=
  { candidate with
    file := 0
    span := ⟨.compilationUnit, 0, 0⟩
    containing :=
      match candidate.symbol with
      | .type _ => none
      | _ => candidate.containing }

/-- Whether it has no influence on what a candidate stands for where it stands. -/
def IgnoresPlace {β : Type} (read : AttributeCandidate → Option β) : Prop :=
  ∀ candidate, read candidate.bare = read candidate

namespace Compilation

variable {compilation : Compilation} {name : String} {accepts : Kind → Bool}

/-- The candidate at a node. -/
def attributed? (compilation : Compilation) (name : String) (accepts : Kind → Bool)
    (node : Nat × Site) : Option AttributeCandidate :=
  (compilation.symbolAt? node.1 node.2.span).bind fun symbol =>
    (candidate? name accepts (compilation.containingType? node.1 node.2) node.2.kind symbol).map
      fun candidate => { candidate with file := node.1, span := node.2.span }

theorem withAttribute_eq (compilation : Compilation) (name : String) (accepts : Kind → Bool) :
    compilation.withAttribute name accepts =
      compilation.sites.filterMap (compilation.attributed? name accepts) := by
  refine List.filterMap_congr fun node _ => ?_
  by_cases hk : (!node.2.kind.isMemberDeclaration || !accepts node.2.kind) = true
  · cases h : compilation.symbolAt? node.1 node.2.span <;> simp [attributed?, candidate?, h, hk]
  · cases h : compilation.symbolAt? node.1 node.2.span with
    | none => simp [attributed?, h]
    | some symbol =>
      simp only [attributed?, candidate?, h, if_neg hk, Option.bind_some]
      split <;> rfl

section Reading

variable {β : Type} {read : AttributeCandidate → Option β}

private theorem attributed?_member (hr : IgnoresPlace read) {number : Nat} {site : Site}
    {symbol : Symbol} (hs : compilation.symbolAt? number site.span = some symbol) :
    (compilation.attributed? name accepts (number, site)).bind read =
      (candidate? name accepts (compilation.containingType? number site) site.kind symbol).bind
        read := by
  simp only [attributed?, hs, Option.bind_some]
  cases hc : candidate? name accepts (compilation.containingType? number site) site.kind symbol with
  | none => rfl
  | some candidate =>
    exact (hr _).symm.trans (hr candidate)

private theorem candidate?_type (hr : IgnoresPlace read) (containing : Option TypeSymbol)
    (kind : Kind) (type : TypeSymbol) :
    (candidate? name accepts containing kind (.type type)).bind read =
      (candidate? name accepts none kind (.type type)).bind read := by
  simp only [candidate?]
  split
  · rfl
  · split
    · rfl
    · exact (hr _).symm

end Reading

/-- What is read from the declarations of some types, one type after the other. -/
private theorem nesting_candidates {listed types : List TypeSymbol} {outer : Option TypeSymbol}
    {enclosing : List Span} {entries : List Entry}
    (h : Nesting listed outer enclosing entries types) {number : Nat}
    (hs : ∀ entry ∈ entries, compilation.symbolAt? number entry.1.span = some entry.2) {β : Type}
    {read : AttributeCandidate → Option β} (hr : IgnoresPlace read) :
    entries.filterMap (fun entry =>
        (compilation.attributed? name accepts (number, entry.1)).bind read) =
      types.flatMap fun type => (type.candidates name accepts).filterMap read := by
  induction h with
  | nil => rfl
  | @cons outer owner type list members inner rest inside types _ kind _ list_kind bound enclosing
      _ _ hinner hrest =>
    have howner := hs (owner, .type type) (by simp)
    have hfirst : (compilation.attributed? name accepts (number, owner)).bind read =
        (candidate? name accepts none type.declaredKind (.type type)).bind read := by
      rw [attributed?_member hr howner, candidate?_type hr, kind]
    have hmembers : members.filterMap (fun entry =>
          (compilation.attributed? name accepts (number, entry.1)).bind read) =
        type.boundMembers.filterMap fun bound =>
          (candidate? name accepts (some type) bound.1 bound.2).bind read := by
      rw [← bound, List.filterMap_map]
      refine List.filterMap_congr fun entry hm => ?_
      rw [attributed?_member hr (hs entry (by simp [hm])),
        containingType?_member kind howner list_kind (enclosing entry hm)]
      rfl
    have hinner := hinner fun entry hm => hs entry (by simp [hm])
    have hrest := hrest fun entry hm => hs entry (by simp [hm])
    rw [List.flatMap_append, List.flatMap_cons, ← hinner, ← hrest, List.filterMap_append,
      List.filterMap_append, TypeSymbol.candidates, List.filterMap_append, List.filterMap_cons,
      hmembers, List.filterMap_filterMap, hfirst]
    cases candidate? name accepts none type.declaredKind (.type type) with
    | none => simp
    | some candidate => cases hc : read candidate <;> simp [hc]

/-- What is read from the types among some types that have base types. -/
private theorem nesting_bases {listed types : List TypeSymbol} {outer : Option TypeSymbol}
    {enclosing : List Span} {entries : List Entry}
    (h : Nesting listed outer enclosing entries types) {β : Type} (read : TypeSymbol → Option β) :
    entries.filterMap (fun entry =>
        if entry.1.hasBaseList then entry.2.type?.bind read else none) =
      types.flatMap fun type => if type.writesBases then (read type).toList else [] := by
  induction h with
  | nil => rfl
  | @cons outer owner type list members inner rest inside types _ _ bases _ bound _ _ _ hinner
      hrest =>
    have hmembers : members.filterMap (fun entry =>
        if entry.1.hasBaseList then entry.2.type?.bind read else none) = [] := by
      rw [List.filterMap_eq_nil_iff]
      intro entry hm
      have hb : (entry.1.kind, entry.2) ∈ type.boundMembers := by
        rw [← bound]
        exact List.mem_map_of_mem (f := fun entry : Entry => (entry.1.kind, entry.2)) hm
      have hk := (TypeSymbol.bound_of_member hb).1
      simp [Site.hasBaseList, hk]
    rw [List.flatMap_append, List.flatMap_cons, ← hinner, ← hrest, List.filterMap_append,
      List.filterMap_append, List.filterMap_cons, hmembers]
    cases hw : type.writesBases with
    | false => simp [bases, hw]
    | true => cases hr : read type <;> simp [bases, hw, hr, Symbol.type?]

section Sites

variable {input : CompilationInput} {β : Type} {find : Nat × Site → Option β}
  {ofType : TypeSymbol → List β}

/-- What is found at the nodes of one file, if only nodes with symbols count. -/
private theorem listing_filterMap
    (hunbound : ∀ node, (ofInput input).symbolAt? node.1 node.2.span = none → find node = none)
    (hnesting : ∀ number {listed outer enclosing entries types},
      Nesting listed outer enclosing entries types →
      (∀ entry ∈ entries, (ofInput input).symbolAt? number entry.1.span = some entry.2) →
      entries.filterMap (fun entry => find (number, entry.1)) = types.flatMap ofType)
    {number : Nat} {file : SourceFile} {types : List TypeSymbol}
    (h : (listings input)[number]? = some (file, types)) :
    file.root.descendants.filterMap (fun site => find (number, site)) =
      (SourceGen.declaredTypes types).flatMap ofType := by
  obtain ⟨entries, hbinds⟩ := ofInput_binds h
  obtain ⟨enclosing, -, h⟩ := hbinds.nesting
  rw [← hnesting number h hbinds.symbols]
  have hentries : entries.filterMap (fun entry => find (number, entry.1)) =
      (entries.map (·.1)).filterMap fun site => find (number, site) := by
    rw [List.filterMap_map]
    rfl
  rw [hentries, ← hbinds.sites, List.filterMap_filter]
  refine List.filterMap_congr fun site _ => ?_
  cases hs : (ofInput input).symbolAt? number site.span with
  | none => simpa using hunbound (number, site) hs
  | some symbol => simp

/-- What is found at the nodes of a program, if only nodes with symbols count: it is found among
those of each declared type. -/
private theorem sites_filterMap
    (hunbound : ∀ node, (ofInput input).symbolAt? node.1 node.2.span = none → find node = none)
    (hnesting : ∀ number {listed outer enclosing entries types},
      Nesting listed outer enclosing entries types →
      (∀ entry ∈ entries, (ofInput input).symbolAt? number entry.1.span = some entry.2) →
      entries.filterMap (fun entry => find (number, entry.1)) = types.flatMap ofType) :
    (ofInput input).sites.filterMap find = input.declaredTypes.flatMap ofType := by
  have hlisting : ∀ listing ∈ (listings input).zipIdx,
      listing.1.1.root.descendants.filterMap (fun site => find (listing.2, site)) =
        (SourceGen.declaredTypes listing.1.2).flatMap ofType :=
    fun _ hm => listing_filterMap hunbound hnesting (List.mem_zipIdx_iff_getElem?.mp hm)
  calc (ofInput input).sites.filterMap find
    _ = (listings input).zipIdx.flatMap fun listing =>
          listing.1.1.root.descendants.filterMap fun site => find (listing.2, site) := by
        rw [sites, ofInput_files, List.zipIdx_map, List.flatMap_map, List.filterMap_flatMap]
        simp only [List.filterMap_map]
        rfl
    _ = (listings input).zipIdx.flatMap fun listing =>
          (SourceGen.declaredTypes listing.1.2).flatMap ofType :=
        List.flatMap_congr hlisting
    _ = (listings input).flatMap fun listing =>
          (SourceGen.declaredTypes listing.2).flatMap ofType := by
        have h := List.flatMap_map Prod.fst
          (fun listing => (SourceGen.declaredTypes listing.2).flatMap ofType)
          (listings input).zipIdx
        rw [List.zipIdx_map_fst] at h
        exact h.symm
    _ = input.declaredTypes.flatMap ofType := by
        have hnone : SourceGen.declaredTypes [] = [] := rfl
        simp [listings, CompilationInput.declaredTypes, List.flatMap_map, List.flatMap_append,
          List.flatMap_assoc, hnone]

end Sites

/-- What is read from the declarations with an attribute: it is read from each declared type. -/
theorem withAttribute_filterMap (input : CompilationInput) (name : String) {accepts : Kind → Bool}
    {β : Type} {read : AttributeCandidate → Option β} (hr : IgnoresPlace read) :
    ((ofInput input).withAttribute name accepts).filterMap read =
      input.declaredTypes.flatMap fun type => (type.candidates name accepts).filterMap read := by
  rw [withAttribute_eq, List.filterMap_filterMap]
  refine sites_filterMap (fun node h => ?_) fun _ {_ _ _ _ _} h hs =>
    nesting_candidates h hs hr
  simp [attributed?, h]

/-- What is read from the nodes with base types: it is read from each declared type with some. -/
theorem withShape_filterMap (input : CompilationInput) {β : Type} (read : TypeSymbol → Option β) :
    ((ofInput input).withShape Site.hasBaseList).filterMap
        (fun candidate => (candidate.symbol.bind Symbol.type?).bind read) =
      input.declaredTypes.flatMap fun type =>
        if type.writesBases then (read type).toList else [] := by
  let find (node : Nat × Site) : Option β :=
    if node.2.hasBaseList then
      (((ofInput input).symbolAt? node.1 node.2.span).bind Symbol.type?).bind read
    else none
  have hfind : ((ofInput input).withShape Site.hasBaseList).filterMap
      (fun candidate => (candidate.symbol.bind Symbol.type?).bind read) =
        (ofInput input).sites.filterMap find := by
    rw [withShape, List.filterMap_filterMap]
    refine List.filterMap_congr fun node _ => ?_
    by_cases h : node.2.hasBaseList = true <;> simp [find, h]
  rw [hfind]
  refine sites_filterMap (fun node h => by simp [find, h]) fun _ {_ _ _ _ _} h hs => ?_
  rw [← nesting_bases h read]
  refine List.filterMap_congr fun entry hm => ?_
  simp [find, hs entry hm]

end Compilation

end SourceGen
