import SourceGen.Compilation.Basic
import SourceGen.Proofs.Compilation.Listed

/-! What the nodes of a program are bound to. In a file that is written for some types each of these
has one node and each of their members has one; a file that is given as a tree has none. -/

namespace SourceGen

section Bindings

variable {α : Type} {file : Nat} {span : Span}

theorem NodeMap.find?_of_mem {map : NodeMap α} {value : α} (hn : (map.map (·.1)).Nodup)
    (hm : ((file, span), value) ∈ map) : map.find? file span = some value := by
  induction map with
  | nil => simp at hm
  | cons entry rest ih =>
    rw [List.map_cons, List.nodup_cons] at hn
    rcases List.mem_cons.mp hm with rfl | hm
    · simp [NodeMap.find?]
    · have hne : entry.1 ≠ (file, span) := fun h =>
        hn.1 (h ▸ List.mem_map_of_mem (f := (·.1)) hm)
      have h := ih hn.2 hm
      simpa [NodeMap.find?, List.find?_cons, hne] using h

theorem NodeMap.find?_other {map : NodeMap α} (h : ∀ entry ∈ map, entry.1.1 ≠ file) :
    List.find? (fun entry => decide (entry.1 = (file, span))) map = none := by
  rw [List.find?_eq_none]
  intro entry hm he
  exact h entry hm (congrArg Prod.fst (of_decide_eq_true he))

end Bindings

namespace Compilation

theorem bindDeclared_file {file : Nat} {sites : List Site} {declared : Declared}
    {entry : (Nat × Span) × Symbol} (h : entry ∈ bindDeclared file sites declared) :
    entry.1.1 = file := by
  rw [bindDeclared, List.mem_reverse, List.mem_filterMap] at h
  obtain ⟨site, -, h⟩ := h
  split at h
  · obtain ⟨symbol, -, rfl⟩ := Option.map_eq_some_iff.mp h
    rfl
  · simp at h

/-- Without declared symbols there is nothing to bind. -/
theorem bindDeclared_nil (file : Nat) (sites : List Site) : bindDeclared file sites [] = [] := by
  rw [bindDeclared, List.reverse_eq_nil_iff, List.filterMap_eq_nil_iff]
  intro site _
  split <;> rfl

section Files

variable (types : List (Nat × TypeSymbol))

theorem addFiles_files (files : List (SourceFile × Declared)) (compilation : Compilation) :
    (files.foldl (addFile types) compilation).files = compilation.files ++ files.map (·.1) := by
  induction files generalizing compilation with
  | nil => simp
  | cons file rest ih => simp [ih, addFile]

theorem addFiles_assemblyName (files : List (SourceFile × Declared)) (compilation : Compilation) :
    (files.foldl (addFile types) compilation).assemblyName = compilation.assemblyName := by
  induction files generalizing compilation with
  | nil => rfl
  | cons file rest ih => rw [List.foldl_cons, ih, addFile]

/-- Adding files binds nothing in those that there are. -/
private theorem addFiles_before (files : List (SourceFile × Declared)) (compilation : Compilation)
    {number : Nat} (hn : number < compilation.files.length) (span : Span) :
    (files.foldl (addFile types) compilation).symbolAt? number span =
      compilation.symbolAt? number span := by
  induction files generalizing compilation with
  | nil => rfl
  | cons file rest ih =>
    have hother : ∀ entry ∈ bindDeclared compilation.files.length file.1.root.descendants file.2,
        entry.1.1 ≠ number := by
      intro entry he
      rw [bindDeclared_file he]
      omega
    rw [List.foldl_cons, ih _ (by simp [addFile]; omega)]
    simp [symbolAt?, addFile, NodeMap.find?, List.find?_append, NodeMap.find?_other hother]

/-- The symbols of a file are bound when it is added. -/
theorem addFiles_symbolAt? (files : List (SourceFile × Declared)) (compilation : Compilation)
    {number : Nat} {file : SourceFile × Declared}
    (hb : ∀ entry ∈ compilation.bindings, entry.1.1 < compilation.files.length)
    (hf : files[number]? = some file) (span : Span) :
    (files.foldl (addFile types) compilation).symbolAt? (compilation.files.length + number) span =
      (bindDeclared (compilation.files.length + number) file.1.root.descendants file.2).find?
        (compilation.files.length + number) span := by
  induction files generalizing compilation number with
  | nil => simp at hf
  | cons first rest ih =>
    have hlength :
        (addFile types compilation first).files.length = compilation.files.length + 1 := by
      simp [addFile]
    cases number with
    | zero =>
      obtain rfl : first = file := by simpa using hf
      have hother : ∀ entry ∈ compilation.bindings, entry.1.1 ≠ compilation.files.length :=
        fun entry he => Nat.ne_of_lt (hb entry he)
      rw [List.foldl_cons, addFiles_before _ _ _ (by omega)]
      simp [symbolAt?, addFile, NodeMap.find?, List.find?_append, NodeMap.find?_other hother]
    | succ number =>
      have hbound : ∀ entry ∈ (addFile types compilation first).bindings,
          entry.1.1 < (addFile types compilation first).files.length := by
        intro entry he
        rw [hlength]
        rcases List.mem_append.mp he with he | he
        · rw [bindDeclared_file he]
          omega
        · have := hb entry he
          omega
      have h := ih (addFile types compilation first) hbound hf
      rw [hlength, Nat.add_assoc, Nat.add_comm 1 number] at h
      exact h

end Files

/-- What the sites of a file are bound to, one by one. -/
private theorem bindDeclared_sites (file : Nat) (declared : Declared) :
    ∃ bind? : Site → Option ((Nat × Span) × Symbol),
      (∀ sites, bindDeclared file sites declared = (sites.filterMap bind?).reverse) ∧
      (∀ site : Site, site.anchor.any Anchor.isDeclaration = false → bind? site = none) ∧
      ∀ (site : Site) (place : DeclarationPath) (symbol : Symbol),
        site.anchor = some (.declaration place) → declared.lookup place = some symbol →
          bind? site = some ((file, site.span), symbol) := by
  refine ⟨_, fun _ => rfl, fun site ha => ?_, fun site place symbol ha hl => ?_⟩
  · cases hanchor : site.anchor with
    | none => rfl
    | some anchor =>
      cases anchor with
      | declaration place => simp [hanchor, Anchor.isDeclaration] at ha
      | expression number => rfl
  · simp [ha, hl]

/-- Only declarations have names of declarations, so only they are bound. -/
private theorem bindDeclared_eq {file : Nat} {root : Tree} {declared : Declared}
    {entries : List Entry} {enclosing : List Span} {start : Nat} {trees : List Tree}
    (ho : Tree.Orderly [root]) (hs : root.descendants.filter Site.declares = entries.map (·.1))
    (hd : Declares enclosing start trees declared entries) (hn : (declared.map (·.1)).Nodup) :
    bindDeclared file root.descendants declared =
      (entries.map fun entry => ((file, entry.1.span), entry.2)).reverse := by
  obtain ⟨bind?, hbind, hquiet, hnamed⟩ := bindDeclared_sites file declared
  have hnone : ∀ site ∈ root.descendants,
      bind? site = if site.declares then bind? site else none := by
    intro site hm
    by_cases h : site.declares = true
    · rw [if_pos h]
    · rw [if_neg h]
      have hsite : site ∈ Tree.sitesOf [] 0 [root] := by
        simpa [Tree.sitesOf] using (show site ∈ root.sites [] 0 from hm)
      exact hquiet site (Bool.eq_false_iff.mpr (mt ((ho [] 0).named site hsite) h))
  have hsome : ∀ entry ∈ entries,
      bind? entry.1 = some ((file, entry.1.span), entry.2) := by
    intro entry hm
    have h := List.mem_map_of_mem (f := fun entry : Entry => (entry.1.anchor, entry.2)) hm
    rw [hd.places] at h
    obtain ⟨place, hp, he⟩ := List.mem_map.mp h
    obtain ⟨ha, hv⟩ := Prod.mk.inj he
    exact hnamed entry.1 place.1 entry.2 ha.symm (hv ▸ lookup_of_mem hn hp)
  have h := calc
    root.descendants.filterMap bind?
      = (root.descendants.filter Site.declares).filterMap bind? := by
        rw [List.filterMap_filter]
        exact List.filterMap_congr hnone
    _ = entries.filterMap fun entry => some ((file, entry.1.span), entry.2) := by
        rw [hs, List.filterMap_map]
        exact List.filterMap_congr hsome
    _ = entries.map fun entry => ((file, entry.1.span), entry.2) := by
        rw [List.filterMap_eq_map']
  rw [hbind, h]

/-- Whether declarations are the nodes of a tree that have symbols. They are those of the given
types, and no two of them have the same kind and the same bytes. -/
structure Binds (root : Tree) (symbolOf : Span → Option Symbol) (types : List TypeSymbol)
    (entries : List Entry) : Prop where
  sites : (root.descendants.filter fun site => (symbolOf site.span).isSome) = entries.map (·.1)
  spans : (entries.map (·.1.span)).Nodup
  symbols : ∀ entry ∈ entries, symbolOf entry.1.span = some entry.2
  nesting : ∃ enclosing, (∀ span ∈ enclosing, span.kind.isTypeDeclaration = false) ∧
    Nesting types none enclosing entries (SourceGen.declaredTypes types)

/-- The declarations of a file for some types are bound to the symbols of these. -/
theorem bindDeclared_declareFile (types : List TypeSymbol) (file : Nat) :
    ∃ entries enclosing start,
      Declares enclosing start (memberTrees (declareFile types).1.members) (declareFile types).2
        entries ∧
      (declareFile types).1.toTree.descendants.filter Site.declares = entries.map (·.1) ∧
      Binds (declareFile types).1.toTree
        ((bindDeclared file (declareFile types).1.toTree.descendants
          (declareFile types).2).find? file) types entries := by
  let root := (declareFile types).1.toTree
  have ho := (declareFile types).1.orderly
  obtain ⟨enclosing, start, htop, hunit⟩ := (declareFile types).1.declarations_eq
  obtain ⟨entries, hd, hnesting, hn⟩ := declareFile_declares types enclosing start
  have hs : root.descendants.filter Site.declares = entries.map (·.1) := hunit.trans hd.sites
  have hpair : (entries.map (·.1)).Pairwise (·.span.start < ·.span.start) := by
    rw [← hd.sites, ← hunit]
    have h := (ho [] 0).pairwise
    rwa [Tree.declarationsOf_cons, Tree.declarationsOf_quiet _ _ [] rfl, List.append_nil] at h
  have hspans : (entries.map (·.1.span)).Nodup := by
    refine List.pairwise_map.mpr ((List.pairwise_map.mp hpair).imp fun hlt he => ?_)
    rw [he] at hlt
    exact Nat.lt_irrefl _ hlt
  let bound := bindDeclared file root.descendants (declareFile types).2
  have hbound : bound = (entries.map fun entry => ((file, entry.1.span), entry.2)).reverse :=
    bindDeclared_eq ho hs hd hn
  have hkeys : (bound.map (·.1)).Nodup := by
    rw [hbound, List.map_reverse, List.nodup_reverse, List.map_map]
    exact List.Nodup.of_map Prod.snd (by simpa [Function.comp_def] using hspans)
  have hsymbols : ∀ entry ∈ entries, bound.find? file entry.1.span = some entry.2 := by
    intro entry hm
    refine NodeMap.find?_of_mem hkeys ?_
    rw [hbound, List.mem_reverse]
    exact List.mem_map_of_mem (f := fun entry : Entry => ((file, entry.1.span), entry.2)) hm
  have hundeclared (span : Span) (hk : span.kind.isDeclaring = false) :
      bound.find? file span = none := by
    rw [NodeMap.find?, Option.map_eq_none_iff, List.find?_eq_none]
    intro binding hm he
    rw [hbound, List.mem_reverse] at hm
    obtain ⟨entry, hentry, rfl⟩ := List.mem_map.mp hm
    have hsite := List.mem_map_of_mem (f := Prod.fst) hentry
    rw [← hs] at hsite
    have hspan : entry.1.span = span := congrArg Prod.snd (of_decide_eq_true he)
    have hdeclares : entry.1.span.kind.isDeclaring = true := (List.mem_filter.mp hsite).2
    rw [hspan, hk] at hdeclares
    exact Bool.false_ne_true hdeclares
  refine ⟨entries, enclosing, start, hd, hs, ?_, hspans, hsymbols, enclosing, htop, hnesting⟩
  rw [← hs]
  refine List.filter_congr fun site hm => ?_
  cases hdeclares : site.declares with
  | false => exact congrArg Option.isSome (hundeclared site.span hdeclares)
  | true =>
    have hsite : site ∈ entries.map (·.1) := hs ▸ List.mem_filter.mpr ⟨hm, hdeclares⟩
    obtain ⟨entry, hentry, rfl⟩ := List.mem_map.mp hsite
    exact congrArg Option.isSome (hsymbols entry hentry)

/-- The files of a program with the types that are listed for them. -/
def listings (input : CompilationInput) : List (SourceFile × List TypeSymbol) :=
  (input.declarations.map fun file => (⟨file.1, (declareFile file.2).1.toTree⟩, file.2)) ++
    input.sources.map fun file => (⟨file.1, file.2⟩, [])

private theorem ofInput_eq (input : CompilationInput) :
    ofInput input =
      ((listings input).map fun file => (file.1, (declareFile file.2).2)).foldl
        (addFile input.expressionTypes)
        { assemblyName := input.assemblyName
          types := registerAll [] (input.declarations.flatMap (·.2) ++ input.references) } := by
  have hnone : (declareFile []).2 = [] := rfl
  simp [ofInput, listings, Function.comp_def, hnone]

theorem ofInput_assemblyName (input : CompilationInput) :
    (ofInput input).assemblyName = input.assemblyName := by
  rw [ofInput_eq, addFiles_assemblyName]

theorem ofInput_files (input : CompilationInput) :
    (ofInput input).files = (listings input).map (·.1) := by
  rw [ofInput_eq, addFiles_files, List.nil_append, List.map_map]
  rfl

/-- What the nodes of a file are bound to is decided by the types that are listed for it. -/
theorem ofInput_symbolAt? {input : CompilationInput} {number : Nat} {file : SourceFile}
    {types : List TypeSymbol} (h : (listings input)[number]? = some (file, types)) :
    (ofInput input).symbolAt? number =
      (bindDeclared number file.root.descendants (declareFile types).2).find? number := by
  have hfile : ((listings input).map fun file => (file.1, (declareFile file.2).2))[number]? =
      some (file, (declareFile types).2) := by
    rw [List.getElem?_map, h]
    rfl
  funext span
  have hadd := addFiles_symbolAt? input.expressionTypes
    ((listings input).map fun file => (file.1, (declareFile file.2).2))
    { assemblyName := input.assemblyName
      types := registerAll [] (input.declarations.flatMap (·.2) ++ input.references) }
    (by simp) hfile span
  rw [← ofInput_eq, List.length_nil, Nat.zero_add] at hadd
  exact hadd

/-- In each file of a program the declarations of the types that are listed for it are bound. -/
theorem ofInput_binds {input : CompilationInput} {number : Nat} {file : SourceFile}
    {types : List TypeSymbol} (h : (listings input)[number]? = some (file, types)) :
    ∃ entries, Binds file.root ((ofInput input).symbolAt? number) types entries := by
  rw [ofInput_symbolAt? h]
  rcases List.mem_append.mp (List.mem_of_getElem? h) with hd | hs
  · obtain ⟨declared, -, he⟩ := List.mem_map.mp hd
    obtain ⟨rfl, rfl⟩ := Prod.mk.inj he
    obtain ⟨entries, -, -, -, -, hbinds⟩ := bindDeclared_declareFile declared.2 number
    exact ⟨entries, hbinds⟩
  · -- a file that is given as a tree declares nothing, so nothing in it is bound
    obtain ⟨source, -, he⟩ := List.mem_map.mp hs
    obtain ⟨rfl, rfl⟩ := Prod.mk.inj he
    refine ⟨[], ?_, List.nodup_nil, by simp, [], by simp, .nil⟩
    rw [List.filter_eq_nil_iff.mpr]
    · rfl
    · intro site _
      rw [show (declareFile []).2 = [] from rfl, bindDeclared_nil]
      simp [NodeMap.find?]

theorem containingType?_member {compilation : Compilation} {number : Nat} {owner site : Site}
    {type : TypeSymbol} (hk : owner.kind = type.declaredKind)
    (hs : compilation.symbolAt? number owner.span = some (.type type)) {list : Span}
    {outer : List Span} (hl : list.kind = .memberList)
    (he : site.enclosing = list :: owner.span :: outer) :
    compilation.containingType? number site = some type := by
  have ho : owner.span.kind.isTypeDeclaration = true :=
    (congrArg Kind.isTypeDeclaration hk).trans type.declaredKind_isTypeDeclaration
  have hlist : list.kind.isTypeDeclaration = false := by
    rw [hl]
    rfl
  simp [containingType?, he, hlist, ho, hs, Symbol.type?]

private theorem containingType?_top {compilation : Compilation} {number : Nat} {site : Site}
    (h : ∀ span ∈ site.enclosing, span.kind.isTypeDeclaration = false) :
    compilation.containingType? number site = none := by
  rw [containingType?, List.findSome?_eq_none_iff]
  intro span hm
  rw [h span hm]
  rfl

end Compilation

/-- The kind of the declaration of a symbol. -/
def Symbol.declarationKind : Symbol → Kind
  | .type symbol =>
    match symbol.info.kind, symbol.info.isRecord with
    | .enumType, _ => .enumDeclaration
    | .structType, false => .structDeclaration
    | .structType, true => .recordStructDeclaration
    | .interfaceType, _ => .interfaceDeclaration
    | _, true => .recordDeclaration
    | _, false => .classDeclaration
  | .field _ => .fieldDeclaration
  | .property symbol => if symbol.isIndexer then .indexerDeclaration else .propertyDeclaration
  | .method symbol =>
    match symbol.kind with
    | .constructor => .constructorDeclaration
    | .ordinary => .methodDeclaration

/-- The symbol of a member, unless it has no declaration of its own. -/
def MemberSymbol.declared? : MemberSymbol → Option Symbol
  | field symbol => if symbol.isImplicit then none else some (.field symbol)
  | property symbol => some (.property symbol)
  | method symbol => some (.method symbol)

namespace TypeSymbol

/-- The symbols of the members of a type, except for those of an enumeration. -/
def memberSymbols (type : TypeSymbol) : List Symbol :=
  if type.info.kind = .enumType then [] else type.members.filterMap MemberSymbol.declared?

/-- The symbols that are declared with one of the types of a file, each with the type around it. -/
def declaredSymbols (types : List TypeSymbol) (type : TypeSymbol) :
    List (Symbol × Option TypeSymbol) :=
  (.type type, type.containingAmong types) :: type.memberSymbols.map (·, some type)

private theorem declaredKind_eq (type : TypeSymbol) :
    type.declaredKind = (Symbol.type type).declarationKind := by
  cases hk : type.info.kind <;> cases hr : type.info.isRecord <;>
    simp [declaredKind, declarationKeyword, TypeKeyword.kind, Symbol.declarationKind, hk, hr]

/-- The members of a type that have declarations, with the kinds of these. -/
theorem boundMembers_eq (type : TypeSymbol) :
    type.boundMembers = type.memberSymbols.map fun symbol => (symbol.declarationKind, symbol) := by
  have hmember (member : MemberSymbol) : member.bound? =
      member.declared?.map fun symbol => (symbol.declarationKind, symbol) := by
    cases member with
    | field symbol =>
      cases hi : symbol.isImplicit <;>
        simp [MemberSymbol.bound?, MemberSymbol.declared?, Symbol.declarationKind, hi]
    | property symbol => rfl
    | method symbol =>
      cases hk : symbol.kind <;>
        simp [MemberSymbol.bound?, MemberSymbol.declared?, Symbol.declarationKind, hk]
  unfold boundMembers memberSymbols
  split
  · rfl
  · rw [List.map_filterMap]
    exact List.filterMap_congr fun member _ => hmember member

end TypeSymbol

namespace Compilation

/-- The declarations of some types and the types that they are found in. -/
private theorem nesting_containing {compilation : Compilation} {number : Nat}
    {listed types : List TypeSymbol} {outer : Option TypeSymbol} {enclosing : List Span}
    {entries : List Entry} (hl : Listable listed)
    (h : Nesting listed outer enclosing entries types) (ht : ∀ type ∈ types, type ∈ listed)
    (ho : ∀ type ∈ outer, type ∈ listed)
    (hs : ∀ entry ∈ entries, compilation.symbolAt? number entry.1.span = some entry.2)
    (hc : ∀ site : Site, site.enclosing = enclosing →
      compilation.containingType? number site = outer) :
    (entries.map fun entry =>
      (entry.1.kind, entry.2, compilation.containingType? number entry.1)) =
      (types.flatMap (TypeSymbol.declaredSymbols listed)).map fun declared =>
        (declared.1.declarationKind, declared.1, declared.2) := by
  -- what stands directly in a node is found in `outer`; for what stands in a type, that is the type
  induction h with
  | nil => rfl
  | @cons outer owner type list members inner rest inside types lies kind _ list_kind bound
      enclosing _ _ hinner hrest =>
    have htype := ht type (by simp)
    have howner := hs (owner, .type type) (by simp)
    have haround {site : Site} (he : site.enclosing = list :: owner.span :: owner.enclosing) :
        compilation.containingType? number site = some type :=
      containingType?_member kind howner list_kind he
    have hfirst : (owner.kind, Symbol.type type, compilation.containingType? number owner) =
        ((Symbol.type type).declarationKind, .type type, type.containingAmong listed) := by
      rw [kind, type.declaredKind_eq, hc owner rfl, hl.containingAmong_of_liesIn htype ho lies]
    have hmembers : (members.map fun entry =>
        (entry.1.kind, entry.2, compilation.containingType? number entry.1)) =
          type.boundMembers.map fun bound => (bound.1, bound.2, some type) := by
      rw [← bound, List.map_map]
      exact List.map_congr_left fun entry hm => by simp [haround (enclosing entry hm)]
    have hinner := hinner (fun type hm => ht type (by simp [hm])) (by simpa using htype)
      (fun entry hm => hs entry (by simp [hm])) fun site he => haround he
    have hrest := hrest (fun type hm => ht type (by simp [hm])) ho
      (fun entry hm => hs entry (by simp [hm])) hc
    rw [List.map_append, List.map_append, List.map_cons, hfirst, hmembers, hinner, hrest,
      List.flatMap_append, List.flatMap_cons, TypeSymbol.declaredSymbols, type.boundMembers_eq]
    simp [Function.comp_def]

/-- The nodes of a file that have symbols are the declarations of the types that are listed for it
and of their members, each of them once. Such a node has the kind of its symbol, and the type around
it is the one that the symbol is declared in, if that is listed for the file too. -/
theorem ofInput_bound {input : CompilationInput} {number : Nat} {path : String}
    {types : List TypeSymbol}
    (hf : (input.declarations ++ input.sources.map fun source => (source.1, []))[number]? =
      some (path, types))
    (h : Listable types) :
    ∃ root, (ofInput input).files[number]? = some ⟨path, root⟩ ∧
      ((root.descendants.filter fun site =>
        ((ofInput input).symbolAt? number site.span).isSome).map (·.span)).Nodup ∧
      (root.descendants.filterMap fun site =>
        ((ofInput input).symbolAt? number site.span).map fun symbol =>
          (site.kind, symbol, (ofInput input).containingType? number site)).Perm
        ((types.flatMap (TypeSymbol.declaredSymbols types)).map fun declared =>
          (declared.1.declarationKind, declared.1, declared.2)) := by
  obtain ⟨root, hroot⟩ : ∃ root, (listings input)[number]? = some (⟨path, root⟩, types) := by
    have hlistings : (listings input).map (fun listing => (listing.1.path, listing.2)) =
        input.declarations ++ input.sources.map fun source => (source.1, []) := by
      simp [listings, Function.comp_def]
    rw [← hlistings, List.getElem?_map, Option.map_eq_some_iff] at hf
    obtain ⟨⟨⟨found, root⟩, listed⟩, hl, he⟩ := hf
    obtain ⟨rfl, rfl⟩ := Prod.mk.inj he
    exact ⟨root, hl⟩
  obtain ⟨entries, hbinds⟩ := ofInput_binds hroot
  obtain ⟨enclosing, htop, hnesting⟩ := hbinds.nesting
  refine ⟨root, ?_, ?_, ?_⟩
  · rw [ofInput_files, List.getElem?_map, hroot]
    rfl
  · rw [hbinds.sites, List.map_map]
    exact hbinds.spans
  · have hentries := nesting_containing h hnesting (fun type hm => declaredTypes_subset hm)
      (by simp) hbinds.symbols fun site he => containingType?_top (he ▸ htop)
    have hperm := ((h.declaredTypes_listed.flatMap_right (TypeSymbol.declaredSymbols types)).map
      fun declared => (declared.1.declarationKind, declared.1, declared.2))
    refine List.Perm.trans (List.Perm.of_eq ?_) hperm
    have hsites : entries.map (fun entry =>
        (entry.1.kind, entry.2, (ofInput input).containingType? number entry.1)) =
          (entries.map (·.1)).filterMap fun site =>
            ((ofInput input).symbolAt? number site.span).map fun symbol =>
              (site.kind, symbol, (ofInput input).containingType? number site) := by
      rw [List.filterMap_map, ← List.filterMap_eq_map']
      exact List.filterMap_congr fun entry hm => by simp [hbinds.symbols entry hm]
    rw [← hentries, hsites, ← hbinds.sites, List.filterMap_filter]
    refine List.filterMap_congr fun site _ => ?_
    cases (ofInput input).symbolAt? number site.span <;> rfl

/-- A class with a field and a structure in it, and an enumeration. -/
theorem ofInput_bound_page :
    let numbered (number : Nat) (type : TypeSymbol) : TypeSymbol :=
      { type with info := { type.info with identity := some number } }
    let count : FieldSymbol := .named "count" (.special .int32)
    let title : PropertySymbol := .named "Title" (.special .string)
    let page := numbered 0 { TypeSymbol.named .classType "App" "Page" with
      members := [.field count] }
    let place := numbered 1 { TypeSymbol.named .structType "App" "Place" with
      containing := some page
      members := [.property title] }
    let color := numbered 2 { TypeSymbol.named .enumType "App" "Color" with
      members := [.field (.enumMember "Red" 0 [])] }
    let program := ofInput
      { assemblyName := "App", declarations := [("A.cs", [place, page, color])] }
    ∃ root, program.files[0]? = some ⟨"A.cs", root⟩ ∧
      (root.descendants.filterMap fun site =>
        (program.symbolAt? 0 site.span).map fun symbol =>
          (site.kind, symbol, program.containingType? 0 site)).Perm
        [(.structDeclaration, .type place, some page),
          (.propertyDeclaration, .property title, some place),
          (.classDeclaration, .type page, none), (.fieldDeclaration, .field count, some page),
          (.enumDeclaration, .type color, none)] := by
  intro numbered count title page place color program
  have hplace : place.nestedAmong [place, page, color] = [] := rfl
  have hpage : page.nestedAmong [place, page, color] = [place] := rfl
  have hcolor : color.nestedAmong [place, page, color] = [] := rfl
  have hclass : page.info.kind ≠ .enumType := by decide
  have hlistable : Listable [place, page, color] := by
    refine ⟨by simp [TypeSymbol.isSame, numbered, place, page, color], ?_, ?_⟩
    · simp [hplace, hpage, hcolor, place, numbered]
    · exact List.forall_mem_cons.mpr ⟨fun _ => hplace, List.forall_mem_cons.mpr
        ⟨fun hk => absurd hk hclass, List.forall_mem_singleton.mpr fun _ => hcolor⟩⟩
  obtain ⟨root, hfile, -, hperm⟩ := @ofInput_bound
    { assemblyName := "App", declarations := [("A.cs", [place, page, color])] } 0 "A.cs"
    [place, page, color] rfl hlistable
  exact ⟨root, hfile, hperm⟩

end Compilation

end SourceGen
