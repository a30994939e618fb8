import SourceGen.Compilation.Declaration
import SourceGen.Proofs.Syntax.Outline
import Mathlib.Data.List.Nodup

/-! The declarations of a file that is written for some types: each type, behind it its members, and
behind these the types inside of it. -/

namespace SourceGen

/-- The kind of the declaration of a member with its symbol; some fields have none. -/
def MemberSymbol.bound? : MemberSymbol → Option (Kind × Symbol)
  | field symbol => if symbol.isImplicit then none else some (.fieldDeclaration, .field symbol)
  | property symbol =>
    some (if symbol.isIndexer then .indexerDeclaration else .propertyDeclaration, .property symbol)
  | method symbol =>
    match symbol.kind with
    | .constructor => some (.constructorDeclaration, .method symbol)
    | .ordinary => some (.methodDeclaration, .method symbol)

namespace TypeSymbol

/-- The kinds of the declarations inside of a type, with their symbols. -/
def boundMembers (type : TypeSymbol) : List (Kind × Symbol) :=
  if type.info.kind = .enumType then [] else type.members.filterMap MemberSymbol.bound?

theorem bound_of_member {type : TypeSymbol} {bound : Kind × Symbol}
    (h : bound ∈ type.boundMembers) :
    bound.1.isTypeDeclaration = false ∧ bound.2.type? = none := by
  unfold boundMembers at h
  split at h
  · simp at h
  · obtain ⟨member, -, hb⟩ := List.mem_filterMap.mp h
    cases member with
    | field symbol =>
      simp only [MemberSymbol.bound?] at hb
      split at hb
      · simp at hb
      · obtain rfl := Option.some.inj hb
        exact ⟨rfl, rfl⟩
    | property symbol =>
      obtain rfl := Option.some.inj hb
      exact ⟨by cases symbol.isIndexer <;> rfl, rfl⟩
    | method symbol =>
      simp only [MemberSymbol.bound?] at hb
      split at hb <;> obtain rfl := Option.some.inj hb <;> exact ⟨rfl, rfl⟩

/-- The kind of the declaration of a type. -/
def declaredKind (type : TypeSymbol) : Kind :=
  if type.info.kind = .enumType then .enumDeclaration else type.declarationKeyword.kind

/-- Whether base types are written in the declaration of a type. -/
def writesBases (type : TypeSymbol) : Bool :=
  type.info.kind != .enumType && !type.declarationBases.isEmpty

/-- A type and the given types inside of it, to a depth, in the order of their declarations. -/
def within (types : List TypeSymbol) : Nat → TypeSymbol → List TypeSymbol
  | depth, type =>
    type ::
      if type.info.kind = .enumType then []
      else
        match depth with
        | 0 => []
        | depth + 1 => (type.nestedAmong types).flatMap (within types depth)

end TypeSymbol

/-- A declaration of a file, and the symbol that it is for. -/
abbrev Entry := Site × Symbol

/-- Whether a type lies in another one, or else at the top of a file for the given types. -/
def TypeSymbol.LiesIn (types : List TypeSymbol) (type : TypeSymbol) : Option TypeSymbol → Prop
  | none => type.isTopAmong types = true
  | some outer => type.containing.any (·.isSame outer) = true

/-- Whether declarations inside of some nodes are those of types that lie in another one or at the
top of a file. Behind each type there are its members, and behind these the types inside of it. -/
inductive Nesting (listed : List TypeSymbol) :
    Option TypeSymbol → List Span → List Entry → List TypeSymbol → Prop
  | nil {outer : Option TypeSymbol} {enclosing : List Span} : Nesting listed outer enclosing [] []
  | cons {outer : Option TypeSymbol} {owner : Site} {type : TypeSymbol} {list : Span}
      {members inner rest : List Entry} {inside types : List TypeSymbol}
      (lies : type.LiesIn listed outer) (kind : owner.kind = type.declaredKind)
      (bases : owner.hasBaseList = type.writesBases) (list_kind : list.kind = .memberList)
      (bound : (members.map fun entry => (entry.1.kind, entry.2)) = type.boundMembers)
      (enclosing : ∀ entry ∈ members, entry.1.enclosing = list :: owner.span :: owner.enclosing)
      (nested : Nesting listed (some type) (list :: owner.span :: owner.enclosing) inner inside)
      (others : Nesting listed outer owner.enclosing rest types) :
    Nesting listed outer owner.enclosing ((owner, .type type) :: members ++ (inner ++ rest))
      (type :: inside ++ types)

theorem Nesting.append {listed : List TypeSymbol} {outer : Option TypeSymbol}
    {enclosing : List Span} {entries more : List Entry} {types others : List TypeSymbol}
    (h : Nesting listed outer enclosing entries types)
    (ho : Nesting listed outer enclosing more others) :
    Nesting listed outer enclosing (entries ++ more) (types ++ others) := by
  induction h with
  | nil => exact ho
  | cons lies kind bases list_kind bound enclosing nested _ _ ih =>
    rw [List.append_assoc, List.append_assoc, List.append_assoc]
    exact .cons lies kind bases list_kind bound enclosing nested (ih ho)

/-- Whether the declarations in trees are named as declared places, and are for their symbols. -/
structure Declares (enclosing : List Span) (start : Nat) (trees : List Tree) (declared : Declared)
    (entries : List Entry) : Prop where
  sites : Tree.declarationsOf enclosing start trees = entries.map (·.1)
  places : (entries.map fun entry => (entry.1.anchor, entry.2)) =
    declared.map fun place => (some (Anchor.declaration place.1), place.2)

namespace Declares

variable {enclosing : List Span} {start : Nat}

theorem nil : Declares enclosing start [] [] [] :=
  ⟨rfl, rfl⟩

theorem append {trees others : List Tree} {declared more : Declared}
    {entries further : List Entry} (h : Declares enclosing start trees declared entries)
    (ho : Declares enclosing (start + Tree.lengthOf trees) others more further) :
    Declares enclosing start (trees ++ others) (declared ++ more) (entries ++ further) := by
  refine ⟨?_, ?_⟩
  · rw [Tree.declarationsOf_append, h.sites, ho.sites, List.map_append]
  · rw [List.map_append, List.map_append, h.places, ho.places]

end Declares

/-- The declaration of a member has its place as a name and declares nothing else. -/
private theorem declare?_eq (place : DeclarationPath) (owner : String) (member : MemberSymbol) :
    (member.declare? place owner = none ∧ member.bound? = none) ∨
    ∃ written symbol, member.declare? place owner = some (written, symbol) ∧
      member.bound? = some (written.declaration.kind, symbol) ∧
      written.header.anchor = some (.declaration place) ∧ written.declaration.back = [] := by
  cases member with
  | field symbol =>
    by_cases h : symbol.isImplicit = true
    · exact .inl ⟨by simp [MemberSymbol.declare?, h], by simp [MemberSymbol.bound?, h]⟩
    · refine .inr ⟨symbol.toMember place, .field symbol, ?_, ?_, rfl, rfl⟩
      · simp [MemberSymbol.declare?, h]
      · simp [MemberSymbol.bound?, h]
        rfl
  | property symbol =>
    refine .inr ⟨symbol.toMember place, .property symbol, rfl, ?_, rfl, ?_⟩
    · by_cases h : symbol.isIndexer = true <;>
        simp [MemberSymbol.bound?, PropertySymbol.toMember, Member.declaration, Declaration.kind, h]
    · by_cases h : symbol.isIndexer = true <;>
        simp [PropertySymbol.toMember, Member.declaration, Declaration.back, h]
  | method symbol =>
    refine .inr ⟨symbol.toMember place owner, .method symbol, rfl, ?_, rfl, ?_⟩
    · cases h : symbol.kind <;>
        simp [MemberSymbol.bound?, MethodSymbol.toMember, Member.declaration, Declaration.kind, h]
    · cases h : symbol.kind <;>
        simp [MethodSymbol.toMember, Member.declaration, Declaration.back, h]

/-- The tree of a member that declares nothing else. -/
private theorem declares_one (written : Member) (symbol : Symbol) {place : DeclarationPath}
    (ha : written.header.anchor = some (.declaration place))
    (hb : written.declaration.back = []) (enclosing : List Span) (start : Nat) :
    ∃ site : Site, site.kind = written.declaration.kind ∧ site.enclosing = enclosing ∧
      site.children = written.header.trees ++ written.declaration.trees ∧
      Declares enclosing start [written.toTree] [(place, symbol)] [(site, symbol)] := by
  obtain ⟨header, declaration⟩ := written
  have h := Member.declarations_eq header declaration enclosing start
  rw [show declaration.back = [] from hb] at h
  let children := header.trees ++ declaration.trees
  let span : Span := ⟨declaration.kind, start, start + Tree.lengthOf children⟩
  refine ⟨⟨span, header.anchor, children, enclosing⟩, rfl, rfl, rfl, ?_, ?_⟩
  · rw [Tree.declarationsOf_cons, h]
    rfl
  · rw [show header.anchor = _ from ha]
    rfl

/-- The declarations of members one after the other. -/
private theorem declares_members (place : DeclarationPath) (owner : String)
    (members : List MemberSymbol) (first : Nat) (enclosing : List Span) (start : Nat) :
    let parts := (members.zipIdx first).filterMap fun (member, index) =>
      (member.declare? (index :: place) owner).map fun (written, symbol) =>
        (written, [(index :: place, symbol)])
    ∃ entries, Declares enclosing start (memberTrees (parts.map (·.1)))
        (parts.flatMap (·.2)) entries ∧
      (entries.map fun entry => (entry.1.kind, entry.2)) =
        members.filterMap MemberSymbol.bound? ∧
      ∀ entry ∈ entries, entry.1.enclosing = enclosing := by
  induction members generalizing first start with
  | nil => exact ⟨[], .nil, rfl, by simp⟩
  | cons member rest ih =>
    rcases declare?_eq (first :: place) owner member with
      ⟨hd, hb⟩ | ⟨written, symbol, hd, hb, ha, hback⟩
    · simpa [List.zipIdx_cons, hd, hb] using ih (first + 1) start
    · obtain ⟨site, hk, he, -, hone⟩ := declares_one written symbol ha hback enclosing start
      obtain ⟨entries, hrest, hbound, hin⟩ :=
        ih (first + 1) (start + Tree.lengthOf [written.toTree])
      refine ⟨(site, symbol) :: entries, ?_, ?_, ?_⟩
      · simpa [List.zipIdx_cons, hd, memberTrees] using hone.append hrest
      · simp [hb, hk, hbound]
      · simpa [he] using hin

/-- The declarations of several types one after the other, if those of each one are known. -/
private theorem declares_types (declare : Nat → TypeSymbol → Member × Declared)
    {within : TypeSymbol → List TypeSymbol} {listed types : List TypeSymbol}
    {outer : Option TypeSymbol} {enclosing : List Span}
    (hone : ∀ index, ∀ type ∈ types, ∀ start, ∃ entries,
      Declares enclosing start [(declare index type).1.toTree] (declare index type).2 entries ∧
        Nesting listed outer enclosing entries (within type))
    (first start : Nat) :
    let parts := (types.zipIdx first).map fun (type, index) => declare index type
    ∃ entries, Declares enclosing start (memberTrees (parts.map (·.1)))
        (parts.flatMap (·.2)) entries ∧
      Nesting listed outer enclosing entries (types.flatMap within) := by
  induction types generalizing first start with
  | nil => exact ⟨[], .nil, .nil⟩
  | cons type rest ih =>
    obtain ⟨entries, hd, hn⟩ := hone first type (List.mem_cons_self ..) start
    obtain ⟨others, hrest, hnesting⟩ :=
      ih (fun index type hm => hone index type (List.mem_cons_of_mem _ hm)) (first + 1)
        (start + Tree.lengthOf [(declare first type).1.toTree])
    refine ⟨entries ++ others, ?_, ?_⟩
    · simpa [List.zipIdx_cons, memberTrees] using hd.append hrest
    · simpa using hn.append hnesting

private theorem not_base_header (header : Header) :
    (header.trees.any fun child => child.isNode && child.kind == .baseList) = false := by
  have ht : (header.trivia.trees.any fun child => child.isNode && child.kind == .baseList) =
      false := by
    unfold Trivia.trees
    split <;> rfl
  have ha : ((header.attributes.map AttributeGroup.toTree).any fun child =>
      child.isNode && child.kind == .baseList) = false := by
    simp [AttributeGroup.toTree, Tree.plain, Tree.kind]
  rw [Header.trees, List.any_append, List.any_append, ht, ha]
  rfl

private theorem hasBases_type (header : Header) (keyword : TypeKeyword) (name : String)
    (typeParameters : List String) (bases : List TypeExpr) (members : List Member) :
    ((header.trees ++ (Declaration.type keyword name typeParameters bases members).trees).any
      fun child => child.isNode && child.kind == .baseList) = !bases.isEmpty := by
  have hw : ((keyword.words.map Tree.keyword).any fun child =>
      child.isNode && child.kind == .baseList) = false := by
    cases keyword <;> rfl
  have hp : ((typeParameterTrees typeParameters).any fun child =>
      child.isNode && child.kind == .baseList) = false := by
    unfold typeParameterTrees
    split <;> rfl
  have hb : ((baseTrees bases).any fun child => child.isNode && child.kind == .baseList) =
      !bases.isEmpty := by
    cases bases <;> rfl
  rw [List.any_append, not_base_header, Declaration.trees, List.any_append, List.any_append,
    List.cons_append, List.any_append, List.any_cons, hw, hp, hb]
  simp [Tree.ident, Tree.isNode, Tree.plain, Tree.kind]

namespace TypeSymbol

/-- What is declared inside of a type, apart from its members, at a depth. -/
private def declareNested (types : List TypeSymbol) (place : DeclarationPath) (type : TypeSymbol) :
    Nat → List (Member × Declared)
  | 0 => []
  | depth + 1 =>
    (type.nestedAmong types).zipIdx.map fun (inner, index) =>
      declareWithin types depth ((type.members.length + index) :: place) inner

private theorem declareWithin_enumeration {types : List TypeSymbol} {outer : Option TypeSymbol}
    {type : TypeSymbol} (hl : type.LiesIn types outer) (h : type.info.kind = .enumType)
    (depth : Nat) (place : DeclarationPath) (enclosing : List Span) (start : Nat) :
    ∃ entries,
      Declares enclosing start [(type.declareWithin types depth place).1.toTree]
        (type.declareWithin types depth place).2 entries ∧
      Nesting types outer enclosing entries (type.within types depth) := by
  let written : Member :=
    .declare (declarationHeader place type.attributes type.declarationModifiers)
      (.enumeration type.info.name
        ((type.fields.filter (·.isConstant)).map FieldSymbol.toEnumMember))
  have hd : type.declareWithin types depth place = (written, [(place, .type type)]) := by
    cases depth <;> simp [declareWithin, h, written]
  have hw : type.within types depth = [type] := by
    cases depth <;> simp [within, h]
  obtain ⟨site, hk, he, hc, hone⟩ := declares_one written (.type type) rfl rfl enclosing start
  have hbases : site.hasBaseList = false := by
    simp only [Site.hasBaseList, hc, List.any_append, written, Member.header, not_base_header]
    simp [Member.declaration, Declaration.trees, Tree.keyword, Tree.ident, Tree.isNode, Tree.plain,
      Tree.kind]
  have hkind : site.kind = type.declaredKind := by
    simp [hk, declaredKind, h, written, Member.declaration, Declaration.kind]
  have hwrites : site.hasBaseList = type.writesBases := by simp [hbases, writesBases, h]
  -- nothing is bound in the list of the members, so it does not matter where that is
  let list : Span := ⟨.memberList, site.span.start, site.span.stop⟩
  subst he
  rw [hd, hw]
  exact ⟨[(site, .type type)], hone,
    Nesting.cons hl hkind hwrites (show list.kind = .memberList from rfl)
      (show [].map _ = _ by simp [boundMembers, h]) (by simp) .nil .nil⟩

theorem declaredKind_isTypeDeclaration (type : TypeSymbol) :
    type.declaredKind.isTypeDeclaration = true := by
  unfold declaredKind
  split
  · rfl
  · cases type.declarationKeyword <;> rfl

private theorem declareWithin_type {types : List TypeSymbol} {outer : Option TypeSymbol}
    {type : TypeSymbol} (hl : type.LiesIn types outer) (h : type.info.kind ≠ .enumType)
    {depth : Nat} {place : DeclarationPath} {inner : List TypeSymbol}
    (hw : type.within types depth = type :: inner)
    (hnested : ∀ enclosing start, ∃ entries,
      Declares enclosing start (memberTrees ((declareNested types place type depth).map (·.1)))
        ((declareNested types place type depth).flatMap (·.2)) entries ∧
      Nesting types (some type) enclosing entries inner)
    (enclosing : List Span) (start : Nat) :
    ∃ entries,
      Declares enclosing start [(type.declareWithin types depth place).1.toTree]
        (type.declareWithin types depth place).2 entries ∧
      Nesting types outer enclosing entries (type.within types depth) := by
  let header := declarationHeader place type.attributes type.declarationModifiers
  let parts := type.declareMembers place ++ declareNested types place type depth
  let declaration : Declaration :=
    .type type.declarationKeyword type.info.name type.info.parameters type.declarationBases
      (parts.map (·.1))
  have hd : type.declareWithin types depth place =
      (.declare header declaration, (place, .type type) :: parts.flatMap (·.2)) := by
    cases depth <;> simp [declareWithin, h, header, declaration, parts, declareNested]
  let children := header.trees ++ declaration.trees
  let span : Span := ⟨declaration.kind, start, start + Tree.lengthOf children⟩
  let owner : Site := ⟨span, header.anchor, children, enclosing⟩
  obtain ⟨list, first, hlist, hback⟩ := Member.declarationsOf_back type.declarationKeyword
    type.info.name type.info.parameters type.declarationBases (parts.map (·.1)) (span :: enclosing)
    (start + Tree.lengthOf (header.trees ++ declaration.front))
  obtain ⟨members, hmembers, hbound, hin⟩ := declares_members place type.info.name type.members 0
    (list :: span :: enclosing) first
  obtain ⟨entries, hentries, hnesting⟩ := hnested (list :: span :: enclosing)
    (first + Tree.lengthOf (memberTrees ((type.declareMembers place).map (·.1))))
  have hall := hmembers.append hentries
  have hparts : memberTrees (parts.map (·.1)) =
      memberTrees ((type.declareMembers place).map (·.1)) ++
        memberTrees ((declareNested types place type depth).map (·.1)) := by
    simp [parts, memberTrees_eq]
  rw [hd, hw]
  refine ⟨(owner, .type type) :: members ++ entries, ⟨?_, ?_⟩, ?_⟩
  · rw [Tree.declarationsOf_cons, Member.declarations_eq, hback, hparts]
    refine (List.append_nil _).trans ?_
    rw [List.cons_append, List.map_cons]
    exact congrArg (owner :: ·) hall.sites
  · rw [List.cons_append, List.map_cons, List.map_cons, List.flatMap_append]
    exact congrArg _ hall.places
  · have hkind : owner.kind = type.declaredKind := by
      simp only [declaredKind, if_neg h]
      rfl
    have hbases : owner.hasBaseList = type.writesBases := by
      have hk : owner.kind.isTypeDeclaration = true :=
        (congrArg Kind.isTypeDeclaration hkind).trans type.declaredKind_isTypeDeclaration
      have hc : (owner.children.any fun child => child.isNode && child.kind == .baseList) =
          !type.declarationBases.isEmpty :=
        hasBases_type header type.declarationKeyword type.info.name type.info.parameters
          type.declarationBases (parts.map (·.1))
      rw [Site.hasBaseList, hk, hc, writesBases]
      simp [h]
    have hmembers : (members.map fun entry => (entry.1.kind, entry.2)) = type.boundMembers := by
      rw [hbound, boundMembers, if_neg h]
    simpa using Nesting.cons hl hkind hbases hlist hmembers hin hnesting .nil

/-- The declarations of a type and of what it contains. -/
theorem declareWithin_declares {types : List TypeSymbol} (depth : Nat) (place : DeclarationPath)
    {outer : Option TypeSymbol} {type : TypeSymbol} (hl : type.LiesIn types outer)
    (enclosing : List Span) (start : Nat) :
    ∃ entries,
      Declares enclosing start [(type.declareWithin types depth place).1.toTree]
        (type.declareWithin types depth place).2 entries ∧
      Nesting types outer enclosing entries (type.within types depth) := by
  induction depth generalizing place outer type enclosing start with
  | zero =>
    by_cases h : type.info.kind = .enumType
    · exact declareWithin_enumeration hl h 0 place enclosing start
    · have hw : type.within types 0 = [type] := by simp [within, h]
      exact declareWithin_type hl h hw (fun enclosing start => ⟨[], .nil, .nil⟩) enclosing start
  | succ depth ih =>
    by_cases h : type.info.kind = .enumType
    · exact declareWithin_enumeration hl h (depth + 1) place enclosing start
    · have hw : type.within types (depth + 1) =
          type :: (type.nestedAmong types).flatMap (within types depth) := by
        simp [within, h]
      refine declareWithin_type hl h hw (fun enclosing start => ?_) enclosing start
      have hlies : ∀ inner ∈ type.nestedAmong types, inner.LiesIn types (some type) :=
        fun inner hm => (List.mem_filter.mp hm).2
      exact declares_types (fun index inner =>
        declareWithin types depth ((type.members.length + index) :: place) inner)
        (fun index inner hm => ih _ (hlies inner hm) enclosing) 0 start

end TypeSymbol

/-- Whether places are different ones that lie below a place, in numbers of some range. -/
structure PlacedBelow (place : DeclarationPath) (first last : Nat) (places : List DeclarationPath) :
    Prop where
  nodup : places.Nodup
  below : ∀ found ∈ places, ∃ number, first ≤ number ∧ number < last ∧ (number :: place) <:+ found

namespace PlacedBelow

variable {place : DeclarationPath} {first middle last : Nat} {places others : List DeclarationPath}

private theorem number_unique {number other : Nat} {found : DeclarationPath}
    (h : (number :: place) <:+ found) (ho : (other :: place) <:+ found) : number = other := by
  have hs := List.suffix_of_suffix_length_le h ho (by simp)
  exact (List.cons.inj (hs.eq_of_length (by simp))).1

theorem append (h : PlacedBelow place first middle places)
    (ho : PlacedBelow place middle last others) (hl : first ≤ middle) (hr : middle ≤ last) :
    PlacedBelow place first last (places ++ others) := by
  refine ⟨List.nodup_append'.mpr ⟨h.nodup, ho.nodup, ?_⟩, ?_⟩
  · intro found hf hf'
    obtain ⟨number, -, hlt, hs⟩ := h.below found hf
    obtain ⟨other, hle, -, hs'⟩ := ho.below found hf'
    have := number_unique hs hs'
    omega
  · intro found hf
    rcases List.mem_append.mp hf with hf | hf
    · obtain ⟨number, hle, hlt, hs⟩ := h.below found hf
      exact ⟨number, hle, by omega, hs⟩
    · obtain ⟨number, hle, hlt, hs⟩ := ho.below found hf
      exact ⟨number, by omega, hlt, hs⟩

theorem empty (place : DeclarationPath) (first last : Nat) : PlacedBelow place first last [] :=
  ⟨List.nodup_nil, by simp⟩

theorem one (place : DeclarationPath) (number : Nat) (h : places.Nodup)
    (hs : ∀ found ∈ places, (number :: place) <:+ found) :
    PlacedBelow place number (number + 1) places :=
  ⟨h, fun found hf => ⟨number, Nat.le_refl _, Nat.lt_succ_self _, hs found hf⟩⟩

end PlacedBelow

private theorem placed_members (place : DeclarationPath) (owner : String)
    (members : List MemberSymbol) (first : Nat) :
    PlacedBelow place first (first + members.length)
      ((((members.zipIdx first).filterMap fun (member, index) =>
        (member.declare? (index :: place) owner).map fun (written, symbol) =>
          (written, [(index :: place, symbol)])).flatMap (·.2)).map (·.1)) := by
  induction members generalizing first with
  | nil => exact .empty place first _
  | cons member rest ih =>
    have hrest := ih (first + 1)
    rw [show first + 1 + rest.length = first + (rest.length + 1) by omega] at hrest
    cases hd : member.declare? (first :: place) owner with
    | none =>
      have h := (PlacedBelow.empty place first (first + 1)).append hrest (by omega) (by omega)
      simpa [List.zipIdx_cons, hd] using h
    | some written =>
      have hone : PlacedBelow place first (first + 1) [first :: place] :=
        .one place first (List.nodup_singleton _) (by simp)
      have h := hone.append hrest (by omega) (by omega)
      simpa [List.zipIdx_cons, hd] using h

private theorem placed_types (place : DeclarationPath) (base : Nat)
    (declare : Nat → TypeSymbol → Member × Declared)
    (hone : ∀ index type, ((declare index type).2.map (·.1)).Nodup ∧
      ∀ found ∈ (declare index type).2.map (·.1), ((base + index) :: place) <:+ found)
    (types : List TypeSymbol) (first : Nat) :
    PlacedBelow place (base + first) (base + first + types.length)
      ((((types.zipIdx first).map fun (type, index) => declare index type).flatMap (·.2)).map
        (·.1)) := by
  induction types generalizing first with
  | nil => exact .empty place _ _
  | cons type rest ih =>
    have hrest := ih (first + 1)
    rw [show base + (first + 1) + rest.length = base + first + (rest.length + 1) by omega] at hrest
    obtain ⟨hn, hs⟩ := hone first type
    have h := (PlacedBelow.one place (base + first) hn hs).append hrest (by omega) (by omega)
    simpa [List.zipIdx_cons] using h

namespace TypeSymbol

private theorem placed_nested (types : List TypeSymbol) (place : DeclarationPath)
    (type : TypeSymbol) (depth : Nat)
    (hone : ∀ depth', depth' < depth → ∀ place inner,
      ((declareWithin types depth' place inner).2.map (·.1)).Nodup ∧
        ∀ found ∈ (declareWithin types depth' place inner).2.map (·.1), place <:+ found) :
    ∃ last, type.members.length ≤ last ∧ PlacedBelow place type.members.length last
      (((declareNested types place type depth).flatMap (·.2)).map (·.1)) := by
  cases depth with
  | zero => exact ⟨type.members.length, Nat.le_refl _, .empty _ _ _⟩
  | succ depth =>
    exact ⟨_, Nat.le_add_right _ _, placed_types place type.members.length
      (fun index inner => declareWithin types depth ((type.members.length + index) :: place) inner)
      (fun index inner => hone depth (Nat.lt_succ_self _) _ inner) (type.nestedAmong types) 0⟩

/-- The declarations of a type and of what it contains have different places, at and below that of
the type. -/
theorem declareWithin_places (types : List TypeSymbol) (depth : Nat) (place : DeclarationPath)
    (type : TypeSymbol) :
    ((type.declareWithin types depth place).2.map (·.1)).Nodup ∧
      ∀ found ∈ (type.declareWithin types depth place).2.map (·.1), place <:+ found := by
  induction depth using Nat.strongRecOn generalizing place type with
  | ind depth ih =>
    by_cases h : type.info.kind = .enumType
    · have hd : (type.declareWithin types depth place).2 = [(place, .type type)] := by
        cases depth <;> simp [declareWithin, h]
      simp [hd]
    · have hd : (type.declareWithin types depth place).2 =
          (place, .type type) ::
            (type.declareMembers place ++ declareNested types place type depth).flatMap (·.2) := by
        cases depth <;> simp [declareWithin, h, declareNested]
      obtain ⟨last, hle, hnested⟩ := placed_nested types place type depth ih
      have hmembers := placed_members place type.info.name type.members 0
      rw [Nat.zero_add] at hmembers
      obtain ⟨hnodup, hbelow⟩ := hmembers.append hnested (Nat.zero_le _) hle
      have hinside : ∀ found ∈ ((type.declareMembers place ++
          declareNested types place type depth).flatMap (·.2)).map (·.1),
          ∃ number, (number :: place) <:+ found := by
        rw [List.flatMap_append, List.map_append]
        exact fun found hf => (hbelow found hf).imp fun _ h => h.2.2
      rw [hd, List.map_cons]
      refine ⟨List.nodup_cons.mpr ⟨fun hm => ?_, ?_⟩, ?_⟩
      · obtain ⟨number, hs⟩ := hinside place hm
        have := hs.length_le
        rw [List.length_cons] at this
        omega
      · rw [List.flatMap_append, List.map_append]
        exact hnodup
      · intro found hf
        rcases List.mem_cons.mp hf with rfl | hf
        · exact List.suffix_refl _
        · obtain ⟨number, hs⟩ := hinside found hf
          exact (List.suffix_cons number place).trans hs

end TypeSymbol

/-- The types that a file for some types declares, in the order of their declarations. -/
def declaredTypes (types : List TypeSymbol) : List TypeSymbol :=
  (types.filter (·.isTopAmong types)).flatMap (TypeSymbol.within types types.length)

/-- The declarations of a file are those of its types, and have places of their own. -/
theorem declareFile_declares (types : List TypeSymbol) (enclosing : List Span) (start : Nat) :
    ∃ entries,
      Declares enclosing start (memberTrees (declareFile types).1.members) (declareFile types).2
        entries ∧
      Nesting types none enclosing entries (declaredTypes types) ∧
      ((declareFile types).2.map (·.1)).Nodup := by
  let top := types.filter (·.isTopAmong types)
  have hlies : ∀ type ∈ top, type.LiesIn types none := fun type hm => (List.mem_filter.mp hm).2
  obtain ⟨entries, hd, hn⟩ := declares_types
    (fun index type => type.declareWithin types types.length [index])
    (fun index type hm =>
      TypeSymbol.declareWithin_declares types.length [index] (hlies type hm) enclosing) 0 start
  have hp := placed_types [] 0 (fun index type => type.declareWithin types types.length [index])
    (fun index type => by simpa using type.declareWithin_places types types.length [index]) top 0
  exact ⟨entries, hd, hn, hp.nodup⟩

namespace TypeSymbol

theorem within_subset {types : List TypeSymbol} (depth : Nat) {type found : TypeSymbol}
    (h : found ∈ type.within types depth) : found = type ∨ found ∈ types := by
  induction depth generalizing type with
  | zero => by_cases hk : type.info.kind = .enumType <;> simp_all [within]
  | succ depth ih =>
    by_cases hk : type.info.kind = .enumType
    · exact .inl (by simpa [within, hk] using h)
    · simp only [within, if_neg hk, List.mem_cons, List.mem_flatMap] at h
      rcases h with h | ⟨inner, hi, hf⟩
      · exact .inl h
      · rcases ih hf with rfl | hm
        · exact .inr (List.mem_of_mem_filter hi)
        · exact .inr hm

end TypeSymbol

theorem declaredTypes_subset {types : List TypeSymbol} {type : TypeSymbol}
    (h : type ∈ declaredTypes types) : type ∈ types := by
  obtain ⟨top, ht, hw⟩ := List.mem_flatMap.mp h
  rcases top.within_subset types.length hw with rfl | hm
  · exact List.mem_of_mem_filter ht
  · exact hm

end SourceGen
