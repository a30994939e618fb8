import SourceGen.Proofs.Compilation.Bound

/-! How the declarations of a file are written: a node that has a symbol consists of the declaration
of this symbol. -/

namespace SourceGen

/-- Whether a member is the declaration of a symbol. -/
def Symbol.IsWrittenAs (member : Member) : Symbol → Prop
  | type symbol => ∃ place members enumMembers,
    member = .declare (declarationHeader place symbol.attributes symbol.declarationModifiers)
      (if symbol.info.kind = .enumType then .enumeration symbol.info.name enumMembers
      else .type symbol.declarationKeyword symbol.info.name symbol.info.parameters
        symbol.declarationBases members)
  | field symbol => ∃ place, member = symbol.toMember place
  | property symbol => ∃ place, member = symbol.toMember place
  | method symbol => ∃ place owner, member = symbol.toMember place owner

/-- Whether the declarations in trees are those of the symbols at their places. -/
def Writes (trees : List Tree) (declared : Declared) : Prop :=
  ∀ enclosing start, ∀ site ∈ Tree.declarationsOf enclosing start trees,
    ∃ place symbol member, (place, symbol) ∈ declared ∧
      site.anchor = some (.declaration place) ∧ site.toTree = member.toTree ∧
      symbol.IsWrittenAs member

namespace Writes

theorem nil (declared : Declared) : Writes [] declared :=
  fun _ _ _ hm => nomatch hm

theorem append {trees others : List Tree} {declared more : Declared} (h : Writes trees declared)
    (ho : Writes others more) : Writes (trees ++ others) (declared ++ more) := by
  intro enclosing start site hm
  rw [Tree.declarationsOf_append] at hm
  rcases List.mem_append.mp hm with hm | hm
  · obtain ⟨place, symbol, member, hplace, hwritten⟩ := h enclosing start site hm
    exact ⟨place, symbol, member, List.mem_append_left _ hplace, hwritten⟩
  · obtain ⟨place, symbol, member, hplace, hwritten⟩ := ho enclosing _ site hm
    exact ⟨place, symbol, member, List.mem_append_right _ hplace, hwritten⟩

theorem members {parts : List (Member × Declared)}
    (h : ∀ part ∈ parts, Writes [part.1.toTree] part.2) :
    Writes (memberTrees (parts.map (·.1))) (parts.flatMap (·.2)) := by
  induction parts with
  | nil => exact nil _
  | cons part parts ih =>
    obtain ⟨hpart, hparts⟩ := List.forall_mem_cons.mp h
    exact hpart.append (ih hparts)

/-- A declaration is written for its symbol, and what is in it for the symbols of that. -/
theorem declare {header : Header} {declaration : Declaration} {place : DeclarationPath}
    {symbol : Symbol} {inner : Declared} (hanchor : header.anchor = some (.declaration place))
    (hsymbol : symbol.IsWrittenAs (.declare header declaration))
    (hinner : Writes declaration.back inner) :
    Writes [(Member.declare header declaration).toTree] ((place, symbol) :: inner) := by
  intro enclosing start site hm
  have hnone : Tree.declarationsOf enclosing (start + (Member.declare header declaration).toTree.length)
      [] = [] := rfl
  rw [Tree.declarationsOf_cons, hnone, List.append_nil, Member.declarations_eq] at hm
  rcases List.mem_cons.mp hm with rfl | hm
  · exact ⟨place, symbol, .declare header declaration, List.mem_cons_self .., hanchor,
      by rw [Member.toTree]; rfl, hsymbol⟩
  · obtain ⟨place, symbol, member, hplace, hwritten⟩ := hinner _ _ site hm
    exact ⟨place, symbol, member, List.mem_cons_of_mem _ hplace, hwritten⟩

theorem back {keyword : TypeKeyword} {name : String} {typeParameters : List String}
    {bases : List TypeExpr} {members : List Member} {declared : Declared}
    (h : Writes (memberTrees members) declared) :
    Writes (Declaration.back (.type keyword name typeParameters bases members)) declared := by
  intro enclosing start site hm
  obtain ⟨list, first, -, hback⟩ :=
    Member.declarationsOf_back keyword name typeParameters bases members enclosing start
  rw [hback] at hm
  exact h _ _ site hm

end Writes

namespace TypeSymbol

end TypeSymbol

/-- Declarations with places of their own are written for the symbols that they are for. -/
theorem Declares.written {enclosing : List Span} {start : Nat} {trees : List Tree}
    {declared : Declared} {entries : List Entry} (h : Declares enclosing start trees declared entries)
    (hw : Writes trees declared) (hn : (declared.map (·.1)).Nodup) :
    ∀ entry ∈ entries, ∃ member, entry.1.toTree = member.toTree ∧ entry.2.IsWrittenAs member := by
  intro entry hm
  have hsite : entry.1 ∈ Tree.declarationsOf enclosing start trees :=
    h.sites ▸ List.mem_map_of_mem (f := Prod.fst) hm
  obtain ⟨place, symbol, member, hplace, hanchor, htree, hsymbol⟩ := hw enclosing start entry.1 hsite
  -- the place that the node is named by belongs to one symbol only
  have hentry := List.mem_map_of_mem (f := fun entry : Entry => (entry.1.anchor, entry.2)) hm
  rw [h.places] at hentry
  obtain ⟨found, hfound, he⟩ := List.mem_map.mp hentry
  obtain ⟨ha, hs⟩ := Prod.mk.inj he
  have hsame : found.1 = place := by
    rw [hanchor] at ha
    exact Anchor.declaration.inj (Option.some.inj ha)
  have hlookup : declared.lookup place = some found.2 := hsame ▸ lookup_of_mem hn hfound
  have hown : declared.lookup place = some symbol := lookup_of_mem hn hplace
  obtain rfl : found.2 = symbol := Option.some.inj (hlookup.symm.trans hown)
  exact ⟨member, htree, hs ▸ hsymbol⟩

namespace Compilation

end Compilation

end SourceGen
