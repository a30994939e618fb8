import SourceGen.Generator.Endpoints
import SourceGen.Proofs.Syntax.Members
import SourceGen.Proofs.Syntax.Signature

/-! The implementations of an interface of endpoints have its methods, in its order. -/

namespace SourceGen

/-- The result type, name, type parameters and parameters of a method with this signature. -/
def Signature.heading (signature : Signature) : List Tree :=
  signature.result.toTree :: .ident signature.name ::
    typeParameterTrees signature.typeParameters ++ [Parameter.listTree signature.parameters]

theorem Signature.heading_toTree (header : Header) (signature : Signature) (body : Body) :
    (Member.declare header (signature.toDeclaration body)).toTree.heading = signature.heading :=
  Member.heading_method ..

/-- The heading that is read from a text is written with its tokens. -/
theorem Signature.leaves_heading {text : String} {signature : Signature}
    (h : Signature.parse? text = some signature) :
    Tree.leavesOf signature.heading = withoutSemicolon (Token.significant text) := by
  have hleaves := Signature.parse?_leaves h
  rw [Signature.leaves_declaration] at hleaves
  rw [← List.append_cancel_right hleaves]
  simp [heading, Tree.leavesOf, Tree.leavesOf_append, Tree.ident, Tree.leaves]

namespace Endpoint

/-- Whether a method is declared as the entry says. -/
structure IsDeclared (endpoint : Endpoint) (method : Tree) : Prop where
  heading : ∃ signature, Signature.parse? endpoint.method = some signature ∧
    method.heading = signature.heading
  written : Tree.leavesOf method.heading =
    Signature.withoutSemicolon (Token.significant endpoint.method)

/-- The tokens of an expression that throws a `NotSupportedException`. -/
def notSupported : List Token :=
  [.keyword "throw", .keyword "new", .keyword "global", .punct .colonColon, .ident "System",
    .punct .dot, .ident "NotSupportedException", .punct .leftParen, .punct .rightParen]

theorem leaves_throwNotSupported : Expr.throwNotSupported.toTree.leaves = notSupported := by
  decide +kernel

/-- Whether a method is declared as the entry says and has the address of a region, if there is
one, as an interpolated text. -/
structure IsImplemented (template : Endpoint → String) (endpoint : Endpoint) (method : Tree) : Prop
    extends IsDeclared endpoint method where
  access : method.parts [.modifiers] = [.plain .modifiers [.keyword "public"]]
  value : ∃ value, method.parts [.arrowExpressionClause, .block] =
      [.plain .arrowExpressionClause [.punct .fatArrow, value]] ∧
    (value.leaves = notSupported ↔ template endpoint = "") ∧
    (template endpoint ≠ "" →
      value.leaves = [⟨.interpolatedString, "$\"" ++ template endpoint ++ "\""⟩])

/-- The method that is made of an entry whose signature can be read. -/
def made (header : Endpoint → Header) (body : Endpoint → Body) (endpoint : Endpoint) :
    Option Member :=
  (Signature.parse? endpoint.method).map fun signature =>
    .declare (header endpoint) (signature.toDeclaration (body endpoint))

section Reading

variable {endpoint : Endpoint} {signature : Signature}
  (h : Signature.parse? endpoint.method = some signature)
include h

theorem made_of_parse? (header : Endpoint → Header) (body : Endpoint → Body) :
    endpoint.made header body =
      some (.declare (header endpoint) (signature.toDeclaration (body endpoint))) := by
  rw [made, h, Option.map_some]

theorem isDeclared (header : Header) (body : Body) :
    endpoint.IsDeclared (Member.declare header (signature.toDeclaration body)).toTree := by
  have hheading := signature.heading_toTree header body
  refine ⟨⟨signature, h, hheading⟩, ?_⟩
  rw [hheading, Signature.leaves_heading h]

theorem isImplemented (template : Endpoint → String) :
    endpoint.IsImplemented template
      (Member.declare { modifiers := [.publicAccess] } (signature.toDeclaration (.expression
        (if (template endpoint).isEmpty then .throwNotSupported
          else .interpolated (template endpoint))))).toTree := by
  refine ⟨isDeclared h _ _, Member.modifiers_method .., _, Member.value_method .., ?_⟩
  by_cases hempty : template endpoint = ""
  · simp [hempty, leaves_throwNotSupported]
  · have hreads : (Expr.interpolated (template endpoint)).toTree.leaves =
        [⟨.interpolatedString, "$\"" ++ template endpoint ++ "\""⟩] := rfl
    simp [hempty, hreads, notSupported]

end Reading

end Endpoint

namespace EndpointsContext

variable (context : EndpointsContext)

/-- The entries that a method is read from. -/
def readable : List Endpoint :=
  context.endpoints.filter fun endpoint => (Signature.parse? endpoint.method).isSome

section Methods

variable (header : Endpoint → Header) (body : Endpoint → Body)

private theorem kind_of_made :
    ∀ member ∈ context.endpoints.filterMap (Endpoint.made header body),
      member.declaration.kind = .methodDeclaration := by
  intro member hm
  obtain ⟨endpoint, -, hmember⟩ := List.mem_filterMap.mp hm
  obtain ⟨signature, -, rfl⟩ := Option.map_eq_some_iff.mp hmember
  rfl

/-- Methods that are made of entries are those of the readable entries, in order. -/
private theorem forall₂_made {Reads : Endpoint → Tree → Prop}
    (hreads : ∀ endpoint signature, Signature.parse? endpoint.method = some signature →
      Reads endpoint
        (Member.declare (header endpoint) (signature.toDeclaration (body endpoint))).toTree) :
    List.Forall₂ Reads context.readable
      ((context.endpoints.filterMap (Endpoint.made header body)).map Member.toTree) := by
  rw [readable]
  induction context.endpoints with
  | nil => exact .nil
  | cons endpoint endpoints ih =>
    cases hread : Signature.parse? endpoint.method with
    | none =>
      have hmade : endpoint.made header body = none := by rw [Endpoint.made, hread, Option.map_none]
      rw [List.filterMap_cons_none hmade, List.filter_cons_of_neg (by simp [hread])]
      exact ih
    | some signature =>
      rw [List.filterMap_cons_some (Endpoint.made_of_parse? hread header body),
        List.filter_cons_of_pos (by simp [hread])]
      exact .cons (hreads endpoint signature hread) ih

/-- A type whose members are made of the entries declares one method for each that is readable. -/
private theorem declares_made (own : Header) (keyword : TypeKeyword) (name : String)
    (bases : List TypeExpr) {Reads : Endpoint → Tree → Prop}
    (hreads : ∀ endpoint signature, Signature.parse? endpoint.method = some signature →
      Reads endpoint
        (Member.declare (header endpoint) (signature.toDeclaration (body endpoint))).toTree) :
    let tree := (Member.declare own (.type keyword name [] bases
      (context.endpoints.filterMap (Endpoint.made header body)))).toTree
    tree.types = [tree] ∧ tree.DeclaresType keyword.kind name (baseTrees bases) ∧
      List.Forall₂ Reads context.readable tree.methods := by
  intro tree
  obtain ⟨htypes, hmethods⟩ := Member.declared_of_methods own keyword name [] bases
    (context.kind_of_made header body)
  refine ⟨htypes, Member.declaresType .., ?_⟩
  rw [hmethods]
  exact context.forall₂_made header body hreads

end Methods

/-- The name of the interface is read as one identifier if the rest of it continues a word. -/
theorem significant_interfaceName_iff :
    Token.significant context.interfaceName = [.ident context.interfaceName] ↔
      context.name.toList.all Token.isWordPart = true := by
  have hchars : context.interfaceName.toList = 'I' :: context.name.toList := by
    simp [interfaceName]
  have hkeyword : Token.isKeyword context.interfaceName = false := by
    have hall : ∀ word ∈ Token.keywords, word.toList.head? ≠ some 'I' := by decide
    rw [Token.isKeyword, ← Bool.not_eq_true, List.contains_iff_mem]
    intro hm
    exact hall _ hm (by rw [hchars, List.head?_cons])
  exact Token.significant_eq_ident_iff hchars (by decide) hkeyword

/-- The list of bases that an implementation has: the tokens of the name of the interface. -/
def baseList : Tree :=
  .plain .baseList
    [.punct .colon, .plain .type ((Token.significant ("I" ++ context.name)).map .leaf)]

theorem leaves_baseList :
    context.baseList.leaves = Token.punct .colon :: Token.significant ("I" ++ context.name) := by
  simp [baseList, Tree.plain, Tree.punct, Tree.leaves, Tree.leavesOf, Tree.leavesOf_leaf]

private theorem interface_declares :
    context.interface.toTree.types = [context.interface.toTree] ∧
      context.interface.toTree.DeclaresType .interfaceDeclaration ("I" ++ context.name) [] ∧
      List.Forall₂ Endpoint.IsDeclared context.readable context.interface.toTree.methods :=
  context.declares_made _ _ _ .interfaceType _ [] fun _ _ h => Endpoint.isDeclared h _ _

private theorem implementation_declares (region : String) (template : Endpoint → String) :
    let tree := (context.implementation region template).toTree
    tree.types = [tree] ∧
      tree.DeclaresType .classDeclaration (context.name ++ ("ImplementationFor" ++ region))
        [context.baseList] ∧
      List.Forall₂ (Endpoint.IsImplemented template) context.readable tree.methods := by
  rw [← String.append_assoc]
  exact context.declares_made _ _ _ .classType _ [.parse context.interfaceName]
    fun _ _ h => Endpoint.isImplemented h template

/-- For every context there are an interface, an implementation of it for each region, and nothing
else. The methods of all three are those of the readable entries, in order; an implementation has
its own address of each entry, or does not support it if there is none. -/
theorem endpointsStage_implements :
    (∀ layout, endpointsStage.emit layout false context =
      if layout.fits context.toUnit.toTree then
        .ok [⟨context.name ++ ".g.cs", context.toUnit.toTree.document layout⟩]
      else .error (.capacity .endpoints)) ∧
    (∃ interface chinese oversea : Tree,
      context.toUnit.toTree.types = [interface, chinese, oversea] ∧
      interface.DeclaresType .interfaceDeclaration ("I" ++ context.name) [] ∧
      chinese.DeclaresType .classDeclaration (context.name ++ "ImplementationForChinese")
        [context.baseList] ∧
      oversea.DeclaresType .classDeclaration (context.name ++ "ImplementationForOversea")
        [context.baseList] ∧
      List.Forall₂ Endpoint.IsDeclared context.readable interface.methods ∧
      List.Forall₂ (Endpoint.IsImplemented Endpoint.chinese) context.readable chinese.methods ∧
      List.Forall₂ (Endpoint.IsImplemented Endpoint.oversea) context.readable oversea.methods) ∧
    (context.baseList.leaves = [.punct .colon, .ident ("I" ++ context.name)] ↔
      context.name.toList.all Token.isWordPart = true) := by
  obtain ⟨htypes, hinterface, hmethods⟩ := context.interface_declares
  obtain ⟨htypesCN, hchinese, hmethodsCN⟩ :=
    context.implementation_declares "Chinese" Endpoint.chinese
  obtain ⟨htypesOS, hoversea, hmethodsOS⟩ :=
    context.implementation_declares "Oversea" Endpoint.oversea
  refine ⟨fun layout => ?_, ⟨_, _, _, ?_, hinterface, hchinese, hoversea, hmethods, hmethodsCN,
    hmethodsOS⟩, ?_⟩
  · simp [Stage.emit, endpointsStage, Stage.fits, Stage.files]
  · rw [CompilationUnit.types_toTree, toUnit, List.flatMap_cons, List.flatMap_cons,
      List.flatMap_singleton, htypes, htypesCN, htypesOS]
    rfl
  · rw [leaves_baseList, List.cons_inj_right]
    exact context.significant_interfaceName_iff

/-- A row that is no signature between two that are, the first of which has an address in one region
only. -/
theorem endpointsStage_implements_skipped :
    let context : EndpointsContext := ⟨"Web", none,
      [⟨"string Record(int uid)", "https://cn/\x7buid\x7d", ""⟩, ⟨"no signature", "a", "b"⟩,
        ⟨"string Root()", "https://cn/", "https://os/"⟩]⟩
    let headings (type : Tree) : List (List String) :=
      type.methods.map fun method => (Tree.leavesOf method.heading).map (·.text)
    let bodies (type : Tree) : List (List String) :=
      type.methods.map fun method =>
        (Tree.leavesOf (method.parts [.arrowExpressionClause, .block])).map (·.text)
    ∃ interface chinese oversea : Tree,
      context.toUnit.toTree.types = [interface, chinese, oversea] ∧
      [interface, chinese, oversea].map headings = List.replicate 3
        [["string", "Record", "(", "int", "uid", ")"], ["string", "Root", "(", ")"]] ∧
      [interface, chinese, oversea].map bodies =
        [[[], []],
          [["=>", "$\"https://cn/\x7buid\x7d\""], ["=>", "$\"https://cn/\""]],
          [["=>", "throw", "new", "global", "::", "System", ".", "NotSupportedException", "(", ")"],
            ["=>", "$\"https://os/\""]]] ∧
      List.Forall₂ (Endpoint.IsImplemented Endpoint.chinese) context.readable chinese.methods ∧
      List.Forall₂ (Endpoint.IsImplemented Endpoint.oversea) context.readable oversea.methods := by
  intro context headings bodies
  obtain ⟨-, ⟨interface, chinese, oversea, htypes, -, -, -, -, hchinese, hoversea⟩, -⟩ :=
    context.endpointsStage_implements
  refine ⟨interface, chinese, oversea, htypes, ?_, ?_, hchinese, hoversea⟩
  · rw [← htypes]
    decide +kernel
  · rw [← htypes]
    decide +kernel

end EndpointsContext

end SourceGen
