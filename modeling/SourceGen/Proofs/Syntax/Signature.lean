import SourceGen.Syntax.Signature
import SourceGen.Proofs.Syntax.Lexeme
import Mathlib.Data.List.Basic

/-! What is read as a signature is written with the tokens it was read from. -/

namespace SourceGen

namespace Token

/-- Whether a token is spelled as its kind is, unless tokens of this kind differ in their text. -/
def IsSpelled (token : Token) : Prop :=
  token.kind.spelling = "" ∨ token.text = token.kind.spelling

theorem IsSpelled.eq_punct {token : Token} {kind : Kind} (h : token.IsSpelled)
    (hkind : token.kind = kind) (hfixed : kind.spelling ≠ "") : token = punct kind := by
  subst hkind
  rcases h with h | h
  · exact absurd h hfixed
  · cases token
    exact congrArg (Token.mk _) h

theorem IsLexeme.isSpelled {token : Token} (h : token.IsLexeme) : token.IsSpelled := by
  cases h with
  | word h => rcases h.kind_eq with hk | hk <;> exact .inl (by rw [hk]; rfl)
  | operator h => exact .inr rfl
  | _ => exact .inl rfl

theorem significant_spelled (text : String) : ∀ token ∈ significant text, token.IsSpelled := by
  intro token hm
  by_cases hkind : token.kind = .error
  · exact .inl (by rw [hkind]; rfl)
  · exact (isLexeme_of_mem (List.mem_of_mem_filter hm) hkind).isSpelled

end Token

namespace Tree

theorem leavesOf_append (trees others : List Tree) :
    leavesOf (trees ++ others) = leavesOf trees ++ leavesOf others := by
  induction trees with
  | nil => simp [leavesOf]
  | cons tree trees ih => simp [leavesOf, ih]

theorem leavesOf_leaf (tokens : List Token) : leavesOf (tokens.map leaf) = tokens := by
  induction tokens with
  | nil => rfl
  | cons token tokens ih => simp [leavesOf, leaves, ih]

theorem leavesOf_separated (trees : List Tree) :
    leavesOf (separated trees) = [Token.punct .comma].intercalate (trees.map leaves) := by
  fun_induction separated trees with
  | case1 => rfl
  | case2 tree => simp [leavesOf]
  | case3 tree trees hne ih =>
    cases trees with
    | nil => exact absurd rfl hne
    | cons next trees =>
      simp [leavesOf, leaves, punct, ih, List.intercalate_cons_cons]

theorem leavesOf_enclosed (opening closing : Kind) (trees : List Tree) :
    leavesOf (enclosed opening closing trees) =
      Token.punct opening :: [Token.punct .comma].intercalate (trees.map leaves) ++
        [Token.punct closing] := by
  simp [enclosed, leavesOf, leavesOf_append, leavesOf_separated, leaves, punct]

end Tree

namespace Signature

section Splitting

private theorem keep_eq {opening : Kind} {token : Token} {rest inside before : List Token}
    {parts : Option (List Token × List Token)}
    (ih : ∀ {inside before}, parts = some (inside, before) →
      ∃ bracket, bracket.kind = opening ∧ rest = inside ++ bracket :: before)
    (h : parts.map (fun parts => (token :: parts.1, parts.2)) = some (inside, before)) :
    ∃ bracket, bracket.kind = opening ∧ token :: rest = inside ++ bracket :: before := by
  obtain ⟨⟨_, _⟩, hparts, hmap⟩ := Option.map_eq_some_iff.mp h
  obtain ⟨rfl, rfl⟩ := Prod.mk.inj hmap
  obtain ⟨bracket, hkind, hrest⟩ := ih hparts
  exact ⟨bracket, hkind, by rw [hrest, List.cons_append]⟩

/-- What stands in front of the opening bracket and behind it are the tokens without it. -/
private theorem splitOpening_eq {opening closing : Kind} {depth : Nat}
    {tokens inside before : List Token}
    (h : splitOpening opening closing depth tokens = some (inside, before)) :
    ∃ bracket, bracket.kind = opening ∧ tokens = inside ++ bracket :: before := by
  induction tokens generalizing depth inside before with
  | nil => simp [splitOpening] at h
  | cons token rest ih =>
    rw [splitOpening.eq_def] at h
    dsimp only at h
    split at h
    · exact keep_eq ih h
    split at h
    · next hopening =>
      split at h
      · cases h
      · obtain ⟨rfl, rfl⟩ := Prod.mk.inj (Option.some.inj h)
        exact ⟨token, hopening, rfl⟩
      · exact keep_eq ih h
    · exact keep_eq ih h

/-- Tokens that end with a closing bracket are what stands in front of its opening bracket, this
bracket, what stands inside, and the closing bracket. -/
theorem splitLastPair_eq {opening closing : Kind} {tokens inside before : List Token} {last : Token}
    (hlast : tokens.getLast? = some last) (hclosing : last.kind = closing)
    (h : splitLastPair opening closing tokens = some (inside, before)) :
    ∃ bracket, bracket.kind = opening ∧ tokens = before ++ bracket :: inside ++ [last] := by
  obtain ⟨front, rfl⟩ := List.getLast?_eq_some_iff.mp hlast
  rw [splitLastPair, List.reverse_append, List.reverse_singleton, List.singleton_append,
    splitOpening, if_pos hclosing, Option.map_map] at h
  obtain ⟨⟨within, ahead⟩, hsplit, hparts⟩ := Option.map_eq_some_iff.mp h
  obtain ⟨rfl, rfl⟩ := Prod.mk.inj hparts
  obtain ⟨bracket, hkind, hfront⟩ := splitOpening_eq hsplit
  refine ⟨bracket, hkind, ?_⟩
  rw [← List.reverse_reverse front, hfront]
  simp

theorem splitCommas_ne_nil (depth : Int) (tokens : List Token) : splitCommas depth tokens ≠ [] := by
  fun_cases splitCommas depth tokens <;> simp

/-- The parts with commas between them are the tokens. -/
theorem splitCommas_intercalate {depth : Int} {tokens : List Token}
    (h : ∀ token ∈ tokens, token.IsSpelled) :
    [Token.punct .comma].intercalate (splitCommas depth tokens) = tokens := by
  fun_induction splitCommas depth tokens with
  | case1 => rfl
  | case2 depth token rest hcomma ih =>
    obtain ⟨htoken, hrest⟩ := List.forall_mem_cons.mp h
    obtain ⟨part, parts, hparts⟩ := List.exists_cons_of_ne_nil (splitCommas_ne_nil depth rest)
    have hread := ih hrest
    rw [hparts] at hread ⊢
    rw [List.intercalate_cons_cons, hread, htoken.eq_punct hcomma.1 (by decide)]
    rfl
  | case3 depth token rest hcomma hparts ih =>
    exact absurd hparts (splitCommas_ne_nil _ _)
  | case4 depth token rest hcomma part parts hparts ih =>
    have hread := ih (List.forall_mem_cons.mp h).2
    rw [hparts] at hread
    cases parts with
    | nil => simpa [List.intercalate] using hread
    | cons next parts => simpa [List.intercalate_cons_cons] using hread

theorem subset_of_splitCommas {depth : Int} {tokens part : List Token}
    (h : part ∈ splitCommas depth tokens) : part ⊆ tokens := by
  fun_induction splitCommas depth tokens generalizing part with
  | case1 => simp_all
  | case2 depth token rest hcomma ih =>
    rcases List.mem_cons.mp h with rfl | hm
    · exact List.nil_subset _
    · exact List.subset_cons_of_subset _ (ih hm)
  | case3 depth token rest hcomma hparts ih => exact absurd hparts (splitCommas_ne_nil _ _)
  | case4 depth token rest hcomma first parts hparts ih =>
    rw [hparts] at ih
    rcases List.mem_cons.mp h with rfl | hm
    · exact List.cons_subset_cons _ (ih (by simp))
    · exact List.subset_cons_of_subset _ (ih (List.mem_cons_of_mem _ hm))

end Splitting

section Parts

variable {tokens : List Token}

/-- A word that is a modifier is the word of this modifier. -/
theorem parameterModifier?_eq {token : Token} {modifier : Modifier}
    (h : parameterModifier? token = some modifier) : token = .keyword modifier.word := by
  unfold parameterModifier? at h
  split at h
  · cases h
  · next hkind =>
    have hkeyword : token.kind = .keyword := not_not.mp hkind
    have htoken : token = .keyword token.text := by
      cases token
      simpa [Token.keyword] using hkeyword
    split at h <;> cases h
    all_goals rw [htoken]; exact congrArg Token.keyword ‹token.text = _›

theorem splitModifiers_eq (tokens : List Token) :
    tokens = (splitModifiers tokens).1.map (fun modifier => .keyword modifier.word) ++
      (splitModifiers tokens).2 := by
  fun_induction splitModifiers tokens with
  | case1 => rfl
  | case2 token rest modifier hmodifier ih =>
    rw [List.map_cons, List.cons_append, ← ih, parameterModifier?_eq hmodifier]
  | case3 token rest hmodifier => rfl

private theorem leaves_modifiers (modifiers : List Modifier) :
    Tree.leavesOf (Modifier.trees modifiers) =
      modifiers.map fun modifier => .keyword modifier.word := by
  have hwords : modifiers.map (fun modifier => Tree.keyword modifier.word) =
      (modifiers.map fun modifier => Token.keyword modifier.word).map Tree.leaf := by
    rw [List.map_map]
    rfl
  unfold Modifier.trees
  split
  · next h => rw [List.isEmpty_iff.mp h]; rfl
  · rw [Modifier.tree, hwords, Tree.leavesOf, Tree.plain, Tree.leaves, Tree.leavesOf_leaf,
      Tree.leavesOf, List.append_nil]

theorem leaves_type (tokens : List Token) :
    (TypeExpr.tokens tokens).toTree.leaves = tokens := by
  rw [TypeExpr.toTree, Tree.plain, Tree.leaves, TypeExpr.parts, Tree.leavesOf_leaf]

private theorem leaves_literal (tokens : List Token) :
    (Expr.literal tokens).toTree.leaves = tokens := by
  rw [Expr.toTree, Tree.plain, Tree.leaves, Tree.leavesOf_leaf]

private theorem leaves_values (value : Option Expr) :
    Tree.leavesOf (valueTrees value) =
      value.elim [] fun value => .punct .equal :: value.toTree.leaves := by
  cases value <;>
    simp [valueTrees, equalsValueTree, Tree.plain, Tree.leavesOf, Tree.leaves, Tree.punct]

private theorem leaves_parameter (parameter : Parameter) :
    parameter.toTree.leaves =
      parameter.modifiers.map (fun modifier => .keyword modifier.word) ++
        parameter.type.toTree.leaves ++ .ident parameter.name ::
        parameter.default.elim [] fun value => .punct .equal :: value.toTree.leaves := by
  simp [Parameter.toTree, Tree.plain, Tree.leaves, Tree.leavesOf_append, leaves_modifiers,
    leaves_values, Tree.leavesOf, Tree.ident]

/-- Tokens that end with an identifier. -/
theorem eq_of_reverse {name : Token} {type : List Token}
    (h : tokens.reverse = name :: type) (hname : name.kind = .identifier) :
    tokens = type.reverse ++ [.ident name.text] := by
  have hident : name = .ident name.text := by
    cases name
    simpa [Token.ident] using hname
  rw [← List.reverse_reverse tokens, h, List.reverse_cons, ← hident]

private theorem bareParameter?_leaves {parameter : Parameter}
    (h : bareParameter? tokens = some parameter) :
    parameter.default = none ∧ parameter.toTree.leaves = tokens := by
  simp only [bareParameter?] at h
  split at h
  · next name type hrest =>
    split at h
    · next hname =>
      obtain rfl := Option.some.inj h
      refine ⟨rfl, ?_⟩
      have hmodifiers := splitModifiers_eq tokens
      rw [eq_of_reverse hrest hname.1] at hmodifiers
      rw [leaves_parameter, leaves_type, List.append_assoc]
      exact hmodifiers.symm
    · cases h
  · cases h

private theorem defaultValue?_leaves {value : Expr} (hspelled : ∀ token ∈ tokens, token.IsSpelled)
    (h : defaultValue? tokens = some value) : value.toTree.leaves = tokens := by
  unfold defaultValue? at h
  split at h
  · cases h
  · next sign number =>
    split at h
    · next hkinds =>
      obtain rfl := Option.some.inj h
      have hsign : sign = .punct .minus :=
        (hspelled sign (by simp)).eq_punct hkinds.1 (by decide)
      have hnumber : number = ⟨.numericLiteral, number.text⟩ := by
        cases number
        simpa using hkinds.2
      rw [Expr.toTree, Tree.plain, Tree.leaves, Tree.leavesOf, Tree.leavesOf, Tree.leavesOf,
        Expr.number, leaves_literal, hsign, ← hnumber]
      rfl
    · obtain rfl := Option.some.inj h
      exact leaves_literal _
  · obtain rfl := Option.some.inj h
    exact leaves_literal _

theorem kind_of_dropWhile {sign : Token} {value : List Token}
    (h : tokens.dropWhile (·.kind ≠ .equal) = sign :: value) : sign.kind = .equal := by
  have hhead := List.head?_dropWhile_not (fun token : Token => decide (token.kind ≠ .equal)) tokens
  rw [h] at hhead
  simpa using hhead

/-- What is read as a parameter consists of the tokens it was read from. -/
theorem parameter?_leaves {parameter : Parameter} (hspelled : ∀ token ∈ tokens, token.IsSpelled)
    (h : parameter? tokens = some parameter) : parameter.toTree.leaves = tokens := by
  have htokens : tokens.takeWhile (·.kind ≠ .equal) ++ tokens.dropWhile (·.kind ≠ .equal) = tokens :=
    List.takeWhile_append_dropWhile
  unfold parameter? at h
  split at h
  · next hrest =>
    rw [hrest, List.append_nil] at htokens
    rw [← htokens]
    exact (bareParameter?_leaves h).2
  · next sign value hrest =>
    obtain ⟨default, hdefault, hparameter⟩ := Option.bind_eq_some_iff.mp h
    obtain ⟨bare, hbare, rfl⟩ := Option.map_eq_some_iff.mp hparameter
    obtain ⟨hnone, hleaves⟩ := bareParameter?_leaves hbare
    have hsign : sign.kind = .equal := kind_of_dropWhile hrest
    rw [hrest] at htokens
    have hread : ∀ token ∈ sign :: value, token.IsSpelled := by
      intro token hm
      exact hspelled token (htokens ▸ List.mem_append_right _ hm)
    obtain ⟨hspelling, hvalue⟩ := List.forall_mem_cons.mp hread
    rw [leaves_parameter, hnone] at hleaves
    rw [← htokens, ← hleaves, leaves_parameter, hspelling.eq_punct hsign (by decide)]
    simp [defaultValue?_leaves hvalue hdefault]

theorem typeParameter?_leaves {name : String} (h : typeParameter? tokens = some name) :
    (Tree.ident name).leaves = tokens := by
  unfold typeParameter? at h
  split at h
  · next token =>
    split at h
    · next hkind =>
      obtain rfl := Option.some.inj h
      have htoken : token = .ident token.text := by
        cases token
        simpa [Token.ident] using hkind
      rw [Tree.ident, Tree.leaves, ← htoken]
    · cases h
  · cases h

end Parts

section Lists

variable {α : Type} {read : List Token → Option α} {tree : α → Tree}

/-- Items that are read from parts are as many, and each has the tokens of its part. -/
private theorem leaves_of_mapM {parts : List (List Token)} {items : List α}
    (hread : ∀ part ∈ parts, ∀ item, read part = some item → (tree item).leaves = part)
    (h : parts.mapM read = some items) : (items.map tree).map Tree.leaves = parts := by
  induction parts generalizing items with
  | nil =>
    obtain rfl : [] = items := by simpa using h
    rfl
  | cons part parts ih =>
    obtain ⟨hpart, hparts⟩ := List.forall_mem_cons.mp hread
    rw [List.mapM_cons] at h
    obtain ⟨item, hitem, hrest⟩ := Option.bind_eq_some_iff.mp h
    obtain ⟨others, hothers, hitems⟩ := Option.bind_eq_some_iff.mp hrest
    obtain rfl := Option.some.inj hitems
    rw [List.map_cons, List.map_cons, hpart item hitem, ih hparts hothers]

/-- Items that are read from the parts between commas are written as the tokens, between brackets. -/
private theorem leaves_enclosed {tokens : List Token} {items : List α} {opening closing : Token}
    (hspelled : ∀ token ∈ opening :: tokens ++ [closing], token.IsSpelled)
    (hopening : opening.kind.spelling ≠ "") (hclosing : closing.kind.spelling ≠ "")
    (hread : ∀ part, (∀ token ∈ part, token.IsSpelled) → ∀ item, read part = some item →
      (tree item).leaves = part)
    (h : (splitCommas 0 tokens).mapM read = some items) :
    Tree.leavesOf (Tree.enclosed opening.kind closing.kind (items.map tree)) =
      opening :: tokens ++ [closing] := by
  have htokens : ∀ token ∈ tokens, token.IsSpelled := fun token hm => hspelled token (by simp [hm])
  have hparts : (items.map tree).map Tree.leaves = splitCommas 0 tokens := by
    refine leaves_of_mapM (fun part hpart => hread part ?_) h
    exact fun token hm => htokens token (subset_of_splitCommas hpart hm)
  rw [Tree.leavesOf_enclosed, hparts, splitCommas_intercalate htokens,
    ← (hspelled opening (by simp)).eq_punct rfl hopening,
    ← (hspelled closing (by simp)).eq_punct rfl hclosing]

end Lists

section Signatures

variable {tokens : List Token} {signature : Signature}

/-- The tokens of a declaration without a body. -/
theorem leaves_declaration (signature : Signature) :
    (Member.declare {} (signature.toDeclaration .absent)).toTree.leaves =
      signature.result.toTree.leaves ++ .ident signature.name ::
        Tree.leavesOf (typeParameterTrees signature.typeParameters) ++
        (Parameter.listTree signature.parameters).leaves ++ [.punct .semicolon] := by
  simp [Member.toTree, toDeclaration, Declaration.trees, Header.trees, Trivia.trees,
    Trivia.isEmpty, Modifier.tree, Body.trees, Tree.plain, Tree.leaves, Tree.leavesOf,
    Tree.leavesOf_append, Tree.ident, Tree.punct]

private theorem named?_leaves {typeParameters : List String} {parameters : List Parameter}
    (h : named? tokens typeParameters parameters = some signature) :
    signature.result.toTree.leaves ++ [.ident signature.name] = tokens ∧
      signature.typeParameters = typeParameters ∧ signature.parameters = parameters := by
  unfold named? at h
  split at h
  · next name type htokens =>
    split at h
    · next hname =>
      obtain rfl := Option.some.inj h
      refine ⟨?_, rfl, rfl⟩
      rw [leaves_type, eq_of_reverse htokens hname.1]
    · cases h
  · cases h

/-- The parameters between parentheses are written as they were read. -/
private theorem parameters?_leaves {opening closing : Token} {parameters : List Parameter}
    (hspelled : ∀ token ∈ opening :: tokens ++ [closing], token.IsSpelled)
    (hopening : opening.kind = .leftParen) (hclosing : closing.kind = .rightParen)
    (h : parameters? tokens = some parameters) :
    (Parameter.listTree parameters).leaves = opening :: tokens ++ [closing] := by
  rw [Parameter.listTree, Tree.plain, Tree.leaves, ← hopening, ← hclosing]
  unfold parameters? at h
  split at h
  · next hempty =>
    obtain rfl := Option.some.inj h
    rw [List.isEmpty_iff.mp hempty] at hspelled ⊢
    rw [Tree.leavesOf_enclosed, ← (hspelled opening (by simp)).eq_punct rfl (by rw [hopening]; decide),
      ← (hspelled closing (by simp)).eq_punct rfl (by rw [hclosing]; decide)]
    rfl
  · refine leaves_enclosed hspelled (by rw [hopening]; decide) (by rw [hclosing]; decide) ?_ h
    exact fun part hpart parameter hparameter => parameter?_leaves hpart hparameter

/-- The type parameters between angle brackets are written as they were read. -/
private theorem typeParameters_leaves {opening closing : Token} {names : List String}
    (hspelled : ∀ token ∈ opening :: tokens ++ [closing], token.IsSpelled)
    (hopening : opening.kind = .leftAngle) (hclosing : closing.kind = .rightAngle)
    (h : (splitCommas 0 tokens).mapM typeParameter? = some names) :
    Tree.leavesOf (typeParameterTrees names) = opening :: tokens ++ [closing] := by
  have hleaves := leaves_enclosed hspelled (by rw [hopening]; decide) (by rw [hclosing]; decide)
    (fun part _ name hname => typeParameter?_leaves hname) h
  rw [hopening, hclosing] at hleaves
  have hne : names ≠ [] := by
    rintro rfl
    have hparts := leaves_of_mapM (fun part _ name hname => typeParameter?_leaves hname) h
    exact splitCommas_ne_nil 0 tokens hparts.symm
  rw [typeParameterTrees, if_neg (by simpa using hne), Tree.leavesOf, Tree.plain, Tree.leaves,
    Tree.leavesOf, List.append_nil, hleaves]

theorem guard_pos {p : Prop} [Decidable p] (h : p) : (guard p : Option Unit) = some () :=
  if_pos h

theorem guard_neg {p : Prop} [Decidable p] (h : ¬p) : (guard p : Option Unit) = none :=
  if_neg h

/-- A signature is written with the tokens it was read from. -/
theorem ofTokens?_leaves (hspelled : ∀ token ∈ tokens, token.IsSpelled)
    (h : ofTokens? tokens = some signature) :
    (Member.declare {} (signature.toDeclaration .absent)).toTree.leaves =
      tokens ++ [.punct .semicolon] := by
  rw [leaves_declaration]
  obtain ⟨last, hlast, h⟩ := Option.bind_eq_some_iff.mp h
  obtain ⟨_, hguard, h⟩ := Option.bind_eq_some_iff.mp h
  have hclosing : last.kind = .rightParen := by
    by_contra hkind
    rw [guard_neg hkind] at hguard
    cases hguard
  obtain ⟨⟨inside, before⟩, hsplit, h⟩ := Option.bind_eq_some_iff.mp h
  obtain ⟨opening, hopening, htokens⟩ := splitLastPair_eq hlast hclosing hsplit
  obtain ⟨angle, hangle, h⟩ := Option.bind_eq_some_iff.mp h
  have hlist {parameters : List Parameter} (hread : parameters? inside = some parameters) :
      (Parameter.listTree parameters).leaves = opening :: inside ++ [last] := by
    refine parameters?_leaves (fun token hm => hspelled token ?_) hopening hclosing hread
    rw [htokens, List.append_assoc]
    exact List.mem_append_right _ hm
  split at h
  · next hkind =>
    obtain ⟨⟨names, front⟩, hangles, h⟩ := Option.bind_eq_some_iff.mp h
    obtain ⟨typeParameters, hnames, h⟩ := Option.bind_eq_some_iff.mp h
    obtain ⟨parameters, hparameters, h⟩ := Option.bind_eq_some_iff.mp h
    obtain ⟨bracket, hbracket, hbefore⟩ := splitLastPair_eq hangle hkind hangles
    obtain ⟨hnamed, htypes, hvalues⟩ := named?_leaves h
    have hangled : Tree.leavesOf (typeParameterTrees typeParameters) =
        bracket :: names ++ [angle] := by
      refine typeParameters_leaves (fun token hm => hspelled token ?_) hbracket hkind hnames
      have hmem : token ∈ before := by
        rw [hbefore, List.append_assoc]
        exact List.mem_append_right _ hm
      rw [htokens, List.append_assoc]
      exact List.mem_append_left _ hmem
    rw [hvalues, hlist hparameters, htypes, hangled, htokens, hbefore, ← hnamed]
    simp
  · obtain ⟨parameters, hparameters, h⟩ := Option.bind_eq_some_iff.mp h
    obtain ⟨hnamed, htypes, hvalues⟩ := named?_leaves h
    rw [hvalues, hlist hparameters, htypes, htokens, ← hnamed]
    simp [typeParameterTrees, Tree.leavesOf]

theorem mem_of_withoutSemicolon {token : Token} (h : token ∈ withoutSemicolon tokens) :
    token ∈ tokens := by
  unfold withoutSemicolon at h
  split at h
  · split at h
    · exact (List.dropLast_sublist tokens).subset h
    · exact h
  · exact h

/-- What is read from a text is written with its tokens and a semicolon at the end. -/
theorem parse?_leaves {text : String} (h : parse? text = some signature) :
    (Member.declare {} (signature.toDeclaration .absent)).toTree.leaves =
      withoutSemicolon (Token.significant text) ++ [.punct .semicolon] := by
  rw [parse?] at h
  split at h
  · cases h
  · refine ofTokens?_leaves (fun token hm => ?_) h
    exact Token.significant_spelled text token (mem_of_withoutSemicolon hm)

end Signatures

end Signature

end SourceGen
