import SourceGen.Proofs.Syntax.Signature
import Mathlib.Data.List.Forall2

/-! The texts that are read as signatures. -/

namespace SourceGen

namespace Token

/-- The closing brackets that are awaited behind a token, the innermost first; none if the token
closes another bracket than the innermost. -/
def await? (pairs : List (Kind × Kind)) (closings : List Kind) (token : Token) :
    Option (List Kind) :=
  match pairs.lookup token.kind with
  | some closing => some (closing :: closings)
  | none =>
    if token.kind ∈ pairs.map Prod.snd then
      if closings.head? = some token.kind then some closings.tail else none
    else some closings

/-- Whether the brackets in a row of tokens come in pairs. -/
def IsBalanced (pairs : List (Kind × Kind)) (tokens : List Token) : Prop :=
  tokens.foldlM (await? pairs) [] = some []

instance (pairs : List (Kind × Kind)) : DecidablePred (IsBalanced pairs) :=
  fun _ => inferInstanceAs (Decidable (_ = _))

section OnePair

variable {opening closing : Kind} {token : Token} (closings : List Kind)

theorem await?_opening (h : token.kind = opening) :
    await? [(opening, closing)] closings token = some (closing :: closings) := by
  simp [await?, h]

theorem await?_closing (hne : opening ≠ closing) (h : token.kind = closing) :
    await? [(opening, closing)] closings token =
      if closings.head? = some closing then some closings.tail else none := by
  simp [await?, h, hne.symm]

theorem await?_other (hopening : token.kind ≠ opening) (hclosing : token.kind ≠ closing) :
    await? [(opening, closing)] closings token = some closings := by
  simp [await?, beq_false_of_ne hopening, hclosing, List.lookup_cons]

end OnePair

end Token

namespace Signature

section Brackets

variable {opening closing : Kind}

/-- Up to the opening bracket that is found, the brackets come in pairs but for those that the scan
has met the closing brackets of already. -/
private theorem awaited_of_splitOpening (hne : opening ≠ closing) {depth : Nat}
    {tokens inside before : List Token}
    (h : splitOpening opening closing (depth + 1) tokens = some (inside, before)) :
    inside.reverse.foldlM (Token.await? [(opening, closing)]) [] =
      some (List.replicate depth closing) := by
  induction tokens generalizing depth inside with
  | nil => simp [splitOpening] at h
  | cons token rest ih =>
    rw [splitOpening.eq_def] at h
    dsimp only at h
    split at h
    · next hclosing =>
      obtain ⟨⟨within, _⟩, hrest, hparts⟩ := Option.map_eq_some_iff.mp h
      obtain ⟨rfl, rfl⟩ := Prod.mk.inj hparts
      rw [List.reverse_cons, List.foldlM_append, ih hrest]
      simp [Token.await?_closing _ hne hclosing, List.replicate_succ]
    split at h
    · next hopening =>
      cases depth with
      | zero =>
        obtain ⟨rfl, -⟩ := Prod.mk.inj (Option.some.inj h)
        rfl
      | succ depth =>
        obtain ⟨⟨within, _⟩, hrest, hparts⟩ := Option.map_eq_some_iff.mp h
        obtain ⟨rfl, rfl⟩ := Prod.mk.inj hparts
        rw [List.reverse_cons, List.foldlM_append, ih hrest]
        simp [Token.await?_opening _ hopening, List.replicate_succ]
    · next hclosing hopening =>
      obtain ⟨⟨within, _⟩, hrest, hparts⟩ := Option.map_eq_some_iff.mp h
      obtain ⟨rfl, rfl⟩ := Prod.mk.inj hparts
      rw [List.reverse_cons, List.foldlM_append, ih hrest]
      simp [Token.await?_other _ hopening hclosing]

/-- The scan runs over tokens whose brackets come in pairs, but for some closing ones that it counts
as open. -/
private theorem splitOpening_append (hne : opening ≠ closing) {inside : List Token} (more : Nat)
    (h : inside.foldlM (Token.await? [(opening, closing)]) (List.replicate more closing) = some [])
    (depth : Nat) (rest : List Token) :
    splitOpening opening closing (depth + 1) (inside.reverse ++ rest) =
      (splitOpening opening closing (depth + more + 1) rest).map fun parts =>
        (inside.reverse ++ parts.1, parts.2) := by
  induction inside generalizing more rest with
  | nil =>
    obtain rfl : more = 0 := by simpa using h
    simp
  | cons token inside ih =>
    rw [List.foldlM_cons] at h
    rw [List.reverse_cons, List.append_assoc, List.singleton_append]
    by_cases hopening : token.kind = opening
    · rw [Token.await?_opening _ hopening] at h
      rw [ih (more + 1) h, splitOpening.eq_def]
      simp [hopening, hne, Function.comp_def]
    by_cases hclosing : token.kind = closing
    · rw [Token.await?_closing _ hne hclosing] at h
      cases more with
      | zero => simp at h
      | succ more =>
        rw [List.replicate_succ, List.head?_cons, if_pos rfl] at h
        rw [ih more h, splitOpening.eq_def]
        simp [hclosing, ← Nat.add_assoc, Function.comp_def]
    · rw [Token.await?_other _ hopening hclosing] at h
      rw [ih more h, splitOpening.eq_def]
      simp [hopening, hclosing, Function.comp_def]

/-- Tokens are cut at the bracket that belongs to the closing one at their end. -/
theorem splitLastPair_eq_some_iff (hne : opening ≠ closing) {tokens inside before : List Token}
    {last : Token} (hlast : tokens.getLast? = some last) (hclosing : last.kind = closing) :
    splitLastPair opening closing tokens = some (inside, before) ↔
      ∃ bracket, bracket.kind = opening ∧ tokens = before ++ bracket :: inside ++ [last] ∧
        Token.IsBalanced [(opening, closing)] inside := by
  constructor
  · intro h
    obtain ⟨bracket, hopening, htokens⟩ := splitLastPair_eq hlast hclosing h
    refine ⟨bracket, hopening, htokens, ?_⟩
    have hreverse : tokens.reverse = last :: (inside.reverse ++ bracket :: before.reverse) := by
      rw [htokens]
      simp
    rw [splitLastPair, hreverse, splitOpening, if_pos hclosing, Option.map_map] at h
    obtain ⟨⟨within, ahead⟩, hsplit, hparts⟩ := Option.map_eq_some_iff.mp h
    obtain ⟨rfl, rfl⟩ := Prod.mk.inj hparts
    exact awaited_of_splitOpening hne hsplit
  · rintro ⟨bracket, hopening, rfl, hinside⟩
    have hreverse : (before ++ bracket :: inside ++ [last]).reverse =
        last :: (inside.reverse ++ bracket :: before.reverse) := by
      simp
    rw [splitLastPair, hreverse, splitOpening, if_pos hclosing,
      splitOpening_append hne 0 hinside, splitOpening.eq_def]
    simp [hopening, hne]

theorem splitLastPair_enclosed (hne : opening ≠ closing) {before inside : List Token}
    (hinside : Token.IsBalanced [(opening, closing)] inside) :
    splitLastPair opening closing (before ++ .punct opening :: inside ++ [.punct closing]) =
      some (inside, before) :=
  (splitLastPair_eq_some_iff hne List.getLast?_concat rfl).mpr ⟨_, rfl, rfl, hinside⟩

/-- Where brackets are spelled as their kinds are, the tokens are those of a pair. -/
theorem enclosed_of_splitLastPair (hne : opening ≠ closing) (hopening : opening.spelling ≠ "")
    (hclosing : closing.spelling ≠ "") {tokens inside before : List Token} {last : Token}
    (hspelled : ∀ token ∈ tokens, token.IsSpelled) (hlast : tokens.getLast? = some last)
    (hkind : last.kind = closing)
    (h : splitLastPair opening closing tokens = some (inside, before)) :
    tokens = before ++ .punct opening :: inside ++ [.punct closing] ∧
      Token.IsBalanced [(opening, closing)] inside := by
  obtain ⟨bracket, hbracket, htokens, hinside⟩ :=
    (splitLastPair_eq_some_iff hne hlast hkind).mp h
  refine ⟨?_, hinside⟩
  rw [← (hspelled bracket (by simp [htokens])).eq_punct hbracket hopening,
    ← (hspelled last (by simp [htokens])).eq_punct hkind hclosing]
  exact htokens

end Brackets

section Commas

/-- How many more brackets a row of tokens opens than it closes. -/
def bracketDepth : List Token → Int
  | [] => 0
  | token :: tokens => depthChange token.kind + bracketDepth tokens

/-- Whether every comma of a row stands between brackets, `depth` of which are open in front of the
row. -/
def EnclosesCommas (depth : Int) (tokens : List Token) : Prop :=
  ∀ front back, tokens = front ++ .punct .comma :: back → depth + bracketDepth front ≠ 0

/-- Whether rows are those that the commas outside of brackets part. -/
inductive AreParted : List (List Token) → Prop
  | last {part : List Token} (h : EnclosesCommas 0 part) : AreParted [part]
  | cons {part : List Token} {parts : List (List Token)} (h : EnclosesCommas 0 part)
      (hclosed : bracketDepth part = 0) (hparts : AreParted parts) : AreParted (part :: parts)

theorem enclosesCommas_nil (depth : Int) : EnclosesCommas depth [] := by
  intro front back h
  simp at h

theorem enclosesCommas_cons {depth : Int} {token : Token} {tokens : List Token}
    (hspelled : token.IsSpelled) :
    EnclosesCommas depth (token :: tokens) ↔
      ¬(token.kind = .comma ∧ depth = 0) ∧
        EnclosesCommas (depth + depthChange token.kind) tokens := by
  constructor
  · intro h
    refine ⟨fun ⟨hcomma, hdepth⟩ => ?_, fun front back htokens => ?_⟩
    · refine h [] tokens ?_ (by simpa [bracketDepth] using hdepth)
      rw [List.nil_append, ← hspelled.eq_punct hcomma (by decide)]
    · have hfront := h (token :: front) back (by rw [htokens, List.cons_append])
      rwa [bracketDepth, ← Int.add_assoc] at hfront
  · rintro ⟨hcomma, htokens⟩ front back h
    cases front with
    | nil =>
      obtain ⟨rfl, rfl⟩ := List.cons.inj h
      intro hdepth
      exact hcomma ⟨rfl, by simpa [bracketDepth] using hdepth⟩
    | cons first front =>
      obtain ⟨rfl, rfl⟩ := List.cons.inj h
      rw [bracketDepth, ← Int.add_assoc]
      exact htokens front back rfl

theorem AreParted.ne_nil {parts : List (List Token)} (h : AreParted parts) : parts ≠ [] := by
  cases h <;> simp

private theorem areParted_cons {part : List Token} {parts : List (List Token)}
    (h : EnclosesCommas 0 part) (hparts : parts = [] ∨ 0 + bracketDepth part = 0 ∧ AreParted parts) :
    AreParted (part :: parts) := by
  rcases hparts with rfl | ⟨hclosed, hparts⟩
  · exact .last h
  · exact .cons h (by rwa [Int.zero_add] at hclosed) hparts

/-- The first part may be entered within brackets, those behind it are not. -/
private theorem splitCommas_parted {depth : Int} {tokens : List Token}
    (hspelled : ∀ token ∈ tokens, token.IsSpelled) {part : List Token} {parts : List (List Token)}
    (h : splitCommas depth tokens = part :: parts) :
    EnclosesCommas depth part ∧
      (parts = [] ∨ depth + bracketDepth part = 0 ∧ AreParted parts) := by
  fun_induction splitCommas depth tokens generalizing part parts with
  | case1 =>
    obtain ⟨rfl, rfl⟩ := List.cons.inj h
    exact ⟨enclosesCommas_nil _, .inl rfl⟩
  | case2 depth token rest hcomma ih =>
    obtain ⟨rfl, rfl⟩ := List.cons.inj h
    obtain ⟨first, more, hrest⟩ := List.exists_cons_of_ne_nil (splitCommas_ne_nil depth rest)
    obtain ⟨hfirst, hmore⟩ := ih (List.forall_mem_cons.mp hspelled).2 hrest
    refine ⟨enclosesCommas_nil _, .inr ⟨?_, ?_⟩⟩
    · simpa [bracketDepth] using hcomma.2
    · rw [hrest]
      rw [hcomma.2] at hfirst hmore
      exact areParted_cons hfirst hmore
  | case3 depth token rest hcomma hparts ih => exact absurd hparts (splitCommas_ne_nil _ _)
  | case4 depth token rest hcomma first more hrest ih =>
    obtain ⟨rfl, rfl⟩ := List.cons.inj h
    obtain ⟨htoken, hspelled⟩ := List.forall_mem_cons.mp hspelled
    obtain ⟨hfirst, hmore⟩ := ih hspelled hrest
    refine ⟨(enclosesCommas_cons htoken).mpr ⟨hcomma, hfirst⟩, ?_⟩
    rwa [bracketDepth, ← Int.add_assoc]

/-- A row without commas outside of brackets belongs to the first part. -/
private theorem splitCommas_append {depth : Int} {part : List Token}
    (hspelled : ∀ token ∈ part, token.IsSpelled) (h : EnclosesCommas depth part)
    {rest first : List Token} {others : List (List Token)}
    (hrest : splitCommas (depth + bracketDepth part) rest = first :: others) :
    splitCommas depth (part ++ rest) = (part ++ first) :: others := by
  induction part generalizing depth with
  | nil => simpa [bracketDepth] using hrest
  | cons token part ih =>
    obtain ⟨htoken, hspelled⟩ := List.forall_mem_cons.mp hspelled
    obtain ⟨hcomma, hpart⟩ := (enclosesCommas_cons htoken).mp h
    rw [bracketDepth, ← Int.add_assoc] at hrest
    rw [List.cons_append, splitCommas, if_neg hcomma, ih hspelled hpart hrest]
    rfl

/-- Tokens are split into the rows that the commas outside of brackets part. -/
theorem splitCommas_eq_iff {tokens : List Token} (hspelled : ∀ token ∈ tokens, token.IsSpelled)
    {parts : List (List Token)} :
    splitCommas 0 tokens = parts ↔
      AreParted parts ∧ tokens = [Token.punct .comma].intercalate parts := by
  constructor
  · rintro rfl
    obtain ⟨first, more, hparts⟩ := List.exists_cons_of_ne_nil (splitCommas_ne_nil 0 tokens)
    obtain ⟨hfirst, hmore⟩ := splitCommas_parted hspelled hparts
    exact ⟨hparts ▸ areParted_cons hfirst hmore, (splitCommas_intercalate hspelled).symm⟩
  · rintro ⟨h, rfl⟩
    induction h with
    | @last part h =>
      rw [List.intercalate_singleton] at hspelled ⊢
      have hpart : splitCommas 0 (part ++ []) = [part ++ []] := splitCommas_append hspelled h rfl
      rwa [List.append_nil] at hpart
    | @cons part parts h hclosed hparts ih =>
      rw [List.intercalate_cons_of_ne_nil hparts.ne_nil, List.append_assoc] at hspelled ⊢
      obtain ⟨hpart, hrest⟩ := List.forall_mem_append.mp hspelled
      have hbehind : splitCommas (0 + bracketDepth part)
          ([Token.punct .comma] ++ [Token.punct .comma].intercalate parts) = [] :: parts := by
        rw [hclosed, List.singleton_append, splitCommas, if_pos ⟨rfl, rfl⟩, Int.add_zero,
          ih (List.forall_mem_append.mp hrest).2]
      rw [splitCommas_append hpart h hbehind, List.append_nil]

end Commas

section Parameters

/-- The words that can stand in front of a parameter. -/
def parameterModifiers : List Modifier :=
  [.receiver, .variadic, .byRef, .byOut, .byIn, .scopedRef, .readOnly]

/-- Whether a row of tokens starts with a word that can stand in front of a parameter. -/
def StartsModified (tokens : List Token) : Prop :=
  ∃ modifier ∈ parameterModifiers, tokens.head? = some (.keyword modifier.word)

theorem parameterModifier?_word {modifier : Modifier} (h : modifier ∈ parameterModifiers) :
    parameterModifier? (.keyword modifier.word) = some modifier := by
  have hall : parameterModifiers.all fun modifier =>
      parameterModifier? (.keyword modifier.word) == some modifier := by decide
  simpa using List.all_eq_true.mp hall modifier h

theorem mem_of_parameterModifier? {token : Token} {modifier : Modifier}
    (h : parameterModifier? token = some modifier) : modifier ∈ parameterModifiers := by
  unfold parameterModifier? at h
  split at h
  · cases h
  · split at h <;> cases h
    all_goals decide

private theorem splitModifiers_spec (tokens : List Token) :
    (∀ modifier ∈ (splitModifiers tokens).1, modifier ∈ parameterModifiers) ∧
      ¬StartsModified (splitModifiers tokens).2 := by
  fun_induction splitModifiers tokens with
  | case1 => simp [StartsModified]
  | case2 token rest modifier hmodifier ih =>
    exact ⟨List.forall_mem_cons.mpr ⟨mem_of_parameterModifier? hmodifier, ih.1⟩, ih.2⟩
  | case3 token rest hnone =>
    refine ⟨by simp, ?_⟩
    rintro ⟨modifier, hmodifier, htoken⟩
    obtain rfl := Option.some.inj htoken
    simp [parameterModifier?_word hmodifier] at hnone

private theorem splitModifiers_row {modifiers : List Modifier} {rest : List Token}
    (hmodifiers : ∀ modifier ∈ modifiers, modifier ∈ parameterModifiers)
    (hrest : ¬StartsModified rest) :
    splitModifiers (modifiers.map (fun modifier => .keyword modifier.word) ++ rest) =
      (modifiers, rest) := by
  induction modifiers with
  | nil =>
    cases rest with
    | nil => rfl
    | cons token rest =>
      have hnone : parameterModifier? token = none := by
        refine Option.eq_none_iff_forall_ne_some.mpr fun modifier h => hrest ?_
        exact ⟨modifier, mem_of_parameterModifier? h, congrArg some (parameterModifier?_eq h)⟩
      simp [splitModifiers, hnone]
  | cons modifier modifiers ih =>
    obtain ⟨hmodifier, hmodifiers⟩ := List.forall_mem_cons.mp hmodifiers
    simp [splitModifiers, parameterModifier?_word hmodifier, ih hmodifiers]

variable {IsType : List Token → Prop}

/-- Whether the row of tokens that a type is written with has a property. -/
def HasRow (IsType : List Token → Prop) (type : TypeExpr) : Prop :=
  IsType type.toTree.leaves

theorem hasRow_tokens {row : List Token} : HasRow IsType (.tokens row) ↔ IsType row := by
  rw [HasRow, leaves_type]

/-- The rows of tokens that are read as parameters without default values: modifiers, a type and a
name. -/
inductive IsDeclared (IsType : List Token → Prop) : List Token → Parameter → Prop
  | intro {modifiers : List Modifier} {type : List Token} {name : String}
      (hmodifiers : ∀ modifier ∈ modifiers, modifier ∈ parameterModifiers)
      (hne : type ≠ []) (hfirst : ¬StartsModified type)
      (hequal : ∀ token ∈ type, token.kind ≠ .equal) (htype : IsType type) :
      IsDeclared IsType
        (modifiers.map (fun modifier => .keyword modifier.word) ++ (type ++ [.ident name]))
        { modifiers, type := .tokens type, name }

/-- The rows of tokens that are read as parameters. -/
inductive IsParameter (IsType : List Token → Prop) : List Token → Parameter → Prop
  | required {tokens : List Token} {parameter : Parameter}
      (h : IsDeclared IsType tokens parameter) : IsParameter IsType tokens parameter
  | optional {tokens value : List Token} {parameter : Parameter} {default : Expr}
      (h : IsDeclared IsType tokens parameter) (hvalue : defaultValue? value = some default) :
      IsParameter IsType (tokens ++ .punct .equal :: value)
        { parameter with default := some default }

theorem startsModified_append {type : List Token} (hne : type ≠ []) (others : List Token) :
    StartsModified (type ++ others) ↔ StartsModified type := by
  obtain ⟨first, rest, rfl⟩ := List.exists_cons_of_ne_nil hne
  exact Iff.rfl

theorem isDeclared_iff {tokens : List Token} {parameter : Parameter} :
    IsDeclared IsType tokens parameter ↔
      bareParameter? tokens = some parameter ∧ (∀ token ∈ tokens, token.kind ≠ .equal) ∧
        HasRow IsType parameter.type := by
  constructor
  · rintro ⟨hmodifiers, hne, hfirst, hequal, htype⟩
    refine ⟨?_, ?_, hasRow_tokens.mpr htype⟩
    · rw [bareParameter?, splitModifiers_row hmodifiers (by rwa [startsModified_append hne])]
      simp [Token.ident, hne]
    · simp only [List.forall_mem_append, List.forall_mem_map, List.forall_mem_singleton]
      exact ⟨fun _ _ => Kind.noConfusion, hequal, Kind.noConfusion⟩
  · rintro ⟨h, hequal, htype⟩
    obtain ⟨hmodifiers, hfirst⟩ := splitModifiers_spec tokens
    have htokens := splitModifiers_eq tokens
    rw [bareParameter?] at h
    generalize splitModifiers tokens = halves at h hmodifiers hfirst htokens
    dsimp only at h
    split at h
    · next name type hrest =>
      split at h
      · next hname =>
        obtain rfl := Option.some.inj h
        have hne : type.reverse ≠ [] := by simpa using hname.2
        rw [eq_of_reverse hrest hname.1] at htokens hfirst
        rw [startsModified_append hne] at hfirst
        rw [htokens] at hequal ⊢
        refine .intro hmodifiers hne hfirst (fun token hm => hequal token ?_)
          (hasRow_tokens.mp htype)
        exact List.mem_append_right _ (List.mem_append_left _ hm)
      · cases h
    · cases h

theorem isParameter_iff {tokens : List Token} (hspelled : ∀ token ∈ tokens, token.IsSpelled)
    {parameter : Parameter} :
    IsParameter IsType tokens parameter ↔
      parameter? tokens = some parameter ∧ HasRow IsType parameter.type := by
  constructor
  · rintro (h | ⟨h, hvalue⟩)
    · obtain ⟨hbare, hequal, htype⟩ := isDeclared_iff.mp h
      have hpos : ∀ token ∈ tokens, decide (token.kind ≠ .equal) = true := by simpa using hequal
      refine ⟨?_, htype⟩
      rw [parameter?, List.takeWhile_eq_self_iff.mpr hpos, List.dropWhile_eq_nil_iff.mpr hpos]
      exact hbare
    · next declared value bare default =>
      obtain ⟨hbare, hequal, htype⟩ := isDeclared_iff.mp h
      have hpos : ∀ token ∈ declared, decide (token.kind ≠ .equal) = true := by simpa using hequal
      refine ⟨?_, htype⟩
      rw [parameter?, List.takeWhile_append_of_pos hpos, List.dropWhile_append_of_pos hpos]
      simp [Token.punct, hbare, hvalue]
  · rintro ⟨h, htype⟩
    have htokens : tokens.takeWhile (·.kind ≠ .equal) ++ tokens.dropWhile (·.kind ≠ .equal) =
        tokens := List.takeWhile_append_dropWhile
    have hdeclared : ∀ token ∈ tokens.takeWhile (·.kind ≠ .equal), token.kind ≠ .equal := by
      intro token hm
      simpa using List.mem_takeWhile_imp hm
    unfold parameter? at h
    split at h
    · next hrest =>
      rw [hrest, List.append_nil] at htokens
      rw [htokens] at h hdeclared
      exact .required (isDeclared_iff.mpr ⟨h, hdeclared, htype⟩)
    · next sign value hrest =>
      obtain ⟨default, hdefault, hparameter⟩ := Option.bind_eq_some_iff.mp h
      obtain ⟨bare, hbare, rfl⟩ := Option.map_eq_some_iff.mp hparameter
      rw [hrest] at htokens
      have hsign : sign.IsSpelled := hspelled sign (htokens ▸ by simp)
      rw [← htokens, hsign.eq_punct (kind_of_dropWhile hrest) (by decide)]
      exact .optional (isDeclared_iff.mpr ⟨hbare, hdeclared, htype⟩) hdefault

end Parameters

section Lists

variable {IsType : List Token → Prop}

/-- A list is read if each of its items is. -/
private theorem forall₂_iff_mapM {α β : Type} {Reads : α → β → Prop} {read : α → Option β}
    {HasProperty : β → Prop} {items : List α} {results : List β}
    (h : ∀ item ∈ items, ∀ result,
      Reads item result ↔ read item = some result ∧ HasProperty result) :
    List.Forall₂ Reads items results ↔
      items.mapM read = some results ∧ ∀ result ∈ results, HasProperty result := by
  induction items generalizing results with
  | nil => cases results <;> simp
  | cons item items ih =>
    obtain ⟨hitem, hitems⟩ := List.forall_mem_cons.mp h
    rw [List.mapM_cons, List.forall₂_cons_left_iff]
    constructor
    · rintro ⟨result, others, hresult, hothers, rfl⟩
      obtain ⟨hread, hproperty⟩ := (hitem result).mp hresult
      obtain ⟨hreads, hproperties⟩ := (ih hitems).mp hothers
      rw [hread, hreads]
      exact ⟨rfl, List.forall_mem_cons.mpr ⟨hproperty, hproperties⟩⟩
    · rintro ⟨hreads, hproperties⟩
      obtain ⟨result, hread, hrest⟩ := Option.bind_eq_some_iff.mp hreads
      obtain ⟨others, hothers, hresults⟩ := Option.bind_eq_some_iff.mp hrest
      obtain rfl := Option.some.inj hresults
      obtain ⟨hproperty, hproperties⟩ := List.forall_mem_cons.mp hproperties
      exact ⟨result, others, (hitem result).mpr ⟨hread, hproperty⟩,
        (ih hitems).mpr ⟨hothers, hproperties⟩, rfl⟩

/-- The rows between the commas outside of brackets are read if each of them is. -/
private theorem readParts_iff {α : Type} {Reads : List Token → α → Prop}
    {read : List Token → Option α} {HasProperty : α → Prop} {tokens : List Token}
    (hspelled : ∀ token ∈ tokens, token.IsSpelled)
    (h : ∀ part ⊆ tokens, ∀ result,
      Reads part result ↔ read part = some result ∧ HasProperty result) {results : List α} :
    (∃ parts, AreParted parts ∧ tokens = [Token.punct .comma].intercalate parts ∧
      List.Forall₂ Reads parts results) ↔
      (splitCommas 0 tokens).mapM read = some results ∧
        ∀ result ∈ results, HasProperty result := by
  rw [← forall₂_iff_mapM fun part hm => h part (subset_of_splitCommas hm)]
  constructor
  · rintro ⟨parts, hparted, htokens, hreads⟩
    rwa [(splitCommas_eq_iff hspelled).mpr ⟨hparted, htokens⟩]
  · intro hreads
    obtain ⟨hparted, htokens⟩ := (splitCommas_eq_iff hspelled).mp rfl
    exact ⟨_, hparted, htokens, hreads⟩

/-- The rows of tokens that are read as the parameters of a method. -/
inductive AreParameters (IsType : List Token → Prop) (tokens : List Token) :
    List Parameter → Prop
  | none (hempty : tokens = []) : AreParameters IsType tokens []
  | some {parts : List (List Token)} {parameters : List Parameter} (hparted : AreParted parts)
      (htokens : tokens = [Token.punct .comma].intercalate parts)
      (h : List.Forall₂ (IsParameter IsType) parts parameters) :
      AreParameters IsType tokens parameters

theorem areParameters_iff {tokens : List Token} (hspelled : ∀ token ∈ tokens, token.IsSpelled)
    {parameters : List Parameter} :
    AreParameters IsType tokens parameters ↔
      parameters? tokens = some parameters ∧
        ∀ parameter ∈ parameters, HasRow IsType parameter.type := by
  have hpart : ∀ part ⊆ tokens, ∀ parameter, IsParameter IsType part parameter ↔
      parameter? part = some parameter ∧ HasRow IsType parameter.type :=
    fun part hm _ => isParameter_iff fun token ht => hspelled token (hm ht)
  rw [parameters?]
  constructor
  · rintro (rfl | ⟨hparted, htokens, h⟩)
    · exact ⟨rfl, by simp⟩
    · obtain ⟨hread, htypes⟩ := (readParts_iff hspelled hpart).mp ⟨_, hparted, htokens, h⟩
      refine ⟨?_, htypes⟩
      split
      · next hempty =>
        -- The only part of no tokens is empty, which is no parameter.
        rw [List.isEmpty_iff.mp hempty] at hread
        cases hread
      · exact hread
  · rintro ⟨h, htypes⟩
    split at h
    · next hempty =>
      obtain rfl := Option.some.inj h
      exact .none (List.isEmpty_iff.mp hempty)
    · obtain ⟨parts, hparted, htokens, hreads⟩ := (readParts_iff hspelled hpart).mpr ⟨h, htypes⟩
      exact .some hparted htokens hreads

theorem typeParameter?_eq_some_iff {tokens : List Token} {name : String} :
    typeParameter? tokens = some name ↔ tokens = [.ident name] := by
  constructor
  · intro h
    have hleaves := typeParameter?_leaves h
    exact hleaves.symm
  · rintro rfl
    rfl

private theorem areParted_names {names : List String} (hne : names ≠ []) :
    AreParted (names.map fun name => [.ident name]) := by
  have hpart (name : String) : EnclosesCommas 0 [.ident name] :=
    (enclosesCommas_cons (.inl rfl)).mpr ⟨by simp [Token.ident], enclosesCommas_nil _⟩
  induction names with
  | nil => exact absurd rfl hne
  | cons name names ih =>
    by_cases hnames : names = []
    · subst hnames
      exact .last (hpart name)
    · exact .cons (hpart name) rfl (ih hnames)

theorem typeParameters_iff {tokens : List Token} (hspelled : ∀ token ∈ tokens, token.IsSpelled)
    {names : List String} :
    (splitCommas 0 tokens).mapM typeParameter? = some names ↔
      names ≠ [] ∧
        tokens = [Token.punct .comma].intercalate (names.map fun name => [.ident name]) := by
  have hpart : ∀ part ⊆ tokens, ∀ name,
      part = [.ident name] ↔ typeParameter? part = some name ∧ True :=
    fun part _ name => by rw [typeParameter?_eq_some_iff, and_true]
  have hnames {parts : List (List Token)} :
      List.Forall₂ (fun part name => part = [.ident name]) parts names ↔
        parts = names.map fun name => [.ident name] := by
    rw [← List.forall₂_map_right_iff, List.forall₂_eq_eq_eq]
  constructor
  · intro h
    obtain ⟨parts, hparted, htokens, hreads⟩ := (readParts_iff hspelled hpart).mpr ⟨h, by simp⟩
    obtain rfl := hnames.mp hreads
    exact ⟨by simpa using hparted.ne_nil, htokens⟩
  · rintro ⟨hne, htokens⟩
    exact ((readParts_iff hspelled hpart).mp ⟨_, areParted_names hne, htokens, hnames.mpr rfl⟩).1

end Lists

section Whole

variable {IsType : List Token → Prop}

/-- The row of tokens that is read as the type parameters of a method. -/
def typeParameterRow (names : List String) : List Token :=
  if names = [] then []
  else
    .punct .leftAngle :: [Token.punct .comma].intercalate (names.map fun name => [.ident name]) ++
      [.punct .rightAngle]

/-- The rows of tokens that are read as signatures: a type, a name, type parameters and parameters
between parentheses. -/
inductive IsSignature (IsType : List Token → Prop) : List Token → Signature → Prop
  | intro {result inside : List Token} {name : String} {typeParameters : List String}
      {parameters : List Parameter} (hne : result ≠ []) (hresult : IsType result)
      (hinside : Token.IsBalanced [(.leftParen, .rightParen)] inside)
      (hparameters : AreParameters IsType inside parameters) :
      IsSignature IsType
        (result ++ .ident name :: typeParameterRow typeParameters ++ .punct .leftParen :: inside ++
          [.punct .rightParen])
        ⟨.tokens result, name, typeParameters, parameters⟩

/-- Whether the rows of tokens that the types in a signature are written with have a property. -/
structure HasTypes (IsType : List Token → Prop) (signature : Signature) : Prop where
  result : HasRow IsType signature.result
  parameters : ∀ parameter ∈ signature.parameters, HasRow IsType parameter.type

instance [DecidablePred IsType] (signature : Signature) : Decidable (signature.HasTypes IsType) :=
  have (type : TypeExpr) : Decidable (HasRow IsType type) := inferInstanceAs (Decidable (IsType _))
  decidable_of_iff (HasRow IsType signature.result ∧
      ∀ parameter ∈ signature.parameters, HasRow IsType parameter.type)
    ⟨fun ⟨result, parameters⟩ => ⟨result, parameters⟩, fun h => ⟨h.result, h.parameters⟩⟩

theorem named?_eq_some_iff {tokens : List Token} {typeParameters : List String}
    {parameters : List Parameter} {signature : Signature} :
    named? tokens typeParameters parameters = some signature ↔
      ∃ result name, result ≠ [] ∧ tokens = result ++ [.ident name] ∧
        signature = ⟨.tokens result, name, typeParameters, parameters⟩ := by
  constructor
  · intro h
    unfold named? at h
    split at h
    · next name type htokens =>
      split at h
      · next hname =>
        obtain rfl := Option.some.inj h
        exact ⟨_, _, by simpa using hname.2, eq_of_reverse htokens hname.1, rfl⟩
      · cases h
    · cases h
  · rintro ⟨result, name, hne, rfl, rfl⟩
    simp [named?, Token.ident, hne]

theorem isBalanced_of_other {opening closing : Kind} {tokens : List Token}
    (h : ∀ token ∈ tokens, token.kind ≠ opening ∧ token.kind ≠ closing) :
    Token.IsBalanced [(opening, closing)] tokens := by
  induction tokens with
  | nil => rfl
  | cons token tokens ih =>
    obtain ⟨⟨hopening, hclosing⟩, htokens⟩ := List.forall_mem_cons.mp h
    rw [Token.IsBalanced, List.foldlM_cons, Token.await?_other _ hopening hclosing]
    exact ih htokens

private theorem kind_of_mem_names {names : List String} {token : Token}
    (h : token ∈ [Token.punct .comma].intercalate (names.map fun name => [.ident name])) :
    token.kind = .identifier ∨ token.kind = .comma := by
  induction names with
  | nil => cases h
  | cons name names ih =>
    cases names with
    | nil =>
      obtain rfl := List.mem_singleton.mp h
      exact .inl rfl
    | cons next names =>
      rw [List.map_cons, List.intercalate_cons_of_ne_nil (by simp), List.append_assoc,
        List.mem_append, List.mem_append, List.mem_singleton, List.mem_singleton] at h
      rcases h with rfl | rfl | h
      · exact .inl rfl
      · exact .inr rfl
      · exact ih h

/-- The result type, name and type parameters in front of parameters that may be read. -/
def heading? (tokens : List Token) (parameters : Option (List Parameter)) : Option Signature :=
  tokens.getLast?.bind fun last =>
    if last.kind = .rightAngle then
      (splitLastPair .leftAngle .rightAngle tokens).bind fun (names, front) =>
        ((splitCommas 0 names).mapM typeParameter?).bind fun typeParameters =>
          parameters.bind fun parameters => named? front typeParameters parameters
    else parameters.bind fun parameters => named? tokens [] parameters

theorem heading?_eq_some_iff {tokens : List Token} (hspelled : ∀ token ∈ tokens, token.IsSpelled)
    {read : Option (List Parameter)} {signature : Signature} :
    heading? tokens read = some signature ↔
      ∃ result name typeParameters parameters, result ≠ [] ∧
        tokens = result ++ .ident name :: typeParameterRow typeParameters ∧
        read = some parameters ∧
        signature = ⟨.tokens result, name, typeParameters, parameters⟩ := by
  constructor
  · intro h
    obtain ⟨last, hlast, h⟩ := Option.bind_eq_some_iff.mp h
    split at h
    · next hkind =>
      obtain ⟨⟨names, front⟩, hsplit, h⟩ := Option.bind_eq_some_iff.mp h
      obtain ⟨typeParameters, hnames, h⟩ := Option.bind_eq_some_iff.mp h
      obtain ⟨parameters, hread, h⟩ := Option.bind_eq_some_iff.mp h
      obtain ⟨result, name, hne, rfl, rfl⟩ := named?_eq_some_iff.mp h
      obtain ⟨rfl, -⟩ := enclosed_of_splitLastPair (by decide) (by decide) (by decide) hspelled
        hlast hkind hsplit
      obtain ⟨hnonempty, rfl⟩ :=
        (typeParameters_iff fun token hm => hspelled token (by simp [hm])).mp hnames
      refine ⟨result, name, typeParameters, parameters, hne, ?_, hread, rfl⟩
      simp [typeParameterRow, hnonempty]
    · obtain ⟨parameters, hread, h⟩ := Option.bind_eq_some_iff.mp h
      obtain ⟨result, name, hne, htokens, rfl⟩ := named?_eq_some_iff.mp h
      exact ⟨result, name, [], parameters, hne, htokens, hread, rfl⟩
  · rintro ⟨result, name, typeParameters, parameters, hne, rfl, rfl, rfl⟩
    by_cases hnames : typeParameters = []
    · subst hnames
      rw [heading?, typeParameterRow, if_pos rfl, List.getLast?_concat]
      exact named?_eq_some_iff.mpr ⟨result, name, hne, rfl, rfl⟩
    · have hrow : result ++ .ident name :: typeParameterRow typeParameters =
          (result ++ [.ident name]) ++ .punct .leftAngle ::
            [Token.punct .comma].intercalate (typeParameters.map fun name => [.ident name]) ++
            [.punct .rightAngle] := by
        simp [typeParameterRow, hnames]
      have hwithin : ∀ token ∈
          [Token.punct .comma].intercalate (typeParameters.map fun name => [.ident name]),
          token.kind ≠ .leftAngle ∧ token.kind ≠ .rightAngle := by
        intro token hm
        rcases kind_of_mem_names hm with h | h <;> simp [h]
      rw [hrow] at hspelled ⊢
      have hread := (typeParameters_iff fun token hm => hspelled token (by simp [hm])).mpr
        ⟨hnames, rfl⟩
      rw [heading?, List.getLast?_concat, Option.bind_some, if_pos (by rfl),
        splitLastPair_enclosed (by decide) (isBalanced_of_other hwithin)]
      simp only [Option.bind_some, hread]
      exact named?_eq_some_iff.mpr ⟨result, name, hne, rfl, rfl⟩

private theorem ofTokens?_row {before inside : List Token}
    (hinside : Token.IsBalanced [(.leftParen, .rightParen)] inside) :
    ofTokens? (before ++ .punct .leftParen :: inside ++ [.punct .rightParen]) =
      heading? before (parameters? inside) := by
  rw [ofTokens?, List.getLast?_concat, splitLastPair_enclosed (by decide) hinside]
  rfl

theorem isSignature_iff {tokens : List Token} (hspelled : ∀ token ∈ tokens, token.IsSpelled)
    {signature : Signature} :
    IsSignature IsType tokens signature ↔
      ofTokens? tokens = some signature ∧ signature.HasTypes IsType := by
  constructor
  · rintro @⟨result, inside, name, typeParameters, parameters, hne, hresult, hinside, hparameters⟩
    obtain ⟨hread, htypes⟩ := (areParameters_iff fun token hm => hspelled token (by simp [hm])).mp
      hparameters
    refine ⟨?_, hasRow_tokens.mpr hresult, htypes⟩
    rw [ofTokens?_row hinside, hread]
    refine (heading?_eq_some_iff fun token hm => hspelled token ?_).mpr
      ⟨result, name, typeParameters, parameters, hne, rfl, rfl, rfl⟩
    exact List.mem_append_left _ (List.mem_append_left _ hm)
  · rintro ⟨h, htypes⟩
    obtain ⟨last, hlast, hguarded⟩ := Option.bind_eq_some_iff.mp h
    obtain ⟨_, hguard, hsplits⟩ := Option.bind_eq_some_iff.mp hguarded
    have hclosing : last.kind = .rightParen := by
      by_contra hkind
      rw [guard_neg hkind] at hguard
      cases hguard
    obtain ⟨⟨inside, before⟩, hsplit, -⟩ := Option.bind_eq_some_iff.mp hsplits
    obtain ⟨rfl, hinside⟩ := enclosed_of_splitLastPair (by decide) (by decide) (by decide)
      hspelled hlast hclosing hsplit
    rw [ofTokens?_row hinside] at h
    obtain ⟨result, name, typeParameters, parameters, hne, rfl, hread, rfl⟩ :=
      (heading?_eq_some_iff fun token hm => hspelled token (by simp [hm])).mp h
    refine .intro hne (hasRow_tokens.mp htypes.result) hinside ?_
    refine (areParameters_iff fun token hm => ?_).mpr ⟨hread, htypes.parameters⟩
    exact hspelled token (by simp [hm])

end Whole

section Texts

variable {IsType : List Token → Prop} {text : String} {signature : Signature}

/-- Whether a row of tokens is a type, by the tokens that the names of types are made of and its
brackets. -/
def IsTypeRow (row : List Token) : Prop :=
  (∀ token ∈ row, token.kind ∈ .identifier :: .keyword :: Token.typeMarks) ∧
    Token.IsBalanced [(.leftAngle, .rightAngle), (.leftBracket, .rightBracket)] row

instance : DecidablePred IsTypeRow :=
  fun _ => inferInstanceAs (Decidable (_ ∧ _))

/-- The texts that are read as signatures: the tokens of one, and a semicolon or none behind it. -/
structure IsSignatureText (IsType : List Token → Prop) (text : String) (signature : Signature) :
    Prop where
  readable : ∀ token ∈ Token.significant text, token.kind ≠ .error ∧ token.kind ≠ .lineComment
  row : ∃ row, IsSignature IsType row signature ∧
    (Token.significant text = row ∨ Token.significant text = row ++ [.punct .semicolon])

theorem withoutSemicolon_concat {tokens : List Token} {last : Token} (h : last.kind ≠ .semicolon) :
    withoutSemicolon (tokens ++ [last]) = tokens ++ [last] := by
  rw [withoutSemicolon, List.getLast?_concat]
  exact if_neg h

theorem withoutSemicolon_semicolon (tokens : List Token) :
    withoutSemicolon (tokens ++ [.punct .semicolon]) = tokens := by
  rw [withoutSemicolon, List.getLast?_concat]
  exact List.dropLast_concat

theorem withoutSemicolon_eq {tokens : List Token} (hspelled : ∀ token ∈ tokens, token.IsSpelled) :
    tokens = withoutSemicolon tokens ∨ tokens = withoutSemicolon tokens ++ [.punct .semicolon] := by
  rcases List.eq_nil_or_concat' tokens with rfl | ⟨front, last, rfl⟩
  · exact .inl rfl
  by_cases hkind : last.kind = .semicolon
  · rw [(hspelled last (by simp)).eq_punct hkind (by decide), withoutSemicolon_semicolon]
    exact .inr rfl
  · exact .inl (withoutSemicolon_concat hkind).symm

theorem IsSignature.withoutSemicolon_eq {tokens : List Token}
    (h : IsSignature IsType tokens signature) : withoutSemicolon tokens = tokens := by
  cases h
  exact withoutSemicolon_concat (by decide)

theorem parse?_eq_some_iff :
    parse? text = some signature ↔
      (∀ token ∈ Token.significant text, token.kind ≠ .error ∧ token.kind ≠ .lineComment) ∧
        ofTokens? (withoutSemicolon (Token.significant text)) = some signature := by
  rw [parse?, Option.ite_none_left_eq_some]
  simp

theorem isSignatureText_iff :
    IsSignatureText IsType text signature ↔
      parse? text = some signature ∧ signature.HasTypes IsType := by
  have hspelled := Token.significant_spelled text
  rw [parse?_eq_some_iff]
  constructor
  · rintro ⟨hreadable, row, hrow, htext⟩
    have hread : withoutSemicolon (Token.significant text) = row := by
      rcases htext with h | h
      · rw [h, hrow.withoutSemicolon_eq]
      · rw [h, withoutSemicolon_semicolon]
    have hsignature := (isSignature_iff fun token hm => hspelled token ?_).mp hrow
    · rw [hread]
      exact ⟨⟨hreadable, hsignature.1⟩, hsignature.2⟩
    · exact mem_of_withoutSemicolon (hread ▸ hm)
  · rintro ⟨⟨hreadable, hread⟩, htypes⟩
    refine ⟨hreadable, _, (isSignature_iff fun token hm => ?_).mpr ⟨hread, htypes⟩,
      withoutSemicolon_eq hspelled⟩
    exact hspelled token (mem_of_withoutSemicolon hm)

/-- Accepted are the texts with any tokens for types; those for the result and for each parameter are
types exactly if the text is a signature with types there. -/
theorem parse?_accepts_iff (text : String) (signature : Signature) :
    (parse? text = some signature ↔ IsSignatureText (fun _ => True) text signature) ∧
      (parse? text = some signature ∧ signature.HasTypes IsTypeRow ↔
        IsSignatureText IsTypeRow text signature) := by
  refine ⟨?_, isSignatureText_iff.symm⟩
  rw [isSignatureText_iff]
  exact ⟨fun h => ⟨h, trivial, fun _ _ => trivial⟩, And.left⟩

/-- Of two methods, the first one with its semicolon is taken for the result type of the second. -/
theorem parse?_accepts_two_methods :
    ∃ signature, parse? "string A(); string B()" = some signature ∧ signature.name = "B" ∧
      ¬signature.HasTypes IsTypeRow := by
  have hread : (parse? "string A(); string B()").any
      (fun signature => signature.name = "B" ∧ ¬signature.HasTypes IsTypeRow) = true := by
    decide +kernel
  obtain ⟨signature, hsignature, h⟩ := (Option.any_eq_true _ _).mp hread
  exact ⟨signature, hsignature, of_decide_eq_true h⟩

example : (parse? "Task<int[]?> Get<T>(this string a, int b = -1);").any
    (fun signature => signature.HasTypes IsTypeRow) = true := by
  decide +kernel

end Texts

end Signature

end SourceGen
