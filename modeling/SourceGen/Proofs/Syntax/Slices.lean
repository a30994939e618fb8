import SourceGen.Proofs.Syntax.Signature

/-! Signatures read by indices into their tokens, as a scanner does that copies no tokens. Every
index and every bound of a slice is in range, and what is read is the same. -/

namespace SourceGen

/-- Bounds of a slice that do not lie within a list of the given length. An index counts as the
slice of one element. -/
structure OutOfRange where
  start : Nat
  stop : Nat
  length : Nat
  deriving DecidableEq, Repr

/-- A computation that may find nothing, and that fails at an index out of range. -/
abbrev Checked :=
  OptionT (Except OutOfRange)

namespace Checked

variable {α β : Type}

/-- What is found without an index. -/
def found (result : Option α) : Checked α :=
  OptionT.mk (.ok result)

def outOfRange (start stop length : Nat) : Checked α :=
  OptionT.mk (.error ⟨start, stop, length⟩)

def slice (list : List α) (start stop : Nat) : Checked (List α) :=
  if start ≤ stop ∧ stop ≤ list.length then found (some ((list.take stop).drop start))
  else outOfRange start stop list.length

def item (list : List α) (index : Nat) : Checked α :=
  match list[index]? with
  | some value => found (some value)
  | none => outOfRange index (index + 1) list.length

/-- The index in front of another one, which is out of range in front of the first. -/
def before : Nat → Checked Nat
  | 0 => outOfRange 0 0 0
  | index + 1 => found (some index)

@[simp]
theorem found_none_bind (next : α → Checked β) : found none >>= next = found none :=
  rfl

@[simp]
theorem found_some_bind (value : α) (next : α → Checked β) : found (some value) >>= next = next value :=
  rfl

theorem pure_eq (value : α) : (pure value : Checked α) = found (some value) :=
  rfl

theorem mapM_found (next : α → Option β) (items : List α) :
    items.mapM (fun item => found (next item)) = found (items.mapM next) := by
  induction items with
  | nil => rfl
  | cons item items ih =>
    rw [List.mapM_cons, List.mapM_cons, ih]
    cases next item with
    | none => rfl
    | some value => cases items.mapM next <;> rfl

/-- A slice in range is the part of the list between what stands in front of it and behind it. -/
theorem slice_eq (front back : List α) {list part : List α} {start stop : Nat}
    (h : list = front ++ part ++ back) (hstart : start = front.length)
    (hstop : stop = front.length + part.length) : slice list start stop = found (some part) := by
  have hbounds : start ≤ stop ∧ stop ≤ list.length := by
    simp only [h, hstart, hstop, List.length_append]
    omega
  rw [slice, if_pos hbounds, h, hstart, hstop, ← List.length_append, List.take_left, List.drop_left]

theorem item_eq {list front back : List α} {value : α} {index : Nat}
    (h : list = front ++ value :: back) (hindex : index = front.length) :
    item list index = found (some value) := by
  simp [item, h, hindex]

theorem before_eq {index : Nat} (h : 0 < index) : before index = found (some (index - 1)) := by
  obtain ⟨index, rfl⟩ := Nat.exists_eq_succ_of_ne_zero h.ne'
  rfl

end Checked

namespace Signature

open Checked

/-- The index of the opening bracket that closes `depth` open pairs, in tokens that are given in
reverse. -/
def openingIndex? (opening closing : Kind) : Nat → List Token → Option Nat
  | _, [] => none
  | depth, token :: rest =>
    if token.kind = closing then openingIndex? opening closing (depth + 1) rest
    else if token.kind = opening then
      match depth with
      | 0 => none
      | 1 => some rest.length
      | depth + 2 => openingIndex? opening closing (depth + 1) rest
    else openingIndex? opening closing depth rest

/-- The parts between the commas outside all brackets: the one that starts at `start` and the ones
behind it, where `index` is the number of tokens in front of the given ones. -/
def partsFrom (tokens : List Token) (depth : Int) (start index : Nat) :
    List Token → Checked (List (List Token))
  | [] => do return [← slice tokens start tokens.length]
  | token :: rest =>
    if token.kind = .comma ∧ depth = 0 then do
      let part ← slice tokens start index
      return part :: (← partsFrom tokens depth (index + 1) (index + 1) rest)
    else partsFrom tokens (depth + depthChange token.kind) start (index + 1) rest

def parts (tokens : List Token) : Checked (List (List Token)) :=
  partsFrom tokens 0 0 0 tokens

def parameterAt (tokens : List Token) : Checked Parameter :=
  match tokens.findIdx? (·.kind = .equal) with
  | some equal => do
    let declared ← slice tokens 0 equal
    let value ← found (defaultValue? (← slice tokens (equal + 1) tokens.length))
    return { ← found (bareParameter? declared) with default := some value }
  | none => found (bareParameter? tokens)

def parametersAt (tokens : List Token) : Checked (List Parameter) :=
  if tokens.isEmpty then return [] else do (← parts tokens).mapM parameterAt

/-- The result type in front of a name. -/
def namedAt (tokens : List Token) (index : Nat) : Checked Signature := do
  let name ← item tokens index
  if name.kind ≠ .identifier ∨ index = 0 then found none
  else return { result := .tokens (← slice tokens 0 index), name := name.text }

/-- The signature whose name and opening parenthesis have the given indices. -/
def signatureAt (tokens : List Token) (opening index : Nat) (typeParameters : List String) :
    Checked Signature := do
  let signature ← namedAt tokens index
  let inside ← slice tokens (opening + 1) (← Checked.before tokens.length)
  return { signature with typeParameters, parameters := ← parametersAt inside }

/-- The signature whose type parameters end in front of the opening parenthesis. -/
def genericAt (tokens before : List Token) : Checked Signature := do
  let bracket ← found (openingIndex? .leftAngle .rightAngle 0 before.reverse)
  let names ← parts (← slice tokens (bracket + 1) (← Checked.before before.length))
  let names ← names.mapM fun part => found (typeParameter? part)
  let index ← found (if bracket = 0 then none else some (bracket - 1))
  signatureAt tokens before.length index names

/-- Reads a signature by indices into its tokens. -/
def readAt (tokens : List Token) : Checked Signature := do
  let last ← found tokens.getLast?
  if last.kind ≠ .rightParen then found none
  else
    let opening ← found (openingIndex? .leftParen .rightParen 0 tokens.reverse)
    let before ← slice tokens 0 opening
    let angle ← found before.getLast?
    if angle.kind = .rightAngle then genericAt tokens before
    else signatureAt tokens opening (← Checked.before opening) []

/-- Reads a single method signature by indices into its tokens. -/
def parseAt (text : String) : Checked Signature :=
  let tokens := Token.significant text
  if tokens.any fun token => token.kind == .error || token.kind == .lineComment then found none
  else readAt (withoutSemicolon tokens)

theorem openingIndex?_eq (opening closing : Kind) (depth : Nat) (tokens : List Token) :
    openingIndex? opening closing depth tokens =
      (splitOpening opening closing depth tokens).map (·.2.length) := by
  induction tokens generalizing depth with
  | nil => simp [openingIndex?, splitOpening]
  | cons token rest ih =>
    rw [openingIndex?.eq_def, splitOpening.eq_def]
    dsimp only
    split
    · rw [ih, Option.map_map]
      rfl
    split
    · split
      · rfl
      · rfl
      · rw [ih, Option.map_map]
        rfl
    · rw [ih, Option.map_map]
      rfl

theorem openingIndex?_reverse (opening closing : Kind) (tokens : List Token) :
    openingIndex? opening closing 0 tokens.reverse =
      (splitLastPair opening closing tokens).map (·.2.length) := by
  rw [openingIndex?_eq, splitLastPair, Option.map_map]
  refine congrArg (Option.map · _) (funext fun halves => ?_)
  exact List.length_reverse.symm

/-- The part that has been entered goes on with the first part of what is left. -/
private theorem partsFrom_eq (front part : List Token) {tokens rest next : List Token}
    {others : List (List Token)} {depth : Int} (h : tokens = front ++ part ++ rest)
    (hparts : splitCommas depth rest = next :: others) :
    partsFrom tokens depth front.length (front ++ part).length rest =
      found (some ((part ++ next) :: others)) := by
  induction rest generalizing depth front part next others with
  | nil =>
    have hlength : tokens.length = front.length + part.length := by simp [h]
    obtain ⟨rfl, rfl⟩ := List.cons.inj hparts
    rw [partsFrom, slice_eq front [] h rfl hlength, List.append_nil]
    rfl
  | cons token rest ih =>
    obtain ⟨first, more, hrest⟩ := List.exists_cons_of_ne_nil
      (splitCommas_ne_nil (if token.kind = .comma ∧ depth = 0 then depth
        else depth + depthChange token.kind) rest)
    have hlength : (front ++ part ++ [token]).length = (front ++ part).length + 1 :=
      List.length_append
    rw [splitCommas] at hparts
    rw [partsFrom]
    split at hparts
    · next hcomma =>
      -- the part ends here, and nothing of the next one has been entered
      rw [if_pos hcomma] at hrest ⊢
      obtain ⟨rfl, rfl⟩ := List.cons.inj hparts
      have hnext := ih (front ++ part ++ [token]) [] (by simpa using h) hrest
      rw [List.append_nil, hlength] at hnext
      rw [slice_eq front _ h rfl List.length_append, found_some_bind, hnext, List.append_nil, hrest]
      rfl
    · next hcomma =>
      rw [if_neg hcomma] at hrest ⊢
      rw [hrest] at hparts
      obtain ⟨rfl, rfl⟩ := List.cons.inj hparts
      have hnext := ih front (part ++ [token]) (by simpa using h) hrest
      rw [← List.append_assoc, hlength] at hnext
      rw [hnext, List.append_assoc]
      rfl

private theorem parts_eq (tokens : List Token) :
    parts tokens = found (some (splitCommas 0 tokens)) := by
  obtain ⟨first, more, hparts⟩ := List.exists_cons_of_ne_nil (splitCommas_ne_nil 0 tokens)
  have h := partsFrom_eq [] [] rfl hparts
  rw [hparts]
  exact h

private theorem findIdx?_equal (tokens : List Token) :
    tokens.findIdx? (·.kind = .equal) =
      if tokens.dropWhile (·.kind ≠ .equal) = [] then none
      else some (tokens.takeWhile (·.kind ≠ .equal)).length := by
  have hfront : (tokens.takeWhile (·.kind ≠ .equal)).findIdx? (·.kind = .equal) = none := by
    refine List.findIdx?_eq_none_iff.mpr fun token hm => ?_
    simpa using List.mem_takeWhile_imp hm
  have htokens : tokens.takeWhile (·.kind ≠ .equal) ++ tokens.dropWhile (·.kind ≠ .equal) = tokens :=
    List.takeWhile_append_dropWhile
  rw [← htokens, List.findIdx?_append, htokens, hfront, Option.none_or]
  cases hrest : tokens.dropWhile (·.kind ≠ .equal) with
  | nil => simp
  | cons sign value => simp [List.findIdx?_cons, kind_of_dropWhile hrest]

private theorem parameterAt_eq (tokens : List Token) :
    parameterAt tokens = found (parameter? tokens) := by
  have htokens : tokens.takeWhile (·.kind ≠ .equal) ++ tokens.dropWhile (·.kind ≠ .equal) = tokens :=
    List.takeWhile_append_dropWhile
  rw [parameterAt, parameter?, findIdx?_equal]
  cases hrest : tokens.dropWhile (·.kind ≠ .equal) with
  | nil =>
    rw [hrest, List.append_nil] at htokens
    rw [if_pos rfl, htokens]
  | cons sign value =>
    rw [if_neg (List.cons_ne_nil _ _)]
    rw [hrest] at htokens
    have hdeclared : slice tokens 0 (tokens.takeWhile (·.kind ≠ .equal)).length =
        found (some (tokens.takeWhile (·.kind ≠ .equal))) :=
      slice_eq [] _ htokens.symm rfl (by simp)
    have hvalue : slice tokens ((tokens.takeWhile (·.kind ≠ .equal)).length + 1) tokens.length =
        found (some value) := by
      refine slice_eq (tokens.takeWhile (·.kind ≠ .equal) ++ [sign]) [] ?_ ?_ ?_
      · simpa using htokens.symm
      · simp
      · have hlength := congrArg List.length htokens
        simp only [List.length_append, List.length_cons, List.length_nil] at hlength ⊢
        omega
    dsimp only
    rw [hdeclared, found_some_bind, hvalue, found_some_bind]
    cases defaultValue? value with
    | none => rfl
    | some default => cases bareParameter? (tokens.takeWhile (·.kind ≠ .equal)) <;> rfl

private theorem parametersAt_eq (tokens : List Token) :
    parametersAt tokens = found (parameters? tokens) := by
  have hread : parameterAt = fun part => found (parameter? part) := funext parameterAt_eq
  unfold parametersAt parameters?
  split
  · rfl
  · rw [parts_eq, found_some_bind, hread, mapM_found]

private theorem named?_eq_map (tokens : List Token) (typeParameters : List String)
    (parameters : List Parameter) :
    named? tokens typeParameters parameters =
      (named? tokens [] []).map fun signature => { signature with typeParameters, parameters } := by
  unfold named?
  split
  · split <;> rfl
  · rfl

/-- The name of a method stands behind its result type. -/
private theorem namedAt_eq {tokens front back : List Token} (h : tokens = front ++ back)
    (hne : front ≠ []) : namedAt tokens (front.length - 1) = found (named? front [] []) := by
  obtain ⟨type, name, rfl⟩ : ∃ type name, front = type ++ [name] :=
    ⟨front.dropLast, front.getLast hne, (List.dropLast_append_getLast hne).symm⟩
  have hindex : (type ++ [name]).length - 1 = type.length := by simp
  have hname : item tokens type.length = found (some name) := item_eq (by simpa using h) rfl
  have htype : slice tokens 0 type.length = found (some type) :=
    slice_eq [] (name :: back) (by simpa using h) rfl (by simp)
  rw [hindex, namedAt, hname, found_some_bind, htype, found_some_bind, named?]
  by_cases hkind : name.kind = .identifier
  · by_cases hempty : type = []
    · simp [hempty]
    · simp [hkind, hempty, pure_eq]
  · simp [hkind]

private theorem signatureAt_eq {tokens front back inside : List Token} {opening : Nat}
    (h : tokens = front ++ back) (hne : front ≠ [])
    (hinside : slice tokens (opening + 1) (tokens.length - 1) = found (some inside))
    (typeParameters : List String) :
    signatureAt tokens opening (front.length - 1) typeParameters =
      found ((parameters? inside).bind (named? front typeParameters)) := by
  have hpos : 0 < tokens.length := by
    rw [h, List.length_append]
    exact Nat.add_pos_left (List.length_pos_iff.mpr hne) _
  have hnamed : named? front typeParameters = fun parameters =>
      (named? front [] []).map fun signature => { signature with typeParameters, parameters } :=
    funext (named?_eq_map front typeParameters)
  rw [signatureAt, namedAt_eq h hne, before_eq hpos, hnamed]
  cases named? front [] [] with
  | none => simp
  | some signature =>
    simp only [found_some_bind, hinside, parametersAt_eq]
    cases parameters? inside <;> rfl

private theorem genericAt_eq {tokens before back inside : List Token} {angle : Token}
    (h : tokens = before ++ back) (hangle : before.getLast? = some angle)
    (hkind : angle.kind = .rightAngle)
    (hinside : slice tokens (before.length + 1) (tokens.length - 1) = found (some inside)) :
    genericAt tokens before = found (do
      let (names, front) ← splitLastPair .leftAngle .rightAngle before
      let typeParameters ← (splitCommas 0 names).mapM typeParameter?
      named? front typeParameters (← parameters? inside)) := by
  rw [genericAt, openingIndex?_reverse]
  cases hsplit : splitLastPair .leftAngle .rightAngle before with
  | none => rfl
  | some halves =>
    obtain ⟨names, front⟩ := halves
    obtain ⟨bracket, -, hbefore⟩ := splitLastPair_eq hangle hkind hsplit
    have hlength : before.length = front.length + names.length + 2 := by
      simp only [hbefore, List.length_append, List.length_cons, List.length_nil]
      omega
    have hnames : slice tokens (front.length + 1) (before.length - 1) = found (some names) := by
      refine slice_eq (front ++ [bracket]) (angle :: back) ?_ ?_ ?_
      · simp [h, hbefore]
      · simp
      · simp only [hlength, List.length_append, List.length_singleton]
        omega
    have hclosing : Checked.before before.length = found (some (before.length - 1)) :=
      before_eq (by omega)
    simp only [Option.map_some, found_some_bind, hclosing, hnames, parts_eq, mapM_found,
      Option.bind_eq_bind, Option.bind_some]
    cases (splitCommas 0 names).mapM typeParameter? with
    | none => rfl
    | some typeParameters =>
      by_cases hne : front = []
      · -- no name is in front of the type parameters
        subst hne
        cases parameters? inside <;> rfl
      · have hfront : tokens = front ++ (bracket :: names ++ [angle] ++ back) := by
          rw [h, hbefore]
          simp
        have hindex : front.length ≠ 0 := by simpa using hne
        rw [if_neg hindex, found_some_bind, found_some_bind, signatureAt_eq hfront hne hinside]
        rfl

/-- Every index is in range, and the signature is the one that is read without indices. -/
theorem readAt_eq (tokens : List Token) : readAt tokens = found (ofTokens? tokens) := by
  rw [readAt, ofTokens?]
  cases hlast : tokens.getLast? with
  | none => rfl
  | some last =>
    rw [found_some_bind, Option.bind_eq_bind, Option.bind_some]
    by_cases hclosing : last.kind = .rightParen
    swap
    · rw [if_pos hclosing, guard_neg hclosing]
      rfl
    rw [if_neg (not_not_intro hclosing), guard_pos hclosing, Option.bind_eq_bind, Option.bind_some,
      openingIndex?_reverse]
    cases hsplit : splitLastPair .leftParen .rightParen tokens with
    | none => rfl
    | some halves =>
      obtain ⟨inside, before⟩ := halves
      obtain ⟨bracket, -, htokens⟩ := splitLastPair_eq hlast hclosing hsplit
      have hback : tokens = before ++ (bracket :: inside ++ [last]) := by
        rw [htokens, List.append_assoc]
      have hbefore : slice tokens 0 before.length = found (some before) :=
        slice_eq [] _ hback rfl (Nat.zero_add _).symm
      have hinside : slice tokens (before.length + 1) (tokens.length - 1) = found (some inside) := by
        refine slice_eq (before ++ [bracket]) [last] ?_ ?_ ?_
        · simp [htokens]
        · simp
        · simp only [htokens, List.length_append, List.length_cons, List.length_nil]
          omega
      rw [Option.map_some, found_some_bind, hbefore, found_some_bind]
      cases hangle : before.getLast? with
      | none => simp [hangle]
      | some angle =>
        have hne : before ≠ [] := by
          rintro rfl
          cases hangle
        have hopening : Checked.before before.length = found (some (before.length - 1)) :=
          before_eq (List.length_pos_iff.mpr hne)
        by_cases hkind : angle.kind = .rightAngle
        · simp [hangle, hkind, genericAt_eq hback hangle hkind hinside]
        · simp [hangle, hkind, hopening, signatureAt_eq hback hne hinside]

/-- Reading a signature by indices never leaves the tokens, whatever the text is, and the tokens of
the declaration that is read are those of the text, with a semicolon at the end. -/
theorem parse?_lossless (text : String) :
    (parseAt text).run = .ok (parse? text) ∧
      ∀ signature, parse? text = some signature →
        (Member.declare {} (signature.toDeclaration .absent)).toTree.leaves =
          withoutSemicolon (Token.significant text) ++ [.punct .semicolon] := by
  constructor
  · unfold parseAt parse?
    dsimp only
    split
    · rfl
    · rw [readAt_eq]
      rfl
  · exact fun signature h => parse?_leaves h

/-- A negative default value and a semicolon that the text brings along. -/
theorem parse?_lossless_default :
    ∃ signature, parse? "int Read<T>(in Span<T> data, int count = -1);" = some signature ∧
      (Member.declare {} (signature.toDeclaration .absent)).toTree.leaves.map (·.text) =
        ["int", "Read", "<", "T", ">", "(", "in", "Span", "<", "T", ">", "data", ",", "int",
          "count", "=", "-", "1", ")", ";"] := by
  have hsome : (parse? "int Read<T>(in Span<T> data, int count = -1);").isSome = true := by
    decide +kernel
  obtain ⟨signature, h⟩ := Option.isSome_iff_exists.mp hsome
  refine ⟨signature, h, ?_⟩
  rw [(parse?_lossless _).2 signature h]
  decide +kernel

end Signature

end SourceGen
