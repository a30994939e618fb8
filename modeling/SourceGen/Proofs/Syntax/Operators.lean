import SourceGen.Proofs.Syntax.Spacing
import SourceGen.Syntax.Expr

/-! Expressions made of operators, read again from their texts. Spaces keep their tokens apart, but
nothing is written between a prefix operator and its operand: there two signs can be read as one. -/

namespace SourceGen

namespace Kind

def prefixOperators : List Kind :=
  [.plus, .minus, .bang, .star, .amp, .plusPlus, .minusMinus]

def postfixOperators : List Kind :=
  [.bang, .plusPlus, .minusMinus]

def binaryOperators : List Kind :=
  [.plus, .minus, .star, .amp, .ampAmp, .pipe, .pipePipe, .equalEqual, .notEqual, .less, .greater,
    .lessEqual, .greaterEqual, .questionQuestion]

/-- The kinds of literals that are one token. -/
def literals : List Kind :=
  [.numericLiteral, .stringLiteral, .charLiteral, .keyword]

end Kind

def Argument.value : Argument → Expr
  | positional value => value
  | named _ value => value

/-- The expressions made of names, literals, calls, casts and operators. -/
inductive Expr.IsOperation : Expr → Prop
  | ident (name : String) : IsOperation (.ident name)
  | word (keyword : String) : IsOperation (.word keyword)
  | literal {token : Token} (h : token.kind ∈ Kind.literals) : IsOperation (.literal [token])
  | member {receiver : Expr} (h : receiver.IsOperation) (name : String) :
      IsOperation (.member receiver name)
  | invoke {callee : Expr} {arguments : List Argument} (h : callee.IsOperation)
      (harguments : ∀ argument ∈ arguments, argument.value.IsOperation) :
      IsOperation (.invoke callee arguments)
  | cast (type : TypeExpr) {operand : Expr} (h : operand.IsOperation) :
      IsOperation (.cast type operand)
  | parenthesized {inner : Expr} (h : inner.IsOperation) : IsOperation (.parenthesized inner)
  | prefixed {operator : Kind} {operand : Expr} (hoperator : operator ∈ Kind.prefixOperators)
      (h : operand.IsOperation) : IsOperation (.prefixed operator operand)
  | postfixed {operand : Expr} {operator : Kind} (h : operand.IsOperation)
      (hoperator : operator ∈ Kind.postfixOperators) : IsOperation (.postfixed operand operator)
  | binary {left right : Expr} {operator : Kind} (hleft : left.IsOperation)
      (hoperator : operator ∈ Kind.binaryOperators) (hright : right.IsOperation) :
      IsOperation (.binary left operator right)

mutual

/-- Whether no operator of an operation is written in front of a sign that continues it, and the
tokens of the types in it stay apart. -/
def Expr.staysApart : Expr → Bool
  | .member receiver _ => receiver.staysApart
  | .invoke callee arguments => callee.staysApart && argumentsStayApart arguments
  | .cast type operand => type.staysApart && operand.staysApart
  | .parenthesized inner => inner.staysApart
  | .prefixed operator operand =>
    !(operand.toTree.leaves.head?.any fun token => operator.isContinuedBy token.kind) &&
      operand.staysApart
  | .postfixed operand _ => operand.staysApart
  | .binary left _ right => left.staysApart && right.staysApart
  | _ => true

def argumentsStayApart : List Argument → Bool
  | [] => true
  | .positional value :: rest => value.staysApart && argumentsStayApart rest
  | .named _ value :: rest => value.staysApart && argumentsStayApart rest

end

section Operands

open Token

/-- How the tree of an operand is written: it becomes a row, wherever it stands, and under a condition
the row is read again in front of what can be written behind an operand. -/
structure Tree.IsOperand (tree : Tree) (first last : Token) (rest : List (Bool × Token))
    (condition : Prop) : Prop where
  becomes : ∀ glued previous, tree.Becomes (glued, previous)
    ((!glued && needsSpace previous first.kind, first) :: rest) (false, some last)
  starts : first.kind ∈ operandStarts
  ends : last.kind ∈ operandEnds
  alone : first.IsReadAlone
  reads : ∀ apart behind, IsCalm behind → (Reads ((apart, first) :: rest) behind ↔ condition)

private theorem needsSpace_hugsLeft {kind : Kind} (h : kind.hugsLeft = true)
    (previous : Option Token) : needsSpace previous kind = false := by
  unfold needsSpace
  split
  · rfl
  · rw [h, Bool.true_or, if_pos rfl]

private theorem needsSpace_hugsRight {token : Token} (h : token.kind.hugsRight = true)
    (kind : Kind) : needsSpace (some token) kind = false := by
  simp [needsSpace, h]

/-- A space stands between an operand and an operator behind it. -/
private theorem needsSpace_operator {last : Token} (h : last.kind ∈ operandEnds) {operator : Kind}
    (hoperator : operator ∈ .equal :: Kind.binaryOperators) :
    needsSpace (some last) operator = true := by
  have hends : ∀ kind ∈ operandEnds, kind.hugsRight = false := by decide
  have hoperators : ∀ kind ∈ .equal :: Kind.binaryOperators, kind.hugsLeft = false ∧
      kind ≠ .leftParen ∧ kind ≠ .leftBracket := by decide
  obtain ⟨hleft, hparen, hbracket⟩ := hoperators _ hoperator
  rw [needsSpace.eq_def]
  dsimp only
  rw [hleft, hends _ h, Bool.false_or, if_neg Bool.false_ne_true]
  split <;> simp_all

/-- A space stands between an operator or comma and an operand behind it. -/
private theorem needsSpace_operand {operator : Kind}
    (hoperator : operator ∈ .comma :: .equal :: Kind.binaryOperators) {kind : Kind}
    (h : kind ∈ operandStarts) : needsSpace (some (.punct operator)) kind = true := by
  have hall : ∀ operator ∈ .comma :: .equal :: Kind.binaryOperators, ∀ kind ∈ operandStarts,
      needsSpace (some (.punct operator)) kind = true := by decide
  exact hall _ hoperator _ h

private theorem endsBefore_fixed {kind : Kind} (h : kind ∈ [.leftParen, .rightParen, .comma, .dot])
    (rest : List Char) : (punct kind).EndsBefore rest := by
  have hfixed : ∀ kind ∈ [Kind.leftParen, .rightParen, .comma, .dot], kind.spelling ≠ "" := by
    decide
  refine (endsBefore_punct_iff (hfixed _ h) rest).mpr fun c _ => ?_
  simp only [List.mem_cons, List.not_mem_nil, or_false] at h
  rcases h with rfl | rfl | rfl | rfl <;> rfl

private theorem postfix_operandEnds {operator : Kind} (h : operator ∈ Kind.postfixOperators) :
    operator ∈ operandEnds := by
  have hends : ∀ operator ∈ Kind.postfixOperators, operator ∈ operandEnds := by decide
  exact hends _ h

namespace Tree.IsOperand

variable {tree : Tree} {first last : Token} {rest : List (Bool × Token)} {condition : Prop}

theorem leaf {kind : Kind} (hkind : kind ∈ [.identifierName, .literal]) {token : Token}
    (h : token.IsReadAlone) (hstarts : token.kind ∈ operandStarts)
    (hends : token.kind ∈ operandEnds) :
    (Tree.plain kind [.leaf token]).IsOperand token token [] True where
  becomes glued previous := by
    have hloose : ∀ kind ∈ [Kind.identifierName, .literal], kind ∈ Kind.looseNodes := by decide
    have hline : ∀ kind ∈ operandStarts, kind.endsLine = false := by decide
    exact Lays.node (Lays.loose (hloose _ hkind) (hline _ hstarts) Lays.nil)
  starts := hstarts
  ends := hends
  alone := h
  reads apart behind hbehind := by
    simpa [Reads, written] using h.endsBefore_calm hends hbehind

/-- The node of a name. -/
theorem name {name : String} (h : (Token.ident name).IsReadAlone) :
    (nameTree name).IsOperand (.ident name) (.ident name) [] True := by
  refine leaf ?_ h ?_ ?_ <;> simp [Token.ident, operandStarts, operandEnds]

theorem member (h : tree.IsOperand first last rest condition) {name : String}
    (hname : (Token.ident name).IsReadAlone) :
    (Tree.plain .memberAccess [tree, .punct .dot, nameTree name]).IsOperand first (.ident name)
      (rest ++ [(false, .punct .dot), (false, .ident name)]) condition where
  becomes glued previous := by
    have hnode : Kind.memberAccess ∈ Kind.operationNodes := by decide
    have hloose : Kind.memberAccess ∈ Kind.looseNodes := by decide
    have hdot : needsSpace (some last) .dot = false := needsSpace_hugsLeft rfl _
    have hname' : needsSpace (some (.punct .dot)) .identifier = false := needsSpace_hugsRight rfl _
    have hlays : Lays (Frame.ofNode .memberAccess [tree, .punct .dot, nameTree name]) true
        [tree, .punct .dot, nameTree name] (glued, previous) _ (false, some (.ident name)) :=
      Lays.tree hnode (h.becomes glued previous) (Lays.loose hloose rfl
        (Lays.tree hnode ((IsOperand.name hname).becomes _ _) Lays.nil))
    exact Lays.node (by simpa [hdot, hname'] using hlays)
  starts := h.starts
  ends := by simp [operandEnds]
  alone := h.alone
  reads apart behind hbehind := by
    have hcalm : IsCalm (written [(false, .punct .dot), (false, .ident name)] ++ behind) := by
      simpa [written, Token.punct, Kind.spelling] using isCalm_member hname rfl behind
    have htail : Reads [(false, .punct .dot), (false, .ident name)] behind :=
      ⟨endsBefore_fixed (by decide) _, hname.endsBefore_calm (by simp [operandEnds]) hbehind, trivial⟩
    rw [← List.cons_append, reads_append, h.reads apart _ hcalm]
    exact and_iff_left htail

theorem parenthesized (h : tree.IsOperand first last rest condition)
    (hparen : (Token.punct .leftParen).IsReadAlone) :
    (Tree.plain .parenthesized [.punct .leftParen, tree, .punct .rightParen]).IsOperand
      (.punct .leftParen) (.punct .rightParen)
      ((false, first) :: (rest ++ [(false, .punct .rightParen)])) condition where
  becomes glued previous := by
    have hnode : Kind.parenthesized ∈ Kind.operationNodes := by decide
    have hloose : Kind.parenthesized ∈ Kind.looseNodes := by decide
    have hopen : needsSpace (some (.punct .leftParen)) first.kind = false :=
      needsSpace_hugsRight rfl _
    have hclose : needsSpace (some last) .rightParen = false := needsSpace_hugsLeft rfl _
    have hlays : Lays (Frame.ofNode .parenthesized [.punct .leftParen, tree, .punct .rightParen])
        true [.punct .leftParen, tree, .punct .rightParen] (glued, previous) _
        (false, some (.punct .rightParen)) :=
      Lays.loose hloose rfl (Lays.tree hnode (h.becomes _ _) (Lays.loose hloose rfl Lays.nil))
    exact Lays.node (by simpa [hopen, hclose] using hlays)
  starts := by simp [operandStarts]
  ends := by simp [operandEnds]
  alone := hparen
  reads apart behind hbehind := by
    have hcalm : IsCalm (written [(false, .punct .rightParen)] ++ behind) :=
      isCalm_inert (by decide) _
    have htail : Reads [(false, .punct .rightParen)] behind :=
      ⟨endsBefore_fixed (by decide) _, trivial⟩
    rw [Reads, ← List.cons_append, reads_append, h.reads false _ hcalm]
    exact (and_iff_right (endsBefore_fixed (by decide) _)).trans (and_iff_left htail)

/-- A prefix operator is read up to its end unless its operand starts with a sign that continues
it. -/
theorem prefixed (h : tree.IsOperand first last rest condition) {operator : Kind}
    (hoperator : operator ∈ Kind.prefixOperators) (halone : (Token.punct operator).IsReadAlone) :
    (Tree.plain .prefixUnary [.punct operator, tree]).IsOperand (.punct operator) last
      ((false, first) :: rest) (operator.isContinuedBy first.kind = false ∧ condition) where
  becomes glued previous := by
    have hnode : Kind.prefixUnary ∈ Kind.operationNodes := by decide
    have hline : ∀ operator ∈ Kind.prefixOperators, operator.endsLine = false := by decide
    have hlays : Lays (Frame.ofNode .prefixUnary [.punct operator, tree]) true
        [.punct operator, tree] (glued, previous) _ (false, some last) :=
      Lays.token hnode (hline _ hoperator) (Lays.tree hnode (h.becomes true _) Lays.nil)
    exact Lays.node (by simpa [Frame.gluesBefore, Frame.ofNode] using hlays)
  starts := by
    have hstarts : ∀ operator ∈ Kind.prefixOperators, operator ∈ operandStarts := by decide
    exact hstarts _ hoperator
  ends := h.ends
  alone := halone
  reads apart behind hbehind := by
    have hspelled : ∀ operator ∈ Kind.prefixOperators, operator.spelling ≠ "" := by decide
    have hwritten : written ((false, first) :: rest) ++ behind =
        first.text.toList ++ (written rest ++ behind) := by
      simp [written]
    rw [Reads, h.reads false behind hbehind, hwritten,
      h.alone.endsBefore_punct_iff (hspelled _ hoperator)]

theorem postfixed (h : tree.IsOperand first last rest condition) {operator : Kind}
    (hoperator : operator ∈ Kind.postfixOperators) (halone : (Token.punct operator).IsReadAlone) :
    (Tree.plain .postfixUnary [tree, .punct operator]).IsOperand first (.punct operator)
      (rest ++ [(false, .punct operator)]) condition where
  becomes glued previous := by
    have hnode : Kind.postfixUnary ∈ Kind.operationNodes := by decide
    have hline : ∀ operator ∈ Kind.postfixOperators, operator.endsLine = false := by decide
    have hlays : Lays (Frame.ofNode .postfixUnary [tree, .punct operator]) true
        [tree, .punct operator] (glued, previous) _ (false, some (.punct operator)) :=
      Lays.tree hnode (h.becomes glued previous)
        (Lays.token hnode (hline _ hoperator) Lays.nil)
    exact Lays.node (by simpa [Frame.gluesBefore, Frame.ofNode] using hlays)
  starts := h.starts
  ends := postfix_operandEnds hoperator
  alone := h.alone
  reads apart behind hbehind := by
    have hcalm : IsCalm (written [(false, .punct operator)] ++ behind) := by
      simpa [written, Token.punct] using isCalm_operator hoperator behind
    have htail : Reads [(false, .punct operator)] behind :=
      ⟨halone.endsBefore_calm (postfix_operandEnds hoperator) hbehind, trivial⟩
    rw [← List.cons_append, reads_append, h.reads apart _ hcalm]
    exact and_iff_left htail

theorem binary {right : Tree} {start final : Token} {row : List (Bool × Token)} {other : Prop}
    (h : tree.IsOperand first last rest condition) (hright : right.IsOperand start final row other)
    {operator : Kind} (hoperator : operator ∈ Kind.binaryOperators)
    (halone : (Token.punct operator).IsReadAlone) :
    (Tree.plain .binary [tree, .punct operator, right]).IsOperand first final
      (rest ++ (true, .punct operator) :: (true, start) :: row) (condition ∧ other) where
  becomes glued previous := by
    have hnode : Kind.binary ∈ Kind.operationNodes := by decide
    have hloose : Kind.binary ∈ Kind.looseNodes := by decide
    have hline : ∀ operator ∈ Kind.binaryOperators, operator.endsLine = false := by decide
    have hbefore := needsSpace_operator h.ends (List.mem_cons_of_mem _ hoperator)
    have hbehind := needsSpace_operand
      (List.mem_cons_of_mem _ (List.mem_cons_of_mem _ hoperator)) hright.starts
    have hlays : Lays (Frame.ofNode .binary [tree, .punct operator, right]) true
        [tree, .punct operator, right] (glued, previous) _ (false, some final) :=
      Lays.tree hnode (h.becomes glued previous) (Lays.loose hloose (hline _ hoperator)
        (Lays.tree hnode (hright.becomes _ _) Lays.nil))
    exact Lays.node (by simpa [hbefore, hbehind] using hlays)
  starts := h.starts
  ends := hright.ends
  alone := h.alone
  reads apart behind hbehind := by
    have hcalm : IsCalm (written ((true, .punct operator) :: (true, start) :: row) ++ behind) :=
      isCalm_inert (by decide) _
    have hspace : (Token.punct operator).EndsBefore (written ((true, start) :: row) ++ behind) :=
      halone.endsBefore_inert (by decide) _
    rw [← List.cons_append, reads_append, h.reads apart _ hcalm, Reads, hright.reads true _ hbehind]
    exact and_congr_right fun _ => and_iff_right hspace

/-- A callee is read up to its end in front of a parenthesis, with or without a space. -/
theorem call {arguments : Tree} {row : List (Bool × Token)} {other : Prop}
    (h : tree.IsOperand first last rest condition)
    (harguments : arguments.IsOperand (.punct .leftParen) (.punct .rightParen) row other) :
    (Tree.plain .invocation [tree, arguments]).IsOperand first (.punct .rightParen)
      (rest ++ (needsSpace (some last) .leftParen, .punct .leftParen) :: row)
      (condition ∧ other) where
  becomes glued previous := by
    have hnode : Kind.invocation ∈ Kind.operationNodes := by decide
    have hlays : Lays (Frame.ofNode .invocation [tree, arguments]) true [tree, arguments]
        (glued, previous) _ (false, some (.punct .rightParen)) :=
      Lays.tree hnode (h.becomes glued previous)
        (Lays.tree hnode (harguments.becomes _ _) Lays.nil)
    exact Lays.node (by simpa using hlays)
  starts := h.starts
  ends := harguments.ends
  alone := h.alone
  reads apart behind hbehind := by
    have hcalm (space : Bool) :
        IsCalm (written ((space, .punct .leftParen) :: row) ++ behind) := by
      cases space <;> exact isCalm_inert (by decide) _
    rw [← List.cons_append, reads_append, h.reads apart _ (hcalm _), harguments.reads _ _ hbehind]

theorem argument (h : tree.IsOperand first last rest condition) :
    (Tree.plain .argument [tree]).IsOperand first last rest condition where
  becomes glued previous := by
    have hnode : Kind.argument ∈ Kind.operationNodes := by decide
    have hlays : Lays (Frame.ofNode .argument [tree]) true [tree] (glued, previous) _
        (false, some last) :=
      Lays.tree hnode (h.becomes glued previous) Lays.nil
    exact Lays.node (by simpa using hlays)
  starts := h.starts
  ends := h.ends
  alone := h.alone
  reads := h.reads

theorem namedArgument (h : tree.IsOperand first last rest condition) {name : String}
    (hname : (Token.ident name).IsReadAlone) (hequal : (Token.punct .equal).IsReadAlone) :
    (Tree.plain .argument [.ident name, .punct .equal, tree]).IsOperand (.ident name) last
      ((true, .punct .equal) :: (true, first) :: rest) condition where
  becomes glued previous := by
    have hnode : Kind.argument ∈ Kind.operationNodes := by decide
    have hloose : Kind.argument ∈ Kind.looseNodes := by decide
    have hbefore : needsSpace (some (.ident name)) .equal = true :=
      needsSpace_operator (by simp [operandEnds]) (by decide)
    have hbehind : needsSpace (some (.punct .equal)) first.kind = true :=
      needsSpace_operand (by decide) h.starts
    have hlays : Lays (Frame.ofNode .argument [.ident name, .punct .equal, tree]) true
        [.ident name, .punct .equal, tree] (glued, previous) _ (false, some last) :=
      Lays.loose hloose rfl (Lays.loose hloose rfl
        (Lays.tree hnode (h.becomes _ _) Lays.nil))
    exact Lays.node (by simpa [hbefore, hbehind] using hlays)
  starts := by simp [operandStarts]
  ends := h.ends
  alone := hname
  reads apart behind hbehind := by
    rw [Reads, Reads, h.reads true _ hbehind]
    exact (and_iff_right (hname.endsBefore_inert (by decide) _)).trans
      (and_iff_right (hequal.endsBefore_inert (by decide) _))

theorem cast (h : tree.IsOperand first last rest condition) (type : TypeExpr)
    (htype : ∀ token ∈ type.toTree.leaves, token.IsReadAlone)
    (hparen : (Token.punct .leftParen).IsReadAlone) :
    (Tree.plain .cast [.punct .leftParen, type.toTree, .punct .rightParen, tree]).IsOperand
      (.punct .leftParen) last
      (typeRow none type.toTree.leaves ++ (false, .punct .rightParen) :: (false, first) :: rest)
      (type.staysApart = true ∧ condition) where
  becomes glued previous := by
    have hnode : Kind.cast ∈ Kind.operationNodes := by decide
    have hrow : typeRow (some (.punct .leftParen)) type.toTree.leaves =
        typeRow none type.toTree.leaves := by
      cases type.toTree.leaves with
      | nil => rfl
      | cons token tokens =>
        have hopen : needsSpace (some (.punct .leftParen)) token.kind = false :=
          needsSpace_hugsRight rfl _
        rw [typeRow, typeRow, Token.apartInType, Token.apartInType, hopen]
        rfl
    have hclose (previous : Option Token) : needsSpace previous .rightParen = false :=
      needsSpace_hugsLeft rfl previous
    have hlays : Lays
        (Frame.ofNode .cast [.punct .leftParen, type.toTree, .punct .rightParen, tree]) true
        [.punct .leftParen, type.toTree, .punct .rightParen, tree] (glued, previous) _
        (false, some last) :=
      Lays.token hnode rfl (Lays.tree hnode (TypeExpr.becomes htype _)
        (Lays.token hnode rfl (Lays.tree hnode (h.becomes true _) Lays.nil)))
    exact Lays.node (by simpa [Frame.gluesBefore, Frame.ofNode, hrow, hclose] using hlays)
  starts := by simp [operandStarts]
  ends := h.ends
  alone := hparen
  reads apart behind hbehind := by
    have hentries : ∀ entry ∈ typeRow none type.toTree.leaves, entry.2.IsReadAlone := by
      intro entry hm
      have htoken := List.mem_map_of_mem (f := Prod.snd) hm
      rw [typeRow_tokens] at htoken
      exact htype _ htoken
    have hread : Reads (typeRow none type.toTree.leaves)
        (written ((false, .punct .rightParen) :: (false, first) :: rest) ++ behind) ↔
          type.staysApart = true :=
      (reads_inert hentries (by decide) _).trans (reads_typeRow_iff htype _)
    rw [Reads, reads_append, hread, Reads, h.reads false _ hbehind]
    refine (and_iff_right (endsBefore_fixed (by decide) _)).trans (and_congr_right fun _ => ?_)
    exact and_iff_right (endsBefore_fixed (by decide) _)

end Tree.IsOperand

theorem argumentsStayApart_cons (argument : Argument) (arguments : List Argument) :
    argumentsStayApart (argument :: arguments) =
      (argument.value.staysApart && argumentsStayApart arguments) := by
  cases argument <;> rfl

/-- The arguments of a call, up to the parenthesis behind them. -/
private theorem lays_arguments {frame : Frame} (hframe : frame.kind = .argumentList)
    {arguments : List Argument}
    (h : ∀ argument ∈ arguments, ∃ first last rest,
      argument.toTree.IsOperand first last rest (argument.value.staysApart = true))
    (isFirst : Bool) (previous : Option Token) :
    ∃ row, Lays frame isFirst (Tree.separated (argumentTrees arguments) ++ [.punct .rightParen])
        (false, previous) row (false, some (.punct .rightParen)) ∧
      ∀ behind, Reads row behind ↔ argumentsStayApart arguments = true := by
  have hnode : frame.kind ∈ Kind.operationNodes := by rw [hframe]; decide
  have hloose : frame.kind ∈ Kind.looseNodes := by rw [hframe]; decide
  have hclose (behind : List Char) : (Token.punct .rightParen).EndsBefore behind :=
    endsBefore_fixed (by decide) behind
  have hcomma (behind : List Char) : (Token.punct .comma).EndsBefore behind :=
    endsBefore_fixed (by decide) behind
  induction arguments generalizing isFirst previous with
  | nil =>
    refine ⟨_, Lays.loose hloose rfl Lays.nil, fun behind => ?_⟩
    exact iff_of_true ⟨hclose _, trivial⟩ rfl
  | cons argument arguments ih =>
    obtain ⟨⟨first, last, rest, hargument⟩, harguments⟩ := List.forall_mem_cons.mp h
    have hcalm {kind : Kind} (hkind : kind ∈ [.rightParen, .comma]) (space : Bool)
        (row : List (Bool × Token)) (behind : List Char) :
        IsCalm (written ((space, .punct kind) :: row) ++ behind) := by
      simp only [List.mem_cons, List.not_mem_nil, or_false] at hkind
      rcases hkind with rfl | rfl <;> cases space <;> exact isCalm_inert (by decide) _
    cases arguments with
    | nil =>
      refine ⟨_, Lays.tree hnode (hargument.becomes false previous)
        (Lays.loose hloose rfl Lays.nil), fun behind => ?_⟩
      rw [reads_append, hargument.reads _ _ (hcalm (by decide) _ _ _), argumentsStayApart_cons,
        Bool.and_eq_true]
      exact and_congr_right fun _ => iff_of_true ⟨hclose _, trivial⟩ rfl
    | cons next arguments =>
      obtain ⟨row, hlays, hrow⟩ := ih harguments false (some (.punct .comma))
      refine ⟨_, Lays.tree hnode (hargument.becomes false previous)
        (Lays.loose hloose rfl hlays), fun behind => ?_⟩
      rw [argumentsStayApart_cons argument, Bool.and_eq_true, reads_append,
        hargument.reads _ _ (hcalm (by decide) _ _ _), Reads, hrow]
      exact and_congr_right fun _ => and_iff_right (hcomma _)

theorem Tree.IsOperand.arguments {arguments : List Argument}
    (h : ∀ argument ∈ arguments, ∃ first last rest,
      argument.toTree.IsOperand first last rest (argument.value.staysApart = true))
    (hparen : (Token.punct .leftParen).IsReadAlone) :
    ∃ row, (argumentListTree (argumentTrees arguments)).IsOperand (.punct .leftParen)
      (.punct .rightParen) row (argumentsStayApart arguments = true) := by
  let trees := Tree.enclosed .leftParen .rightParen (argumentTrees arguments)
  have hloose : (Frame.ofNode .argumentList trees).kind ∈ Kind.looseNodes := by
    change Kind.argumentList ∈ Kind.looseNodes
    decide
  obtain ⟨row, hlays, hrow⟩ := lays_arguments (show (Frame.ofNode .argumentList trees).kind = _ from rfl)
    h false (some (.punct .leftParen))
  refine ⟨row, ?_, by simp [operandStarts], by simp [operandEnds], hparen, ?_⟩
  · exact fun glued previous => Lays.node (Lays.loose hloose rfl hlays)
  · intro apart behind _
    rw [Reads, hrow]
    exact and_iff_right (endsBefore_fixed (by decide) _)

theorem Tree.IsOperand.congr {tree : Tree} {first last : Token} {rest : List (Bool × Token)}
    {condition other : Prop} (h : tree.IsOperand first last rest condition)
    (hother : condition ↔ other) : tree.IsOperand first last rest other where
  becomes := h.becomes
  starts := h.starts
  ends := h.ends
  alone := h.alone
  reads apart behind hbehind := (h.reads apart behind hbehind).trans hother

theorem Tree.IsOperand.leaves {tree : Tree} {first last : Token} {rest : List (Bool × Token)}
    {condition : Prop} (h : tree.IsOperand first last rest condition) :
    tree.leaves = first :: rest.map (·.2) := by
  have hrow := congrArg (List.map Prod.snd) (h.becomes false none none true true {} rfl).1
  rw [List.map_map] at hrow
  exact tree.pieces_tokens.symm.trans hrow

end Operands

section Operations

theorem Tree.forall_leaves_plain (kind : Kind) (trees : List Tree) (holds : Token → Prop) :
    (∀ token ∈ (plain kind trees).leaves, holds token) ↔
      ∀ tree ∈ trees, ∀ token ∈ tree.leaves, holds token := by
  rw [plain, leaves]
  induction trees with
  | nil => simp [leavesOf]
  | cons tree trees ih => rw [leavesOf, List.forall_mem_append, ih, List.forall_mem_cons]

theorem Tree.mem_separated {tree : Tree} {trees : List Tree} (h : tree ∈ trees) :
    tree ∈ separated trees := by
  fun_induction separated trees with
  | case1 => exact h
  | case2 => exact h
  | case3 other trees hne ih =>
    rcases List.mem_cons.mp h with rfl | h
    · exact List.mem_cons_self ..
    · exact List.mem_cons_of_mem _ (List.mem_cons_of_mem _ (ih h))

theorem argumentTrees_eq (arguments : List Argument) :
    argumentTrees arguments = arguments.map Argument.toTree := by
  induction arguments with
  | nil => rfl
  | cons argument arguments ih => rw [argumentTrees, ih, List.map_cons]

private theorem argument_mem {argument : Argument} {arguments : List Argument}
    (h : argument ∈ arguments) :
    argument.toTree ∈ Tree.enclosed .leftParen .rightParen (argumentTrees arguments) := by
  rw [argumentTrees_eq]
  have hseparated := Tree.mem_separated (List.mem_map_of_mem (f := Argument.toTree) h)
  exact List.mem_append_left _ (List.mem_cons_of_mem _ hseparated)

/-- The tree of an argument is that of an operand if the tree of its value is. -/
private theorem Argument.isOperand {argument : Argument}
    (hleaves : ∀ token ∈ argument.toTree.leaves, token.IsReadAlone)
    (h : (∀ token ∈ argument.value.toTree.leaves, token.IsReadAlone) →
      ∃ first last rest,
        argument.value.toTree.IsOperand first last rest (argument.value.staysApart = true)) :
    ∃ first last rest,
      argument.toTree.IsOperand first last rest (argument.value.staysApart = true) := by
  cases argument with
  | positional value =>
    simp only [toTree, Tree.forall_leaves_plain, List.forall_mem_cons] at hleaves
    obtain ⟨first, last, rest, hvalue⟩ := h hleaves.1
    exact ⟨_, _, _, hvalue.argument⟩
  | named name value =>
    simp only [toTree, Tree.forall_leaves_plain, List.forall_mem_cons] at hleaves
    obtain ⟨hname, hequal, hvalue, -⟩ := hleaves
    obtain ⟨first, last, rest, hvalue⟩ := h hvalue
    exact ⟨_, _, _, hvalue.namedArgument (hname _ (List.mem_singleton_self _))
      (hequal _ (List.mem_singleton_self _))⟩

/-- The tree of an operation is that of an operand. -/
theorem Expr.IsOperation.isOperand {value : Expr} (h : value.IsOperation)
    (hleaves : ∀ token ∈ value.toTree.leaves, token.IsReadAlone) :
    ∃ first last rest, value.toTree.IsOperand first last rest (value.staysApart = true) := by
  have htoken (token : Token) : (∀ other ∈ (Tree.leaf token).leaves, other.IsReadAlone) →
      token.IsReadAlone := fun h => h token (List.mem_singleton_self token)
  induction h with
  | ident name =>
    have hname := hleaves (.ident name) (List.mem_cons_self ..)
    exact ⟨_, _, _, (Tree.IsOperand.name hname).congr (iff_of_true trivial rfl)⟩
  | word keyword =>
    have hword := hleaves (.keyword keyword) (List.mem_cons_self ..)
    have hleaf := Tree.IsOperand.leaf (show .identifierName ∈ [Kind.identifierName, .literal] by decide)
      hword (by simp [Token.keyword, Token.operandStarts]) (by simp [Token.keyword, Token.operandEnds])
    exact ⟨_, _, _, hleaf.congr (iff_of_true trivial rfl)⟩
  | @literal token h =>
    have hliterals : ∀ kind ∈ Kind.literals, kind ∈ Token.operandStarts ∧ kind ∈ Token.operandEnds := by
      decide
    have hleaf := Tree.IsOperand.leaf (show .literal ∈ [Kind.identifierName, .literal] by decide)
      (hleaves token (List.mem_cons_self ..)) (hliterals _ h).1 (hliterals _ h).2
    exact ⟨_, _, _, hleaf.congr (iff_of_true trivial rfl)⟩
  | @member receiver h name ih =>
    simp only [Expr.toTree, Tree.forall_leaves_plain, List.forall_mem_cons] at hleaves
    obtain ⟨hreceiver, -, hname, -⟩ := hleaves
    obtain ⟨first, last, rest, hoperand⟩ := ih hreceiver
    exact ⟨_, _, _, hoperand.member (hname (.ident name) (List.mem_cons_self ..))⟩
  | @invoke callee arguments h harguments ih iharguments =>
    simp only [Expr.toTree, Tree.forall_leaves_plain, List.forall_mem_cons] at hleaves
    obtain ⟨hcallee, htrees, -⟩ := hleaves
    have hlist := (Tree.forall_leaves_plain _ _ _).mp htrees
    obtain ⟨first, last, rest, hoperand⟩ := ih hcallee
    obtain ⟨row, hrow⟩ := Tree.IsOperand.arguments
      (fun argument hm => Argument.isOperand (hlist _ (argument_mem hm)) (iharguments argument hm))
      (htoken _ (hlist _ (List.mem_cons_self ..)))
    exact ⟨_, _, _, (hoperand.call hrow).congr (by rw [Expr.staysApart, Bool.and_eq_true])⟩
  | @cast type operand h ih =>
    simp only [Expr.toTree, Tree.forall_leaves_plain, List.forall_mem_cons] at hleaves
    obtain ⟨hparen, htype, -, hoperand, -⟩ := hleaves
    obtain ⟨first, last, rest, hcast⟩ := ih hoperand
    exact ⟨_, _, _, (hcast.cast type htype (htoken _ hparen)).congr (by
      rw [Expr.staysApart, Bool.and_eq_true])⟩
  | @parenthesized inner h ih =>
    simp only [Expr.toTree, Tree.forall_leaves_plain, List.forall_mem_cons] at hleaves
    obtain ⟨hparen, hinner, -⟩ := hleaves
    obtain ⟨first, last, rest, hoperand⟩ := ih hinner
    exact ⟨_, _, _, hoperand.parenthesized (htoken _ hparen)⟩
  | @prefixed operator operand hoperator h ih =>
    simp only [Expr.toTree, Tree.forall_leaves_plain, List.forall_mem_cons] at hleaves
    obtain ⟨hsign, hinner, -⟩ := hleaves
    obtain ⟨first, last, rest, hoperand⟩ := ih hinner
    refine ⟨_, _, _, (hoperand.prefixed hoperator (htoken _ hsign)).congr ?_⟩
    rw [Expr.staysApart, Bool.and_eq_true, hoperand.leaves, List.head?_cons, Option.any_some,
      Bool.not_eq_true']
  | @postfixed operand operator h hoperator ih =>
    simp only [Expr.toTree, Tree.forall_leaves_plain, List.forall_mem_cons] at hleaves
    obtain ⟨hinner, hsign, -⟩ := hleaves
    obtain ⟨first, last, rest, hoperand⟩ := ih hinner
    exact ⟨_, _, _, hoperand.postfixed hoperator (htoken _ hsign)⟩
  | @binary left right operator hleft hoperator hright ihleft ihright =>
    simp only [Expr.toTree, Tree.forall_leaves_plain, List.forall_mem_cons] at hleaves
    obtain ⟨hfirst, hsign, hsecond, -⟩ := hleaves
    obtain ⟨first, last, rest, hoperand⟩ := ihleft hfirst
    obtain ⟨start, final, row, hother⟩ := ihright hsecond
    exact ⟨_, _, _, (hoperand.binary hother hoperator (htoken _ hsign)).congr (by
      rw [Expr.staysApart, Bool.and_eq_true])⟩

end Operations

namespace Expr

/-- An operation is read from its text as the tokens it consists of exactly if no prefix operator is
written in front of a sign that continues it, and the tokens of the types that it casts to stay
apart. -/
theorem text_tokens_iff {value : Expr} (h : value.IsOperation)
    (hleaves : ∀ token ∈ value.toTree.leaves, token.IsReadAlone) :
    (Token.significant value.text).map (·.text) = value.toTree.leaves.map (·.text) ↔
      value.staysApart = true := by
  obtain ⟨first, last, rest, hvalue⟩ := h.isOperand hleaves
  have hrow : value.toTree.pieces.map Piece.entry = (needsSpace none first.kind, first) :: rest :=
    (hvalue.becomes false none none true true {} rfl).1
  calc (Token.significant value.text).map (·.text) = value.toTree.leaves.map (·.text)
    _ ↔ Token.Reads (value.toTree.pieces.map Piece.entry) [] := by
      rw [text, Tree.inline_tokens_iff hleaves]
    _ ↔ value.staysApart = true := by
      rw [hrow]
      exact hvalue.reads _ _ Token.isCalm_nil

/-- A pointer to a number, increased where it points to. -/
theorem text_tokens_iff_increment :
    let value : Expr := .prefixed .plusPlus (.prefixed .star
      (.cast TypeExpr.uint.pointer (.prefixed .amp (.ident "value"))))
    value.IsOperation ∧ (∀ token ∈ value.toTree.leaves, token.IsReadAlone) ∧
      (Token.significant value.text).map (·.text) = ["++", "*", "(", "uint", "*", ")", "&", "value"] := by
  intro value
  have hvalue : value.IsOperation :=
    .prefixed (by decide) (.prefixed (by decide) (.cast _ (.prefixed (by decide) (.ident "value"))))
  have hleaves : ∀ token ∈ value.toTree.leaves, token.IsReadAlone := by
    have hread : ∀ token ∈ value.toTree.leaves, Token.tokenize token.text = [token] ∧
        token.kind ≠ .error ∧ token.kind.isTrivia = false := by decide +kernel
    intro token hm
    obtain ⟨htoken, herror, htrivia⟩ := hread token hm
    exact Token.isReadAlone_of_tokenize htoken herror htrivia
  exact ⟨hvalue, hleaves, (text_tokens_iff hvalue hleaves).mpr (by decide +kernel)⟩

/-- A negated negation is written as a decrement. -/
theorem text_tokens_negated :
    ¬ ∀ value : Expr, value.IsOperation → (∀ token ∈ value.toTree.leaves, token.IsReadAlone) →
      (Token.significant value.text).map (·.text) = value.toTree.leaves.map (·.text) := by
  intro h
  let value : Expr := .prefixed .minus (.prefixed .minus (.ident "x"))
  have hread : ∀ token ∈ value.toTree.leaves, Token.tokenize token.text = [token] ∧
      token.kind ≠ .error ∧ token.kind.isTrivia = false := by decide +kernel
  have htokens := h value (.prefixed (by decide) (.prefixed (by decide) (.ident "x")))
    fun token hm => Token.isReadAlone_of_tokenize (hread token hm).1 (hread token hm).2.1
      (hread token hm).2.2
  have htext : value.text = "--x" := by decide +kernel
  rw [htext] at htokens
  exact absurd htokens (by decide +kernel)

end Expr

end SourceGen
