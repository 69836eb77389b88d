import ConsoleScript.Proofs.SourcePositions

/-! # The places of expressions

Where the tokens of a list stand in order and at positions with some property, every place that the
expression reader reports or puts into a tree is between two such positions.

* **`Cursor.Placed`** — the tokens that are left stand in order behind the last consumed one;
* **`Cursor.Open`** — the end of input is still ahead, as the only one and the last token. The
  expression reader never steps over it;
* **`Parsed.PlacesExpr`** — what the reader gives: findings and tree are placed, and if there is no
  tree although a token was consumed, a missing operand was reported at the token now ahead.
  `Parsed.PlacesRest` is the same for what continues an operand. -/

namespace ConsoleScript

/-- The places of an expression and of the expressions in it; a missing one has none. -/
def Expr.spans : Expr → List Span
  | .number span _ | .text span _ | .boolean span _ | .nil span | .name span _ => [span]
  | .unary span _ operand => span :: operand.spans
  | .binary span _ left right => span :: (left.spans ++ right.spans)
  | .paren span inner => span :: inner.spans
  | .missing => []

/-- Whether a complaint is about a missing expression or operand. -/
def Complaint.isMissing : Complaint → Bool
  | expectedExpression _ | expectedExpressionAfter _ _ | expectedOperand _ => true
  | _ => false

namespace Finding

/-- An expression or operand was reported missing at a place. -/
def MissedAt (place : Span) (findings : List Finding) : Prop :=
  ∃ finding ∈ findings, finding.complaint.isMissing = true ∧ finding.span = place

theorem MissedAt.append_left {place : Span} {findings : List Finding}
    (missed : MissedAt place findings) (more : List Finding) :
    MissedAt place (findings ++ more) := by
  obtain ⟨finding, member, is_missing, here⟩ := missed
  exact ⟨finding, List.mem_append_left _ member, is_missing, here⟩

theorem MissedAt.append_right {place : Span} {findings : List Finding}
    (missed : MissedAt place findings) (earlier : List Finding) :
    MissedAt place (earlier ++ findings) := by
  obtain ⟨finding, member, is_missing, here⟩ := missed
  exact ⟨finding, List.mem_append_right _ member, is_missing, here⟩

/-- A complaint about a missing expression is reported where it was found. -/
theorem missedAt_singleton {complaint : Complaint} (is_missing : complaint.isMissing = true)
    (place : Span) : MissedAt place [⟨complaint, place⟩] :=
  ⟨_, List.mem_cons_self, is_missing, rfl⟩

end Finding

/-- An expression whose places are real, between two positions. -/
structure Expr.PlacedIn (real : Position → Prop) (low high : Position) (expr : Expr) : Prop where
  /-- Its place and those of its parts. -/
  spans : ∀ span ∈ expr.spans, span.Within real
  /-- The expression is there. -/
  own : expr.span ∈ expr.spans
  /-- It begins behind the first position. -/
  low : low.offset ≤ expr.span.start.offset
  /-- It ends before the second. -/
  high : expr.span.stop.offset ≤ high.offset

/-- An operator between two placed operands, the second behind the first, is placed. -/
theorem Expr.PlacedIn.binary {real : Position → Prop} {low middle next high : Position}
    {left right : Expr} (first : left.PlacedIn real low middle)
    (second : right.PlacedIn real next high) (gap : middle.offset ≤ next.offset)
    (operator : BinaryOperator) :
    (Expr.binary ⟨left.span.start, right.span.stop⟩ operator left right).PlacedIn real low
      high := by
  have one := first.spans _ first.own
  have two := second.spans _ second.own
  have between : left.span.stop.offset ≤ right.span.start.offset :=
    Int.le_trans first.high (Int.le_trans gap second.low)
  have whole : (Span.mk left.span.start right.span.stop).Within real :=
    ⟨one.start, two.stop, Int.le_trans one.le (Int.le_trans between two.le)⟩
  refine ⟨?_, List.mem_cons_self, first.low, second.high⟩
  exact List.forall_mem_cons.2 ⟨whole, List.forall_mem_append.2 ⟨first.spans, second.spans⟩⟩

namespace Cursor

section

variable (real : Position → Prop) (final : Token)

/-- What is left at a cursor has real places, in order, behind the last consumed token. -/
structure Placed (cursor : Cursor) : Prop where
  /-- The last consumed token ended at a real position. -/
  last : real cursor.last
  /-- Every token stands between real positions. -/
  tokens : ∀ token ∈ cursor.rest, token.span.Within real
  /-- No token begins before the last consumed one ended. -/
  behind : ∀ token ∈ cursor.rest, cursor.last.offset ≤ token.span.start.offset
  /-- No token reaches into the next. -/
  ordered : cursor.rest.Pairwise fun first second =>
    first.span.stop.offset ≤ second.span.start.offset

/-- The end of input is still ahead, the only one and the last token. -/
def Open (cursor : Cursor) : Prop :=
  final.kind = .endOfInput ∧ ∃ marks, Token.Ongoing marks ∧ cursor.rest = marks ++ [final]

/-- Reading went from one cursor to another one that is placed and not before it. -/
structure Moves (start next : Cursor) : Prop where
  /-- What is left is placed. -/
  placed : next.Placed real
  /-- Reading went on in the source. -/
  forward : start.last.offset ≤ next.last.offset
  /-- Nothing was consumed, or the token that was ahead was. -/
  passed : next.rest = start.rest ∨ start.peek.span.start.offset ≤ next.last.offset

end

variable {real : Position → Prop} {final : Token}

theorem Placed.moves {cursor : Cursor} (placed : cursor.Placed real) : cursor.Moves real cursor :=
  ⟨placed, Int.le_refl _, .inl rfl⟩

theorem Moves.trans {start middle next : Cursor} (first : start.Moves real middle)
    (second : middle.Moves real next) : start.Moves real next := by
  refine ⟨second.placed, Int.le_trans first.forward second.forward, ?_⟩
  rcases first.passed with same | passed
  · have peeks : middle.peek = start.peek := by rw [peek, peek, same]
    have later := second.passed
    rwa [same, peeks] at later
  · exact .inr (Int.le_trans passed second.forward)

/-- Stepping over a token leads behind it. -/
theorem Placed.step {token : Token} {rest : List Token} {last : Position}
    (placed : (Cursor.mk (token :: rest) last).Placed real) :
    (Cursor.mk (token :: rest) last).Moves real ⟨rest, token.span.stop⟩ := by
  have here := placed.tokens token List.mem_cons_self
  have after := List.pairwise_cons.1 placed.ordered
  refine ⟨⟨here.stop, ?_, after.1, after.2⟩, ?_, .inr here.le⟩
  · intro other member
    exact placed.tokens other (List.mem_cons_of_mem _ member)
  · exact Int.le_trans (placed.behind token List.mem_cons_self) here.le

theorem Placed.advance {cursor : Cursor} (placed : cursor.Placed real) :
    cursor.Moves real cursor.advance := by
  obtain ⟨rest, last⟩ := cursor
  cases rest with
  | nil => exact placed.moves
  | cons token rest => exact placed.step

/-- Skipping tokens leads behind them. -/
theorem Placed.skipWhile {cursor : Cursor} (placed : cursor.Placed real)
    (skips : TokenKind → Bool) : cursor.Moves real (cursor.skipWhile skips) := by
  obtain ⟨tokens, last⟩ := cursor
  show Moves real ⟨tokens, last⟩ (skipWhile.go skips tokens last)
  induction tokens generalizing last with
  | nil => exact placed.moves
  | cons token rest ih =>
    rw [skipWhile.go]
    split
    · exact placed.step.trans (ih token.span.stop placed.step.placed)
    · exact placed.moves

theorem Placed.synchronize {cursor : Cursor} (placed : cursor.Placed real) :
    cursor.Moves real cursor.synchronize := by
  have skipped := placed.skipWhile fun kind => !isSeparator kind && !isRestart kind
  unfold Cursor.synchronize
  dsimp only
  split
  · exact skipped.trans skipped.placed.advance
  · exact skipped

/-! ## The end of input ahead -/

/-- Stepping over another token leaves the end of input ahead. -/
theorem Open.step {token : Token} {rest : List Token} {last : Position}
    (ahead : (Cursor.mk (token :: rest) last).Open final) (ongoing : token.kind ≠ .endOfInput)
    (next : Position) : (Cursor.mk rest next).Open final := by
  obtain ⟨final_kind, marks, others, parts⟩ := ahead
  cases marks with
  | nil =>
    obtain ⟨rfl, -⟩ := List.cons.inj parts
    exact absurd final_kind ongoing
  | cons mark marks =>
    obtain ⟨-, rfl⟩ := List.cons.inj parts
    exact ⟨final_kind, marks, (List.forall_mem_cons.1 others).2, rfl⟩

/-- At the end of input nothing else is left. -/
theorem Open.rest_eq {cursor : Cursor} (ahead : cursor.Open final)
    (ends : cursor.kind = .endOfInput) : cursor.rest = [final] := by
  obtain ⟨-, marks, others, parts⟩ := ahead
  cases marks with
  | nil => exact parts
  | cons mark marks =>
    have here : cursor.kind = mark.kind := by rw [kind, peek, parts]; rfl
    exact absurd (here.symm.trans ends) (others mark List.mem_cons_self)

/-- There is a token ahead, and it is the one that is looked at. -/
theorem Open.cons {cursor : Cursor} (ahead : cursor.Open final) :
    ∃ rest, cursor.rest = cursor.peek :: rest := by
  obtain ⟨-, marks, -, parts⟩ := ahead
  cases marks with
  | nil => exact ⟨[], by rw [peek, parts]; rfl⟩
  | cons mark marks => exact ⟨marks ++ [final], by rw [peek, parts]; rfl⟩

/-- The token that is looked at has a real place. -/
theorem Open.peek_within {cursor : Cursor} (ahead : cursor.Open final)
    (placed : cursor.Placed real) : cursor.peek.span.Within real := by
  obtain ⟨rest, parts⟩ := ahead.cons
  exact placed.tokens _ (parts ▸ List.mem_cons_self)

/-- The token that is looked at begins behind the last consumed one. -/
theorem Open.last_le {cursor : Cursor} (ahead : cursor.Open final) (placed : cursor.Placed real) :
    cursor.last.offset ≤ cursor.peek.span.start.offset := by
  obtain ⟨rest, parts⟩ := ahead.cons
  exact placed.behind _ (parts ▸ List.mem_cons_self)

theorem Open.advance {cursor : Cursor} (ahead : cursor.Open final)
    (ongoing : cursor.kind ≠ .endOfInput) : cursor.advance.Open final := by
  obtain ⟨tokens, last⟩ := cursor
  cases tokens with
  | nil =>
    obtain ⟨rest, parts⟩ := ahead.cons
    cases parts
  | cons token rest => exact ahead.step ongoing _

/-- What skips no end of input leaves it ahead. -/
theorem Open.skipWhile {cursor : Cursor} (ahead : cursor.Open final) {skips : TokenKind → Bool}
    (stops : skips .endOfInput = false) : (cursor.skipWhile skips).Open final := by
  obtain ⟨tokens, last⟩ := cursor
  show (skipWhile.go skips tokens last).Open final
  induction tokens generalizing last with
  | nil => exact ahead
  | cons token rest ih =>
    rw [skipWhile.go]
    split
    · rename_i skip
      have ongoing : token.kind ≠ .endOfInput := by
        intro ends
        rw [ends, stops] at skip
        exact Bool.false_ne_true skip
      exact ih _ (ahead.step ongoing _)
    · exact ahead

theorem Open.synchronize {cursor : Cursor} (ahead : cursor.Open final) :
    cursor.synchronize.Open final := by
  have skipped : (cursor.skipWhile fun kind => !isSeparator kind && !isRestart kind).Open final :=
    ahead.skipWhile rfl
  unfold Cursor.synchronize
  dsimp only
  split
  · rename_i separator
    refine skipped.advance ?_
    intro ends
    rw [ends] at separator
    exact absurd separator (by decide)
  · exact skipped

end Cursor

namespace Parsed

/-- What the expression reader gives, started at a cursor. -/
structure PlacesExpr (real : Position → Prop) (final : Token) (start : Cursor)
    (parsed : Parsed (Option Expr)) : Prop where
  /-- Reading went on to a placed cursor. -/
  moves : start.Moves real parsed.cursor
  /-- The end of input is still ahead. -/
  ahead : parsed.cursor.Open final
  /-- Every finding has a real place. -/
  findings : ∀ finding ∈ parsed.findings, finding.span.Within real
  /-- The tree has real places, from the first token to the last consumed one. -/
  value : ∀ expr, parsed.value = some expr →
    expr.PlacedIn real start.peek.span.start parsed.cursor.last
  /-- If there is no tree, nothing was consumed, or what is missing was reported here. -/
  missed : parsed.value = none →
    parsed.cursor = start ∨ Finding.MissedAt parsed.cursor.peek.span parsed.findings

/-- What continuing an operand that begins behind `low` gives, started at the cursor behind it. -/
structure PlacesRest (real : Position → Prop) (final : Token) (low : Position) (start : Cursor)
    (parsed : Parsed (Option Expr)) : Prop where
  /-- Reading went on to a placed cursor. -/
  moves : start.Moves real parsed.cursor
  /-- The end of input is still ahead. -/
  ahead : parsed.cursor.Open final
  /-- Every finding has a real place. -/
  findings : ∀ finding ∈ parsed.findings, finding.span.Within real
  /-- The tree has real places, from the operand to the last consumed token. -/
  value : ∀ expr, parsed.value = some expr → expr.PlacedIn real low parsed.cursor.last
  /-- If there is no tree, what is missing was reported here. -/
  missed : parsed.value = none → Finding.MissedAt parsed.cursor.peek.span parsed.findings

/-- If a required expression is missing, this was reported at the token now ahead. -/
theorem PlacesExpr.required {real : Position → Prop} {final : Token} {start : Cursor}
    {parsed : Parsed (Option Expr)} (places : parsed.PlacesExpr real final start)
    (ahead : start.Open final) (placed : start.Placed real) :
    (parsed.required start).PlacesExpr real final start ∧
      ((parsed.required start).value = none → Finding.MissedAt
        (parsed.required start).cursor.peek.span (parsed.required start).findings) := by
  cases found : parsed.value with
  | some expr =>
    have same : parsed.required start = parsed := by rw [Parsed.required, found]
    rw [same]
    refine ⟨places, ?_⟩
    rw [found]
    intro none
    cases none
  | none =>
    have same : parsed.required start = ⟨parsed.value, parsed.cursor, parsed.findings
        ++ [⟨.expectedExpression start.peek.description, start.peek.span⟩]⟩ := by
      rw [Parsed.required, found]
    have reported : Finding.MissedAt (parsed.required start).cursor.peek.span
        (parsed.required start).findings := by
      rw [same]
      rcases places.missed found with unmoved | missed
      · rw [unmoved]
        exact (Finding.missedAt_singleton rfl _).append_right _
      · exact missed.append_left _
    refine ⟨⟨?_, ?_, ?_, ?_, fun _ => .inr reported⟩, fun _ => reported⟩
    all_goals rw [same]
    · exact places.moves
    · exact places.ahead
    · exact List.forall_mem_append.2
        ⟨places.findings, List.forall_mem_singleton.2 (ahead.peek_within placed)⟩
    · exact places.value

end Parsed

namespace Cursor

variable {real : Position → Prop} {final : Token}

/-- Expecting a token steps over it, or stays before another one and reports that. -/
theorem expect_placed {cursor : Cursor} (placed : cursor.Placed real) (ahead : cursor.Open final)
    {wanted : TokenKind} (proper : wanted ≠ .endOfInput) :
    cursor.Moves real (cursor.expect wanted).cursor ∧ (cursor.expect wanted).cursor.Open final ∧
      ∀ finding ∈ (cursor.expect wanted).findings, finding.span.Within real := by
  rw [expect]
  split
  · rename_i same
    exact ⟨placed.advance, ahead.advance (same ▸ proper), by simp⟩
  · exact ⟨placed.moves, ahead, List.forall_mem_singleton.2 (ahead.peek_within placed)⟩

/-- An expression is placed wherever reading it starts. -/
def PlacesExpression (real : Position → Prop) (final : Token) (floor : Nat) (cursor : Cursor) :
    Prop :=
  cursor.Placed real → cursor.Open final →
    (cursor.expression floor).PlacesExpr real final cursor

section Smaller

-- What is nested in an expression is read at cursors with fewer tokens left.
variable {bound : Nat} (smaller : ∀ (other : Cursor) (floor : Nat), other.size < bound →
  other.PlacesExpression real final floor)

/-- An operand of one token. -/
theorem places_leaf {token : Token} {rest : List Token} {last : Position} {expr : Expr}
    {findings : List Finding} (placed : (Cursor.mk (token :: rest) last).Placed real)
    (ahead : (Cursor.mk (token :: rest) last).Open final) (ongoing : token.kind ≠ .endOfInput)
    (spans : expr.spans = [token.span]) (own : expr.span = token.span)
    (here : ∀ finding ∈ findings, finding.span = token.span) :
    (Parsed.mk (some expr) ⟨rest, token.span.stop⟩ findings).PlacesExpr real final
      ⟨token :: rest, last⟩ := by
  have within := placed.tokens token List.mem_cons_self
  refine ⟨placed.step, ahead.step ongoing _, ?_, ?_, ?_⟩
  · intro finding member
    rw [here finding member]
    exact within
  · intro read found
    obtain rfl := Option.some.inj found
    refine ⟨?_, ?_, ?_, ?_⟩
    · rw [spans]
      exact List.forall_mem_singleton.2 within
    · rw [spans, own]
      exact List.mem_cons_self
    · have begins : token.span.start.offset = expr.span.start.offset := by rw [own]
      exact Int.le_of_eq begins
    · have ends : expr.span.stop.offset = token.span.stop.offset := by rw [own]
      exact Int.le_of_eq ends
  · intro none
    cases none

/-- From a token at the cursor to wherever reading went on behind it is a real place. -/
theorem within_from {token : Token} {rest : List Token} {last : Position} {next : Cursor}
    (placed : (Cursor.mk (token :: rest) last).Placed real)
    (moves : (Cursor.mk rest token.span.stop).Moves real next) :
    (Span.mk token.span.start next.last).Within real := by
  have here := placed.tokens token List.mem_cons_self
  exact ⟨here.start, moves.placed.last, Int.le_trans here.le moves.forward⟩

/-- An operator before an operand. -/
theorem places_unary {token : Token} {rest : List Token} {last : Position}
    (placed : (Cursor.mk (token :: rest) last).Placed real) {parsed : Parsed (Option Expr)}
    (inner : parsed.PlacesExpr real final ⟨rest, token.span.stop⟩) (operator : UnaryOperator) :
    (match parsed.value with
      | none => ⟨none, parsed.cursor,
        parsed.findings ++ [⟨.expectedOperand token.lexeme, parsed.cursor.peek.span⟩]⟩
      | some operand => ⟨some (.unary ⟨token.span.start, parsed.cursor.last⟩ operator operand),
        parsed.cursor, parsed.findings⟩ : Parsed (Option Expr)).PlacesExpr real final
      ⟨token :: rest, last⟩ := by
  have moves := placed.step.trans inner.moves
  cases value : parsed.value with
  | none =>
    have reported := inner.ahead.peek_within inner.moves.placed
    refine ⟨moves, inner.ahead, ?_, by simp, fun _ => .inr ?_⟩
    · exact List.forall_mem_append.2 ⟨inner.findings, List.forall_mem_singleton.2 reported⟩
    · exact (Finding.missedAt_singleton rfl _).append_right _
  | some operand =>
    refine ⟨moves, inner.ahead, inner.findings, ?_, by simp⟩
    intro read found
    obtain rfl := Option.some.inj found
    refine ⟨?_, List.mem_cons_self, Int.le_refl _, Int.le_refl _⟩
    exact List.forall_mem_cons.2 ⟨within_from placed inner.moves, (inner.value operand value).spans⟩

/-- An expression in parentheses, closed or not. -/
theorem places_paren {token : Token} {rest : List Token} {last : Position}
    (placed : (Cursor.mk (token :: rest) last).Placed real) {parsed : Parsed (Option Expr)}
    (inner : parsed.PlacesExpr real final (Cursor.mk rest token.span.stop).skipNewlines)
    (reported : parsed.value = none →
      Finding.MissedAt parsed.cursor.peek.span parsed.findings) :
    (match parsed.value with
      | none => ⟨none, parsed.cursor, parsed.findings⟩
      | some expr =>
        let close := parsed.cursor.skipNewlines.expect .rightParen
        ⟨some (.paren ⟨token.span.start, close.cursor.last⟩ expr), close.cursor,
          parsed.findings ++ close.findings⟩ : Parsed (Option Expr)).PlacesExpr real final
      ⟨token :: rest, last⟩ := by
  have inside := (placed.step.placed.skipWhile (· == .newline)).trans inner.moves
  cases value : parsed.value with
  | none => exact ⟨placed.step.trans inside, inner.ahead, inner.findings, by simp,
      fun _ => .inr (reported value)⟩
  | some expr =>
    have skipped := inner.moves.placed.skipWhile (· == .newline)
    have still : parsed.cursor.skipNewlines.Open final := inner.ahead.skipWhile rfl
    have proper : TokenKind.rightParen ≠ .endOfInput := by decide
    obtain ⟨closes, open_behind, complaints⟩ := expect_placed skipped.placed still proper
    have whole := inside.trans (skipped.trans closes)
    refine ⟨placed.step.trans whole, open_behind, ?_, ?_, by simp⟩
    · exact List.forall_mem_append.2 ⟨inner.findings, complaints⟩
    · intro read found
      obtain rfl := Option.some.inj found
      refine ⟨?_, List.mem_cons_self, Int.le_refl _, Int.le_refl _⟩
      exact List.forall_mem_cons.2 ⟨within_from placed whole, (inner.value expr value).spans⟩

include smaller

/-- An operand is placed if what is nested in it is. -/
theorem places_operand {cursor : Cursor} (within : cursor.size ≤ bound)
    (placed : cursor.Placed real) (ahead : cursor.Open final) :
    cursor.operand.PlacesExpr real final cursor := by
  obtain ⟨tokens, last⟩ := cursor
  cases tokens with
  | nil =>
    rw [operand_nil]
    exact ⟨placed.moves, ahead, by simp, by simp, fun _ => .inl rfl⟩
  | cons token rest =>
    have less : (Cursor.mk rest token.span.stop).size < bound := within
    have step := placed.step
    rw [operand_cons]
    cases kind : token.kind
    case number =>
      refine places_leaf placed ahead (by simp [kind]) rfl rfl ?_
      intro finding member
      split at member
      · cases member
      · rw [List.mem_singleton.1 member]
    case text => exact places_leaf placed ahead (by simp [kind]) rfl rfl (by simp)
    case trueWord => exact places_leaf placed ahead (by simp [kind]) rfl rfl (by simp)
    case falseWord => exact places_leaf placed ahead (by simp [kind]) rfl rfl (by simp)
    case nilWord => exact places_leaf placed ahead (by simp [kind]) rfl rfl (by simp)
    case name => exact places_leaf placed ahead (by simp [kind]) rfl rfl (by simp)
    case minus | bang =>
      have behind := ahead.step (by simp [kind]) token.span.stop
      exact places_unary placed (smaller _ TokenKind.unaryStrength less step.placed behind) _
    case leftParen =>
      have behind := ahead.step (by simp [kind]) token.span.stop
      have skipped := step.placed.skipWhile (· == .newline)
      have still : (Cursor.mk rest token.span.stop).skipNewlines.Open final := behind.skipWhile rfl
      have deeper := Nat.lt_of_le_of_lt (size_skipNewlines_le ⟨rest, token.span.stop⟩) less
      obtain ⟨inner, reported⟩ := (smaller _ 0 deeper skipped.placed still).required still
        skipped.placed
      exact places_paren placed inner reported
    all_goals exact ⟨placed.moves, ahead, by simp, by simp, fun _ => .inl rfl⟩

/-- What continues a placed operand gives a placed tree, or reports what is missing. -/
theorem places_continuation (floor : Nat) {low : Position} {left : Expr} {cursor : Cursor}
    (within : cursor.size ≤ bound) (placed : cursor.Placed real) (ahead : cursor.Open final)
    (operand : left.PlacedIn real low cursor.last) :
    (continuation floor left cursor).PlacesRest real final low cursor := by
  -- Each round consumes an operator, so the number of tokens left decreases.
  induction length : cursor.size using Nat.strongRecOn generalizing cursor left with
  | ind size ih =>
    have stays : (Parsed.mk (some left) cursor []).PlacesRest real final low cursor := by
      refine ⟨placed.moves, ahead, by simp, ?_, by simp⟩
      intro expr same
      obtain rfl := Option.some.inj same
      exact operand
    obtain ⟨tokens, last⟩ := cursor
    cases tokens with
    | nil =>
      rw [continuation_nil]
      exact stays
    | cons sign rest =>
      by_cases weak : sign.kind.strength ≤ floor
      · rw [continuation_cons, if_pos weak]
        exact stays
      · rw [continuation_cons, if_neg weak]
        -- The end of input binds nothing, so it is not the operator that is stepped over.
        have ongoing : sign.kind ≠ .endOfInput := by
          intro ends
          rw [ends] at weak
          exact weak (Nat.zero_le _)
        have skipped := placed.step.placed.skipWhile (· == .newline)
        have still : (Cursor.mk rest sign.span.stop).skipNewlines.Open final :=
          (ahead.step ongoing sign.span.stop).skipWhile rfl
        let behind := (Cursor.mk rest sign.span.stop).skipNewlines
        have shorter : behind.size < (sign :: rest).length :=
          Nat.lt_succ_of_le (size_skipNewlines_le ⟨rest, sign.span.stop⟩)
        have right := smaller behind sign.kind.rightFloor (Nat.lt_of_lt_of_le shorter within)
          skipped.placed still
        have moves := placed.step.trans (skipped.trans right.moves)
        cases value : (behind.expression sign.kind.rightFloor).value with
        | none =>
          simp only [behind, value]
          have reported := right.ahead.peek_within right.moves.placed
          refine ⟨moves, right.ahead, ?_, by simp, fun _ => ?_⟩
          · exact List.forall_mem_append.2 ⟨right.findings, List.forall_mem_singleton.2 reported⟩
          · exact (Finding.missedAt_singleton rfl _).append_right _
        | some second =>
          simp only [behind, value]
          -- The left operand ended before the operator, behind which the right one begins.
          have gap : last.offset ≤ behind.peek.span.start.offset :=
            Int.le_trans (placed.step.trans skipped).forward (still.last_le skipped.placed)
          have joined := operand.binary (right.value second value) gap (.ofKind sign.kind)
          have less : (behind.expression sign.kind.rightFloor).cursor.size < size := by
            rw [← length]
            exact Nat.lt_of_le_of_lt (behind.advances_expression sign.kind.rightFloor).1 shorter
          have further := ih _ less (Nat.le_of_lt (Nat.lt_of_lt_of_le less (length ▸ within)))
            right.moves.placed right.ahead joined rfl
          refine ⟨moves.trans further.moves, further.ahead, ?_, further.value, ?_⟩
          · exact List.forall_mem_append.2 ⟨right.findings, further.findings⟩
          · exact fun none => (further.missed none).append_right _

end Smaller

/-- Every expression is placed. -/
theorem placesExpression (floor : Nat) (cursor : Cursor) :
    cursor.PlacesExpression real final floor := by
  -- By the number of tokens left, for all floors at once.
  induction length : cursor.size using Nat.strongRecOn generalizing cursor floor with
  | ind size ih =>
    have smaller (other : Cursor) (floor : Nat) (less : other.size < cursor.size) :
        other.PlacesExpression real final floor :=
      ih other.size (length ▸ less) floor other rfl
    intro placed ahead
    have operand := places_operand smaller (Nat.le_refl _) placed ahead
    rw [expression_eq]
    cases value : cursor.operand.value with
    | none => exact ⟨operand.moves, operand.ahead, operand.findings, by simp,
        fun _ => operand.missed value⟩
    | some left =>
      have within : cursor.operand.cursor.size ≤ cursor.size := cursor.operandStep.2.1
      have rest := places_continuation smaller floor within operand.moves.placed operand.ahead
        (operand.value left value)
      refine ⟨operand.moves.trans rest.moves, rest.ahead, ?_, rest.value, ?_⟩
      · exact List.forall_mem_append.2 ⟨operand.findings, rest.findings⟩
      · exact fun none => .inr ((rest.missed none).append_right _)

/-- Every required expression is placed. -/
theorem places_requiredExpression {cursor : Cursor} (placed : cursor.Placed real)
    (ahead : cursor.Open final) : cursor.requiredExpression.PlacesExpr real final cursor :=
  ((cursor.placesExpression 0 placed ahead).required ahead placed).1

end Cursor

end ConsoleScript
