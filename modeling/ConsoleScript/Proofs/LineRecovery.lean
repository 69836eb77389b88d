import ConsoleScript.Proofs.StatementReading

/-! # Errors and lines

Whatever is wrong with a line, reading goes on with the next one, unless the line ends with a
negation without operand where an assignment was expected: then the line break is lost as well, and
reading goes on behind the next one.

* **`Token.IsLine`** — tokens without line breaks, and without anything that goes on over them;
* **`Cursor.readsLine_expression`** — an expression that starts in a line is read in the same way
  whatever stands behind the line;
* **`Cursor.leavesAs_statement`** — so is a statement, and reading goes on in the line, behind the
  line break, or behind the next one (`Token.LeavesLine`);
* **`Token.IsLine.read_before`** — from statement to statement, the same for the whole line. -/

namespace ConsoleScript

/-- Whether a kind neither separates statements nor opens or closes what may go on over line breaks.
-/
def TokenKind.isInline : TokenKind → Bool
  | newline | semicolon | endOfInput | leftParen | rightParen | leftBrace | rightBrace | ifWord
  | whileWord => false
  | _ => true

/-- What may stand inside a line separates no statements. -/
theorem TokenKind.isSeparator_of_isInline {kind : TokenKind} (inline : kind.isInline = true) :
    Cursor.isSeparator kind = false := by
  cases kind
  case newline | semicolon => cases inline
  all_goals rfl

namespace Token

/-! ## Lines -/

/-- Tokens that may stand on one line and are not continued on the next: no operator is last. -/
structure IsLine (tokens : List Token) : Prop where
  /-- No token goes on over line breaks. -/
  inline : ∀ token ∈ tokens, token.kind.isInline = true
  /-- The last token is no binary operator. -/
  complete : ∀ front token, tokens = front ++ [token] → token.kind.strength = 0

/-- The last token is of this kind. -/
def EndsIn (kind : TokenKind) (tokens : List Token) : Prop :=
  ∃ front token, tokens = front ++ [token] ∧ token.kind = kind

/-- A line break or the end of input comes first, or nothing at all. -/
def Stops (tail : List Token) : Prop :=
  headKind tail = .newline ∨ headKind tail = .endOfInput

theorem stops_nil : Stops [] :=
  .inr rfl

/-- The end of a line is a line. -/
theorem IsLine.of_suffix {tokens behind : List Token} (line : IsLine tokens)
    (suffix : behind <:+ tokens) : IsLine behind := by
  obtain ⟨before, rfl⟩ := suffix
  refine ⟨fun token member => line.inline token (List.mem_append_right before member), ?_⟩
  rintro front token rfl
  exact line.complete (before ++ front) token (List.append_assoc before front [token]).symm

/-- A list ends as its end does. -/
theorem EndsIn.of_suffix {kind : TokenKind} {tokens behind : List Token}
    (ends : EndsIn kind behind) (suffix : behind <:+ tokens) : EndsIn kind tokens := by
  obtain ⟨before, rfl⟩ := suffix
  obtain ⟨front, token, rfl, same⟩ := ends
  exact ⟨before ++ front, token, (List.append_assoc before front [token]).symm, same⟩

/-- What stops a line continues no expression. -/
theorem Stops.headStrength {tail : List Token} (stops : Stops tail) : headStrength tail = 0 := by
  rw [Token.headStrength]
  rcases stops with newline | final
  · rw [newline]
    rfl
  · rw [final]
    rfl

/-! ## Leaving an error behind -/

/-- What is left behind the next separator or before the next restart. -/
def resume : List Token → List Token
  | [] => []
  | token :: rest =>
    if Cursor.isSeparator token.kind then rest
    else if Cursor.isRestart token.kind then token :: rest
    else resume rest

/-- Where reading goes on behind a statement that starts in `line`, for every tail of the line. -/
inductive LeavesLine (line : List Token) : (List Token → List Token) → Prop where
  /-- In the line. -/
  | inside {behind : List Token} (suffix : behind <:+ line) : LeavesLine line (behind ++ ·)
  /-- Behind the separator that ends the line. -/
  | next : LeavesLine line resume
  /-- Behind the next separator but one, the one that ends the line being lost. -/
  | lost (broken : EndsIn .bang line) : LeavesLine line fun tail => resume tail.tail

theorem LeavesLine.of_suffix {line behind : List Token} {reach : List Token → List Token}
    (leaves : LeavesLine behind reach) (suffix : behind <:+ line) : LeavesLine line reach := by
  cases leaves with
  | inside inner => exact .inside (inner.trans suffix)
  | next => exact .next
  | lost broken => exact .lost (broken.of_suffix suffix)

/-- An error inside a line is left at a restart inside the line, or with the line. -/
theorem IsLine.leaves_resume {line : List Token} (is_line : IsLine line) :
    ∃ reach, LeavesLine line reach ∧ ∀ tail, resume (line ++ tail) = reach tail := by
  induction line with
  | nil => exact ⟨resume, .next, fun _ => rfl⟩
  | cons token rest ih =>
    have continues := TokenKind.isSeparator_of_isInline (is_line.inline token List.mem_cons_self)
    have later : rest <:+ token :: rest := List.suffix_cons token rest
    by_cases restart : Cursor.isRestart token.kind = true
    · refine ⟨(token :: rest ++ ·), .inside List.suffix_rfl, fun tail => ?_⟩
      rw [List.cons_append, resume, continues, if_neg Bool.false_ne_true, if_pos restart]
      rfl
    · obtain ⟨reach, leaves, same⟩ := ih (is_line.of_suffix later)
      refine ⟨reach, leaves.of_suffix later, fun tail => ?_⟩
      rw [List.cons_append, resume, continues, if_neg Bool.false_ne_true, if_neg restart, same]

end Token

namespace Cursor

/-- Synchronizing resumes. -/
theorem rest_synchronize (cursor : Cursor) :
    cursor.synchronize.rest = Token.resume cursor.rest := by
  obtain ⟨tokens, last⟩ := cursor
  induction tokens generalizing last with
  | nil => rfl
  | cons token rest ih =>
    have same := ih token.span.stop
    rw [synchronize, skipWhile] at same ⊢
    rw [Token.resume]
    by_cases separator : isSeparator token.kind = true
    · simp [skipWhile.go, separator, kind, peek, advance]
    · by_cases restart : isRestart token.kind = true
      · simp [skipWhile.go, separator, restart, kind, peek]
      · simpa [skipWhile.go, separator, restart] using same

/-- The cursor with more tokens behind its own. -/
def before (tail : List Token) (cursor : Cursor) : Cursor :=
  ⟨cursor.rest ++ tail, cursor.last⟩

@[simp] theorem before_nil (tail : List Token) (last : Position) :
    (Cursor.mk [] last).before tail = ⟨tail, last⟩ := rfl

@[simp] theorem before_cons (tail : List Token) (token : Token) (rest : List Token)
    (last : Position) :
    (Cursor.mk (token :: rest) last).before tail = ⟨token :: (rest ++ tail), last⟩ := rfl

/-! ## Expressions in a line -/

/-- What is read from `start` before a tail is what is read without it, and so is the place that is
reached, in front of the tail. If the tokens of `start` are used up without a value, the last of
them is a negation. -/
structure ReadsLine (tail : List Token) (start : Cursor) (short long : Parsed (Option Expr)) :
    Prop where
  /-- No token is put back. -/
  within : short.cursor.rest <:+ start.rest
  /-- The same value is read. -/
  value : long.value = short.value
  /-- The same place is reached. -/
  cursor : long.cursor = short.cursor.before tail
  /-- An operand is missing at the end. -/
  broken : short.value = none → short.cursor.rest = [] → start.rest ≠ [] →
    Token.EndsIn .bang start.rest

/-- An expression reads its line. -/
def ReadsLineAt (tail : List Token) (floor : Nat) (cursor : Cursor) : Prop :=
  Token.IsLine cursor.rest →
    ReadsLine tail cursor (cursor.expression floor) ((cursor.before tail).expression floor)

variable {tail : List Token}

/-- Where no token is consumed, the same place is reached. -/
theorem readsLine_stay (cursor : Cursor) (value : Option Expr) (some_left : cursor.rest ≠ [])
    (findings others : List Finding) :
    ReadsLine tail cursor ⟨value, cursor, findings⟩ ⟨value, cursor.before tail, others⟩ :=
  ⟨List.suffix_rfl, rfl, rfl, fun _ nothing => absurd nothing some_left⟩

/-- There are no line breaks to skip inside a line. -/
theorem skipNewlines_of_isLine {tokens : List Token} (line : Token.IsLine tokens)
    (some_left : tokens ≠ []) (tail : List Token) (last : Position) :
    (Cursor.mk (tokens ++ tail) last).skipNewlines = ⟨tokens ++ tail, last⟩ := by
  cases tokens with
  | nil => exact absurd rfl some_left
  | cons token rest =>
    have visible : token.kind ≠ .newline := by
      intro newline
      exact absurd (newline ▸ line.inline token List.mem_cons_self) (by decide)
    simp [skipNewlines, skipWhile, skipWhile.go, visible]

/-- No operand starts with what stops a line. -/
theorem operand_of_stops (stops : Token.Stops tail) (last : Position) :
    operand ⟨tail, last⟩ = ⟨none, ⟨tail, last⟩, []⟩ := by
  cases tail with
  | nil => exact operand_nil last
  | cons token rest =>
    rw [operand_cons]
    rcases stops with newline | final
    · rw [Token.headKind_cons] at newline
      rw [newline]
    · rw [Token.headKind_cons] at final
      rw [final]

/-- Where nothing is left, an operand stays as it is. -/
theorem value_continuation_of_nil (floor : Nat) (left : Expr) {cursor : Cursor}
    (at_end : cursor.rest = []) : (continuation floor left cursor).value = some left := by
  obtain ⟨rest, last⟩ := cursor
  obtain rfl : rest = [] := at_end
  rw [continuation_nil]

/-- A unary operator reads its line if its operand does. -/
theorem readsLine_unary {token : Token} {rest : List Token} {last : Position}
    (line : Token.IsLine (token :: rest)) (unary : token.kind = .minus ∨ token.kind = .bang)
    {short long : Parsed (Option Expr)}
    (inner : ReadsLine tail ⟨rest, token.span.stop⟩ short long) (op : UnaryOperator)
    (missing missing' : List Finding) :
    ReadsLine tail ⟨token :: rest, last⟩
      (match short.value with
        | none => ⟨none, short.cursor, short.findings ++ missing⟩
        | some operand =>
          ⟨some (.unary ⟨token.span.start, short.cursor.last⟩ op operand), short.cursor,
            short.findings⟩)
      (match long.value with
        | none => ⟨none, long.cursor, long.findings ++ missing'⟩
        | some operand =>
          ⟨some (.unary ⟨token.span.start, long.cursor.last⟩ op operand), long.cursor,
            long.findings⟩) := by
  have later : rest <:+ token :: rest := List.suffix_cons token rest
  rw [inner.value, inner.cursor]
  cases value : short.value with
  | some operand => exact ⟨inner.within.trans later, rfl, rfl, fun none => nomatch none⟩
  | none =>
    refine ⟨inner.within.trans later, rfl, rfl, fun _ nothing _ => ?_⟩
    by_cases alone : rest = []
    · -- A minus sign at the end would be a binary operator.
      subst alone
      have weak := line.complete [] token rfl
      rcases unary with minus | bang
      · rw [minus] at weak
        exact absurd weak (by decide)
      · exact ⟨[], token, rfl, bang⟩
    · exact (inner.broken value nothing alone).of_suffix later

section Smaller

variable {bound : Nat} (stops : Token.Stops tail)
  (smaller : ∀ (other : Cursor) (floor : Nat), other.size < bound → other.ReadsLineAt tail floor)
include stops smaller

/-- An operand reads its line if what is nested in it does. -/
theorem readsLine_operand {cursor : Cursor} (within : cursor.size ≤ bound)
    (line : Token.IsLine cursor.rest) :
    ReadsLine tail cursor cursor.operand (cursor.before tail).operand := by
  obtain ⟨tokens, last⟩ := cursor
  cases tokens with
  | nil =>
    rw [operand_nil, before_nil, operand_of_stops stops]
    exact ⟨List.suffix_rfl, rfl, rfl, fun _ _ some_left => absurd rfl some_left⟩
  | cons token rest =>
    have later : rest <:+ token :: rest := List.suffix_cons token rest
    have leaf (expr : Expr) (findings others : List Finding) :
        ReadsLine tail ⟨token :: rest, last⟩ ⟨some expr, ⟨rest, token.span.stop⟩, findings⟩
          ⟨some expr, ⟨rest ++ tail, token.span.stop⟩, others⟩ :=
      ⟨later, rfl, rfl, fun none => nomatch none⟩
    have stay (findings others : List Finding) :
        ReadsLine tail ⟨token :: rest, last⟩ ⟨none, ⟨token :: rest, last⟩, findings⟩
          ⟨none, ⟨token :: (rest ++ tail), last⟩, others⟩ :=
      readsLine_stay ⟨token :: rest, last⟩ none (List.cons_ne_nil token rest) findings others
    have inline := line.inline token List.mem_cons_self
    rw [before_cons, operand_cons, operand_cons]
    -- The first token decides what is read, whatever stands behind the line.
    cases kind : token.kind
    case number | text | trueWord | falseWord | nilWord | name => exact leaf _ _ _
    case minus | bang =>
      have inner := smaller ⟨rest, token.span.stop⟩ TokenKind.unaryStrength within
        (line.of_suffix later)
      exact readsLine_unary line (by simp [kind]) inner _ _ _
    case leftParen => exact absurd (kind ▸ inline) (by decide)
    all_goals exact stay _ _

/-- What continues an operand reads its line. -/
theorem readsLine_continuation (floor : Nat) {left : Expr} {cursor : Cursor}
    (within : cursor.size ≤ bound) (line : Token.IsLine cursor.rest) :
    ReadsLine tail cursor (continuation floor left cursor)
      (continuation floor left (cursor.before tail)) := by
  -- Each round consumes an operator, so the number of tokens left decreases.
  induction length : cursor.size using Nat.strongRecOn generalizing cursor left with
  | ind size ih =>
    obtain ⟨tokens, last⟩ := cursor
    cases tokens with
    | nil =>
      have weak : Token.headStrength tail ≤ floor := by
        rw [stops.headStrength]
        exact Nat.zero_le floor
      rw [continuation_nil, before_nil, continuation_stop left weak]
      exact ⟨List.suffix_rfl, rfl, rfl, fun none => nomatch none⟩
    | cons sign rest =>
      have later : rest <:+ sign :: rest := List.suffix_cons sign rest
      rw [before_cons, continuation_cons, continuation_cons]
      by_cases weak : sign.kind.strength ≤ floor
      · rw [if_pos weak, if_pos weak]
        exact readsLine_stay ⟨sign :: rest, last⟩ (some left) (List.cons_ne_nil sign rest) [] []
      · rw [if_neg weak, if_neg weak]
        -- An operator does not end a line, so a token of the line follows it.
        have followed : rest ≠ [] := by
          rintro rfl
          have none := line.complete [] sign rfl
          omega
        have inside := line.of_suffix later
        have skips := skipNewlines_of_isLine inside followed
        have skips_alone := skips [] sign.span.stop
        rw [List.append_nil] at skips_alone
        rw [skips tail, skips_alone]
        have right := smaller ⟨rest, sign.span.stop⟩ sign.kind.rightFloor within inside
        have moved := advances_expression sign.kind.rightFloor ⟨rest, sign.span.stop⟩
        rw [show (⟨rest ++ tail, sign.span.stop⟩ : Cursor)
          = (Cursor.mk rest sign.span.stop).before tail from rfl]
        cases value : ((Cursor.mk rest sign.span.stop).expression sign.kind.rightFloor).value with
        | none =>
          simp only [right.value, right.cursor, value]
          refine ⟨right.within.trans later, rfl, rfl, fun _ nothing _ => ?_⟩
          exact (right.broken value nothing followed).of_suffix later
        | some operand =>
          simp only [right.value, right.cursor, value]
          have less := Nat.lt_of_le_of_lt moved.1 (Nat.lt_succ_self rest.length)
          let joined : Expr :=
            .binary ⟨left.span.start, operand.span.stop⟩ (.ofKind sign.kind) left operand
          have whole := @ih _ (length ▸ less) joined _
            (Nat.le_of_lt (Nat.lt_of_lt_of_le less within)) (inside.of_suffix right.within) rfl
          have suffix := right.within.trans later
          refine ⟨whole.within.trans suffix, whole.value, whole.cursor, fun none nothing _ => ?_⟩
          refine (whole.broken none nothing fun at_end => ?_).of_suffix suffix
          -- At the end of the line there is nothing left to fail.
          rw [value_continuation_of_nil floor joined at_end] at none
          cases none

end Smaller

/-- Every expression that starts in a line reads it. -/
theorem readsLine_expression (stops : Token.Stops tail) (floor : Nat) (cursor : Cursor) :
    cursor.ReadsLineAt tail floor := by
  -- By the number of tokens left, for all floors at once.
  induction length : cursor.size using Nat.strongRecOn generalizing cursor floor with
  | ind size ih =>
    have smaller (other : Cursor) (floor : Nat) (less : other.size < cursor.size) :
        other.ReadsLineAt tail floor :=
      ih other.size (length ▸ less) floor other rfl
    intro line
    have operand := readsLine_operand stops smaller (Nat.le_refl _) line
    rw [expression_eq, expression_eq]
    cases value : cursor.operand.value with
    | none =>
      simp only [operand.value, value]
      exact ⟨operand.within, rfl, operand.cursor, fun _ => operand.broken value⟩
    | some left =>
      simp only [operand.value, operand.cursor, value]
      have within : cursor.operand.cursor.size ≤ cursor.size := cursor.operandStep.2.1
      have whole := @readsLine_continuation _ _ stops smaller floor left _ within
        (line.of_suffix operand.within)
      have suffix := whole.within.trans operand.within
      refine ⟨suffix, whole.value, whole.cursor, fun none nothing _ => ?_⟩
      refine (whole.broken none nothing fun at_end => ?_).of_suffix operand.within
      rw [value_continuation_of_nil floor left at_end] at none
      cases none

/-- So does every required expression. -/
theorem readsLine_requiredExpression (stops : Token.Stops tail) {cursor : Cursor}
    (line : Token.IsLine cursor.rest) :
    ReadsLine tail cursor cursor.requiredExpression (cursor.before tail).requiredExpression := by
  have reads := cursor.readsLine_expression stops 0 line
  rw [requiredExpression, requiredExpression]
  refine ⟨?_, ?_, ?_, ?_⟩
  · rw [Parsed.cursor_required]
    exact reads.within
  · rw [Parsed.value_required, Parsed.value_required]
    exact reads.value
  · rw [Parsed.cursor_required, Parsed.cursor_required]
    exact reads.cursor
  · rw [Parsed.cursor_required, Parsed.value_required]
    exact reads.broken

/-! ## Statements in a line -/

/-- What is read before every tail of a line is the same, and where reading goes on is known. -/
def LeavesAs (line : List Token) (read : List Token → Parsed (Option Stmt)) : Prop :=
  ∃ value reach, Token.LeavesLine line reach ∧
    ∀ tail, Token.Stops tail → (read tail).value = value ∧ (read tail).cursor.rest = reach tail

/-- An erroneous statement is left behind at the next place to resume. -/
theorem leavesAs_resume {line behind : List Token} {read : List Token → Parsed (Option Stmt)}
    (is_line : Token.IsLine line) (suffix : behind <:+ line)
    (erroneous : ∀ tail, Token.Stops tail →
      (read tail).value = none ∧ (read tail).cursor.rest = Token.resume (behind ++ tail)) :
    LeavesAs line read := by
  obtain ⟨reach, leaves, same⟩ := (is_line.of_suffix suffix).leaves_resume
  refine ⟨none, reach, leaves.of_suffix suffix, fun tail stops => ?_⟩
  rw [← same tail]
  exact erroneous tail stops

/-- A statement that ends with a value ends in its line, or is left behind. -/
theorem leavesAs_valued {make : Span → Expr → Stmt} {beginning : Position}
    {read : Cursor → Parsed (Option Stmt)} {cursor : Cursor} (line : Token.IsLine cursor.rest)
    (reads : ∀ start : Cursor, read start = match start.requiredExpression.value with
      | none => ⟨none, start.requiredExpression.cursor.synchronize,
        start.requiredExpression.findings⟩
      | some expr => ⟨some (make (start.requiredExpression.cursor.spanFrom beginning) expr),
        start.requiredExpression.cursor, start.requiredExpression.findings⟩) :
    LeavesAs cursor.rest fun tail => read (cursor.before tail) := by
  have within := (readsLine_requiredExpression Token.stops_nil line).within
  cases value : cursor.requiredExpression.value with
  | none =>
    refine leavesAs_resume line within fun tail stops => ?_
    have same := readsLine_requiredExpression stops line
    rw [reads, same.value, value]
    exact ⟨rfl, by rw [rest_synchronize, same.cursor]; rfl⟩
  | some expr =>
    refine ⟨some (make (cursor.requiredExpression.cursor.spanFrom beginning) expr), _,
      .inside within, fun tail stops => ?_⟩
    have same := readsLine_requiredExpression stops line
    dsimp only
    rw [reads, same.value, value, same.cursor]
    exact ⟨rfl, rfl⟩

/-- A place inside a line holds the same token before every tail. -/
theorem peek_before {cursor : Cursor} (some_left : cursor.rest ≠ []) (tail : List Token) :
    (cursor.before tail).peek = cursor.peek := by
  obtain ⟨tokens, last⟩ := cursor
  cases tokens with
  | nil => exact absurd rfl some_left
  | cons token rest => rfl

section Assignments

variable {cursor : Cursor} (line : Token.IsLine cursor.rest) (some_left : cursor.rest ≠ [])
include line

/-- An expression that no sign of assignment follows is left behind. -/
theorem leavesAs_notAssigned {expr : Expr} (value : (cursor.expression 0).value = some expr)
    (other : ∀ tail, Token.Stops tail →
      ((cursor.expression 0).cursor.before tail).kind ≠ .assign) :
    LeavesAs cursor.rest fun tail => (cursor.before tail).assignment := by
  have here := cursor.readsLine_expression Token.stops_nil 0 line
  refine leavesAs_resume line here.within fun tail stops => ?_
  have same := cursor.readsLine_expression stops 0 line
  rw [assignment]
  simp only [same.value, value, same.cursor, if_neg (other tail stops)]
  exact ⟨trivial, rest_synchronize _⟩

include some_left

/-- If there is no target, the token before which reading gave up is stepped over as well: at the
end of the line this is the line break. -/
theorem leavesAs_missingTarget (missing : (cursor.expression 0).value = none) :
    LeavesAs cursor.rest fun tail => (cursor.before tail).assignment := by
  have here := cursor.readsLine_expression Token.stops_nil 0 line
  have leaves (tail : List Token) (stops : Token.Stops tail) :
      (cursor.before tail).assignment.value = none ∧
        (cursor.before tail).assignment.cursor.rest
          = Token.resume ((cursor.expression 0).cursor.before tail).advance.rest := by
    have same := cursor.readsLine_expression stops 0 line
    rw [assignment]
    simp only [same.value, missing, same.cursor]
    exact ⟨trivial, rest_synchronize _⟩
  cases left : (cursor.expression 0).cursor.rest with
  | nil =>
    refine ⟨none, _, .lost (here.broken missing left some_left), fun tail stops => ?_⟩
    have advanced : ((cursor.expression 0).cursor.before tail).advance.rest = tail.tail := by
      rw [before, left, List.nil_append]
      cases tail <;> rfl
    rw [← advanced]
    exact leaves tail stops
  | cons next others =>
    have suffix : others <:+ cursor.rest :=
      (List.suffix_cons next others).trans (left ▸ here.within)
    refine leavesAs_resume line suffix fun tail stops => ?_
    have advanced : ((cursor.expression 0).cursor.before tail).advance.rest = others ++ tail := by
      rw [before, left]
      rfl
    rw [← advanced]
    exact leaves tail stops

/-- Behind a sign of assignment, the value of a name ends in its line or is left behind, and any
other target is. -/
theorem leavesAs_assigned {expr : Expr} (value : (cursor.expression 0).value = some expr)
    {sign : Token} {others : List Token}
    (left : (cursor.expression 0).cursor.rest = sign :: others) (assigns : sign.kind = .assign) :
    LeavesAs cursor.rest fun tail => (cursor.before tail).assignment := by
  have here := cursor.readsLine_expression Token.stops_nil 0 line
  have suffix : others <:+ cursor.rest :=
    (List.suffix_cons sign others).trans (left ▸ here.within)
  have cut (tail : List Token) : (cursor.expression 0).cursor.before tail
      = ⟨sign :: (others ++ tail), (cursor.expression 0).cursor.last⟩ := by
    rw [before, left]
    rfl
  have is_assign (tail : List Token) :
      ((cursor.expression 0).cursor.before tail).kind = .assign := by
    rw [cut]
    exact assigns
  by_cases named : ∃ span name, expr = .name span name
  · obtain ⟨span, name, rfl⟩ := named
    obtain ⟨stmt, reach, leaves, reads⟩ :=
      @leavesAs_valued (.assign · name ·) cursor.peek.span.start
        (assignedValue cursor.peek.span.start name) ⟨others, sign.span.stop⟩
        (line.of_suffix suffix) fun _ => rfl
    refine ⟨stmt, reach, leaves.of_suffix suffix, fun tail stops => ?_⟩
    have same := cursor.readsLine_expression stops 0 line
    dsimp only
    rw [assignment]
    simp only [same.value, value, same.cursor, if_pos (is_assign tail), peek_before some_left]
    rw [cut, advance_cons]
    exact reads tail stops
  · refine leavesAs_resume line suffix fun tail stops => ?_
    have same := cursor.readsLine_expression stops 0 line
    rw [assignment]
    simp only [same.value, value, same.cursor, if_pos (is_assign tail)]
    rw [cut, advance_cons]
    cases expr
    case name span name => exact absurd ⟨span, name, rfl⟩ named
    all_goals exact ⟨rfl, rest_synchronize _⟩

/-- An assignment, or whatever stands in its place, ends in its line or is left behind. -/
theorem leavesAs_assignment : LeavesAs cursor.rest fun tail => (cursor.before tail).assignment := by
  cases value : (cursor.expression 0).value with
  | none => exact leavesAs_missingTarget line some_left value
  | some expr =>
    cases left : (cursor.expression 0).cursor.rest with
    | nil =>
      -- At the end of the line stands what stops it, and no sign.
      refine leavesAs_notAssigned line value fun tail stops same => ?_
      have kind : ((cursor.expression 0).cursor.before tail).kind = Token.headKind tail := by
        rw [before, left, List.nil_append]
        rfl
      rw [kind] at same
      rcases stops with newline | final
      · exact absurd (newline.symm.trans same) (by decide)
      · exact absurd (final.symm.trans same) (by decide)
    | cons sign others =>
      by_cases assigns : sign.kind = .assign
      · exact leavesAs_assigned line some_left value left assigns
      · refine leavesAs_notAssigned line value fun tail _ => ?_
        rw [before, left]
        exact assigns

end Assignments

/-- Behind a statement that starts in a line, reading goes on in the line, behind the line break, or
behind the next one. -/
theorem leavesAs_statement {token : Token} {rest : List Token}
    (line : Token.IsLine (token :: rest)) (last : Position) :
    LeavesAs (token :: rest) fun tail => statement ⟨token :: (rest ++ tail), last⟩ := by
  have later : rest <:+ token :: rest := List.suffix_cons token rest
  have inline := line.inline token List.mem_cons_self
  by_cases console : token.kind = .consoleWord
  · obtain ⟨stmt, reach, leaves, reads⟩ :=
      @leavesAs_valued .console token.span.start (consoleStatement token) ⟨rest, token.span.stop⟩
        (line.of_suffix later) fun _ => rfl
    refine ⟨stmt, reach, leaves.of_suffix later, fun tail stops => ?_⟩
    dsimp only
    rw [statement_cons, console]
    exact reads tail stops
  · have assigns (tail : List Token) : statement ⟨token :: (rest ++ tail), last⟩
        = (Cursor.before tail ⟨token :: rest, last⟩).assignment := by
      rw [statement_cons]
      cases kind : token.kind
      case consoleWord => exact absurd kind console
      case ifWord | whileWord | leftBrace => exact absurd (kind ▸ inline) (by decide)
      all_goals rfl
    simp only [assigns]
    exact @leavesAs_assignment ⟨token :: rest, last⟩ line (List.cons_ne_nil token rest)

/-! ## Reading goes on -/

/-- Where the token before a statement ended makes no difference to it. -/
theorem statement_eq_of_last (token : Token) (rest : List Token) (last other : Position) :
    statement ⟨token :: rest, last⟩ = statement ⟨token :: rest, other⟩ := by
  have assignments : assignment ⟨token :: rest, last⟩ = assignment ⟨token :: rest, other⟩ := by
    -- A target that consumes nothing is stepped over, so its place is forgotten as well.
    simp only [assignment, expression_eq, operand_cons]
    cases token.kind <;> rfl
  rw [statement_cons, statement_cons]
  cases token.kind
  case ifWord | whileWord | consoleWord | leftBrace => rfl
  all_goals exact assignments

/-- Nor to a run of statements. -/
theorem statements_eq_of_rest {first second : Cursor} (same : first.rest = second.rest) :
    (first.statements false).value = (second.statements false).value ∧
      (first.statements false).cursor.rest = (second.statements false).cursor.rest ∧
      (first.statements false).findings = (second.statements false).findings := by
  obtain ⟨tokens, last⟩ := first
  obtain ⟨others, other⟩ := second
  obtain rfl : tokens = others := same
  cases tokens with
  | nil =>
    rw [statements_nil, statements_nil]
    exact ⟨rfl, rfl, rfl⟩
  | cons token rest =>
    rw [statements_cons, statements_cons, statement_eq_of_last token rest last other]
    split
    · exact ⟨rfl, rfl, rfl⟩
    · exact ⟨rfl, rfl, rfl⟩

/-- Which separators are skipped depends on the tokens alone. -/
theorem rest_skipSeparators (cursor : Cursor) :
    cursor.skipSeparators.rest = cursor.rest.dropWhile fun token => isSeparator token.kind := by
  obtain ⟨tokens, last⟩ := cursor
  rw [skipSeparators, skipWhile]
  induction tokens generalizing last with
  | nil => rfl
  | cons token rest ih =>
    by_cases separator : isSeparator token.kind = true
    · rw [skipWhile.go, if_pos separator]
      exact (ih token.span.stop).trans (by simp [separator])
    · rw [skipWhile.go, if_neg separator]
      simp [separator]

end Cursor

namespace Parsing

/-- The tokens that are left when the statements of a list have been read: the end of input, unless
it was lost. -/
def leftover (tokens : List Token) : List Token :=
  ((Cursor.ofTokens tokens).skipSeparators.statements false).cursor.rest

/-- Reading a list starts behind its separators, wherever that is. -/
theorem read_of_rest {tokens : List Token} {cursor : Cursor}
    (behind : cursor.rest = tokens.dropWhile fun token => Cursor.isSeparator token.kind) :
    (cursor.statements false).value = (read tokens).program.stmts ∧
      (cursor.statements false).cursor.rest = leftover tokens ∧
      (cursor.statements false).findings = (read tokens).findings := by
  refine Cursor.statements_eq_of_rest ?_
  rw [behind, Cursor.rest_skipSeparators]
  rfl

/-- Nothing is read before an end of input, nor if there is none. -/
theorem read_ending {tokens : List Token} (ends : Token.headKind tokens = .endOfInput) :
    (read tokens).program.stmts = [] ∧ leftover tokens = tokens ∧ (read tokens).findings = [] := by
  cases tokens with
  | nil =>
    obtain ⟨stmts, left, findings⟩ := @read_of_rest [] ⟨[], .unset⟩ rfl
    rw [Cursor.statements_nil] at stmts left findings
    exact ⟨stmts.symm, left.symm, findings.symm⟩
  | cons token rest =>
    rw [Token.headKind_cons] at ends
    have visible : Cursor.isSeparator token.kind = false := by
      rw [ends]
      rfl
    obtain ⟨stmts, left, findings⟩ :=
      @read_of_rest (token :: rest) ⟨token :: rest, .unset⟩ (by simp [visible])
    rw [Cursor.statements_cons, if_pos (.inl ends)] at stmts left findings
    exact ⟨stmts.symm, left.symm, findings.symm⟩

/-- Separators are skipped. -/
theorem read_separator {token : Token} (separates : Cursor.isSeparator token.kind = true)
    (rest : List Token) :
    (read (token :: rest)).program.stmts = (read rest).program.stmts ∧
      (read (token :: rest)).findings = (read rest).findings := by
  let behind : Cursor := ⟨rest.dropWhile fun token => Cursor.isSeparator token.kind, .unset⟩
  obtain ⟨stmts, -, findings⟩ := @read_of_rest rest behind rfl
  obtain ⟨stmts', -, findings'⟩ :=
    @read_of_rest (token :: rest) behind (by simp [behind, separates])
  exact ⟨stmts'.symm.trans stmts, findings'.symm.trans findings⟩

/-- Any other token starts a statement, and reading goes on behind it. -/
theorem read_statement {token : Token} (visible : Cursor.isSeparator token.kind = false)
    (goes_on : token.kind ≠ .endOfInput) (rest : List Token) (last : Position) :
    let stmt := Cursor.statement ⟨token :: rest, last⟩
    (read (token :: rest)).program.stmts
        = stmt.value.toList ++ (read stmt.cursor.rest).program.stmts ∧
      leftover (token :: rest) = leftover stmt.cursor.rest := by
  intro stmt
  obtain ⟨stmts, left, -⟩ :=
    @read_of_rest (token :: rest) ⟨token :: rest, last⟩ (by simp [visible])
  obtain ⟨later, left', -⟩ := @read_of_rest stmt.cursor.rest stmt.cursor.skipSeparators
    (Cursor.rest_skipSeparators _)
  rw [Cursor.statements_cons, if_neg (by simp [goes_on])] at stmts left
  constructor
  · rw [← stmts, ← later]
  · rw [← left, ← left']

end Parsing

/-- An error in a line is confined to it, or the line break behind it is lost. -/
theorem Token.IsLine.read_before {line : List Token} (is_line : IsLine line) {stop final : Token}
    (newline : stop.kind = .newline) (ends : final.kind = .endOfInput) (later : List Token) :
    (Parsing.leftover (line ++ [final]) = [final] ∧
      (Parsing.read (line ++ stop :: later)).program.stmts
        = (Parsing.read (line ++ [final])).program.stmts ++ (Parsing.read later).program.stmts) ∨
    (Parsing.leftover (line ++ [final]) = [] ∧ EndsIn .bang line ∧
      (Parsing.read (line ++ stop :: later)).program.stmts
        = (Parsing.read (line ++ [final])).program.stmts
          ++ (Parsing.read (resume later)).program.stmts) := by
  have separates : Cursor.isSeparator stop.kind = true := by
    rw [newline]
    rfl
  obtain ⟨no_stmts, kept, -⟩ := @Parsing.read_ending [final] ends
  -- By the length of what is left of the line, which every statement makes shorter.
  induction length : line.length using Nat.strongRecOn generalizing line with
  | ind size ih =>
    cases line with
    | nil =>
      rw [List.nil_append, List.nil_append, no_stmts, (Parsing.read_separator separates later).1]
      exact .inl ⟨kept, rfl⟩
    | cons token rest =>
      have inline := is_line.inline token List.mem_cons_self
      have visible := TokenKind.isSeparator_of_isInline inline
      have goes_on : token.kind ≠ .endOfInput := by
        intro final_kind
        exact absurd (final_kind ▸ inline) (by decide)
      obtain ⟨value, reach, leaves, reads⟩ := Cursor.leavesAs_statement is_line .unset
      obtain ⟨long_value, long_rest⟩ := reads (stop :: later) (.inl newline)
      obtain ⟨short_value, short_rest⟩ := reads [final] (.inr ends)
      dsimp only at long_value long_rest short_value short_rest
      obtain ⟨long, -⟩ := Parsing.read_statement visible goes_on (rest ++ stop :: later) .unset
      obtain ⟨short, left⟩ := Parsing.read_statement visible goes_on (rest ++ [final]) .unset
      rw [List.cons_append, List.cons_append, long, short, left, long_value, long_rest, short_value,
        short_rest]
      cases leaves with
      | @inside behind suffix =>
        -- What is left of the line is shorter, and a line itself.
        have consumed := (Cursor.consumes_statement ⟨token :: (rest ++ [final]), .unset⟩).2
          (Nat.succ_pos _)
        have shorter : behind.length < (token :: rest).length := by
          rw [Cursor.size, short_rest, Cursor.size] at consumed
          simpa using consumed
        rcases ih behind.length (length ▸ shorter) (is_line.of_suffix suffix) rfl with
          ⟨still, same⟩ | ⟨gone, broken, same⟩
        · exact .inl ⟨still, by rw [same, List.append_assoc]⟩
        · exact .inr ⟨gone, broken.of_suffix suffix, by rw [same, List.append_assoc]⟩
      | next =>
        -- The line break was left behind with the error; at the end there is none.
        have next_line : resume (stop :: later) = later := by rw [resume, if_pos separates]
        have at_end : resume [final] = [final] := by
          rw [resume, ends]
          rfl
        rw [next_line, at_end, no_stmts, List.append_nil]
        exact .inl ⟨kept, rfl⟩
      | lost broken =>
        -- The line break was stepped over, and so is the end of input if it stands there.
        obtain ⟨nothing, none_left, -⟩ := @Parsing.read_ending [] rfl
        dsimp only [List.tail_cons, resume]
        rw [nothing, none_left, List.append_nil]
        exact .inr ⟨rfl, broken, rfl⟩

/-- **Errors stay in their line, unless the line break is lost.** Take any tokens on one line, not
ending with a binary operator, a line break and any tokens behind it. If the line alone leaves the
end of input in place, its statements and those behind it are read as if each stood alone. Else the
line ends with a negation without operand, and what is behind it is read from where an error in its
first statement would be left behind. -/
theorem errors_stay_in_line {line : List Token} (is_line : Token.IsLine line) {stop final : Token}
    (newline : stop.kind = .newline) (ends : final.kind = .endOfInput) (later : List Token) :
    let whole := (Parsing.read (line ++ stop :: later)).program.stmts
    let alone := (Parsing.read (line ++ [final])).program.stmts
    (Parsing.leftover (line ++ [final]) ≠ [] →
      whole = alone ++ (Parsing.read later).program.stmts) ∧
    (Parsing.leftover (line ++ [final]) = [] →
      Token.EndsIn .bang line ∧
        whole = alone
          ++ (Parsing.read (Cursor.ofTokens later).synchronize.rest).program.stmts) := by
  intro whole alone
  rw [Cursor.rest_synchronize]
  rcases is_line.read_before newline ends later with ⟨kept, same⟩ | ⟨gone, broken, same⟩
  · refine ⟨fun _ => same, fun gone => ?_⟩
    rw [kept] at gone
    cases gone
  · exact ⟨fun kept => absurd gone kept, fun _ => ⟨broken, same⟩⟩

/-- The tokens of an assignment, up to the end of input. -/
def sampleAssignment : List Token :=
  [.unplaced .name [0x78], .unplaced .assign [0x3d], .unplaced .nilWord (Bytes.utf8 "nil"),
    .unplaced .endOfInput []]

/-- The assignment is read. -/
theorem read_sampleAssignment :
    (Parsing.read sampleAssignment).program.stmts = [.assign .unset [0x78] (.nil .unset)] := by
  simp [sampleAssignment, Token.unplaced, Parsing.read, Cursor.ofTokens, Cursor.skipSeparators,
    Cursor.skipWhile, Cursor.skipWhile.go, Cursor.isSeparator, Cursor.statements_cons,
    Cursor.statement_cons, Cursor.assignment, Cursor.assignedValue, Cursor.requiredExpression,
    Parsed.required, Cursor.expression_eq, Cursor.operand_cons, Cursor.continuation_cons,
    TokenKind.strength, Cursor.spanFrom, Cursor.peek, Cursor.kind]

/-- Without a binary operator, tokens that may stand inside a line are one. -/
theorem Token.isLine_of_strength {line : List Token}
    (inline : ∀ token ∈ line, token.kind.isInline = true)
    (weak : ∀ token ∈ line, token.kind.strength = 0) : IsLine line := by
  refine ⟨inline, ?_⟩
  rintro front token rfl
  exact weak token (List.mem_append_right front List.mem_cons_self)

/-- An assignment without a value, on a line that does not end with a negation, hides nothing. -/
theorem errors_stay_in_line_assignment :
    let line : List Token := [.unplaced .name [0x79], .unplaced .assign [0x3d]]
    let newline : Token := .unplaced .newline Token.newlineLexeme
    Token.IsLine line ∧
      (Parsing.read (line ++ newline :: sampleAssignment)).program.stmts
        = (Parsing.read (line ++ [.unplaced .endOfInput []])).program.stmts
          ++ [.assign .unset [0x78] (.nil .unset)] := by
  intro line newline
  have is_line : Token.IsLine line := Token.isLine_of_strength (by decide) (by decide)
  obtain ⟨confined, lost⟩ :=
    @errors_stay_in_line line is_line newline (.unplaced .endOfInput []) rfl rfl sampleAssignment
  refine ⟨is_line, ?_⟩
  rw [← read_sampleAssignment]
  refine confined fun gone => ?_
  obtain ⟨⟨front, token, same, negation⟩, -⟩ := lost gone
  have member : token ∈ line := by
    rw [same]
    exact List.mem_append_right front List.mem_cons_self
  have no_negation : ∀ token ∈ line, token.kind ≠ .bang := by decide
  exact no_negation token member negation

/-- A negation without operand hides the line behind it: nothing is read, although the line alone
holds no statement and the next one does. -/
theorem errors_stay_in_line_negation :
    let line : List Token := [.unplaced .bang [0x21]]
    let newline : Token := .unplaced .newline Token.newlineLexeme
    Token.IsLine line ∧
      (Parsing.read sampleAssignment).program.stmts = [.assign .unset [0x78] (.nil .unset)] ∧
      (Parsing.read (line ++ newline :: sampleAssignment)).program.stmts = [] := by
  intro line newline
  refine ⟨Token.isLine_of_strength (by decide) (by decide), read_sampleAssignment, ?_⟩
  simp [line, newline, sampleAssignment, Token.unplaced, Parsing.read, Cursor.ofTokens,
    Cursor.skipSeparators, Cursor.skipWhile, Cursor.skipWhile.go, Cursor.isSeparator,
    Cursor.statements_cons, Cursor.statement_cons, Cursor.assignment, Cursor.expression_eq,
    Cursor.operand_cons, Cursor.synchronize, Cursor.isRestart, Cursor.peek, Cursor.kind]

end ConsoleScript
