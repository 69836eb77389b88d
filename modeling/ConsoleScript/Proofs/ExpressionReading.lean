import ConsoleScript.Proofs.ExpressionGrammar

/-! # Reading expressions is exact

The reader `Cursor.expression` accepts exactly the grammar of expressions. Its floor selects a
stratum: `Stratum.above floor` is the weakest stratum whose operators are stronger than the floor.

* **`Spells.reads`** — a spelling is read as its tree, whatever stands behind it, as long as no
  operator follows that would take the tree as its operand;
* **`Cursor.readsSpelling`** — what is read without an error is spelled by the tokens that were
  consumed. -/

namespace ConsoleScript

/-! ## Floors and strata -/

namespace Stratum

/-- The weakest stratum whose operators are stronger than a floor. -/
def above (floor : Nat) : Stratum :=
  if floor < 10 then either
  else if floor < 20 then both
  else if floor < 30 then equality
  else if floor < 40 then comparison
  else if floor < 50 then additive
  else if floor < 60 then multiplicative
  else unary

/-- How strong an operator may be that takes a whole tree of a stratum as its left operand. -/
def reach : Stratum → Nat
  | primary => 80
  | power | unary => 70
  | chain => chain.strength

/-- Every stratum stronger than a floor is at least as strong as the stratum above that floor. -/
theorem strength_above_le {floor : Nat} {stratum : Stratum} (lt : floor < stratum.strength) :
    (above floor).strength ≤ stratum.strength := by
  unfold above
  cases stratum <;> simp only [strength] at lt ⊢ <;> grind [strength]

/-- A chain at least as strong as the stratum above a floor is stronger than the floor. -/
theorem lt_of_strength_above_le {floor : Nat} {stratum : Stratum} (chain : stratum.strength ≤ 60)
    (le : (above floor).strength ≤ stratum.strength) : floor < stratum.strength := by
  unfold above at le
  cases stratum <;> simp only [strength] at chain le ⊢ <;> grind [strength]

/-- No floor excludes the unary operators. -/
theorem strength_above_le_unary (floor : Nat) : (above floor).strength ≤ unary.strength := by
  unfold above
  grind [strength]

/-- Above the strength of a chain stands the next stratum. -/
theorem above_strength {stratum : Stratum} (chain : stratum.strength ≤ 60) :
    above stratum.strength = stratum.next := by
  cases stratum <;> simp [strength] at chain <;> rfl

/-- The stronger a stratum, the stronger the operators that may take its trees. -/
theorem reach_le {weak strong : Stratum} (le : weak.strength ≤ strong.strength) :
    weak.reach ≤ strong.reach := by
  cases weak <;> cases strong <;> simp [strength, reach] at le ⊢

theorem reach_of_chain {stratum : Stratum} (chain : stratum.strength ≤ 60) :
    stratum.reach = stratum.strength := by
  cases stratum <;> simp [strength] at chain <;> rfl

theorem strength_le_reach_next {stratum : Stratum} (chain : stratum.strength ≤ 60) :
    stratum.strength ≤ stratum.next.reach := by
  cases stratum <;> simp [strength] at chain <;> decide

/-- A stratum whose operators may take a tree of another is not stronger than that one. -/
theorem strength_le_of_le_reach {stratum other : Stratum} (chain : stratum.strength ≤ 60)
    (le : stratum.strength ≤ other.reach) : stratum.strength ≤ other.strength := by
  cases stratum <;> cases other <;> simp [strength, reach] at chain le ⊢

/-- Only a primary may be the base of a power. -/
theorem eq_primary_of_reach {stratum : Stratum} (le : 80 ≤ stratum.reach) : stratum = primary := by
  cases stratum <;> simp [strength, reach] at le ⊢

end Stratum

namespace TokenKind

/-- No operator stands between the unary operators and power. -/
theorem strength_le_seventy {kind : TokenKind} (le : kind.strength ≤ 79) : kind.strength ≤ 70 := by
  cases kind <;> simp [strength] at le ⊢

/-- A binary operator is a power or belongs to a chain. -/
theorem eq_caret_or_mem {kind : TokenKind} (strong : 0 < kind.strength) :
    kind = caret ∨ ∃ stratum : Stratum, BinaryOperator.ofKind kind ∈ stratum.operators := by
  cases kind <;> simp [strength] at strong
  case caret => exact .inl rfl
  case either => exact .inr ⟨.either, by simp [BinaryOperator.ofKind, Stratum.operators]⟩
  case both => exact .inr ⟨.both, by simp [BinaryOperator.ofKind, Stratum.operators]⟩
  case equal | notEqual =>
    exact .inr ⟨.equality, by simp [BinaryOperator.ofKind, Stratum.operators]⟩
  case less | lessEqual | greater | greaterEqual =>
    exact .inr ⟨.comparison, by simp [BinaryOperator.ofKind, Stratum.operators]⟩
  case plus | minus => exact .inr ⟨.additive, by simp [BinaryOperator.ofKind, Stratum.operators]⟩
  case star | slash | percent =>
    exact .inr ⟨.multiplicative, by simp [BinaryOperator.ofKind, Stratum.operators]⟩

/-- The right operand of an operator of a chain is read from the next stratum. -/
theorem rightFloor_of_mem {kind : TokenKind} {stratum : Stratum}
    (member : BinaryOperator.ofKind kind ∈ stratum.operators) :
    kind.rightFloor = stratum.strength := by
  have same := Stratum.strength_of_mem member
  have chain := Stratum.strength_le_of_mem member
  rw [rightFloor, if_neg, same]
  rintro rfl
  rw [← same] at chain
  simp [strength] at chain

end TokenKind

/-! ## Passing over tokens -/

namespace Token

/-- The kind of the first token of a list, behind the last one the end of input. -/
def headKind (tokens : List Token) : TokenKind :=
  (tokens.head?.getD pastEnd).kind

/-- The strength of the first token of a list, zero if there is none. -/
def headStrength (tokens : List Token) : Nat :=
  (headKind tokens).strength

@[simp] theorem headKind_cons (token : Token) (rest : List Token) :
    headKind (token :: rest) = token.kind := rfl

@[simp] theorem headStrength_cons (token : Token) (rest : List Token) :
    headStrength (token :: rest) = token.kind.strength := rfl

/-- A kind other than the end of input is that of a token. -/
theorem cons_of_headKind {tokens : List Token} {kind : TokenKind} (same : headKind tokens = kind)
    (proper : kind ≠ .endOfInput) : ∃ token rest, tokens = token :: rest ∧ token.kind = kind := by
  cases tokens with
  | nil => exact absurd same.symm proper
  | cons token rest => exact ⟨token, rest, rfl, same⟩

/-- Neither a line break nor a token without strength continues an expression. -/
theorem headStrength_append {gap : List Token} (layout : AllNewlines gap) {rest : List Token}
    (weak : headStrength rest = 0) : headStrength (gap ++ rest) = 0 := by
  cases gap with
  | nil => exact weak
  | cons token gap =>
    rw [List.cons_append, headStrength_cons, layout token List.mem_cons_self]
    rfl

end Token

namespace Cursor

/-- Skipping consumes tokens that are to be skipped, and stops before one that is not. -/
theorem skipWhile_spec (skips : TokenKind → Bool) (cursor : Cursor) :
    ∃ skipped, (∀ token ∈ skipped, skips token.kind = true) ∧
      cursor.rest = skipped ++ (cursor.skipWhile skips).rest ∧
      ∀ token rest, (cursor.skipWhile skips).rest = token :: rest → skips token.kind = false := by
  obtain ⟨tokens, last⟩ := cursor
  show ∃ skipped, _ ∧ tokens = skipped ++ (skipWhile.go skips tokens last).rest ∧ _
  rw [skipWhile]
  induction tokens generalizing last with
  | nil => exact ⟨[], by simp, by simp [skipWhile.go], by simp [skipWhile.go]⟩
  | cons token rest ih =>
    by_cases skip : skips token.kind = true
    · obtain ⟨skipped, passed, parts, stops⟩ := ih token.span.stop
      simp only [skipWhile.go, if_pos skip]
      refine ⟨token :: skipped, ?_, by rw [List.cons_append, ← parts], stops⟩
      simpa [skip] using passed
    · simp only [skipWhile.go, if_neg skip]
      refine ⟨[], by simp, rfl, fun other others same => ?_⟩
      obtain ⟨rfl, rfl⟩ := List.cons.inj same
      simpa using skip

/-- Skipping goes exactly behind tokens that are to be skipped, if the next one is not. -/
theorem skipWhile_append {skips : TokenKind → Bool} {gap rest : List Token}
    (passed : ∀ token ∈ gap, skips token.kind = true)
    (stops : ∀ token others, rest = token :: others → skips token.kind = false) (last : Position) :
    ∃ reached, (Cursor.mk (gap ++ rest) last).skipWhile skips = ⟨rest, reached⟩ := by
  unfold skipWhile
  induction gap generalizing last with
  | nil =>
    refine ⟨last, ?_⟩
    cases rest with
    | nil => rfl
    | cons token others => simp [skipWhile.go, stops token others rfl]
  | cons token gap ih =>
    obtain ⟨reached, same⟩ := ih (fun other member => passed other (List.mem_cons_of_mem _ member))
      token.span.stop
    refine ⟨reached, ?_⟩
    simpa [skipWhile.go, passed token List.mem_cons_self] using same

/-- Skipping line breaks consumes line breaks only, and all of them. -/
theorem skipNewlines_spec (cursor : Cursor) :
    ∃ gap, Token.AllNewlines gap ∧ cursor.rest = gap ++ cursor.skipNewlines.rest ∧
      Token.headKind cursor.skipNewlines.rest ≠ .newline := by
  obtain ⟨gap, passed, parts, stops⟩ := cursor.skipWhile_spec (· == .newline)
  refine ⟨gap, fun token member => beq_iff_eq.1 (passed token member), parts, ?_⟩
  show Token.headKind (cursor.skipWhile (· == .newline)).rest ≠ .newline
  cases ahead : (cursor.skipWhile (· == .newline)).rest with
  | nil => decide
  | cons token rest => simpa using stops token rest ahead

/-- Skipping line breaks goes exactly behind them, if another token follows. -/
theorem skipNewlines_append {gap : List Token} (layout : Token.AllNewlines gap) {token : Token}
    (visible : token.kind ≠ .newline) (rest : List Token) (last : Position) :
    ∃ reached, (Cursor.mk (gap ++ token :: rest) last).skipNewlines = ⟨token :: rest, reached⟩ := by
  have passed : ∀ other ∈ gap, (other.kind == .newline) = true :=
    fun other member => beq_iff_eq.2 (layout other member)
  refine skipWhile_append passed ?_ last
  intro other others same
  obtain ⟨rfl, -⟩ := List.cons.inj same
  simpa using visible

/-- A tree is not continued before a token that is not stronger than the floor. -/
theorem continuation_stop {floor : Nat} (left : Expr) {rest : List Token}
    (weak : Token.headStrength rest ≤ floor) (last : Position) :
    continuation floor left ⟨rest, last⟩ = ⟨some left, ⟨rest, last⟩, []⟩ := by
  cases rest with
  | nil => exact continuation_nil floor left last
  | cons token rest =>
    rw [Token.headStrength_cons] at weak
    rw [continuation_cons, if_pos weak]

/-- An expression that is read is not reported as missing. -/
theorem requiredExpression_of_expression {cursor behind : Cursor} {expr : Expr}
    {findings : List Finding} (reads : cursor.expression 0 = ⟨some expr, behind, findings⟩) :
    cursor.requiredExpression = ⟨some expr, behind, findings⟩ := by
  rw [requiredExpression, reads, Parsed.required]

/-- A token of the wanted kind is stepped over. -/
theorem expect_cons {wanted : TokenKind} {token : Token} (same : token.kind = wanted)
    (rest : List Token) (last : Position) :
    (Cursor.mk (token :: rest) last).expect wanted = ⟨(), ⟨rest, token.span.stop⟩, []⟩ := by
  rw [expect, if_pos (show (Cursor.mk (token :: rest) last).kind = wanted from same), advance_cons]

/-- A tree is continued by a stronger operator and the tree that is read behind it. -/
theorem continuation_join {floor : Nat} (left right : Expr) {sign : Token}
    {gap back rest : List Token} (strong : floor < sign.kind.strength)
    (layout : Token.AllNewlines gap)
    (visible : ∃ token others, back = token :: others ∧ token.kind ≠ .newline)
    (reads : ∀ last, (Cursor.mk (back ++ rest) last).expression sign.kind.rightFloor
      = ⟨some right, ⟨rest, right.span.stop⟩, []⟩) (last : Position) :
    continuation floor left ⟨sign :: (gap ++ back) ++ rest, last⟩
      = continuation floor
        (.binary ⟨left.span.start, right.span.stop⟩ (.ofKind sign.kind) left right)
        ⟨rest, right.span.stop⟩ := by
  obtain ⟨token, others, rfl, shown⟩ := visible
  obtain ⟨reached, skips⟩ := skipNewlines_append layout shown (others ++ rest) sign.span.stop
  simp only [List.cons_append, List.append_assoc] at reads ⊢
  rw [continuation_cons, if_neg (Nat.not_le.2 strong)]
  simp only [skips, reads, List.nil_append]

end Cursor

/-! ## Spellings are read -/

namespace Spells

/-- Tokens are read as a tree, which is then continued with what stands behind them, as long as that
does not start with an operator that takes less than the whole tree. The rest is general, so that
the left operand of a chain is read with the chain behind it. -/
def Reads (stratum : Stratum) (tokens : List Token) (expr : Expr) : Prop :=
  ∀ ⦃floor : Nat⦄, floor < 80 → (Stratum.above floor).strength ≤ stratum.strength →
    ∀ ⦃rest : List Token⦄, Token.headStrength rest ≤ stratum.reach → ∀ last,
      (Cursor.mk (tokens ++ rest) last).expression floor
        = Cursor.continuation floor expr ⟨rest, expr.span.stop⟩

/-- Inside parentheses everything is read up to the closing one, which no operator is. -/
theorem reads_paren {opening closing : Token} {before inside behind : List Token} {expr : Expr}
    (opens : opening.kind = .leftParen) (closes : closing.kind = .rightParen)
    (layout : Token.AllNewlines before) (below : Token.AllNewlines behind)
    (spelled : Spells .either inside expr) (inner : Reads .either inside expr) :
    Reads .primary (opening :: (before ++ (inside ++ (behind ++ [closing]))))
      (.paren ⟨opening.span.start, closing.span.stop⟩ expr) := by
  intro floor low above rest follow last
  have weak : Token.headStrength (behind ++ closing :: rest) = 0 :=
    Token.headStrength_append below (by rw [Token.headStrength_cons, closes]; rfl)
  have reads (last : Position) :
      (Cursor.mk (inside ++ (behind ++ closing :: rest)) last).requiredExpression
        = ⟨some expr, ⟨behind ++ closing :: rest, expr.span.stop⟩, []⟩ := by
    apply Cursor.requiredExpression_of_expression
    rw [inner (by omega) (Nat.le_refl _) (by rw [weak]; exact Nat.zero_le _) last]
    exact Cursor.continuation_stop expr (Nat.le_of_eq weak) _
  obtain ⟨token, others, rfl, visible⟩ := spelled.head
  obtain ⟨start, skips⟩ := Cursor.skipNewlines_append layout visible
    (others ++ (behind ++ closing :: rest)) opening.span.stop
  have closing_visible : closing.kind ≠ .newline := by simp [closes]
  obtain ⟨stop, closing_skips⟩ := Cursor.skipNewlines_append below closing_visible rest
    expr.span.stop
  rw [Cursor.expression_eq]
  simp only [List.cons_append, List.append_assoc, List.nil_append] at reads ⊢
  simp only [Cursor.operand_cons, opens, skips, reads, closing_skips,
    Cursor.expect_cons closes, List.nil_append]
  rfl

/-- The exponent of a power is read down to the unary operators, so another power belongs to it. -/
theorem reads_power {sign : Token} {front gap back : List Token} {base exponent : Expr}
    (kind : sign.kind = .caret) (layout : Token.AllNewlines gap)
    (spelled : Spells .unary back exponent) (left : Reads .primary front base)
    (right : Reads .unary back exponent) :
    Reads .power (front ++ sign :: (gap ++ back))
      (.binary ⟨base.span.start, exponent.span.stop⟩ .power base exponent) := by
  intro floor low above rest follow last
  have strong : floor < sign.kind.strength := by rw [kind]; exact low
  have reads (last : Position) :
      (Cursor.mk (back ++ rest) last).expression sign.kind.rightFloor
        = ⟨some exponent, ⟨rest, exponent.span.stop⟩, []⟩ := by
    rw [kind]
    rw [right (by decide) (Nat.le_refl _) follow last]
    exact Cursor.continuation_stop exponent (Nat.le_trans follow (by decide)) _
  rw [List.append_assoc, left low (Nat.le_trans above (by decide))
    (by rw [List.cons_append, Token.headStrength_cons, kind]; decide) last,
    Cursor.continuation_join base exponent strong layout spelled.head reads]
  rw [kind]
  rfl

/-- The operand of a unary operator is read down to the unary operators. -/
theorem reads_unary {sign : Token} {tokens : List Token} {expr : Expr}
    (kind : sign.kind = .minus ∨ sign.kind = .bang) (operand : Reads .unary tokens expr) :
    Reads .unary (sign :: tokens)
      (.unary ⟨sign.span.start, expr.span.stop⟩ (.ofKind sign.kind) expr) := by
  intro floor low above rest follow last
  have reads : (Cursor.mk (tokens ++ rest) sign.span.stop).expression TokenKind.unaryStrength
      = ⟨some expr, ⟨rest, expr.span.stop⟩, []⟩ := by
    rw [operand (by decide) (Nat.le_refl _) follow sign.span.stop]
    exact Cursor.continuation_stop expr follow _
  rw [Cursor.expression_eq, List.cons_append, Cursor.operand_cons]
  rcases kind with kind | kind <;>
    · simp only [kind, reads, List.nil_append]
      rfl

/-- The right operand of a chain is read above the strength of the chain, so it stops before the
next operator of the chain. -/
theorem reads_chain {stratum : Stratum} {sign : Token} {front gap back : List Token}
    {left right : Expr} (member : BinaryOperator.ofKind sign.kind ∈ stratum.operators)
    (layout : Token.AllNewlines gap) (spelled : Spells stratum.next back right)
    (first : Reads stratum front left) (second : Reads stratum.next back right) :
    Reads stratum (front ++ sign :: (gap ++ back))
      (.binary ⟨left.span.start, right.span.stop⟩ (.ofKind sign.kind) left right) := by
  intro floor low above rest follow last
  have chain := Stratum.strength_le_of_mem member
  have same := Stratum.strength_of_mem member
  have strong : floor < sign.kind.strength := by
    rw [same]
    exact Stratum.lt_of_strength_above_le chain above
  rw [Stratum.reach_of_chain chain] at follow
  have reads (last : Position) :
      (Cursor.mk (back ++ rest) last).expression sign.kind.rightFloor
        = ⟨some right, ⟨rest, right.span.stop⟩, []⟩ := by
    rw [TokenKind.rightFloor_of_mem member]
    have stronger : (Stratum.above stratum.strength).strength ≤ stratum.next.strength :=
      Nat.le_of_eq (by rw [Stratum.above_strength chain])
    have next := Nat.le_trans follow (Stratum.strength_le_reach_next chain)
    rw [second (by omega) stronger next last]
    exact Cursor.continuation_stop right follow _
  have taken : Token.headStrength (sign :: (gap ++ back) ++ rest) ≤ stratum.reach := by
    refine Nat.le_of_eq ?_
    rw [List.cons_append, Token.headStrength_cons, same, Stratum.reach_of_chain chain]
  rw [List.append_assoc, first low above taken last,
    Cursor.continuation_join left right strong layout spelled.head reads]
  rfl

/-- A spelling is read as its tree. -/
theorem reads {stratum : Stratum} {tokens : List Token} {expr : Expr}
    (spelled : Spells stratum tokens expr) : Reads stratum tokens expr := by
  induction spelled with
  | number kind accepted =>
    intro floor low above rest follow last
    rw [Cursor.expression_eq]
    simp [Cursor.operand_cons, kind, accepted, Expr.span]
  | text kind | trueWord kind | falseWord kind | nil kind | name kind =>
    intro floor low above rest follow last
    rw [Cursor.expression_eq]
    simp [Cursor.operand_cons, kind, Expr.span]
  | paren opens closes layout below spelled inner =>
    exact reads_paren opens closes layout below spelled inner
  | power kind layout _ spelled left right => exact reads_power kind layout spelled left right
  | unary kind _ operand => exact reads_unary kind operand
  | chain member layout _ spelled first second =>
    exact reads_chain member layout spelled first second
  | weaken le _ inner =>
    intro floor low above rest follow last
    exact inner low (Nat.le_trans above le) (Nat.le_trans follow (Stratum.reach_le le)) last

/-- A spelling before a token that is no binary operator is read as its tree. -/
theorem expression_eq {tokens : List Token} {expr : Expr} (spelled : Spells .either tokens expr)
    {rest : List Token} (weak : Token.headStrength rest = 0) (last : Position) :
    (Cursor.mk (tokens ++ rest) last).expression 0 = ⟨some expr, ⟨rest, expr.span.stop⟩, []⟩ := by
  rw [spelled.reads (by omega) (Nat.le_refl _) (by rw [weak]; exact Nat.zero_le _) last]
  exact Cursor.continuation_stop expr (Nat.le_of_eq weak) _

end Spells

/-! ## What is read is a spelling -/

namespace Finding

@[simp] theorem anyError_append (first second : List Finding) :
    anyError (first ++ second) = (anyError first || anyError second) :=
  List.any_append

theorem anyError_append_eq_false {first second : List Finding} (clean : anyError first = false)
    (clean' : anyError second = false) : anyError (first ++ second) = false := by
  rw [anyError_append, clean, clean', Bool.or_self]

end Finding

namespace TokenKind

theorem strength_le_eighty (kind : TokenKind) : kind.strength ≤ 80 := by
  cases kind <;> simp [strength]

end TokenKind

namespace Cursor

/-- What is read at a cursor without an error is spelled by the tokens that were consumed, and is
not continued by an operator above the floor. -/
def ReadsSpelling (floor : Nat) (cursor : Cursor) : Prop :=
  ∀ expr, (cursor.expression floor).value = some expr →
    Finding.anyError (cursor.expression floor).findings = false →
    ∃ tokens, cursor.rest = tokens ++ (cursor.expression floor).cursor.rest ∧
      Spells (.above floor) tokens expr ∧
      (cursor.expression floor).cursor.last = expr.span.stop ∧
      Token.headStrength (cursor.expression floor).cursor.rest ≤ floor

/-- A required expression that is there is read like any other. -/
theorem requiredExpression_eq {cursor : Cursor} {expr : Expr}
    (found : cursor.requiredExpression.value = some expr) :
    cursor.requiredExpression = cursor.expression 0 := by
  rw [requiredExpression, Parsed.value_required] at found
  rw [requiredExpression, Parsed.required, found]

/-- A kind at the cursor other than the end of input is that of a token. -/
theorem cons_of_kind {cursor : Cursor} {kind : TokenKind} (same : cursor.kind = kind)
    (proper : kind ≠ .endOfInput) :
    ∃ token rest, cursor.rest = token :: rest ∧ token.kind = kind ∧
      cursor.advance = ⟨rest, token.span.stop⟩ := by
  obtain ⟨tokens, last⟩ := cursor
  obtain ⟨token, rest, rfl, kind⟩ := Token.cons_of_headKind same proper
  exact ⟨token, rest, rfl, kind, rfl⟩

/-- A token that is expected without a complaint stands at the cursor and is stepped over. -/
theorem expect_spec {wanted : TokenKind} (proper : wanted ≠ .endOfInput) {cursor : Cursor}
    (clean : Finding.anyError (cursor.expect wanted).findings = false) :
    ∃ token rest, cursor.rest = token :: rest ∧ token.kind = wanted ∧
      (cursor.expect wanted).cursor = ⟨rest, token.span.stop⟩ := by
  by_cases same : cursor.kind = wanted
  · obtain ⟨token, rest, parts, kind, advanced⟩ := cons_of_kind same proper
    exact ⟨token, rest, parts, kind, by rw [expect, if_pos same, advanced]⟩
  · rw [expect, if_neg same] at clean
    simp [Finding.anyError, Finding.isError, Complaint.severity] at clean

/-- An operand in front of `behind`: a primary, or an operator with an operand behind which no power
follows. -/
def SpellsOperand (tokens : List Token) (expr : Expr) (behind : Cursor) : Prop :=
  ∃ spelling stratum, tokens = spelling ++ behind.rest ∧ Spells stratum spelling expr ∧
    Stratum.unary.strength ≤ stratum.strength ∧ behind.last = expr.span.stop ∧
    Token.headStrength behind.rest ≤ stratum.reach

/-- A token that is a primary is an operand, and any operator may stand behind it. -/
theorem spellsOperand_of_token {token : Token} {expr : Expr}
    (spelled : Spells .primary [token] expr) (stop : token.span.stop = expr.span.stop)
    (rest : List Token) : SpellsOperand (token :: rest) expr ⟨rest, token.span.stop⟩ :=
  ⟨[token], .primary, rfl, spelled, by decide, stop, TokenKind.strength_le_eighty _⟩

/-- A unary operator with what is read behind it down to the unary operators is an operand. -/
theorem spellsOperand_of_sign {sign : Token} (kind : sign.kind = .minus ∨ sign.kind = .bang)
    {start : Cursor} {expr : Expr} (reads : start.ReadsSpelling TokenKind.unaryStrength)
    (found : (start.expression TokenKind.unaryStrength).value = some expr)
    (clean : Finding.anyError (start.expression TokenKind.unaryStrength).findings = false) :
    SpellsOperand (sign :: start.rest)
      (.unary ⟨sign.span.start, (start.expression TokenKind.unaryStrength).cursor.last⟩
        (.ofKind sign.kind) expr)
      (start.expression TokenKind.unaryStrength).cursor := by
  obtain ⟨tokens, parts, spelled, stop, weak⟩ := reads expr found clean
  have whole := Spells.unary kind spelled
  rw [← stop] at whole
  exact ⟨sign :: tokens, .unary, congrArg (sign :: ·) parts, whole, Nat.le_refl _, rfl, weak⟩

/-- What is read between parentheses is an operand with them. -/
theorem spellsOperand_of_paren {opening : Token} (opens : opening.kind = .leftParen)
    {rest : List Token} {start behind : Cursor}
    (begins : (Cursor.mk rest opening.span.stop).skipNewlines = start) {expr : Expr}
    (reads : start.ReadsSpelling 0) (found : (start.expression 0).value = some expr)
    (clean : Finding.anyError (start.expression 0).findings = false)
    (ends : (start.expression 0).cursor.skipNewlines = behind)
    (closed : Finding.anyError (behind.expect .rightParen).findings = false) :
    SpellsOperand (opening :: rest)
      (.paren ⟨opening.span.start, (behind.expect .rightParen).cursor.last⟩ expr)
      (behind.expect .rightParen).cursor := by
  subst begins ends
  obtain ⟨before, above, opened, -⟩ := skipNewlines_spec ⟨rest, opening.span.stop⟩
  obtain ⟨inside, parts, spelled, -, -⟩ := reads expr found clean
  obtain ⟨after, below, skipped, -⟩ := skipNewlines_spec
    ((Cursor.mk rest opening.span.stop).skipNewlines.expression 0).cursor
  obtain ⟨closing, others, remaining, closes, stepped⟩ := expect_spec (by decide) closed
  rw [stepped]
  refine ⟨opening :: (before ++ (inside ++ (after ++ [closing]))), .primary, ?_,
    .paren opens closes above below spelled, by decide, rfl, TokenKind.strength_le_eighty _⟩
  rw [show rest = _ from opened, parts, skipped, remaining]
  simp

/-- What is read as an operand without an error is one. -/
theorem spellsOperand {cursor : Cursor}
    (smaller : ∀ (other : Cursor) (floor : Nat), other.size < cursor.size →
      other.ReadsSpelling floor)
    {expr : Expr} (found : cursor.operand.value = some expr)
    (clean : Finding.anyError cursor.operand.findings = false) :
    SpellsOperand cursor.rest expr cursor.operand.cursor := by
  obtain ⟨rest, last⟩ := cursor
  cases rest with
  | nil => simp at found
  | cons token rest =>
    rw [operand_cons] at found clean ⊢
    cases kind : token.kind
    all_goals simp only [kind] at found clean ⊢
    case number =>
      obtain rfl := Option.some.inj found
      have accepted : acceptsLiteral token.lexeme = true := by
        cases fits : acceptsLiteral token.lexeme with
        | true => rfl
        | false => simp [fits, Finding.anyError, Finding.isError, Complaint.severity] at clean
      exact spellsOperand_of_token (.number kind accepted) rfl rest
    case text =>
      obtain rfl := Option.some.inj found
      exact spellsOperand_of_token (.text kind) rfl rest
    case trueWord =>
      obtain rfl := Option.some.inj found
      exact spellsOperand_of_token (.trueWord kind) rfl rest
    case falseWord =>
      obtain rfl := Option.some.inj found
      exact spellsOperand_of_token (.falseWord kind) rfl rest
    case nilWord =>
      obtain rfl := Option.some.inj found
      exact spellsOperand_of_token (.nil kind) rfl rest
    case name =>
      obtain rfl := Option.some.inj found
      exact spellsOperand_of_token (.name kind) rfl rest
    case minus | bang =>
      have sign : token.kind = .minus ∨ token.kind = .bang := by simp [kind]
      cases value : ((Cursor.mk rest token.span.stop).expression TokenKind.unaryStrength).value with
      | none => simp [value] at found
      | some operand =>
        simp only [value] at found clean ⊢
        obtain rfl := Option.some.inj found
        have signed := spellsOperand_of_sign sign
          (smaller ⟨rest, token.span.stop⟩ _ (Nat.lt_succ_self _)) value clean
        rwa [kind] at signed
    case leftParen =>
      cases value : (Cursor.mk rest token.span.stop).skipNewlines.requiredExpression.value with
      | none => simp [value] at found
      | some inner =>
        simp only [value, Finding.anyError_append, Bool.or_eq_false_iff] at found clean ⊢
        obtain rfl := Option.some.inj found
        have plain := requiredExpression_eq value
        rw [plain] at value clean ⊢
        exact spellsOperand_of_paren kind rfl
          (smaller _ 0 (Nat.lt_succ_of_le (size_skipNewlines_le _))) value clean.1 rfl clean.2
    all_goals simp at found

/-- A tree joined with the operand behind an operator is a tree of the operator's stratum. -/
theorem spells_joined {stratum : Stratum} {sign : Token} {front gap back : List Token}
    {left right : Expr} (strong : 0 < sign.kind.strength)
    (follow : sign.kind.strength ≤ stratum.reach) (layout : Token.AllNewlines gap)
    (first : Spells stratum front left) (second : Spells (.above sign.kind.rightFloor) back right)
    {rest : List Token} (weak : Token.headStrength rest ≤ sign.kind.rightFloor) :
    ∃ joint : Stratum, sign.kind.strength ≤ joint.strength ∧ Token.headStrength rest ≤ joint.reach ∧
      Spells joint (front ++ sign :: (gap ++ back))
        (.binary ⟨left.span.start, right.span.stop⟩ (.ofKind sign.kind) left right) := by
  rcases TokenKind.eq_caret_or_mem strong with caret | ⟨joint, member⟩
  · -- Only a primary lets a power follow, so the left operand is a base.
    rw [caret] at follow second weak
    obtain rfl := Stratum.eq_primary_of_reach follow
    refine ⟨.power, by rw [caret]; decide, TokenKind.strength_le_seventy weak, ?_⟩
    have whole := Spells.power caret layout first second
    rw [caret]
    exact whole
  · -- The left operand may be weaker than the chain needs, but `follow` rules that out.
    have chain := Stratum.strength_le_of_mem member
    have same := Stratum.strength_of_mem member
    rw [TokenKind.rightFloor_of_mem member] at second weak
    rw [Stratum.above_strength chain] at second
    rw [same] at follow ⊢
    have weaker := Stratum.strength_le_of_le_reach chain follow
    refine ⟨joint, Nat.le_refl _, by rw [Stratum.reach_of_chain chain]; exact weak, ?_⟩
    exact .chain member layout (.weaken weaker first) second

/-- Continuing a tree without an error gives a tree of the stratum above the floor. -/
theorem spells_of_continuation {bound floor : Nat}
    (smaller : ∀ (other : Cursor) (floor : Nat), other.size < bound → other.ReadsSpelling floor)
    {cursor : Cursor} (within : cursor.size ≤ bound) {stratum : Stratum} {front : List Token}
    {left expr : Expr} (spelled : Spells stratum front left)
    (above : (Stratum.above floor).strength ≤ stratum.strength)
    (stop : cursor.last = left.span.stop) (follow : Token.headStrength cursor.rest ≤ stratum.reach)
    (found : (continuation floor left cursor).value = some expr)
    (clean : Finding.anyError (continuation floor left cursor).findings = false) :
    ∃ tokens, cursor.rest = tokens ++ (continuation floor left cursor).cursor.rest ∧
      Spells (.above floor) (front ++ tokens) expr ∧
      (continuation floor left cursor).cursor.last = expr.span.stop ∧
      Token.headStrength (continuation floor left cursor).cursor.rest ≤ floor := by
  -- Each round consumes an operator, so the number of tokens left decreases.
  induction length : cursor.size using Nat.strongRecOn generalizing cursor stratum front left with
  | ind size ih =>
    obtain ⟨rest, last⟩ := cursor
    cases rest with
    | nil =>
      rw [continuation_nil] at found ⊢
      obtain rfl := Option.some.inj found
      exact ⟨[], rfl, by simpa using spelled.weaken above, stop, Nat.zero_le _⟩
    | cons sign rest =>
      by_cases weak : sign.kind.strength ≤ floor
      · rw [continuation_cons, if_pos weak] at found ⊢
        obtain rfl := Option.some.inj found
        exact ⟨[], rfl, by simpa using spelled.weaken above, stop, weak⟩
      · -- The operator joins its operands to a tree of its stratum, which is continued in turn.
        rw [continuation_cons, if_neg weak] at found clean ⊢
        let behind := (Cursor.mk rest sign.span.stop).skipNewlines
        have shorter : behind.size < (sign :: rest).length :=
          Nat.lt_succ_of_le (size_skipNewlines_le ⟨rest, sign.span.stop⟩)
        cases value : (behind.expression sign.kind.rightFloor).value with
        | none => simp [behind, value] at found
        | some right =>
          simp only [behind, value, Finding.anyError_append, Bool.or_eq_false_iff] at found clean ⊢
          obtain ⟨gap, layout, skipped, -⟩ := skipNewlines_spec ⟨rest, sign.span.stop⟩
          obtain ⟨back, parts, second, right_stop, right_weak⟩ :=
            smaller behind sign.kind.rightFloor (Nat.lt_of_lt_of_le shorter within) right value
              clean.1
          obtain ⟨joint, stronger, joint_follow, joined⟩ :=
            spells_joined (Nat.lt_of_le_of_lt (Nat.zero_le _) (Nat.not_le.1 weak)) follow layout
              spelled second right_weak
          have less : (behind.expression sign.kind.rightFloor).cursor.size < size := by
            rw [← length]
            exact Nat.lt_of_le_of_lt (behind.advances_expression sign.kind.rightFloor).1 shorter
          obtain ⟨tokens, others, whole, stop, final⟩ := ih _ less
            (Nat.le_of_lt (Nat.lt_of_lt_of_le less (length ▸ within))) joined
            (Stratum.strength_above_le (Nat.lt_of_lt_of_le (Nat.not_le.1 weak) stronger))
            right_stop joint_follow found clean.2 rfl
          refine ⟨sign :: (gap ++ back) ++ tokens, ?_, ?_, stop, final⟩
          · rw [List.append_assoc, ← others, List.cons_append, List.append_assoc, ← parts,
              ← skipped]
          · rwa [← List.append_assoc]

/-- What is read without an error is a spelling. -/
theorem readsSpelling (floor : Nat) (cursor : Cursor) : cursor.ReadsSpelling floor := by
  -- By the number of tokens left, for all floors at once: a nested expression has another floor.
  induction length : cursor.size using Nat.strongRecOn generalizing cursor floor with
  | ind size ih =>
    have smaller : ∀ (other : Cursor) (floor : Nat), other.size < cursor.size →
        other.ReadsSpelling floor :=
      fun other floor less => ih other.size (length ▸ less) floor other rfl
    intro expr found clean
    rw [expression_eq] at found clean ⊢
    cases value : cursor.operand.value with
    | none => simp [value] at found
    | some left =>
      simp only [value, Finding.anyError_append, Bool.or_eq_false_iff] at found clean ⊢
      obtain ⟨front, stratum, parts, spelled, strong, stop, follow⟩ :=
        spellsOperand smaller value clean.1
      have within : cursor.operand.cursor.size ≤ cursor.size := by
        show cursor.operand.cursor.rest.length ≤ cursor.rest.length
        rw [parts, List.length_append]
        omega
      have above := Nat.le_trans (Stratum.strength_above_le_unary floor) strong
      obtain ⟨tokens, others, whole, behind, weak⟩ :=
        spells_of_continuation smaller within spelled above stop follow found clean.2
      exact ⟨front ++ tokens, by rw [parts, others, List.append_assoc], whole, behind, weak⟩

end Cursor

/-! ## The reader and the grammar -/

/-- **The reader accepts exactly the grammar.** A tree that is read without a finding is derived by
the grammar, and the consumed tokens without their layout are its yield. Conversely, wherever the
yield of a derived tree stands before a token that is no binary operator, exactly the yield is
consumed and the tree is read, up to places, without a finding. -/
theorem expression_accepts_grammar :
    (∀ (cursor : Cursor) (tree : Expr), (cursor.expression 0).value = some tree →
      (cursor.expression 0).findings = [] →
      ∃ consumed, cursor.rest = consumed ++ (cursor.expression 0).cursor.rest ∧
        Derives .either tree ∧ (Token.withoutLayout consumed).map Token.symbol = tree.yield) ∧
    (∀ (tree : Expr), Derives .either tree → ∀ (spelling rest : List Token) (last : Position),
      spelling.map Token.symbol = tree.yield → Token.headStrength rest = 0 →
      ∃ read, (Cursor.mk (spelling ++ rest) last).expression 0
          = ⟨some read, ⟨rest, read.span.stop⟩, []⟩ ∧ read.bare = tree.bare) := by
  constructor
  · intro cursor tree found clean
    have sound : Finding.anyError (cursor.expression 0).findings = false := by
      rw [clean]
      rfl
    obtain ⟨consumed, parts, spelled, -, -⟩ := cursor.readsSpelling 0 tree found sound
    exact ⟨consumed, parts, spelled.derives, spelled.map_symbol_withoutLayout⟩
  · intro tree derived spelling rest last yields weak
    obtain ⟨read, spelled, same⟩ := derived.spells yields
    exact ⟨read, spelled.expression_eq weak last, same⟩

/-- A token without a place. -/
def Token.unplaced (kind : TokenKind) (lexeme : Bytes) : Token :=
  ⟨kind, lexeme, .unset⟩

/-- The power of a negated power: an exponent with a sign before it, and another power in it. -/
theorem expression_accepts_grammar_power :
    ∃ read : Expr,
      (Cursor.mk [.unplaced .name [0x61], .unplaced .caret [0x5e], .unplaced .minus [0x2d],
          .unplaced .name [0x62], .unplaced .caret [0x5e], .unplaced .name [0x63]]
        .unset).expression 0 = ⟨some read, ⟨[], read.span.stop⟩, []⟩ ∧
      read.bare = .binary .unset .power (.name .unset [0x61]) (.unary .unset .negate
        (.binary .unset .power (.name .unset [0x62]) (.name .unset [0x63]))) ∧
      Derives .either read := by
  have derived : Derives .either (.binary .unset .power (.name .unset [0x61]) (.unary .unset .negate
      (.binary .unset .power (.name .unset [0x62]) (.name .unset [0x63])))) :=
    .weaken (by decide) (.power .name (.unary (by decide)
      (.weaken (by decide) (.power .name (.weaken (by decide) .name)))))
  obtain ⟨read, reads, same⟩ := expression_accepts_grammar.2 _ derived
    [.unplaced .name [0x61], .unplaced .caret [0x5e], .unplaced .minus [0x2d],
      .unplaced .name [0x62], .unplaced .caret [0x5e], .unplaced .name [0x63]] [] .unset rfl rfl
  refine ⟨read, reads, same, ?_⟩
  obtain ⟨consumed, -, whole, -⟩ := expression_accepts_grammar.1
    (Cursor.mk [.unplaced .name [0x61], .unplaced .caret [0x5e], .unplaced .minus [0x2d],
      .unplaced .name [0x62], .unplaced .caret [0x5e], .unplaced .name [0x63]] .unset) read
    (congrArg Parsed.value reads) (congrArg Parsed.findings reads)
  exact whole

end ConsoleScript
