import ConsoleScript.Proofs.EndlessLoops
import ConsoleScript.Proofs.ProgramJoining
import ConsoleScript.Proofs.TreeShape

/-! # Semicolons and line breaks are interchangeable

A semicolon only ever stands between statements, and there any separators will do.

* **`Token.Respaced`** — the same tokens with other separators in place of their semicolons;
* **`SpellsRun.respaced`** — what a list spells, every respacing of it spells, places included, by
  recursion on the derivation: line breaks stand in more places than semicolons, so turning one into
  the other never moves a token to another part of the tree;
* **`SpellsRun.exists_loops`** — the words for loops are those that open the loops of the tree, one
  each, so a respacing has the same warnings.

`separators_interchangeable` puts these together. -/

namespace ConsoleScript

/-! ## Other separators in place of semicolons -/

namespace Token

/-- The same tokens, with any line breaks and semicolons in place of each semicolon. -/
inductive Respaced : List Token → List Token → Prop where
  /-- No token. -/
  | nil : Respaced [] []
  /-- A token that stays as it is. -/
  | keep (token : Token) {tokens others : List Token} (rest : Respaced tokens others) :
      Respaced (token :: tokens) (token :: others)
  /-- A semicolon that gives way to other separators. -/
  | exchange {semicolon : Token} {gap tokens others : List Token}
      (kind : semicolon.kind = .semicolon) (separators : AllSeparators gap)
      (rest : Respaced tokens others) : Respaced (semicolon :: tokens) (gap ++ others)

/-- Tokens among which no semicolon is. -/
def Unseparated (tokens : List Token) : Prop :=
  ∀ token ∈ tokens, token.kind ≠ .semicolon

theorem AllNewlines.unseparated {gap : List Token} (layout : AllNewlines gap) :
    Unseparated gap := by
  intro token member
  rw [layout token member]
  decide

theorem AllNewlines.allSeparators {gap : List Token} (layout : AllNewlines gap) :
    AllSeparators gap := by
  intro token member
  rw [layout token member]
  rfl

/-- The words for loops among tokens. -/
def loopWords (tokens : List Token) : List Token :=
  tokens.filter (·.kind == .whileWord)

@[simp] theorem loopWords_append (front back : List Token) :
    loopWords (front ++ back) = loopWords front ++ loopWords back :=
  List.filter_append front back

/-- A list that starts with a token of another kind has the words for loops of the rest. -/
theorem loopWords_cons {token : Token} (other : token.kind ≠ .whileWord) (rest : List Token) :
    loopWords (token :: rest) = loopWords rest :=
  List.filter_cons_of_neg (by simpa using other)

theorem AllSeparators.loopWords_eq {gap : List Token} (separators : AllSeparators gap) :
    loopWords gap = [] := by
  refine List.filter_eq_nil_iff.2 fun token member loop => ?_
  have separator := separators token member
  rw [beq_iff_eq.1 loop] at separator
  exact Bool.false_ne_true separator

namespace Respaced

variable {tokens others rest front back : List Token} {token : Token}

theorem of_nil (respaced : Respaced [] others) : others = [] := by
  cases respaced
  rfl

theorem refl (tokens : List Token) : Respaced tokens tokens := by
  induction tokens with
  | nil => exact .nil
  | cons token _ ih => exact .keep token ih

/-- Respacings follow each other. -/
theorem append {more further : List Token} (first : Respaced tokens others)
    (second : Respaced more further) : Respaced (tokens ++ more) (others ++ further) := by
  induction first with
  | nil => exact second
  | keep token _ ih => exact ih.keep token
  | exchange kind separators _ ih =>
    rw [List.append_assoc]
    exact ih.exchange kind separators

/-- A respacing of nothing under a condition is nothing under that condition. -/
theorem nil_of (respaced : Respaced tokens others) {condition : Prop}
    (empty : condition → tokens = []) : condition → others = [] := by
  intro holds
  rw [empty holds] at respaced
  exact respaced.of_nil

/-- A token that is no semicolon stays in front. -/
theorem of_cons (respaced : Respaced (token :: rest) others) (other : token.kind ≠ .semicolon) :
    ∃ more, others = token :: more ∧ Respaced rest more := by
  cases respaced with
  | keep _ later => exact ⟨_, rfl, later⟩
  | exchange kind => exact absurd kind other

/-- A respacing of two lists is a respacing of each. -/
theorem of_append (respaced : Respaced (front ++ back) others) :
    ∃ one two, others = one ++ two ∧ Respaced front one ∧ Respaced back two := by
  induction front generalizing others with
  | nil => exact ⟨[], others, rfl, .nil, respaced⟩
  | cons token front ih =>
    cases respaced with
    | keep _ later =>
      obtain ⟨one, two, rfl, first, second⟩ := ih later
      exact ⟨token :: one, two, rfl, .keep token first, second⟩
    | exchange kind separators later =>
      obtain ⟨one, two, rfl, first, second⟩ := ih later
      exact ⟨_, two, (List.append_assoc ..).symm, .exchange kind separators first, second⟩

/-- Tokens without a semicolon stay as they are. -/
theorem eq_of_unseparated (respaced : Respaced tokens others) (plain : Unseparated tokens) :
    others = tokens := by
  induction respaced with
  | nil => rfl
  | keep token _ ih => rw [ih (List.forall_mem_cons.1 plain).2]
  | exchange kind => exact absurd kind (plain _ List.mem_cons_self)

/-- Separators stay separators. -/
theorem allSeparators (respaced : Respaced tokens others) (separators : AllSeparators tokens) :
    AllSeparators others := by
  induction respaced with
  | nil => exact separators
  | keep token _ ih =>
    obtain ⟨here, later⟩ := List.forall_mem_cons.1 separators
    exact List.forall_mem_cons.2 ⟨here, ih later⟩
  | exchange _ gap _ ih =>
    exact List.forall_mem_append.2 ⟨gap, ih (List.forall_mem_cons.1 separators).2⟩

/-- The words for loops stay as they are. -/
theorem loopWords_eq (respaced : Respaced tokens others) : loopWords others = loopWords tokens := by
  induction respaced with
  | nil => rfl
  | keep token _ ih =>
    rw [← List.singleton_append, loopWords_append, ih, ← loopWords_append, List.singleton_append]
  | exchange kind gap _ ih =>
    rw [loopWords_append, gap.loopWords_eq, ih, loopWords_cons (by simp [kind]), List.nil_append]

/-- The end of input stays where it is, so what stands before it is respaced, too. -/
theorem before_end (respaced : Respaced tokens others) :
    Respaced (Token.front tokens) (Token.front others) := by
  induction respaced with
  | nil => exact .nil
  | keep token _ ih =>
    by_cases final : token.kind = .endOfInput
    · simpa [Token.front, final] using Respaced.nil
    · simpa [Token.front, final] using ih.keep token
  | @exchange semicolon gap tokens others kind separators _ ih =>
    have before : ∀ token ∈ gap, (token.kind != .endOfInput) = true :=
      fun token member => bne_iff_ne.2 (separators.ongoing token member)
    have ahead : Token.front (semicolon :: tokens) = semicolon :: Token.front tokens := by
      simp [Token.front, kind]
    have behind : Token.front (gap ++ others) = gap ++ Token.front others :=
      List.takeWhile_append_of_pos before
    rw [ahead, behind]
    exact ih.exchange kind separators

end Respaced

end Token

/-! ## Spellings with other separators -/

/-- Whether a token of this kind may stand in an expression. -/
def TokenKind.isInExpression (kind : TokenKind) : Bool :=
  kind.startsExpression || kind == .rightParen || kind == .newline || 0 < kind.strength

open Token in
/-- An expression is spelled with few kinds of tokens. -/
theorem Spells.isInExpression {stratum : Stratum} {tokens : List Token} {expr : Expr}
    (spelled : Spells stratum tokens expr) :
    ∀ token ∈ tokens, token.kind.isInExpression = true := by
  have newlines {gap : List Token} (layout : AllNewlines gap) :
      ∀ token ∈ gap, token.kind.isInExpression = true := by
    intro token member
    rw [layout token member]
    rfl
  induction spelled with
  | number kind | text kind | trueWord kind | falseWord kind | nil kind | name kind =>
    exact List.forall_mem_singleton.2 (by rw [kind]; rfl)
  | paren opens closes above below _ inner =>
    simp only [List.forall_mem_cons, List.forall_mem_append]
    exact ⟨by rw [opens]; rfl, newlines above, inner, newlines below, by rw [closes]; rfl, by simp⟩
  | power kind layout _ _ left right =>
    simp only [List.forall_mem_cons, List.forall_mem_append]
    exact ⟨left, by rw [kind]; rfl, newlines layout, right⟩
  | unary kind _ operand =>
    refine List.forall_mem_cons.2 ⟨?_, operand⟩
    rcases kind with kind | kind <;> rw [kind] <;> rfl
  | @chain _ sign _ _ _ _ _ member layout _ _ first second =>
    simp only [List.forall_mem_cons, List.forall_mem_append]
    refine ⟨first, ?_, newlines layout, second⟩
    -- Only the signs of operators stand for operators.
    have known := Stratum.ne_unknown member
    revert known
    cases sign.kind <;> simp [BinaryOperator.ofKind, TokenKind.isInExpression, TokenKind.strength]
  | weaken _ _ inner => exact inner

/-- No semicolon stands in an expression. -/
theorem Spells.unseparated {stratum : Stratum} {tokens : List Token} {expr : Expr}
    (spelled : Spells stratum tokens expr) : Token.Unseparated tokens := by
  intro token member separator
  have inside := spelled.isInExpression token member
  rw [separator] at inside
  exact Bool.false_ne_true inside

/-- No word for a loop stands in an expression. -/
theorem Spells.loopWords_eq {stratum : Stratum} {tokens : List Token} {expr : Expr}
    (spelled : Spells stratum tokens expr) : Token.loopWords tokens = [] := by
  refine List.filter_eq_nil_iff.2 fun token member loop => ?_
  have inside := spelled.isInExpression token member
  rw [beq_iff_eq.1 loop] at inside
  exact Bool.false_ne_true inside

/-- A body keeps its first token when its semicolons are exchanged. -/
theorem SpellsBody.headKind_respaced {dangling : Bool} {tokens others : List Token} {body : Block}
    (spelled : SpellsBody dangling tokens body) (respaced : Token.Respaced tokens others) :
    Token.headKind others = Token.headKind tokens := by
  obtain ⟨token, rest, rfl, starts⟩ := spelled.head
  have other : token.kind ≠ .semicolon := by
    intro same
    simp [same, TokenKind.startsStmt] at starts
  obtain ⟨more, rfl, -⟩ := respaced.of_cons other
  rfl

open Token (Respaced) in
mutual

/-- A respacing of a statement spells it. -/
theorem SpellsStmt.respaced {dangling : Bool} {tokens : List Token} {stmt : Stmt} :
    SpellsStmt dangling tokens stmt → ∀ others, Respaced tokens others →
      SpellsStmt dangling others stmt
  | .assign named assigns right, others, respaced => by
    obtain ⟨rest, rfl, later⟩ := respaced.of_cons (by simp [named])
    obtain ⟨value, rfl, last⟩ := later.of_cons (by simp [assigns])
    rw [last.eq_of_unseparated right.unseparated]
    exact .assign named assigns right
  | .console kind shown, others, respaced => by
    obtain ⟨value, rfl, last⟩ := respaced.of_cons (by simp [kind])
    rw [last.eq_of_unseparated shown.unseparated]
    exact .console kind shown
  | .conditional kind first nearest further, others, respaced => by
    obtain ⟨rest, rfl, later⟩ := respaced.of_cons (by simp [kind])
    obtain ⟨one, two, rfl, front, back⟩ := later.of_append
    exact .conditional kind (first.respaced one front) (back.nil_of nearest)
      (further.respaced two back)
  | .loop kind holds repeated, others, respaced => by
    obtain ⟨rest, rfl, later⟩ := respaced.of_cons (by simp [kind])
    obtain ⟨test, inside, rfl, front, back⟩ := later.of_append
    rw [front.eq_of_unseparated holds.unseparated]
    exact .loop kind holds (repeated.respaced inside back)
  | .block opens closes run, others, respaced => by
    obtain ⟨rest, rfl, later⟩ := respaced.of_cons (by simp [opens])
    obtain ⟨inside, last, rfl, front, back⟩ := later.of_append
    rw [back.eq_of_unseparated (by simp [Token.Unseparated, closes])]
    exact .block opens closes (run.respaced inside front)

/-- A respacing of a branch spells it. -/
theorem SpellsBranch.respaced {word : Token} {dangling : Bool} {tokens : List Token}
    {branch : Branch} :
    SpellsBranch word dangling tokens branch → ∀ others, Respaced tokens others →
      SpellsBranch word dangling others branch
  | .mk holds guarded, others, respaced => by
    obtain ⟨test, inside, rfl, front, back⟩ := respaced.of_append
    rw [front.eq_of_unseparated holds.unseparated]
    exact .mk holds (guarded.respaced inside back)

/-- A respacing of what is further to a conditional spells it. -/
theorem SpellsFurther.respaced {start stop : Position} {dangling : Bool} {tokens : List Token}
    {branches : List Branch} {otherwise : Block} :
    SpellsFurther start dangling tokens branches otherwise stop →
      ∀ others, Respaced tokens others →
      SpellsFurther start dangling others branches otherwise stop
  | .none, others, respaced => by
    rw [respaced.of_nil]
    exact .none
  | .elseif layout kind first nearest further, others, respaced => by
    obtain ⟨gap, rest, rfl, before, later⟩ := respaced.of_append
    obtain ⟨tail, rfl, behind⟩ := later.of_cons (by simp [kind])
    obtain ⟨one, two, rfl, front, back⟩ := behind.of_append
    rw [before.eq_of_unseparated layout.unseparated]
    exact .elseif layout kind (first.respaced one front) (back.nil_of nearest)
      (further.respaced two back)
  | .elseIf layout else_kind if_kind first nearest further, others, respaced => by
    obtain ⟨gap, rest, rfl, before, later⟩ := respaced.of_append
    obtain ⟨tail, rfl, behind⟩ := later.of_cons (by simp [else_kind])
    obtain ⟨clause, rfl, last⟩ := behind.of_cons (by simp [if_kind])
    obtain ⟨one, two, rfl, front, back⟩ := last.of_append
    rw [before.eq_of_unseparated layout.unseparated]
    exact .elseIf layout else_kind if_kind (first.respaced one front) (back.nil_of nearest)
      (further.respaced two back)
  | .otherwise layout kind final run, others, respaced => by
    obtain ⟨gap, rest, rfl, before, later⟩ := respaced.of_append
    obtain ⟨inside, rfl, behind⟩ := later.of_cons (by simp [kind])
    rw [before.eq_of_unseparated layout.unseparated]
    rw [← run.headKind_respaced behind] at final
    exact .otherwise layout kind final (run.respaced inside behind)

/-- A respacing of a body spells it. -/
theorem SpellsBody.respaced {dangling : Bool} {tokens : List Token} {body : Block} :
    SpellsBody dangling tokens body → ∀ others, Respaced tokens others →
      SpellsBody dangling others body
  | .braced opens closes run, others, respaced => by
    obtain ⟨rest, rfl, later⟩ := respaced.of_cons (by simp [opens])
    obtain ⟨inside, last, rfl, front, back⟩ := later.of_append
    rw [back.eq_of_unseparated (by simp [Token.Unseparated, closes])]
    exact .braced opens closes (run.respaced inside front)
  | .single unbraced only, others, respaced => by
    rw [← (SpellsBody.single unbraced only).headKind_respaced respaced] at unbraced
    exact .single unbraced (only.respaced others respaced)

/-- A respacing of statements spells them. -/
theorem SpellsRun.respaced {tokens : List Token} {stmts : List Stmt} :
    SpellsRun tokens stmts → ∀ others, Respaced tokens others → SpellsRun others stmts
  | .done separators, others, respaced => .done (respaced.allSeparators separators)
  | .cons separators first run, others, respaced => by
    obtain ⟨gap, rest, rfl, before, later⟩ := respaced.of_append
    obtain ⟨one, two, rfl, front, back⟩ := later.of_append
    exact .cons (before.allSeparators separators) (first.respaced one front)
      (run.respaced two back)

end

/-! ## The same warnings -/

/-- The number of loops among statements. -/
def Stmt.countLoops (parts : List Stmt) : Nat :=
  (parts.filterMap Stmt.loop?).length

@[simp] theorem Stmt.countLoops_append (parts more : List Stmt) :
    countLoops (parts ++ more) = countLoops parts + countLoops more := by
  simp [countLoops, List.filterMap_append]

open Token (loopWords loopWords_append loopWords_cons) in
mutual

/-- In the spelling of a statement there are as many words for loops as it has loops. -/
theorem SpellsStmt.length_loopWords {dangling : Bool} {tokens : List Token} {stmt : Stmt} :
    SpellsStmt dangling tokens stmt → (loopWords tokens).length = Stmt.countLoops stmt.parts
  | .assign named assigns right => by
    rw [loopWords_cons (by simp [named]), loopWords_cons (by simp [assigns]), right.loopWords_eq]
    rfl
  | .console kind shown => by
    rw [loopWords_cons (by simp [kind]), shown.loopWords_eq]
    rfl
  | .conditional kind first _ further => by
    rw [loopWords_cons (by simp [kind]), loopWords_append, List.length_append,
      first.length_loopWords, further.length_loopWords, ← Stmt.countLoops_append,
      ← List.append_assoc, ← branchParts_cons]
    rfl
  | @SpellsStmt.loop word _ _ _ _ _ kind holds repeated => by
    have own : loopWords [word] = [word] := List.filter_cons_of_pos (by simpa using kind)
    rw [← List.singleton_append, loopWords_append, loopWords_append, own, holds.loopWords_eq,
      List.length_append, List.nil_append, repeated.length_loopWords, Nat.add_comm]
    rfl
  | @SpellsStmt.block _ closing _ _ opens closes run => by
    have last : loopWords [closing] = [] := loopWords_cons (by simp [closes]) []
    rw [loopWords_cons (by simp [opens]), loopWords_append, last, List.append_nil,
      run.length_loopWords]
    rfl

/-- In the spelling of a branch there are as many words for loops as its body has loops. -/
theorem SpellsBranch.length_loopWords {word : Token} {dangling : Bool} {tokens : List Token}
    {branch : Branch} : SpellsBranch word dangling tokens branch →
      (loopWords tokens).length = Stmt.countLoops branch.body.parts
  | .mk holds guarded => by
    rw [loopWords_append, holds.loopWords_eq, List.nil_append, guarded.length_loopWords]
    rfl

/-- In the spelling of what is further to a conditional there are as many words for loops as it has
loops. -/
theorem SpellsFurther.length_loopWords {start stop : Position} {dangling : Bool}
    {tokens : List Token} {branches : List Branch} {otherwise : Block} :
    SpellsFurther start dangling tokens branches otherwise stop →
      (loopWords tokens).length = Stmt.countLoops (branchParts branches ++ otherwise.parts)
  | .none => rfl
  | .elseif layout kind first _ further => by
    rw [loopWords_append, layout.allSeparators.loopWords_eq, loopWords_cons (by simp [kind]),
      loopWords_append, List.nil_append, List.length_append, first.length_loopWords,
      further.length_loopWords, branchParts_cons, List.append_assoc, ← Stmt.countLoops_append]
  | .elseIf layout else_kind if_kind first _ further => by
    rw [loopWords_append, layout.allSeparators.loopWords_eq, loopWords_cons (by simp [else_kind]),
      loopWords_cons (by simp [if_kind]), loopWords_append, List.nil_append, List.length_append,
      first.length_loopWords, further.length_loopWords, branchParts_cons, List.append_assoc,
      ← Stmt.countLoops_append]
  | .otherwise layout kind _ run => by
    rw [loopWords_append, layout.allSeparators.loopWords_eq, loopWords_cons (by simp [kind]),
      List.nil_append, run.length_loopWords]
    rfl

/-- In the spelling of a body there are as many words for loops as it has loops. -/
theorem SpellsBody.length_loopWords {dangling : Bool} {tokens : List Token} {body : Block} :
    SpellsBody dangling tokens body → (loopWords tokens).length = Stmt.countLoops body.parts
  | @SpellsBody.braced _ closing _ _ opens closes run => by
    have last : loopWords [closing] = [] := loopWords_cons (by simp [closes]) []
    rw [loopWords_cons (by simp [opens]), loopWords_append, last, List.append_nil,
      run.length_loopWords]
    rfl
  | .single _ only => by
    rw [only.length_loopWords, ← stmtParts_singleton]
    rfl

/-- In the spelling of statements there are as many words for loops as they have loops. -/
theorem SpellsRun.length_loopWords {tokens : List Token} {stmts : List Stmt} :
    SpellsRun tokens stmts → (loopWords tokens).length = Stmt.countLoops (stmtParts stmts)
  | .done separators => by
    rw [separators.loopWords_eq]
    rfl
  | .cons separators first run => by
    rw [loopWords_append, separators.loopWords_eq, loopWords_append, List.nil_append,
      List.length_append, first.length_loopWords, run.length_loopWords, stmtParts,
      Stmt.countLoops_append]

end

/-- Loops are told apart by the tokens that open them and by their nodes. -/
theorem OpenedLoop.eq_of_map {loops others : List OpenedLoop}
    (words : loops.map word = others.map word) (nodes : loops.map node = others.map node) :
    loops = others := by
  have pairs (some : List OpenedLoop) :
      some.map (fun loop => (loop.word, loop.node)) = (some.map word).zip (some.map node) :=
    List.zip_map'.symm
  have same : loops.map (fun loop => (loop.word, loop.node))
      = others.map fun loop => (loop.word, loop.node) := by
    rw [pairs, pairs, words, nodes]
  refine List.map_injective_iff.2 ?_ same
  rintro ⟨word, span, condition, kind, start⟩ ⟨other, place, test, _, _⟩ equal
  simp only [node, Prod.mk.injEq] at equal
  obtain ⟨rfl, rfl, rfl⟩ := equal
  rfl

/-- Without an error, all findings are about loops without end. -/
theorem Finding.filter_isEndless {findings : List Finding} (clean : anyError findings = false) :
    findings.filter isEndless = findings := by
  rw [List.filter_eq_self]
  intro finding member
  have severity := List.any_eq_false.1 clean finding member
  obtain ⟨complaint, span⟩ := finding
  cases complaint <;> simp [isError, isEndless, Complaint.severity] at severity ⊢

/-- Behind what stands before the first end of input, nothing more is to be read. -/
theorem Token.exists_back (tokens : List Token) :
    ∃ back, tokens = Token.front tokens ++ back ∧ Token.headKind back = .endOfInput := by
  refine ⟨tokens.dropWhile (·.kind != .endOfInput), List.takeWhile_append_dropWhile.symm, ?_⟩
  have stop := List.head?_dropWhile_not (·.kind != .endOfInput) tokens
  rw [Token.headKind]
  cases first : (tokens.dropWhile (·.kind != .endOfInput)).head? with
  | none => rfl
  | some token =>
    rw [first] at stop
    simpa using stop

/-- What is spelled is read without an error, and whatever stands behind an end of input does not
matter. -/
theorem SpellsRun.read_ended {tokens : List Token} {stmts : List Stmt}
    (spelled : SpellsRun tokens stmts) :
    ∃ findings, Finding.anyError findings = false ∧
      ∀ back, Token.headKind back = .endOfInput →
        (Parsing.read (tokens ++ back)).program.stmts = stmts ∧
          (Parsing.read (tokens ++ back)).findings = findings := by
  obtain ⟨findings, reads⟩ := spelled.read_append
  have alone (back : List Token) (ends : Token.headKind back = .endOfInput) :
      (Parsing.read (tokens ++ back)).program.stmts = stmts ∧
        (Parsing.read (tokens ++ back)).findings = findings := by
    have weak : Token.headStrength back = 0 := by
      rw [Token.headStrength, ends]
      rfl
    have closed : Token.opensBranch back = false := by
      cases back with
      | nil => rfl
      | cons token rest =>
        rw [Token.headKind_cons] at ends
        rw [Token.opensBranch_cons (by simp [ends]), ends]
        rfl
    obtain ⟨whole, found⟩ := reads back weak closed
    obtain ⟨nothing, -, quiet⟩ := Parsing.read_ending ends
    rw [nothing, List.append_nil] at whole
    rw [quiet, List.append_nil] at found
    exact ⟨whole, found⟩
  refine ⟨findings, ?_, alone⟩
  rw [← (alone [Token.pastEnd] rfl).2]
  exact (spelled.read rfl).1

/-- The findings about what is spelled are the warnings that are due for its loops, which are opened
by the words for loops, one each. -/
theorem SpellsRun.exists_loops {tokens : List Token} {stmts : List Stmt}
    (spelled : SpellsRun tokens stmts) :
    ∃ loops : List OpenedLoop, loops.map OpenedLoop.word = Token.loopWords tokens ∧
      loops.map OpenedLoop.node = (stmtParts stmts).filterMap Stmt.loop? ∧
      Finding.anyError (loops.filterMap OpenedLoop.warning?) = false ∧
      ∀ back, Token.headKind back = .endOfInput →
        (Parsing.read (tokens ++ back)).program.stmts = stmts ∧
          (Parsing.read (tokens ++ back)).findings = loops.filterMap OpenedLoop.warning? := by
  obtain ⟨findings, clean, reads⟩ := spelled.read_ended
  obtain ⟨whole, found⟩ := reads [] rfl
  rw [List.append_nil] at whole found
  have read := (StatementCall.statements false (Cursor.ofTokens tokens).skipSeparators).warns_read
  obtain ⟨consumed, loops, split, among, nodes, warnings⟩ :=
    Warned.skip (Cursor.suffix_skipWhile _ _) read
  change tokens = _ at split
  change _ = (stmtParts (Parsing.read tokens).program.stmts).filterMap Stmt.loop? at nodes
  change (Parsing.read tokens).findings.filter Finding.isEndless = _ at warnings
  rw [whole] at nodes
  rw [found, Finding.filter_isEndless clean] at warnings
  refine ⟨loops, ?_, nodes, warnings ▸ clean, warnings ▸ reads⟩
  -- None of the words for loops is left over: there are only as many of them as there are loops.
  have inside : (loops.map OpenedLoop.word).Sublist (Token.loopWords tokens) := by
    have kinds : Token.loopWords (loops.map OpenedLoop.word) = loops.map OpenedLoop.word := by
      refine List.filter_eq_self.2 fun token member => ?_
      obtain ⟨loop, -, rfl⟩ := List.mem_map.1 member
      exact beq_iff_eq.2 loop.kind
    rw [← kinds, split]
    exact (among.trans (List.sublist_append_left consumed _)).filter _
  refine inside.eq_of_length ?_
  rw [spelled.length_loopWords, Stmt.countLoops, ← nodes, List.length_map, List.length_map]

/-! ## The same reading -/

/-- **Semicolons and line breaks are interchangeable.** Where tokens are read without an error, each
semicolon may give way to a line break, and further line breaks and semicolons may stand next to it:
there is no error again, the warnings are the same, and so are the statements, places included. -/
theorem separators_interchangeable {tokens others : List Token}
    (clean : Finding.anyError (Parsing.read tokens).findings = false)
    (respaced : Token.Respaced tokens others) :
    Finding.anyError (Parsing.read others).findings = false ∧
      (Parsing.read others).findings = (Parsing.read tokens).findings ∧
      (Parsing.read others).program.stmts = (Parsing.read tokens).program.stmts := by
  have spelled := Parsing.spells_of_clean clean
  have before := respaced.before_end
  have again := spelled.respaced _ before
  obtain ⟨loops, words, nodes, -, reads⟩ := spelled.exists_loops
  obtain ⟨same, same_words, same_nodes, quiet, reads_again⟩ := again.exists_loops
  have equal : same = loops := by
    refine OpenedLoop.eq_of_map ?_ (same_nodes.trans nodes.symm)
    rw [same_words, words, before.loopWords_eq]
  obtain ⟨back, parts, ends⟩ := Token.exists_back tokens
  obtain ⟨more, other_parts, other_ends⟩ := Token.exists_back others
  obtain ⟨-, found⟩ := reads back ends
  obtain ⟨whole, found_again⟩ := reads_again more other_ends
  rw [← parts] at found
  rw [← other_parts] at whole found_again
  exact ⟨by rw [found_again]; exact quiet, by rw [found_again, found, equal], whole⟩

/-- In `while true { if a { }; x = nil; }` a line break takes the place of the first semicolon,
where a further branch is looked for behind it, and a line break and a semicolon take that of the
second one. The conditional and the assignment stay two statements in the loop. -/
theorem separators_interchangeable_loop :
    let newline : Token := .unplaced .newline Token.newlineLexeme
    let semicolon : Token := .unplaced .semicolon [0x3b]
    let front : List Token :=
      [.unplaced .whileWord [], .unplaced .trueWord [], .unplaced .leftBrace [],
        .unplaced .ifWord [], .unplaced .name [0x61], .unplaced .leftBrace [],
        .unplaced .rightBrace []]
    let assignment : List Token :=
      [.unplaced .name [0x78], .unplaced .assign [0x3d], .unplaced .nilWord []]
    let back : List Token := [.unplaced .rightBrace [], .unplaced .endOfInput []]
    let tokens := front ++ semicolon :: (assignment ++ semicolon :: back)
    let others := front ++ newline :: (assignment ++ newline :: semicolon :: back)
    Finding.anyError (Parsing.read tokens).findings = false ∧ Token.Respaced tokens others ∧
      (Parsing.read others).findings = [⟨.endlessLoop, Span.unset.join .unset⟩] ∧
      (Parsing.read others).program.stmts = [.loop .unset (.boolean .unset true) (.present .unset
        [.conditional .unset [.mk .unset (.name .unset [0x61]) (.present .unset [])] .absent,
          .assign .unset [0x78] (.nil .unset)])] := by
  intro newline semicolon front assignment back tokens others
  have read : (Parsing.read tokens).program.stmts = [.loop .unset (.boolean .unset true)
        (.present .unset
          [.conditional .unset [.mk .unset (.name .unset [0x61]) (.present .unset [])] .absent,
            .assign .unset [0x78] (.nil .unset)])] ∧
      (Parsing.read tokens).findings = [⟨.endlessLoop, Span.unset.join .unset⟩] := by
    simp [tokens, front, back, semicolon, assignment, Token.unplaced, Parsing.read,
      Cursor.ofTokens, Cursor.skipSeparators, Cursor.skipWhile, Cursor.skipWhile.go,
      Cursor.isSeparator, Cursor.statements_cons, Cursor.statement_cons, Cursor.branch_eq,
      Cursor.branches_eq, Cursor.body_cons, Cursor.braced_eq, Cursor.expect,
      Cursor.requiredExpression, Parsed.required, Cursor.expression_eq, Cursor.operand_cons,
      Cursor.continuation_cons, TokenKind.strength, Cursor.spanFrom, Cursor.peek, Cursor.kind,
      Cursor.loopWarnings, Cursor.skipNewlines, Cursor.assignment, Cursor.assignedValue]
  have clean : Finding.anyError (Parsing.read tokens).findings = false := by
    rw [read.2]
    rfl
  have respaced : Token.Respaced tokens others := by
    have one : Token.AllSeparators [newline] := List.forall_mem_singleton.2 rfl
    have two : Token.AllSeparators [newline, semicolon] :=
      List.forall_mem_cons.2 ⟨rfl, List.forall_mem_singleton.2 rfl⟩
    exact (Token.Respaced.refl front).append (.exchange rfl one
      ((Token.Respaced.refl assignment).append (.exchange rfl two (.refl back))))
  obtain ⟨-, warnings, same⟩ := separators_interchangeable clean respaced
  exact ⟨clean, respaced, by rw [warnings, read.2], by rw [same, read.1]⟩

end ConsoleScript
