import ConsoleScript.Proofs.StatementReading

/-! # Reading programs is exact

Reading a list of tokens loses nothing and invents nothing.

* **`Token.Ongoing`** — no spelling contains the end of input, so what is read without an error
  reaches from the beginning of the list to its end;
* **`Parsing.spells_of_read`** — a program that is read without an error is spelled by the whole
  list;
* **`SpellsRun.read`** — a list that spells statements is read as them;
* **`spellsRun_of_rendering`** — the canonical rendering of a grammatical tree spells it, up to the
  places of its nodes.

`read_spells_program` puts them together. -/

namespace ConsoleScript

/-! ## Spellings end before the end of input -/

namespace Token

/-- Tokens among which the end of input is not. -/
def Ongoing (tokens : List Token) : Prop :=
  ∀ token ∈ tokens, token.kind ≠ .endOfInput

instance (tokens : List Token) : Decidable (Ongoing tokens) :=
  inferInstanceAs (Decidable (∀ token ∈ tokens, token.kind ≠ .endOfInput))

theorem ongoing_nil : Ongoing [] :=
  fun _ member => absurd member List.not_mem_nil

theorem Ongoing.cons {token : Token} {rest : List Token} (first : token.kind ≠ .endOfInput)
    (others : Ongoing rest) : Ongoing (token :: rest) :=
  List.forall_mem_cons.2 ⟨first, others⟩

theorem Ongoing.append {front back : List Token} (first : Ongoing front) (second : Ongoing back) :
    Ongoing (front ++ back) :=
  List.forall_mem_append.2 ⟨first, second⟩

theorem ongoing_singleton {token : Token} (first : token.kind ≠ .endOfInput) : Ongoing [token] :=
  .cons first ongoing_nil

theorem AllNewlines.ongoing {gap : List Token} (layout : AllNewlines gap) : Ongoing gap := by
  intro token member
  rw [layout token member]
  decide

theorem AllSeparators.ongoing {gap : List Token} (separators : AllSeparators gap) :
    Ongoing gap := by
  intro token member final
  have separator := separators token member
  rw [final] at separator
  exact Bool.false_ne_true separator

/-- The end of input of a list is the last token of it, if it is the only one. -/
theorem ongoing_unique {tokens front back : List Token} {final other : Token}
    (ongoing : Ongoing tokens) (front_ongoing : Ongoing front)
    (final_kind : final.kind = .endOfInput) (other_kind : other.kind = .endOfInput)
    (same : tokens ++ [final] = front ++ other :: back) : front = tokens := by
  -- Neither list can end before the other: the end of input would stand inside the longer one.
  induction tokens generalizing front with
  | nil =>
    cases front with
    | nil => rfl
    | cons token rest =>
      obtain ⟨rfl, -⟩ := List.cons.inj same
      exact absurd final_kind (front_ongoing _ List.mem_cons_self)
  | cons token tokens ih =>
    cases front with
    | nil =>
      obtain ⟨rfl, -⟩ := List.cons.inj same
      exact absurd other_kind (ongoing _ List.mem_cons_self)
    | cons head rest =>
      obtain ⟨rfl, others⟩ := List.cons.inj same
      rw [ih (List.forall_mem_cons.1 ongoing).2 (List.forall_mem_cons.1 front_ongoing).2 others]

end Token

open Token in
/-- No expression is spelled with the end of input. -/
theorem Spells.ongoing {stratum : Stratum} {tokens : List Token} {expr : Expr}
    (spelled : Spells stratum tokens expr) : Ongoing tokens := by
  induction spelled with
  | number kind | text kind | trueWord kind | falseWord kind | nil kind | name kind =>
    exact ongoing_singleton (by simp [kind])
  | paren opens closes above below _ inner =>
    exact .cons (by simp [opens]) (above.ongoing.append
      (inner.append (below.ongoing.append (ongoing_singleton (by simp [closes])))))
  | power kind layout _ _ left right =>
    exact left.append (.cons (by simp [kind]) (layout.ongoing.append right))
  | unary kind _ operand =>
    refine .cons ?_ operand
    rcases kind with kind | kind <;> simp [kind]
  | chain member layout _ _ first second =>
    refine first.append (.cons ?_ (layout.ongoing.append second))
    intro final
    -- The end of input stands for no operator.
    have known := Stratum.ne_unknown member
    rw [final] at known
    exact known rfl
  | weaken _ _ inner => exact inner

open Token in
mutual

/-- No statement is spelled with the end of input. -/
theorem SpellsStmt.ongoing {dangling : Bool} {tokens : List Token} {stmt : Stmt} :
    SpellsStmt dangling tokens stmt → Ongoing tokens
  | .assign named assigns right =>
    .cons (by simp [named]) (.cons (by simp [assigns]) right.ongoing)
  | .console kind shown => .cons (by simp [kind]) shown.ongoing
  | .conditional kind first _ others =>
    .cons (by simp [kind]) (first.ongoing.append others.ongoing)
  | .loop kind holds repeated =>
    .cons (by simp [kind]) (holds.ongoing.append repeated.ongoing)
  | .block opens closes run =>
    .cons (by simp [opens]) (run.ongoing.append (ongoing_singleton (by simp [closes])))

/-- No branch is spelled with the end of input. -/
theorem SpellsBranch.ongoing {word : Token} {dangling : Bool} {tokens : List Token}
    {branch : Branch} : SpellsBranch word dangling tokens branch → Ongoing tokens
  | .mk holds guarded => holds.ongoing.append guarded.ongoing

/-- Nothing further to a conditional is spelled with the end of input. -/
theorem SpellsFurther.ongoing {start stop : Position} {dangling : Bool} {tokens : List Token}
    {branches : List Branch} {otherwise : Block} :
    SpellsFurther start dangling tokens branches otherwise stop → Ongoing tokens
  | .none => ongoing_nil
  | .elseif layout kind first _ others =>
    layout.ongoing.append (.cons (by simp [kind]) (first.ongoing.append others.ongoing))
  | .elseIf layout else_kind if_kind first _ others =>
    layout.ongoing.append (.cons (by simp [else_kind]) (.cons (by simp [if_kind])
      (first.ongoing.append others.ongoing)))
  | .otherwise layout kind _ run =>
    layout.ongoing.append (.cons (by simp [kind]) run.ongoing)

/-- No body is spelled with the end of input. -/
theorem SpellsBody.ongoing {dangling : Bool} {tokens : List Token} {body : Block} :
    SpellsBody dangling tokens body → Ongoing tokens
  | .braced opens closes run =>
    .cons (by simp [opens]) (run.ongoing.append (ongoing_singleton (by simp [closes])))
  | .single _ only => only.ongoing

/-- No run of statements is spelled with the end of input. -/
theorem SpellsRun.ongoing {tokens : List Token} {stmts : List Stmt} :
    SpellsRun tokens stmts → Ongoing tokens
  | .done separators => separators.ongoing
  | .cons separators first others =>
    separators.ongoing.append (first.ongoing.append others.ongoing)

end

/-! ## The whole list -/

namespace Parsing

/-- A program that is read without an error is spelled by all tokens before the end of input. -/
theorem spells_of_read {tokens : List Token} {final : Token} (ongoing : Token.Ongoing tokens)
    (final_kind : final.kind = .endOfInput)
    (clean : Finding.anyError (read (tokens ++ [final])).findings = false) :
    SpellsRun tokens (read (tokens ++ [final])).program.stmts := by
  obtain ⟨front, parts, run, ends⟩ :=
    Cursor.spells_of_statements (fun other _ => other.readsStmt) (Nat.lt_succ_self _) clean
  change SpellsRun front (read (tokens ++ [final])).program.stmts at run
  change tokens ++ [final] = _ at parts
  rcases ends with nothing | ⟨other, back, remaining, kind⟩
  · -- The end of input is never consumed, so something is left.
    rw [nothing, List.append_nil] at parts
    have inside : final ∈ front := parts ▸ List.mem_append_right tokens List.mem_cons_self
    exact absurd final_kind (run.ongoing final inside)
  · -- Outside braces only the end of input ends the statements, and there is one of it.
    have other_kind : other.kind = .endOfInput := by simpa using kind
    rw [remaining] at parts
    rwa [Token.ongoing_unique ongoing run.ongoing final_kind other_kind parts] at run

end Parsing

/-- A list that spells statements is read as them up to its end, without an error. -/
theorem SpellsRun.read_eq {tokens : List Token} {stmts : List Stmt}
    (spelled : SpellsRun tokens stmts) {final : Token} (final_kind : final.kind = .endOfInput) :
    ∃ findings, Finding.anyError findings = false ∧ Parsing.read (tokens ++ [final])
      = ⟨⟨⟨(Cursor.ofTokens (tokens ++ [final])).peek.span.start, final.span.stop⟩, stmts⟩,
        findings⟩ := by
  obtain ⟨findings, clean, reads⟩ := spelled.reads false
  obtain ⟨reached, whole⟩ := reads [final]
    ((tokens ++ [final]).head?.getD Token.pastEnd).span.start ⟨final, [], rfl, .inl final_kind⟩
  have start : Cursor.ofTokens (tokens ++ [final]) = ⟨tokens ++ [final], _⟩ := rfl
  rw [Parsing.read, start, whole]
  exact ⟨findings, clean, rfl⟩

/-- A list that spells statements is read as them without an error. -/
theorem SpellsRun.read {tokens : List Token} {stmts : List Stmt} (spelled : SpellsRun tokens stmts)
    {final : Token} (final_kind : final.kind = .endOfInput) :
    Finding.anyError (Parsing.read (tokens ++ [final])).findings = false ∧
      (Parsing.read (tokens ++ [final])).program.stmts = stmts := by
  obtain ⟨findings, clean, whole⟩ := spelled.read_eq final_kind
  rw [whole]
  exact ⟨clean, rfl⟩

/-! ## Canonical renderings are spellings -/

/-- Separators before a run of statements belong to it. -/
theorem SpellsRun.prepend {gap tokens : List Token} {stmts : List Stmt}
    (separators : Token.AllSeparators gap) (spelled : SpellsRun tokens stmts) :
    SpellsRun (gap ++ tokens) stmts := by
  cases spelled with
  | done others => exact .done (List.forall_mem_append.2 ⟨separators, others⟩)
  | cons others first more =>
    rw [← List.append_assoc]
    exact .cons (List.forall_mem_append.2 ⟨separators, others⟩) first more

/-- Every list of tokens that renders a statement spells it, up to places. -/
def Stmt.Rendered (stmt : Stmt) : Prop :=
  ∀ tokens : List Token, tokens.map Token.symbol = stmt.rendering →
    ∃ dangling placed, SpellsStmt dangling tokens placed ∧ placed.bare = stmt.bare

/-- Every list of tokens that renders statements spells them, up to places. -/
def RenderedStmts (stmts : List Stmt) : Prop :=
  ∀ tokens : List Token, tokens.map Token.symbol = renderStmts stmts →
    ∃ placed, SpellsRun tokens placed ∧ bareStmts placed = bareStmts stmts

/-- Every list of tokens that renders a body spells it, up to places. -/
def Block.Rendered (body : Block) : Prop :=
  ∀ tokens : List Token, tokens.map Token.symbol = body.rendering →
    ∃ placed, SpellsBody false tokens placed ∧ placed.bare = body.bare

/-- Every list of tokens that renders what is further to a conditional spells it, up to places. -/
def RenderedFurther (branches : List Branch) (otherwise : Block) : Prop :=
  ∀ (start : Position) (tokens : List Token),
    tokens.map Token.symbol = renderBranches .elseifWord branches ++ renderOtherwise otherwise →
    ∃ dangling placed last stop, SpellsFurther start dangling tokens placed last stop ∧
      bareBranches placed = bareBranches branches ∧ last.bare = otherwise.bare

/-- What renders statements in braces is an opening brace, a spelling of them and a closing
brace. -/
theorem RenderedStmts.braced {stmts : List Stmt} (rendered : RenderedStmts stmts)
    {tokens : List Token}
    (same : tokens.map Token.symbol
      = .sign .leftBrace :: (renderStmts stmts ++ [.sign .rightBrace])) :
    ∃ opening inside closing placed, tokens = opening :: (inside ++ [closing]) ∧
      opening.kind = .leftBrace ∧ closing.kind = .rightBrace ∧ SpellsRun inside placed ∧
      bareStmts placed = bareStmts stmts := by
  obtain ⟨opening, rest, rfl, opens, others⟩ := List.map_eq_cons_iff.1 same
  obtain ⟨inside, last, rfl, renders, closes⟩ := List.map_eq_append_iff.1 others
  obtain ⟨closing, rfl, closing_same⟩ := List.map_eq_singleton_iff.1 closes
  obtain ⟨placed, run, placed_same⟩ := rendered inside renders
  exact ⟨opening, inside, closing, placed, rfl, Token.kind_of_symbol_eq_sign opens,
    Token.kind_of_symbol_eq_sign closing_same, run, placed_same⟩

/-- A body in braces is spelled by its rendering. -/
theorem RenderedStmts.body {span : Span} {stmts : List Stmt} (rendered : RenderedStmts stmts) :
    (Block.present span stmts).Rendered := by
  intro tokens same
  obtain ⟨opening, inside, closing, placed, rfl, opens, closes, run, placed_same⟩ :=
    rendered.braced same
  exact ⟨_, .braced opens closes run, by simp only [Block.bare, placed_same]⟩

/-- A statement with a line break behind it and a run are spelled by their rendering. -/
theorem RenderedStmts.cons {stmt : Stmt} {stmts : List Stmt} (first : stmt.Rendered)
    (others : RenderedStmts stmts) : RenderedStmts (stmt :: stmts) := by
  intro tokens same
  obtain ⟨front, rest, rfl, front_same, rest_same⟩ := List.map_eq_append_iff.1 same
  obtain ⟨newline, more, rfl, newline_same, more_same⟩ := List.map_eq_cons_iff.1 rest_same
  obtain ⟨dangling, placed, spelled, bare_same⟩ := first front front_same
  obtain ⟨rest, run, rest_bare⟩ := others more more_same
  have separator : Token.AllSeparators [newline] := by
    simp [Token.AllSeparators, Token.kind_of_symbol_eq_sign newline_same, Cursor.isSeparator]
  have nothing : Token.AllSeparators [] := fun _ member => absurd member List.not_mem_nil
  -- The line break behind the statement is taken as one before the others.
  exact ⟨placed :: rest, .cons nothing spelled (run.prepend separator),
    by simp only [bareStmts, bare_same, rest_bare]⟩

/-- A branch behind its word is spelled by its rendering, with what is further to it behind it. -/
theorem Block.Rendered.chain {word : TokenKind} {span : Span} {condition : Expr} {body : Block}
    {branches : List Branch} {otherwise : Block} (holds : Derives .either condition)
    (guarded : body.Rendered) (others : RenderedFurther branches otherwise) {tokens : List Token}
    (same : tokens.map Token.symbol = renderBranches word (.mk span condition body :: branches)
      ++ renderOtherwise otherwise) :
    ∃ opening front more branch dangling placed last stop,
      tokens = opening :: (front ++ more) ∧ opening.kind = word ∧
      SpellsBranch opening false front branch ∧
      SpellsFurther branch.span.stop dangling more placed last stop ∧
      bareBranches (branch :: placed) = bareBranches (.mk span condition body :: branches) ∧
      last.bare = otherwise.bare := by
  rw [renderBranches, List.cons_append, List.append_assoc] at same
  obtain ⟨opening, rest, rfl, opens, rest_same⟩ := List.map_eq_cons_iff.1 same
  obtain ⟨front, more, rfl, front_same, more_same⟩ := List.map_eq_append_iff.1 rest_same
  obtain ⟨test, inside, rfl, test_same, inside_same⟩ := List.map_eq_append_iff.1 front_same
  obtain ⟨tree, tree_spelled, tree_same⟩ := holds.spells test_same
  obtain ⟨block, block_spelled, block_same⟩ := guarded inside inside_same
  obtain ⟨dangling, placed, last, stop, further, branches_same, last_same⟩ :=
    others block.span.stop more more_same
  refine ⟨opening, test ++ inside, more, _, dangling, placed, last, stop, rfl,
    Token.kind_of_symbol_eq_sign opens, .mk tree_spelled block_spelled, further, ?_, last_same⟩
  simp only [bareBranches, tree_same, block_same, branches_same]

/-- A further branch is spelled by its rendering. -/
theorem RenderedFurther.cons {span : Span} {condition : Expr} {body : Block}
    {branches : List Branch} {otherwise : Block} (holds : Derives .either condition)
    (guarded : body.Rendered) (others : RenderedFurther branches otherwise) :
    RenderedFurther (.mk span condition body :: branches) otherwise := by
  intro start tokens same
  obtain ⟨word, front, more, branch, dangling, placed, last, stop, rfl, kind, first, further,
    branches_same, last_same⟩ := guarded.chain holds others same
  exact ⟨dangling, branch :: placed, last, stop,
    .elseif Token.allNewlines_nil kind first (by simp) further, branches_same, last_same⟩

/-- A last block is spelled by its rendering. -/
theorem RenderedStmts.otherwise {span : Span} {stmts : List Stmt}
    (rendered : RenderedStmts stmts) : RenderedFurther [] (.present span stmts) := by
  intro start tokens same
  obtain ⟨word, rest, rfl, opens, rest_same⟩ := List.map_eq_cons_iff.1 same
  obtain ⟨opening, inside, closing, placed, rfl, brace, closes, run, placed_same⟩ :=
    rendered.braced rest_same
  have final : Token.headKind (opening :: (inside ++ [closing])) ≠ .ifWord := by
    simp [Token.headKind_cons, brace]
  exact ⟨false, [], _, _, .otherwise Token.allNewlines_nil (Token.kind_of_symbol_eq_sign opens)
    final (.braced brace closes run), rfl, by simp only [Block.bare, placed_same]⟩

/-- Nothing further is spelled by no token. -/
theorem renderedFurther_absent : RenderedFurther [] .absent := by
  intro start tokens same
  obtain rfl := List.map_eq_nil_iff.1 same
  exact ⟨true, [], .absent, start, .none, rfl, rfl⟩

/-- A conditional is spelled by its rendering. -/
theorem Block.Rendered.conditional {span branch_span : Span} {condition : Expr} {body : Block}
    {branches : List Branch} {otherwise : Block} (holds : Derives .either condition)
    (guarded : body.Rendered) (others : RenderedFurther branches otherwise) :
    (Stmt.conditional span (.mk branch_span condition body :: branches) otherwise).Rendered := by
  intro tokens same
  obtain ⟨word, front, more, branch, dangling, placed, last, stop, rfl, kind, first, further,
    branches_same, last_same⟩ := guarded.chain holds others same
  refine ⟨dangling, _, .conditional kind first (by simp) further, ?_⟩
  simp only [Stmt.bare, branches_same, last_same]

/-- A loop is spelled by its rendering. -/
theorem Block.Rendered.loop {span : Span} {condition : Expr} {body : Block}
    (holds : Derives .either condition) (repeated : body.Rendered) :
    (Stmt.loop span condition body).Rendered := by
  intro tokens same
  obtain ⟨word, rest, rfl, kind, rest_same⟩ := List.map_eq_cons_iff.1 same
  obtain ⟨test, inside, rfl, test_same, inside_same⟩ := List.map_eq_append_iff.1 rest_same
  obtain ⟨tree, tree_spelled, tree_same⟩ := holds.spells test_same
  obtain ⟨block, block_spelled, block_same⟩ := repeated inside inside_same
  exact ⟨false, _, .loop (Token.kind_of_symbol_eq_sign kind) tree_spelled block_spelled,
    by simp only [Stmt.bare, tree_same, block_same]⟩

/-- An assignment is spelled by its rendering. -/
theorem rendered_assign {span : Span} {name : Bytes} {value : Expr}
    (right : Derives .either value) : (Stmt.assign span name value).Rendered := by
  intro tokens same
  obtain ⟨target, rest, rfl, target_same, rest_same⟩ := List.map_eq_cons_iff.1 same
  obtain ⟨sign, others, rfl, sign_same, others_same⟩ := List.map_eq_cons_iff.1 rest_same
  obtain ⟨tree, tree_spelled, tree_same⟩ := right.spells others_same
  obtain ⟨named, rfl⟩ := Token.of_symbol_eq_name target_same
  exact ⟨false, _, .assign named (Token.kind_of_symbol_eq_sign sign_same) tree_spelled,
    by simp only [Stmt.bare, tree_same]⟩

/-- A console statement is spelled by its rendering. -/
theorem rendered_console {span : Span} {value : Expr} (shown : Derives .either value) :
    (Stmt.console span value).Rendered := by
  intro tokens same
  obtain ⟨word, rest, rfl, word_same, rest_same⟩ := List.map_eq_cons_iff.1 same
  obtain ⟨tree, tree_spelled, tree_same⟩ := shown.spells rest_same
  exact ⟨false, _, .console (Token.kind_of_symbol_eq_sign word_same) tree_spelled,
    by simp only [Stmt.bare, tree_same]⟩

/-- A block is spelled by its rendering. -/
theorem RenderedStmts.block {span : Span} {stmts : List Stmt} (rendered : RenderedStmts stmts) :
    (Stmt.block span stmts).Rendered := by
  intro tokens same
  obtain ⟨opening, inside, closing, placed, rfl, opens, closes, run, placed_same⟩ :=
    rendered.braced same
  exact ⟨false, _, .block opens closes run, by simp only [Stmt.bare, placed_same]⟩

/-- No statement is spelled by no token. -/
theorem renderedStmts_nil : RenderedStmts [] := by
  intro tokens same
  obtain rfl := List.map_eq_nil_iff.1 same
  exact ⟨[], .done fun _ member => absurd member List.not_mem_nil, rfl⟩

mutual

/-- The rendering of a grammatical statement spells it. -/
theorem Stmt.rendered : (stmt : Stmt) → stmt.Grammatical → stmt.Rendered
  | .assign _ _ _, right => rendered_assign right
  | .console _ _, shown => rendered_console shown
  | .conditional _ [] _, ⟨some_branch, _⟩ => absurd rfl some_branch
  | .conditional _ (.mk _ _ body :: rest) otherwise,
      ⟨_, ⟨⟨holds, some_body, inside⟩, others⟩, last⟩ =>
    (body.rendered some_body inside).conditional holds
      (renderedFurther rest others (otherwise.renderedLast last))
  | .loop _ _ body, ⟨holds, some_body, inside⟩ => (body.rendered some_body inside).loop holds
  | .block _ stmts, inside => (spellsRun_of_rendering stmts inside).block

/-- The rendering of grammatical statements spells them. -/
theorem spellsRun_of_rendering : (stmts : List Stmt) → GrammaticalStmts stmts → RenderedStmts stmts
  | [], _ => renderedStmts_nil
  | stmt :: rest, ⟨first, others⟩ =>
    .cons (stmt.rendered first) (spellsRun_of_rendering rest others)

/-- The rendering of grammatical branches spells them, if that of the last block does. -/
theorem renderedFurther {otherwise : Block} : (branches : List Branch) →
    GrammaticalBranches branches → RenderedFurther [] otherwise → RenderedFurther branches otherwise
  | [], _, last => last
  | .mk _ _ body :: rest, ⟨⟨holds, some_body, inside⟩, others⟩, last =>
    .cons holds (body.rendered some_body inside) (renderedFurther rest others last)

/-- The rendering of a grammatical last block spells it. -/
theorem Block.renderedLast : (otherwise : Block) → otherwise.Grammatical →
    RenderedFurther [] otherwise
  | .absent, _ => renderedFurther_absent
  | .present _ stmts, inside => (spellsRun_of_rendering stmts inside).otherwise

/-- The rendering of a grammatical body spells it. -/
theorem Block.rendered : (body : Block) → body ≠ .absent → body.Grammatical → body.Rendered
  | .absent, some_body, _ => absurd rfl some_body
  | .present _ stmts, _, inside => (spellsRun_of_rendering stmts inside).body

end

/-! ## The reader and the grammar -/

/-- **Reading loses nothing and invents nothing.** If a list of tokens with the end of input as its
last token only is read without an error, the tokens before that are a spelling of exactly the
statements of the program. Conversely, the canonical rendering of grammatical statements is read as
them, up to places, without an error. -/
theorem read_spells_program :
    (∀ (tokens : List Token) (final : Token), Token.Ongoing tokens → final.kind = .endOfInput →
      Finding.anyError (Parsing.read (tokens ++ [final])).findings = false →
      SpellsRun tokens (Parsing.read (tokens ++ [final])).program.stmts) ∧
    (∀ (stmts : List Stmt), GrammaticalStmts stmts → ∀ (tokens : List Token) (final : Token),
      tokens.map Token.symbol = renderStmts stmts → final.kind = .endOfInput →
      Finding.anyError (Parsing.read (tokens ++ [final])).findings = false ∧
        bareStmts (Parsing.read (tokens ++ [final])).program.stmts = bareStmts stmts) := by
  constructor
  · intro tokens final ongoing final_kind clean
    exact Parsing.spells_of_read ongoing final_kind clean
  · intro stmts grammatical tokens final same final_kind
    obtain ⟨placed, run, bare_same⟩ := spellsRun_of_rendering stmts grammatical tokens same
    obtain ⟨clean, reads⟩ := run.read final_kind
    exact ⟨clean, by rw [reads, bare_same]⟩

/-- The tree of `if a { console b } else { c = a }`. -/
def sampleConditional : Stmt :=
  .conditional .unset
    [.mk .unset (.name .unset [0x61]) (.present .unset [.console .unset (.name .unset [0x62])])]
    (.present .unset [.assign .unset [0x63] (.name .unset [0x61])])

/-- Its canonical rendering. -/
def sampleTokens : List Token :=
  [.unplaced .ifWord [], .unplaced .name [0x61], .unplaced .leftBrace [],
    .unplaced .consoleWord [], .unplaced .name [0x62], .unplaced .newline [],
    .unplaced .rightBrace [], .unplaced .elseWord [], .unplaced .leftBrace [],
    .unplaced .name [0x63], .unplaced .assign [], .unplaced .name [0x61], .unplaced .newline [],
    .unplaced .rightBrace [], .unplaced .newline []]

/-- A conditional with a last block is read from its canonical rendering, and what is read is
spelled by it. -/
theorem read_spells_program_conditional :
    bareStmts (Parsing.read (sampleTokens ++ [Token.pastEnd])).program.stmts
        = bareStmts [sampleConditional] ∧
      SpellsRun sampleTokens (Parsing.read (sampleTokens ++ [Token.pastEnd])).program.stmts := by
  have name (word : Bytes) : Derives .either (.name .unset word) := .weaken (by decide) .name
  have grammatical : GrammaticalStmts [sampleConditional] :=
    ⟨⟨by simp, ⟨⟨name _, by simp, name _, trivial⟩, trivial⟩, name _, trivial⟩, trivial⟩
  obtain ⟨clean, same⟩ := read_spells_program.2 _ grammatical sampleTokens Token.pastEnd rfl rfl
  exact ⟨same, read_spells_program.1 _ _ (by decide) rfl clean⟩

end ConsoleScript
