import ConsoleScript.Proofs.ProgramReading

/-! # Spelling does not depend on places

Tokens with the same kinds and lexemes spell the same trees, wherever they stand, and spellings of
statements can be put one behind the other.

* **`Token.Alike`** — lists of tokens that differ in their places only;
* **`SpellsRun.respell`** — what is alike to a spelling spells the same tree, up to places, by
  recursion on the derivation;
* **`SpellsRun.append`** — two runs of statements make one. -/

namespace ConsoleScript

namespace Token

/-- The kind and the lexeme of a token. -/
def content (token : Token) : TokenKind × Bytes :=
  (token.kind, token.lexeme)

/-- Tokens that differ in their places only. -/
def Alike (others tokens : List Token) : Prop :=
  others.map content = tokens.map content

namespace Alike

theorem of_nil {others : List Token} (alike : Alike others []) : others = [] :=
  List.map_eq_nil_iff.1 alike

/-- What is alike to a token and a rest is such a token and such a rest. -/
theorem of_cons {others rest : List Token} {token : Token} (alike : Alike others (token :: rest)) :
    ∃ other more, others = other :: more ∧ other.kind = token.kind ∧ other.lexeme = token.lexeme ∧
      Alike more rest := by
  obtain ⟨other, more, rfl, same, tail⟩ := List.map_eq_cons_iff.1 alike
  exact ⟨other, more, rfl, congrArg Prod.fst same, congrArg Prod.snd same, tail⟩

/-- What is alike to nothing under a condition is nothing under that condition. -/
theorem nil_of {others tokens : List Token} (alike : Alike others tokens) {condition : Prop}
    (empty : condition → tokens = []) : condition → others = [] := by
  intro holds
  rw [empty holds] at alike
  exact alike.of_nil

/-- What is alike to two lists is two such lists. -/
theorem of_append {others front back : List Token} (alike : Alike others (front ++ back)) :
    ∃ one two, others = one ++ two ∧ Alike one front ∧ Alike two back := by
  rw [Alike, List.map_append] at alike
  exact List.map_eq_append_iff.1 alike

/-- What is alike to a single token is such a token. -/
theorem of_singleton {others : List Token} {token : Token} (alike : Alike others [token]) :
    ∃ other, others = [other] ∧ other.kind = token.kind ∧ other.lexeme = token.lexeme := by
  obtain ⟨other, more, rfl, kind, lexeme, tail⟩ := alike.of_cons
  exact ⟨other, by rw [tail.of_nil], kind, lexeme⟩

/-- A property of kinds holds of all tokens that are alike. -/
theorem forall_kind {others tokens : List Token} (alike : Alike others tokens)
    (holds : TokenKind → Prop) (all : ∀ token ∈ tokens, holds token.kind) :
    ∀ token ∈ others, holds token.kind := by
  intro other member
  have here : other.content ∈ tokens.map content := alike ▸ List.mem_map_of_mem member
  obtain ⟨token, there, same⟩ := List.mem_map.1 here
  have kind : token.kind = other.kind := congrArg Prod.fst same
  exact kind ▸ all token there

theorem allNewlines {others tokens : List Token} (alike : Alike others tokens)
    (layout : AllNewlines tokens) : AllNewlines others :=
  alike.forall_kind (· = .newline) layout

theorem allSeparators {others tokens : List Token} (alike : Alike others tokens)
    (separators : AllSeparators tokens) : AllSeparators others :=
  alike.forall_kind (Cursor.isSeparator · = true) separators

theorem headKind {others tokens : List Token} (alike : Alike others tokens) :
    Token.headKind others = Token.headKind tokens := by
  cases tokens with
  | nil => rw [alike.of_nil]
  | cons token rest =>
    obtain ⟨other, more, rfl, kind, -, -⟩ := alike.of_cons
    exact kind

end Alike

end Token

/-! ## Expressions -/

/-- What is alike to the spelling of an expression spells it, up to places. -/
theorem Spells.respell {stratum : Stratum} {tokens : List Token} {expr : Expr}
    (spelled : Spells stratum tokens expr) {others : List Token}
    (alike : Token.Alike others tokens) :
    ∃ placed, Spells stratum others placed ∧ placed.bare = expr.bare := by
  -- The tokens that are alike are taken apart as the rule takes the spelling apart.
  induction spelled generalizing others with
  | @number token kind accepted =>
    obtain ⟨other, rfl, same, lexeme⟩ := alike.of_singleton
    rw [← same] at kind
    rw [← lexeme] at accepted ⊢
    exact ⟨_, .number kind accepted, rfl⟩
  | text kind =>
    obtain ⟨other, rfl, same, lexeme⟩ := alike.of_singleton
    rw [← lexeme]
    exact ⟨_, .text (same.trans kind), rfl⟩
  | trueWord kind =>
    obtain ⟨other, rfl, same, -⟩ := alike.of_singleton
    exact ⟨_, .trueWord (same.trans kind), rfl⟩
  | falseWord kind =>
    obtain ⟨other, rfl, same, -⟩ := alike.of_singleton
    exact ⟨_, .falseWord (same.trans kind), rfl⟩
  | nil kind =>
    obtain ⟨other, rfl, same, -⟩ := alike.of_singleton
    exact ⟨_, .nil (same.trans kind), rfl⟩
  | name kind =>
    obtain ⟨other, rfl, same, lexeme⟩ := alike.of_singleton
    rw [← lexeme]
    exact ⟨_, .name (same.trans kind), rfl⟩
  | paren opens closes above below _ inner =>
    obtain ⟨opening, rest, rfl, opening_kind, -, rest_alike⟩ := alike.of_cons
    obtain ⟨before, tail, rfl, before_alike, tail_alike⟩ := rest_alike.of_append
    obtain ⟨inside, last, rfl, inside_alike, last_alike⟩ := tail_alike.of_append
    obtain ⟨behind, final, rfl, behind_alike, final_alike⟩ := last_alike.of_append
    obtain ⟨closing, rfl, closing_kind, -⟩ := final_alike.of_singleton
    obtain ⟨placed, spelled, same⟩ := inner inside_alike
    refine ⟨_, .paren (opening_kind.trans opens) (closing_kind.trans closes)
      (before_alike.allNewlines above) (behind_alike.allNewlines below) spelled, ?_⟩
    simp only [Expr.bare, same]
  | power kind layout _ _ left right =>
    obtain ⟨front, rest, rfl, front_alike, rest_alike⟩ := alike.of_append
    obtain ⟨sign, tail, rfl, sign_kind, -, tail_alike⟩ := rest_alike.of_cons
    obtain ⟨gap, back, rfl, gap_alike, back_alike⟩ := tail_alike.of_append
    obtain ⟨base, base_spelled, base_same⟩ := left front_alike
    obtain ⟨exponent, exponent_spelled, exponent_same⟩ := right back_alike
    refine ⟨_, .power (sign_kind.trans kind) (gap_alike.allNewlines layout) base_spelled
      exponent_spelled, ?_⟩
    simp only [Expr.bare, base_same, exponent_same]
  | unary kind _ operand =>
    obtain ⟨sign, rest, rfl, sign_kind, -, rest_alike⟩ := alike.of_cons
    obtain ⟨placed, spelled, same⟩ := operand rest_alike
    rw [← sign_kind] at kind
    refine ⟨_, .unary kind spelled, ?_⟩
    simp only [Expr.bare, same, sign_kind]
  | chain member layout _ _ first second =>
    obtain ⟨front, rest, rfl, front_alike, rest_alike⟩ := alike.of_append
    obtain ⟨sign, tail, rfl, sign_kind, -, tail_alike⟩ := rest_alike.of_cons
    obtain ⟨gap, back, rfl, gap_alike, back_alike⟩ := tail_alike.of_append
    obtain ⟨left, left_spelled, left_same⟩ := first front_alike
    obtain ⟨right, right_spelled, right_same⟩ := second back_alike
    rw [← sign_kind] at member
    refine ⟨_, .chain member (gap_alike.allNewlines layout) left_spelled right_spelled, ?_⟩
    simp only [Expr.bare, left_same, right_same, sign_kind]
  | weaken le _ inner =>
    obtain ⟨placed, spelled, same⟩ := inner alike
    exact ⟨placed, .weaken le spelled, same⟩

/-! ## Statements -/

/-- Branches are the same up to places if the first one and the others are. -/
theorem bareBranches_cons_congr {branch other : Branch} {branches others : List Branch}
    (first : bareBranches [branch] = bareBranches [other])
    (rest : bareBranches branches = bareBranches others) :
    bareBranches (branch :: branches) = bareBranches (other :: others) := by
  obtain ⟨_, _, _⟩ := branch
  obtain ⟨_, _, _⟩ := other
  simp only [bareBranches] at first ⊢
  rw [(List.cons.inj first).1, rest]

mutual

/-- What is alike to the spelling of a statement spells it, up to places. -/
theorem SpellsStmt.respell {dangling : Bool} {tokens : List Token} {stmt : Stmt} :
    SpellsStmt dangling tokens stmt → ∀ others, Token.Alike others tokens →
      ∃ placed, SpellsStmt dangling others placed ∧ placed.bare = stmt.bare
  | .assign named assigns right, others, alike => by
    obtain ⟨target, rest, rfl, target_kind, lexeme, rest_alike⟩ := alike.of_cons
    obtain ⟨sign, tail, rfl, sign_kind, -, tail_alike⟩ := rest_alike.of_cons
    obtain ⟨value, spelled, same⟩ := right.respell tail_alike
    refine ⟨_, .assign (target_kind.trans named) (sign_kind.trans assigns) spelled, ?_⟩
    simp only [Stmt.bare, same, lexeme]
  | .console kind shown, others, alike => by
    obtain ⟨word, rest, rfl, word_kind, -, rest_alike⟩ := alike.of_cons
    obtain ⟨value, spelled, same⟩ := shown.respell rest_alike
    refine ⟨_, .console (word_kind.trans kind) spelled, ?_⟩
    simp only [Stmt.bare, same]
  | .conditional kind first nearest further, others, alike => by
    obtain ⟨word, rest, rfl, word_kind, -, rest_alike⟩ := alike.of_cons
    obtain ⟨front, more, rfl, front_alike, more_alike⟩ := rest_alike.of_append
    obtain ⟨branch, branch_spelled, branch_same⟩ := first.respell word front front_alike
    obtain ⟨branches, last, stop, further_spelled, branches_same, last_same⟩ :=
      further.respell branch.span.stop more more_alike
    refine ⟨_, .conditional (word_kind.trans kind) branch_spelled (more_alike.nil_of nearest)
      further_spelled, ?_⟩
    simp only [Stmt.bare, bareBranches_cons_congr branch_same branches_same, last_same]
  | .loop kind holds repeated, others, alike => by
    obtain ⟨word, rest, rfl, word_kind, -, rest_alike⟩ := alike.of_cons
    obtain ⟨test, inside, rfl, test_alike, inside_alike⟩ := rest_alike.of_append
    obtain ⟨condition, spelled, same⟩ := holds.respell test_alike
    obtain ⟨body, body_spelled, body_same⟩ := repeated.respell inside inside_alike
    refine ⟨_, .loop (word_kind.trans kind) spelled body_spelled, ?_⟩
    simp only [Stmt.bare, same, body_same]
  | .block opens closes run, others, alike => by
    obtain ⟨opening, rest, rfl, opening_kind, -, rest_alike⟩ := alike.of_cons
    obtain ⟨inside, last, rfl, inside_alike, last_alike⟩ := rest_alike.of_append
    obtain ⟨closing, rfl, closing_kind, -⟩ := last_alike.of_singleton
    obtain ⟨stmts, spelled, same⟩ := run.respell inside inside_alike
    refine ⟨_, .block (opening_kind.trans opens) (closing_kind.trans closes) spelled, ?_⟩
    simp only [Stmt.bare, same]

/-- What is alike to the spelling of a branch spells it behind any word, up to places. -/
theorem SpellsBranch.respell {word : Token} {dangling : Bool} {tokens : List Token}
    {branch : Branch} : SpellsBranch word dangling tokens branch →
      ∀ (other : Token) (others : List Token), Token.Alike others tokens →
      ∃ placed, SpellsBranch other dangling others placed ∧
        bareBranches [placed] = bareBranches [branch]
  | .mk holds guarded, other, others, alike => by
    obtain ⟨test, inside, rfl, test_alike, inside_alike⟩ := alike.of_append
    obtain ⟨condition, spelled, same⟩ := holds.respell test_alike
    obtain ⟨body, body_spelled, body_same⟩ := guarded.respell inside inside_alike
    refine ⟨_, .mk spelled body_spelled, ?_⟩
    simp only [bareBranches, same, body_same]

/-- What is alike to the spelling of what is further to a conditional spells that behind any place,
up to places. -/
theorem SpellsFurther.respell {start stop : Position} {dangling : Bool} {tokens : List Token}
    {branches : List Branch} {otherwise : Block} :
    SpellsFurther start dangling tokens branches otherwise stop →
      ∀ (place : Position) (others : List Token), Token.Alike others tokens →
      ∃ placed last final, SpellsFurther place dangling others placed last final ∧
        bareBranches placed = bareBranches branches ∧ last.bare = otherwise.bare
  | .none, place, others, alike => by
    rw [alike.of_nil]
    exact ⟨[], .absent, place, .none, rfl, rfl⟩
  | .elseif layout kind first nearest further, place, others, alike => by
    obtain ⟨gap, rest, rfl, gap_alike, rest_alike⟩ := alike.of_append
    obtain ⟨word, tail, rfl, word_kind, -, tail_alike⟩ := rest_alike.of_cons
    obtain ⟨front, more, rfl, front_alike, more_alike⟩ := tail_alike.of_append
    obtain ⟨branch, branch_spelled, branch_same⟩ := first.respell word front front_alike
    obtain ⟨branches, last, final, further_spelled, branches_same, last_same⟩ :=
      further.respell branch.span.stop more more_alike
    exact ⟨_, last, final, .elseif (gap_alike.allNewlines layout) (word_kind.trans kind)
      branch_spelled (more_alike.nil_of nearest) further_spelled,
      bareBranches_cons_congr branch_same branches_same, last_same⟩
  | .elseIf layout else_kind if_kind first nearest further, place, others, alike => by
    obtain ⟨gap, rest, rfl, gap_alike, rest_alike⟩ := alike.of_append
    obtain ⟨other, behind, rfl, other_kind, -, behind_alike⟩ := rest_alike.of_cons
    obtain ⟨word, tail, rfl, word_kind, -, tail_alike⟩ := behind_alike.of_cons
    obtain ⟨front, more, rfl, front_alike, more_alike⟩ := tail_alike.of_append
    obtain ⟨branch, branch_spelled, branch_same⟩ := first.respell word front front_alike
    obtain ⟨branches, last, final, further_spelled, branches_same, last_same⟩ :=
      further.respell branch.span.stop more more_alike
    exact ⟨_, last, final, .elseIf (gap_alike.allNewlines layout) (other_kind.trans else_kind)
      (word_kind.trans if_kind) branch_spelled (more_alike.nil_of nearest) further_spelled,
      bareBranches_cons_congr branch_same branches_same, last_same⟩
  | .otherwise layout kind final run, place, others, alike => by
    obtain ⟨gap, rest, rfl, gap_alike, rest_alike⟩ := alike.of_append
    obtain ⟨word, inside, rfl, word_kind, -, inside_alike⟩ := rest_alike.of_cons
    obtain ⟨body, body_spelled, body_same⟩ := run.respell inside inside_alike
    rw [← inside_alike.headKind] at final
    exact ⟨[], body, _, .otherwise (gap_alike.allNewlines layout) (word_kind.trans kind) final
      body_spelled, rfl, body_same⟩

/-- What is alike to the spelling of a body spells it, up to places. -/
theorem SpellsBody.respell {dangling : Bool} {tokens : List Token} {body : Block} :
    SpellsBody dangling tokens body → ∀ others, Token.Alike others tokens →
      ∃ placed, SpellsBody dangling others placed ∧ placed.bare = body.bare
  | .braced opens closes run, others, alike => by
    obtain ⟨opening, rest, rfl, opening_kind, -, rest_alike⟩ := alike.of_cons
    obtain ⟨inside, last, rfl, inside_alike, last_alike⟩ := rest_alike.of_append
    obtain ⟨closing, rfl, closing_kind, -⟩ := last_alike.of_singleton
    obtain ⟨stmts, spelled, same⟩ := run.respell inside inside_alike
    refine ⟨_, .braced (opening_kind.trans opens) (closing_kind.trans closes) spelled, ?_⟩
    simp only [Block.bare, same]
  | .single unbraced only, others, alike => by
    obtain ⟨placed, spelled, same⟩ := only.respell others alike
    rw [← alike.headKind] at unbraced
    refine ⟨_, .single unbraced spelled, ?_⟩
    simp only [Block.bare, bareStmts, same]

/-- What is alike to the spelling of statements spells them, up to places. -/
theorem SpellsRun.respell {tokens : List Token} {stmts : List Stmt} :
    SpellsRun tokens stmts → ∀ others, Token.Alike others tokens →
      ∃ placed, SpellsRun others placed ∧ bareStmts placed = bareStmts stmts
  | .done separators, others, alike => ⟨[], .done (alike.allSeparators separators), rfl⟩
  | .cons separators first run, others, alike => by
    obtain ⟨gap, rest, rfl, gap_alike, rest_alike⟩ := alike.of_append
    obtain ⟨front, more, rfl, front_alike, more_alike⟩ := rest_alike.of_append
    obtain ⟨placed, spelled, same⟩ := first.respell front front_alike
    obtain ⟨others, others_spelled, others_same⟩ := run.respell more more_alike
    refine ⟨placed :: others, .cons (gap_alike.allSeparators separators) spelled others_spelled, ?_⟩
    simp only [bareStmts, same, others_same]

end

/-! ## Runs one behind the other -/

/-- Two runs of statements make one. -/
theorem SpellsRun.append {front back : List Token} {stmts more : List Stmt}
    (first : SpellsRun front stmts) (second : SpellsRun back more) :
    SpellsRun (front ++ back) (stmts ++ more) := by
  -- By the statements of the first run; what separates the two runs goes to the second.
  induction stmts generalizing front with
  | nil =>
    cases first with
    | done separators => exact second.prepend separators
  | cons stmt stmts ih =>
    cases first with
    | cons separators spelled others =>
      rw [List.append_assoc, List.append_assoc]
      exact .cons separators spelled (ih others)

end ConsoleScript
