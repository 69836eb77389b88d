import ConsoleScript.Proofs.SourcePositions

/-! # The places of a tree

In a program that is accepted, every part of the tree stands where its tokens stand.

* **`TreePart`** — statements, branches, blocks and expressions, with their children in source
  order; `Program.Has` finds all of them in a program;
* **`Span.Covers`** — a place reaches from the beginning of the first token of a list to the end of
  the last. `TreePart.SpelledBy.covers` finds this for the tokens that spell a part, rule by rule of
  the grammar;
* **`SpelledInOrder`** — parts are spelled one behind the other within a list of tokens.
  `TreePart.SpelledBy.children` is the step from a part to its children, and
  `Program.Has.exists_spelledBy` goes from the program down to any of its parts;
* **`Span.Holds`** — what follows for places, since tokens stand in order: children stand within
  their parent, one behind the other. -/

namespace ConsoleScript

/-! ## Parts of a program -/

/-- A part of a program with a place of its own. -/
inductive TreePart where
  /-- A statement. -/
  | stmt (stmt : Stmt)
  /-- A branch of a conditional. -/
  | branch (branch : Branch)
  /-- The body of a branch or loop, or the last block of a conditional. -/
  | block (block : Block)
  /-- An expression. -/
  | expr (expr : Expr)

namespace TreePart

/-- The place of a part. -/
def span : TreePart → Span
  | .stmt node => node.span
  | .branch node => node.span
  | .block node => node.span
  | .expr node => node.span

/-- The part that a block is; an absent one is none. -/
def ofBlock : Block → List TreePart
  | .absent => []
  | .present span stmts => [.block (.present span stmts)]

/-- The parts directly below a part, in source order. -/
def children : TreePart → List TreePart
  | .stmt (.assign _ _ value) | .stmt (.console _ value) => [.expr value]
  | .stmt (.conditional _ branches otherwise) => branches.map .branch ++ ofBlock otherwise
  | .stmt (.loop _ condition body) | .branch (.mk _ condition body) =>
    .expr condition :: ofBlock body
  | .stmt (.block _ stmts) | .block (.present _ stmts) => stmts.map .stmt
  | .expr (.unary _ _ operand) => [.expr operand]
  | .expr (.binary _ _ left right) => [.expr left, .expr right]
  | .expr (.paren _ inner) => [.expr inner]
  | .block .absent | .expr _ => []

/-- Which tokens a part is built from. Those of a branch start with the word that opens it: for
`else if` this is the second word. -/
def SpelledBy (tokens : List Token) : TreePart → Prop
  | .stmt node => ∃ dangling, SpellsStmt dangling tokens node
  | .branch node => ∃ word rest dangling, tokens = word :: rest ∧
      (word.kind = .ifWord ∨ word.kind = .elseifWord) ∧ SpellsBranch word dangling rest node
  | .block node => ∃ dangling, SpellsBody dangling tokens node
  | .expr node => ∃ stratum, Spells stratum tokens node

end TreePart

/-- The parts of a program: its statements, and what is below them. -/
inductive Program.Has (program : Program) : TreePart → Prop where
  /-- A statement of the program itself. -/
  | stmt {stmt : Stmt} (member : stmt ∈ program.stmts) : Has program (.stmt stmt)
  /-- A child of one of its parts. -/
  | child {parent part : TreePart} (has : Has program parent) (member : part ∈ parent.children) :
      Has program part

/-! ## From the first token to the last -/

/-- A place that reaches from the beginning of the first of some tokens to the end of the last. -/
structure Span.Covers (span : Span) (tokens : List Token) : Prop where
  /-- It begins with the first token. -/
  start : tokens.head?.map (·.span.start) = some span.start
  /-- It ends with the last token. -/
  stop : tokens.getLast?.map (·.span.stop) = some span.stop

namespace Span.Covers

variable {span first second : Span} {tokens front back : List Token}

/-- A token covers itself. -/
theorem token (token : Token) : token.span.Covers [token] :=
  ⟨rfl, rfl⟩

/-- From the beginning of one place to the end of another, whatever stands between them. -/
theorem join (one : first.Covers front) (two : second.Covers back) (gap : List Token) :
    (Span.mk first.start second.stop).Covers (front ++ (gap ++ back)) := by
  obtain ⟨token, head, start⟩ := Option.map_eq_some_iff.1 one.start
  obtain ⟨last, final, stop⟩ := Option.map_eq_some_iff.1 two.stop
  constructor
  · rw [List.head?_append, head, ← start]
    rfl
  · rw [List.getLast?_append, List.getLast?_append, final, ← stop]
    rfl

/-- A place that covers tokens begins where one of them begins. -/
theorem exists_start (covers : span.Covers tokens) :
    ∃ token ∈ tokens, token.span.start = span.start := by
  obtain ⟨token, head, start⟩ := Option.map_eq_some_iff.1 covers.start
  exact ⟨token, List.mem_of_head? head, start⟩

/-- A place that covers tokens ends where one of them ends. -/
theorem exists_stop (covers : span.Covers tokens) :
    ∃ token ∈ tokens, token.span.stop = span.stop := by
  obtain ⟨token, last, stop⟩ := Option.map_eq_some_iff.1 covers.stop
  exact ⟨token, List.mem_of_getLast? last, stop⟩

end Span.Covers

/-- A branch begins with the word that opens it. -/
theorem SpellsBranch.start_eq {word : Token} {dangling : Bool} {tokens : List Token}
    {branch : Branch} (spelled : SpellsBranch word dangling tokens branch) :
    branch.span.start = word.span.start := by
  cases spelled with
  | mk => rfl

open Span.Covers in
/-- An expression covers the tokens that spell it. -/
theorem Spells.covers {stratum : Stratum} {tokens : List Token} {expr : Expr}
    (spelled : Spells stratum tokens expr) : expr.span.Covers tokens := by
  induction spelled with
  | number | text | trueWord | falseWord | nil | name => exact token _
  | @paren opening closing before inside behind =>
    have whole := join (token opening) (token closing) (before ++ (inside ++ behind))
    rw [List.append_assoc, List.append_assoc] at whole
    exact whole
  | @power sign front gap back _ _ _ _ _ _ left right
  | @chain _ sign front gap back _ _ _ _ _ _ left right => exact join left right (sign :: gap)
  | @unary sign _ _ _ _ operand => exact join (token sign) operand []
  | weaken _ _ inner => exact inner

open Span.Covers in
mutual

/-- A statement covers the tokens that spell it. -/
theorem SpellsStmt.covers {dangling : Bool} {tokens : List Token} {stmt : Stmt} :
    SpellsStmt dangling tokens stmt → stmt.span.Covers tokens
  | @SpellsStmt.assign target sign _ _ _ _ right => join (token target) right.covers [sign]
  | @SpellsStmt.console word _ _ _ shown => join (token word) shown.covers []
  | .conditional _ first _ others => by
    have whole := others.covers first.covers rfl
    rw [first.start_eq] at whole
    exact whole
  | @SpellsStmt.loop word test _ _ _ _ _ _ repeated => join (token word) repeated.covers test
  | @SpellsStmt.block opening closing inside _ _ _ _ => join (token opening) (token closing) inside

/-- A branch covers the word that opens it and the tokens that spell it. -/
theorem SpellsBranch.covers {word : Token} {dangling : Bool} {tokens : List Token}
    {branch : Branch} :
    SpellsBranch word dangling tokens branch → branch.span.Covers (word :: tokens)
  | @SpellsBranch.mk _ test _ _ _ _ _ guarded => join (token word) guarded.covers test

/-- With what is further to a conditional, the place of what stands before it reaches to the end. -/
theorem SpellsFurther.covers {last stop : Position} {dangling : Bool} {tokens front : List Token}
    {branches : List Branch} {otherwise : Block} {span : Span} :
    SpellsFurther last dangling tokens branches otherwise stop → span.Covers front →
      span.stop = last → (Span.mk span.start stop).Covers (front ++ tokens)
  | .none, before, same => by
    rw [List.append_nil, ← same]
    exact before
  | @SpellsFurther.elseif _ _ _ gap _ _ _ _ _ _ _ _ _ first _ others, before, _ => by
    have whole := others.covers (join before first.covers gap) rfl
    rw [List.append_assoc, List.append_assoc] at whole
    exact whole
  | @SpellsFurther.elseIf _ _ other _ gap _ _ _ _ _ _ _ _ _ _ first _ others, before, _ => by
    have whole := others.covers (join before first.covers (gap ++ [other])) rfl
    rw [List.append_assoc, List.append_assoc, List.append_assoc] at whole
    exact whole
  | @SpellsFurther.otherwise _ word gap _ _ _ _ _ _ run, before, _ => by
    have whole := join before run.covers (gap ++ [word])
    rw [List.append_assoc] at whole
    exact whole

/-- A body covers the tokens that spell it. -/
theorem SpellsBody.covers {dangling : Bool} {tokens : List Token} {body : Block} :
    SpellsBody dangling tokens body → body.span.Covers tokens
  | @SpellsBody.braced opening closing inside _ _ _ _ => join (token opening) (token closing) inside
  | .single _ only => only.covers

end

/-- A part covers the tokens that it is built from. -/
theorem TreePart.SpelledBy.covers {part : TreePart} {tokens : List Token}
    (spelled : part.SpelledBy tokens) : part.span.Covers tokens := by
  cases part with
  | stmt node =>
    obtain ⟨dangling, spelled⟩ := spelled
    exact spelled.covers
  | branch node =>
    obtain ⟨word, rest, dangling, rfl, -, spelled⟩ := spelled
    exact spelled.covers
  | block node =>
    obtain ⟨dangling, spelled⟩ := spelled
    exact spelled.covers
  | expr node =>
    obtain ⟨stratum, spelled⟩ := spelled
    exact spelled.covers

/-! ## Parts below parts -/

/-- Parts that are built from tokens of a list, one behind the other. -/
inductive SpelledInOrder : List Token → List TreePart → Prop where
  /-- No part. -/
  | done {tokens : List Token} : SpelledInOrder tokens []
  /-- A part behind a gap, and parts behind it. -/
  | cons {gap own rest : List Token} {part : TreePart} {parts : List TreePart}
      (first : part.SpelledBy own) (others : SpelledInOrder rest parts) :
      SpelledInOrder (gap ++ (own ++ rest)) (part :: parts)

namespace SpelledInOrder

variable {tokens front back : List Token} {parts more : List TreePart} {part : TreePart}

/-- The same parts with more tokens before them. -/
theorem prepend (gap : List Token) (spelled : SpelledInOrder tokens parts) :
    SpelledInOrder (gap ++ tokens) parts := by
  cases spelled with
  | done => exact .done
  | cons first others =>
    rw [← List.append_assoc]
    exact .cons first others

/-- Parts and parts behind them. -/
theorem append (one : SpelledInOrder front parts) (two : SpelledInOrder back more) :
    SpelledInOrder (front ++ back) (parts ++ more) := by
  induction one with
  | done => exact two.prepend _
  | cons first others ih =>
    rw [List.append_assoc, List.append_assoc]
    exact .cons first ih

/-- The same parts with more tokens before and behind them. -/
theorem within (before behind : List Token) (spelled : SpelledInOrder tokens parts) :
    SpelledInOrder (before ++ (tokens ++ behind)) parts := by
  have whole : SpelledInOrder (tokens ++ behind) (parts ++ []) := spelled.append .done
  rw [List.append_nil] at whole
  exact whole.prepend before

/-- A part within the tokens that it is built from. -/
theorem single (spelled : part.SpelledBy tokens) : SpelledInOrder tokens [part] := by
  have whole : SpelledInOrder ([] ++ (tokens ++ [])) [part] := .cons spelled .done
  rwa [List.append_nil] at whole

/-- Every one of the parts is built from tokens that stand together. -/
theorem exists_of_mem (spelled : SpelledInOrder tokens parts) (member : part ∈ parts) :
    ∃ before own behind, tokens = before ++ (own ++ behind) ∧ part.SpelledBy own := by
  induction spelled with
  | done => cases member
  | @cons gap first_own rest _ _ first others ih =>
    rcases List.mem_cons.1 member with rfl | later
    · exact ⟨gap, first_own, rest, rfl, first⟩
    · obtain ⟨before, own, behind, rfl, spelled⟩ := ih later
      exact ⟨gap ++ (first_own ++ before), own, behind, by simp only [List.append_assoc], spelled⟩

end SpelledInOrder

/-- An expression within the tokens that spell it. -/
theorem Spells.inOrder {stratum : Stratum} {tokens : List Token} {expr : Expr}
    (spelled : Spells stratum tokens expr) : SpelledInOrder tokens [.expr expr] :=
  have whole : (TreePart.expr expr).SpelledBy tokens := ⟨stratum, spelled⟩
  .single whole

/-- A body within the tokens that spell it. -/
theorem SpellsBody.inOrder {dangling : Bool} {tokens : List Token} {body : Block}
    (spelled : SpellsBody dangling tokens body) :
    SpelledInOrder tokens (TreePart.ofBlock body) := by
  have whole : (TreePart.block body).SpelledBy tokens := ⟨dangling, spelled⟩
  cases spelled with
  | braced | single => exact .single whole

/-- A branch within the word that opens it and the tokens that spell it. -/
theorem SpellsBranch.inOrder {word : Token} {dangling : Bool} {tokens : List Token}
    {branch : Branch} (spelled : SpellsBranch word dangling tokens branch)
    (opens : word.kind = .ifWord ∨ word.kind = .elseifWord) :
    SpelledInOrder (word :: tokens) [.branch branch] :=
  have whole : (TreePart.branch branch).SpelledBy (word :: tokens) :=
    ⟨word, tokens, dangling, rfl, opens, spelled⟩
  .single whole

/-- Statements within the tokens that spell them. -/
theorem SpellsRun.inOrder {tokens : List Token} {stmts : List Stmt}
    (spelled : SpellsRun tokens stmts) : SpelledInOrder tokens (stmts.map .stmt) := by
  induction stmts generalizing tokens with
  | nil => exact .done
  | cons stmt stmts ih =>
    cases spelled with
    | @cons _ own _ _ _ dangling _ first others =>
      have here : (TreePart.stmt stmt).SpelledBy own := ⟨dangling, first⟩
      exact .cons here (ih others)

/-- Further branches and the last block of a conditional within the tokens that spell them. -/
theorem SpellsFurther.inOrder {last stop : Position} {dangling : Bool} {tokens : List Token}
    {branches : List Branch} {otherwise : Block}
    (spelled : SpellsFurther last dangling tokens branches otherwise stop) :
    SpelledInOrder tokens (branches.map .branch ++ TreePart.ofBlock otherwise) := by
  induction branches generalizing last dangling tokens with
  | nil =>
    cases spelled with
    | none => exact .done
    | @otherwise _ word gap _ _ _ _ _ _ run =>
      have behind := run.inOrder.prepend (gap ++ [word])
      rw [List.append_assoc] at behind
      exact behind
  | cons branch branches ih =>
    cases spelled with
    | @elseif _ _ _ gap _ _ _ _ _ _ _ _ kind first _ others =>
      exact ((first.inOrder (.inr kind)).append (ih others)).prepend gap
    | @elseIf _ _ other _ gap _ _ _ _ _ _ _ _ _ if_kind first _ others =>
      have behind := ((first.inOrder (.inl if_kind)).append (ih others)).prepend (gap ++ [other])
      rw [List.append_assoc] at behind
      exact behind

/-- The operands of an expression are spelled in order. -/
theorem Spells.children {stratum : Stratum} {tokens : List Token} {expr : Expr}
    (spelled : Spells stratum tokens expr) :
    SpelledInOrder tokens (TreePart.expr expr).children := by
  induction spelled with
  | number | text | trueWord | falseWord | nil | name => exact .done
  | @paren opening closing before _ behind _ _ _ _ _ inner =>
    exact inner.inOrder.within (opening :: before) (behind ++ [closing])
  | @power sign _ gap _ _ _ _ _ left right | @chain _ sign _ gap _ _ _ _ _ left right =>
    exact left.inOrder.append (right.inOrder.prepend (sign :: gap))
  | @unary sign _ _ _ operand => exact operand.inOrder.prepend [sign]
  | weaken _ _ inner => exact inner

/-- The parts directly below a statement are spelled in order. -/
theorem SpellsStmt.children {dangling : Bool} {tokens : List Token} {stmt : Stmt}
    (spelled : SpellsStmt dangling tokens stmt) :
    SpelledInOrder tokens (TreePart.stmt stmt).children := by
  cases spelled with
  | @assign target sign _ _ _ _ right => exact right.inOrder.prepend [target, sign]
  | @console word _ _ _ shown => exact shown.inOrder.prepend [word]
  | conditional kind first _ others =>
    exact (first.inOrder (.inl kind)).append others.inOrder
  | @loop word _ _ _ _ _ _ holds repeated =>
    exact (holds.inOrder.append repeated.inOrder).prepend [word]
  | @block opening closing _ _ _ _ run => exact run.inOrder.within [opening] [closing]

/-- The parts directly below a part are built from tokens of the part, one behind the other. -/
theorem TreePart.SpelledBy.children {part : TreePart} {tokens : List Token}
    (spelled : part.SpelledBy tokens) : SpelledInOrder tokens part.children := by
  cases part with
  | stmt node =>
    obtain ⟨dangling, spelled⟩ := spelled
    exact spelled.children
  | branch node =>
    obtain ⟨word, rest, dangling, rfl, -, spelled⟩ := spelled
    cases spelled with
    | mk holds guarded => exact (holds.inOrder.append guarded.inOrder).prepend [word]
  | block node =>
    obtain ⟨dangling, spelled⟩ := spelled
    cases spelled with
    | @braced opening closing _ _ _ _ run => exact run.inOrder.within [opening] [closing]
    | @single _ stmt _ _ only =>
      have whole : (TreePart.stmt stmt).SpelledBy tokens := ⟨dangling, only⟩
      exact .single whole
  | expr node =>
    obtain ⟨stratum, spelled⟩ := spelled
    exact spelled.children

/-- Every part of a program is built from tokens that stand together. -/
theorem Program.Has.exists_spelledBy {program : Program} {part : TreePart} {tokens : List Token}
    (spelled : SpellsRun tokens program.stmts) (has : program.Has part) :
    ∃ before own behind, tokens = before ++ (own ++ behind) ∧ part.SpelledBy own := by
  -- Down from the program: the tokens of a child are among those of its parent.
  induction has with
  | stmt member => exact spelled.inOrder.exists_of_mem (List.mem_map_of_mem member)
  | child _ member ih =>
    obtain ⟨before, _, behind, rfl, parent⟩ := ih
    obtain ⟨inner, own, rest, rfl, child⟩ := parent.children.exists_of_mem member
    exact ⟨before ++ inner, own, rest ++ behind, by simp only [List.append_assoc], child⟩

/-! ## Places of children -/

/-- Tokens that stand one behind the other. -/
structure Token.InOrder (tokens : List Token) : Prop where
  /-- None of them ends before it begins. -/
  le : ∀ token ∈ tokens, token.span.start.offset ≤ token.span.stop.offset
  /-- None of them begins before an earlier one ends. -/
  ordered : tokens.Pairwise fun first second => first.span.stop.offset ≤ second.span.start.offset

theorem Token.InOrder.sublist {tokens few : List Token} (order : InOrder tokens)
    (among : few.Sublist tokens) : InOrder few :=
  ⟨fun token member => order.le token (among.subset member), order.ordered.sublist among⟩

/-- A place that holds parts: they stand within it, one behind the other. -/
structure Span.Holds (span : Span) (parts : List TreePart) : Prop where
  /-- None of them reaches out of it. -/
  inside : ∀ part ∈ parts,
    span.start.offset ≤ part.span.start.offset ∧ part.span.stop.offset ≤ span.stop.offset
  /-- None of them begins before an earlier one ends. -/
  ordered : parts.Pairwise fun first second => first.span.stop.offset ≤ second.span.start.offset

namespace Span.Covers

variable {span : Span} {tokens : List Token} {token : Token}

/-- What covers tokens in order begins not behind any of them. -/
theorem start_le (covers : span.Covers tokens) (order : Token.InOrder tokens)
    (member : token ∈ tokens) : span.start.offset ≤ token.span.start.offset := by
  obtain ⟨first, head, start⟩ := Option.map_eq_some_iff.1 covers.start
  obtain ⟨rest, rfl⟩ := List.head?_eq_some_iff.1 head
  rw [← start]
  rcases List.mem_cons.1 member with rfl | later
  · exact Int.le_refl _
  · have here := order.le first List.mem_cons_self
    have next := (List.pairwise_cons.1 order.ordered).1 token later
    omega

/-- What covers tokens in order ends not before any of them. -/
theorem le_stop (covers : span.Covers tokens) (order : Token.InOrder tokens)
    (member : token ∈ tokens) : token.span.stop.offset ≤ span.stop.offset := by
  obtain ⟨last, final, stop⟩ := Option.map_eq_some_iff.1 covers.stop
  obtain ⟨front, rfl⟩ := List.getLast?_eq_some_iff.1 final
  rw [← stop]
  rcases List.mem_append.1 member with earlier | here
  · have next := (List.pairwise_append.1 order.ordered).2.2 token earlier last List.mem_cons_self
    have forward := order.le last (List.mem_append_right _ List.mem_cons_self)
    omega
  · rw [List.mem_singleton.1 here]

/-- What covers tokens in order is not empty if they are not. -/
theorem start_lt_stop (covers : span.Covers tokens) (order : Token.InOrder tokens)
    (not_empty : ∀ token ∈ tokens, token.span.start.offset < token.span.stop.offset) :
    span.start.offset < span.stop.offset := by
  obtain ⟨first, member, start⟩ := covers.exists_start
  have less := not_empty first member
  have le := covers.le_stop order member
  rw [← start]
  omega

end Span.Covers

namespace SpelledInOrder

variable {tokens : List Token} {parts : List TreePart} {part : TreePart}

/-- Parts begin and end with tokens of the list. -/
theorem exists_tokens (spelled : SpelledInOrder tokens parts) (member : part ∈ parts) :
    (∃ token ∈ tokens, token.span.start = part.span.start) ∧
      ∃ token ∈ tokens, token.span.stop = part.span.stop := by
  obtain ⟨before, own, behind, rfl, built⟩ := spelled.exists_of_mem member
  obtain ⟨first, first_in, start⟩ := built.covers.exists_start
  obtain ⟨last, last_in, stop⟩ := built.covers.exists_stop
  exact ⟨⟨first, by simp [first_in], start⟩, ⟨last, by simp [last_in], stop⟩⟩

/-- Built from tokens in order, parts stand one behind the other. -/
theorem ordered (spelled : SpelledInOrder tokens parts) (order : Token.InOrder tokens) :
    parts.Pairwise fun first second => first.span.stop.offset ≤ second.span.start.offset := by
  induction spelled with
  | done => exact .nil
  | @cons gap own rest part parts first others ih =>
    have behind : rest.Sublist (gap ++ (own ++ rest)) := by simp
    refine List.pairwise_cons.2 ⟨fun later member => ?_, ih (order.sublist behind)⟩
    -- The first part ends with one of its own tokens, a later part begins with one behind them.
    obtain ⟨last, last_own, stop⟩ := first.covers.exists_stop
    obtain ⟨⟨next, next_behind, start⟩, -⟩ := others.exists_tokens member
    have apart := (List.pairwise_append.1 (List.pairwise_append.1 order.ordered).2.1).2.2
    rw [← stop, ← start]
    exact apart last last_own next next_behind

/-- What covers tokens in order holds the parts that are built from them. -/
theorem holds {span : Span} (spelled : SpelledInOrder tokens parts) (covers : span.Covers tokens)
    (order : Token.InOrder tokens) : span.Holds parts := by
  refine ⟨fun part member => ?_, spelled.ordered order⟩
  obtain ⟨⟨first, first_in, start⟩, last, last_in, stop⟩ := spelled.exists_tokens member
  rw [← start, ← stop]
  exact ⟨covers.start_le order first_in, covers.le_stop order last_in⟩

end SpelledInOrder

namespace Lexing

variable {source file : Bytes}

/-- The tokens of a source stand one behind the other. -/
theorem inOrder_tokens (source file : Bytes) : Token.InOrder (read source file).tokens :=
  ⟨fun _ member => (within_tokens member).le, (tiles_readFrom (.start file) source).ordered⟩

/-- A token other than the end of input ends behind its beginning. -/
theorem start_lt_stop {token : Token} (member : token ∈ (read source file).tokens)
    (ongoing : token.kind ≠ .endOfInput) : token.span.start.offset < token.span.stop.offset := by
  obtain ⟨before, own, behind, stands⟩ := Lexing.stands member
  have positive := List.length_pos_iff.2 (stands.not_empty ongoing)
  rw [stands.offset_start, stands.offset_stop, List.length_append]
  omega

end Lexing

/-- A program reaches from the first token to the end of input. -/
theorem SpellsRun.covers_read {tokens : List Token} {stmts : List Stmt}
    (spelled : SpellsRun tokens stmts) {final : Token} (final_kind : final.kind = .endOfInput) :
    (Parsing.read (tokens ++ [final])).program.span.Covers (tokens ++ [final]) := by
  obtain ⟨findings, -, whole⟩ := spelled.read_eq final_kind
  rw [whole]
  constructor
  · cases tokens <;> rfl
  · rw [List.getLast?_concat]
    rfl

/-- **The places of a tree are exact.** In a program that is accepted, every statement, branch,
block and expression reaches from the beginning of the first token that it is built from to the end
of the last. Its children stand within it, one behind the other, and so do the statements within the
program, which reaches from the first token to the end of the source. -/
theorem tree_spans_exact {source file : Bytes} {program : Program}
    (compiled : (Compilation.compile source file).program? = some program) :
    let tokens := (Lexing.read source file).tokens
    (program.span.Covers tokens ∧ program.span.stop.offset = source.length ∧
      program.span.Holds (program.stmts.map .stmt)) ∧
    ∀ part, program.Has part →
      (∃ before own behind, tokens = before ++ (own ++ behind) ∧ part.SpelledBy own ∧
        part.span.Covers own) ∧
      part.span.start.offset < part.span.stop.offset ∧ part.span.Holds part.children := by
  intro tokens
  obtain ⟨-, spelled, same⟩ := Compilation.program?_eq_some_iff.1 compiled
  let stop := (Position.start file).after source
  let final : Token := ⟨.endOfInput, [], ⟨stop, stop⟩⟩
  have parts : tokens = Lexing.marks (.start file) source ++ [final] := rfl
  have order : Token.InOrder tokens := Lexing.inOrder_tokens source file
  have covers : program.span.Covers tokens := by
    rw [same]
    exact spelled.covers_read rfl
  refine ⟨⟨covers, ?_, ?_⟩, fun part has => ?_⟩
  · have ends := covers.stop
    rw [parts, List.getLast?_concat] at ends
    rw [← Option.some.inj ends, Position.offset_after, Position.start, Int.zero_add]
  · exact (spelled.inOrder.within [] [final]).holds covers order
  · obtain ⟨before, own, behind, among, built⟩ := has.exists_spelledBy spelled
    have place : tokens = before ++ (own ++ (behind ++ [final])) := by
      rw [parts, among, List.append_assoc, List.append_assoc]
    have own_order : Token.InOrder own := order.sublist (by simp [place])
    refine ⟨⟨before, own, behind ++ [final], place, built, built.covers⟩, ?_,
      built.children.holds built.covers own_order⟩
    refine built.covers.start_lt_stop own_order fun token member => ?_
    have mark : token ∈ Lexing.marks (.start file) source := by simp [among, member]
    exact Lexing.start_lt_stop (List.mem_append_left [final] mark)
      (Lexing.ongoing_marks _ source token mark)

/-- A conditional with a branch behind `else if`, on a line of its own. -/
def elseIfText : Bytes :=
  Bytes.utf8 "if a \x7b\x7d else if b \x7b\x7d\n"

/-- The tree of the conditional. -/
def elseIfProgram : Program where
  span := ⟨⟨[], 0, 1, 1⟩, ⟨[], 21, 2, 1⟩⟩
  stmts := [.conditional ⟨⟨[], 0, 1, 1⟩, ⟨[], 20, 1, 21⟩⟩
    [.mk ⟨⟨[], 0, 1, 1⟩, ⟨[], 7, 1, 8⟩⟩ (.name ⟨⟨[], 3, 1, 4⟩, ⟨[], 4, 1, 5⟩⟩ [0x61])
        (.present ⟨⟨[], 5, 1, 6⟩, ⟨[], 7, 1, 8⟩⟩ []),
      .mk ⟨⟨[], 13, 1, 14⟩, ⟨[], 20, 1, 21⟩⟩ (.name ⟨⟨[], 16, 1, 17⟩, ⟨[], 17, 1, 18⟩⟩ [0x62])
        (.present ⟨⟨[], 18, 1, 19⟩, ⟨[], 20, 1, 21⟩⟩ [])]
    .absent]

/-- The conditional ends before the newline, the program behind it, and the branch behind `else if`
begins with the second word. -/
theorem tree_spans_exact_else_if :
    let tokens := (Lexing.read elseIfText []).tokens
    (Compilation.compile elseIfText []).program? = some elseIfProgram ∧
      elseIfProgram.span.Covers tokens ∧
      ∀ part, elseIfProgram.Has part → ∃ before own behind,
        tokens = before ++ (own ++ behind) ∧ part.SpelledBy own ∧ part.span.Covers own := by
  intro tokens
  have lexing : Lexing.read elseIfText []
      = ⟨[⟨.ifWord, Bytes.utf8 "if", ⟨⟨[], 0, 1, 1⟩, ⟨[], 2, 1, 3⟩⟩⟩,
        ⟨.name, [0x61], ⟨⟨[], 3, 1, 4⟩, ⟨[], 4, 1, 5⟩⟩⟩,
        ⟨.leftBrace, [0x7b], ⟨⟨[], 5, 1, 6⟩, ⟨[], 6, 1, 7⟩⟩⟩,
        ⟨.rightBrace, [0x7d], ⟨⟨[], 6, 1, 7⟩, ⟨[], 7, 1, 8⟩⟩⟩,
        ⟨.elseWord, Bytes.utf8 "else", ⟨⟨[], 8, 1, 9⟩, ⟨[], 12, 1, 13⟩⟩⟩,
        ⟨.ifWord, Bytes.utf8 "if", ⟨⟨[], 13, 1, 14⟩, ⟨[], 15, 1, 16⟩⟩⟩,
        ⟨.name, [0x62], ⟨⟨[], 16, 1, 17⟩, ⟨[], 17, 1, 18⟩⟩⟩,
        ⟨.leftBrace, [0x7b], ⟨⟨[], 18, 1, 19⟩, ⟨[], 19, 1, 20⟩⟩⟩,
        ⟨.rightBrace, [0x7d], ⟨⟨[], 19, 1, 20⟩, ⟨[], 20, 1, 21⟩⟩⟩,
        ⟨.newline, Token.newlineLexeme, ⟨⟨[], 20, 1, 21⟩, ⟨[], 21, 2, 1⟩⟩⟩,
        ⟨.endOfInput, [], ⟨⟨[], 21, 2, 1⟩, ⟨[], 21, 2, 1⟩⟩⟩], []⟩ := by
    cbv
  have compiled : (Compilation.compile elseIfText []).program? = some elseIfProgram := by
    rw [Compilation.compile, lexing]
    simp [Compilation.program?, Parsing.read, Cursor.ofTokens, Cursor.skipSeparators,
      Cursor.skipWhile, Cursor.skipWhile.go, Cursor.isSeparator, Cursor.statements_cons,
      Cursor.statement_cons, Cursor.branch_eq, Cursor.branches_eq, Cursor.body_cons,
      Cursor.braced_eq, Cursor.expect, Cursor.requiredExpression, Parsed.required,
      Cursor.expression_eq, Cursor.operand_cons, Cursor.continuation_cons, TokenKind.strength,
      Cursor.spanFrom, Cursor.peek, Cursor.kind, Cursor.advance, Cursor.skipNewlines,
      Finding.anyError, elseIfProgram]
  obtain ⟨⟨whole, -⟩, parts⟩ := tree_spans_exact compiled
  exact ⟨compiled, whole, fun part has => (parts part has).1⟩

end ConsoleScript
