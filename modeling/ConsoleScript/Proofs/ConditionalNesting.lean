import ConsoleScript.Proofs.LayoutIndependence

/-! # Chains of branches are nested conditionals

A conditional with further branches means the same as one whose last block holds a conditional with
these branches. So a chain of any length may be nested branch by branch, and it makes no difference
that further branches are read as one chain.

* **`Block.nest`** — the last block that holds further branches as nested conditionals;
* **`EquivalentChains`** — chains of branches with a last block that run alike: the rules derive the
  same endings, and with every number of rounds both get equally far;
* **`EquivalentChains.cons`**, **`equivalent_wrapped`** — a branch put before equivalent chains, and
  a chain wrapped into a last block, are the two steps from a chain to its nested form;
* **`Cursor.further?`**, **`Cursor.statement_further`** — what is read as further branches is what
  would be read as a conditional there.

`else_if_is_nested` puts these together. -/

namespace ConsoleScript

/-- The last block of a conditional that holds further branches, each one as a conditional in the
last block of the one before. The nodes that come in stand at any places. -/
def Block.nest (around place : Nat → Span) (otherwise : Block) : List Branch → Block
  | [] => otherwise
  | branch :: rest =>
    .present (around rest.length)
      [.conditional (place rest.length) [branch] (otherwise.nest around place rest)]

/-- Statements that run alike on every writer: from every state and with every number of rounds
they show the same at their ends, with the places of failures, and get equally far. -/
structure Stmt.RunsAs (one two : Stmt) : Prop where
  /-- Both end in the same way, or neither ends. -/
  shows (fuel : Nat) (writer : Writer) (state : State) (ending : Ending) (after : Observation) :
    (one.run fuel (.ofWriter writer) state).Shows ending after ↔
      (two.run fuel (.ofWriter writer) state).Shows ending after
  /-- Both get equally far. -/
  seen (fuel : Nat) (writer : Writer) (state : State) :
    (one.progress fuel (.ofWriter writer) state).seen
      = (two.progress fuel (.ofWriter writer) state).seen

/-! ## Equivalent chains -/

theorem Progress.andThen_assoc {α β γ : Type} (progress : Progress α)
    (next : α → State → Progress β) (last : β → State → Progress γ) :
    (progress.andThen next).andThen last
      = progress.andThen fun value after => (next value after).andThen last := by
  cases progress <;> rfl

/-- How far a chain of branches with a last block gets, the branches counted from `index`. -/
def progressChain (fuel : Nat) (console : Console) (chain : List Branch × Block) (index : Nat)
    (state : State) : Progress Value :=
  (progressBranches fuel console chain.1 index state).andThen fun taken after =>
    if taken then .done .void after else chain.2.progressLast fuel console after

/-- Chains of branches with a last block that run alike, however their branches are counted. -/
structure EquivalentChains (one two : List Branch × Block) : Prop where
  /-- The same endings are derived. -/
  derived {writer : Writer} {before after : Observation} {ending : Ending} :
    RunsBranches writer one.1 one.2 before ending after ↔
      RunsBranches writer two.1 two.2 before ending after
  /-- Both get equally far. -/
  seen {writer : Writer} {fuel : Nat} {state other : State} (index count : Nat) :
    other.observed = state.observed →
      (progressChain fuel (.ofWriter writer) two count other).seen
        = (progressChain fuel (.ofWriter writer) one index state).seen

/-- How far a chain gets depends on the observation only in which it begins. -/
theorem seen_progressChain {writer : Writer} {fuel : Nat} {state other : State}
    (chain : List Branch × Block) (index count : Nat) (same : other.observed = state.observed) :
    (progressChain fuel (.ofWriter writer) chain count other).seen
      = (progressChain fuel (.ofWriter writer) chain index state).seen := by
  refine Progress.seen_andThen (seen_congrBranches chain.1 index count same) ?_
  intro taken _ _ after
  cases taken with
  | true => exact Prod.ext rfl after
  | false => exact chain.2.seen_congrLast after

namespace EquivalentChains

theorem refl (chain : List Branch × Block) : EquivalentChains chain chain :=
  ⟨.rfl, seen_progressChain chain⟩

theorem symm {one two : List Branch × Block} (equivalent : EquivalentChains one two) :
    EquivalentChains two one :=
  ⟨equivalent.derived.symm, fun index count same => (equivalent.seen count index same.symm).symm⟩

theorem trans {one two three : List Branch × Block} (first : EquivalentChains one two)
    (second : EquivalentChains two three) : EquivalentChains one three :=
  ⟨first.derived.trans second.derived,
    fun index count same => (second.seen 0 count rfl).trans (first.seen index 0 same)⟩

variable {one two : List Branch × Block}

/-- What is derived for a branch before a chain is derived for it before an equivalent one. -/
theorem runsBranches_cons (equivalent : EquivalentChains one two) {branch : Branch}
    {writer : Writer} {before after : Observation} {ending : Ending}
    (chosen : RunsBranches writer (branch :: one.1) one.2 before ending after) :
    RunsBranches writer (branch :: two.1) two.2 before ending after := by
  cases chosen with
  | taken holds inside => exact .taken holds inside
  | passed fails others => exact .passed fails (equivalent.derived.1 others)
  | fails failed => exact .fails failed

/-- A branch may be put before equivalent chains. -/
theorem cons (equivalent : EquivalentChains one two) (branch : Branch) :
    EquivalentChains (branch :: one.1, one.2) (branch :: two.1, two.2) where
  derived := ⟨equivalent.runsBranches_cons, equivalent.symm.runsBranches_cons⟩
  seen {writer fuel state other} index count same := by
    obtain ⟨span, condition, body⟩ := branch
    simp only [progressChain, progressBranches, State.environment_congr same]
    cases condition.holds state.environment with
    | error failure => exact Prod.ext rfl same
    | ok truth =>
      cases truth with
      | false => exact equivalent.seen (index + 1) (count + 1) same
      | true =>
        -- Both run the body, and the rest of the chain is not looked at.
        rw [Progress.andThen_assoc, Progress.andThen_assoc]
        refine Progress.seen_andThen (body.seen_congr ?_) fun _ _ _ after => Prod.ext rfl after
        rw [State.observed_record_branchTaken, State.observed_record_branchTaken, same]

end EquivalentChains

/-! ## From a chain to its nested form -/

/-- A single statement runs by itself. -/
theorem runsAll_singleton {writer : Writer} {stmt : Stmt} {before after : Observation}
    {ending : Ending} :
    RunsAll writer [stmt] before ending after ↔ Runs writer stmt before ending after := by
  constructor
  · intro all
    cases all with
    | last only => exact only
    | fails first => exact first
  · intro only
    cases ending with
    | value => exact .last only
    | failure => exact .fails only

/-- A conditional has no value of its own. -/
theorem RunsBranches.voided {writer : Writer} {branches : List Branch} {otherwise : Block}
    {before after : Observation} {ending : Ending}
    (chosen : RunsBranches writer branches otherwise before ending after) :
    ending.voided = ending := by
  induction branches generalizing ending with
  | nil =>
    cases chosen with
    | @otherwise _ inner => cases inner <;> rfl
  | cons branch rest ih =>
    cases chosen with
    | @taken _ _ _ _ _ inner => cases inner <;> rfl
    | passed _ others => exact ih others
    | fails => rfl

/-- A block that holds nothing but a conditional runs as the conditional does. -/
theorem runsBranches_wrapped {writer : Writer} {around place : Span} {branches : List Branch}
    {otherwise : Block} {before after : Observation} {ending : Ending} :
    RunsBranches writer branches otherwise before ending after ↔
      RunsBranches writer [] (.present around [.conditional place branches otherwise]) before ending
        after := by
  constructor
  · intro chosen
    rw [← chosen.voided]
    exact .otherwise (.present (runsAll_singleton.2 (.conditional chosen)))
  · intro last
    cases last with
    | otherwise inside =>
      cases inside with
      | present inside =>
        cases runsAll_singleton.1 inside with
        | conditional chosen => exact chosen.voided.symm ▸ chosen

/-- The value of a last block is dropped already. -/
theorem Block.progressLast_voided (otherwise : Block) (fuel : Nat) (console : Console)
    (state : State) :
    ((otherwise.progressLast fuel console state).andThen fun _ after => .done .void after)
      = otherwise.progressLast fuel console state := by
  cases otherwise with
  | absent => rfl
  | present span stmts =>
    rw [progressLast, Progress.andThen_assoc]
    rfl

/-- The value of a chain is dropped already. -/
theorem progressChain_voided (fuel : Nat) (console : Console) (chain : List Branch × Block)
    (index : Nat) (state : State) :
    ((progressChain fuel console chain index state).andThen fun _ after => .done .void after)
      = progressChain fuel console chain index state := by
  rw [progressChain, Progress.andThen_assoc]
  congr 1
  funext taken after
  cases taken with
  | true => rfl
  | false => exact chain.2.progressLast_voided fuel console after

/-- A block that holds nothing but a conditional gets as far as the conditional. -/
theorem progressChain_wrapped (fuel : Nat) (console : Console) (around place : Span)
    (chain : List Branch × Block) (index : Nat) (state : State) :
    progressChain fuel console ([], .present around [.conditional place chain.1 chain.2]) index
        state
      = progressChain fuel console chain 0 (state.record (.otherwiseTaken around.start)) := by
  have single : progressAll fuel console [.conditional place chain.1 chain.2] .void
        (state.record (.otherwiseTaken around.start))
      = (progressChain fuel console chain 0
          (state.record (.otherwiseTaken around.start))).andThen (progressAll fuel console []) := by
    rw [progressAll, Stmt.progress]
    rfl
  have nothing : progressAll fuel console [] = Progress.done := by
    funext value after
    rw [progressAll]
  calc progressChain fuel console ([], .present around [.conditional place chain.1 chain.2]) index
        state
      = (progressAll fuel console [.conditional place chain.1 chain.2] .void
          (state.record (.otherwiseTaken around.start))).andThen
            fun _ after => .done .void after := by
        rw [progressChain, progressBranches, Progress.andThen]
        simp only [Bool.false_eq_true, if_false, Block.progressLast]
    _ = (progressChain fuel console chain 0
          (state.record (.otherwiseTaken around.start))).andThen
            fun _ after => .done .void after := by
        rw [single, nothing, Progress.andThen_assoc]
        rfl
    _ = progressChain fuel console chain 0 (state.record (.otherwiseTaken around.start)) :=
        progressChain_voided ..

/-- A chain may be wrapped into the last block of a conditional. -/
theorem equivalent_wrapped (around place : Span) (chain : List Branch × Block) :
    EquivalentChains chain ([], .present around [.conditional place chain.1 chain.2]) where
  derived := runsBranches_wrapped
  seen {writer fuel state other} index count same := by
    rw [progressChain_wrapped]
    refine seen_progressChain chain index 0 ?_
    rw [State.observed_record_otherwiseTaken, same]

/-- A chain may be nested as a whole, branch by branch. -/
theorem equivalent_nest (around place : Nat → Span) (otherwise : Block) (branches : List Branch) :
    EquivalentChains (branches, otherwise) ([], otherwise.nest around place branches) := by
  induction branches with
  | nil => exact .refl _
  | cons branch rest ih =>
    -- The rest is nested behind the branch, and then both are wrapped.
    exact (ih.cons branch).trans (equivalent_wrapped _ _ _)

/-! ## Conditionals with equivalent chains -/

/-- A statement shows what is derived for it with any number of rounds with which it ends. -/
theorem Runs.shown {writer : Writer} {stmt : Stmt} {state : State} {ending : Ending}
    {after : Observation} (derived : Runs writer stmt state.observed ending after) {fuel : Nat}
    (ends : stmt.run fuel (.ofWriter writer) state ≠ .unfinished) :
    (stmt.run fuel (.ofWriter writer) state).Shows ending after := by
  obtain ⟨outcome, ⟨enough, settled⟩, shows⟩ := derived.complete state rfl
  have same : stmt.run (max fuel enough) (.ofWriter writer) state
      = stmt.run fuel (.ofWriter writer) state :=
    (Node.stmt stmt).run_mono (Nat.le_max_left fuel enough) ends
  have settles : stmt.run (max fuel enough) (.ofWriter writer) state = outcome :=
    settled _ (Nat.le_max_right fuel enough)
  rwa [← same, settles]

namespace EquivalentChains

variable {one two : List Branch × Block}

/-- Conditionals with equivalent chains get equally far. -/
theorem seen_conditional (equivalent : EquivalentChains one two) (span outer : Span) (fuel : Nat)
    (writer : Writer) (state : State) :
    ((Stmt.conditional span one.1 one.2).progress fuel (.ofWriter writer) state).seen
      = ((Stmt.conditional outer two.1 two.2).progress fuel (.ofWriter writer) state).seen := by
  rw [Stmt.progress, Stmt.progress]
  exact equivalent.symm.seen 0 0 rfl

/-- What a conditional shows is shown by one with an equivalent chain. -/
theorem shows (equivalent : EquivalentChains one two) {span outer : Span} {fuel : Nat}
    {writer : Writer} {state : State} {ending : Ending} {after : Observation}
    (shown : ((Stmt.conditional span one.1 one.2).run fuel (.ofWriter writer) state).Shows
      ending after) :
    ((Stmt.conditional outer two.1 two.2).run fuel (.ofWriter writer) state).Shows
      ending after := by
  have derived : Runs writer (.conditional outer two.1 two.2) state.observed ending after := by
    cases (Stmt.conditional span one.1 one.2).sound writer fuel state _ _ shown with
    | conditional chosen => exact .conditional (equivalent.derived.1 chosen)
  refine derived.shown fun unfinished => ?_
  -- Both get equally far, so the first one would not have ended either.
  have alike : ((Node.stmt (.conditional span one.1 one.2)).run fuel (.ofWriter writer) state).seen
      = ((Node.stmt (.conditional outer two.1 two.2)).run fuel (.ofWriter writer) state).seen :=
    Node.seen_run_eq (equivalent.seen_conditional span outer fuel writer state)
  have nothing := (Outcome.seen_eq_none.1 (alike.trans (Outcome.seen_eq_none.2 unfinished)))
  rw [show Stmt.run _ _ _ _ = _ from nothing] at shown
  cases shown

/-- Conditionals with equivalent chains run alike. -/
theorem runsAs (equivalent : EquivalentChains one two) (span outer : Span) :
    (Stmt.conditional span one.1 one.2).RunsAs (.conditional outer two.1 two.2) where
  shows _ _ _ _ _ := ⟨equivalent.shows, equivalent.symm.shows⟩
  seen := equivalent.seen_conditional span outer

end EquivalentChains

/-! ## Reading further branches -/

namespace Cursor

/-- Where the conditional begins that a further branch stands for: at the `if` behind an `else`, or
at an `elseif` that is taken for an `if`. -/
def further? (cursor : Cursor) : Option Cursor :=
  match cursor.skipNewlines with
  | ⟨[], _⟩ => none
  | ⟨word :: rest, last⟩ =>
    match word.kind with
    | .elseifWord => some ⟨{ word with kind := .ifWord } :: rest, last⟩
    | .elseWord =>
      if (Cursor.mk rest word.span.stop).kind = .ifWord then some ⟨rest, word.span.stop⟩ else none
    | _ => none

/-- Reads the branch behind a word that opens it, and what is further to that. -/
def chain (word : Token) (cursor : Cursor) : Parsed (List Branch × Block) :=
  let first := cursor.branch word
  let others := first.cursor.branches
  ⟨(first.value :: others.value.1, others.value.2), others.cursor,
    first.findings ++ others.findings⟩

/-- The word that opens a branch only gives its place. -/
theorem chain_congr {word other : Token} (same : word.span = other.span) (cursor : Cursor) :
    cursor.chain word = cursor.chain other := by
  simp only [chain, branch_eq, same]

/-- A conditional is read as a chain behind its `if`. -/
theorem statement_ifWord {word : Token} (kind : word.kind = .ifWord) (rest : List Token)
    (last : Position) :
    ∃ place, statement ⟨word :: rest, last⟩ =
      let chain := (Cursor.mk rest word.span.stop).chain word
      ⟨some (.conditional place chain.value.1 chain.value.2), chain.cursor, chain.findings⟩ := by
  rw [statement_cons]
  simp only [kind]
  exact ⟨_, rfl⟩

/-- If further branches are read, then they are those of the conditional that would be read there,
and otherwise there are none. -/
theorem statement_further (cursor : Cursor) :
    match cursor.further? with
    | none => cursor.branches.value.1 = []
    | some inner => ∃ place, inner.statement =
        ⟨some (.conditional place cursor.branches.value.1 cursor.branches.value.2),
          cursor.branches.cursor, cursor.branches.findings⟩ := by
  have read := cursor.branches_eq
  rw [further?]
  generalize cursor.skipNewlines = ahead at read ⊢
  obtain ⟨rest, last⟩ := ahead
  cases rest with
  | nil => exact congrArg (·.value.1) read
  | cons word rest =>
    dsimp only at read ⊢
    cases kind : word.kind <;> simp only [kind] at read ⊢
    case elseifWord =>
      have place : word.span = ({ word with kind := .ifWord } : Token).span := rfl
      change cursor.branches = (Cursor.mk rest word.span.stop).chain word at read
      rw [read, chain_congr place]
      exact statement_ifWord rfl rest last
    case elseWord =>
      split at read
      · rename_i opened
        rw [if_pos opened]
        cases rest with
        | nil => cases opened
        | cons opening rest =>
          change cursor.branches = (Cursor.mk rest opening.span.stop).chain opening at read
          rw [read]
          exact statement_ifWord opened rest word.span.stop
      · rename_i closed
        rw [if_neg closed]
        exact congrArg (·.value.1) read
    all_goals exact congrArg (·.value.1) read

end Cursor

/-! ## Reading and running -/

/-- **Flattening `else if` preserves meaning.** A conditional whose branches form a chain runs as
the conditional with its first branch and all others nested in last blocks, with the last block
innermost and whatever the places of the nodes that come in are: the same value, lines, variables
and assignments, and the same failure at the same place, or both run forever. Wherever further
branches are read, with `else if` or `elseif`, a conditional with just these branches would be read
there, from the same tokens and with the same findings, and to hold that conditional in the last
block makes no difference. -/
theorem else_if_is_nested :
    (∀ (around place : Nat → Span) (span outer : Span) (first : Branch) (rest : List Branch)
        (otherwise : Block),
      (Stmt.conditional span (first :: rest) otherwise).RunsAs
        (.conditional outer [first] (otherwise.nest around place rest))) ∧
    ∀ cursor : Cursor,
      match cursor.further? with
      | none => cursor.branches.value.1 = []
      | some inner =>
        ∃ nested, inner.statement
            = ⟨some nested, cursor.branches.cursor, cursor.branches.findings⟩ ∧
          ∀ (span outer around : Span) (first : Branch),
            Stmt.RunsAs
              (.conditional span (first :: cursor.branches.value.1) cursor.branches.value.2)
              (.conditional outer [first] (.present around [nested])) := by
  constructor
  · intro around place span outer first rest otherwise
    exact ((equivalent_nest around place otherwise rest).cons first).runsAs span outer
  · intro cursor
    have read := cursor.statement_further
    cases further : cursor.further? with
    | none =>
      rw [further] at read
      exact read
    | some inner =>
      rw [further] at read
      obtain ⟨place, statement⟩ := read
      refine ⟨_, statement, fun span outer around first => ?_⟩
      exact ((equivalent_wrapped around place _).cons first).runsAs span outer

end ConsoleScript
