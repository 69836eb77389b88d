import ConsoleScript.Parsing.Expression

/-! # The grammar of expressions

Expressions are stratified by their operators, from weak to strong:

* **`either`, `both`, `equality`, `comparison`, `additive`, `multiplicative`** — chains that group
  to the left, `stratum ::= stratum operator next | next`;
* **`unary`** — `unary ::= ("-" | "!") unary | power`;
* **`power`** — `power ::= primary "^" unary | primary`;
* **`primary`** — literals, names and `"(" either ")"`.

`Derives` is this grammar on trees, `Expr.yield` the symbols of a tree from left to right. `Spells`
is the grammar on tokens: which tokens spell a tree, line breaks and places included. Line breaks
are layout behind a binary operator and inside parentheses next to them; `Token.withoutLayout`
deletes exactly these. -/

namespace ConsoleScript

/-! ## Strata -/

/-- The strata of the grammar, from the weakest operators to operands without any. -/
inductive Stratum where
  /-- Disjunctions. -/
  | either
  /-- Conjunctions. -/
  | both
  /-- Equalities and inequalities. -/
  | equality
  /-- Comparisons by order. -/
  | comparison
  /-- Sums and differences. -/
  | additive
  /-- Products, quotients and remainders. -/
  | multiplicative
  /-- Operators before an operand. -/
  | unary
  /-- Powers. -/
  | power
  /-- Literals, names and parentheses. -/
  | primary
  deriving DecidableEq, Repr

namespace Stratum

/-- Where a stratum stands on the scale of operator strengths. -/
def strength : Stratum → Nat
  | either => 10
  | both => 20
  | equality => 30
  | comparison => 40
  | additive => 50
  | multiplicative => 60
  | unary => 70
  | power => 80
  | primary => 90

/-- The next stronger stratum. -/
def next : Stratum → Stratum
  | either => both
  | both => equality
  | equality => comparison
  | comparison => additive
  | additive => multiplicative
  | multiplicative => unary
  | unary => power
  | power | primary => primary

/-- The operators of a stratum whose operators group to the left. -/
def operators : Stratum → List BinaryOperator
  | either => [.either]
  | both => [.both]
  | equality => [.equal, .notEqual]
  | comparison => [.less, .lessEqual, .greater, .greaterEqual]
  | additive => [.add, .subtract]
  | multiplicative => [.multiply, .divide, .remainder]
  | unary | power | primary => []

end Stratum

/-- The trees of a stratum, wherever their nodes are placed. -/
inductive Derives : Stratum → Expr → Prop where
  /-- The number of a literal that is accepted. -/
  | number {span : Span} {lexeme : Bytes} (accepted : acceptsLiteral lexeme = true) :
      Derives .primary (.number span (literalValue lexeme))
  /-- A text literal. -/
  | text {span : Span} {raw : Bytes} : Derives .primary (.text span raw)
  /-- A truth value. -/
  | boolean {span : Span} {value : Bool} : Derives .primary (.boolean span value)
  /-- The nil value. -/
  | nil {span : Span} : Derives .primary (.nil span)
  /-- A name. -/
  | name {span : Span} {word : Bytes} : Derives .primary (.name span word)
  /-- Any expression in parentheses. -/
  | paren {span : Span} {expr : Expr} (inner : Derives .either expr) :
      Derives .primary (.paren span expr)
  /-- A primary to the power of an exponent that may have operators before it. -/
  | power {span : Span} {base exponent : Expr} (left : Derives .primary base)
      (right : Derives .unary exponent) : Derives .power (.binary span .power base exponent)
  /-- An operator before a power or before another such operator. -/
  | unary {span : Span} {operator : UnaryOperator} {expr : Expr} (known : operator ≠ .unknown)
      (operand : Derives .unary expr) : Derives .unary (.unary span operator expr)
  /-- A chain of operators of one stratum, grouped to the left. -/
  | chain {stratum : Stratum} {span : Span} {operator : BinaryOperator} {left right : Expr}
      (member : operator ∈ stratum.operators) (first : Derives stratum left)
      (second : Derives stratum.next right) : Derives stratum (.binary span operator left right)
  /-- A tree of a stronger stratum is one of every weaker stratum. -/
  | weaken {weak strong : Stratum} {expr : Expr} (le : weak.strength ≤ strong.strength)
      (inner : Derives strong expr) : Derives weak expr

/-! ## Symbols -/

/-- What of a token a tree keeps: the kind, and for a literal or name what it stands for. -/
inductive Symbol where
  /-- A token that its kind says all about. -/
  | sign (kind : TokenKind)
  /-- A number literal that is accepted, with its value. -/
  | number (value : Float)
  /-- A text literal with its quotes. -/
  | text (raw : Bytes)
  /-- A name. -/
  | name (word : Bytes)
  deriving DecidableEq

namespace Token

/-- The symbol that a token stands for. A number literal that is not accepted stands for no number.
-/
def symbol (token : Token) : Symbol :=
  match token.kind with
  | .number =>
    if acceptsLiteral token.lexeme then .number (literalValue token.lexeme) else .sign .number
  | .text => .text token.lexeme
  | .name => .name token.lexeme
  | kind => .sign kind

end Token

namespace UnaryOperator

/-- The kind of the tokens that stand for an operator. -/
def kind : UnaryOperator → TokenKind
  | negate => .minus
  | invert => .bang
  | unknown => .illegal

end UnaryOperator

namespace BinaryOperator

/-- The kind of the tokens that stand for an operator. -/
def kind : BinaryOperator → TokenKind
  | power => .caret
  | multiply => .star
  | divide => .slash
  | remainder => .percent
  | add => .plus
  | subtract => .minus
  | less => .less
  | lessEqual => .lessEqual
  | greater => .greater
  | greaterEqual => .greaterEqual
  | equal => .equal
  | notEqual => .notEqual
  | both => .both
  | either => .either
  | unknown => .illegal

end BinaryOperator

namespace Expr

/-- The symbols of an expression from left to right. -/
def yield : Expr → List Symbol
  | number _ value => [.number value]
  | text _ raw => [.text raw]
  | boolean _ true => [.sign .trueWord]
  | boolean _ false => [.sign .falseWord]
  | nil _ => [.sign .nilWord]
  | name _ word => [.name word]
  | unary _ operator operand => .sign operator.kind :: operand.yield
  | binary _ operator left right => left.yield ++ .sign operator.kind :: right.yield
  | paren _ inner => .sign .leftParen :: (inner.yield ++ [.sign .rightParen])
  | missing => []

/-- An expression without the places of its nodes. -/
def bare : Expr → Expr
  | number _ value => number .unset value
  | text _ raw => text .unset raw
  | boolean _ value => boolean .unset value
  | nil _ => nil .unset
  | name _ word => name .unset word
  | unary _ operator operand => unary .unset operator operand.bare
  | binary _ operator left right => binary .unset operator left.bare right.bare
  | paren _ inner => paren .unset inner.bare
  | missing => missing

end Expr

/-! ## Layout -/

namespace TokenKind

/-- Whether an operand can end with a token of this kind, so that an operator behind it is
binary. -/
def endsOperand : TokenKind → Bool
  | number | text | trueWord | falseWord | nilWord | name | rightParen => true
  | _ => false

end TokenKind

namespace Token

/-- Whether only line breaks stand between here and a closing parenthesis. -/
def beforeClosing (tokens : List Token) : Bool :=
  (tokens.dropWhile fun token => token.kind == .newline).head?.any fun token =>
    token.kind == .rightParen

/-- Deletes the line breaks that are layout. `ended` says whether an operand has just ended, and
`opened` whether a binary operator or an opening parenthesis stands directly before. -/
def dropLayout (ended opened : Bool) : List Token → List Token
  | [] => []
  | token :: rest =>
    if token.kind = .newline then
      if opened || beforeClosing rest then dropLayout ended opened rest
      else token :: dropLayout false false rest
    else
      token :: dropLayout token.kind.endsOperand
        (token.kind == .leftParen || (ended && 0 < token.kind.strength)) rest

/-- The tokens of an expression without the line breaks directly behind a binary operator, directly
behind an opening parenthesis and directly before a closing one. -/
def withoutLayout (tokens : List Token) : List Token :=
  dropLayout false false tokens

/-- Tokens that are line breaks throughout. -/
def AllNewlines (tokens : List Token) : Prop :=
  ∀ token ∈ tokens, token.kind = .newline

theorem allNewlines_nil : AllNewlines [] :=
  fun _ member => absurd member List.not_mem_nil

end Token

/-! ## Spelling -/

/-- Which tokens spell a tree of a stratum. The places of the nodes are those of their tokens, from
the beginning of the first to the end of the last. -/
inductive Spells : Stratum → List Token → Expr → Prop where
  /-- A number literal that is accepted. -/
  | number {token : Token} (kind : token.kind = .number)
      (accepted : acceptsLiteral token.lexeme = true) :
      Spells .primary [token] (.number token.span (literalValue token.lexeme))
  /-- A text literal. -/
  | text {token : Token} (kind : token.kind = .text) :
      Spells .primary [token] (.text token.span token.lexeme)
  /-- The literal for truth. -/
  | trueWord {token : Token} (kind : token.kind = .trueWord) :
      Spells .primary [token] (.boolean token.span true)
  /-- The literal for falsehood. -/
  | falseWord {token : Token} (kind : token.kind = .falseWord) :
      Spells .primary [token] (.boolean token.span false)
  /-- The literal for the nil value. -/
  | nil {token : Token} (kind : token.kind = .nilWord) : Spells .primary [token] (.nil token.span)
  /-- A name. -/
  | name {token : Token} (kind : token.kind = .name) :
      Spells .primary [token] (.name token.span token.lexeme)
  /-- An expression in parentheses, with line breaks inside them. -/
  | paren {opening closing : Token} {before inside behind : List Token} {expr : Expr}
      (opens : opening.kind = .leftParen) (closes : closing.kind = .rightParen)
      (above : Token.AllNewlines before) (below : Token.AllNewlines behind)
      (inner : Spells .either inside expr) :
      Spells .primary (opening :: (before ++ (inside ++ (behind ++ [closing]))))
        (.paren ⟨opening.span.start, closing.span.stop⟩ expr)
  /-- A power, with line breaks behind its sign. -/
  | power {sign : Token} {front gap back : List Token} {base exponent : Expr}
      (kind : sign.kind = .caret) (layout : Token.AllNewlines gap)
      (left : Spells .primary front base) (right : Spells .unary back exponent) :
      Spells .power (front ++ sign :: (gap ++ back))
        (.binary ⟨base.span.start, exponent.span.stop⟩ .power base exponent)
  /-- An operator before its operand; no line break may stand between them. -/
  | unary {sign : Token} {tokens : List Token} {expr : Expr}
      (kind : sign.kind = .minus ∨ sign.kind = .bang) (operand : Spells .unary tokens expr) :
      Spells .unary (sign :: tokens)
        (.unary ⟨sign.span.start, expr.span.stop⟩ (.ofKind sign.kind) expr)
  /-- A chain of operators of one stratum, with line breaks behind the last of them. -/
  | chain {stratum : Stratum} {sign : Token} {front gap back : List Token} {left right : Expr}
      (member : BinaryOperator.ofKind sign.kind ∈ stratum.operators)
      (layout : Token.AllNewlines gap) (first : Spells stratum front left)
      (second : Spells stratum.next back right) :
      Spells stratum (front ++ sign :: (gap ++ back))
        (.binary ⟨left.span.start, right.span.stop⟩ (.ofKind sign.kind) left right)
  /-- What spells a tree of a stronger stratum spells one of every weaker stratum. -/
  | weaken {weak strong : Stratum} {tokens : List Token} {expr : Expr}
      (le : weak.strength ≤ strong.strength) (inner : Spells strong tokens expr) :
      Spells weak tokens expr

/-! ## Operators and their tokens -/

namespace UnaryOperator

/-- The signs before an operand stand for operators of the language. -/
theorem ofKind_ne_unknown {kind : TokenKind} (sign : kind = .minus ∨ kind = .bang) :
    ofKind kind ≠ unknown := by
  rcases sign with rfl | rfl <;> simp [ofKind]

/-- The token kind of an operator stands for it. -/
theorem ofKind_kind {operator : UnaryOperator} (known : operator ≠ unknown) :
    ofKind operator.kind = operator := by
  cases operator with
  | negate => rfl
  | invert => rfl
  | unknown => exact absurd rfl known

/-- Only the minus sign and the exclamation mark stand for operators. -/
theorem kind_eq {operator : UnaryOperator} (known : operator ≠ unknown) :
    operator.kind = .minus ∨ operator.kind = .bang := by
  cases operator with
  | negate => exact .inl rfl
  | invert => exact .inr rfl
  | unknown => exact absurd rfl known

/-- A sign before an operand has the token kind of its operator. -/
theorem kind_ofKind {kind : TokenKind} (sign : kind = .minus ∨ kind = .bang) :
    (ofKind kind).kind = kind := by
  rcases sign with rfl | rfl <;> rfl

end UnaryOperator

namespace BinaryOperator

/-- The token kind of an operator stands for it. -/
theorem ofKind_kind {operator : BinaryOperator} (known : operator ≠ unknown) :
    ofKind operator.kind = operator := by
  cases operator with
  | unknown => exact absurd rfl known
  | _ => rfl

/-- A token that stands for an operator has the token kind of that operator. -/
theorem kind_ofKind {token : TokenKind} (known : ofKind token ≠ unknown) :
    (ofKind token).kind = token := by
  cases token <;> simp [ofKind, kind] at known ⊢

end BinaryOperator

namespace Stratum

/-- The operators of a stratum are operators of the language. -/
theorem ne_unknown {stratum : Stratum} {operator : BinaryOperator}
    (member : operator ∈ stratum.operators) : operator ≠ .unknown := by
  rintro rfl
  cases stratum <;> simp [operators] at member

/-- A stratum with operators stands among the chains. -/
theorem strength_le_of_mem {stratum : Stratum} {operator : BinaryOperator}
    (member : operator ∈ stratum.operators) : stratum.strength ≤ 60 := by
  cases stratum <;> simp [operators, strength] at member ⊢

/-- A token that stands for an operator of a stratum is as strong as the stratum. -/
theorem strength_of_mem {stratum : Stratum} {kind : TokenKind}
    (member : BinaryOperator.ofKind kind ∈ stratum.operators) :
    kind.strength = stratum.strength := by
  cases stratum <;> cases kind <;>
    simp [BinaryOperator.ofKind, operators, strength, TokenKind.strength] at member ⊢

end Stratum

/-! ## Trees that tokens spell -/

namespace Spells

/-- What tokens spell is a tree of the grammar. -/
theorem derives {stratum : Stratum} {tokens : List Token} {expr : Expr}
    (spelled : Spells stratum tokens expr) : Derives stratum expr := by
  induction spelled with
  | number _ accepted => exact .number accepted
  | text => exact .text
  | trueWord => exact .boolean
  | falseWord => exact .boolean
  | nil => exact .nil
  | name => exact .name
  | paren _ _ _ _ _ inner => exact .paren inner
  | power _ _ _ _ left right => exact .power left right
  | unary kind _ operand => exact .unary (UnaryOperator.ofKind_ne_unknown kind) operand
  | chain member _ _ _ first second => exact .chain member first second
  | weaken le _ inner => exact .weaken le inner

/-- A spelling starts with a token that is no line break. -/
theorem head {stratum : Stratum} {tokens : List Token} {expr : Expr}
    (spelled : Spells stratum tokens expr) :
    ∃ token rest, tokens = token :: rest ∧ token.kind ≠ .newline := by
  induction spelled with
  | number kind | text kind | trueWord kind | falseWord kind | nil kind | name kind =>
    exact ⟨_, _, rfl, by simp [kind]⟩
  | paren opens => exact ⟨_, _, rfl, by simp [opens]⟩
  | power _ _ _ _ left | chain _ _ _ _ left =>
    obtain ⟨token, rest, rfl, visible⟩ := left
    exact ⟨token, _, rfl, visible⟩
  | unary kind => exact ⟨_, _, rfl, by rcases kind with kind | kind <;> simp [kind]⟩
  | weaken _ _ inner => exact inner

end Spells

/-! ## Deleting layout gives the yield -/

namespace Token

/-- A sign keeps its kind only. -/
theorem symbol_eq_sign {token : Token} {kind : TokenKind} (is : token.kind = kind)
    (number : kind ≠ .number) (text : kind ≠ .text) (name : kind ≠ .name) :
    token.symbol = .sign kind := by
  subst is
  unfold symbol
  split <;> simp_all

/-- Only a token of a kind has the sign of that kind as its symbol. -/
theorem kind_of_symbol_eq_sign {token : Token} {kind : TokenKind}
    (same : token.symbol = .sign kind) : token.kind = kind := by
  unfold symbol at same
  split at same
  · split at same <;> simp_all
  all_goals simp_all

/-- Only a number literal that is accepted has a number as its symbol. -/
theorem of_symbol_eq_number {token : Token} {value : Float} (same : token.symbol = .number value) :
    token.kind = .number ∧ acceptsLiteral token.lexeme = true ∧
      literalValue token.lexeme = value := by
  unfold symbol at same
  split at same
  · split at same <;> simp_all
  all_goals simp_all

/-- Only a text literal has a text as its symbol. -/
theorem of_symbol_eq_text {token : Token} {raw : Bytes} (same : token.symbol = .text raw) :
    token.kind = .text ∧ token.lexeme = raw := by
  unfold symbol at same
  split at same
  · split at same <;> simp_all
  all_goals simp_all

/-- Only a name has a name as its symbol. -/
theorem of_symbol_eq_name {token : Token} {word : Bytes} (same : token.symbol = .name word) :
    token.kind = .name ∧ token.lexeme = word := by
  unfold symbol at same
  split at same
  · split at same <;> simp_all
  all_goals simp_all

/-- A token that is no line break stays. -/
theorem dropLayout_cons {token : Token} (visible : token.kind ≠ .newline) (ended opened : Bool)
    (rest : List Token) :
    dropLayout ended opened (token :: rest) = token :: dropLayout token.kind.endsOperand
      (token.kind == .leftParen || (ended && 0 < token.kind.strength)) rest := by
  rw [dropLayout, if_neg visible]

/-- A token with which an operand ends stays, and what follows is behind an operand. -/
theorem dropLayout_ending {token : Token} (ends : token.kind.endsOperand = true)
    (ended opened : Bool) (rest : List Token) :
    dropLayout ended opened (token :: rest) = token :: dropLayout true false rest := by
  have visible : token.kind ≠ .newline := by
    intro same
    simp [same, TokenKind.endsOperand] at ends
  -- Neither an opening parenthesis nor a binary operator ends an operand.
  have weak :
      (token.kind == .leftParen || (ended && decide (0 < token.kind.strength))) = false := by
    revert ends
    cases token.kind <;> simp [TokenKind.endsOperand, TokenKind.strength]
  rw [dropLayout_cons visible, ends, weak]

/-- Line breaks behind a binary operator or an opening parenthesis go. -/
theorem dropLayout_opened {gap : List Token} (layout : AllNewlines gap) (ended : Bool)
    (rest : List Token) : dropLayout ended true (gap ++ rest) = dropLayout ended true rest := by
  induction gap with
  | nil => rfl
  | cons token gap ih =>
    rw [List.cons_append, dropLayout, if_pos (layout token List.mem_cons_self)]
    exact ih fun other member => layout other (List.mem_cons_of_mem token member)

/-- Behind line breaks it is the same closing parenthesis that comes next. -/
theorem beforeClosing_append {gap : List Token} (layout : AllNewlines gap) {closing : Token}
    (closes : closing.kind = .rightParen) (rest : List Token) :
    beforeClosing (gap ++ closing :: rest) = true := by
  have passed : ∀ token ∈ gap, (token.kind == .newline) = true :=
    fun token member => beq_iff_eq.2 (layout token member)
  rw [beforeClosing, List.dropWhile_append_of_pos passed]
  simp [closes]

/-- Line breaks before a closing parenthesis go. -/
theorem dropLayout_closing {gap : List Token} (layout : AllNewlines gap) {closing : Token}
    (closes : closing.kind = .rightParen) (rest : List Token) :
    dropLayout true false (gap ++ closing :: rest) = closing :: dropLayout true false rest := by
  induction gap with
  | nil => exact dropLayout_ending (by rw [closes]; rfl) true false rest
  | cons token gap ih =>
    have tail : AllNewlines gap :=
      fun other member => layout other (List.mem_cons_of_mem token member)
    rw [List.cons_append, dropLayout, if_pos (layout token List.mem_cons_self),
      beforeClosing_append tail closes, Bool.or_true, if_pos rfl]
    exact ih tail

/-- Line breaks behind a binary operator go, whatever its operands are made of. -/
theorem dropLayout_joined {sign : Token} {front gap back plain others : List Token}
    (strong : 0 < sign.kind.strength) (layout : AllNewlines gap)
    (first : ∀ (ended opened : Bool) (rest : List Token),
      dropLayout ended opened (front ++ rest) = plain ++ dropLayout true false rest)
    (second : ∀ (ended opened : Bool) (rest : List Token),
      dropLayout ended opened (back ++ rest) = others ++ dropLayout true false rest)
    (ended opened : Bool) (rest : List Token) :
    dropLayout ended opened ((front ++ sign :: (gap ++ back)) ++ rest)
      = (plain ++ sign :: others) ++ dropLayout true false rest := by
  have visible : sign.kind ≠ .newline := by
    intro same
    simp [same, TokenKind.strength] at strong
  have opens : (sign.kind == .leftParen || (true && decide (0 < sign.kind.strength))) = true := by
    simp [strong]
  simp only [List.append_assoc, List.cons_append]
  rw [first, dropLayout_cons visible, opens, dropLayout_opened layout, second]

/-- A binary operator keeps its kind only. -/
theorem symbol_of_strength {token : Token} (strong : 0 < token.kind.strength) :
    token.symbol = .sign token.kind := by
  refine symbol_eq_sign rfl ?_ ?_ ?_ <;>
    · intro same
      simp [same, TokenKind.strength] at strong

end Token

namespace Spells

/-- The tokens of a spelling that are no layout, with the yield of the tree as their symbols. What
stands before the spelling has no influence, and what follows stands behind an operand. -/
theorem dropLayout {stratum : Stratum} {tokens : List Token} {expr : Expr}
    (spelled : Spells stratum tokens expr) :
    ∃ plain : List Token, plain.map Token.symbol = expr.yield ∧
      ∀ (ended opened : Bool) (rest : List Token),
        Token.dropLayout ended opened (tokens ++ rest)
          = plain ++ Token.dropLayout true false rest := by
  -- The two flags are arbitrary: a spelling starts with no line break, so they do not matter.
  induction spelled with
  | @number token kind accepted =>
    refine ⟨[token], by simp [Token.symbol, kind, accepted, Expr.yield], ?_⟩
    intro ended opened rest
    exact Token.dropLayout_ending (by rw [kind]; rfl) ended opened rest
  | @text token kind | @trueWord token kind | @falseWord token kind | @nil token kind
  | @name token kind =>
    refine ⟨[token], by simp [Token.symbol, kind, Expr.yield], fun ended opened rest => ?_⟩
    exact Token.dropLayout_ending (by rw [kind]; rfl) ended opened rest
  | @paren opening closing before inside behind expr opens closes above below _ inner =>
    obtain ⟨plain, yields, drops⟩ := inner
    have left := Token.symbol_eq_sign opens (by simp) (by simp) (by simp)
    have right := Token.symbol_eq_sign closes (by simp) (by simp) (by simp)
    refine ⟨opening :: (plain ++ [closing]), by simp [left, right, yields, Expr.yield], ?_⟩
    intro ended opened rest
    rw [List.cons_append, Token.dropLayout_cons (by simp [opens]), opens]
    simp only [List.append_assoc, List.cons_append, List.nil_append]
    have opener : (TokenKind.leftParen == .leftParen
        || (ended && decide (0 < TokenKind.leftParen.strength))) = true := rfl
    rw [opener, Token.dropLayout_opened above, drops, Token.dropLayout_closing below closes]
  | @power sign front gap back base exponent kind layout _ _ left right =>
    obtain ⟨plain, yields, drops⟩ := left
    obtain ⟨others, yields_others, drops_others⟩ := right
    have strong : 0 < sign.kind.strength := by simp [kind, TokenKind.strength]
    refine ⟨plain ++ sign :: others, ?_, Token.dropLayout_joined strong layout drops drops_others⟩
    simp [yields, yields_others, Token.symbol_of_strength strong, kind, Expr.yield,
      BinaryOperator.kind]
  | @unary sign tokens expr kind _ operand =>
    obtain ⟨plain, yields, drops⟩ := operand
    have visible : sign.kind ≠ .newline := by rcases kind with kind | kind <;> simp [kind]
    have symbol : sign.symbol = .sign sign.kind := by
      rcases kind with kind | kind <;> simp [Token.symbol, kind]
    refine ⟨sign :: plain, ?_, fun ended opened rest => ?_⟩
    · simp [yields, symbol, Expr.yield, UnaryOperator.kind_ofKind kind]
    · rw [List.cons_append, Token.dropLayout_cons visible, drops, List.cons_append]
  | @chain stratum sign front gap back left right member layout _ _ first second =>
    obtain ⟨plain, yields, drops⟩ := first
    obtain ⟨others, yields_others, drops_others⟩ := second
    have strong : 0 < sign.kind.strength := by
      rw [Stratum.strength_of_mem member]
      cases stratum <;> simp [Stratum.strength]
    refine ⟨plain ++ sign :: others, ?_, Token.dropLayout_joined strong layout drops drops_others⟩
    simp [yields, yields_others, Token.symbol_of_strength strong, Expr.yield,
      BinaryOperator.kind_ofKind (Stratum.ne_unknown member)]
  | weaken _ _ inner => exact inner

/-- Without its layout, a spelling is the yield of its tree. -/
theorem map_symbol_withoutLayout {stratum : Stratum} {tokens : List Token} {expr : Expr}
    (spelled : Spells stratum tokens expr) :
    (Token.withoutLayout tokens).map Token.symbol = expr.yield := by
  obtain ⟨plain, yields, drops⟩ := spelled.dropLayout
  have whole := drops false false []
  rw [List.append_nil, Token.dropLayout, List.append_nil] at whole
  rw [Token.withoutLayout, whole, yields]

end Spells

/-! ## Spelling a tree -/

namespace Derives

/-- Tokens with the yield of a tree as their symbols spell that tree, up to places. -/
theorem spells {stratum : Stratum} {expr : Expr} (derived : Derives stratum expr)
    {tokens : List Token} (yields : tokens.map Token.symbol = expr.yield) :
    ∃ placed, Spells stratum tokens placed ∧ placed.bare = expr.bare := by
  -- The yield splits along the tree, so each part of it is spelled by the induction hypothesis.
  induction derived generalizing tokens with
  | number =>
    obtain ⟨token, rfl, same⟩ := List.map_eq_singleton_iff.1 yields
    obtain ⟨kind, accepted, value⟩ := Token.of_symbol_eq_number same
    exact ⟨_, .number kind accepted, by rw [Expr.bare, Expr.bare, value]⟩
  | text =>
    obtain ⟨token, rfl, same⟩ := List.map_eq_singleton_iff.1 yields
    obtain ⟨kind, rfl⟩ := Token.of_symbol_eq_text same
    exact ⟨_, .text kind, rfl⟩
  | @boolean span value =>
    cases value <;> obtain ⟨token, rfl, same⟩ := List.map_eq_singleton_iff.1 yields
    · exact ⟨_, .falseWord (Token.kind_of_symbol_eq_sign same), rfl⟩
    · exact ⟨_, .trueWord (Token.kind_of_symbol_eq_sign same), rfl⟩
  | nil =>
    obtain ⟨token, rfl, same⟩ := List.map_eq_singleton_iff.1 yields
    exact ⟨_, .nil (Token.kind_of_symbol_eq_sign same), rfl⟩
  | name =>
    obtain ⟨token, rfl, same⟩ := List.map_eq_singleton_iff.1 yields
    obtain ⟨kind, rfl⟩ := Token.of_symbol_eq_name same
    exact ⟨_, .name kind, rfl⟩
  | paren _ inner =>
    obtain ⟨opening, rest, rfl, opens, others⟩ := List.map_eq_cons_iff.1 yields
    obtain ⟨inside, last, rfl, inside_yields, closes⟩ := List.map_eq_append_iff.1 others
    obtain ⟨closing, rfl, closing_same⟩ := List.map_eq_singleton_iff.1 closes
    obtain ⟨placed, spelled, same⟩ := inner inside_yields
    refine ⟨_, .paren (Token.kind_of_symbol_eq_sign opens)
      (Token.kind_of_symbol_eq_sign closing_same) Token.allNewlines_nil Token.allNewlines_nil
      spelled, ?_⟩
    simp [Expr.bare, same]
  | power _ _ left right =>
    obtain ⟨front, rest, rfl, front_yields, others⟩ := List.map_eq_append_iff.1 yields
    obtain ⟨sign, back, rfl, same, back_yields⟩ := List.map_eq_cons_iff.1 others
    obtain ⟨base, base_spelled, base_same⟩ := left front_yields
    obtain ⟨exponent, exponent_spelled, exponent_same⟩ := right back_yields
    refine ⟨_, .power (Token.kind_of_symbol_eq_sign same) Token.allNewlines_nil
      base_spelled exponent_spelled, ?_⟩
    simp [Expr.bare, base_same, exponent_same]
  | unary known _ operand =>
    obtain ⟨sign, rest, rfl, same, rest_yields⟩ := List.map_eq_cons_iff.1 yields
    obtain ⟨placed, spelled, placed_same⟩ := operand rest_yields
    have kind := Token.kind_of_symbol_eq_sign same
    refine ⟨_, .unary (kind ▸ UnaryOperator.kind_eq known) spelled, ?_⟩
    simp [Expr.bare, placed_same, kind, UnaryOperator.ofKind_kind known]
  | chain member _ _ first second =>
    obtain ⟨front, rest, rfl, front_yields, others⟩ := List.map_eq_append_iff.1 yields
    obtain ⟨sign, back, rfl, same, back_yields⟩ := List.map_eq_cons_iff.1 others
    obtain ⟨left, left_spelled, left_same⟩ := first front_yields
    obtain ⟨right, right_spelled, right_same⟩ := second back_yields
    have operator := BinaryOperator.ofKind_kind (Stratum.ne_unknown member)
    rw [← Token.kind_of_symbol_eq_sign same] at operator
    refine ⟨_, .chain (operator ▸ member) Token.allNewlines_nil left_spelled right_spelled, ?_⟩
    simp [Expr.bare, left_same, right_same, operator]
  | weaken le _ inner =>
    obtain ⟨placed, spelled, same⟩ := inner yields
    exact ⟨placed, .weaken le spelled, same⟩

end Derives

end ConsoleScript
