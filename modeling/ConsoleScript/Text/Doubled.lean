import ConsoleScript.Text.Bytes

/-! # Text literals

A text literal is a text between double quotes in which a quote of the text is written twice.
`quoteLiteral` writes one and `unquoteLiteral` reads one back; the reader also takes a text without
the outer quotes, of which it only joins the doubled ones. -/

namespace ConsoleScript

namespace Bytes

/-- Writes every double quote twice. -/
def doubleQuotes : Bytes → Bytes
  | [] => []
  | byte :: rest =>
    if byte = 0x22 then 0x22 :: 0x22 :: doubleQuotes rest else byte :: doubleQuotes rest

/-- Joins two double quotes in a row into one, from left to right. -/
def joinQuotes : Bytes → Bytes
  | [] => []
  | 0x22 :: 0x22 :: rest => 0x22 :: joinQuotes rest
  | byte :: rest => byte :: joinQuotes rest

/-- The literal that stands for a text. -/
def quoteLiteral (text : Bytes) : Bytes :=
  0x22 :: doubleQuotes text ++ [0x22]

/-- The text that a literal stands for. -/
def unquoteLiteral (raw : Bytes) : Bytes :=
  match raw with
  | 0x22 :: rest =>
    if rest.getLast? = some 0x22 then joinQuotes rest.dropLast else joinQuotes raw
  | _ => joinQuotes raw

/-- A byte that is no quote is kept. -/
theorem joinQuotes_cons_of_ne {byte : UInt8} (no_quote : byte ≠ 0x22) (rest : Bytes) :
    joinQuotes (byte :: rest) = byte :: joinQuotes rest := by
  rw [joinQuotes]
  exact fun _ quote => absurd quote no_quote

/-- A quote that no other quote follows is kept, too. -/
theorem joinQuotes_quote {rest : Bytes} (single : rest.head? ≠ some 0x22) :
    joinQuotes (0x22 :: rest) = 0x22 :: joinQuotes rest := by
  rw [joinQuotes]
  rintro others - rfl
  exact single rfl

/-- Joining undoes doubling. -/
theorem joinQuotes_doubleQuotes (text : Bytes) : joinQuotes (doubleQuotes text) = text := by
  induction text with
  | nil => rfl
  | cons byte rest ih =>
    by_cases quote : byte = 0x22
    · simp [doubleQuotes, joinQuotes, quote, ih]
    · rw [doubleQuotes, if_neg quote, joinQuotes_cons_of_ne quote, ih]

/-- Reading a literal joins the quotes between the outer ones. -/
theorem unquoteLiteral_enclosed (body : Bytes) :
    unquoteLiteral (0x22 :: body ++ [0x22]) = joinQuotes body := by
  show (if (body ++ [0x22]).getLast? = some 0x22 then joinQuotes (body ++ [0x22]).dropLast
    else _) = _
  rw [if_pos List.getLast?_concat, List.dropLast_concat]

/-- Without the outer quotes, all quotes of a text are joined. -/
theorem unquoteLiteral_of_bare {raw : Bytes} (bare : ∀ body, raw ≠ 0x22 :: body ++ [0x22]) :
    unquoteLiteral raw = joinQuotes raw := by
  unfold unquoteLiteral
  split
  · next rest =>
    split
    · next last =>
      obtain ⟨body, rfl⟩ := List.getLast?_eq_some_iff.1 last
      exact absurd rfl (bare body)
    · rfl
  · rfl

end Bytes

end ConsoleScript
