import ConsoleScript.Evaluation.Expression
import Mathlib.Data.List.Induction

/-! # Environments and the bindings that led to them

An environment is kept as a sorted list, but it says no more than which value each name was bound to
last.

* **`Environment.mem_names`** — the names of an environment and its bindings agree;
* **`Environment.exchangeAll`** — makes bindings one after the other and collects what each of them
  tells of the one before it;
* **`Environment.lastBound?`** — the value that a history of bindings bound a name to last;
* **`Environment.get?_ofHistory`** — each binding hides the earlier ones of its name and no others,
  so the environment behind a history has the last one of each name.

`environment_follows_history` puts these together. -/

namespace ConsoleScript

namespace Environment

/-! ## Names and bindings -/

@[simp] theorem get?_empty (name : Bytes) : empty.get? name = none := rfl

/-- The names of an environment are those that are bound. -/
theorem mem_names {environment : Environment} {name : Bytes} :
    name ∈ environment.names ↔ environment.get? name ≠ none := by
  rw [names, get?, Ne, List.lookup_eq_none_iff]
  constructor
  · rintro member unbound
    obtain ⟨entry, inside, rfl⟩ := List.mem_map.1 member
    exact bne_iff_ne.1 (unbound entry inside) rfl
  · intro bound
    by_contra absent
    refine bound fun entry inside => bne_iff_ne.2 ?_
    rintro rfl
    exact absent (List.mem_map_of_mem inside)

/-- The names of an environment increase strictly in the order of their bytes. -/
theorem pairwise_names (environment : Environment) : environment.names.Pairwise (· < ·) :=
  List.pairwise_map.2 environment.sorted

@[simp] theorem length_names (environment : Environment) :
    environment.names.length = environment.size :=
  List.length_map _

/-- Reading a name gives the value that it is bound to, or complains about the name. -/
theorem evaluate_name (environment : Environment) (span : Span) (name : Bytes) :
    (Expr.name span name).evaluate environment
      = (environment.get? name).elim (.error ⟨.undeclared name, span⟩) .ok := by
  rw [Expr.evaluate]
  cases environment.get? name <;> rfl

/-! ## Histories -/

/-- Makes bindings in order: what each of them tells of its name just before, and the environment
behind them. -/
def exchangeAll (environment : Environment) :
    List (Bytes × Value) → List (Option Value) × Environment
  | [] => ([], environment)
  | (name, value) :: later =>
    let first := environment.exchange name value
    let others := first.2.exchangeAll later
    (first.1 :: others.1, others.2)

/-- The environment behind bindings that were made in order, from none on. -/
def ofHistory (history : List (Bytes × Value)) : Environment :=
  (empty.exchangeAll history).2

/-- The value that a history of bindings bound a name to last. -/
def lastBound? (history : List (Bytes × Value)) (name : Bytes) : Option Value :=
  (history.filter fun entry => entry.1 = name).getLast?.map Prod.snd

/-- Bindings may be made in two goes. -/
theorem exchangeAll_append (environment : Environment) (history later : List (Bytes × Value)) :
    environment.exchangeAll (history ++ later)
      = ((environment.exchangeAll history).1
          ++ ((environment.exchangeAll history).2.exchangeAll later).1,
        ((environment.exchangeAll history).2.exchangeAll later).2) := by
  induction history generalizing environment with
  | nil => rfl
  | cons entry history ih =>
    simp only [List.cons_append, exchangeAll, ih]

theorem ofHistory_concat (history : List (Bytes × Value)) (name : Bytes) (value : Value) :
    ofHistory (history ++ [(name, value)]) = (ofHistory history).set name value := by
  rw [ofHistory, exchangeAll_append]
  rfl

/-- The last binding of a history hides the earlier ones of its name, and no others. -/
theorem lastBound?_concat (history : List (Bytes × Value)) (name : Bytes) (value : Value)
    (other : Bytes) :
    lastBound? (history ++ [(name, value)]) other
      = if other = name then some value else lastBound? history other := by
  rw [lastBound?, List.filter_append]
  by_cases same : other = name
  · subst same
    simp
  · simp [same, Ne.symm same, lastBound?]

/-- No value was bound last just if there was no binding of the name. -/
theorem lastBound?_eq_none_iff {history : List (Bytes × Value)} {name : Bytes} :
    lastBound? history name = none ↔ name ∉ history.map Prod.fst := by
  rw [lastBound?, Option.map_eq_none_iff, List.getLast?_eq_none_iff, List.filter_eq_nil_iff]
  simp only [decide_eq_true_eq, List.mem_map, not_exists, not_and]

/-- In the environment behind a history a name has the value that it was bound to last. -/
theorem get?_ofHistory (history : List (Bytes × Value)) (name : Bytes) :
    (ofHistory history).get? name = lastBound? history name := by
  induction history using List.reverseRecOn with
  | nil => rfl
  | append_singleton history entry ih =>
    rw [ofHistory_concat, get?_set, ih, lastBound?_concat]

/-- Each binding tells what its name was bound to behind those before it. -/
theorem getElem?_exchangeAll (environment : Environment) (history : List (Bytes × Value))
    (index : Nat) :
    (environment.exchangeAll history).1[index]? = history[index]?.map fun entry =>
      (environment.exchangeAll (history.take index)).2.get? entry.1 := by
  induction history generalizing environment index with
  | nil => simp [exchangeAll]
  | cons entry history ih =>
    obtain ⟨name, value⟩ := entry
    cases index with
    | zero => rfl
    | succ index => exact ih (environment.set name value) index

end Environment

/-- **An environment follows its history.** After any bindings, made one after the other from none
on, reading a name gives the value of its last binding, and complains about the name just if there
was no binding of it. Each binding tells what reading its name would have given just before it. The
names are listed in strictly increasing order of their bytes, they are just those that were bound,
and the size is their number. -/
theorem environment_follows_history (history : List (Bytes × Value)) :
    let answers := (Environment.empty.exchangeAll history).1
    let environment := (Environment.empty.exchangeAll history).2
    (∀ name, environment.get? name = Environment.lastBound? history name) ∧
      (∀ span name, (Expr.name span name).evaluate environment
        = (Environment.lastBound? history name).elim (.error ⟨.undeclared name, span⟩) .ok) ∧
      (∀ name, Environment.lastBound? history name = none ↔ name ∉ history.map Prod.fst) ∧
      (∀ index : Nat, answers[index]? = history[index]?.map fun entry =>
        (Environment.empty.exchangeAll (history.take index)).2.get? entry.1) ∧
      environment.names.Pairwise (· < ·) ∧
      (∀ name, name ∈ environment.names ↔ name ∈ history.map Prod.fst) ∧
      environment.size = environment.names.length := by
  intro answers environment
  have bindings (name : Bytes) : environment.get? name = Environment.lastBound? history name :=
    Environment.get?_ofHistory history name
  refine ⟨bindings, ?_, fun _ => Environment.lastBound?_eq_none_iff,
    Environment.getElem?_exchangeAll _ _, environment.pairwise_names, ?_,
    environment.length_names.symm⟩
  · intro span name
    rw [Environment.evaluate_name, bindings]
  · intro name
    rw [Environment.mem_names, bindings, Ne, Environment.lastBound?_eq_none_iff, not_not]

end ConsoleScript
