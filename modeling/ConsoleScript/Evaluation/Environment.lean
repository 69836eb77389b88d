import ConsoleScript.Evaluation.Value

/-! # Environments

The variables of a program live in one flat scope: a finite map from names to values. It is kept as
a list with strictly increasing names, in the order of their bytes, so the listing of an environment
is the environment itself. -/

namespace ConsoleScript

/-- A finite map from names to values. -/
@[ext] structure Environment where
  /-- The names with their values. -/
  entries : List (Bytes × Value)
  /-- The names are strictly increasing. -/
  sorted : entries.Pairwise fun first second => first.1 < second.1

namespace Environment

/-- The environment without any name. -/
def empty : Environment :=
  ⟨[], .nil⟩

/-- The value of a name, if it is bound. -/
def get? (environment : Environment) (name : Bytes) : Option Value :=
  environment.entries.lookup name

/-- The bound names in increasing order. -/
def names (environment : Environment) : List Bytes :=
  environment.entries.map Prod.fst

/-- The number of bound names. -/
def size (environment : Environment) : Nat :=
  environment.entries.length

/-- Entries with `name` bound to `value`, in place of its old entry if there is one. -/
def insertEntry (name : Bytes) (value : Value) : List (Bytes × Value) → List (Bytes × Value)
  | [] => [(name, value)]
  | (key, old) :: rest =>
    if name < key then (name, value) :: (key, old) :: rest
    else if name = key then (name, value) :: rest
    else (key, old) :: insertEntry name value rest

theorem mem_insertEntry {name : Bytes} {value : Value} {entries : List (Bytes × Value)}
    {entry : Bytes × Value} (member : entry ∈ insertEntry name value entries) :
    entry = (name, value) ∨ entry ∈ entries := by
  induction entries with
  | nil => simpa [insertEntry] using member
  | cons head rest ih =>
    obtain ⟨key, old⟩ := head
    rw [insertEntry] at member
    split at member
    · simpa using member
    · split at member
      · rcases List.mem_cons.1 member with here | there
        · exact .inl here
        · exact .inr (List.mem_cons_of_mem _ there)
      · rcases List.mem_cons.1 member with here | there
        · exact .inr (by simp [here])
        · exact (ih there).imp id (List.mem_cons_of_mem _)

theorem pairwise_insertEntry (name : Bytes) (value : Value) {entries : List (Bytes × Value)}
    (sorted : entries.Pairwise fun first second => first.1 < second.1) :
    (insertEntry name value entries).Pairwise fun first second => first.1 < second.1 := by
  induction entries with
  | nil => simp [insertEntry]
  | cons head rest ih =>
    obtain ⟨key, old⟩ := head
    obtain ⟨above, rest_sorted⟩ := List.pairwise_cons.1 sorted
    rw [insertEntry]
    split
    · rename_i before
      refine List.pairwise_cons.2 ⟨fun entry member => ?_, sorted⟩
      rcases List.mem_cons.1 member with here | there
      · exact here ▸ before
      · exact List.lt_trans before (above entry there)
    · rename_i not_before
      split
      · rename_i same
        subst same
        exact List.pairwise_cons.2 ⟨above, rest_sorted⟩
      · rename_i different
        refine List.pairwise_cons.2 ⟨fun entry member => ?_, ih rest_sorted⟩
        rcases mem_insertEntry member with new | old_entry
        · exact new ▸ Std.lt_of_le_of_ne not_before (Ne.symm different)
        · exact above entry old_entry

/-- The environment with `name` bound to `value`. -/
def set (environment : Environment) (name : Bytes) (value : Value) : Environment :=
  ⟨insertEntry name value environment.entries, pairwise_insertEntry name value environment.sorted⟩

/-- Binds a name, and tells what it was bound to just before. -/
def exchange (environment : Environment) (name : Bytes) (value : Value) :
    Option Value × Environment :=
  (environment.get? name, environment.set name value)

@[simp] theorem fst_exchange (environment : Environment) (name : Bytes) (value : Value) :
    (environment.exchange name value).1 = environment.get? name := rfl

@[simp] theorem snd_exchange (environment : Environment) (name : Bytes) (value : Value) :
    (environment.exchange name value).2 = environment.set name value := rfl

theorem lookup_cons (key : Bytes) (value : Value) (rest : List (Bytes × Value)) (name : Bytes) :
    ((key, value) :: rest).lookup name = if name = key then some value else rest.lookup name := by
  rw [List.lookup_cons]
  by_cases here : name = key
  · rw [if_pos here, beq_iff_eq.2 here]
  · rw [if_neg here, beq_eq_false_iff_ne.2 here]

theorem lookup_insertEntry (name : Bytes) (value : Value) (entries : List (Bytes × Value))
    (other : Bytes) :
    (insertEntry name value entries).lookup other
      = if other = name then some value else entries.lookup other := by
  induction entries with
  | nil => rw [insertEntry, lookup_cons]
  | cons head rest ih =>
    obtain ⟨key, old⟩ := head
    rw [insertEntry]
    split
    · rw [lookup_cons]
    · split
      · rename_i same
        subst same
        rw [lookup_cons, lookup_cons]
        split <;> rfl
      · rename_i different
        rw [lookup_cons, lookup_cons, ih]
        by_cases here : other = key
        · subst here
          simp [Ne.symm different]
        · simp [here]

/-- Binding a name changes the value of this name only. -/
theorem get?_set (environment : Environment) (name : Bytes) (value : Value) (other : Bytes) :
    (environment.set name value).get? other
      = if other = name then some value else environment.get? other :=
  lookup_insertEntry name value environment.entries other

end Environment

end ConsoleScript
