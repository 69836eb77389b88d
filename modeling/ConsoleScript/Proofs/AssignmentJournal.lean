import ConsoleScript.Proofs.RunSteps

/-! # The journal of a run

The assignments among the events of a run are a journal of its variables.

* **`Environment.replay`** — binds the names of a journal one after the other;
* **`State.Journaled`** — the variables are what the journal leads to, and each entry has the
  binding that its name had at this point of the replay;
* **`State.Journaled.step`**, **`Node.journaled`** — every step keeps the journal right, so it is
  right at the end of every run, whether there is a result or a failure. -/

namespace ConsoleScript

open Relation (ReflTransGen)

/-- An environment after the assignments of a journal: names with their bindings before, which are
not looked at, and their new values. -/
def Environment.replay (environment : Environment)
    (journal : List (Bytes × Option Value × Value)) : Environment :=
  journal.foldl (fun now entry => now.set entry.1 entry.2.2) environment

namespace State

/-- The assignments of a run, in order. -/
def journal (state : State) : List (Bytes × Option Value × Value) :=
  state.events.filterMap Event.assignment?

theorem journal_assign (state : State) (name : Bytes) (value : Value) :
    (state.assign name value).journal
      = state.journal ++ [(name, state.environment.get? name, value)] := by
  simp [journal, events, assign, Event.assignment?]

theorem journal_record {event : Event} (no_binding : event.assignment? = none) (state : State) :
    (state.record event).journal = state.journal := by
  simp [journal, events, record, no_binding]

/-- The journal of a run that began with `environment` is right. -/
structure Journaled (environment : Environment) (state : State) : Prop where
  /-- Replaying it gives the variables. -/
  replayed : environment.replay state.journal = state.environment
  /-- Each entry has the binding of its name just before it. -/
  previous : ∀ before name previous value,
    before ++ [(name, previous, value)] <+: state.journal →
      previous = (environment.replay before).get? name

namespace Journaled

variable {environment : Environment} {state after : State}

/-- Nothing has been assigned at the start. -/
theorem start (environment : Environment) : (State.start environment).Journaled environment where
  replayed := rfl
  previous before name previous value early := by
    have nothing := List.prefix_nil.1 early
    simp at nothing

/-- An event that is no assignment changes nothing. -/
theorem record (journaled : state.Journaled environment) {event : Event}
    (no_binding : event.assignment? = none) : (state.record event).Journaled environment where
  replayed := by
    rw [journal_record no_binding]
    exact journaled.replayed
  previous := by
    rw [journal_record no_binding]
    exact journaled.previous

/-- An assignment is entered with the binding before it. -/
theorem assign (journaled : state.Journaled environment) (name : Bytes) (value : Value) :
    (state.assign name value).Journaled environment where
  replayed := by
    rw [journal_assign, Environment.replay, List.foldl_concat]
    exact congrArg (Environment.set · name value) journaled.replayed
  previous before other previous old early := by
    rw [journal_assign] at early
    rcases List.prefix_concat_iff.1 early with last | earlier
    · -- The entry is the new one, and what stands before it is the journal so far.
      obtain ⟨rfl, entry⟩ := List.append_inj' last rfl
      obtain ⟨rfl, rfl, rfl⟩ : other = name ∧ previous = _ ∧ old = value := by simpa using entry
      rw [journaled.replayed]
    · exact journaled.previous before other previous old earlier

/-- Every step keeps the journal right. -/
theorem step {parts : List Stmt} {console : Console} (journaled : state.Journaled environment)
    (step : Step parts console state after) : after.Journaled environment := by
  cases step with
  | assigned => exact journaled.assign _ _
  | printed => exact journaled.record rfl
  | noted _ no_binding => exact journaled.record no_binding

/-- So does every sequence of steps. -/
theorem steps {parts : List Stmt} {console : Console} (journaled : state.Journaled environment)
    (steps : ReflTransGen (Step parts console) state after) : after.Journaled environment :=
  kept_of_steps (fun _ _ now last => now.step last) steps journaled

end Journaled

end State

/-- At the end of every run the journal is right. -/
theorem Node.journaled (node : Node) {fuel : Nat} {console : Console} {environment : Environment}
    {after : State} (ends : (node.run fuel console (.start environment)).state? = some after) :
    after.Journaled environment :=
  (State.Journaled.start environment).steps (node.steps ends)

end ConsoleScript
