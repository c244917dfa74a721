import Mathlib.Tactic.Common

/-!
# Runs of a step function

A run feeds a list of inputs to a step function. `exec` is the state reached,
`Throughout` says that a property holds in every state of the run, the first
and the last included, and `Along` says that every step of the run meets a
condition on the state before it and on its input.

An invariant kept by the steps that meet the condition holds throughout the
runs whose steps all meet it (`throughout_of_along`). When in addition every
other step destroys the property, the condition is exact
(`throughout_iff_along`). What ends a run for good does so at the first step that misses
its condition (`alive_iff_along`).

When a step brings about nothing but what its input gives, everything that
holds at the end of a run was there at the start or was given on the way
(`given_of_exec`). When a step loses nothing of a stock and adds nothing to it but
what comes in, a run balances what comes, what goes and what is left (`conserved`).

One system follows another when each of its steps is matched by some steps of the
other (`simulated`).
-/

set_option autoImplicit false

namespace Run

variable {State Input : Type*} (step : State → Input → State)

/-- The state reached from `state` by the inputs. -/
def exec (state : State) (inputs : List Input) : State := inputs.foldl step state

/-- The property holds in every state of the run. -/
def Throughout (property : State → Prop) : State → List Input → Prop
  | state, [] => property state
  | state, input :: inputs => property state ∧ Throughout property (step state input) inputs

/-- Every step of the run meets the condition. -/
def Along (condition : State → Input → Prop) : State → List Input → Prop
  | _, [] => True
  | state, input :: inputs =>
      condition state input ∧ Along condition (step state input) inputs

@[simp] theorem exec_nil (state : State) : exec step state [] = state := rfl

@[simp] theorem exec_cons (state : State) (input : Input) (inputs : List Input) :
    exec step state (input :: inputs) = exec step (step state input) inputs := rfl

variable {step} {invariant property : State → Prop} {condition : State → Input → Prop}
  {valid : Input → Prop}

/-- What holds throughout a run holds where it ends. -/
theorem Throughout.last {inputs : List Input} {state : State}
    (always : Throughout step property state inputs) : property (exec step state inputs) := by
  induction inputs generalizing state with
  | nil => exact always
  | cons input inputs ih => exact ih always.2

theorem Throughout.mono {stronger : State → Prop}
    (weaken : ∀ state, stronger state → property state) {inputs : List Input} {state : State}
    (always : Throughout step stronger state inputs) :
    Throughout step property state inputs := by
  induction inputs generalizing state with
  | nil => exact weaken state always
  | cons input inputs ih => exact ⟨weaken state always.1, ih always.2⟩

theorem Along.and {other : State → Input → Prop} {inputs : List Input} {state : State}
    (along : Along step condition state inputs) (alongOther : Along step other state inputs) :
    Along step (fun state input => condition state input ∧ other state input) state inputs := by
  induction inputs generalizing state with
  | nil => trivial
  | cons input inputs ih => exact ⟨⟨along.1, alongOther.1⟩, ih along.2 alongOther.2⟩

/-- A condition that every input meets in every state is met along every run. -/
theorem along_of_forall {inputs : List Input} {state : State}
    (meets : ∀ state, ∀ input ∈ inputs, condition state input) :
    Along step condition state inputs := by
  induction inputs generalizing state with
  | nil => trivial
  | cons input inputs ih =>
      exact ⟨meets state input (List.mem_cons_self ..),
        ih fun state' input' member => meets state' input' (List.mem_cons_of_mem _ member)⟩

/-- **An invariant of the steps that meet the condition** holds throughout
every run along the condition. -/
theorem throughout_of_along
    (keeps : ∀ state input, valid input → invariant state → condition state input →
      invariant (step state input))
    {inputs : List Input} {state : State} (holds : invariant state)
    (allValid : ∀ input ∈ inputs, valid input)
    (along : Along step condition state inputs) :
    Throughout step invariant state inputs := by
  induction inputs generalizing state with
  | nil => exact holds
  | cons input inputs ih =>
      refine ⟨holds, ih ?_ (fun other member => allValid other (List.mem_cons_of_mem _ member))
        along.2⟩
      exact keeps state input (allValid input (List.mem_cons_self ..)) holds along.1

/-- What the invariant and the condition give of each step holds along every run
that meets the condition. -/
theorem Along.of_invariant {goal : State → Input → Prop}
    (keeps : ∀ state input, valid input → invariant state → condition state input →
      invariant (step state input))
    (gives : ∀ state input, valid input → invariant state → condition state input →
      goal state input)
    {inputs : List Input} {state : State} (holds : invariant state)
    (allValid : ∀ input ∈ inputs, valid input) (along : Along step condition state inputs) :
    Along step goal state inputs := by
  induction inputs generalizing state with
  | nil => trivial
  | cons input inputs ih =>
      have isValid := allValid input (List.mem_cons_self ..)
      exact ⟨gives state input isValid holds along.1, ih (keeps state input isValid holds along.1)
        (fun other member => allValid other (List.mem_cons_of_mem _ member)) along.2⟩

/-- An invariant of every step holds throughout every run. -/
theorem throughout_invariant
    (keeps : ∀ state input, valid input → invariant state → invariant (step state input))
    {inputs : List Input} {state : State} (holds : invariant state)
    (allValid : ∀ input ∈ inputs, valid input) : Throughout step invariant state inputs := by
  have along : Along step (fun _ _ => True) state inputs := along_of_forall fun _ _ _ => trivial
  refine throughout_of_along ?_ holds allValid along
  intro state input isValid before _
  exact keeps state input isValid before

/-- An invariant of every step holds at the end of every run. -/
theorem exec_invariant
    (keeps : ∀ state input, valid input → invariant state → invariant (step state input))
    {inputs : List Input} {state : State} (holds : invariant state)
    (allValid : ∀ input ∈ inputs, valid input) : invariant (exec step state inputs) :=
  (throughout_invariant keeps holds allValid).last

/-- When the steps that miss the condition destroy the property, a run that
keeps the property meets the condition at every step. -/
theorem along_of_throughout
    (keeps : ∀ state input, valid input → invariant state → condition state input →
      invariant (step state input))
    (breaks : ∀ state input, valid input → invariant state → ¬ condition state input →
      ¬ property (step state input))
    {inputs : List Input} {state : State} (holds : invariant state)
    (allValid : ∀ input ∈ inputs, valid input)
    (always : Throughout step property state inputs) : Along step condition state inputs := by
  induction inputs generalizing state with
  | nil => trivial
  | cons input inputs ih =>
      have isValid := allValid input (List.mem_cons_self ..)
      have after : property (step state input) := by
        cases inputs with
        | nil => exact always.2
        | cons _ _ => exact always.2.1
      have meets : condition state input := by
        by_contra misses
        exact breaks state input isValid holds misses after
      exact ⟨meets, ih (keeps state input isValid holds meets)
        (fun other member => allValid other (List.mem_cons_of_mem _ member)) always.2⟩

/-- **The exact condition.** When the steps that miss the condition destroy the
property, the property holds throughout exactly the runs along the
condition. -/
theorem throughout_iff_along
    (sound : ∀ state, invariant state → property state)
    (keeps : ∀ state input, valid input → invariant state → condition state input →
      invariant (step state input))
    (breaks : ∀ state input, valid input → invariant state → ¬ condition state input →
      ¬ property (step state input))
    {inputs : List Input} {state : State} (holds : invariant state)
    (allValid : ∀ input ∈ inputs, valid input) :
    Throughout step property state inputs ↔ Along step condition state inputs :=
  ⟨along_of_throughout keeps breaks holds allValid, fun along =>
    (throughout_of_along keeps holds allValid along).mono sound⟩

/-- A run does not come back from an end. -/
theorem dead_exec {alive : State → Prop}
    (dead : ∀ state input, ¬ alive state → ¬ alive (step state input))
    {state : State} (isDead : ¬ alive state) (inputs : List Input) :
    ¬ alive (exec step state inputs) := by
  induction inputs generalizing state with
  | nil => exact isDead
  | cons input inputs ih => exact ih (dead state input isDead)

/-- **What ends a run.** When an end is final and a step goes on exactly when it meets the
condition, a run goes on to its last state exactly when all its steps meet it. -/
theorem alive_iff_along {alive : State → Prop}
    (keeps : ∀ state input, valid input → invariant state → invariant (step state input))
    (dead : ∀ state input, ¬ alive state → ¬ alive (step state input))
    (lives : ∀ state input, valid input → invariant state → alive state →
      (alive (step state input) ↔ condition state input))
    {inputs : List Input} {state : State} (holds : invariant state)
    (allValid : ∀ input ∈ inputs, valid input) (starts : alive state) :
    alive (exec step state inputs) ↔ Along step condition state inputs := by
  induction inputs generalizing state with
  | nil => exact iff_of_true starts trivial
  | cons input inputs ih =>
      have isValid := allValid input (List.mem_cons_self ..)
      rw [exec_cons, Along, ← lives state input isValid holds starts]
      by_cases goesOn : alive (step state input)
      · rw [ih (keeps state input isValid holds)
          (fun other member => allValid other (List.mem_cons_of_mem _ member)) goesOn]
        exact (and_iff_right goesOn).symm
      · exact iff_of_false (dead_exec dead goesOn inputs) fun along => goesOn along.1

theorem exec_append (state : State) (first second : List Input) :
    exec step state (first ++ second) = exec step (exec step state first) second :=
  List.foldl_append ..

theorem along_append {first second : List Input} {state : State} :
    Along step condition state (first ++ second) ↔
      Along step condition state first ∧
        Along step condition (exec step state first) second := by
  induction first generalizing state with
  | nil => simp [Along]
  | cons input inputs ih => simp only [List.cons_append, Along, ih, exec_cons, and_assoc]

/-- What the steps of a run put out, one after another. -/
def emitted {Out : Type*} (step : State → Input → State) (emit : State → Input → List Out) :
    State → List Input → List Out
  | _, [] => []
  | state, input :: inputs => emit state input ++ emitted step emit (step state input) inputs

/-- An input of the run brings the thing about, in the state before it. -/
def GivenIn {Thing : Type*} (step : State → Input → State)
    (given : State → Input → Thing → Prop) (state : State) (inputs : List Input)
    (thing : Thing) : Prop :=
  ∃ before input after, inputs = before ++ input :: after ∧
    given (exec step state before) input thing

/-- **Nothing comes from nowhere.** When a step brings about nothing but what its
input gives, what is there at the end of a run was there at its start or is
given by one of its inputs. -/
theorem given_of_exec {Thing : Type*} {has : State → Thing → Prop}
    {given : State → Input → Thing → Prop}
    (keeps : ∀ state input, valid input → invariant state → invariant (step state input))
    (origin : ∀ state input thing, valid input → invariant state →
      has (step state input) thing → has state thing ∨ given state input thing)
    {inputs : List Input} {state : State} (holds : invariant state)
    (allValid : ∀ input ∈ inputs, valid input) {thing : Thing}
    (present : has (exec step state inputs) thing) :
    has state thing ∨ GivenIn step given state inputs thing := by
  induction inputs generalizing state with
  | nil => exact .inl present
  | cons input inputs ih =>
      have isValid := allValid input (List.mem_cons_self ..)
      rcases ih (keeps state input isValid holds)
          (fun other member => allValid other (List.mem_cons_of_mem _ member)) present with
        early | ⟨before, later, after, rfl, gives⟩
      · rcases origin state input thing isValid holds early with atStart | first
        · exact .inl atStart
        · exact .inr ⟨[], input, inputs, rfl, first⟩
      · exact .inr ⟨input :: before, later, after, rfl, gives⟩

/-- **What comes in goes out or is still there.** -/
theorem conserved {Item : Type*} {stock : State → List Item}
    {comes goes : State → Input → List Item}
    (balances : ∀ state input,
      (stock state ++ comes state input).Perm (goes state input ++ stock (step state input)))
    (state : State) (inputs : List Input) :
    (stock state ++ emitted step comes state inputs).Perm
      (emitted step goes state inputs ++ stock (exec step state inputs)) := by
  induction inputs generalizing state with
  | nil => exact .of_eq (List.append_nil _)
  | cons input inputs ih =>
      simp only [emitted, exec_cons, ← List.append_assoc]
      refine ((balances state input).append_right _).trans ?_
      rw [List.append_assoc, List.append_assoc]
      exact (ih (step state input)).append_left _

/-- What is left of a stock that grows at its end is in the order in which it came. -/
theorem sublist_emitted {Item : Type*} {stock : State → List Item}
    {comes : State → Input → List Item}
    (grows : ∀ state input, (stock (step state input)).Sublist (stock state ++ comes state input))
    (state : State) (inputs : List Input) :
    (stock (exec step state inputs)).Sublist
      (stock state ++ emitted step comes state inputs) := by
  induction inputs generalizing state with
  | nil => exact List.sublist_append_left ..
  | cons input inputs ih =>
      simp only [emitted, exec_cons, ← List.append_assoc]
      exact (ih (step state input)).trans ((grows state input).append_right _)

/-- **A system follows another** when each step of the first is matched by what it puts
out as steps of the second. -/
theorem simulated {Other Move : Type*} {otherStep : Other → Move → Other}
    {moves : State → Input → List Move} {related : State → Other → Prop}
    (keeps : ∀ state input, valid input → invariant state → invariant (step state input))
    (follows : ∀ state input other, valid input → invariant state → related state other →
      related (step state input) (exec otherStep other (moves state input)))
    {inputs : List Input} {state : State} {other : Other} (holds : invariant state)
    (allValid : ∀ input ∈ inputs, valid input) (starts : related state other) :
    related (exec step state inputs)
      (exec otherStep other (emitted step moves state inputs)) := by
  induction inputs generalizing state other with
  | nil => exact starts
  | cons input inputs ih =>
      have isValid := allValid input (List.mem_cons_self ..)
      rw [exec_cons, emitted, exec_append]
      exact ih (keeps state input isValid holds)
        (fun other member => allValid other (List.mem_cons_of_mem _ member))
        (follows state input other isValid holds starts)

end Run
