import Mathlib.Logic.Function.Basic
import Mathlib.Tactic.Common

/-!
# Tables written by a log

A log is a list of changes. Every change has a key, and leaves a value or nothing
under it. `table` is what is under each key after a log.

The last change of a key decides (`table_of_last`), a key without a change keeps
what it had (`table_untouched`), and every key is one of the two
(`last_or_untouched`).
-/

set_option autoImplicit false

namespace KeyedLog

variable {Key Value Change : Type*} [DecidableEq Key] (key : Change → Key)
  (value : Change → Option Value)

/-- What is under each key after the changes. -/
def table (start : Key → Option Value) (changes : List Change) : Key → Option Value :=
  changes.foldl (fun table change => Function.update table (key change) (value change)) start

variable {key value} {start : Key → Option Value} {changes later : List Change} {asked : Key}

theorem table_append :
    table key value start (changes ++ later) =
      table key value (table key value start changes) later := List.foldl_append

theorem table_cons {change : Change} :
    table key value start (change :: changes) =
      table key value (Function.update start (key change) (value change)) changes := rfl

/-- A key that no change is about keeps what it had. -/
theorem table_untouched (untouched : ∀ change ∈ changes, key change ≠ asked) :
    table key value start changes asked = start asked := by
  induction changes generalizing start with
  | nil => rfl
  | cons change changes ih =>
      rw [table_cons, ih fun other member => untouched other (List.mem_cons_of_mem _ member)]
      exact Function.update_of_ne (Ne.symm (untouched change (List.mem_cons_self ..))) ..

/-- **The last change of a key decides.** -/
theorem table_of_last {change : Change} (isLast : ∀ other ∈ later, key other ≠ key change) :
    table key value start (changes ++ change :: later) (key change) = value change := by
  rw [table_append, table_cons, table_untouched isLast]
  exact Function.update_self ..

/-- A key has a last change or none. -/
theorem last_or_untouched (changes : List Change) (asked : Key) :
    (∃ first change later, changes = first ++ change :: later ∧ key change = asked ∧
      ∀ other ∈ later, key other ≠ asked) ∨ ∀ change ∈ changes, key change ≠ asked := by
  induction changes with
  | nil => exact .inr fun change member => absurd member List.not_mem_nil
  | cons change changes ih =>
      rcases ih with ⟨first, last, later, isSplit, isKey, isLast⟩ | untouched
      · exact .inl ⟨change :: first, last, later, by rw [isSplit, List.cons_append], isKey, isLast⟩
      · by_cases isKey : key change = asked
        · exact .inl ⟨[], change, changes, rfl, isKey, untouched⟩
        · refine .inr fun other member => ?_
          rcases List.mem_cons.mp member with rfl | inRest
          · exact isKey
          · exact untouched other inRest

/-- A value is under a key because it was there at the start and no change is about
the key, or because the last change of the key left it. -/
theorem table_eq_some {found : Value} (isFound : table key value start changes asked = some found) :
    (∃ first change later, changes = first ++ change :: later ∧ key change = asked ∧
        (∀ other ∈ later, key other ≠ asked) ∧ value change = some found) ∨
      (∀ change ∈ changes, key change ≠ asked) ∧ start asked = some found := by
  rcases @last_or_untouched _ _ _ key changes asked with
    ⟨first, change, later, isSplit, isKey, isLast⟩ | untouched
  · subst isSplit isKey
    rw [table_of_last isLast] at isFound
    exact .inl ⟨first, change, later, rfl, rfl, isLast, isFound⟩
  · rw [table_untouched untouched] at isFound
    exact .inr ⟨untouched, isFound⟩

/-- Nothing is under a key because nothing was there at the start and no change is
about the key, or because the last change of the key left nothing. -/
theorem table_eq_none (isNone : table key value start changes asked = none) :
    (∃ change ∈ changes, key change = asked ∧ value change = none) ∨
      (∀ change ∈ changes, key change ≠ asked) ∧ start asked = none := by
  rcases @last_or_untouched _ _ _ key changes asked with
    ⟨first, change, later, isSplit, isKey, isLast⟩ | untouched
  · subst isSplit isKey
    rw [table_of_last isLast] at isNone
    exact .inl ⟨change, List.mem_append_right _ (List.mem_cons_self ..), rfl, isNone⟩
  · rw [table_untouched untouched] at isNone
    exact .inr ⟨untouched, isNone⟩

end KeyedLog
