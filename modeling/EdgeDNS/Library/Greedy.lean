import Mathlib.Data.List.Basic
import Mathlib.Tactic.Common

/-!
# Filling a message from the front

A writer offers items one after another to a message of some length. An item is
written when it is accepted behind what was written before it; once an item is
refused, no later one is written.

`fitting` is the list of the items written. It is a prefix of the items, each of
its members is accepted behind the ones before it (`Passes`), and it is the
longest such prefix (`Passes.prefix_fitting`). Offering more items behind others
is offering all of them at once, as long as the first were all written
(`fitting_append`), and a writer that accepts more writes more (`fitting_mono`).
-/

set_option autoImplicit false

namespace Greedy

variable {Item : Type*} (accepts : Nat → Item → Bool) (size : Item → Nat)

/-- The length of the items. -/
def total : List Item → Nat
  | [] => 0
  | item :: items => size item + total items

/-- Each item is accepted behind the ones before it. -/
def Passes : Nat → List Item → Prop
  | _, [] => True
  | length, item :: items => accepts length item = true ∧ Passes (length + size item) items

/-- The items written behind a message of the given length. -/
def fitting : Nat → List Item → List Item
  | _, [] => []
  | length, item :: items =>
      if accepts length item then item :: fitting (length + size item) items else []

variable {accepts size} {length : Nat} {items items' : List Item}

@[simp] theorem total_nil : total size [] = 0 := rfl

@[simp] theorem total_cons (item : Item) (items : List Item) :
    total size (item :: items) = size item + total size items := rfl

theorem total_append (items items' : List Item) :
    total size (items ++ items') = total size items + total size items' := by
  induction items with
  | nil => exact (Nat.zero_add _).symm
  | cons item items ih => rw [List.cons_append, total_cons, total_cons, ih, Nat.add_assoc]

theorem total_le_of_prefix (isPrefix : items <+: items') :
    total size items ≤ total size items' := by
  obtain ⟨rest, rfl⟩ := isPrefix
  rw [total_append]
  exact Nat.le_add_right ..

theorem fitting_isPrefix (items : List Item) (length : Nat) :
    fitting accepts size length items <+: items := by
  induction items generalizing length with
  | nil => exact List.prefix_rfl
  | cons item items ih =>
      rw [fitting]
      split
      · exact (List.prefix_cons_inj item).mpr (ih _)
      · exact List.nil_prefix

theorem fitting_passes (items : List Item) (length : Nat) :
    Passes accepts size length (fitting accepts size length items) := by
  induction items generalizing length with
  | nil => trivial
  | cons item items ih =>
      rw [fitting]
      split
      · next accepted => exact ⟨accepted, ih _⟩
      · trivial

/-- **No longer prefix passes.** -/
theorem Passes.prefix_fitting {first : List Item} (passes : Passes accepts size length first)
    (isPrefix : first <+: items) : first <+: fitting accepts size length items := by
  induction first generalizing length items with
  | nil => exact List.nil_prefix
  | cons item first ih =>
      obtain ⟨accepted, others⟩ := passes
      obtain ⟨rest, rfl⟩ := isPrefix
      rw [List.cons_append, fitting, if_pos accepted]
      exact (List.prefix_cons_inj item).mpr (ih others (List.prefix_append ..))

/-- Items that pass are written whole. -/
theorem fitting_eq_self_iff :
    fitting accepts size length items = items ↔ Passes accepts size length items := by
  constructor
  · intro whole
    rw [← whole]
    exact fitting_passes items length
  · intro passes
    exact (fitting_isPrefix items length).eq_of_length_le
      (passes.prefix_fitting List.prefix_rfl).length_le

/-- **The writer stops at the first item that is refused** behind what is written. -/
theorem fitting_refuses {written rest : List Item} {item : Item}
    (isFitting : fitting accepts size length items = written)
    (isNext : items = written ++ item :: rest) :
    accepts (length + total size written) item = false := by
  induction written generalizing length items with
  | nil =>
      rw [isNext, List.nil_append, fitting] at isFitting
      split at isFitting
      · exact absurd isFitting (List.cons_ne_nil _ _)
      · next refused => exact Bool.eq_false_iff.mpr refused
  | cons first written ih =>
      rw [isNext, List.cons_append, fitting] at isFitting
      split at isFitting
      · have others := (List.cons.inj isFitting).2
        have refused := ih others rfl
        rwa [Nat.add_assoc, ← total_cons] at refused
      · exact absurd isFitting.symm (List.cons_ne_nil _ _)

theorem passes_append :
    Passes accepts size length (items ++ items') ↔
      Passes accepts size length items ∧
        Passes accepts size (length + total size items) items' := by
  induction items generalizing length with
  | nil => simp [Passes]
  | cons item items ih =>
      rw [List.cons_append, Passes, Passes, ih, total_cons, Nat.add_assoc, and_assoc]

/-- Items behind others that are all written. -/
theorem fitting_append_of_passes (passes : Passes accepts size length items) :
    fitting accepts size length (items ++ items') =
      items ++ fitting accepts size (length + total size items) items' := by
  induction items generalizing length with
  | nil => rfl
  | cons item items ih =>
      obtain ⟨accepted, others⟩ := passes
      rw [List.cons_append, fitting, if_pos accepted, ih others, total_cons, Nat.add_assoc,
        List.cons_append]

/-- Items behind others of which one is refused. -/
theorem fitting_append_of_refused (refused : ¬ Passes accepts size length items) :
    fitting accepts size length (items ++ items') = fitting accepts size length items := by
  induction items generalizing length with
  | nil => exact absurd trivial refused
  | cons item items ih =>
      rw [List.cons_append, fitting, fitting]
      split
      · next accepted =>
          rw [ih fun others => refused ⟨accepted, others⟩]
      · rfl

/-- A writer that accepts more lets more pass. -/
theorem Passes.mono {accepts' : Nat → Item → Bool} (passes : Passes accepts size length items)
    (more : ∀ length item, accepts length item = true → accepts' length item = true) :
    Passes accepts' size length items := by
  induction items generalizing length with
  | nil => trivial
  | cons item items ih => exact ⟨more _ _ passes.1, ih passes.2⟩

/-- **A writer that accepts more writes more.** -/
theorem fitting_mono {accepts' : Nat → Item → Bool}
    (more : ∀ length item, accepts length item = true → accepts' length item = true)
    (items : List Item) (length : Nat) :
    fitting accepts size length items <+: fitting accepts' size length items :=
  ((fitting_passes items length).mono more).prefix_fitting (fitting_isPrefix items length)

/-- What is written stays below a bound that every accepted item keeps. -/
theorem length_fitting_le {bound : Nat}
    (keeps : ∀ length item, accepts length item = true → length + size item ≤ bound)
    (items : List Item) (below : length ≤ bound) :
    length + total size (fitting accepts size length items) ≤ bound := by
  induction items generalizing length with
  | nil => exact below
  | cons item items ih =>
      rw [fitting]
      split
      · next accepted =>
          rw [total_cons, ← Nat.add_assoc]
          exact ih (keeps _ _ accepted)
      · exact below

end Greedy
