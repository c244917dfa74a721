import Mathlib.Logic.Function.Basic
import Mathlib.Tactic.Common

/-!
# Directly mapped indices

A directly mapped index finds a cell by one table entry: the entry at the slot
of the cell holds the cell, and `-1` marks an empty entry. It has room for one
cell a slot, so that two used cells never share one (`Indexed.injective`).
-/

set_option autoImplicit false

namespace DirectIndex

/-- The table holds exactly the used cells, each at its slot. -/
structure Indexed (capacity keyCount : Nat) (used : Nat → Bool) (slot : Nat → Nat)
    (table : Nat → Int) : Prop where
  complete : ∀ cell, cell < capacity → used cell = true → table (slot cell) = (cell : Int)
  sound : ∀ key, key < keyCount → table key ≠ -1 → ∃ cell, cell < capacity ∧ used cell = true ∧
    slot cell = key ∧ table key = (cell : Int)

namespace Indexed

variable {capacity keyCount : Nat} {used : Nat → Bool} {slot : Nat → Nat} {table : Nat → Int}

/-- Two used cells have different slots. -/
theorem injective (indexed : Indexed capacity keyCount used slot table) {first second : Nat}
    (firstBound : first < capacity) (firstUsed : used first = true)
    (secondBound : second < capacity) (secondUsed : used second = true)
    (same : slot first = slot second) : first = second := by
  have atFirst := indexed.complete first firstBound firstUsed
  have atSecond := indexed.complete second secondBound secondUsed
  rw [same, atSecond] at atFirst
  exact_mod_cast atFirst.symm

/-- An empty table is the index of unused cells. -/
theorem unused (none : ∀ cell, used cell = false)
    (empty : ∀ key, key < keyCount → table key = -1) :
    Indexed capacity keyCount used slot table where
  complete cell _ inUse := by
    rw [none] at inUse
    cases inUse
  sound key bound entered := absurd (empty key bound) entered

/-- A cell taken into use is entered at an empty entry. -/
theorem insert (indexed : Indexed capacity keyCount used slot table) {cell key : Nat}
    (bounded : cell < capacity) (unused : used cell = false) (empty : table key = -1) :
    Indexed capacity keyCount (Function.update used cell true) (Function.update slot cell key)
      (Function.update table key (cell : Int)) where
  complete other inside inUse := by
    by_cases same : other = cell
    · subst same
      simp
    · rw [Function.update_of_ne same] at inUse ⊢
      have entry := indexed.complete other inside inUse
      rwa [Function.update_of_ne]
      intro atKey
      rw [atKey, empty] at entry
      omega
  sound other bound entered := by
    by_cases same : other = key
    · subst same
      exact ⟨cell, bounded, by simp⟩
    · rw [Function.update_of_ne same] at entered ⊢
      obtain ⟨holder, inside, inUse, atOther, holds⟩ := indexed.sound other bound entered
      have different : holder ≠ cell := by
        rintro rfl
        rw [unused] at inUse
        cases inUse
      exact ⟨holder, inside, by rwa [Function.update_of_ne different],
        by rwa [Function.update_of_ne different], holds⟩

/-- A released cell leaves its entry empty, whatever becomes of its slot. -/
theorem erase (indexed : Indexed capacity keyCount used slot table) {cell : Nat}
    (bounded : cell < capacity) (inUse : used cell = true) (later : Nat) :
    Indexed capacity keyCount (Function.update used cell false) (Function.update slot cell later)
      (Function.update table (slot cell) (-1)) where
  complete other inside otherUsed := by
    by_cases same : other = cell
    · subst same
      simp at otherUsed
    · rw [Function.update_of_ne same] at otherUsed ⊢
      rw [Function.update_of_ne]
      · exact indexed.complete other inside otherUsed
      · exact fun shared => same (indexed.injective inside otherUsed bounded inUse shared)
  sound other bound entered := by
    have different : other ≠ slot cell := by
      rintro rfl
      simp at entered
    rw [Function.update_of_ne different] at entered ⊢
    obtain ⟨holder, inside, holderUsed, atOther, holds⟩ := indexed.sound other bound entered
    have notCell : holder ≠ cell := by
      rintro rfl
      exact different atOther.symm
    exact ⟨holder, inside, by rwa [Function.update_of_ne notCell],
      by rwa [Function.update_of_ne notCell], holds⟩

end Indexed

/-! ## Rebuilding the table -/

/-- Enter the used cells below `count` into a table, in ascending order. -/
def rebuilt (used : Nat → Bool) (slot : Nat → Nat) (table : Nat → Int) : Nat → Nat → Int
  | 0 => table
  | count + 1 =>
      if used count then Function.update (rebuilt used slot table count) (slot count) (count : Int)
      else rebuilt used slot table count

section Rebuilt

variable {used : Nat → Bool} {slot : Nat → Nat} {table : Nat → Int} {count : Nat}

/-- An entry where no used cell belongs is left alone. -/
theorem rebuilt_of_notMem {key : Nat}
    (absent : ∀ cell, cell < count → used cell = true → slot cell ≠ key) :
    rebuilt used slot table count key = table key := by
  induction count with
  | zero => rfl
  | succ count ih =>
      have before := ih fun cell below => absent cell (Nat.lt_succ_of_lt below)
      rw [rebuilt]
      split
      · next inUse =>
          rw [Function.update_of_ne (absent count (Nat.lt_succ_self _) inUse).symm, before]
      · exact before

/-- An entry holds what it held before or one of the cells. -/
theorem rebuilt_cases (key : Nat) :
    rebuilt used slot table count key = table key ∨
      ∃ cell < count, rebuilt used slot table count key = (cell : Int) := by
  induction count with
  | zero => exact .inl rfl
  | succ count ih =>
      have before : rebuilt used slot table count key = table key ∨
          ∃ cell < count + 1, rebuilt used slot table count key = (cell : Int) :=
        ih.imp_right fun ⟨cell, below, holds⟩ => ⟨cell, Nat.lt_succ_of_lt below, holds⟩
      rw [rebuilt]
      split
      · rcases eq_or_ne key (slot count) with rfl | different
        · exact .inr ⟨count, Nat.lt_succ_self _, Function.update_self ..⟩
        · rwa [Function.update_of_ne different]
      · exact before

/-- A used cell is entered at its slot, when no later cell shares it. -/
theorem rebuilt_of_used {cell : Nat} (below : cell < count) (inUse : used cell = true)
    (alone : ∀ other, other < count → used other = true → slot other = slot cell → other = cell) :
    rebuilt used slot table count (slot cell) = (cell : Int) := by
  induction count with
  | zero => exact absurd below (Nat.not_lt_zero _)
  | succ count ih =>
      rw [rebuilt]
      rcases Nat.lt_succ_iff_lt_or_eq.mp below with earlier | rfl
      · have before := ih earlier fun other inside => alone other (Nat.lt_succ_of_lt inside)
        split
        · next lastUsed =>
            rw [Function.update_of_ne, before]
            intro shared
            have same := alone count (Nat.lt_succ_self _) lastUsed shared.symm
            exact Nat.ne_of_lt earlier same.symm
        · exact before
      · rw [if_pos inUse, Function.update_self]

/-- Rebuilding from cells of which no two share a slot gives an index. -/
theorem rebuilt_indexed {capacity keyCount : Nat}
    (cleared : ∀ key, key < keyCount → table key = -1)
    (alone : ∀ first second, first < capacity → second < capacity → used first = true →
      used second = true → slot first = slot second → first = second) :
    Indexed capacity keyCount used slot (rebuilt used slot table capacity) where
  complete cell bounded inUse :=
    rebuilt_of_used bounded inUse fun other inside otherUsed shared =>
      alone other cell inside bounded otherUsed inUse shared
  sound key within entered := by
    by_contra unheld
    push Not at unheld
    have absent : ∀ cell, cell < capacity → used cell = true → slot cell ≠ key := by
      intro cell bounded inUse atKey
      refine unheld cell bounded inUse atKey ?_
      rw [← atKey]
      exact rebuilt_of_used bounded inUse fun other inside otherUsed shared =>
        alone other cell inside bounded otherUsed inUse shared
    rw [rebuilt_of_notMem absent, cleared key within] at entered
    exact entered rfl

/-- **Rebuilding an index from its cells gives the index back.** -/
theorem Indexed.rebuilt_eq {capacity keyCount : Nat} {blank : Nat → Int}
    (indexed : Indexed capacity keyCount used slot table)
    (cleared : ∀ key, key < keyCount → blank key = -1)
    (beyond : ∀ key, keyCount ≤ key → blank key = table key) :
    rebuilt used slot blank capacity = table := by
  funext key
  by_cases held : ∃ cell, cell < capacity ∧ used cell = true ∧ slot cell = key
  · obtain ⟨cell, bounded, inUse, rfl⟩ := held
    rw [indexed.complete cell bounded inUse]
    refine rebuilt_of_used bounded inUse fun other otherBounded otherUsed shared => ?_
    exact indexed.injective otherBounded otherUsed bounded inUse shared
  · rw [rebuilt_of_notMem fun cell bounded inUse atKey => held ⟨cell, bounded, inUse, atKey⟩]
    rcases Nat.lt_or_ge key keyCount with within | outside
    · rw [cleared key within]
      by_contra entered
      obtain ⟨cell, bounded, inUse, atKey, -⟩ := indexed.sound key within (Ne.symm entered)
      exact held ⟨cell, bounded, inUse, atKey⟩
    · exact beyond key outside

end Rebuilt

end DirectIndex
