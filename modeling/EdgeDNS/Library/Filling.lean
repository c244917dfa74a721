import Mathlib.Tactic.Common

/-!
# Caches that are filled through a queue

A cache is filled from a table. A lookup that finds nothing under its key loads
all rows of the key into a queue, and the rows are stored from there, one at a
time and in any order with further loads. A row that is taken from the queue may
also be refused.

`Filling` relates the table, what was ever loaded and what is stored. Loading a
key keeps it (`Filling.load`), and so does storing what was loaded
(`Filling.store`). What is stored under a key is then a part of its rows, and
all of them when all that was loaded is stored (`Filling.exact`).
-/

set_option autoImplicit false

variable {Key Row : Type*} {rows loaded stored : Key → Row → Prop}

/-- What was loaded are rows of the table, with one row of a key all of them were
loaded, and only what was loaded is stored. -/
structure Filling (rows loaded stored : Key → Row → Prop) : Prop where
  loadedRows : ∀ key row, loaded key row → rows key row
  whole : ∀ key row other, loaded key row → rows key other → loaded key other
  storedLoaded : ∀ key row, stored key row → loaded key row

namespace Filling

/-- At first nothing was loaded and nothing is stored. -/
theorem empty (nothingLoaded : ∀ key row, ¬ loaded key row)
    (nothingStored : ∀ key row, ¬ stored key row) : Filling rows loaded stored where
  loadedRows key row isLoaded := absurd isLoaded (nothingLoaded key row)
  whole key row _ isLoaded := absurd isLoaded (nothingLoaded key row)
  storedLoaded key row isStored := absurd isStored (nothingStored key row)

/-- **Loading** takes all rows of some keys. -/
theorem load (filling : Filling rows loaded stored) {loads : Key → Prop}
    {loaded' : Key → Row → Prop}
    (loading : ∀ key row, loaded' key row ↔ loaded key row ∨ loads key ∧ rows key row) :
    Filling rows loaded' stored where
  loadedRows key row isLoaded := by
    rcases (loading key row).mp isLoaded with before | ⟨-, isRow⟩
    · exact filling.loadedRows key row before
    · exact isRow
  whole key row other isLoaded isRow := by
    apply (loading key other).mpr
    rcases (loading key row).mp isLoaded with before | ⟨loadsKey, -⟩
    · exact .inl (filling.whole key row other before isRow)
    · exact .inr ⟨loadsKey, isRow⟩
  storedLoaded key row isStored :=
    (loading key row).mpr (.inl (filling.storedLoaded key row isStored))

/-- **Storing** what was loaded. -/
theorem store (filling : Filling rows loaded stored) {stored' : Key → Row → Prop}
    (wasLoaded : ∀ key row, stored' key row → loaded key row) : Filling rows loaded stored' where
  loadedRows := filling.loadedRows
  whole := filling.whole
  storedLoaded := wasLoaded

/-- **What is stored is exact** when anything is stored and all that was loaded
is stored. -/
theorem exact (filling : Filling rows loaded stored) {key : Key} {row : Row}
    (isStored : stored key row) (settled : ∀ other, loaded key other → stored key other)
    (other : Row) : stored key other ↔ rows key other := by
  have isLoaded := filling.storedLoaded key row isStored
  constructor
  · intro otherStored
    exact filling.loadedRows key other (filling.storedLoaded key other otherStored)
  · intro isRow
    exact settled other (filling.whole key row other isLoaded isRow)

end Filling
