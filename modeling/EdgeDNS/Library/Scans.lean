import EdgeDNS.Library.Arena
import EdgeDNS.Library.DirectIndex

/-!
# Scans over the cells of a store

A store carries the links of its cells and the table of a directly mapped index
among other data. When it is opened, one scan enters the used cells into the
table in ascending order, and another one threads the unused cells onto the free
list in descending order. Each scan rewrites one part of the store and asks of
every cell whether it is used.

This module is about any such store. A `Part` can be read and written, and a scan
that writes it alone comes to the table or to the links that the cells determine
(`scan_eq_rebuilt`, `scan_eq_threaded`), with everything else as it was.
-/

set_option autoImplicit false

namespace LinkedArena

open DirectIndex

/-- A part of a store, which can be read and written. -/
structure Part (Store Value : Type*) where
  get : Store → Value
  set : Store → Value → Store
  get_set : ∀ store value, get (set store value) = value
  set_get : ∀ store, set store (get store) = store
  set_set : ∀ store first second, set (set store first) second = set store second

section Scans

variable {Store : Type*} {used : Store → Nat → Bool}

/-- **Entering the used cells** below the count rebuilds the index. -/
theorem scan_eq_rebuilt {table : Part Store (Nat → Int)} {slot : Store → Nat → Nat}
    (sameUsed : ∀ store value, used (table.set store value) = used store)
    (sameSlot : ∀ store value, slot (table.set store value) = slot store)
    {scan : Store → Nat → Store} (zero : ∀ store, scan store 0 = store)
    (succ : ∀ store count, scan store (count + 1) =
      if used (scan store count) count then
        table.set (scan store count) (Function.update (table.get (scan store count))
          (slot (scan store count) count) (count : Int))
      else scan store count)
    (store : Store) (count : Nat) :
    scan store count =
      table.set store (rebuilt (used store) (slot store) (table.get store) count) := by
  induction count with
  | zero => rw [zero, rebuilt, table.set_get]
  | succ count ih =>
      rw [succ, ih, sameUsed, sameSlot, table.get_set, table.set_set, rebuilt]
      split <;> rfl

/-- **Threading the unused cells** below the count writes their links, and those of no
other cell. -/
theorem scan_eq_threaded {links : Part Store ((Nat → Int) × Int)}
    (sameUsed : ∀ store value, used (links.set store value) = used store)
    {scan : Nat → Store → Store} (zero : ∀ store, scan 0 store = store)
    (succ : ∀ count store, scan (count + 1) store =
      scan count (if used store count then store
        else links.set store
          (Function.update (links.get store).1 count (links.get store).2, count)))
    (count : Nat) (store : Store) :
    scan count store = links.set store
      (threaded (fun cell => !used store cell) count (links.get store).1 (links.get store).2) := by
  induction count generalizing store with
  | zero => rw [zero, threaded, links.set_get]
  | succ count ih =>
      rw [succ, threaded]
      cases inUse : used store count with
      | true => exact ih store
      | false =>
          simp only [Bool.false_eq_true, if_false, Bool.not_false, if_true]
          rw [ih, sameUsed, links.get_set, links.set_set]

end Scans

end LinkedArena
