import Mathlib.Data.List.Nodup
import Mathlib.Logic.Function.Basic
import Mathlib.Tactic.Common

/-!
# Items on shelves

Items lie on shelves, each shelf a row of items, and for every item it is noted
on which shelf it lies and how far in. The note and the shelves say the same:
that is the whole invariant, and it is a field of the structure. So no item lies
twice on a shelf or on two shelves.

An item is put at the end of a shelf. It is taken by moving the last item of its
shelf to its place and shortening the shelf, so that only one other note changes.
-/

set_option autoImplicit false

/-- Shelves of items with a note for every item: its shelf and its place there. -/
structure Shelves (Item Place : Type*) where
  noted : Item → Option (Place × Nat)
  shelf : Place → List Item
  coherent : ∀ item place index,
    noted item = some (place, index) ↔ (shelf place)[index]? = some item

namespace Shelves

variable {Item Place : Type*}

/-- The shelves without items. -/
def empty : Shelves Item Place where
  noted _ := none
  shelf _ := []
  coherent _ _ _ := by simp

section Facts

variable (shelves : Shelves Item Place) {item : Item} {place : Place}

theorem nodup (place : Place) : (shelves.shelf place).Nodup := by
  rw [List.nodup_iff_injective_getElem]
  intro first second same
  have atFirst := (shelves.coherent _ place first).mpr (List.getElem?_eq_getElem first.2)
  have atSecond := (shelves.coherent _ place second).mpr (List.getElem?_eq_getElem second.2)
  have noted : some (place, first.val) = some (place, second.val) :=
    atFirst.symm.trans ((congrArg shelves.noted same).trans atSecond)
  exact Fin.ext (Prod.mk.inj (Option.some.inj noted)).2

/-- An item lies on the shelf that is noted for it, and on no other. -/
theorem mem_shelf_iff :
    item ∈ shelves.shelf place ↔ ∃ index, shelves.noted item = some (place, index) := by
  rw [List.mem_iff_getElem?]
  exact exists_congr fun index => (shelves.coherent item place index).symm

theorem not_mem_shelf (absent : shelves.noted item = none) : item ∉ shelves.shelf place := by
  rw [mem_shelf_iff]
  rintro ⟨index, noted⟩
  rw [absent] at noted
  cases noted

end Facts

/-! ## Putting -/

theorem getElem?_append_singleton (row : List Item) (item other : Item) (index : Nat) :
    (row ++ [item])[index]? = some other ↔
      row[index]? = some other ∨ index = row.length ∧ item = other := by
  rcases Nat.lt_trichotomy index row.length with before | rfl | behind
  · rw [List.getElem?_append_left before]
    simp only [Nat.ne_of_lt before, false_and, or_false]
  · simp
  · have outside : (row ++ [item]).length ≤ index := by
      rw [List.length_append, List.length_singleton]
      exact behind
    rw [List.getElem?_eq_none outside, List.getElem?_eq_none (Nat.le_of_lt behind)]
    simp only [reduceCtorEq, Nat.ne_of_gt behind, false_and, or_self]

/-- Put a new item at the end of a shelf. -/
def put [DecidableEq Item] [DecidableEq Place] (shelves : Shelves Item Place) (item : Item)
    (place : Place) (fresh : shelves.noted item = none) : Shelves Item Place where
  noted := Function.update shelves.noted item (some (place, (shelves.shelf place).length))
  shelf := Function.update shelves.shelf place (shelves.shelf place ++ [item])
  coherent other place' index := by
    rw [Function.update_apply, Function.update_apply]
    by_cases isPlace : place' = place
    · rw [if_pos isPlace, getElem?_append_singleton, ← shelves.coherent, isPlace]
      by_cases isItem : other = item
      · rw [if_pos isItem, isItem, fresh]
        simp [eq_comm]
      · rw [if_neg isItem]
        simp [Ne.symm isItem]
    · rw [if_neg isPlace, ← shelves.coherent]
      by_cases isItem : other = item
      · rw [if_pos isItem, isItem, fresh]
        simp [Ne.symm isPlace]
      · rw [if_neg isItem]

/-! ## Taking -/

/-- A row without the item at an index: the last one moves to its place. -/
def swapRemove (row : List Item) (index : Nat) : List Item :=
  match row.getLast? with
  | none => row
  | some last => (row.set index last).dropLast

theorem getElem?_swapRemove {row : List Item} {index : Nat} (inside : index < row.length)
    (other : Nat) :
    (swapRemove row index)[other]? =
      if other < row.length - 1 then
        if other = index then row.getLast? else row[other]?
      else none := by
  have notEmpty : row ≠ [] := List.ne_nil_of_length_pos (Nat.zero_lt_of_lt inside)
  rw [swapRemove, List.getLast?_eq_some_getLast notEmpty]
  simp only [List.getElem?_dropLast, List.length_set]
  split
  · rw [List.getElem?_set]
    by_cases isIndex : index = other
    · rw [if_pos isIndex, if_pos inside, if_pos isIndex.symm]
    · rw [if_neg isIndex, if_neg (Ne.symm isIndex)]
  · rfl

/-- What lies in a row of distinct items after one is taken: the others, the last of
them at the place of the one that is taken. -/
theorem getElem?_swapRemove_iff [DecidableEq Item] {row : List Item} (nodup : row.Nodup)
    {index : Nat} {item : Item} (atIndex : row[index]? = some item) (other : Item) (place : Nat) :
    (swapRemove row index)[place]? = some other ↔
      other ≠ item ∧ if row.getLast? = some other then place = index
        else row[place]? = some other := by
  have inside := (List.getElem?_eq_some_iff.mp atIndex).1
  have unique : ∀ {first second : Nat} {found : Item}, row[first]? = some found →
      row[second]? = some found → first = second := by
    intro first second found atFirst atSecond
    have bound := (List.getElem?_eq_some_iff.mp atFirst).1
    exact (List.getElem?_inj bound nodup).mp (atFirst.trans atSecond.symm)
  rw [getElem?_swapRemove inside, List.getLast?_eq_getElem?]
  by_cases isItem : other = item
  · subst isItem
    simp only [ne_eq, not_true_eq_false, false_and, iff_false]
    intro found
    split at found
    · split at found
      · have atEnd := unique found atIndex
        omega
      · next notIndex => exact notIndex (unique found atIndex)
    · cases found
  · simp only [ne_eq, isItem, not_false_eq_true, true_and]
    by_cases isLast : row[row.length - 1]? = some other
    · have notIndex : index ≠ row.length - 1 := by
        intro isEnd
        rw [isEnd, isLast] at atIndex
        exact isItem (Option.some.inj atIndex)
      rw [if_pos isLast]
      constructor
      · intro found
        split at found
        · split at found
          · next isIndex => exact isIndex
          · have atEnd := unique found isLast
            omega
        · cases found
      · rintro rfl
        rw [if_pos (by omega), if_pos rfl, isLast]
    · rw [if_neg isLast]
      constructor
      · intro found
        split at found
        · split at found
          · exact absurd found isLast
          · exact found
        · cases found
      · intro found
        have bound := (List.getElem?_eq_some_iff.mp found).1
        have notEnd : place ≠ row.length - 1 := fun isEnd => isLast (isEnd ▸ found)
        have notIndex : place ≠ index := by
          rintro rfl
          exact isItem (Option.some.inj (found.symm.trans atIndex))
        rw [if_pos (by omega), if_neg notIndex, found]

variable [DecidableEq Item] [DecidableEq Place]

/-- Take an item away that lies on a shelf. -/
def takeAt (shelves : Shelves Item Place) (item : Item) (place : Place) (index : Nat)
    (isNoted : shelves.noted item = some (place, index)) : Shelves Item Place where
  noted other :=
    if other = item then none
    else if (shelves.shelf place).getLast? = some other then some (place, index)
    else shelves.noted other
  shelf := Function.update shelves.shelf place (swapRemove (shelves.shelf place) index)
  coherent other place' index' := by
    have atIndex := (shelves.coherent item place index).mp isNoted
    rw [Function.update_apply]
    by_cases isItem : other = item
    · rw [if_pos isItem]
      simp only [reduceCtorEq, false_iff]
      by_cases isPlace : place' = place
      · rw [if_pos isPlace, getElem?_swapRemove_iff (shelves.nodup place) atIndex]
        exact fun found => found.1 isItem
      · rw [if_neg isPlace, ← shelves.coherent, isItem, isNoted]
        intro same
        exact isPlace (Prod.mk.inj (Option.some.inj same)).1.symm
    · rw [if_neg isItem]
      by_cases isPlace : place' = place
      · subst isPlace
        rw [if_pos rfl, getElem?_swapRemove_iff (shelves.nodup place') atIndex]
        simp only [ne_eq, isItem, not_false_eq_true, true_and]
        split
        · simp [eq_comm]
        · exact shelves.coherent other place' index'
      · rw [if_neg isPlace, ← shelves.coherent]
        split
        · next isLast =>
            have onPlace : other ∈ shelves.shelf place := List.mem_of_getLast? isLast
            obtain ⟨index'', noted⟩ := shelves.mem_shelf_iff.mp onPlace
            rw [noted]
            simp [Ne.symm isPlace]
        · rfl

/-- Take an item away, if it lies anywhere. -/
def take (shelves : Shelves Item Place) (item : Item) : Shelves Item Place :=
  match isNoted : shelves.noted item with
  | none => shelves
  | some (place, index) => shelves.takeAt item place index isNoted

variable {shelves : Shelves Item Place} {item : Item}

theorem take_absent (absent : shelves.noted item = none) : shelves.take item = shelves := by
  unfold take
  split
  · rfl
  · next isNoted =>
      rw [absent] at isNoted
      cases isNoted

theorem take_noted {place : Place} {index : Nat}
    (isNoted : shelves.noted item = some (place, index)) :
    shelves.take item = shelves.takeAt item place index isNoted := by
  unfold take
  split
  · next absent =>
      rw [isNoted] at absent
      cases absent
  · next place' index' isNoted' =>
      obtain ⟨rfl, rfl⟩ := Prod.mk.inj (Option.some.inj (isNoted.symm.trans isNoted'))
      rfl

/-- The shelves hold the same as before without the item. -/
theorem mem_take_iff (other : Item) (place : Place) :
    other ∈ (shelves.take item).shelf place ↔ other ∈ shelves.shelf place ∧ other ≠ item := by
  cases isNoted : shelves.noted item with
  | none =>
      rw [take_absent isNoted]
      constructor
      · intro member
        refine ⟨member, ?_⟩
        rintro rfl
        exact shelves.not_mem_shelf isNoted member
      · exact And.left
  | some noted =>
      obtain ⟨place', index⟩ := noted
      have notItem : ∀ index', (shelves.take item).noted item ≠ some (place, index') := by
        intro index' found
        rw [take_noted isNoted] at found
        simp [takeAt] at found
      by_cases isItem : other = item
      · subst isItem
        simp only [ne_eq, not_true_eq_false, and_false, iff_false]
        intro member
        obtain ⟨index', found⟩ := (shelves.take other).mem_shelf_iff.mp member
        exact notItem index' found
      · simp only [ne_eq, isItem, not_false_eq_true, and_true]
        rw [mem_shelf_iff, mem_shelf_iff, take_noted isNoted]
        simp only [takeAt, isItem, if_false]
        split
        · next isLast =>
            obtain ⟨index'', found⟩ := shelves.mem_shelf_iff.mp (List.mem_of_getLast? isLast)
            rw [found]
            simp
        · rfl

end Shelves
