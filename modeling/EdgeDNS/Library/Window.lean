import Mathlib.Data.List.Basic
import Mathlib.Order.Defs.PartialOrder
import Mathlib.Tactic.Common

/-!
# Counting in fixed windows

A counter keeps the window in which it last counted and how often it counted in
it, modulo a size. A request at another time starts a new window. A request is
granted when the count, itself included, is at most the limit.

When time does not go backwards, the requests of a key in one window are counted
without a gap between them. So of any number of them the first ones up to the limit are
granted and no other (`granted_eq`), as long as there are fewer of them than the
count can hold.
-/

set_option autoImplicit false

namespace Window

/-- A counter and the start of the window it counts in. -/
structure Counter (Time : Type*) where
  start : Time
  count : Nat

section Counters

variable {Time Key : Type*} [DecidableEq Time] [DecidableEq Key]

/-- Count one more request. -/
def Counter.tick (size : Nat) (counter : Counter Time) (now : Time) : Counter Time :=
  if counter.start ≠ now then ⟨now, 1 % size⟩ else ⟨counter.start, (counter.count + 1) % size⟩

/-- A request of a key at a time. -/
structure Tick (Key Time : Type*) where
  key : Key
  now : Time
deriving DecidableEq

/-- The counters after a request. -/
def tickAll (size : Nat) (counters : Key → Counter Time) (tick : Tick Key Time) :
    Key → Counter Time :=
  Function.update counters tick.key ((counters tick.key).tick size tick.now)

/-- The requests that are granted, in order. -/
def granted (size limit : Nat) :
    (Key → Counter Time) → List (Tick Key Time) → List (Tick Key Time)
  | _, [] => []
  | counters, tick :: ticks =>
      let rest := granted size limit (tickAll size counters tick) ticks
      if (tickAll size counters tick tick.key).count ≤ limit then tick :: rest else rest

theorem granted_sublist (size limit : Nat) (counters : Key → Counter Time)
    (ticks : List (Tick Key Time)) : (granted size limit counters ticks).Sublist ticks := by
  induction ticks generalizing counters with
  | nil => exact List.Sublist.slnil
  | cons tick ticks ih =>
      rw [granted]
      split
      · exact (ih _).cons_cons tick
      · exact (ih _).cons tick

/-- How often the counter has counted in the window. -/
def Counter.within (counter : Counter Time) (now : Time) : Nat :=
  if counter.start = now then counter.count else 0

theorem granted_append (size limit : Nat) (counters : Key → Counter Time)
    (first second : List (Tick Key Time)) :
    granted size limit counters (first ++ second) =
      granted size limit counters first ++
        granted size limit (first.foldl (tickAll size) counters) second := by
  induction first generalizing counters with
  | nil => rfl
  | cons tick first ih =>
      rw [List.cons_append, granted, ih, granted, List.foldl_cons]
      split <;> rfl

/-- After a request the counter stands in its window. -/
theorem Counter.tick_start (size : Nat) (counter : Counter Time) (now : Time) :
    (counter.tick size now).start = now := by
  rw [Counter.tick]
  split
  · rfl
  · next same => exact not_not.mp same

/-- The count after a request is what was counted in its window, and one. -/
theorem Counter.tick_count {size : Nat} (counter : Counter Time) {now : Time}
    (few : counter.within now + 1 < size) :
    (counter.tick size now).count = counter.within now + 1 := by
  rw [Counter.within] at few ⊢
  rw [Counter.tick]
  by_cases same : counter.start = now
  · simp only [same, ne_eq, not_true_eq_false, if_false, if_true] at few ⊢
    exact Nat.mod_eq_of_lt few
  · simp only [ne_eq, same, not_false_eq_true, if_true, if_false] at few ⊢
    exact Nat.mod_eq_of_lt few

/-- A request counts once in its window. -/
theorem Counter.tick_within {size : Nat} (counter : Counter Time) {now : Time}
    (few : counter.within now + 1 < size) :
    (counter.tick size now).within now = counter.within now + 1 := by
  rw [Counter.within, if_pos (Counter.tick_start ..), counter.tick_count few]

theorem tickAll_self (size : Nat) (counters : Key → Counter Time) (tick : Tick Key Time) :
    tickAll size counters tick tick.key = (counters tick.key).tick size tick.now :=
  Function.update_self ..

theorem tickAll_of_ne {size : Nat} {counters : Key → Counter Time} {tick : Tick Key Time}
    {key : Key} (different : key ≠ tick.key) : tickAll size counters tick key = counters key :=
  Function.update_of_ne different ..

/-- A counter that stands in another window has not counted in this one. -/
theorem Counter.within_of_ne {counter : Counter Time} {now : Time} (other : counter.start ≠ now) :
    counter.within now = 0 := if_neg other

/-- A request adds at most itself to a window. -/
theorem tickAll_within_le (size : Nat) (counters : Key → Counter Time) (tick : Tick Key Time)
    (window : Tick Key Time) :
    (tickAll size counters tick window.key).within window.now ≤
      (counters window.key).within window.now + [tick].count window := by
  rcases eq_or_ne window.key tick.key with sameKey | otherKey
  · rw [sameKey, tickAll_self]
    rcases eq_or_ne window.now tick.now with sameNow | elsewhen
    · have same : tick = window := by
        cases tick
        cases window
        simp_all
      subst same
      have reduced : (counters tick.key).within tick.now + 1 =
          (counters tick.key).within tick.now + [tick].count tick := by
        rw [List.count_singleton_self]
      rw [← reduced, Counter.within, if_pos (Counter.tick_start ..), Counter.tick, Counter.within]
      by_cases standing : (counters tick.key).start = tick.now
      · simp only [standing, ne_eq, not_true_eq_false, if_false, if_true]
        exact Nat.mod_le ..
      · simp only [standing, ne_eq, not_false_eq_true, if_true, if_false]
        exact Nat.mod_le ..
    · rw [Counter.within_of_ne]
      · exact Nat.zero_le _
      · rw [Counter.tick_start]
        exact elsewhen.symm
  · rw [tickAll_of_ne otherKey]
    exact Nat.le_add_right ..

/-- What counts in a window after any requests was counted before or is one of
them. -/
theorem within_foldl_le (size : Nat) (counters : Key → Counter Time)
    (ticks : List (Tick Key Time)) (window : Tick Key Time) :
    ((ticks.foldl (tickAll size) counters) window.key).within window.now ≤
      (counters window.key).within window.now + ticks.count window := by
  induction ticks generalizing counters with
  | nil => exact Nat.le_refl _
  | cons tick ticks ih =>
      have first := tickAll_within_le size counters tick window
      have rest := ih (tickAll size counters tick)
      have parts : (tick :: ticks).count window = [tick].count window + ticks.count window := by
        rw [← List.count_append, List.singleton_append]
      rw [List.foldl_cons, parts]
      omega

end Counters

section Law

variable {Time Key : Type*} [DecidableEq Key] [DecidableEq Time] [PartialOrder Time]
  {size limit : Nat}

/-- **The first requests of a window are granted**, up to the limit, and no
other. -/
theorem granted_eq {ticks : List (Tick Key Time)} {counters : Key → Counter Time}
    {window : Tick Key Time}
    (ordered : ticks.Pairwise fun first second => first.now ≤ second.now)
    (notAhead : (counters window.key).start = window.now →
      ∀ tick ∈ ticks, tick.key = window.key → window.now ≤ tick.now)
    (few : (counters window.key).within window.now + ticks.count window < size) :
    (granted size limit counters ticks).count window +
        min limit ((counters window.key).within window.now) =
      min limit ((counters window.key).within window.now + ticks.count window) := by
  obtain ⟨key, now⟩ := window
  dsimp only at *
  induction ticks generalizing counters with
  | nil => simp [granted]
  | cons tick ticks ih =>
      obtain ⟨behind, orderedAfter⟩ := List.pairwise_cons.mp ordered
      have notAheadAfter : (tickAll size counters tick key).start = now →
          ∀ other ∈ ticks, other.key = key → now ≤ other.now := by
        intro standing other member ofKey
        rcases eq_or_ne key tick.key with rfl | different
        · rw [tickAll_self, Counter.tick_start] at standing
          exact standing ▸ behind other member
        · rw [tickAll_of_ne different] at standing
          exact notAhead standing other (List.mem_cons_of_mem _ member) ofKey
      rcases eq_or_ne tick ⟨key, now⟩ with rfl | different
      · rw [List.count_cons_self] at few ⊢
        have room : (counters key).within now + 1 < size := by omega
        have atKey := tickAll_self size counters ⟨key, now⟩
        have counted : (tickAll size counters ⟨key, now⟩ key).within now =
            (counters key).within now + 1 := by
          rw [atKey]
          exact Counter.tick_within _ room
        have shown : (tickAll size counters ⟨key, now⟩ key).count =
            (counters key).within now + 1 := by
          rw [atKey]
          exact Counter.tick_count _ room
        have later := ih orderedAfter notAheadAfter (by rw [counted]; omega)
        rw [counted] at later
        rw [granted, shown]
        split
        · rw [List.count_cons_self]
          omega
        · omega
      · have sameCount : (granted size limit counters (tick :: ticks)).count ⟨key, now⟩ =
            (granted size limit (tickAll size counters tick) ticks).count ⟨key, now⟩ := by
          rw [granted]
          split
          · exact List.count_cons_of_ne different
          · rfl
        rw [List.count_cons_of_ne different] at few ⊢
        rw [sameCount]
        rcases eq_or_ne tick.key key with sameKey | otherKey
        · have elsewhen : tick.now ≠ now := fun sameNow =>
            different (by rw [← sameKey, ← sameNow])
          have none : (tickAll size counters tick key).within now = 0 := by
            refine Counter.within_of_ne ?_
            rw [← sameKey, tickAll_self, Counter.tick_start]
            exact elsewhen
          have later := ih orderedAfter notAheadAfter (by rw [none]; omega)
          rw [none] at later
          by_cases standing : (counters key).start = now
          · -- The window is over: time has moved on, and no later request is in it.
            have moved : now < tick.now := lt_of_le_of_ne
              (notAhead standing tick (List.mem_cons_self ..) sameKey) elsewhen.symm
            have noMore : ticks.count ⟨key, now⟩ = 0 := by
              refine List.count_eq_zero.mpr fun member => ?_
              exact absurd (behind _ member) (not_le_of_gt moved)
            rw [noMore] at later ⊢
            omega
          · rw [Counter.within_of_ne standing]
            exact later
        · have kept : tickAll size counters tick key = counters key :=
            tickAll_of_ne otherKey.symm
          have later := ih orderedAfter notAheadAfter (by rw [kept]; exact few)
          rwa [kept] at later

end Law

end Window
