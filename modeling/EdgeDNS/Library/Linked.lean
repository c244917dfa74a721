import Mathlib.Data.List.Nodup
import Mathlib.Logic.Function.Basic
import Mathlib.Tactic.Common

/-!
# Lists threaded through index fields

An array of cells may hold several linked lists: every cell carries the index
of its successor, and the index `-1` ends a list. This module reads such a
list off the successor function.

`Linked next start cells` says that following `next` from `start` visits
exactly `cells` and then reaches `-1`. The visited cells are determined by the
starting point (`Linked.unique`) and are therefore pairwise distinct
(`Linked.nodup`): a list that ends cannot pass a cell twice.

`BackLinked prev before cells` says that `prev` is the inverse of the
successor along `cells`, with `before` in front of the first cell.

The lemmas that follow describe one write: at a cell outside the list, in
front of the list, and around a cell that is taken out of it.
-/

set_option autoImplicit false

namespace LinkedArena

/-- Following `next` from `start` visits exactly `cells` and ends in `-1`. -/
def Linked (next : Nat → Int) : Int → List Nat → Prop
  | start, [] => start = -1
  | start, cell :: rest => start = (cell : Int) ∧ Linked next (next cell) rest

/-- `prev` steps backwards along `cells`, and from the first cell to `before`. -/
def BackLinked (prev : Nat → Int) : Int → List Nat → Prop
  | _, [] => True
  | before, cell :: rest => prev cell = before ∧ BackLinked prev (cell : Int) rest

@[simp] theorem linked_nil {next : Nat → Int} {start : Int} : Linked next start [] ↔ start = -1 :=
  Iff.rfl

@[simp] theorem linked_cons {next : Nat → Int} {start : Int} {cell : Nat} {rest : List Nat} :
    Linked next start (cell :: rest) ↔ start = (cell : Int) ∧ Linked next (next cell) rest :=
  Iff.rfl

@[simp] theorem backLinked_nil {prev : Nat → Int} {before : Int} : BackLinked prev before [] :=
  trivial

@[simp] theorem backLinked_cons {prev : Nat → Int} {before : Int} {cell : Nat} {rest : List Nat} :
    BackLinked prev before (cell :: rest) ↔
      prev cell = before ∧ BackLinked prev (cell : Int) rest :=
  Iff.rfl

/-! ## The list is determined by its starting point -/

theorem Linked.unique {next : Nat → Int} :
    ∀ {first second : List Nat} {start : Int},
      Linked next start first → Linked next start second → first = second
  | [], [], _, _, _ => rfl
  | [], cell :: _, start, ends, begins => by
      have impossible : (cell : Int) = -1 := begins.1.symm.trans ends
      omega
  | cell :: _, [], start, begins, ends => by
      have impossible : (cell : Int) = -1 := begins.1.symm.trans ends
      omega
  | cell :: rest, cell' :: rest', start, ⟨atCell, tail⟩, ⟨atCell', tail'⟩ => by
      have same : cell = cell' := by exact_mod_cast atCell.symm.trans atCell'
      subst same
      rw [tail.unique tail']

/-- A starting point is `-1` exactly when its list is empty. -/
theorem Linked.start_eq_neg_one_iff {next : Nat → Int} {start : Int} {cells : List Nat}
    (linked : Linked next start cells) : start = -1 ↔ cells = [] := by
  cases cells with
  | nil => simpa using linked
  | cons cell rest =>
      have atCell := linked.1
      constructor
      · intro ended
        omega
      · intro empty
        cases empty

/-- A list is empty, or it starts with one of its cells. -/
theorem Linked.start_cases {next : Nat → Int} {start : Int} {cells : List Nat}
    (linked : Linked next start cells) : start = -1 ∨ ∃ cell ∈ cells, start = (cell : Int) := by
  cases cells with
  | nil => exact .inl linked
  | cons cell rest => exact .inr ⟨cell, List.mem_cons_self .., linked.1⟩

/-- The part of a list behind a cell is the list that starts at its successor. -/
theorem Linked.drop {next : Nat → Int} {cell : Nat} {behind : List Nat} :
    ∀ {front : List Nat} {start : Int},
      Linked next start (front ++ cell :: behind) → Linked next (next cell) behind
  | [], _, linked => linked.2
  | _ :: _, _, linked => linked.2.drop

/-- **A list that ends passes no cell twice.** -/
theorem Linked.nodup {next : Nat → Int} :
    ∀ {cells : List Nat} {start : Int}, Linked next start cells → cells.Nodup
  | [], _, _ => List.nodup_nil
  | cell :: rest, _, linked => by
      refine List.nodup_cons.mpr ⟨fun again => ?_, linked.2.nodup⟩
      obtain ⟨front, behind, split⟩ := List.append_of_mem again
      have tail := linked.2
      rw [split] at tail
      have short : behind = rest := (tail.drop).unique linked.2
      have lengths := congrArg List.length split
      rw [short] at lengths
      simp only [List.length_append, List.length_cons] at lengths
      omega

/-- No cell of a list is its own successor. -/
theorem Linked.next_ne_self {next : Nat → Int} {start : Int} {cells : List Nat}
    (linked : Linked next start cells) {cell : Nat} (member : cell ∈ cells) :
    next cell ≠ (cell : Int) := by
  obtain ⟨front, behind, rfl⟩ := List.append_of_mem member
  intro loop
  have tail := linked.drop
  have distinct := (List.nodup_append.mp linked.nodup).2.1
  cases behind with
  | nil =>
      rw [linked_nil, loop] at tail
      omega
  | cons other rest =>
      have same : cell = other := by
        have atOther := tail.1
        rw [loop] at atOther
        exact_mod_cast atOther
      exact (List.nodup_cons.mp distinct).1 (same ▸ List.mem_cons_self ..)

/-! ## Writes outside the list -/

theorem Linked.congr {next next' : Nat → Int} :
    ∀ {cells : List Nat} {start : Int}, (∀ cell ∈ cells, next' cell = next cell) →
      Linked next start cells → Linked next' start cells
  | [], _, _, linked => linked
  | cell :: rest, _, same, linked => by
      refine ⟨linked.1, ?_⟩
      rw [same cell (List.mem_cons_self ..)]
      exact linked.2.congr fun other member => same other (List.mem_cons_of_mem _ member)

theorem BackLinked.congr {prev prev' : Nat → Int} :
    ∀ {cells : List Nat} {before : Int}, (∀ cell ∈ cells, prev' cell = prev cell) →
      BackLinked prev before cells → BackLinked prev' before cells
  | [], _, _, _ => trivial
  | cell :: _, _, same, linked =>
      ⟨(same cell (List.mem_cons_self ..)).trans linked.1,
        linked.2.congr fun other member => same other (List.mem_cons_of_mem _ member)⟩

theorem Linked.update_of_notMem {next : Nat → Int} {start : Int} {cells : List Nat}
    (linked : Linked next start cells) {cell : Nat} (outside : cell ∉ cells) (value : Int) :
    Linked (Function.update next cell value) start cells :=
  linked.congr fun other member =>
    Function.update_of_ne (fun same => outside (by rwa [same] at member)) value next

theorem BackLinked.update_of_notMem {prev : Nat → Int} {before : Int} {cells : List Nat}
    (linked : BackLinked prev before cells) {cell : Nat} (outside : cell ∉ cells) (value : Int) :
    BackLinked (Function.update prev cell value) before cells :=
  linked.congr fun other member =>
    Function.update_of_ne (fun same => outside (by rwa [same] at member)) value prev

/-! ## A new cell in front -/

/-- Writing the old start into a fresh cell puts the cell in front. -/
theorem Linked.push {next : Nat → Int} {start : Int} {cells : List Nat}
    (linked : Linked next start cells) {cell : Nat} (fresh : cell ∉ cells) :
    Linked (Function.update next cell start) (cell : Int) (cell :: cells) := by
  refine ⟨rfl, ?_⟩
  rw [Function.update_self]
  exact linked.update_of_notMem fresh start

/-- Pointing the old first cell back at a fresh cell puts the cell in front. -/
theorem BackLinked.push {prev : Nat → Int} {before : Int} {head : Nat} {rest : List Nat}
    (linked : BackLinked prev before (head :: rest)) {cell : Nat}
    (fresh : cell ∉ head :: rest) (distinct : (head :: rest).Nodup) :
    BackLinked (Function.update (Function.update prev head (cell : Int)) cell before) before
      (cell :: head :: rest) := by
  have headFresh : head ≠ cell := fun same => fresh (same ▸ List.mem_cons_self ..)
  have restFresh : cell ∉ rest := fun member => fresh (List.mem_cons_of_mem _ member)
  refine ⟨Function.update_self .., ?_, ?_⟩
  · rw [Function.update_of_ne headFresh, Function.update_self]
  · exact (linked.2.update_of_notMem (List.nodup_cons.mp distinct).1 _).update_of_notMem
      restFresh _

/-! ## Taking a cell out -/

/-- The cell before a cell of the list, or what stands before the list. -/
theorem BackLinked.prev_eq {prev : Nat → Int} {cell : Nat} {behind : List Nat} :
    ∀ {front : List Nat} {before : Int}, BackLinked prev before (front ++ cell :: behind) →
      prev cell = (front.getLast?.map Int.ofNat).getD before
  | [], _, linked => linked.1
  | [only], _, linked => linked.2.1
  | first :: second :: front, _, linked => by
      have tail : BackLinked prev (first : Int) ((second :: front) ++ cell :: behind) := linked.2
      rw [tail.prev_eq]
      cases front with
      | nil => simp
      | cons third others => simp [List.getLast?_cons]

/-- In a list that stands behind `-1`, exactly the first cell points back to
`-1`. -/
theorem BackLinked.prev_eq_neg_one_iff {prev : Nat → Int} {cell : Nat} {front behind : List Nat}
    (linked : BackLinked prev (-1) (front ++ cell :: behind)) :
    prev cell = -1 ↔ front = [] := by
  rw [linked.prev_eq]
  cases found : front.getLast? with
  | none => simpa using found
  | some last =>
      have nonempty : front ≠ [] := by
        rintro rfl
        simp at found
      simp only [Option.map_some, Option.getD_some, nonempty, iff_false]
      exact fun impossible => by
        have : (last : Int) = -1 := impossible
        omega

/-- Redirecting the predecessor takes a cell out of the list. -/
theorem Linked.unlink {next : Nat → Int} {cell last : Nat} {behind : List Nat} :
    ∀ {front : List Nat} {start : Int}, Linked next start (front ++ last :: cell :: behind) →
      Linked (Function.update next last (next cell)) start (front ++ last :: behind)
  | [], start, linked => by
      have lastFresh := (List.nodup_cons.mp linked.nodup).1
      refine ⟨linked.1, ?_⟩
      rw [Function.update_self]
      exact linked.2.2.update_of_notMem
        (fun member => lastFresh (List.mem_cons_of_mem _ member)) _
  | first :: front, start, linked => by
      have firstFresh := (List.nodup_cons.mp linked.nodup).1
      have other : first ≠ last := fun same => firstFresh (by simp [same])
      refine ⟨linked.1, ?_⟩
      rw [Function.update_of_ne other]
      exact Linked.unlink linked.2

/-- Redirecting the successor takes a cell out of the backward list. -/
theorem BackLinked.unlink {prev : Nat → Int} {cell follower : Nat} {behind : List Nat} :
    ∀ {front : List Nat} {before : Int}, (front ++ cell :: follower :: behind).Nodup →
      BackLinked prev before (front ++ cell :: follower :: behind) →
      BackLinked (Function.update prev follower (prev cell)) before
        (front ++ follower :: behind)
  | [], before, distinct, linked => by
      have followerFresh := (List.nodup_cons.mp (List.nodup_cons.mp distinct).2).1
      exact ⟨(Function.update_self ..).trans linked.1,
        linked.2.2.update_of_notMem followerFresh _⟩
  | first :: front, before, distinct, linked => by
      have firstFresh := (List.nodup_cons.mp distinct).1
      have other : first ≠ follower := fun same => firstFresh (by simp [same])
      refine ⟨(Function.update_of_ne other ..).trans linked.1, ?_⟩
      exact BackLinked.unlink (List.nodup_cons.mp distinct).2 linked.2

/-- Cutting the last cell off needs no backward write. -/
theorem BackLinked.front {prev : Nat → Int} :
    ∀ {front behind : List Nat} {before : Int}, BackLinked prev before (front ++ behind) →
      BackLinked prev before front
  | [], _, _, _ => trivial
  | _ :: _, _, _, linked => ⟨linked.1, linked.2.front⟩

/-! ## Following a link -/

/-- The successor of a cell is on the same list. -/
theorem Linked.mem_of_next {next : Nat → Int} {start : Int} {cells : List Nat}
    (linked : Linked next start cells) {cell follower : Nat} (member : cell ∈ cells)
    (follows : next cell = (follower : Int)) : follower ∈ cells := by
  obtain ⟨front, behind, rfl⟩ := List.append_of_mem member
  have tail := linked.drop
  cases behind with
  | nil =>
      have ends : next cell = -1 := tail
      omega
  | cons other behind =>
      have atOther : next cell = (other : Int) := tail.1
      obtain rfl : other = follower := by omega
      simp

/-- The predecessor of a cell is on the same list. -/
theorem BackLinked.mem_of_prev {prev : Nat → Int} {cells : List Nat}
    (linked : BackLinked prev (-1) cells) {cell leader : Nat} (member : cell ∈ cells)
    (leads : prev cell = (leader : Int)) : leader ∈ cells := by
  obtain ⟨front, behind, rfl⟩ := List.append_of_mem member
  rw [linked.prev_eq] at leads
  cases last : front.getLast? with
  | none =>
      rw [last] at leads
      simp at leads
  | some other =>
      rw [last] at leads
      obtain rfl : other = leader := Int.ofNat.inj leads
      exact List.mem_append_left _ (List.mem_of_getLast? last)

/-- Cells that each point to the next one, up to a last cell, are a list. -/
theorem linked_range' {next : Nat → Int} {first count : Nat}
    (steps : ∀ cell, first ≤ cell → cell < first + count →
      next cell = if cell + 1 = first + count then -1 else (cell : Int) + 1) :
    Linked next (if count = 0 then -1 else (first : Int)) (List.range' first count) := by
  induction count generalizing first with
  | zero => rfl
  | succ count ih =>
      refine ⟨by simp, ?_⟩
      have sameEnd : first + 1 + count = first + (count + 1) := by omega
      have onward := @ih (first + 1) fun cell above below => by
        rw [steps cell (by omega) (by omega), sameEnd]
      have here : next first = if count = 0 then -1 else ((first + 1 : Nat) : Int) := by
        rw [steps first (Nat.le_refl _) (by omega)]
        split <;> split <;> omega
      rw [here]
      exact onward

theorem linked_range {next : Nat → Int} {count : Nat} (some : 0 < count)
    (steps : ∀ cell, cell < count →
      next cell = if cell + 1 = count then -1 else (cell : Int) + 1) :
    Linked next 0 (List.range count) := by
  have linked := @linked_range' next 0 count fun cell _ below => by
    rw [Nat.zero_add] at below ⊢
    exact steps cell below
  rwa [if_neg (Nat.ne_of_gt some), ← List.range_eq_range'] at linked

/-! ## Threading the cells of an array -/

/-- Put the chosen cells below `count` in front of a list, in descending
order. -/
def threaded (chosen : Nat → Bool) : Nat → (Nat → Int) → Int → (Nat → Int) × Int
  | 0, next, head => (next, head)
  | count + 1, next, head =>
      if chosen count then threaded chosen count (Function.update next count head) (count : Int)
      else threaded chosen count next head

/-- Threading changes no cell that is not chosen or not below the count. -/
theorem threaded_of_notMem {chosen : Nat → Bool} {count cell : Nat} {next : Nat → Int} {head : Int}
    (outside : cell < count → chosen cell = false) :
    (threaded chosen count next head).1 cell = next cell := by
  induction count generalizing next head with
  | zero => rfl
  | succ count ih =>
      have before : cell < count → chosen cell = false :=
        fun below => outside (Nat.lt_succ_of_lt below)
      rw [threaded]
      split
      · next isChosen =>
          rw [ih before, Function.update_of_ne]
          rintro rfl
          exact Bool.false_ne_true ((outside (Nat.lt_succ_self _)).symm.trans isChosen)
      · exact ih before

/-- When all cells are chosen, each is linked to the next. -/
theorem threaded_all {chosen : Nat → Bool} {count : Nat} {next : Nat → Int} {head : Int}
    (all : ∀ cell, cell < count → chosen cell = true) :
    threaded chosen count next head =
      (fun cell => if cell < count then if cell + 1 = count then head else cell + 1 else next cell,
        if count = 0 then head else 0) := by
  induction count generalizing next head with
  | zero => simp [threaded]
  | succ count ih =>
      rw [threaded, if_pos (all count (Nat.lt_succ_self _)),
        ih fun cell below => all cell (Nat.lt_succ_of_lt below)]
      refine Prod.ext (funext fun cell => ?_) ?_
      · dsimp only
        rcases Nat.lt_trichotomy cell count with below | rfl | above
        · have sameNext : (if cell + 1 = count then (count : Int) else cell + 1) = cell + 1 := by
            split <;> omega
          rw [if_pos below, if_pos (Nat.lt_succ_of_lt below), sameNext,
            if_neg (by omega : ¬ cell + 1 = count + 1)]
        · simp
        · rw [if_neg (by omega), if_neg (by omega), Function.update_of_ne (Nat.ne_of_gt above)]
      · rcases Nat.eq_zero_or_pos count with rfl | positive
        · simp
        · simp [Nat.ne_of_gt positive]

/-- **The chosen cells, in ascending order, come before the old list.** -/
theorem Linked.threaded {chosen : Nat → Bool} {count : Nat} {next : Nat → Int} {head : Int}
    {cells : List Nat} (linked : Linked next head cells) (above : ∀ cell ∈ cells, count ≤ cell) :
    Linked (threaded chosen count next head).1 (threaded chosen count next head).2
      ((List.range count).filter chosen ++ cells) := by
  induction count generalizing next head cells with
  | zero => exact linked
  | succ count ih =>
      rw [LinkedArena.threaded, List.range_succ, List.filter_append, List.append_assoc]
      split
      · next isChosen =>
          have fresh : count ∉ cells := fun member =>
            Nat.not_succ_le_self count (above count member)
          rw [List.filter_cons_of_pos isChosen]
          refine ih (linked.push fresh) fun cell member => ?_
          rcases List.mem_cons.mp member with rfl | old
          · exact Nat.le_refl _
          · exact Nat.le_of_succ_le (above cell old)
      · next notChosen =>
          rw [List.filter_cons_of_neg notChosen]
          exact ih linked fun cell member => Nat.le_of_succ_le (above cell member)

end LinkedArena
