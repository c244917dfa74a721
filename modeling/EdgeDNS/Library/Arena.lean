import EdgeDNS.Library.Linked
import Mathlib.Data.List.Perm.Subperm

/-!
# Buckets of doubly linked cells over one array

An arena is an array of cells. Every cell is either spare or in use. The spare
cells form a list threaded through the successor fields, and every occupied
bucket owns a doubly linked chain of used cells, threaded through the same
successor fields and through the predecessor fields.

`Arena.Represents capacity arena chain spare` says that the arena stores the
chains `chain bucket` and the free list `spare`. A used cell on no chain is
loose: its two links are `-1`, so nothing reaches it and it reaches nothing.

Four operations change an arena: a spare cell is put in front of a bucket
(`insertFront`) or left loose (`insertLoose`), a cell is unlinked and released
(`remove`), and a whole bucket is released (`releaseAll`, `vacate`). Each has
one lemma that says which chains the new arena represents.
-/

set_option autoImplicit false

namespace LinkedArena

/-- The link structure of an array of cells. A vacant bucket has no head. -/
@[ext] structure Arena where
  head : Nat → Option Int
  next : Nat → Int
  prev : Nat → Int
  used : Nat → Bool
  free : Int

namespace Arena

/-- The arena stores the given chains and the given free list. -/
structure Represents (capacity : Nat) (arena : Arena) (chain : Nat → List Nat)
    (spare : List Nat) : Prop where
  spareLinked : Linked arena.next arena.free spare
  memSpare : ∀ cell, cell ∈ spare ↔ cell < capacity ∧ arena.used cell = false
  vacant : ∀ bucket, arena.head bucket = none → chain bucket = []
  chainLinked : ∀ bucket start, arena.head bucket = some start →
    chain bucket ≠ [] ∧ Linked arena.next start (chain bucket)
  chainBack : ∀ bucket, BackLinked arena.prev (-1) (chain bucket)
  chainUsed : ∀ bucket, ∀ cell ∈ chain bucket, cell < capacity ∧ arena.used cell = true
  disjoint : ∀ bucket bucket' cell, cell ∈ chain bucket → cell ∈ chain bucket' →
    bucket = bucket'
  loose : ∀ cell, cell < capacity → arena.used cell = true → (∀ bucket, cell ∉ chain bucket) →
    arena.next cell = -1 ∧ arena.prev cell = -1

namespace Represents

variable {capacity : Nat} {arena : Arena} {chain : Nat → List Nat} {spare : List Nat}

theorem spare_nodup (represents : arena.Represents capacity chain spare) : spare.Nodup :=
  represents.spareLinked.nodup

theorem chain_nodup (represents : arena.Represents capacity chain spare) (bucket : Nat) :
    (chain bucket).Nodup := by
  cases occupied : arena.head bucket with
  | none => simp [represents.vacant bucket occupied]
  | some start => exact (represents.chainLinked bucket start occupied).2.nodup

/-- No cell is both spare and on a chain. -/
theorem notMem_spare (represents : arena.Represents capacity chain spare) {bucket cell : Nat}
    (member : cell ∈ chain bucket) : cell ∉ spare := by
  intro isSpare
  have inUse := (represents.chainUsed bucket cell member).2
  rw [((represents.memSpare cell).mp isSpare).2] at inUse
  cases inUse

theorem notMem_chain (represents : arena.Represents capacity chain spare) {cell : Nat}
    (isSpare : cell ∈ spare) (bucket : Nat) : cell ∉ chain bucket :=
  fun member => represents.notMem_spare member isSpare

/-- A bucket with a cell on its chain is occupied, and its head starts the
chain. -/
theorem head_of_mem (represents : arena.Represents capacity chain spare) {bucket cell : Nat}
    (member : cell ∈ chain bucket) :
    ∃ start, arena.head bucket = some start ∧ Linked arena.next start (chain bucket) := by
  cases occupied : arena.head bucket with
  | none =>
      rw [represents.vacant bucket occupied] at member
      cases member
  | some start => exact ⟨start, rfl, (represents.chainLinked bucket start occupied).2⟩

/-- The head of an occupied bucket is the first cell of its chain. -/
theorem head_eq_cons (represents : arena.Represents capacity chain spare) {bucket : Nat}
    {start : Int} (occupied : arena.head bucket = some start) :
    ∃ first rest, chain bucket = first :: rest ∧ start = (first : Int) := by
  obtain ⟨nonempty, linked⟩ := represents.chainLinked bucket start occupied
  cases cells : chain bucket with
  | nil => exact absurd cells nonempty
  | cons first rest =>
      rw [cells] at linked
      exact ⟨first, rest, rfl, linked.1⟩

/-- A chain is no longer than the array. -/
theorem chain_length_le (represents : arena.Represents capacity chain spare) (bucket : Nat) :
    (chain bucket).length ≤ capacity := by
  have bounded : chain bucket ⊆ List.range capacity := fun cell member =>
    List.mem_range.mpr (represents.chainUsed bucket cell member).1
  simpa using (List.subperm_of_subset (represents.chain_nodup bucket) bounded).length_le

end Represents

/-- An arena of unused cells, each linked to the next, has no chains and all
cells spare. -/
theorem Represents.unused {capacity : Nat} {arena : Arena} (some : 0 < capacity)
    (unused : arena.used = fun _ => false) (vacant : arena.head = fun _ => none)
    (free : arena.free = 0)
    (steps : ∀ cell, cell < capacity →
      arena.next cell = if cell + 1 = capacity then -1 else (cell : Int) + 1) :
    arena.Represents capacity (fun _ => []) (List.range capacity) := by
  refine ⟨free ▸ linked_range some steps, ?_, fun _ _ => rfl, ?_, fun _ => trivial, ?_, ?_, ?_⟩
  · intro cell
    simp [unused]
  · intro bucket start occupied
    rw [vacant] at occupied
    cases occupied
  · intro bucket cell member
    cases member
  · intro first second cell member
    cases member
  · intro cell _ inUse
    rw [unused] at inUse
    cases inUse

/-! ## Threading the unused cells anew -/

/-- The arena with its unused cells threaded onto a new free list. -/
def rethreaded (capacity : Nat) (arena : Arena) : Arena :=
  { arena with
    next := (threaded (fun cell => !arena.used cell) capacity arena.next (-1)).1
    free := (threaded (fun cell => !arena.used cell) capacity arena.next (-1)).2 }

section Rethreaded

variable {capacity : Nat} {arena : Arena}

/-- A used cell keeps its successor. -/
theorem rethreaded_next {cell : Nat} (kept : cell < capacity → arena.used cell = true) :
    (arena.rethreaded capacity).next cell = arena.next cell := by
  refine threaded_of_notMem fun below => ?_
  rw [kept below]
  rfl

/-- The new free list holds the unused cells. -/
theorem rethreaded_linked (capacity : Nat) (arena : Arena) :
    Linked (arena.rethreaded capacity).next (arena.rethreaded capacity).free
      ((List.range capacity).filter fun cell => !arena.used cell) := by
  have noCells : Linked arena.next (-1) [] := rfl
  have linked := @Linked.threaded (fun cell => !arena.used cell) capacity _ _ _ noCells
    fun cell member => absurd member List.not_mem_nil
  rwa [List.append_nil] at linked

theorem exists_unused_of_eq {after : Arena} (isAfter : after = arena.rethreaded capacity) :
    ∃ unused, Linked after.next after.free unused ∧
      unused = (List.range capacity).filter fun cell => !arena.used cell := by
  subst isAfter
  exact ⟨_, rethreaded_linked capacity arena, rfl⟩

theorem mem_unused {cell : Nat} :
    cell ∈ (List.range capacity).filter (fun cell => !arena.used cell) ↔
      cell < capacity ∧ arena.used cell = false := by
  rw [List.mem_filter, List.mem_range, Bool.not_eq_true']

/-- **Threading the unused cells anew keeps the chains.** -/
theorem Represents.rethreaded {chain : Nat → List Nat} {spare : List Nat}
    (represents : arena.Represents capacity chain spare) :
    (arena.rethreaded capacity).Represents capacity chain
      ((List.range capacity).filter fun cell => !arena.used cell) := by
  refine ⟨rethreaded_linked capacity arena, fun cell => mem_unused, represents.vacant, ?_,
    represents.chainBack, represents.chainUsed, represents.disjoint, ?_⟩
  · intro bucket start occupied
    obtain ⟨nonempty, linked⟩ := represents.chainLinked bucket start occupied
    refine ⟨nonempty, linked.congr fun cell member => ?_⟩
    exact rethreaded_next fun _ => (represents.chainUsed bucket cell member).2
  · intro cell bounded inUse alone
    have sameNext : (arena.rethreaded capacity).next cell = arena.next cell :=
      rethreaded_next fun _ => inUse
    rw [sameNext]
    exact represents.loose cell bounded inUse alone

end Rethreaded

/-! ## Replacing one chain -/

/-- A change that concerns the chain of one bucket: what the bucket and the free
list come to, and that the cells outside keep their links. -/
structure Replaces (capacity : Nat) (before after : Arena) (chain : Nat → List Nat) (bucket : Nat)
    (cells spare : List Nat) : Prop where
  spareLinked : Linked after.next after.free spare
  memSpare : ∀ cell, cell ∈ spare ↔ cell < capacity ∧ after.used cell = false
  vacant : after.head bucket = none → cells = []
  linked : ∀ start, after.head bucket = some start →
    cells ≠ [] ∧ Linked after.next start cells
  back : BackLinked after.prev (-1) cells
  used : ∀ cell ∈ cells, cell < capacity ∧ after.used cell = true
  apart : ∀ other ≠ bucket, ∀ cell ∈ cells, cell ∉ chain other
  dropped : ∀ cell ∈ chain bucket, cell ∉ cells → after.used cell = false
  heads : ∀ other ≠ bucket, after.head other = before.head other
  keeps : ∀ cell, cell ∉ chain bucket → cell ∉ cells →
    after.next cell = before.next cell ∧ after.prev cell = before.prev cell ∧
      after.used cell = before.used cell

/-- **Replacing the chain of one bucket** leaves every other chain. -/
theorem Represents.replace {capacity : Nat} {arena after : Arena} {chain : Nat → List Nat}
    {spare cells spare' : List Nat} {bucket : Nat}
    (represents : arena.Represents capacity chain spare)
    (replaces : Replaces capacity arena after chain bucket cells spare') :
    after.Represents capacity (Function.update chain bucket cells) spare' := by
  have keeps : ∀ {other cell}, other ≠ bucket → cell ∈ chain other →
      after.next cell = arena.next cell ∧ after.prev cell = arena.prev cell ∧
        after.used cell = arena.used cell := by
    intro other cell different member
    refine replaces.keeps cell (fun inside => ?_) fun inside => ?_
    · exact different (represents.disjoint other bucket cell member inside)
    · exact replaces.apart other different cell inside member
  refine ⟨replaces.spareLinked, replaces.memSpare, ?_, ?_, ?_, ?_, ?_, ?_⟩
  · intro other vacated
    rcases eq_or_ne other bucket with rfl | different
    · rw [Function.update_self]
      exact replaces.vacant vacated
    · rw [Function.update_of_ne different]
      exact represents.vacant other ((replaces.heads other different).symm.trans vacated)
  · intro other start starts
    rcases eq_or_ne other bucket with rfl | different
    · rw [Function.update_self]
      exact replaces.linked start starts
    · rw [Function.update_of_ne different]
      obtain ⟨nonempty, linked⟩ := represents.chainLinked other start
        ((replaces.heads other different).symm.trans starts)
      exact ⟨nonempty, linked.congr fun cell member => (keeps different member).1⟩
  · intro other
    rcases eq_or_ne other bucket with rfl | different
    · rw [Function.update_self]
      exact replaces.back
    · rw [Function.update_of_ne different]
      exact (represents.chainBack other).congr fun cell member => (keeps different member).2.1
  · intro other cell member
    rcases eq_or_ne other bucket with rfl | different
    · rw [Function.update_self] at member
      exact replaces.used cell member
    · rw [Function.update_of_ne different] at member
      rw [(keeps different member).2.2]
      exact represents.chainUsed other cell member
  · intro first second cell inFirst inSecond
    rcases eq_or_ne first bucket with rfl | different
    · rcases eq_or_ne second first with rfl | different'
      · rfl
      · rw [Function.update_self] at inFirst
        rw [Function.update_of_ne different'] at inSecond
        exact absurd inSecond (replaces.apart second different' cell inFirst)
    · rw [Function.update_of_ne different] at inFirst
      rcases eq_or_ne second bucket with rfl | different'
      · rw [Function.update_self] at inSecond
        exact absurd inFirst (replaces.apart first different cell inSecond)
      · rw [Function.update_of_ne different'] at inSecond
        exact represents.disjoint first second cell inFirst inSecond
  · intro cell bounded inUse alone
    have notThere : cell ∉ cells := by
      have atBucket := alone bucket
      rwa [Function.update_self] at atBucket
    have notBefore : cell ∉ chain bucket := by
      intro member
      rw [replaces.dropped cell member notThere] at inUse
      cases inUse
    have free : ∀ other, cell ∉ chain other := by
      intro other
      rcases eq_or_ne other bucket with rfl | different
      · exact notBefore
      · have atOther := alone other
        rwa [Function.update_of_ne different] at atOther
    obtain ⟨next, prev, used⟩ := replaces.keeps cell notBefore notThere
    rw [next, prev]
    exact represents.loose cell bounded (used.symm.trans inUse) free

/-! ## Taking a spare cell -/

/-- Take the first spare cell into use, on no chain. -/
def insertLoose (arena : Arena) (cell : Nat) : Arena where
  head := arena.head
  next := Function.update arena.next cell (-1)
  prev := Function.update arena.prev cell (-1)
  used := Function.update arena.used cell true
  free := arena.next cell

/-- Take the first spare cell into use, in front of a bucket. -/
def insertFront (arena : Arena) (bucket cell : Nat) : Arena :=
  match arena.head bucket with
  | none =>
      { arena.insertLoose cell with
        head := Function.update arena.head bucket (some (cell : Int)) }
  | some start =>
      { head := Function.update arena.head bucket (some (cell : Int))
        next := Function.update arena.next cell start
        prev := Function.update (Function.update arena.prev start.toNat (cell : Int)) cell (-1)
        used := Function.update arena.used cell true
        free := arena.next cell }

namespace Represents

variable {capacity : Nat} {arena : Arena} {chain : Nat → List Nat} {spare : List Nat}
  {cell : Nat}

/-- Using the first spare cell leaves the rest of the free list. -/
theorem memSpare_tail (represents : arena.Represents capacity chain (cell :: spare))
    (other : Nat) :
    other ∈ spare ↔ other < capacity ∧ Function.update arena.used cell true other = false := by
  by_cases same : other = cell
  · subst same
    simpa using (List.nodup_cons.mp represents.spare_nodup).1
  · rw [Function.update_of_ne same, ← represents.memSpare other]
    simp [same]

theorem used_of_ne_spare (represents : arena.Represents capacity chain (cell :: spare))
    {bucket other : Nat} (member : other ∈ chain bucket) : other ≠ cell := by
  rintro rfl
  exact represents.notMem_chain (List.mem_cons_self ..) bucket member

theorem insertLoose (represents : arena.Represents capacity chain (cell :: spare)) :
    (arena.insertLoose cell).Represents capacity chain spare where
  spareLinked := represents.spareLinked.2.update_of_notMem
    (List.nodup_cons.mp represents.spare_nodup).1 _
  memSpare := represents.memSpare_tail
  vacant := represents.vacant
  chainLinked bucket start occupied :=
    ⟨(represents.chainLinked bucket start occupied).1,
      (represents.chainLinked bucket start occupied).2.update_of_notMem
        (represents.notMem_chain (List.mem_cons_self ..) bucket) _⟩
  chainBack bucket := (represents.chainBack bucket).update_of_notMem
    (represents.notMem_chain (List.mem_cons_self ..) bucket) _
  chainUsed bucket other member :=
    ⟨(represents.chainUsed bucket other member).1, by
      simp only [Arena.insertLoose, Function.update_of_ne (represents.used_of_ne_spare member)]
      exact (represents.chainUsed bucket other member).2⟩
  disjoint := represents.disjoint
  loose other bounded inUse alone := by
    by_cases same : other = cell
    · subst same
      simp [Arena.insertLoose]
    · simp only [Arena.insertLoose, Function.update_of_ne same] at inUse ⊢
      exact represents.loose other bounded inUse alone

/-- **A spare cell put in front of a bucket heads its chain**, and no other
chain changes. -/
theorem insertFront (represents : arena.Represents capacity chain (cell :: spare))
    (bucket : Nat) :
    (arena.insertFront bucket cell).Represents capacity
      (Function.update chain bucket (cell :: chain bucket)) spare := by
  have outside := fun bucket => represents.notMem_chain (List.mem_cons_self ..) bucket
  have bounded : cell < capacity := ((represents.memSpare cell).mp (List.mem_cons_self ..)).1
  have notSpare := (List.nodup_cons.mp represents.spare_nodup).1
  -- the facts that do not depend on whether the bucket was vacant
  have used : ∀ other ∈ cell :: chain bucket,
      other < capacity ∧ Function.update arena.used cell true other = true := by
    intro other member
    rcases List.mem_cons.mp member with rfl | old
    · simpa using bounded
    · rw [Function.update_of_ne (represents.used_of_ne_spare old)]
      exact represents.chainUsed bucket other old
  have apart : ∀ bucket' ≠ bucket, ∀ other ∈ cell :: chain bucket, other ∉ chain bucket' := by
    intro bucket' different other member member'
    rcases List.mem_cons.mp member with rfl | old
    · exact outside bucket' member'
    · exact different (represents.disjoint bucket' bucket other member' old)
  refine represents.replace ?_
  cases occupied : arena.head bucket with
  | none =>
      have empty := represents.vacant bucket occupied
      simp only [Arena.insertFront, occupied, Arena.insertLoose]
      exact
        { spareLinked := represents.spareLinked.2.update_of_notMem notSpare _
          memSpare := represents.memSpare_tail
          vacant := fun vacated => by simp at vacated
          linked := fun start starts => by
            simp only [Function.update_self, Option.some.injEq] at starts
            simp [empty, ← starts]
          back := by simp [empty]
          used := used
          apart := apart
          dropped := fun other member gone => absurd (List.mem_cons_of_mem _ member) gone
          heads := fun bucket' different => Function.update_of_ne different ..
          keeps := fun other _ gone => by
            have different : other ≠ cell := List.ne_of_not_mem_cons gone
            simp only [Function.update_of_ne different, true_and] }
  | some start =>
      obtain ⟨first, rest, cells, rfl⟩ := represents.head_eq_cons occupied
      have linked := (represents.chainLinked bucket _ occupied).2
      simp only [Arena.insertFront, occupied, Int.toNat_natCast]
      exact
        { spareLinked := represents.spareLinked.2.update_of_notMem notSpare _
          memSpare := represents.memSpare_tail
          vacant := fun vacated => by simp at vacated
          linked := fun start starts => by
            simp only [Function.update_self, Option.some.injEq] at starts
            subst starts
            exact ⟨by simp, linked.push (outside bucket)⟩
          back := by
            have back := represents.chainBack bucket
            have fresh := outside bucket
            have distinct := represents.chain_nodup bucket
            rw [cells] at back fresh distinct ⊢
            exact back.push fresh distinct
          used := used
          apart := apart
          dropped := fun other member gone => absurd (List.mem_cons_of_mem _ member) gone
          heads := fun bucket' different => Function.update_of_ne different ..
          keeps := fun other out gone => by
            have different : other ≠ cell := List.ne_of_not_mem_cons gone
            have notFirst : other ≠ first := fun same => out (by simp [cells, same])
            simp only [Function.update_of_ne different, Function.update_of_ne notFirst,
              true_and] }

end Represents

/-! ## Releasing cells -/

/-- Put a cell in front of the free list. -/
def release (arena : Arena) (cell : Nat) : Arena where
  head := arena.head
  next := Function.update arena.next cell arena.free
  prev := Function.update arena.prev cell (-1)
  used := Function.update arena.used cell false
  free := (cell : Int)

/-- Redirect the neighbours of a cell past it. A bucket that loses its only
cell becomes vacant. -/
def unlink (arena : Arena) (bucket cell : Nat) : Arena where
  head :=
    if arena.head bucket = some (cell : Int) then
      Function.update arena.head bucket
        (if arena.next cell = -1 then none else some (arena.next cell))
    else arena.head
  next :=
    if arena.head bucket ≠ some (cell : Int) ∧ arena.prev cell ≠ -1 then
      Function.update arena.next (arena.prev cell).toNat (arena.next cell)
    else arena.next
  prev :=
    if arena.next cell ≠ -1 then
      Function.update arena.prev (arena.next cell).toNat (arena.prev cell)
    else arena.prev
  used := arena.used
  free := arena.free

/-- Take a cell off the chain of a bucket and release it. -/
def remove (arena : Arena) (bucket cell : Nat) : Arena :=
  (arena.unlink bucket cell).release cell

/-- Release cells one after the other. -/
def releaseAll (arena : Arena) (cells : List Nat) : Arena :=
  cells.foldl release arena

/-- Declare a bucket vacant. -/
def vacate (arena : Arena) (bucket : Nat) : Arena :=
  { arena with head := Function.update arena.head bucket none }

@[simp] theorem releaseAll_nil (arena : Arena) : arena.releaseAll [] = arena := rfl

@[simp] theorem releaseAll_cons (arena : Arena) (cell : Nat) (cells : List Nat) :
    arena.releaseAll (cell :: cells) = (arena.release cell).releaseAll cells := rfl

@[simp] theorem releaseAll_head (arena : Arena) (cells : List Nat) :
    (arena.releaseAll cells).head = arena.head := by
  induction cells generalizing arena with
  | nil => rfl
  | cons cell cells ih => rw [releaseAll_cons, ih, release]

/-- Releasing cells leaves every other cell alone. -/
theorem releaseAll_of_notMem {cell : Nat} {cells : List Nat} (outside : cell ∉ cells)
    (arena : Arena) :
    (arena.releaseAll cells).next cell = arena.next cell ∧
      (arena.releaseAll cells).prev cell = arena.prev cell ∧
      (arena.releaseAll cells).used cell = arena.used cell := by
  induction cells generalizing arena with
  | nil => exact ⟨rfl, rfl, rfl⟩
  | cons first cells ih =>
      have different : cell ≠ first := fun same => outside (same ▸ List.mem_cons_self ..)
      obtain ⟨next, prev, used⟩ :=
        ih (fun member => outside (List.mem_cons_of_mem _ member)) (arena.release first)
      rw [releaseAll_cons, next, prev, used]
      simp [release, Function.update_of_ne different]

/-- A released cell is not in use. -/
theorem releaseAll_used_of_mem {cell : Nat} {cells : List Nat} (member : cell ∈ cells)
    (arena : Arena) : (arena.releaseAll cells).used cell = false := by
  induction cells generalizing arena with
  | nil => cases member
  | cons first cells ih =>
      rw [releaseAll_cons]
      by_cases later : cell ∈ cells
      · exact ih later _
      · rw [(releaseAll_of_notMem later _).2.2]
        have isFirst : cell = first := (List.mem_cons.mp member).resolve_right later
        simp [release, isFirst]

/-- The released cells stand in front of the free list, the last one first. -/
theorem releaseAll_spare {cells : List Nat} (distinct : cells.Nodup) {arena : Arena}
    {spare : List Nat} (linked : Linked arena.next arena.free spare)
    (apart : ∀ cell ∈ cells, cell ∉ spare) :
    Linked (arena.releaseAll cells).next (arena.releaseAll cells).free
      (cells.reverse ++ spare) := by
  induction cells generalizing arena spare with
  | nil => simpa using linked
  | cons first cells ih =>
      have pushed : Linked (arena.release first).next (arena.release first).free
          (first :: spare) :=
        linked.push (apart first (List.mem_cons_self ..))
      have further := ih (List.nodup_cons.mp distinct).2 pushed (by
        intro cell member isSpare
        rcases List.mem_cons.mp isSpare with rfl | isSpare
        · exact (List.nodup_cons.mp distinct).1 member
        · exact apart cell (List.mem_cons_of_mem _ member) isSpare)
      rw [List.reverse_cons, List.append_assoc]
      exact further

namespace Represents

variable {capacity : Nat} {arena : Arena} {chain : Nat → List Nat} {spare : List Nat}
  {cell : Nat}

/-- Releasing a loose cell changes no chain. -/
theorem releaseLoose (represents : arena.Represents capacity chain spare)
    (bounded : cell < capacity) (inUse : arena.used cell = true)
    (alone : ∀ bucket, cell ∉ chain bucket) :
    (arena.release cell).Represents capacity chain (cell :: spare) where
  spareLinked := represents.spareLinked.push fun isSpare => by
    rw [((represents.memSpare cell).mp isSpare).2] at inUse
    cases inUse
  memSpare other := by
    by_cases same : other = cell
    · subst same
      simp [release, bounded]
    · simp only [release, Function.update_of_ne same, ← represents.memSpare other,
        List.mem_cons, same, false_or]
  vacant := represents.vacant
  chainLinked bucket start occupied :=
    ⟨(represents.chainLinked bucket start occupied).1,
      (represents.chainLinked bucket start occupied).2.update_of_notMem (alone bucket) _⟩
  chainBack bucket := (represents.chainBack bucket).update_of_notMem (alone bucket) _
  chainUsed bucket other member :=
    ⟨(represents.chainUsed bucket other member).1, by
      have different : other ≠ cell := fun same => alone bucket (same ▸ member)
      simp only [release, Function.update_of_ne different]
      exact (represents.chainUsed bucket other member).2⟩
  disjoint := represents.disjoint
  loose other inside otherUsed free := by
    have different : other ≠ cell := by
      rintro rfl
      simp [release] at otherUsed
    simp only [release, Function.update_of_ne different] at otherUsed ⊢
    exact represents.loose other inside otherUsed free

/-- The head of the bucket that owns a cell is this cell exactly when no cell
stands before it. -/
theorem head_eq_cell_iff (represents : arena.Represents capacity chain spare) {bucket : Nat}
    {front behind : List Nat} (split : chain bucket = front ++ cell :: behind) :
    arena.head bucket = some (cell : Int) ↔ front = [] := by
  have member : cell ∈ chain bucket := by simp [split]
  obtain ⟨start, occupied, linked⟩ := represents.head_of_mem member
  have distinct := represents.chain_nodup bucket
  rw [split] at linked distinct
  rw [occupied, Option.some.injEq]
  cases front with
  | nil => simpa using linked.1
  | cons first front =>
      have different : first ≠ cell := fun same =>
        (List.nodup_cons.mp distinct).1 (by simp [same])
      have atFirst : start = (first : Int) := linked.1
      simp only [reduceCtorEq, iff_false, atFirst]
      exact_mod_cast different

/-- A cell that is linked backwards has a predecessor on its chain. -/
theorem exists_predecessor (represents : arena.Represents capacity chain spare) {bucket : Nat}
    (member : cell ∈ chain bucket) (hasPrev : arena.prev cell ≠ -1) :
    ∃ before ∈ chain bucket, before ≠ cell ∧ arena.next before = (cell : Int) := by
  obtain ⟨front, behind, split⟩ := List.append_of_mem member
  have back := represents.chainBack bucket
  have distinct := represents.chain_nodup bucket
  obtain ⟨start, -, linked⟩ := represents.head_of_mem member
  rw [split] at back linked distinct
  rcases List.eq_nil_or_concat front with rfl | ⟨init, last, rfl⟩
  · exact absurd back.1 hasPrev
  · rw [List.concat_eq_append, List.append_assoc] at linked distinct
    refine ⟨last, by simp [split], ?_, linked.drop.1⟩
    rintro rfl
    have twice := (List.nodup_append.mp distinct).2.1
    exact (List.nodup_cons.mp twice).1 (List.mem_cons_self ..)

/-- Unlinking a cell leaves the rest of its chain linked in both directions. -/
theorem unlink_chain (represents : arena.Represents capacity chain spare) {bucket : Nat}
    {front behind : List Nat} (split : chain bucket = front ++ cell :: behind) :
    ((arena.unlink bucket cell).head bucket = none → front ++ behind = []) ∧
    (∀ start, (arena.unlink bucket cell).head bucket = some start →
      front ++ behind ≠ [] ∧ Linked (arena.unlink bucket cell).next start (front ++ behind)) ∧
    BackLinked (arena.unlink bucket cell).prev (-1) (front ++ behind) := by
  have member : cell ∈ chain bucket := by simp [split]
  obtain ⟨start, occupied, linked⟩ := represents.head_of_mem member
  have distinct := represents.chain_nodup bucket
  have back := represents.chainBack bucket
  have heads := represents.head_eq_cell_iff split
  have behindLinked : Linked arena.next (arena.next cell) behind := by
    rw [split] at linked
    exact linked.drop
  rw [split] at linked distinct back
  have backUnlinked : BackLinked (arena.unlink bucket cell).prev (-1) (front ++ behind) := by
    cases behind with
    | nil =>
        have ended : arena.next cell = -1 := behindLinked
        simpa [unlink, ended] using back.front
    | cons follower rest =>
        have follows : arena.next cell = (follower : Int) := behindLinked.1
        simp only [unlink, follows, Int.toNat_natCast]
        rw [if_pos (by omega)]
        exact back.unlink distinct
  rcases List.eq_nil_or_concat front with rfl | ⟨init, last, rfl⟩
  · -- the cell heads its bucket: the head moves on, or the bucket becomes vacant
    have headed : arena.head bucket = some (cell : Int) := heads.mpr rfl
    refine ⟨fun vacated => ?_, fun start' starts => ?_, backUnlinked⟩
    · have ended : arena.next cell = -1 := by
        by_contra more
        simp [unlink, headed, more] at vacated
      simpa using behindLinked.start_eq_neg_one_iff.mp ended
    · have more : arena.next cell ≠ -1 := by
        intro ended
        simp [unlink, headed, ended] at starts
      have moved : arena.next cell = start' := by
        simpa [unlink, headed, more] using starts
      simp only [unlink, headed, ne_eq, not_true_eq_false, false_and, if_false,
        List.nil_append, ← moved]
      exact ⟨fun empty => more (behindLinked.start_eq_neg_one_iff.mpr empty), behindLinked⟩
  · -- the cell has a predecessor, which is redirected past it
    have notHead : arena.head bucket ≠ some (cell : Int) := by
      rw [ne_eq, heads]
      simp
    have before : arena.prev cell = (last : Int) := by
      rw [back.prev_eq]
      simp
    have hasPrev : arena.prev cell ≠ -1 := by omega
    have sameHead : (arena.unlink bucket cell).head bucket = some start := by
      simp only [unlink]
      rw [if_neg notHead, occupied]
    refine ⟨fun vacated => ?_, fun start' starts => ⟨by simp, ?_⟩, backUnlinked⟩
    · rw [sameHead] at vacated
      cases vacated
    · have atStart : start = start' := Option.some.inj (sameHead.symm.trans starts)
      subst atStart
      rw [List.concat_eq_append, List.append_assoc] at linked
      have redirected := linked.unlink
      simp only [unlink]
      rw [if_pos ⟨notHead, hasPrev⟩, before, Int.toNat_natCast]
      simpa using redirected

/-- Unlinking a cell writes only to cells of its own chain. -/
theorem unlink_of_notMem (represents : arena.Represents capacity chain spare) {bucket : Nat}
    (member : cell ∈ chain bucket) {other : Nat} (outside : other ∉ chain bucket) :
    (arena.unlink bucket cell).next other = arena.next other ∧
      (arena.unlink bucket cell).prev other = arena.prev other := by
  obtain ⟨front, behind, split⟩ := List.append_of_mem member
  have back := represents.chainBack bucket
  obtain ⟨start, -, linked⟩ := represents.head_of_mem member
  rw [split] at linked back
  have behindLinked := linked.drop
  constructor
  · by_cases redirect : arena.head bucket ≠ some (cell : Int) ∧ arena.prev cell ≠ -1
    · simp only [unlink, if_pos redirect]
      refine Function.update_of_ne (fun same => outside ?_) _ _
      rcases List.eq_nil_or_concat front with rfl | ⟨init, last, rfl⟩
      · exact absurd back.1 redirect.2
      · rw [back.prev_eq] at same
        simp only [List.concat_eq_append, List.getLast?_append, List.getLast?_singleton,
          Option.some_or, Option.map_some, Option.getD_some, Int.ofNat_eq_natCast,
          Int.toNat_natCast] at same
        simp [split, same]
    · simp only [unlink, if_neg redirect]
  · by_cases more : arena.next cell ≠ -1
    · simp only [unlink, if_pos more]
      refine Function.update_of_ne (fun same => outside ?_) _ _
      cases behind with
      | nil => exact absurd behindLinked more
      | cons follower rest =>
          rw [behindLinked.1, Int.toNat_natCast] at same
          simp [split, same]
    · simp only [unlink, if_neg more]

theorem unlink_head_of_ne {bucket other : Nat} (different : other ≠ bucket) :
    (arena.unlink bucket cell).head other = arena.head other := by
  by_cases headed : arena.head bucket = some (cell : Int)
  · simp only [unlink, if_pos headed, Function.update_of_ne different]
  · simp only [unlink, if_neg headed]

/-- **Removing a cell takes it off the one chain it is on**, keeping the order
of the rest, and no other chain changes. -/
theorem remove (represents : arena.Represents capacity chain spare) {bucket : Nat}
    (member : cell ∈ chain bucket) :
    (arena.remove bucket cell).Represents capacity
      (Function.update chain bucket ((chain bucket).erase cell)) (cell :: spare) := by
  obtain ⟨front, behind, split⟩ := List.append_of_mem member
  have distinct := represents.chain_nodup bucket
  have erased : (chain bucket).erase cell = front ++ behind := by
    rw [split] at distinct ⊢
    have absent : cell ∉ front := fun inFront =>
      (List.nodup_append.mp distinct).2.2 cell inFront cell (List.mem_cons_self ..) rfl
    rw [List.erase_append_right _ absent, List.erase_cons_head]
  have gone : cell ∉ (chain bucket).erase cell := List.Nodup.not_mem_erase distinct
  obtain ⟨vacated, relinked, backlinked⟩ := represents.unlink_chain split
  rw [← erased] at vacated relinked backlinked
  refine represents.replace ?_
  exact
    { spareLinked := by
        have unmoved : Linked (arena.unlink bucket cell).next arena.free spare :=
          represents.spareLinked.congr fun other isSpare =>
            (represents.unlink_of_notMem member fun inChain =>
              represents.notMem_spare inChain isSpare).1
        exact unmoved.push (represents.notMem_spare member)
      memSpare := fun other => by
        rcases eq_or_ne other cell with rfl | different
        · simp [Arena.remove, release, (represents.chainUsed bucket other member).1]
        · simp only [Arena.remove, release, unlink, Function.update_of_ne different,
            ← represents.memSpare other, List.mem_cons, different, false_or]
      vacant := vacated
      linked := fun start starts =>
        ⟨(relinked start starts).1, (relinked start starts).2.update_of_notMem gone _⟩
      back := backlinked.update_of_notMem gone _
      used := fun other stays => by
        have different : other ≠ cell := fun same => gone (same ▸ stays)
        simp only [Arena.remove, release, unlink, Function.update_of_ne different]
        exact represents.chainUsed bucket other (List.mem_of_mem_erase stays)
      apart := fun bucket' different other stays member' =>
        different (represents.disjoint bucket' bucket other member' (List.mem_of_mem_erase stays))
      dropped := fun other old out => by
        have same : other = cell := by
          by_contra different
          exact out ((List.mem_erase_of_ne different).mpr old)
        simp [Arena.remove, release, same]
      heads := fun bucket' different => unlink_head_of_ne different
      keeps := fun other out _ => by
        have different : other ≠ cell := fun same => out (same ▸ member)
        obtain ⟨next, prev⟩ := represents.unlink_of_notMem member out
        simp only [Arena.remove, release, Function.update_of_ne different, next, prev, true_and]
        rfl }

/-- **Releasing a bucket empties its chain**, and no other chain changes. -/
theorem clear (represents : arena.Represents capacity chain spare) (bucket : Nat) :
    ((arena.releaseAll (chain bucket)).vacate bucket).Represents capacity
      (Function.update chain bucket []) ((chain bucket).reverse ++ spare) := by
  refine represents.replace ?_
  exact
    { spareLinked := releaseAll_spare (represents.chain_nodup bucket) represents.spareLinked
        fun _ member => represents.notMem_spare member
      memSpare := fun other => by
        simp only [vacate, List.mem_append, List.mem_reverse]
        by_cases member : other ∈ chain bucket
        · simp [member, releaseAll_used_of_mem member,
            (represents.chainUsed bucket other member).1]
        · simp [member, (releaseAll_of_notMem member arena).2.2, represents.memSpare other]
      vacant := fun _ => rfl
      linked := fun start starts => by simp [vacate] at starts
      back := trivial
      used := fun other member => absurd member List.not_mem_nil
      apart := fun _ _ other member => absurd member List.not_mem_nil
      dropped := fun other member _ => releaseAll_used_of_mem member arena
      heads := fun bucket' different => by
        simp only [vacate, Function.update_of_ne different, releaseAll_head]
      keeps := fun other out _ => releaseAll_of_notMem out arena }

end Represents

end Arena

/-! ## Arenas without loose cells -/

/-- The free list and the chains cover the cells. -/
def Covers (capacity : Nat) (chain : Nat → List Nat) (spare : List Nat) : Prop :=
  ∀ cell < capacity, cell ∈ spare ∨ ∃ bucket, cell ∈ chain bucket

namespace Covers

variable {capacity : Nat} {chain : Nat → List Nat} {spare : List Nat} {cell bucket : Nat}

/-- A cell that leaves the free list for a chain stays covered. -/
theorem push (covers : Covers capacity chain (cell :: spare)) (bucket : Nat) :
    Covers capacity (Function.update chain bucket (cell :: chain bucket)) spare := by
  have longer : ∀ bucket' other, other ∈ chain bucket' →
      other ∈ Function.update chain bucket (cell :: chain bucket) bucket' := by
    intro bucket' other member
    rcases eq_or_ne bucket' bucket with rfl | different
    · rw [Function.update_self]
      exact List.mem_cons_of_mem _ member
    · rwa [Function.update_of_ne different]
  intro other bounded
  rcases covers other bounded with isSpare | ⟨bucket', member⟩
  · rcases List.mem_cons.mp isSpare with rfl | rest
    · exact .inr ⟨bucket, by simp⟩
    · exact .inl rest
  · exact .inr ⟨bucket', longer bucket' other member⟩

/-- Cells that leave a chain for the free list stay covered. -/
theorem shrink (covers : Covers capacity chain spare) {kept spare' : List Nat}
    (leaves : ∀ other, other ∈ chain bucket → other ∈ kept ∨ other ∈ spare')
    (grows : ∀ other, other ∈ spare → other ∈ spare') :
    Covers capacity (Function.update chain bucket kept) spare' := by
  intro other bounded
  rcases covers other bounded with isSpare | ⟨bucket', member⟩
  · exact .inl (grows other isSpare)
  · rcases eq_or_ne bucket' bucket with rfl | different
    · rcases leaves other member with stays | freed
      · exact .inr ⟨bucket', by rwa [Function.update_self]⟩
      · exact .inl freed
    · exact .inr ⟨bucket', by rwa [Function.update_of_ne different]⟩

theorem clear (covers : Covers capacity chain spare) (bucket : Nat) :
    Covers capacity (Function.update chain bucket []) ((chain bucket).reverse ++ spare) := by
  refine covers.shrink ?_ ?_
  · intro other member
    exact .inr (List.mem_append_left _ (List.mem_reverse.mpr member))
  · intro other member
    exact List.mem_append_right _ member

theorem erase (covers : Covers capacity chain spare) (bucket cell : Nat) :
    Covers capacity (Function.update chain bucket ((chain bucket).erase cell))
      (cell :: spare) := by
  refine covers.shrink ?_ ?_
  · intro other member
    rcases eq_or_ne other cell with rfl | different
    · exact .inr (List.mem_cons_self ..)
    · exact .inl ((List.mem_erase_of_ne different).mpr member)
  · intro other member
    exact List.mem_cons_of_mem _ member

/-- Spare cells alone cover an arena without chains. -/
theorem range (capacity : Nat) : Covers capacity (fun _ => []) (List.range capacity) :=
  fun _ bounded => .inl (List.mem_range.mpr bounded)

/-- A used cell of a covered arena is on a chain. -/
theorem mem_chain {arena : Arena} (covers : Covers capacity chain spare)
    (represents : arena.Represents capacity chain spare) (bounded : cell < capacity)
    (inUse : arena.used cell = true) : ∃ bucket, cell ∈ chain bucket := by
  refine (covers cell bounded).resolve_left fun isSpare => ?_
  cases ((represents.memSpare cell).mp isSpare).2.symm.trans inUse

end Covers

end LinkedArena
