import EdgeDNS.Library.PowerPieces
import EdgeDNS.Library.Run

/-!
# The buffer pool of the ring

`BufferPool::setup` cuts the buffers into rings whose counts are powers of two and
numbers these from a base on. A ring is named by its group id afterwards, and found
at the offset of the id from the base; `pickGroup` deals the ids out in turn.

`setup` cuts the count into the pieces of `PowerPieces`. Its inner loop doubles a
64 bit word, which comes to nothing behind 2 to the 63; its group ids are an `int`,
and so are the offsets from the base; the bytes of a ring are counted in 64 bits.
`partitions_iff` says that these bounds are all there is: within them the rings
partition the buffers, whatever is called afterwards. The buffers in a ring are always
its own (`owns_always`).
-/

set_option autoImplicit false

namespace EdgeDNS.Uring

/-- What ends a call before it returns. Undefined behaviour is an overflow of an `int`
or a division by zero. -/
inductive Failure
  | runtimeError (what : String)
  | assertion
  | undefined
  | unfinished
deriving DecidableEq, Repr

/-- The result of an operation on `int`, which must not overflow. -/
def checkedInt (value : Int) : Except Failure Int :=
  if -(2 ^ 31) ≤ value ∧ value < 2 ^ 31 then .ok value else .error .undefined

/-- A buffer as it is added to a ring. -/
structure RingBuffer where
  addr : Nat
  len : UInt32
  bid : UInt16
deriving DecidableEq, Repr

/-- What is registered for a ring. -/
structure Registration where
  ringEntries : UInt32
  bgid : UInt16
deriving DecidableEq, Repr

/-- The results of the allocations and registrations of the rings, by the number of the
ring: the address of the buffers, and whether there is memory for the ring. -/
structure Kernel where
  bufferMemory : Nat → UInt64 → Option Nat
  ringMemory : Nat → UInt64 → Bool
  register : Nat → Registration → Int

/-- The allocations and registrations succeed. -/
structure Kernel.Succeeds (kernel : Kernel) : Prop where
  bufferMemory : ∀ ring bytes, (kernel.bufferMemory ring bytes).isSome = true
  ringMemory : ∀ ring bytes, kernel.ringMemory ring bytes = true
  register : ∀ ring registration, 0 ≤ kernel.register ring registration

/-- A ring with the buffers added to it. `allocated` is the number of bytes that were
allocated from `bufferBase` on. -/
structure RingSlot where
  bufRing : List RingBuffer
  bufferBase : Nat
  allocated : UInt64
  groupId : Int
  count : UInt64
deriving DecidableEq, Repr

/-- The pool after its setup: the rings, one for each group. -/
structure BufferPool where
  rings : List RingSlot
  bufSize : UInt64
  baseGroupId : Int
  rrCounter : UInt64
deriving DecidableEq, Repr

/-- The address of a buffer of a ring. -/
def RingSlot.address (slot : RingSlot) (bufSize : UInt64) (bufId : Nat) : Nat :=
  slot.bufferBase + bufId * bufSize.toNat % 2 ^ 64

/-- A buffer of a ring as it is added to it. -/
def RingSlot.buffer (slot : RingSlot) (bufSize : UInt64) (bufId : Nat) : RingBuffer :=
  { addr := slot.address bufSize bufId, len := bufSize.toUInt32, bid := UInt16.ofNat bufId }

/-! ## Setting up -/

/-- The inner loop of `setup`: the power of two is doubled while it does not exceed the
count. -/
def doubling (thisCount : UInt64) : Nat → UInt64 → Except Failure UInt64
  | 0, _ => .error .unfinished
  | fuel + 1, pow2 =>
      if pow2 * 2 ≤ thisCount then doubling thisCount fuel (pow2 * 2) else .ok pow2

/-- A round of `setup`: a ring with its buffers. An `io_uring_buf` has 16 bytes. -/
def newSlot (kernel : Kernel) (ring : Nat) (bufSize : UInt64) (grp : Int) (thisCount : UInt64) :
    Except Failure RingSlot :=
  match kernel.bufferMemory ring (thisCount * bufSize) with
  | none => .error (.runtimeError "Buffer pool posix_memalign failed!")
  | some bufferBase =>
      if kernel.ringMemory ring (thisCount * 16) = false then
        .error (.runtimeError "Ring memory posix_memalign failed!")
      else
        let ret := kernel.register ring ⟨thisCount.toUInt32, UInt16.ofInt grp⟩
        if ret < 0 then
          .error (.runtimeError ("io_uring_register_buf_ring failed! Error: " ++ toString ret))
        else
          let slot : RingSlot := ⟨[], bufferBase, thisCount * bufSize, grp, thisCount⟩
          .ok { slot with bufRing := (List.range thisCount.toNat).map (slot.buffer bufSize) }

/-- The loop of `setup` over what remains. -/
def setupLoop (kernel : Kernel) (bufSize maxPerGroup : UInt64) :
    Nat → UInt64 → Int → List RingSlot → Except Failure (List RingSlot)
  | 0, _, _, _ => .error .unfinished
  | fuel + 1, remaining, grp, rings =>
      if remaining = 0 then .ok rings
      else do
        let thisCount ← doubling (if maxPerGroup < remaining then maxPerGroup else remaining) fuel 1
        if thisCount = 0 then .ok rings
        else
          let slot ← newSlot kernel rings.length bufSize grp thisCount
          let next ← checkedInt (grp + 1)
          setupLoop kernel bufSize maxPerGroup fuel (remaining - thisCount) next (rings ++ [slot])

/-- `setup` of a pool without rings. The fuel bounds the rounds of each loop. -/
def setup (kernel : Kernel) (fuel : Nat) (totalCount size : UInt64) (baseGrpId : Int32)
    (maxPerGroup : UInt64) : Except Failure BufferPool :=
  if totalCount = 0 then .error (.runtimeError "total_count must be > 0")
  else if maxPerGroup = 0 ∨ maxPerGroup &&& (maxPerGroup - 1) ≠ 0 then
    .error (.runtimeError "max_per_group must be a power of two!")
  else
    (setupLoop kernel size maxPerGroup fuel totalCount baseGrpId.toInt []).map fun rings =>
      { rings := rings, bufSize := size, baseGroupId := baseGrpId.toInt, rrCounter := 0 }

/-! ## Serving -/

namespace BufferPool

/-- The place of a group among the rings, in the arithmetic of `int`. -/
def indexOf (pool : BufferPool) (groupId : Int) : Except Failure Int :=
  checkedInt (groupId - pool.baseGroupId)

/-- The ring of a group, if the assertions hold, with its place. -/
def slotOf (pool : BufferPool) (groupId : Int) (bufId : Int32) : Except Failure (Nat × RingSlot) :=
  match pool.indexOf groupId with
  | .error failure => .error failure
  | .ok idx =>
      match if 0 ≤ idx then pool.rings[idx.toNat]? else none with
      | none => .error .assertion
      | some slot =>
          if 0 ≤ bufId.toInt ∧ bufId.toInt < slot.count.toNat then .ok (idx.toNat, slot)
          else .error .assertion

/-- The address of a buffer of a group. -/
def getBufferAddress (pool : BufferPool) (groupId : Int) (bufId : Int32) : Except Failure Nat :=
  (pool.slotOf groupId bufId).map fun (_, slot) => slot.address pool.bufSize bufId.toInt.toNat

/-- A buffer is added to its ring again. -/
def releaseBuffer (pool : BufferPool) (groupId : Int) (bufId : Int32) :
    Except Failure BufferPool :=
  (pool.slotOf groupId bufId).map fun (idx, slot) =>
    { pool with
      rings := pool.rings.set idx
        { slot with bufRing := slot.bufRing ++ [slot.buffer pool.bufSize bufId.toInt.toNat] } }

/-- The next group in turn. The counter wraps around. -/
def pickGroup (pool : BufferPool) : Except Failure Int × BufferPool :=
  let picked : Except Failure Int :=
    if pool.rings = [] then .error .undefined
    else
      let turn : Nat := pool.rrCounter.toNat % pool.rings.length
      checkedInt (pool.baseGroupId + Int.bmod turn (2 ^ 32))
  (picked, { pool with rrCounter := pool.rrCounter + 1 })

/-- A call on the pool. -/
inductive Call
  | pickGroup
  | getBufferAddress (groupId : Int) (bufId : Int32)
  | releaseBuffer (groupId : Int) (bufId : Int32)

/-- The pool after a call. -/
def step (pool : BufferPool) : Call → BufferPool
  | .pickGroup => pool.pickGroup.2
  | .getBufferAddress _ _ => pool
  | .releaseBuffer groupId bufId =>
      match pool.releaseBuffer groupId bufId with
      | .ok released => released
      | .error _ => pool

end BufferPool

/-! ## The loops -/

/-- The inner loop finds the largest power of two, unless the doubled word comes to
nothing before. -/
theorem doubling_eq {thisCount pow2 : UInt64} {exponent fuel : Nat}
    (small : thisCount.toNat < 2 ^ 63) (isPower : pow2.toNat = 2 ^ exponent)
    (atMost : 2 ^ exponent ≤ thisCount.toNat) :
    doubling thisCount fuel pow2 =
      if Nat.log 2 thisCount.toNat < fuel + exponent then
        .ok (UInt64.ofNat (2 ^ Nat.log 2 thisCount.toNat))
      else .error .unfinished := by
  have reached : exponent ≤ Nat.log 2 thisCount.toNat := Nat.le_log_of_pow_le (by decide) atMost
  induction fuel generalizing pow2 exponent with
  | zero => rw [doubling, if_neg (by omega)]
  | succ fuel ih =>
      have twice : (pow2 * 2).toNat = 2 ^ (exponent + 1) := by
        have two : (2 : UInt64).toNat = 2 := rfl
        rw [UInt64.toNat_mul, isPower, two, ← pow_succ, Nat.mod_eq_of_lt]
        rw [pow_succ]
        omega
      rw [doubling]
      by_cases more : pow2 * 2 ≤ thisCount
      · have atMost' : 2 ^ (exponent + 1) ≤ thisCount.toNat := by
          rwa [← twice, ← UInt64.le_iff_toNat_le]
        rw [if_pos more, ih twice atMost' (Nat.le_log_of_pow_le (by decide) atMost'),
          Nat.add_right_comm, Nat.add_assoc]
      · have above : thisCount.toNat < 2 ^ (exponent + 1) := by
          rw [← twice]
          rwa [UInt64.le_iff_toNat_le, Nat.not_le] at more
        have isLog : Nat.log 2 thisCount.toNat = exponent :=
          Nat.log_eq_of_pow_le_of_lt_pow atMost above
        rw [if_neg more, isLog, if_pos (by omega), ← isPower, UInt64.ofNat_toNat]

/-- A count from 2 to the 63 on is never reached. -/
theorem doubling_forever {thisCount : UInt64} (large : 2 ^ 63 ≤ thisCount.toNat) (fuel : Nat)
    {pow2 : UInt64} (isPower : pow2 = 0 ∨ ∃ exponent < 64, pow2.toNat = 2 ^ exponent) :
    doubling thisCount fuel pow2 = .error .unfinished := by
  induction fuel generalizing pow2 with
  | zero => rfl
  | succ fuel ih =>
      have two : (2 : UInt64).toNat = 2 := rfl
      have next : (pow2 * 2 = 0 ∨ ∃ exponent < 64, (pow2 * 2).toNat = 2 ^ exponent) := by
        rcases isPower with rfl | ⟨exponent, below, isPower⟩
        · exact .inl (by decide)
        · have twice : (pow2 * 2).toNat = 2 ^ (exponent + 1) % 2 ^ 64 := by
            rw [UInt64.toNat_mul, isPower, two, ← pow_succ]
          rcases Nat.lt_or_ge (exponent + 1) 64 with inside | last
          · refine .inr ⟨exponent + 1, inside, ?_⟩
            rw [twice, Nat.mod_eq_of_lt (Nat.pow_lt_pow_right (by decide) inside)]
          · obtain rfl : exponent = 63 := by omega
            exact .inl (UInt64.toNat_inj.mp twice)
      have atMost : pow2 * 2 ≤ thisCount := by
        rw [UInt64.le_iff_toNat_le]
        rcases next with isZero | ⟨exponent, below, isPower⟩
        · rw [isZero]
          exact Nat.zero_le _
        · rw [isPower]
          exact (Nat.pow_le_pow_right (by decide) (Nat.le_of_lt_succ below)).trans large
      rw [doubling, if_pos atMost, ih next]

theorem one_le_toNat {word : UInt64} (notZero : word ≠ 0) : 1 ≤ word.toNat := by
  rw [Nat.one_le_iff_ne_zero]
  exact fun nothing => notZero (UInt64.toNat_inj.mp nothing)

theorem minimum_toNat (remaining maxPerGroup : UInt64) :
    (if maxPerGroup < remaining then maxPerGroup else remaining).toNat =
      min remaining.toNat maxPerGroup.toNat := by
  split
  · next less =>
      rw [UInt64.lt_iff_toNat_lt] at less
      omega
  · next notLess =>
      rw [UInt64.lt_iff_toNat_lt] at notLess
      omega

/-- The rings have the given counts, ids that follow each other from the base on, and
the bytes that were asked for. -/
structure Laid (size : UInt64) (base : Int) (counts : List Nat) (rings : List RingSlot) :
    Prop where
  counts : rings.map (·.count.toNat) = counts
  groups : ∀ (index : Nat) (slot : RingSlot), rings[index]? = some slot →
    slot.groupId = base + index
  bytes : ∀ slot ∈ rings, slot.allocated = slot.count * size

namespace Laid

variable {size : UInt64} {base : Int} {counts : List Nat} {rings : List RingSlot}

theorem nil : Laid size base [] [] where
  counts := rfl
  groups index slot isSlot := by cases isSlot
  bytes slot member := absurd member List.not_mem_nil

theorem length (laid : Laid size base counts rings) : rings.length = counts.length := by
  rw [← laid.counts, List.length_map]

/-- One more ring. -/
theorem snoc (laid : Laid size base counts rings) {slot : RingSlot}
    (group : slot.groupId = base + rings.length) (bytes : slot.allocated = slot.count * size) :
    Laid size base (counts ++ [slot.count.toNat]) (rings ++ [slot]) where
  counts := by rw [List.map_append, laid.counts, List.map_singleton]
  groups index other isOther := by
    rcases Nat.lt_trichotomy index rings.length with before | rfl | behind
    · rw [List.getElem?_append_left before] at isOther
      exact laid.groups index other isOther
    · rw [List.getElem?_concat_length] at isOther
      obtain rfl := Option.some.inj isOther
      exact group
    · rw [List.getElem?_eq_none (by rw [List.length_append, List.length_singleton]; omega)]
        at isOther
      cases isOther
  bytes other member := by
    rcases List.mem_append.mp member with before | last
    · exact laid.bytes other before
    · rw [List.mem_singleton.mp last]
      exact bytes

/-- Buffers that are added to a ring change nothing of it. -/
theorem set (laid : Laid size base counts rings) {index : Nat} {slot : RingSlot}
    (isSlot : rings[index]? = some slot) (buffers : List RingBuffer) :
    Laid size base counts (rings.set index { slot with bufRing := buffers }) where
  counts := by
    have isCount : (rings.map (·.count.toNat))[index]? = some slot.count.toNat := by
      rw [List.getElem?_map, isSlot, Option.map_some]
    obtain ⟨inside, isCount⟩ := List.getElem?_eq_some_iff.mp isCount
    rw [List.map_set, ← laid.counts]
    conv_lhs => rw [← isCount]
    exact List.set_getElem_self inside
  groups place other isOther := by
    by_cases same : index = place
    · subst same
      rw [List.getElem?_set_self (List.getElem?_eq_some_iff.mp isSlot).1] at isOther
      obtain rfl := Option.some.inj isOther
      exact laid.groups index slot isSlot
    · rw [List.getElem?_set_ne same] at isOther
      exact laid.groups place other isOther
  bytes other member := by
    rcases List.mem_or_eq_of_mem_set member with before | rfl
    · exact laid.bytes other before
    · exact laid.bytes slot (List.mem_of_getElem? isSlot)

end Laid

/-! ## What `setup` gives -/

theorem bind_ok {α β : Type} {first : Except Failure α} {next : α → Except Failure β} {result : β}
    (isOk : first >>= next = .ok result) :
    ∃ value, first = .ok value ∧ next value = .ok result := by
  cases first with
  | error failure => cases isOk
  | ok value => exact ⟨value, rfl, isOk⟩

theorem checkedInt_ok {value result : Int} (isOk : checkedInt value = .ok result) :
    result = value ∧ -(2 ^ 31) ≤ value ∧ value < 2 ^ 31 := by
  rw [checkedInt] at isOk
  split at isOk
  · next inside => exact ⟨(Except.ok.inj isOk).symm, inside⟩
  · cases isOk

section Setup

variable {kernel : Kernel} {size maxPerGroup : UInt64}

theorem newSlot_ok {ring : Nat} {grp : Int} {thisCount : UInt64} {slot : RingSlot}
    (made : newSlot kernel ring size grp thisCount = .ok slot) :
    slot.groupId = grp ∧ slot.count = thisCount ∧ slot.allocated = slot.count * size := by
  unfold newSlot at made
  split at made
  · cases made
  · split at made
    · cases made
    · dsimp only at made
      split at made
      · cases made
      · obtain rfl := Except.ok.inj made
        exact ⟨rfl, rfl, rfl⟩

theorem newSlot_succeeds (succeeds : kernel.Succeeds) (ring : Nat) (grp : Int)
    (thisCount : UInt64) : ∃ slot, newSlot kernel ring size grp thisCount = .ok slot := by
  obtain ⟨base, memory⟩ := Option.isSome_iff_exists.mp
    (succeeds.bufferMemory ring (thisCount * size))
  have registered := succeeds.register ring ⟨thisCount.toUInt32, UInt16.ofInt grp⟩
  simp only [newSlot, memory, succeeds.ringMemory, Bool.true_eq_false, if_false,
    if_neg (Int.not_lt.mpr registered)]
  exact ⟨_, rfl⟩

/-- The first piece of what remains. -/
def piece (cap : Nat) (remaining : UInt64) : UInt64 :=
  UInt64.ofNat (2 ^ PowerPieces.firstExponent remaining.toNat cap)

theorem piece_toNat {cap : Nat} {remaining : UInt64} (positive : 1 ≤ remaining.toNat) :
    (piece cap remaining).toNat = 2 ^ PowerPieces.firstExponent remaining.toNat cap := by
  have fits := @PowerPieces.two_pow_firstExponent_le _ cap positive
  exact UInt64.toNat_ofNat_of_lt'
    (Nat.lt_of_le_of_lt (fits.trans (Nat.min_le_left ..)) (UInt64.toNat_lt remaining))

theorem sub_piece_toNat {cap : Nat} {remaining : UInt64} (positive : 1 ≤ remaining.toNat) :
    (remaining - piece cap remaining).toNat =
      remaining.toNat - 2 ^ PowerPieces.firstExponent remaining.toNat cap := by
  have fits := @PowerPieces.two_pow_firstExponent_le _ cap positive
  rw [UInt64.toNat_sub_of_le, piece_toNat positive]
  rw [UInt64.le_iff_toNat_le, piece_toNat positive]
  omega

theorem piece_ne_zero {cap : Nat} {remaining : UInt64} (positive : 1 ≤ remaining.toNat) :
    piece cap remaining ≠ 0 := by
  intro isZero
  have nothing := congrArg UInt64.toNat isZero
  rw [piece_toNat positive] at nothing
  exact absurd nothing (Nat.two_pow_pos _).ne'

/-- The inner loop finds the first piece of what remains. -/
theorem doubling_piece {cap : Nat} {remaining : UInt64} (isCap : maxPerGroup.toNat = 2 ^ cap)
    (positive : 1 ≤ remaining.toNat)
    (small : remaining.toNat < 2 ^ 63 ∨ maxPerGroup.toNat < 2 ^ 63) (fuel : Nat) :
    doubling (if maxPerGroup < remaining then maxPerGroup else remaining) fuel 1 =
      if PowerPieces.firstExponent remaining.toNat cap < fuel then .ok (piece cap remaining)
      else .error .unfinished := by
  have room := Nat.two_pow_pos cap
  have isMin := minimum_toNat remaining maxPerGroup
  have loop := @doubling_eq (if maxPerGroup < remaining then maxPerGroup else remaining) 1 0 fuel
    (by omega) rfl (by omega)
  rw [loop, isMin, isCap, Nat.add_zero, piece, PowerPieces.firstExponent]

/-- **The loop of `setup`**, when it ends, has laid out the pieces of what remains. -/
theorem setupLoop_ok {cap fuel : Nat} {remaining : UInt64} {base grp : Int}
    {counts : List Nat} {rings result : List RingSlot}
    (isCap : maxPerGroup.toNat = 2 ^ cap)
    (small : remaining.toNat < 2 ^ 63 ∨ maxPerGroup.toNat < 2 ^ 63)
    (laid : Laid size base counts rings) (isNext : grp = base + rings.length)
    (inInt : grp < 2 ^ 31)
    (ends : setupLoop kernel size maxPerGroup fuel remaining grp rings = .ok result) :
    Laid size base (counts ++ PowerPieces.pieces remaining.toNat cap) result ∧
      base + result.length < 2 ^ 31 := by
  induction fuel generalizing remaining grp counts rings with
  | zero => cases ends
  | succ fuel ih =>
      rw [setupLoop] at ends
      by_cases isZero : remaining = 0
      · rw [if_pos isZero] at ends
        obtain rfl := Except.ok.inj ends
        have nothing : remaining.toNat = 0 := by rw [isZero]; rfl
        rw [nothing, PowerPieces.pieces_zero, List.append_nil, ← isNext]
        exact ⟨laid, inInt⟩
      · rw [if_neg isZero] at ends
        have positive := one_le_toNat isZero
        obtain ⟨thisCount, doubled, ends⟩ := bind_ok ends
        rw [doubling_piece isCap positive small] at doubled
        split at doubled
        · obtain rfl := Except.ok.inj doubled
          rw [if_neg (piece_ne_zero positive)] at ends
          obtain ⟨slot, made, ends⟩ := bind_ok ends
          obtain ⟨next, isInt, ends⟩ := bind_ok ends
          obtain ⟨group, count, bytes⟩ := newSlot_ok made
          obtain ⟨rfl, -, nextInInt⟩ := checkedInt_ok isInt
          have rest := @sub_piece_toNat cap _ positive
          have isCount : slot.count.toNat = 2 ^ PowerPieces.firstExponent remaining.toNat cap := by
            rw [count, piece_toNat positive]
          have more := ih (small.imp_left fun below => by omega)
            (laid.snoc (group.trans isNext) bytes)
            (by rw [List.length_append, List.length_singleton]; push_cast; omega) nextInInt ends
          rwa [rest, isCount, List.append_assoc, List.singleton_append,
            ← PowerPieces.pieces_eq_cons positive] at more
        · cases doubled

/-- **The loop of `setup` ends** while its group ids stay in an `int`. -/
theorem setupLoop_ends {cap fuel : Nat} {remaining : UInt64} {grp : Int} {rings : List RingSlot}
    (succeeds : kernel.Succeeds) (isCap : maxPerGroup.toNat = 2 ^ cap)
    (small : remaining.toNat < 2 ^ 63 ∨ maxPerGroup.toNat < 2 ^ 63)
    (aboveMin : -(2 ^ 31) ≤ grp)
    (inInt : grp + (PowerPieces.pieces remaining.toNat cap).length < 2 ^ 31)
    (enough : remaining.toNat < fuel) :
    ∃ result, setupLoop kernel size maxPerGroup fuel remaining grp rings = .ok result := by
  induction fuel generalizing remaining grp rings with
  | zero => exact absurd enough (Nat.not_lt_zero _)
  | succ fuel ih =>
      rw [setupLoop]
      by_cases isZero : remaining = 0
      · exact ⟨rings, if_pos isZero⟩
      · have positive := one_le_toNat isZero
        have rest := @sub_piece_toNat cap _ positive
        have fits := @PowerPieces.two_pow_firstExponent_le _ cap positive
        have below := Nat.lt_two_pow_self (n := PowerPieces.firstExponent remaining.toNat cap)
        have inFuel : PowerPieces.firstExponent remaining.toNat cap < fuel :=
          Nat.lt_of_lt_of_le below ((fits.trans (Nat.min_le_left ..)).trans
            (Nat.le_of_lt_succ enough))
        obtain ⟨slot, made⟩ :=
          @newSlot_succeeds _ size succeeds rings.length grp (piece cap remaining)
        rw [PowerPieces.pieces_eq_cons positive, List.length_cons] at inInt
        have isInt : checkedInt (grp + 1) = .ok (grp + 1) := if_pos (by omega)
        obtain ⟨result, ends⟩ := @ih (remaining - piece cap remaining) (grp + 1) (rings ++ [slot])
          (small.imp_left fun below => by omega) (by omega) (by rw [rest]; omega) (by omega)
        refine ⟨result, ?_⟩
        rw [if_neg isZero, doubling_piece isCap positive small, if_pos inFuel]
        simp only [bind, Except.bind, if_neg (piece_ne_zero positive), made, isInt]
        exact ends

end Setup

/-! ## The partition -/

/-- A group whose ring is there. -/
def BufferPool.Registered (pool : BufferPool) (groupId : Int) : Prop :=
  ∃ slot ∈ pool.rings, slot.groupId = groupId

/-- Two ranges of bytes of one length have no byte in common. -/
def Apart (first second length : Nat) : Prop := first + length ≤ second ∨ second + length ≤ first

/-- The rings of the pool partition the buffers. -/
structure Partition (totalCount maxPerGroup : UInt64) (baseGrpId : Int32) (pool : BufferPool) :
    Prop where
  powers : ∀ slot ∈ pool.rings, (∃ exponent, slot.count.toNat = 2 ^ exponent) ∧
    slot.count ≤ maxPerGroup
  covers : (pool.rings.map (·.count.toNat)).sum = totalCount.toNat
  consecutive : ∀ (index : Nat) (slot : RingSlot), pool.rings[index]? = some slot →
    slot.groupId = baseGrpId.toInt + index
  indexed : ∀ groupId, pool.Registered groupId → ∃ (index : Nat) (slot : RingSlot),
    pool.indexOf groupId = .ok index ∧ pool.rings[index]? = some slot ∧ slot.groupId = groupId
  picked : ∃ groupId, pool.pickGroup.1 = .ok groupId ∧ pool.Registered groupId
  served : ∀ slot ∈ pool.rings, ∀ bufId : Int32, 0 ≤ bufId.toInt →
    bufId.toInt < slot.count.toNat →
      pool.getBufferAddress slot.groupId bufId =
        .ok (slot.address pool.bufSize bufId.toInt.toNat) ∧
      ∃ released, pool.releaseBuffer slot.groupId bufId = .ok released
  disjoint : ∀ slot ∈ pool.rings, ∀ first < slot.count.toNat, ∀ second < slot.count.toNat,
    first ≠ second → Apart (slot.address pool.bufSize first) (slot.address pool.bufSize second)
      pool.bufSize.toNat
  inside : ∀ slot ∈ pool.rings, ∀ bufId < slot.count.toNat,
    slot.bufferBase ≤ slot.address pool.bufSize bufId ∧
    slot.address pool.bufSize bufId + pool.bufSize.toNat ≤
      slot.bufferBase + slot.allocated.toNat

/-- `setup` ends with rings that partition the buffers, whatever is called then. -/
def Partitions (kernel : Kernel) (totalCount size : UInt64) (baseGrpId : Int32)
    (maxPerGroup : UInt64) : Prop :=
  ∃ fuel pool, setup kernel fuel totalCount size baseGrpId maxPerGroup = .ok pool ∧
    ∀ calls, Run.Throughout BufferPool.step (Partition totalCount maxPerGroup baseGrpId) pool calls

/-- The number of rings: the full ones, and one for each bit of the rest. -/
def ringCount (totalCount maxPerGroup : Nat) : Nat :=
  totalCount / maxPerGroup + (totalCount % maxPerGroup).bitIndices.length

/-- The bounds of `setup`. -/
structure InBounds (totalCount size : UInt64) (baseGrpId : Int32) (maxPerGroup : UInt64) :
    Prop where
  doubles : totalCount.toNat < 2 ^ 63 ∨ maxPerGroup.toNat < 2 ^ 63
  indexes : ringCount totalCount.toNat maxPerGroup.toNat ≤ 2 ^ 31
  groups : baseGrpId.toInt + ringCount totalCount.toNat maxPerGroup.toNat < 2 ^ 31
  bytes : 2 ^ Nat.log 2 (min totalCount.toNat maxPerGroup.toNat) * size.toNat < 2 ^ 64

/-- What no call changes of the pool: its rings are the pieces of the count, with their
ids. -/
structure Kept (totalCount size : UInt64) (baseGrpId : Int32) (cap : Nat) (pool : BufferPool) :
    Prop where
  bufSize : pool.bufSize = size
  baseGroupId : pool.baseGroupId = baseGrpId.toInt
  laid : Laid size baseGrpId.toInt (PowerPieces.pieces totalCount.toNat cap) pool.rings

/-- A ring that is found is there, and the buffer is one of it. -/
theorem BufferPool.slotOf_ok {pool : BufferPool} {groupId : Int} {bufId : Int32} {idx : Nat}
    {slot : RingSlot} (isSlot : pool.slotOf groupId bufId = .ok (idx, slot)) :
    pool.rings[idx]? = some slot ∧ 0 ≤ bufId.toInt ∧ bufId.toInt < slot.count.toNat := by
  unfold slotOf at isSlot
  split at isSlot
  · cases isSlot
  · split at isSlot
    · cases isSlot
    · next place _ found _ isRing =>
        split at isSlot
        · next inRing =>
            cases isSlot
            split at isRing
            · exact ⟨isRing, inRing⟩
            · cases isRing
        · cases isSlot

/-- The assertions hold for a ring that is there and a buffer of it. -/
theorem BufferPool.slotOf_eq {pool : BufferPool} {groupId : Int} {bufId : Int32} {idx : Nat}
    {slot : RingSlot} (isIndex : pool.indexOf groupId = .ok idx)
    (isRing : pool.rings[idx]? = some slot) (notNegative : 0 ≤ bufId.toInt)
    (below : bufId.toInt < slot.count.toNat) : pool.slotOf groupId bufId = .ok (idx, slot) := by
  simp only [slotOf, isIndex, if_pos (Int.natCast_nonneg idx), Int.toNat_natCast, isRing,
    if_pos (And.intro notNegative below)]

section Partition

variable {totalCount size maxPerGroup : UInt64} {baseGrpId : Int32} {cap : Nat} {pool : BufferPool}

/-- A call adds a buffer to a ring or moves the turn. -/
theorem Kept.step (kept : Kept totalCount size baseGrpId cap pool) (call : BufferPool.Call) :
    Kept totalCount size baseGrpId cap (BufferPool.step pool call) := by
  cases call with
  | pickGroup => exact ⟨kept.bufSize, kept.baseGroupId, kept.laid⟩
  | getBufferAddress groupId bufId => exact kept
  | releaseBuffer groupId bufId =>
      rw [BufferPool.step]
      cases isSlot : pool.slotOf groupId bufId with
      | error failure =>
          simp only [BufferPool.releaseBuffer, isSlot]
          exact kept
      | ok found =>
          obtain ⟨idx, slot⟩ := found
          simp only [BufferPool.releaseBuffer, isSlot]
          exact ⟨kept.bufSize, kept.baseGroupId, kept.laid.set (BufferPool.slotOf_ok isSlot).1 _⟩

theorem Kept.length (kept : Kept totalCount size baseGrpId cap pool)
    (isCap : maxPerGroup.toNat = 2 ^ cap) :
    pool.rings.length = ringCount totalCount.toNat maxPerGroup.toNat := by
  rw [kept.laid.length, PowerPieces.pieces_length, ringCount, isCap]

/-- A ring that is there has a count that `setup` made. -/
theorem Kept.count (kept : Kept totalCount size baseGrpId cap pool) {slot : RingSlot}
    (member : slot ∈ pool.rings) : ∃ exponent, slot.count.toNat = 2 ^ exponent ∧
      exponent ≤ PowerPieces.firstExponent totalCount.toNat cap := by
  apply PowerPieces.mem_pieces
  rw [← kept.laid.counts]
  exact List.mem_map_of_mem member

/-- A ring is found by its id. -/
theorem Kept.indexOf (kept : Kept totalCount size baseGrpId cap pool)
    (isCap : maxPerGroup.toNat = 2 ^ cap)
    (few : ringCount totalCount.toNat maxPerGroup.toNat ≤ 2 ^ 31) {index : Nat} {slot : RingSlot}
    (isRing : pool.rings[index]? = some slot) : pool.indexOf slot.groupId = .ok index := by
  have inside := (List.getElem?_eq_some_iff.mp isRing).1
  rw [kept.length isCap] at inside
  rw [BufferPool.indexOf, kept.laid.groups index slot isRing, kept.baseGroupId,
    add_sub_cancel_left, checkedInt, if_pos (by omega)]

/-- The id picked is one of the rings. -/
theorem Kept.pickGroup (kept : Kept totalCount size baseGrpId cap pool)
    (isCap : maxPerGroup.toNat = 2 ^ cap)
    (bounds : InBounds totalCount size baseGrpId maxPerGroup) (notEmpty : pool.rings ≠ []) :
    ∃ groupId, pool.pickGroup.1 = .ok groupId ∧ pool.Registered groupId := by
  have positive := List.length_pos_iff.mpr notEmpty
  have inside := Nat.mod_lt pool.rrCounter.toNat positive
  have length := kept.length isCap
  have indexes := bounds.indexes
  have groups := bounds.groups
  obtain ⟨slot, isRing⟩ : ∃ slot,
      pool.rings[pool.rrCounter.toNat % pool.rings.length]? = some slot :=
    ⟨_, List.getElem?_eq_getElem inside⟩
  have aboveMin := baseGrpId.le_toInt
  refine ⟨slot.groupId, ?_, slot, List.mem_of_getElem? isRing, rfl⟩
  have turn : Int.bmod (pool.rrCounter.toNat % pool.rings.length : Nat) (2 ^ 32) =
      (pool.rrCounter.toNat % pool.rings.length : Nat) :=
    Int.bmod_eq_of_le (by omega) (by omega)
  simp only [BufferPool.pickGroup, if_neg notEmpty]
  rw [turn, kept.laid.groups _ slot isRing, kept.baseGroupId, checkedInt, if_pos (by omega)]

/-- The bytes of a ring are counted without an overflow. -/
theorem Kept.bytes (kept : Kept totalCount size baseGrpId cap pool)
    (fits : 2 ^ PowerPieces.firstExponent totalCount.toNat cap * size.toNat < 2 ^ 64)
    {slot : RingSlot} (member : slot ∈ pool.rings) :
    slot.count.toNat * pool.bufSize.toNat < 2 ^ 64 ∧
      slot.allocated.toNat = slot.count.toNat * pool.bufSize.toNat := by
  obtain ⟨exponent, isCount, atMost⟩ := kept.count member
  have noMore : slot.count.toNat ≤ 2 ^ PowerPieces.firstExponent totalCount.toNat cap := by
    rw [isCount]
    exact Nat.pow_le_pow_right (by decide) atMost
  have inWord : slot.count.toNat * size.toNat < 2 ^ 64 :=
    Nat.lt_of_le_of_lt (Nat.mul_le_mul_right _ noMore) fits
  rw [kept.bufSize, kept.laid.bytes slot member, UInt64.toNat_mul, Nat.mod_eq_of_lt inWord]
  exact ⟨inWord, rfl⟩

end Partition

/-- A buffer of a ring whose bytes fit. -/
theorem RingSlot.address_eq {slot : RingSlot} {bufSize : UInt64} {bufId : Nat}
    (fits : slot.count.toNat * bufSize.toNat < 2 ^ 64) (below : bufId < slot.count.toNat) :
    slot.address bufSize bufId = slot.bufferBase + bufId * bufSize.toNat := by
  have noMore := Nat.mul_le_mul_right bufSize.toNat (Nat.le_of_lt below)
  rw [address, Nat.mod_eq_of_lt (Nat.lt_of_le_of_lt noMore fits)]

/-- Buffers of different ids lie apart. -/
theorem RingSlot.address_apart {slot : RingSlot} {bufSize : UInt64} {first second : Nat}
    (fits : slot.count.toNat * bufSize.toNat < 2 ^ 64) (isFirst : first < slot.count.toNat)
    (isSecond : second < slot.count.toNat) (different : first ≠ second) :
    Apart (slot.address bufSize first) (slot.address bufSize second) bufSize.toNat := by
  rw [address_eq fits isFirst, address_eq fits isSecond, Apart]
  rcases Nat.lt_or_gt_of_ne different with before | behind
  · left
    have step := Nat.mul_le_mul_right bufSize.toNat before
    rw [Nat.succ_mul] at step
    omega
  · right
    have step := Nat.mul_le_mul_right bufSize.toNat behind
    rw [Nat.succ_mul] at step
    omega

/-- Only a ring whose bytes fit holds all its buffers. -/
theorem RingSlot.fits_of_inside {slot : RingSlot} {bufSize : UInt64}
    (inside : ∀ bufId < slot.count.toNat,
      slot.address bufSize bufId + bufSize.toNat ≤ slot.bufferBase + slot.allocated.toNat) :
    slot.count.toNat * bufSize.toNat < 2 ^ 64 := by
  have inWord := UInt64.toNat_lt slot.allocated
  -- the buffers up to an id take no more than a word can count
  have upTo : ∀ bufId ≤ slot.count.toNat, bufId * bufSize.toNat < 2 ^ 64 := by
    intro bufId
    induction bufId with
    | zero => intro _; rw [Nat.zero_mul]; decide
    | succ bufId ih =>
        intro isId
        have before := ih (Nat.le_of_succ_le isId)
        have last := inside bufId isId
        rw [address, Nat.mod_eq_of_lt before] at last
        rw [Nat.succ_mul]
        omega
  exact upTo _ (Nat.le_refl _)

/-- **Kept rings partition the buffers**, within the bounds. -/
theorem Kept.partition {totalCount size maxPerGroup : UInt64} {baseGrpId : Int32} {cap : Nat}
    {pool : BufferPool} (kept : Kept totalCount size baseGrpId cap pool)
    (notZero : totalCount ≠ 0) (isCap : maxPerGroup.toNat = 2 ^ cap)
    (bounds : InBounds totalCount size baseGrpId maxPerGroup) :
    Partition totalCount maxPerGroup baseGrpId pool := by
  have positive := one_le_toNat notZero
  have inBytes := bounds.bytes
  rw [isCap] at inBytes
  have placed : ∀ slot ∈ pool.rings, ∃ index : Nat, pool.indexOf slot.groupId = .ok index ∧
      pool.rings[index]? = some slot := by
    intro slot member
    obtain ⟨index, isRing⟩ := List.mem_iff_getElem?.mp member
    exact ⟨index, kept.indexOf isCap bounds.indexes isRing, isRing⟩
  refine
    { powers := fun slot member => ?_
      covers := ?_
      consecutive := kept.laid.groups
      indexed := ?_
      picked := ?_
      served := fun slot member bufId notNegative below => ?_
      disjoint := fun slot member first isFirst second isSecond different =>
        RingSlot.address_apart (kept.bytes inBytes member).1 isFirst isSecond different
      inside := fun slot member bufId below => ?_ }
  · obtain ⟨exponent, isCount, atMost⟩ := kept.count member
    refine ⟨⟨exponent, isCount⟩, ?_⟩
    have fits := @PowerPieces.two_pow_firstExponent_le _ cap positive
    have noMore : 2 ^ exponent ≤ 2 ^ PowerPieces.firstExponent totalCount.toNat cap :=
      Nat.pow_le_pow_right (by decide) atMost
    rw [UInt64.le_iff_toNat_le, isCount, isCap]
    exact noMore.trans (fits.trans (Nat.min_le_right ..))
  · rw [kept.laid.counts, PowerPieces.pieces_sum]
  · rintro groupId ⟨slot, member, rfl⟩
    obtain ⟨index, isIndex, isRing⟩ := placed slot member
    exact ⟨index, slot, isIndex, isRing, rfl⟩
  · refine kept.pickGroup isCap bounds fun nothing => ?_
    have sum := @PowerPieces.pieces_sum totalCount.toNat cap
    rw [← kept.laid.counts, nothing, List.map_nil, List.sum_nil] at sum
    omega
  · obtain ⟨index, isIndex, isRing⟩ := placed slot member
    have found := BufferPool.slotOf_eq isIndex isRing notNegative below
    rw [BufferPool.getBufferAddress, BufferPool.releaseBuffer, found]
    exact ⟨rfl, _, rfl⟩
  · obtain ⟨fits, allocated⟩ := kept.bytes inBytes member
    have last := Nat.mul_le_mul_right pool.bufSize.toNat below
    rw [Nat.succ_mul] at last
    rw [RingSlot.address_eq fits below, allocated]
    omega

/-- A power of two passes the check of `setup`. -/
theorem and_sub_one_of_power {maxPerGroup : UInt64} {cap : Nat}
    (isCap : maxPerGroup.toNat = 2 ^ cap) : maxPerGroup &&& (maxPerGroup - 1) = 0 := by
  have positive := Nat.two_pow_pos cap
  have one : (1 : UInt64).toNat = 1 := rfl
  apply UInt64.toNat_inj.mp
  rw [UInt64.toNat_and, UInt64.toNat_sub_of_le, isCap, one, Nat.and_two_pow_sub_one_eq_mod,
    Nat.mod_self]
  · rfl
  · rw [UInt64.le_iff_toNat_le, isCap]
    exact positive

/-- `setup` is its loop, for arguments that pass its checks. -/
theorem setup_eq {kernel : Kernel} {totalCount size maxPerGroup : UInt64} {baseGrpId : Int32}
    {cap : Nat} (notZero : totalCount ≠ 0) (isCap : maxPerGroup.toNat = 2 ^ cap) (fuel : Nat) :
    setup kernel fuel totalCount size baseGrpId maxPerGroup =
      (setupLoop kernel size maxPerGroup fuel totalCount baseGrpId.toInt []).map fun rings =>
        { rings := rings, bufSize := size, baseGroupId := baseGrpId.toInt, rrCounter := 0 } := by
  have passes : ¬ (maxPerGroup = 0 ∨ maxPerGroup &&& (maxPerGroup - 1) ≠ 0) := by
    rintro (isZero | notPower)
    · rw [isZero] at isCap
      exact absurd isCap.symm (Nat.two_pow_pos cap).ne'
    · exact notPower (and_sub_one_of_power isCap)
  rw [setup, if_neg notZero, if_neg passes]

section Exact

variable {kernel : Kernel} {totalCount size maxPerGroup : UInt64} {baseGrpId : Int32} {cap : Nat}
  {fuel : Nat} {pool : BufferPool}

/-- What `setup` makes is kept from then on, and its ids are in an `int`. -/
theorem setup_kept (notZero : totalCount ≠ 0) (isCap : maxPerGroup.toNat = 2 ^ cap)
    (small : totalCount.toNat < 2 ^ 63 ∨ maxPerGroup.toNat < 2 ^ 63)
    (made : setup kernel fuel totalCount size baseGrpId maxPerGroup = .ok pool) :
    Kept totalCount size baseGrpId cap pool ∧ baseGrpId.toInt + pool.rings.length < 2 ^ 31 := by
  rw [setup_eq notZero isCap] at made
  cases loop : setupLoop kernel size maxPerGroup fuel totalCount baseGrpId.toInt [] with
  | error failure =>
      rw [loop] at made
      cases made
  | ok rings =>
      rw [loop] at made
      obtain rfl := Except.ok.inj made
      have isBase : baseGrpId.toInt = baseGrpId.toInt + ([] : List RingSlot).length :=
        (Int.add_zero _).symm
      obtain ⟨laid, inInt⟩ := setupLoop_ok isCap small Laid.nil isBase baseGrpId.toInt_lt loop
      rw [List.nil_append] at laid
      exact ⟨⟨rfl, rfl, laid⟩, inInt⟩

/-- `setup` does not end when the first count is 2 to the 63. -/
theorem setup_forever (notZero : totalCount ≠ 0) (isCap : maxPerGroup.toNat = 2 ^ cap)
    (largeTotal : 2 ^ 63 ≤ totalCount.toNat) (largeMax : 2 ^ 63 ≤ maxPerGroup.toNat) :
    setup kernel fuel totalCount size baseGrpId maxPerGroup = .error .unfinished := by
  rw [setup_eq notZero isCap]
  cases fuel with
  | zero => rfl
  | succ fuel =>
      have large : 2 ^ 63 ≤
          (if maxPerGroup < totalCount then maxPerGroup else totalCount).toNat := by
        rw [minimum_toNat]
        exact Nat.le_min.mpr ⟨largeTotal, largeMax⟩
      have loop := @doubling_forever _ large fuel 1 (.inr ⟨0, by decide, rfl⟩)
      rw [setupLoop, if_neg notZero, loop]
      rfl

/-- `setup` ends within the bounds. -/
theorem setup_ends (succeeds : kernel.Succeeds) (notZero : totalCount ≠ 0)
    (isCap : maxPerGroup.toNat = 2 ^ cap)
    (bounds : InBounds totalCount size baseGrpId maxPerGroup) :
    ∃ pool, setup kernel (totalCount.toNat + 1) totalCount size baseGrpId maxPerGroup =
      .ok pool := by
  have groups := bounds.groups
  rw [ringCount, isCap, ← PowerPieces.pieces_length] at groups
  obtain ⟨rings, loop⟩ := @setupLoop_ends kernel size maxPerGroup cap (totalCount.toNat + 1)
    totalCount baseGrpId.toInt [] succeeds isCap bounds.doubles baseGrpId.le_toInt groups
    (Nat.lt_succ_self _)
  rw [setup_eq notZero isCap, loop]
  exact ⟨_, rfl⟩

/-- A pool that is a partition was set up within the bounds. -/
theorem inBounds_of_partition (notZero : totalCount ≠ 0) (isCap : maxPerGroup.toNat = 2 ^ cap)
    (made : setup kernel fuel totalCount size baseGrpId maxPerGroup = .ok pool)
    (partition : Partition totalCount maxPerGroup baseGrpId pool) :
    InBounds totalCount size baseGrpId maxPerGroup := by
  have doubles : totalCount.toNat < 2 ^ 63 ∨ maxPerGroup.toNat < 2 ^ 63 := by
    by_contra large
    rw [not_or, Nat.not_lt, Nat.not_lt] at large
    rw [setup_forever notZero isCap large.1 large.2] at made
    cases made
  obtain ⟨kept, inInt⟩ := setup_kept notZero isCap doubles made
  have length := kept.length isCap
  refine ⟨doubles, ?_, by rwa [← length], ?_⟩
  · rw [← length]
    by_contra many
    -- the offset of this ring is no `int`
    have isRing := List.getElem?_eq_getElem (Nat.lt_of_not_le many)
    obtain ⟨index, _, isIndex, _⟩ :=
      partition.indexed _ ⟨_, List.mem_of_getElem? isRing, rfl⟩
    rw [BufferPool.indexOf, kept.laid.groups _ _ isRing, kept.baseGroupId] at isIndex
    have inInt := (checkedInt_ok isIndex).2.2
    omega
  · have positive := one_le_toNat notZero
    have isFirst : 2 ^ PowerPieces.firstExponent totalCount.toNat cap ∈
        pool.rings.map (·.count.toNat) := by
      rw [kept.laid.counts, PowerPieces.pieces_eq_cons positive]
      exact List.mem_cons_self ..
    obtain ⟨slot, member, isCount⟩ := List.mem_map.mp isFirst
    have fits := RingSlot.fits_of_inside fun bufId below =>
      (partition.inside slot member bufId below).2
    rwa [isCount, kept.bufSize, PowerPieces.firstExponent, ← isCap] at fits

end Exact

/-- **The buffer pool is a partition** exactly within the bounds. -/
theorem partitions_iff (kernel : Kernel) (succeeds : kernel.Succeeds)
    (totalCount size : UInt64) (baseGrpId : Int32) (maxPerGroup : UInt64)
    (notZero : totalCount ≠ 0) (isPower : ∃ cap, maxPerGroup.toNat = 2 ^ cap) :
    Partitions kernel totalCount size baseGrpId maxPerGroup ↔
      InBounds totalCount size baseGrpId maxPerGroup := by
  obtain ⟨cap, isCap⟩ := isPower
  constructor
  · rintro ⟨fuel, pool, made, always⟩
    exact inBounds_of_partition notZero isCap made (always [])
  · intro bounds
    obtain ⟨pool, made⟩ := setup_ends succeeds notZero isCap bounds
    refine ⟨_, pool, made, fun calls => ?_⟩
    have kept := (setup_kept notZero isCap bounds.doubles made).1
    have always := @Run.throughout_invariant _ _ BufferPool.step
      (Kept totalCount size baseGrpId cap) (fun _ => True) (fun _ call _ before => before.step call)
      calls pool kept fun _ _ => trivial
    exact always.mono fun _ after => after.partition notZero isCap bounds

/-! ## The buffers in a ring -/

/-- The buffers added to a ring are buffers of it. -/
def RingSlot.Owns (bufSize : UInt64) (slot : RingSlot) : Prop :=
  ∀ buffer ∈ slot.bufRing, ∃ bufId < slot.count.toNat, buffer = slot.buffer bufSize bufId

/-- The rings of the pool hold buffers of their own alone. -/
def BufferPool.Owns (pool : BufferPool) : Prop := ∀ slot ∈ pool.rings, slot.Owns pool.bufSize

section Owns

variable {kernel : Kernel} {size maxPerGroup : UInt64}

theorem newSlot_owns {ring : Nat} {grp : Int} {thisCount : UInt64} {slot : RingSlot}
    (made : newSlot kernel ring size grp thisCount = .ok slot) : slot.Owns size := by
  unfold newSlot at made
  split at made
  · cases made
  · split at made
    · cases made
    · dsimp only at made
      split at made
      · cases made
      · obtain rfl := Except.ok.inj made
        intro buffer member
        obtain ⟨bufId, inRange, isBuffer⟩ := List.mem_map.mp member
        exact ⟨bufId, List.mem_range.mp inRange, isBuffer.symm⟩

theorem setupLoop_owns {fuel : Nat} {remaining : UInt64} {grp : Int}
    {rings result : List RingSlot} (owns : ∀ slot ∈ rings, slot.Owns size)
    (ends : setupLoop kernel size maxPerGroup fuel remaining grp rings = .ok result) :
    ∀ slot ∈ result, slot.Owns size := by
  induction fuel generalizing remaining grp rings with
  | zero => cases ends
  | succ fuel ih =>
      rw [setupLoop] at ends
      split at ends
      · obtain rfl := Except.ok.inj ends
        exact owns
      · obtain ⟨thisCount, -, ends⟩ := bind_ok ends
        split at ends
        · obtain rfl := Except.ok.inj ends
          exact owns
        · obtain ⟨slot, made, ends⟩ := bind_ok ends
          obtain ⟨next, -, ends⟩ := bind_ok ends
          refine ih (fun other member => ?_) ends
          rcases List.mem_append.mp member with before | isLast
          · exact owns other before
          · rw [List.mem_singleton.mp isLast]
            exact newSlot_owns made

/-- A buffer that is released goes to its own ring. -/
theorem BufferPool.Owns.step {pool : BufferPool} (owns : pool.Owns) (call : BufferPool.Call) :
    (pool.step call).Owns := by
  cases call with
  | pickGroup => exact owns
  | getBufferAddress groupId bufId => exact owns
  | releaseBuffer groupId bufId =>
      rw [BufferPool.step]
      cases isSlot : pool.slotOf groupId bufId with
      | error failure =>
          simp only [BufferPool.releaseBuffer, isSlot]
          exact owns
      | ok found =>
          obtain ⟨idx, slot⟩ := found
          simp only [BufferPool.releaseBuffer, isSlot]
          obtain ⟨isRing, notNegative, below⟩ := BufferPool.slotOf_ok isSlot
          intro other member buffer inRing
          rcases List.mem_or_eq_of_mem_set member with before | rfl
          · exact owns other before buffer inRing
          · rcases List.mem_append.mp inRing with before | isLast
            · exact owns slot (List.mem_of_getElem? isRing) buffer before
            · exact ⟨bufId.toInt.toNat, (Int.toNat_lt notNegative).mpr below,
                List.mem_singleton.mp isLast⟩

/-- **The buffers in a ring are its own**, from `setup` on and whatever is called. -/
theorem owns_always {fuel : Nat} {totalCount : UInt64} {baseGrpId : Int32} {pool : BufferPool}
    (made : setup kernel fuel totalCount size baseGrpId maxPerGroup = .ok pool)
    (calls : List BufferPool.Call) :
    Run.Throughout BufferPool.step BufferPool.Owns pool calls := by
  have first : pool.Owns := by
    unfold setup at made
    split at made
    · cases made
    · split at made
      · cases made
      · cases loop : setupLoop kernel size maxPerGroup fuel totalCount baseGrpId.toInt [] with
        | error failure =>
            rw [loop] at made
            cases made
        | ok rings =>
            rw [loop] at made
            obtain rfl := Except.ok.inj made
            exact setupLoop_owns (fun slot member => absurd member List.not_mem_nil) loop
  exact @Run.throughout_invariant _ _ BufferPool.step BufferPool.Owns (fun _ => True)
    (fun _ call _ before => before.step call) calls pool first fun _ _ => trivial

end Owns

/-- A kernel that gives each ring its own range of addresses. -/
def plainKernel : Kernel where
  bufferMemory ring _ := some ((ring + 1) * 2 ^ 40)
  ringMemory _ _ := true
  register _ _ := 0

theorem plainKernel_succeeds : plainKernel.Succeeds :=
  ⟨fun _ _ => rfl, fun _ _ => rfl, fun _ _ => Int.le_refl 0⟩

/-- **The pool of the pipeline** has 32 rings of 32768 buffers of 2048 bytes. -/
theorem partitions_iff_pipeline :
    InBounds (1024 * 1024) 2048 1 32768 ∧
      Partitions plainKernel (1024 * 1024) 2048 1 32768 := by
  have isTotal : (1024 * 1024 : UInt64).toNat = 2 ^ 20 := by decide
  have isMax : (32768 : UInt64).toNat = 2 ^ 15 := by decide
  have rings : ringCount (2 ^ 20) (2 ^ 15) = 32 := by
    simp [ringCount]
  have bounds : InBounds (1024 * 1024) 2048 1 32768 := by
    refine ⟨.inl (by decide), ?_, ?_, ?_⟩
    · rw [isTotal, isMax, rings]
      decide
    · rw [isTotal, isMax, rings]
      decide
    · rw [isTotal, isMax, Nat.min_eq_right (by decide), Nat.log_pow (by decide)]
      decide
  exact ⟨bounds, (partitions_iff plainKernel plainKernel_succeeds (1024 * 1024) 2048 1 32768
    (by decide) ⟨15, isMax⟩).mpr bounds⟩

/-- The count that doubles to nothing. -/
def halfWord : UInt64 := 9223372036854775808

theorem halfWord_toNat : halfWord.toNat = 2 ^ 63 := by decide

/-- **A pool that is never set up**: a first count of 2 to the 63 doubles to nothing. -/
theorem not_partitions_halfWord :
    plainKernel.Succeeds ∧ halfWord ≠ 0 ∧ (∃ cap, halfWord.toNat = 2 ^ cap) ∧
      (∀ fuel, setup plainKernel fuel halfWord 1 1 halfWord = .error .unfinished) ∧
      ¬ Partitions plainKernel halfWord 1 1 halfWord := by
  have notZero : halfWord ≠ 0 := by decide
  have large := halfWord_toNat.ge
  have never : ∀ fuel, setup plainKernel fuel halfWord 1 1 halfWord = .error .unfinished :=
    fun fuel => setup_forever notZero halfWord_toNat large large
  refine ⟨plainKernel_succeeds, notZero, ⟨63, halfWord_toNat⟩, never, ?_⟩
  rintro ⟨fuel, pool, made, -⟩
  rw [never fuel] at made
  cases made

end EdgeDNS.Uring
