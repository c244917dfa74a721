import EdgeDNS.Cache.Capacity
import EdgeDNS.Cache.IpGroupInvariant

/-!
# Sessions of the address cache

A session calls the address cache and opens its file anew in between. Calls can
break the structure of the cache: an entry that is moved to another country code
and then deleted leaves its former bucket with a slot that is free
(`structured_iff_along`). Two things hold of every session all the same.

`Ranged` says that every index in the store is `-1` or names a slot, and that the
head of an occupied bucket names one. So no operation leaves the arrays
(`ranged_session`).

`init` on an existing file computes the id table and the free list anew from the
used slots. Whatever has become of them, the reopened store has exactly the unused
slots on its free list, every used slot and nothing else in its id table, and
answers every lookup as before (`reopen_heals`). What is not repaired is the
chains.
-/

set_option autoImplicit false

namespace EdgeDNS.IpGroup

open LinkedArena DirectIndex Probing

/-! ## Links that stay within the arrays -/

/-- An index of a slot, or the mark for none. -/
def IsLink (slot : Int) : Prop := slot = -1 ∨ InSlotRange slot

/-- The index of every occupied bucket, every slot, the id table and the free list
stays within the slots. -/
structure Ranged (m : Mmap) : Prop where
  free : IsLink m.freeListHeadIdx
  ids : ∀ entry, IsLink (m.idHashTable entry)
  next : ∀ slotIdx, IsLink (m.dataEntries slotIdx).nextIndex
  prev : ∀ slotIdx, IsLink (m.dataEntries slotIdx).prevIndex
  heads : ∀ bucketIdx, (m.hashTable bucketIdx).groupIdHash ≠ 0 →
    InSlotRange (m.hashTable bucketIdx).headSlotIdx
  used : ∀ slotIdx, (m.dataEntries slotIdx).isUsed = true → slotIdx < maxDataRecords

theorem isLink_none : IsLink (-1) := .inl rfl

theorem inSlotRange_natCast {slotIdx : Nat} :
    InSlotRange (slotIdx : Int) ↔ slotIdx < maxDataRecords := by
  simp only [InSlotRange, Int.natCast_nonneg, true_and, Int.ofNat_lt]

theorem isLink_natCast {slotIdx : Nat} (bounded : slotIdx < maxDataRecords) :
    IsLink (slotIdx : Int) := .inr (inSlotRange_natCast.mpr bounded)

theorem IsLink.inSlotRange {slot : Int} (link : IsLink slot) (present : slot ≠ -1) :
    InSlotRange slot := link.resolve_left present

theorem InSlotRange.toNat_lt {slot : Int} (within : InSlotRange slot) :
    slot.toNat < maxDataRecords := by
  obtain ⟨nonneg, below⟩ := within
  omega

namespace Ranged

variable {m : Mmap}

/-! ### Writes -/

theorem setEntry (ranged : Ranged m) {slotIdx : Nat} {entry : IpGroupEntry}
    (next : IsLink entry.nextIndex) (prev : IsLink entry.prevIndex)
    (used : entry.isUsed = true → slotIdx < maxDataRecords) :
    Ranged (m.setEntry slotIdx entry) := by
  refine ⟨ranged.free, ranged.ids, fun other => ?_, fun other => ?_, ranged.heads,
    fun other inUse => ?_⟩
  · rcases eq_or_ne other slotIdx with rfl | different
    · simpa using next
    · simpa [different] using ranged.next other
  · rcases eq_or_ne other slotIdx with rfl | different
    · simpa using prev
    · simpa [different] using ranged.prev other
  · rcases eq_or_ne other slotIdx with rfl | different
    · exact used (by simpa using inUse)
    · exact ranged.used other (by simpa [different] using inUse)

theorem setBucket (ranged : Ranged m) {bucketIdx : Nat} {bucket : IndexBucket}
    (head : bucket.groupIdHash ≠ 0 → InSlotRange bucket.headSlotIdx) :
    Ranged (m.setBucket bucketIdx bucket) := by
  refine ⟨ranged.free, ranged.ids, ranged.next, ranged.prev, fun other occupied => ?_,
    ranged.used⟩
  rcases eq_or_ne other bucketIdx with rfl | different
  · simp only [Mmap.setBucket, Function.update_self] at occupied ⊢
    exact head occupied
  · simp only [Mmap.setBucket, Function.update_of_ne different] at occupied ⊢
    exact ranged.heads other occupied

theorem setIdEntry (ranged : Ranged m) (entry : Nat) {slot : Int} (link : IsLink slot) :
    Ranged (m.setIdEntry entry slot) := by
  refine ⟨ranged.free, fun other => ?_, ranged.next, ranged.prev, ranged.heads, ranged.used⟩
  rcases eq_or_ne other entry with rfl | different
  · simpa [Mmap.setIdEntry] using link
  · simpa [Mmap.setIdEntry, different] using ranged.ids other

theorem setFree (ranged : Ranged m) {slot : Int} (link : IsLink slot) :
    Ranged { m with freeListHeadIdx := slot } :=
  ⟨link, ranged.ids, ranged.next, ranged.prev, ranged.heads, ranged.used⟩

/-! ### The parts of the calls -/

theorem popFreeSlot (ranged : Ranged m) {slotIdx : Nat} {popped : Mmap}
    (pops : m.popFreeSlot = some (slotIdx, popped)) :
    slotIdx < maxDataRecords ∧ Ranged popped := by
  rw [Mmap.popFreeSlot] at pops
  split at pops
  · cases pops
  · next present =>
      obtain ⟨rfl, rfl⟩ := Prod.mk.inj (Option.some.inj pops)
      have bounded := (ranged.free.inSlotRange present).toNat_lt
      exact ⟨bounded, (ranged.setEntry isLink_none isLink_none fun _ => bounded).setFree
        (ranged.next _)⟩

theorem pushFreeSlot (ranged : Ranged m) {slotIdx : Nat} (bounded : slotIdx < maxDataRecords) :
    Ranged (m.pushFreeSlot slotIdx) :=
  (ranged.setEntry ranged.free isLink_none fun isUsed => (Bool.false_ne_true isUsed).elim).setFree
    (isLink_natCast bounded)

theorem fillSlot (ranged : Ranged m) {slotIdx : Nat} (bounded : slotIdx < maxDataRecords)
    (groupId id : CassUuid) (countryCode : CountryCode) (val : Address) (priority : Int) :
    Ranged (m.fillSlot slotIdx groupId id countryCode val priority) :=
  (ranged.setIdEntry _ (isLink_natCast bounded)).setEntry (ranged.next slotIdx)
    (ranged.prev slotIdx) fun _ => bounded

theorem salvageLoop (m : Mmap) (left : Nat) (slot : Int) : IsLink (m.salvageLoop left slot) := by
  induction left generalizing slot with
  | zero => exact isLink_none
  | succ left ih =>
      rw [Mmap.salvageLoop]
      split
      · next within =>
          split
          · exact .inr within
          · exact ih _
      · exact isLink_none

/-- Putting a slot in front of what is salvaged of a chain. -/
theorem linkSalvaged (ranged : Ranged m) {slotIdx : Nat} (bounded : slotIdx < maxDataRecords)
    (bucketIdx : Nat) {salvageHead : Int} (salvage : IsLink salvageHead) :
    let bucket := m.hashTable bucketIdx
    let linked := (m.setBucket bucketIdx { bucket with headSlotIdx := slotIdx }).setEntry
      slotIdx { m.dataEntries slotIdx with nextIndex := salvageHead, prevIndex := -1 }
    Ranged (if salvageHead ≠ -1 then
      linked.setEntry salvageHead.toNat
        { linked.dataEntries salvageHead.toNat with prevIndex := slotIdx }
    else linked) := by
  intro bucket linked
  have isSlot : InSlotRange (slotIdx : Int) := inSlotRange_natCast.mpr bounded
  have ranged' : Ranged linked :=
    setEntry (ranged.setBucket fun _ => isSlot) salvage isLink_none fun _ => bounded
  split
  · exact ranged'.setEntry (ranged'.next _) (.inr isSlot) (ranged'.used _)
  · exact ranged'

/-- Linking a slot, also where the chain of the bucket is broken. -/
theorem linkSlot (ranged : Ranged m) {slotIdx : Nat} (bounded : slotIdx < maxDataRecords)
    (hash : UInt64) (bucketIdx : Nat) : Ranged (m.linkSlot hash bucketIdx slotIdx) := by
  have isSlot : InSlotRange (slotIdx : Int) := inSlotRange_natCast.mpr bounded
  rw [Mmap.linkSlot]
  split
  · refine setEntry (setBucket ranged fun _ => isSlot) ?_ ?_ fun _ => bounded
    · exact isLink_none
    · exact isLink_none
  · next occupied =>
      have head := ranged.heads bucketIdx occupied
      split
      · refine ranged.linkSalvaged bounded bucketIdx ?_
        split
        · exact salvageLoop ..
        · exact isLink_none
      · refine setBucket (setEntry (setEntry ranged ?_ ?_ ?_) ?_ ?_ fun _ => bounded) ?_
        · exact ranged.next _
        · exact .inr isSlot
        · exact ranged.used _
        · exact .inr head
        · exact isLink_none
        · exact fun _ => isSlot

/-- Pointing the successor of a slot back past it. -/
theorem setPrev (ranged : Ranged m) {next prev : Int} (link : IsLink prev) :
    Ranged (if next ≠ -1 then
      m.setEntry next.toNat { m.dataEntries next.toNat with prevIndex := prev } else m) := by
  split
  · exact ranged.setEntry (ranged.next _) link (ranged.used _)
  · exact ranged

/-- Unlinking a slot at any bucket. When it is the last one of its chain, the bucket
has no head until it is emptied. -/
theorem unlinkSlot (ranged : Ranged m) (bucketIdx slotIdx : Nat) :
    Ranged (m.unlinkSlot bucketIdx slotIdx) := by
  have emptied : ∀ {store : Mmap}, Ranged store →
      Ranged (if (store.hashTable bucketIdx).headSlotIdx = -1 then
        store.setBucket bucketIdx
          { store.hashTable bucketIdx with groupIdHash := 0, countryCode := .empty }
      else store) := by
    intro store before
    split
    · exact before.setBucket fun occupied => absurd rfl occupied
    · exact before
  simp only [Mmap.unlinkSlot]
  by_cases isHead : (slotIdx : Int) = (m.hashTable bucketIdx).headSlotIdx
  · by_cases last : (m.dataEntries slotIdx).nextIndex = -1
    · simp only [if_pos isHead, last, ne_eq, not_true_eq_false, if_false, Mmap.setBucket,
        Function.update_self, if_true, Function.update_idem]
      refine setBucket ranged fun occupied => ?_
      exact absurd rfl occupied
    · simp only [if_pos isHead]
      refine emptied (setPrev (setBucket ranged fun _ => ?_) (ranged.prev slotIdx))
      exact (ranged.next slotIdx).inSlotRange last
  · simp only [if_neg isHead]
    refine emptied (setPrev ?_ (ranged.prev slotIdx))
    split
    · refine setEntry ranged ?_ ?_ ?_
      · exact ranged.next slotIdx
      · exact ranged.prev _
      · exact ranged.used _
    · exact ranged

/-! ### The calls -/

theorem appendRecordText (ranged : Ranged m) (groupId id : CassUuid) (text : List UInt8)
    (val : Address) (priority : Int) :
    Ranged (m.appendRecordText groupId id text val priority).2 := by
  rw [Mmap.appendRecordText]
  cases m.findBucketText (calculateHashFromUuid groupId) text with
  | none => exact ranged
  | some bucketIdx =>
      dsimp only
      split
      · exact ranged
      · cases pops : m.popFreeSlot with
        | none => exact ranged
        | some slot =>
            obtain ⟨bounded, popped⟩ := ranged.popFreeSlot pops
            exact (popped.fillSlot bounded groupId id (.ofText text) val priority).linkSlot
              bounded _ bucketIdx

theorem appendRecord (ranged : Ranged m) (groupId id : CassUuid) (countryCode : CountryCode)
    (val : Address) (priority : Int) :
    Ranged (m.appendRecord groupId id countryCode val priority).2 := by
  rw [Mmap.appendRecord]
  cases m.findBucket (calculateHashFromUuid groupId) countryCode with
  | none => exact ranged
  | some bucketIdx =>
      dsimp only
      split
      · exact ranged
      · cases pops : m.popFreeSlot with
        | none => exact ranged
        | some slot =>
            obtain ⟨bounded, popped⟩ := ranged.popFreeSlot pops
            exact (popped.fillSlot bounded groupId id countryCode val priority).linkSlot
              bounded _ bucketIdx

theorem updateRecord (ranged : Ranged m) (groupId id : CassUuid) (countryCode : CountryCode)
    (val : Address) (priority : Int) :
    Ranged (m.updateRecord groupId id countryCode val priority).2 := by
  rw [Mmap.updateRecord]
  cases m.slotOfId id with
  | none => exact ranged
  | some slotIdx =>
      dsimp only
      split
      · exact ranged.setEntry (ranged.next slotIdx) (ranged.prev slotIdx) (ranged.used slotIdx)
      · exact ranged

/-- The loop of `delete_record`, also where it runs over slots that are free. -/
theorem deleteLoop (ranged : Ranged m) (left : Nat) (slot : Int) :
    Ranged (Mmap.deleteLoop left m slot) := by
  induction left generalizing m slot with
  | zero => exact ranged
  | succ left ih =>
      rw [Mmap.deleteLoop]
      split
      · next within =>
          refine ih (pushFreeSlot ?_ within.toNat_lt) _
          rw [Mmap.clearIdEntry]
          split
          · exact ranged.setIdEntry _ isLink_none
          · exact ranged
      · exact ranged

theorem deleteRecord (ranged : Ranged m) (groupId : CassUuid) (countryCode : CountryCode) :
    Ranged (m.deleteRecord groupId countryCode).2 := by
  rw [Mmap.deleteRecord]
  cases m.findBucket (calculateHashFromUuid groupId) countryCode with
  | none => exact ranged
  | some bucketIdx =>
      dsimp only
      split
      · exact ranged
      · split
        · exact (ranged.deleteLoop ..).setBucket fun occupied => absurd rfl occupied
        · exact ranged

theorem deleteRecordFromUuid (ranged : Ranged m) (groupId id : CassUuid) :
    Ranged (m.deleteRecordFromUuid groupId id).2 := by
  rw [Mmap.deleteRecordFromUuid]
  cases found : m.slotOfId id with
  | none => exact ranged
  | some slotIdx =>
      dsimp only
      cases m.findBucket (calculateHashFromUuid groupId) (m.dataEntries slotIdx).countryCode with
      | none => exact ranged
      | some bucketIdx =>
          dsimp only
          split
          · obtain ⟨-, -, inUse, -⟩ := slotOfId_spec found
            exact ((ranged.unlinkSlot bucketIdx slotIdx).pushFreeSlot
              (ranged.used slotIdx inUse)).setIdEntry _ isLink_none
          · exact ranged

/-- **Every call keeps the links within the arrays.** -/
theorem stepText (ranged : Ranged m) (c : TextCall) : Ranged (m.stepText c) := by
  cases c with
  | plain c =>
      cases c with
      | append groupId id countryCode val priority =>
          exact ranged.appendRecord groupId id countryCode val priority
      | update groupId id countryCode val priority =>
          exact ranged.updateRecord groupId id countryCode val priority
      | delete groupId countryCode => exact ranged.deleteRecord groupId countryCode
      | deleteFromUuid groupId id => exact ranged.deleteRecordFromUuid groupId id
  | append groupId id text val priority =>
      exact ranged.appendRecordText groupId id text val priority
  | update groupId id text val priority =>
      exact ranged.updateRecord groupId id (.ofText text) val priority

theorem fresh : Ranged Mmap.fresh := by
  rw [Mmap.fresh_eq_freshTable]
  have first : IsLink 0 := @isLink_natCast 0 (by decide)
  refine ⟨first, fun entry => ?_, fun slotIdx => ?_, fun slotIdx => ?_,
    fun _ occupied => absurd rfl occupied, fun slotIdx inUse => ?_⟩
  · simp only [Mmap.freshTable, Mmap.blank]
    split
    · exact isLink_none
    · exact first
  · simp only [Mmap.freshTable, Mmap.blank, Mmap.zeroed]
    split
    · split
      · exact isLink_none
      · exact @isLink_natCast (slotIdx + 1) (by omega)
    · exact first
  · simp only [Mmap.freshTable, Mmap.blank, Mmap.zeroed]
    split
    · exact isLink_none
    · exact first
  · exact absurd ((Mmap.freshTable_isUsed slotIdx).symm.trans inUse) Bool.false_ne_true

end Ranged

/-! ## Opening an existing file -/

namespace Mmap

/-- The store that `init` makes of the persisted arrays. -/
def reopened (m : Mmap) : Mmap := init false m

end Mmap

/-- What `init` leaves of a store when it opens an existing file. -/
structure Reopens (m m' : Mmap) : Prop where
  hashTable : m'.hashTable = m.hashTable
  idHashTable : m'.idHashTable = rebuilt m.arena.used m.idEntry
    (fun entry => if entry < idHashTableSize then -1 else m.idHashTable entry) maxDataRecords
  content : m'.content = m.content
  arena : m'.arena = m.arena.rethreaded maxDataRecords

/-- **`init` on an existing file** keeps the buckets, the contents of the slots and the
links of the used ones. -/
theorem Mmap.reopens (m : Mmap) : Reopens m m.reopened := by
  simp only [Mmap.reopened, Mmap.init, if_neg Bool.false_ne_true, Mmap.rebuildIdTable_eq,
    Mmap.threadFreeList_eq]
  exact ⟨rfl, rfl, rfl, rfl⟩

section Reopened

variable {m m' : Mmap}

namespace Reopens

theorem used (reopens : Reopens m m') : m'.arena.used = m.arena.used :=
  (congrArg Arena.used reopens.arena).trans rfl

/-- A used slot, and one outside the array, keeps its successor. -/
theorem kept (reopens : Reopens m m') {slotIdx : Nat}
    (inUse : slotIdx < maxDataRecords → m.arena.used slotIdx = true) :
    m'.arena.next slotIdx = m.arena.next slotIdx := by
  rw [reopens.arena]
  exact Arena.rethreaded_next inUse

/-- The free list of the reopened store. -/
theorem free (reopens : Reopens m m') :
    ∃ unused, Linked m'.arena.next m'.arena.free unused ∧
      unused = (List.range maxDataRecords).filter fun slotIdx => !m.arena.used slotIdx :=
  Arena.exists_unused_of_eq reopens.arena

theorem idEntry (reopens : Reopens m m') : m'.idEntry = m.idEntry := by
  funext slotIdx
  exact congrArg idSlot (congrArg Content.id (congrFun reopens.content slotIdx))

theorem response (reopens : Reopens m m') (slotIdx : Nat) :
    (m'.dataEntries slotIdx).response = (m.dataEntries slotIdx).response :=
  congrArg Content.response (congrFun reopens.content slotIdx)

/-- A walk along a chain reads the links of used slots only. -/
theorem getRecordLoop (reopens : Reopens m m') (left : Nat) (slot : Int) :
    m'.getRecordLoop left slot = m.getRecordLoop left slot := by
  induction left generalizing slot with
  | zero => rfl
  | succ left ih =>
      rw [Mmap.getRecordLoop, Mmap.getRecordLoop]
      have sameUsed : (m'.dataEntries slot.toNat).isUsed = (m.dataEntries slot.toNat).isUsed :=
        congrFun reopens.used slot.toNat
      cases inUse : (m.dataEntries slot.toNat).isUsed with
      | false => simp only [sameUsed, inUse, if_neg Bool.false_ne_true]
      | true =>
          have sameNext : (m'.dataEntries slot.toNat).nextIndex =
              (m.dataEntries slot.toNat).nextIndex := reopens.kept fun _ => inUse
          simp only [sameUsed, inUse, sameNext, reopens.response, ih]

theorem getRecordText (reopens : Reopens m m') (groupId : CassUuid) (text : List UInt8) :
    m'.getRecordText groupId text = m.getRecordText groupId text := by
  simp only [Mmap.getRecordText, Mmap.findBucketText, reopens.hashTable, reopens.getRecordLoop]

/-- The rebuilt id table holds exactly the used slots. -/
theorem indexed (reopens : Reopens m m') (entered : Entered m) :
    Indexed maxDataRecords idHashTableSize m.arena.used m.idEntry m'.idHashTable := by
  rw [reopens.idHashTable]
  exact rebuilt_indexed (fun _ within => if_pos within)
    fun first second _ _ firstUsed secondUsed => entered.injective firstUsed secondUsed

theorem entered (reopens : Reopens m m') (before : Entered m) (ranged : Ranged m) :
    Entered m' := by
  refine ⟨fun slotIdx inUse => ?_, fun bucketIdx occupied => ?_⟩
  · rw [reopens.used] at inUse
    rw [reopens.idEntry]
    exact (reopens.indexed before).complete slotIdx (ranged.used slotIdx inUse) inUse
  · rw [reopens.hashTable] at occupied
    exact before.buckets bucketIdx occupied

/-- The ids are found where they were. -/
theorem slotOfId (reopens : Reopens m m') (before : Entered m) (ranged : Ranged m)
    (id : CassUuid) : m'.slotOfId id = m.slotOfId id := by
  have after := reopens.entered before ranged
  have sameId (slotIdx : Nat) : (m'.dataEntries slotIdx).id = (m.dataEntries slotIdx).id :=
    congrArg Content.id (congrFun reopens.content slotIdx)
  have sameUsed (slotIdx : Nat) : (m'.dataEntries slotIdx).isUsed =
      (m.dataEntries slotIdx).isUsed := congrFun reopens.used slotIdx
  refine Option.ext fun slotIdx => ⟨fun found => ?_, fun found => ?_⟩
  · obtain ⟨-, -, inUse, holds⟩ := slotOfId_spec found
    exact before.slotOfId_eq_some ((sameUsed slotIdx).symm.trans inUse)
      ((sameId slotIdx).symm.trans holds)
  · obtain ⟨-, -, inUse, holds⟩ := slotOfId_spec found
    exact after.slotOfId_eq_some ((sameUsed slotIdx).trans inUse)
      ((sameId slotIdx).trans holds)

/-- The free list is empty exactly when every slot is used. -/
theorem free_ne_none_iff (reopens : Reopens m m') :
    m'.freeListHeadIdx ≠ -1 ↔ ∃ slotIdx < maxDataRecords, m.arena.used slotIdx = false := by
  obtain ⟨unused, linked, filtered⟩ := reopens.free
  have ends : m'.freeListHeadIdx = -1 ↔ unused = [] := linked.start_eq_neg_one_iff
  rw [ne_eq, ends, filtered]
  constructor
  · intro nonempty
    obtain ⟨slotIdx, member⟩ := List.exists_mem_of_ne_nil _ nonempty
    exact ⟨slotIdx, Arena.mem_unused.mp member⟩
  · rintro ⟨slotIdx, free⟩ empty
    have member := Arena.mem_unused.mpr free
    rw [empty] at member
    cases member

theorem ranged (reopens : Reopens m m') (before : Ranged m) : Ranged m' := by
  obtain ⟨unused, linked, filtered⟩ := reopens.free
  have bounded : ∀ slotIdx ∈ unused, slotIdx < maxDataRecords := by
    intro slotIdx member
    rw [filtered] at member
    exact (Arena.mem_unused.mp member).1
  have link : ∀ {start : Int} {cells : List Nat}, Linked m'.arena.next start cells →
      (∀ slotIdx ∈ cells, slotIdx < maxDataRecords) → IsLink start := by
    intro start cells rest within
    rcases rest.start_cases with rfl | ⟨cell, member, rfl⟩
    · exact isLink_none
    · exact isLink_natCast (within cell member)
  refine ⟨link linked bounded, fun entry => ?_, fun slotIdx => ?_, fun slotIdx => ?_,
    fun bucketIdx occupied => ?_, fun slotIdx inUse => ?_⟩
  · rw [reopens.idHashTable]
    rcases @rebuilt_cases m.arena.used m.idEntry _ maxDataRecords entry with
      same | ⟨cell, below, holds⟩
    · rw [same]
      split
      · exact isLink_none
      · exact before.ids entry
    · rw [holds]
      exact isLink_natCast below
  · by_cases free : slotIdx ∈ unused
    · obtain ⟨front, behind, rfl⟩ := List.append_of_mem free
      exact link linked.drop fun other member =>
        bounded other (List.mem_append_right _ (List.mem_cons_of_mem _ member))
    · have same : (m'.dataEntries slotIdx).nextIndex = (m.dataEntries slotIdx).nextIndex := by
        refine reopens.kept fun below => ?_
        rw [filtered, Arena.mem_unused, not_and, Bool.not_eq_false] at free
        exact free below
      rw [same]
      exact before.next slotIdx
  · have same : (m'.dataEntries slotIdx).prevIndex = (m.dataEntries slotIdx).prevIndex :=
      (congrFun (congrArg Arena.prev reopens.arena) slotIdx).trans rfl
    rw [same]
    exact before.prev slotIdx
  · rw [reopens.hashTable] at occupied ⊢
    exact before.heads bucketIdx occupied
  · exact before.used slotIdx ((congrFun reopens.used slotIdx).symm.trans inUse)

end Reopens

end Reopened

/-! ## What reopening repairs -/

/-- No stored id shares the entry of the id, and the block of the group has a bucket that
is empty or belongs to the group and the country text. -/
structure Mmap.HasPlace (m : Mmap) (groupId id : CassUuid) (text : List UInt8) : Prop where
  idFree : ∀ slotIdx < maxDataRecords, m.arena.used slotIdx = true →
    m.idEntry slotIdx ≠ idSlot id
  bucket : m.HasBucket groupId text

/-- The second store answers as the first, its id table and its free list are those of
the used slots and of the others, and it takes every entry that has a place. -/
structure Heals (m m' : Mmap) : Prop where
  lookups : ∀ groupId text, m'.getRecordText groupId text = m.getRecordText groupId text
  contents : m'.content = m.content
  used : m'.arena.used = m.arena.used
  slotOfId : ∀ id, m'.slotOfId id = m.slotOfId id
  ids : Indexed maxDataRecords idHashTableSize m.arena.used m.idEntry m'.idHashTable
  free : ∃ unused, Linked m'.arena.next m'.arena.free unused ∧
    unused = (List.range maxDataRecords).filter fun slotIdx => !m.arena.used slotIdx
  appends : ∀ groupId id text val priority,
    (m'.appendRecordText groupId id text val priority).1 = true ↔ m.HasPlace groupId id text

/-- An entry of the id table is free exactly when no used slot belongs there. -/
theorem id_free_iff {m m' : Mmap}
    (indexed : Indexed maxDataRecords idHashTableSize m.arena.used m.idEntry m'.idHashTable)
    (id : CassUuid) : m'.idHashTable (idSlot id) = -1 ↔
      ∀ slotIdx < maxDataRecords, m.arena.used slotIdx = true → m.idEntry slotIdx ≠ idSlot id := by
  constructor
  · intro free slotIdx bounded inUse same
    have held := indexed.complete slotIdx bounded inUse
    rw [same, free] at held
    omega
  · intro absent
    by_contra held
    obtain ⟨slotIdx, bounded, inUse, same, -⟩ := indexed.sound _ (idSlot_lt id) held
    exact absent slotIdx bounded inUse same

theorem Reopens.heals {m m' : Mmap} (reopens : Reopens m m') (entered : Entered m)
    (ranged : Ranged m) : Heals m m' where
  lookups := reopens.getRecordText
  contents := reopens.content
  used := reopens.used
  slotOfId := reopens.slotOfId entered ranged
  ids := reopens.indexed entered
  free := reopens.free
  appends groupId id text val priority := by
    have sameKeys : m'.keys = m.keys := by
      funext bucketIdx
      rw [Mmap.keys, Mmap.keys, reopens.hashTable]
    have present : m'.freeListHeadIdx ≠ -1 := by
      have unused := entered.exists_unused
      push Not at unused
      obtain ⟨slotIdx, bounded, free⟩ := unused
      exact reopens.free_ne_none_iff.mpr ⟨slotIdx, bounded, Bool.eq_false_of_not_eq_true free⟩
    have sameBucket : m'.HasBucket groupId text ↔ m.HasBucket groupId text := by
      rw [Mmap.HasBucket, Mmap.HasBucket, sameKeys]
    have idFree := id_free_iff (reopens.indexed entered) id
    rw [appendRecordText_accepted_iff]
    exact ⟨fun room => ⟨idFree.mp room.idFree, sameBucket.mp room.bucket⟩,
      fun place => ⟨idFree.mpr place.idFree, present, sameBucket.mpr place.bucket⟩⟩

/-! ## Sessions -/

/-- A call of the cache, or a restart of the program on the file. -/
inductive SessionStep
  | call (c : TextCall)
  | reopen
deriving DecidableEq, Repr

/-- One step of a session on the file. -/
def Mmap.stepSession (m : Mmap) : SessionStep → Mmap
  | .call c => m.stepText c
  | .reopen => m.reopened

/-- Entered and ranged stores stay so, whatever is called and whenever the file is
opened anew. -/
theorem kept_stepSession {m : Mmap} (kept : Entered m ∧ Ranged m) (step : SessionStep) :
    Entered (m.stepSession step) ∧ Ranged (m.stepSession step) := by
  obtain ⟨entered, ranged⟩ := kept
  cases step with
  | call c => exact ⟨entered.stepText c, ranged.stepText c⟩
  | reopen => exact ⟨m.reopens.entered entered ranged, m.reopens.ranged ranged⟩

theorem kept_session (steps : List SessionStep) :
    Entered (Run.exec Mmap.stepSession Mmap.fresh steps) ∧
      Ranged (Run.exec Mmap.stepSession Mmap.fresh steps) :=
  @Run.exec_invariant _ _ Mmap.stepSession (fun m => Entered m ∧ Ranged m) (fun _ => True)
    (fun _ step _ kept => kept_stepSession kept step) _ _ ⟨Entered.fresh, Ranged.fresh⟩
    fun _ _ => trivial

/-- **No index leaves the arrays in any session.** -/
theorem ranged_session (steps : List SessionStep) :
    Ranged (Run.exec Mmap.stepSession Mmap.fresh steps) := (kept_session steps).2

/-- **Reopening heals the id table and the free list**, after any session. -/
theorem reopen_heals (steps : List SessionStep) :
    Heals (Run.exec Mmap.stepSession Mmap.fresh steps)
      (Run.exec Mmap.stepSession Mmap.fresh (steps ++ [.reopen])) := by
  obtain ⟨entered, ranged⟩ := kept_session steps
  rw [Run.exec_append, Run.exec_cons, Run.exec_nil]
  generalize Run.exec Mmap.stepSession Mmap.fresh steps = m at entered ranged ⊢
  exact m.reopens.heals entered ranged

end EdgeDNS.IpGroup
