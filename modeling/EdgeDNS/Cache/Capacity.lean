import EdgeDNS.Cache.IpGroupText
import EdgeDNS.Cache.RecordsInvariant

/-!
# What the two caches can hold

Both caches have 100000 slots, buckets and id entries, and both reach an index
by `hash & 99999`. The mask has ten one bits, five of them trailing. So an id
has one of 1024 entries, whatever the size of the table, and a probe visits the
32 buckets of one block.

An append is refused for more than a full store: another stored id with the same
entry is enough, and so is a block of 32 occupied buckets. `capacity_law` says
exactly when an append is refused for a reason that the store itself gives, and
that neither cache ever holds more than 1024 records.
-/

set_option autoImplicit false

namespace EdgeDNS

open Probing

/-- Seventeen bits hold the mask of the tables, and it lets 1024 values
through. -/
theorem submasks_length : (submasks 17 99999).length = 1024 := by decide +kernel

/-- The mask lets no index with the bit 5 through. -/
theorem masked_ne_32 (value : Nat) : value &&& 99999 ≠ 32 := by
  intro same
  have bit : (value &&& 99999).testBit 5 = true := by
    rw [same]
    decide
  have unmasked : (99999 : Nat).testBit 5 = false := by decide
  rw [Nat.testBit_and, unmasked, Bool.and_false] at bit
  cases bit

/-- The first bucket of the block that a probe for the hash visits. -/
def blockOf (hash : UInt64) : Nat := (hash.toNat &&& 99999) / 32 * 32

namespace Records

section Records

variable {m : Mmap} {chain : Nat → List Nat} {spare : List Nat} {wireName : List UInt8}
  {qtype : Int} {id : CassUuid} {data : RecordData}

/-- The number of used slots. -/
def Mmap.usedCount (m : Mmap) : Nat :=
  ((List.range maxDataRecords).filter fun slotIdx => (m.dataRecords slotIdx).isUsed).length

/-- The reasons for which a record really cannot be stored. -/
inductive Mmap.CannotStore (m : Mmap) (wireName : List UInt8) (qtype : Int) (id : CassUuid)
    (data : RecordData) : Prop
  | tooLong (long : ¬ data.Fits)
  | stored (isStored : m.Stored id)
  | noSlot (full : ∀ slotIdx < maxDataRecords, (m.dataRecords slotIdx).isUsed = true)
  | noBucket (full : ∀ bucketIdx < hashTableSize, ∃ key, m.keys bucketIdx = some key ∧
      key ≠ (calculateHash wireName, qtype))

/-- An append is refused only when the record cannot be stored. -/
def Mmap.RefusesRightly (m : Mmap) (wireName : List UInt8) (qtype : Int) (id : CassUuid)
    (data : RecordData) : Prop :=
  (m.appendRecord wireName qtype id data).1 = false → m.CannotStore wireName qtype id data

/-- No stored id shares the entry of the id, and the block of the name has a
bucket that is empty or belongs to the name and type. -/
structure Mmap.HasRoom (m : Mmap) (wireName : List UInt8) (qtype : Int) (id : CassUuid) : Prop where
  idFree : ∀ slotIdx < maxDataRecords, (m.dataRecords slotIdx).isUsed = true →
    idSlot (m.dataRecords slotIdx).id ≠ idSlot id
  bucket : ∃ low < 32, m.keys (blockOf (calculateHash wireName) + low) = none ∨
    m.keys (blockOf (calculateHash wireName) + low) = some (calculateHash wireName, qtype)

/-- A probe fails exactly when its block is occupied by other keys. -/
theorem findBucket_ne_none_iff (m : Mmap) (hash : UInt64) (qtype : Int) :
    m.findBucket hash qtype ≠ none ↔ ∃ low < 32, m.keys (blockOf hash + low) = none ∨
      m.keys (blockOf hash + low) = some (hash, qtype) := by
  rw [findBucket_eq]
  exact findKey_masked_ne_none_iff Records.trailingOnes_mask (by decide) rfl

/-- The entry of an id is empty exactly when no stored id shares it. -/
theorem Sound.idFree_iff (sound : Sound m chain spare) :
    m.idHashTable (idSlot id) = -1 ↔ ∀ slotIdx < maxDataRecords,
      (m.dataRecords slotIdx).isUsed = true → idSlot (m.dataRecords slotIdx).id ≠ idSlot id := by
  constructor
  · intro free slotIdx bounded inUse shared
    have entry := sound.indexed.complete slotIdx bounded inUse
    rw [Mmap.idEntry, shared, free] at entry
    omega
  · intro alone
    by_contra entered
    obtain ⟨slotIdx, bounded, inUse, shared, -⟩ := sound.indexed.sound _ (idSlot_lt id) entered
    exact alone slotIdx bounded inUse shared

/-- **No more than 1024 slots are used.** -/
theorem Sound.usedCount_le (sound : Sound m chain spare) : m.usedCount ≤ 1024 := by
  rw [← submasks_length, Mmap.usedCount]
  refine length_le_submasks (by decide) (List.nodup_range.filter _)
    (fun slotIdx => ⟨(calculateIdHash (m.dataRecords slotIdx).id).toNat, rfl⟩) ?_
  intro first isFirst second isSecond shared
  rw [List.mem_filter, List.mem_range] at isFirst isSecond
  exact sound.indexed.injective isFirst.1 isFirst.2 isSecond.1 isSecond.2 shared

/-- So there is always a slot to take. -/
theorem Sound.exists_spare (sound : Sound m chain spare) : spare ≠ [] := by
  rintro rfl
  have all : ∀ slotIdx ∈ List.range maxDataRecords, (m.dataRecords slotIdx).isUsed = true := by
    intro slotIdx member
    by_contra unused
    have isSpare := (sound.represents.memSpare slotIdx).mpr
      ⟨List.mem_range.mp member, Bool.eq_false_of_not_eq_true unused⟩
    exact List.not_mem_nil isSpare
  have atMost := sound.usedCount_le
  rw [Mmap.usedCount, List.filter_eq_self.mpr all, List.length_range] at atMost
  exact absurd atMost (by decide)

/-- The bucket 32 is under no mask. -/
theorem findBucket_ne_32 {bucketIdx : Nat} {hash : UInt64}
    (ends : m.findBucket hash qtype = some bucketIdx) : bucketIdx ≠ 32 := by
  rw [findBucket_eq, findKey_eq_some_iff] at ends
  obtain ⟨value, rfl⟩ := probeLoop_induction
    (fun index => ∃ value, index = value &&& (hashTableSize - 1))
    (fun index _ => ⟨index + 1, rfl⟩) ⟨hash.toNat, rfl⟩ ends
  exact masked_ne_32 value

/-- No call occupies the bucket 32. -/
theorem Sound.step_keys_32 (sound : Sound m chain spare) (c : Call) (empty : m.keys 32 = none) :
    (m.step c).keys 32 = none := by
  have unchanged : ∀ m', m' = m → m'.keys 32 = none := by
    rintro m' rfl
    exact empty
  cases c with
  | append wireName qtype id data =>
      rcases sound.appendRecord_cases wireName qtype id data with
        refused | ⟨bucketIdx, slotIdx, rest, rfl, -, ends, -, -, effect⟩
      · exact unchanged _ (congrArg Prod.snd refused)
      · have keys := congrFun effect.keys 32
        refine keys.trans ?_
        split
        · exact empty
        · rw [Function.update_of_ne (findBucket_ne_32 ends).symm, empty]
  | update id data =>
      rcases sound.updateRecord_cases id data with refused | ⟨slotIdx, -, -, -, effect⟩
      · exact unchanged _ (congrArg Prod.snd refused)
      · have table := congrFun effect.hashTable 32
        exact (congrArg IndexBucket.key table).trans empty
  | delete wireName qtype =>
      rcases sound.deleteRecord_cases wireName qtype with
        ⟨refused, -⟩ | ⟨bucketIdx, ends, -, -, effect⟩
      · exact unchanged _ (congrArg Prod.snd refused)
      · refine (congrFun effect.keys 32).trans ?_
        rw [Function.update_of_ne (findBucket_ne_32 ends).symm, empty]
  | deleteFromUuid id =>
      rcases sound.deleteRecordFromUuid_cases id with ⟨-, refused⟩ | ⟨slotIdx, -, -, effect⟩
      · exact unchanged _ (congrArg Prod.snd refused)
      · refine (congrFun effect.keys 32).trans ?_
        split
        · rw [Function.update_apply]
          split
          · rfl
          · exact empty
        · exact empty

/-- In every state that calls reach the store is sound and the bucket 32
empty. -/
theorem run_keys_32 (calls : List Call) :
    Intact (Run.exec Mmap.step Mmap.fresh calls) ∧
      (Run.exec Mmap.step Mmap.fresh calls).keys 32 = none := by
  refine @Run.exec_invariant _ _ Mmap.step (fun m => Intact m ∧ m.keys 32 = none)
    (fun _ => True) (fun m c _ before => ?_) calls Mmap.fresh ⟨Intact.fresh, ?_⟩ fun _ _ => trivial
  · obtain ⟨⟨chain, spare, sound⟩, empty⟩ := before
    exact ⟨Intact.step ⟨chain, spare, sound⟩ c, sound.step_keys_32 c empty⟩
  · rw [Mmap.fresh_eq_freshTable]
    rfl

/-- **When the record cache refuses an append rightly.** -/
theorem Sound.refusesRightly_iff (sound : Sound m chain spare) (empty : m.keys 32 = none) :
    m.RefusesRightly wireName qtype id data ↔
      (data.Fits → ¬ m.Stored id → m.HasRoom wireName qtype id) := by
  obtain ⟨slotIdx, rest, rfl⟩ := List.exists_cons_of_ne_nil sound.exists_spare
  have unused := (sound.represents.memSpare slotIdx).mp (List.mem_cons_self ..)
  constructor
  · intro rightly fits notStored
    have accepted : (m.appendRecord wireName qtype id data).1 ≠ false := by
      intro refused
      cases rightly refused with
      | tooLong long => exact long fits
      | stored isStored => exact notStored isStored
      | noSlot full =>
          exact Bool.false_ne_true (unused.2.symm.trans (full slotIdx unused.1))
      | noBucket full =>
          obtain ⟨key, occupied, -⟩ := full 32 (by decide)
          cases empty.symm.trans occupied
    rcases sound.appendRecord_cases wireName qtype id data with
      refused | ⟨bucketIdx, _, _, -, -, ends, free, -, -⟩
    · exact absurd (congrArg Prod.fst refused) accepted
    · exact ⟨sound.idFree_iff.mp free,
        (findBucket_ne_none_iff ..).mp (by rw [ends]; exact Option.some_ne_none _)⟩
  · intro roomy refused
    by_cases fits : data.Fits
    case neg => exact .tooLong fits
    by_cases isStored : m.Stored id
    case pos => exact .stored isStored
    have room := roomy fits isStored
    obtain ⟨bucketIdx, ends⟩ :=
      Option.ne_none_iff_exists'.mp ((findBucket_ne_none_iff ..).mpr room.bucket)
    have accepted := (sound.appendRecord_accepted fits ends (sound.idFree_iff.mpr room.idFree)).1
    exact absurd (refused.symm.trans accepted) Bool.false_ne_true

end Records

end Records

namespace IpGroup

section IpGroup

variable {m : Mmap} {groupId id : CassUuid} {text : List UInt8} {val : Address} {priority : Int}

/-- The number of used slots. -/
def Mmap.usedCount (m : Mmap) : Nat :=
  ((List.range maxDataRecords).filter fun slotIdx => (m.dataEntries slotIdx).isUsed).length

/-- The reasons for which an entry really cannot be stored. -/
inductive Mmap.CannotStore (m : Mmap) (groupId id : CassUuid) (text : List UInt8) : Prop
  | stored (isStored : m.Stored id)
  | noSlot (full : ∀ slotIdx < maxDataRecords, (m.dataEntries slotIdx).isUsed = true)
  | noBucket (full : ∀ bucketIdx < hashTableSize, ∃ key, m.keys bucketIdx = some key ∧
      ¬ IsKeyOf groupId text key)

/-- An append is refused only when the entry cannot be stored. -/
def Mmap.RefusesRightly (m : Mmap) (groupId id : CassUuid) (text : List UInt8) (val : Address)
    (priority : Int) : Prop :=
  (m.appendRecordText groupId id text val priority).1 = false → m.CannotStore groupId id text

/-- The block of the group has a bucket that is empty or belongs to the group and the
country text. -/
def Mmap.HasBucket (m : Mmap) (groupId : CassUuid) (text : List UInt8) : Prop :=
  ∃ low < 32, m.keys (blockOf (calculateHashFromUuid groupId) + low) = none ∨
    ∃ key, m.keys (blockOf (calculateHashFromUuid groupId) + low) = some key ∧
      IsKeyOf groupId text key

/-- The entry of the id is empty, the free list is not, and there is a bucket. -/
structure Mmap.HasRoom (m : Mmap) (groupId id : CassUuid) (text : List UInt8) : Prop where
  idFree : m.idHashTable (idSlot id) = -1
  spare : m.freeListHeadIdx ≠ -1
  bucket : m.HasBucket groupId text

/-- A probe fails exactly when its block is occupied by other keys. -/
theorem findBucketText_ne_none_iff :
    m.findBucketText (calculateHashFromUuid groupId) text ≠ none ↔ m.HasBucket groupId text := by
  have ones : TrailingOnes (hashTableSize - 1) 5 := Records.trailingOnes_mask
  rw [Mmap.findBucketText, probeLoop_masked_ne_none_iff ones (by decide)]
  simp only [probeStopsText_iff]
  rfl

/-- **No more than 1024 slots are used**, in broken states neither. -/
theorem Entered.usedCount_le (entered : Entered m) : m.usedCount ≤ 1024 := by
  rw [← submasks_length, Mmap.usedCount]
  refine length_le_submasks (by decide) (List.nodup_range.filter _)
    (fun slotIdx => ⟨(calculateHashFromUuid (m.dataEntries slotIdx).id).toNat, rfl⟩) ?_
  intro first isFirst second isSecond shared
  rw [List.mem_filter] at isFirst isSecond
  exact entered.injective isFirst.2 isSecond.2 shared

theorem Entered.exists_unused (entered : Entered m) :
    ¬ ∀ slotIdx < maxDataRecords, (m.dataEntries slotIdx).isUsed = true := by
  intro full
  have atMost := entered.usedCount_le
  rw [Mmap.usedCount, List.filter_eq_self.mpr fun slotIdx member =>
    full slotIdx (List.mem_range.mp member), List.length_range] at atMost
  exact absurd atMost (by decide)

theorem Entered.keys_32 (entered : Entered m) : m.keys 32 = none := by
  rw [key_eq_none_iff]
  by_contra occupied
  obtain ⟨value, masked⟩ := entered.buckets 32 occupied
  exact masked_ne_32 value masked.symm

/-- An append is accepted exactly when it finds a bucket, an empty entry and a
free slot. -/
theorem appendRecordText_accepted_iff :
    (m.appendRecordText groupId id text val priority).1 = true ↔ m.HasRoom groupId id text := by
  have accepted : (m.appendRecordText groupId id text val priority).1 = true ↔
      m.findBucketText (calculateHashFromUuid groupId) text ≠ none ∧
        m.idHashTable (idSlot id) = -1 ∧ m.freeListHeadIdx ≠ -1 := by
    rw [Mmap.appendRecordText]
    cases m.findBucketText (calculateHashFromUuid groupId) text with
    | none => simp
    | some bucketIdx =>
        by_cases free : m.idHashTable (idSlot id) = -1
        · by_cases exhausted : m.freeListHeadIdx = -1 <;>
            simp [free, Mmap.popFreeSlot, exhausted]
        · simp [free]
  rw [accepted, findBucketText_ne_none_iff]
  exact ⟨fun accepts => ⟨accepts.2.1, accepts.2.2, accepts.1⟩,
    fun room => ⟨room.bucket, room.idFree, room.spare⟩⟩

/-- **When the address cache refuses an append rightly.** -/
theorem Entered.refusesRightly_iff (entered : Entered m) :
    m.RefusesRightly groupId id text val priority ↔
      (¬ m.Stored id → m.HasRoom groupId id text) := by
  constructor
  · intro rightly notStored
    refine (@appendRecordText_accepted_iff m groupId id text val priority).mp ?_
    by_contra refused
    cases rightly (Bool.eq_false_of_not_eq_true refused) with
    | stored isStored => exact notStored isStored
    | noSlot full => exact entered.exists_unused full
    | noBucket full =>
        obtain ⟨key, occupied, -⟩ := full 32 (by decide)
        cases entered.keys_32.symm.trans occupied
  · intro roomy refused
    by_cases isStored : m.Stored id
    case pos => exact .stored isStored
    have accepted := (@appendRecordText_accepted_iff m groupId id text val priority).mpr
      (roomy isStored)
    exact absurd (refused.symm.trans accepted) Bool.false_ne_true

end IpGroup

end IpGroup

/-- **The capacity of the two caches.** In every state that calls reach, an
append of a record is refused only for a reason the store gives exactly when, for
a fitting record with a new id, no stored id shares the entry of the id and the
block of the name has room; an append of an address likewise, under a country text of any
length. Neither cache ever holds more than 1024 records. -/
theorem capacity_law (recordCalls : List Records.Call) (entryCalls : List IpGroup.TextCall) :
    (∀ wireName qtype id data,
      (Run.exec Records.Mmap.step .fresh recordCalls).RefusesRightly wireName qtype id data ↔
        (data.Fits → ¬ (Run.exec Records.Mmap.step .fresh recordCalls).Stored id →
          (Run.exec Records.Mmap.step .fresh recordCalls).HasRoom wireName qtype id)) ∧
    (∀ groupId id text val priority,
      (Run.exec IpGroup.Mmap.stepText .fresh entryCalls).RefusesRightly groupId id text val
          priority ↔
        (¬ (Run.exec IpGroup.Mmap.stepText .fresh entryCalls).Stored id →
          (Run.exec IpGroup.Mmap.stepText .fresh entryCalls).HasRoom groupId id text)) ∧
    (Run.exec Records.Mmap.step .fresh recordCalls).usedCount ≤ 1024 ∧
    (Run.exec IpGroup.Mmap.stepText .fresh entryCalls).usedCount ≤ 1024 := by
  obtain ⟨⟨chain, spare, sound⟩, empty⟩ := Records.run_keys_32 recordCalls
  have entered := IpGroup.Entered.runText entryCalls
  exact ⟨fun _ _ _ _ => sound.refusesRightly_iff empty,
    fun _ _ _ _ _ => entered.refusesRightly_iff, sound.usedCount_le, entered.usedCount_le⟩

/-- **Two ids are too many** when they share an entry. The store has 99999 free
slots left and refuses the second record. -/
theorem second_id_refused :
    ¬ ∀ (calls : List Records.Call) wireName qtype id data,
      (Run.exec Records.Mmap.step .fresh calls).RefusesRightly wireName qtype id data := by
  intro always
  have rightly := always [.append [1, 97, 0] 1 ⟨2, 2⟩
    ⟨60, 0, ⟨0, 0⟩, false, false, [10, 0, 0, 1]⟩] [1, 98, 0] 1 ⟨10, 10⟩
    ⟨60, 0, ⟨0, 0⟩, false, false, [10, 0, 0, 2]⟩
  obtain ⟨chain, spare, sound⟩ := Records.Intact.run [.append [1, 97, 0] 1 ⟨2, 2⟩
    ⟨60, 0, ⟨0, 0⟩, false, false, [10, 0, 0, 1]⟩]
  have facts : (Run.exec Records.Mmap.step .fresh [.append [1, 97, 0] 1 ⟨2, 2⟩
      ⟨60, 0, ⟨0, 0⟩, false, false, [10, 0, 0, 1]⟩]).slotOfId ⟨10, 10⟩ = none ∧
      ((Run.exec Records.Mmap.step .fresh [.append [1, 97, 0] 1 ⟨2, 2⟩
        ⟨60, 0, ⟨0, 0⟩, false, false, [10, 0, 0, 1]⟩]).dataRecords 1).isUsed = false ∧
      (Run.exec Records.Mmap.step .fresh [.append [1, 97, 0] 1 ⟨2, 2⟩
        ⟨60, 0, ⟨0, 0⟩, false, false, [10, 0, 0, 1]⟩]).keys 32 = none ∧
      ((Run.exec Records.Mmap.step .fresh [.append [1, 97, 0] 1 ⟨2, 2⟩
        ⟨60, 0, ⟨0, 0⟩, false, false, [10, 0, 0, 1]⟩]).appendRecord [1, 98, 0] 1 ⟨10, 10⟩
        ⟨60, 0, ⟨0, 0⟩, false, false, [10, 0, 0, 2]⟩).1 = false := by
    rw [Records.Mmap.fresh_eq_freshTable]
    decide +kernel
  generalize Run.exec Records.Mmap.step .fresh _ = m at rightly sound facts
  obtain ⟨missing, unused, empty, refused⟩ := facts
  cases rightly refused with
  | tooLong long => exact long (by decide)
  | stored isStored =>
      exact sound.slotOfId_eq_none_iff_not_stored.mp missing isStored
  | noSlot full => exact Bool.false_ne_true (unused.symm.trans (full 1 (by decide)))
  | noBucket full =>
      obtain ⟨key, occupied, -⟩ := full 32 (by decide)
      cases empty.symm.trans occupied

end EdgeDNS
