import EdgeDNS.Basic
import EdgeDNS.Library.Probing

/-!
# The address cache

The model of `IpGroupEntry::Mmap`, a second mapped file beside the record
cache. It keys its buckets by the hash of a group id and by a country code; the
slots hold addresses. The arrays are functions of the index, and every operation
writes them as the source does.

Three things differ from the record cache. A slot does not remember its bucket,
and `delete_record_from_uuid` looks the bucket up again. `update_record`
rewrites the country code of a slot where it stands. Releasing a slot leaves the
id table to the caller.

Country codes and addresses carry the bounds that the callers keep, so that the
`memcpy` of seven bytes copies a code whole and an address fits its array.
-/

set_option autoImplicit false

namespace EdgeDNS.IpGroup

open Probing

/-- `MAX_DATA_RECORDS`: the number of slots. -/
def maxDataRecords : Nat := 100000
/-- `HASH_TABLE_SIZE`: the number of buckets. -/
def hashTableSize : Nat := 100000
/-- `ID_HASH_TABLE_SIZE`: the number of entries of the id table. -/
def idHashTableSize : Nat := 100000

/-- A country code: the characters of a C string before its end. -/
@[ext] structure CountryCode where
  chars : List UInt8
  short : chars.length ≤ 7
  noEnd : 0 ∉ chars
deriving DecidableEq, Repr

/-- The code of a cleared array. -/
def CountryCode.empty : CountryCode := ⟨[], by decide, by decide⟩

/-- An address as it is passed to the cache. -/
@[ext] structure Address where
  bytes : List UInt8
  fits : bytes.length ≤ 16
deriving DecidableEq, Repr

/-- A bucket of the index: the key of its chain and the first slot on it. -/
structure IndexBucket where
  groupIdHash : UInt64
  countryCode : CountryCode
  headSlotIdx : Int
deriving DecidableEq, Repr

/-- A slot of the file: the entry and its links. -/
@[ext] structure IpGroupEntry where
  groupId : CassUuid
  id : CassUuid
  countryCode : CountryCode
  ip : List UInt8
  len : Nat
  priority : Int
  isUsed : Bool
  nextIndex : Int
  prevIndex : Int
deriving DecidableEq, Repr

/-- What a lookup returns of an entry. -/
@[ext] structure IpGroupEntryResponse where
  id : CassUuid
  ip : List UInt8
  priority : Int
deriving DecidableEq, Repr

/-- The mapped arrays and the head of the free list. -/
@[ext] structure Mmap where
  hashTable : Nat → IndexBucket
  idHashTable : Nat → Int
  dataEntries : Nat → IpGroupEntry
  freeListHeadIdx : Int

/-! ## Hashes and probing -/

/-- The hash of a group id and of an entry id. -/
def calculateHashFromUuid (uuid : CassUuid) : UInt64 := foldedHash uuid.bytes

/-- The entry of the id table for an id. -/
def idSlot (id : CassUuid) : Nat := (calculateHashFromUuid id).toNat &&& (idHashTableSize - 1)

/-- A probe stops at an empty bucket and at a bucket with the hash and the code.
The group id itself is not compared. -/
def probeStops (hashTable : Nat → IndexBucket) (hash : UInt64) (countryCode : CountryCode)
    (index : Nat) : Bool :=
  (hashTable index).groupIdHash == 0 ||
    ((hashTable index).groupIdHash == hash && (hashTable index).countryCode == countryCode)

/-- The probe loop over a table of any size. -/
def probeTable (size : Nat) (hashTable : Nat → IndexBucket) (hash : UInt64)
    (countryCode : CountryCode) : Option (Option Nat) :=
  probeLoop (maskedStep (size - 1)) (probeStops hashTable hash countryCode)
    (hash.toNat &&& (size - 1)) size (hash.toNat &&& (size - 1))

namespace Mmap

/-- The bucket where a probe stops; `none` is the source's `-1`. -/
def findBucket (m : Mmap) (hash : UInt64) (countryCode : CountryCode) : Option Nat :=
  (probeTable hashTableSize m.hashTable hash countryCode).join

/-! ## Writes -/

/-- Write a bucket. -/
def setBucket (m : Mmap) (bucketIdx : Nat) (bucket : IndexBucket) : Mmap :=
  { m with hashTable := Function.update m.hashTable bucketIdx bucket }

/-- Write an entry of the id table. -/
def setIdEntry (m : Mmap) (entry : Nat) (slotIdx : Int) : Mmap :=
  { m with idHashTable := Function.update m.idHashTable entry slotIdx }

/-- Write a slot. -/
def setEntry (m : Mmap) (slotIdx : Nat) (entry : IpGroupEntry) : Mmap :=
  { m with dataEntries := Function.update m.dataEntries slotIdx entry }

@[simp] theorem setBucket_dataEntries (m : Mmap) (bucketIdx : Nat) (bucket : IndexBucket) :
    (m.setBucket bucketIdx bucket).dataEntries = m.dataEntries := rfl

@[simp] theorem setEntry_dataEntries (m : Mmap) (slotIdx : Nat) (entry : IpGroupEntry) :
    (m.setEntry slotIdx entry).dataEntries = Function.update m.dataEntries slotIdx entry := rfl

/-! ## The free list -/

/-- Take the first slot of the free list, or fail when the list is empty. -/
def popFreeSlot (m : Mmap) : Option (Nat × Mmap) :=
  if m.freeListHeadIdx = -1 then none
  else
    let allocatedIdx := m.freeListHeadIdx.toNat
    let entry := m.dataEntries allocatedIdx
    some (allocatedIdx,
      { m.setEntry allocatedIdx
          { entry with isUsed := true, nextIndex := -1, prevIndex := -1 } with
        freeListHeadIdx := entry.nextIndex })

/-- Clear a slot and put it in front of the free list. The length and the last
four bytes of the address array keep their old values. -/
def pushFreeSlot (m : Mmap) (slotIdx : Nat) : Mmap :=
  let entry := m.dataEntries slotIdx
  { m.setEntry slotIdx
      { entry with
        isUsed := false, countryCode := .empty, ip := List.replicate 12 0 ++ entry.ip.drop 12,
        groupId := ⟨0, 0⟩, id := ⟨0, 0⟩, priority := 0, nextIndex := m.freeListHeadIdx,
        prevIndex := -1 } with
    freeListHeadIdx := (slotIdx : Int) }

/-! ## Opening the file -/

/-- A mapped file that `ftruncate` has just created: all bytes are zero. -/
def zeroed : Mmap where
  hashTable _ := ⟨0, .empty, 0⟩
  idHashTable _ := 0
  dataEntries _ :=
    { groupId := ⟨0, 0⟩, id := ⟨0, 0⟩, countryCode := .empty, ip := List.replicate 16 0, len := 0,
      priority := 0, isUsed := false, nextIndex := 0, prevIndex := 0 }
  freeListHeadIdx := -1

/-- The fields that `init` writes into every slot of a new file. -/
def blankEntry (entry : IpGroupEntry) : IpGroupEntry :=
  { entry with
    id := ⟨0, 0⟩, groupId := ⟨0, 0⟩, priority := 0, isUsed := false, nextIndex := -1,
    prevIndex := -1, countryCode := .empty, ip := List.replicate 12 0 ++ entry.ip.drop 12 }

/-- Enter the used slots below `count` into the id table, in ascending order. -/
def rebuildIdTable (m : Mmap) : Nat → Mmap
  | 0 => m
  | count + 1 =>
      let before := rebuildIdTable m count
      let entry := before.dataEntries count
      if entry.isUsed then before.setIdEntry (idSlot entry.id) (count : Int) else before

/-- Put an unused slot in front of the free list. -/
def threadSlot (m : Mmap) (slotIdx : Nat) : Mmap :=
  { m.setEntry slotIdx { m.dataEntries slotIdx with nextIndex := m.freeListHeadIdx } with
    freeListHeadIdx := (slotIdx : Int) }

/-- Thread the unused slots below `count` onto the free list, in descending
order. -/
def threadFreeList : Nat → Mmap → Mmap
  | 0, m => m
  | count + 1, m =>
      threadFreeList count (if (m.dataEntries count).isUsed then m else m.threadSlot count)

/-- `init` on the mapped arrays of a new or of an existing file. -/
def init (isNewFile : Bool) (m : Mmap) : Mmap :=
  let cleared : Nat → Int := fun i => if i < idHashTableSize then -1 else m.idHashTable i
  let opened :=
    if isNewFile then
      { m with
        hashTable := fun i => if i < hashTableSize then ⟨0, .empty, 0⟩ else m.hashTable i
        idHashTable := cleared
        dataEntries := fun i =>
          if i < maxDataRecords then blankEntry (m.dataEntries i) else m.dataEntries i }
    else rebuildIdTable { m with idHashTable := cleared } maxDataRecords
  threadFreeList maxDataRecords { opened with freeListHeadIdx := -1 }

/-- The store in a freshly created file. -/
def fresh : Mmap := init true zeroed

end Mmap

/-! ## Lookup -/

/-- A slot index that the chain loops accept. -/
def InSlotRange (slot : Int) : Prop := 0 ≤ slot ∧ slot < (maxDataRecords : Int)

instance (slot : Int) : Decidable (InSlotRange slot) := inferInstanceAs (Decidable (_ ∧ _))

/-- The part of a slot that a lookup returns. -/
def IpGroupEntry.response (entry : IpGroupEntry) : IpGroupEntryResponse where
  id := entry.id
  ip := entry.ip.take entry.len
  priority := entry.priority

namespace Mmap

/-- The loop of `get_record`. The first argument counts down what is left of
the `visited` guard. -/
def getRecordLoop (m : Mmap) : Nat → Int → List IpGroupEntryResponse
  | 0, _ => []
  | left + 1, currentSlot =>
      if InSlotRange currentSlot then
        let entry := m.dataEntries currentSlot.toNat
        if entry.isUsed then
          if entry.nextIndex = currentSlot then [entry.response]
          else entry.response :: getRecordLoop m left entry.nextIndex
        else []
      else []

/-- The entries `get_record` puts out. It returns true when there are any. -/
def getRecord (m : Mmap) (groupId : CassUuid) (countryCode : CountryCode) :
    List IpGroupEntryResponse :=
  match m.findBucket (calculateHashFromUuid groupId) countryCode with
  | none => []
  | some bucketIdx =>
      if (m.hashTable bucketIdx).groupIdHash = 0 then []
      else m.getRecordLoop maxDataRecords (m.hashTable bucketIdx).headSlotIdx

/-! ## Append -/

/-- Search the chain behind an unused head for a used slot; `-1` when the
`visited` guard or the end of the chain is reached first. -/
def salvageLoop (m : Mmap) : Nat → Int → Int
  | 0, _ => -1
  | left + 1, salvage =>
      if InSlotRange salvage then
        if (m.dataEntries salvage.toNat).isUsed then salvage
        else salvageLoop m left (m.dataEntries salvage.toNat).nextIndex
      else -1

/-- Link a filled slot into its bucket. -/
def linkSlot (m : Mmap) (hash : UInt64) (bucketIdx newSlotIdx : Nat) : Mmap :=
  let bucket := m.hashTable bucketIdx
  let oldHead := bucket.headSlotIdx
  if bucket.groupIdHash = 0 then
    (m.setBucket bucketIdx ⟨hash, (m.dataEntries newSlotIdx).countryCode, newSlotIdx⟩).setEntry
      newSlotIdx { m.dataEntries newSlotIdx with nextIndex := -1, prevIndex := -1 }
  else if oldHead = (newSlotIdx : Int) ∨ (m.dataEntries oldHead.toNat).isUsed = false then
    let salvageHead :=
      if oldHead ≠ (newSlotIdx : Int) ∧ InSlotRange oldHead then
        m.salvageLoop maxDataRecords (m.dataEntries oldHead.toNat).nextIndex
      else -1
    let linked := (m.setBucket bucketIdx { bucket with headSlotIdx := newSlotIdx }).setEntry
      newSlotIdx { m.dataEntries newSlotIdx with nextIndex := salvageHead, prevIndex := -1 }
    if salvageHead ≠ -1 then
      linked.setEntry salvageHead.toNat
        { linked.dataEntries salvageHead.toNat with prevIndex := newSlotIdx }
    else linked
  else
    let pointed := m.setEntry oldHead.toNat
      { m.dataEntries oldHead.toNat with prevIndex := newSlotIdx }
    (pointed.setEntry newSlotIdx
      { pointed.dataEntries newSlotIdx with nextIndex := oldHead, prevIndex := -1 }).setBucket
        bucketIdx { bucket with headSlotIdx := newSlotIdx }

/-- Enter a slot taken from the free list into the id table and fill it. -/
def fillSlot (m : Mmap) (newSlotIdx : Nat) (groupId id : CassUuid) (countryCode : CountryCode)
    (val : Address) (priority : Int) : Mmap :=
  let entry := m.dataEntries newSlotIdx
  (m.setIdEntry (idSlot id) newSlotIdx).setEntry newSlotIdx
    { entry with
      groupId := groupId, id := id, ip := val.bytes ++ entry.ip.drop val.bytes.length,
      len := val.bytes.length, priority := priority, countryCode := countryCode, isUsed := true }

/-- `Mmap::append_record`: store the entry in a new slot, at the head of the chain of its
group and country. -/
def appendRecord (m : Mmap) (groupId id : CassUuid) (countryCode : CountryCode)
    (val : Address) (priority : Int) : Bool × Mmap :=
  let hash := calculateHashFromUuid groupId
  match m.findBucket hash countryCode with
  | none => (false, m)
  | some bucketIdx =>
      if m.idHashTable (idSlot id) ≠ -1 then (false, m)
      else
        match m.popFreeSlot with
        | none => (false, m)
        | some (newSlotIdx, popped) =>
            (true, (popped.fillSlot newSlotIdx groupId id countryCode val priority).linkSlot
              hash bucketIdx newSlotIdx)

/-! ## Update and delete -/

/-- The slot that the id table gives for an id, if it is used and holds the
id. -/
def slotOfId (m : Mmap) (id : CassUuid) : Option Nat :=
  if m.idHashTable (idSlot id) = -1 then none
  else
    let slotIdx := (m.idHashTable (idSlot id)).toNat
    let entry := m.dataEntries slotIdx
    if entry.isUsed = false ∨ entry.id.clockSeqAndNode ≠ id.clockSeqAndNode ∨
        entry.id.timeAndVersion ≠ id.timeAndVersion then none
    else some slotIdx

/-- Both words of the group id of a slot are those of the given id. -/
def HoldsGroup (m : Mmap) (slotIdx : Nat) (groupId : CassUuid) : Prop :=
  (m.dataEntries slotIdx).groupId.clockSeqAndNode = groupId.clockSeqAndNode ∧
    (m.dataEntries slotIdx).groupId.timeAndVersion = groupId.timeAndVersion

instance (m : Mmap) (slotIdx : Nat) (groupId : CassUuid) :
    Decidable (m.HoldsGroup slotIdx groupId) :=
  inferInstanceAs (Decidable (_ ∧ _))

/-- Write an address, a priority and a country code into a slot. The links of
the slot stay as they are. -/
def updateRecord (m : Mmap) (groupId id : CassUuid) (countryCode : CountryCode)
    (val : Address) (priority : Int) : Bool × Mmap :=
  match m.slotOfId id with
  | none => (false, m)
  | some slotIdx =>
      if m.HoldsGroup slotIdx groupId then
        (true, m.setEntry slotIdx
          { m.dataEntries slotIdx with
            ip := val.bytes ++ List.replicate (16 - val.bytes.length) 0
            len := val.bytes.length, priority := priority, countryCode := countryCode })
      else (false, m)

/-- Clear the id entry of a slot, if it holds this slot. -/
def clearIdEntry (m : Mmap) (slotIdx : Nat) : Mmap :=
  if m.idHashTable (idSlot (m.dataEntries slotIdx).id) = (slotIdx : Int) then
    m.setIdEntry (idSlot (m.dataEntries slotIdx).id) (-1)
  else m

/-- The loop of `delete_record`: release the slots of a chain in order. -/
def deleteLoop : Nat → Mmap → Int → Mmap
  | 0, m, _ => m
  | left + 1, m, currentSlot =>
      if InSlotRange currentSlot then
        deleteLoop left ((m.clearIdEntry currentSlot.toNat).pushFreeSlot currentSlot.toNat)
          (m.dataEntries currentSlot.toNat).nextIndex
      else m

/-- `delete_record` looks at the group id of the head only. Its priority
argument is not used. -/
def deleteRecord (m : Mmap) (groupId : CassUuid) (countryCode : CountryCode) : Bool × Mmap :=
  match m.findBucket (calculateHashFromUuid groupId) countryCode with
  | none => (false, m)
  | some bucketIdx =>
      let head := (m.hashTable bucketIdx).headSlotIdx
      if (m.hashTable bucketIdx).groupIdHash = 0 then (false, m)
      else if m.HoldsGroup head.toNat groupId then
        (true, (deleteLoop maxDataRecords m head).setBucket bucketIdx ⟨0, .empty, -1⟩)
      else (false, m)

/-- Redirect the neighbours of a slot past it, and empty the bucket when no
slot is left in it. -/
def unlinkSlot (m : Mmap) (bucketIdx slotIdx : Nat) : Mmap :=
  let prev := (m.dataEntries slotIdx).prevIndex
  let next := (m.dataEntries slotIdx).nextIndex
  let m :=
    if (slotIdx : Int) = (m.hashTable bucketIdx).headSlotIdx then
      m.setBucket bucketIdx { m.hashTable bucketIdx with headSlotIdx := next }
    else if prev ≠ -1 then
      m.setEntry prev.toNat { m.dataEntries prev.toNat with nextIndex := next }
    else m
  let m :=
    if next ≠ -1 then
      m.setEntry next.toNat { m.dataEntries next.toNat with prevIndex := prev }
    else m
  if (m.hashTable bucketIdx).headSlotIdx = -1 then
    m.setBucket bucketIdx { m.hashTable bucketIdx with groupIdHash := 0, countryCode := .empty }
  else m

/-- The bucket is the one where the probe for the given group and for the
present country code of the slot ends. -/
def deleteRecordFromUuid (m : Mmap) (groupId id : CassUuid) : Bool × Mmap :=
  match m.slotOfId id with
  | none => (false, m)
  | some slotIdx =>
      match m.findBucket (calculateHashFromUuid groupId) (m.dataEntries slotIdx).countryCode with
      | none => (false, m)
      | some bucketIdx =>
          if m.HoldsGroup slotIdx groupId then
            (true, ((m.unlinkSlot bucketIdx slotIdx).pushFreeSlot slotIdx).setIdEntry
              (idSlot id) (-1))
          else (false, m)

end Mmap

/-! ## Runs -/

/-- A call that changes the store. -/
inductive Call
  | append (groupId id : CassUuid) (countryCode : CountryCode) (val : Address) (priority : Int)
  | update (groupId id : CassUuid) (countryCode : CountryCode) (val : Address) (priority : Int)
  | delete (groupId : CassUuid) (countryCode : CountryCode)
  | deleteFromUuid (groupId id : CassUuid)
deriving DecidableEq, Repr

/-- The result of a call and the store after it. -/
def Mmap.call (m : Mmap) : Call → Bool × Mmap
  | .append groupId id countryCode val priority =>
      m.appendRecord groupId id countryCode val priority
  | .update groupId id countryCode val priority =>
      m.updateRecord groupId id countryCode val priority
  | .delete groupId countryCode => m.deleteRecord groupId countryCode
  | .deleteFromUuid groupId id => m.deleteRecordFromUuid groupId id

/-- The store after a call. -/
def Mmap.step (m : Mmap) (c : Call) : Mmap := (m.call c).2

end EdgeDNS.IpGroup
