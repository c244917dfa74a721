import EdgeDNS.Basic
import EdgeDNS.Library.Probing

/-!
# The record cache

The model of `Records::Mmap`: a file mapped into memory that holds three
arrays, the bucket table, the id table and the record slots, and beside it the
head of the free list. The arrays are functions of the index, and every
operation writes them as the source does.

A bucket is empty when its `nameHash` is zero. A name hashes to a masked start
index and probes linearly from there; the records of one bucket are chained
through `nextIndex` and `prevIndex`, and the unused slots through `nextIndex`.
The id table has one entry for every masked id hash.

The two loops over a chain carry the guards of the source. `getRecord` also
reports how its loop ended (`LoopExit`), and `appendRecord` which way it linked
the new slot (`LinkBranch`), so that it can be stated which guards are dead.
-/

set_option autoImplicit false

namespace EdgeDNS.Records

open Probing

/-- `MAX_DATA_RECORDS`: the number of slots. -/
def maxDataRecords : Nat := 100000
/-- `HASH_TABLE_SIZE`: the number of buckets. -/
def hashTableSize : Nat := 100000
/-- `ID_HASH_TABLE_SIZE`: the number of entries of the id table. -/
def idHashTableSize : Nat := 100000

/-- The capacity of the payload array of a slot. -/
def payloadSize : Nat := 254

/-- A bucket of the index: the key of its chain and the first slot on it. -/
structure IndexBucket where
  nameHash : UInt64
  qtype : Int
  headSlotIdx : Int
deriving DecidableEq, Repr, Inhabited

/-- A slot of the file: the record, its links and the bucket it is on. -/
@[ext] structure DNSRecord where
  isUsed : Bool
  nextIndex : Int
  prevIndex : Int
  ttl : UInt32
  priority : UInt16
  isGeo : Bool
  isProxy : Bool
  rdataLen : UInt8
  groupId : CassUuid
  id : CassUuid
  bucketIdx : Nat
  payload : List UInt8
deriving DecidableEq, Repr, Inhabited

/-- What a lookup returns for one slot. -/
@[ext] structure DNSResponseData where
  ttl : UInt32
  priority : UInt16
  rdata : List UInt8
  groupId : CassUuid
  id : CassUuid
  bucketIdx : Nat
  isGeo : Bool
  isProxy : Bool
deriving DecidableEq, Repr, Inhabited

/-- The arguments of an append or an update that are stored in the slot. -/
structure RecordData where
  ttl : UInt32
  priority : UInt16
  groupId : CassUuid
  isGeo : Bool
  isProxy : Bool
  binaryRdata : List UInt8
deriving DecidableEq, Repr, Inhabited

/-- The mapped arrays and the head of the free list. -/
@[ext] structure Mmap where
  hashTable : Nat → IndexBucket
  idHashTable : Nat → Int
  dataRecords : Nat → DNSRecord
  freeListHeadIdx : Int

/-! ## Hashes and probing -/

/-- The hash of a wire name. -/
def calculateHash (wireName : List UInt8) : UInt64 := foldedHash wireName

/-- The hash of a record id. -/
def calculateIdHash (uuid : CassUuid) : UInt64 := foldedHash uuid.bytes

/-- The entry of the id table for an id. -/
def idSlot (id : CassUuid) : Nat := (calculateIdHash id).toNat &&& (idHashTableSize - 1)

/-- A probe stops at an empty bucket and at the bucket of its own key. -/
def probeStops (hashTable : Nat → IndexBucket) (hash : UInt64) (qtype : Int) (index : Nat) :
    Bool :=
  (hashTable index).nameHash == 0 ||
    ((hashTable index).nameHash == hash && (hashTable index).qtype == qtype)

/-- The probe loop over a table of any size. -/
def probeTable (size : Nat) (hashTable : Nat → IndexBucket) (hash : UInt64) (qtype : Int) :
    Option (Option Nat) :=
  probeLoop (maskedStep (size - 1)) (probeStops hashTable hash qtype)
    (hash.toNat &&& (size - 1)) size (hash.toNat &&& (size - 1))

namespace Mmap

/-- The bucket where a probe stops; `none` is the source's `-1`. -/
def findBucket (m : Mmap) (hash : UInt64) (qtype : Int) : Option Nat :=
  (probeTable hashTableSize m.hashTable hash qtype).join

/-! ## Writes -/

/-- Write a bucket. -/
def setBucket (m : Mmap) (bucketIdx : Nat) (bucket : IndexBucket) : Mmap :=
  { m with hashTable := Function.update m.hashTable bucketIdx bucket }

/-- Write an entry of the id table. -/
def setIdEntry (m : Mmap) (entry : Nat) (slotIdx : Int) : Mmap :=
  { m with idHashTable := Function.update m.idHashTable entry slotIdx }

/-- Write a slot. -/
def setRecord (m : Mmap) (slotIdx : Nat) (record : DNSRecord) : Mmap :=
  { m with dataRecords := Function.update m.dataRecords slotIdx record }

@[simp] theorem setBucket_dataRecords (m : Mmap) (bucketIdx : Nat) (bucket : IndexBucket) :
    (m.setBucket bucketIdx bucket).dataRecords = m.dataRecords := rfl

@[simp] theorem setRecord_dataRecords (m : Mmap) (slotIdx : Nat) (record : DNSRecord) :
    (m.setRecord slotIdx record).dataRecords = Function.update m.dataRecords slotIdx record := rfl

/-! ## The free list -/

/-- Take the first slot of the free list, or fail when the list is empty. -/
def popFreeSlot (m : Mmap) : Option (Nat × Mmap) :=
  if m.freeListHeadIdx = -1 then none
  else
    let allocatedIdx := m.freeListHeadIdx.toNat
    let record := m.dataRecords allocatedIdx
    some (allocatedIdx,
      { m.setRecord allocatedIdx
          { record with isUsed := true, nextIndex := -1, prevIndex := -1 } with
        freeListHeadIdx := record.nextIndex })

/-- Clear a slot and put it in front of the free list. The id entry is cleared
first, while the slot still holds its id, and only if it holds this slot. -/
def pushFreeSlot (m : Mmap) (slotIdx : Nat) : Mmap :=
  let record := m.dataRecords slotIdx
  let idEntry := idSlot record.id
  let idHashTable :=
    if m.idHashTable idEntry = (slotIdx : Int) then
      Function.update m.idHashTable idEntry (-1)
    else m.idHashTable
  { m with
    idHashTable := idHashTable
    dataRecords := Function.update m.dataRecords slotIdx
      { record with
        isUsed := false, payload := List.replicate payloadSize 0, ttl := 0, priority := 0,
        rdataLen := 0, groupId := ⟨0, 0⟩, id := ⟨0, 0⟩, nextIndex := m.freeListHeadIdx,
        prevIndex := -1, isGeo := false, isProxy := false }
    freeListHeadIdx := (slotIdx : Int) }

/-! ## Opening the file -/

/-- A mapped file that `ftruncate` has just created: all bytes are zero. -/
def zeroed : Mmap where
  hashTable _ := ⟨0, 0, 0⟩
  idHashTable _ := 0
  dataRecords _ :=
    { isUsed := false, nextIndex := 0, prevIndex := 0, ttl := 0, priority := 0, isGeo := false,
      isProxy := false, rdataLen := 0, groupId := ⟨0, 0⟩, id := ⟨0, 0⟩, bucketIdx := 0,
      payload := List.replicate payloadSize 0 }
  freeListHeadIdx := -1

/-- The fields that `init` writes into every slot of a new file. -/
def blankRecord (record : DNSRecord) : DNSRecord :=
  { record with
    isUsed := false, nextIndex := -1, prevIndex := -1, ttl := 0, priority := 0, rdataLen := 0,
    payload := List.replicate payloadSize 0 }

/-- Enter the used slots below `count` into the id table, in ascending order. -/
def rebuildIdTable (m : Mmap) : Nat → Mmap
  | 0 => m
  | count + 1 =>
      let before := rebuildIdTable m count
      let record := before.dataRecords count
      if record.isUsed then before.setIdEntry (idSlot record.id) (count : Int) else before

/-- Put an unused slot in front of the free list. -/
def threadSlot (m : Mmap) (slotIdx : Nat) : Mmap :=
  { m.setRecord slotIdx { m.dataRecords slotIdx with nextIndex := m.freeListHeadIdx } with
    freeListHeadIdx := (slotIdx : Int) }

/-- Thread the unused slots below `count` onto the free list, in descending
order. -/
def threadFreeList : Nat → Mmap → Mmap
  | 0, m => m
  | count + 1, m =>
      threadFreeList count (if (m.dataRecords count).isUsed then m else m.threadSlot count)

/-- `init` on the mapped arrays of a new or of an existing file. -/
def init (isNewFile : Bool) (m : Mmap) : Mmap :=
  let cleared : Nat → Int := fun i => if i < idHashTableSize then -1 else m.idHashTable i
  let opened :=
    if isNewFile then
      { m with
        hashTable := fun i => if i < hashTableSize then ⟨0, 0, 0⟩ else m.hashTable i
        idHashTable := cleared
        dataRecords := fun i =>
          if i < maxDataRecords then blankRecord (m.dataRecords i) else m.dataRecords i }
    else rebuildIdTable { m with idHashTable := cleared } maxDataRecords
  threadFreeList maxDataRecords { opened with freeListHeadIdx := -1 }

/-- The store in a freshly created file. -/
def fresh : Mmap := init true zeroed

end Mmap

/-! ## Lookup -/

/-- A slot index that the chain loops accept. -/
def InSlotRange (slot : Int) : Prop := 0 ≤ slot ∧ slot < (maxDataRecords : Int)

instance (slot : Int) : Decidable (InSlotRange slot) := inferInstanceAs (Decidable (_ ∧ _))

/-- The response node built from a slot. A geo record carries no rdata. -/
def DNSRecord.response (record : DNSRecord) : DNSResponseData where
  ttl := record.ttl
  priority := record.priority
  rdata := if record.isGeo then [] else record.payload.take record.rdataLen.toNat
  groupId := record.groupId
  id := record.id
  bucketIdx := record.bucketIdx
  isGeo := record.isGeo
  isProxy := record.isProxy

/-- How the loop of `get_record` ends: past the chain, at an unused slot, at the
`visited` guard or at a slot that is its own successor. -/
inductive LoopExit
  | endOfChain
  | unusedSlot
  | visitedGuard
  | selfLoop
deriving DecidableEq, Repr

namespace Mmap

/-- The loop of `get_record`. The first argument counts down what is left of
the `visited` guard. -/
def getRecordLoop (m : Mmap) : Nat → Int → List DNSResponseData × LoopExit
  | 0, currentSlot =>
      if InSlotRange currentSlot then
        if (m.dataRecords currentSlot.toNat).isUsed then ([], .visitedGuard)
        else ([], .unusedSlot)
      else ([], .endOfChain)
  | left + 1, currentSlot =>
      if InSlotRange currentSlot then
        let record := m.dataRecords currentSlot.toNat
        if record.isUsed then
          if record.nextIndex = currentSlot then ([record.response], .selfLoop)
          else
            let rest := getRecordLoop m left record.nextIndex
            (record.response :: rest.1, rest.2)
        else ([], .unusedSlot)
      else ([], .endOfChain)

/-- `get_record` with the way its loop ended. A lookup that finds no occupied
bucket runs no loop. -/
def getRecordTraced (m : Mmap) (wireName : List UInt8) (qtype : Int) :
    List DNSResponseData × Option LoopExit :=
  match m.findBucket (calculateHash wireName) qtype with
  | none => ([], none)
  | some bucketIdx =>
      if (m.hashTable bucketIdx).nameHash = 0 then ([], none)
      else
        let walked := m.getRecordLoop maxDataRecords (m.hashTable bucketIdx).headSlotIdx
        (walked.1, some walked.2)

/-- The records `get_record` puts out. It returns true when there are any. -/
def getRecord (m : Mmap) (wireName : List UInt8) (qtype : Int) : List DNSResponseData :=
  (m.getRecordTraced wireName qtype).1

end Mmap

/-! ## Append -/

/-- The arguments of an append or an update written into a slot. -/
def DNSRecord.withData (record : DNSRecord) (data : RecordData) : DNSRecord :=
  { record with
    ttl := data.ttl
    priority := data.priority
    groupId := data.groupId
    isGeo := data.isGeo
    isProxy := data.isProxy
    rdataLen := if data.isGeo then 0 else UInt8.ofNat data.binaryRdata.length
    payload :=
      if data.isGeo then List.replicate payloadSize 0
      else data.binaryRdata ++ List.replicate (payloadSize - data.binaryRdata.length) 0 }

/-- Which way `append_record` links a new slot into its bucket. -/
inductive LinkBranch
  | emptyBucket
  | salvage
  | prepend
deriving DecidableEq, Repr

namespace Mmap

/-- Search the chain behind an unused head for a used slot; `-1` when the
`visited` guard or the end of the chain is reached first. -/
def salvageLoop (m : Mmap) : Nat → Int → Int
  | 0, _ => -1
  | left + 1, salvage =>
      if InSlotRange salvage then
        if (m.dataRecords salvage.toNat).isUsed then salvage
        else salvageLoop m left (m.dataRecords salvage.toNat).nextIndex
      else -1

/-- The branch that `append_record` takes for a new slot in a bucket. -/
def linkBranch (m : Mmap) (bucketIdx newSlotIdx : Nat) : LinkBranch :=
  let bucket := m.hashTable bucketIdx
  if bucket.nameHash = 0 then .emptyBucket
  else if bucket.headSlotIdx = (newSlotIdx : Int) ∨
      (m.dataRecords bucket.headSlotIdx.toNat).isUsed = false then .salvage
  else .prepend

/-- Link a filled slot into its bucket. -/
def linkSlot (m : Mmap) (hash : UInt64) (qtype : Int) (bucketIdx newSlotIdx : Nat) : Mmap :=
  let bucket := m.hashTable bucketIdx
  let oldHead := bucket.headSlotIdx
  match m.linkBranch bucketIdx newSlotIdx with
  | .emptyBucket =>
      (m.setBucket bucketIdx ⟨hash, qtype, newSlotIdx⟩).setRecord newSlotIdx
        { m.dataRecords newSlotIdx with nextIndex := -1, prevIndex := -1 }
  | .salvage =>
      let salvageHead :=
        if oldHead ≠ (newSlotIdx : Int) ∧ InSlotRange oldHead then
          m.salvageLoop maxDataRecords (m.dataRecords oldHead.toNat).nextIndex
        else -1
      let linked := (m.setBucket bucketIdx { bucket with headSlotIdx := newSlotIdx }).setRecord
        newSlotIdx { m.dataRecords newSlotIdx with nextIndex := salvageHead, prevIndex := -1 }
      if salvageHead ≠ -1 then
        linked.setRecord salvageHead.toNat
          { linked.dataRecords salvageHead.toNat with prevIndex := newSlotIdx }
      else linked
  | .prepend =>
      let pointed := m.setRecord oldHead.toNat
        { m.dataRecords oldHead.toNat with prevIndex := newSlotIdx }
      (pointed.setRecord newSlotIdx
        { pointed.dataRecords newSlotIdx with nextIndex := oldHead, prevIndex := -1 }).setBucket
          bucketIdx { bucket with headSlotIdx := newSlotIdx }

/-- Enter a slot taken from the free list into the id table and fill it. -/
def fillSlot (m : Mmap) (newSlotIdx bucketIdx : Nat) (id : CassUuid) (data : RecordData) :
    Mmap :=
  (m.setIdEntry (idSlot id) newSlotIdx).setRecord newSlotIdx
    { (m.dataRecords newSlotIdx).withData data with
      id := id, bucketIdx := bucketIdx, isUsed := true }

/-- The bucket, the slot and the filled store with which an append goes on to
link, unless it refuses. -/
def prepareAppend (m : Mmap) (wireName : List UInt8) (qtype : Int) (id : CassUuid)
    (data : RecordData) : Option (Nat × Nat × Mmap) :=
  if data.isGeo = false ∧ payloadSize < data.binaryRdata.length then none
  else
    match m.findBucket (calculateHash wireName) qtype with
    | none => none
    | some bucketIdx =>
        if m.idHashTable (idSlot id) ≠ -1 then none
        else
          match m.popFreeSlot with
          | none => none
          | some (newSlotIdx, popped) =>
              some (bucketIdx, newSlotIdx, popped.fillSlot newSlotIdx bucketIdx id data)

/-- `Mmap::append_record`: store the record in a new slot, at the head of the chain of its
name and type. -/
def appendRecord (m : Mmap) (wireName : List UInt8) (qtype : Int) (id : CassUuid)
    (data : RecordData) : Bool × Mmap :=
  match m.prepareAppend wireName qtype id data with
  | none => (false, m)
  | some (bucketIdx, newSlotIdx, filled) =>
      (true, filled.linkSlot (calculateHash wireName) qtype bucketIdx newSlotIdx)

/-- The branch an append takes, if it does not refuse. -/
def appendBranch (m : Mmap) (wireName : List UInt8) (qtype : Int) (id : CassUuid)
    (data : RecordData) : Option LinkBranch :=
  (m.prepareAppend wireName qtype id data).map fun (bucketIdx, newSlotIdx, filled) =>
    filled.linkBranch bucketIdx newSlotIdx

/-! ## Update and delete -/

/-- The slot that the id table gives for an id, if it is used and holds the
id. -/
def slotOfId (m : Mmap) (id : CassUuid) : Option Nat :=
  if m.idHashTable (idSlot id) = -1 then none
  else
    let slotIdx := (m.idHashTable (idSlot id)).toNat
    let record := m.dataRecords slotIdx
    if record.isUsed = false ∨ record.id.clockSeqAndNode ≠ id.clockSeqAndNode ∨
        record.id.timeAndVersion ≠ id.timeAndVersion then none
    else some slotIdx

/-- `Mmap::update_record`: overwrite the stored data of an id in its slot. -/
def updateRecord (m : Mmap) (id : CassUuid) (data : RecordData) : Bool × Mmap :=
  match m.slotOfId id with
  | none => (false, m)
  | some slotIdx =>
      if data.isGeo = false ∧ payloadSize < data.binaryRdata.length then (false, m)
      else (true, m.setRecord slotIdx ((m.dataRecords slotIdx).withData data))

/-- The loop of `delete_record`: release the slots of a chain in order. -/
def deleteLoop : Nat → Mmap → Int → Mmap
  | 0, m, _ => m
  | left + 1, m, currentSlot =>
      if InSlotRange currentSlot then
        deleteLoop left (m.pushFreeSlot currentSlot.toNat)
          (m.dataRecords currentSlot.toNat).nextIndex
      else m

/-- `Mmap::delete_record`: free the whole chain of a name and a type and its bucket. -/
def deleteRecord (m : Mmap) (wireName : List UInt8) (qtype : Int) : Bool × Mmap :=
  match m.findBucket (calculateHash wireName) qtype with
  | none => (false, m)
  | some bucketIdx =>
      if (m.hashTable bucketIdx).nameHash = 0 then (false, m)
      else
        (true, (deleteLoop maxDataRecords m (m.hashTable bucketIdx).headSlotIdx).setBucket
          bucketIdx ⟨0, 0, -1⟩)

/-- Redirect the neighbours of a slot past it, and empty its bucket when no
slot is left in it. -/
def unlinkSlot (m : Mmap) (bucketIdx slotIdx : Nat) : Mmap :=
  let prev := (m.dataRecords slotIdx).prevIndex
  let next := (m.dataRecords slotIdx).nextIndex
  let m :=
    if (slotIdx : Int) = (m.hashTable bucketIdx).headSlotIdx then
      m.setBucket bucketIdx { m.hashTable bucketIdx with headSlotIdx := next }
    else if prev ≠ -1 then
      m.setRecord prev.toNat { m.dataRecords prev.toNat with nextIndex := next }
    else m
  let m :=
    if next ≠ -1 then
      m.setRecord next.toNat { m.dataRecords next.toNat with prevIndex := prev }
    else m
  if (m.hashTable bucketIdx).headSlotIdx = -1 then
    m.setBucket bucketIdx { m.hashTable bucketIdx with nameHash := 0, qtype := 0 }
  else m

/-- `Mmap::delete_record_from_uuid`: take the slot of an id off its chain and free it. -/
def deleteRecordFromUuid (m : Mmap) (id : CassUuid) : Bool × Mmap :=
  match m.slotOfId id with
  | none => (false, m)
  | some slotIdx =>
      let unlinked := m.unlinkSlot (m.dataRecords slotIdx).bucketIdx slotIdx
      (true, (unlinked.pushFreeSlot slotIdx).setIdEntry (idSlot id) (-1))

end Mmap

/-! ## Runs -/

/-- A call that changes the store. -/
inductive Call
  | append (wireName : List UInt8) (qtype : Int) (id : CassUuid) (data : RecordData)
  | update (id : CassUuid) (data : RecordData)
  | delete (wireName : List UInt8) (qtype : Int)
  | deleteFromUuid (id : CassUuid)
deriving DecidableEq, Repr

/-- The result of a call and the store after it. -/
def Mmap.call (m : Mmap) : Call → Bool × Mmap
  | .append wireName qtype id data => m.appendRecord wireName qtype id data
  | .update id data => m.updateRecord id data
  | .delete wireName qtype => m.deleteRecord wireName qtype
  | .deleteFromUuid id => m.deleteRecordFromUuid id

/-- The store after a call. -/
def Mmap.step (m : Mmap) (c : Call) : Mmap := (m.call c).2

end EdgeDNS.Records
