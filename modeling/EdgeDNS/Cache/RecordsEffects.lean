import EdgeDNS.Cache.MmapRecords
import EdgeDNS.Library.Arena
import EdgeDNS.Library.DirectIndex
import EdgeDNS.Library.KeyedTable

/-!
# What each operation of the record cache writes

A store is seen through three views: the arena of its chains and of its free
list (`Mmap.arena`), the table of the keys of its buckets (`Mmap.keys`) and
the id of every slot. The views forget what is left behind in empty buckets.

`Sound m chain spare` says that the views fit together: the arena represents
the chains and the free list, the id table holds exactly the used slots, and
every slot on a chain names its bucket. A used slot on no chain is possible
only for a name whose hash is zero, since such a name leaves its bucket marked
empty.

For each operation one lemma says when it refuses and what the views are after
it. Everything later about the store is derived from these lemmas.
-/

set_option autoImplicit false

namespace EdgeDNS.Records

open LinkedArena DirectIndex Probing

/-! ## The views -/

/-- The head of an occupied bucket. -/
def IndexBucket.head (bucket : IndexBucket) : Option Int :=
  if bucket.nameHash = 0 then none else some bucket.headSlotIdx

/-- The key of an occupied bucket. -/
def IndexBucket.key (bucket : IndexBucket) : Option (UInt64 × Int) :=
  if bucket.nameHash = 0 then none else some (bucket.nameHash, bucket.qtype)

namespace Mmap

/-- The links of the records, without what they hold. -/
def arena (m : Mmap) : Arena where
  head bucketIdx := (m.hashTable bucketIdx).head
  next slotIdx := (m.dataRecords slotIdx).nextIndex
  prev slotIdx := (m.dataRecords slotIdx).prevIndex
  used slotIdx := (m.dataRecords slotIdx).isUsed
  free := m.freeListHeadIdx

/-- The key that each bucket holds. -/
def keys (m : Mmap) (bucketIdx : Nat) : Option (UInt64 × Int) := (m.hashTable bucketIdx).key

/-- The entry of the id table that belongs to a slot. -/
def idEntry (m : Mmap) (slotIdx : Nat) : Nat := idSlot (m.dataRecords slotIdx).id

end Mmap

/-- The start of the probe for a key. -/
def home (key : UInt64 × Int) : Nat := key.1.toNat &&& (hashTableSize - 1)

/-- The step of the probe. -/
abbrev probeStep : Nat → Nat := maskedStep (hashTableSize - 1)

theorem probeStops_eq (m : Mmap) (hash : UInt64) (qtype : Int) :
    probeStops m.hashTable hash qtype = keyStops m.keys (hash, qtype) := by
  funext index
  by_cases empty : (m.hashTable index).nameHash = 0
  · simp [probeStops, keyStops, Mmap.keys, IndexBucket.key, empty]
  · rw [Bool.eq_iff_iff]
    simp [probeStops, keyStops, Mmap.keys, IndexBucket.key, empty]

/-- `find_bucket` is the probe for the key of a name. -/
theorem findBucket_eq (m : Mmap) (hash : UInt64) (qtype : Int) :
    m.findBucket hash qtype = findKey probeStep home hashTableSize m.keys (hash, qtype) := by
  rw [Mmap.findBucket, probeTable, probeStops_eq]
  rfl

/-- The mask of the table ends in five one bits. -/
theorem trailingOnes_mask : TrailingOnes (hashTableSize - 1) 5 := ⟨1562, by decide⟩

theorem key_eq_none_iff {m : Mmap} {bucketIdx : Nat} :
    m.keys bucketIdx = none ↔ (m.hashTable bucketIdx).nameHash = 0 := by
  simp [Mmap.keys, IndexBucket.key]

theorem key_eq_some_iff {m : Mmap} {bucketIdx : Nat} {hash : UInt64} {qtype : Int} :
    m.keys bucketIdx = some (hash, qtype) ↔
      (m.hashTable bucketIdx).nameHash ≠ 0 ∧ (m.hashTable bucketIdx).nameHash = hash ∧
        (m.hashTable bucketIdx).qtype = qtype := by
  simp [Mmap.keys, IndexBucket.key]

theorem head_eq_none_iff {m : Mmap} {bucketIdx : Nat} :
    m.arena.head bucketIdx = none ↔ (m.hashTable bucketIdx).nameHash = 0 := by
  simp [Mmap.arena, IndexBucket.head]

theorem head_of_occupied {m : Mmap} {bucketIdx : Nat}
    (occupied : (m.hashTable bucketIdx).nameHash ≠ 0) :
    m.arena.head bucketIdx = some (m.hashTable bucketIdx).headSlotIdx := by
  simp [Mmap.arena, IndexBucket.head, occupied]

/-! ## The invariant that every call keeps -/

/-- The links, the free list and the id table of a store fit together. -/
structure Sound (m : Mmap) (chain : Nat → List Nat) (spare : List Nat) : Prop where
  represents : m.arena.Represents maxDataRecords chain spare
  indexed : Indexed maxDataRecords idHashTableSize m.arena.used m.idEntry m.idHashTable
  owned : ∀ bucketIdx, ∀ slotIdx ∈ chain bucketIdx,
    (m.dataRecords slotIdx).bucketIdx = bucketIdx

/-! ## Slots found by id -/

theorem idSlot_lt (id : CassUuid) : idSlot id < idHashTableSize := and_lt_succ _ _

/-- The id table gives the slot of an id exactly when a used slot holds it. -/
theorem Sound.slotOfId_eq_some_iff {m : Mmap} {chain : Nat → List Nat} {spare : List Nat}
    (sound : Sound m chain spare) {id : CassUuid} {slotIdx : Nat} :
    m.slotOfId id = some slotIdx ↔
      slotIdx < maxDataRecords ∧ (m.dataRecords slotIdx).isUsed = true ∧
        (m.dataRecords slotIdx).id = id := by
  constructor
  · intro found
    simp only [Mmap.slotOfId] at found
    split at found
    · cases found
    case isFalse entered =>
      split at found
      · cases found
      case isFalse holds =>
        obtain ⟨cell, bounded, inUse, -, atCell⟩ :=
          sound.indexed.sound _ (idSlot_lt id) entered
        rw [atCell, Int.toNat_natCast] at found holds
        cases found
        refine ⟨bounded, inUse, ?_⟩
        push Not at holds
        exact CassUuid.ext holds.2.2 holds.2.1
  · rintro ⟨bounded, inUse, rfl⟩
    have entry : m.idHashTable (idSlot (m.dataRecords slotIdx).id) = (slotIdx : Int) :=
      sound.indexed.complete slotIdx bounded inUse
    simp only [Mmap.slotOfId, entry, Int.toNat_natCast, inUse]
    rw [if_neg (by omega)]
    simp

/-- A slot on a chain holds a stored id exactly when it is the slot of this id. -/
theorem Sound.id_eq_iff {m : Mmap} {chain : Nat → List Nat} {spare : List Nat}
    (sound : Sound m chain spare) {id : CassUuid} {slotIdx : Nat}
    (found : m.slotOfId id = some slotIdx) {bucketIdx other : Nat}
    (member : other ∈ chain bucketIdx) : (m.dataRecords other).id = id ↔ other = slotIdx := by
  obtain ⟨bounded, inUse, holds⟩ := sound.slotOfId_eq_some_iff.mp found
  obtain ⟨otherBounded, otherUsed⟩ := sound.represents.chainUsed bucketIdx other member
  constructor
  · intro same
    exact sound.indexed.injective otherBounded otherUsed bounded inUse
      (congrArg idSlot (same.trans holds.symm))
  · rintro rfl
    exact holds

/-- The slot of a stored id is on the chain of the bucket that it names. -/
theorem Sound.mem_chain_of_found {m : Mmap} {chain : Nat → List Nat} {spare : List Nat}
    (sound : Sound m chain spare) (covers : Covers maxDataRecords chain spare) {id : CassUuid}
    {slotIdx : Nat} (found : m.slotOfId id = some slotIdx) :
    slotIdx ∈ chain (m.dataRecords slotIdx).bucketIdx := by
  obtain ⟨bounded, inUse, -⟩ := sound.slotOfId_eq_some_iff.mp found
  obtain ⟨bucketIdx, member⟩ := covers.mem_chain sound.represents bounded inUse
  rwa [sound.owned bucketIdx slotIdx member]

/-- An id with no used slot is not found. -/
theorem Sound.slotOfId_eq_none_iff {m : Mmap} {chain : Nat → List Nat} {spare : List Nat}
    (sound : Sound m chain spare) {id : CassUuid} :
    m.slotOfId id = none ↔
      ∀ slotIdx < maxDataRecords, (m.dataRecords slotIdx).isUsed = true →
        (m.dataRecords slotIdx).id ≠ id := by
  constructor
  · intro missing slotIdx bounded inUse same
    rw [sound.slotOfId_eq_some_iff.mpr ⟨bounded, inUse, same⟩] at missing
    cases missing
  · intro absent
    cases found : m.slotOfId id with
    | none => rfl
    | some slotIdx =>
        obtain ⟨bounded, inUse, same⟩ := sound.slotOfId_eq_some_iff.mp found
        exact absurd same (absent slotIdx bounded inUse)

/-! ## Append -/

/-- The rdata that a record carries: none when it is a geo record. -/
def RecordData.rdata (data : RecordData) : List UInt8 :=
  if data.isGeo then [] else data.binaryRdata

/-- The node that a lookup builds from stored arguments. -/
def RecordData.response (data : RecordData) (id : CassUuid) (bucketIdx : Nat) :
    DNSResponseData where
  ttl := data.ttl
  priority := data.priority
  rdata := data.rdata
  groupId := data.groupId
  id := id
  bucketIdx := bucketIdx
  isGeo := data.isGeo
  isProxy := data.isProxy

/-- The rdata of a record that is not a geo record fits the payload array. -/
def RecordData.Fits (data : RecordData) : Prop :=
  data.isGeo = true ∨ data.binaryRdata.length ≤ payloadSize

instance (data : RecordData) : Decidable data.Fits := inferInstanceAs (Decidable (_ ∨ _))

theorem RecordData.not_fits_iff {data : RecordData} :
    ¬ data.Fits ↔ data.isGeo = false ∧ payloadSize < data.binaryRdata.length := by
  simp [RecordData.Fits]

/-- Stored rdata of at most 254 bytes is read back whole. -/
theorem DNSRecord.withData_response {data : RecordData} (fits : data.Fits)
    (record : DNSRecord) :
    (record.withData data).response = data.response record.id record.bucketIdx := by
  rcases fits with geo | short
  · simp [DNSRecord.response, DNSRecord.withData, RecordData.response, RecordData.rdata, geo]
  · have bound : data.binaryRdata.length < 256 := by
      unfold payloadSize at short
      omega
    have length : (UInt8.ofNat data.binaryRdata.length).toNat = data.binaryRdata.length := by
      simp [Nat.mod_eq_of_lt bound]
    cases geo : data.isGeo <;>
      simp [DNSRecord.response, DNSRecord.withData, RecordData.response, RecordData.rdata, geo,
        length]

/-- What an append that is not refused leaves behind. -/
structure Appended (m m' : Mmap) (hash : UInt64) (qtype : Int) (bucketIdx slotIdx : Nat)
    (id : CassUuid) (data : RecordData) : Prop where
  arena : m'.arena =
    if hash = 0 then m.arena.insertLoose slotIdx else m.arena.insertFront bucketIdx slotIdx
  keys : m'.keys =
    if hash = 0 then m.keys else Function.update m.keys bucketIdx (some (hash, qtype))
  idHashTable : m'.idHashTable = Function.update m.idHashTable (idSlot id) (slotIdx : Int)
  own : (m'.dataRecords slotIdx).response = data.response id bucketIdx
  others : ∀ other, other ≠ slotIdx →
    (m'.dataRecords other).response = (m.dataRecords other).response

/-- The slot of an append, filled but not yet linked. -/
def DNSRecord.filled (record : DNSRecord) (id : CassUuid) (bucketIdx : Nat)
    (data : RecordData) : DNSRecord :=
  { record.withData data with
    id := id, bucketIdx := bucketIdx, isUsed := true, nextIndex := -1, prevIndex := -1 }

theorem DNSRecord.filled_response {data : RecordData} (fits : data.Fits) (record : DNSRecord)
    (id : CassUuid) (bucketIdx : Nat) :
    (record.filled id bucketIdx data).response = data.response id bucketIdx :=
  DNSRecord.withData_response fits { record with id := id, bucketIdx := bucketIdx }

/-- The store when an append has filled its slot. -/
def Mmap.filledStore (m : Mmap) (slotIdx bucketIdx : Nat) (id : CassUuid) (data : RecordData) :
    Mmap where
  hashTable := m.hashTable
  idHashTable := Function.update m.idHashTable (idSlot id) (slotIdx : Int)
  dataRecords := Function.update m.dataRecords slotIdx
    ((m.dataRecords slotIdx).filled id bucketIdx data)
  freeListHeadIdx := (m.dataRecords slotIdx).nextIndex

section Append

variable {m : Mmap} {chain : Nat → List Nat} {spare : List Nat} {slotIdx bucketIdx : Nat}
  {wireName : List UInt8} {qtype : Int} {id : CassUuid} {data : RecordData}

/-- An append that may go on takes the first spare slot and fills it. -/
theorem Sound.prepareAppend_eq (sound : Sound m chain (slotIdx :: spare)) (fits : data.Fits)
    (ends : m.findBucket (calculateHash wireName) qtype = some bucketIdx)
    (free : m.idHashTable (idSlot id) = -1) :
    m.prepareAppend wireName qtype id data =
      some (bucketIdx, slotIdx, m.filledStore slotIdx bucketIdx id data) := by
  have head : m.freeListHeadIdx = (slotIdx : Int) := sound.represents.spareLinked.1
  have notTooLong : ¬ (data.isGeo = false ∧ payloadSize < data.binaryRdata.length) :=
    fun tooLong => RecordData.not_fits_iff.mpr tooLong fits
  have popped : m.popFreeSlot = some (slotIdx, { m with
      dataRecords := Function.update m.dataRecords slotIdx
        { m.dataRecords slotIdx with isUsed := true, nextIndex := -1, prevIndex := -1 }
      freeListHeadIdx := (m.dataRecords slotIdx).nextIndex }) := by
    simp only [Mmap.popFreeSlot, head, Int.toNat_natCast, Mmap.setRecord]
    rw [if_neg (by omega)]
  simp only [Mmap.prepareAppend, if_neg notTooLong, ends, free, ne_eq, not_true_eq_false,
    if_false, popped, Mmap.fillSlot, Mmap.setIdEntry, Mmap.setRecord, Function.update_self,
    Function.update_idem]
  rfl

/-- Once the slot is filled, the head of an occupied bucket is another used
slot: the branch that would salvage the chain is never taken. -/
theorem Sound.linkBranch_eq (sound : Sound m chain (slotIdx :: spare)) :
    (m.filledStore slotIdx bucketIdx id data).linkBranch bucketIdx slotIdx =
      if (m.hashTable bucketIdx).nameHash = 0 then .emptyBucket else .prepend := by
  by_cases empty : (m.hashTable bucketIdx).nameHash = 0
  · simp [Mmap.linkBranch, Mmap.filledStore, empty]
  · obtain ⟨first, rest, cells, atFirst⟩ :=
      sound.represents.head_eq_cons (head_of_occupied empty)
    have member : first ∈ chain bucketIdx := by simp [cells]
    have different : first ≠ slotIdx := sound.represents.used_of_ne_spare member
    have inUse : (m.dataRecords first).isUsed = true :=
      (sound.represents.chainUsed bucketIdx first member).2
    simp [Mmap.linkBranch, Mmap.filledStore, empty, atFirst, inUse, different]

/-- **An append that is not refused.** -/
theorem Sound.appendRecord_accepted (sound : Sound m chain (slotIdx :: spare))
    (fits : data.Fits)
    (ends : m.findBucket (calculateHash wireName) qtype = some bucketIdx)
    (free : m.idHashTable (idSlot id) = -1) :
    (m.appendRecord wireName qtype id data).1 = true ∧
      Appended m (m.appendRecord wireName qtype id data).2 (calculateHash wireName) qtype
        bucketIdx slotIdx id data := by
  have branch := @Sound.linkBranch_eq m chain spare slotIdx bucketIdx id data sound
  have keyHere := key_of_findKey ((findBucket_eq ..).symm.trans ends)
  rw [Mmap.appendRecord, sound.prepareAppend_eq fits ends free]
  refine ⟨rfl, ?_⟩
  simp only [Mmap.linkSlot, branch]
  by_cases empty : (m.hashTable bucketIdx).nameHash = 0
  · have noHead : m.arena.head bucketIdx = none := head_eq_none_iff.mpr empty
    simp only [if_pos empty, Mmap.setRecord, Mmap.setBucket, Mmap.filledStore,
      Function.update_self, Function.update_idem]
    refine ⟨?_, ?_, rfl, ?_, fun other different => ?_⟩
    · split
      case isTrue zero =>
        refine Arena.ext ?_ (map_update DNSRecord.nextIndex ..) (map_update DNSRecord.prevIndex ..)
          (map_update DNSRecord.isUsed ..) rfl
        exact map_update_same IndexBucket.head
          (by simp [IndexBucket.head, zero, empty])
      case isFalse nonzero =>
        rw [Arena.insertFront, noHead]
        refine Arena.ext ?_ (map_update DNSRecord.nextIndex ..) (map_update DNSRecord.prevIndex ..)
          (map_update DNSRecord.isUsed ..) rfl
        refine (map_update IndexBucket.head ..).trans ?_
        simp only [IndexBucket.head, if_neg nonzero]
        rfl
    · split
      case isTrue zero =>
        exact map_update_same IndexBucket.key
          (by simp [IndexBucket.key, zero, empty])
      case isFalse nonzero =>
        refine (map_update IndexBucket.key ..).trans ?_
        simp only [IndexBucket.key, if_neg nonzero]
        rfl
    · simp only [Function.update_self]
      exact DNSRecord.filled_response fits (m.dataRecords slotIdx) id bucketIdx
    · simp only [Function.update_of_ne different]
  · obtain ⟨first, rest, cells, atFirst⟩ :=
      sound.represents.head_eq_cons (head_of_occupied empty)
    have different : first ≠ slotIdx :=
      sound.represents.used_of_ne_spare (cells ▸ List.mem_cons_self ..)
    have nonzero : calculateHash wireName ≠ 0 := by
      rcases keyHere with vacant | stored
      · exact absurd (key_eq_none_iff.mp vacant) empty
      · exact (key_eq_some_iff.mp stored).2.1 ▸ empty
    have sameKey : (m.hashTable bucketIdx).key = some (calculateHash wireName, qtype) :=
      keyHere.resolve_left fun vacant => empty (key_eq_none_iff.mp vacant)
    -- the write to the old head and the writes to the new slot, in either order
    have written : ∀ old new : DNSRecord,
        Function.update (Function.update (Function.update m.dataRecords slotIdx
          ((m.dataRecords slotIdx).filled id bucketIdx data)) first old) slotIdx new =
        Function.update (Function.update m.dataRecords first old) slotIdx new := by
      intro old new
      rw [Function.update_comm different.symm, Function.update_idem]
    have occupied : m.arena.head bucketIdx = some (first : Int) := by
      rw [head_of_occupied empty, atFirst]
    simp only [if_neg empty, Mmap.setRecord, Mmap.setBucket, Mmap.filledStore,
      atFirst, Int.toNat_natCast, Function.update_of_ne different,
      Function.update_of_ne different.symm, Function.update_self, written]
    refine ⟨?_, ?_, rfl, ?_, fun other notSlot => ?_⟩
    · rw [if_neg nonzero, Arena.insertFront, occupied]
      refine Arena.ext ?_ ?_ ?_ ?_ rfl
      · refine (map_update IndexBucket.head ..).trans ?_
        simp only [IndexBucket.head, if_neg empty]
        rfl
      · refine (map_update DNSRecord.nextIndex ..).trans ?_
        refine congrArg (fun array : Nat → Int => Function.update array slotIdx (first : Int)) ?_
        exact map_update_same DNSRecord.nextIndex rfl
      · refine (map_update DNSRecord.prevIndex ..).trans ?_
        rw [map_update DNSRecord.prevIndex]
        rfl
      · refine (map_update DNSRecord.isUsed ..).trans ?_
        refine congrArg (fun array : Nat → Bool => Function.update array slotIdx true) ?_
        exact map_update_same DNSRecord.isUsed rfl
    · rw [if_neg nonzero, ← sameKey]
      refine (map_update_same IndexBucket.key ?_).trans
        (Function.update_eq_self bucketIdx m.keys).symm
      simp [IndexBucket.key]
    · simp only [Function.update_self]
      exact DNSRecord.filled_response fits (m.dataRecords slotIdx) id bucketIdx
    · simp only [Function.update_of_ne notSlot]
      by_cases isFirst : other = first
      · subst isFirst
        simp only [Function.update_self]
        rfl
      · simp only [Function.update_of_ne isFirst]

/-- **An append refuses or takes the first spare slot.** -/
theorem Sound.appendRecord_cases (sound : Sound m chain spare) (wireName : List UInt8)
    (qtype : Int) (id : CassUuid) (data : RecordData) :
    m.appendRecord wireName qtype id data = (false, m) ∨
    ∃ bucketIdx slotIdx rest, spare = slotIdx :: rest ∧ data.Fits ∧
      m.findBucket (calculateHash wireName) qtype = some bucketIdx ∧
      m.idHashTable (idSlot id) = -1 ∧ (m.appendRecord wireName qtype id data).1 = true ∧
      Appended m (m.appendRecord wireName qtype id data).2 (calculateHash wireName) qtype
        bucketIdx slotIdx id data := by
  by_cases fits : data.Fits
  case neg =>
    left
    simp only [Mmap.appendRecord, Mmap.prepareAppend, if_pos (RecordData.not_fits_iff.mp fits)]
  have notTooLong : ¬ (data.isGeo = false ∧ payloadSize < data.binaryRdata.length) :=
    fun tooLong => RecordData.not_fits_iff.mpr tooLong fits
  cases ends : m.findBucket (calculateHash wireName) qtype with
  | none =>
      left
      simp only [Mmap.appendRecord, Mmap.prepareAppend, if_neg notTooLong, ends]
  | some bucketIdx =>
      by_cases free : m.idHashTable (idSlot id) = -1
      case neg =>
        left
        simp only [Mmap.appendRecord, Mmap.prepareAppend, if_neg notTooLong, ends, ne_eq, free,
          not_false_eq_true, if_true]
      cases spare with
      | nil =>
          have exhausted : m.freeListHeadIdx = -1 := sound.represents.spareLinked
          left
          simp only [Mmap.appendRecord, Mmap.prepareAppend, if_neg notTooLong, ends, free, ne_eq,
            not_true_eq_false, if_false, Mmap.popFreeSlot, exhausted, if_true]
      | cons slotIdx rest =>
          right
          exact ⟨bucketIdx, slotIdx, rest, rfl, fits, rfl, free,
            sound.appendRecord_accepted fits ends free⟩

/-- The chains after an append. -/
theorem Sound.appended {m' : Mmap} {hash : UInt64} (sound : Sound m chain (slotIdx :: spare))
    (free : m.idHashTable (idSlot id) = -1)
    (effect : Appended m m' hash qtype bucketIdx slotIdx id data) :
    Sound m' (if hash = 0 then chain
      else Function.update chain bucketIdx (slotIdx :: chain bucketIdx)) spare := by
  have unused := (sound.represents.memSpare slotIdx).mp (List.mem_cons_self ..)
  have entries : m'.idEntry = Function.update m.idEntry slotIdx (idSlot id) := by
    funext other
    by_cases same : other = slotIdx
    · subst same
      have own : (m'.dataRecords other).id = id := congrArg DNSResponseData.id effect.own
      rw [Function.update_self, Mmap.idEntry, own]
    · have kept : (m'.dataRecords other).id = (m.dataRecords other).id :=
        congrArg DNSResponseData.id (effect.others other same)
      rw [Function.update_of_ne same, Mmap.idEntry, Mmap.idEntry, kept]
  have inUse : m'.arena.used = Function.update m.arena.used slotIdx true := by
    rw [effect.arena]
    split
    · rfl
    · rw [Arena.insertFront]
      split <;> rfl
  refine ⟨?_, ?_, ?_⟩
  · rw [effect.arena]
    split
    · exact sound.represents.insertLoose
    · exact sound.represents.insertFront bucketIdx
  · rw [entries, inUse, effect.idHashTable]
    exact sound.indexed.insert unused.1 unused.2 free
  · intro bucket other member
    have keeps : ∀ other, other ∈ chain bucket → (m'.dataRecords other).bucketIdx = bucket := by
      intro other old
      have notSlot := sound.represents.used_of_ne_spare old
      exact (congrArg DNSResponseData.bucketIdx (effect.others other notSlot)).trans
        (sound.owned bucket other old)
    split at member
    · exact keeps other member
    · by_cases same : bucket = bucketIdx
      · subst same
        rw [Function.update_self] at member
        rcases List.mem_cons.mp member with rfl | old
        · exact congrArg DNSResponseData.bucketIdx effect.own
        · exact keeps other old
      · rw [Function.update_of_ne same] at member
        exact keeps other member

end Append

/-! ## Update -/

/-- What an update that is not refused leaves behind. -/
structure Updated (m m' : Mmap) (slotIdx : Nat) (id : CassUuid) (data : RecordData) : Prop where
  arena : m'.arena = m.arena
  hashTable : m'.hashTable = m.hashTable
  idHashTable : m'.idHashTable = m.idHashTable
  own : (m'.dataRecords slotIdx).response =
    data.response id (m.dataRecords slotIdx).bucketIdx
  others : ∀ other, other ≠ slotIdx →
    (m'.dataRecords other).response = (m.dataRecords other).response

section Update

variable {m : Mmap} {chain : Nat → List Nat} {spare : List Nat} {slotIdx : Nat}
  {id : CassUuid} {data : RecordData}

/-- An update of a stored id refuses only rdata that does not fit. -/
theorem Sound.updateRecord_accepted (sound : Sound m chain spare)
    (found : m.slotOfId id = some slotIdx) (fits : data.Fits) :
    (m.updateRecord id data).1 = true ∧
      Updated m (m.updateRecord id data).2 slotIdx id data := by
  obtain ⟨-, -, holds⟩ := sound.slotOfId_eq_some_iff.mp found
  have notTooLong : ¬ (data.isGeo = false ∧ payloadSize < data.binaryRdata.length) :=
    fun tooLong => RecordData.not_fits_iff.mpr tooLong fits
  simp only [Mmap.updateRecord, found, if_neg notTooLong, Mmap.setRecord, true_and]
  refine ⟨?_, rfl, rfl, ?_, fun other different => ?_⟩
  · exact Arena.ext rfl (map_update_same DNSRecord.nextIndex rfl)
      (map_update_same DNSRecord.prevIndex rfl)
      (map_update_same DNSRecord.isUsed rfl) rfl
  · simp only [Function.update_self]
    rw [DNSRecord.withData_response fits, holds]
  · simp only [Function.update_of_ne different]

/-- **An update refuses or rewrites the slot of its id.** -/
theorem Sound.updateRecord_cases (sound : Sound m chain spare) (id : CassUuid)
    (data : RecordData) :
    m.updateRecord id data = (false, m) ∨
    ∃ slotIdx, m.slotOfId id = some slotIdx ∧ data.Fits ∧ (m.updateRecord id data).1 = true ∧
      Updated m (m.updateRecord id data).2 slotIdx id data := by
  cases found : m.slotOfId id with
  | none =>
      left
      simp only [Mmap.updateRecord, found]
  | some slotIdx =>
      by_cases fits : data.Fits
      · exact .inr ⟨slotIdx, rfl, fits, sound.updateRecord_accepted found fits⟩
      · left
        simp only [Mmap.updateRecord, found, if_pos (RecordData.not_fits_iff.mp fits)]

/-- An update changes no chain. -/
theorem Sound.updated {m' : Mmap} (sound : Sound m chain spare)
    (found : m.slotOfId id = some slotIdx) (effect : Updated m m' slotIdx id data) :
    Sound m' chain spare := by
  obtain ⟨-, -, holds⟩ := sound.slotOfId_eq_some_iff.mp found
  have content : ∀ other, (m'.dataRecords other).id = (m.dataRecords other).id ∧
      (m'.dataRecords other).bucketIdx = (m.dataRecords other).bucketIdx := by
    intro other
    by_cases same : other = slotIdx
    · subst same
      exact ⟨(congrArg DNSResponseData.id effect.own).trans holds.symm,
        congrArg DNSResponseData.bucketIdx effect.own⟩
    · exact ⟨congrArg DNSResponseData.id (effect.others other same),
        congrArg DNSResponseData.bucketIdx (effect.others other same)⟩
  have entries : m'.idEntry = m.idEntry := funext fun other => congrArg idSlot (content other).1
  refine ⟨?_, ?_, fun bucketIdx other member => ?_⟩
  · rw [effect.arena]
    exact sound.represents
  · rw [entries, effect.arena, effect.idHashTable]
    exact sound.indexed
  · exact (content other).2.trans (sound.owned bucketIdx other member)

end Update

/-! ## Releasing slots -/

namespace Mmap

theorem pushFreeSlot_arena (m : Mmap) (slotIdx : Nat) :
    (m.pushFreeSlot slotIdx).arena = m.arena.release slotIdx :=
  Arena.ext rfl (map_update DNSRecord.nextIndex ..) (map_update DNSRecord.prevIndex ..)
    (map_update DNSRecord.isUsed ..) rfl

theorem pushFreeSlot_idEntry (m : Mmap) (slotIdx : Nat) :
    (m.pushFreeSlot slotIdx).idEntry = Function.update m.idEntry slotIdx (idSlot ⟨0, 0⟩) := by
  funext other
  by_cases same : other = slotIdx
  · subst same
    simp only [Mmap.idEntry, pushFreeSlot, Function.update_self]
  · simp only [Mmap.idEntry, pushFreeSlot, Function.update_of_ne same]

theorem pushFreeSlot_of_ne (m : Mmap) {slotIdx other : Nat} (different : other ≠ slotIdx) :
    (m.pushFreeSlot slotIdx).dataRecords other = m.dataRecords other :=
  Function.update_of_ne different ..

/-- The entry of a released slot is cleared. -/
theorem pushFreeSlot_idHashTable {m : Mmap} {slotIdx : Nat}
    (entry : m.idHashTable (m.idEntry slotIdx) = (slotIdx : Int)) :
    (m.pushFreeSlot slotIdx).idHashTable =
      Function.update m.idHashTable (m.idEntry slotIdx) (-1) :=
  if_pos entry

theorem pushFreeSlot_indexed {m : Mmap} {slotIdx : Nat}
    (indexed : Indexed maxDataRecords idHashTableSize m.arena.used m.idEntry m.idHashTable)
    (bounded : slotIdx < maxDataRecords) (inUse : m.arena.used slotIdx = true) :
    Indexed maxDataRecords idHashTableSize (m.pushFreeSlot slotIdx).arena.used
      (m.pushFreeSlot slotIdx).idEntry (m.pushFreeSlot slotIdx).idHashTable := by
  rw [pushFreeSlot_arena, pushFreeSlot_idEntry,
    pushFreeSlot_idHashTable (indexed.complete slotIdx bounded inUse)]
  exact indexed.erase bounded inUse _

/-- Release slots one after the other. -/
def pushFreeSlots (m : Mmap) (slots : List Nat) : Mmap := slots.foldl pushFreeSlot m

theorem pushFreeSlots_cons (m : Mmap) (slotIdx : Nat) (slots : List Nat) :
    m.pushFreeSlots (slotIdx :: slots) = (m.pushFreeSlot slotIdx).pushFreeSlots slots := rfl

theorem pushFreeSlots_arena (m : Mmap) (slots : List Nat) :
    (m.pushFreeSlots slots).arena = m.arena.releaseAll slots := by
  induction slots generalizing m with
  | nil => rfl
  | cons slotIdx slots ih =>
      rw [pushFreeSlots_cons, ih, pushFreeSlot_arena, Arena.releaseAll_cons]

theorem pushFreeSlots_hashTable (m : Mmap) (slots : List Nat) :
    (m.pushFreeSlots slots).hashTable = m.hashTable := by
  induction slots generalizing m with
  | nil => rfl
  | cons slotIdx slots ih =>
      rw [pushFreeSlots_cons, ih]
      rfl

theorem pushFreeSlots_of_notMem {m : Mmap} {slots : List Nat} {other : Nat}
    (outside : other ∉ slots) :
    (m.pushFreeSlots slots).dataRecords other = m.dataRecords other := by
  induction slots generalizing m with
  | nil => rfl
  | cons slotIdx slots ih =>
      have different : other ≠ slotIdx := fun same => outside (same ▸ List.mem_cons_self ..)
      rw [pushFreeSlots_cons, ih fun member => outside (List.mem_cons_of_mem _ member),
        pushFreeSlot_of_ne m different]

theorem pushFreeSlots_indexed {m : Mmap} {slots : List Nat}
    (indexed : Indexed maxDataRecords idHashTableSize m.arena.used m.idEntry m.idHashTable)
    (inUse : ∀ slotIdx ∈ slots, slotIdx < maxDataRecords ∧ m.arena.used slotIdx = true)
    (distinct : slots.Nodup) :
    Indexed maxDataRecords idHashTableSize (m.pushFreeSlots slots).arena.used
      (m.pushFreeSlots slots).idEntry (m.pushFreeSlots slots).idHashTable := by
  induction slots generalizing m with
  | nil => exact indexed
  | cons slotIdx slots ih =>
      obtain ⟨bounded, used⟩ := inUse slotIdx (List.mem_cons_self ..)
      refine ih (pushFreeSlot_indexed indexed bounded used) (fun other member => ?_)
        (List.nodup_cons.mp distinct).2
      have different : other ≠ slotIdx := by
        rintro rfl
        exact (List.nodup_cons.mp distinct).1 member
      obtain ⟨otherBounded, otherUsed⟩ := inUse other (List.mem_cons_of_mem _ member)
      refine ⟨otherBounded, ?_⟩
      rw [pushFreeSlot_arena]
      simpa [Arena.release, Function.update_of_ne different] using otherUsed

/-- The loop of `delete_record` releases exactly the slots of the chain. Each
successor is read before its slot is released, and no slot is met twice. -/
theorem deleteLoop_eq {slots : List Nat} {m : Mmap} {start : Int} {left : Nat}
    (linked : Linked m.arena.next start slots)
    (bounded : ∀ slotIdx ∈ slots, slotIdx < maxDataRecords) (enough : slots.length ≤ left) :
    deleteLoop left m start = m.pushFreeSlots slots := by
  induction slots generalizing m start left with
  | nil =>
      have ended : start = -1 := linked
      cases left with
      | zero => rfl
      | succ left =>
          rw [deleteLoop, if_neg (by simp [InSlotRange, ended])]
          rfl
  | cons slotIdx slots ih =>
      obtain ⟨left, rfl⟩ : ∃ left', left = left' + 1 :=
        ⟨left - 1, by simp only [List.length_cons] at enough; omega⟩
      have atSlot : start = (slotIdx : Int) := linked.1
      have inside : slotIdx < maxDataRecords := bounded slotIdx (List.mem_cons_self ..)
      rw [deleteLoop, if_pos ⟨by omega, by omega⟩, atSlot, Int.toNat_natCast, pushFreeSlots_cons]
      refine ih ?_ (fun other member => bounded other (List.mem_cons_of_mem _ member))
        (by simpa using enough)
      rw [pushFreeSlot_arena]
      exact linked.2.update_of_notMem (List.nodup_cons.mp linked.nodup).1 _

end Mmap

/-! ## Deleting a key -/

section Delete

variable {m : Mmap} {chain : Nat → List Nat} {spare : List Nat} {wireName : List UInt8}
  {qtype : Int}

/-- What a `delete_record` that is not refused leaves behind. -/
structure Cleared (m m' : Mmap) (chain : Nat → List Nat) (spare : List Nat)
    (bucketIdx : Nat) : Prop where
  sound : Sound m' (Function.update chain bucketIdx []) ((chain bucketIdx).reverse ++ spare)
  keys : m'.keys = Function.update m.keys bucketIdx none
  others : ∀ other, other ∉ chain bucketIdx → m'.dataRecords other = m.dataRecords other

/-- **A `delete_record` refuses or empties the bucket where its probe ends.** -/
theorem Sound.deleteRecord_cases (sound : Sound m chain spare) (wireName : List UInt8)
    (qtype : Int) :
    (m.deleteRecord wireName qtype = (false, m) ∧
      ∀ bucketIdx, m.findBucket (calculateHash wireName) qtype = some bucketIdx →
        m.keys bucketIdx = none) ∨
    ∃ bucketIdx, m.findBucket (calculateHash wireName) qtype = some bucketIdx ∧
      m.keys bucketIdx = some (calculateHash wireName, qtype) ∧
      (m.deleteRecord wireName qtype).1 = true ∧
      Cleared m (m.deleteRecord wireName qtype).2 chain spare bucketIdx := by
  cases ends : m.findBucket (calculateHash wireName) qtype with
  | none =>
      left
      simp [Mmap.deleteRecord, ends]
  | some bucketIdx =>
      have keyHere := key_of_findKey ((findBucket_eq ..).symm.trans ends)
      by_cases empty : (m.hashTable bucketIdx).nameHash = 0
      · left
        refine ⟨by simp [Mmap.deleteRecord, ends, empty], fun other same => ?_⟩
        cases same
        exact key_eq_none_iff.mpr empty
      · right
        have stored := keyHere.resolve_left fun vacant => empty (key_eq_none_iff.mp vacant)
        have linked := (sound.represents.chainLinked bucketIdx _ (head_of_occupied empty)).2
        have inUse := sound.represents.chainUsed bucketIdx
        have walked := Mmap.deleteLoop_eq linked (fun other member => (inUse other member).1)
          (sound.represents.chain_length_le bucketIdx)
        refine ⟨bucketIdx, rfl, stored, by simp [Mmap.deleteRecord, ends, empty], ?_⟩
        simp only [Mmap.deleteRecord, ends, if_neg empty, walked, Mmap.setBucket]
        have arenaAfter : (Mmap.mk (Function.update (m.pushFreeSlots (chain bucketIdx)).hashTable
            bucketIdx ⟨0, 0, -1⟩) (m.pushFreeSlots (chain bucketIdx)).idHashTable
            (m.pushFreeSlots (chain bucketIdx)).dataRecords
            (m.pushFreeSlots (chain bucketIdx)).freeListHeadIdx).arena =
            (m.arena.releaseAll (chain bucketIdx)).vacate bucketIdx := by
          rw [← Mmap.pushFreeSlots_arena]
          exact Arena.ext (map_update IndexBucket.head ..) rfl rfl rfl rfl
        refine ⟨⟨?_, ?_, ?_⟩, ?_, fun other outside => Mmap.pushFreeSlots_of_notMem outside⟩
        · rw [arenaAfter]
          exact sound.represents.clear bucketIdx
        · exact Mmap.pushFreeSlots_indexed sound.indexed inUse
            (sound.represents.chain_nodup bucketIdx)
        · intro bucket other member
          by_cases same : bucket = bucketIdx
          · subst same
            simp at member
          · rw [Function.update_of_ne same] at member
            have outside : other ∉ chain bucketIdx := fun inBucket =>
              same (sound.represents.disjoint bucket bucketIdx other member inBucket)
            simp only [Mmap.pushFreeSlots_of_notMem outside]
            exact sound.owned bucket other member
        · refine (map_update IndexBucket.key ..).trans ?_
          rw [Mmap.pushFreeSlots_hashTable]
          rfl

end Delete

/-! ## Deleting an id -/

section Unlink

variable {m : Mmap} {bucketIdx slotIdx : Nat}

/-- The bucket table after unlinking a slot: the head moves on when the slot is
the head, and the key goes when no slot is left. -/
theorem unlinkSlot_hashTable : (m.unlinkSlot bucketIdx slotIdx).hashTable =
    Function.update m.hashTable bucketIdx
      (let head := if (slotIdx : Int) = (m.hashTable bucketIdx).headSlotIdx then
          (m.dataRecords slotIdx).nextIndex else (m.hashTable bucketIdx).headSlotIdx
       if head = -1 then ⟨0, 0, head⟩ else { m.hashTable bucketIdx with headSlotIdx := head }) := by
  by_cases headed : (slotIdx : Int) = (m.hashTable bucketIdx).headSlotIdx
  · simp only [Mmap.unlinkSlot, Mmap.setBucket, Mmap.setRecord, if_pos headed]
    split <;> split <;> simp_all
  · simp only [Mmap.unlinkSlot, Mmap.setBucket, Mmap.setRecord, if_neg headed]
    split <;> split <;> split <;> simp_all

/-- The slots after the predecessor of a slot that is not the head points past
it. -/
def Mmap.redirected (m : Mmap) (bucketIdx slotIdx : Nat) : Nat → DNSRecord :=
  let prev := (m.dataRecords slotIdx).prevIndex
  if (slotIdx : Int) ≠ (m.hashTable bucketIdx).headSlotIdx ∧ prev ≠ -1 then
    Function.update m.dataRecords prev.toNat
      { m.dataRecords prev.toNat with nextIndex := (m.dataRecords slotIdx).nextIndex }
  else m.dataRecords

theorem unlinkSlot_dataRecords : (m.unlinkSlot bucketIdx slotIdx).dataRecords =
    if (m.dataRecords slotIdx).nextIndex ≠ -1 then
      Function.update (m.redirected bucketIdx slotIdx) (m.dataRecords slotIdx).nextIndex.toNat
        { m.redirected bucketIdx slotIdx (m.dataRecords slotIdx).nextIndex.toNat with
          prevIndex := (m.dataRecords slotIdx).prevIndex }
    else m.redirected bucketIdx slotIdx := by
  simp only [Mmap.unlinkSlot, Mmap.redirected, apply_ite Mmap.dataRecords,
    Mmap.setBucket_dataRecords, Mmap.setRecord_dataRecords, ite_self]
  by_cases headed : (slotIdx : Int) = (m.hashTable bucketIdx).headSlotIdx
  · simp [headed]
  · simp [headed]

theorem redirected_field {β : Type*} (field : DNSRecord → β)
    (noLink : ∀ (record : DNSRecord) (nextIndex prevIndex : Int),
      field { record with nextIndex := nextIndex, prevIndex := prevIndex } = field record) :
    (fun other => field (m.redirected bucketIdx slotIdx other)) =
      fun other => field (m.dataRecords other) := by
  unfold Mmap.redirected
  split
  · exact map_update_same field (noLink _ _ _)
  · rfl

/-- A field other than the links keeps its value in every slot. -/
theorem unlinkSlot_field {β : Type*} (field : DNSRecord → β)
    (noLink : ∀ (record : DNSRecord) (nextIndex prevIndex : Int),
      field { record with nextIndex := nextIndex, prevIndex := prevIndex } = field record) :
    (fun other => field ((m.unlinkSlot bucketIdx slotIdx).dataRecords other)) =
      fun other => field (m.dataRecords other) := by
  rw [unlinkSlot_dataRecords]
  split
  · exact (map_update_same field (noLink _ _ _)).trans (redirected_field field noLink)
  · exact redirected_field field noLink

theorem unlinkSlot_response (other : Nat) :
    ((m.unlinkSlot bucketIdx slotIdx).dataRecords other).response =
      (m.dataRecords other).response :=
  congrFun (unlinkSlot_field DNSRecord.response fun _ _ _ => rfl) other

theorem unlinkSlot_nextIndex :
    (fun other => ((m.unlinkSlot bucketIdx slotIdx).dataRecords other).nextIndex) =
      if (slotIdx : Int) ≠ (m.hashTable bucketIdx).headSlotIdx ∧
          (m.dataRecords slotIdx).prevIndex ≠ -1 then
        Function.update (fun other => (m.dataRecords other).nextIndex)
          (m.dataRecords slotIdx).prevIndex.toNat (m.dataRecords slotIdx).nextIndex
      else fun other => (m.dataRecords other).nextIndex := by
  have redirects : (fun other => (m.redirected bucketIdx slotIdx other).nextIndex) =
      if (slotIdx : Int) ≠ (m.hashTable bucketIdx).headSlotIdx ∧
          (m.dataRecords slotIdx).prevIndex ≠ -1 then
        Function.update (fun other => (m.dataRecords other).nextIndex)
          (m.dataRecords slotIdx).prevIndex.toNat (m.dataRecords slotIdx).nextIndex
      else fun other => (m.dataRecords other).nextIndex := by
    unfold Mmap.redirected
    split
    · exact map_update DNSRecord.nextIndex ..
    · rfl
  rw [unlinkSlot_dataRecords, ← redirects]
  split
  · exact map_update_same DNSRecord.nextIndex rfl
  · rfl

theorem unlinkSlot_prevIndex :
    (fun other => ((m.unlinkSlot bucketIdx slotIdx).dataRecords other).prevIndex) =
      if (m.dataRecords slotIdx).nextIndex ≠ -1 then
        Function.update (fun other => (m.dataRecords other).prevIndex)
          (m.dataRecords slotIdx).nextIndex.toNat (m.dataRecords slotIdx).prevIndex
      else fun other => (m.dataRecords other).prevIndex := by
  have redirects : (fun other => (m.redirected bucketIdx slotIdx other).prevIndex) =
      fun other => (m.dataRecords other).prevIndex := by
    unfold Mmap.redirected
    split
    · exact map_update_same DNSRecord.prevIndex rfl
    · rfl
  rw [unlinkSlot_dataRecords, ← redirects]
  split
  · exact map_update DNSRecord.prevIndex ..
  · rfl

variable {chain : Nat → List Nat} {spare : List Nat}

/-- The head of the bucket in which a slot is chained. -/
theorem Sound.headed_iff (sound : Sound m chain spare) (member : slotIdx ∈ chain bucketIdx) :
    (m.hashTable bucketIdx).nameHash ≠ 0 ∧ (m.hashTable bucketIdx).headSlotIdx ≠ -1 ∧
      (m.arena.head bucketIdx = some (slotIdx : Int) ↔
        (slotIdx : Int) = (m.hashTable bucketIdx).headSlotIdx) := by
  have occupied : (m.hashTable bucketIdx).nameHash ≠ 0 := by
    intro empty
    rw [sound.represents.vacant bucketIdx (head_eq_none_iff.mpr empty)] at member
    cases member
  obtain ⟨first, -, -, atFirst⟩ := sound.represents.head_eq_cons (head_of_occupied occupied)
  refine ⟨occupied, by omega, ?_⟩
  rw [head_of_occupied occupied, Option.some.injEq]
  exact eq_comm

/-- Unlinking a chained slot is unlinking its cell in the arena. -/
theorem Sound.unlinkSlot_arena (sound : Sound m chain spare)
    (member : slotIdx ∈ chain bucketIdx) :
    (m.unlinkSlot bucketIdx slotIdx).arena = m.arena.unlink bucketIdx slotIdx := by
  obtain ⟨occupied, notEnd, headed⟩ := sound.headed_iff member
  refine Arena.ext ?_ ?_ unlinkSlot_prevIndex
    (unlinkSlot_field DNSRecord.isUsed fun _ _ _ => rfl) ?_
  · refine (congrArg (fun table index => IndexBucket.head (table index))
      unlinkSlot_hashTable).trans ((map_update IndexBucket.head ..).trans ?_)
    by_cases isHead : (slotIdx : Int) = (m.hashTable bucketIdx).headSlotIdx
    · simp only [Arena.unlink, if_pos (headed.mpr isHead), if_pos isHead]
      refine congrArg (Function.update m.arena.head bucketIdx) ?_
      rw [apply_ite IndexBucket.head]
      simp only [IndexBucket.head, if_neg occupied]
      rfl
    · simp only [Arena.unlink, if_neg (mt headed.mp isHead), if_neg isHead, if_neg notEnd]
      exact Function.update_eq_self bucketIdx m.arena.head
  · refine unlinkSlot_nextIndex.trans ?_
    simp only [Arena.unlink, ne_eq, headed]
    rfl
  · simp only [Mmap.unlinkSlot]
    split <;> split <;> split <;> (try split) <;> rfl

/-- The key of a bucket goes with its last slot. -/
theorem Sound.unlinkSlot_keys (sound : Sound m chain spare)
    (member : slotIdx ∈ chain bucketIdx) :
    (m.unlinkSlot bucketIdx slotIdx).keys =
      if chain bucketIdx = [slotIdx] then Function.update m.keys bucketIdx none else m.keys := by
  obtain ⟨occupied, notEnd, headed⟩ := sound.headed_iff member
  obtain ⟨first, rest, cells, atFirst⟩ :=
    sound.represents.head_eq_cons (head_of_occupied occupied)
  have linked := (sound.represents.chainLinked bucketIdx _ (head_of_occupied occupied)).2
  refine (congrArg (fun table index => IndexBucket.key (table index))
    unlinkSlot_hashTable).trans ((map_update IndexBucket.key ..).trans ?_)
  by_cases isHead : (slotIdx : Int) = (m.hashTable bucketIdx).headSlotIdx
  · have isFirst : slotIdx = first := by omega
    subst isFirst
    rw [cells] at linked
    have ends : (m.dataRecords slotIdx).nextIndex = -1 ↔ rest = [] :=
      linked.2.start_eq_neg_one_iff
    simp only [if_pos isHead, cells, List.cons.injEq, true_and, ends]
    split
    · rfl
    · exact Function.update_eq_self bucketIdx m.keys
  · have notAlone : chain bucketIdx ≠ [slotIdx] := by
      intro alone
      rw [cells, List.cons.injEq] at alone
      omega
    simp only [if_neg isHead, if_neg notEnd, if_neg notAlone]
    exact Function.update_eq_self bucketIdx m.keys

/-- Unlinking a slot that is on no chain changes neither links nor keys. -/
theorem Sound.unlinkSlot_loose (sound : Sound m chain spare) (bounded : slotIdx < maxDataRecords)
    (inUse : (m.dataRecords slotIdx).isUsed = true) (alone : ∀ bucket, slotIdx ∉ chain bucket) :
    (m.unlinkSlot bucketIdx slotIdx).arena = m.arena ∧
      (m.unlinkSlot bucketIdx slotIdx).keys = m.keys := by
  obtain ⟨noNext, noPrev⟩ : (m.dataRecords slotIdx).nextIndex = -1 ∧
      (m.dataRecords slotIdx).prevIndex = -1 := sound.represents.loose slotIdx bounded inUse alone
  have table : ∀ {β : Type} (field : IndexBucket → Option β),
      (∀ bucket : IndexBucket, bucket.nameHash = 0 → field bucket = none) →
      (fun other => field ((m.unlinkSlot bucketIdx slotIdx).hashTable other)) =
        fun other => field (m.hashTable other) := by
    intro β field ofEmpty
    rw [unlinkSlot_hashTable]
    refine map_update_same field ?_
    by_cases empty : (m.hashTable bucketIdx).nameHash = 0
    · rw [ofEmpty _ empty]
      exact ofEmpty _ (by rw [apply_ite IndexBucket.nameHash]; simp [empty])
    · obtain ⟨first, rest, cells, atFirst⟩ :=
        sound.represents.head_eq_cons (head_of_occupied empty)
      have notHead : (slotIdx : Int) ≠ (m.hashTable bucketIdx).headSlotIdx := by
        intro isHead
        have isFirst : slotIdx = first := by omega
        exact alone bucketIdx (by simp [cells, isFirst])
      rw [if_neg notHead, if_neg (by omega)]
  refine ⟨Arena.ext (table IndexBucket.head fun _ empty => if_pos empty) ?_ ?_
    (unlinkSlot_field DNSRecord.isUsed fun _ _ _ => rfl) ?_,
    table IndexBucket.key fun _ empty => if_pos empty⟩
  · exact unlinkSlot_nextIndex.trans (if_neg (by simp [noPrev]))
  · exact unlinkSlot_prevIndex.trans (if_neg (by simp [noNext]))
  · simp only [Mmap.unlinkSlot]
    split <;> split <;> split <;> (try split) <;> rfl

end Unlink

section DeleteFromUuid

variable {m : Mmap} {chain : Nat → List Nat} {spare : List Nat} {slotIdx : Nat}
  {id : CassUuid}

@[simp] theorem unlinkSlot_idHashTable (m : Mmap) (bucketIdx slotIdx : Nat) :
    (m.unlinkSlot bucketIdx slotIdx).idHashTable = m.idHashTable := by
  simp only [Mmap.unlinkSlot]
  split <;> split <;> split <;> (try split) <;> rfl

/-- What a `delete_record_from_uuid` that is not refused leaves behind. -/
structure Removed (m m' : Mmap) (chain : Nat → List Nat) (spare : List Nat)
    (bucketIdx slotIdx : Nat) : Prop where
  sound : Sound m' (Function.update chain bucketIdx ((chain bucketIdx).erase slotIdx))
    (slotIdx :: spare)
  keys : m'.keys =
    if chain bucketIdx = [slotIdx] then Function.update m.keys bucketIdx none else m.keys
  others : ∀ other, other ≠ slotIdx →
    (m'.dataRecords other).response = (m.dataRecords other).response

/-- Releasing an unlinked slot also clears the entry of its id. -/
theorem Sound.deleteRecordFromUuid_eq (sound : Sound m chain spare)
    (found : m.slotOfId id = some slotIdx) :
    m.deleteRecordFromUuid id =
      (true, (m.unlinkSlot (m.dataRecords slotIdx).bucketIdx slotIdx).pushFreeSlot slotIdx) := by
  obtain ⟨bounded, inUse, holds⟩ := sound.slotOfId_eq_some_iff.mp found
  have entry := sound.indexed.complete slotIdx bounded inUse
  simp only [Mmap.deleteRecordFromUuid, found]
  refine congrArg (Prod.mk true) ?_
  generalize unlinkedStore : m.unlinkSlot (m.dataRecords slotIdx).bucketIdx slotIdx = unlinked
  have sameId : (unlinked.dataRecords slotIdx).id = (m.dataRecords slotIdx).id := by
    rw [← unlinkedStore]
    exact congrArg DNSResponseData.id (unlinkSlot_response slotIdx)
  have sameEntry : unlinked.idEntry slotIdx = m.idEntry slotIdx := congrArg idSlot sameId
  have cleared := @Mmap.pushFreeSlot_idHashTable unlinked slotIdx (by
    rw [sameEntry, ← unlinkedStore, unlinkSlot_idHashTable]
    exact entry)
  have ownEntry : idSlot id = unlinked.idEntry slotIdx := by
    rw [sameEntry, ← holds, Mmap.idEntry]
  refine Mmap.ext rfl ?_ rfl rfl
  rw [Mmap.setIdEntry, cleared, ownEntry, Function.update_idem]

/-- **A `delete_record_from_uuid` refuses an id that is not stored, or takes the
slot of the id off its chain.** -/
theorem Sound.deleteRecordFromUuid_cases (sound : Sound m chain spare) (id : CassUuid) :
    (m.slotOfId id = none ∧ m.deleteRecordFromUuid id = (false, m)) ∨
    ∃ slotIdx, m.slotOfId id = some slotIdx ∧ (m.deleteRecordFromUuid id).1 = true ∧
      Removed m (m.deleteRecordFromUuid id).2 chain spare
        (m.dataRecords slotIdx).bucketIdx slotIdx := by
  cases found : m.slotOfId id with
  | none => exact .inl ⟨rfl, by simp only [Mmap.deleteRecordFromUuid, found]⟩
  | some slotIdx =>
      right
      obtain ⟨bounded, inUse, -⟩ := sound.slotOfId_eq_some_iff.mp found
      rw [sound.deleteRecordFromUuid_eq found]
      refine ⟨slotIdx, rfl, rfl, ?_⟩
      have owner : ∀ bucket, slotIdx ∈ chain bucket →
          (m.dataRecords slotIdx).bucketIdx = bucket :=
        fun bucket member => sound.owned bucket slotIdx member
      generalize (m.dataRecords slotIdx).bucketIdx = bucketIdx at owner ⊢
      have linksAndKeys :
          ((m.unlinkSlot bucketIdx slotIdx).arena.release slotIdx).Represents maxDataRecords
            (Function.update chain bucketIdx ((chain bucketIdx).erase slotIdx))
            (slotIdx :: spare) ∧
          (m.unlinkSlot bucketIdx slotIdx).keys =
            if chain bucketIdx = [slotIdx] then Function.update m.keys bucketIdx none
            else m.keys := by
        by_cases member : slotIdx ∈ chain bucketIdx
        · rw [sound.unlinkSlot_arena member]
          exact ⟨sound.represents.remove member, sound.unlinkSlot_keys member⟩
        · have alone : ∀ bucket, slotIdx ∉ chain bucket := by
            intro bucket inBucket
            obtain rfl := owner bucket inBucket
            exact member inBucket
          obtain ⟨sameLinks, sameKeys⟩ :=
            @Sound.unlinkSlot_loose m bucketIdx slotIdx chain spare sound bounded inUse alone
          rw [sameLinks, sameKeys, List.erase_of_not_mem member, Function.update_eq_self, if_neg]
          · exact ⟨sound.represents.releaseLoose bounded inUse alone, rfl⟩
          · intro single
            simp [single] at member
      have indexed : Indexed maxDataRecords idHashTableSize
          (m.unlinkSlot bucketIdx slotIdx).arena.used (m.unlinkSlot bucketIdx slotIdx).idEntry
          (m.unlinkSlot bucketIdx slotIdx).idHashTable := by
        have sameUsed : (m.unlinkSlot bucketIdx slotIdx).arena.used = m.arena.used :=
          unlinkSlot_field DNSRecord.isUsed fun _ _ _ => rfl
        have sameEntries : (m.unlinkSlot bucketIdx slotIdx).idEntry = m.idEntry := by
          funext other
          exact congrArg idSlot (congrArg DNSResponseData.id (unlinkSlot_response other))
        rw [sameUsed, sameEntries, unlinkSlot_idHashTable]
        exact sound.indexed
      have usedAfter : (m.unlinkSlot bucketIdx slotIdx).arena.used slotIdx = true :=
        (congrFun (unlinkSlot_field DNSRecord.isUsed fun _ _ _ => rfl) slotIdx).trans inUse
      have others : ∀ other, other ≠ slotIdx →
          (((m.unlinkSlot bucketIdx slotIdx).pushFreeSlot slotIdx).dataRecords other).response =
            (m.dataRecords other).response := by
        intro other different
        rw [Mmap.pushFreeSlot_of_ne _ different]
        exact unlinkSlot_response other
      refine ⟨⟨?_, Mmap.pushFreeSlot_indexed indexed bounded usedAfter, ?_⟩,
        linksAndKeys.2, others⟩
      · rw [Mmap.pushFreeSlot_arena]
        exact linksAndKeys.1
      · intro bucket other member
        have stays : other ≠ slotIdx ∧ other ∈ chain bucket := by
          by_cases same : bucket = bucketIdx
          · subst same
            rw [Function.update_self] at member
            refine ⟨?_, List.mem_of_mem_erase member⟩
            rintro rfl
            exact List.Nodup.not_mem_erase (sound.represents.chain_nodup bucket) member
          · rw [Function.update_of_ne same] at member
            refine ⟨?_, member⟩
            rintro rfl
            exact same (owner bucket member).symm
        exact (congrArg DNSResponseData.bucketIdx (others other stays.1)).trans
          (sound.owned bucket other stays.2)

/-- After a `delete_record_from_uuid` no slot holds the id. -/
theorem Sound.slotOfId_deleted (sound : Sound m chain spare) (id : CassUuid) :
    (m.deleteRecordFromUuid id).2.slotOfId id = none := by
  rcases sound.deleteRecordFromUuid_cases id with ⟨missing, refused⟩ | ⟨slotIdx, found, -, effect⟩
  · rw [refused]
    exact missing
  · rw [effect.sound.slotOfId_eq_none_iff]
    intro other bounded inUse holds
    have notSpare : other ∉ slotIdx :: spare := by
      intro member
      have unused := ((effect.sound.represents.memSpare other).mp member).2
      exact Bool.false_ne_true (unused.symm.trans inUse)
    have different : other ≠ slotIdx := fun same => notSpare (same ▸ List.mem_cons_self ..)
    have wasUsed : (m.dataRecords other).isUsed = true := by
      by_contra unused
      exact notSpare (List.mem_cons_of_mem _ ((sound.represents.memSpare other).mpr
        ⟨bounded, Bool.eq_false_of_not_eq_true unused⟩))
    have held : (m.dataRecords other).id = id :=
      (congrArg DNSResponseData.id (effect.others other different)).symm.trans holds
    have found' := sound.slotOfId_eq_some_iff.mpr ⟨bounded, wasUsed, held⟩
    exact different (Option.some.inj (found'.symm.trans found))

end DeleteFromUuid

end EdgeDNS.Records
