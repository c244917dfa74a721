import EdgeDNS.Cache.MmapIpGroup
import EdgeDNS.Library.Arena
import EdgeDNS.Library.DirectIndex
import EdgeDNS.Library.KeyedTable

/-!
# What each operation of the address cache writes

The store is seen through the same views as the record cache: its arena, the
keys of its buckets, and the content of every slot. `Sound m chain spare` says
that the links, the free list and the id table fit together.

For each operation one lemma says when it refuses and what the views are after
it. For `delete_record_from_uuid` the effect depends on the bucket where the
second probe arrives (`Mmap.UnlinksOwner`).
-/

set_option autoImplicit false

namespace EdgeDNS.IpGroup

open LinkedArena DirectIndex Probing

/-! ## The views -/

/-- The head of an occupied bucket. -/
def IndexBucket.head (bucket : IndexBucket) : Option Int :=
  if bucket.groupIdHash = 0 then none else some bucket.headSlotIdx

/-- The key of an occupied bucket. -/
def IndexBucket.key (bucket : IndexBucket) : Option (UInt64 × CountryCode) :=
  if bucket.groupIdHash = 0 then none else some (bucket.groupIdHash, bucket.countryCode)

/-- What a slot stores for its entry. -/
@[ext] structure Content where
  groupId : CassUuid
  id : CassUuid
  countryCode : CountryCode
  ip : List UInt8
  priority : Int
deriving DecidableEq, Repr

/-- The stored part of a slot. Of the address it has the bytes that count. -/
def IpGroupEntry.content (entry : IpGroupEntry) : Content where
  groupId := entry.groupId
  id := entry.id
  countryCode := entry.countryCode
  ip := entry.ip.take entry.len
  priority := entry.priority

/-- What a lookup returns of a content. -/
def Content.response (content : Content) : IpGroupEntryResponse where
  id := content.id
  ip := content.ip
  priority := content.priority

namespace Mmap

/-- The links of the entries, without what they hold. -/
def arena (m : Mmap) : Arena where
  head bucketIdx := (m.hashTable bucketIdx).head
  next slotIdx := (m.dataEntries slotIdx).nextIndex
  prev slotIdx := (m.dataEntries slotIdx).prevIndex
  used slotIdx := (m.dataEntries slotIdx).isUsed
  free := m.freeListHeadIdx

/-- The key that each bucket holds. -/
def keys (m : Mmap) (bucketIdx : Nat) : Option (UInt64 × CountryCode) :=
  (m.hashTable bucketIdx).key

/-- What a slot stores. -/
def content (m : Mmap) (slotIdx : Nat) : Content := (m.dataEntries slotIdx).content

/-- The entry of the id table that belongs to a slot. -/
def idEntry (m : Mmap) (slotIdx : Nat) : Nat := idSlot (m.dataEntries slotIdx).id

end Mmap

/-- The start of the probe for a key. -/
def home (key : UInt64 × CountryCode) : Nat := key.1.toNat &&& (hashTableSize - 1)

/-- The step of the probe. -/
abbrev probeStep : Nat → Nat := maskedStep (hashTableSize - 1)

/-- The key under which the bucket table stores a group and a country. -/
def hashKey (groupId : CassUuid) (countryCode : CountryCode) : UInt64 × CountryCode :=
  (calculateHashFromUuid groupId, countryCode)

theorem probeStops_eq (m : Mmap) (hash : UInt64) (countryCode : CountryCode) :
    probeStops m.hashTable hash countryCode = keyStops m.keys (hash, countryCode) := by
  funext index
  rw [Bool.eq_iff_iff]
  rcases eq_or_ne (m.hashTable index).groupIdHash 0 with empty | occupied
  · simp [probeStops, keyStops, Mmap.keys, IndexBucket.key, empty]
  · simp [probeStops, keyStops, Mmap.keys, IndexBucket.key, occupied]

/-- `find_bucket` is the probe for the key of a group and a country. -/
theorem findBucket_eq (m : Mmap) (hash : UInt64) (countryCode : CountryCode) :
    m.findBucket hash countryCode =
      findKey probeStep home hashTableSize m.keys (hash, countryCode) := by
  rw [Mmap.findBucket, probeTable, probeStops_eq]
  rfl

theorem key_eq_none_iff {m : Mmap} {bucketIdx : Nat} :
    m.keys bucketIdx = none ↔ (m.hashTable bucketIdx).groupIdHash = 0 := by
  simp [Mmap.keys, IndexBucket.key]

/-- An occupied bucket stores no zero hash. -/
theorem hash_ne_zero_of_key {m : Mmap} {bucketIdx : Nat} {key : UInt64 × CountryCode}
    (stored : m.keys bucketIdx = some key) : key.1 ≠ 0 := by
  have occupied : (m.hashTable bucketIdx).groupIdHash ≠ 0 := by
    intro empty
    cases (key_eq_none_iff.mpr empty).symm.trans stored
  have same : (m.hashTable bucketIdx).groupIdHash = key.1 := by
    simp only [Mmap.keys, IndexBucket.key, if_neg occupied, Option.some.injEq] at stored
    exact congrArg Prod.fst stored
  exact same ▸ occupied

theorem head_eq_none_iff {m : Mmap} {bucketIdx : Nat} :
    m.arena.head bucketIdx = none ↔ (m.hashTable bucketIdx).groupIdHash = 0 := by
  simp [Mmap.arena, IndexBucket.head]

theorem head_of_occupied {m : Mmap} {bucketIdx : Nat}
    (occupied : (m.hashTable bucketIdx).groupIdHash ≠ 0) :
    m.arena.head bucketIdx = some (m.hashTable bucketIdx).headSlotIdx := by
  simp [Mmap.arena, IndexBucket.head, occupied]

/-! ## Soundness -/

/-- The links, the free list and the id table of a store fit together. -/
structure Sound (m : Mmap) (chain : Nat → List Nat) (spare : List Nat) : Prop where
  represents : m.arena.Represents maxDataRecords chain spare
  indexed : Indexed maxDataRecords idHashTableSize m.arena.used m.idEntry m.idHashTable

theorem idSlot_lt (id : CassUuid) : idSlot id < idHashTableSize := and_lt_succ _ _

/-- The id table gives the slot of an id exactly when a used slot holds it. -/
theorem Sound.slotOfId_eq_some_iff {m : Mmap} {chain : Nat → List Nat} {spare : List Nat}
    (sound : Sound m chain spare) {id : CassUuid} {slotIdx : Nat} :
    m.slotOfId id = some slotIdx ↔
      slotIdx < maxDataRecords ∧ (m.dataEntries slotIdx).isUsed = true ∧
        (m.dataEntries slotIdx).id = id := by
  constructor
  · intro found
    simp only [Mmap.slotOfId] at found
    split at found
    · cases found
    case isFalse entered =>
      split at found
      · cases found
      case isFalse holds =>
        obtain ⟨cell, bounded, inUse, -, atCell⟩ :=
          sound.indexed.sound _ (idSlot_lt id) entered
        rw [atCell, Int.toNat_natCast] at found holds
        cases found
        refine ⟨bounded, inUse, ?_⟩
        push Not at holds
        exact CassUuid.ext holds.2.2 holds.2.1
  · rintro ⟨bounded, inUse, rfl⟩
    have entry : m.idHashTable (idSlot (m.dataEntries slotIdx).id) = (slotIdx : Int) :=
      sound.indexed.complete slotIdx bounded inUse
    simp only [Mmap.slotOfId, entry, Int.toNat_natCast, inUse]
    rw [if_neg (by omega)]
    simp

theorem holdsGroup_iff {m : Mmap} {slotIdx : Nat} {groupId : CassUuid} :
    m.HoldsGroup slotIdx groupId ↔ (m.content slotIdx).groupId = groupId :=
  ⟨fun words => CassUuid.ext words.2 words.1, fun same =>
    ⟨congrArg CassUuid.clockSeqAndNode same, congrArg CassUuid.timeAndVersion same⟩⟩

/-! ## Append -/

/-- What an append that is not refused leaves behind. -/
structure Appended (m m' : Mmap) (bucketIdx slotIdx : Nat) (stored : Content) : Prop where
  arena : m'.arena =
    if calculateHashFromUuid stored.groupId = 0 then m.arena.insertLoose slotIdx
    else m.arena.insertFront bucketIdx slotIdx
  keys : m'.keys =
    if calculateHashFromUuid stored.groupId = 0 then m.keys
    else Function.update m.keys bucketIdx (some (hashKey stored.groupId stored.countryCode))
  idHashTable : m'.idHashTable =
    Function.update m.idHashTable (idSlot stored.id) (slotIdx : Int)
  own : m'.content slotIdx = stored
  others : ∀ other, other ≠ slotIdx → m'.content other = m.content other

/-- An append finds a bucket, a free id entry and a free slot. -/
structure Mmap.CanAppend (m : Mmap) (groupId id : CassUuid) (countryCode : CountryCode) :
    Prop where
  bucket : m.findBucket (calculateHashFromUuid groupId) countryCode ≠ none
  idFree : m.idHashTable (idSlot id) = -1
  spare : m.freeListHeadIdx ≠ -1

/-- The slot of an append, filled but not yet linked. -/
def IpGroupEntry.filled (entry : IpGroupEntry) (stored : Content) : IpGroupEntry :=
  { entry with
    groupId := stored.groupId, id := stored.id, ip := stored.ip ++ entry.ip.drop stored.ip.length,
    len := stored.ip.length, priority := stored.priority, countryCode := stored.countryCode,
    isUsed := true, nextIndex := -1, prevIndex := -1 }

theorem IpGroupEntry.filled_content (entry : IpGroupEntry) (stored : Content) :
    (entry.filled stored).content = stored := by
  simp [IpGroupEntry.content, IpGroupEntry.filled]

/-- The store when an append has filled its slot. -/
def Mmap.filledStore (m : Mmap) (slotIdx : Nat) (stored : Content) : Mmap where
  hashTable := m.hashTable
  idHashTable := Function.update m.idHashTable (idSlot stored.id) (slotIdx : Int)
  dataEntries := Function.update m.dataEntries slotIdx ((m.dataEntries slotIdx).filled stored)
  freeListHeadIdx := (m.dataEntries slotIdx).nextIndex

section Append

variable {m : Mmap} {chain : Nat → List Nat} {spare : List Nat} {slotIdx bucketIdx : Nat}
  {stored : Content}

/-- **Linking a filled slot.** The head of an occupied bucket is another used
slot: the branch that would salvage the chain is never taken. -/
theorem Sound.linkSlot_filled (sound : Sound m chain (slotIdx :: spare))
    (keyHere : m.keys bucketIdx = none ∨
      m.keys bucketIdx = some (hashKey stored.groupId stored.countryCode)) :
    Appended m ((m.filledStore slotIdx stored).linkSlot (calculateHashFromUuid stored.groupId)
      bucketIdx slotIdx) bucketIdx slotIdx stored := by
  rcases eq_or_ne (m.hashTable bucketIdx).groupIdHash 0 with empty | occupied
  · have noHead : m.arena.head bucketIdx = none := head_eq_none_iff.mpr empty
    have sameCode : ((m.filledStore slotIdx stored).dataEntries slotIdx).countryCode =
        stored.countryCode := by
      simp [Mmap.filledStore, IpGroupEntry.filled]
    simp only [Mmap.linkSlot, sameCode]
    simp only [Mmap.filledStore, if_pos empty, Mmap.setEntry, Mmap.setBucket,
      Function.update_self, Function.update_idem]
    refine ⟨?_, ?_, rfl, ?_, fun other different => ?_⟩
    · split
      case isTrue zero =>
        refine Arena.ext ?_ (map_update IpGroupEntry.nextIndex ..)
          (map_update IpGroupEntry.prevIndex ..) (map_update IpGroupEntry.isUsed ..) rfl
        exact map_update_same IndexBucket.head (by simp [IndexBucket.head, zero, empty])
      case isFalse nonzero =>
        rw [Arena.insertFront, noHead]
        refine Arena.ext ?_ (map_update IpGroupEntry.nextIndex ..)
          (map_update IpGroupEntry.prevIndex ..) (map_update IpGroupEntry.isUsed ..) rfl
        refine (map_update IndexBucket.head ..).trans ?_
        simp only [IndexBucket.head, if_neg nonzero]
        rfl
    · split
      case isTrue zero =>
        exact map_update_same IndexBucket.key (by simp [IndexBucket.key, zero, empty])
      case isFalse nonzero =>
        refine (map_update IndexBucket.key ..).trans ?_
        simp only [IndexBucket.key, if_neg nonzero]
        rfl
    · simp only [Mmap.content, Function.update_self]
      exact IpGroupEntry.filled_content (m.dataEntries slotIdx) stored
    · simp only [Mmap.content, Function.update_of_ne different]
  · obtain ⟨first, rest, cells, atFirst⟩ :=
      sound.represents.head_eq_cons (head_of_occupied occupied)
    have member : first ∈ chain bucketIdx := by simp [cells]
    have different : first ≠ slotIdx := sound.represents.used_of_ne_spare member
    have inUse : (m.dataEntries first).isUsed = true :=
      (sound.represents.chainUsed bucketIdx first member).2
    have sameKey := keyHere.resolve_left fun vacant => occupied (key_eq_none_iff.mp vacant)
    have nonzero : calculateHashFromUuid stored.groupId ≠ 0 := hash_ne_zero_of_key sameKey
    have headed : m.arena.head bucketIdx = some (first : Int) := by
      rw [head_of_occupied occupied, atFirst]
    have notSalvage : ¬ ((first : Int) = (slotIdx : Int) ∨
        ((m.filledStore slotIdx stored).dataEntries first).isUsed = false) := by
      simp only [Mmap.filledStore, Function.update_of_ne different, inUse]
      simpa using different
    -- the write to the old head and the writes to the new slot, in either order
    have written : ∀ old new : IpGroupEntry,
        Function.update (Function.update (Function.update m.dataEntries slotIdx
          ((m.dataEntries slotIdx).filled stored)) first old) slotIdx new =
        Function.update (Function.update m.dataEntries first old) slotIdx new := by
      intro old new
      rw [Function.update_comm different.symm, Function.update_idem]
    have sameBucket : (m.filledStore slotIdx stored).hashTable bucketIdx =
        m.hashTable bucketIdx := rfl
    simp only [Mmap.linkSlot, sameBucket, if_neg occupied, atFirst, Int.toNat_natCast,
      if_neg notSalvage]
    simp only [Mmap.setEntry, Mmap.setBucket, Mmap.filledStore, Function.update_of_ne different,
      Function.update_of_ne different.symm, Function.update_self, written]
    refine ⟨?_, ?_, rfl, ?_, fun other notSlot => ?_⟩
    · rw [if_neg nonzero, Arena.insertFront, headed]
      refine Arena.ext ?_ ?_ ?_ ?_ rfl
      · refine (map_update IndexBucket.head ..).trans ?_
        simp only [IndexBucket.head, if_neg occupied]
        rfl
      · refine (map_update IpGroupEntry.nextIndex ..).trans ?_
        refine congrArg (fun array : Nat → Int => Function.update array slotIdx (first : Int)) ?_
        exact map_update_same IpGroupEntry.nextIndex rfl
      · refine (map_update IpGroupEntry.prevIndex ..).trans ?_
        rw [map_update IpGroupEntry.prevIndex]
        rfl
      · refine (map_update IpGroupEntry.isUsed ..).trans ?_
        refine congrArg (fun array : Nat → Bool => Function.update array slotIdx true) ?_
        exact map_update_same IpGroupEntry.isUsed rfl
    · rw [if_neg nonzero, ← sameKey]
      refine (map_update_same IndexBucket.key ?_).trans
        (Function.update_eq_self bucketIdx m.keys).symm
      simp [IndexBucket.key]
    · simp only [Mmap.content, Function.update_self]
      exact IpGroupEntry.filled_content (m.dataEntries slotIdx) stored
    · simp only [Mmap.content, Function.update_of_ne notSlot]
      rcases eq_or_ne other first with rfl | notFirst
      · simp only [Function.update_self]
        rfl
      · simp only [Function.update_of_ne notFirst]

/-- **An append refuses or takes the first spare slot.** -/
theorem Sound.appendRecord_cases (sound : Sound m chain spare) (groupId id : CassUuid)
    (countryCode : CountryCode) (val : Address) (priority : Int) :
    m.appendRecord groupId id countryCode val priority = (false, m) ∧
      ¬ m.CanAppend groupId id countryCode ∨
    ∃ bucketIdx slotIdx rest, spare = slotIdx :: rest ∧
      m.findBucket (calculateHashFromUuid groupId) countryCode = some bucketIdx ∧
      m.idHashTable (idSlot id) = -1 ∧
      (m.appendRecord groupId id countryCode val priority).1 = true ∧
      Appended m (m.appendRecord groupId id countryCode val priority).2 bucketIdx slotIdx
        ⟨groupId, id, countryCode, val.bytes, priority⟩ := by
  cases ends : m.findBucket (calculateHashFromUuid groupId) countryCode with
  | none =>
      exact .inl ⟨by simp only [Mmap.appendRecord, ends], fun can => can.bucket ends⟩
  | some bucketIdx =>
      by_cases free : m.idHashTable (idSlot id) = -1
      case neg =>
        left
        refine ⟨?_, fun can => free can.idFree⟩
        simp only [Mmap.appendRecord, ends, ne_eq, free, not_false_eq_true, if_true]
      cases spare with
      | nil =>
          have exhausted : m.freeListHeadIdx = -1 := sound.represents.spareLinked
          left
          refine ⟨?_, fun can => can.spare exhausted⟩
          simp only [Mmap.appendRecord, ends, free, ne_eq, not_true_eq_false, if_false,
            Mmap.popFreeSlot, exhausted, if_true]
      | cons slotIdx rest =>
          right
          have head : m.freeListHeadIdx = (slotIdx : Int) := sound.represents.spareLinked.1
          have popped : m.popFreeSlot = some (slotIdx, { m with
              dataEntries := Function.update m.dataEntries slotIdx
                { m.dataEntries slotIdx with isUsed := true, nextIndex := -1, prevIndex := -1 }
              freeListHeadIdx := (m.dataEntries slotIdx).nextIndex }) := by
            simp only [Mmap.popFreeSlot, head, Int.toNat_natCast, Mmap.setEntry]
            rw [if_neg (by omega)]
          have appended : m.appendRecord groupId id countryCode val priority =
              (true, (m.filledStore slotIdx
                ⟨groupId, id, countryCode, val.bytes, priority⟩).linkSlot
                  (calculateHashFromUuid groupId) bucketIdx slotIdx) := by
            simp only [Mmap.appendRecord, ends, free, ne_eq, not_true_eq_false, if_false, popped,
              Mmap.fillSlot, Mmap.setIdEntry, Mmap.setEntry, Function.update_self,
              Function.update_idem]
            rfl
          have keyHere := key_of_findKey ((findBucket_eq ..).symm.trans ends)
          refine ⟨bucketIdx, slotIdx, rest, rfl, rfl, free, by rw [appended], ?_⟩
          rw [appended]
          exact sound.linkSlot_filled keyHere

theorem Appended.used {m' : Mmap} (effect : Appended m m' bucketIdx slotIdx stored) :
    m'.arena.used = Function.update m.arena.used slotIdx true := by
  rw [effect.arena]
  split
  · rfl
  · rw [Arena.insertFront]
    split <;> rfl

/-- The chains after an append. -/
theorem Sound.appended {m' : Mmap} (sound : Sound m chain (slotIdx :: spare))
    (effect : Appended m m' bucketIdx slotIdx stored)
    (free : m.idHashTable (idSlot stored.id) = -1) :
    Sound m' (if calculateHashFromUuid stored.groupId = 0 then chain
      else Function.update chain bucketIdx (slotIdx :: chain bucketIdx)) spare := by
  have unused := (sound.represents.memSpare slotIdx).mp (List.mem_cons_self ..)
  have entries : m'.idEntry = Function.update m.idEntry slotIdx (idSlot stored.id) := by
    funext other
    rcases eq_or_ne other slotIdx with rfl | different
    · have own : (m'.dataEntries other).id = stored.id := congrArg Content.id effect.own
      rw [Function.update_self, Mmap.idEntry, own]
    · have kept : (m'.dataEntries other).id = (m.dataEntries other).id :=
        congrArg Content.id (effect.others other different)
      rw [Function.update_of_ne different, Mmap.idEntry, Mmap.idEntry, kept]
  constructor
  · rw [effect.arena]
    split
    · exact sound.represents.insertLoose
    · exact sound.represents.insertFront bucketIdx
  · rw [entries, effect.used, effect.idHashTable]
    exact sound.indexed.insert unused.1 unused.2 free

end Append

/-! ## Update -/

/-- What an update that is not refused leaves behind. -/
structure Updated (m m' : Mmap) (slotIdx : Nat) (stored : Content) : Prop where
  arena : m'.arena = m.arena
  keys : m'.keys = m.keys
  idHashTable : m'.idHashTable = m.idHashTable
  own : m'.content slotIdx = stored
  others : ∀ other, other ≠ slotIdx → m'.content other = m.content other

section Update

variable {m : Mmap} {chain : Nat → List Nat} {spare : List Nat} {slotIdx : Nat}

/-- **An update refuses or rewrites the slot of its id**, if that slot belongs to
the given group. -/
theorem Sound.updateRecord_cases (sound : Sound m chain spare) (groupId id : CassUuid)
    (countryCode : CountryCode) (val : Address) (priority : Int) :
    m.updateRecord groupId id countryCode val priority = (false, m) ∧
      (∀ slotIdx, m.slotOfId id = some slotIdx → (m.content slotIdx).groupId ≠ groupId) ∨
    ∃ slotIdx, m.slotOfId id = some slotIdx ∧ (m.content slotIdx).groupId = groupId ∧
      (m.updateRecord groupId id countryCode val priority).1 = true ∧
      Updated m (m.updateRecord groupId id countryCode val priority).2 slotIdx
        ⟨groupId, id, countryCode, val.bytes, priority⟩ := by
  cases found : m.slotOfId id with
  | none => exact .inl ⟨by simp only [Mmap.updateRecord, found], fun _ other => by cases other⟩
  | some slotIdx =>
      by_cases holds : m.HoldsGroup slotIdx groupId
      case neg =>
        left
        refine ⟨by simp only [Mmap.updateRecord, found, if_neg holds], fun other same => ?_⟩
        cases same
        exact mt holdsGroup_iff.mpr holds
      right
      obtain ⟨-, -, sameId⟩ := sound.slotOfId_eq_some_iff.mp found
      have sameGroup := holdsGroup_iff.mp holds
      refine ⟨slotIdx, rfl, sameGroup, by simp only [Mmap.updateRecord, found, if_pos holds], ?_⟩
      simp only [Mmap.updateRecord, found, if_pos holds, Mmap.setEntry]
      refine ⟨?_, rfl, rfl, ?_, fun other different => ?_⟩
      · exact Arena.ext rfl (map_update_same IpGroupEntry.nextIndex rfl)
          (map_update_same IpGroupEntry.prevIndex rfl) (map_update_same IpGroupEntry.isUsed rfl) rfl
      · have group : (m.dataEntries slotIdx).groupId = groupId := sameGroup
        simp [Mmap.content, IpGroupEntry.content, group, sameId]
      · simp only [Mmap.content, Function.update_of_ne different]

/-- An update changes no chain. -/
theorem Sound.updated {m' : Mmap} {stored : Content} (sound : Sound m chain spare)
    (effect : Updated m m' slotIdx stored) (found : m.slotOfId stored.id = some slotIdx) :
    Sound m' chain spare := by
  obtain ⟨-, -, holds⟩ := sound.slotOfId_eq_some_iff.mp found
  have entries : m'.idEntry = m.idEntry := by
    funext other
    rcases eq_or_ne other slotIdx with rfl | different
    · exact congrArg idSlot ((congrArg Content.id effect.own).trans holds.symm)
    · exact congrArg idSlot (congrArg Content.id (effect.others other different))
  constructor
  · rw [effect.arena]
    exact sound.represents
  · rw [entries, effect.arena, effect.idHashTable]
    exact sound.indexed

end Update

/-! ## Releasing slots -/

namespace Mmap

theorem pushFreeSlot_arena (m : Mmap) (slotIdx : Nat) :
    (m.pushFreeSlot slotIdx).arena = m.arena.release slotIdx :=
  Arena.ext rfl (map_update IpGroupEntry.nextIndex ..) (map_update IpGroupEntry.prevIndex ..)
    (map_update IpGroupEntry.isUsed ..) rfl

theorem pushFreeSlot_idEntry (m : Mmap) (slotIdx : Nat) :
    (m.pushFreeSlot slotIdx).idEntry = Function.update m.idEntry slotIdx (idSlot ⟨0, 0⟩) := by
  funext other
  rcases eq_or_ne other slotIdx with rfl | different
  · simp only [Mmap.idEntry, pushFreeSlot, setEntry, Function.update_self]
  · simp only [Mmap.idEntry, pushFreeSlot, setEntry, Function.update_of_ne different]

theorem pushFreeSlot_content_of_ne (m : Mmap) {slotIdx other : Nat} (different : other ≠ slotIdx) :
    (m.pushFreeSlot slotIdx).content other = m.content other := by
  simp only [content, pushFreeSlot, setEntry, Function.update_of_ne different]

/-- Release a slot together with its id entry. -/
def releaseSlot (m : Mmap) (slotIdx : Nat) : Mmap := (m.clearIdEntry slotIdx).pushFreeSlot slotIdx

theorem clearIdEntry_arena (m : Mmap) (slotIdx : Nat) :
    (m.clearIdEntry slotIdx).arena = m.arena := by
  rw [clearIdEntry]
  split <;> rfl

theorem clearIdEntry_dataEntries (m : Mmap) (slotIdx : Nat) :
    (m.clearIdEntry slotIdx).dataEntries = m.dataEntries := by
  rw [clearIdEntry]
  split <;> rfl

theorem clearIdEntry_hashTable (m : Mmap) (slotIdx : Nat) :
    (m.clearIdEntry slotIdx).hashTable = m.hashTable := by
  rw [clearIdEntry]
  split <;> rfl

theorem releaseSlot_arena (m : Mmap) (slotIdx : Nat) :
    (m.releaseSlot slotIdx).arena = m.arena.release slotIdx := by
  rw [releaseSlot, pushFreeSlot_arena, clearIdEntry_arena]

theorem releaseSlot_content_of_ne (m : Mmap) {slotIdx other : Nat} (different : other ≠ slotIdx) :
    (m.releaseSlot slotIdx).content other = m.content other := by
  rw [releaseSlot, pushFreeSlot_content_of_ne _ different, content, clearIdEntry_dataEntries]
  rfl

theorem releaseSlot_indexed {m : Mmap} {slotIdx : Nat}
    (indexed : Indexed maxDataRecords idHashTableSize m.arena.used m.idEntry m.idHashTable)
    (bounded : slotIdx < maxDataRecords) (inUse : m.arena.used slotIdx = true) :
    Indexed maxDataRecords idHashTableSize (m.releaseSlot slotIdx).arena.used
      (m.releaseSlot slotIdx).idEntry (m.releaseSlot slotIdx).idHashTable := by
  have entry : m.idHashTable (m.idEntry slotIdx) = (slotIdx : Int) :=
    indexed.complete slotIdx bounded inUse
  have cleared : (m.releaseSlot slotIdx).idHashTable =
      Function.update m.idHashTable (m.idEntry slotIdx) (-1) :=
    congrArg Mmap.idHashTable (if_pos entry)
  have entries : (m.clearIdEntry slotIdx).idEntry = m.idEntry := by
    funext other
    rw [idEntry, clearIdEntry_dataEntries]
    rfl
  rw [releaseSlot_arena, cleared, releaseSlot, pushFreeSlot_idEntry, entries]
  exact indexed.erase bounded inUse _

/-- Release slots one after the other. -/
def releaseSlots (m : Mmap) (slots : List Nat) : Mmap := slots.foldl releaseSlot m

theorem releaseSlots_cons (m : Mmap) (slotIdx : Nat) (slots : List Nat) :
    m.releaseSlots (slotIdx :: slots) = (m.releaseSlot slotIdx).releaseSlots slots := rfl

theorem releaseSlots_arena (m : Mmap) (slots : List Nat) :
    (m.releaseSlots slots).arena = m.arena.releaseAll slots := by
  induction slots generalizing m with
  | nil => rfl
  | cons slotIdx slots ih =>
      rw [releaseSlots_cons, ih, releaseSlot_arena, Arena.releaseAll_cons]

theorem releaseSlots_hashTable (m : Mmap) (slots : List Nat) :
    (m.releaseSlots slots).hashTable = m.hashTable := by
  induction slots generalizing m with
  | nil => rfl
  | cons slotIdx slots ih =>
      rw [releaseSlots_cons, ih]
      exact clearIdEntry_hashTable m slotIdx

theorem releaseSlots_content_of_notMem {m : Mmap} {slots : List Nat} {other : Nat}
    (outside : other ∉ slots) : (m.releaseSlots slots).content other = m.content other := by
  induction slots generalizing m with
  | nil => rfl
  | cons slotIdx slots ih =>
      have different : other ≠ slotIdx := fun same => outside (same ▸ List.mem_cons_self ..)
      rw [releaseSlots_cons, ih fun member => outside (List.mem_cons_of_mem _ member),
        releaseSlot_content_of_ne m different]

theorem releaseSlots_indexed {m : Mmap} {slots : List Nat}
    (indexed : Indexed maxDataRecords idHashTableSize m.arena.used m.idEntry m.idHashTable)
    (inUse : ∀ slotIdx ∈ slots, slotIdx < maxDataRecords ∧ m.arena.used slotIdx = true)
    (distinct : slots.Nodup) :
    Indexed maxDataRecords idHashTableSize (m.releaseSlots slots).arena.used
      (m.releaseSlots slots).idEntry (m.releaseSlots slots).idHashTable := by
  induction slots generalizing m with
  | nil => exact indexed
  | cons slotIdx slots ih =>
      obtain ⟨bounded, used⟩ := inUse slotIdx (List.mem_cons_self ..)
      refine ih (releaseSlot_indexed indexed bounded used) (fun other member => ?_)
        (List.nodup_cons.mp distinct).2
      have different : other ≠ slotIdx := by
        rintro rfl
        exact (List.nodup_cons.mp distinct).1 member
      obtain ⟨otherBounded, otherUsed⟩ := inUse other (List.mem_cons_of_mem _ member)
      refine ⟨otherBounded, ?_⟩
      rw [releaseSlot_arena]
      simpa [Arena.release, Function.update_of_ne different] using otherUsed

/-- The loop of `delete_record` releases exactly the slots of the chain. -/
theorem deleteLoop_eq {slots : List Nat} {m : Mmap} {start : Int} {left : Nat}
    (linked : Linked m.arena.next start slots)
    (bounded : ∀ slotIdx ∈ slots, slotIdx < maxDataRecords) (enough : slots.length ≤ left) :
    deleteLoop left m start = m.releaseSlots slots := by
  induction slots generalizing m start left with
  | nil =>
      have outside : ¬ InSlotRange start := by
        have ended : start = -1 := linked
        simp [InSlotRange, ended]
      cases left with
      | zero => rfl
      | succ left => exact if_neg outside
  | cons slotIdx slots ih =>
      obtain ⟨left, rfl⟩ : ∃ left', left = left' + 1 :=
        Nat.exists_eq_succ_of_ne_zero (Nat.ne_of_gt (Nat.lt_of_lt_of_le (Nat.succ_pos _) enough))
      have inside : slotIdx < maxDataRecords := bounded slotIdx (List.mem_cons_self ..)
      obtain rfl : start = (slotIdx : Int) := linked.1
      rw [deleteLoop, if_pos ⟨by omega, by omega⟩, Int.toNat_natCast, releaseSlots_cons]
      refine ih ?_ (fun other member => bounded other (List.mem_cons_of_mem _ member))
        (Nat.le_of_succ_le_succ enough)
      have released : ((m.clearIdEntry slotIdx).pushFreeSlot slotIdx).arena =
          m.arena.release slotIdx := releaseSlot_arena m slotIdx
      rw [released]
      exact linked.2.update_of_notMem (List.nodup_cons.mp linked.nodup).1 _

end Mmap

/-! ## Deleting a key -/

section Delete

variable {m : Mmap} {chain : Nat → List Nat} {spare : List Nat}

/-- What a `delete_record` that is not refused leaves behind. -/
structure Cleared (m m' : Mmap) (chain : Nat → List Nat) (spare : List Nat)
    (bucketIdx : Nat) : Prop where
  sound : Sound m' (Function.update chain bucketIdx []) ((chain bucketIdx).reverse ++ spare)
  keys : m'.keys = Function.update m.keys bucketIdx none
  others : ∀ other, other ∉ chain bucketIdx → m'.content other = m.content other

/-- **A `delete_record` refuses or empties the bucket where its probe ends.** It
refuses when the bucket is empty or its first entry belongs to another group. -/
theorem Sound.deleteRecord_cases (sound : Sound m chain spare) (groupId : CassUuid)
    (countryCode : CountryCode) :
    (m.deleteRecord groupId countryCode = (false, m) ∧
      ∀ bucketIdx,
        m.findBucket (calculateHashFromUuid groupId) countryCode = some bucketIdx →
        ∀ first rest, chain bucketIdx = first :: rest → (m.content first).groupId ≠ groupId) ∨
    ∃ bucketIdx first rest,
      m.findBucket (calculateHashFromUuid groupId) countryCode = some bucketIdx ∧
      m.keys bucketIdx = some (hashKey groupId countryCode) ∧
      chain bucketIdx = first :: rest ∧ (m.content first).groupId = groupId ∧
      (m.deleteRecord groupId countryCode).1 = true ∧
      Cleared m (m.deleteRecord groupId countryCode).2 chain spare bucketIdx := by
  cases ends : m.findBucket (calculateHashFromUuid groupId) countryCode with
  | none => exact .inl ⟨by simp only [Mmap.deleteRecord, ends], fun _ other => by cases other⟩
  | some bucketIdx =>
      rcases eq_or_ne (m.hashTable bucketIdx).groupIdHash 0 with empty | occupied
      · left
        refine ⟨by simp only [Mmap.deleteRecord, ends, if_pos empty], fun other same => ?_⟩
        cases same
        rw [sound.represents.vacant bucketIdx (head_eq_none_iff.mpr empty)]
        intro first rest impossible
        cases impossible
      obtain ⟨first, rest, cells, atFirst⟩ :=
        sound.represents.head_eq_cons (head_of_occupied occupied)
      by_cases holds : m.HoldsGroup first groupId
      case neg =>
        left
        refine ⟨by simp only [Mmap.deleteRecord, ends, if_neg occupied, atFirst,
          Int.toNat_natCast, if_neg holds], fun other same => ?_⟩
        cases same
        intro first' rest' split
        obtain ⟨rfl, -⟩ := List.cons.inj (cells.symm.trans split)
        exact mt holdsGroup_iff.mpr holds
      right
      have keyHere := key_of_findKey ((findBucket_eq ..).symm.trans ends)
      have stored := keyHere.resolve_left fun vacant => occupied (key_eq_none_iff.mp vacant)
      have linked := (sound.represents.chainLinked bucketIdx _ (head_of_occupied occupied)).2
      have inUse := sound.represents.chainUsed bucketIdx
      have walked := Mmap.deleteLoop_eq linked (fun other member => (inUse other member).1)
        (sound.represents.chain_length_le bucketIdx)
      have deleted : m.deleteRecord groupId countryCode =
          (true, (m.releaseSlots (chain bucketIdx)).setBucket bucketIdx ⟨0, .empty, -1⟩) := by
        rw [atFirst] at walked
        simp only [Mmap.deleteRecord, ends, if_neg occupied, atFirst, Int.toNat_natCast,
          if_pos holds, walked]
      refine ⟨bucketIdx, first, rest, rfl, stored, cells, holdsGroup_iff.mp holds,
        by rw [deleted], ?_⟩
      rw [deleted]
      have arenaAfter : ((m.releaseSlots (chain bucketIdx)).setBucket bucketIdx
          ⟨0, .empty, -1⟩).arena = (m.arena.releaseAll (chain bucketIdx)).vacate bucketIdx := by
        rw [← Mmap.releaseSlots_arena]
        exact Arena.ext (map_update IndexBucket.head ..) rfl rfl rfl rfl
      refine ⟨⟨?_, ?_⟩, ?_, fun other outside => Mmap.releaseSlots_content_of_notMem outside⟩
      · rw [arenaAfter]
        exact sound.represents.clear bucketIdx
      · exact Mmap.releaseSlots_indexed sound.indexed inUse
          (sound.represents.chain_nodup bucketIdx)
      · refine (map_update IndexBucket.key ..).trans ?_
        rw [Mmap.releaseSlots_hashTable]
        rfl

end Delete

/-! ## Deleting an id -/

section Unlink

variable {m : Mmap} {bucketIdx slotIdx : Nat}

/-- The bucket table after unlinking a slot: the head moves on when the slot is
the head, and the key goes when no slot is left. -/
theorem unlinkSlot_hashTable : (m.unlinkSlot bucketIdx slotIdx).hashTable =
    Function.update m.hashTable bucketIdx
      (let head := if (slotIdx : Int) = (m.hashTable bucketIdx).headSlotIdx then
          (m.dataEntries slotIdx).nextIndex else (m.hashTable bucketIdx).headSlotIdx
       if head = -1 then ⟨0, .empty, head⟩
       else { m.hashTable bucketIdx with headSlotIdx := head }) := by
  by_cases headed : (slotIdx : Int) = (m.hashTable bucketIdx).headSlotIdx
  · simp only [Mmap.unlinkSlot, Mmap.setBucket, Mmap.setEntry, if_pos headed]
    split <;> split <;> simp_all
  · simp only [Mmap.unlinkSlot, Mmap.setBucket, Mmap.setEntry, if_neg headed]
    split <;> split <;> split <;> simp_all

/-- The slots after the predecessor of a slot that is not the head points past
it. -/
def Mmap.redirected (m : Mmap) (bucketIdx slotIdx : Nat) : Nat → IpGroupEntry :=
  let prev := (m.dataEntries slotIdx).prevIndex
  if (slotIdx : Int) ≠ (m.hashTable bucketIdx).headSlotIdx ∧ prev ≠ -1 then
    Function.update m.dataEntries prev.toNat
      { m.dataEntries prev.toNat with nextIndex := (m.dataEntries slotIdx).nextIndex }
  else m.dataEntries

theorem unlinkSlot_dataEntries : (m.unlinkSlot bucketIdx slotIdx).dataEntries =
    if (m.dataEntries slotIdx).nextIndex ≠ -1 then
      Function.update (m.redirected bucketIdx slotIdx) (m.dataEntries slotIdx).nextIndex.toNat
        { m.redirected bucketIdx slotIdx (m.dataEntries slotIdx).nextIndex.toNat with
          prevIndex := (m.dataEntries slotIdx).prevIndex }
    else m.redirected bucketIdx slotIdx := by
  simp only [Mmap.unlinkSlot, Mmap.redirected, apply_ite Mmap.dataEntries,
    Mmap.setBucket_dataEntries, Mmap.setEntry_dataEntries, ite_self]
  by_cases headed : (slotIdx : Int) = (m.hashTable bucketIdx).headSlotIdx
  · simp [headed]
  · simp [headed]

/-- A field other than the links keeps its value in every slot. -/
theorem unlinkSlot_field {β : Type*} (field : IpGroupEntry → β)
    (noLink : ∀ (entry : IpGroupEntry) (nextIndex prevIndex : Int),
      field { entry with nextIndex := nextIndex, prevIndex := prevIndex } = field entry) :
    (fun other => field ((m.unlinkSlot bucketIdx slotIdx).dataEntries other)) =
      fun other => field (m.dataEntries other) := by
  have redirects : (fun other => field (m.redirected bucketIdx slotIdx other)) =
      fun other => field (m.dataEntries other) := by
    unfold Mmap.redirected
    split
    · exact map_update_same field (noLink _ _ _)
    · rfl
  rw [unlinkSlot_dataEntries]
  split
  · exact (map_update_same field (noLink _ _ _)).trans redirects
  · exact redirects

theorem unlinkSlot_content (m : Mmap) (bucketIdx slotIdx other : Nat) :
    (m.unlinkSlot bucketIdx slotIdx).content other = m.content other :=
  congrFun (unlinkSlot_field IpGroupEntry.content fun _ _ _ => rfl) other

theorem unlinkSlot_nextIndex :
    (fun other => ((m.unlinkSlot bucketIdx slotIdx).dataEntries other).nextIndex) =
      if (slotIdx : Int) ≠ (m.hashTable bucketIdx).headSlotIdx ∧
          (m.dataEntries slotIdx).prevIndex ≠ -1 then
        Function.update (fun other => (m.dataEntries other).nextIndex)
          (m.dataEntries slotIdx).prevIndex.toNat (m.dataEntries slotIdx).nextIndex
      else fun other => (m.dataEntries other).nextIndex := by
  have redirects : (fun other => (m.redirected bucketIdx slotIdx other).nextIndex) =
      if (slotIdx : Int) ≠ (m.hashTable bucketIdx).headSlotIdx ∧
          (m.dataEntries slotIdx).prevIndex ≠ -1 then
        Function.update (fun other => (m.dataEntries other).nextIndex)
          (m.dataEntries slotIdx).prevIndex.toNat (m.dataEntries slotIdx).nextIndex
      else fun other => (m.dataEntries other).nextIndex := by
    unfold Mmap.redirected
    split
    · exact map_update IpGroupEntry.nextIndex ..
    · rfl
  rw [unlinkSlot_dataEntries, ← redirects]
  split
  · exact map_update_same IpGroupEntry.nextIndex rfl
  · rfl

theorem unlinkSlot_prevIndex :
    (fun other => ((m.unlinkSlot bucketIdx slotIdx).dataEntries other).prevIndex) =
      if (m.dataEntries slotIdx).nextIndex ≠ -1 then
        Function.update (fun other => (m.dataEntries other).prevIndex)
          (m.dataEntries slotIdx).nextIndex.toNat (m.dataEntries slotIdx).prevIndex
      else fun other => (m.dataEntries other).prevIndex := by
  have redirects : (fun other => (m.redirected bucketIdx slotIdx other).prevIndex) =
      fun other => (m.dataEntries other).prevIndex := by
    unfold Mmap.redirected
    split
    · exact map_update_same IpGroupEntry.prevIndex rfl
    · rfl
  rw [unlinkSlot_dataEntries, ← redirects]
  split
  · exact map_update IpGroupEntry.prevIndex ..
  · rfl

@[simp] theorem unlinkSlot_idHashTable (m : Mmap) (bucketIdx slotIdx : Nat) :
    (m.unlinkSlot bucketIdx slotIdx).idHashTable = m.idHashTable := by
  simp only [Mmap.unlinkSlot]
  split <;> split <;> split <;> (try split) <;> rfl

@[simp] theorem unlinkSlot_freeListHeadIdx (m : Mmap) (bucketIdx slotIdx : Nat) :
    (m.unlinkSlot bucketIdx slotIdx).freeListHeadIdx = m.freeListHeadIdx := by
  simp only [Mmap.unlinkSlot]
  split <;> split <;> split <;> (try split) <;> rfl

variable {chain : Nat → List Nat} {spare : List Nat}

/-- The probe of a deletion arrives where unlinking the slot takes it off its
chain: at the occupied bucket that has the slot as its head, or, when the slot
has a predecessor, at any bucket that does not name the slot as its head. -/
def Mmap.UnlinksOwner (m : Mmap) (bucketIdx slotIdx : Nat) : Prop :=
  if (m.dataEntries slotIdx).prevIndex = -1 then
    (m.hashTable bucketIdx).groupIdHash ≠ 0 ∧
      (m.hashTable bucketIdx).headSlotIdx = (slotIdx : Int)
  else (m.hashTable bucketIdx).headSlotIdx ≠ (slotIdx : Int)

instance (m : Mmap) (bucketIdx slotIdx : Nat) : Decidable (m.UnlinksOwner bucketIdx slotIdx) :=
  inferInstanceAs (Decidable (ite _ _ _))

/-- The bucket that owns a slot is occupied, and it has the slot as its head
exactly when the slot has no predecessor. -/
theorem Sound.owner_head (sound : Sound m chain spare) {owner : Nat}
    (member : slotIdx ∈ chain owner) :
    (m.hashTable owner).groupIdHash ≠ 0 ∧ (m.hashTable owner).headSlotIdx ≠ -1 ∧
      (m.arena.head owner = some (slotIdx : Int) ↔ (m.dataEntries slotIdx).prevIndex = -1) ∧
      ((m.hashTable owner).headSlotIdx = (slotIdx : Int) ↔
        (m.dataEntries slotIdx).prevIndex = -1) := by
  have occupied : (m.hashTable owner).groupIdHash ≠ 0 := by
    intro empty
    rw [sound.represents.vacant owner (head_eq_none_iff.mpr empty)] at member
    cases member
  obtain ⟨first, -, -, atFirst⟩ := sound.represents.head_eq_cons (head_of_occupied occupied)
  obtain ⟨front, behind, split⟩ := List.append_of_mem member
  have back := sound.represents.chainBack owner
  rw [split] at back
  have heads := (sound.represents.head_eq_cell_iff split).trans back.prev_eq_neg_one_iff.symm
  refine ⟨occupied, by omega, heads, ?_⟩
  rw [head_of_occupied occupied, Option.some.injEq] at heads
  exact heads

/-- A bucket that has the slot as its head owns it. -/
theorem Sound.owner_eq (sound : Sound m chain spare) {owner : Nat}
    (member : slotIdx ∈ chain owner) (occupied : (m.hashTable bucketIdx).groupIdHash ≠ 0)
    (isHead : (m.hashTable bucketIdx).headSlotIdx = (slotIdx : Int)) : bucketIdx = owner := by
  obtain ⟨first, rest, cells, atFirst⟩ :=
    sound.represents.head_eq_cons (head_of_occupied occupied)
  have isFirst : first = slotIdx := by omega
  exact sound.represents.disjoint bucketIdx owner slotIdx (by simp [cells, isFirst]) member

/-- A view of the buckets that forgets what empty buckets hold does not change
when a slot with a predecessor is unlinked. -/
theorem Sound.unlinkSlot_view {β : Type*} (sound : Sound m chain spare)
    (field : IndexBucket → Option β)
    (ofEmpty : ∀ bucket : IndexBucket, bucket.groupIdHash = 0 → field bucket = none)
    (notHead : (m.hashTable bucketIdx).headSlotIdx ≠ (slotIdx : Int)) :
    (fun other => field ((m.unlinkSlot bucketIdx slotIdx).hashTable other)) =
      fun other => field (m.hashTable other) := by
  rw [unlinkSlot_hashTable]
  refine map_update_same field ?_
  simp only [if_neg notHead.symm]
  rcases eq_or_ne (m.hashTable bucketIdx).groupIdHash 0 with empty | occupied
  · rw [ofEmpty _ empty]
    refine ofEmpty _ ?_
    rw [apply_ite IndexBucket.groupIdHash]
    simp [empty]
  · obtain ⟨first, -, -, atFirst⟩ := sound.represents.head_eq_cons (head_of_occupied occupied)
    rw [if_neg (by omega)]

/-- **Unlinking takes the slot off the chain of its owner**, when the probe has
arrived at a bucket where it can. -/
theorem Sound.unlinkSlot_arena (sound : Sound m chain spare) {owner : Nat}
    (member : slotIdx ∈ chain owner) (arrives : m.UnlinksOwner bucketIdx slotIdx) :
    (m.unlinkSlot bucketIdx slotIdx).arena = m.arena.unlink owner slotIdx := by
  obtain ⟨occupied, notEnd, headed, isHead⟩ := sound.owner_head member
  by_cases first : (m.dataEntries slotIdx).prevIndex = -1
  · rw [Mmap.UnlinksOwner, if_pos first] at arrives
    obtain rfl := sound.owner_eq member arrives.1 arrives.2
    refine Arena.ext ?_ ?_ unlinkSlot_prevIndex
      (unlinkSlot_field IpGroupEntry.isUsed fun _ _ _ => rfl) (unlinkSlot_freeListHeadIdx ..)
    · refine (congrArg (fun table index => IndexBucket.head (table index))
        unlinkSlot_hashTable).trans ((map_update IndexBucket.head ..).trans ?_)
      simp only [Arena.unlink, if_pos (headed.mpr first), if_pos (isHead.mpr first).symm]
      refine congrArg (Function.update m.arena.head bucketIdx) ?_
      rw [apply_ite IndexBucket.head]
      simp only [IndexBucket.head, if_neg occupied]
      rfl
    · refine unlinkSlot_nextIndex.trans ?_
      simp only [Arena.unlink, headed.mpr first, ne_eq, first, not_true_eq_false, and_false,
        if_false]
      rfl
  · rw [Mmap.UnlinksOwner, if_neg first] at arrives
    have notHeaded : m.arena.head owner ≠ some (slotIdx : Int) := mt headed.mp first
    refine Arena.ext ?_ ?_ unlinkSlot_prevIndex
      (unlinkSlot_field IpGroupEntry.isUsed fun _ _ _ => rfl) (unlinkSlot_freeListHeadIdx ..)
    · rw [Arena.unlink, if_neg notHeaded]
      exact sound.unlinkSlot_view IndexBucket.head (fun _ empty => if_pos empty) arrives
    · refine unlinkSlot_nextIndex.trans ?_
      have here : m.arena.prev slotIdx ≠ -1 := first
      rw [if_pos ⟨arrives.symm, first⟩]
      exact (if_pos ⟨notHeaded, here⟩).symm

/-- The key of the owner goes with its last slot. -/
theorem Sound.unlinkSlot_keys (sound : Sound m chain spare) {owner : Nat}
    (member : slotIdx ∈ chain owner) (arrives : m.UnlinksOwner bucketIdx slotIdx) :
    (m.unlinkSlot bucketIdx slotIdx).keys =
      if chain owner = [slotIdx] then Function.update m.keys owner none else m.keys := by
  obtain ⟨occupied, notEnd, headed, isHead⟩ := sound.owner_head member
  obtain ⟨head, rest, cells, atHead⟩ :=
    sound.represents.head_eq_cons (head_of_occupied occupied)
  by_cases first : (m.dataEntries slotIdx).prevIndex = -1
  · rw [Mmap.UnlinksOwner, if_pos first] at arrives
    obtain rfl := sound.owner_eq member arrives.1 arrives.2
    have linked := (sound.represents.chainLinked bucketIdx _ (head_of_occupied occupied)).2
    have atSlot := isHead.mpr first
    obtain rfl : head = slotIdx := by omega
    rw [cells] at linked
    have ends : (m.dataEntries head).nextIndex = -1 ↔ rest = [] :=
      linked.2.start_eq_neg_one_iff
    refine (congrArg (fun table index => IndexBucket.key (table index))
      unlinkSlot_hashTable).trans ((map_update IndexBucket.key ..).trans ?_)
    simp only [if_pos atSlot.symm, cells, List.cons.injEq, true_and, ends]
    split
    · rfl
    · exact Function.update_eq_self bucketIdx m.keys
  · rw [Mmap.UnlinksOwner, if_neg first] at arrives
    have notAlone : chain owner ≠ [slotIdx] := by
      intro alone
      rw [cells, List.cons.injEq] at alone
      exact first (isHead.mp (by rw [atHead, alone.1]))
    rw [if_neg notAlone]
    exact sound.unlinkSlot_view IndexBucket.key (fun _ empty => if_pos empty) arrives

/-- What a `delete_record_from_uuid` leaves behind when its probe arrives where
it can take the slot off its chain. -/
structure Removed (m m' : Mmap) (chain : Nat → List Nat) (spare : List Nat)
    (owner slotIdx : Nat) : Prop where
  sound : Sound m' (Function.update chain owner ((chain owner).erase slotIdx)) (slotIdx :: spare)
  keys : m'.keys =
    if chain owner = [slotIdx] then Function.update m.keys owner none else m.keys
  others : ∀ other, other ≠ slotIdx → m'.content other = m.content other

/-- **The slot of the id is unlinked at the bucket where the probe for the given
group and the present country code of the slot ends.** -/
theorem deleteRecordFromUuid_cases (m : Mmap) (groupId id : CassUuid) :
    (m.deleteRecordFromUuid groupId id = (false, m) ∧
      ∀ slotIdx bucketIdx, m.slotOfId id = some slotIdx →
        m.findBucket (calculateHashFromUuid groupId) (m.content slotIdx).countryCode =
          some bucketIdx → (m.content slotIdx).groupId ≠ groupId) ∨
    ∃ slotIdx bucketIdx, m.slotOfId id = some slotIdx ∧ (m.content slotIdx).groupId = groupId ∧
      m.findBucket (calculateHashFromUuid groupId) (m.content slotIdx).countryCode =
        some bucketIdx ∧
      m.deleteRecordFromUuid groupId id =
        (true, ((m.unlinkSlot bucketIdx slotIdx).pushFreeSlot slotIdx).setIdEntry
          (idSlot id) (-1)) := by
  cases found : m.slotOfId id with
  | none =>
      exact .inl ⟨by simp only [Mmap.deleteRecordFromUuid, found], fun _ _ other => by cases other⟩
  | some slotIdx =>
      have sameProbe : m.findBucket (calculateHashFromUuid groupId)
          (m.dataEntries slotIdx).countryCode =
        m.findBucket (calculateHashFromUuid groupId) (m.content slotIdx).countryCode := rfl
      cases ends : m.findBucket (calculateHashFromUuid groupId)
          (m.content slotIdx).countryCode with
      | none =>
          left
          refine ⟨by simp only [Mmap.deleteRecordFromUuid, found, sameProbe, ends], ?_⟩
          rintro other bucketIdx ⟨⟩ arrives
          cases ends.symm.trans arrives
      | some bucketIdx =>
          by_cases holds : m.HoldsGroup slotIdx groupId
          · exact .inr ⟨slotIdx, bucketIdx, rfl, holdsGroup_iff.mp holds, ends, by
              simp only [Mmap.deleteRecordFromUuid, found, sameProbe, ends, if_pos holds]⟩
          · left
            refine ⟨by simp only [Mmap.deleteRecordFromUuid, found, sameProbe, ends,
              if_neg holds], ?_⟩
            rintro other bucketIdx' ⟨⟩ -
            exact mt holdsGroup_iff.mpr holds

/-- The effect of the deletion at a bucket where it can unlink the slot. -/
theorem Sound.removed (sound : Sound m chain spare) {id : CassUuid} {owner : Nat}
    (found : m.slotOfId id = some slotIdx) (member : slotIdx ∈ chain owner)
    (arrives : m.UnlinksOwner bucketIdx slotIdx) :
    Removed m (((m.unlinkSlot bucketIdx slotIdx).pushFreeSlot slotIdx).setIdEntry
      (idSlot id) (-1)) chain spare owner slotIdx := by
  obtain ⟨bounded, inUse, holds⟩ := sound.slotOfId_eq_some_iff.mp found
  refine ⟨⟨?_, ?_⟩, sound.unlinkSlot_keys member arrives, fun other different => ?_⟩
  · have released : (((m.unlinkSlot bucketIdx slotIdx).pushFreeSlot slotIdx).setIdEntry
        (idSlot id) (-1)).arena = m.arena.remove owner slotIdx := by
      rw [Arena.remove, ← sound.unlinkSlot_arena member arrives, ← Mmap.pushFreeSlot_arena]
      rfl
    rw [released]
    exact sound.represents.remove member
  · have sameUsed : (m.unlinkSlot bucketIdx slotIdx).arena.used = m.arena.used :=
      unlinkSlot_field IpGroupEntry.isUsed fun _ _ _ => rfl
    have sameEntries : (m.unlinkSlot bucketIdx slotIdx).idEntry = m.idEntry := by
      funext other
      exact congrArg idSlot (congrArg Content.id (unlinkSlot_content m bucketIdx slotIdx other))
    have usedAfter : (((m.unlinkSlot bucketIdx slotIdx).pushFreeSlot slotIdx).setIdEntry
        (idSlot id) (-1)).arena.used = Function.update m.arena.used slotIdx false := by
      rw [← sameUsed]
      exact congrArg Arena.used (Mmap.pushFreeSlot_arena (m.unlinkSlot bucketIdx slotIdx) slotIdx)
    have entriesAfter : (((m.unlinkSlot bucketIdx slotIdx).pushFreeSlot slotIdx).setIdEntry
        (idSlot id) (-1)).idEntry = Function.update m.idEntry slotIdx (idSlot ⟨0, 0⟩) := by
      rw [← sameEntries]
      exact Mmap.pushFreeSlot_idEntry (m.unlinkSlot bucketIdx slotIdx) slotIdx
    have tableAfter : (((m.unlinkSlot bucketIdx slotIdx).pushFreeSlot slotIdx).setIdEntry
        (idSlot id) (-1)).idHashTable =
        Function.update m.idHashTable (m.idEntry slotIdx) (-1) := by
      rw [Mmap.idEntry, holds, ← unlinkSlot_idHashTable m bucketIdx slotIdx]
      rfl
    rw [usedAfter, entriesAfter, tableAfter]
    exact sound.indexed.erase bounded inUse _
  · exact (Mmap.pushFreeSlot_content_of_ne _ different).trans
      (unlinkSlot_content m bucketIdx slotIdx other)

end Unlink

end EdgeDNS.IpGroup
