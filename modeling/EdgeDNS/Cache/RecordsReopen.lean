import EdgeDNS.Cache.RecordsChains

/-!
# Reopening the record cache

`init` on an existing file keeps the buckets and the slots, and computes the id
table and the free list anew: it enters the used slots in ascending order, where
a later slot could overwrite the entry of an earlier one, and threads the unused
slots through the field that links the chains.

On a sound store the rebuilt id table is the old one, because no two used slots
share an entry, and the chains stay, because only unused slots are threaded
(`Sound.reopened`). So the lookups, the updates and the deletions by id of the
reopened store are those of the store before (`reopen_preserves`).
-/

set_option autoImplicit false

namespace EdgeDNS.Records

open LinkedArena DirectIndex Probing

namespace Mmap

/-- The store that `init` makes of the three persisted arrays. The head of the
free list is not persisted. -/
def reopened (m : Mmap) (head : Int) : Mmap := init false { m with freeListHeadIdx := head }

end Mmap

/-! ## The reopened store -/

/-- What `init` leaves of a store when it opens an existing file. -/
structure Reopens (m m' : Mmap) : Prop where
  hashTable : m'.hashTable = m.hashTable
  idHashTable : m'.idHashTable = rebuilt m.arena.used m.idEntry
    (fun entry => if entry < idHashTableSize then -1 else m.idHashTable entry) maxDataRecords
  slots : ∀ slotIdx, m'.dataRecords slotIdx =
    { m.dataRecords slotIdx with nextIndex := (m'.dataRecords slotIdx).nextIndex }
  arena : m'.arena = m.arena.rethreaded maxDataRecords

/-- **`init` on an existing file** keeps the buckets, the contents of the slots
and the links of the used ones. -/
theorem Mmap.reopens (m : Mmap) (head : Int) : Reopens m (m.reopened head) := by
  simp only [Mmap.reopened, Mmap.init, if_neg Bool.false_ne_true, Mmap.rebuildIdTable_eq,
    Mmap.threadFreeList_eq]
  exact ⟨rfl, rfl, fun _ => rfl, rfl⟩

section Reopened

variable {m m' : Mmap} {chain : Nat → List Nat} {spare : List Nat}

namespace Reopens

theorem response (reopens : Reopens m m') (slotIdx : Nat) :
    (m'.dataRecords slotIdx).response = (m.dataRecords slotIdx).response := by
  rw [reopens.slots]
  rfl

theorem bucketIdx (reopens : Reopens m m') (slotIdx : Nat) :
    (m'.dataRecords slotIdx).bucketIdx = (m.dataRecords slotIdx).bucketIdx := by
  rw [reopens.slots]

theorem used (reopens : Reopens m m') : m'.arena.used = m.arena.used :=
  (congrArg Arena.used reopens.arena).trans rfl

/-- A used slot keeps its successor. -/
theorem kept (reopens : Reopens m m') {slotIdx : Nat} (inUse : m.arena.used slotIdx = true) :
    m'.arena.next slotIdx = m.arena.next slotIdx := by
  rw [reopens.arena]
  exact Arena.rethreaded_next fun _ => inUse

theorem keys (reopens : Reopens m m') : m'.keys = m.keys := by
  funext bucketIdx
  rw [Mmap.keys, Mmap.keys, reopens.hashTable]

theorem idEntry (reopens : Reopens m m') : m'.idEntry = m.idEntry := by
  funext slotIdx
  rw [Mmap.idEntry, Mmap.idEntry, reopens.slots]

/-- A used slot is kept as it is. -/
theorem usedSlot (reopens : Reopens m m') {slotIdx : Nat}
    (inUse : (m.dataRecords slotIdx).isUsed = true) :
    m'.dataRecords slotIdx = m.dataRecords slotIdx := by
  have sameNext : (m'.dataRecords slotIdx).nextIndex = (m.dataRecords slotIdx).nextIndex :=
    reopens.kept inUse
  rw [reopens.slots, sameNext]

end Reopens

/-- **The rebuilt id table is the old one.** -/
theorem Sound.reopened_idHashTable (sound : Sound m chain spare) (reopens : Reopens m m') :
    m'.idHashTable = m.idHashTable := by
  have cleared : ∀ entry, entry < idHashTableSize →
      (if entry < idHashTableSize then -1 else m.idHashTable entry) = -1 :=
    fun _ within => if_pos within
  have beyond : ∀ entry, idHashTableSize ≤ entry →
      (if entry < idHashTableSize then -1 else m.idHashTable entry) = m.idHashTable entry :=
    fun _ outside => if_neg (Nat.not_lt.mpr outside)
  rw [reopens.idHashTable]
  exact @Indexed.rebuilt_eq _ _ _ _ _ _ sound.indexed cleared beyond

/-- **A reopened store has the chains of the store before.** -/
theorem Sound.reopened (sound : Sound m chain spare) (reopens : Reopens m m') :
    ∃ spare', Sound m' chain spare' := by
  refine ⟨_, reopens.arena ▸ sound.represents.rethreaded, ?_, ?_⟩
  · rw [reopens.used, reopens.idEntry, sound.reopened_idHashTable reopens]
    exact sound.indexed
  · intro bucketIdx slotIdx member
    rw [reopens.bucketIdx]
    exact sound.owned bucketIdx slotIdx member

/-- Two stores with the same keys, chains and records answer alike. -/
theorem Sound.getRecord_congr {spare' : List Nat} (sound : Sound m chain spare)
    (sound' : Sound m' chain spare') (keys : m'.keys = m.keys)
    (records : ∀ bucketIdx, ∀ slotIdx ∈ chain bucketIdx,
      (m'.dataRecords slotIdx).response = (m.dataRecords slotIdx).response)
    (wireName : List UInt8) (qtype : Int) :
    m'.getRecord wireName qtype = m.getRecord wireName qtype := by
  rw [sound.getRecord_eq, sound'.getRecord_eq, findBucket_eq, findBucket_eq, keys]
  cases findKey probeStep home hashTableSize m.keys (calculateHash wireName, qtype) with
  | none => rfl
  | some bucketIdx => exact List.map_congr_left (records bucketIdx)

/-- The reopened store finds the slots of the ids where they were. -/
theorem Sound.reopened_slotOfId (sound : Sound m chain spare) (reopens : Reopens m m')
    (id : CassUuid) : m'.slotOfId id = m.slotOfId id := by
  have sameUsed (slotIdx : Nat) : (m'.dataRecords slotIdx).isUsed =
      (m.dataRecords slotIdx).isUsed := congrFun reopens.used slotIdx
  have sameId (slotIdx : Nat) : (m'.dataRecords slotIdx).id = (m.dataRecords slotIdx).id :=
    congrArg DNSResponseData.id (reopens.response slotIdx)
  simp only [Mmap.slotOfId, sound.reopened_idHashTable reopens, sameUsed, sameId]

end Reopened

/-! ## What the reopened store does -/

/-- The second store answers every lookup as the first. -/
def SameLookups (m m' : Mmap) : Prop :=
  ∀ wireName qtype, m'.getRecord wireName qtype = m.getRecord wireName qtype

/-- The second store stands for the first: it answers the lookups alike, and it
accepts the same updates and deletions by id, which leave stores that answer
alike. -/
structure StandsFor (m m' : Mmap) : Prop where
  lookups : SameLookups m m'
  slotOfId : ∀ id, m'.slotOfId id = m.slotOfId id
  records : ∀ slotIdx, (m.dataRecords slotIdx).isUsed = true →
    m'.dataRecords slotIdx = m.dataRecords slotIdx
  updates : ∀ id data, (m'.updateRecord id data).1 = (m.updateRecord id data).1 ∧
    SameLookups (m.updateRecord id data).2 (m'.updateRecord id data).2
  deletions : ∀ id, (m'.deleteRecordFromUuid id).1 = (m.deleteRecordFromUuid id).1 ∧
    SameLookups (m.deleteRecordFromUuid id).2 (m'.deleteRecordFromUuid id).2
  idHashTable : m'.idHashTable = m.idHashTable

section StandsFor

variable {m m' : Mmap} {chain : Nat → List Nat} {spare : List Nat}

theorem Sound.reopened_lookups (sound : Sound m chain spare) (reopens : Reopens m m') :
    SameLookups m m' := by
  obtain ⟨spare', after⟩ := sound.reopened reopens
  exact sound.getRecord_congr after reopens.keys fun _ slotIdx _ => reopens.response slotIdx

/-- An update of the reopened store. -/
theorem Sound.reopened_update (sound : Sound m chain spare) (reopens : Reopens m m')
    (id : CassUuid) (data : RecordData) :
    (m'.updateRecord id data).1 = (m.updateRecord id data).1 ∧
      SameLookups (m.updateRecord id data).2 (m'.updateRecord id data).2 := by
  obtain ⟨spare', after⟩ := sound.reopened reopens
  have sameSlot := sound.reopened_slotOfId reopens id
  cases found : m.slotOfId id with
  | none =>
      rw [found] at sameSlot
      simp only [Mmap.updateRecord, found, sameSlot]
      exact ⟨trivial, sound.reopened_lookups reopens⟩
  | some slotIdx =>
      rw [found] at sameSlot
      by_cases fits : data.Fits
      · obtain ⟨accepted, effect⟩ := sound.updateRecord_accepted found fits
        obtain ⟨accepted', effect'⟩ := after.updateRecord_accepted sameSlot fits
        refine ⟨accepted'.trans accepted.symm, ?_⟩
        refine (sound.updated found effect).getRecord_congr (after.updated sameSlot effect') ?_ ?_
        · funext bucketIdx
          rw [Mmap.keys, Mmap.keys, effect.hashTable, effect'.hashTable, reopens.hashTable]
        · intro bucketIdx other _
          rcases eq_or_ne other slotIdx with rfl | different
          · rw [effect.own, effect'.own, reopens.bucketIdx]
          · rw [effect.others other different, effect'.others other different, reopens.response]
      · have tooLong := RecordData.not_fits_iff.mp fits
        simp only [Mmap.updateRecord, found, sameSlot, if_pos tooLong]
        exact ⟨trivial, sound.reopened_lookups reopens⟩

/-- A deletion by id of the reopened store. -/
theorem Sound.reopened_delete (sound : Sound m chain spare) (reopens : Reopens m m')
    (id : CassUuid) :
    (m'.deleteRecordFromUuid id).1 = (m.deleteRecordFromUuid id).1 ∧
      SameLookups (m.deleteRecordFromUuid id).2 (m'.deleteRecordFromUuid id).2 := by
  obtain ⟨spare', after⟩ := sound.reopened reopens
  have sameSlot := sound.reopened_slotOfId reopens id
  rcases sound.deleteRecordFromUuid_cases id with
    ⟨missing, refused⟩ | ⟨slotIdx, found, accepted, effect⟩
  · rw [missing] at sameSlot
    rw [refused]
    simp only [Mmap.deleteRecordFromUuid, sameSlot]
    exact ⟨trivial, sound.reopened_lookups reopens⟩
  · rw [found] at sameSlot
    rcases after.deleteRecordFromUuid_cases id with
      ⟨missing, -⟩ | ⟨slotIdx', found', accepted', effect'⟩
    · cases sameSlot.symm.trans missing
    · obtain rfl : slotIdx = slotIdx' := Option.some.inj (sameSlot.symm.trans found')
      rw [reopens.bucketIdx] at effect'
      refine ⟨accepted'.trans accepted.symm, ?_⟩
      refine effect.sound.getRecord_congr effect'.sound ?_ fun bucketIdx other member => ?_
      · rw [effect.keys, effect'.keys, reopens.keys]
      · have different : other ≠ slotIdx := by
          rintro rfl
          exact effect.sound.represents.notMem_chain (List.mem_cons_self ..) bucketIdx member
        rw [effect.others other different, effect'.others other different, reopens.response]

theorem Sound.standsFor (sound : Sound m chain spare) (reopens : Reopens m m') :
    StandsFor m m' where
  lookups := sound.reopened_lookups reopens
  slotOfId := sound.reopened_slotOfId reopens
  records _ := reopens.usedSlot
  updates := sound.reopened_update reopens
  deletions := sound.reopened_delete reopens
  idHashTable := sound.reopened_idHashTable reopens

end StandsFor

/-- **Reopening preserves the store.** In every state that calls reach from a
fresh store, when no appended name hashes to zero, `init` on the persisted
arrays gives a store that stands for it, and whose free list holds exactly the
unused slots, each once. -/
theorem reopen_preserves (calls : List Call) (hashed : ∀ c ∈ calls, c.Hashed) (head : Int) :
    StandsFor (Run.exec Mmap.step Mmap.fresh calls)
        ((Run.exec Mmap.step Mmap.fresh calls).reopened head) ∧
      ((Run.exec Mmap.step Mmap.fresh calls).reopened head).freeList.Nodup ∧
      ∀ slotIdx, slotIdx ∈ ((Run.exec Mmap.step Mmap.fresh calls).reopened head).freeList ↔
        slotIdx < maxDataRecords ∧
          ((Run.exec Mmap.step Mmap.fresh calls).dataRecords slotIdx).isUsed = false := by
  obtain ⟨chain, spare, sound, -⟩ := Tidy.run hashed
  have reopens := (Run.exec Mmap.step Mmap.fresh calls).reopens head
  generalize Run.exec Mmap.step Mmap.fresh calls = m at sound reopens ⊢
  generalize m.reopened head = m' at reopens ⊢
  obtain ⟨spare', after⟩ := sound.reopened reopens
  refine ⟨sound.standsFor reopens, ?_, fun slotIdx => ?_⟩
  · rw [after.freeList_eq]
    exact after.represents.spare_nodup
  · rw [after.freeList_eq, after.represents.memSpare, reopens.used]
    rfl

/-- Reopening after two appends under one name and the deletion of the
first. -/
theorem reopen_preserves_three_calls :
    StandsFor (Run.exec Mmap.step Mmap.fresh
        [.append [1, 97, 0] 1 ⟨1, 1⟩ ⟨60, 0, ⟨0, 0⟩, false, false, [10, 0, 0, 1]⟩,
          .append [1, 97, 0] 1 ⟨2, 2⟩ ⟨60, 0, ⟨0, 0⟩, false, false, [10, 0, 0, 2]⟩,
          .deleteFromUuid ⟨1, 1⟩])
      ((Run.exec Mmap.step Mmap.fresh
        [.append [1, 97, 0] 1 ⟨1, 1⟩ ⟨60, 0, ⟨0, 0⟩, false, false, [10, 0, 0, 1]⟩,
          .append [1, 97, 0] 1 ⟨2, 2⟩ ⟨60, 0, ⟨0, 0⟩, false, false, [10, 0, 0, 2]⟩,
          .deleteFromUuid ⟨1, 1⟩]).reopened (-1)) :=
  (reopen_preserves _ (by decide) (-1)).1

end EdgeDNS.Records
