import EdgeDNS.Cache.IpGroupReopen
import EdgeDNS.Cache.IpGroupIndex
import EdgeDNS.Core.Activities

/-!
# What sync requests do to the entries of a group

An add or an update of an entry that carries all parameters is answered with body
`0`, whatever the address cache has made of it.

An update writes the requested fields into the slot of its id when that slot belongs
to the requested group; otherwise it deletes and appends, of which neither does
anything while another group has the id. So an update of a stored entry never loses
it, nor any other (`entry_update_keeps`): what an update of a record can do is not
possible here.

The lookups show another picture. The slot stays on the chain of the country under
which the entry was added. There, and nowhere else, the entry is found with its new
address, also when the update names another country (`entry_update_lookups`). An add
is found under its own country exactly when its id and its group have a place
(`entry_add_lookups`).
-/

set_option autoImplicit false

namespace EdgeDNS.Core

open Utils

/-- The entry that a request describes. -/
def EntryParams.asked (params : EntryParams) (groupId id : CassUuid) : IpGroup.Content where
  groupId := groupId
  id := id
  countryCode := .ofText params.locationCode
  ip := (addressOf params.ip).bytes
  priority := atoi params.priority

section Served

variable {cassUuidFromString : List UInt8 → Option CassUuid} {request : SyncRequest}
  {params : EntryParams} {groupId id : CassUuid}

/-- An add with all parameters. -/
theorem SyncRequest.AsksForEntry.serves_add
    (asks : request.AsksForEntry cassUuidFromString 49 params groupId id)
    (recordsMap : Records.Mmap) (ipGroupMap : IpGroup.Mmap) :
    serveSync cassUuidFromString request ⟨recordsMap, ipGroupMap⟩ =
      .ok (success, ⟨recordsMap, addEntry ipGroupMap params groupId id⟩) := by
  obtain ⟨operation, complete, rfl, rfl⟩ := asks
  rw [serveSync_entryOperation operation]
  have notDelete : ¬ ((49 : UInt8) = 51) := by decide
  simp only [entryOperation, complete, notDelete, and_false, if_false, if_true]

/-- An update with all parameters. -/
theorem SyncRequest.AsksForEntry.serves_update
    (asks : request.AsksForEntry cassUuidFromString 50 params groupId id)
    (recordsMap : Records.Mmap) (ipGroupMap : IpGroup.Mmap) :
    serveSync cassUuidFromString request ⟨recordsMap, ipGroupMap⟩ =
      .ok (success, ⟨recordsMap, updateEntry ipGroupMap params groupId id⟩) := by
  obtain ⟨operation, complete, rfl, rfl⟩ := asks
  rw [serveSync_entryOperation operation]
  have notDelete : ¬ ((50 : UInt8) = 51) := by decide
  have notAdd : ¬ ((50 : UInt8) = 49) := by decide
  simp only [entryOperation, complete, notDelete, notAdd, and_false, if_false, if_true]

end Served

/-! ## Updates -/

section Updates

variable {m : IpGroup.Mmap} {params : EntryParams} {groupId id : CassUuid} {slotIdx : Nat}

/-- An update of an entry of its own group rewrites the slot. -/
theorem updateEntry_own (found : m.slotOfId id = some slotIdx)
    (own : (m.content slotIdx).groupId = groupId) :
    IpGroup.Updated m (updateEntry m params groupId id) slotIdx (params.asked groupId id) := by
  obtain ⟨-, -, -, sameId⟩ := IpGroup.slotOfId_spec found
  have holds : m.HoldsGroup slotIdx groupId := IpGroup.holdsGroup_iff.mpr own
  have written : updateEntry m params groupId id =
      (m.updateRecord groupId id (.ofText params.locationCode) (addressOf params.ip)
        (atoi params.priority)).2 := by
    simp only [updateEntry, IpGroup.Mmap.updateRecordText, IpGroup.Mmap.updateRecord, found,
      if_pos holds, if_true]
  rw [written]
  simp only [IpGroup.Mmap.updateRecord, found, if_pos holds, IpGroup.Mmap.setEntry]
  refine ⟨?_, rfl, rfl, ?_, fun other different => ?_⟩
  · exact LinkedArena.Arena.ext rfl (map_update_same IpGroup.IpGroupEntry.nextIndex rfl)
      (map_update_same IpGroup.IpGroupEntry.prevIndex rfl)
      (map_update_same IpGroup.IpGroupEntry.isUsed rfl) rfl
  · have group : (m.dataEntries slotIdx).groupId = groupId := own
    simp [IpGroup.Mmap.content, IpGroup.IpGroupEntry.content, EntryParams.asked, group, sameId]
  · simp only [IpGroup.Mmap.content, Function.update_of_ne different]

/-- **An update of an entry of another group does nothing.** The delete is refused for
the group, and the append for the id. -/
theorem updateEntry_other (found : m.slotOfId id = some slotIdx)
    (other : (m.content slotIdx).groupId ≠ groupId) :
    updateEntry m params groupId id = m := by
  have notHeld : ¬ m.HoldsGroup slotIdx groupId := mt IpGroup.holdsGroup_iff.mp other
  have notDeleted : (m.deleteRecordFromUuid groupId id).2 = m := by
    simp only [IpGroup.Mmap.deleteRecordFromUuid, found]
    split
    · rfl
    · rw [if_neg notHeld]
  obtain ⟨taken, -⟩ := IpGroup.slotOfId_spec found
  simp only [updateEntry, IpGroup.Mmap.updateRecordText, IpGroup.Mmap.updateRecord, found,
    if_neg notHeld, notDeleted, Bool.false_eq_true, if_false, addEntry,
    IpGroup.Mmap.appendRecordText]
  split
  · rfl
  · rw [if_pos taken]

/-- What is left by an update of a stored entry. No link and no index changes, and of
the contents only that of the entry, if it belongs to the requested group. -/
structure KeepsEntries (before after : IpGroup.Mmap) (asked : IpGroup.Content) : Prop where
  arena : after.arena = before.arena
  keys : after.keys = before.keys
  idHashTable : after.idHashTable = before.idHashTable
  content : ∀ slotIdx, after.content slotIdx =
    if (before.dataEntries slotIdx).isUsed = true ∧ (before.content slotIdx).id = asked.id ∧
      (before.content slotIdx).groupId = asked.groupId then asked
    else before.content slotIdx

theorem updateEntry_keeps (entered : IpGroup.Entered m) (stored : m.Stored id) :
    KeepsEntries m (updateEntry m params groupId id) (params.asked groupId id) := by
  obtain ⟨slotIdx, -, inUse, holds⟩ := stored
  have found := entered.slotOfId_eq_some inUse holds
  have alone : ∀ other, (m.dataEntries other).isUsed = true → (m.content other).id = id →
      other = slotIdx := fun other otherUsed otherHolds =>
    Option.some.inj ((entered.slotOfId_eq_some otherUsed otherHolds).symm.trans found)
  by_cases own : (m.content slotIdx).groupId = groupId
  · have effect := @updateEntry_own m params groupId id slotIdx found own
    refine ⟨effect.arena, effect.keys, effect.idHashTable, fun other => ?_⟩
    rcases eq_or_ne other slotIdx with rfl | different
    · rw [if_pos ⟨inUse, holds, own⟩, effect.own]
    · rw [if_neg fun ⟨otherUsed, otherHolds, _⟩ => different (alone other otherUsed otherHolds),
        effect.others other different]
  · rw [updateEntry_other found own]
    refine ⟨rfl, rfl, rfl, fun other => (if_neg ?_).symm⟩
    rintro ⟨otherUsed, otherHolds, otherOwn⟩
    obtain rfl := alone other otherUsed otherHolds
    exact own otherOwn

end Updates

/-- **An update never loses an entry.** In every state that calls and restarts reach, an
update of a stored id is answered with body `0`, and nothing changes but the entry of
the id, if the requested group has it. -/
theorem entry_update_keeps (steps : List IpGroup.SessionStep)
    (cassUuidFromString : List UInt8 → Option CassUuid) (request : SyncRequest)
    (recordsMap : Records.Mmap) (params : EntryParams) (groupId id : CassUuid)
    (asks : request.AsksForEntry cassUuidFromString 50 params groupId id)
    (stored : (Run.exec IpGroup.Mmap.stepSession .fresh steps).Stored id) :
    ∃ after,
      serveSync cassUuidFromString request
          ⟨recordsMap, Run.exec IpGroup.Mmap.stepSession .fresh steps⟩ =
        .ok (success, ⟨recordsMap, after⟩) ∧
      KeepsEntries (Run.exec IpGroup.Mmap.stepSession .fresh steps) after
        (params.asked groupId id) :=
  ⟨_, asks.serves_update recordsMap _,
    updateEntry_keeps (IpGroup.kept_session steps).1 stored⟩

/-- An operation on the entry 1 of the group 1 with all parameters. -/
def fullRequest (type : String) : SyncRequest :=
  plainRequest (bytesOf "type=" ++ bytesOf type ++ bytesOf "&group_id=" ++ textOfOne ++
    bytesOf "&db_id=" ++ textOfOne ++
    bytesOf "&location_code=FR&ip_address=10.0.0.2&priority=5")

/-- The parameters of a request that moves an entry to `FR`. -/
def fullParams : EntryParams :=
  ⟨textOfOne, textOfOne, bytesOf "FR", bytesOf "10.0.0.2", bytesOf "5"⟩

/-- The entry was added for another country. -/
theorem entry_update_keeps_move :
    ∃ after,
      serveSync readsOne (fullRequest "1-2")
          ⟨.fresh, Run.exec IpGroup.Mmap.stepSession .fresh [.call storeAddress]⟩ =
        .ok (success, ⟨.fresh, after⟩) ∧
      KeepsEntries (Run.exec IpGroup.Mmap.stepSession .fresh [.call storeAddress]) after
        (fullParams.asked idOne idOne) := by
  refine entry_update_keeps [.call storeAddress] readsOne (fullRequest "1-2") .fresh fullParams
    idOne idOne ⟨?_, ?_, ?_, ?_⟩ ⟨0, by decide, ?_, ?_⟩
  all_goals try rw [IpGroup.Mmap.fresh_eq_freshTable]
  all_goals decide +kernel

/-! ## Lookups -/

section Lookups

variable {m : IpGroup.Mmap} {chain : Nat → List Nat} {spare : List Nat} {params : EntryParams}
  {groupId id : CassUuid} {slotIdx : Nat}

/-- **The lookups after an update of a filed entry.** Its slot stays where it was filed. -/
theorem updateEntry_lookups (filed : IpGroup.Filed m chain spare)
    (found : m.slotOfId id = some slotIdx) (own : (m.content slotIdx).groupId = groupId)
    (other : CassUuid) (code : IpGroup.CountryCode) (response : IpGroup.IpGroupEntryResponse) :
    response ∈ (updateEntry m params groupId id).getRecord other code ↔
      response ∈ m.getRecord other code ∧ response.id ≠ id ∨
        m.keyOfSlot slotIdx = IpGroup.hashKey other code ∧
          (params.asked groupId id).response = response := by
  have effect := @updateEntry_own m params groupId id slotIdx found own
  have after := filed.sound.updated effect found
  obtain ⟨bounded, inUse, holds⟩ := filed.sound.slotOfId_eq_some_iff.mp found
  have looked := filed.mem_looked_up other code
  rw [after.getRecord_eq, filed.sound.getRecord_eq, IpGroup.findBucket_eq, effect.keys,
    ← IpGroup.findBucket_eq]
  simp only [List.mem_map, looked]
  constructor
  · rintro ⟨slot, ⟨slotBounded, slotUsed, sameKey⟩, rfl⟩
    rcases eq_or_ne slot slotIdx with rfl | different
    · exact .inr ⟨sameKey, by rw [effect.own]⟩
    · rw [effect.others slot different]
      refine .inl ⟨⟨slot, ⟨slotBounded, slotUsed, sameKey⟩, rfl⟩, fun sameId => different ?_⟩
      have again := filed.sound.slotOfId_eq_some_iff.mpr ⟨slotBounded, slotUsed, sameId⟩
      exact Option.some.inj (again.symm.trans found)
  · rintro (⟨⟨slot, isLooked, rfl⟩, notId⟩ | ⟨sameKey, rfl⟩)
    · have different : slot ≠ slotIdx := by
        rintro rfl
        exact notId holds
      exact ⟨slot, isLooked, by rw [effect.others slot different]⟩
    · exact ⟨slotIdx, ⟨bounded, inUse, sameKey⟩, by rw [effect.own]⟩

/-- A sound store takes every entry that has a place: it always has a spare slot. -/
theorem canAppend_iff_hasPlace (sound : IpGroup.Sound m chain spare)
    (entered : IpGroup.Entered m) (groupId id : CassUuid) {text : List UInt8}
    (short : (cString text).length ≤ 7) :
    m.CanAppend groupId id (.ofText text) ↔ m.HasPlace groupId id text := by
  have idFree := IpGroup.id_free_iff sound.indexed id
  have bucket := @IpGroup.findBucketText_ne_none_iff m groupId text
  rw [IpGroup.findBucketText_short _ short] at bucket
  have present : m.freeListHeadIdx ≠ -1 := by
    have unused := entered.exists_unused
    push Not at unused
    obtain ⟨slotIdx, bounded, free⟩ := unused
    intro full
    have noSpare : spare = [] := sound.represents.spareLinked.start_eq_neg_one_iff.mp full
    have member := (sound.represents.memSpare slotIdx).mpr
      ⟨bounded, Bool.eq_false_of_not_eq_true free⟩
    rw [noSpare] at member
    cases member
  constructor
  · rintro ⟨ends, free, -⟩
    exact ⟨idFree.mp free, bucket.mp ends⟩
  · rintro ⟨free, ends⟩
    exact ⟨bucket.mpr ends, idFree.mpr free, present⟩

/-- **The lookups after an add to a filed store.** -/
theorem addEntry_lookups (filed : IpGroup.Filed m chain spare) (entered : IpGroup.Entered m)
    (hashed : IpGroup.calculateHashFromUuid groupId ≠ 0)
    (short : (cString params.locationCode).length ≤ 7) (other : CassUuid)
    (code : IpGroup.CountryCode) (response : IpGroup.IpGroupEntryResponse) :
    response ∈ (addEntry m params groupId id).getRecord other code ↔
      response ∈ m.getRecord other code ∨
        m.HasPlace groupId id params.locationCode ∧
          IpGroup.hashKey groupId (.ofText params.locationCode) = IpGroup.hashKey other code ∧
          (params.asked groupId id).response = response := by
  have place := canAppend_iff_hasPlace filed.sound entered groupId id short
  rw [addEntry, IpGroup.appendRecordText_short groupId id short, ← place]
  by_cases can : m.CanAppend groupId id (.ofText params.locationCode)
  · rw [filed.appended hashed can other code response]
    exact or_congr_right ⟨fun added => ⟨can, added⟩, fun added => added.2⟩
  · rw [filed.not_appended can]
    exact ⟨.inl, fun present => present.resolve_right fun added => can added.1⟩

end Lookups

/-- The states whose lookups are exact are filed. -/
theorem isFiled_of_along {calls : List IpGroup.Call}
    (keeps : Run.Along IpGroup.Mmap.step IpGroup.Mmap.KeepsIndex .fresh calls) :
    IpGroup.IsFiled (Run.exec IpGroup.Mmap.step .fresh calls) := by
  refine (@Run.throughout_of_along _ _ IpGroup.Mmap.step IpGroup.IsFiled IpGroup.Mmap.KeepsIndex
    (fun _ => True) ?_ _ _ IpGroup.IsFiled.fresh (fun _ _ => trivial) keeps).last
  rintro m c - ⟨chain, spare, filed⟩ keepsIndex
  exact filed.step keepsIndex

/-- **An update takes effect where the entry was added.** After an update of a stored
entry of the requested group, the lookups of the key of its slot return it with the
requested address and priority, and no other lookup does, whatever country the update
names. -/
theorem entry_update_lookups (calls : List IpGroup.Call)
    (keeps : Run.Along IpGroup.Mmap.step IpGroup.Mmap.KeepsIndex .fresh calls)
    (cassUuidFromString : List UInt8 → Option CassUuid) (request : SyncRequest)
    (recordsMap : Records.Mmap) (params : EntryParams) (groupId id : CassUuid) (slotIdx : Nat)
    (asks : request.AsksForEntry cassUuidFromString 50 params groupId id)
    (found : (Run.exec IpGroup.Mmap.step .fresh calls).slotOfId id = some slotIdx)
    (own : ((Run.exec IpGroup.Mmap.step .fresh calls).content slotIdx).groupId = groupId) :
    ∃ after,
      serveSync cassUuidFromString request
          ⟨recordsMap, Run.exec IpGroup.Mmap.step .fresh calls⟩ =
        .ok (success, ⟨recordsMap, after⟩) ∧
      ∀ other code response, response ∈ after.getRecord other code ↔
        response ∈ (Run.exec IpGroup.Mmap.step .fresh calls).getRecord other code ∧
            response.id ≠ id ∨
          (Run.exec IpGroup.Mmap.step .fresh calls).keyOfSlot slotIdx =
              IpGroup.hashKey other code ∧
            (params.asked groupId id).response = response := by
  obtain ⟨chain, spare, filed⟩ := isFiled_of_along keeps
  exact ⟨_, asks.serves_update recordsMap _, updateEntry_lookups filed found own⟩

/-- The entry stays with its first country. -/
theorem entry_update_lookups_move :
    ∃ after,
      serveSync readsOne (fullRequest "1-2")
          ⟨.fresh, Run.exec IpGroup.Mmap.step .fresh
            [.append idOne idOne IpGroup.codeDE IpGroup.addressOne 0]⟩ =
        .ok (success, ⟨.fresh, after⟩) ∧
      ∀ other code response, response ∈ after.getRecord other code ↔
        response ∈ (Run.exec IpGroup.Mmap.step .fresh
            [.append idOne idOne IpGroup.codeDE IpGroup.addressOne 0]).getRecord other code ∧
            response.id ≠ idOne ∨
          (Run.exec IpGroup.Mmap.step .fresh
              [.append idOne idOne IpGroup.codeDE IpGroup.addressOne 0]).keyOfSlot 0 =
              IpGroup.hashKey other code ∧
            (fullParams.asked idOne idOne).response = response := by
  refine entry_update_lookups [.append idOne idOne IpGroup.codeDE IpGroup.addressOne 0]
    ⟨fun zero => absurd zero (by decide +kernel), trivial⟩ readsOne (fullRequest "1-2") .fresh
    fullParams idOne idOne 0 ⟨?_, ?_, ?_, ?_⟩ ?_ ?_
  all_goals try rw [IpGroup.Mmap.fresh_eq_freshTable]
  all_goals decide +kernel

/-- **An add is found exactly when it has a place**, under its group and country, and
takes nothing from any lookup. It is answered with body `0` in any case. -/
theorem entry_add_lookups (calls : List IpGroup.Call)
    (keeps : Run.Along IpGroup.Mmap.step IpGroup.Mmap.KeepsIndex .fresh calls)
    (cassUuidFromString : List UInt8 → Option CassUuid) (request : SyncRequest)
    (recordsMap : Records.Mmap) (params : EntryParams) (groupId id : CassUuid)
    (asks : request.AsksForEntry cassUuidFromString 49 params groupId id)
    (hashed : IpGroup.calculateHashFromUuid groupId ≠ 0)
    (short : (cString params.locationCode).length ≤ 7) :
    ∃ after,
      serveSync cassUuidFromString request
          ⟨recordsMap, Run.exec IpGroup.Mmap.step .fresh calls⟩ =
        .ok (success, ⟨recordsMap, after⟩) ∧
      ∀ other code response, response ∈ after.getRecord other code ↔
        response ∈ (Run.exec IpGroup.Mmap.step .fresh calls).getRecord other code ∨
          (Run.exec IpGroup.Mmap.step .fresh calls).HasPlace groupId id params.locationCode ∧
            IpGroup.hashKey groupId (.ofText params.locationCode) =
              IpGroup.hashKey other code ∧
            (params.asked groupId id).response = response := by
  obtain ⟨chain, spare, filed⟩ := isFiled_of_along keeps
  exact ⟨_, asks.serves_add recordsMap _,
    addEntry_lookups filed (IpGroup.Entered.run calls) hashed short⟩

/-- The second entry of a group, under another country than the first. -/
theorem entry_add_lookups_second :
    ∃ after,
      serveSync readsOne (fullRequest "1-1")
          ⟨.fresh, Run.exec IpGroup.Mmap.step .fresh
            [.append idOne ⟨2, 2⟩ IpGroup.codeDE IpGroup.addressOne 0]⟩ =
        .ok (success, ⟨.fresh, after⟩) ∧
      ∀ other code response, response ∈ after.getRecord other code ↔
        response ∈ (Run.exec IpGroup.Mmap.step .fresh
            [.append idOne ⟨2, 2⟩ IpGroup.codeDE IpGroup.addressOne 0]).getRecord other code ∨
          (Run.exec IpGroup.Mmap.step .fresh
              [.append idOne ⟨2, 2⟩ IpGroup.codeDE IpGroup.addressOne 0]).HasPlace idOne idOne
              fullParams.locationCode ∧
            IpGroup.hashKey idOne (.ofText fullParams.locationCode) =
              IpGroup.hashKey other code ∧
            (fullParams.asked idOne idOne).response = response := by
  refine entry_add_lookups [.append idOne ⟨2, 2⟩ IpGroup.codeDE IpGroup.addressOne 0]
    ⟨fun zero => absurd zero (by decide +kernel), trivial⟩ readsOne (fullRequest "1-1") .fresh
    fullParams idOne idOne ⟨?_, ?_, ?_, ?_⟩ ?_ ?_
  all_goals decide +kernel

end EdgeDNS.Core
