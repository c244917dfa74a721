import EdgeDNS.Cache.IpGroupText
import EdgeDNS.Cache.RecordsInvariant
import EdgeDNS.Core.SyncWorker

/-!
# Sync requests on the entries of a group

The other half of the sync branch of `Core::worker`. An operation on an entry
looks up the group and the location code first; the response to a delete with
all parameters then depends on whether the lookup finds anything, and the switch
behind it has no case for a delete.

With both halves, `serveSync` is the whole branch on the two caches.
`delete_deletes_iff` says when a delete deletes: not when the request carries
the parameters of the other operations too.
-/

set_option autoImplicit false

namespace EdgeDNS.Core

open Utils RData

/-! ## The operations -/

/-- The parameters that every operation on an entry but a delete needs. -/
structure EntryParams where
  groupIdStr : List UInt8
  idStr : List UInt8
  locationCode : List UInt8
  ip : List UInt8
  priority : List UInt8
deriving DecidableEq, Repr

/-- The five parameters of an entry, when all are there. -/
def SyncRequest.entryParams (request : SyncRequest) : Option EntryParams := do
  let groupIdStr ← request.param "group_id" 40
  let idStr ← request.param "db_id" 40
  let locationCode ← request.param "location_code" 32
  let ip ← request.param "ip_address" 16
  let priority ← request.param "priority" 32
  return ⟨groupIdStr, idStr, locationCode, ip, priority⟩

/-- The wire data of an address, which `generateRData` never refuses. -/
def addressOf (ip : List UInt8) : IpGroup.Address where
  bytes := ipv4ToWire ip
  fits := by rcases ipv4ToWire_length ip with length | length <;> omega

theorem generateRData_addressOf (ip : List UInt8) :
    generateRData ip 1 = .ok (addressOf ip).bytes := rfl

section Operations

variable (cassUuidFromString : List UInt8 → Option CassUuid) (request : SyncRequest)
  (ipGroupMap : IpGroup.Mmap)

/-- Add an entry. The result of the append is not looked at. -/
def addEntry (params : EntryParams) (groupId id : CassUuid) : IpGroup.Mmap :=
  (ipGroupMap.appendRecordText groupId id params.locationCode (addressOf params.ip)
    (atoi params.priority)).2

/-- Update an entry. One that is not updated is deleted and added again. -/
def updateEntry (params : EntryParams) (groupId id : CassUuid) : IpGroup.Mmap :=
  let updated := ipGroupMap.updateRecordText groupId id params.locationCode (addressOf params.ip)
    (atoi params.priority)
  if updated.1 then updated.2
  else addEntry (ipGroupMap.deleteRecordFromUuid groupId id).2 params groupId id

/-- The operations on entries. A delete with all parameters is answered with
body `1` when the lookup finds nothing, and with a bad request otherwise. -/
def entryOperation (op : UInt8) : String × IpGroup.Mmap :=
  match request.entryParams with
  | some params =>
      let id := namedId cassUuidFromString request params.idStr
      let groupId := namedGroup cassUuidFromString request params.groupIdStr
      let out := ipGroupMap.getRecordText groupId params.locationCode
      if out.length = 0 ∧ op = 51 then (notFound, ipGroupMap)
      else if op = 49 then (success, addEntry ipGroupMap params groupId id)
      else if op = 50 then (success, updateEntry ipGroupMap params groupId id)
      else (badRequest, ipGroupMap)
  | none =>
      if op = 51 then
        match request.param "group_id" 40, request.param "db_id" 40 with
        | some groupIdStr, some idStr =>
            (success, (ipGroupMap.deleteRecordFromUuid
              (namedGroup cassUuidFromString request groupIdStr)
              (namedId cassUuidFromString request idStr)).2)
        | _, _ => (badRequest, ipGroupMap)
      else (badRequest, ipGroupMap)

/-- A sync request and the two caches. -/
def serveSync (caches : Caches) : Except StdException (String × Caches) :=
  match request.operation with
  | .recordOperation op =>
      (recordOperation cassUuidFromString request caches.recordsMap op).map
        fun (response, recordsMap) => (response, { caches with recordsMap := recordsMap })
  | .entryOperation op =>
      let served := entryOperation cassUuidFromString request caches.ipGroupMap op
      .ok (served.1, { caches with ipGroupMap := served.2 })
  | .refused => .ok (badRequest, caches)

end Operations

theorem serveSync_recordOperation {cassUuidFromString : List UInt8 → Option CassUuid}
    {request : SyncRequest} {caches : Caches} {op : UInt8} {response : String}
    {recordsMap : Records.Mmap} (operation : request.operation = .recordOperation op)
    (runs : recordOperation cassUuidFromString request caches.recordsMap op =
      .ok (response, recordsMap)) :
    serveSync cassUuidFromString request caches =
      .ok (response, { caches with recordsMap := recordsMap }) := by
  simp only [serveSync, operation, runs, Except.map]

theorem serveSync_entryOperation {cassUuidFromString : List UInt8 → Option CassUuid}
    {request : SyncRequest} {caches : Caches} {op : UInt8}
    (operation : request.operation = .entryOperation op) :
    serveSync cassUuidFromString request caches =
      .ok ((entryOperation cassUuidFromString request caches.ipGroupMap op).1,
        { caches with
          ipGroupMap := (entryOperation cassUuidFromString request caches.ipGroupMap op).2 }) := by
  simp only [serveSync, operation]

/-! ## Deletes -/

/-- What a delete names. -/
inductive Target
  | record (id : CassUuid)
  | entry (groupId id : CassUuid)
deriving DecidableEq, Repr

/-- A used slot of the cache in question holds the id. -/
def Target.StoredIn (caches : Caches) : Target → Prop
  | .record id => caches.recordsMap.Stored id
  | .entry _ id => caches.ipGroupMap.Stored id

/-- A request of type `0-3` with an id, or of type `1-3` with the id of a stored
entry and the group of the entry. -/
def SyncRequest.AsksToDelete (cassUuidFromString : List UInt8 → Option CassUuid)
    (request : SyncRequest) (caches : Caches) : Target → Prop
  | .record id => request.operation = .recordOperation 51 ∧
      (request.param "db_id" 40).bind cassUuidFromString = some id
  | .entry groupId id => request.operation = .entryOperation 51 ∧
      (request.param "group_id" 40).bind cassUuidFromString = some groupId ∧
      (request.param "db_id" 40).bind cassUuidFromString = some id ∧
      ∃ slotIdx < IpGroup.maxDataRecords,
        (caches.ipGroupMap.dataEntries slotIdx).isUsed = true ∧
        (caches.ipGroupMap.dataEntries slotIdx).id = id ∧
        (caches.ipGroupMap.dataEntries slotIdx).groupId = groupId

/-- The target is gone, and the response is not that to a bad request. -/
def SyncRequest.Deletes (cassUuidFromString : List UInt8 → Option CassUuid)
    (request : SyncRequest) (caches : Caches) (target : Target) : Prop :=
  ∃ response after, serveSync cassUuidFromString request caches = .ok (response, after) ∧
    ¬ target.StoredIn after ∧ response ≠ badRequest

/-- A parameter of the other operations is missing, and for an entry the probe
for the group and the present code of the slot ends. -/
def SyncRequest.DeleteReached (request : SyncRequest) (caches : Caches) : Target → Prop
  | .record _ => request.recordParams = none
  | .entry groupId id => request.entryParams = none ∧
      ∀ slotIdx, caches.ipGroupMap.slotOfId id = some slotIdx →
        caches.ipGroupMap.findBucket (IpGroup.calculateHashFromUuid groupId)
          (caches.ipGroupMap.dataEntries slotIdx).countryCode ≠ none

section Deletes

variable {cassUuidFromString : List UInt8 → Option CassUuid} {request : SyncRequest}
  {recordsMap : Records.Mmap} {ipGroupMap : IpGroup.Mmap} {id groupId : CassUuid}

/-- The text that a parameter has and the driver reads. -/
theorem param_of_bind {key : String} {maxLen : Nat} {value : CassUuid}
    (given : (request.param key maxLen).bind cassUuidFromString = some value) :
    ∃ text, request.param key maxLen = some text ∧ cassUuidFromString text = some value :=
  Option.bind_eq_some_iff.mp given

/-- A delete of a record with all parameters is refused, and any other is a
deletion by id. -/
theorem recordOperation_delete
    (forId : (request.param "db_id" 40).bind cassUuidFromString = some id) :
    (request.recordParams = none ∧
      recordOperation cassUuidFromString request recordsMap 51 =
        .ok (success, (recordsMap.deleteRecordFromUuid id).2)) ∨
    (request.recordParams ≠ none ∧
      recordOperation cassUuidFromString request recordsMap 51 = .ok (badRequest, recordsMap)) := by
  obtain ⟨idStr, given, read⟩ := param_of_bind forId
  have named : namedId cassUuidFromString request idStr = id := by
    rw [namedId, read, Option.getD_some]
  cases complete : request.recordParams with
  | none =>
      refine .inl ⟨rfl, ?_⟩
      simp only [recordOperation, complete, given, named, if_true]
  | some params =>
      refine .inr ⟨Option.some_ne_none _, ?_⟩
      simp only [recordOperation, complete]
      rfl

/-- A delete of an entry with all parameters changes nothing, and any other is a
deletion by id. -/
theorem entryOperation_delete
    (forGroup : (request.param "group_id" 40).bind cassUuidFromString = some groupId)
    (forId : (request.param "db_id" 40).bind cassUuidFromString = some id) :
    (request.entryParams = none ∧
      entryOperation cassUuidFromString request ipGroupMap 51 =
        (success, (ipGroupMap.deleteRecordFromUuid groupId id).2)) ∨
    (request.entryParams ≠ none ∧
      (entryOperation cassUuidFromString request ipGroupMap 51).2 = ipGroupMap) := by
  obtain ⟨groupIdStr, givenGroup, readGroup⟩ := param_of_bind forGroup
  obtain ⟨idStr, given, read⟩ := param_of_bind forId
  have named : namedId cassUuidFromString request idStr = id := by
    rw [namedId, read, Option.getD_some]
  have group : namedGroup cassUuidFromString request groupIdStr = groupId := by
    rw [namedGroup, readGroup, Option.getD_some]
  cases complete : request.entryParams with
  | none =>
      refine .inl ⟨rfl, ?_⟩
      simp only [entryOperation, complete, givenGroup, given, named, group, if_true]
  | some params =>
      refine .inr ⟨Option.some_ne_none _, ?_⟩
      simp only [entryOperation, complete]
      split
      · rfl
      · rfl

/-- **When a delete of a record deletes.** -/
theorem record_deletes_iff (intact : Records.Intact recordsMap)
    (asks : request.AsksToDelete cassUuidFromString ⟨recordsMap, ipGroupMap⟩ (.record id)) :
    request.Deletes cassUuidFromString ⟨recordsMap, ipGroupMap⟩ (.record id) ↔
      request.DeleteReached ⟨recordsMap, ipGroupMap⟩ (.record id) := by
  obtain ⟨chain, spare, sound⟩ := intact
  obtain ⟨operation, forId⟩ := asks
  rcases @recordOperation_delete cassUuidFromString request recordsMap id forId with
    ⟨incomplete, runs⟩ | ⟨complete, runs⟩
  · have serves := @serveSync_recordOperation _ _ ⟨recordsMap, ipGroupMap⟩ _ _ _ operation runs
    obtain ⟨chain', spare', after⟩ := Records.Intact.step ⟨chain, spare, sound⟩
      (.deleteFromUuid id)
    have gone := after.slotOfId_eq_none_iff_not_stored.mp (sound.slotOfId_deleted id)
    exact ⟨fun _ => incomplete, fun _ => ⟨_, _, serves, gone, success_ne_badRequest⟩⟩
  · have serves := @serveSync_recordOperation _ _ ⟨recordsMap, ipGroupMap⟩ _ _ _ operation runs
    refine ⟨?_, fun incomplete => absurd incomplete complete⟩
    rintro ⟨response, after, answered, -, notBad⟩
    obtain ⟨isBad, -⟩ := Prod.mk.inj (Except.ok.inj (serves.symm.trans answered))
    exact absurd isBad.symm notBad

/-- **When a delete of an entry deletes.** -/
theorem entry_deletes_iff (entered : IpGroup.Entered ipGroupMap)
    (asks : request.AsksToDelete cassUuidFromString ⟨recordsMap, ipGroupMap⟩
      (.entry groupId id)) :
    request.Deletes cassUuidFromString ⟨recordsMap, ipGroupMap⟩ (.entry groupId id) ↔
      request.DeleteReached ⟨recordsMap, ipGroupMap⟩ (.entry groupId id) := by
  obtain ⟨operation, forGroup, forId, slotIdx, bounded, inUse, holds, ofGroup⟩ := asks
  have serves := @serveSync_entryOperation cassUuidFromString request ⟨recordsMap, ipGroupMap⟩ _
    operation
  have found := entered.slotOfId_eq_some inUse holds
  rcases @entryOperation_delete cassUuidFromString request ipGroupMap id groupId forGroup forId with
    ⟨incomplete, runs⟩ | ⟨complete, unchanged⟩
  · rw [runs] at serves
    have deleted := entered.deleted_iff bounded inUse holds ofGroup
    constructor
    · rintro ⟨response, after, answered, gone, -⟩
      obtain ⟨-, rfl⟩ := Prod.mk.inj (Except.ok.inj (serves.symm.trans answered))
      refine ⟨incomplete, fun other isSlot => ?_⟩
      obtain rfl : slotIdx = other := Option.some.inj (found.symm.trans isSlot)
      exact deleted.mp gone
    · rintro ⟨-, ends⟩
      exact ⟨_, _, serves, deleted.mpr (ends slotIdx found), success_ne_badRequest⟩
  · refine ⟨?_, fun reached => absurd reached.1 complete⟩
    rintro ⟨response, after, answered, gone, -⟩
    obtain ⟨-, rfl⟩ := Prod.mk.inj (Except.ok.inj (serves.symm.trans answered))
    refine absurd ⟨slotIdx, bounded, ?_⟩ gone
    dsimp only
    rw [unchanged]
    exact ⟨inUse, holds⟩

end Deletes

/-- **A sync delete deletes exactly when a parameter of the other operations is
missing**, and for an entry when the deletion finds the bucket of the entry. The
caches may be any that calls reach. -/
theorem delete_deletes_iff (recordCalls : List Records.Call) (entryCalls : List IpGroup.TextCall)
    (cassUuidFromString : List UInt8 → Option CassUuid) (request : SyncRequest) (target : Target)
    (asks : request.AsksToDelete cassUuidFromString
      ⟨Run.exec Records.Mmap.step .fresh recordCalls,
        Run.exec IpGroup.Mmap.stepText .fresh entryCalls⟩ target) :
    request.Deletes cassUuidFromString
        ⟨Run.exec Records.Mmap.step .fresh recordCalls,
          Run.exec IpGroup.Mmap.stepText .fresh entryCalls⟩ target ↔
      request.DeleteReached
        ⟨Run.exec Records.Mmap.step .fresh recordCalls,
          Run.exec IpGroup.Mmap.stepText .fresh entryCalls⟩ target := by
  have intact := Records.Intact.run recordCalls
  have entered := IpGroup.Entered.runText entryCalls
  generalize Run.exec Records.Mmap.step .fresh recordCalls = recordsMap at intact asks ⊢
  generalize Run.exec IpGroup.Mmap.stepText .fresh entryCalls = ipGroupMap at entered asks ⊢
  cases target with
  | record id => exact record_deletes_iff intact asks
  | entry groupId id => exact entry_deletes_iff entered asks

/-! ### A delete with too many parameters -/

/-- The call that stores an address in the group 1 under the id 1. -/
def storeAddress : IpGroup.TextCall :=
  .append idOne idOne (bytesOf "TR") (addressOf (bytesOf "10.0.0.1")) 0

/-- A request of the given text. -/
def plainRequest (payload : List UInt8) : SyncRequest := ⟨payload, ⟨0, 0⟩, ⟨0, 0⟩⟩

/-- A delete of the entry 1 with nothing but the two ids. -/
def shortDelete : SyncRequest :=
  plainRequest (bytesOf "type=1-3&group_id=" ++ textOfOne ++ bytesOf "&db_id=" ++ textOfOne)

theorem storeAddress_stores :
    ((Run.exec IpGroup.Mmap.stepText .fresh [storeAddress]).dataEntries 0).isUsed = true ∧
      ((Run.exec IpGroup.Mmap.stepText .fresh [storeAddress]).dataEntries 0).id = idOne ∧
      ((Run.exec IpGroup.Mmap.stepText .fresh [storeAddress]).dataEntries 0).groupId = idOne := by
  rw [IpGroup.Mmap.fresh_eq_freshTable]
  decide +kernel

/-- The short delete names the entry 1 of any cache that has it in its first
slot. -/
theorem shortDelete_asks {recordsMap : Records.Mmap} {ipGroupMap : IpGroup.Mmap}
    (stored : (ipGroupMap.dataEntries 0).isUsed = true ∧
      (ipGroupMap.dataEntries 0).id = idOne ∧ (ipGroupMap.dataEntries 0).groupId = idOne) :
    shortDelete.AsksToDelete readsOne ⟨recordsMap, ipGroupMap⟩ (.entry idOne idOne) := by
  refine ⟨?_, ?_, ?_, 0, by decide, stored⟩
  · decide +kernel
  · decide +kernel
  · decide +kernel

theorem delete_deletes_iff_short :
    shortDelete.Deletes readsOne
        ⟨Run.exec Records.Mmap.step .fresh [],
          Run.exec IpGroup.Mmap.stepText .fresh [storeAddress]⟩ (.entry idOne idOne) ↔
      shortDelete.DeleteReached
        ⟨Run.exec Records.Mmap.step .fresh [],
          Run.exec IpGroup.Mmap.stepText .fresh [storeAddress]⟩ (.entry idOne idOne) :=
  delete_deletes_iff [] [storeAddress] readsOne shortDelete (.entry idOne idOne)
    (shortDelete_asks storeAddress_stores)

/-- A delete of the record 1 with the parameters of an add. -/
def fullDelete : SyncRequest :=
  plainRequest (bytesOf "type=0-3&zone=b&rec_type=16&ttl=60&priority=0&name=a&db_id=" ++
    textOfOne ++ bytesOf "&group_id=" ++ textOfOne ++ bytesOf "&is_geo=0&is_proxy=0")

/-- A delete that carries all parameters is answered with a bad request, and the
record stays. -/
theorem full_delete_refused :
    fullDelete.AsksToDelete readsOne
        ⟨Run.exec Records.Mmap.step .fresh [storeText], IpGroup.Mmap.fresh⟩ (.record idOne) ∧
      ¬ fullDelete.Deletes readsOne
        ⟨Run.exec Records.Mmap.step .fresh [storeText], IpGroup.Mmap.fresh⟩ (.record idOne) := by
  have asks : fullDelete.AsksToDelete readsOne
      ⟨Run.exec Records.Mmap.step .fresh [storeText], IpGroup.Mmap.fresh⟩ (.record idOne) :=
    ⟨by decide +kernel, by decide +kernel⟩
  have complete : fullDelete.recordParams ≠ none := by decide +kernel
  exact ⟨asks, fun deletes =>
    complete ((record_deletes_iff (Records.Intact.run [storeText]) asks).mp deletes)⟩

end EdgeDNS.Core
