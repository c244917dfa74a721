import EdgeDNS.Cache.RecordsInvariant
import EdgeDNS.Core.Handle
import EdgeDNS.Core.RData

/-!
# Sync requests on records

The part of `Core::worker` that serves a sync connection, for the operations on
records. A request is a text of `key=value` pairs. Its type selects an add, an
update or a delete; the parameters are cut to the sizes of local arrays, and
the numbers are read by `atoi`.

The results of the calls on the cache decide nothing but whether an update goes
on to delete and append. An exception of `generateRData` leaves the worker.

`cass_uuid_from_string` belongs to the database driver and is a parameter. When
it fails it leaves its variable as it was, so a request comes with what the two
variables held before.
-/

set_option autoImplicit false

namespace EdgeDNS.Core

open Utils RData

/-! ## Requests and responses -/

/-- The bytes of a text in ASCII. -/
def bytesOf (text : String) : List UInt8 := text.toList.map fun char => UInt8.ofNat char.toNat

/-- The response to a request that names no operation or lacks a parameter. -/
def badRequest : String :=
  "HTTP/1.1 400 Bad Request\r\nContent-Type: text/plain\r\nConnection: close\r\n" ++
    "Content-Length: 11\r\n\r\nBad Request"

/-- A response with a body of one character. -/
def okResponse (body : String) : String :=
  "HTTP/1.1 200 OK\r\nContent-Type: text/plain\r\nConnection: close\r\n" ++
    "Content-Length: 1\r\n\r\n" ++ body

/-- Body `0`. -/
def success : String := okResponse "0"

/-- Body `1`. -/
def notFound : String := okResponse "1"

/-- A request, and what the variables for its two ids hold before. -/
structure SyncRequest where
  payload : List UInt8
  staleGroupId : CassUuid
  staleId : CassUuid
deriving DecidableEq, Repr

/-- The buffer that the payload has been received into. -/
def SyncRequest.buffer (request : SyncRequest) : List UInt8 := queryBuf request.payload

/-- A parameter of a request in an array of the given size. -/
def SyncRequest.param (request : SyncRequest) (key : String) (maxLen : Nat) :
    Option (List UInt8) :=
  getParamFromCharBuffer request.buffer (bytesOf key) maxLen

/-- What the type of a request asks for. Operations other than `1`, `2` and `3`
are refused first. -/
inductive SyncOperation
  | recordOperation (op : UInt8)
  | entryOperation (op : UInt8)
  | refused
deriving DecidableEq, Repr

/-- What the parameter `type` asks for. -/
def SyncRequest.operation (request : SyncRequest) : SyncOperation :=
  match request.param "type" 32 with
  | none => .refused
  | some bufType =>
      let op := bufType.getD 2 0
      if op ≠ 49 ∧ op ≠ 50 ∧ op ≠ 51 then .refused
      else if bufType.getD 0 0 = 48 ∧ bufType.getD 1 0 = 45 then .recordOperation op
      else if bufType.getD 0 0 = 49 ∧ bufType.getD 1 0 = 45 then .entryOperation op
      else .refused

/-- The parameters that every operation on a record but a delete needs. -/
structure RecordParams where
  zone : List UInt8
  type : List UInt8
  ttl : List UInt8
  prio : List UInt8
  name : List UInt8
  idStr : List UInt8
  groupIdStr : List UInt8
  isGeoStr : List UInt8
  isProxyStr : List UInt8
deriving DecidableEq, Repr

/-- The nine parameters of a record, when all are there. -/
def SyncRequest.recordParams (request : SyncRequest) : Option RecordParams := do
  let zone ← request.param "zone" 32
  let type ← request.param "rec_type" 32
  let ttl ← request.param "ttl" 32
  let prio ← request.param "priority" 32
  let name ← request.param "name" 32
  let idStr ← request.param "db_id" 40
  let groupIdStr ← request.param "group_id" 40
  let isGeoStr ← request.param "is_geo" 2
  let isProxyStr ← request.param "is_proxy" 2
  return ⟨zone, type, ttl, prio, name, idStr, groupIdStr, isGeoStr, isProxyStr⟩

/-- A flag is set when its first character is `1`. -/
def isSet (flag : List UInt8) : Bool := flag.getD 0 0 == 49

/-- The fields that a request gives to a record. -/
def RecordParams.data (params : RecordParams) (groupId : CassUuid) (isGeo : Bool)
    (rdata : List UInt8) : Records.RecordData where
  ttl := UInt32.ofInt (atoi params.ttl)
  priority := UInt16.ofInt (atoi params.prio)
  groupId := groupId
  isGeo := isGeo
  isProxy := isSet params.isProxyStr
  binaryRdata := rdata

/-- The parameters are complete when each of them is there. -/
theorem SyncRequest.recordParams_eq_some_iff {request : SyncRequest} {params : RecordParams} :
    request.recordParams = some params ↔
      request.param "zone" 32 = some params.zone ∧
      request.param "rec_type" 32 = some params.type ∧
      request.param "ttl" 32 = some params.ttl ∧
      request.param "priority" 32 = some params.prio ∧
      request.param "name" 32 = some params.name ∧
      request.param "db_id" 40 = some params.idStr ∧
      request.param "group_id" 40 = some params.groupIdStr ∧
      request.param "is_geo" 2 = some params.isGeoStr ∧
      request.param "is_proxy" 2 = some params.isProxyStr := by
  constructor
  · intro complete
    simp only [recordParams, Option.bind_eq_bind, Option.bind_eq_some_iff, Option.pure_def,
      Option.some.injEq] at complete
    obtain ⟨_, zone, _, type, _, ttl, _, prio, _, name, _, idStr, _, groupIdStr, _, isGeoStr, _,
      isProxyStr, rfl⟩ := complete
    exact ⟨zone, type, ttl, prio, name, idStr, groupIdStr, isGeoStr, isProxyStr⟩
  · rintro ⟨zone, type, ttl, prio, name, idStr, groupIdStr, isGeoStr, isProxyStr⟩
    simp only [recordParams, zone, type, ttl, prio, name, idStr, groupIdStr, isGeoStr, isProxyStr,
      Option.bind_eq_bind, Option.bind_some, Option.pure_def]

/-! ## The operations -/

section Operations

variable (cassUuidFromString : List UInt8 → Option CassUuid) (request : SyncRequest)
  (recordsMap : Records.Mmap)

/-- The id that a request names. -/
def namedId (idStr : List UInt8) : CassUuid := (cassUuidFromString idStr).getD request.staleId

/-- The group that a request names. -/
def namedGroup (groupIdStr : List UInt8) : CassUuid :=
  (cassUuidFromString groupIdStr).getD request.staleGroupId

/-- Add a record. The result of the append is not looked at. -/
def addRecord (params : RecordParams) (groupId id : CassUuid) :
    Except StdException (String × Records.Mmap) :=
  let nameWire := stringToWire params.name true
  if isSet params.isGeoStr then
    .ok (success, (recordsMap.appendRecord nameWire (atoi params.type) id
      (params.data groupId true [])).2)
  else
    match request.param "value" 4096 with
    | none => .ok (notFound, recordsMap)
    | some value => do
        let rdata ← generateRData value (atoi params.type)
        return (success, (recordsMap.appendRecord nameWire (atoi params.type) id
          (params.data groupId false rdata)).2)

/-- Update a record, and when that is refused delete it and append it under the
given name and type. -/
def updateOrReplace (nameWire : List UInt8) (type : Int) (id : CassUuid)
    (data : Records.RecordData) : Records.Mmap :=
  let updated := recordsMap.updateRecord id data
  if updated.1 then updated.2
  else ((recordsMap.deleteRecordFromUuid id).2.appendRecord nameWire type id data).2

/-- Update a record. One that is not updated is deleted and added again. -/
def updateRecord (params : RecordParams) (groupId id : CassUuid) :
    Except StdException (String × Records.Mmap) :=
  let nameWire := stringToWire params.name true
  if isSet params.isGeoStr then
    .ok (success, updateOrReplace recordsMap nameWire (atoi params.type) id
      (params.data groupId true []))
  else
    match request.param "value" 4096 with
    | none => .ok (notFound, recordsMap)
    | some value => do
        let rdata ← generateRData value (atoi params.type)
        return (success, updateOrReplace recordsMap nameWire (atoi params.type) id
          (params.data groupId false rdata))

/-- The operations on records. A delete is only reached when a parameter of the
other operations is missing. -/
def recordOperation (op : UInt8) : Except StdException (String × Records.Mmap) :=
  match request.recordParams with
  | some params =>
      let groupId := namedGroup cassUuidFromString request params.groupIdStr
      let id := namedId cassUuidFromString request params.idStr
      if op = 49 then addRecord request recordsMap params groupId id
      else if op = 50 then updateRecord request recordsMap params groupId id
      else .ok (badRequest, recordsMap)
  | none =>
      match request.param "db_id" 40 with
      | none => .ok (badRequest, recordsMap)
      | some idStr =>
          if op = 51 then
            .ok (success, (recordsMap.deleteRecordFromUuid
              (namedId cassUuidFromString request idStr)).2)
          else .ok (badRequest, recordsMap)

/-- A sync request and the record cache. The response to an operation on the
entries of a group depends on the address cache and is left open. -/
def serveRecords : Except StdException (Option String × Records.Mmap) :=
  match request.operation with
  | .recordOperation op =>
      (recordOperation cassUuidFromString request recordsMap op).map fun (response, after) =>
        (some response, after)
  | .entryOperation _ => .ok (none, recordsMap)
  | .refused => .ok (some badRequest, recordsMap)

end Operations

theorem serveRecords_recordOperation {cassUuidFromString : List UInt8 → Option CassUuid}
    {request : SyncRequest} {recordsMap after : Records.Mmap} {op : UInt8} {response : String}
    (operation : request.operation = .recordOperation op) :
    serveRecords cassUuidFromString request recordsMap = .ok (some response, after) ↔
      recordOperation cassUuidFromString request recordsMap op = .ok (response, after) := by
  cases result : recordOperation cassUuidFromString request recordsMap op with
  | error error => simp [serveRecords, operation, result, Except.map]
  | ok served => simp [serveRecords, operation, result, Except.map, Prod.ext_iff]

theorem success_ne_notFound : success ≠ notFound := by decide +kernel

theorem success_ne_badRequest : success ≠ badRequest := by decide +kernel

/-! ## Updates -/

/-- The fields that an update asks for, when all of its parameters are there. -/
def requestedData (cassUuidFromString : List UInt8 → Option CassUuid) (request : SyncRequest) :
    Option (Except StdException Records.RecordData) := do
  let params ← request.recordParams
  let groupId := namedGroup cassUuidFromString request params.groupIdStr
  if isSet params.isGeoStr then return .ok (params.data groupId true [])
  else
    let value ← request.param "value" 4096
    return (generateRData value (atoi params.type)).map (params.data groupId false)

/-- A record with the given id and fields is stored. -/
def Stores (recordsMap : Records.Mmap) (id : CassUuid) (data : Records.RecordData) : Prop :=
  ∃ slotIdx, recordsMap.slotOfId id = some slotIdx ∧
    (recordsMap.dataRecords slotIdx).response =
      data.response id (recordsMap.dataRecords slotIdx).bucketIdx

/-- The record of an id is the same in two stores. -/
def SameRecord (before after : Records.Mmap) (id : CassUuid) : Prop :=
  ∃ slotIdx, before.slotOfId id = some slotIdx ∧ after.slotOfId id = some slotIdx ∧
    after.dataRecords slotIdx = before.dataRecords slotIdx

/-- What an update must not do is lose the record: afterwards it has the
requested fields or is the one it was, and success means the requested
fields. -/
structure KeepsRecord (cassUuidFromString : List UInt8 → Option CassUuid) (request : SyncRequest)
    (id : CassUuid) (before after : Records.Mmap) (response : String) : Prop where
  present : after.slotOfId id ≠ none
  kept : (∃ data, requestedData cassUuidFromString request = some (.ok data) ∧
    Stores after id data) ∨ SameRecord before after id
  honest : response = success →
    ∃ data, requestedData cassUuidFromString request = some (.ok data) ∧ Stores after id data

/-- The requested wire data does not fit a slot. -/
def RequestsTooMuch (cassUuidFromString : List UInt8 → Option CassUuid)
    (request : SyncRequest) : Prop :=
  ∃ data, requestedData cassUuidFromString request = some (.ok data) ∧ ¬ data.Fits

section UpdateOrReplace

variable {recordsMap : Records.Mmap} {chain : Nat → List Nat} {spare : List Nat} {slotIdx : Nat}
  {id : CassUuid} {data : Records.RecordData}

/-- Fields that fit are written into the slot of the id. -/
theorem updateOrReplace_fits (sound : Records.Sound recordsMap chain spare)
    (found : recordsMap.slotOfId id = some slotIdx) (fits : data.Fits) (nameWire : List UInt8)
    (type : Int) : Stores (updateOrReplace recordsMap nameWire type id data) id data := by
  obtain ⟨accepted, effect⟩ := sound.updateRecord_accepted found fits
  obtain ⟨bounded, inUse, -⟩ := sound.slotOfId_eq_some_iff.mp found
  have updated : updateOrReplace recordsMap nameWire type id data =
      (recordsMap.updateRecord id data).2 := by
    rw [updateOrReplace, if_pos accepted]
  have stillUsed : ((recordsMap.updateRecord id data).2.dataRecords slotIdx).isUsed = true :=
    (congrFun (congrArg LinkedArena.Arena.used effect.arena) slotIdx).trans inUse
  have holds : ((recordsMap.updateRecord id data).2.dataRecords slotIdx).id = id :=
    congrArg Records.DNSResponseData.id effect.own
  have sameBucket : ((recordsMap.updateRecord id data).2.dataRecords slotIdx).bucketIdx =
      (recordsMap.dataRecords slotIdx).bucketIdx :=
    congrArg Records.DNSResponseData.bucketIdx effect.own
  rw [updated]
  refine ⟨slotIdx, ?_, ?_⟩
  · exact (sound.updated found effect).slotOfId_eq_some_iff.mpr ⟨bounded, stillUsed, holds⟩
  · rw [sameBucket]
    exact effect.own

/-- Fields that do not fit are refused twice, and the record is gone. -/
theorem updateOrReplace_tooMuch (sound : Records.Sound recordsMap chain spare)
    (tooMuch : ¬ data.Fits) (nameWire : List UInt8) (type : Int) :
    (updateOrReplace recordsMap nameWire type id data).slotOfId id = none := by
  have notUpdated : (recordsMap.updateRecord id data).1 = false := by
    rcases sound.updateRecord_cases id data with refused | ⟨_, -, fits, -⟩
    · exact congrArg Prod.fst refused
    · exact absurd fits tooMuch
  have notAppended : ((recordsMap.deleteRecordFromUuid id).2.appendRecord nameWire type id
      data).2 = (recordsMap.deleteRecordFromUuid id).2 := by
    have tooLong := Records.RecordData.not_fits_iff.mp tooMuch
    simp only [Records.Mmap.appendRecord, Records.Mmap.prepareAppend, if_pos tooLong]
  rw [updateOrReplace, notUpdated, if_neg Bool.false_ne_true, notAppended]
  exact sound.slotOfId_deleted id

end UpdateOrReplace

/-- What an update does, in terms of the fields it asks for. -/
theorem recordOperation_update (cassUuidFromString : List UInt8 → Option CassUuid)
    (request : SyncRequest) (recordsMap : Records.Mmap) :
    (∃ response ≠ success, requestedData cassUuidFromString request = none ∧
      recordOperation cassUuidFromString request recordsMap 50 = .ok (response, recordsMap)) ∨
    (∃ error, requestedData cassUuidFromString request = some (.error error) ∧
      recordOperation cassUuidFromString request recordsMap 50 = .error error) ∨
    ∃ params data, request.recordParams = some params ∧
      requestedData cassUuidFromString request = some (.ok data) ∧
      recordOperation cassUuidFromString request recordsMap 50 =
        .ok (success, updateOrReplace recordsMap (stringToWire params.name true)
          (atoi params.type) (namedId cassUuidFromString request params.idStr) data) := by
  cases complete : request.recordParams with
  | none =>
      refine .inl ⟨badRequest, success_ne_badRequest.symm, ?_, ?_⟩
      · simp only [requestedData, complete]
        rfl
      · simp only [recordOperation, complete]
        split
        · rfl
        · exact if_neg (by decide)
  | some params =>
      have runs : recordOperation cassUuidFromString request recordsMap 50 =
          updateRecord request recordsMap params
            (namedGroup cassUuidFromString request params.groupIdStr)
            (namedId cassUuidFromString request params.idStr) := by
        simp only [recordOperation, complete]
        rfl
      rw [runs]
      by_cases geo : isSet params.isGeoStr = true
      · refine .inr (.inr ⟨params, params.data
          (namedGroup cassUuidFromString request params.groupIdStr) true [], rfl, ?_, ?_⟩)
        · simp only [requestedData, complete, Option.bind_eq_bind, Option.bind_some, geo, if_true]
          rfl
        · simp only [updateRecord, geo, if_true]
      · cases given : request.param "value" 4096 with
        | none =>
            refine .inl ⟨notFound, success_ne_notFound.symm, ?_, ?_⟩
            · simp only [requestedData, complete, Option.bind_eq_bind, Option.bind_some, geo,
                given]
              rfl
            · simp only [updateRecord, geo, given]
              rfl
        | some value =>
            cases generated : generateRData value (atoi params.type) with
            | error error =>
                refine .inr (.inl ⟨error, ?_, ?_⟩)
                · simp only [requestedData, complete, Option.bind_eq_bind, Option.bind_some, geo,
                    given, generated]
                  rfl
                · simp only [updateRecord, geo, given, generated]
                  rfl
            | ok rdata =>
                refine .inr (.inr ⟨params, params.data
                  (namedGroup cassUuidFromString request params.groupIdStr) false rdata, rfl, ?_,
                  ?_⟩)
                · simp only [requestedData, complete, Option.bind_eq_bind, Option.bind_some, geo,
                    given, generated]
                  rfl
                · simp only [updateRecord, geo, given, generated]
                  rfl

/-- The id of a complete request whose text the driver reads. -/
theorem namedId_of_recordParams {cassUuidFromString : List UInt8 → Option CassUuid}
    {request : SyncRequest} {id : CassUuid} {params : RecordParams}
    (forId : (request.param "db_id" 40).bind cassUuidFromString = some id)
    (complete : request.recordParams = some params) :
    namedId cassUuidFromString request params.idStr = id := by
  have idStr := (SyncRequest.recordParams_eq_some_iff.mp complete).2.2.2.2.2.1
  rw [idStr, Option.bind_some] at forId
  rw [namedId, forId, Option.getD_some]

/-- **An update keeps the record exactly when the requested data fits.** -/
theorem update_keeps_iff (calls : List Records.Call)
    (cassUuidFromString : List UInt8 → Option CassUuid) (request : SyncRequest) (id : CassUuid)
    (isUpdate : request.operation = .recordOperation 50)
    (forId : (request.param "db_id" 40).bind cassUuidFromString = some id)
    (stored : (Run.exec Records.Mmap.step .fresh calls).slotOfId id ≠ none) :
    (∀ response after,
      serveRecords cassUuidFromString request (Run.exec Records.Mmap.step .fresh calls) =
        .ok (some response, after) →
      KeepsRecord cassUuidFromString request id (Run.exec Records.Mmap.step .fresh calls) after
        response) ↔
      ¬ RequestsTooMuch cassUuidFromString request := by
  obtain ⟨chain, spare, sound⟩ := Records.Intact.run calls
  generalize Run.exec Records.Mmap.step .fresh calls = before at stored sound ⊢
  simp only [serveRecords_recordOperation isUpdate]
  obtain ⟨slotIdx, found⟩ := Option.ne_none_iff_exists'.mp stored
  constructor
  · rintro keeps ⟨data, requested, tooMuch⟩
    rcases recordOperation_update cassUuidFromString request before with
      ⟨_, _, nothing, _⟩ | ⟨_, failed, _⟩ | ⟨params, data', complete, requested', runs⟩
    · exact absurd (requested.symm.trans nothing) (Option.some_ne_none _)
    · cases requested.symm.trans failed
    · obtain rfl : data = data' :=
        Except.ok.inj (Option.some.inj (requested.symm.trans requested'))
      rw [namedId_of_recordParams forId complete] at runs
      exact (keeps _ _ runs).present (updateOrReplace_tooMuch sound tooMuch _ _)
  · intro fits response after runs
    rcases recordOperation_update cassUuidFromString request before with
      ⟨refusal, notSuccess, -, refused⟩ | ⟨error, -, failed⟩ |
        ⟨params, data, complete, requested, updates⟩
    · obtain ⟨rfl, rfl⟩ := Prod.mk.inj (Except.ok.inj (refused.symm.trans runs))
      exact ⟨stored, .inr ⟨slotIdx, found, found, rfl⟩,
        fun isSuccess => absurd isSuccess notSuccess⟩
    · cases failed.symm.trans runs
    · obtain ⟨rfl, rfl⟩ := Prod.mk.inj (Except.ok.inj (updates.symm.trans runs))
      rw [namedId_of_recordParams forId complete]
      have fitsSlot : data.Fits := by
        by_contra tooMuch
        exact fits ⟨data, requested, tooMuch⟩
      have stores := updateOrReplace_fits sound found fitsSlot (stringToWire params.name true)
        (atoi params.type)
      refine ⟨?_, .inl ⟨data, requested, stores⟩, fun _ => ⟨data, requested, stores⟩⟩
      obtain ⟨slot, at', -⟩ := stores
      rw [at']
      exact Option.some_ne_none _

/-! ### An update that loses its record -/

/-- The text of the id 1. -/
def textOfOne : List UInt8 := bytesOf "00000001-0000-1000-8080-808080808080"

/-- The id that the text `textOfOne` stands for. -/
def idOne : CassUuid := ⟨0x1000000000000001, 0x8080808080808080⟩

/-- The driver's function at the text of the id 1. -/
def readsOne (text : List UInt8) : Option CassUuid := if text = textOfOne then some idOne else none

/-- An update of the id 1 to a text record of the given value. -/
def textUpdate (value : List UInt8) : SyncRequest where
  payload :=
    bytesOf "type=0-2&zone=b&rec_type=16&ttl=60&priority=0&name=a&db_id=" ++ textOfOne ++
      bytesOf "&group_id=" ++ textOfOne ++ bytesOf "&is_geo=0&is_proxy=0&value=" ++ value
  staleGroupId := ⟨0, 0⟩
  staleId := ⟨0, 0⟩

/-- The call that stores the text `x` under the id 1. -/
def storeText : Records.Call :=
  .append [1, 97, 0] 16 idOne ⟨60, 0, ⟨0, 0⟩, false, false, [1, 120]⟩

theorem storeText_stores :
    (Run.exec Records.Mmap.step .fresh [storeText]).slotOfId idOne ≠ none := by
  rw [Records.Mmap.fresh_eq_freshTable]
  decide +kernel

theorem update_keeps_iff_short_text :
    (∀ response after,
      serveRecords readsOne (textUpdate [121]) (Run.exec Records.Mmap.step .fresh [storeText]) =
        .ok (some response, after) →
      KeepsRecord readsOne (textUpdate [121]) idOne
        (Run.exec Records.Mmap.step .fresh [storeText]) after response) ↔
      ¬ RequestsTooMuch readsOne (textUpdate [121]) :=
  update_keeps_iff [storeText] readsOne (textUpdate [121]) idOne (by decide +kernel)
    (by decide +kernel) storeText_stores

/-- An update to a text of 300 characters is answered with success, and the
record is gone. -/
theorem long_update_loses_record :
    (Run.exec Records.Mmap.step .fresh [storeText]).slotOfId idOne ≠ none ∧
    ¬ ∀ response after,
      serveRecords readsOne (textUpdate (List.replicate 300 120))
          (Run.exec Records.Mmap.step .fresh [storeText]) = .ok (some response, after) →
        KeepsRecord readsOne (textUpdate (List.replicate 300 120)) idOne
          (Run.exec Records.Mmap.step .fresh [storeText]) after response := by
  have lost : (serveRecords readsOne (textUpdate (List.replicate 300 120))
      (Run.exec Records.Mmap.step .fresh [storeText])).toOption.map
        (fun served => (served.1, served.2.slotOfId idOne)) = some (some success, none) := by
    rw [Records.Mmap.fresh_eq_freshTable]
    decide +kernel
  refine ⟨storeText_stores, fun keeps => ?_⟩
  simp only [Option.map_eq_some_iff, Prod.mk.injEq] at lost
  obtain ⟨⟨response, after⟩, served, rfl, gone⟩ := lost
  exact (keeps success after (eq_ok_of_toOption served)).present gone

end EdgeDNS.Core
