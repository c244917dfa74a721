import EdgeDNS.Cache.IpGroupOrigin
import EdgeDNS.Cache.RecordsOrigin
import EdgeDNS.Core.SyncEntries
import EdgeDNS.Core.System

/-!
# The whole server

`World.act` is the step of `System` with nothing left open: a sync request is
served on both caches. Every run of activities is a run of the events of
`System` (`World.act_eq_step`), so what is proved of these holds of it.

The rest says what a sync request does to each of the caches in terms of what
it asks for (`World.serveRequest_records`, `World.serveRequest_entries`), and which
calls on the record cache an activity comes to (`act_recordsMap`). So every run of the
server is on that cache a run of calls, and leaves it intact (`intact_run`).
-/

set_option autoImplicit false

namespace EdgeDNS.Core

open Utils RData

/-- What is asked of the server, or done to the database behind it. -/
inductive Activity
  | query (request : Request)
  | lifeCycle
  | sync (request : SyncRequest)
  | administer (database : Database)

/-- A query that can be received. -/
def Activity.Received : Activity → Prop
  | .query request => request.payload.length ≤ receiveSize
  | _ => True

namespace World

variable (server : Server) (cassUuidFromString : List UInt8 → Option CassUuid) (world : World)

/-- Serve a sync request on both caches. An exception ends the process; here it leaves the
world as it is and the run goes on. That only adds runs to those of the program, so what
holds in every state that is reached here holds of it. What the program goes on to serve
is said of the program itself (`Core.ProgramServes`). -/
def serveRequest (request : SyncRequest) : World :=
  match Core.serveSync cassUuidFromString request world.caches with
  | .ok (_, caches) => { world with caches := caches }
  | .error _ => world

/-- One step of the whole server. -/
def act : Activity → World
  | .query request => world.handleQuery server request
  | .lifeCycle => world.queueLifeCycle
  | .sync request => world.serveRequest cassUuidFromString request
  | .administer database => { world with database := database }

/-- The event of `System` that an activity is. -/
def eventOf : Activity → Event
  | .query request => .query request
  | .lifeCycle => .lifeCycle
  | .sync request =>
      .sync request (world.serveRequest cassUuidFromString request).caches.ipGroupMap
  | .administer database => .administer database

/-- **An activity is a step of the open system.** -/
theorem act_eq_step (activity : Activity) :
    world.act server cassUuidFromString activity =
      world.step server cassUuidFromString (world.eventOf cassUuidFromString activity) := by
  cases activity with
  | query request => rfl
  | lifeCycle => rfl
  | administer database => rfl
  | sync request =>
      simp only [act, step, eventOf, serveRequest, serveSync, Core.serveSync, serveRecords]
      cases operation : request.operation with
      | refused => rfl
      | entryOperation op => rfl
      | recordOperation op =>
          dsimp only
          cases recordOperation cassUuidFromString request world.caches.recordsMap op with
          | error error => rfl
          | ok served => rfl

end World

/-! ## Sync requests on the record cache -/

/-- A complete request for the operation, with the name, the type, the id and the
fields that it gives. -/
structure SyncRequest.AsksFor (cassUuidFromString : List UInt8 → Option CassUuid)
    (request : SyncRequest) (op : UInt8) (wireName : List UInt8) (qtype : Int) (id : CassUuid)
    (data : Records.RecordData) : Prop where
  operation : request.operation = .recordOperation op
  names : ∃ params, request.recordParams = some params ∧
    wireName = stringToWire params.name true ∧ qtype = atoi params.type ∧
    id = namedId cassUuidFromString request params.idStr
  data : requestedData cassUuidFromString request = some (.ok data)

/-- What is left of the record cache by a sync request. -/
inductive RecordsServed (cassUuidFromString : List UInt8 → Option CassUuid) (request : SyncRequest)
    (before : Records.Mmap) : Records.Mmap → Prop
  | unchanged : RecordsServed cassUuidFromString request before before
  | added {wireName : List UInt8} {qtype : Int} {id : CassUuid} {data : Records.RecordData}
      (asks : request.AsksFor cassUuidFromString 49 wireName qtype id data) :
      RecordsServed cassUuidFromString request before
        (before.appendRecord wireName qtype id data).2
  | updated {wireName : List UInt8} {qtype : Int} {id : CassUuid} {data : Records.RecordData}
      (asks : request.AsksFor cassUuidFromString 50 wireName qtype id data) :
      RecordsServed cassUuidFromString request before
        (updateOrReplace before wireName qtype id data)
  | deleted (id : CassUuid) :
      RecordsServed cassUuidFromString request before (before.deleteRecordFromUuid id).2

section Records

variable {cassUuidFromString : List UInt8 → Option CassUuid} {request : SyncRequest}
  {recordsMap after : Records.Mmap} {response : String} {params : RecordParams}

theorem addRecord_served (operation : request.operation = .recordOperation 49)
    (complete : request.recordParams = some params)
    (runs : addRecord request recordsMap params
      (namedGroup cassUuidFromString request params.groupIdStr)
      (namedId cassUuidFromString request params.idStr) = .ok (response, after)) :
    RecordsServed cassUuidFromString request recordsMap after := by
  have names : ∃ params', request.recordParams = some params' ∧
      stringToWire params.name true = stringToWire params'.name true ∧
      atoi params.type = atoi params'.type ∧
      namedId cassUuidFromString request params.idStr =
        namedId cassUuidFromString request params'.idStr := ⟨params, complete, rfl, rfl, rfl⟩
  rw [addRecord] at runs
  split at runs
  · next geo =>
      obtain ⟨-, rfl⟩ := Prod.mk.inj (Except.ok.inj runs)
      refine .added ⟨operation, names, ?_⟩
      simp only [requestedData, complete, Option.bind_eq_bind, Option.bind_some, geo, if_true]
      rfl
  · next notGeo =>
      split at runs
      · obtain ⟨-, rfl⟩ := Prod.mk.inj (Except.ok.inj runs)
        exact .unchanged
      · next value given =>
          cases generated : generateRData value (atoi params.type) with
          | error error =>
              rw [generated] at runs
              cases runs
          | ok rdata =>
              rw [generated] at runs
              obtain ⟨-, rfl⟩ := Prod.mk.inj (Except.ok.inj runs)
              refine .added ⟨operation, names, ?_⟩
              simp only [requestedData, complete, Option.bind_eq_bind, Option.bind_some, notGeo,
                given, generated]
              rfl

/-- What an operation on a record leaves. -/
theorem recordOperation_served {op : UInt8} (operation : request.operation = .recordOperation op)
    (runs : recordOperation cassUuidFromString request recordsMap op = .ok (response, after)) :
    RecordsServed cassUuidFromString request recordsMap after := by
  rcases eq_or_ne op 50 with rfl | notUpdate
  · rcases recordOperation_update cassUuidFromString request recordsMap with
      ⟨_, -, -, refused⟩ | ⟨_, -, failed⟩ | ⟨params, data, complete, requested, updates⟩
    · obtain ⟨-, rfl⟩ := Prod.mk.inj (Except.ok.inj (refused.symm.trans runs))
      exact .unchanged
    · cases failed.symm.trans runs
    · obtain ⟨-, rfl⟩ := Prod.mk.inj (Except.ok.inj (updates.symm.trans runs))
      exact .updated ⟨operation, ⟨params, complete, rfl, rfl, rfl⟩, requested⟩
  · cases complete : request.recordParams with
    | some params =>
        rcases eq_or_ne op 49 with rfl | notAdd
        · have adds : addRecord request recordsMap params
              (namedGroup cassUuidFromString request params.groupIdStr)
              (namedId cassUuidFromString request params.idStr) = .ok (response, after) := by
            simpa only [recordOperation, complete, if_true] using runs
          exact addRecord_served operation complete adds
        · simp only [recordOperation, complete, notAdd, notUpdate, if_false] at runs
          obtain ⟨-, rfl⟩ := Prod.mk.inj (Except.ok.inj runs)
          exact .unchanged
    | none =>
        simp only [recordOperation, complete] at runs
        split at runs
        · obtain ⟨-, rfl⟩ := Prod.mk.inj (Except.ok.inj runs)
          exact .unchanged
        · split at runs
          · obtain ⟨-, rfl⟩ := Prod.mk.inj (Except.ok.inj runs)
            exact .deleted _
          · obtain ⟨-, rfl⟩ := Prod.mk.inj (Except.ok.inj runs)
            exact .unchanged

end Records

/-- **What a sync request leaves of the record cache.** -/
theorem World.serveRequest_records (world : World)
    (cassUuidFromString : List UInt8 → Option CassUuid) (request : SyncRequest) :
    RecordsServed cassUuidFromString request world.caches.recordsMap
      (world.serveRequest cassUuidFromString request).caches.recordsMap := by
  cases operation : request.operation with
  | refused =>
      simp only [World.serveRequest, Core.serveSync, operation]
      exact .unchanged
  | entryOperation op =>
      simp only [World.serveRequest, Core.serveSync, operation]
      exact .unchanged
  | recordOperation op =>
      cases runs : recordOperation cassUuidFromString request world.caches.recordsMap op with
      | error error =>
          simp only [World.serveRequest, Core.serveSync, operation, runs, Except.map]
          exact .unchanged
      | ok result =>
          simp only [World.serveRequest, Core.serveSync, operation, runs, Except.map]
          exact recordOperation_served operation runs

/-! ## Sync requests on the address cache -/

/-- A complete request for the operation, with the parameters that it gives. -/
structure SyncRequest.AsksForEntry (cassUuidFromString : List UInt8 → Option CassUuid)
    (request : SyncRequest) (op : UInt8) (params : EntryParams) (groupId id : CassUuid) : Prop where
  operation : request.operation = .entryOperation op
  complete : request.entryParams = some params
  groupId : groupId = namedGroup cassUuidFromString request params.groupIdStr
  id : id = namedId cassUuidFromString request params.idStr

/-- What is left of the address cache by a sync request. -/
inductive EntriesServed (cassUuidFromString : List UInt8 → Option CassUuid) (request : SyncRequest)
    (before : IpGroup.Mmap) : IpGroup.Mmap → Prop
  | unchanged : EntriesServed cassUuidFromString request before before
  | added {params : EntryParams} {groupId id : CassUuid}
      (asks : request.AsksForEntry cassUuidFromString 49 params groupId id) :
      EntriesServed cassUuidFromString request before (addEntry before params groupId id)
  | updated {params : EntryParams} {groupId id : CassUuid}
      (asks : request.AsksForEntry cassUuidFromString 50 params groupId id) :
      EntriesServed cassUuidFromString request before (updateEntry before params groupId id)
  | deleted (groupId id : CassUuid) :
      EntriesServed cassUuidFromString request before (before.deleteRecordFromUuid groupId id).2

theorem entryOperation_served {cassUuidFromString : List UInt8 → Option CassUuid}
    {request : SyncRequest} {op : UInt8} (operation : request.operation = .entryOperation op)
    (ipGroupMap : IpGroup.Mmap) :
    EntriesServed cassUuidFromString request ipGroupMap
      (entryOperation cassUuidFromString request ipGroupMap op).2 := by
  cases complete : request.entryParams with
  | some params =>
      simp only [entryOperation, complete]
      split
      · exact .unchanged
      · split
        · next isAdd =>
            subst isAdd
            exact .added ⟨operation, complete, rfl, rfl⟩
        · split
          · next isUpdate =>
              subst isUpdate
              exact .updated ⟨operation, complete, rfl, rfl⟩
          · exact .unchanged
  | none =>
      simp only [entryOperation, complete]
      split
      · split
        · exact .deleted _ _
        · exact .unchanged
      · exact .unchanged

/-- **What a sync request leaves of the address cache.** -/
theorem World.serveRequest_entries (world : World)
    (cassUuidFromString : List UInt8 → Option CassUuid) (request : SyncRequest) :
    EntriesServed cassUuidFromString request world.caches.ipGroupMap
      (world.serveRequest cassUuidFromString request).caches.ipGroupMap := by
  cases operation : request.operation with
  | refused =>
      simp only [World.serveRequest, Core.serveSync, operation]
      exact .unchanged
  | entryOperation op =>
      simp only [World.serveRequest, Core.serveSync, operation]
      exact entryOperation_served operation _
  | recordOperation op =>
      cases runs : recordOperation cassUuidFromString request world.caches.recordsMap op with
      | error error =>
          simp only [World.serveRequest, Core.serveSync, operation, runs, Except.map]
          exact .unchanged
      | ok result =>
          simp only [World.serveRequest, Core.serveSync, operation, runs, Except.map]
          exact .unchanged

/-- A sync request touches nothing but the caches. -/
theorem World.serveRequest_others (world : World)
    (cassUuidFromString : List UInt8 → Option CassUuid) (request : SyncRequest) :
    (world.serveRequest cassUuidFromString request).recordQueue = world.recordQueue ∧
      (world.serveRequest cassUuidFromString request).entryQueue = world.entryQueue ∧
      (world.serveRequest cassUuidFromString request).database = world.database := by
  rw [World.serveRequest]
  split <;> exact ⟨rfl, rfl, rfl⟩

/-! ## The calls on the record cache -/

/-- The calls of an update. The append comes when the update is refused. -/
def updateCalls (recordsMap : Records.Mmap) (nameWire : List UInt8) (type : Int) (id : CassUuid)
    (data : Records.RecordData) : List Records.Call :=
  if (recordsMap.updateRecord id data).1 then [.update id data]
  else [.deleteFromUuid id, .append nameWire type id data]

/-- The calls that a sync request comes to. -/
def SyncRequest.recordCalls (cassUuidFromString : List UInt8 → Option CassUuid)
    (request : SyncRequest) (recordsMap : Records.Mmap) : List Records.Call :=
  match request.operation with
  | .recordOperation op =>
      match request.recordParams with
      | some params =>
          let id := namedId cassUuidFromString request params.idStr
          let nameWire := stringToWire params.name true
          match requestedData cassUuidFromString request with
          | some (.ok data) =>
              if op = 49 then [.append nameWire (atoi params.type) id data]
              else if op = 50 then updateCalls recordsMap nameWire (atoi params.type) id data
              else []
          | _ => []
      | none =>
          match request.param "db_id" 40 with
          | some idStr =>
              if op = 51 then [.deleteFromUuid (namedId cassUuidFromString request idStr)] else []
          | none => []
  | _ => []

/-- The calls that an activity makes on the record cache. -/
def Activity.recordCalls (cassUuidFromString : List UInt8 → Option CassUuid) (world : World) :
    Activity → List Records.Call
  | .sync request => request.recordCalls cassUuidFromString world.caches.recordsMap
  | .lifeCycle =>
      match world.recordQueue with
      | [] => []
      | record :: _ =>
          if record.type = .add then [.append record.name record.qtype record.id record.data]
          else []
  | _ => []

section Server

variable {server : Server} {cassUuidFromString : List UInt8 → Option CassUuid}
  {request : SyncRequest} {recordsMap after : Records.Mmap} {response : String}

theorem updateOrReplace_eq (recordsMap : Records.Mmap) (nameWire : List UInt8) (type : Int)
    (id : CassUuid) (data : Records.RecordData) :
    updateOrReplace recordsMap nameWire type id data =
      Run.exec Records.Mmap.step recordsMap (updateCalls recordsMap nameWire type id data) := by
  rw [updateOrReplace, updateCalls]
  split
  · rfl
  · rfl

/-- What an add stores is what its request asks for. -/
theorem addRecord_calls {params : RecordParams} {id : CassUuid}
    (complete : request.recordParams = some params)
    (runs : addRecord request recordsMap params
      (namedGroup cassUuidFromString request params.groupIdStr) id = .ok (response, after)) :
    requestedData cassUuidFromString request = none ∧ after = recordsMap ∨
      ∃ data, requestedData cassUuidFromString request = some (.ok data) ∧
        after = (recordsMap.appendRecord (stringToWire params.name true) (atoi params.type) id
          data).2 := by
  rw [addRecord] at runs
  split at runs
  · next geo =>
      obtain ⟨-, rfl⟩ := Prod.mk.inj (Except.ok.inj runs)
      refine .inr ⟨params.data (namedGroup cassUuidFromString request params.groupIdStr) true [],
        ?_, rfl⟩
      simp only [requestedData, complete, Option.bind_eq_bind, Option.bind_some, geo, if_true]
      rfl
  · next notGeo =>
      split at runs
      · next notGiven =>
          obtain ⟨-, rfl⟩ := Prod.mk.inj (Except.ok.inj runs)
          refine .inl ⟨?_, rfl⟩
          simp only [requestedData, complete, Option.bind_eq_bind, Option.bind_some, notGeo,
            notGiven]
          rfl
      · next value given =>
          cases generated : generateRData value (atoi params.type) with
          | error error =>
              rw [generated] at runs
              cases runs
          | ok rdata =>
              rw [generated] at runs
              obtain ⟨-, rfl⟩ := Prod.mk.inj (Except.ok.inj runs)
              refine .inr ⟨params.data
                (namedGroup cassUuidFromString request params.groupIdStr) false rdata, ?_, rfl⟩
              simp only [requestedData, complete, Option.bind_eq_bind, Option.bind_some, notGeo,
                given, generated]
              rfl

theorem addRecord_error {params : RecordParams} {id groupId : CassUuid} {error : StdException}
    (complete : request.recordParams = some params)
    (fails : addRecord request recordsMap params groupId id = .error error) :
    requestedData cassUuidFromString request = some (.error error) := by
  rw [addRecord] at fails
  split at fails
  · cases fails
  · next notGeo =>
      split at fails
      · cases fails
      · next value given =>
          cases generated : generateRData value (atoi params.type) with
          | ok rdata =>
              rw [generated] at fails
              cases fails
          | error thrown =>
              rw [generated] at fails
              cases fails
              simp only [requestedData, complete, Option.bind_eq_bind, Option.bind_some, notGeo,
                given, generated]
              rfl

theorem recordOperation_calls {op : UInt8} (operation : request.operation = .recordOperation op)
    (runs : recordOperation cassUuidFromString request recordsMap op = .ok (response, after)) :
    after = Run.exec Records.Mmap.step recordsMap
      (request.recordCalls cassUuidFromString recordsMap) := by
  cases complete : request.recordParams with
  | none =>
      cases given : request.param "db_id" 40 with
      | none =>
          simp only [recordOperation, complete, given] at runs
          obtain ⟨-, rfl⟩ := Prod.mk.inj (Except.ok.inj runs)
          simp only [SyncRequest.recordCalls, operation, complete, given, Run.exec_nil]
      | some idStr =>
          simp only [recordOperation, complete, given] at runs
          simp only [SyncRequest.recordCalls, operation, complete, given]
          split at runs
          · next isDelete =>
              obtain ⟨-, rfl⟩ := Prod.mk.inj (Except.ok.inj runs)
              rw [if_pos isDelete]
              rfl
          · next notDelete =>
              obtain ⟨-, rfl⟩ := Prod.mk.inj (Except.ok.inj runs)
              rw [if_neg notDelete, Run.exec_nil]
  | some params =>
      rcases eq_or_ne op 50 with rfl | notUpdate
      · rcases recordOperation_update cassUuidFromString request recordsMap with
          ⟨_, -, nothing, refused⟩ | ⟨_, -, failed⟩ | ⟨params', data, complete', requested, updates⟩
        · obtain ⟨-, rfl⟩ := Prod.mk.inj (Except.ok.inj (refused.symm.trans runs))
          simp only [SyncRequest.recordCalls, operation, complete, nothing, Run.exec_nil]
        · cases failed.symm.trans runs
        · obtain ⟨-, rfl⟩ := Prod.mk.inj (Except.ok.inj (updates.symm.trans runs))
          obtain rfl : params = params' := Option.some.inj (complete.symm.trans complete')
          simp only [SyncRequest.recordCalls, operation, complete, requested]
          exact updateOrReplace_eq ..
      · rcases eq_or_ne op 49 with rfl | notAdd
        · have adds : addRecord request recordsMap params
              (namedGroup cassUuidFromString request params.groupIdStr)
              (namedId cassUuidFromString request params.idStr) = .ok (response, after) := by
            simpa only [recordOperation, complete, if_true] using runs
          rcases addRecord_calls complete adds with ⟨nothing, rfl⟩ | ⟨data, requested, rfl⟩
          · simp only [SyncRequest.recordCalls, operation, complete, nothing, Run.exec_nil]
          · simp only [SyncRequest.recordCalls, operation, complete, requested, if_true]
            rfl
        · simp only [recordOperation, complete, notAdd, notUpdate, if_false] at runs
          obtain ⟨-, rfl⟩ := Prod.mk.inj (Except.ok.inj runs)
          simp only [SyncRequest.recordCalls, operation, complete, notAdd, notUpdate, if_false]
          split <;> rfl

/-- A request whose exception leaves the worker comes to no calls. -/
theorem recordCalls_of_error {op : UInt8} (operation : request.operation = .recordOperation op)
    {error : StdException}
    (fails : recordOperation cassUuidFromString request recordsMap op = .error error) :
    request.recordCalls cassUuidFromString recordsMap = [] := by
  cases complete : request.recordParams with
  | none =>
      simp only [recordOperation, complete] at fails
      split at fails
      · cases fails
      · split at fails
        · cases fails
        · cases fails
  | some params =>
      have requested : requestedData cassUuidFromString request = some (.error error) ∨
          op ≠ 49 ∧ op ≠ 50 := by
        rcases eq_or_ne op 49 with rfl | notAdd
        · refine .inl (@addRecord_error cassUuidFromString _ recordsMap _
            (namedId cassUuidFromString request params.idStr)
            (namedGroup cassUuidFromString request params.groupIdStr) _ complete ?_)
          simpa only [recordOperation, complete, if_true] using fails
        · rcases eq_or_ne op 50 with rfl | notUpdate
          · rcases recordOperation_update cassUuidFromString request recordsMap with
              ⟨_, -, -, refused⟩ | ⟨thrown, requested, failed⟩ | ⟨_, _, -, -, updates⟩
            · cases refused.symm.trans fails
            · cases failed.symm.trans fails
              exact .inl requested
            · cases updates.symm.trans fails
          · exact .inr ⟨notAdd, notUpdate⟩
      simp only [SyncRequest.recordCalls, operation, complete]
      rcases requested with thrown | ⟨notAdd, notUpdate⟩
      · rw [thrown]
      · simp only [notAdd, notUpdate, if_false]
        split <;> rfl

/-- **The server makes these calls on the record cache and no others.** -/
theorem act_recordsMap (world : World) (activity : Activity) :
    (world.act server cassUuidFromString activity).caches.recordsMap =
      Run.exec Records.Mmap.step world.caches.recordsMap
        (activity.recordCalls cassUuidFromString world) := by
  cases activity with
  | query request =>
      simp only [World.act, World.handleQuery, Activity.recordCalls, Run.exec_nil]
      split
      · rfl
      · rfl
  | administer database => rfl
  | lifeCycle =>
      obtain ⟨⟨recordsMap, ipGroupMap⟩, recordQueue, entryQueue, rrlBuckets, database⟩ := world
      cases recordQueue with
      | nil => rfl
      | cons record recordQueue =>
          simp only [World.act, World.queueLifeCycle, Activity.recordCalls,
            Operational.recordRound, Operational.applyRecord]
          split
          · rfl
          · rfl
  | sync request =>
      simp only [World.act, World.serveRequest, Activity.recordCalls, Core.serveSync]
      cases operation : request.operation with
      | refused => simp only [SyncRequest.recordCalls, operation, Run.exec_nil]
      | entryOperation op => simp only [SyncRequest.recordCalls, operation, Run.exec_nil]
      | recordOperation op =>
          cases runs : recordOperation cassUuidFromString request world.caches.recordsMap op with
          | error error =>
              simp only [runs, Except.map, recordCalls_of_error operation runs, Run.exec_nil]
          | ok served =>
              simp only [runs, Except.map]
              exact recordOperation_calls operation runs

/-- What an activity comes to is nothing, one call, or a delete with an append behind
it. -/
theorem recordCalls_cases (world : World) (activity : Activity) :
    activity.recordCalls cassUuidFromString world = [] ∨
      ∃ c, activity.recordCalls cassUuidFromString world = [c] ∨
        ∃ nameWire type id data,
          activity.recordCalls cassUuidFromString world = [c, .append nameWire type id data] := by
  cases activity with
  | query request => exact .inl rfl
  | administer database => exact .inl rfl
  | lifeCycle =>
      simp only [Activity.recordCalls]
      split
      · exact .inl rfl
      · split
        · exact .inr ⟨_, .inl rfl⟩
        · exact .inl rfl
  | sync request =>
      simp only [Activity.recordCalls, SyncRequest.recordCalls]
      split
      · split
        · split
          · split
            · exact .inr ⟨_, .inl rfl⟩
            · split
              · rw [updateCalls]
                split
                · exact .inr ⟨_, .inl rfl⟩
                · exact .inr ⟨_, .inr ⟨_, _, _, _, rfl⟩⟩
              · exact .inl rfl
          · exact .inl rfl
        · split
          · split
            · exact .inr ⟨_, .inl rfl⟩
            · exact .inl rfl
          · exact .inl rfl
      · exact .inl rfl

/-- The record cache stays intact. -/
theorem intact_act {world : World} (intact : Records.Intact world.caches.recordsMap)
    (activity : Activity) :
    Records.Intact (world.act server cassUuidFromString activity).caches.recordsMap := by
  rw [act_recordsMap]
  exact Run.exec_invariant (fun _ c _ intact => intact.step c) intact fun _ _ => trivial

theorem intact_start {database : Database} :
    Records.Intact (World.start database).caches.recordsMap := by
  dsimp only [World.start]
  exact Records.Intact.fresh

/-- The record cache of every reachable world is intact. -/
theorem intact_run {database : Database} (activities : List Activity) :
    Records.Intact (Run.exec (World.act server cassUuidFromString) (World.start database)
      activities).caches.recordsMap :=
  @Run.exec_invariant _ _ (World.act server cassUuidFromString)
    (fun world => Records.Intact world.caches.recordsMap) (fun _ => True)
    (fun _ activity _ intact => intact_act intact activity) activities _ intact_start
    fun _ _ => trivial

end Server

end EdgeDNS.Core
