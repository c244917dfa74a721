import EdgeDNS.Core.HandleResponse
import EdgeDNS.Core.SyncWorker

/-!
# The running server

The activities that share the caches, as steps on one state: a worker handles a
query or serves a sync request, a round of the life cycle takes from the two
queues, and the administrator changes the database behind them. Each of them is
one step, and they come in any order.

The operations of a sync request on the entries of a group are left open: a
step may put any address cache in place of the old one. A request whose exception leaves
its worker ends the process. Here it changes nothing and the run goes on, so these runs are
all those of the process and more, and what is shown of every one of them holds of it.
-/

set_option autoImplicit false

namespace EdgeDNS.Core

open Utils

/-- What a server works on. -/
structure World where
  caches : Caches
  recordQueue : List Operational.Record
  entryQueue : List Operational.Entry
  rrlBuckets : RRLKey → RRLBucket
  database : Database

/-- The server as it starts with new files. -/
def World.start (database : Database) : World :=
  ⟨⟨.fresh, .fresh⟩, [], [], fun _ => ⟨0, 0⟩, database⟩

/-- What happens to the server. A sync request brings the address cache it leaves. -/
inductive Event
  | query (request : Request)
  | lifeCycle
  | sync (request : SyncRequest) (ipGroupMap : IpGroup.Mmap)
  | administer (database : Database)

namespace World

variable (server : Server) (cassUuidFromString : List UInt8 → Option CassUuid) (world : World)

/-- The response of a world to a query. -/
def respond (request : Request) : Except Fault Handled :=
  handle server world.database world.caches world.recordQueue world.entryQueue world.rrlBuckets
    request

/-- Handle a query. It leaves its traces in the queues and in the buckets. -/
def handleQuery (request : Request) : World :=
  match world.respond server request with
  | .ok handled =>
      { world with
        recordQueue := handled.recordQueue
        entryQueue := handled.entryQueue
        rrlBuckets := handled.rrlBuckets }
  | .error _ => world

/-- One round of `queueLifeCycle`. -/
def queueLifeCycle : World :=
  let records := Operational.recordRound world.caches.recordsMap world.recordQueue
  let entries := Operational.entryRound world.caches.ipGroupMap world.entryQueue
  { world with
    caches := ⟨records.1, entries.1⟩
    recordQueue := records.2
    entryQueue := entries.2 }

/-- Serve a sync request on the record cache. -/
def serveSync (request : SyncRequest) (ipGroupMap : IpGroup.Mmap) : World :=
  match serveRecords cassUuidFromString request world.caches.recordsMap with
  | .ok (some _, recordsMap) =>
      { world with caches := { world.caches with recordsMap := recordsMap } }
  | .ok (none, recordsMap) => { world with caches := ⟨recordsMap, ipGroupMap⟩ }
  | .error _ => world

/-- One step of the server. -/
def step : Event → World
  | .query request => world.handleQuery server request
  | .lifeCycle => world.queueLifeCycle
  | .sync request ipGroupMap => world.serveSync cassUuidFromString request ipGroupMap
  | .administer database => { world with database := database }

end World

/-! ## What the steps do -/

section Queries

variable {server : Server} {world : World} {request : Request}

/-- A query that can be received changes nothing but the queues and the
buckets. -/
theorem World.handleQuery_eq (short : request.payload.length ≤ receiveSize) :
    ∃ query rrlBuckets,
      parseQuery (queryBuf request.payload) request.isTcp = .ok query ∧
        world.handleQuery server request =
          { world with
            recordQueue := world.recordQueue ++
              responseRecords world.database world.caches request query
            entryQueue := world.entryQueue ++
              responseEntries server world.database world.caches request query
            rrlBuckets := rrlBuckets } := by
  obtain ⟨handled, query, written, runs, parses, responds⟩ := handle_responds server world.database
    world.caches world.recordQueue world.entryQueue world.rrlBuckets short
  refine ⟨query, handled.rrlBuckets, parses, ?_⟩
  simp only [World.handleQuery, World.respond, runs, responds.recordQueue, responds.entryQueue]

/-- What a query queues for the record cache are rows of the database, and only
when the cache has nothing. -/
theorem mem_responseRecords {database : Database} {caches : Caches} {query : Query}
    {record : Operational.Record} :
    record ∈ responseRecords database caches request query ↔
      (query.qclass = 1 ∧ query.qdcount = 1) ∧ cachedRecords caches query = [] ∧
        ∃ row ∈ databaseRecords database request query,
          Operational.recordOf query.nameWire query.qtype.toNat row = record := by
  rw [responseRecords]
  split
  case isFalse refused =>
    exact ⟨fun impossible => absurd impossible List.not_mem_nil, fun held => absurd held.1 refused⟩
  case isTrue accepted =>
    rcases eq_or_ne (cachedRecords caches query) [] with miss | hit
    · simp [matchedRecords, miss, accepted, queuedRecord, eq_comm]
    · simp [hit, queuedRecord]

end Queries

/-! ## What a sync request does to the record cache -/

/-- The id that a request names. -/
def SyncRequest.idNamed (cassUuidFromString : List UInt8 → Option CassUuid)
    (request : SyncRequest) : Option CassUuid :=
  (request.param "db_id" 40).map (namedId cassUuidFromString request)

/-- The call is about the record of the id. -/
def Concerns (id : CassUuid) : Records.Call → Prop
  | .append _ _ other _ => other = id
  | .update other _ => other = id
  | .delete _ _ => False
  | .deleteFromUuid other => other = id

/-- The cache is reached by calls about the record of the id. -/
def ReachedBy (id : CassUuid) (before after : Records.Mmap) : Prop :=
  ∃ calls, (∀ c ∈ calls, Concerns id c) ∧ after = Run.exec Records.Mmap.step before calls

section Sync

variable {cassUuidFromString : List UInt8 → Option CassUuid} {request : SyncRequest}
  {recordsMap after : Records.Mmap} {response : String} {id groupId : CassUuid}

theorem updateOrReplace_reached (recordsMap : Records.Mmap) (nameWire : List UInt8) (type : Int)
    (id : CassUuid) (data : Records.RecordData) :
    ReachedBy id recordsMap (updateOrReplace recordsMap nameWire type id data) := by
  rw [updateOrReplace]
  split
  · refine ⟨[.update id data], fun c member => ?_, rfl⟩
    rw [List.mem_singleton.mp member]
    rfl
  · refine ⟨[.deleteFromUuid id, .append nameWire type id data], fun c member => ?_, rfl⟩
    simp only [List.mem_cons, List.not_mem_nil, or_false] at member
    rcases member with rfl | rfl <;> rfl

theorem addRecord_reached {params : RecordParams}
    (runs : addRecord request recordsMap params groupId id = .ok (response, after)) :
    response ≠ success ∧ after = recordsMap ∨
      response = success ∧ ReachedBy id recordsMap after := by
  have appended : ∀ data, ReachedBy id recordsMap (recordsMap.appendRecord
      (stringToWire params.name true) (atoi params.type) id data).2 := by
    intro data
    refine ⟨[.append (stringToWire params.name true) (atoi params.type) id data],
      fun c member => ?_, rfl⟩
    rw [List.mem_singleton.mp member]
    rfl
  rw [addRecord] at runs
  split at runs
  · obtain ⟨rfl, rfl⟩ := Prod.mk.inj (Except.ok.inj runs)
    exact .inr ⟨rfl, appended _⟩
  · split at runs
    · obtain ⟨rfl, rfl⟩ := Prod.mk.inj (Except.ok.inj runs)
      exact .inl ⟨success_ne_notFound.symm, rfl⟩
    · next value given =>
        cases generated : RData.generateRData value (atoi params.type) with
        | error error =>
            rw [generated] at runs
            cases runs
        | ok rdata =>
            rw [generated] at runs
            obtain ⟨rfl, rfl⟩ := Prod.mk.inj (Except.ok.inj runs)
            exact .inr ⟨rfl, appended _⟩

/-- **What an operation on a record does.** Without success it does nothing. With
success it deletes the record it names, or makes other calls about it. -/
theorem recordOperation_reached {op : UInt8}
    (runs : recordOperation cassUuidFromString request recordsMap op = .ok (response, after)) :
    response ≠ success ∧ after = recordsMap ∨
      response = success ∧ ∃ id, request.idNamed cassUuidFromString = some id ∧
        (op = 51 ∧ after = (recordsMap.deleteRecordFromUuid id).2 ∨
          op ≠ 51 ∧ ReachedBy id recordsMap after) := by
  cases complete : request.recordParams with
  | some params =>
      have idStr := (SyncRequest.recordParams_eq_some_iff.mp complete).2.2.2.2.2.1
      have named : request.idNamed cassUuidFromString =
          some (namedId cassUuidFromString request params.idStr) := by
        rw [SyncRequest.idNamed, idStr, Option.map_some]
      rcases eq_or_ne op 49 with rfl | notAdd
      · have adds : addRecord request recordsMap params
            (namedGroup cassUuidFromString request params.groupIdStr)
            (namedId cassUuidFromString request params.idStr) = .ok (response, after) := by
          simpa only [recordOperation, complete, if_true] using runs
        rcases addRecord_reached adds with refused | ⟨succeeds, reached⟩
        · exact .inl refused
        · exact .inr ⟨succeeds, _, named, .inr ⟨by decide, reached⟩⟩
      · rcases eq_or_ne op 50 with rfl | notUpdate
        · rcases recordOperation_update cassUuidFromString request recordsMap with
            ⟨refusal, notSuccess, -, refused⟩ | ⟨error, -, failed⟩ | ⟨params', data, complete', -,
              updates⟩
          · obtain ⟨rfl, rfl⟩ := Prod.mk.inj (Except.ok.inj (refused.symm.trans runs))
            exact .inl ⟨notSuccess, rfl⟩
          · cases failed.symm.trans runs
          · obtain ⟨rfl, rfl⟩ := Prod.mk.inj (Except.ok.inj (updates.symm.trans runs))
            obtain rfl : params = params' := Option.some.inj (complete.symm.trans complete')
            exact .inr ⟨rfl, _, named, .inr ⟨by decide, updateOrReplace_reached ..⟩⟩
        · simp only [recordOperation, complete, notAdd, notUpdate, if_false] at runs
          obtain ⟨rfl, rfl⟩ := Prod.mk.inj (Except.ok.inj runs)
          exact .inl ⟨success_ne_badRequest.symm, rfl⟩
  | none =>
      simp only [recordOperation, complete] at runs
      split at runs
      · obtain ⟨rfl, rfl⟩ := Prod.mk.inj (Except.ok.inj runs)
        exact .inl ⟨success_ne_badRequest.symm, rfl⟩
      · next idStr given =>
          have named : request.idNamed cassUuidFromString =
              some (namedId cassUuidFromString request idStr) := by
            rw [SyncRequest.idNamed, given, Option.map_some]
          split at runs
          · next isDelete =>
              obtain ⟨rfl, rfl⟩ := Prod.mk.inj (Except.ok.inj runs)
              exact .inr ⟨rfl, _, named, .inl ⟨isDelete, rfl⟩⟩
          · obtain ⟨rfl, rfl⟩ := Prod.mk.inj (Except.ok.inj runs)
            exact .inl ⟨success_ne_badRequest.symm, rfl⟩

/-- A request is answered with success. -/
def World.succeeds (cassUuidFromString : List UInt8 → Option CassUuid) (world : World)
    (request : SyncRequest) : Bool :=
  match serveRecords cassUuidFromString request world.caches.recordsMap with
  | .ok (some response, _) => response == success
  | _ => false

/-- What a sync request does to the record cache of a world. -/
theorem World.serveSync_reached (world : World) (ipGroupMap : IpGroup.Mmap) :
    world.succeeds cassUuidFromString request = false ∧
        (world.serveSync cassUuidFromString request ipGroupMap).caches.recordsMap =
          world.caches.recordsMap ∨
      world.succeeds cassUuidFromString request = true ∧ ∃ op id,
        request.operation = .recordOperation op ∧ request.idNamed cassUuidFromString = some id ∧
        (op = 51 ∧ (world.serveSync cassUuidFromString request ipGroupMap).caches.recordsMap =
            (world.caches.recordsMap.deleteRecordFromUuid id).2 ∨
          op ≠ 51 ∧ ReachedBy id world.caches.recordsMap
            (world.serveSync cassUuidFromString request ipGroupMap).caches.recordsMap) := by
  cases operation : request.operation with
  | recordOperation op =>
      cases runs : recordOperation cassUuidFromString request world.caches.recordsMap op with
      | error error =>
          have serves : serveRecords cassUuidFromString request world.caches.recordsMap =
              .error error := by
            simp only [serveRecords, operation, runs, Except.map]
          exact .inl ⟨by simp only [succeeds, serves], by simp only [serveSync, serves]⟩
      | ok result =>
          obtain ⟨response, after⟩ := result
          have serves := (serveRecords_recordOperation operation).mpr runs
          have reached : (world.serveSync cassUuidFromString request
              ipGroupMap).caches.recordsMap = after := by
            simp only [serveSync, serves]
          have succeeds : world.succeeds cassUuidFromString request = (response == success) := by
            simp only [World.succeeds, serves]
          rw [reached, succeeds]
          rcases recordOperation_reached runs with ⟨notSuccess, same⟩ | ⟨isSuccess, id, named, does⟩
          · exact .inl ⟨beq_eq_false_iff_ne.mpr notSuccess, same⟩
          · exact .inr ⟨beq_iff_eq.mpr isSuccess, op, id, rfl, named, does⟩
  | entryOperation op =>
      have serves : serveRecords cassUuidFromString request world.caches.recordsMap =
          .ok (none, world.caches.recordsMap) := by
        simp only [serveRecords, operation]
      exact .inl ⟨by simp only [succeeds, serves], by simp only [serveSync, serves]⟩
  | refused =>
      have serves : serveRecords cassUuidFromString request world.caches.recordsMap =
          .ok (some badRequest, world.caches.recordsMap) := by
        simp only [serveRecords, operation]
      refine .inl ⟨?_, by simp only [serveSync, serves]⟩
      simp only [succeeds, serves]
      exact beq_eq_false_iff_ne.mpr success_ne_badRequest.symm

/-- A sync request touches neither the queues nor the database. -/
theorem World.serveSync_others (world : World) (ipGroupMap : IpGroup.Mmap) :
    (world.serveSync cassUuidFromString request ipGroupMap).recordQueue = world.recordQueue ∧
      (world.serveSync cassUuidFromString request ipGroupMap).database = world.database := by
  rw [serveSync]
  split <;> exact ⟨rfl, rfl⟩

end Sync

end EdgeDNS.Core
