import EdgeDNS.Core.System

/-!
# Whether a deleted record stays deleted

The administrator removes a row from the database and then sends the sync
delete for its id. From its success on no lookup should return the record,
until a sync add or update of the id is served.

The run carries the ids that are deleted in this sense (`Watched`). The delete
only looks at the store. A query that missed before it has put the old row into
the record queue, and a later round of the life cycle appends it without asking
again (`queued_row_returns`). When nothing is queued under the id at the moment
of the delete, the record stays deleted (`deleted_stays_deleted`).
-/

set_option autoImplicit false

namespace EdgeDNS.Core

/-- A world, and the ids that a sync delete was served for and no sync add or
update since. -/
structure Watched where
  world : World
  deleted : List CassUuid

/-- The request is a delete of the id and is answered with success. -/
def Deletes (cassUuidFromString : List UInt8 → Option CassUuid) (world : World)
    (request : SyncRequest) (id : CassUuid) : Prop :=
  world.succeeds cassUuidFromString request = true ∧
    request.operation = .recordOperation 51 ∧ request.idNamed cassUuidFromString = some id

/-- The deleted ids after a sync request. -/
def Watched.note (cassUuidFromString : List UInt8 → Option CassUuid) (watched : Watched)
    (request : SyncRequest) : List CassUuid :=
  if watched.world.succeeds cassUuidFromString request then
    match request.operation, request.idNamed cassUuidFromString with
    | .recordOperation op, some id =>
        if op = 51 then id :: watched.deleted else watched.deleted.filter (· ≠ id)
    | _, _ => watched.deleted
  else watched.deleted

/-- A step of the server. A sync request is noted when it deletes. -/
def Watched.step (server : Server) (cassUuidFromString : List UInt8 → Option CassUuid)
    (watched : Watched) (event : Event) : Watched where
  world := watched.world.step server cassUuidFromString event
  deleted :=
    match event with
    | .sync request _ => watched.note cassUuidFromString request
    | _ => watched.deleted

/-- Some row of the database has the id. -/
def Database.Lists (database : Database) (id : CassUuid) : Prop :=
  ∃ zone name type, ∃ row ∈ database.getRecord zone name type, row.id = id

/-- No lookup returns a record with a deleted id. -/
def StaysDeleted (watched : Watched) : Prop :=
  ∀ id ∈ watched.deleted, ∀ wireName qtype,
    ∀ record ∈ watched.world.caches.recordsMap.getRecord wireName qtype, record.id ≠ id

/-- The order that the administrator keeps: a row is removed before its delete
is sent, and no row of a deleted id is put back. Queries fit the receive
buffers. -/
def Permitted (cassUuidFromString : List UInt8 → Option CassUuid) (watched : Watched) :
    Event → Prop
  | .query request => request.payload.length ≤ receiveSize
  | .lifeCycle => True
  | .sync request _ => ∀ id, Deletes cassUuidFromString watched.world request id →
      ¬ watched.world.database.Lists id
  | .administer database => ∀ id ∈ watched.deleted, ¬ database.Lists id

/-- When a delete is served, nothing is queued under its id. -/
def NothingQueued (cassUuidFromString : List UInt8 → Option CassUuid) (watched : Watched) :
    Event → Prop
  | .sync request _ => ∀ id, Deletes cassUuidFromString watched.world request id →
      ∀ record ∈ watched.world.recordQueue, record.id ≠ id
  | _ => True

/-! ## The invariant -/

/-- An id that is neither stored nor queued nor in the database. -/
structure Gone (world : World) (id : CassUuid) : Prop where
  missing : world.caches.recordsMap.slotOfId id = none
  unqueued : ∀ record ∈ world.recordQueue, record.id ≠ id
  unlisted : ¬ world.database.Lists id

/-- The record cache is sound, and the deleted ids are gone. -/
structure Buried (watched : Watched) : Prop where
  intact : Records.Intact watched.world.caches.recordsMap
  gone : ∀ id ∈ watched.deleted, Gone watched.world id

theorem Buried.staysDeleted {watched : Watched} (buried : Buried watched) :
    StaysDeleted watched := by
  rintro id isDeleted wireName qtype record member rfl
  obtain ⟨chain, spare, sound⟩ := buried.intact
  exact sound.slotOfId_of_mem_getRecord member (buried.gone record.id isDeleted).missing

theorem intact_of_reached {before after : Records.Mmap} {id : CassUuid}
    (intact : Records.Intact before) (reached : ReachedBy id before after) :
    Records.Intact after := by
  obtain ⟨calls, concerned, rfl⟩ := reached
  have keeps : ∀ m c, Concerns id c → Records.Intact m → Records.Intact (m.step c) :=
    fun m c _ intact => intact.step c
  exact Run.exec_invariant keeps intact concerned

/-- Calls about another record keep an id missing. -/
theorem missing_of_reached {before after : Records.Mmap} {id other : CassUuid}
    (intact : Records.Intact before) (missing : before.slotOfId id = none) (different : id ≠ other)
    (reached : ReachedBy other before after) : after.slotOfId id = none := by
  obtain ⟨calls, concerned, rfl⟩ := reached
  have keeps : ∀ m c, Concerns other c → Records.Intact m ∧ m.slotOfId id = none →
      Records.Intact (m.step c) ∧ (m.step c).slotOfId id = none := by
    rintro m c concerned ⟨intact, missing⟩
    refine ⟨intact.step c, ?_⟩
    obtain ⟨chain, spare, sound⟩ := intact
    refine sound.missing_step ?_ missing
    rintro wireName qtype data rfl
    exact different concerned
  exact (Run.exec_invariant keeps ⟨intact, missing⟩ concerned).2

section Steps

variable {server : Server} {cassUuidFromString : List UInt8 → Option CassUuid} {watched : Watched}

theorem Buried.query (buried : Buried watched) {request : Request}
    (short : request.payload.length ≤ receiveSize) :
    Buried (watched.step server cassUuidFromString (.query request)) := by
  obtain ⟨query, rrlBuckets, -, handled⟩ := @World.handleQuery_eq server watched.world request short
  have world : (watched.step server cassUuidFromString (.query request)).world = _ := handled
  refine ⟨?_, fun id isDeleted => ?_⟩
  · rw [world]
    exact buried.intact
  · obtain ⟨missing, unqueued, unlisted⟩ := buried.gone id isDeleted
    rw [world]
    refine ⟨missing, fun record member => ?_, unlisted⟩
    rcases List.mem_append.mp member with old | new
    · exact unqueued record old
    · obtain ⟨-, -, row, isRow, rfl⟩ := mem_responseRecords.mp new
      exact fun sameId => unlisted ⟨_, _, _, row, isRow, sameId⟩

/-- A round appends what is queued, and nothing is queued under a deleted id. -/
theorem Buried.lifeCycle (buried : Buried watched) :
    Buried (watched.step server cassUuidFromString .lifeCycle) := by
  obtain ⟨⟨⟨recordsMap, ipGroupMap⟩, recordQueue, entryQueue, rrlBuckets, database⟩, deleted⟩ :=
    watched
  cases recordQueue with
  | nil =>
      refine ⟨buried.intact, fun id isDeleted => ?_⟩
      obtain ⟨missing, unqueued, unlisted⟩ := buried.gone id isDeleted
      exact ⟨missing, unqueued, unlisted⟩
  | cons record recordQueue =>
      have intact : Records.Intact recordsMap := buried.intact
      obtain ⟨chain, spare, sound⟩ := buried.intact
      have applied : Records.Intact (Operational.applyRecord recordsMap record) ∧
          ∀ id, recordsMap.slotOfId id = none → record.id ≠ id →
            (Operational.applyRecord recordsMap record).slotOfId id = none := by
        rw [Operational.applyRecord]
        split
        · refine ⟨intact.step (.append record.name record.qtype record.id record.data),
            fun id missing different => ?_⟩
          have notAppended : ∀ wireName qtype data,
              Records.Call.append record.name record.qtype record.id record.data ≠
                .append wireName qtype id data := by
            intro wireName qtype data same
            exact different (Records.Call.append.inj same).2.2.1
          exact sound.missing_step notAppended missing
        · exact ⟨intact, fun _ missing _ => missing⟩
      refine ⟨applied.1, fun id isDeleted => ?_⟩
      obtain ⟨missing, unqueued, unlisted⟩ := buried.gone id isDeleted
      exact ⟨applied.2 id missing (unqueued record (List.mem_cons_self ..)),
        fun other member => unqueued other (List.mem_cons_of_mem _ member), unlisted⟩

/-- A sync request stores no deleted id but the one it is about. -/
theorem Buried.sync (buried : Buried watched) {request : SyncRequest}
    (ipGroupMap : IpGroup.Mmap)
    (unlisted : ∀ id, Deletes cassUuidFromString watched.world request id →
      ¬ watched.world.database.Lists id)
    (unqueued : ∀ id, Deletes cassUuidFromString watched.world request id →
      ∀ record ∈ watched.world.recordQueue, record.id ≠ id) :
    Buried (watched.step server cassUuidFromString (.sync request ipGroupMap)) := by
  obtain ⟨after, isAfter⟩ : ∃ after, after =
      watched.world.serveSync cassUuidFromString request ipGroupMap := ⟨_, rfl⟩
  have step : watched.step server cassUuidFromString (.sync request ipGroupMap) =
      ⟨after, watched.note cassUuidFromString request⟩ := by rw [isAfter]; rfl
  obtain ⟨sameQueue, sameDatabase⟩ :=
    @World.serveSync_others cassUuidFromString request watched.world ipGroupMap
  have served := @World.serveSync_reached cassUuidFromString request watched.world ipGroupMap
  rw [← isAfter] at sameQueue sameDatabase served
  have goneAfter : ∀ id, (∀ record ∈ watched.world.recordQueue, record.id ≠ id) →
      ¬ watched.world.database.Lists id → after.caches.recordsMap.slotOfId id = none →
      Gone after id := by
    intro id unqueued unlisted missing
    exact ⟨missing, by rwa [sameQueue], by rwa [sameDatabase]⟩
  rw [step]
  rcases served with
    ⟨failed, same⟩ | ⟨succeeds, op, id, operation, named, ⟨rfl, removed⟩ | ⟨notDelete, reached⟩⟩
  · refine ⟨by rw [same]; exact buried.intact, fun other isDeleted => ?_⟩
    rw [Watched.note, failed, if_neg Bool.false_ne_true] at isDeleted
    obtain ⟨missing, unqueued, unlisted⟩ := buried.gone other isDeleted
    exact goneAfter other unqueued unlisted (by rw [same]; exact missing)
  · have deletes : Deletes cassUuidFromString watched.world request id :=
      ⟨succeeds, operation, named⟩
    refine ⟨by rw [removed]; exact buried.intact.step (.deleteFromUuid id),
      fun other isDeleted => ?_⟩
    obtain ⟨chain, spare, sound⟩ := buried.intact
    simp only [Watched.note, succeeds, operation, named, if_true, List.mem_cons] at isDeleted
    rcases isDeleted with rfl | isOld
    · refine goneAfter other (unqueued other deletes) (unlisted other deletes) ?_
      rw [removed]
      exact sound.slotOfId_deleted other
    · obtain ⟨missing, unqueued, unlisted⟩ := buried.gone other isOld
      have notAppended : ∀ wireName qtype data,
          Records.Call.deleteFromUuid id ≠ .append wireName qtype other data := by
        intro _ _ _ impossible
        cases impossible
      refine goneAfter other unqueued unlisted ?_
      rw [removed]
      exact sound.missing_step notAppended missing
  · refine ⟨intact_of_reached buried.intact reached, fun other isDeleted => ?_⟩
    simp only [Watched.note, succeeds, operation, named, if_true, notDelete, if_false,
      List.mem_filter, decide_eq_true_eq] at isDeleted
    obtain ⟨missing, unqueued, unlisted⟩ := buried.gone other isDeleted.1
    exact goneAfter other unqueued unlisted
      (missing_of_reached buried.intact missing isDeleted.2 reached)

end Steps

/-- **A deleted record stays deleted** in every run in which nothing is queued
under an id when its delete is served. -/
theorem deleted_stays_deleted (server : Server)
    (cassUuidFromString : List UInt8 → Option CassUuid) (world : World) (events : List Event)
    (intact : Records.Intact world.caches.recordsMap)
    (permitted : Run.Along (Watched.step server cassUuidFromString)
      (Permitted cassUuidFromString) ⟨world, []⟩ events)
    (nothingQueued : Run.Along (Watched.step server cassUuidFromString)
      (NothingQueued cassUuidFromString) ⟨world, []⟩ events) :
    Run.Throughout (Watched.step server cassUuidFromString) StaysDeleted ⟨world, []⟩ events := by
  have start : Buried ⟨world, []⟩ :=
    ⟨intact, fun _ impossible => absurd impossible List.not_mem_nil⟩
  have noDemand : ∀ event ∈ events, True := fun _ _ => trivial
  refine (Run.throughout_of_along ?_ start noDemand (permitted.and nothingQueued)).mono
    fun _ buried => buried.staysDeleted
  rintro watched event - buried ⟨permitted, nothingQueued⟩
  cases event with
  | query request => exact buried.query permitted
  | lifeCycle => exact buried.lifeCycle
  | sync request ipGroupMap => exact buried.sync ipGroupMap permitted nothingQueued
  | administer database =>
      refine ⟨buried.intact, fun id isDeleted => ?_⟩
      obtain ⟨missing, unqueued, -⟩ := buried.gone id isDeleted
      exact ⟨missing, unqueued, permitted id isDeleted⟩

/-- A request to delete the id 1. -/
def deleteOne : SyncRequest where
  payload := bytesOf "type=0-3&db_id=" ++ textOfOne
  staleGroupId := ⟨0, 0⟩
  staleId := ⟨0, 0⟩

theorem not_lists_emptyDatabase (id : CassUuid) : ¬ emptyDatabase.Lists id := by
  rintro ⟨zone, name, type, row, member, -⟩
  exact absurd member List.not_mem_nil

/-- A stored text is deleted, asked for and not found again. -/
theorem deleted_stays_deleted_text :
    Run.Throughout (Watched.step plainServer readsOne) StaysDeleted
      ⟨{ World.start emptyDatabase with
          caches := ⟨Records.Mmap.fresh.step storeText, .fresh⟩ }, []⟩
      [.sync deleteOne .fresh, .query textQuery, .lifeCycle] := by
  refine deleted_stays_deleted plainServer readsOne _ _ ?_ ?_ ?_
  · dsimp only
    exact Records.Intact.fresh.step storeText
  · refine ⟨fun id _ => not_lists_emptyDatabase id, ?_, trivial, trivial⟩
    exact (by decide : textQuery.payload.length ≤ receiveSize)
  · exact ⟨fun _ _ _ impossible => absurd impossible List.not_mem_nil, trivial, trivial, trivial⟩

/-! ### A queued row that returns -/

/-- A database with a text for the name `a` under the id 1. -/
def oneText : Database where
  getRecord _ name type :=
    if name = [97] ∧ type = 16 then
      [{ ttl := 60, priority := 0, rdata := [1, 120], groupId := ⟨0, 0⟩, id := idOne,
         bucketIdx := 0, isGeo := false, isProxy := false }]
    else []
  getIpGroupEntriesCountryBased _ _ := []

/-- A query that finds the row in the database, the removal of the row, the
delete of its id and a round of the life cycle. -/
def lateRound : List Event :=
  [.query textQuery, .administer emptyDatabase, .sync deleteOne .fresh, .lifeCycle]

theorem lateRound_permitted :
    Run.Along (Watched.step plainServer readsOne) (Permitted readsOne)
      ⟨World.start oneText, []⟩ lateRound := by
  refine ⟨?_, ?_, fun id _ => not_lists_emptyDatabase id, trivial, trivial⟩
  · exact (by decide : textQuery.payload.length ≤ receiveSize)
  · exact fun _ impossible => absurd impossible List.not_mem_nil

/-- **The row that a query queued before the delete returns** with the next
round. -/
theorem queued_row_returns :
    ¬ ∀ (server : Server) (cassUuidFromString : List UInt8 → Option CassUuid) (world : World)
      (events : List Event), Records.Intact world.caches.recordsMap →
      Run.Along (Watched.step server cassUuidFromString) (Permitted cassUuidFromString)
        ⟨world, []⟩ events →
      Run.Throughout (Watched.step server cassUuidFromString) StaysDeleted ⟨world, []⟩ events := by
  intro always
  have intact : Records.Intact (World.start oneText).caches.recordsMap := by
    dsimp only [World.start]
    exact Records.Intact.fresh
  have atEnd := (always plainServer readsOne (World.start oneText) lateRound intact
    lateRound_permitted).last
  have returned : idOne ∈ (Run.exec (Watched.step plainServer readsOne)
        ⟨World.start oneText, []⟩ lateRound).deleted ∧
      ((Run.exec (Watched.step plainServer readsOne) ⟨World.start oneText, []⟩
        lateRound).world.caches.recordsMap.getRecord [1, 97, 0] 16).map (·.id) = [idOne] := by
    rw [World.start, Records.Mmap.fresh_eq_freshTable]
    decide +kernel
  obtain ⟨isDeleted, found⟩ := returned
  obtain ⟨record, member, sameId⟩ := List.mem_map.mp (found ▸ List.mem_singleton_self idOne)
  exact atEnd idOne isDeleted [1, 97, 0] 16 record member sameId

end EdgeDNS.Core
