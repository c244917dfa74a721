import EdgeDNS.Core.Activities
import EdgeDNS.Core.CompleteAnswers
import EdgeDNS.Core.DeletedRecords

/-!
# Where answers come from

The server files records and addresses for three reasons: a query read them
from the database, a sync request added them, or a sync request rewrote them.
What a query reads waits in a queue first, and stays there whatever happens to
the database or to the caches in the meantime.

`recordOrigin_of_held` traces every record that is held back through a
run of the whole server: some activity of the run named it under the hash of the
name and under the type that are looked up, with the fields it has now, or a
later sync update of its id gave it these fields. `answers_have_origin` says it
of every answer that is written into a response: it is a row of the database at
this moment or has such an origin, and the addresses of a group have one as well.
-/

set_option autoImplicit false

namespace EdgeDNS.Operational

/-- The key under which a queued record will be filed. -/
def Record.key (record : Record) : UInt64 × Int := Records.hashKey record.name record.qtype

/-- The entry as it will be stored. -/
def Entry.content (entry : Entry) : IpGroup.Content where
  groupId := entry.groupId
  id := entry.id
  countryCode := entry.countryCode
  ip := entry.address.bytes
  priority := entry.priority

end EdgeDNS.Operational

namespace EdgeDNS.Core

open Utils RData

/-! ## What the server holds -/

namespace World

variable (world : World)

/-- A record that is filed under the key, or waits to be. -/
def HoldsRecord (key : UInt64 × Int) (entry : Records.Entry) : Prop :=
  world.caches.recordsMap.Holds key entry ∨
    ∃ record ∈ world.recordQueue, record.key = key ∧ record.entry = entry

/-- An id that is filed under the key, or waits to be. -/
def HoldsId (key : UInt64 × Int) (id : CassUuid) : Prop :=
  ∃ entry, world.HoldsRecord key entry ∧ entry.id = id

/-- An entry of a group that is stored, or waits to be. -/
def HoldsEntry (content : IpGroup.Content) : Prop :=
  world.caches.ipGroupMap.Has content ∨ ∃ entry ∈ world.entryQueue, entry.content = content

end World

namespace Activity

variable (cassUuidFromString : List UInt8 → Option CassUuid) (server : Server) (world : World)

/-- The activity names the record under the key: a query gets it from the
database, and a sync request adds it or gives it to an update. -/
def FilesRecord (activity : Activity) (key : UInt64 × Int) (entry : Records.Entry) : Prop :=
  match activity with
  | .query request => ∃ query row, parseQuery (queryBuf request.payload) request.isTcp = .ok query ∧
      row ∈ databaseRecords world.database request query ∧
      (Operational.recordOf query.nameWire query.qtype.toNat row).key = key ∧
      (Operational.recordOf query.nameWire query.qtype.toNat row).entry = entry
  | .lifeCycle => False
  | .sync request => ∃ op wireName qtype id data, (op = 49 ∨ op = 50) ∧
      request.AsksFor cassUuidFromString op wireName qtype id data ∧
      Records.hashKey wireName qtype = key ∧ data.entry id = entry
  | .administer _ => False

/-- The activity files a record of this id. -/
def NamesId (activity : Activity) (key : UInt64 × Int) (id : CassUuid) : Prop :=
  ∃ entry, activity.FilesRecord cassUuidFromString world key entry ∧ entry.id = id

/-- A sync update gives the fields to the record of an id that is filed under the
key. -/
def RewritesRecord (activity : Activity) (key : UInt64 × Int) (entry : Records.Entry) : Prop :=
  match activity with
  | .sync request => ∃ wireName qtype id data,
      request.AsksFor cassUuidFromString 50 wireName qtype id data ∧ data.entry id = entry ∧
      ∃ old, world.caches.recordsMap.Holds key old ∧ old.id = id
  | _ => False

/-- The activity names the entry: a query gets it from the database for a group
that answers one of its records, and a sync request adds it or gives it to an
update. -/
def FilesEntry (activity : Activity) (content : IpGroup.Content) : Prop :=
  match activity with
  | .query request => ∃ query groupId code row,
      parseQuery (queryBuf request.payload) request.isTcp = .ok query ∧
      AsksEntries server world.database world.caches request query groupId code ∧
      row ∈ world.database.getIpGroupEntriesCountryBased groupId code ∧
      (Operational.entryOf groupId code row).content = content
  | .lifeCycle => False
  | .sync request => ∃ op params groupId id, (op = 49 ∨ op = 50) ∧
      request.AsksForEntry cassUuidFromString op params groupId id ∧
      content = ⟨groupId, id, .ofText params.locationCode, (addressOf params.ip).bytes,
        atoi params.priority⟩
  | .administer _ => False

end Activity

/-! ## What a step brings about -/

section Steps

variable {cassUuidFromString : List UInt8 → Option CassUuid} {server : Server} {world : World}
  {key : UInt64 × Int} {entry : Records.Entry} {content : IpGroup.Content}

/-- An update rewrites the record of the id, or deletes it and files it anew. -/
theorem holds_updateOrReplace {recordsMap : Records.Mmap} (intact : Records.Intact recordsMap)
    {wireName : List UInt8} {qtype : Int} {id : CassUuid} {data : Records.RecordData}
    (held : (updateOrReplace recordsMap wireName qtype id data).Holds key entry) :
    recordsMap.Holds key entry ∨
      (Records.hashKey wireName qtype = key ∧ data.entry id = entry) ∨
      data.entry id = entry ∧ ∃ old, recordsMap.Holds key old ∧ old.id = id := by
  rw [updateOrReplace] at held
  split at held
  · rcases intact.holds_step (.update id data) held with before | ⟨written, filed⟩
    · exact .inl before
    · exact .inr (.inr ⟨written.symm, filed⟩)
  · have deleted := intact.step (.deleteFromUuid id)
    rcases deleted.holds_step (.append wireName qtype id data) held with before | ⟨named, written⟩
    · exact .inl ((intact.holds_step (.deleteFromUuid id) before).resolve_right fun never => never)
    · exact .inr (.inl ⟨named.symm, written.symm⟩)

/-- Serving a sync request. -/
theorem holdsRecord_sync (intact : Records.Intact world.caches.recordsMap) {request : SyncRequest}
    (held : (world.serveRequest cassUuidFromString request).HoldsRecord key entry) :
    world.HoldsRecord key entry ∨
      (Activity.sync request).FilesRecord cassUuidFromString world key entry ∨
      (Activity.sync request).RewritesRecord cassUuidFromString world key entry := by
  obtain ⟨sameQueue, -, -⟩ := world.serveRequest_others cassUuidFromString request
  have served := world.serveRequest_records cassUuidFromString request
  rw [World.HoldsRecord, sameQueue] at held
  rcases held with filed | waits
  case inr => exact .inl (.inr waits)
  generalize (world.serveRequest cassUuidFromString request).caches.recordsMap = after
    at served filed
  cases served with
  | unchanged => exact .inl (.inl filed)
  | added asks =>
      rcases intact.holds_step (.append ..) filed with before | ⟨named, written⟩
      · exact .inl (.inl before)
      · exact .inr (.inl ⟨49, _, _, _, _, .inl rfl, asks, named.symm, written.symm⟩)
  | updated asks =>
      rcases holds_updateOrReplace intact filed with before | ⟨named, written⟩ | ⟨written, old⟩
      · exact .inl (.inl before)
      · exact .inr (.inl ⟨50, _, _, _, _, .inr rfl, asks, named, written⟩)
      · exact .inr (.inr ⟨_, _, _, _, asks, written, old⟩)
  | deleted id =>
      exact .inl (.inl ((intact.holds_step (.deleteFromUuid id) filed).resolve_right
        fun never => never))

/-- A round of the life cycle files what was queued. -/
theorem holdsRecord_lifeCycle (intact : Records.Intact world.caches.recordsMap)
    (held : world.queueLifeCycle.HoldsRecord key entry) : world.HoldsRecord key entry := by
  obtain ⟨⟨recordsMap, ipGroupMap⟩, recordQueue, entryQueue, rrlBuckets, database⟩ := world
  cases recordQueue with
  | nil => exact held
  | cons record recordQueue =>
      rcases held with filed | ⟨other, waits, isHeld⟩
      · have applied : (Operational.applyRecord recordsMap record).Holds key entry := filed
        rw [Operational.applyRecord] at applied
        split at applied
        · rcases intact.holds_step (.append ..) applied with before | ⟨named, written⟩
          · exact .inl before
          · exact .inr ⟨record, List.mem_cons_self .., named.symm, written.symm⟩
        · exact .inl applied
      · exact .inr ⟨other, List.mem_cons_of_mem _ waits, isHeld⟩

/-- **A step brings about no record but those that its activity names.** -/
theorem holdsRecord_act (intact : Records.Intact world.caches.recordsMap) (activity : Activity)
    (received : activity.Received)
    (held : (world.act server cassUuidFromString activity).HoldsRecord key entry) :
    world.HoldsRecord key entry ∨ activity.FilesRecord cassUuidFromString world key entry ∨
      activity.RewritesRecord cassUuidFromString world key entry := by
  cases activity with
  | administer database => exact .inl held
  | lifeCycle => exact .inl (holdsRecord_lifeCycle intact held)
  | sync request => exact holdsRecord_sync intact held
  | query request =>
      obtain ⟨query, rrlBuckets, parses, after⟩ :=
        @World.handleQuery_eq server world request received
      have isAfter : world.act server cassUuidFromString (.query request) =
          world.handleQuery server request := rfl
      rw [isAfter, after] at held
      rcases held with filed | ⟨record, member, named, written⟩
      · exact .inl (.inl filed)
      · rcases List.mem_append.mp member with old | new
        · exact .inl (.inr ⟨record, old, named, written⟩)
        · obtain ⟨-, -, row, isRow, rfl⟩ := mem_responseRecords.mp new
          exact .inr (.inl ⟨query, row, parses, isRow, named, written⟩)

/-- Serving a sync request. -/
theorem holdsEntry_sync {request : SyncRequest}
    (held : (world.serveRequest cassUuidFromString request).HoldsEntry content) :
    world.HoldsEntry content ∨
      (Activity.sync request).FilesEntry cassUuidFromString server world content := by
  obtain ⟨-, sameQueue, -⟩ := world.serveRequest_others cassUuidFromString request
  have served := world.serveRequest_entries cassUuidFromString request
  rw [World.HoldsEntry, sameQueue] at held
  rcases held with stored | waits
  case inr => exact .inl (.inr waits)
  generalize (world.serveRequest cassUuidFromString request).caches.ipGroupMap = after
    at served stored
  cases served with
  | unchanged => exact .inl (.inl stored)
  | added asks =>
      rcases IpGroup.has_appendRecordText stored with before | written
      · exact .inl (.inl before)
      · exact .inr ⟨49, _, _, _, .inl rfl, asks, written.symm⟩
  | updated asks =>
      rw [updateEntry] at stored
      split at stored
      · rcases IpGroup.has_updateRecord stored with before | written
        · exact .inl (.inl before)
        · exact .inr ⟨50, _, _, _, .inr rfl, asks, written.symm⟩
      · rcases IpGroup.has_appendRecordText stored with before | written
        · exact .inl (.inl (IpGroup.has_deleteRecordFromUuid before))
        · exact .inr ⟨50, _, _, _, .inr rfl, asks, written.symm⟩
  | deleted groupId id => exact .inl (.inl (IpGroup.has_deleteRecordFromUuid stored))

/-- A round of the life cycle stores what was queued. -/
theorem holdsEntry_lifeCycle (held : world.queueLifeCycle.HoldsEntry content) :
    world.HoldsEntry content := by
  obtain ⟨⟨recordsMap, ipGroupMap⟩, recordQueue, entryQueue, rrlBuckets, database⟩ := world
  cases entryQueue with
  | nil => exact held
  | cons entry entryQueue =>
      rcases held with stored | ⟨other, waits, isHeld⟩
      · have applied : (Operational.applyEntry ipGroupMap entry).Has content := stored
        rw [Operational.applyEntry] at applied
        split at applied
        · rcases IpGroup.has_appendRecord applied with before | written
          · exact .inl before
          · exact .inr ⟨entry, List.mem_cons_self .., written⟩
        · exact .inl applied
      · exact .inr ⟨other, List.mem_cons_of_mem _ waits, isHeld⟩

/-- **A step brings about no entry but those that its activity names**, whatever
state the address cache is in. -/
theorem holdsEntry_act (activity : Activity)
    (received : activity.Received)
    (held : (world.act server cassUuidFromString activity).HoldsEntry content) :
    world.HoldsEntry content ∨ activity.FilesEntry cassUuidFromString server world content := by
  cases activity with
  | administer database => exact .inl held
  | lifeCycle => exact .inl (holdsEntry_lifeCycle held)
  | sync request => exact holdsEntry_sync held
  | query request =>
      obtain ⟨query, rrlBuckets, parses, after⟩ :=
        @World.handleQuery_eq server world request received
      have isAfter : world.act server cassUuidFromString (.query request) =
          world.handleQuery server request := rfl
      rw [isAfter, after] at held
      rcases held with stored | ⟨queued, member, written⟩
      · exact .inl (.inl stored)
      · rcases List.mem_append.mp member with old | new
        · exact .inl (.inr ⟨queued, old, written⟩)
        · obtain ⟨groupId, code, asks, row, isRow, rfl⟩ := mem_responseEntries.mp new
          exact .inr ⟨query, groupId, code, row, parses, asks, isRow, written⟩

end Steps

/-! ## Runs -/

section Runs

variable (cassUuidFromString : List UInt8 → Option CassUuid) (server : Server)

/-- An activity of the run named the record under the key with these fields, or
it named it with others and a later update of its id gave it these. -/
def RecordOrigin (world : World) (activities : List Activity) (key : UInt64 × Int)
    (entry : Records.Entry) : Prop :=
  ∃ before activity after named, activities = before ++ activity :: after ∧
    activity.FilesRecord cassUuidFromString
      (Run.exec (World.act server cassUuidFromString) world before) key named ∧
    named.id = entry.id ∧
    (named = entry ∨
      ∃ middle update rest, after = middle ++ update :: rest ∧
        update.RewritesRecord cassUuidFromString
          (Run.exec (World.act server cassUuidFromString) world (before ++ activity :: middle))
          key entry)

/-- An activity of the run named the entry. -/
def EntryOrigin (world : World) (activities : List Activity) (content : IpGroup.Content) : Prop :=
  Run.GivenIn (World.act server cassUuidFromString)
    (fun world activity => activity.FilesEntry cassUuidFromString server world) world activities
    content

variable {cassUuidFromString server} {database : Database} {activities : List Activity}

theorem not_holdsRecord_start {key : UInt64 × Int} {entry : Records.Entry} :
    ¬ (World.start database).HoldsRecord key entry := by
  intro held
  dsimp only [World.HoldsRecord, World.start] at held
  rcases held with filed | ⟨record, waits, -⟩
  · exact Records.not_holds_fresh key entry filed
  · exact absurd waits List.not_mem_nil

/-- What an activity that brings about a record under a key does with its id. -/
theorem named_of_written {world : World} {activity : Activity} {key : UInt64 × Int}
    {entry : Records.Entry}
    (rewrites : activity.RewritesRecord cassUuidFromString world key entry) :
    ∃ old, world.HoldsRecord key old ∧ old.id = entry.id := by
  cases activity with
  | query request => exact absurd rewrites not_false
  | lifeCycle => exact absurd rewrites not_false
  | administer database => exact absurd rewrites not_false
  | sync request =>
      obtain ⟨wireName, qtype, id, data, -, rfl, old, filed, sameId⟩ := rewrites
      exact ⟨old, .inl filed, sameId⟩

/-- An id that is held under a key was named under it by an activity of the
run. -/
theorem named_of_held (received : ∀ activity ∈ activities, activity.Received)
    {key : UInt64 × Int} {entry : Records.Entry}
    (held : (Run.exec (World.act server cassUuidFromString) (World.start database)
      activities).HoldsRecord key entry) :
    Run.GivenIn (World.act server cassUuidFromString)
      (fun world activity => activity.NamesId cassUuidFromString world key)
      (World.start database) activities entry.id := by
  have origin : ∀ (world : World) (activity : Activity) (id : CassUuid), activity.Received →
      Records.Intact world.caches.recordsMap →
      (world.act server cassUuidFromString activity).HoldsId key id →
      world.HoldsId key id ∨ activity.NamesId cassUuidFromString world key id := by
    rintro world activity id isReceived intact ⟨after, isHeld, rfl⟩
    rcases holdsRecord_act intact activity isReceived isHeld with before | files | rewrites
    · exact .inl ⟨after, before, rfl⟩
    · exact .inr ⟨after, files, rfl⟩
    · exact .inl (named_of_written rewrites)
  have keeps : ∀ (world : World) (activity : Activity), activity.Received →
      Records.Intact world.caches.recordsMap →
      Records.Intact (world.act server cassUuidFromString activity).caches.recordsMap :=
    fun _ activity _ intact => intact_act intact activity
  have present : (Run.exec (World.act server cassUuidFromString) (World.start database)
      activities).HoldsId key entry.id := ⟨entry, held, rfl⟩
  rcases @Run.given_of_exec _ _ (World.act server cassUuidFromString) _ _ _
      (fun world => world.HoldsId key) _ keeps origin _ _ intact_start received _ present with
    ⟨atStart, isHeld, -⟩ | isNamed
  · exact absurd isHeld not_holdsRecord_start
  · exact isNamed

/-- **Every record that is held has an origin in the run.** -/
theorem recordOrigin_of_held (received : ∀ activity ∈ activities, activity.Received)
    {key : UInt64 × Int} {entry : Records.Entry}
    (held : (Run.exec (World.act server cassUuidFromString) (World.start database)
      activities).HoldsRecord key entry) :
    RecordOrigin cassUuidFromString server (World.start database) activities key entry := by
  have keeps : ∀ (world : World) (activity : Activity), activity.Received →
      Records.Intact world.caches.recordsMap →
      Records.Intact (world.act server cassUuidFromString activity).caches.recordsMap :=
    fun _ activity _ intact => intact_act intact activity
  have origin : ∀ (world : World) (activity : Activity) (entry : Records.Entry),
      activity.Received → Records.Intact world.caches.recordsMap →
      (world.act server cassUuidFromString activity).HoldsRecord key entry →
      world.HoldsRecord key entry ∨
        (activity.FilesRecord cassUuidFromString world key entry ∨
          activity.RewritesRecord cassUuidFromString world key entry) :=
    fun world activity entry isReceived intact isHeld =>
      holdsRecord_act intact activity isReceived isHeld
  -- The activity that gave the record its fields, and before it the one that named it.
  obtain ⟨before, activity, after, rfl, files | rewrites⟩ :=
    (@Run.given_of_exec _ _ (World.act server cassUuidFromString) _ _ _
      (fun world => world.HoldsRecord key) _ keeps origin _ _ intact_start received _
      held).resolve_left not_holdsRecord_start
  · exact ⟨before, activity, after, entry, rfl, files, rfl, .inl rfl⟩
  · obtain ⟨old, wasHeld, sameId⟩ := named_of_written rewrites
    obtain ⟨first, naming, middle, rfl, named, files, named_id⟩ := named_of_held
      (fun other member => received other (List.mem_append_left _ member)) wasHeld
    refine ⟨first, naming, middle ++ activity :: after, named, by simp, files,
      named_id.trans sameId, .inr ⟨middle, activity, after, rfl, rewrites⟩⟩

theorem not_holdsEntry_start {content : IpGroup.Content} :
    ¬ (World.start database).HoldsEntry content := by
  intro held
  dsimp only [World.HoldsEntry, World.start] at held
  rcases held with stored | ⟨entry, waits, -⟩
  · exact IpGroup.not_has_fresh content stored
  · exact absurd waits List.not_mem_nil

/-- **Every entry that is held has an origin in the run.** -/
theorem entryOrigin_of_held (received : ∀ activity ∈ activities, activity.Received)
    {content : IpGroup.Content}
    (held : (Run.exec (World.act server cassUuidFromString) (World.start database)
      activities).HoldsEntry content) :
    EntryOrigin cassUuidFromString server (World.start database) activities content := by
  have origin : ∀ (world : World) (activity : Activity) (content : IpGroup.Content),
      activity.Received → True →
      (world.act server cassUuidFromString activity).HoldsEntry content →
      world.HoldsEntry content ∨ activity.FilesEntry cassUuidFromString server world content :=
    fun world activity content isReceived _ isHeld => holdsEntry_act activity isReceived isHeld
  exact (@Run.given_of_exec _ _ (World.act server cassUuidFromString) (fun _ => True) _ _
    World.HoldsEntry _ (fun _ _ _ _ => trivial) origin _ _ trivial received _
    held).resolve_left not_holdsEntry_start

end Runs

/-! ## Answers -/

section Answers

variable (cassUuidFromString : List UInt8 → Option CassUuid) (server : Server)
  (database : Database) (activities : List Activity) (request : Request)

/-- A record that a query matches after the run: a row of the database at that
moment, or a record with an origin in the run. -/
def MatchedOrigin (query : Query) (record : Records.DNSResponseData) : Prop :=
  record ∈ databaseRecords (Run.exec (World.act server cassUuidFromString)
      (World.start database) activities).database request query ∨
    RecordOrigin cassUuidFromString server (World.start database) activities
      (Records.hashKey query.nameWire query.qtype.toNat) record.entry

/-- An address for a group: a row of the database at that moment, or an entry with an
origin in the run. Nothing is said of the group and the country of that entry. One that was
moved stays on its former chain, and groups go by their hash. -/
def AddressOrigin (groupId : CassUuid) (address : IpGroup.IpGroupEntryResponse) : Prop :=
  (∃ code, (code = countryCode server request ∨ code = defaultCode) ∧
    address ∈ (Run.exec (World.act server cassUuidFromString) (World.start database)
      activities).database.getIpGroupEntriesCountryBased groupId code) ∨
    ∃ content, EntryOrigin cassUuidFromString server (World.start database) activities content ∧
      content.response = address

/-- An answer is a matched record as it stands, or an address of the group that
answers for it. -/
def AnswerOrigin (query : Query) (item : Answer) : Prop :=
  ∃ record, MatchedOrigin cassUuidFromString server database activities request query record ∧
    match answeringGroup server request record with
    | none => item = ⟨record.ttl, record.priority, record.rdata⟩
    | some groupId => ∃ address,
        AddressOrigin cassUuidFromString server database activities request groupId address ∧
        item = ⟨3600, record.priority, address.ip⟩

variable {cassUuidFromString server database activities request}

theorem matchedOrigin_of_mem (received : ∀ activity ∈ activities, activity.Received)
    {query : Query} {record : Records.DNSResponseData}
    (isMatched : record ∈ matchedRecords
      (Run.exec (World.act server cassUuidFromString) (World.start database) activities).database
      (Run.exec (World.act server cassUuidFromString) (World.start database) activities).caches
      request query) :
    MatchedOrigin cassUuidFromString server database activities request query record := by
  rw [matchedRecords] at isMatched
  split at isMatched
  · have intact := @intact_run server cassUuidFromString database activities
    exact .inr (recordOrigin_of_held received (.inl (intact.holds_of_mem_getRecord isMatched)))
  · exact .inl isMatched

theorem addressOrigin_of_mem (received : ∀ activity ∈ activities, activity.Received)
    {groupId : CassUuid} {address : IpGroup.IpGroupEntryResponse}
    (isFound : address ∈ foundEntries server
      (Run.exec (World.act server cassUuidFromString) (World.start database) activities).database
      (Run.exec (World.act server cassUuidFromString) (World.start database) activities).caches
      request groupId) :
    AddressOrigin cassUuidFromString server database activities request groupId address := by
  rw [foundEntries, groupEntries] at isFound
  dsimp only at isFound
  split at isFound
  · obtain ⟨content, stored, same⟩ := IpGroup.stored_of_mem_getRecord isFound
    exact .inr ⟨content, entryOrigin_of_held received (.inl stored), same⟩
  · split at isFound
    · exact .inl ⟨_, .inl rfl, isFound⟩
    · exact .inl ⟨_, .inr rfl, isFound⟩

theorem answerOrigin_of_mem (received : ∀ activity ∈ activities, activity.Received)
    {query : Query} {item : Answer}
    (isAnswer : item ∈ responseAnswers server
      (Run.exec (World.act server cassUuidFromString) (World.start database) activities).database
      (Run.exec (World.act server cassUuidFromString) (World.start database) activities).caches
      request query) :
    AnswerOrigin cassUuidFromString server database activities request query item := by
  rw [responseAnswers] at isAnswer
  split at isAnswer
  case isFalse => exact absurd isAnswer List.not_mem_nil
  obtain ⟨record, isMatched, answers⟩ := List.mem_flatMap.mp isAnswer
  refine ⟨record, matchedOrigin_of_mem received isMatched, ?_⟩
  rw [recordAnswers] at answers
  cases answering : answeringGroup server request record with
  | none =>
      rw [answering] at answers
      exact List.mem_singleton.mp answers
  | some groupId =>
      rw [answering] at answers
      obtain ⟨ip, isIp, rfl⟩ := List.mem_map.mp answers
      obtain ⟨address, isFound, rfl⟩ := List.mem_map.mp isIp
      exact ⟨address, addressOrigin_of_mem received isFound, rfl⟩

/-- **Every answer has an origin.** After any run of the server the answers that
are written into a response are rows of the database at that moment, or were
named by a query or a sync request of the run. -/
theorem answers_have_origin (server : Server) (cassUuidFromString : List UInt8 → Option CassUuid)
    (database : Database) (activities : List Activity)
    (received : ∀ activity ∈ activities, activity.Received) (request : Request)
    (short : request.payload.length ≤ receiveSize) :
    ∃ handled query written,
      (Run.exec (World.act server cassUuidFromString) (World.start database) activities).respond
          server request = .ok handled ∧
        parseQuery (queryBuf request.payload) request.isTcp = .ok query ∧
        handled.out = framed request.isTcp
          (responseMessage request query handled.truncated written) ∧
        ∀ item ∈ written,
          AnswerOrigin cassUuidFromString server database activities request query item := by
  obtain ⟨world, isWorld⟩ : ∃ world, world =
    Run.exec (World.act server cassUuidFromString) (World.start database) activities := ⟨_, rfl⟩
  obtain ⟨handled, query, written, runs, parses, responds⟩ := handle_responds server world.database
    world.caches world.recordQueue world.entryQueue world.rrlBuckets short
  rw [← isWorld]
  refine ⟨handled, query, written, runs, parses, responds.out, fun item isWritten => ?_⟩
  have stood := responds.first.subset isWritten
  rw [isWorld] at stood
  exact answerOrigin_of_mem received stood

/-- A text that a query read from the database is answered after its row is
gone. -/
theorem answers_have_origin_late :
    ∃ handled query written,
      (Run.exec (World.act plainServer readsOne) (World.start oneText)
          [.query textQuery, .administer emptyDatabase, .lifeCycle]).respond plainServer textQuery =
            .ok handled ∧
        parseQuery (queryBuf textQuery.payload) textQuery.isTcp = .ok query ∧
        handled.out = framed textQuery.isTcp
          (responseMessage textQuery query handled.truncated written) ∧
        ∀ item ∈ written, AnswerOrigin readsOne plainServer oneText
          [.query textQuery, .administer emptyDatabase, .lifeCycle] textQuery query item := by
  refine answers_have_origin plainServer readsOne oneText
    [.query textQuery, .administer emptyDatabase, .lifeCycle] ?_ textQuery (by decide)
  simp only [List.mem_cons, List.not_mem_nil, or_false, forall_eq_or_imp, forall_eq,
    Activity.Received, and_true]
  decide

end Answers

end EdgeDNS.Core
