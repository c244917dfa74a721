import EdgeDNS.Core.CompleteAnswers

/-!
# The answers become complete

A query that comes between two rounds of the life cycle may find half of the rows that
were queued for its name. This passes. As long as each round stores what it takes
(`Admits`), everything that was ever taken from the queues stays stored
(`TakenStored`), so a query is answered in full as soon as nothing waits for it
(`answered_in_full_of_quiet`). Every round takes one record and one entry, so after
as many rounds as rows wait every query is (`answers_converge`).

A query whose rows are all stored has them stored for the rest of a run, whatever the
rounds refuse: storing forgets nothing, and what else is queued for it are the same rows
again (`cached_stays`).
-/

set_option autoImplicit false

namespace EdgeDNS.Core

open Operational Utils

/-- A round has room for what it takes from the two queues, or finds it stored
already. -/
def Admits (world : World) : Event → Prop
  | .lifeCycle =>
      (∀ record ∈ world.recordQueue.head?,
        record.entry ∈ world.caches.recordsMap.entries record.name record.qtype ∨
          world.caches.recordsMap.CanAppend record.name record.qtype record.id record.data) ∧
      ∀ entry ∈ world.entryQueue.head?,
        entry.response ∈ world.caches.ipGroupMap.getRecord entry.groupId entry.countryCode ∨
          world.caches.ipGroupMap.CanAppend entry.groupId entry.id entry.countryCode
  | _ => True

instance (m : Records.Mmap) (wireName : List UInt8) (qtype : Int) (id : CassUuid)
    (data : Records.RecordData) : Decidable (m.CanAppend wireName qtype id data) :=
  decidable_of_iff (data.Fits ∧ m.findBucket (Records.calculateHash wireName) qtype ≠ none ∧
      m.idHashTable (Records.idSlot id) = -1 ∧ m.freeListHeadIdx ≠ -1)
    ⟨fun ⟨fits, bucket, idFree, spare⟩ => ⟨fits, bucket, idFree, spare⟩,
      fun can => ⟨can.fits, can.bucket, can.idFree, can.spare⟩⟩

instance (m : IpGroup.Mmap) (groupId id : CassUuid) (countryCode : IpGroup.CountryCode) :
    Decidable (m.CanAppend groupId id countryCode) :=
  decidable_of_iff (m.findBucket (IpGroup.calculateHashFromUuid groupId) countryCode ≠ none ∧
      m.idHashTable (IpGroup.idSlot id) = -1 ∧ m.freeListHeadIdx ≠ -1)
    ⟨fun ⟨bucket, idFree, spare⟩ => ⟨bucket, idFree, spare⟩,
      fun can => ⟨can.bucket, can.idFree, can.spare⟩⟩

instance (world : World) : Decidable (Admits world .lifeCycle) :=
  inferInstanceAs (Decidable (_ ∧ _))

/-- Nothing waits in the queues for a query: no row of its name and type, and no entry
of a group that answers it. -/
def NothingWaits (server : Server) (world : World) (request : Request) : Prop :=
  ∀ labels query, AsksFor request labels query →
    (∀ record ∈ world.recordQueue, record.name = query.nameWire →
      record.qtype ≠ query.qtype.toNat) ∧
    ∀ row ∈ definedRows world.database query.nameWire query.qtype.toNat, ∀ groupId,
      answeringGroup server request row = some groupId →
      ∀ entry ∈ world.entryQueue, entry.groupId = groupId →
        entry.countryCode ≠ countryCode server request

/-- The caches hold all that the database defines for a query. -/
def Cached (server : Server) (world : World) (request : Request) : Prop :=
  ∀ labels query, AsksFor request labels query →
    ∀ row ∈ definedRows world.database query.nameWire query.qtype.toNat,
      storedEntry row ∈
        world.caches.recordsMap.entries query.nameWire query.qtype.toNat ∧
      ∀ groupId, answeringGroup server request row = some groupId →
        ∀ response ∈ world.database.getIpGroupEntriesCountryBased groupId
            (countryCode server request),
          response ∈ world.caches.ipGroupMap.getRecord groupId (countryCode server request)

/-- What the rounds have taken from the queues is stored, and what waits is to be
added. -/
structure TakenStored (logged : Logged) : Prop where
  addedRecords : ∀ record ∈ logged.world.recordQueue, record.type = .add
  addedEntries : ∀ entry ∈ logged.world.entryQueue, entry.type = .add
  records : ∀ record ∈ logged.takenRecords,
    record.entry ∈ logged.world.caches.recordsMap.entries record.name record.qtype
  entries : ∀ entry ∈ logged.takenEntries,
    entry.response ∈ logged.world.caches.ipGroupMap.getRecord entry.groupId entry.countryCode

/-! ## What a round keeps and what it adds -/

/-- The one that a round takes is the first. -/
theorem eq_cons_of_mem_take_one {Item : Type} {item : Item} {queue : List Item}
    (taken : item ∈ queue.take 1) : ∃ rest, queue = item :: rest := by
  cases queue with
  | nil => exact absurd taken List.not_mem_nil
  | cons first rest =>
      obtain rfl := List.mem_singleton.mp taken
      exact ⟨rest, rfl⟩

section Rounds

variable {server : Server} {database : Database} {names : List UInt8 → Prop}
  {groups : CassUuid → Prop}

theorem RecordsFilled.keeps {recordsMap : Records.Mmap} {queued : List Operational.Record}
    {record : Operational.Record} {name : List UInt8} {qtype : Int} {entry : Records.Entry}
    (distinguished : Records.Distinguished names)
    (filled : RecordsFilled server database names groups recordsMap queued)
    (member : record ∈ queued) (isName : names name)
    (isStored : entry ∈ recordsMap.entries name qtype) :
    entry ∈ (applyRecord recordsMap record).entries name qtype := by
  rw [applyRecord]
  split
  case isFalse => exact isStored
  case isTrue =>
    by_cases can : recordsMap.CanAppend record.name record.qtype record.id record.data
    case neg =>
      rw [filled.tracked.not_appended can]
      exact isStored
    case pos =>
      obtain ⟨-, entries⟩ :=
        filled.tracked.appended distinguished (filled.named record member).1 can
      rw [entries name isName]
      split
      · exact List.mem_cons_of_mem _ isStored
      · exact isStored

theorem RecordsFilled.round_keeps {recordsMap : Records.Mmap}
    {queued queue : List Operational.Record} {name : List UInt8} {qtype : Int}
    {entry : Records.Entry} (distinguished : Records.Distinguished names)
    (filled : RecordsFilled server database names groups recordsMap queued)
    (waits : ∀ record ∈ queue, record ∈ queued) (isName : names name)
    (isStored : entry ∈ recordsMap.entries name qtype) :
    entry ∈ (recordRound recordsMap queue).1.entries name qtype := by
  cases queue with
  | nil => exact isStored
  | cons record rest =>
      exact filled.keeps distinguished (waits record (List.mem_cons_self ..)) isName isStored

/-- **A record that is admitted** is stored after its round. -/
theorem RecordsFilled.enters {recordsMap : Records.Mmap} {queued : List Operational.Record}
    {record : Operational.Record} (distinguished : Records.Distinguished names)
    (filled : RecordsFilled server database names groups recordsMap queued)
    (member : record ∈ queued) (added : record.type = .add)
    (admitted : record.entry ∈ recordsMap.entries record.name record.qtype ∨
      recordsMap.CanAppend record.name record.qtype record.id record.data) :
    record.entry ∈ (applyRecord recordsMap record).entries record.name record.qtype := by
  obtain ⟨isName, -⟩ := filled.named record member
  rcases admitted with already | can
  · exact filled.keeps distinguished member isName already
  · obtain ⟨-, entries⟩ := filled.tracked.appended distinguished isName can
    rw [applyRecord, if_pos added, entries record.name isName, if_pos rfl]
    exact List.mem_cons_self ..

theorem EntriesFilled.keeps {ipGroupMap : IpGroup.Mmap} {queued : List Operational.Entry}
    {entry : Operational.Entry} {groupId : CassUuid} {code : IpGroup.CountryCode}
    {response : IpGroup.IpGroupEntryResponse} (isGrouped : Grouped database groups)
    (filled : EntriesFilled database groups ipGroupMap queued) (member : entry ∈ queued)
    (isStored : response ∈ ipGroupMap.getRecord groupId code) :
    response ∈ (applyEntry ipGroupMap entry).getRecord groupId code := by
  rw [applyEntry]
  split
  case isFalse => exact isStored
  case isTrue =>
    obtain ⟨chain, spare, filed⟩ := filled.filed
    by_cases can : ipGroupMap.CanAppend entry.groupId entry.id entry.countryCode
    case neg =>
      rw [filed.not_appended can]
      exact isStored
    case pos =>
      have hashed := isGrouped.nonzero entry.groupId (filled.grouped entry member).1
      exact (filed.appended hashed can groupId code response).mpr (.inl isStored)

theorem EntriesFilled.round_keeps {ipGroupMap : IpGroup.Mmap}
    {queued queue : List Operational.Entry} {groupId : CassUuid} {code : IpGroup.CountryCode}
    {response : IpGroup.IpGroupEntryResponse} (isGrouped : Grouped database groups)
    (filled : EntriesFilled database groups ipGroupMap queued)
    (waits : ∀ entry ∈ queue, entry ∈ queued)
    (isStored : response ∈ ipGroupMap.getRecord groupId code) :
    response ∈ (entryRound ipGroupMap queue).1.getRecord groupId code := by
  cases queue with
  | nil => exact isStored
  | cons entry rest =>
      exact filled.keeps isGrouped (waits entry (List.mem_cons_self ..)) isStored

/-- **An entry that is admitted** is stored after its round. -/
theorem EntriesFilled.enters {ipGroupMap : IpGroup.Mmap} {queued : List Operational.Entry}
    {entry : Operational.Entry} (isGrouped : Grouped database groups)
    (filled : EntriesFilled database groups ipGroupMap queued) (member : entry ∈ queued)
    (added : entry.type = .add)
    (admitted : entry.response ∈ ipGroupMap.getRecord entry.groupId entry.countryCode ∨
      ipGroupMap.CanAppend entry.groupId entry.id entry.countryCode) :
    entry.response ∈ (applyEntry ipGroupMap entry).getRecord entry.groupId entry.countryCode := by
  rcases admitted with already | can
  · exact filled.keeps isGrouped member already
  · obtain ⟨chain, spare, filed⟩ := filled.filed
    obtain ⟨isGroup, fits⟩ := filled.grouped entry member
    have address : entry.address.bytes = entry.val := List.take_of_length_le fits
    rw [applyEntry, if_pos added]
    refine (filed.appended (isGrouped.nonzero entry.groupId isGroup) can ..).mpr (.inr ⟨rfl, ?_⟩)
    rw [Entry.response, address]

end Rounds

/-! ## Runs -/

section Steps

variable {server : Server} {cassUuidFromString : List UInt8 → Option CassUuid}
  {database : Database} {names : List UInt8 → Prop} {groups : CassUuid → Prop} {logged : Logged}

theorem TakenStored.start : TakenStored (Logged.start database) where
  addedRecords _ waits := absurd waits List.not_mem_nil
  addedEntries _ waits := absurd waits List.not_mem_nil
  records _ taken := absurd taken List.not_mem_nil
  entries _ taken := absurd taken List.not_mem_nil

theorem TakenStored.query (stored : TakenStored logged) {request : Request}
    (short : request.payload.length ≤ receiveSize) :
    TakenStored (logged.step server cassUuidFromString (.query request)) := by
  obtain ⟨query, rrlBuckets, -, handled⟩ :=
    @World.handleQuery_eq server logged.world request short
  have world : (logged.step server cassUuidFromString (.query request)).world = _ := handled
  refine ⟨?_, ?_, ?_, ?_⟩
  · intro record waits
    rw [world] at waits
    rcases List.mem_append.mp waits with before | new
    · exact stored.addedRecords record before
    · obtain ⟨-, -, row, -, rfl⟩ := mem_responseRecords.mp new
      rfl
  · intro entry waits
    rw [world] at waits
    rcases List.mem_append.mp waits with before | new
    · exact stored.addedEntries entry before
    · obtain ⟨groupId, code, -, response, -, rfl⟩ := mem_responseEntries.mp new
      rfl
  · intro record taken
    rw [world]
    exact stored.records record taken
  · intro entry taken
    rw [world]
    exact stored.entries entry taken

/-- **A round that admits what it takes** stores it, and keeps what was stored. -/
theorem TakenStored.lifeCycle (stored : TakenStored logged)
    (filled : Filled server database names groups logged)
    (distinguished : Records.Distinguished names) (isGrouped : Grouped database groups)
    (admits : Admits logged.world .lifeCycle) :
    TakenStored (logged.step server cassUuidFromString .lifeCycle) := by
  obtain ⟨admitsRecord, admitsEntry⟩ := admits
  have waitsRecord : ∀ record ∈ logged.world.recordQueue, record ∈ logged.records :=
    fun record => List.mem_append_right _
  have waitsEntry : ∀ entry ∈ logged.world.entryQueue, entry ∈ logged.entries :=
    fun entry => List.mem_append_right _
  refine ⟨?_, ?_, ?_, ?_⟩
  · intro record waits
    dsimp only [Logged.step, World.step, World.queueLifeCycle] at waits
    rw [recordRound_rest] at waits
    exact stored.addedRecords record (List.mem_of_mem_drop waits)
  · intro entry waits
    dsimp only [Logged.step, World.step, World.queueLifeCycle] at waits
    rw [entryRound_rest] at waits
    exact stored.addedEntries entry (List.mem_of_mem_drop waits)
  · intro record taken
    rcases List.mem_append.mp taken with before | new
    · have isName := (filled.records.named record (List.mem_append_left _ before)).1
      exact filled.records.round_keeps distinguished waitsRecord isName
        (stored.records record before)
    · obtain ⟨rest, queue⟩ := eq_cons_of_mem_take_one new
      have waits : record ∈ logged.world.recordQueue := queue ▸ List.mem_cons_self ..
      dsimp only [Logged.step, World.step, World.queueLifeCycle]
      rw [queue] at admitsRecord ⊢
      exact filled.records.enters distinguished (waitsRecord record waits)
        (stored.addedRecords record waits) (admitsRecord record rfl)
  · intro entry taken
    rcases List.mem_append.mp taken with before | new
    · exact filled.entries.round_keeps isGrouped waitsEntry (stored.entries entry before)
    · obtain ⟨rest, queue⟩ := eq_cons_of_mem_take_one new
      have waits : entry ∈ logged.world.entryQueue := queue ▸ List.mem_cons_self ..
      dsimp only [Logged.step, World.step, World.queueLifeCycle]
      rw [queue] at admitsEntry ⊢
      exact filled.entries.enters isGrouped (waitsEntry entry waits)
        (stored.addedEntries entry waits) (admitsEntry entry rfl)

/-- A query for which nothing waits finds its rows settled. -/
theorem TakenStored.settled (stored : TakenStored logged) {request : Request}
    (quiet : NothingWaits server logged.world request) :
    Settled server logged (.query request) := by
  intro labels query asks
  obtain ⟨noRecord, noEntry⟩ := quiet labels query asks
  refine ⟨.inr fun record queued sameName sameType => ?_, fun row isRow groupId answers =>
    .inr fun entry queued sameGroup sameCode => ?_⟩
  · rcases List.mem_append.mp queued with taken | waits
    · exact sameName ▸ sameType ▸ stored.records record taken
    · exact absurd sameType (noRecord record waits sameName)
  · rcases List.mem_append.mp queued with taken | waits
    · exact sameGroup ▸ sameCode ▸ stored.entries entry taken
    · exact absurd sameCode (noEntry row isRow groupId answers entry waits sameGroup)

end Steps

/-- A world of a run whose rounds admitted what they took. -/
def Stocked (server : Server) (database : Database) (names : List UInt8 → Prop)
    (groups : CassUuid → Prop) (world : World) : Prop :=
  ∃ takenRecords takenEntries,
    Filled server database names groups ⟨world, takenRecords, takenEntries⟩ ∧
      TakenStored ⟨world, takenRecords, takenEntries⟩

section Runs

variable {server : Server} {cassUuidFromString : List UInt8 → Option CassUuid}
  {database : Database} {names : List UInt8 → Prop} {groups : CassUuid → Prop}

theorem Stocked.start : Stocked server database names groups (.start database) :=
  ⟨[], [], Filled.start, TakenStored.start⟩

theorem Stocked.step {world : World} (distinguished : Records.Distinguished names)
    (isGrouped : Grouped database groups) (event : Event)
    (plain : Plain server database names groups event)
    (stocked : Stocked server database names groups world) (admits : Admits world event) :
    Stocked server database names groups (world.step server cassUuidFromString event) := by
  obtain ⟨takenRecords, takenEntries, filled, stored⟩ := stocked
  cases event with
  | query request =>
      exact ⟨takenRecords, takenEntries, filled.query isGrouped plain, stored.query plain.1⟩
  | lifeCycle =>
      exact ⟨_, _, filled.lifeCycle distinguished isGrouped,
        stored.lifeCycle filled distinguished isGrouped admits⟩
  | sync request ipGroupMap => exact plain.elim
  | administer database => exact plain.elim

/-- **A query for which nothing waits** is answered in full. -/
theorem Stocked.answeredInFull {world : World} {request : Request}
    (stocked : Stocked server database names groups world)
    (plain : Plain server database names groups (.query request))
    (quiet : NothingWaits server world request) :
    AnsweredInFull server world request := by
  obtain ⟨takenRecords, takenEntries, filled, stored⟩ := stocked
  exact filled.answeredInFull plain (stored.settled quiet)

/-- What the rounds leave of the two queues. -/
theorem queues_rounds (server : Server) (cassUuidFromString : List UInt8 → Option CassUuid)
    (world : World) (rounds : Nat) :
    (Run.exec (World.step server cassUuidFromString) world
        (List.replicate rounds .lifeCycle)).recordQueue = world.recordQueue.drop rounds ∧
      (Run.exec (World.step server cassUuidFromString) world
        (List.replicate rounds .lifeCycle)).entryQueue = world.entryQueue.drop rounds := by
  induction rounds generalizing world with
  | zero => exact ⟨rfl, rfl⟩
  | succ rounds ih =>
      obtain ⟨records, entries⟩ := ih (world.step server cassUuidFromString .lifeCycle)
      rw [List.replicate_succ, Run.exec_cons, records, entries]
      dsimp only [World.step, World.queueLifeCycle]
      rw [recordRound_rest, entryRound_rest, List.drop_drop, List.drop_drop, Nat.add_comm 1]
      exact ⟨rfl, rfl⟩

end Runs

/-- **No answer is half for longer than its rows wait.** -/
theorem answered_in_full_of_quiet (server : Server)
    (cassUuidFromString : List UInt8 → Option CassUuid) (database : Database)
    {names : List UInt8 → Prop} {groups : CassUuid → Prop}
    (distinguished : Records.Distinguished names) (isGrouped : Grouped database groups)
    (events : List Event) (plain : ∀ event ∈ events, Plain server database names groups event)
    (admitted : Run.Along (World.step server cassUuidFromString) Admits (.start database) events) :
    Run.Along (World.step server cassUuidFromString)
      (fun world event => ∀ request, event = .query request → NothingWaits server world request →
        AnsweredInFull server world request) (.start database) events := by
  have start : Stocked server database names groups (.start database) := .start
  refine Run.Along.of_invariant ?_ ?_ start plain admitted
  · intro world event isPlain stocked admits
    exact stocked.step distinguished isGrouped event isPlain admits
  · rintro world event isPlain stocked - request rfl quiet
    exact stocked.answeredInFull isPlain quiet

/-- **The answers become complete.** After any run and as many rounds as rows wait
then, both queues are empty and every query is answered in full. -/
theorem answers_converge (server : Server) (cassUuidFromString : List UInt8 → Option CassUuid)
    (database : Database) {names : List UInt8 → Prop} {groups : CassUuid → Prop}
    (distinguished : Records.Distinguished names) (isGrouped : Grouped database groups)
    (events : List Event) (plain : ∀ event ∈ events, Plain server database names groups event)
    (rounds : Nat)
    (enoughRecords : (Run.exec (World.step server cassUuidFromString) (.start database)
      events).recordQueue.length ≤ rounds)
    (enoughEntries : (Run.exec (World.step server cassUuidFromString) (.start database)
      events).entryQueue.length ≤ rounds)
    (admitted : Run.Along (World.step server cassUuidFromString) Admits (.start database)
      (events ++ List.replicate rounds .lifeCycle)) :
    let world := Run.exec (World.step server cassUuidFromString) (.start database)
      (events ++ List.replicate rounds .lifeCycle)
    world.recordQueue = [] ∧ world.entryQueue = [] ∧
      ∀ request, Plain server database names groups (.query request) →
        AnsweredInFull server world request := by
  intro world
  have allPlain : ∀ event ∈ events ++ List.replicate rounds .lifeCycle,
      Plain server database names groups event := by
    intro event member
    rcases List.mem_append.mp member with early | round
    · exact plain event early
    · rw [List.eq_of_mem_replicate round]
      trivial
  have start : Stocked server database names groups (.start database) := .start
  have stocked := (Run.throughout_of_along (fun world event isPlain stocked admits =>
    stocked.step distinguished isGrouped event isPlain admits) start allPlain admitted).last
  obtain ⟨records, entries⟩ := queues_rounds server cassUuidFromString
    (Run.exec (World.step server cassUuidFromString) (.start database) events) rounds
  rw [← Run.exec_append, List.drop_eq_nil_of_le enoughRecords] at records
  rw [← Run.exec_append, List.drop_eq_nil_of_le enoughEntries] at entries
  refine ⟨records, entries, fun request isPlain => stocked.answeredInFull isPlain ?_⟩
  intro labels query asks
  rw [records, entries]
  exact ⟨fun record waits => absurd waits List.not_mem_nil,
    fun row isRow groupId answers entry waits => absurd waits List.not_mem_nil⟩

/-- After another round the query that was answered by half is answered in full. -/
theorem answers_converge_half :
    let world := Run.exec (World.step plainServer readsOne) (.start twoAddresses)
      (halfRun ++ List.replicate 1 .lifeCycle)
    world.recordQueue = [] ∧ world.entryQueue = [] ∧
      ∀ request, Plain plainServer twoAddresses (fun name => name = [1, 97, 0])
        (fun groupId => groupId = plainServer.proxyId) (.query request) →
        AnsweredInFull plainServer world request := by
  refine answers_converge plainServer readsOne twoAddresses distinguished_a grouped_twoAddresses
    halfRun halfRun_plain 1 ?_ ?_ ⟨trivial, ?_, trivial, ?_, trivial⟩
  all_goals
    rw [World.start, Records.Mmap.fresh_eq_freshTable]
    decide +kernel

/-! ## What stays complete -/

section Cached

variable {server : Server} {cassUuidFromString : List UInt8 → Option CassUuid}
  {database : Database} {names : List UInt8 → Prop} {groups : CassUuid → Prop} {logged : Logged}
  {request : Request}

/-- The key under which a query is looked up. -/
theorem AsksFor.key {labels : List (List UInt8)} {query : Query}
    (asks : AsksFor request labels query)
    (plain : Plain server database names groups (.query request)) :
    ∃ key : RecordKey names, key.name = query.nameWire ∧ key.qtype = query.qtype.toNat := by
  have ends := LabelsEnd.of_labels asks.valid asks.name
  have positive := Dns.encodeLabels_length_pos labels
  have parsed := parsesLabels ends asks.valid asks.name (by omega)
  obtain rfl := Except.ok.inj (parsed.parses.symm.trans asks.parses)
  have name := parsed.name.trans (encodeLabels_lower asks.valid.short)
  have lower := nameWire_lower plain.1 asks.parses
  have isName := (plain.2 _ asks.parses).1
  rw [name] at lower isName
  exact ⟨⟨lowerLabels labels, asks.valid.of_lengths (map_length_lowerLabels labels), isName, lower,
    _⟩, name.symm, rfl⟩

/-- What is queued for a query whose rows are all stored are rows that are stored. -/
theorem Cached.settled (cached : Cached server logged.world request)
    (filled : Filled server database names groups logged)
    (plain : Plain server database names groups (.query request)) :
    Settled server logged (.query request) := by
  intro labels query asks
  have allCached := cached labels query asks
  obtain ⟨key, name, qtype⟩ := asks.key plain
  rw [filled.fixed] at allCached ⊢
  rw [← name, ← qtype] at allCached ⊢
  refine ⟨.inr fun record queued sameName sameType => ?_, fun row isRow groupId answers =>
    .inr fun entry queued sameGroup sameCode => ?_⟩
  · obtain ⟨row, isRow, same⟩ := filled.records.filling.loadedRows key record.entry
      ⟨record, queued, sameName, sameType, rfl⟩
    exact same ▸ (allCached row isRow).1
  · have isRead := isRow
    rw [name, qtype, ← databaseRecords_eq request key.valid name.symm] at isRead
    have isGroup := answeringGroup_isGroup ((plain.2 query asks.parses).2 row isRead) answers
    have isEntry := filled.entries.filling.loadedRows
      ⟨groupId, isGroup, countryCode server request⟩ entry.response
      ⟨entry, queued, sameGroup, sameCode, rfl⟩
    exact (allCached row isRow).2 groupId answers entry.response isEntry

/-- **What is stored stays stored**, whatever a round refuses. -/
theorem Cached.step (cached : Cached server logged.world request)
    (filled : Filled server database names groups logged)
    (distinguished : Records.Distinguished names) (isGrouped : Grouped database groups)
    (plain : Plain server database names groups (.query request))
    {event : Event} (isPlain : Plain server database names groups event) :
    Cached server (logged.step server cassUuidFromString event).world request := by
  cases event with
  | query other =>
      obtain ⟨query, rrlBuckets, -, handled⟩ :=
        @World.handleQuery_eq server logged.world other isPlain.1
      have world : (logged.step server cassUuidFromString (.query other)).world = _ := handled
      rw [world]
      exact cached
  | lifeCycle =>
      intro labels query asks row isRow
      obtain ⟨rowCached, entriesCached⟩ := cached labels query asks row isRow
      refine ⟨filled.records.round_keeps distinguished (fun _ => List.mem_append_right _)
        (plain.2 query asks.parses).1 rowCached, fun groupId answers response isEntry => ?_⟩
      exact filled.entries.round_keeps isGrouped (fun _ => List.mem_append_right _)
        (entriesCached groupId answers response isEntry)
  | sync request ipGroupMap => exact isPlain.elim
  | administer database => exact isPlain.elim

/-- A world of a plain run, with what its rounds have taken. -/
def Reached (server : Server) (database : Database) (names : List UInt8 → Prop)
    (groups : CassUuid → Prop) (world : World) : Prop :=
  ∃ takenRecords takenEntries,
    Filled server database names groups ⟨world, takenRecords, takenEntries⟩

theorem Reached.step {world : World} (distinguished : Records.Distinguished names)
    (isGrouped : Grouped database groups) (event : Event)
    (plain : Plain server database names groups event)
    (reached : Reached server database names groups world) :
    Reached server database names groups (world.step server cassUuidFromString event) := by
  obtain ⟨takenRecords, takenEntries, filled⟩ := reached
  cases event with
  | query request => exact ⟨takenRecords, takenEntries, filled.query isGrouped plain⟩
  | lifeCycle => exact ⟨_, _, filled.lifeCycle distinguished isGrouped⟩
  | sync request ipGroupMap => exact plain.elim
  | administer database => exact plain.elim

end Cached

/-- **A query whose rows are all stored** is answered in full for the rest of the run,
whether or not the later rounds have room for what they take. -/
theorem cached_stays (server : Server) (cassUuidFromString : List UInt8 → Option CassUuid)
    (database : Database) {names : List UInt8 → Prop} {groups : CassUuid → Prop}
    (distinguished : Records.Distinguished names) (isGrouped : Grouped database groups)
    (events later : List Event) (plain : ∀ event ∈ events, Plain server database names groups event)
    (laterPlain : ∀ event ∈ later, Plain server database names groups event) (request : Request)
    (isPlain : Plain server database names groups (.query request))
    (cached : Cached server
      (Run.exec (World.step server cassUuidFromString) (.start database) events) request) :
    Run.Throughout (World.step server cassUuidFromString)
      (fun world => AnsweredInFull server world request)
      (Run.exec (World.step server cassUuidFromString) (.start database) events) later := by
  have start : Reached server database names groups (.start database) := ⟨[], [], .start⟩
  have reached : Reached server database names groups
      (Run.exec (World.step server cassUuidFromString) (.start database) events) :=
    Run.exec_invariant (fun _ event isPlain reached =>
      reached.step distinguished isGrouped event isPlain) start plain
  have keeps : ∀ world event, Plain server database names groups event →
      Reached server database names groups world ∧ Cached server world request →
      Reached server database names groups (world.step server cassUuidFromString event) ∧
        Cached server (world.step server cassUuidFromString event) request := by
    rintro world event eventPlain ⟨reached, cached⟩
    refine ⟨reached.step distinguished isGrouped event eventPlain, ?_⟩
    obtain ⟨takenRecords, takenEntries, filled⟩ := reached
    exact Cached.step cached filled distinguished isGrouped isPlain eventPlain
  refine (Run.throughout_invariant keeps ⟨reached, cached⟩ laterPlain).mono ?_
  rintro world ⟨⟨takenRecords, takenEntries, filled⟩, cached⟩
  exact filled.answeredInFull isPlain (Cached.settled cached filled isPlain)

/-- With both addresses stored, the query gets both of them in every later state. -/
theorem cached_stays_two_addresses :
    Run.Throughout (World.step plainServer readsOne)
      (fun world => AnsweredInFull plainServer world addressQuery)
      (Run.exec (World.step plainServer readsOne) (.start twoAddresses)
        [.query addressQuery, .lifeCycle, .lifeCycle])
      [.query addressQuery, .lifeCycle] := by
  refine cached_stays plainServer readsOne twoAddresses distinguished_a grouped_twoAddresses
    _ _ ?_ ?_ addressQuery plain_addressQuery ?_
  · simp only [List.forall_mem_cons]
    exact ⟨plain_addressQuery, trivial, trivial,
      fun _ impossible => absurd impossible List.not_mem_nil⟩
  · simp only [List.forall_mem_cons]
    exact ⟨plain_addressQuery, trivial, fun _ impossible => absurd impossible List.not_mem_nil⟩
  · intro labels query asks
    obtain rfl := Except.ok.inj (parses_addressQuery.symm.trans asks.parses)
    generalize reached : Run.exec _ _ _ = world
    have rows : ∀ row ∈ definedRows world.database [1, 97, 0] 1,
        storedEntry row ∈ world.caches.recordsMap.entries [1, 97, 0] 1 ∧
          answeringGroup plainServer addressQuery row = none := by
      rw [← reached, World.start, Records.Mmap.fresh_eq_freshTable]
      decide +kernel
    intro row isRow
    obtain ⟨stored, asItStands⟩ := rows row isRow
    refine ⟨stored, fun groupId answers => ?_⟩
    exact absurd (asItStands.symm.trans answers) (Option.some_ne_none _).symm

end EdgeDNS.Core
