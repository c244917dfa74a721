import EdgeDNS.Cache.IpGroupIndex
import EdgeDNS.Cache.RecordsRefinement
import EdgeDNS.Core.System
import EdgeDNS.Library.Filling

/-!
# Whether cached answers are complete

Without sync requests and with fixed rows, a response should carry what the
database defines for its name and type (`AnsweredInFull`), whatever the caches
hold at the time.

What a query misses it queues as a whole, and the rounds of the life cycle
store it row by row, or fail to. A query that comes in between finds the rows
stored so far and takes them for all of them (`half_cached_answer`). The run
carries what the rounds have taken from the queues (`Logged`). When all that was
queued for a stored key is stored, the answer is complete (`answered_in_full`):
each cache is a filling of a table of the database.
-/

set_option autoImplicit false

namespace EdgeDNS.Operational

/-- What a lookup returns for a queued record, once it is stored. -/
def Record.entry (record : Record) : Records.Entry := record.data.entry record.id

/-- What a lookup returns for a queued entry, once it is stored. -/
def Entry.response (entry : Entry) : IpGroup.IpGroupEntryResponse :=
  ⟨entry.id, entry.val, entry.priority⟩

end EdgeDNS.Operational

namespace EdgeDNS.Core

open Utils Wire Operational

/-! ## What the database defines -/

section Defined

variable (server : Server) (database : Database) (request : Request)

/-- The rows that the database defines for a wire name and a type. -/
def definedRows (nameWire : List UInt8) (qtype : Int) : List Records.DNSResponseData :=
  let zoneWire := getHostWireFromWireNoAlloc nameWire nameSize
  database.getRecord (wireToDomain zoneWire zoneWire.length)
    (wireToDomain nameWire nameWire.length) qtype

/-- The entries that the database defines for a group and the country of a
client: those of the default code when the country has none. -/
def definedEntries (groupId : CassUuid) : List IpGroup.IpGroupEntryResponse :=
  let entries := database.getIpGroupEntriesCountryBased groupId (countryCode server request)
  if entries ≠ [] then entries
  else database.getIpGroupEntriesCountryBased groupId defaultCode

/-- The answers that a row of the database defines. -/
def definedAnswers (row : Records.DNSResponseData) : List Answer :=
  match answeringGroup server request row with
  | some groupId =>
      ((definedEntries server database request groupId).map
        IpGroup.IpGroupEntryResponse.ip).map (Answer.mk 3600 row.priority)
  | none => [⟨row.ttl, row.priority, row.rdata⟩]

end Defined

/-- The query that a request makes for a name of valid labels, in the class IN and
with one question. -/
structure AsksFor (request : Request) (labels : List (List UInt8)) (query : Query) : Prop where
  valid : Dns.ValidLabels labels
  name : Dns.encodeLabels labels <+:
    (queryBuf request.payload).drop (messageStart request.isTcp + 12)
  parses : parseQuery (queryBuf request.payload) request.isTcp = .ok query
  accepted : query.qclass = 1 ∧ query.qdcount = 1

/-- A response that is not truncated carries exactly the resource records that
the database defines for the query. -/
def AnsweredInFull (server : Server) (world : World) (request : Request) : Prop :=
  ∀ labels query handled, AsksFor request labels query →
    world.respond server request = .ok handled → handled.truncated = false →
    ∃ message, Dns.decodeMessage (unframed request.isTcp handled.out) = some message ∧
      ∀ record, record ∈ message.answers ↔
        record ∈ ((definedRows world.database query.nameWire query.qtype.toNat).flatMap
          (definedAnswers server world.database request)).map (Answer.record query.qtype)

/-- For a name of valid labels the query asks for the rows that the database
defines, whatever lies behind the name in memory. -/
theorem databaseRecords_eq {database : Database} (request : Request) {query : Query}
    {labels : List (List UInt8)} (valid : Dns.ValidLabels labels)
    (name : query.nameWire = Dns.encodeLabels labels) :
    databaseRecords database request query =
      definedRows database query.nameWire query.qtype.toNat := by
  have total := valid.total
  have whole : ∀ behind, wireToDomain (Dns.encodeLabels labels ++ behind)
      (Dns.encodeLabels labels).length = dotted labels :=
    wireToDomain_labels valid.nonempty valid.small
  have zone : ∀ behind, wireToDomain
      (getHostWireFromWireNoAlloc (Dns.encodeLabels labels) nameSize ++ behind)
      (getHostWireFromWireNoAlloc (Dns.encodeLabels labels) nameSize).length =
        wireToDomain (getHostWireFromWireNoAlloc (Dns.encodeLabels labels) nameSize)
          (getHostWireFromWireNoAlloc (Dns.encodeLabels labels) nameSize).length := by
    intro behind
    rcases @getHostWireFromWireNoAlloc_labels labels valid.nonempty valid.small nameSize
      (by rw [nameSize]; omega) with nothing | ⟨suffix, isSuffix, encoded⟩
    · rw [nothing]
      rfl
    · have texts : ∀ behind, wireToDomain (Dns.encodeLabels suffix ++ behind)
          (Dns.encodeLabels suffix).length = dotted suffix :=
        wireToDomain_labels (fun label member => valid.nonempty label (isSuffix.mem member))
          fun label member => valid.small label (isSuffix.mem member)
      have alone := texts []
      rw [List.append_nil] at alone
      rw [encoded, texts behind, alone]
  have alone := whole []
  rw [List.append_nil] at alone
  simp only [databaseRecords, definedRows, name, zone, whole, alone]

/-! ## The condition -/

/-- A world, and what the rounds have taken from its queues so far. -/
structure Logged where
  world : World
  takenRecords : List Operational.Record
  takenEntries : List Operational.Entry

namespace Logged

/-- Nothing has been taken at the start. -/
def start (database : Database) : Logged := ⟨.start database, [], []⟩

/-- A step of the server. A round of the life cycle notes what it takes. -/
def step (server : Server) (cassUuidFromString : List UInt8 → Option CassUuid) (logged : Logged)
    (event : Event) : Logged where
  world := logged.world.step server cassUuidFromString event
  takenRecords :=
    match event with
    | .lifeCycle => logged.takenRecords ++ logged.world.recordQueue.take 1
    | _ => logged.takenRecords
  takenEntries :=
    match event with
    | .lifeCycle => logged.takenEntries ++ logged.world.entryQueue.take 1
    | _ => logged.takenEntries

/-- The records that were queued so far. -/
def records (logged : Logged) : List Operational.Record :=
  logged.takenRecords ++ logged.world.recordQueue

/-- The entries that were queued so far. -/
def entries (logged : Logged) : List Operational.Entry :=
  logged.takenEntries ++ logged.world.entryQueue

end Logged

/-- Nothing is stored under a name and a type, or all that was queued for them is
stored: nothing waits, and nothing was refused. -/
def RecordsSettled (logged : Logged) (nameWire : List UInt8) (qtype : Int) : Prop :=
  logged.world.caches.recordsMap.getRecord nameWire qtype = [] ∨
    ∀ record ∈ logged.records, record.name = nameWire → record.qtype = qtype →
      record.entry ∈ logged.world.caches.recordsMap.entries nameWire qtype

/-- Nothing is stored for a group and a country, or all that was queued for them
is stored. -/
def EntriesSettled (logged : Logged) (groupId : CassUuid) (code : IpGroup.CountryCode) : Prop :=
  logged.world.caches.ipGroupMap.getRecord groupId code = [] ∨
    ∀ entry ∈ logged.entries, entry.groupId = groupId → entry.countryCode = code →
      entry.response ∈ logged.world.caches.ipGroupMap.getRecord groupId code

/-- A query finds its rows settled, and the entries of their groups. -/
def Settled (server : Server) (logged : Logged) : Event → Prop
  | .query request => ∀ labels query, AsksFor request labels query →
      RecordsSettled logged query.nameWire query.qtype.toNat ∧
      ∀ row ∈ definedRows logged.world.database query.nameWire query.qtype.toNat, ∀ groupId,
        answeringGroup server request row = some groupId →
        EntriesSettled logged groupId (countryCode server request)
  | _ => True

/-- The groups that may answer for a record are among the given ones: its own group if
it is a geo record, and the proxy if it is proxied. -/
def HasGroups (server : Server) (groups : CassUuid → Prop) (entry : Records.Entry) : Prop :=
  (entry.isGeo = true → groups entry.groupId) ∧ (entry.isProxy = true → groups server.proxyId)

/-- The events of a run with fixed rows and without sync requests, the names that its
queries ask for, and the groups behind the rows of these names. -/
def Plain (server : Server) (database : Database) (names : List UInt8 → Prop)
    (groups : CassUuid → Prop) : Event → Prop
  | .query request => request.payload.length ≤ receiveSize ∧
      ∀ query, parseQuery (queryBuf request.payload) request.isTcp = .ok query →
        names query.nameWire ∧
          ∀ row ∈ databaseRecords database request query, HasGroups server groups row.entry
  | .lifeCycle => True
  | .sync _ _ => False
  | .administer _ => False

/-- The hash tells the groups apart, and their addresses fit a slot. -/
structure Grouped (database : Database) (groups : CassUuid → Prop) : Prop where
  nonzero : ∀ groupId, groups groupId → IpGroup.calculateHashFromUuid groupId ≠ 0
  injective : ∀ first second, groups first → groups second →
    IpGroup.calculateHashFromUuid first = IpGroup.calculateHashFromUuid second → first = second
  fits : ∀ groupId, groups groupId → ∀ code,
    ∀ response ∈ database.getIpGroupEntriesCountryBased groupId code, response.ip.length ≤ 16

/-! ## The two fillings -/

/-- A name of valid labels and a type, as the record cache is asked for them. -/
structure RecordKey (names : List UInt8 → Prop) where
  labels : List (List UInt8)
  valid : Dns.ValidLabels labels
  isName : names (Dns.encodeLabels labels)
  lower : (Dns.encodeLabels labels).map lowerByte = Dns.encodeLabels labels
  qtype : Int

/-- A group and a country, as the address cache is asked for them. -/
structure EntryKey (groups : CassUuid → Prop) where
  groupId : CassUuid
  isGroup : groups groupId
  code : IpGroup.CountryCode

section Fillings

variable {names : List UInt8 → Prop} {groups : CassUuid → Prop}

/-- The wire name of a key. -/
def RecordKey.name (key : RecordKey names) : List UInt8 := Dns.encodeLabels key.labels

/-- The stored form of a row. -/
def storedEntry (row : Records.DNSResponseData) : Records.Entry := (recordOf [] 0 row).entry

/-- What the database defines under a key, as the cache stores it. -/
def recordRows (database : Database) (key : RecordKey names) (entry : Records.Entry) : Prop :=
  ∃ row ∈ definedRows database key.name key.qtype, storedEntry row = entry

/-- What has been queued under a key. -/
def recordLoaded (queued : List Operational.Record) (key : RecordKey names)
    (entry : Records.Entry) : Prop :=
  ∃ record ∈ queued, record.name = key.name ∧ record.qtype = key.qtype ∧ record.entry = entry

/-- What the record cache returns under a key. -/
def recordStored (recordsMap : Records.Mmap) (key : RecordKey names) (entry : Records.Entry) :
    Prop :=
  entry ∈ recordsMap.entries key.name key.qtype

/-- What the database defines for a group and a country. -/
def entryRows (database : Database) (key : EntryKey groups)
    (response : IpGroup.IpGroupEntryResponse) : Prop :=
  response ∈ database.getIpGroupEntriesCountryBased key.groupId key.code

/-- What has been queued for a group and a country. -/
def entryLoaded (queued : List Operational.Entry) (key : EntryKey groups)
    (response : IpGroup.IpGroupEntryResponse) : Prop :=
  ∃ entry ∈ queued, entry.groupId = key.groupId ∧ entry.countryCode = key.code ∧
    entry.response = response

/-- What the address cache returns for a group and a country. -/
def entryStored (ipGroupMap : IpGroup.Mmap) (key : EntryKey groups)
    (response : IpGroup.IpGroupEntryResponse) : Prop :=
  response ∈ ipGroupMap.getRecord key.groupId key.code

end Fillings

/-! ## The record cache and its queue -/

/-- The record cache is filled from the rows by what was queued for it. -/
structure RecordsFilled (server : Server) (database : Database) (names : List UInt8 → Prop)
    (groups : CassUuid → Prop) (recordsMap : Records.Mmap) (queued : List Operational.Record) :
    Prop where
  tracked : Records.TracksSome names recordsMap
  named : ∀ record ∈ queued, names record.name ∧ record.name.map lowerByte = record.name
  filling : Filling (@recordRows names database) (recordLoaded queued) (recordStored recordsMap)
  queuedGroups : ∀ record ∈ queued, HasGroups server groups record.entry
  storedGroups : ∀ name, names name → ∀ qtype, ∀ entry ∈ recordsMap.entries name qtype,
    HasGroups server groups entry

section Records

variable {server : Server} {database : Database} {names : List UInt8 → Prop}
  {groups : CassUuid → Prop} {recordsMap : Records.Mmap} {queued : List Operational.Record}

theorem RecordsFilled.fresh : RecordsFilled server database names groups .fresh [] where
  tracked := .fresh names
  named record member := absurd member List.not_mem_nil
  filling := by
    refine .empty ?_ ?_
    · rintro key entry ⟨record, member, -⟩
      exact absurd member List.not_mem_nil
    · intro key entry isStored
      rw [recordStored, Records.Mmap.entries_fresh] at isStored
      exact absurd isStored List.not_mem_nil
  queuedGroups record member := absurd member List.not_mem_nil
  storedGroups name isName qtype entry member := by
    rw [Records.Mmap.entries_fresh] at member
    exact absurd member List.not_mem_nil

/-- The key of a queued record is that of a lookup when the names agree. -/
theorem RecordKey.keyOf_eq_iff {key : RecordKey names} {record : Operational.Record}
    (lower : record.name.map lowerByte = record.name) :
    Records.keyOf key.name key.qtype = Records.keyOf record.name record.qtype ↔
      record.name = key.name ∧ record.qtype = key.qtype := by
  have keyLower : key.name.map lowerByte = key.name := key.lower
  simp only [Records.keyOf, keyLower, lower, Prod.mk.injEq]
  exact and_congr eq_comm eq_comm

/-- **A queued record is stored or refused.** -/
theorem RecordsFilled.applied (distinguished : Records.Distinguished names)
    (filled : RecordsFilled server database names groups recordsMap queued)
    {record : Operational.Record} (member : record ∈ queued) :
    RecordsFilled server database names groups (applyRecord recordsMap record) queued := by
  rw [applyRecord]
  split
  case isFalse => exact filled
  case isTrue =>
    by_cases can : recordsMap.CanAppend record.name record.qtype record.id record.data
    case neg =>
      rw [filled.tracked.not_appended can]
      exact filled
    case pos =>
      obtain ⟨isName, lower⟩ := filled.named record member
      obtain ⟨tracked, entries⟩ := filled.tracked.appended distinguished isName can
      refine ⟨tracked, filled.named, filled.filling.store ?_, filled.queuedGroups, ?_⟩
      · intro key entry isStored
        rw [recordStored, entries key.name key.isName] at isStored
        split at isStored
        case isTrue sameKey =>
          obtain ⟨sameName, sameType⟩ := (RecordKey.keyOf_eq_iff lower).mp sameKey
          rcases List.mem_cons.mp isStored with rfl | before
          · exact ⟨record, member, sameName, sameType, rfl⟩
          · exact filled.filling.storedLoaded key entry before
        case isFalse => exact filled.filling.storedLoaded key entry isStored
      · intro name isOther qtype entry isStored
        rw [entries name isOther] at isStored
        split at isStored
        case isTrue =>
          rcases List.mem_cons.mp isStored with rfl | before
          · exact filled.queuedGroups record member
          · exact filled.storedGroups name isOther qtype entry before
        case isFalse => exact filled.storedGroups name isOther qtype entry isStored

theorem RecordsFilled.round (distinguished : Records.Distinguished names)
    (filled : RecordsFilled server database names groups recordsMap queued)
    {queue : List Operational.Record} (waits : ∀ record ∈ queue, record ∈ queued) :
    RecordsFilled server database names groups (recordRound recordsMap queue).1 queued := by
  cases queue with
  | nil => exact filled
  | cons record queue => exact filled.applied distinguished (waits record (List.mem_cons_self ..))

/-- The name of a query is in lower case. -/
theorem nameWire_lower {request : Request} {query : Query}
    (short : request.payload.length ≤ receiveSize)
    (parses : parseQuery (queryBuf request.payload) request.isTcp = .ok query) :
    query.nameWire.map lowerByte = query.nameWire := by
  obtain ⟨root, ends⟩ := labelsEnd short
  obtain rfl := Except.ok.inj (ends.parses.symm.trans parses)
  have twice : lowerByte ∘ lowerByte = lowerByte := funext lowerByte_lowerByte
  rw [parsed, List.map_map, twice]

/-- A query asks the database for the rows of a key: that of the query, when
nothing is stored under it. -/
def AsksRows (caches : Caches) (query : Query) (key : RecordKey names) : Prop :=
  (query.qclass = 1 ∧ query.qdcount = 1) ∧ cachedRecords caches query = [] ∧
    query.nameWire = key.name ∧ query.qtype.toNat = key.qtype

/-- **A query loads all rows of its key**, or none. -/
theorem RecordsFilled.asked {caches : Caches} {request : Request} {query : Query}
    (filled : RecordsFilled server database names groups caches.recordsMap queued)
    (rowGroups : ∀ row ∈ databaseRecords database request query,
      HasGroups server groups row.entry)
    (isName : names query.nameWire) (lower : query.nameWire.map lowerByte = query.nameWire) :
    RecordsFilled server database names groups caches.recordsMap
      (queued ++ responseRecords database caches request query) := by
  refine { filled with named := ?_, filling := ?_, queuedGroups := ?_ }
  · intro record member
    rcases List.mem_append.mp member with before | new
    · exact filled.named record before
    · obtain ⟨-, -, row, -, rfl⟩ := mem_responseRecords.mp new
      exact ⟨isName, lower⟩
  · have loading : ∀ (key : RecordKey names) entry,
        recordLoaded (queued ++ responseRecords database caches request query) key entry ↔
          recordLoaded queued key entry ∨
            AsksRows caches query key ∧ recordRows database key entry := ?_
    · exact filled.filling.load loading
    intro key entry
    constructor
    · rintro ⟨record, member, sameName, sameType, rfl⟩
      rcases List.mem_append.mp member with before | new
      · exact .inl ⟨record, before, sameName, sameType, rfl⟩
      · obtain ⟨accepted, miss, row, isRow, rfl⟩ := mem_responseRecords.mp new
        rw [databaseRecords_eq request key.valid sameName] at isRow
        refine .inr ⟨⟨accepted, miss, sameName, sameType⟩, row, ?_, rfl⟩
        rw [← sameType]
        exact sameName ▸ isRow
    · rintro (⟨record, before, held⟩ | ⟨⟨accepted, miss, sameName, sameType⟩, row, isRow, rfl⟩)
      · exact ⟨record, List.mem_append_left _ before, held⟩
      · rw [← sameName, ← sameType, ← databaseRecords_eq request key.valid sameName]
          at isRow
        have new := mem_responseRecords.mpr ⟨accepted, miss, row, isRow, rfl⟩
        exact ⟨_, List.mem_append_right _ new, sameName, sameType, rfl⟩
  · intro record member
    rcases List.mem_append.mp member with before | new
    · exact filled.queuedGroups record before
    · obtain ⟨-, -, row, isRow, rfl⟩ := mem_responseRecords.mp new
      exact rowGroups row isRow

end Records

/-! ## The address cache and its queue -/

/-- The address cache is filled from the entries of the groups by what was queued
for it. -/
structure EntriesFilled (database : Database) (groups : CassUuid → Prop)
    (ipGroupMap : IpGroup.Mmap) (queued : List Operational.Entry) : Prop where
  filed : IpGroup.IsFiled ipGroupMap
  grouped : ∀ entry ∈ queued, groups entry.groupId ∧ entry.val.length ≤ 16
  filling : Filling (@entryRows groups database) (entryLoaded queued) (entryStored ipGroupMap)

section Entries

variable {server : Server} {database : Database} {groups : CassUuid → Prop}
  {ipGroupMap : IpGroup.Mmap} {queued : List Operational.Entry}

theorem EntriesFilled.fresh : EntriesFilled database groups .fresh [] where
  filed := .fresh
  grouped entry member := absurd member List.not_mem_nil
  filling := by
    refine .empty ?_ ?_
    · rintro key response ⟨entry, member, -⟩
      exact absurd member List.not_mem_nil
    · intro key response isStored
      rw [entryStored, IpGroup.Mmap.getRecord_fresh] at isStored
      exact absurd isStored List.not_mem_nil

/-- **A queued entry is stored or refused.** -/
theorem EntriesFilled.applied (isGrouped : Grouped database groups)
    (filled : EntriesFilled database groups ipGroupMap queued) {entry : Operational.Entry}
    (member : entry ∈ queued) :
    EntriesFilled database groups (applyEntry ipGroupMap entry) queued := by
  rw [applyEntry]
  split
  case isFalse => exact filled
  case isTrue =>
    obtain ⟨chain, spare, filed⟩ := filled.filed
    by_cases can : ipGroupMap.CanAppend entry.groupId entry.id entry.countryCode
    case neg =>
      rw [filed.not_appended can]
      exact filled
    case pos =>
      obtain ⟨isGroup, fits⟩ := filled.grouped entry member
      have hashed := isGrouped.nonzero entry.groupId isGroup
      have keepsIndex : ipGroupMap.KeepsIndex (.append entry.groupId entry.id entry.countryCode
          entry.address entry.priority) := fun zero => absurd zero hashed
      have address : entry.address.bytes = entry.val := List.take_of_length_le fits
      have response : entry.response = ⟨entry.id, entry.address.bytes, entry.priority⟩ := by
        rw [Entry.response, address]
      refine ⟨filed.step keepsIndex, filled.grouped,
        filled.filling.store fun key other isStored => ?_⟩
      rcases (filed.appended hashed can key.groupId key.code other).mp isStored with
        before | ⟨sameKey, rfl⟩
      · exact filled.filling.storedLoaded key other before
      · obtain ⟨sameHash, sameCode⟩ := Prod.mk.inj sameKey
        have sameGroup := isGrouped.injective _ _ isGroup key.isGroup sameHash
        exact ⟨entry, member, sameGroup, sameCode, response⟩

theorem EntriesFilled.round (isGrouped : Grouped database groups)
    (filled : EntriesFilled database groups ipGroupMap queued)
    {queue : List Operational.Entry} (waits : ∀ entry ∈ queue, entry ∈ queued) :
    EntriesFilled database groups (entryRound ipGroupMap queue).1 queued := by
  cases queue with
  | nil => exact filled
  | cons entry queue => exact filled.applied isGrouped (waits entry (List.mem_cons_self ..))

/-- A group is asked for under a code: that of the client when nothing is stored
for it, and then the default code when the country has no entries. -/
def AsksCode (server : Server) (database : Database) (caches : Caches) (request : Request)
    (groupId : CassUuid) (code : IpGroup.CountryCode) : Prop :=
  caches.ipGroupMap.getRecord groupId (countryCode server request) = [] ∧
    (code = countryCode server request ∨
      database.getIpGroupEntriesCountryBased groupId (countryCode server request) = [] ∧
        code = defaultCode)

/-- A query asks the database for the entries of a group under a code. -/
def AsksEntries (server : Server) (database : Database) (caches : Caches) (request : Request)
    (query : Query) (groupId : CassUuid) (code : IpGroup.CountryCode) : Prop :=
  (query.qclass = 1 ∧ query.qdcount = 1) ∧
    (∃ record ∈ matchedRecords database caches request query,
      answeringGroup server request record = some groupId) ∧
    AsksCode server database caches request groupId code

theorem mem_queuedEntries {caches : Caches} {request : Request} {groupId : CassUuid}
    {entry : Operational.Entry} :
    entry ∈ queuedEntries server database caches request groupId ↔
      ∃ code, AsksCode server database caches request groupId code ∧
        ∃ response ∈ database.getIpGroupEntriesCountryBased groupId code,
          entryOf groupId code response = entry := by
  have queued : queuedEntries server database caches request groupId =
      if caches.ipGroupMap.getRecord groupId (countryCode server request) ≠ [] then []
      else if database.getIpGroupEntriesCountryBased groupId (countryCode server request) ≠ [] then
        (database.getIpGroupEntriesCountryBased groupId (countryCode server request)).map
          (entryOf groupId (countryCode server request))
      else (database.getIpGroupEntriesCountryBased groupId defaultCode).map
        (entryOf groupId defaultCode) := by
    simp only [queuedEntries, groupEntries, addQueueForEntry_all, List.nil_append]
    split
    · rfl
    · split
      · rfl
      · next none => rw [not_not.mp none, List.map_nil, List.nil_append]
  rw [queued]
  split
  case isTrue hit =>
    constructor
    · exact fun impossible => absurd impossible List.not_mem_nil
    · rintro ⟨code, asks, -⟩
      exact absurd asks.1 hit
  case isFalse miss =>
    split
    case isTrue some =>
      rw [List.mem_map]
      constructor
      · intro held
        exact ⟨_, ⟨not_not.mp miss, .inl rfl⟩, held⟩
      · rintro ⟨code, ⟨-, rfl | ⟨none, -⟩⟩, held⟩
        · exact held
        · exact absurd none some
    case isFalse none =>
      rw [List.mem_map]
      constructor
      · intro held
        exact ⟨_, ⟨not_not.mp miss, .inr ⟨not_not.mp none, rfl⟩⟩, held⟩
      · rintro ⟨code, ⟨-, rfl | ⟨-, rfl⟩⟩, response, isEntry, same⟩
        · rw [not_not.mp none] at isEntry
          exact absurd isEntry List.not_mem_nil
        · exact ⟨response, isEntry, same⟩

theorem mem_responseEntries {caches : Caches} {request : Request} {query : Query}
    {entry : Operational.Entry} :
    entry ∈ responseEntries server database caches request query ↔
      ∃ groupId code, AsksEntries server database caches request query groupId code ∧
        ∃ response ∈ database.getIpGroupEntriesCountryBased groupId code,
          entryOf groupId code response = entry := by
  have ofRecord : ∀ record, entry ∈ recordEntries server database caches request record ↔
      ∃ groupId, answeringGroup server request record = some groupId ∧
        entry ∈ queuedEntries server database caches request groupId := by
    intro record
    rw [recordEntries]
    split <;> simp_all
  rw [responseEntries]
  split
  case isFalse refused =>
    constructor
    · exact fun impossible => absurd impossible List.not_mem_nil
    · rintro ⟨groupId, code, asks, -⟩
      exact absurd asks.1 refused
  case isTrue accepted =>
    simp only [List.mem_flatMap, ofRecord, mem_queuedEntries]
    constructor
    · rintro ⟨record, matched, groupId, answers, code, asks, held⟩
      exact ⟨groupId, code, ⟨accepted, ⟨record, matched, answers⟩, asks⟩, held⟩
    · rintro ⟨groupId, code, ⟨-, ⟨record, matched, answers⟩, asks⟩, held⟩
      exact ⟨record, matched, groupId, answers, code, asks, held⟩

/-- The addresses for a record are those of the proxy or of its own group. -/
theorem answeringGroup_isGroup {request : Request} {record : Records.DNSResponseData}
    {groupId : CassUuid} (hasGroups : HasGroups server groups record.entry)
    (answers : answeringGroup server request record = some groupId) : groups groupId := by
  rw [answeringGroup] at answers
  split at answers
  · next proxied =>
      exact Option.some.inj answers ▸ hasGroups.2 (Bool.and_eq_true_iff.mp proxied).1
  · split at answers
    · next isGeo => exact Option.some.inj answers ▸ hasGroups.1 isGeo
    · cases answers

/-- **A query loads all entries of a group and a code**, or none. -/
theorem EntriesFilled.asked {caches : Caches} {request : Request} {query : Query}
    (isGrouped : Grouped database groups)
    (filled : EntriesFilled database groups caches.ipGroupMap queued)
    (matchedGroups : ∀ record ∈ matchedRecords database caches request query,
      HasGroups server groups record.entry) :
    EntriesFilled database groups caches.ipGroupMap
      (queued ++ responseEntries server database caches request query) := by
  refine { filled with grouped := ?_, filling := ?_ }
  · intro entry member
    rcases List.mem_append.mp member with before | new
    · exact filled.grouped entry before
    · obtain ⟨groupId, code, ⟨-, ⟨record, matched, answers⟩, -⟩, response, isEntry, rfl⟩ :=
        mem_responseEntries.mp new
      have isGroup := answeringGroup_isGroup (matchedGroups record matched) answers
      exact ⟨isGroup, isGrouped.fits groupId isGroup code response isEntry⟩
  · have loading : ∀ (key : EntryKey groups) response,
        entryLoaded (queued ++ responseEntries server database caches request query) key response ↔
          entryLoaded queued key response ∨
            AsksEntries server database caches request query key.groupId key.code ∧
              entryRows database key response := ?_
    · exact filled.filling.load loading
    intro key response
    constructor
    · rintro ⟨entry, member, sameGroup, sameCode, rfl⟩
      rcases List.mem_append.mp member with before | new
      · exact .inl ⟨entry, before, sameGroup, sameCode, rfl⟩
      · obtain ⟨groupId, code, loads, response, isEntry, rfl⟩ := mem_responseEntries.mp new
        obtain rfl : groupId = key.groupId := sameGroup
        obtain rfl : code = key.code := sameCode
        exact .inr ⟨loads, isEntry⟩
    · rintro (⟨entry, before, held⟩ | ⟨loads, isEntry⟩)
      · exact ⟨entry, List.mem_append_left _ before, held⟩
      · have new := mem_responseEntries.mpr ⟨_, _, loads, response, isEntry, rfl⟩
        exact ⟨_, List.mem_append_right _ new, rfl, rfl, rfl⟩

end Entries

/-! ## The answers of a filled world -/

/-- Both caches of a world are filled from the rows by what was queued. -/
structure Filled (server : Server) (database : Database) (names : List UInt8 → Prop)
    (groups : CassUuid → Prop) (logged : Logged) : Prop where
  fixed : logged.world.database = database
  records : RecordsFilled server database names groups logged.world.caches.recordsMap logged.records
  entries : EntriesFilled database groups logged.world.caches.ipGroupMap logged.entries

section Answers

variable {server : Server} {cassUuidFromString : List UInt8 → Option CassUuid}
  {database : Database} {names : List UInt8 → Prop} {groups : CassUuid → Prop} {logged : Logged}
  {request : Request} {query : Query} {labels : List (List UInt8)}

/-- A query is answered from the records that are stored under its key, or from
the rows of the database. -/
theorem mem_matchedRecords {caches : Caches} {record : Records.DNSResponseData}
    (matched : record ∈ matchedRecords database caches request query) :
    record ∈ cachedRecords caches query ∨ record ∈ databaseRecords database request query := by
  rw [matchedRecords] at matched
  split at matched
  · exact .inl matched
  · exact .inr matched

theorem Filled.matchedGroups (filled : Filled server database names groups logged)
    (request : Request) (isName : names query.nameWire)
    (rowGroups : ∀ row ∈ databaseRecords database request query,
      HasGroups server groups row.entry) :
    ∀ record ∈ matchedRecords database logged.world.caches request query,
      HasGroups server groups record.entry := by
  intro record matched
  rcases mem_matchedRecords matched with cached | isRow
  · exact filled.records.storedGroups _ isName _ record.entry (List.mem_map_of_mem cached)
  · exact rowGroups record isRow

/-- **The entries found are those that the database defines.** -/
theorem Filled.mem_foundEntries (filled : Filled server database names groups logged)
    {groupId : CassUuid} (isGroup : groups groupId)
    (settled : EntriesSettled logged groupId (countryCode server request))
    (response : IpGroup.IpGroupEntryResponse) :
    response ∈ foundEntries server database logged.world.caches request groupId ↔
      response ∈ definedEntries server database request groupId := by
  let key : EntryKey groups := ⟨groupId, isGroup, countryCode server request⟩
  cases cached : logged.world.caches.ipGroupMap.getRecord groupId (countryCode server request) with
  | nil =>
      have miss : foundEntries server database logged.world.caches request groupId =
          definedEntries server database request groupId := by
        simp only [foundEntries, groupEntries, cached, definedEntries, ne_eq, not_true, if_false]
        split <;> rfl
      rw [miss]
  | cons first rest =>
      have isStored : entryStored logged.world.caches.ipGroupMap key first := by
        rw [entryStored, cached]
        exact List.mem_cons_self ..
      have allStored : ∀ other, entryLoaded logged.entries key other →
          entryStored logged.world.caches.ipGroupMap key other := by
        rintro other ⟨entry, member, sameGroup, sameCode, rfl⟩
        rcases settled with nothing | stored
        · cases cached.symm.trans nothing
        · exact stored entry member sameGroup sameCode
      have exact := filled.entries.filling.exact isStored allStored
      have hit : foundEntries server database logged.world.caches request groupId =
          logged.world.caches.ipGroupMap.getRecord groupId (countryCode server request) := by
        simp only [foundEntries, groupEntries, cached, ne_eq, reduceCtorEq, not_false_eq_true,
          if_true]
      have defines : definedEntries server database request groupId =
          database.getIpGroupEntriesCountryBased groupId (countryCode server request) :=
        if_pos (List.ne_nil_of_mem ((exact first).mp isStored))
      rw [hit, defines]
      exact exact response

/-- What is stored for a row is its own stored form. -/
theorem storedEntry_of_eq {row record : Records.DNSResponseData}
    (stored : storedEntry row = record.entry) : storedEntry record = record.entry := by
  obtain ⟨-, -, rdata, -, -, isGeo, -⟩ := Records.Entry.mk.inj stored
  have sameGeo : row.isGeo = record.isGeo := isGeo
  have ownRdata : (storedEntry record).rdata = record.rdata := by
    cases geo : record.isGeo with
    | false => exact if_neg (Bool.eq_false_iff.mp geo)
    | true =>
        have rowStripped : (storedEntry row).rdata = [] := if_pos (sameGeo.trans geo)
        have stripped : (storedEntry record).rdata = [] := if_pos geo
        exact stripped.trans (rowStripped.symm.trans rdata)
  exact Records.Entry.ext rfl rfl ownRdata rfl rfl rfl rfl

/-- The stored form of a row decides its answers. -/
theorem definedAnswers_eq {row record : Records.DNSResponseData}
    (same : storedEntry row = storedEntry record) :
    answeringGroup server request row = answeringGroup server request record ∧
      definedAnswers server database request row =
        definedAnswers server database request record := by
  obtain ⟨ttl, priority, rdata, groupId, -, isGeo, isProxy⟩ := Records.Entry.mk.inj same
  have ttl : row.ttl = record.ttl := ttl
  have priority : row.priority = record.priority := priority
  have groupId : row.groupId = record.groupId := groupId
  have isGeo : row.isGeo = record.isGeo := isGeo
  have isProxied : isProxied request row = isProxied request record :=
    congrArg (· && !localAddress.isPrefixOf request.ipStr) isProxy
  have sameGroup : answeringGroup server request row = answeringGroup server request record := by
    rw [answeringGroup, answeringGroup, isProxied, isGeo, groupId]
  refine ⟨sameGroup, ?_⟩
  cases answers : answeringGroup server request record with
  | some groupId => simp only [definedAnswers, sameGroup, answers, priority]
  | none =>
      obtain ⟨-, notGeo⟩ := (answeringGroup_eq_none_iff server request).mp answers
      have ofRow : (storedEntry row).rdata = row.rdata :=
        if_neg (Bool.eq_false_iff.mp (isGeo.trans notGeo))
      have ofRecord : (storedEntry record).rdata = record.rdata :=
        if_neg (Bool.eq_false_iff.mp notGeo)
      have whole : row.rdata = record.rdata := ofRow.symm.trans (rdata.trans ofRecord)
      simp only [definedAnswers, sameGroup, answers, ttl, priority, whole]

/-- **A record is answered as the database defines**, when the entries of its
group are settled. -/
theorem Filled.mem_recordAnswers (filled : Filled server database names groups logged)
    {record : Records.DNSResponseData} (hasGroups : HasGroups server groups record.entry)
    (settled : ∀ groupId, answeringGroup server request record = some groupId →
      EntriesSettled logged groupId (countryCode server request)) (item : Answer) :
    item ∈ recordAnswers server database logged.world.caches request record ↔
      item ∈ definedAnswers server database request record := by
  rw [recordAnswers, definedAnswers]
  cases answers : answeringGroup server request record with
  | none => exact Iff.rfl
  | some groupId =>
      have isGroup := answeringGroup_isGroup hasGroups answers
      have exact := filled.mem_foundEntries isGroup (settled groupId answers)
      simp only [List.mem_map, exact]

/-- **The matched records are the rows of the database** in their stored form,
when the rows are settled. -/
theorem Filled.matched_iff (filled : Filled server database names groups logged) (request : Request)
    (valid : Dns.ValidLabels labels) (name : query.nameWire = Dns.encodeLabels labels)
    (isName : names query.nameWire) (lower : query.nameWire.map lowerByte = query.nameWire)
    (settled : RecordsSettled logged query.nameWire query.qtype.toNat) (entry : Records.Entry) :
    (∃ record ∈ matchedRecords database logged.world.caches request query,
        storedEntry record = entry) ↔
      ∃ row ∈ definedRows database query.nameWire query.qtype.toNat, storedEntry row = entry := by
  let key : RecordKey names := ⟨labels, valid, name ▸ isName, name ▸ lower, query.qtype.toNat⟩
  cases cached : cachedRecords logged.world.caches query with
  | nil =>
      rw [matchedRecords, if_neg (not_not.mpr cached), databaseRecords_eq request valid name]
  | cons first rest =>
      have hit : matchedRecords database logged.world.caches request query =
          cachedRecords logged.world.caches query :=
        if_pos (cached ▸ List.cons_ne_nil _ _)
      have looked : logged.world.caches.recordsMap.entries key.name key.qtype =
          (cachedRecords logged.world.caches query).map Records.DNSResponseData.entry := by
        rw [RecordKey.name, ← name]
        rfl
      have isStored : recordStored logged.world.caches.recordsMap key first.entry := by
        rw [recordStored, looked, cached]
        exact List.mem_cons_self ..
      have allStored : ∀ other, recordLoaded logged.records key other →
          recordStored logged.world.caches.recordsMap key other := by
        rintro other ⟨record, member, sameName, sameType, rfl⟩
        rcases settled with nothing | stored
        · cases cached.symm.trans nothing
        · rw [recordStored, RecordKey.name, ← name]
          exact stored record member (sameName.trans name.symm) sameType
      have exact : ∀ other, (∃ record ∈ cachedRecords logged.world.caches query,
          record.entry = other) ↔ ∃ row ∈ definedRows database query.nameWire query.qtype.toNat,
            storedEntry row = other := by
        intro other
        have atKey := filled.records.filling.exact isStored allStored other
        rwa [recordStored, looked, recordRows, RecordKey.name, ← name, List.mem_map] at atKey
      have ownForm : ∀ record ∈ cachedRecords logged.world.caches query,
          storedEntry record = record.entry := by
        intro record member
        obtain ⟨row, -, stored⟩ := (exact record.entry).mp ⟨record, member, rfl⟩
        exact storedEntry_of_eq stored
      rw [hit, ← exact entry]
      exact exists_congr fun record =>
        and_congr_right fun member => by rw [ownForm record member]

/-- **A query that finds its rows and entries settled** is answered in full. -/
theorem Filled.answeredInFull (filled : Filled server database names groups logged)
    (plain : Plain server database names groups (.query request))
    (settled : Settled server logged (.query request)) :
    AnsweredInFull server logged.world request := by
  intro labels query handled asks runs notTruncated
  obtain ⟨handled', query', written, runs', asked, responds⟩ := handle_of_labels server
    logged.world.database logged.world.caches logged.world.recordQueue logged.world.entryQueue
    logged.world.rrlBuckets asks.valid asks.name
  obtain rfl : handled' = handled := Except.ok.inj (runs'.symm.trans runs)
  obtain rfl : query' = query := Except.ok.inj (asked.parses.symm.trans asks.parses)
  obtain ⟨rowsSettled, entriesSettled⟩ := settled labels query' asks
  obtain ⟨short, isNamed⟩ := plain
  obtain ⟨isName, rowGroups⟩ := isNamed query' asks.parses
  have lower := nameWire_lower short asks.parses
  have name : query'.nameWire = Dns.encodeLabels (lowerLabels labels) :=
    asked.name.trans (encodeLabels_lower asks.valid.short)
  have valid := asks.valid.of_lengths (map_length_lowerLabels labels)
  have fixed := filled.fixed
  rw [fixed] at responds entriesSettled ⊢
  have matchedGroups := filled.matchedGroups request isName rowGroups
  have matchedRows := filled.matched_iff request valid name isName lower rowsSettled
  have sameAnswers : ∀ item,
      item ∈ responseAnswers server database logged.world.caches request query' ↔
        item ∈ (definedRows database query'.nameWire query'.qtype.toNat).flatMap
          (definedAnswers server database request) := by
    intro item
    rw [responseAnswers, if_pos asks.accepted, List.mem_flatMap, List.mem_flatMap]
    have answered : ∀ record ∈ matchedRecords database logged.world.caches request query',
        ∀ row ∈ definedRows database query'.nameWire query'.qtype.toNat,
        storedEntry row = storedEntry record →
          (item ∈ recordAnswers server database logged.world.caches request record ↔
            item ∈ definedAnswers server database request row) := by
      intro record matched row isRow same
      obtain ⟨sameGroup, sameAnswers⟩ := @definedAnswers_eq server database request _ _ same
      rw [sameAnswers]
      refine filled.mem_recordAnswers (matchedGroups record matched) ?_ item
      intro groupId answers
      exact entriesSettled row isRow groupId (sameGroup.trans answers)
    constructor
    · rintro ⟨record, matched, isAnswer⟩
      obtain ⟨row, isRow, same⟩ := (matchedRows _).mp ⟨record, matched, rfl⟩
      exact ⟨row, isRow, (answered record matched row isRow same).mp isAnswer⟩
    · rintro ⟨row, isRow, isAnswer⟩
      obtain ⟨record, matched, same⟩ := (matchedRows _).mpr ⟨row, isRow, rfl⟩
      exact ⟨record, matched, (answered record matched row isRow same.symm).mpr isAnswer⟩
  refine ⟨_, responds.decodes asks.valid asked, fun record => ?_⟩
  rw [saidMessage, responds.complete notTruncated, List.mem_map, List.mem_map]
  simp only [sameAnswers]

end Answers

/-! ## Every run -/

section Steps

variable {server : Server} {cassUuidFromString : List UInt8 → Option CassUuid}
  {database : Database} {names : List UInt8 → Prop} {groups : CassUuid → Prop} {logged : Logged}

theorem Filled.start : Filled server database names groups (Logged.start database) where
  fixed := rfl
  records := by
    dsimp only [Logged.start, Logged.records, World.start, List.append_nil]
    exact .fresh
  entries := by
    dsimp only [Logged.start, Logged.entries, World.start, List.append_nil]
    exact .fresh

theorem Filled.query (filled : Filled server database names groups logged)
    (isGrouped : Grouped database groups) {request : Request}
    (plain : Plain server database names groups (.query request)) :
    Filled server database names groups
      (logged.step server cassUuidFromString (.query request)) := by
  obtain ⟨short, isNamed⟩ := plain
  obtain ⟨query, rrlBuckets, parses, handled⟩ :=
    @World.handleQuery_eq server logged.world request short
  obtain ⟨isName, rowGroups⟩ := isNamed query parses
  have world : (logged.step server cassUuidFromString (.query request)).world = _ := handled
  have fixed := filled.fixed
  rw [fixed] at world
  have records : (logged.step server cassUuidFromString (.query request)).records =
      logged.records ++ responseRecords database logged.world.caches request query := by
    rw [Logged.records, Logged.records, world, List.append_assoc]
    rfl
  have entries : (logged.step server cassUuidFromString (.query request)).entries =
      logged.entries ++ responseEntries server database logged.world.caches request query := by
    rw [Logged.entries, Logged.entries, world, List.append_assoc]
    rfl
  refine ⟨?_, ?_, ?_⟩
  · rw [world]
  · rw [records, world]
    exact filled.records.asked rowGroups isName (nameWire_lower short parses)
  · rw [entries, world]
    exact filled.entries.asked isGrouped (filled.matchedGroups request isName rowGroups)

/-- A round moves what waits first, and forgets nothing. -/
theorem Filled.lifeCycle (filled : Filled server database names groups logged)
    (distinguished : Records.Distinguished names) (isGrouped : Grouped database groups) :
    Filled server database names groups (logged.step server cassUuidFromString .lifeCycle) := by
  have records : (logged.step server cassUuidFromString .lifeCycle).records = logged.records := by
    dsimp only [Logged.records, Logged.step, World.step, World.queueLifeCycle]
    rw [recordRound_rest, List.append_assoc, List.take_append_drop]
  have entries : (logged.step server cassUuidFromString .lifeCycle).entries = logged.entries := by
    dsimp only [Logged.entries, Logged.step, World.step, World.queueLifeCycle]
    rw [entryRound_rest, List.append_assoc, List.take_append_drop]
  refine ⟨filled.fixed, ?_, ?_⟩
  · rw [records]
    exact filled.records.round distinguished fun record => List.mem_append_right _
  · rw [entries]
    exact filled.entries.round isGrouped fun entry => List.mem_append_right _

end Steps

/-- **Answers are complete along every settled run.** -/
theorem answered_in_full (server : Server) (cassUuidFromString : List UInt8 → Option CassUuid)
    (database : Database) {names : List UInt8 → Prop} {groups : CassUuid → Prop}
    (distinguished : Records.Distinguished names) (isGrouped : Grouped database groups)
    (events : List Event) (plain : ∀ event ∈ events, Plain server database names groups event)
    (settled : Run.Along (Logged.step server cassUuidFromString) (Settled server)
      (Logged.start database) events) :
    Run.Along (Logged.step server cassUuidFromString)
      (fun logged event => ∀ request, event = .query request →
        AnsweredInFull server logged.world request) (Logged.start database) events := by
  have start : Filled server database names groups (Logged.start database) := .start
  refine Run.Along.of_invariant ?_ ?_ start plain settled
  · intro logged event isPlain filled isSettled
    cases event with
    | query request => exact filled.query isGrouped isPlain
    | lifeCycle => exact filled.lifeCycle distinguished isGrouped
    | sync request ipGroupMap => exact isPlain.elim
    | administer database => exact isPlain.elim
  · rintro logged event isPlain filled isSettled request rfl
    exact filled.answeredInFull isPlain isSettled

/-! ### Two addresses -/

/-- An A record of the network 10 that is neither proxied nor a geo record. -/
def addressRow (last : UInt8) (id : CassUuid) : Records.DNSResponseData where
  ttl := 60
  priority := 0
  rdata := [10, 0, 0, last]
  groupId := ⟨0, 0⟩
  id := id
  bucketIdx := 0
  isGeo := false
  isProxy := false

/-- A database with two addresses for the name `a`. -/
def twoAddresses : Database where
  getRecord _ name type :=
    if name = [97] ∧ type = 1 then [addressRow 1 ⟨1, 1⟩, addressRow 2 ⟨2, 2⟩] else []
  getIpGroupEntriesCountryBased _ _ := []

theorem distinguished_a : Records.Distinguished fun name => name = [1, 97, 0] where
  nonzero name isName := by
    subst isName
    decide
  injective first second isFirst isSecond _ := by rw [isFirst, isSecond]

theorem grouped_twoAddresses :
    Grouped twoAddresses fun groupId => groupId = plainServer.proxyId where
  nonzero groupId isGroup := by
    subst isGroup
    decide
  injective _ _ isFirst isSecond _ := isFirst.trans isSecond.symm
  fits _ _ _ _ isEntry := absurd isEntry List.not_mem_nil

theorem parses_addressQuery : parseQuery (queryBuf addressQuery.payload) addressQuery.isTcp =
    .ok ⟨0x0707, 0x0100, 1, [1, 97, 0], 1, 1, 19, 0⟩ := by
  apply eq_ok_of_toOption
  decide +kernel

theorem plain_addressQuery : Plain plainServer twoAddresses (fun name => name = [1, 97, 0])
    (fun groupId => groupId = plainServer.proxyId) (.query addressQuery) := by
  refine ⟨by decide, fun query parses => ?_⟩
  rw [← Except.ok.inj (parses_addressQuery.symm.trans parses)]
  have asTheyStand : ∀ row ∈ databaseRecords twoAddresses addressQuery
      ⟨0x0707, 0x0100, 1, [1, 97, 0], 1, 1, 19, 0⟩, row.isGeo = false := by
    decide +kernel
  refine ⟨rfl, fun row isRow => ⟨fun isGeo => ?_, fun _ => rfl⟩⟩
  exact absurd ((asTheyStand row isRow).symm.trans isGeo) Bool.false_ne_true

theorem settled_addressQuery {logged : Logged} (rows : RecordsSettled logged [1, 97, 0] 1)
    (asTheyStand : ∀ row ∈ definedRows logged.world.database [1, 97, 0] 1,
      answeringGroup plainServer addressQuery row = none) :
    Settled plainServer logged (.query addressQuery) := by
  intro labels query asks
  obtain rfl := Except.ok.inj (parses_addressQuery.symm.trans asks.parses)
  refine ⟨rows, fun row isRow groupId answers => ?_⟩
  exact absurd ((asTheyStand row isRow).symm.trans answers) (Option.some_ne_none _).symm

/-- A query, two rounds, and the query again. -/
def settledRun : List Event :=
  [.query addressQuery, .lifeCycle, .lifeCycle, .query addressQuery]

/-- Once both addresses are stored, the second query gets both of them. -/
theorem answered_in_full_two_addresses :
    Run.Along (Logged.step plainServer readsOne)
      (fun logged event => ∀ request, event = .query request →
        AnsweredInFull plainServer logged.world request)
      (Logged.start twoAddresses) settledRun := by
  refine answered_in_full plainServer readsOne twoAddresses distinguished_a grouped_twoAddresses
    settledRun ?_ ?_
  · simp only [settledRun, List.forall_mem_cons]
    exact ⟨plain_addressQuery, trivial, trivial, plain_addressQuery,
      fun _ impossible => absurd impossible List.not_mem_nil⟩
  · refine ⟨settled_addressQuery (.inl ?_) ?_, trivial, trivial,
      settled_addressQuery (.inr ?_) ?_, trivial⟩
    all_goals
      rw [Logged.start, World.start, Records.Mmap.fresh_eq_freshTable]
      decide +kernel

/-- A query, one round, and the query again. -/
def halfRun : List Event := [.query addressQuery, .lifeCycle, .query addressQuery]

theorem halfRun_plain : ∀ event ∈ halfRun, Plain plainServer twoAddresses
    (fun name => name = [1, 97, 0]) (fun groupId => groupId = plainServer.proxyId) event := by
  simp only [halfRun, List.forall_mem_cons]
  exact ⟨plain_addressQuery, trivial, plain_addressQuery,
    fun _ impossible => absurd impossible List.not_mem_nil⟩

/-- The answer with an address of the name `a`. -/
def addressAnswer (last : UInt8) : Answer := ⟨60, 0, [10, 0, 0, last]⟩

/-- **An answer can be half of what the database defines.** One round stores one
of the two addresses, and the next query finds it alone. -/
theorem half_cached_answer :
    ¬ ∀ (server : Server) (cassUuidFromString : List UInt8 → Option CassUuid) (database : Database)
      (names : List UInt8 → Prop) (groups : CassUuid → Prop) (events : List Event),
      Records.Distinguished names → Grouped database groups →
      (∀ event ∈ events, Plain server database names groups event) →
      Run.Along (World.step server cassUuidFromString)
        (fun world event => ∀ request, event = .query request →
          AnsweredInFull server world request) (World.start database) events := by
  intro always
  have along := always plainServer readsOne twoAddresses _ _ halfRun distinguished_a
    grouped_twoAddresses halfRun_plain
  have last := along.2.2.1 addressQuery rfl
  generalize reached : World.step plainServer readsOne _ Event.lifeCycle = world at last
  have oneAnswer : (world.respond plainServer addressQuery).toOption.map (fun handled =>
      (handled.truncated,
        (Dns.decodeMessage (unframed addressQuery.isTcp handled.out)).map (·.answers.length))) =
      some (false, some 1) := by
    rw [← reached, World.start, Records.Mmap.fresh_eq_freshTable]
    decide +kernel
  have twoDefined : (definedRows world.database [1, 97, 0] 1).flatMap
      (definedAnswers plainServer world.database addressQuery) =
        [addressAnswer 1, addressAnswer 2] := by
    rw [← reached, World.start, Records.Mmap.fresh_eq_freshTable]
    decide +kernel
  have asks : AsksFor addressQuery [[97]] ⟨0x0707, 0x0100, 1, [1, 97, 0], 1, 1, 19, 0⟩ :=
    ⟨validLabels_a, by decide +kernel, parses_addressQuery, rfl, rfl⟩
  obtain ⟨handled, present, values⟩ := Option.map_eq_some_iff.mp oneAnswer
  obtain ⟨notTruncated, single⟩ := Prod.mk.inj values
  obtain ⟨message, decodes, answers⟩ := last _ _ handled asks (eq_ok_of_toOption present)
    notTruncated
  rw [decodes, Option.map_some, Option.some_inj, List.length_eq_one_iff] at single
  obtain ⟨only, single⟩ := single
  have defined : ∀ item ∈ [addressAnswer 1, addressAnswer 2], item.record 1 = only := by
    intro item member
    rw [← List.mem_singleton, ← single]
    exact (answers _).mpr (List.mem_map_of_mem (twoDefined ▸ member))
  have same : (addressAnswer 1).record 1 = (addressAnswer 2).record 1 :=
    (defined _ (by simp)).trans (defined _ (by simp)).symm
  exact absurd same (by decide)

end EdgeDNS.Core
