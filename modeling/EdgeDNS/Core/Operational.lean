import EdgeDNS.Cache.MmapRecords
import EdgeDNS.Cache.MmapIpGroup

/-!
# The two queues behind the caches

What a query reads from the database it also queues for the caches, one row at
a time. `queueLifeCycle` takes at most one queued record and one queued entry
in each of its rounds and appends them, whatever has happened to the caches or
to the database in the meantime.

The queue keeps the time to live and the priority as `int`. Both go back to the
unsigned types they came from, so they are kept as these.
-/

set_option autoImplicit false

namespace EdgeDNS.Operational

/-- What a round is to do with a queued row. Only rows to add are ever queued. -/
inductive QueueType
  | add
  | remove
  | update
deriving DecidableEq, Repr

/-- A row that waits for the record cache. -/
structure Record where
  name : List UInt8
  qtype : Int
  ttl : UInt32
  prio : UInt16
  groupId : CassUuid
  id : CassUuid
  isGeo : Bool
  isProxy : Bool
  val : List UInt8
  type : QueueType
deriving DecidableEq, Repr

/-- A row that waits for the address cache. -/
structure Entry where
  groupId : CassUuid
  id : CassUuid
  countryCode : IpGroup.CountryCode
  val : List UInt8
  priority : Int
  type : QueueType
deriving DecidableEq, Repr

/-- The queued form of a row of the record table. -/
def recordOf (name : List UInt8) (qtype : Int) (req : Records.DNSResponseData) : Record where
  name := name
  qtype := qtype
  ttl := req.ttl
  prio := req.priority
  groupId := req.groupId
  id := req.id
  isGeo := req.isGeo
  isProxy := req.isProxy
  val := req.rdata
  type := .add

/-- Queue a row of the record table. -/
def addQueueForRecord (name : List UInt8) (qtype : Int) (queue : List Record)
    (req : Records.DNSResponseData) : List Record :=
  queue ++ [recordOf name qtype req]

/-- The queued form of an entry of a group. -/
def entryOf (groupId : CassUuid) (countryCode : IpGroup.CountryCode)
    (req : IpGroup.IpGroupEntryResponse) : Entry where
  groupId := groupId
  id := req.id
  countryCode := countryCode
  val := req.ip
  priority := req.priority
  type := .add

/-- Queue an entry of a group. -/
def addQueueForEntry (groupId : CassUuid) (countryCode : IpGroup.CountryCode)
    (queue : List Entry) (req : IpGroup.IpGroupEntryResponse) : List Entry :=
  queue ++ [entryOf groupId countryCode req]

theorem addQueueForEntry_all (groupId : CassUuid) (countryCode : IpGroup.CountryCode)
    (queue : List Entry) (entries : List IpGroup.IpGroupEntryResponse) :
    entries.foldl (addQueueForEntry groupId countryCode) queue =
      queue ++ entries.map (entryOf groupId countryCode) := by
  induction entries generalizing queue with
  | nil => exact (List.append_nil queue).symm
  | cons entry entries ih =>
      rw [List.foldl_cons, ih, addQueueForEntry, List.map_cons, List.append_assoc,
        List.singleton_append]

/-! ## One round of the life cycle -/

/-- The stored part of a queued record. -/
def Record.data (record : Record) : Records.RecordData where
  ttl := record.ttl
  priority := record.prio
  groupId := record.groupId
  isGeo := record.isGeo
  isProxy := record.isProxy
  binaryRdata := record.val

/-- Append a record taken from the queue. The result of the append is not
looked at. -/
def applyRecord (recordsMap : Records.Mmap) (record : Record) : Records.Mmap :=
  if record.type = .add then
    (recordsMap.appendRecord record.name record.qtype record.id record.data).2
  else recordsMap

/-- The address of a queued entry. The entries of the database have at most
four bytes; longer ones do not fit the slot. -/
def Entry.address (entry : Entry) : IpGroup.Address :=
  ⟨entry.val.take 16, List.length_take_le ..⟩

/-- Append an entry taken from the queue. The result of the append is not looked at. -/
def applyEntry (ipGroupMap : IpGroup.Mmap) (entry : Entry) : IpGroup.Mmap :=
  if entry.type = .add then
    (ipGroupMap.appendRecord entry.groupId entry.id entry.countryCode entry.address
      entry.priority).2
  else ipGroupMap

/-- One round on the record queue. -/
def recordRound (recordsMap : Records.Mmap) : List Record → Records.Mmap × List Record
  | [] => (recordsMap, [])
  | record :: queue => (applyRecord recordsMap record, queue)

/-- One round on the entry queue. -/
def entryRound (ipGroupMap : IpGroup.Mmap) : List Entry → IpGroup.Mmap × List Entry
  | [] => (ipGroupMap, [])
  | entry :: queue => (applyEntry ipGroupMap entry, queue)

/-- A round takes at most the first record. -/
theorem recordRound_rest (recordsMap : Records.Mmap) (queue : List Record) :
    (recordRound recordsMap queue).2 = queue.drop 1 := by
  cases queue <;> rfl

theorem entryRound_rest (ipGroupMap : IpGroup.Mmap) (queue : List Entry) :
    (entryRound ipGroupMap queue).2 = queue.drop 1 := by
  cases queue <;> rfl

end EdgeDNS.Operational
