import EdgeDNS.Core.Operational
import EdgeDNS.Utils.Vector

/-!
# The query handler

The model of `Core::handle`: parse a query, look its name up in the cache or in
the database, and build the response. Every access to the query buffer and to
the output buffer is checked against the size of the buffer and raises a
`Fault` outside of it, and the loop over the labels raises one when its bound
runs out, so that a result says that none of this happened.

The output buffer is the list of the bytes written so far. Its length is the
`rlen` of the source, at which everything but the header patches is written.

The database, the geographic lookup and the memory behind the local arrays are
parameters: the source reads the first two from outside, and appends bytes from
behind a name when a label runs over its end.
-/

set_option autoImplicit false

namespace EdgeDNS.Core

open Utils Wire

/-! ## The buffers -/

/-- What a checked operation can run into. -/
inductive Fault
  | readOutside
  | writeOutside
  | endless
deriving DecidableEq, Repr

/-- `sizeof(queryBuf)` and `sizeof(out)`. -/
def bufferSize : Nat := 4096

/-- The buffer of a query: the payload, filled up with zeros. -/
def queryBuf (payload : List UInt8) : List UInt8 :=
  let taken := payload.take bufferSize
  taken ++ List.replicate (bufferSize - taken.length) 0

/-- Read a byte of the buffer. Outside of it the read is a fault. -/
def readByte (buffer : List UInt8) (offset : Nat) : Except Fault UInt8 :=
  if offset < buffer.length then .ok (buffer.getD offset 0) else .error .readOutside

/-- Read two bytes in network order. -/
def read16 (buffer : List UInt8) (offset : Nat) : Except Fault UInt16 := do
  let high ← readByte buffer offset
  let low ← readByte buffer (offset + 1)
  return word16 high low

/-- The bytes that `memcpy` takes from a buffer. -/
def copyBytes (buffer : List UInt8) (start count : Nat) : Except Fault (List UInt8) :=
  if start + count ≤ buffer.length then .ok ((buffer.drop start).take count)
  else .error .readOutside

/-- Write at the end of what is written so far. -/
def put (out bytes : List UInt8) : Except Fault (List UInt8) :=
  if out.length + bytes.length ≤ bufferSize then .ok (out ++ bytes) else .error .writeOutside

/-- Write two bytes in network order. -/
def w16 (out : List UInt8) (value : UInt16) : Except Fault (List UInt8) := put out (be16 value)

/-- Write four bytes in network order. -/
def w32 (out : List UInt8) (value : UInt32) : Except Fault (List UInt8) := put out (be32 value)

/-- Write over two bytes that are written already. -/
def patch16 (out : List UInt8) (index : Nat) (value : UInt16) : Except Fault (List UInt8) :=
  if index + 1 < out.length then
    .ok ((out.set index (value >>> 8).toUInt8).set (index + 1) value.toUInt8)
  else .error .writeOutside

/-! ## Parsing -/

/-- The loop over the labels: the offset of the zero byte that ends them. -/
def labelLoop (buffer : List UInt8) : Nat → Nat → Except Fault Nat
  | 0, _ => .error .endless
  | left + 1, offset => do
      let len ← readByte buffer offset
      if len = 0 then return offset else labelLoop buffer left (offset + 1 + len.toNat)

/-- `sizeof(nameWire)` and `sizeof(zoneBuf)`. -/
def nameSize : Nat := 256

/-- What `handle` keeps of a query. The name is in lower case. -/
structure Query where
  transactionId : UInt16
  flags : UInt16
  qdcount : UInt16
  nameWire : List UInt8
  qtype : UInt16
  qclass : UInt16
  questionEnd : Nat
  ednsClass : UInt16
deriving DecidableEq, Repr

/-- Where the message starts in the query buffer. -/
def messageStart (isTcp : Bool) : Nat := if isTcp then 2 else 0

/-- Parse the header and the question at the front of the buffer. -/
def parseQuery (buffer : List UInt8) (isTcp : Bool) : Except Fault Query := do
  let start := messageStart isTcp
  let transactionId ← read16 buffer start
  let flags ← read16 buffer (start + 2)
  let qdcount ← read16 buffer (start + 4)
  let _ancount ← read16 buffer (start + 6)
  let _nscount ← read16 buffer (start + 8)
  let _arcount ← read16 buffer (start + 10)
  let nameStart := start + 12
  let root ← labelLoop buffer bufferSize nameStart
  let nameLen := min (root + 1 - nameStart) nameSize
  let nameWire ← copyBytes buffer nameStart nameLen
  let qtype ← read16 buffer (root + 1)
  let qclass ← read16 buffer (root + 3)
  let questionEnd := root + 5
  let _ednsType ← read16 buffer (questionEnd + 1)
  let ednsClass ← read16 buffer (questionEnd + 3)
  let _ttlHigh ← read16 buffer (questionEnd + 5)
  let _ttlLow ← read16 buffer (questionEnd + 7)
  let _rdlen ← read16 buffer (questionEnd + 9)
  return {
    transactionId := transactionId, flags := flags, qdcount := qdcount
    nameWire := nameWire.map lowerByte, qtype := qtype, qclass := qclass
    questionEnd := questionEnd, ednsClass := ednsClass }

/-! ## What a query meets -/

/-- What the handler asks of the database. -/
structure Database where
  getRecord : (zone name : List UInt8) → (type : Int) → List Records.DNSResponseData
  getIpGroupEntriesCountryBased :
    CassUuid → IpGroup.CountryCode → List IpGroup.IpGroupEntryResponse

/-- The two caches in shared memory. -/
structure Caches where
  recordsMap : Records.Mmap
  ipGroupMap : IpGroup.Mmap

/-- The constants of `Core` and what it reads from the rest of the program. -/
structure Server where
  rateLimiting : Bool := false
  threshold : UInt32 := 200
  proxyId : CassUuid
  getCountry : List UInt8 → IpGroup.CountryCode

/-- A query as a worker hands it to `handle`, with the second of the clock and
the memory behind the two local names. -/
structure Request where
  payload : List UInt8
  isTcp : Bool
  ip : UInt32
  ipStr : List UInt8
  now : UInt32
  behindName : List UInt8
  behindZone : List UInt8
deriving DecidableEq, Repr

/-- The clients, zones and results that the rate limit keeps apart. -/
structure RRLKey where
  keyPrefix : UInt64
  zoneId : UInt32
  rcode : UInt8
deriving DecidableEq, Repr

/-- A second, and the responses counted in it. -/
structure RRLBucket where
  windowStart : UInt32
  responses : UInt32
deriving DecidableEq, Repr

/-! ## Lookup -/

/-- The zone of the query, when something needs it. -/
def getHostWire (server : Server) (query : Query) (cacheHit : Bool) : List UInt8 :=
  if !cacheHit || server.rateLimiting then
    getHostWireFromWireNoAlloc query.nameWire nameSize
  else []

/-- The records that the cache has for a query. There is a hit when there are
any. -/
def cachedRecords (caches : Caches) (query : Query) : List Records.DNSResponseData :=
  caches.recordsMap.getRecord query.nameWire query.qtype.toNat

/-- The rows that the database has for a query. -/
def databaseRecords (database : Database) (request : Request) (query : Query) :
    List Records.DNSResponseData :=
  let zoneWire := getHostWireFromWireNoAlloc query.nameWire nameSize
  database.getRecord
    (wireToDomain (zoneWire ++ request.behindZone) zoneWire.length)
    (wireToDomain (query.nameWire ++ request.behindName) query.nameWire.length)
    query.qtype.toNat

/-- The records that a query is answered from: those of the cache if it has any, those of
the database otherwise. -/
def matchedRecords (database : Database) (caches : Caches) (request : Request) (query : Query) :
    List Records.DNSResponseData :=
  if cachedRecords caches query ≠ [] then cachedRecords caches query
  else databaseRecords database request query

/-- The country code under which nothing better is known. -/
def defaultCode : IpGroup.CountryCode := ⟨[68, 69, 70, 65, 85, 76, 84], by decide, by decide⟩

/-- The country of the client, or the default when it has none. -/
def countryCode (server : Server) (request : Request) : IpGroup.CountryCode :=
  let country := server.getCountry request.ipStr
  if country.chars = [] then defaultCode else country

/-- The entries of a group for the country of a client, and the queue with what
was read from the database. The entries of the default code are not looked up
in the cache. -/
def groupEntries (server : Server) (database : Database) (caches : Caches) (request : Request)
    (groupId : CassUuid) (queue : List Operational.Entry) :
    List IpGroup.IpGroupEntryResponse × List Operational.Entry :=
  let code := countryCode server request
  let cached := caches.ipGroupMap.getRecord groupId code
  if cached ≠ [] then (cached, queue)
  else
    let entries := database.getIpGroupEntriesCountryBased groupId code
    let queue := entries.foldl (Operational.addQueueForEntry groupId code) queue
    if entries ≠ [] then (entries, queue)
    else
      let entries := database.getIpGroupEntriesCountryBased groupId defaultCode
      (entries, entries.foldl (Operational.addQueueForEntry groupId defaultCode) queue)

/-! ## Answers -/

/-- What changes while the answers are built. -/
structure Answering where
  out : List UInt8
  truncated : Bool
  anc : UInt16
  recordQueue : List Operational.Record
  entryQueue : List Operational.Entry
  rrlBuckets : RRLKey → RRLBucket

/-- Whether a resource record of the given data is estimated not to fit. -/
def exceeds (isTcp : Bool) (ednsClass : UInt16) (rlen rdataSize : Nat) : Bool :=
  let udpLimit := if ednsClass ≠ 0 then ednsClass.toNat else 512
  let rrSize := 2 + 2 + 2 + 4 + 2 + rdataSize
  (!isTcp && udpLimit < rlen + rrSize) || bufferSize < rlen + rrSize + 32

/-- Write one resource record. Only an MX record carries its priority. -/
def writeRecord (qtype : UInt16) (ttl : UInt32) (priority : UInt16) (rdata out : List UInt8) :
    Except Fault (List UInt8) := do
  let out ← w16 out 0xC00C
  let out ← w16 out qtype
  let out ← w16 out 1
  let out ← w32 out ttl
  if qtype = 15 then
    let out ← w16 out (UInt16.ofNat (2 + rdata.length))
    let out ← w16 out priority
    put out rdata
  else
    let out ← w16 out (UInt16.ofNat rdata.length)
    put out rdata

/-- The body of the three emission loops. Once a record does not fit, no later
one is written. -/
def answer (isTcp : Bool) (query : Query) (ttl : UInt32) (priority : UInt16) (state : Answering)
    (rdata : List UInt8) : Except Fault Answering := do
  let truncated :=
    state.truncated || exceeds isTcp query.ednsClass state.out.length rdata.length
  if truncated then return { state with truncated := true }
  else
    let out ← writeRecord query.qtype ttl priority rdata state.out
    return { state with out := out, anc := state.anc + 1 }

/-- The first four bytes of the zone as the memory holds them. -/
def zoneId (request : Request) (zoneBuf : List UInt8) : UInt32 :=
  let memory := zoneBuf ++ request.behindZone
  word32 (memory.getD 3 0) (memory.getD 2 0) (memory.getD 1 0) (memory.getD 0 0)

/-- Count a response to a network for a zone, and truncate it when there were
too many in this second. -/
def rateLimit (server : Server) (request : Request) (zoneBuf : List UInt8) (state : Answering) :
    Answering :=
  let key : RRLKey := ⟨request.ip.toUInt64, zoneId request zoneBuf, 0⟩
  let bucket := state.rrlBuckets key
  let bucket : RRLBucket :=
    if bucket.windowStart ≠ request.now then ⟨request.now, 1⟩
    else { bucket with responses := bucket.responses + 1 }
  { state with
    rrlBuckets := Function.update state.rrlBuckets key bucket
    truncated := state.truncated || decide (server.threshold < bucket.responses) }

section Answers

variable (server : Server) (database : Database) (caches : Caches) (request : Request)
  (query : Query)

/-- Answer with the addresses of a group. -/
def addressAnswers (groupId : CassUuid) (record : Records.DNSResponseData) (state : Answering) :
    Except Fault Answering :=
  let found := groupEntries server database caches request groupId state.entryQueue
  (found.1.map IpGroup.IpGroupEntryResponse.ip).foldlM
    (answer request.isTcp query 3600 record.priority) { state with entryQueue := found.2 }

/-- Answer a proxied record with the addresses of the proxy. -/
def proxyAnswers (record : Records.DNSResponseData) (state : Answering) :
    Except Fault Answering :=
  addressAnswers server database caches request query server.proxyId record state

/-- Answer a geo record with the addresses of its group. -/
def geoAnswers (record : Records.DNSResponseData) (state : Answering) : Except Fault Answering :=
  addressAnswers server database caches request query record.groupId record state

/-- Answer a record as it stands. -/
def plainAnswer (record : Records.DNSResponseData) (state : Answering) :
    Except Fault Answering :=
  answer request.isTcp query record.ttl record.priority state record.rdata

/-- The address from which a proxied record is answered as it stands. -/
def localAddress : List UInt8 := [49, 50, 55, 46, 48, 46, 48, 46, 49]

/-- Whether a record is answered with the addresses of the proxy. -/
def isProxied (record : Records.DNSResponseData) : Bool :=
  record.isProxy && !localAddress.isPrefixOf request.ipStr

/-- Queue a record that comes from the database. -/
def queueRecord (cacheHit : Bool) (record : Records.DNSResponseData) (state : Answering) :
    Answering :=
  if cacheHit then state
  else
    { state with
      recordQueue := Operational.addQueueForRecord query.nameWire query.qtype.toNat
        state.recordQueue record }

/-- Count the response when rate limiting is on. -/
def limitResponse (zoneBuf : List UInt8) (state : Answering) : Answering :=
  if server.rateLimiting && !request.isTcp then rateLimit server request zoneBuf state else state

/-- One round of the loop over the matched records. -/
def answerRecord (cacheHit : Bool) (zoneBuf : List UInt8) (state : Answering)
    (record : Records.DNSResponseData) : Except Fault Answering :=
  let state := limitResponse server request zoneBuf (queueRecord query cacheHit record state)
  if isProxied request record then
    proxyAnswers server database caches request query record state
  else if record.isGeo then geoAnswers server database caches request query record state
  else plainAnswer request query record state

/-- The loop over the matched records. -/
def answerRecords (state : Answering) : Except Fault Answering :=
  let cacheHit : Bool := cachedRecords caches query ≠ []
  let zoneBuf := getHostWire server query cacheHit
  if query.qclass = 1 ∧ query.qdcount = 1 then
    (matchedRecords database caches request query).foldlM
      (answerRecord server database caches request query cacheHit zoneBuf) state
  else return state

end Answers

/-! ## The response -/

/-- The flags of a response before it is known whether it is truncated. -/
def responseFlags (query : Query) : UInt16 :=
  let flags := 0x8000 ||| (query.flags &&& 0x0100) ||| 0x0400
  let flags := if query.qclass ≠ 1 then flags ||| 0x0004 else flags
  if query.qdcount ≠ 1 then flags ||| 0x0001 else flags

/-- The header and the question. -/
def openResponse (buffer : List UInt8) (isTcp : Bool) (query : Query) :
    Except Fault (List UInt8) := do
  let out ← w16 [] query.transactionId
  let out ← w16 out (responseFlags query)
  let out ← w16 out 1
  let out ← w16 out 0
  let out ← w16 out 0
  let out ← w16 out 0
  let qstart := 12 + messageStart isTcp
  let question ← copyBytes buffer qstart (query.questionEnd - qstart)
  put out question

/-- What `handle` returns and leaves behind. `clamped` says whether the length
was cut back to make room for the OPT record. -/
structure Handled where
  out : List UInt8
  truncated : Bool
  clamped : Bool
  recordQueue : List Operational.Record
  entryQueue : List Operational.Entry
  rrlBuckets : RRLKey → RRLBucket

/-- Append the OPT record: the root, its type, a payload size of 4096, no time to
live and no data. -/
def writeOpt (out : List UInt8) : Except Fault (List UInt8) := do
  let out ← put out [0]
  let out ← w16 out 41
  let out ← w16 out 4096
  let out ← w32 out 0
  w16 out 0

/-- Patch the counts and the flags into the header, cut the length back when
the OPT record would not fit, and append it. -/
def closeMessage (flags : UInt16) (state : Answering) : Except Fault (List UInt8 × Bool) := do
  let flags := if state.truncated then flags ||| 0x0200 else flags
  let out ← patch16 state.out 6 state.anc
  let out ← patch16 out 2 flags
  let out ← patch16 out 10 1
  let clamped : Bool := bufferSize < out.length + 11
  let out := if clamped then out.take (bufferSize - 11) else out
  let out ← writeOpt out
  return (out, clamped)

/-- Over TCP, move a message by two bytes and put its length in front of it. -/
def frameMessage (isTcp : Bool) (out : List UInt8) : Except Fault (List UInt8) :=
  if isTcp then
    if out.length + 2 ≤ bufferSize then .ok (be16 (UInt16.ofNat out.length) ++ out)
    else .error .writeOutside
  else .ok out

/-- `Core::handle`. The queues and the buckets are those before the call. -/
def handle (server : Server) (database : Database) (caches : Caches)
    (recordQueue : List Operational.Record) (entryQueue : List Operational.Entry)
    (rrlBuckets : RRLKey → RRLBucket) (request : Request) : Except Fault Handled := do
  let buffer := queryBuf request.payload
  let query ← parseQuery buffer request.isTcp
  let opened ← openResponse buffer request.isTcp query
  let state ← answerRecords server database caches request query
    { out := opened, truncated := false, anc := 0, recordQueue := recordQueue
      entryQueue := entryQueue, rrlBuckets := rrlBuckets }
  let (out, clamped) ← closeMessage (responseFlags query) state
  let out ← frameMessage request.isTcp out
  return {
    out := out, truncated := state.truncated, clamped := clamped
    recordQueue := state.recordQueue, entryQueue := state.entryQueue
    rrlBuckets := state.rrlBuckets }

end EdgeDNS.Core
