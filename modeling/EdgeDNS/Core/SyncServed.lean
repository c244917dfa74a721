import EdgeDNS.Core.HandleResponse
import EdgeDNS.Core.SyncWorker

/-!
# What becomes of a sync add

A well-formed add for a host name is always answered with success
(`WellFormedAdd.serves`), whatever the append to the cache returned. Its name
goes through an array of 32 bytes, the append is refused when the entry of the
id table is taken or the probe ends at no bucket, and no lookup finds a name
that hashes to zero.

Apart from these the record is served: every query for the name, in any case of
its letters, is answered with the added record first (`add_served_iff`).
-/

set_option autoImplicit false

namespace EdgeDNS.Core

open Utils Wire RData

/-! ## Host names -/

/-- A letter, a digit or a hyphen. -/
def isHostByte (byte : UInt8) : Bool :=
  isDigit byte || (65 ≤ byte && byte ≤ 90) || (97 ≤ byte && byte ≤ 122) || byte == 45

/-- The labels of a host name. -/
structure HostName (labels : List (List UInt8)) : Prop where
  nonempty : ∀ label ∈ labels, 1 ≤ label.length
  short : ∀ label ∈ labels, label.length ≤ 63
  host : ∀ label ∈ labels, ∀ byte ∈ label, isHostByte byte = true
  total : (dotted labels).length ≤ 253

theorem HostName.noDot {labels : List (List UInt8)} (host : HostName labels) :
    ∀ label ∈ labels, 46 ∉ label := by
  intro label member isDot
  have dotIsHost := host.host label member 46 isDot
  exact absurd dotIsHost (by decide)

theorem encodeLabels_length_le (labels : List (List UInt8)) :
    (Dns.encodeLabels labels).length ≤ (dotted labels).length + 2 := by
  cases labels with
  | nil => decide
  | cons label labels => exact Nat.le_of_eq (dotted_length label labels)

/-- A host name in another case consists of valid labels. -/
theorem HostName.valid {labels other : List (List UInt8)} (host : HostName labels)
    (same : lowerLabels other = lowerLabels labels) : Dns.ValidLabels other := by
  have atMost := encodeLabels_length_le labels
  have total := host.total
  have valid : Dns.ValidLabels labels := ⟨host.nonempty, host.short, by omega⟩
  exact valid.of_lengths (lowerLabels_length same)

/-- The wire name of a host name, in lower case. -/
def hostWire (labels : List (List UInt8)) : List UInt8 := Dns.encodeLabels (lowerLabels labels)

/-- The wire name under which an add for a host name is stored: its array holds
31 characters. -/
def storedName (labels : List (List UInt8)) : List UInt8 :=
  stringToWire ((dotted labels).take 31) true

/-- A name is stored as it stands when it has at most 31 characters. -/
theorem HostName.storedName_eq_iff {labels : List (List UInt8)} (host : HostName labels) :
    storedName labels = hostWire labels ↔ (dotted labels).length ≤ 31 := by
  constructor
  · intro same
    by_contra long
    have atMost := stringToWire_length_le ((dotted labels).take 31)
    have length : (hostWire labels).length = (dotted labels).length + 2 := by
      rw [hostWire, ← encodeLabels_lower host.short, List.length_map]
      cases labels with
      | nil => exact absurd (by decide) long
      | cons label labels => exact dotted_length label labels
    rw [storedName] at same
    rw [same, length, List.length_take] at atMost
    omega
  · intro fits
    rw [storedName, List.take_of_length_le fits]
    exact stringToWire_dotted host.nonempty host.noDot

/-! ## Well-formed adds -/

/-- The value of a parameter in the text of a request. -/
def SyncRequest.text (request : SyncRequest) (key : String) : Option (List UInt8) :=
  paramValue request.buffer (bytesOf key)

/-- A well-formed request to add a plain record: each parameter is there, and
the numbers, the id and the value are what they should be. -/
structure WellFormedAdd (cassUuidFromString : List UInt8 → Option CassUuid)
    (request : SyncRequest) (labels : List (List UInt8)) (type : UInt16) (id : CassUuid)
    (item : Answer) : Prop where
  operation : request.operation = .recordOperation 49
  zone : request.text "zone" ≠ none
  recType : ∃ text, request.text "rec_type" = some text ∧ Numeral text type.toNat
  ttl : ∃ text, request.text "ttl" = some text ∧ Numeral text item.ttl.toNat
  priority : ∃ text, request.text "priority" = some text ∧ Numeral text item.priority.toNat
  name : request.text "name" = some (dotted labels)
  id : ∃ text, request.text "db_id" = some text ∧ text.length ≤ 39 ∧
    cassUuidFromString text = some id
  groupId : request.text "group_id" ≠ none
  isGeo : request.text "is_geo" = some [48]
  isProxy : request.text "is_proxy" = some [48]
  value : ∃ text, request.text "value" = some text ∧ generateRData text type.toNat = .ok item.rdata

theorem SyncRequest.param_of_text {request : SyncRequest} {key : String} {text : List UInt8}
    (given : request.text key = some text) (maxLen : Nat) :
    request.param key maxLen = some (text.take (maxLen - 1)) := by
  have value : paramValue request.buffer (bytesOf key) = some text := given
  rw [param, getParamFromCharBuffer, value, Option.map_some]

/-- A parameter that fits its array. -/
theorem SyncRequest.param_of_short {request : SyncRequest} {key : String} {text : List UInt8}
    (given : request.text key = some text) {maxLen : Nat} (short : text.length ≤ maxLen - 1) :
    request.param key maxLen = some text := by
  rw [param_of_text given, List.take_of_length_le short]

/-- The record that an add stores. -/
def addedData (groupId : CassUuid) (item : Answer) : Records.RecordData where
  ttl := item.ttl
  priority := item.priority
  groupId := groupId
  isGeo := false
  isProxy := false
  binaryRdata := item.rdata

section Adds

variable {cassUuidFromString : List UInt8 → Option CassUuid} {request : SyncRequest}
  {labels : List (List UInt8)} {type : UInt16} {id : CassUuid} {item : Answer}

/-- **A well-formed add is answered with success**, whatever the append
returns. -/
theorem WellFormedAdd.serves (wellFormed : WellFormedAdd cassUuidFromString request labels type
    id item) (recordsMap : Records.Mmap) :
    ∃ groupId, serveRecords cassUuidFromString request recordsMap = .ok (some success,
      (recordsMap.appendRecord (storedName labels) type.toNat id
        (addedData groupId item)).2) := by
  obtain ⟨zone, hasZone⟩ := Option.ne_none_iff_exists'.mp wellFormed.zone
  obtain ⟨group, hasGroup⟩ := Option.ne_none_iff_exists'.mp wellFormed.groupId
  obtain ⟨typeText, hasType, isType⟩ := wellFormed.recType
  obtain ⟨ttlText, hasTtl, isTtl⟩ := wellFormed.ttl
  obtain ⟨prioText, hasPrio, isPrio⟩ := wellFormed.priority
  obtain ⟨idText, hasId, idShort, isId⟩ := wellFormed.id
  obtain ⟨value, hasValue, generated⟩ := wellFormed.value
  have numeralShort : ∀ {text : List UInt8} {number : Nat}, Numeral text number →
      text.length ≤ 32 - 1 := fun numeral => Nat.le_trans numeral.short (by decide)
  have complete : request.recordParams = some
      ⟨zone.take 31, typeText, ttlText, prioText, (dotted labels).take 31, idText,
        group.take 39, [48], [48]⟩ := by
    refine SyncRequest.recordParams_eq_some_iff.mpr ⟨?_, ?_, ?_, ?_, ?_, ?_, ?_, ?_, ?_⟩
    · exact SyncRequest.param_of_text hasZone 32
    · exact SyncRequest.param_of_short hasType (numeralShort isType)
    · exact SyncRequest.param_of_short hasTtl (numeralShort isTtl)
    · exact SyncRequest.param_of_short hasPrio (numeralShort isPrio)
    · exact SyncRequest.param_of_text wellFormed.name 32
    · exact SyncRequest.param_of_short hasId idShort
    · exact SyncRequest.param_of_text hasGroup 40
    · exact SyncRequest.param_of_text wellFormed.isGeo 2
    · exact SyncRequest.param_of_text wellFormed.isProxy 2
  have wholeValue : request.param "value" 4096 = some value := by
    refine SyncRequest.param_of_short hasValue ?_
    have inBuffer : value.length < (queryBuf request.payload).length :=
      paramValue_length_lt hasValue
    rw [queryBuf_length, bufferSize] at inBuffer
    omega
  refine ⟨namedGroup cassUuidFromString request (group.take 39),
    (serveRecords_recordOperation wellFormed.operation).mpr ?_⟩
  have named : namedId cassUuidFromString request idText = id := by
    rw [namedId, isId, Option.getD_some]
  simp only [recordOperation, complete, if_true, named, addRecord, isType.atoi_small, wholeValue,
    generated, RecordParams.data, isTtl.toUInt32, isPrio.toUInt16]
  rfl

end Adds

/-! ## Queries for a host name -/

/-- A query for the labels, with the given type and the class IN, whose response
has room for an answer of the given size. -/
structure Asks (request : Request) (labels : List (List UInt8)) (type : UInt16) (size : Nat) :
    Prop where
  name : Dns.encodeLabels labels <+:
    (queryBuf request.payload).drop (messageStart request.isTcp + 12)
  qdcount : wordAt (queryBuf request.payload) (messageStart request.isTcp + 4) = 1
  qtype : wordAt (queryBuf request.payload)
    (messageStart request.isTcp + 12 + (Dns.encodeLabels labels).length) = type
  qclass : wordAt (queryBuf request.payload)
    (messageStart request.isTcp + 12 + (Dns.encodeLabels labels).length + 2) = 1
  limit : exceeds request.isTcp
    (wordAt (queryBuf request.payload)
      (messageStart request.isTcp + 12 + (Dns.encodeLabels labels).length + 7))
    (12 + ((Dns.encodeLabels labels).length + 4)) size = false

/-- A query is answered from the record of an id: it is among the matched
records, and the response carries its answer. -/
structure AnsweredFrom (server : Server) (database : Database) (caches : Caches)
    (recordQueue : List Operational.Record) (entryQueue : List Operational.Entry)
    (rrlBuckets : RRLKey → RRLBucket) (request : Request) (type : UInt16) (id : CassUuid)
    (item : Answer) (handled : Handled) (query : Query) (message : Dns.Message)
    (record : Records.DNSResponseData) : Prop where
  runs : handle server database caches recordQueue entryQueue rrlBuckets request = .ok handled
  parses : parseQuery (queryBuf request.payload) request.isTcp = .ok query
  matched : record ∈ matchedRecords database caches request query
  isId : record.id = id
  stands : recordAnswers server database caches request record = [item]
  decodes : Dns.decodeMessage (unframed request.isTcp handled.out) = some message
  answered : item.record type ∈ message.answers

/-- Every query for a host name and a type, in any case of the letters and
whatever else the server knows, is answered from the record of an id. -/
def ServedFrom (recordsMap : Records.Mmap) (labels : List (List UInt8)) (type : UInt16)
    (id : CassUuid) (item : Answer) : Prop :=
  ∀ (server : Server) (database : Database) (ipGroupMap : IpGroup.Mmap)
    (recordQueue : List Operational.Record) (entryQueue : List Operational.Entry)
    (rrlBuckets : RRLKey → RRLBucket) (request : Request) (asked : List (List UInt8)),
    server.rateLimiting = false → lowerLabels asked = lowerLabels labels →
    Asks request asked type item.rdata.length →
    ∃ handled query message record,
      AnsweredFrom server database ⟨recordsMap, ipGroupMap⟩ recordQueue entryQueue rrlBuckets
        request type id item handled query message record

section Served

variable {recordsMap : Records.Mmap} {labels asked : List (List UInt8)} {type : UInt16}
  {id groupId : CassUuid} {item : Answer} {request : Request}

/-- What a query for a host name is parsed to. -/
theorem HostName.nameWire (host : HostName labels) (same : lowerLabels asked = lowerLabels labels)
    {query : Query} (parsed : ParsesLabels request asked query) :
    query.nameWire = hostWire labels := by
  rw [parsed.name, encodeLabels_lower (host.valid same).short, same, hostWire]

/-- When the first record of the cache is the added one, the name is served from
it. -/
theorem servedFrom_of_first (host : HostName labels) {bucketIdx : Nat}
    {others : List Records.DNSResponseData}
    (first : recordsMap.getRecord (hostWire labels) type.toNat =
      (addedData groupId item).response id bucketIdx :: others) :
    ServedFrom recordsMap labels type id item := by
  intro server database ipGroupMap recordQueue entryQueue rrlBuckets request asked unlimited same
    asks
  have valid := host.valid same
  obtain ⟨handled, query, written, runs, parsed, responds⟩ := handle_of_labels server database
    ⟨recordsMap, ipGroupMap⟩ recordQueue entryQueue rrlBuckets valid asks.name
  have qtype : query.qtype = type := parsed.qtype.trans asks.qtype
  have cached : cachedRecords ⟨recordsMap, ipGroupMap⟩ query =
      (addedData groupId item).response id bucketIdx :: others := by
    rw [cachedRecords, host.nameWire same parsed, qtype]
    exact first
  have matched : matchedRecords database ⟨recordsMap, ipGroupMap⟩ request query =
      (addedData groupId item).response id bucketIdx :: others := by
    rw [matchedRecords, cached, if_pos (List.cons_ne_nil _ _)]
  have alone : answeringGroup server request ((addedData groupId item).response id bucketIdx) =
      none := rfl
  have length : (questionBytes request query).length = (Dns.encodeLabels asked).length + 4 := by
    rw [parsed.question]
    simp only [List.length_append, be16_length]
  have limit : exceeds request.isTcp query.ednsClass (12 + (questionBytes request query).length)
      ((addedData groupId item).response id bucketIdx).rdata.length = false := by
    rw [parsed.ednsClass, length]
    exact asks.limit
  have accepted : query.qclass = 1 ∧ query.qdcount = 1 :=
    ⟨parsed.qclass.trans asks.qclass, parsed.qdcount.trans asks.qdcount⟩
  obtain ⟨more, isWritten⟩ := responds.leads accepted _ _ matched unlimited alone limit
  refine ⟨handled, query, saidMessage query asked handled.truncated written,
    (addedData groupId item).response id bucketIdx, runs, parsed.parses, ?_, rfl, ?_,
    responds.decodes valid parsed, ?_⟩
  · rw [matched]
    exact List.mem_cons_self ..
  · rw [recordAnswers, alone]
    rfl
  · have carried : (saidMessage query asked handled.truncated written).answers =
        written.map (Answer.record type) := by
      rw [saidMessage, qtype]
    rw [carried, isWritten]
    exact List.mem_cons_self ..

theorem wordAt_behind (front rest : List UInt8) (offset : Nat) :
    wordAt (front ++ rest) (front.length + offset) = wordAt rest offset := by
  rw [wordAt, wordAt, Nat.add_assoc, List.getD_append_right _ _ _ _ (Nat.le_add_right ..),
    List.getD_append_right _ _ _ _ (Nat.le_add_right ..), Nat.add_sub_cancel_left,
    Nat.add_sub_cancel_left]

/-- Without a database every matched record is from the cache. -/
theorem mem_cached_of_matched {caches : Caches} {query : Query}
    {record : Records.DNSResponseData}
    (matched : record ∈ matchedRecords emptyDatabase caches request query) :
    record ∈ cachedRecords caches query := by
  rw [matchedRecords] at matched
  split at matched
  · exact matched
  · exact absurd matched List.not_mem_nil

/-- The header of a query over TCP for one question, with a length before it. -/
def streamHeader : List UInt8 := [0, 0, 0, 0, 0, 0, 0, 1, 0, 0, 0, 0, 0, 0]

/-- A query over TCP for the given labels and type. -/
def streamFor (labels : List (List UInt8)) (type : UInt16) : Request :=
  { datagram (streamHeader ++ (Dns.encodeLabels labels ++ (be16 type ++ be16 1))) with
    isTcp := true }

theorem streamFor_buffer (host : HostName labels) :
    ∃ zeros, queryBuf (streamFor labels type).payload =
      streamHeader ++ (Dns.encodeLabels labels ++ (be16 type ++ (be16 1 ++ zeros))) := by
  have atMost := encodeLabels_length_le labels
  have total := host.total
  have fits : (streamFor labels type).payload.length ≤ bufferSize := by
    simp only [streamFor, datagram, List.length_append, be16_length, bufferSize, streamHeader,
      List.length_cons, List.length_nil]
    omega
  refine ⟨List.replicate (bufferSize - (streamFor labels type).payload.length) 0, ?_⟩
  rw [queryBuf, List.take_of_length_le fits]
  simp only [streamFor, datagram, List.append_assoc]

/-- Over TCP there is room for any answer that a slot holds. -/
theorem streamFor_asks (host : HostName labels) {size : Nat} (fits : size ≤ Records.payloadSize) :
    Asks (streamFor labels type) labels type size := by
  obtain ⟨zeros, buffer⟩ := @streamFor_buffer labels type host
  have nameStart : messageStart (streamFor labels type).isTcp + 12 = streamHeader.length := rfl
  have behind : ∀ offset, wordAt (queryBuf (streamFor labels type).payload)
      (streamHeader.length + (Dns.encodeLabels labels).length + offset) =
        wordAt (be16 type ++ (be16 1 ++ zeros)) offset := by
    intro offset
    rw [buffer, Nat.add_assoc, wordAt_behind, wordAt_behind]
  constructor
  · rw [buffer, nameStart, List.drop_left]
    exact List.prefix_append ..
  · rw [buffer]
    exact word16_be16 1
  · rw [nameStart]
    exact (behind 0).trans (wordAt_front type _)
  · rw [nameStart, behind 2]
    exact (wordAt_behind (be16 type) _ 0).trans (wordAt_front 1 zeros)
  · have atMost := encodeLabels_length_le labels
    have total := host.total
    have inBuffer : decide (bufferSize <
        12 + ((Dns.encodeLabels labels).length + 4) + (2 + 2 + 2 + 4 + 2 + size) + 32) =
          false := by
      rw [decide_eq_false_iff_not]
      simp only [bufferSize, Records.payloadSize] at fits ⊢
      omega
    exact inBuffer

end Served

/-! ## When an add is served -/

/-- The name of an add fits its array and does not hash to zero, the entry of
the id table is free, and the probe ends at a bucket. -/
structure AddReaches (recordsMap : Records.Mmap) (labels : List (List UInt8)) (type : UInt16)
    (id : CassUuid) : Prop where
  short : (dotted labels).length ≤ 31
  hashed : Records.calculateHash (hostWire labels) ≠ 0
  idFree : recordsMap.idHashTable (Records.idSlot id) = -1
  bucket : recordsMap.findBucket (Records.calculateHash (hostWire labels)) type.toNat ≠ none

section Appends

variable {recordsMap : Records.Mmap} {chain : Nat → List Nat} {spare : List Nat}
  {labels : List (List UInt8)} {type : UInt16} {id groupId : CassUuid} {item : Answer}

/-- An add that reaches the lookups of its name comes first in them. -/
theorem AddReaches.first (sound : Records.Sound recordsMap chain spare) (host : HostName labels)
    (reaches : AddReaches recordsMap labels type id)
    (fits : item.rdata.length ≤ Records.payloadSize) (room : recordsMap.freeListHeadIdx ≠ -1) :
    ∃ bucketIdx others,
      (recordsMap.appendRecord (storedName labels) type.toNat id
        (addedData groupId item)).2.getRecord (hostWire labels) type.toNat =
          (addedData groupId item).response id bucketIdx :: others := by
  rw [host.storedName_eq_iff.mpr reaches.short]
  obtain ⟨bucketIdx, ends⟩ := Option.ne_none_iff_exists'.mp reaches.bucket
  cases spare with
  | nil => exact absurd sound.represents.spareLinked room
  | cons slotIdx rest =>
      have fitsSlot : (addedData groupId item).Fits := .inr fits
      obtain ⟨-, effect⟩ := sound.appendRecord_accepted fitsSlot ends reaches.idFree
      exact ⟨bucketIdx, _, sound.getRecord_appended reaches.hashed ends reaches.idFree effect⟩

/-- Only an add that reaches them is found by the lookups of its name. -/
theorem AddReaches.of_found (sound : Records.Sound recordsMap chain spare) (host : HostName labels)
    (new : recordsMap.slotOfId id = none)
    (noCollision : Records.calculateHash (storedName labels) =
      Records.calculateHash (hostWire labels) → storedName labels = hostWire labels)
    {record : Records.DNSResponseData}
    (found : record ∈ (recordsMap.appendRecord (storedName labels) type.toNat id
      (addedData groupId item)).2.getRecord (hostWire labels) type.toNat)
    (isId : record.id = id) : AddReaches recordsMap labels type id := by
  rcases sound.appendRecord_cases (storedName labels) type.toNat id (addedData groupId item) with
    refused | ⟨bucketIdx, slotIdx, rest, rfl, -, ends, free, -, effect⟩
  · rw [refused] at found
    exact absurd (isId ▸ new) (sound.slotOfId_of_mem_getRecord found)
  · have sameKey : (Records.calculateHash (hostWire labels), (type.toNat : Int)) =
        (Records.calculateHash (storedName labels), (type.toNat : Int)) := by
      by_contra different
      exact sound.appended_elsewhere new free effect different record found isId
    have sameHash := (Prod.mk.inj sameKey).1
    have sameName := noCollision sameHash.symm
    refine ⟨host.storedName_eq_iff.mp sameName, fun zero => ?_, free, ?_⟩
    · rw [(sound.appended free effect).getRecord_of_zero zero] at found
      exact absurd found List.not_mem_nil
    · rw [← sameName, ends]
      exact Option.some_ne_none _

end Appends

/-- **An added record is served exactly when its name and its id find their
places.** -/
theorem add_served_iff (calls : List Records.Call)
    (cassUuidFromString : List UInt8 → Option CassUuid) (request : SyncRequest)
    (labels : List (List UInt8)) (type : UInt16) (id : CassUuid) (item : Answer)
    (host : HostName labels)
    (wellFormed : WellFormedAdd cassUuidFromString request labels type id item)
    (fits : item.rdata.length ≤ Records.payloadSize)
    (room : (Run.exec Records.Mmap.step .fresh calls).freeListHeadIdx ≠ -1)
    (new : (Run.exec Records.Mmap.step .fresh calls).slotOfId id = none)
    (noCollision : Records.calculateHash (storedName labels) =
      Records.calculateHash (hostWire labels) → storedName labels = hostWire labels) :
    (∀ after,
      serveRecords cassUuidFromString request (Run.exec Records.Mmap.step .fresh calls) =
        .ok (some success, after) →
      ServedFrom after labels type id item) ↔
      AddReaches (Run.exec Records.Mmap.step .fresh calls) labels type id := by
  obtain ⟨chain, spare, sound⟩ := Records.Intact.run calls
  generalize Run.exec Records.Mmap.step .fresh calls = before at room new sound ⊢
  obtain ⟨groupId, serves⟩ := wellFormed.serves before
  constructor
  · intro served
    have asks := @streamFor_asks labels type host item.rdata.length fits
    obtain ⟨handled, query, message, record, answered⟩ :=
      served _ serves plainServer emptyDatabase .fresh [] [] (fun _ => ⟨0, 0⟩)
        (streamFor labels type) labels rfl rfl asks
    obtain ⟨query', parsed⟩ := @parses_of_labels (streamFor labels type) labels (host.valid rfl)
      asks.name
    obtain rfl : query = query' := Except.ok.inj (answered.parses.symm.trans parsed.parses)
    have cached := mem_cached_of_matched answered.matched
    rw [cachedRecords, host.nameWire rfl parsed, parsed.qtype.trans asks.qtype] at cached
    exact .of_found sound host new noCollision cached answered.isId
  · intro reaches after answered
    obtain ⟨-, rfl⟩ := Prod.mk.inj (Except.ok.inj (serves.symm.trans answered))
    obtain ⟨bucketIdx, others, first⟩ := reaches.first sound host fits room
    exact servedFrom_of_first host first

/-! ### A host name that is too long for its array -/

/-- A request to add the text `y` under the id 1 and a name. -/
def textAdd (name : List UInt8) : SyncRequest where
  payload :=
    bytesOf "type=0-1&zone=b&rec_type=16&ttl=60&priority=0&name=" ++ name ++
      bytesOf "&db_id=" ++ textOfOne ++ bytesOf "&group_id=" ++ textOfOne ++
      bytesOf "&is_geo=0&is_proxy=0&value=y"
  staleGroupId := ⟨0, 0⟩
  staleId := ⟨0, 0⟩

/-- The answer for the text `y`. -/
def textAnswer : Answer := ⟨60, 0, [1, 121]⟩

/-- The name `www.a`. -/
def shortName : List (List UInt8) := [bytesOf "www", bytesOf "a"]

/-- A name of 32 characters. -/
def longName : List (List UInt8) := [List.replicate 30 97, bytesOf "b"]

theorem textAdd_wellFormed {labels : List (List UInt8)}
    (operation : (textAdd (dotted labels)).operation = .recordOperation 49)
    (texts : ["zone", "rec_type", "ttl", "priority", "name", "db_id", "group_id", "is_geo",
      "is_proxy", "value"].map (textAdd (dotted labels)).text =
        [some [98], some (bytesOf "16"), some (bytesOf "60"), some (bytesOf "0"),
          some (dotted labels), some textOfOne, some textOfOne, some [48], some [48],
          some [121]]) :
    WellFormedAdd readsOne (textAdd (dotted labels)) labels 16 idOne textAnswer := by
  simp only [List.map_cons, List.map_nil, List.cons.injEq] at texts
  obtain ⟨zone, recType, ttl, priority, name, id, groupId, isGeo, isProxy, value, -⟩ := texts
  exact
    { operation := operation
      zone := by rw [zone]; exact Option.some_ne_none _
      recType := ⟨_, recType, by decide +kernel, by decide +kernel, by decide +kernel,
        by decide +kernel⟩
      ttl := ⟨_, ttl, by decide +kernel, by decide +kernel, by decide +kernel, by decide +kernel⟩
      priority := ⟨_, priority, by decide +kernel, by decide +kernel, by decide +kernel,
        by decide +kernel⟩
      name := name
      id := ⟨_, id, by decide, if_pos rfl⟩
      groupId := by rw [groupId]; exact Option.some_ne_none _
      isGeo := isGeo
      isProxy := isProxy
      value := ⟨_, value, rfl⟩ }

theorem shortName_host : HostName shortName :=
  ⟨by decide, by decide, by decide +kernel, by decide⟩

theorem longName_host : HostName longName :=
  ⟨by decide, by decide, by decide +kernel, by decide⟩

theorem add_served_iff_short_name :
    (∀ after,
      serveRecords readsOne (textAdd (dotted shortName)) (Run.exec Records.Mmap.step .fresh []) =
        .ok (some success, after) →
      ServedFrom after shortName 16 idOne textAnswer) ↔
      AddReaches (Run.exec Records.Mmap.step .fresh []) shortName 16 idOne :=
  add_served_iff [] readsOne (textAdd (dotted shortName)) shortName 16 idOne textAnswer
    shortName_host (textAdd_wellFormed (by decide +kernel) (by decide +kernel)) (by decide)
    (by rw [Records.Mmap.fresh_eq_freshTable]; decide +kernel)
    (by rw [Records.Mmap.fresh_eq_freshTable]; decide +kernel) (by decide +kernel)

/-- An add for a name of 32 characters is answered with success, and a query for
the name finds nothing. -/
theorem long_name_not_served :
    HostName longName ∧
    WellFormedAdd readsOne (textAdd (dotted longName)) longName 16 idOne textAnswer ∧
    Records.Mmap.fresh.freeListHeadIdx ≠ -1 ∧ Records.Mmap.fresh.slotOfId idOne = none ∧
    Records.calculateHash (storedName longName) ≠ Records.calculateHash (hostWire longName) ∧
    ¬ ∀ after,
      serveRecords readsOne (textAdd (dotted longName)) .fresh = .ok (some success, after) →
      ServedFrom after longName 16 idOne textAnswer := by
  refine ⟨longName_host, textAdd_wellFormed (by decide +kernel) (by decide +kernel), ?_, ?_,
    by decide +kernel, fun served => ?_⟩
  · rw [Records.Mmap.fresh_eq_freshTable]
    decide +kernel
  · rw [Records.Mmap.fresh_eq_freshTable]
    decide +kernel
  · have nothing : ((serveRecords readsOne (textAdd (dotted longName)) .fresh).toOption.bind
        fun served => (handle plainServer emptyDatabase ⟨served.2, .fresh⟩ [] []
          (fun _ => ⟨0, 0⟩) (streamFor longName 16)).toOption.bind
        fun handled => (Dns.decodeMessage (unframed true handled.out)).map
        fun message => (served.1, message.answers.length)) = some (some success, 0) := by
      rw [Records.Mmap.fresh_eq_freshTable]
      decide +kernel
    simp only [Option.bind_eq_some_iff, Option.map_eq_some_iff, Prod.mk.injEq] at nothing
    obtain ⟨⟨response, after⟩, serves, handled, runs, message, decodes, rfl, empty⟩ := nothing
    obtain ⟨handled', query, message', record, answered⟩ := served after (eq_ok_of_toOption serves)
      plainServer emptyDatabase .fresh [] [] (fun _ => ⟨0, 0⟩) (streamFor longName 16) longName rfl
      rfl (streamFor_asks longName_host (by decide))
    obtain rfl : handled' = handled :=
      Except.ok.inj (answered.runs.symm.trans (eq_ok_of_toOption runs))
    obtain rfl : message' = message := Option.some.inj (answered.decodes.symm.trans decodes)
    have member := answered.answered
    rw [List.length_eq_zero_iff.mp empty] at member
    exact absurd member List.not_mem_nil

end EdgeDNS.Core
