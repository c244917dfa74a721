import EdgeDNS.Core.CompleteAnswers
import EdgeDNS.Core.Emission

/-!
# The letter case of a name

Two queries that differ in the letter case of their labels alone. The handler
folds the case of the whole name as it lies on the wire, lengths included. A
length of a valid label is no letter, so the two names become one
(`CaseVariant.parses`), and everything behind the parser has the same query: the
key of the cache, the zone and the name for the database, and the size checks.
The question is copied from the buffer, not from the parsed name.

`letterCase_irrelevant` compares the two runs.
-/

set_option autoImplicit false

namespace EdgeDNS.Core

open Utils Wire

/-! ## Queries in another case -/

/-- Two requests from one client over one transport, whose query buffers hold valid
labels behind the header and differ in the case of these labels alone. -/
structure CaseVariant (request request' : Request) (labels labels' : List (List UInt8)) :
    Prop where
  isTcp : request'.isTcp = request.isTcp
  ip : request'.ip = request.ip
  ipStr : request'.ipStr = request.ipStr
  valid : Dns.ValidLabels labels
  folded : lowerLabels labels' = lowerLabels labels
  buffers : ∃ front behind, front.length = messageStart request.isTcp + 12 ∧
    queryBuf request.payload = front ++ Dns.encodeLabels labels ++ behind ∧
    queryBuf request'.payload = front ++ Dns.encodeLabels labels' ++ behind

/-- A payload that fits the buffer lies in front of zeros. -/
theorem queryBuf_of_fits {payload : List UInt8} (fits : payload.length ≤ bufferSize) :
    queryBuf payload = payload ++ List.replicate (bufferSize - payload.length) 0 := by
  rw [queryBuf, List.take_of_length_le fits]

/-- Payloads that differ in the case of their labels alone make such requests. -/
theorem CaseVariant.of_payload {request : Request} {labels labels' : List (List UInt8)}
    {front behind : List UInt8} (valid : Dns.ValidLabels labels)
    (folded : lowerLabels labels' = lowerLabels labels)
    (isFront : front.length = messageStart request.isTcp + 12)
    (isPayload : request.payload = front ++ Dns.encodeLabels labels ++ behind)
    (fits : request.payload.length ≤ bufferSize) :
    CaseVariant request
      { request with payload := front ++ Dns.encodeLabels labels' ++ behind } labels labels' where
  isTcp := rfl
  ip := rfl
  ipStr := rfl
  valid := valid
  folded := folded
  buffers := by
    have sameLength : (front ++ Dns.encodeLabels labels' ++ behind).length =
        (front ++ Dns.encodeLabels labels ++ behind).length := by
      simp only [List.length_append, Dns.encodeLabels_length_congr (lowerLabels_length folded)]
    rw [isPayload] at fits
    refine ⟨front, behind ++ List.replicate (bufferSize -
      (front ++ Dns.encodeLabels labels ++ behind).length) 0, isFront, ?_, ?_⟩
    · rw [isPayload, queryBuf_of_fits fits, List.append_assoc _ behind]
    · rw [queryBuf_of_fits (sameLength.trans_le fits), sameLength, List.append_assoc _ behind]

/-- Where the name of a query ends. -/
def rootOf (request : Request) (labels : List (List UInt8)) : Nat :=
  messageStart request.isTcp + 12 + (Dns.encodeLabels labels).length - 1

/-- The bytes outside of a part that is replaced by one of the same length. -/
theorem getD_outside {front part part' behind : List UInt8} (length : part'.length = part.length)
    {offset : Nat} (outside : offset < front.length ∨ front.length + part.length ≤ offset) :
    (front ++ part' ++ behind).getD offset 0 = (front ++ part ++ behind).getD offset 0 := by
  simp only [List.getD_eq_getElem?_getD, List.append_assoc]
  rcases outside with before | after
  · rw [List.getElem?_append_left before, List.getElem?_append_left before]
  · rw [List.getElem?_append_right (by omega), List.getElem?_append_right (by omega),
      List.getElem?_append_right (by omega), List.getElem?_append_right (by omega), length]

theorem wordAt_outside {front part part' behind : List UInt8}
    (length : part'.length = part.length) {offset : Nat}
    (outside : offset + 1 < front.length ∨ front.length + part.length ≤ offset) :
    wordAt (front ++ part' ++ behind) offset = wordAt (front ++ part ++ behind) offset := by
  rw [wordAt, wordAt, getD_outside length (by omega), getD_outside length (by omega)]

namespace CaseVariant

variable {request request' : Request} {labels labels' : List (List UInt8)}
  (variant : CaseVariant request request' labels labels')

include variant

theorem lengths : labels'.map List.length = labels.map List.length :=
  lowerLabels_length variant.folded

theorem valid' : Dns.ValidLabels labels' := variant.valid.of_lengths variant.lengths

theorem sameLength : (Dns.encodeLabels labels').length = (Dns.encodeLabels labels).length :=
  Dns.encodeLabels_length_congr variant.lengths

theorem sameName :
    (Dns.encodeLabels labels').map lowerByte = (Dns.encodeLabels labels).map lowerByte := by
  rw [encodeLabels_lower variant.valid'.short, variant.folded,
    encodeLabels_lower variant.valid.short]

theorem holds : Dns.encodeLabels labels <+:
    (queryBuf request.payload).drop (messageStart request.isTcp + 12) := by
  obtain ⟨front, behind, isFront, buffer, -⟩ := variant.buffers
  rw [buffer, List.append_assoc, ← isFront, List.drop_left]
  exact List.prefix_append ..

theorem holds' : Dns.encodeLabels labels' <+:
    (queryBuf request'.payload).drop (messageStart request'.isTcp + 12) := by
  obtain ⟨front, behind, isFront, -, buffer⟩ := variant.buffers
  rw [buffer, List.append_assoc, variant.isTcp, ← isFront, List.drop_left]
  exact List.prefix_append ..

theorem rootOf_eq : rootOf request' labels' = rootOf request labels := by
  rw [rootOf, rootOf, variant.isTcp, variant.sameLength]

/-- Words that do not touch the labels are the same. -/
theorem sameWord {offset : Nat}
    (outside : offset + 1 < messageStart request.isTcp + 12 ∨ rootOf request labels < offset) :
    wordAt (queryBuf request'.payload) offset = wordAt (queryBuf request.payload) offset := by
  obtain ⟨front, behind, isFront, buffer, buffer'⟩ := variant.buffers
  have positive := Dns.encodeLabels_length_pos labels
  rw [buffer, buffer']
  apply wordAt_outside variant.sameLength
  rw [rootOf] at outside
  omega

/-- **The two queries are parsed to one.** -/
theorem parses :
    parsed (queryBuf request'.payload) request'.isTcp (rootOf request' labels') =
      parsed (queryBuf request.payload) request.isTcp (rootOf request labels) := by
  have positive := Dns.encodeLabels_length_pos labels
  have positive' := Dns.encodeLabels_length_pos labels'
  have name := (parsesLabels (LabelsEnd.of_labels variant.valid variant.holds) variant.valid
    variant.holds (by omega)).name
  have name' := (parsesLabels (LabelsEnd.of_labels variant.valid' variant.holds') variant.valid'
    variant.holds' (by omega)).name
  have sameName : (parsed (queryBuf request'.payload) request'.isTcp
      (rootOf request' labels')).nameWire =
        (parsed (queryBuf request.payload) request.isTcp (rootOf request labels)).nameWire := by
    rw [rootOf, rootOf, name, name', variant.sameName]
  rw [variant.rootOf_eq, variant.isTcp] at sameName ⊢
  have behindStart : messageStart request.isTcp + 12 ≤ rootOf request labels := by
    rw [rootOf]
    omega
  have word : ∀ offset, offset + 1 < messageStart request.isTcp + 12 ∨
      rootOf request labels < offset →
        wordAt (queryBuf request'.payload) offset = wordAt (queryBuf request.payload) offset :=
    fun _ => variant.sameWord
  generalize queryBuf request'.payload = buffer' at word sameName ⊢
  generalize queryBuf request.payload = buffer at word sameName ⊢
  generalize rootOf request labels = root at word sameName behindStart ⊢
  simp only [parsed] at sameName ⊢
  rw [sameName, word _ (by omega), word _ (by omega), word _ (by omega), word _ (by omega),
    word _ (by omega), word _ (by omega)]

end CaseVariant

/-! ## What the parsed query decides -/

section Decided

variable (server : Server) (database : Database) (caches : Caches) {request request' : Request}
  {labels labels' : List (List UInt8)}

/-- What a run reads of its surroundings to limit the rate of responses: the clock,
and the memory behind a zone of less than four bytes. -/
def SameMoment (server : Server) (request request' : Request) : Prop :=
  server.rateLimiting = true →
    request'.now = request.now ∧ request'.behindZone = request.behindZone

namespace CaseVariant

variable (variant : CaseVariant request request' labels labels') {query : Query}

include variant

theorem sameMatched (name : query.nameWire = Dns.encodeLabels (lowerLabels labels)) :
    matchedRecords database caches request' query =
      matchedRecords database caches request query := by
  have valid := variant.valid.of_lengths (map_length_lowerLabels labels)
  rw [matchedRecords, matchedRecords, databaseRecords_eq request valid name,
    databaseRecords_eq request' valid name]

theorem sameGroup (record : Records.DNSResponseData) :
    answeringGroup server request' record = answeringGroup server request record := by
  rw [answeringGroup, answeringGroup, isProxied, isProxied, variant.ipStr]

theorem sameFound (groupId : CassUuid) (queue : List Operational.Entry) :
    groupEntries server database caches request' groupId queue =
      groupEntries server database caches request groupId queue := by
  have sameCountry : countryCode server request' = countryCode server request := by
    rw [countryCode, countryCode, variant.ipStr]
  rw [groupEntries, groupEntries, sameCountry]

theorem sameAnswers :
    recordAnswers server database caches request' =
      recordAnswers server database caches request := by
  funext record
  rw [recordAnswers, recordAnswers, variant.sameGroup server]
  simp only [foundEntries, variant.sameFound server database caches]

theorem sameEntries :
    recordEntries server database caches request' =
      recordEntries server database caches request := by
  funext record
  rw [recordEntries, recordEntries, variant.sameGroup server]
  simp only [queuedEntries, variant.sameFound server database caches]

theorem sameLimit (moment : SameMoment server request request') (zoneBuf : List UInt8)
    (state : Answering) :
    limitResponse server request' zoneBuf state = limitResponse server request zoneBuf state := by
  rw [limitResponse, limitResponse, variant.isTcp]
  split
  · next limits =>
      obtain ⟨now, behindZone⟩ := moment (Bool.and_eq_true_iff.mp limits).1
      rw [rateLimit, rateLimit, zoneId, zoneId, variant.ip, now, behindZone]
  · rfl

theorem sameUnlimited (moment : SameMoment server request request') (zoneBuf : List UInt8)
    (rrlBuckets : RRLKey → RRLBucket) (records : List Records.DNSResponseData) :
    unlimited server request' zoneBuf rrlBuckets records =
      unlimited server request zoneBuf rrlBuckets records := by
  induction records generalizing rrlBuckets with
  | nil => rfl
  | cons record records ih =>
      have counted : countResponse server request' zoneBuf rrlBuckets =
          countResponse server request zoneBuf rrlBuckets := by
        rw [countResponse, countResponse, variant.sameLimit server moment]
      rw [unlimited, unlimited, counted, ih]

theorem sameRecords (name : query.nameWire = Dns.encodeLabels (lowerLabels labels)) :
    responseRecords database caches request' query =
      responseRecords database caches request query := by
  rw [responseRecords, responseRecords, variant.sameMatched database caches name]

theorem sameResponseEntries (name : query.nameWire = Dns.encodeLabels (lowerLabels labels)) :
    responseEntries server database caches request' query =
      responseEntries server database caches request query := by
  rw [responseEntries, responseEntries, variant.sameMatched database caches name,
    variant.sameEntries server database caches]

variable (rrlBuckets : RRLKey → RRLBucket)

theorem sameReached (moment : SameMoment server request request')
    (name : query.nameWire = Dns.encodeLabels (lowerLabels labels)) :
    reachedAnswers server database caches request' query rrlBuckets =
      reachedAnswers server database caches request query rrlBuckets := by
  rw [reachedAnswers, reachedAnswers, variant.sameMatched database caches name,
    variant.sameUnlimited server moment, variant.sameAnswers server database caches]

theorem sameWritten (moment : SameMoment server request request')
    (name : query.nameWire = Dns.encodeLabels (lowerLabels labels))
    (question : (questionBytes request' query).length = (questionBytes request query).length) :
    writtenAnswers server database caches request' query rrlBuckets =
      writtenAnswers server database caches request query rrlBuckets := by
  rw [writtenAnswers, writtenAnswers, variant.sameReached server database caches rrlBuckets moment
    name, question, variant.isTcp]

theorem sameTruncated (moment : SameMoment server request request')
    (name : query.nameWire = Dns.encodeLabels (lowerLabels labels))
    (question : (questionBytes request' query).length = (questionBytes request query).length) :
    isTruncated server database caches request' query rrlBuckets =
      isTruncated server database caches request query rrlBuckets := by
  rw [isTruncated, isTruncated, reachesLimit, reachesLimit,
    variant.sameWritten server database caches rrlBuckets moment name question,
    variant.sameReached server database caches rrlBuckets moment name,
    variant.sameMatched database caches name, variant.sameUnlimited server moment]

end CaseVariant

end Decided

/-! ## Two runs -/

/-- Two runs for one query: the responses differ in the bytes of the question alone,
which are those received, and what is queued for the cache is the same, under
the key of the query. -/
structure SameButQuestion (isTcp : Bool) (question question' : List UInt8) (query : Query)
    (recordQueue : List Operational.Record) (handled handled' : Handled) : Prop where
  length : handled'.out.length = handled.out.length
  outside : ∃ front behind, front.length = messageStart isTcp + 12 ∧
    handled.out = front ++ question ++ behind ∧ handled'.out = front ++ question' ++ behind
  truncated : handled'.truncated = handled.truncated
  recordQueue : ∃ queued, handled.recordQueue = recordQueue ++ queued ∧
    handled'.recordQueue = recordQueue ++ queued ∧
    ∀ record ∈ queued, record.name = query.nameWire ∧ record.qtype = query.qtype.toNat
  entryQueue : handled'.entryQueue = handled.entryQueue

/-- The question of a query for labels, as it lies on the wire. -/
def questionOf (labels : List (List UInt8)) (query : Query) : List UInt8 :=
  Dns.encodeLabels labels ++ be16 query.qtype ++ be16 query.qclass

/-- A message with its question in the middle. -/
theorem framed_responseMessage (request : Request) (query : Query) (truncated : Bool)
    (written : List Answer) :
    ∃ front behind, front.length = messageStart request.isTcp + 12 ∧
      ∀ other : Request, other.isTcp = request.isTcp →
        (questionBytes other query).length = (questionBytes request query).length →
        framed other.isTcp (responseMessage other query truncated written) =
          front ++ questionBytes other query ++ behind := by
  refine ⟨(if request.isTcp then be16 (UInt16.ofNat
      (responseMessage request query truncated written).length) else []) ++
        header query (finalFlags query truncated) (UInt16.ofNat written.length) 1,
    written.flatMap (Answer.bytes query.qtype) ++ Dns.encodeRecord optRecord, ?_, ?_⟩
  · rw [List.length_append, header_length, messageStart]
    split <;> rfl
  · intro other isTcp length
    have sameLength : (responseMessage other query truncated written).length =
        (responseMessage request query truncated written).length := by
      simp only [responseMessage, List.length_append, length]
    rw [framed, isTcp, sameLength]
    split <;> simp only [responseMessage, List.append_assoc, List.nil_append]

section Runs

variable (server : Server) (database : Database) (caches : Caches)
  (recordQueue : List Operational.Record) (entryQueue : List Operational.Entry)
  (rrlBuckets : RRLKey → RRLBucket)

theorem responseRecords_key (request : Request) (query : Query) :
    ∀ record ∈ responseRecords database caches request query,
      record.name = query.nameWire ∧ record.qtype = query.qtype.toNat := by
  intro record member
  rw [responseRecords] at member
  split at member
  · obtain ⟨matched, -, isQueued⟩ := List.mem_flatMap.mp member
    rw [queuedRecord] at isQueued
    split at isQueued
    · exact absurd isQueued List.not_mem_nil
    · obtain rfl := List.mem_singleton.mp isQueued
      exact ⟨rfl, rfl⟩
  · exact absurd member List.not_mem_nil

/-- **The letter case of a name is irrelevant.** Two queries that differ in it are
parsed to one, and their responses differ in the question alone, which each
repeats as it was received. -/
theorem letterCase_irrelevant (request request' : Request) (labels labels' : List (List UInt8))
    (variant : CaseVariant request request' labels labels')
    (moment : SameMoment server request request') :
    ∃ query handled handled',
      parseQuery (queryBuf request.payload) request.isTcp = .ok query ∧
      parseQuery (queryBuf request'.payload) request'.isTcp = .ok query ∧
      query.nameWire = Dns.encodeLabels (lowerLabels labels) ∧
      handle server database caches recordQueue entryQueue rrlBuckets request = .ok handled ∧
      handle server database caches recordQueue entryQueue rrlBuckets request' = .ok handled' ∧
      SameButQuestion request.isTcp (questionOf labels query) (questionOf labels' query) query
        recordQueue handled handled' := by
  have ends := LabelsEnd.of_labels variant.valid variant.holds
  have ends' := LabelsEnd.of_labels variant.valid' variant.holds'
  have positive := Dns.encodeLabels_length_pos labels
  have positive' := Dns.encodeLabels_length_pos labels'
  have asked := parsesLabels ends variant.valid variant.holds (by omega)
  have asked' := parsesLabels ends' variant.valid' variant.holds' (by omega)
  have parses := variant.parses
  rw [rootOf, rootOf] at parses
  obtain ⟨query, isQuery⟩ : ∃ query, query = parsed (queryBuf request.payload) request.isTcp
      (messageStart request.isTcp + 12 + (Dns.encodeLabels labels).length - 1) := ⟨_, rfl⟩
  have isQuery' := isQuery.trans parses.symm
  rw [← isQuery] at asked
  rw [← isQuery'] at asked'
  have name : query.nameWire = Dns.encodeLabels (lowerLabels labels) :=
    asked.name.trans (encodeLabels_lower variant.valid.short)
  have length : (questionBytes request' query).length = (questionBytes request query).length := by
    rw [asked.question, asked'.question]
    simp only [List.length_append, variant.sameLength]
  obtain ⟨handled, written, runs, responds⟩ := handle_of_labelsEnd server database caches
    recordQueue entryQueue rrlBuckets ends
  obtain ⟨handled', written', runs', responds'⟩ := handle_of_labelsEnd server database caches
    recordQueue entryQueue rrlBuckets ends'
  rw [← isQuery] at responds
  rw [← isQuery'] at responds'
  obtain ⟨again, runsAgain, out, truncated⟩ := handle_written server database caches recordQueue
    entryQueue rrlBuckets ends isQuery
  obtain ⟨again', runsAgain', out', truncated'⟩ := handle_written server database caches recordQueue
    entryQueue rrlBuckets ends' isQuery'
  obtain rfl := Except.ok.inj (runs.symm.trans runsAgain)
  obtain rfl := Except.ok.inj (runs'.symm.trans runsAgain')
  have sameTruncated : handled'.truncated = handled.truncated := by
    rw [truncated, truncated',
      variant.sameTruncated server database caches rrlBuckets moment name length]
  rw [variant.sameWritten server database caches rrlBuckets moment name length,
    sameTruncated] at out'
  obtain ⟨front, behind, isFront, messages⟩ := framed_responseMessage request query
    handled.truncated (writtenAnswers server database caches request query rrlBuckets)
  have outIs := out.trans (messages request rfl rfl)
  have outIs' := out'.trans (messages request' variant.isTcp length)
  refine ⟨query, handled, handled', asked.parses, asked'.parses, name, runs, runs', ?_⟩
  exact
    { length := by
        rw [outIs, outIs']
        simp only [List.length_append, length]
      outside := by
        rw [questionOf, questionOf, ← asked.question, ← asked'.question]
        exact ⟨front, behind, isFront, outIs, outIs'⟩
      truncated := sameTruncated
      recordQueue := by
        refine ⟨_, responds.recordQueue, ?_, responseRecords_key database caches request query⟩
        rw [responds'.recordQueue, variant.sameRecords database caches name]
      entryQueue := by
        rw [responds.entryQueue, responds'.entryQueue,
          variant.sameResponseEntries server database caches name] }

end Runs

/-- A query for the address of the name `A`. -/
def upperQuery : Request :=
  datagram ([7, 7, 1, 0, 0, 1, 0, 0, 0, 0, 0, 0] ++ [1, 65, 0, 0, 1, 0, 1])

theorem caseVariant_a : CaseVariant upperQuery addressQuery [[65]] [[97]] :=
  @CaseVariant.of_payload upperQuery [[65]] [[97]] [7, 7, 1, 0, 0, 1, 0, 0, 0, 0, 0, 0]
    [0, 1, 0, 1] ⟨by decide, by decide, by decide⟩ (by decide) rfl rfl (by decide)

/-- Two long records, of which one is answered. -/
theorem letterCase_irrelevant_a :
    ∃ query handled handled',
      parseQuery (queryBuf upperQuery.payload) upperQuery.isTcp = .ok query ∧
      parseQuery (queryBuf addressQuery.payload) addressQuery.isTcp = .ok query ∧
      query.nameWire = Dns.encodeLabels (lowerLabels [[65]]) ∧
      handle plainServer twoRecords freshCaches [] [] (fun _ => ⟨0, 0⟩) upperQuery =
        .ok handled ∧
      handle plainServer twoRecords freshCaches [] [] (fun _ => ⟨0, 0⟩) addressQuery =
        .ok handled' ∧
      SameButQuestion upperQuery.isTcp (questionOf [[65]] query) (questionOf [[97]] query) query
        [] handled handled' :=
  letterCase_irrelevant plainServer twoRecords freshCaches [] [] (fun _ => ⟨0, 0⟩) upperQuery
    addressQuery [[65]] [[97]] caseVariant_a (fun on => absurd on Bool.false_ne_true)

end EdgeDNS.Core
