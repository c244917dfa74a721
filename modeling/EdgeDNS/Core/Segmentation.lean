import EdgeDNS.Core.Transports
import EdgeDNS.Core.Worker

/-!
# Segments of a stream

Over TCP a message comes behind its length, and the network cuts the stream of
messages where it likes. The worker handles every read as one message that
starts two bytes after its beginning: it looks at no length and keeps nothing of
a read for the next one.

So the responses are one for a read, and a response depends on what its read
`asked`: the transaction id, the flag and the number of questions it mirrors,
and the question. The responses to a stream are those to its messages exactly
when the reads ask in turn what the messages ask (`responses_agree_iff`). A
message in two reads gets two responses, and two messages in one read get one.
-/

set_option autoImplicit false

namespace EdgeDNS.Core

open Utils Wire

/-! ## What a payload asks -/

/-- What a response over TCP depends on in the payload of its query. -/
structure Asked where
  transactionId : UInt16
  recursionDesired : UInt16
  oneQuestion : Bool
  question : List UInt8
deriving DecidableEq, Repr

/-- What a message asks, as the handler parses it. -/
def asked (payload : List UInt8) : Except Fault Asked := do
  let buffer := queryBuf payload
  let query ← parseQuery buffer true
  let start := 12 + messageStart true
  let question ← copyBytes buffer start (query.questionEnd - start)
  return ⟨query.transactionId, query.flags &&& 0x0100, query.qdcount = 1, question⟩

/-- What a parsed query over TCP asks. -/
def askedOf (request : Request) (query : Query) : Asked :=
  ⟨query.transactionId, query.flags &&& 0x0100, query.qdcount = 1, questionBytes request query⟩

/-- The query of a request whose labels end at the root. -/
def queryAt (request : Request) (root : Nat) : Query :=
  parsed (queryBuf request.payload) request.isTcp root

section Questions

variable {request request' : Request} {root root' : Nat}

theorem LabelsEnd.asks (ends : LabelsEnd request root) (isTcp : request.isTcp = true) :
    asked request.payload = .ok (askedOf request (queryAt request root)) := by
  have near := ends.near
  simp only [receiveSize] at near
  have parses := ends.parses
  rw [isTcp] at parses
  have copies : copyBytes (queryBuf request.payload) (12 + messageStart true)
      ((queryAt request root).questionEnd - (12 + messageStart true)) =
        .ok (questionBytes request (queryAt request root)) := by
    rw [questionBytes, isTcp]
    refine copyBytes_eq ?_
    rw [queryBuf_length, bufferSize]
    simp only [queryAt, parsed, messageStart, if_true]
    omega
  rw [queryAt, isTcp] at copies ⊢
  simp only [asked, parses, ok_bind, copies]
  rfl

/-- The question runs from behind the header to the class. -/
theorem LabelsEnd.questionBytes_length (ends : LabelsEnd request root)
    (isTcp : request.isTcp = true) :
    (questionBytes request (queryAt request root)).length = root + 5 - 14 := by
  have near := ends.near
  simp only [receiveSize] at near
  rw [questionBytes, isTcp, List.length_take, List.length_drop, queryBuf_length, bufferSize]
  simp only [queryAt, parsed, messageStart, if_true]
  omega

theorem LabelsEnd.questionBytes_getD (ends : LabelsEnd request root) (isTcp : request.isTcp = true)
    {offset : Nat} (inside : offset < root + 5 - 14) :
    (questionBytes request (queryAt request root)).getD offset 0 =
      (queryBuf request.payload).getD (14 + offset) 0 := by
  have length := ends.questionBytes_length isTcp
  rw [List.getD_eq_getElem?_getD, List.getD_eq_getElem?_getD, questionBytes, isTcp,
    List.getElem?_take, List.getElem?_drop, if_pos]
  · rfl
  · simpa only [queryAt, parsed, messageStart, if_true] using inside

/-- **A question says where it ends**: two questions at the beginning of the same
bytes are the same. -/
theorem LabelsEnd.question_unique (ends : LabelsEnd request root) (isTcp : request.isTcp = true)
    (ends' : LabelsEnd request' root') (isTcp' : request'.isTcp = true) {bytes : List UInt8}
    (first : questionBytes request (queryAt request root) <+: bytes)
    (first' : questionBytes request' (queryAt request' root') <+: bytes) :
    questionBytes request (queryAt request root) =
      questionBytes request' (queryAt request' root') := by
  have walks : ∀ {request : Request} {root : Nat}, LabelsEnd request root →
      request.isTcp = true → questionBytes request (queryAt request root) <+: bytes →
        14 ≤ root ∧ labelLoop bytes bufferSize 0 = .ok (root - 14) := by
    intro request root ends isTcp first
    have after : 14 ≤ root := by
      have after := ends.after
      rwa [isTcp] at after
    have length := ends.questionBytes_length isTcp
    have walked : labelLoop (queryBuf request.payload) bufferSize (14 + 0) =
        .ok (14 + (root - 14)) := by
      rw [Nat.add_sub_cancel' after]
      have walked := ends.walked
      rwa [isTcp] at walked
    have shorter := first.length_le
    have moved := @labelLoop_moved _ bytes _ 14 0 0 (root - 14) walked
      (fun offset atMost => ?_) (by omega)
    · rw [Nat.zero_add, Nat.zero_add] at moved
      exact ⟨after, moved⟩
    · obtain ⟨rest, isBytes⟩ := first
      rw [Nat.zero_add, ← ends.questionBytes_getD isTcp (by omega), ← isBytes]
      exact List.getD_append _ _ _ _ (by omega)
  obtain ⟨after, walked⟩ := walks ends isTcp first
  obtain ⟨after', walked'⟩ := walks ends' isTcp' first'
  have sameRoot : root = root' := by
    have same := Except.ok.inj (walked.symm.trans walked')
    omega
  refine List.IsPrefix.eq_of_length ?_ ?_
  · exact List.prefix_of_prefix_length_le first first' (by
      rw [ends.questionBytes_length isTcp, ends'.questionBytes_length isTcp', sameRoot])
  · rw [ends.questionBytes_length isTcp, ends'.questionBytes_length isTcp', sameRoot]

/-- The parts of a query that its question holds. -/
theorem LabelsEnd.query_eq (ends : LabelsEnd request root) (isTcp : request.isTcp = true) :
    (queryAt request root).nameWire =
        ((questionBytes request (queryAt request root)).take
          (min ((questionBytes request (queryAt request root)).length - 4) nameSize)).map
            lowerByte ∧
      (queryAt request root).qtype = wordAt (questionBytes request (queryAt request root))
        ((questionBytes request (queryAt request root)).length - 4) ∧
      (queryAt request root).qclass = wordAt (questionBytes request (queryAt request root))
        ((questionBytes request (queryAt request root)).length - 2) := by
  have after : 14 ≤ root := by
    have after := ends.after
    rwa [isTcp] at after
  have length := ends.questionBytes_length isTcp
  have byte := fun offset inside => @LabelsEnd.questionBytes_getD request root ends isTcp offset
    inside
  have word : ∀ offset, 14 ≤ offset → offset + 1 < root + 5 →
      wordAt (questionBytes request (queryAt request root)) (offset - 14) =
        wordAt (queryBuf request.payload) offset := by
    intro offset from' to'
    rw [wordAt, wordAt, byte _ (by omega), byte _ (by omega)]
    congr 2 <;> omega
  rw [length]
  refine ⟨?_, ?_, ?_⟩
  · have count : min (root + 5 - 14 - 4) nameSize = min (root + 1 - 14) nameSize := by omega
    rw [count, questionBytes, isTcp, List.take_take, queryAt, isTcp]
    simp only [parsed, messageStart, if_true]
    congr 2
    omega
  · have place : root + 5 - 14 - 4 = root + 1 - 14 := by omega
    rw [place, word _ (by omega) (by omega)]
    rfl
  · have place : root + 5 - 14 - 2 = root + 3 - 14 := by omega
    rw [place, word _ (by omega) (by omega)]
    rfl

end Questions

/-! ## The flags of a response -/

theorem finalFlags_recursion (query : Query) (truncated : Bool) :
    finalFlags query truncated &&& 0x0100 = query.flags &&& 0x0100 := by
  have response : (0x8000 : UInt16) &&& 0x0100 = 0 := by decide
  have authoritative : (0x0400 : UInt16) &&& 0x0100 = 0 := by decide
  rw [finalFlags, setIf_and _ _ (by decide), responseFlags, setIf_and _ _ (by decide),
    setIf_and _ _ (by decide), or_and, or_and, UInt16.and_assoc, response, authoritative,
    UInt16.and_self, UInt16.zero_or, UInt16.or_zero]

/-- The lowest flag says that there is not one question. -/
theorem finalFlags_format (query : Query) (truncated : Bool) :
    finalFlags query truncated &&& 0x0001 = if query.qdcount ≠ 1 then 1 else 0 := by
  have response : (0x8000 : UInt16) &&& 0x0001 = 0 := by decide
  have authoritative : (0x0400 : UInt16) &&& 0x0001 = 0 := by decide
  have recursion : (0x0100 : UInt16) &&& 0x0001 = 0 := by decide
  have base : (0x8000 ||| (query.flags &&& 0x0100) ||| 0x0400) &&& 0x0001 = 0 := by
    rw [or_and, or_and, UInt16.and_assoc, response, authoritative, recursion, UInt16.and_zero,
      UInt16.or_zero, UInt16.or_zero]
  rw [finalFlags, setIf_and _ _ (by decide), responseFlags]
  split
  · rw [or_and, setIf_and _ _ (by decide), base, UInt16.zero_or, UInt16.and_self]
  · rw [setIf_and _ _ (by decide), base]

/-! ## What a response says -/

section Responses

variable (server : Server) (database : Database) (caches : Caches) {request : Request}
  {root root' : Nat} {payload : List UInt8}

/-- The answers of a response over TCP. -/
def tcpAnswers (request : Request) (query : Query) : List Answer :=
  fittingAnswers true query (12 + (questionBytes request query).length)
    (responseAnswers server database caches request query)

/-- A response over TCP. -/
def tcpResponse (request : Request) (query : Query) : List UInt8 :=
  let written := tcpAnswers server database caches request query
  let truncated : Bool := written ≠ responseAnswers server database caches request query
  framed true (responseMessage request query truncated written)

theorem handle_tcp (ends : LabelsEnd request root) (isTcp : request.isTcp = true)
    (recordQueue : List Operational.Record) (entryQueue : List Operational.Entry)
    (rrlBuckets : RRLKey → RRLBucket) :
    ∃ handled,
      handle server database caches recordQueue entryQueue rrlBuckets request = .ok handled ∧
        handled.out = tcpResponse server database caches request (queryAt request root) := by
  have off : (server.rateLimiting && !request.isTcp) = false := by
    rw [isTcp, Bool.not_true, Bool.and_false]
  obtain ⟨handled, runs, out, truncated⟩ := handle_written server database caches recordQueue
    entryQueue rrlBuckets ends rfl
  have written : writtenAnswers server database caches request (queryAt request root)
      rrlBuckets = tcpAnswers server database caches request (queryAt request root) := by
    rw [writtenAnswers, reachedAnswers_eq _ _ _ off, isTcp, tcpAnswers]
  have truncated' := truncated.trans (isTruncated_eq _ _ _ off _)
  rw [← queryAt] at out truncated'
  rw [written] at out truncated'
  refine ⟨handled, runs, ?_⟩
  rw [out, truncated', isTcp, tcpResponse]

/-- **What is asked decides the response.** -/
theorem tcpResponse_congr {query query' : Query}
    (same : askedOf request query = askedOf { request with payload := payload } query')
    (name : query.nameWire = query'.nameWire) (qtype : query.qtype = query'.qtype)
    (qclass : query.qclass = query'.qclass) :
    tcpResponse server database caches request query =
      tcpResponse server database caches { request with payload := payload } query' := by
  simp only [askedOf, Asked.mk.injEq, decide_eq_decide] at same
  obtain ⟨transactionId, recursion, one, question⟩ := same
  have cached : cachedRecords caches query = cachedRecords caches query' := by
    rw [cachedRecords, cachedRecords, name, qtype]
  have rows : databaseRecords database request query =
      databaseRecords database { request with payload := payload } query' := by
    simp only [databaseRecords, name, qtype]
  have matched : matchedRecords database caches request query =
      matchedRecords database caches { request with payload := payload } query' := by
    rw [matchedRecords, matchedRecords, cached, rows]
  have answers : responseAnswers server database caches request query =
      responseAnswers server database caches { request with payload := payload } query' := by
    simp only [responseAnswers, qclass, one, matched]
    rfl
  have written : tcpAnswers server database caches request query =
      tcpAnswers server database caches { request with payload := payload } query' := by
    have size : Answer.size query = Answer.size query' := by
      funext item
      rw [Answer.size, Answer.size, qtype]
    have passes : Answer.passes true query = Answer.passes true query' := rfl
    rw [tcpAnswers, tcpAnswers, fittingAnswers, fittingAnswers, answers, question, size, passes]
  have flags : ∀ truncated, finalFlags query truncated = finalFlags query' truncated := by
    intro truncated
    have flags : responseFlags query = responseFlags query' := by
      simp only [responseFlags, recursion, qclass, ne_eq, one]
    rw [finalFlags, finalFlags, flags]
  simp only [tcpResponse, written, answers, responseMessage, header, transactionId, flags,
    question, qtype]

theorem framed_injective {first second : List UInt8}
    (same : framed true first = framed true second) : first = second := by
  rw [framed, framed, if_pos rfl, if_pos rfl] at same
  exact (List.append_inj same (by rw [be16_length, be16_length])).2

/-- What equal messages have in common: the id, the flags, and the bytes at the
beginning of which the question is. -/
theorem responseMessage_inj {request request' : Request} {query query' : Query}
    {truncated truncated' : Bool} {written written' : List Answer}
    (same : responseMessage request query truncated written =
      responseMessage request' query' truncated' written') :
    query.transactionId = query'.transactionId ∧
      finalFlags query truncated = finalFlags query' truncated' ∧
      ∃ bytes, questionBytes request query <+: bytes ∧ questionBytes request' query' <+: bytes := by
  simp only [responseMessage, List.append_assoc] at same
  obtain ⟨headers, bodies⟩ := List.append_inj same (by rw [header_length, header_length])
  have transactionIds : ∀ (query : Query) (flags ancount arcount : UInt16),
      wordAt (header query flags ancount arcount) 0 = query.transactionId :=
    fun query _ _ _ => word16_be16 query.transactionId
  have flags : ∀ (query : Query) (flags ancount arcount : UInt16),
      wordAt (header query flags ancount arcount) 2 = flags := fun _ flags _ _ => word16_be16 flags
  refine ⟨?_, ?_, _, ⟨_, rfl⟩, ⟨_, bodies.symm⟩⟩
  · simpa only [transactionIds] using congrArg (wordAt · 0) headers
  · simpa only [flags] using congrArg (wordAt · 2) headers

/-- **A response tells what was asked.** -/
theorem asked_of_tcpResponse_eq (ends : LabelsEnd request root) (isTcp : request.isTcp = true)
    (ends' : LabelsEnd { request with payload := payload } root')
    (same : tcpResponse server database caches request (queryAt request root) =
      tcpResponse server database caches { request with payload := payload }
        (queryAt { request with payload := payload } root')) :
    askedOf request (queryAt request root) = askedOf { request with payload := payload }
      (queryAt { request with payload := payload } root') := by
  obtain ⟨transactionId, flags, bytes, first, first'⟩ :=
    responseMessage_inj (framed_injective same)
  have recursion := congrArg (· &&& 0x0100) flags
  have format := congrArg (· &&& 0x0001) flags
  simp only [finalFlags_recursion, finalFlags_format] at recursion format
  have one : (queryAt request root).qdcount = 1 ↔
      (queryAt { request with payload := payload } root').qdcount = 1 := by
    by_cases first : (queryAt request root).qdcount = 1 <;>
      by_cases second : (queryAt { request with payload := payload } root').qdcount = 1 <;>
      simp [first, second] at format ⊢
  have question := ends.question_unique isTcp ends' isTcp first first'
  simp only [askedOf, Asked.mk.injEq, decide_eq_decide]
  exact ⟨transactionId, recursion, one, question⟩

end Responses

/-- A response over TCP is the same as another exactly when the same is asked. -/
theorem World.response_eq_iff (server : Server) (world : World) {request : Request}
    {payload : List UInt8} (isTcp : request.isTcp = true)
    (fits : request.payload.length ≤ receiveSize) (fits' : payload.length ≤ receiveSize) :
    world.response server request = world.response server { request with payload := payload } ↔
      asked request.payload = asked payload := by
  obtain ⟨root, ends⟩ := labelsEnd fits
  obtain ⟨root', ends'⟩ := @labelsEnd { request with payload := payload } fits'
  obtain ⟨handled, runs, out⟩ := handle_tcp server world.database world.caches ends isTcp
    world.recordQueue world.entryQueue world.rrlBuckets
  obtain ⟨handled', runs', out'⟩ := handle_tcp server world.database world.caches ends' isTcp
    world.recordQueue world.entryQueue world.rrlBuckets
  have asks : asked payload = .ok (askedOf { request with payload := payload }
      (queryAt { request with payload := payload } root')) := ends'.asks isTcp
  simp only [World.response, World.respond, runs, runs', out, out', ends.asks isTcp, asks,
    Except.ok.injEq]
  constructor
  · exact asked_of_tcpResponse_eq server world.database world.caches ends isTcp ends'
  · intro same
    have question : questionBytes request (queryAt request root) =
        questionBytes { request with payload := payload }
          (queryAt { request with payload := payload } root') := congrArg Asked.question same
    obtain ⟨name, qtype, qclass⟩ := ends.query_eq isTcp
    obtain ⟨name', qtype', qclass'⟩ := ends'.query_eq isTcp
    rw [question, ← name'] at name
    rw [question, ← qtype'] at qtype
    rw [question, ← qclass'] at qclass
    exact tcpResponse_congr server world.database world.caches same name qtype qclass

/-- The queues and the buckets have no part in a response over TCP. -/
theorem World.response_congr (server : Server) {world after : World} {request : Request}
    (isTcp : request.isTcp = true) (fits : request.payload.length ≤ receiveSize)
    (caches : after.caches = world.caches) (database : after.database = world.database) :
    after.response server request = world.response server request := by
  obtain ⟨root, ends⟩ := labelsEnd fits
  obtain ⟨handled, runs, out⟩ := handle_tcp server world.database world.caches ends isTcp
    world.recordQueue world.entryQueue world.rrlBuckets
  obtain ⟨handled', runs', out'⟩ := handle_tcp server world.database world.caches ends isTcp
    after.recordQueue after.entryQueue after.rrlBuckets
  simp only [World.response, World.respond, caches, database, runs, runs', out, out']

theorem World.handleQuery_caches (server : Server) (world : World) (request : Request) :
    (world.handleQuery server request).caches = world.caches ∧
      (world.handleQuery server request).database = world.database := by
  rw [World.handleQuery]
  split <;> exact ⟨rfl, rfl⟩

/-! ## The responses of a connection -/

/-- The responses that were produced for a descriptor. -/
def Worker.responses (worker : Worker) (fd : Nat) : List (List UInt8) :=
  (worker.produced.filter fun response => response.fd = fd).map Produced.out

/-- A round brings an arrival to a descriptor. -/
def Delivers (worker : Worker) (fd : Nat) (round : Round) (arrival : Arrival) : Prop :=
  ∃ index bufId more read, round.event = .read index (.message bufId arrival) more ∧
    worker.reads[index]? = some read ∧ read.fd = fd

/-- What the responses to a connection depend on is the same, and so are the
responses. -/
structure SameService (fd : Nat) (before after : Worker) : Prop where
  running : after.running = before.running
  caches : after.world.caches = before.world.caches
  database : after.world.database = before.world.database
  connection : (after.connections fd).map (fun conn => (conn.type, conn.ip)) =
    (before.connections fd).map fun conn => (conn.type, conn.ip)
  produced : after.responses fd = before.responses fd

/-- A run brings the arrivals to a descriptor, one after another. What else happens
in between does not concern them. -/
inductive Serves (server : Server) (cassUuidFromString : List UInt8 → Option CassUuid)
    (fd : Nat) : Worker → List Round → List Arrival → Prop
  | nothing {worker : Worker} : Serves server cassUuidFromString fd worker [] []
  | delivery {worker : Worker} {round : Round} {rounds : List Round} {arrival : Arrival}
      {arrivals : List Arrival} (delivers : Delivers worker fd round arrival)
      (rest : Serves server cassUuidFromString fd
        (worker.step server cassUuidFromString round) rounds arrivals) :
      Serves server cassUuidFromString fd worker (round :: rounds) (arrival :: arrivals)
  | other {worker : Worker} {round : Round} {rounds : List Round} {arrivals : List Arrival}
      (same : SameService fd worker (worker.step server cassUuidFromString round))
      (rest : Serves server cassUuidFromString fd
        (worker.step server cassUuidFromString round) rounds arrivals) :
      Serves server cassUuidFromString fd worker (round :: rounds) arrivals

section Runs

variable (server : Server) {cassUuidFromString : List UInt8 → Option CassUuid} {worker : Worker}
  {fd : Nat} {conn : Connection}

theorem SameService.rearm (worker : Worker) (sqe : Bool) (fd : Nat) :
    SameService fd worker (worker.rearm sqe fd) := by
  have arms : ∀ multishot conn, worker.connections fd = some conn →
      SameService fd worker (worker.armRead multishot sqe fd conn) := by
    intro multishot conn isConn
    cases sqe with
    | false => exact ⟨rfl, rfl, rfl, rfl, rfl⟩
    | true =>
        refine ⟨rfl, rfl, rfl, ?_, rfl⟩
        rw [worker.armRead_self conn multishot, isConn]
        rfl
  rw [Worker.rearm]
  split
  · exact ⟨rfl, rfl, rfl, rfl, rfl⟩
  · next conn isConn =>
      split
      · exact arms false conn isConn
      · exact arms true conn isConn

/-- A connection over TCP that is served. -/
structure Open (worker : Worker) (fd : Nat) (ip : UInt32) : Prop where
  running : worker.running = true
  connection : (worker.connections fd).map (fun conn => (conn.type, conn.ip)) = some (.TCP, ip)

theorem SameService.open {ip : UInt32} {after : Worker} (same : SameService fd worker after)
    (isOpen : Open worker fd ip) : Open after fd ip where
  running := same.running.trans isOpen.running
  connection := same.connection.trans isOpen.connection

/-- What one response leaves behind: the connection stays open, and the caches and
the database stay as they are. -/
structure AnswersOnce (server : Server) (fd : Nat) (ip : UInt32) (arrival : Arrival)
    (before after : Worker) : Prop where
  isOpen : Open after fd ip
  caches : after.world.caches = before.world.caches
  database : after.world.database = before.world.database
  responses : after.responses fd =
    before.responses fd ++ [before.world.response server (arrival.request true ip)]

theorem Open.receiveTcp {ip : UInt32} (isOpen : Open worker fd ip)
    (isConn : worker.connections fd = some conn) (sqe : Bool) (arrival : Arrival) :
    AnswersOnce server fd ip arrival worker (worker.receiveTcp server sqe fd conn arrival) := by
  have isTcp := isOpen.connection
  rw [isConn, Option.map_some, Option.some.injEq, Prod.mk.injEq] at isTcp
  obtain ⟨type, rfl⟩ := isTcp
  obtain ⟨out, isOut⟩ : ∃ out, out = worker.world.response server (arrival.request true conn.ip) :=
    ⟨_, rfl⟩
  obtain ⟨caches, database⟩ := worker.world.handleQuery_caches server (arrival.request true conn.ip)
  have filled : ((worker.put fd (conn.fill out)).connections fd).map
      (fun conn => (conn.type, conn.ip)) = some (.TCP, conn.ip) := by
    rw [worker.put_self, Option.map_some, ← type]
    rfl
  have added : ((worker.produced ++ [Produced.mk fd out]).filter fun response : Produced =>
      response.fd = fd).map Produced.out = worker.responses fd ++ [out] := by
    simp [Worker.responses]
  rw [Worker.receiveTcp, ← isOut, Worker.queueWriteTcp]
  split <;> exact ⟨⟨isOpen.running, filled⟩, caches, database, by rw [← isOut]; exact added⟩

/-- **A delivery** gets one response. -/
theorem Open.delivery {ip : UInt32} (isOpen : Open worker fd ip) {round : Round}
    {arrival : Arrival} (delivers : Delivers worker fd round arrival) :
    AnswersOnce server fd ip arrival worker (worker.step server cassUuidFromString round) := by
  obtain ⟨index, bufId, more, read, event, armed, rfl⟩ := delivers
  obtain ⟨conn, isConn, isTcp⟩ := Option.map_eq_some_iff.mp isOpen.connection
  have type : conn.type = .TCP := congrArg Prod.fst isTcp
  rw [Worker.step, if_pos isOpen.running, Worker.handleEvent]
  simp only [event, armed, Worker.readCompleted]
  obtain ⟨used, isUsed⟩ : ∃ used, used = { worker with
      reads := if (more && read.multishot) = true then worker.reads
        else worker.reads.eraseIdx index }.useBuffer read bufId := ⟨_, rfl⟩
  have usedConn : used.connections read.fd = some conn := by rw [isUsed]; exact isConn
  have usedOpen : Open used read.fd ip := by
    rw [isUsed]
    exact ⟨isOpen.running, isOpen.connection⟩
  have answered : AnswersOnce server read.fd ip arrival worker
      (used.receiveTcp server round.sendSqe read.fd conn arrival) := by
    have answers := usedOpen.receiveTcp server usedConn round.sendSqe arrival
    rw [isUsed] at answers ⊢
    exact ⟨answers.isOpen, answers.caches, answers.database, answers.responses⟩
  rw [← isUsed]
  simp only [usedConn, Worker.receive, type]
  split
  · exact answered
  · have same := SameService.rearm (used.receiveTcp server round.sendSqe read.fd conn arrival)
      round.readSqe read.fd
    exact ⟨same.open answered.isOpen, same.caches.trans answered.caches,
      same.database.trans answered.database, same.produced.trans answered.responses⟩

/-- **The responses of a run** are those to its arrivals. -/
theorem responses_of_serves {rounds : List Round} {arrivals : List Arrival}
    (serves : Serves server cassUuidFromString fd worker rounds arrivals) {ip : UInt32}
    (isOpen : Open worker fd ip)
    (fits : ∀ arrival ∈ arrivals, arrival.payload.length ≤ receiveSize) :
    (Run.exec (fun worker => Worker.step worker server cassUuidFromString) worker
      rounds).responses fd = worker.responses fd ++
        arrivals.map fun arrival => worker.world.response server (arrival.request true ip) := by
  induction serves with
  | nothing => rw [List.map_nil, List.append_nil, Run.exec_nil]
  | @delivery worker round rounds arrival arrivals delivers rest ih =>
      have answers : AnswersOnce server fd ip arrival worker
          (worker.step server cassUuidFromString round) := isOpen.delivery server delivers
      have others := fun other member => fits other (List.mem_cons_of_mem _ member)
      rw [Run.exec_cons, ih answers.isOpen others, answers.responses, List.append_assoc,
        List.map_cons, List.singleton_append]
      congr 2
      exact List.map_congr_left fun other member => World.response_congr server rfl
        (others other member) answers.caches answers.database
  | @other worker round rounds arrivals same rest ih =>
      rw [Run.exec_cons, ih (same.open isOpen) fits, same.produced]
      congr 1
      exact List.map_congr_left fun other member => World.response_congr server rfl
        (fits other member) same.caches same.database

/-- The rounds of a multishot read that brings one arrival after another. -/
def deliveries (index : Nat) (arrivals : List Arrival) : List Round :=
  arrivals.map fun arrival => ⟨.read index (.message 0 arrival) true, true, true⟩

/-- A multishot read that brings more stays armed. -/
theorem Open.delivery_reads {ip : UInt32} (isOpen : Open worker fd ip) {index : Nat}
    {read : ArmedRead} (armed : worker.reads[index]? = some read) (isFd : read.fd = fd)
    (multishot : read.multishot = true) (arrival : Arrival) :
    (worker.step server cassUuidFromString
      ⟨.read index (.message 0 arrival) true, true, true⟩).reads = worker.reads := by
  subst isFd
  obtain ⟨conn, isConn, isTcp⟩ := Option.map_eq_some_iff.mp isOpen.connection
  have type : conn.type = .TCP := congrArg Prod.fst isTcp
  rw [Worker.step, if_pos isOpen.running, Worker.handleEvent]
  simp only [armed, multishot, Bool.and_self, if_true, Worker.readCompleted, Worker.useBuffer,
    isConn, Worker.receive, type, Bool.true_or]
  rfl

/-- An open connection is served by the rounds of its multishot read. -/
theorem serves_deliveries {ip : UInt32} (isOpen : Open worker fd ip) {index : Nat}
    {read : ArmedRead} (armed : worker.reads[index]? = some read) (isFd : read.fd = fd)
    (multishot : read.multishot = true) (arrivals : List Arrival) :
    Serves server cassUuidFromString fd worker (deliveries index arrivals) arrivals := by
  induction arrivals generalizing worker with
  | nil => exact .nothing
  | cons arrival arrivals ih =>
      have delivers : Delivers worker fd ⟨.read index (.message 0 arrival) true, true, true⟩
          arrival := ⟨index, 0, true, read, rfl, armed, isFd⟩
      have stays : (worker.step server cassUuidFromString
          ⟨.read index (.message 0 arrival) true, true, true⟩).reads = worker.reads :=
        isOpen.delivery_reads server armed isFd multishot arrival
      refine .delivery delivers (ih (isOpen.delivery server delivers).isOpen ?_)
      rw [stays]
      exact armed

end Runs

/-! ## Two ways to cut a stream -/

/-- The stream of the messages, each behind its length, cut into reads that a buffer
holds. -/
structure Cut (messages segments : List (List UInt8)) : Prop where
  stream : segments.flatten = (messages.map (framed true)).flatten
  nonempty : ∀ segment ∈ segments, segment ≠ []
  fits : ∀ segment ∈ segments, segment.length ≤ receiveSize

/-- Payloads that arrive one after another, in given surroundings. -/
def arrivalsOf (around : Nat → Arrival) (payloads : List (List UInt8)) : List Arrival :=
  payloads.mapIdx fun index payload => { around index with payload := payload }

theorem arrivalsOf_fits {around : Nat → Arrival} {payloads : List (List UInt8)}
    (fits : ∀ payload ∈ payloads, payload.length ≤ receiveSize) :
    ∀ arrival ∈ arrivalsOf around payloads, arrival.payload.length ≤ receiveSize := by
  intro arrival member
  obtain ⟨index, inside, rfl⟩ := List.mem_mapIdx.mp member
  exact fits _ (List.getElem_mem inside)

/-- Two series of payloads in the same surroundings get the same responses exactly
when they ask the same. -/
theorem responses_eq_iff (server : Server) (world : World) (ip : UInt32) (around : Nat → Arrival)
    {payloads payloads' : List (List UInt8)}
    (fits : ∀ payload ∈ payloads, payload.length ≤ receiveSize)
    (fits' : ∀ payload ∈ payloads', payload.length ≤ receiveSize) :
    ((arrivalsOf around payloads).map fun arrival =>
        world.response server (arrival.request true ip)) =
      ((arrivalsOf around payloads').map fun arrival =>
        world.response server (arrival.request true ip)) ↔
      payloads.map asked = payloads'.map asked := by
  induction payloads generalizing payloads' around with
  | nil =>
      cases payloads' with
      | nil => exact iff_of_true rfl rfl
      | cons payload' payloads' =>
          refine iff_of_false (fun same => ?_) fun same => nomatch same
          rw [arrivalsOf, arrivalsOf, List.mapIdx_cons] at same
          cases same
  | cons payload payloads ih =>
      cases payloads' with
      | nil =>
          refine iff_of_false (fun same => ?_) fun same => nomatch same
          rw [arrivalsOf, arrivalsOf, List.mapIdx_cons] at same
          cases same
      | cons payload' payloads' =>
          have first := @World.response_eq_iff server world
            (Arrival.request { around 0 with payload := payload } true ip) payload' rfl
            (fits _ (List.mem_cons_self ..)) (fits' _ (List.mem_cons_self ..))
          have others := ih (fun index => around (index + 1))
            (fun other member => fits _ (List.mem_cons_of_mem _ member))
            (fun other member => fits' _ (List.mem_cons_of_mem _ member))
          rw [List.map_cons, List.map_cons, List.cons.injEq, ← others, arrivalsOf, arrivalsOf,
            List.mapIdx_cons, List.mapIdx_cons, List.map_cons, List.map_cons, List.cons.injEq]
          exact and_congr first Iff.rfl

/-- **Segments and messages.** However a stream is cut, the responses to its reads
are those to its messages, each in a read of its own, exactly when the reads ask
in turn what the messages ask. -/
theorem responses_agree_iff (server : Server) (cassUuidFromString : List UInt8 → Option CassUuid)
    {messages segments : List (List UInt8)}
    (short : ∀ message ∈ messages, message.length ≤ 1900) (cut : Cut messages segments)
    (around : Nat → Arrival) {worker : Worker} {fd : Nat} {ip : UInt32}
    (isOpen : Open worker fd ip) {rounds rounds' : List Round}
    (segmented : Serves server cassUuidFromString fd worker rounds (arrivalsOf around segments))
    (whole : Serves server cassUuidFromString fd worker rounds'
      (arrivalsOf around (messages.map (framed true)))) :
    (Run.exec (fun worker => Worker.step worker server cassUuidFromString) worker
        rounds).responses fd =
      (Run.exec (fun worker => Worker.step worker server cassUuidFromString) worker
        rounds').responses fd ↔
      segments.map asked = messages.map fun message => asked (framed true message) := by
  have fits : ∀ payload ∈ messages.map (framed true), payload.length ≤ receiveSize := by
    intro payload member
    obtain ⟨message, isMessage, rfl⟩ := List.mem_map.mp member
    have atMost := short message isMessage
    rw [framed, if_pos rfl, List.length_append, be16_length, receiveSize]
    omega
  rw [responses_of_serves server segmented isOpen (arrivalsOf_fits cut.fits),
    responses_of_serves server whole isOpen (arrivalsOf_fits fits), List.append_cancel_left_eq,
    responses_eq_iff server worker.world ip around cut.fits fits, List.map_map]
  rfl

/-! ## Two reads for a message -/

/-- A worker with one client over TCP. -/
def connectedWorker : Worker :=
  (Worker.start (World.start emptyDatabase) 3 4 5 []).step plainServer (fun _ => none)
    ⟨.accepted 0 9 0 [] true, true, true⟩

theorem connectedWorker_open : Open connectedWorker 9 0 := ⟨rfl, rfl⟩

theorem connectedWorker_serves (arrivals : List Arrival) :
    Serves plainServer (fun _ => none) 9 connectedWorker (deliveries 1 arrivals) arrivals :=
  @serves_deliveries plainServer _ connectedWorker 9 0 connectedWorker_open 1 ⟨9, 2, true⟩ rfl rfl
    rfl arrivals

/-- A query for the address of the name `a`, without its length. -/
def queryMessage : List UInt8 := [7, 7, 1, 0, 0, 1, 0, 0, 0, 0, 0, 0] ++ [1, 97, 0, 0, 1, 0, 1]

theorem responses_agree_whole :
    (Run.exec (fun worker => Worker.step worker plainServer fun _ => none) connectedWorker
        (deliveries 1 (arrivalsOf (fun _ => .plain []) [framed true queryMessage]))).responses 9 =
      (Run.exec (fun worker => Worker.step worker plainServer fun _ => none) connectedWorker
        (deliveries 1 (arrivalsOf (fun _ => .plain [])
          ([queryMessage].map (framed true))))).responses 9 ↔
      [framed true queryMessage].map asked =
        [queryMessage].map fun message => asked (framed true message) :=
  responses_agree_iff plainServer (fun _ => none) (by decide) ⟨by decide, by decide, by decide⟩
    (fun _ => .plain []) connectedWorker_open (connectedWorker_serves _) (connectedWorker_serves _)

/-- A message whose length is cut in two gets two responses. -/
theorem responses_split :
    Cut [queryMessage] [[0], (framed true queryMessage).tail] ∧
      (Run.exec (fun worker => Worker.step worker plainServer fun _ => none) connectedWorker
          (deliveries 1 (arrivalsOf (fun _ => .plain [])
            [[0], (framed true queryMessage).tail]))).responses 9 ≠
        (Run.exec (fun worker => Worker.step worker plainServer fun _ => none) connectedWorker
          (deliveries 1 (arrivalsOf (fun _ => .plain [])
            ([queryMessage].map (framed true))))).responses 9 := by
  refine ⟨⟨by decide, by decide, by decide⟩, fun same => ?_⟩
  rw [responses_of_serves plainServer (connectedWorker_serves _) connectedWorker_open
      (arrivalsOf_fits (by decide)),
    responses_of_serves plainServer (connectedWorker_serves _) connectedWorker_open
      (arrivalsOf_fits (by decide)), List.append_cancel_left_eq] at same
  have lengths := congrArg List.length same
  simp only [List.length_map] at lengths
  exact absurd lengths (by decide)

end EdgeDNS.Core
