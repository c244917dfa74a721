import EdgeDNS.Core.HandleEffects

/-!
# The responses of the handler

For a payload that the receive buffers can hold, the handler never leaves its
buffers and returns a response (`handle_responds`). The response is a header,
the question as it was received, the answers written and the OPT record, with
the length in front of it over TCP.

When the name of the query consists of valid labels, the reference decoder
reads the response back (`decodes`): it says what was encoded.
-/

set_option autoImplicit false

namespace EdgeDNS.Core

open Utils Wire

/-! ## Queries -/

/-- The size of a receive buffer. -/
def receiveSize : Nat := 2048

/-- The loop over the labels of a query ends at the given offset. -/
structure LabelsEnd (request : Request) (root : Nat) : Prop where
  walked : labelLoop (queryBuf request.payload) bufferSize (messageStart request.isTcp + 12) =
    .ok root
  after : messageStart request.isTcp + 12 ≤ root
  near : root ≤ receiveSize + 255

theorem messageStart_le (isTcp : Bool) : messageStart isTcp ≤ 2 := by
  cases isTcp <;> decide

/-- Whatever the payload holds, its labels end. -/
theorem labelsEnd {request : Request} (short : request.payload.length ≤ receiveSize) :
    ∃ root, LabelsEnd request root := by
  have start := messageStart_le request.isTcp
  have fits : request.payload.length ≤ bufferSize := Nat.le_trans short (by decide)
  have inside : receiveSize + 255 < (queryBuf request.payload).length := by
    rw [queryBuf_length]
    decide
  have zeros : ∀ offset, receiveSize ≤ offset → (queryBuf request.payload).getD offset 0 = 0 := by
    intro offset behind
    rw [queryBuf_getD fits, List.getD_eq_default _ _ (Nat.le_trans short behind)]
  have near : messageStart request.isTcp + 12 ≤ receiveSize + 255 := by
    simp only [receiveSize]
    omega
  have enough : receiveSize + 255 < bufferSize + (messageStart request.isTcp + 12) := by
    simp only [receiveSize, bufferSize]
    omega
  obtain ⟨root, walked, after, bound⟩ := labelLoop_ends inside zeros near enough
  exact ⟨root, walked, after, bound⟩

/-- A query whose labels end is parsed. -/
theorem LabelsEnd.parses {request : Request} {root : Nat} (ends : LabelsEnd request root) :
    parseQuery (queryBuf request.payload) request.isTcp =
      .ok (parsed (queryBuf request.payload) request.isTcp root) := by
  refine parseQuery_eq ends.walked ends.after ?_
  have near := ends.near
  rw [queryBuf_length, bufferSize]
  simp only [receiveSize] at near
  omega

/-- The loop walks over labels as they are encoded, to the root behind them. -/
theorem labelLoop_labels {buffer : List UInt8} {labels : List (List UInt8)}
    (nonempty : ∀ label ∈ labels, 1 ≤ label.length) (short : ∀ label ∈ labels, label.length ≤ 63)
    {left start : Nat} (enough : labels.length < left)
    (holds : Dns.encodeLabels labels <+: buffer.drop start) :
    labelLoop buffer left start = .ok (start + (Dns.encodeLabels labels).length - 1) := by
  induction labels generalizing left start with
  | nil =>
      obtain ⟨inside, isRoot⟩ := getD_of_isPrefix holds
      cases left with
      | zero => exact absurd enough (Nat.not_lt_zero _)
      | succ left =>
          simp only [labelLoop, readByte_eq inside, isRoot, ok_bind, if_true]
          rfl
  | cons label labels ih =>
      cases left with
      | zero => exact absurd enough (Nat.not_lt_zero _)
      | succ left =>
          have positive := nonempty label (List.mem_cons_self ..)
          have atMost := short label (List.mem_cons_self ..)
          have length : (UInt8.ofNat label.length).toNat = label.length :=
            Dns.ofNat8_toNat (by omega)
          have notRoot : UInt8.ofNat label.length ≠ 0 := Dns.ofNat8_ne_zero positive (by omega)
          rw [Dns.encodeLabels_cons] at holds ⊢
          obtain ⟨inside, isLength⟩ := getD_of_isPrefix holds
          have behind := prefix_behind holds
          rw [Dns.encodeLabel_length, Nat.add_comm label.length, ← Nat.add_assoc] at behind
          have others := ih (fun other member => nonempty other (List.mem_cons_of_mem _ member))
            (fun other member => short other (List.mem_cons_of_mem _ member))
            (Nat.lt_of_succ_lt_succ enough) behind
          have rootIs := Dns.encodeLabels_length_pos labels
          simp only [labelLoop, readByte_eq inside, isLength, ok_bind, notRoot, if_false, length,
            others, List.length_append, Dns.encodeLabel_length]
          congr 1
          omega

/-! ## Responses -/

section Responses

variable (server : Server) (database : Database) (caches : Caches) (request : Request)
  (query : Query)

/-- The answers that a query stands for. -/
def responseAnswers : List Answer :=
  if query.qclass = 1 ∧ query.qdcount = 1 then
    (matchedRecords database caches request query).flatMap
      (recordAnswers server database caches request)
  else []

/-- The records that a query queues. -/
def responseRecords : List Operational.Record :=
  if query.qclass = 1 ∧ query.qdcount = 1 then
    (matchedRecords database caches request query).flatMap
      (queuedRecord query (cachedRecords caches query ≠ []))
  else []

/-- The entries that a query queues. -/
def responseEntries : List Operational.Entry :=
  if query.qclass = 1 ∧ query.qdcount = 1 then
    (matchedRecords database caches request query).flatMap
      (recordEntries server database caches request)
  else []

end Responses

/-- The question of a query as it was received. -/
def questionBytes (request : Request) (query : Query) : List UInt8 :=
  ((queryBuf request.payload).drop (12 + messageStart request.isTcp)).take
    (query.questionEnd - (12 + messageStart request.isTcp))

/-- A response without the length in front of it. -/
def responseMessage (request : Request) (query : Query) (truncated : Bool)
    (written : List Answer) : List UInt8 :=
  header query (finalFlags query truncated) (UInt16.ofNat written.length) 1 ++
    (questionBytes request query ++ written.flatMap (Answer.bytes query.qtype)) ++
    Dns.encodeRecord optRecord

/-- A message as it is sent. -/
def framed (isTcp : Bool) (message : List UInt8) : List UInt8 :=
  if isTcp then be16 (UInt16.ofNat message.length) ++ message else message

/-- What the handler returns and leaves behind for a query. -/
structure Responds (server : Server) (database : Database) (caches : Caches)
    (recordQueue : List Operational.Record) (entryQueue : List Operational.Entry)
    (request : Request) (query : Query) (written : List Answer) (handled : Handled) : Prop where
  out : handled.out =
    framed request.isTcp (responseMessage request query handled.truncated written)
  first : written <+: responseAnswers server database caches request query
  complete : handled.truncated = false →
    written = responseAnswers server database caches request query
  small : ∀ item ∈ written, item.rdata.length < bufferSize
  room : (responseMessage request query handled.truncated written).length ≤ answerRoom + 11
  notClamped : handled.clamped = false
  recordQueue : handled.recordQueue =
    recordQueue ++ responseRecords database caches request query
  entryQueue : handled.entryQueue =
    entryQueue ++ responseEntries server database caches request query
  leads : query.qclass = 1 ∧ query.qdcount = 1 →
    LeadsWith server request query (matchedRecords database caches request query)
      (12 + (questionBytes request query).length) written

variable (server : Server) (database : Database) (caches : Caches)
  (recordQueue : List Operational.Record) (entryQueue : List Operational.Entry)
  (rrlBuckets : RRLKey → RRLBucket) {request : Request}

/-- The loop over the matched records, and no loop when the query is refused. -/
theorem answerRecords_emits (query : Query) {state : Answering}
    (room : state.out.length ≤ answerRoom) :
    ∃ after written,
      answerRecords server database caches request query state = .ok after ∧
        Emits query (responseAnswers server database caches request query) written
          (responseRecords database caches request query)
          (responseEntries server database caches request query) state after ∧
        after.out.length ≤ answerRoom ∧
        (state.truncated = false → query.qclass = 1 ∧ query.qdcount = 1 →
          LeadsWith server request query (matchedRecords database caches request query)
            state.out.length written) := by
  by_cases accepted : query.qclass = 1 ∧ query.qdcount = 1
  · obtain ⟨after, written, looped, emits, lastRoom, leads⟩ :=
      answerList_emits server database caches request query (cachedRecords caches query ≠ [])
        (getHostWire server query (cachedRecords caches query ≠ []))
        (matchedRecords database caches request query) room
    refine ⟨after, written, ?_, ?_, lastRoom, fun notYet _ => leads notYet⟩
    · simp only [answerRecords, accepted]
      exact looped
    · simpa only [responseAnswers, responseRecords, responseEntries, accepted, and_self, if_true]
        using emits
  · refine ⟨state, [], ?_, ?_, room, fun _ isAccepted => absurd isAccepted accepted⟩
    · simp only [answerRecords, accepted, if_false]
      rfl
    · simpa only [responseAnswers, responseRecords, responseEntries, accepted, if_false]
        using Emits.refl state

/-- The state of the answer loops when they begin: the header and the question are
written. -/
def openedState (request : Request) (query : Query) (recordQueue : List Operational.Record)
    (entryQueue : List Operational.Entry) (rrlBuckets : RRLKey → RRLBucket) : Answering where
  out := header query (responseFlags query) 0 0 ++ questionBytes request query
  truncated := false
  anc := 0
  recordQueue := recordQueue
  entryQueue := entryQueue
  rrlBuckets := rrlBuckets

/-- The question of a query whose labels end leaves room for the answers. -/
theorem LabelsEnd.openedRoom {root : Nat} (ends : LabelsEnd request root) :
    (openedState request (parsed (queryBuf request.payload) request.isTcp root) recordQueue
      entryQueue rrlBuckets).out.length ≤ answerRoom := by
  have near := ends.near
  have start := messageStart_le request.isTcp
  have length : (questionBytes request
      (parsed (queryBuf request.payload) request.isTcp root)).length ≤
        root + 5 - (12 + messageStart request.isTcp) := List.length_take_le ..
  rw [openedState, List.length_append, header_length, answerRoom, bufferSize]
  simp only [receiveSize] at near
  omega

/-- The handler, once it is known what the answer loops leave behind. -/
theorem handle_eq {root : Nat} (ends : LabelsEnd request root) {query : Query}
    (isQuery : query = parsed (queryBuf request.payload) request.isTcp root) {state : Answering}
    {written : List Answer}
    (answered : answerRecords server database caches request query
      (openedState request query recordQueue entryQueue rrlBuckets) = .ok state)
    (out : state.out = header query (responseFlags query) 0 0 ++
      (questionBytes request query ++ written.flatMap (Answer.bytes query.qtype)))
    (count : state.anc = UInt16.ofNat written.length) (room : state.out.length ≤ answerRoom) :
    handle server database caches recordQueue entryQueue rrlBuckets request = .ok
        { out := framed request.isTcp (responseMessage request query state.truncated written)
          truncated := state.truncated, clamped := false, recordQueue := state.recordQueue
          entryQueue := state.entryQueue, rrlBuckets := state.rrlBuckets } ∧
      (responseMessage request query state.truncated written).length ≤ answerRoom + 11 := by
  have near := ends.near
  simp only [receiveSize] at near
  have start := messageStart_le request.isTcp
  have size := queryBuf_length request.payload
  have parses : parseQuery (queryBuf request.payload) request.isTcp = .ok query := by
    rw [isQuery]
    exact ends.parses
  have questionEnd : query.questionEnd = root + 5 := by rw [isQuery]; rfl
  have opens := @openResponse_eq (queryBuf request.payload) request.isTcp query
    (by rw [questionEnd, size, bufferSize]; omega) (by rw [questionEnd, bufferSize]; omega)
  rw [← questionBytes] at opens
  have closes := closeMessage_eq out room
  rw [count, ← responseMessage] at closes
  have messageRoom : (responseMessage request query state.truncated written).length ≤
      answerRoom + 11 := by
    rw [out, List.length_append, header_length] at room
    rw [responseMessage, List.length_append, List.length_append, header_length]
    exact Nat.add_le_add_right room 11
  have sends : frameMessage request.isTcp
      (responseMessage request query state.truncated written) =
        .ok (framed request.isTcp (responseMessage request query state.truncated written)) := by
    rw [frameMessage, framed]
    split
    · rw [if_pos]
      simp only [answerRoom, bufferSize] at messageRoom ⊢
      omega
    · rfl
  refine ⟨?_, messageRoom⟩
  rw [openedState] at answered
  simp only [handle, parses, ok_bind, opens, answered, closes, sends]
  rfl

/-- The handler on a query whose labels end. -/
theorem handle_of_labelsEnd {root : Nat} (ends : LabelsEnd request root) :
    ∃ handled written,
      handle server database caches recordQueue entryQueue rrlBuckets request = .ok handled ∧
        Responds server database caches recordQueue entryQueue request
          (parsed (queryBuf request.payload) request.isTcp root) written handled := by
  obtain ⟨query, isQuery⟩ : ∃ query, query = parsed (queryBuf request.payload) request.isTcp root :=
    ⟨_, rfl⟩
  have firstRoom := ends.openedRoom recordQueue entryQueue rrlBuckets
  rw [← isQuery] at firstRoom ⊢
  obtain ⟨state, written, answered, emits, lastRoom, leads⟩ :=
    answerRecords_emits server database caches query firstRoom
  have out : state.out = header query (responseFlags query) 0 0 ++
      (questionBytes request query ++ written.flatMap (Answer.bytes query.qtype)) := by
    rw [emits.out, openedState, List.append_assoc]
  have count : state.anc = UInt16.ofNat written.length := by
    rw [emits.count]
    exact UInt16.zero_add _
  obtain ⟨runs, room⟩ := handle_eq server database caches recordQueue entryQueue rrlBuckets ends
    isQuery answered out count lastRoom
  refine ⟨_, written, runs, ?_⟩
  exact
    { out := rfl, first := emits.first, complete := emits.complete, small := emits.small
      room := room, notClamped := rfl, recordQueue := emits.records
      entryQueue := emits.entries
      leads := fun accepted => by
        have first := leads rfl accepted
        rwa [openedState, List.length_append, header_length] at first }

/-- **Every payload that can be received is answered**, without a step outside
of the buffers. -/
theorem handle_responds (short : request.payload.length ≤ receiveSize) :
    ∃ handled query written,
      handle server database caches recordQueue entryQueue rrlBuckets request = .ok handled ∧
        parseQuery (queryBuf request.payload) request.isTcp = .ok query ∧
        Responds server database caches recordQueue entryQueue request query written handled := by
  obtain ⟨root, ends⟩ := labelsEnd short
  obtain ⟨handled, written, runs, responds⟩ :=
    handle_of_labelsEnd server database caches recordQueue entryQueue rrlBuckets ends
  exact ⟨handled, _, written, runs, ends.parses, responds⟩

theorem framed_length_le (isTcp : Bool) (message : List UInt8) :
    (framed isTcp message).length ≤ message.length + 2 := by
  rw [framed]
  split
  · rw [List.length_append, be16_length]
    omega
  · omega

/-- **The handler stays inside its buffers** on whatever it receives. -/
theorem handle_stays_inside (server : Server) (database : Database) (caches : Caches)
    (recordQueue : List Operational.Record) (entryQueue : List Operational.Entry)
    (rrlBuckets : RRLKey → RRLBucket) (request : Request)
    (short : request.payload.length ≤ receiveSize) :
    ∃ handled,
      handle server database caches recordQueue entryQueue rrlBuckets request = .ok handled ∧
        handled.clamped = false ∧ handled.out.length ≤ bufferSize := by
  obtain ⟨handled, query, written, runs, -, responds⟩ := handle_responds server database caches
    recordQueue entryQueue rrlBuckets short
  refine ⟨handled, runs, responds.notClamped, ?_⟩
  have room := responds.room
  have framing := framed_length_le request.isTcp
    (responseMessage request query handled.truncated written)
  rw [responds.out]
  simp only [answerRoom, bufferSize] at room ⊢
  omega

/-- A server that finds nothing anywhere. -/
def emptyDatabase : Database := ⟨fun _ _ _ => [], fun _ _ => []⟩

/-- The caches of new files. -/
def freshCaches : Caches := ⟨.fresh, .fresh⟩

/-- A server without a rate limit that knows no country. -/
def plainServer : Server where
  proxyId := ⟨0, 0⟩
  getCountry _ := .empty

/-- A query over UDP from a client whose address is not looked at. -/
def datagram (payload : List UInt8) : Request where
  payload := payload
  isTcp := false
  ip := 0
  ipStr := []
  now := 0
  behindName := []
  behindZone := []

/-- A query over UDP for the address of the name `a`. -/
def addressQuery : Request :=
  datagram ([7, 7, 1, 0, 0, 1, 0, 0, 0, 0, 0, 0] ++ [1, 97, 0, 0, 1, 0, 1])

/-- A query over UDP for the text of the name `a`, without an OPT record. -/
def textQuery : Request :=
  datagram ([7, 7, 1, 0, 0, 1, 0, 0, 0, 0, 0, 0] ++ [1, 97, 0, 0, 16, 0, 1])

/-- A record of 300 bytes, of which one fits a datagram and two do not. -/
def longRecord : Records.DNSResponseData :=
  ⟨60, 0, List.replicate 300 97, ⟨0, 0⟩, ⟨0, 0⟩, 0, false, false⟩

/-- A database with two long records under every name. -/
def twoRecords : Database where
  getRecord _ _ _ := [longRecord, longRecord]
  getIpGroupEntriesCountryBased _ _ := []

/-- Label lengths that lead as far out of the payload as they can. -/
theorem handle_stays_inside_hostile :
    ∃ handled,
      handle plainServer emptyDatabase freshCaches [] [] (fun _ => ⟨0, 0⟩)
          (datagram (List.replicate 2048 255)) = .ok handled ∧
        handled.clamped = false ∧ handled.out.length ≤ bufferSize :=
  handle_stays_inside plainServer emptyDatabase freshCaches [] [] (fun _ => ⟨0, 0⟩)
    (datagram (List.replicate 2048 255)) (Nat.le_of_eq List.length_replicate)

/-! ## What a response says -/

/-- A response without the length that stands in front of it over TCP. -/
def unframed (isTcp : Bool) (out : List UInt8) : List UInt8 := if isTcp then out.drop 2 else out

theorem unframed_framed (isTcp : Bool) (message : List UInt8) :
    unframed isTcp (framed isTcp message) = message := by
  cases isTcp <;> rfl

/-- What a decoder finds in the response to a query for the given labels: the
question as it was received, answers that are the first of those the query
stands for, each in the name of the question, and the OPT record. -/
structure SaysBack (server : Server) (database : Database) (caches : Caches) (request : Request)
    (labels : List (List UInt8)) (query : Query) (truncated : Bool) (bytes : List UInt8)
    (message : Dns.Message) : Prop where
  id : message.id = wordAt (queryBuf request.payload) (messageStart request.isTcp)
  question : message.questions = [⟨⟨labels, none⟩, query.qtype, query.qclass⟩]
  qtype : query.qtype = wordAt (queryBuf request.payload)
    (messageStart request.isTcp + 12 + (Dns.encodeLabels labels).length)
  qclass : query.qclass = wordAt (queryBuf request.payload)
    (messageStart request.isTcp + 12 + (Dns.encodeLabels labels).length + 2)
  copied : (bytes.drop 12).take ((Dns.encodeLabels labels).length + 4) =
    ((queryBuf request.payload).drop (messageStart request.isTcp + 12)).take
      ((Dns.encodeLabels labels).length + 4)
  answers : ∃ written, written <+: responseAnswers server database caches request query ∧
    (truncated = false → written = responseAnswers server database caches request query) ∧
    message.answers = written.map (Answer.record query.qtype)
  counts : wordAt bytes 4 = 1 ∧ (wordAt bytes 6).toNat = message.answers.length ∧
    wordAt bytes 8 = 0 ∧ wordAt bytes 10 = 1
  authorities : message.authorities = []
  additionals : message.additionals = [optRecord]

/-- The answers of a response are short enough to be counted. -/
theorem written_length_le (qtype : UInt16) (written : List Answer) :
    written.length ≤ (written.flatMap (Answer.bytes qtype)).length := by
  induction written with
  | nil => exact Nat.zero_le _
  | cons item written ih =>
      have length := item.bytes_length qtype
      rw [List.length_cons, List.flatMap_cons, List.length_append]
      omega

/-- The message that a response encodes. -/
def saidMessage (query : Query) (labels : List (List UInt8)) (truncated : Bool)
    (written : List Answer) : Dns.Message where
  id := query.transactionId
  flags := finalFlags query truncated
  questions := [⟨⟨labels, none⟩, query.qtype, query.qclass⟩]
  answers := written.map (Answer.record query.qtype)
  authorities := []
  additionals := [optRecord]

theorem saidMessage_encodable {query : Query} {labels : List (List UInt8)} {truncated : Bool}
    {written : List Answer} (valid : Dns.ValidLabels labels)
    (small : ∀ item ∈ written, item.rdata.length < bufferSize)
    (few : written.length < 2 ^ 16) :
    (saidMessage query labels truncated written).Encodable where
  questions question member := by
    rw [List.mem_singleton.mp member]
    exact ⟨valid, fun _ impossible => absurd impossible (Option.not_mem_none _)⟩
  answers record member := by
    obtain ⟨item, isWritten, rfl⟩ := List.mem_map.mp member
    have atMost := item.data_length_le query.qtype
    have below := small item isWritten
    rw [bufferSize] at below
    refine ⟨Dns.Name.encodable_of_noLabels fun offset isOffset => ?_, ?_⟩
    · rw [← Option.mem_some.mp isOffset]
      decide
    · calc (item.data query.qtype).length ≤ item.rdata.length + 2 := atMost
        _ < 2 ^ 16 := by omega
  authorities _ impossible := absurd impossible List.not_mem_nil
  additionals record member := by
    rw [List.mem_singleton.mp member]
    refine ⟨Dns.Name.encodable_of_noLabels fun _ impossible => ?_, by decide⟩
    exact absurd impossible (Option.not_mem_none _)
  questionCount := Nat.one_lt_two_pow (by decide)
  answerCount := by
    rw [saidMessage, List.length_map]
    exact few
  authorityCount := Nat.two_pow_pos 16
  additionalCount := Nat.one_lt_two_pow (by decide)

/-- The bytes of a response are the encoding of its message. -/
theorem encode_saidMessage {query : Query} {labels : List (List UInt8)} {truncated : Bool}
    {written : List Answer} {request : Request}
    (question : questionBytes request query =
      Dns.encodeLabels labels ++ be16 query.qtype ++ be16 query.qclass) :
    Dns.encodeMessage (saidMessage query labels truncated written) =
      responseMessage request query truncated written := by
  simp only [Dns.encodeMessage, saidMessage, responseMessage, header, question,
    Dns.encodeQuestion, Dns.encodeName, Dns.encodeEnd, Dns.encodeLabels, List.flatMap_cons,
    List.flatMap_nil, List.append_nil, List.flatMap_map, List.length_map, List.length_singleton,
    List.append_assoc]
  rfl

/-- The two bytes at an offset of a buffer are those of the word there. -/
theorem take_word {buffer : List UInt8} {offset : Nat} (inside : offset + 1 < buffer.length)
    (count : Nat) :
    (buffer.drop offset).take (count + 2) =
      be16 (wordAt buffer offset) ++ (buffer.drop (offset + 2)).take count := by
  rw [List.drop_eq_getElem_cons (by omega), List.drop_eq_getElem_cons inside, wordAt,
    be16_word16, List.getD_eq_getElem _ _ inside, List.getD_eq_getElem _ _ (by omega)]
  rfl

/-- The question of a query for valid labels. -/
theorem questionBytes_eq {request : Request} {labels : List (List UInt8)} {root : Nat}
    (holds : Dns.encodeLabels labels <+:
      (queryBuf request.payload).drop (messageStart request.isTcp + 12))
    (isRoot : root + 1 = messageStart request.isTcp + 12 + (Dns.encodeLabels labels).length)
    (inside : root + 5 ≤ bufferSize) :
    questionBytes request (parsed (queryBuf request.payload) request.isTcp root) =
      Dns.encodeLabels labels ++ (be16 (wordAt (queryBuf request.payload) (root + 1)) ++
        be16 (wordAt (queryBuf request.payload) (root + 3))) := by
  have size := queryBuf_length request.payload
  have count : root + 5 - (12 + messageStart request.isTcp) =
      (Dns.encodeLabels labels).length + 4 := by omega
  have behind : (queryBuf request.payload).drop (12 + messageStart request.isTcp) =
      Dns.encodeLabels labels ++ (queryBuf request.payload).drop (root + 1) := by
    obtain ⟨rest, split⟩ := holds
    have further : ((queryBuf request.payload).drop (messageStart request.isTcp + 12)).drop
        (Dns.encodeLabels labels).length = (queryBuf request.payload).drop (root + 1) := by
      rw [List.drop_drop, isRoot]
    rw [Nat.add_comm 12, ← further, ← split, List.drop_left]
  have types := @take_word (queryBuf request.payload) (root + 1) (by rw [size]; omega) 2
  have classes := @take_word (queryBuf request.payload) (root + 3) (by rw [size]; omega) 0
  rw [questionBytes, parsed, count, behind, List.take_length_add_append, types, classes,
    List.take_zero, List.append_nil]

/-- The labels of a query end behind a name of valid labels. -/
theorem LabelsEnd.of_labels {request : Request} {labels : List (List UInt8)}
    (valid : Dns.ValidLabels labels)
    (holds : Dns.encodeLabels labels <+:
      (queryBuf request.payload).drop (messageStart request.isTcp + 12)) :
    LabelsEnd request
      (messageStart request.isTcp + 12 + (Dns.encodeLabels labels).length - 1) where
  walked := by
    have count := valid.count_le
    refine labelLoop_labels valid.nonempty valid.short ?_ holds
    rw [bufferSize]
    omega
  after := by
    have positive := Dns.encodeLabels_length_pos labels
    omega
  near := by
    have start := messageStart_le request.isTcp
    have total := valid.total
    rw [receiveSize]
    omega

/-- What a query for valid labels is parsed to. -/
structure ParsesLabels (request : Request) (labels : List (List UInt8)) (query : Query) : Prop where
  parses : parseQuery (queryBuf request.payload) request.isTcp = .ok query
  id : query.transactionId = wordAt (queryBuf request.payload) (messageStart request.isTcp)
  name : query.nameWire = (Dns.encodeLabels labels).map lowerByte
  qtype : query.qtype = wordAt (queryBuf request.payload)
    (messageStart request.isTcp + 12 + (Dns.encodeLabels labels).length)
  qclass : query.qclass = wordAt (queryBuf request.payload)
    (messageStart request.isTcp + 12 + (Dns.encodeLabels labels).length + 2)
  qdcount : query.qdcount = wordAt (queryBuf request.payload) (messageStart request.isTcp + 4)
  ednsClass : query.ednsClass = wordAt (queryBuf request.payload)
    (messageStart request.isTcp + 12 + (Dns.encodeLabels labels).length + 7)
  question : questionBytes request query =
    Dns.encodeLabels labels ++ be16 query.qtype ++ be16 query.qclass
  received : questionBytes request query =
    ((queryBuf request.payload).drop (messageStart request.isTcp + 12)).take
      ((Dns.encodeLabels labels).length + 4)

/-- A query for valid labels is parsed to these labels. -/
theorem parsesLabels {labels : List (List UInt8)} {root : Nat} (ends : LabelsEnd request root)
    (valid : Dns.ValidLabels labels)
    (holds : Dns.encodeLabels labels <+:
      (queryBuf request.payload).drop (messageStart request.isTcp + 12))
    (isRoot : root + 1 = messageStart request.isTcp + 12 + (Dns.encodeLabels labels).length) :
    ParsesLabels request labels (parsed (queryBuf request.payload) request.isTcp root) where
  parses := ends.parses
  id := rfl
  name := by
    have total := valid.total
    have length : min (root + 1 - (messageStart request.isTcp + 12)) nameSize =
        (Dns.encodeLabels labels).length := by
      rw [nameSize]
      omega
    have behind : ((queryBuf request.payload).drop (messageStart request.isTcp + 12)).take
        (Dns.encodeLabels labels).length = Dns.encodeLabels labels :=
      (List.prefix_iff_eq_take.mp holds).symm
    have name : (parsed (queryBuf request.payload) request.isTcp root).nameWire =
        (((queryBuf request.payload).drop (messageStart request.isTcp + 12)).take
          (min (root + 1 - (messageStart request.isTcp + 12)) nameSize)).map lowerByte := rfl
    rw [name, length, behind]
  qtype := by rw [← isRoot]; rfl
  qclass := by rw [← isRoot]; rfl
  qdcount := rfl
  ednsClass := by rw [← isRoot]; rfl
  question := by
    have near := ends.near
    have inside : root + 5 ≤ bufferSize := by
      simp only [receiveSize, bufferSize] at near ⊢
      omega
    rw [questionBytes_eq holds isRoot inside, List.append_assoc]
    rfl
  received := by
    have questionEnd : (parsed (queryBuf request.payload) request.isTcp root).questionEnd =
      root + 5 := rfl
    rw [questionBytes, questionEnd, Nat.add_comm 12]
    congr 1
    omega

/-- Every query for valid labels is parsed. -/
theorem parses_of_labels {labels : List (List UInt8)} (valid : Dns.ValidLabels labels)
    (holds : Dns.encodeLabels labels <+:
      (queryBuf request.payload).drop (messageStart request.isTcp + 12)) :
    ∃ query, ParsesLabels request labels query := by
  have positive := Dns.encodeLabels_length_pos labels
  exact ⟨_, parsesLabels (LabelsEnd.of_labels valid holds) valid holds (by omega)⟩

/-- The handler on a query for valid labels. -/
theorem handle_of_labels {labels : List (List UInt8)} (valid : Dns.ValidLabels labels)
    (holds : Dns.encodeLabels labels <+:
      (queryBuf request.payload).drop (messageStart request.isTcp + 12)) :
    ∃ handled query written,
      handle server database caches recordQueue entryQueue rrlBuckets request = .ok handled ∧
        ParsesLabels request labels query ∧
        Responds server database caches recordQueue entryQueue request query written handled := by
  have ends := LabelsEnd.of_labels valid holds
  have positive := Dns.encodeLabels_length_pos labels
  obtain ⟨handled, written, runs, responds⟩ := handle_of_labelsEnd server database caches
    recordQueue entryQueue rrlBuckets ends
  exact ⟨handled, _, written, runs, parsesLabels ends valid holds (by omega), responds⟩

section Decoding

variable {server : Server} {database : Database} {caches : Caches}
  {recordQueue : List Operational.Record} {entryQueue : List Operational.Entry}
  {query : Query} {written : List Answer} {handled : Handled} {labels : List (List UInt8)}

theorem Responds.content
    (responds : Responds server database caches recordQueue entryQueue request query written
      handled) :
    unframed request.isTcp handled.out =
      responseMessage request query handled.truncated written := by
  rw [responds.out, unframed_framed]

theorem Responds.few
    (responds : Responds server database caches recordQueue entryQueue request query written
      handled) : written.length < 2 ^ 16 := by
  have room := responds.room
  have counted := written_length_le query.qtype written
  simp only [responseMessage, List.length_append, answerRoom, bufferSize] at room
  omega

/-- The decoder reads the message of a response. -/
theorem Responds.decodes
    (responds : Responds server database caches recordQueue entryQueue request query written
      handled) (valid : Dns.ValidLabels labels) (asked : ParsesLabels request labels query) :
    Dns.decodeMessage (unframed request.isTcp handled.out) =
      some (saidMessage query labels handled.truncated written) := by
  rw [responds.content, ← encode_saidMessage asked.question]
  exact Dns.decodeMessage_encode (saidMessage_encodable valid responds.small responds.few)

theorem wordAt_front (word : UInt16) (rest : List UInt8) : wordAt (be16 word ++ rest) 0 = word :=
  word16_be16 word

/-- Over TCP the length in front of a response is that of the rest. -/
theorem Responds.framing
    (responds : Responds server database caches recordQueue entryQueue request query written
      handled) (overTcp : request.isTcp = true) :
    (wordAt handled.out 0).toNat = (unframed request.isTcp handled.out).length := by
  have room := responds.room
  rw [responds.content, responds.out, framed, if_pos overTcp, wordAt_front]
  refine Dns.ofNat16_toNat ?_
  simp only [answerRoom, bufferSize] at room
  omega

/-- The counts in a header. -/
theorem wordAt_header (query : Query) (flags ancount arcount : UInt16) (body : List UInt8) :
    wordAt (header query flags ancount arcount ++ body) 4 = 1 ∧
      wordAt (header query flags ancount arcount ++ body) 6 = ancount ∧
      wordAt (header query flags ancount arcount ++ body) 8 = 0 ∧
      wordAt (header query flags ancount arcount ++ body) 10 = arcount :=
  ⟨word16_be16 1, word16_be16 ancount, word16_be16 0, word16_be16 arcount⟩

/-- The message of a response says what was asked and answered. -/
theorem Responds.saysBack
    (responds : Responds server database caches recordQueue entryQueue request query written
      handled) (asked : ParsesLabels request labels query) :
    SaysBack server database caches request labels query handled.truncated
      (unframed request.isTcp handled.out)
      (saidMessage query labels handled.truncated written) where
  id := asked.id
  question := rfl
  qtype := asked.qtype
  qclass := asked.qclass
  copied := by
    have length : (questionBytes request query).length =
        (Dns.encodeLabels labels).length + 4 := by
      rw [asked.question]
      simp only [List.length_append, be16_length]
    rw [responds.content, ← asked.received, ← length, responseMessage, List.append_assoc,
      List.append_assoc, List.drop_append_of_le_length (Nat.le_refl 12)]
    exact List.take_left
  answers := ⟨written, responds.first, responds.complete, rfl⟩
  counts := by
    rw [responds.content, responseMessage, List.append_assoc]
    obtain ⟨qdcount, ancount, nscount, arcount⟩ := wordAt_header query
      (finalFlags query handled.truncated) (UInt16.ofNat written.length) 1
      (questionBytes request query ++ written.flatMap (Answer.bytes query.qtype) ++
        Dns.encodeRecord optRecord)
    refine ⟨qdcount, ?_, nscount, arcount⟩
    rw [ancount, Dns.ofNat16_toNat responds.few, saidMessage, List.length_map]
  authorities := rfl
  additionals := rfl

end Decoding

/-- **A response says what was encoded.** The reference decoder reads all of
it, and finds the question, the answers and the OPT record. -/
theorem response_decodes (request : Request) (labels : List (List UInt8))
    (valid : Dns.ValidLabels labels)
    (holds : Dns.encodeLabels labels <+:
      (queryBuf request.payload).drop (messageStart request.isTcp + 12)) :
    ∃ handled query message,
      handle server database caches recordQueue entryQueue rrlBuckets request = .ok handled ∧
        parseQuery (queryBuf request.payload) request.isTcp = .ok query ∧
        (request.isTcp = true → (wordAt handled.out 0).toNat =
          (unframed request.isTcp handled.out).length) ∧
        Dns.decodeMessage (unframed request.isTcp handled.out) = some message ∧
        SaysBack server database caches request labels query handled.truncated
          (unframed request.isTcp handled.out) message := by
  obtain ⟨handled, query, written, runs, asked, responds⟩ := handle_of_labels server database
    caches recordQueue entryQueue rrlBuckets valid holds
  exact ⟨handled, query, saidMessage query labels handled.truncated written, runs, asked.parses,
    responds.framing, responds.decodes valid asked, responds.saysBack asked⟩

/-- A query over TCP for the address of the name `a`. -/
def streamQuery : Request :=
  { addressQuery with payload := [0, 19] ++ addressQuery.payload, isTcp := true }

theorem validLabels_a : Dns.ValidLabels [[97]] := ⟨by decide, by decide, by decide⟩

/-- The answer for two long records. -/
theorem response_decodes_a :
    ∃ handled query message,
      handle plainServer twoRecords freshCaches [] [] (fun _ => ⟨0, 0⟩) streamQuery =
          .ok handled ∧
        parseQuery (queryBuf streamQuery.payload) streamQuery.isTcp = .ok query ∧
        (streamQuery.isTcp = true → (wordAt handled.out 0).toNat =
          (unframed streamQuery.isTcp handled.out).length) ∧
        Dns.decodeMessage (unframed streamQuery.isTcp handled.out) = some message ∧
        SaysBack plainServer twoRecords freshCaches streamQuery [[97]] query
          handled.truncated (unframed streamQuery.isTcp handled.out) message :=
  response_decodes plainServer twoRecords freshCaches [] [] (fun _ => ⟨0, 0⟩) streamQuery [[97]]
    validLabels_a (by decide +kernel)

end EdgeDNS.Core
