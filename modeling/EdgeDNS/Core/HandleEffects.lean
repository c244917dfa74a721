import EdgeDNS.Core.Handle

/-!
# What the handler reads and writes

One lemma for each part of the handler. The reads give the bytes of the
payload, filled up with zeros; the loop over the labels ends at the latest 255
bytes behind the payload. The writes append, and a chain of writes is one write
(`put_bind_put`).

`Emits` says what a part of the answer loops does to its state: which of the
answers it was given it has written, that these are the first ones and all of
them unless the response is truncated, and what it has queued. It composes
along the loops (`Emits.trans`).
-/

set_option autoImplicit false

namespace EdgeDNS.Core

open Utils Wire

/-! ## Reads -/

theorem queryBuf_length (payload : List UInt8) : (queryBuf payload).length = bufferSize := by
  rw [queryBuf, List.length_append, List.length_replicate, List.length_take]
  omega

/-- The buffer holds the payload, and zeros behind it. -/
theorem queryBuf_getD {payload : List UInt8} (fits : payload.length ≤ bufferSize) (offset : Nat) :
    (queryBuf payload).getD offset 0 = payload.getD offset 0 := by
  rw [queryBuf, List.take_of_length_le fits]
  simp only [List.getD_eq_getElem?_getD, List.getElem?_append, List.getElem?_replicate]
  split
  · rfl
  · next behind =>
      rw [List.getElem?_eq_none (Nat.le_of_not_lt behind)]
      split <;> rfl

theorem readByte_eq {buffer : List UInt8} {offset : Nat} (inside : offset < buffer.length) :
    readByte buffer offset = .ok (buffer.getD offset 0) := if_pos inside

/-- The word at an offset of a buffer. -/
def wordAt (buffer : List UInt8) (offset : Nat) : UInt16 :=
  word16 (buffer.getD offset 0) (buffer.getD (offset + 1) 0)

theorem read16_eq {buffer : List UInt8} {offset : Nat} (inside : offset + 1 < buffer.length) :
    read16 buffer offset = .ok (wordAt buffer offset) := by
  rw [read16, readByte_eq (by omega), readByte_eq inside]
  rfl

theorem copyBytes_eq {buffer : List UInt8} {start count : Nat}
    (inside : start + count ≤ buffer.length) :
    copyBytes buffer start count = .ok ((buffer.drop start).take count) := if_pos inside

/-- The loop over the labels ends soon behind the last byte that is not zero. -/
theorem labelLoop_ends {buffer : List UInt8} {size : Nat} (inside : size + 255 < buffer.length)
    (zeros : ∀ offset, size ≤ offset → buffer.getD offset 0 = 0) {left start : Nat}
    (near : start ≤ size + 255) (enough : size + 255 < left + start) :
    ∃ root, labelLoop buffer left start = .ok root ∧ start ≤ root ∧ root ≤ size + 255 := by
  induction left generalizing start with
  | zero => omega
  | succ left ih =>
      have read : readByte buffer start = .ok (buffer.getD start 0) :=
        readByte_eq (Nat.lt_of_le_of_lt near inside)
      by_cases isRoot : buffer.getD start 0 = 0
      · refine ⟨start, ?_, Nat.le_refl _, near⟩
        simp only [labelLoop, read, isRoot, if_true, bind, Except.bind, pure, Except.pure]
      · have small := (buffer.getD start 0).toNat_lt
        have inPayload : start < size := by
          by_contra behind
          exact isRoot (zeros start (Nat.le_of_not_lt behind))
        have nextNear : start + 1 + (buffer.getD start 0).toNat ≤ size + 255 := by omega
        have nextEnough : size + 255 < left + (start + 1 + (buffer.getD start 0).toNat) := by omega
        obtain ⟨root, walked, after, bound⟩ := ih nextNear nextEnough
        refine ⟨root, ?_, by omega, bound⟩
        simp only [labelLoop, read, isRoot, if_false, bind, Except.bind, walked]

/-- The query that a buffer holds when its labels end at the given offset. -/
def parsed (buffer : List UInt8) (isTcp : Bool) (root : Nat) : Query :=
  let start := messageStart isTcp
  { transactionId := wordAt buffer start, flags := wordAt buffer (start + 2)
    qdcount := wordAt buffer (start + 4)
    nameWire := ((buffer.drop (start + 12)).take
      (min (root + 1 - (start + 12)) nameSize)).map lowerByte
    qtype := wordAt buffer (root + 1), qclass := wordAt buffer (root + 3)
    questionEnd := root + 5, ednsClass := wordAt buffer (root + 8) }

/-- **Parsing succeeds** when the labels end early enough. -/
theorem parseQuery_eq {buffer : List UInt8} {isTcp : Bool} {root : Nat}
    (walked : labelLoop buffer bufferSize (messageStart isTcp + 12) = .ok root)
    (after : messageStart isTcp + 12 ≤ root) (inside : root + 15 < buffer.length) :
    parseQuery buffer isTcp = .ok (parsed buffer isTcp root) := by
  have name : messageStart isTcp + 12 + min (root + 1 - (messageStart isTcp + 12)) nameSize ≤
      buffer.length := by omega
  have word {offset : Nat} (before : offset + 1 ≤ root + 15) :
      read16 buffer offset = .ok (wordAt buffer offset) := read16_eq (by omega)
  simp only [parseQuery, bind, Except.bind, pure, Except.pure]
  rw [word (by omega), word (by omega), word (by omega), word (by omega), word (by omega),
    word (by omega), walked]
  simp only
  rw [copyBytes_eq name, word (by omega), word (by omega)]
  simp only
  rw [word (by omega), word (by omega), word (by omega), word (by omega), word (by omega)]
  rfl

/-! ## Writes -/

theorem put_eq {out bytes : List UInt8} (fits : out.length + bytes.length ≤ bufferSize) :
    put out bytes = .ok (out ++ bytes) := if_pos fits

/-- A chain of two writes is one write. -/
theorem put_bind_put (out first second : List UInt8) :
    (put out first >>= fun out => put out second) = put out (first ++ second) := by
  by_cases fits : out.length + first.length ≤ bufferSize
  · rw [put_eq fits]
    simp only [bind, Except.bind, put, List.length_append, List.append_assoc, Nat.add_assoc]
  · have both : ¬ out.length + (first ++ second).length ≤ bufferSize := by
      rw [List.length_append]
      omega
    rw [put, if_neg fits, put, if_neg both]
    rfl

theorem ok_bind {α β : Type} (value : α) (next : α → Except Fault β) :
    ((Except.ok value : Except Fault α) >>= next) = next value := rfl

/-! ## Moving the labels -/

theorem labelLoop_le {buffer : List UInt8} {left start root : Nat}
    (walked : labelLoop buffer left start = .ok root) : start ≤ root := by
  induction left generalizing start with
  | zero => cases walked
  | succ left ih =>
      by_cases inBuffer : start < buffer.length
      case neg =>
        simp only [labelLoop, readByte, if_neg inBuffer] at walked
        cases walked
      simp only [labelLoop, readByte_eq inBuffer, ok_bind] at walked
      by_cases isRoot : buffer.getD start 0 = 0
      · rw [if_pos isRoot] at walked
        exact Nat.le_of_eq (Except.ok.inj walked)
      · rw [if_neg isRoot] at walked
        have beyond := ih walked
        omega

/-- The loop over the labels ends at the same label in a buffer that holds the same
bytes up to there, at another place. -/
theorem labelLoop_moved {buffer moved : List UInt8} {left place place' start root : Nat}
    (walked : labelLoop buffer left (place + start) = .ok (place + root))
    (same : ∀ offset, offset ≤ root → moved.getD (place' + offset) 0 =
      buffer.getD (place + offset) 0)
    (inside : place' + root < moved.length) :
    labelLoop moved left (place' + start) = .ok (place' + root) := by
  induction left generalizing start with
  | zero => cases walked
  | succ left ih =>
      have before : start ≤ root := Nat.le_of_add_le_add_left (labelLoop_le walked)
      by_cases inBuffer : place + start < buffer.length
      case neg =>
        simp only [labelLoop, readByte, if_neg inBuffer] at walked
        cases walked
      have inMoved : place' + start < moved.length := by omega
      simp only [labelLoop, readByte_eq inBuffer, ok_bind] at walked
      simp only [labelLoop, readByte_eq inMoved, ok_bind, same start before]
      by_cases isRoot : buffer.getD (place + start) 0 = 0
      · rw [if_pos isRoot] at walked ⊢
        obtain rfl : start = root := Nat.add_left_cancel (Except.ok.inj walked)
        rfl
      · rw [if_neg isRoot] at walked ⊢
        simp only [Nat.add_assoc] at walked ⊢
        exact ih walked

/-! ## Answers -/

/-- An answer: the data of a resource record that depends on the matched
record. -/
structure Answer where
  ttl : UInt32
  priority : UInt16
  rdata : List UInt8
deriving DecidableEq, Repr

/-- The data of an answer on the wire. -/
def Answer.data (qtype : UInt16) (item : Answer) : List UInt8 :=
  if qtype = 15 then be16 item.priority ++ item.rdata else item.rdata

/-- The resource record of an answer. Its owner is a pointer to the question. -/
def Answer.record (qtype : UInt16) (item : Answer) : Dns.ResourceRecord where
  owner := ⟨[], some 12⟩
  type := qtype
  rclass := 1
  ttl := item.ttl
  rdata := item.data qtype

/-- The bytes of an answer. -/
def Answer.bytes (qtype : UInt16) (item : Answer) : List UInt8 :=
  Dns.encodeRecord (item.record qtype)

theorem Answer.data_length_le (qtype : UInt16) (item : Answer) :
    (item.data qtype).length ≤ item.rdata.length + 2 := by
  rw [Answer.data]
  split
  · rw [List.length_append, be16_length]
    omega
  · omega

theorem Answer.bytes_length (qtype : UInt16) (item : Answer) :
    (item.bytes qtype).length = 12 + (item.data qtype).length := by
  simp [Answer.bytes, Dns.encodeRecord, Answer.record, Dns.encodeName, Dns.encodeEnd]
  omega

/-- Writing a record is one write of its bytes. -/
theorem writeRecord_eq (qtype : UInt16) (item : Answer) (out : List UInt8) :
    writeRecord qtype item.ttl item.priority item.rdata out = put out (item.bytes qtype) := by
  have pointer : be16 0xC00C = [192, 12] := rfl
  rcases eq_or_ne qtype 15 with isMX | notMX
  · have length : be16 (UInt16.ofNat (2 + item.rdata.length)) =
        be16 (UInt16.ofNat (be16 item.priority ++ item.rdata).length) := by
      rw [List.length_append, be16_length]
    simp only [writeRecord, w16, w32, isMX, if_true, put_bind_put, Answer.bytes,
      Dns.encodeRecord, Answer.record, Answer.data, Dns.encodeName, Dns.encodeEnd, length]
    rfl
  · simp only [writeRecord, w16, w32, notMX, if_false, put_bind_put, Answer.bytes,
      Dns.encodeRecord, Answer.record, Answer.data, Dns.encodeName, Dns.encodeEnd, pointer]
    rfl

/-! ## The answer loops -/

/-- The length that the answers never exceed. What follows them takes thirteen
bytes. -/
def answerRoom : Nat := bufferSize - 30

/-- What a part of the answer loops does: of the answers `items` it writes
`written`, and it queues the given records and entries. -/
structure Emits (query : Query) (items written : List Answer)
    (records : List Operational.Record) (entries : List Operational.Entry)
    (before after : Answering) : Prop where
  first : written <+: items
  out : after.out = before.out ++ written.flatMap (Answer.bytes query.qtype)
  count : after.anc = before.anc + UInt16.ofNat written.length
  complete : after.truncated = false → written = items
  stays : before.truncated = true → after.truncated = true ∧ written = []
  small : ∀ item ∈ written, item.rdata.length < bufferSize
  records : after.recordQueue = before.recordQueue ++ records
  entries : after.entryQueue = before.entryQueue ++ entries

theorem Emits.refl {query : Query} (state : Answering) : Emits query [] [] [] [] state state where
  first := List.prefix_rfl
  out := by simp
  count := (UInt16.add_zero _).symm
  complete _ := rfl
  stays truncated := ⟨truncated, rfl⟩
  small _ member := absurd member List.not_mem_nil
  records := (List.append_nil _).symm
  entries := (List.append_nil _).symm

/-- **The parts compose.** A later part writes nothing once an earlier one has
truncated the response. -/
theorem Emits.trans {query : Query} {items written items' written' : List Answer}
    {records records' : List Operational.Record} {entries entries' : List Operational.Entry}
    {before middle after : Answering}
    (left : Emits query items written records entries before middle)
    (right : Emits query items' written' records' entries' middle after) :
    Emits query (items ++ items') (written ++ written') (records ++ records')
      (entries ++ entries') before after where
  first := by
    cases truncated : middle.truncated with
    | true =>
        rw [(right.stays truncated).2, List.append_nil]
        exact left.first.trans (List.prefix_append ..)
    | false =>
        rw [left.complete truncated]
        exact (List.prefix_append_right_inj items).mpr right.first
  out := by rw [right.out, left.out, List.flatMap_append, List.append_assoc]
  count := by
    rw [right.count, left.count, List.length_append, UInt16.ofNat_add, UInt16.add_assoc]
  complete finished := by
    have open' : middle.truncated = false := by
      by_contra truncated
      have closed := (right.stays (Bool.eq_true_of_not_eq_false truncated)).1
      rw [finished] at closed
      exact Bool.false_ne_true closed
    rw [left.complete open', right.complete finished]
  stays truncated := by
    obtain ⟨later, nothing⟩ := left.stays truncated
    obtain ⟨last, nothing'⟩ := right.stays later
    exact ⟨last, by rw [nothing, nothing', List.append_nil]⟩
  small item member := by
    rcases List.mem_append.mp member with earlier | later
    · exact left.small item earlier
    · exact right.small item later
  records := by rw [right.records, left.records, List.append_assoc]
  entries := by rw [right.entries, left.entries, List.append_assoc]

/-- One round of an emission loop never writes outside. -/
theorem answer_emits (isTcp : Bool) (query : Query) (item : Answer) {state : Answering}
    (room : state.out.length ≤ answerRoom) :
    ∃ after written,
      answer isTcp query item.ttl item.priority state item.rdata = .ok after ∧
        Emits query [item] written [] [] state after ∧ after.out.length ≤ answerRoom ∧
        (state.truncated = false →
          exceeds isTcp query.ednsClass state.out.length item.rdata.length = false →
          after.truncated = false) := by
  cases refused : state.truncated ||
      exceeds isTcp query.ednsClass state.out.length item.rdata.length with
  | true =>
      refine ⟨{ state with truncated := true }, [], ?_, ?_, room, ?_⟩
      · simp only [answer, refused, if_true]
        rfl
      · exact
          { first := List.nil_prefix
            out := by simp
            count := (UInt16.add_zero _).symm
            complete := fun truncated => absurd truncated.symm Bool.false_ne_true
            stays := fun _ => ⟨rfl, rfl⟩
            small := fun _ member => absurd member List.not_mem_nil
            records := (List.append_nil _).symm
            entries := (List.append_nil _).symm }
      · intro notYet fits
        rw [notYet, fits] at refused
        exact absurd refused Bool.false_ne_true
  | false =>
      obtain ⟨notYet, fits⟩ := Bool.or_eq_false_iff.mp refused
      have inBuffer := (Bool.or_eq_false_iff.mp fits).2
      rw [decide_eq_false_iff_not] at inBuffer
      have atMost := item.data_length_le query.qtype
      have length := item.bytes_length query.qtype
      have written : state.out.length + (item.bytes query.qtype).length ≤ answerRoom := by
        simp only [answerRoom] at *
        omega
      have inside : state.out.length + (item.bytes query.qtype).length ≤ bufferSize :=
        Nat.le_trans written (Nat.sub_le ..)
      refine ⟨{ state with out := state.out ++ item.bytes query.qtype, anc := state.anc + 1 },
        [item], ?_, ?_, ?_, fun _ _ => notYet⟩
      · simp only [answer, refused, Bool.false_eq_true, if_false, writeRecord_eq, put_eq inside,
          bind, Except.bind, pure, Except.pure]
      · exact
          { first := List.prefix_rfl
            out := by simp
            count := rfl
            complete := fun _ => rfl
            stays := fun truncated => absurd (notYet.symm.trans truncated) Bool.false_ne_true
            small := fun other member => by
              rw [List.mem_singleton.mp member]
              omega
            records := (List.append_nil _).symm
            entries := (List.append_nil _).symm }
      · rw [List.length_append]
        exact written

/-- The loop over the addresses of a group. -/
theorem answers_emit (isTcp : Bool) (query : Query) (ttl : UInt32) (priority : UInt16)
    (addresses : List (List UInt8)) {state : Answering} (room : state.out.length ≤ answerRoom) :
    ∃ after written,
      addresses.foldlM (answer isTcp query ttl priority) state = .ok after ∧
        Emits query (addresses.map (Answer.mk ttl priority)) written [] [] state after ∧
        after.out.length ≤ answerRoom := by
  induction addresses generalizing state with
  | nil => exact ⟨state, [], rfl, .refl state, room⟩
  | cons address addresses ih =>
      obtain ⟨middle, first, answered, emits, stillRoom, -⟩ :=
        answer_emits isTcp query ⟨ttl, priority, address⟩ room
      obtain ⟨after, others, folded, emits', lastRoom⟩ := ih stillRoom
      refine ⟨after, first ++ others, ?_, emits.trans emits', lastRoom⟩
      rw [List.foldlM_cons, answered]
      exact folded

section Records

variable (server : Server) (database : Database) (caches : Caches) (request : Request)
  (query : Query)

/-- The entries of a group that a query is answered with. -/
def foundEntries (groupId : CassUuid) : List IpGroup.IpGroupEntryResponse :=
  (groupEntries server database caches request groupId []).1

/-- The entries of a group that a query queues. -/
def queuedEntries (groupId : CassUuid) : List Operational.Entry :=
  (groupEntries server database caches request groupId []).2

theorem groupEntries_eq (groupId : CassUuid) (queue : List Operational.Entry) :
    groupEntries server database caches request groupId queue =
      (foundEntries server database caches request groupId,
        queue ++ queuedEntries server database caches request groupId) := by
  simp only [foundEntries, queuedEntries, groupEntries, Operational.addQueueForEntry_all]
  split
  · rw [List.append_nil]
  · split
    · rw [List.nil_append]
    · rw [List.nil_append, List.append_assoc]

/-- The group whose addresses answer for a record, if it is not answered as it
stands. -/
def answeringGroup (record : Records.DNSResponseData) : Option CassUuid :=
  if isProxied request record then some server.proxyId
  else if record.isGeo then some record.groupId
  else none

/-- A record is answered as it stands when it is neither proxied nor a geo
record. -/
theorem answeringGroup_eq_none_iff {record : Records.DNSResponseData} :
    answeringGroup server request record = none ↔
      isProxied request record = false ∧ record.isGeo = false := by
  rw [answeringGroup]
  cases isProxied request record <;> cases record.isGeo <;> simp

/-- The answers that a matched record stands for. -/
def recordAnswers (record : Records.DNSResponseData) : List Answer :=
  match answeringGroup server request record with
  | some groupId =>
      ((foundEntries server database caches request groupId).map
        IpGroup.IpGroupEntryResponse.ip).map (Answer.mk 3600 record.priority)
  | none => [⟨record.ttl, record.priority, record.rdata⟩]

/-- The entries that a matched record queues. -/
def recordEntries (record : Records.DNSResponseData) : List Operational.Entry :=
  match answeringGroup server request record with
  | some groupId => queuedEntries server database caches request groupId
  | none => []

theorem addressAnswers_emit (groupId : CassUuid) (record : Records.DNSResponseData)
    {state : Answering} (room : state.out.length ≤ answerRoom) :
    ∃ after written,
      addressAnswers server database caches request query groupId record state = .ok after ∧
        Emits query (((foundEntries server database caches request groupId).map
            IpGroup.IpGroupEntryResponse.ip).map (Answer.mk 3600 record.priority)) written []
          (queuedEntries server database caches request groupId) state after ∧
        after.out.length ≤ answerRoom := by
  rw [addressAnswers, groupEntries_eq]
  have stillRoom : { state with entryQueue :=
      state.entryQueue ++ queuedEntries server database caches request groupId }.out.length ≤
        answerRoom := room
  obtain ⟨after, written, folded, emits, lastRoom⟩ := answers_emit request.isTcp query 3600
    record.priority ((foundEntries server database caches request groupId).map
      IpGroup.IpGroupEntryResponse.ip) stillRoom
  refine ⟨after, written, folded, ?_, lastRoom⟩
  exact { emits with entries := by rw [emits.entries, List.append_nil] }

/-- The records that a matched record queues: itself, when it is from the
database. -/
def queuedRecord (query : Query) (cacheHit : Bool) (record : Records.DNSResponseData) :
    List Operational.Record :=
  if cacheHit then [] else [Operational.recordOf query.nameWire query.qtype.toNat record]

theorem queueRecord_emits (cacheHit : Bool) (record : Records.DNSResponseData)
    (state : Answering) :
    Emits query [] [] (queuedRecord query cacheHit record) [] state
      (queueRecord query cacheHit record state) := by
  cases cacheHit with
  | true => exact .refl state
  | false => exact { Emits.refl state with records := rfl }

/-- Rate limiting may truncate the response, and does nothing else to it. -/
theorem limitResponse_emits (zoneBuf : List UInt8) (state : Answering) :
    Emits query [] [] [] [] state (limitResponse server request zoneBuf state) := by
  rw [limitResponse]
  split
  · refine { Emits.refl state with
      complete := fun _ => rfl, stays := fun truncated => ⟨?_, rfl⟩ }
    simp only [rateLimit, truncated, Bool.true_or]
  · exact .refl state

/-- The branches of one round, by the group that answers. -/
theorem answerRecord_eq (cacheHit : Bool) (zoneBuf : List UInt8)
    (record : Records.DNSResponseData) (state : Answering) :
    answerRecord server database caches request query cacheHit zoneBuf state record =
      match answeringGroup server request record with
      | some groupId => addressAnswers server database caches request query groupId record
          (limitResponse server request zoneBuf (queueRecord query cacheHit record state))
      | none => plainAnswer request query record
          (limitResponse server request zoneBuf (queueRecord query cacheHit record state)) := by
  rw [answerRecord, answeringGroup]
  cases isProxied request record <;> cases record.isGeo <;> rfl

/-- One round of the loop over the matched records. -/
theorem answerRecord_emits (cacheHit : Bool) (zoneBuf : List UInt8)
    (record : Records.DNSResponseData) {state : Answering}
    (room : state.out.length ≤ answerRoom) :
    ∃ after written,
      answerRecord server database caches request query cacheHit zoneBuf state record =
          .ok after ∧
        Emits query (recordAnswers server database caches request record) written
          (queuedRecord query cacheHit record)
          (recordEntries server database caches request record) state after ∧
        after.out.length ≤ answerRoom ∧
        (server.rateLimiting = false → answeringGroup server request record = none →
          state.truncated = false →
          exceeds request.isTcp query.ednsClass state.out.length record.rdata.length = false →
          after.truncated = false) := by
  obtain ⟨limited, isLimited⟩ : ∃ limited, limited =
      limitResponse server request zoneBuf (queueRecord query cacheHit record state) := ⟨_, rfl⟩
  have prepared : Emits query [] [] (queuedRecord query cacheHit record) [] state limited := by
    have both := (queueRecord_emits query cacheHit record state).trans
      (limitResponse_emits server request query zoneBuf _)
    simpa only [isLimited, List.append_nil] using both
  have sameOut : limited.out = state.out := by rw [prepared.out]; exact List.append_nil _
  have stillRoom : limited.out.length ≤ answerRoom := sameOut ▸ room
  rw [answerRecord_eq, ← isLimited]
  cases group : answeringGroup server request record with
  | some groupId =>
      obtain ⟨after, written, looped, emits, lastRoom⟩ :=
        addressAnswers_emit server database caches request query groupId record stillRoom
      refine ⟨after, written, looped, ?_, lastRoom, fun _ impossible => ?_⟩
      · have both := prepared.trans emits
        simpa only [recordAnswers, recordEntries, group, List.nil_append, List.append_nil]
          using both
      · exact absurd impossible (Option.some_ne_none _)
  | none =>
      obtain ⟨after, written, wrote, emits, lastRoom, fits⟩ :=
        answer_emits request.isTcp query
          ⟨record.ttl, record.priority, record.rdata⟩ stillRoom
      refine ⟨after, written, wrote, ?_, lastRoom, ?_⟩
      · have both := prepared.trans emits
        simpa only [recordAnswers, recordEntries, group, List.nil_append, List.append_nil]
          using both
      · intro unlimited _ notYet inLimit
        refine fits ?_ (by rw [sameOut]; exact inLimit)
        rw [isLimited, limitResponse, unlimited, Bool.false_and, if_neg Bool.false_ne_true,
          queueRecord]
        split <;> exact notYet

/-- The first record is answered first, if it is answered as it stands and
fits. -/
def LeadsWith (server : Server) (request : Request) (query : Query)
    (records : List Records.DNSResponseData) (rlen : Nat) (written : List Answer) : Prop :=
  ∀ record rest, records = record :: rest → server.rateLimiting = false →
    answeringGroup server request record = none →
    exceeds request.isTcp query.ednsClass rlen record.rdata.length = false →
    ∃ more, written = ⟨record.ttl, record.priority, record.rdata⟩ :: more

/-- The loop over a list of matched records. -/
theorem answerList_emits (cacheHit : Bool) (zoneBuf : List UInt8)
    (records : List Records.DNSResponseData) {state : Answering}
    (room : state.out.length ≤ answerRoom) :
    ∃ after written,
      records.foldlM (answerRecord server database caches request query cacheHit zoneBuf) state =
          .ok after ∧
        Emits query (records.flatMap (recordAnswers server database caches request)) written
          (records.flatMap (queuedRecord query cacheHit))
          (records.flatMap (recordEntries server database caches request)) state after ∧
        after.out.length ≤ answerRoom ∧
        (state.truncated = false →
          LeadsWith server request query records state.out.length written) := by
  induction records generalizing state with
  | nil =>
      refine ⟨state, [], rfl, .refl state, room, fun _ record rest nonempty => ?_⟩
      exact absurd nonempty (List.cons_ne_nil _ _).symm
  | cons record records ih =>
      obtain ⟨middle, first, answered, emits, stillRoom, fits⟩ :=
        answerRecord_emits server database caches request query cacheHit zoneBuf record room
      obtain ⟨after, others, folded, emits', lastRoom, -⟩ := ih stillRoom
      refine ⟨after, first ++ others, ?_, ?_, lastRoom, ?_⟩
      · rw [List.foldlM_cons, answered]
        exact folded
      · simp only [List.flatMap_cons]
        exact emits.trans emits'
      · rintro notYet _ _ ⟨rfl, rfl⟩ unlimited alone inLimit
        have whole := emits.complete (fits unlimited alone notYet inLimit)
        rw [whole, recordAnswers, alone]
        exact ⟨others, rfl⟩

end Records

/-! ## The header and the end of a message -/

/-- The header of a response. -/
def header (query : Query) (flags ancount arcount : UInt16) : List UInt8 :=
  be16 query.transactionId ++ be16 flags ++ be16 1 ++ be16 ancount ++ be16 0 ++ be16 arcount

@[simp] theorem header_length (query : Query) (flags ancount arcount : UInt16) :
    (header query flags ancount arcount).length = 12 := rfl

theorem openResponse_eq {buffer : List UInt8} {isTcp : Bool} {query : Query}
    (inside : 12 + messageStart isTcp + (query.questionEnd - (12 + messageStart isTcp)) ≤
      buffer.length)
    (fits : 12 + (query.questionEnd - (12 + messageStart isTcp)) ≤ bufferSize) :
    openResponse buffer isTcp query =
      .ok (header query (responseFlags query) 0 0 ++
        (buffer.drop (12 + messageStart isTcp)).take
          (query.questionEnd - (12 + messageStart isTcp))) := by
  simp only [openResponse, w16, copyBytes_eq inside, ok_bind, put_bind_put]
  rw [put_eq]
  · rfl
  · simp only [List.length_append, be16_length, List.length_take, List.length_nil]
    omega

section Patches

variable (query : Query) (flags ancount arcount value : UInt16) (body : List UInt8)

theorem patch16_flags :
    patch16 (header query flags ancount arcount ++ body) 2 value =
      .ok (header query value ancount arcount ++ body) := by
  rw [patch16, if_pos (by rw [List.length_append, header_length]; omega)]
  rfl

theorem patch16_ancount :
    patch16 (header query flags ancount arcount ++ body) 6 value =
      .ok (header query flags value arcount ++ body) := by
  rw [patch16, if_pos (by rw [List.length_append, header_length]; omega)]
  rfl

theorem patch16_arcount :
    patch16 (header query flags ancount arcount ++ body) 10 value =
      .ok (header query flags ancount value ++ body) := by
  rw [patch16, if_pos (by rw [List.length_append, header_length]; omega)]
  rfl

end Patches

/-- The OPT record of every response. -/
def optRecord : Dns.ResourceRecord := ⟨⟨[], none⟩, 41, 4096, 0, []⟩

/-- The flags of a response. -/
def finalFlags (query : Query) (truncated : Bool) : UInt16 :=
  if truncated then responseFlags query ||| 0x0200 else responseFlags query

theorem writeOpt_eq (out : List UInt8) : writeOpt out = put out (Dns.encodeRecord optRecord) := by
  simp only [writeOpt, w16, w32, put_bind_put]
  rfl

/-- **The end of a message** always fits: the length is never cut back. -/
theorem closeMessage_eq {query : Query} {state : Answering} {body : List UInt8}
    (out : state.out = header query (responseFlags query) 0 0 ++ body)
    (room : state.out.length ≤ answerRoom) :
    closeMessage (responseFlags query) state =
      .ok (header query (finalFlags query state.truncated) state.anc 1 ++ body ++
        Dns.encodeRecord optRecord, false) := by
  rw [out, List.length_append, header_length] at room
  have flags : (if state.truncated = true then responseFlags query ||| 0x0200
      else responseFlags query) = finalFlags query state.truncated := rfl
  have opt : (Dns.encodeRecord optRecord).length = 11 := rfl
  have short : 12 + body.length + 11 ≤ bufferSize := by
    simp only [answerRoom] at room
    omega
  have notClamped : decide (bufferSize <
      (header query (finalFlags query state.truncated) state.anc 1 ++ body).length + 11) =
        false := by
    rw [decide_eq_false_iff_not, List.length_append, header_length]
    omega
  have lastWrite : (header query (finalFlags query state.truncated) state.anc 1 ++ body).length +
      (Dns.encodeRecord optRecord).length ≤ bufferSize := by
    rw [List.length_append, header_length, opt]
    exact short
  simp only [closeMessage, out, flags, patch16_ancount, patch16_flags, patch16_arcount, ok_bind,
    notClamped, Bool.false_eq_true, if_false, writeOpt_eq, put_eq lastWrite]
  rfl

end EdgeDNS.Core
