import EdgeDNS.Core.HandleResponse
import EdgeDNS.Library.Greedy

/-!
# Which answers a response carries

The three emission loops write greedily: an answer is written when it passes the
size check behind what is written, and the first that does not pass ends the
writing. So the answers of a response are `Greedy.fitting` of the answers that
the loops come to (`handle_written`), and without rate limiting the response is
truncated when one of these is missing (`isTruncated_eq`).

With rate limiting, the loops come only to the records before the first one that
is over the limit (`unlimited`).
-/

set_option autoImplicit false

namespace EdgeDNS.Core

open Utils Wire

/-! ## Writing greedily -/

/-- An answer passes the size check behind a message of the given length. -/
def Answer.passes (isTcp : Bool) (query : Query) (rlen : Nat) (item : Answer) : Bool :=
  !exceeds isTcp query.ednsClass rlen item.rdata.length

/-- The bytes that an answer takes. -/
def Answer.size (query : Query) (item : Answer) : Nat := (item.bytes query.qtype).length

/-- The answers that are written behind a message of the given length. -/
def fittingAnswers (isTcp : Bool) (query : Query) (rlen : Nat) (items : List Answer) :
    List Answer :=
  Greedy.fitting (Answer.passes isTcp query) (Answer.size query) rlen items

/-- The part of the state of the loops that the response is made from. -/
@[ext] structure Said where
  out : List UInt8
  truncated : Bool
  anc : UInt16
deriving DecidableEq, Repr

/-- What has been said so far. -/
def Answering.said (state : Answering) : Said := ⟨state.out, state.truncated, state.anc⟩

/-- Truncate the response if it is over a limit. -/
def Said.limit (said : Said) (exceeded : Bool) : Said :=
  { said with truncated := said.truncated || exceeded }

@[simp] theorem Said.limit_false (said : Said) : said.limit false = said := by
  rw [limit, Bool.or_false]

/-- Offer answers one after another. -/
def Said.emit (isTcp : Bool) (query : Query) (said : Said) (items : List Answer) : Said :=
  if said.truncated then said
  else
    let written := fittingAnswers isTcp query said.out.length items
    { out := said.out ++ written.flatMap (Answer.bytes query.qtype)
      truncated := decide (written ≠ items)
      anc := said.anc + UInt16.ofNat written.length }

section Emit

variable {isTcp : Bool} {query : Query} {said : Said} {items items' : List Answer}

theorem total_size (items : List Answer) :
    Greedy.total (Answer.size query) items =
      (items.flatMap (Answer.bytes query.qtype)).length := by
  induction items with
  | nil => rfl
  | cons item items ih =>
      rw [Greedy.total_cons, ih, List.flatMap_cons, List.length_append, Answer.size]

theorem emit_of_truncated (truncated : said.truncated = true) :
    said.emit isTcp query items = said := if_pos truncated

/-- When all answers pass they are all written. -/
theorem emit_of_passes (notYet : said.truncated = false)
    (passes : Greedy.Passes (Answer.passes isTcp query) (Answer.size query) said.out.length
      items) :
    said.emit isTcp query items =
      ⟨said.out ++ items.flatMap (Answer.bytes query.qtype), false,
        said.anc + UInt16.ofNat items.length⟩ := by
  have whole : fittingAnswers isTcp query said.out.length items = items :=
    Greedy.fitting_eq_self_iff.mpr passes
  simp only [Said.emit, notYet, Bool.false_eq_true, if_false, whole, ne_eq, not_true_eq_false,
    decide_false]

/-- When one of them does not pass the response is truncated. -/
theorem emit_of_refused (notYet : said.truncated = false)
    (refused : ¬ Greedy.Passes (Answer.passes isTcp query) (Answer.size query) said.out.length
      items) :
    said.emit isTcp query items =
      ⟨said.out ++ (fittingAnswers isTcp query said.out.length items).flatMap
          (Answer.bytes query.qtype), true,
        said.anc + UInt16.ofNat (fittingAnswers isTcp query said.out.length items).length⟩ := by
  have cut : fittingAnswers isTcp query said.out.length items ≠ items :=
    mt Greedy.fitting_eq_self_iff.mp refused
  simp only [Said.emit, notYet, Bool.false_eq_true, if_false, ne_eq, cut, not_false_eq_true,
    decide_true]

@[simp] theorem emit_nil : said.emit isTcp query [] = said := by
  cases notYet : said.truncated with
  | true => exact emit_of_truncated notYet
  | false =>
      rw [@emit_of_passes isTcp query said [] notYet trivial]
      ext1
      · exact List.append_nil _
      · exact notYet.symm
      · exact UInt16.add_zero _

/-- A single answer is written if it passes. -/
theorem emit_single {item : Answer} (notYet : said.truncated = false) :
    said.emit isTcp query [item] =
      if item.passes isTcp query said.out.length then
        ⟨said.out ++ item.bytes query.qtype, false, said.anc + 1⟩
      else { said with truncated := true } := by
  split
  · next passes =>
      rw [@emit_of_passes isTcp query said [item] notYet ⟨passes, trivial⟩,
        List.flatMap_singleton]
      rfl
  · next refused =>
      have nothing : fittingAnswers isTcp query said.out.length [item] = [] := by
        rw [fittingAnswers, Greedy.fitting, if_neg refused]
      rw [@emit_of_refused isTcp query said [item] notYet fun passes => refused passes.1, nothing,
        List.flatMap_nil, List.append_nil]
      exact congrArg (Said.mk said.out true) (UInt16.add_zero _)

/-- **Offering in parts** is offering at once. -/
theorem emit_append :
    said.emit isTcp query (items ++ items') =
      (said.emit isTcp query items).emit isTcp query items' := by
  cases notYet : said.truncated with
  | true => rw [emit_of_truncated notYet, emit_of_truncated notYet, emit_of_truncated notYet]
  | false =>
      by_cases passes : Greedy.Passes (Answer.passes isTcp query) (Answer.size query)
          said.out.length items
      · have length : (said.out ++ items.flatMap (Answer.bytes query.qtype)).length =
            said.out.length + Greedy.total (Answer.size query) items := by
          rw [List.length_append, total_size]
        have written : fittingAnswers isTcp query said.out.length (items ++ items') =
            items ++ fittingAnswers isTcp query
              (said.out ++ items.flatMap (Answer.bytes query.qtype)).length items' := by
          rw [length]
          exact Greedy.fitting_append_of_passes passes
        rw [emit_of_passes notYet passes]
        simp only [Said.emit, notYet, Bool.false_eq_true, if_false, written, List.flatMap_append,
          List.append_assoc, List.length_append, UInt16.ofNat_add, UInt16.add_assoc, ne_eq,
          List.append_cancel_left_eq]
      · have stillRefused : ¬ Greedy.Passes (Answer.passes isTcp query) (Answer.size query)
            said.out.length (items ++ items') := fun both => passes (Greedy.passes_append.mp both).1
        have written : fittingAnswers isTcp query said.out.length (items ++ items') =
            fittingAnswers isTcp query said.out.length items :=
          Greedy.fitting_append_of_refused passes
        rw [emit_of_refused notYet stillRefused, emit_of_refused notYet passes, written]
        exact (emit_of_truncated rfl).symm

/-- An answer that passes leaves the room that the end of the message needs. -/
theorem passes_room {rlen : Nat} {item : Answer} (passes : item.passes isTcp query rlen = true) :
    rlen + item.size query ≤ answerRoom := by
  rw [Answer.passes, Bool.not_eq_true', exceeds] at passes
  have inBuffer := of_decide_eq_false (Bool.or_eq_false_iff.mp passes).2
  have atMost := item.data_length_le query.qtype
  rw [Answer.size, item.bytes_length]
  simp only [answerRoom]
  omega

theorem emit_room (room : said.out.length ≤ answerRoom) :
    (said.emit isTcp query items).out.length ≤ answerRoom := by
  rw [Said.emit]
  split
  · exact room
  · have keeps : ∀ length item, Answer.passes isTcp query length item = true →
        length + item.size query ≤ answerRoom := fun _ _ => passes_room
    have fits := Greedy.length_fitting_le keeps items room
    rw [total_size] at fits
    rw [List.length_append]
    exact fits

end Emit

/-! ## The loops -/

/-- The state after the answers are offered. -/
def Answering.emit (isTcp : Bool) (query : Query) (state : Answering) (items : List Answer) :
    Answering :=
  let said := state.said.emit isTcp query items
  { state with out := said.out, truncated := said.truncated, anc := said.anc }

/-- One round of an emission loop offers one answer. -/
theorem answer_eq_emit (isTcp : Bool) (query : Query) (item : Answer) (state : Answering) :
    answer isTcp query item.ttl item.priority state item.rdata =
      .ok (state.emit isTcp query [item]) := by
  cases notYet : state.truncated with
  | true =>
      have kept : state.said.emit isTcp query [item] = state.said := emit_of_truncated notYet
      simp only [answer, notYet, Bool.true_or, if_true, Answering.emit, kept]
      rw [← notYet]
      rfl
  | false =>
      have notYetSaid : state.said.truncated = false := notYet
      have offered := @emit_single isTcp query state.said item notYetSaid
      have check : item.passes isTcp query state.said.out.length =
          !exceeds isTcp query.ednsClass state.out.length item.rdata.length := rfl
      cases refused : exceeds isTcp query.ednsClass state.out.length item.rdata.length with
      | true =>
          rw [check, refused, if_neg (by decide)] at offered
          simp only [answer, notYet, refused, Bool.or_true, if_true, Answering.emit, offered]
          rfl
      | false =>
          have passes : item.passes isTcp query state.said.out.length = true := by
            rw [check, refused]
            rfl
          have fits : state.out.length + (item.bytes query.qtype).length ≤ bufferSize :=
            Nat.le_trans (passes_room passes) (Nat.sub_le ..)
          rw [if_pos passes] at offered
          simp only [answer, notYet, refused, Bool.or_self, Bool.false_eq_true, if_false,
            writeRecord_eq, put_eq fits, Answering.emit, offered, bind, Except.bind, pure,
            Except.pure]
          rfl

/-- The loop over the addresses of a group offers its answers. -/
theorem answers_eq_emit (isTcp : Bool) (query : Query) (ttl : UInt32) (priority : UInt16)
    (addresses : List (List UInt8)) (state : Answering) :
    addresses.foldlM (answer isTcp query ttl priority) state =
      .ok (state.emit isTcp query (addresses.map (Answer.mk ttl priority))) := by
  induction addresses generalizing state with
  | nil =>
      rw [List.map_nil, Answering.emit, emit_nil]
      rfl
  | cons address addresses ih =>
      have first := answer_eq_emit isTcp query ⟨ttl, priority, address⟩ state
      have parts := @emit_append isTcp query state.said [⟨ttl, priority, address⟩]
        (addresses.map (Answer.mk ttl priority))
      rw [List.singleton_append] at parts
      rw [List.foldlM_cons, first, ok_bind, ih, List.map_cons]
      simp only [Answering.emit, parts]
      rfl

section Records

variable (server : Server) (database : Database) (caches : Caches) (request : Request)
  (query : Query)

/-- The counters after one more response, and whether there were too many. -/
def countResponse (zoneBuf : List UInt8) (rrlBuckets : RRLKey → RRLBucket) :
    (RRLKey → RRLBucket) × Bool :=
  let limited := limitResponse server request zoneBuf ⟨[], false, 0, [], [], rrlBuckets⟩
  (limited.rrlBuckets, limited.truncated)

theorem limitResponse_eq (zoneBuf : List UInt8) (state : Answering) :
    limitResponse server request zoneBuf state =
      { state with
        rrlBuckets := (countResponse server request zoneBuf state.rrlBuckets).1
        truncated := state.truncated ||
          (countResponse server request zoneBuf state.rrlBuckets).2 } := by
  cases limits : server.rateLimiting && !request.isTcp with
  | true => simp only [countResponse, limitResponse, limits, if_true, rateLimit, Bool.false_or]
  | false => simp only [countResponse, limitResponse, limits, Bool.false_eq_true, if_false,
      Bool.or_false]

/-- The records before the first one whose response is over the limit. -/
def unlimited (zoneBuf : List UInt8) :
    (RRLKey → RRLBucket) → List Records.DNSResponseData → List Records.DNSResponseData
  | _, [] => []
  | rrlBuckets, record :: records =>
      let counted := countResponse server request zoneBuf rrlBuckets
      if counted.2 then [] else record :: unlimited zoneBuf counted.1 records

/-- Without rate limiting these are all. -/
theorem unlimited_eq_self {server : Server} {request : Request}
    (off : (server.rateLimiting && !request.isTcp) = false) (zoneBuf : List UInt8)
    (rrlBuckets : RRLKey → RRLBucket) (records : List Records.DNSResponseData) :
    unlimited server request zoneBuf rrlBuckets records = records := by
  induction records generalizing rrlBuckets with
  | nil => rfl
  | cons record records ih =>
      have notOver : (countResponse server request zoneBuf rrlBuckets).2 = false := by
        simp only [countResponse, limitResponse, off, Bool.false_eq_true, if_false]
      rw [unlimited, notOver, if_neg Bool.false_ne_true, ih]

/-- The state after the round for a record. -/
def answeredRecord (cacheHit : Bool) (zoneBuf : List UInt8) (state : Answering)
    (record : Records.DNSResponseData) : Answering :=
  let limited := limitResponse server request zoneBuf (queueRecord query cacheHit record state)
  { limited.emit request.isTcp query (recordAnswers server database caches request record) with
    entryQueue := state.entryQueue ++ recordEntries server database caches request record }

theorem answerRecord_eq_answered (cacheHit : Bool) (zoneBuf : List UInt8)
    (record : Records.DNSResponseData) (state : Answering) :
    answerRecord server database caches request query cacheHit zoneBuf state record =
      .ok (answeredRecord server database caches request query cacheHit zoneBuf state record) := by
  have sameEntries : (limitResponse server request zoneBuf
      (queueRecord query cacheHit record state)).entryQueue = state.entryQueue := by
    rw [limitResponse_eq, queueRecord]
    split <;> rfl
  rw [answerRecord_eq]
  cases group : answeringGroup server request record with
  | some groupId =>
      simp only [addressAnswers, groupEntries_eq, answers_eq_emit, answeredRecord, recordAnswers,
        recordEntries, group, sameEntries]
      rfl
  | none =>
      have offered := answer_eq_emit request.isTcp query
        ⟨record.ttl, record.priority, record.rdata⟩
        (limitResponse server request zoneBuf (queueRecord query cacheHit record state))
      simp only [plainAnswer, offered, answeredRecord, recordAnswers, recordEntries, group,
        List.append_nil, ← sameEntries]
      rfl

theorem answerList_eq (cacheHit : Bool) (zoneBuf : List UInt8)
    (records : List Records.DNSResponseData) (state : Answering) :
    records.foldlM (answerRecord server database caches request query cacheHit zoneBuf) state =
      .ok (records.foldl (answeredRecord server database caches request query cacheHit zoneBuf)
        state) := by
  induction records generalizing state with
  | nil => rfl
  | cons record records ih =>
      rw [List.foldlM_cons, answerRecord_eq_answered, ok_bind, ih, List.foldl_cons]

/-- One round offers the answers of its record, unless the response is over the
limit. -/
theorem answeredRecord_said (cacheHit : Bool) (zoneBuf : List UInt8) (state : Answering)
    (record : Records.DNSResponseData) :
    (answeredRecord server database caches request query cacheHit zoneBuf state record).said =
      (state.said.limit (countResponse server request zoneBuf state.rrlBuckets).2).emit
        request.isTcp query (recordAnswers server database caches request record) := by
  rw [answeredRecord, limitResponse_eq]
  cases cacheHit <;> rfl

theorem answeredRecord_rrlBuckets (cacheHit : Bool) (zoneBuf : List UInt8) (state : Answering)
    (record : Records.DNSResponseData) :
    (answeredRecord server database caches request query cacheHit zoneBuf state
      record).rrlBuckets = (countResponse server request zoneBuf state.rrlBuckets).1 := by
  rw [answeredRecord, limitResponse_eq]
  cases cacheHit <;> rfl

/-- **The loops offer the answers of the records before the limit**, and a record
over the limit truncates the response. -/
theorem answeredList_said (cacheHit : Bool) (zoneBuf : List UInt8)
    (records : List Records.DNSResponseData) (state : Answering) :
    (records.foldl (answeredRecord server database caches request query cacheHit zoneBuf)
      state).said =
        (state.said.emit request.isTcp query
          ((unlimited server request zoneBuf state.rrlBuckets records).flatMap
            (recordAnswers server database caches request))).limit
          (decide ((unlimited server request zoneBuf state.rrlBuckets records).length <
            records.length)) := by
  induction records generalizing state with
  | nil => simp [unlimited]
  | cons record records ih =>
      rw [List.foldl_cons, ih, answeredRecord_rrlBuckets, answeredRecord_said, unlimited]
      cases exceeded : (countResponse server request zoneBuf state.rrlBuckets).2 with
      | true =>
          have isTruncated : (state.said.limit true).truncated = true := Bool.or_true _
          rw [emit_of_truncated isTruncated, emit_of_truncated isTruncated]
          simp [Said.limit]
      | false =>
          rw [Said.limit_false, ← emit_append]
          simp

/-- The answers that the loops come to. -/
def reachedAnswers (rrlBuckets : RRLKey → RRLBucket) : List Answer :=
  if query.qclass = 1 ∧ query.qdcount = 1 then
    (unlimited server request (getHostWire server query (cachedRecords caches query ≠ []))
      rrlBuckets (matchedRecords database caches request query)).flatMap
        (recordAnswers server database caches request)
  else []

/-- The answers that a response carries. -/
def writtenAnswers (rrlBuckets : RRLKey → RRLBucket) : List Answer :=
  fittingAnswers request.isTcp query (12 + (questionBytes request query).length)
    (reachedAnswers server database caches request query rrlBuckets)

/-- Without rate limiting the loops come to all answers. -/
theorem reachedAnswers_eq {server : Server} {request : Request}
    (off : (server.rateLimiting && !request.isTcp) = false) (rrlBuckets : RRLKey → RRLBucket) :
    reachedAnswers server database caches request query rrlBuckets =
      responseAnswers server database caches request query := by
  rw [reachedAnswers, responseAnswers, unlimited_eq_self off]

/-- Whether the loops come to a record over the limit. -/
def reachesLimit (rrlBuckets : RRLKey → RRLBucket) : Bool :=
  decide (query.qclass = 1 ∧ query.qdcount = 1) &&
    decide ((unlimited server request (getHostWire server query (cachedRecords caches query ≠ []))
      rrlBuckets (matchedRecords database caches request query)).length <
        (matchedRecords database caches request query).length)

theorem reachesLimit_eq {server : Server} {request : Request}
    (off : (server.rateLimiting && !request.isTcp) = false) (rrlBuckets : RRLKey → RRLBucket) :
    reachesLimit server database caches request query rrlBuckets = false := by
  rw [reachesLimit, unlimited_eq_self off, decide_eq_false (Nat.lt_irrefl _), Bool.and_false]

/-- What the loops leave behind. -/
theorem answerRecords_said (state : Answering) :
    ∃ after, answerRecords server database caches request query state = .ok after ∧
      after.said = (state.said.emit request.isTcp query
        (reachedAnswers server database caches request query state.rrlBuckets)).limit
          (reachesLimit server database caches request query state.rrlBuckets) := by
  by_cases accepted : query.qclass = 1 ∧ query.qdcount = 1
  · have looped := answerList_eq server database caches request query
      (cachedRecords caches query ≠ []) (getHostWire server query (cachedRecords caches query ≠ []))
      (matchedRecords database caches request query) state
    have said := answeredList_said server database caches request query
      (cachedRecords caches query ≠ []) (getHostWire server query (cachedRecords caches query ≠ []))
      (matchedRecords database caches request query) state
    have runs : answerRecords server database caches request query state =
        .ok ((matchedRecords database caches request query).foldl
          (answeredRecord server database caches request query (cachedRecords caches query ≠ [])
            (getHostWire server query (cachedRecords caches query ≠ []))) state) := by
      simp only [answerRecords, accepted]
      exact looped
    rw [reachedAnswers, if_pos accepted, reachesLimit, decide_eq_true accepted, Bool.true_and]
    exact ⟨_, runs, said⟩
  · refine ⟨state, ?_, ?_⟩
    · simp only [answerRecords, accepted, if_false]
      rfl
    · rw [reachedAnswers, if_neg accepted, reachesLimit, decide_eq_false accepted, Bool.false_and,
        emit_nil, Said.limit_false]

/-- Whether a response is truncated: an answer that the loops come to is missing,
or they come to a record over the limit. -/
def isTruncated (rrlBuckets : RRLKey → RRLBucket) : Bool :=
  decide (writtenAnswers server database caches request query rrlBuckets ≠
    reachedAnswers server database caches request query rrlBuckets) ||
      reachesLimit server database caches request query rrlBuckets

/-- Without rate limiting a response is truncated exactly when one of its answers
is missing. -/
theorem isTruncated_eq {server : Server} {request : Request}
    (off : (server.rateLimiting && !request.isTcp) = false) (rrlBuckets : RRLKey → RRLBucket) :
    isTruncated server database caches request query rrlBuckets =
      decide (writtenAnswers server database caches request query rrlBuckets ≠
        responseAnswers server database caches request query) := by
  rw [isTruncated, reachesLimit_eq _ _ _ off, Bool.or_false, reachedAnswers_eq _ _ _ off]

variable (recordQueue : List Operational.Record) (entryQueue : List Operational.Entry)
  (rrlBuckets : RRLKey → RRLBucket)

/-- **A response carries the answers that fit.** -/
theorem handle_written {root : Nat} {request : Request} {query : Query}
    (ends : LabelsEnd request root)
    (isQuery : query = parsed (queryBuf request.payload) request.isTcp root) :
    ∃ handled,
      handle server database caches recordQueue entryQueue rrlBuckets request = .ok handled ∧
        handled.out = framed request.isTcp (responseMessage request query handled.truncated
          (writtenAnswers server database caches request query rrlBuckets)) ∧
        handled.truncated = isTruncated server database caches request query rrlBuckets := by
  have opened := ends.openedRoom recordQueue entryQueue rrlBuckets
  rw [← isQuery] at opened
  obtain ⟨after, answered, said⟩ := answerRecords_said server database caches
    request query (openedState request query recordQueue entryQueue rrlBuckets)
  have length : (openedState request query recordQueue entryQueue rrlBuckets).said.out.length =
      12 + (questionBytes request query).length := List.length_append
  have out : after.out = header query (responseFlags query) 0 0 ++ (questionBytes request query ++
      (writtenAnswers server database caches request query rrlBuckets).flatMap
        (Answer.bytes query.qtype)) := by
    rw [← List.append_assoc, writtenAnswers, ← length]
    exact congrArg Said.out said
  have count : after.anc = UInt16.ofNat
      (writtenAnswers server database caches request query rrlBuckets).length := by
    rw [writtenAnswers, ← length]
    exact (congrArg Said.anc said).trans (UInt16.zero_add _)
  have room : after.said.out.length ≤ answerRoom := by
    rw [said]
    exact emit_room opened
  obtain ⟨runs, -⟩ := handle_eq server database caches recordQueue entryQueue rrlBuckets ends
    isQuery answered out count room
  refine ⟨_, runs, rfl, ?_⟩
  rw [isTruncated, writtenAnswers, ← length]
  exact congrArg Said.truncated said

end Records

end EdgeDNS.Core
