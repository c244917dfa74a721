import EdgeDNS.Core.Transports

/-!
# Truncated responses

A matched record stands for one answer, or for one answer for each entry of a
group. The three emission loops share one flag: the first answer that does not
fit sets it, and from then on no loop writes.

`truncation_honest` says this of the whole response. The answers of the matched
records, in order, are those written and a rest; the written ones fit, each
behind the ones before it; the first of the rest does not fit behind them; and
the truncation bit says whether there is a rest.
-/

set_option autoImplicit false

namespace EdgeDNS.Core

open Utils Wire

/-- The answers of all records: each record as it stands, or an answer for each
entry of its group. -/
def expandedAnswers (server : Server) (database : Database) (caches : Caches) (request : Request)
    (records : List Records.DNSResponseData) : List Answer :=
  records.flatMap (recordAnswers server database caches request)

/-- The length of a response with the given answers, without the OPT record. -/
def lengthBehind (request : Request) (query : Query) (written : List Answer) : Nat :=
  12 + (questionBytes request query).length +
    (written.flatMap (Answer.bytes query.qtype)).length

/-- A message carries the first of the answers, up to one that does not fit, and
its truncation bit says whether there is such a one. -/
structure CutHonestly (request : Request) (query : Query) (answers : List Answer)
    (message : List UInt8) (written rest : List Answer) : Prop where
  expanded : answers = written ++ rest
  carried : ∃ truncated, message = responseMessage request query truncated written
  fit : ∀ first item others, written = first ++ item :: others →
    exceeds request.isTcp query.ednsClass (lengthBehind request query first)
      item.rdata.length = false
  stops : ∀ item others, rest = item :: others →
    exceeds request.isTcp query.ednsClass (lengthBehind request query written)
      item.rdata.length = true
  tc : tcBit message = true ↔ rest ≠ []

section Cut

variable {request : Request} {query : Query} {written : List Answer}

theorem total_behind (written : List Answer) :
    12 + (questionBytes request query).length + Greedy.total (Answer.size query) written =
      lengthBehind request query written := by
  rw [lengthBehind, total_size]

/-- Answers that pass fit one behind the other. -/
theorem fit_of_passes
    (passes : Greedy.Passes (Answer.passes request.isTcp query) (Answer.size query)
      (12 + (questionBytes request query).length) written)
    {first others : List Answer} {item : Answer} (split : written = first ++ item :: others) :
    exceeds request.isTcp query.ednsClass (lengthBehind request query first)
      item.rdata.length = false := by
  rw [split, Greedy.passes_append, total_behind] at passes
  have passed : item.passes request.isTcp query (lengthBehind request query first) = true :=
    passes.2.1
  rwa [Answer.passes, Bool.not_eq_true'] at passed

/-- The answer behind those that fit does not fit. -/
theorem stops_behind {answers rest : List Answer} {item : Answer}
    (isFitting : fittingAnswers request.isTcp query (12 + (questionBytes request query).length)
      answers = written) (split : answers = written ++ item :: rest) :
    exceeds request.isTcp query.ednsClass (lengthBehind request query written)
      item.rdata.length = true := by
  have refused := Greedy.fitting_refuses isFitting split
  rw [total_behind, Answer.passes, Bool.not_eq_false'] at refused
  exact refused

/-- What is written greedily is cut honestly. -/
theorem cutHonestly_of_fitting {answers rest : List Answer} {truncated : Bool}
    (isFitting : fittingAnswers request.isTcp query (12 + (questionBytes request query).length)
      answers = written) (expanded : answers = written ++ rest)
    (isTruncated : truncated = decide (written ≠ answers)) :
    CutHonestly request query answers (responseMessage request query truncated written) written
      rest where
  expanded := expanded
  carried := ⟨truncated, rfl⟩
  fit := by
    intro first item others split
    apply fit_of_passes _ split
    rw [← isFitting]
    exact Greedy.fitting_passes answers _
  stops := by
    intro item others isRest
    rw [isRest] at expanded
    exact stops_behind isFitting expanded
  tc := by
    rw [tcBit_responseMessage, isTruncated, decide_eq_true_iff, expanded, ne_eq, ne_eq,
      List.self_eq_append_right]

end Cut

variable (server : Server) (database : Database) (caches : Caches)
  (recordQueue : List Operational.Record) (entryQueue : List Operational.Entry)
  (rrlBuckets : RRLKey → RRLBucket)

/-- **Truncation is honest.** The answers of a response are those of the matched
records, in order, up to the first one that does not fit, and the truncation bit
is set exactly when one is left out. -/
theorem truncation_honest (request : Request) (query : Query)
    (off : server.rateLimiting = false) (short : request.payload.length ≤ receiveSize)
    (parses : parseQuery (queryBuf request.payload) request.isTcp = .ok query)
    (isIn : query.qclass = 1) (single : query.qdcount = 1) :
    ∃ handled written rest,
      handle server database caches recordQueue entryQueue rrlBuckets request = .ok handled ∧
        CutHonestly request query
          (expandedAnswers server database caches request
            (matchedRecords database caches request query))
          (unframed request.isTcp handled.out) written rest := by
  obtain ⟨root, ends⟩ := labelsEnd short
  have isQuery : query = parsed (queryBuf request.payload) request.isTcp root :=
    Except.ok.inj (parses.symm.trans ends.parses)
  have notLimited : (server.rateLimiting && !request.isTcp) = false := by
    rw [off, Bool.false_and]
  have reached := reachedAnswers_eq database caches query notLimited rrlBuckets
  have answers : responseAnswers server database caches request query =
      expandedAnswers server database caches request
        (matchedRecords database caches request query) := if_pos ⟨isIn, single⟩
  obtain ⟨handled, runs, out, truncated⟩ := handle_written server database caches recordQueue
    entryQueue rrlBuckets ends isQuery
  have isTruncated := truncated.trans (isTruncated_eq _ _ _ notLimited _)
  rw [answers] at reached isTruncated
  have isFitting : fittingAnswers request.isTcp query (12 + (questionBytes request query).length)
      (expandedAnswers server database caches request
        (matchedRecords database caches request query)) =
      writtenAnswers server database caches request query rrlBuckets := by
    rw [writtenAnswers, reached]
  have leading : writtenAnswers server database caches request query rrlBuckets <+:
      expandedAnswers server database caches request
        (matchedRecords database caches request query) := by
    rw [← isFitting]
    exact Greedy.fitting_isPrefix ..
  obtain ⟨rest, split⟩ := leading
  refine ⟨handled, writtenAnswers server database caches request query rrlBuckets, rest, runs, ?_⟩
  rw [out, unframed_framed]
  exact cutHonestly_of_fitting isFitting split.symm isTruncated

theorem truncation_honest_twice :
    ∃ handled written rest,
      handle plainServer twoRecords freshCaches [] [] (fun _ => ⟨0, 0⟩) addressQuery =
          .ok handled ∧
        CutHonestly addressQuery (parsed (queryBuf addressQuery.payload) false 14)
          (expandedAnswers plainServer twoRecords freshCaches addressQuery
            (matchedRecords twoRecords freshCaches addressQuery
              (parsed (queryBuf addressQuery.payload) false 14)))
          (unframed addressQuery.isTcp handled.out) written rest :=
  truncation_honest plainServer twoRecords freshCaches [] [] (fun _ => ⟨0, 0⟩) addressQuery
    (parsed (queryBuf addressQuery.payload) false 14) rfl (by decide) (by decide +kernel)
    (by decide +kernel) (by decide +kernel)

end EdgeDNS.Core
