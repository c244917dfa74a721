import EdgeDNS.Cache.RecordsInvariant
import EdgeDNS.Core.Emission

/-!
# The size of UDP responses

A client gives the size of the datagrams it takes in the OPT record of its query,
and takes 512 bytes at least. The handler checks each answer against the two
bytes that follow the question at the place where the class of an OPT record
would be. It looks neither at the type there nor at the counts in the header,
and its check counts neither the two bytes of an MX priority nor the eleven of
its own OPT record.

`udp_within_limit_iff` says when a response respects the client's limit all the
same: when no answers that pass the check, with the bytes that it leaves out,
take more.
-/

set_option autoImplicit false

namespace EdgeDNS.Core

open Utils Wire

/-! ## What a client takes -/

/-- The payload size that the OPT record of a query advertises, by the reference
reader. -/
def advertisedSize (payload : List UInt8) : Option Nat :=
  (Dns.readMessage payload).bind fun read =>
    (read.1.additionals.find? fun record => record.type == 41).map fun record =>
      record.rclass.toNat

/-- What a client takes: 512 bytes, or more if it says so. -/
def clientLimit (payload : List UInt8) : Nat := max 512 ((advertisedSize payload).getD 512)

/-- The bytes of a response with the given answers: the header, the question, the
answers and the OPT record. -/
def responseSize (request : Request) (query : Query) (answers : List Answer) : Nat :=
  12 + (questionBytes request query).length + Greedy.total (Answer.size query) answers + 11

/-- First answers that each pass the check behind the ones before them make up a
response within the client's limit. -/
def AnswersFit (request : Request) (query : Query) (answers : List Answer) : Prop :=
  ∀ first, first <+: answers →
    Greedy.Passes (Answer.passes request.isTcp query) (Answer.size query)
      (12 + (questionBytes request query).length) first →
    responseSize request query first ≤ clientLimit request.payload

theorem responseMessage_length (request : Request) (query : Query) (truncated : Bool)
    (written : List Answer) :
    (responseMessage request query truncated written).length =
      responseSize request query written := by
  have opt : (Dns.encodeRecord optRecord).length = 11 := rfl
  rw [responseMessage, responseSize, List.length_append, List.length_append, List.length_append,
    header_length, opt, total_size, ← Nat.add_assoc 12]

/-- The answers that are written are the longest of those that pass. -/
theorem answersFit_iff (request : Request) (query : Query) (answers : List Answer) :
    AnswersFit request query answers ↔
      responseSize request query
        (fittingAnswers request.isTcp query (12 + (questionBytes request query).length) answers) ≤
          clientLimit request.payload := by
  constructor
  · intro fit
    exact fit _ (Greedy.fitting_isPrefix ..) (Greedy.fitting_passes ..)
  · intro within first isPrefix passes
    have atMost : Greedy.total (Answer.size query) first ≤ Greedy.total (Answer.size query)
        (fittingAnswers request.isTcp query (12 + (questionBytes request query).length) answers) :=
      Greedy.total_le_of_prefix (passes.prefix_fitting isPrefix)
    simp only [responseSize] at within ⊢
    omega

variable (server : Server) (database : Database) (caches : Caches)
  (recordQueue : List Operational.Record) (entryQueue : List Operational.Entry)
  (rrlBuckets : RRLKey → RRLBucket)

/-- **A UDP response respects the client's limit exactly when answers that pass
the check do.** -/
theorem udp_within_limit_iff (request : Request) (labels : List (List UInt8))
    (overUdp : request.isTcp = false) (valid : Dns.ValidLabels labels)
    (holds : Dns.encodeLabels labels <+: (queryBuf request.payload).drop 12) :
    (∃ handled,
      handle server database caches recordQueue entryQueue rrlBuckets request = .ok handled ∧
        handled.out.length ≤ clientLimit request.payload) ↔
      ∃ query, parseQuery (queryBuf request.payload) request.isTcp = .ok query ∧
        AnswersFit request query
          (reachedAnswers server database caches request query rrlBuckets) := by
  have start : messageStart request.isTcp + 12 = 12 := by rw [overUdp]; rfl
  obtain ⟨root, ends⟩ : ∃ root, LabelsEnd request root :=
    ⟨_, LabelsEnd.of_labels valid (start.symm ▸ holds)⟩
  obtain ⟨query, parses⟩ : ∃ query, query = parsed (queryBuf request.payload) request.isTcp root :=
    ⟨_, rfl⟩
  obtain ⟨handled, runs, out, -⟩ := handle_written server database caches recordQueue entryQueue
    rrlBuckets ends parses
  have unframed : ∀ message, framed request.isTcp message = message := by
    intro message
    rw [overUdp]
    rfl
  have length : handled.out.length = responseSize request query
      (writtenAnswers server database caches request query rrlBuckets) := by
    rw [out, unframed, responseMessage_length]
  have isParsed : parseQuery (queryBuf request.payload) request.isTcp = .ok query :=
    parses ▸ ends.parses
  constructor
  · rintro ⟨handled', runs', within⟩
    obtain rfl : handled = handled' := Except.ok.inj (runs.symm.trans runs')
    refine ⟨query, isParsed, (answersFit_iff ..).mpr ?_⟩
    exact length ▸ within
  · rintro ⟨query', isParsed', fit⟩
    obtain rfl : query = query' := Except.ok.inj (isParsed.symm.trans isParsed')
    refine ⟨handled, runs, ?_⟩
    rw [length]
    exact (answersFit_iff ..).mp fit

/-! ### A response within the limit, and one beyond -/

/-- A text of the given number of letters. -/
def longText (count : Nat) : Records.DNSResponseData where
  rdata := txtToWire (List.replicate count 120)
  ttl := 60
  priority := 0
  groupId := ⟨0, 0⟩
  id := ⟨1, 1⟩
  isGeo := false
  isProxy := false
  bucketIdx := 0

/-- A database with one text for every name. -/
def textDatabase (count : Nat) : Database := ⟨fun _ _ _ => [longText count], fun _ _ => []⟩

/-- A text of 400 letters and an OPT record. -/
theorem udp_within_limit_iff_text :
    (∃ handled,
      handle plainServer (textDatabase 400) freshCaches [] [] (fun _ => ⟨0, 0⟩) textQuery =
          .ok handled ∧
        handled.out.length ≤ clientLimit textQuery.payload) ↔
      ∃ query, parseQuery (queryBuf textQuery.payload) textQuery.isTcp = .ok query ∧
        AnswersFit textQuery query
          (reachedAnswers plainServer (textDatabase 400) freshCaches textQuery query
            (fun _ => ⟨0, 0⟩)) :=
  udp_within_limit_iff plainServer (textDatabase 400) freshCaches [] [] (fun _ => ⟨0, 0⟩) textQuery
    [[97]] rfl validLabels_a (by decide +kernel)

/-- A text of 479 letters fills the limit of 512 bytes, and the OPT record goes
beyond it. -/
theorem opt_exceeds_limit :
    Dns.ValidLabels [[97]] ∧
    Dns.encodeLabels [[97]] <+: (queryBuf textQuery.payload).drop 12 ∧
    ¬ ∃ handled,
      handle plainServer (textDatabase 479) freshCaches [] [] (fun _ => ⟨0, 0⟩) textQuery =
          .ok handled ∧
        handled.out.length ≤ clientLimit textQuery.payload := by
  have beyond : (handle plainServer (textDatabase 479) freshCaches [] [] (fun _ => ⟨0, 0⟩)
      textQuery).toOption.map (fun handled => handled.out.length) = some 523 := by
    rw [freshCaches, Records.Mmap.fresh_eq_freshTable]
    decide +kernel
  have limit : clientLimit textQuery.payload = 512 := by decide +kernel
  refine ⟨validLabels_a, by decide +kernel, ?_⟩
  rintro ⟨handled, runs, within⟩
  rw [runs] at beyond
  have length : handled.out.length = 523 := Option.some.inj beyond
  omega

end EdgeDNS.Core
