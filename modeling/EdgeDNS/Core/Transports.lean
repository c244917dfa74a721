import EdgeDNS.Core.Emission

/-!
# UDP and TCP responses

Over TCP a message comes with its length in front of it, and so does the
response. The handler reads the same query two bytes further on, looks the same
things up, and builds the same response, but for the size limit of UDP.

The two emission loops are greedy, and what passes the check over UDP passes it
over TCP. So a UDP response that is not truncated is the TCP response without
its length, and the answers of a truncated one come first in the TCP response
(`transports_agree`).
-/

set_option autoImplicit false

namespace EdgeDNS.Core

open Utils Wire

/-! ## The same message over both transports -/

/-- The query as a datagram. -/
def datagramOf (request : Request) : Request := { request with isTcp := false }

/-- The query behind its length, on a stream. -/
def streamOf (request : Request) : Request :=
  { request with
    payload := be16 (UInt16.ofNat request.payload.length) ++ request.payload, isTcp := true }

/-- The longest message that a receive buffer holds behind its length. -/
def streamSize : Nat := receiveSize - 2

/-- The same query, read two bytes further on. -/
def Query.shifted (query : Query) : Query := { query with questionEnd := query.questionEnd + 2 }

section Streams

variable {request : Request} (short : request.payload.length ≤ streamSize)

include short

theorem stream_length_le : (streamOf request).payload.length ≤ receiveSize := by
  have length : (streamOf request).payload.length = 2 + request.payload.length := by
    rw [streamOf, List.length_append, be16_length]
  simp only [streamSize, receiveSize] at short ⊢
  omega

theorem stream_getD (offset : Nat) :
    (queryBuf (streamOf request).payload).getD (offset + 2) 0 =
      (queryBuf request.payload).getD offset 0 := by
  have fits := stream_length_le short
  have fitsAlone : request.payload.length ≤ bufferSize := Nat.le_trans short (by decide)
  rw [queryBuf_getD (Nat.le_trans fits (by decide)), queryBuf_getD fitsAlone]
  rfl

/-- The stream has the same bytes two further on, as far as the buffer goes. -/
theorem stream_slice {start count : Nat} (inside : start + count + 2 ≤ bufferSize) :
    ((queryBuf (streamOf request).payload).drop (start + 2)).take count =
      ((queryBuf request.payload).drop start).take count := by
  apply List.ext_getElem
  · simp only [List.length_take, List.length_drop, queryBuf_length]
    omega
  · intro index before after
    have sameByte := stream_getD short (start + index)
    simp only [List.length_take, List.length_drop, queryBuf_length] at before
    rw [List.getD_eq_getElem _ _ (by rw [queryBuf_length]; omega),
      List.getD_eq_getElem _ _ (by rw [queryBuf_length]; omega)] at sameByte
    simp only [List.getElem_take, List.getElem_drop]
    simpa only [Nat.add_right_comm start 2 index] using sameByte

theorem stream_wordAt (offset : Nat) :
    wordAt (queryBuf (streamOf request).payload) (offset + 2) =
      wordAt (queryBuf request.payload) offset := by
  rw [wordAt, wordAt, stream_getD short, Nat.add_right_comm offset 2 1, stream_getD short]

/-- The labels of the stream end two bytes further on. -/
theorem stream_labelsEnd {root : Nat} (ends : LabelsEnd (datagramOf request) root) :
    LabelsEnd (streamOf request) (root + 2) := by
  obtain ⟨root', ends'⟩ := labelsEnd (stream_length_le short)
  have near := ends.near
  simp only [receiveSize] at near
  have original : labelLoop (queryBuf request.payload) bufferSize (0 + 12) = .ok (0 + root) := by
    rw [Nat.zero_add, Nat.zero_add]
    exact ends.walked
  have walked := @labelLoop_moved _ (queryBuf (streamOf request).payload) _ _ 2 _ _ original
    (fun offset _ => by rw [Nat.add_comm 2, Nat.zero_add]; exact stream_getD short offset)
    (by rw [queryBuf_length, bufferSize]; omega)
  obtain rfl : root + 2 = root' := by
    rw [Nat.add_comm root]
    exact Except.ok.inj (walked.symm.trans ends'.walked)
  exact ends'

/-- The stream holds the query of the datagram. -/
theorem stream_parsed (root : Nat) :
    parsed (queryBuf (streamOf request).payload) true (root + 2) =
      (parsed (queryBuf request.payload) false root).shifted := by
  have word := stream_wordAt short
  have name : min (root + 2 + 1 - (messageStart true + 12)) nameSize =
      min (root + 1 - (messageStart false + 12)) nameSize := by
    simp only [messageStart, if_true, Bool.false_eq_true, if_false]
    omega
  have slice := @stream_slice request short 12
    (min (root + 1 - (messageStart false + 12)) nameSize)
    (by
      have atMost := Nat.min_le_right (root + 1 - (messageStart false + 12)) nameSize
      simp only [bufferSize, nameSize] at atMost ⊢
      omega)
  generalize queryBuf (streamOf request).payload = stream at word slice ⊢
  generalize queryBuf request.payload = buffer at word slice ⊢
  simp only [parsed, Query.shifted, name, Query.mk.injEq]
  refine ⟨?_, ?_, ?_, ?_, ?_, ?_, by trivial, ?_⟩
  · exact word 0
  · exact word 2
  · exact word 4
  · exact congrArg (List.map lowerByte) slice
  · exact word (root + 1)
  · exact word (root + 3)
  · exact word (root + 8)

theorem stream_questionBytes {root : Nat} (ends : LabelsEnd (datagramOf request) root) :
    questionBytes (streamOf request) (parsed (queryBuf request.payload) false root).shifted =
      questionBytes (datagramOf request) (parsed (queryBuf request.payload) false root) := by
  have near := ends.near
  simp only [receiveSize] at near
  have slice := @stream_slice request short 12 (root + 5 - 12) (by rw [bufferSize]; omega)
  have count : root + 5 + 2 - (12 + 2) = root + 5 - 12 := by omega
  have streamQuestion : questionBytes (streamOf request)
      (parsed (queryBuf request.payload) false root).shifted =
        ((queryBuf (streamOf request).payload).drop (12 + 2)).take (root + 5 + 2 - (12 + 2)) := rfl
  rw [streamQuestion, count, slice]
  rfl

end Streams

/-! ## The two responses -/

/-- What passes the check over UDP passes it over TCP. -/
theorem passes_stream {query : Query} (rlen : Nat) (item : Answer)
    (passes : item.passes false query rlen = true) : item.passes true query rlen = true := by
  rw [Answer.passes, Bool.not_eq_true', exceeds] at passes ⊢
  exact (Bool.or_eq_false_iff.mp passes).2

/-- The flags of a response. -/
theorem wordAt_flags (query : Query) (flags ancount arcount : UInt16) (body : List UInt8) :
    wordAt (header query flags ancount arcount ++ body) 2 = flags := word16_be16 flags

/-- The truncation bit of a message. -/
def tcBit (message : List UInt8) : Bool := wordAt message 2 &&& 0x0200 ≠ 0

theorem responseFlags_tc (query : Query) : responseFlags query &&& 0x0200 = 0 := by
  have response : (0x8000 : UInt16) &&& 0x0200 = 0 := by decide
  have authoritative : (0x0400 : UInt16) &&& 0x0200 = 0 := by decide
  have recursion : (0x0100 : UInt16) &&& 0x0200 = 0 := by decide
  rw [responseFlags, setIf_and _ _ (by decide), setIf_and _ _ (by decide), or_and, or_and,
    UInt16.and_assoc, response, authoritative, recursion, UInt16.and_zero, UInt16.or_zero,
    UInt16.or_zero]

/-- The truncation bit says whether the response is truncated. -/
theorem tcBit_responseMessage (request : Request) (query : Query) (truncated : Bool)
    (written : List Answer) :
    tcBit (responseMessage request query truncated written) = truncated := by
  rw [tcBit, responseMessage, List.append_assoc, wordAt_flags, finalFlags]
  cases truncated with
  | false => simp [responseFlags_tc]
  | true =>
      rw [if_pos rfl, or_and, responseFlags_tc]
      decide

/-- A response holds the given answers, between the question as it was received
and the OPT record. -/
def Carries (request : Request) (out : List UInt8) (answers : List Answer) : Prop :=
  ∃ query truncated, parseQuery (queryBuf request.payload) request.isTcp = .ok query ∧
    out = framed request.isTcp (responseMessage request query truncated answers)

section Responses

variable (server : Server) (database : Database) (caches : Caches)
  (rrlBuckets : RRLKey → RRLBucket) {request : Request} {query : Query}

/-- The answers over UDP come first over TCP, and are all of them when no one is
missing. -/
theorem written_stream (off : server.rateLimiting = false)
    (sameQuestion : questionBytes (streamOf request) query.shifted =
      questionBytes (datagramOf request) query) :
    writtenAnswers server database caches (datagramOf request) query rrlBuckets <+:
        writtenAnswers server database caches (streamOf request) query.shifted rrlBuckets ∧
      (writtenAnswers server database caches (datagramOf request) query rrlBuckets =
          responseAnswers server database caches (datagramOf request) query →
        writtenAnswers server database caches (streamOf request) query.shifted rrlBuckets =
          responseAnswers server database caches (datagramOf request) query) := by
  have sameAnswers : responseAnswers server database caches (streamOf request) query.shifted =
      responseAnswers server database caches (datagramOf request) query := rfl
  have datagramOff : (server.rateLimiting && !(datagramOf request).isTcp) = false := by
    rw [off, Bool.false_and]
  have streamOff : (server.rateLimiting && !(streamOf request).isTcp) = false := by
    rw [off, Bool.false_and]
  rw [writtenAnswers, writtenAnswers, reachedAnswers_eq _ _ _ datagramOff,
    reachedAnswers_eq _ _ _ streamOff, sameAnswers, sameQuestion]
  generalize responseAnswers server database caches (datagramOf request) query = answers
  generalize 12 + (questionBytes (datagramOf request) query).length = rlen
  refine ⟨Greedy.fitting_mono passes_stream answers rlen, fun whole => ?_⟩
  have passes : Greedy.Passes (Answer.passes false query) (Answer.size query) rlen answers :=
    Greedy.fitting_eq_self_iff.mp whole
  exact Greedy.fitting_eq_self_iff.mpr (passes.mono passes_stream)

variable (recordQueue : List Operational.Record) (entryQueue : List Operational.Entry)

/-- **UDP and TCP agree.** When the UDP response is not truncated, the TCP response
is the same behind its length; otherwise the answers over UDP come first over
TCP. -/
theorem transports_agree (off : server.rateLimiting = false)
    (short : request.payload.length ≤ streamSize) :
    ∃ udp tcp,
      handle server database caches recordQueue entryQueue rrlBuckets (datagramOf request) =
          .ok udp ∧
      handle server database caches recordQueue entryQueue rrlBuckets (streamOf request) =
          .ok tcp ∧
      (tcBit udp.out = false → tcp.out = be16 (UInt16.ofNat udp.out.length) ++ udp.out) ∧
      (tcBit udp.out = true → ∃ answers answers',
        Carries (datagramOf request) udp.out answers ∧
        Carries (streamOf request) tcp.out answers' ∧ answers <+: answers') := by
  have shortAlone : (datagramOf request).payload.length ≤ receiveSize :=
    Nat.le_trans short (Nat.sub_le ..)
  obtain ⟨root, ends⟩ := labelsEnd shortAlone
  have streamEnds := stream_labelsEnd short ends
  have sameQuery := stream_parsed short root
  have sameQuestion := stream_questionBytes short ends
  obtain ⟨query, isQuery⟩ : ∃ query, query = parsed (queryBuf request.payload) false root :=
    ⟨_, rfl⟩
  rw [← isQuery] at sameQuery sameQuestion
  have datagramOff : (server.rateLimiting && !(datagramOf request).isTcp) = false := by
    rw [off, Bool.false_and]
  have streamOff : (server.rateLimiting && !(streamOf request).isTcp) = false := by
    rw [off, Bool.false_and]
  obtain ⟨udp, udpRuns, udpOut, udpTruncated⟩ := handle_written server database caches recordQueue
    entryQueue rrlBuckets ends isQuery
  obtain ⟨tcp, tcpRuns, tcpOut, tcpTruncated⟩ := handle_written server database caches recordQueue
    entryQueue rrlBuckets streamEnds sameQuery.symm
  obtain ⟨leading, complete⟩ := written_stream server database caches rrlBuckets off sameQuestion
  have sameMessage : ∀ truncated answers,
      responseMessage (streamOf request) query.shifted truncated answers =
        responseMessage (datagramOf request) query truncated answers := by
    intro truncated answers
    rw [responseMessage, sameQuestion]
    rfl
  have udpMessage : udp.out = responseMessage (datagramOf request) query udp.truncated
      (writtenAnswers server database caches (datagramOf request) query rrlBuckets) := udpOut
  refine ⟨udp, tcp, udpRuns, tcpRuns, fun open' => ?_, fun _ => ⟨_, _, ?_, ?_, leading⟩⟩
  · have notTruncated : udp.truncated = false := by
      rw [udpMessage, tcBit_responseMessage] at open'
      exact open'
    have whole := udpTruncated
    rw [isTruncated_eq _ _ _ datagramOff, notTruncated, eq_comm, decide_eq_false_iff_not,
      not_not] at whole
    have streamWhole := complete whole
    have streamNotTruncated : tcp.truncated = false := by
      rw [tcpTruncated, isTruncated_eq _ _ _ streamOff, streamWhole, decide_eq_false_iff_not,
        not_not]
      rfl
    have sameOut : responseMessage (streamOf request) query.shifted tcp.truncated
        (writtenAnswers server database caches (streamOf request) query.shifted rrlBuckets) =
          udp.out := by
      rw [sameMessage, streamWhole, streamNotTruncated, udpMessage, notTruncated, whole]
    rw [tcpOut, sameOut]
    rfl
  · refine ⟨query, udp.truncated, ?_, udpOut⟩
    rw [isQuery]
    exact ends.parses
  · refine ⟨query.shifted, tcp.truncated, ?_, tcpOut⟩
    rw [← sameQuery]
    exact streamEnds.parses

end Responses

/-- Both records go over TCP, and one of them over UDP. -/
theorem transports_agree_a :
    ∃ udp tcp,
      handle plainServer twoRecords freshCaches [] [] (fun _ => ⟨0, 0⟩)
          (datagramOf addressQuery) = .ok udp ∧
      handle plainServer twoRecords freshCaches [] [] (fun _ => ⟨0, 0⟩)
          (streamOf addressQuery) = .ok tcp ∧
      (tcBit udp.out = false → tcp.out = be16 (UInt16.ofNat udp.out.length) ++ udp.out) ∧
      (tcBit udp.out = true → ∃ answers answers',
        Carries (datagramOf addressQuery) udp.out answers ∧
        Carries (streamOf addressQuery) tcp.out answers' ∧ answers <+: answers') :=
  transports_agree plainServer twoRecords freshCaches (fun _ => ⟨0, 0⟩) [] [] rfl
    (by decide)

end EdgeDNS.Core
