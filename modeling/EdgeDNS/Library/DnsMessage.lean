import EdgeDNS.Library.Wire

/-!
# DNS messages

The reference meaning of a DNS message on the wire, for the messages a server
sends: a header, the question section and three sections of resource records.
`decodeMessage` reads a message and refuses it when a label is longer than 63
bytes, a name takes more than 255, a count promises more than there is or
anything is left over. `decodeMessage_encode` says that it reads back every
message that can be encoded at all.
-/

set_option autoImplicit false

namespace Dns

open Wire

/-! ## Names -/

/-- A name on the wire: labels, then the root or a pointer to an earlier
offset. -/
structure Name where
  labels : List (List UInt8)
  pointer : Option Nat
deriving DecidableEq, Repr

/-- A label in front of its length. -/
def encodeLabel (label : List UInt8) : List UInt8 := UInt8.ofNat label.length :: label

/-- Labels ended by the root. -/
def encodeLabels (labels : List (List UInt8)) : List UInt8 := labels.flatMap encodeLabel ++ [0]

/-- Labels that a name may have: of 1 to 63 bytes each, and of at most 255
bytes with their lengths and the root. -/
structure ValidLabels (labels : List (List UInt8)) : Prop where
  nonempty : ∀ label ∈ labels, 1 ≤ label.length
  short : ∀ label ∈ labels, label.length ≤ 63
  total : (encodeLabels labels).length ≤ 255

/-- Where a name ends: in the root or in a pointer. -/
def encodeEnd : Option Nat → List UInt8
  | none => [0]
  | some offset => [UInt8.ofNat (192 + offset / 256), UInt8.ofNat offset]

/-- A name on the wire: its labels, and the root or a pointer behind them. -/
def encodeName (name : Name) : List UInt8 :=
  name.labels.flatMap encodeLabel ++ encodeEnd name.pointer

/-- A name that can be encoded: valid labels and a pointer of 14 bits. -/
structure Name.Encodable (name : Name) : Prop where
  labels : ValidLabels name.labels
  pointer : ∀ offset ∈ name.pointer, offset < 2 ^ 14

/-- Read the labels of a name and its end. The first argument bounds the number
of labels, the second is what is left of the 255 bytes. -/
def readLabels : Nat → Nat → Reader Name
  | 0, _, _ => none
  | labelsLeft + 1, bytesLeft, bytes => do
      let (first, bytes) ← read8 bytes
      if first = 0 then
        if 1 ≤ bytesLeft then return (⟨[], none⟩, bytes) else none
      else if first.toNat ≤ 63 then
        let (label, bytes) ← readBytes first.toNat bytes
        if first.toNat + 1 ≤ bytesLeft then
          let (name, bytes) ← readLabels labelsLeft (bytesLeft - (first.toNat + 1)) bytes
          return (⟨label :: name.labels, name.pointer⟩, bytes)
        else none
      else if 192 ≤ first.toNat then
        let (second, bytes) ← read8 bytes
        return (⟨[], some ((first.toNat - 192) * 256 + second.toNat)⟩, bytes)
      else none

/-- Read a name of at most 255 bytes. -/
def readName : Reader Name := readLabels 128 255

/-! ## Questions and resource records -/

/-- An entry of the question section. -/
structure Question where
  name : Name
  qtype : UInt16
  qclass : UInt16
deriving DecidableEq, Repr

/-- A question on the wire. -/
def encodeQuestion (question : Question) : List UInt8 :=
  encodeName question.name ++ be16 question.qtype ++ be16 question.qclass

/-- Read a question. -/
def readQuestion : Reader Question := fun bytes => do
  let (name, bytes) ← readName bytes
  let (qtype, bytes) ← read16 bytes
  let (qclass, bytes) ← read16 bytes
  return (⟨name, qtype, qclass⟩, bytes)

/-- A resource record. The length of its data is not kept: a reader takes it
from the wire and the data with it. -/
structure ResourceRecord where
  owner : Name
  type : UInt16
  rclass : UInt16
  ttl : UInt32
  rdata : List UInt8
deriving DecidableEq, Repr

/-- A resource record on the wire. -/
def encodeRecord (record : ResourceRecord) : List UInt8 :=
  encodeName record.owner ++ be16 record.type ++ be16 record.rclass ++ be32 record.ttl ++
    be16 (UInt16.ofNat record.rdata.length) ++ record.rdata

/-- Read a resource record. -/
def readRecord : Reader ResourceRecord := fun bytes => do
  let (owner, bytes) ← readName bytes
  let (type, bytes) ← read16 bytes
  let (rclass, bytes) ← read16 bytes
  let (ttl, bytes) ← read32 bytes
  let (length, bytes) ← read16 bytes
  let (rdata, bytes) ← readBytes length.toNat bytes
  return (⟨owner, type, rclass, ttl, rdata⟩, bytes)

/-- A record that can be encoded. -/
structure ResourceRecord.Encodable (record : ResourceRecord) : Prop where
  owner : record.owner.Encodable
  rdata : record.rdata.length < 2 ^ 16

/-! ## Messages -/

/-- A message with its four sections. -/
structure Message where
  id : UInt16
  flags : UInt16
  questions : List Question
  answers : List ResourceRecord
  authorities : List ResourceRecord
  additionals : List ResourceRecord
deriving DecidableEq, Repr

/-- A message on the wire. The counts are those of its sections. -/
def encodeMessage (message : Message) : List UInt8 :=
  be16 message.id ++ be16 message.flags ++
    be16 (UInt16.ofNat message.questions.length) ++ be16 (UInt16.ofNat message.answers.length) ++
    be16 (UInt16.ofNat message.authorities.length) ++
    be16 (UInt16.ofNat message.additionals.length) ++
    message.questions.flatMap encodeQuestion ++ message.answers.flatMap encodeRecord ++
    message.authorities.flatMap encodeRecord ++ message.additionals.flatMap encodeRecord

/-- Read a message. -/
def readMessage : Reader Message := fun bytes => do
  let (id, bytes) ← read16 bytes
  let (flags, bytes) ← read16 bytes
  let (qdcount, bytes) ← read16 bytes
  let (ancount, bytes) ← read16 bytes
  let (nscount, bytes) ← read16 bytes
  let (arcount, bytes) ← read16 bytes
  let (questions, bytes) ← many readQuestion qdcount.toNat bytes
  let (answers, bytes) ← many readRecord ancount.toNat bytes
  let (authorities, bytes) ← many readRecord nscount.toNat bytes
  let (additionals, bytes) ← many readRecord arcount.toNat bytes
  return (⟨id, flags, questions, answers, authorities, additionals⟩, bytes)

/-- Read one message that takes up all the bytes. -/
def decodeMessage (bytes : List UInt8) : Option Message :=
  match readMessage bytes with
  | some (message, []) => some message
  | _ => none

/-- A message that can be encoded. -/
structure Message.Encodable (message : Message) : Prop where
  questions : ∀ question ∈ message.questions, question.name.Encodable
  answers : ∀ record ∈ message.answers, record.Encodable
  authorities : ∀ record ∈ message.authorities, record.Encodable
  additionals : ∀ record ∈ message.additionals, record.Encodable
  questionCount : message.questions.length < 2 ^ 16
  answerCount : message.answers.length < 2 ^ 16
  authorityCount : message.authorities.length < 2 ^ 16
  additionalCount : message.additionals.length < 2 ^ 16

/-! ## Reading back -/

@[simp] theorem encodeLabel_length (label : List UInt8) :
    (encodeLabel label).length = label.length + 1 := rfl

theorem encodeLabels_cons (label : List UInt8) (labels : List (List UInt8)) :
    encodeLabels (label :: labels) = encodeLabel label ++ encodeLabels labels := by
  rw [encodeLabels, encodeLabels, List.flatMap_cons, List.append_assoc]

theorem encodeLabels_length_pos (labels : List (List UInt8)) :
    1 ≤ (encodeLabels labels).length := by
  rw [encodeLabels, List.length_append, List.length_singleton]
  omega

/-- The length of an encoded name is decided by the lengths of its labels. -/
theorem encodeLabels_length_congr {labels other : List (List UInt8)}
    (same : other.map List.length = labels.map List.length) :
    (encodeLabels other).length = (encodeLabels labels).length := by
  have lengths : ∀ labels : List (List UInt8),
      (labels.flatMap encodeLabel).length = ((labels.map List.length).map (· + 1)).sum := by
    intro labels
    rw [List.length_flatMap, List.map_map]
    exact congrArg List.sum (List.map_congr_left fun label _ => encodeLabel_length label)
  rw [encodeLabels, encodeLabels, List.length_append, List.length_append, lengths, lengths, same]

/-- Whether labels are valid is decided by their lengths. -/
theorem ValidLabels.of_lengths {labels other : List (List UInt8)} (valid : ValidLabels labels)
    (same : other.map List.length = labels.map List.length) : ValidLabels other := by
  have paired : ∀ label ∈ other, ∃ original ∈ labels, original.length = label.length := by
    intro label member
    have inLengths : label.length ∈ labels.map List.length :=
      same ▸ List.mem_map_of_mem member
    exact List.mem_map.mp inLengths
  refine ⟨?_, ?_, encodeLabels_length_congr same ▸ valid.total⟩
  · intro label member
    obtain ⟨original, isLabel, sameLength⟩ := paired label member
    exact sameLength ▸ valid.nonempty original isLabel
  · intro label member
    obtain ⟨original, isLabel, sameLength⟩ := paired label member
    exact sameLength ▸ valid.short original isLabel

theorem ValidLabels.small {labels : List (List UInt8)} (valid : ValidLabels labels) :
    ∀ label ∈ labels, label.length < 256 :=
  fun label member => Nat.lt_of_le_of_lt (valid.short label member) (by decide)

/-- Every label takes at least two bytes. -/
theorem labels_length_le {labels : List (List UInt8)}
    (nonempty : ∀ label ∈ labels, 1 ≤ label.length) :
    2 * labels.length + 1 ≤ (encodeLabels labels).length := by
  induction labels with
  | nil => exact Nat.le_refl _
  | cons label labels ih =>
      have first := nonempty label (List.mem_cons_self ..)
      have others := ih fun other member => nonempty other (List.mem_cons_of_mem _ member)
      rw [encodeLabels_cons, List.length_append, encodeLabel_length, List.length_cons]
      omega

theorem ValidLabels.count_le {labels : List (List UInt8)} (valid : ValidLabels labels) :
    labels.length ≤ 127 := by
  have total := valid.total
  have twoEach := labels_length_le valid.nonempty
  omega

/-- A length that fits a byte is read back, and only zero is the root. -/
theorem ofNat8_toNat {count : Nat} (small : count < 2 ^ 8) : (UInt8.ofNat count).toNat = count := by
  rw [UInt8.toNat_ofNat']
  exact Nat.mod_eq_of_lt small

theorem one_le_toNat8 {byte : UInt8} (notZero : byte ≠ 0) : 1 ≤ byte.toNat := by
  rw [Nat.one_le_iff_ne_zero]
  exact fun isZero => notZero (UInt8.toNat_inj.mp isZero)

theorem ofNat8_ne_zero {count : Nat} (positive : 1 ≤ count) (small : count < 2 ^ 8) :
    UInt8.ofNat count ≠ 0 := by
  intro isZero
  have same := ofNat8_toNat small
  rw [isZero, UInt8.toNat_zero] at same
  omega

/-- The end of a name is read back. -/
theorem readLabels_end {pointer : Option Nat} (inRange : ∀ offset ∈ pointer, offset < 2 ^ 14)
    (labelsLeft : Nat) {bytesLeft : Nat} (room : 1 ≤ bytesLeft) (rest : List UInt8) :
    readLabels (labelsLeft + 1) bytesLeft (encodeEnd pointer ++ rest) =
      some (⟨[], pointer⟩, rest) := by
  cases pointer with
  | none => simp [readLabels, encodeEnd, read8, room]
  | some offset =>
      have small : offset < 2 ^ 14 := inRange offset rfl
      have highBits : offset / 256 < 64 := by omega
      have first : (UInt8.ofNat (192 + offset / 256)).toNat = 192 + offset / 256 :=
        ofNat8_toNat (by omega)
      have notRoot : UInt8.ofNat (192 + offset / 256) ≠ 0 :=
        ofNat8_ne_zero (by omega) (by omega)
      have notLabel : ¬ 192 + offset / 256 ≤ 63 := by omega
      have isPointer : 192 ≤ 192 + offset / 256 := by omega
      have joined : (192 + offset / 256 - 192) * 256 + (UInt8.ofNat offset).toNat = offset := by
        rw [UInt8.toNat_ofNat', Nat.add_sub_cancel_left]
        omega
      simp only [encodeEnd, List.cons_append, List.nil_append, readLabels, read8,
        Option.bind_eq_bind, Option.bind_some, notRoot, if_false, first, notLabel, isPointer,
        if_true, joined, Option.pure_def]

/-- The labels of a name are read back one by one, while the bounds last. -/
theorem readLabels_append {labels : List (List UInt8)} {pointer : Option Nat}
    (nonempty : ∀ label ∈ labels, 1 ≤ label.length) (short : ∀ label ∈ labels, label.length ≤ 63)
    (inRange : ∀ offset ∈ pointer, offset < 2 ^ 14) {labelsLeft bytesLeft : Nat}
    (enoughLabels : labels.length < labelsLeft)
    (enoughBytes : (encodeLabels labels).length ≤ bytesLeft) (rest : List UInt8) :
    readLabels labelsLeft bytesLeft (encodeName ⟨labels, pointer⟩ ++ rest) =
      some (⟨labels, pointer⟩, rest) := by
  induction labels generalizing labelsLeft bytesLeft with
  | nil =>
      obtain ⟨left, rfl⟩ := Nat.exists_eq_add_of_lt enoughLabels
      exact readLabels_end inRange _ enoughBytes rest
  | cons label labels ih =>
      cases labelsLeft with
      | zero => exact absurd enoughLabels (Nat.not_lt_zero _)
      | succ left =>
          have positive := nonempty label (List.mem_cons_self ..)
          have atMost := short label (List.mem_cons_self ..)
          have first : (UInt8.ofNat label.length).toNat = label.length :=
            ofNat8_toNat (by omega)
          have notRoot : UInt8.ofNat label.length ≠ 0 := ofNat8_ne_zero positive (by omega)
          rw [encodeLabels_cons, List.length_append, encodeLabel_length] at enoughBytes
          have room : label.length + 1 ≤ bytesLeft := by omega
          have lastBytes : (encodeLabels labels).length ≤ bytesLeft - (label.length + 1) := by omega
          have others := ih (fun other member => nonempty other (List.mem_cons_of_mem _ member))
            (fun other member => short other (List.mem_cons_of_mem _ member))
            (Nat.lt_of_succ_lt_succ enoughLabels) lastBytes
          have unfolded : encodeName ⟨label :: labels, pointer⟩ ++ rest =
              UInt8.ofNat label.length ::
                (label ++ (encodeName ⟨labels, pointer⟩ ++ rest)) := by
            simp only [encodeName, encodeLabel, List.flatMap_cons, List.cons_append,
              List.append_assoc]
          rw [unfolded]
          simp only [readLabels, read8, Option.bind_eq_bind, Option.bind_some, notRoot, if_false,
            first, atMost, if_true, readBytes_append, room, others, Option.pure_def]

/-- A name without labels of its own: the root, or a pointer. -/
theorem Name.encodable_of_noLabels {pointer : Option Nat}
    (inRange : ∀ offset ∈ pointer, offset < 2 ^ 14) : Name.Encodable ⟨[], pointer⟩ where
  labels := ⟨fun _ impossible => absurd impossible List.not_mem_nil,
    fun _ impossible => absurd impossible List.not_mem_nil, Nat.le_of_ble_eq_true rfl⟩
  pointer := inRange

theorem readName_append {name : Name} (encodable : name.Encodable) :
    ReadsBack readName encodeName name := by
  obtain ⟨valid, inRange⟩ := encodable
  have count := valid.count_le
  exact readLabels_append valid.nonempty valid.short inRange (by omega) valid.total

theorem readQuestion_append {question : Question} (encodable : question.name.Encodable) :
    ReadsBack readQuestion encodeQuestion question := by
  intro rest
  simp only [readQuestion, encodeQuestion, List.append_assoc, readName_append encodable _,
    Option.bind_eq_bind, Option.bind_some, read16_be16, Option.pure_def]

theorem ofNat16_toNat {count : Nat} (small : count < 2 ^ 16) :
    (UInt16.ofNat count).toNat = count := by
  rw [UInt16.toNat_ofNat']
  exact Nat.mod_eq_of_lt small

theorem readRecord_append {record : ResourceRecord} (encodable : record.Encodable) :
    ReadsBack readRecord encodeRecord record := by
  intro rest
  simp only [readRecord, encodeRecord, List.append_assoc, readName_append encodable.owner _,
    Option.bind_eq_bind, Option.bind_some, read16_be16, read32_be32,
    ofNat16_toNat encodable.rdata, readBytes_append, Option.pure_def]

/-- **Every encodable message is read back.** -/
theorem decodeMessage_encode {message : Message} (encodable : message.Encodable) :
    decodeMessage (encodeMessage message) = some message := by
  have questions := many_append fun question member =>
    readQuestion_append (encodable.questions question member)
  have answers := many_append fun record member =>
    readRecord_append (encodable.answers record member)
  have authorities := many_append fun record member =>
    readRecord_append (encodable.authorities record member)
  have additionals := many_append fun record member =>
    readRecord_append (encodable.additionals record member)
  have lastSection := additionals []
  rw [List.append_nil] at lastSection
  have read : readMessage (encodeMessage message) = some (message, []) := by
    simp only [readMessage, encodeMessage, List.append_assoc, read16_be16, Option.bind_eq_bind,
      Option.bind_some, ofNat16_toNat encodable.questionCount,
      ofNat16_toNat encodable.answerCount, ofNat16_toNat encodable.authorityCount,
      ofNat16_toNat encodable.additionalCount, questions _, answers _, authorities _, lastSection,
      Option.pure_def]
  rw [decodeMessage, read]

end Dns
