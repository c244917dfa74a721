import EdgeDNS.Core.RData
import EdgeDNS.Utils.TxtCodec

/-!
# The form of generated record data

What `generateRData` makes of the text of a record, and when a reader of the
record's type takes it. An address is four bytes or nothing and a text is strings,
whatever the text is. The other types go through `stringToWire`, which writes every
part between two dots behind its length, also an empty one, which ends the name, and
one of 64 bytes or more, which is no label. An IPv6 address is written as a name,
since no branch is there for it, and a number of an SOA that is none throws.

`generated_iff` says for which texts the data has the form of its type.
-/

set_option autoImplicit false

namespace EdgeDNS.RData

open Utils Wire Dns

/-! ## The parts of a name -/

/-- The parts that `stringToWireLoop` cuts a text into. -/
def partsLoop : Nat → List UInt8 → List (List UInt8)
  | 0, _ => []
  | _ + 1, [] => []
  | left + 1, byte :: domain =>
      let part := (byte :: domain).takeWhile (· != 46)
      part :: partsLoop left ((byte :: domain).drop (part.length + 1))

/-- A text in lower case without one dot at its end. -/
def trimmed (data : List UInt8) : List UInt8 :=
  let domain := data.map lowerByte
  if domain.getLast? = some 46 then domain.dropLast else domain

/-- The parts between the dots of a text. -/
def parts (data : List UInt8) : List (List UInt8) := partsLoop (trimmed data).length (trimmed data)

theorem stringToWireLoop_parts (left : Nat) (domain : List UInt8) :
    stringToWireLoop left domain = (partsLoop left domain).flatMap encodeLabel := by
  induction left generalizing domain with
  | zero => rfl
  | succ left ih =>
      cases domain with
      | nil => rfl
      | cons byte domain => rw [stringToWireLoop, partsLoop, List.flatMap_cons, ih]

/-- A text is written as its parts and a zero. -/
theorem stringToWire_parts (data : List UInt8) :
    stringToWire data true = (parts data).flatMap encodeLabel ++ [0] := by
  rw [parts, ← stringToWireLoop_parts]
  rfl

/-- The bytes of a text that is written as its parts: one more than it has, unless it
ends in a dot. -/
theorem stringToWireLoop_length {left : Nat} {domain : List UInt8} (notEmpty : domain ≠ [])
    (enough : domain.length ≤ left) :
    (stringToWireLoop left domain).length =
      domain.length + if domain.getLast? = some 46 then 0 else 1 := by
  induction left generalizing domain with
  | zero => exact absurd (List.eq_nil_of_length_eq_zero (Nat.le_zero.mp enough)) notEmpty
  | succ left ih =>
      have unfolded : stringToWireLoop (left + 1) domain =
          encodeLabel (domain.takeWhile (· != 46)) ++
            stringToWireLoop left (domain.drop ((domain.takeWhile (· != 46)).length + 1)) := by
        obtain ⟨byte, tail, rfl⟩ := List.exists_cons_of_ne_nil notEmpty
        rfl
      rw [unfolded, List.length_append, encodeLabel_length]
      by_cases hasDot : 46 ∈ domain
      · obtain ⟨part, others, rfl, noDot⟩ := List.eq_append_cons_of_mem hasDot
        have rest : (part ++ 46 :: others).drop (part.length + 1) = others := by simp
        rw [List.length_append, List.length_cons] at enough
        rw [takeWhile_label noDot, rest, List.length_append, List.length_cons]
        by_cases last : others = []
        · subst last
          cases left <;> simp [stringToWireLoop]
        · rw [ih last (by omega), List.getLast?_append_cons, List.getLast?_cons_of_ne_nil last]
          omega
      · have notDot : domain.getLast? ≠ some 46 := fun isDot => hasDot (List.mem_of_getLast? isDot)
        rw [takeWhile_lastLabel hasDot, List.drop_eq_nil_of_le (Nat.le_succ _), if_neg notDot]
        cases left <;> rfl

/-- A text that is written as 16 bytes: 14 of them are its own, or 15 and it ends in a
dot. One dot at the end does not count. -/
def SixteenBytes (data : List UInt8) : Prop :=
  (trimmed data).length + (if (trimmed data).getLast? = some 46 then 0 else 1) = 15

theorem stringToWire_sixteen_iff (data : List UInt8) :
    (stringToWire data true).length = 16 ↔ SixteenBytes data := by
  have isLoop : stringToWire data true =
      stringToWireLoop (trimmed data).length (trimmed data) ++ [0] := rfl
  rw [isLoop, List.length_append, List.length_singleton, SixteenBytes]
  by_cases isEmpty : trimmed data = []
  · rw [isEmpty]
    decide
  · rw [stringToWireLoop_length isEmpty (Nat.le_refl _)]
    omega

/-! ## What a reader takes -/

/-- Some part does not fit its length byte, which then says less than there is. -/
def Wraps (chunks : List (List UInt8)) : Prop := ∃ chunk ∈ chunks, 256 ≤ chunk.length

/-- The parts form one name: each is a label. A part of 256 bytes or more is none, but
its own bytes may pass for labels. -/
def NameFits (data : List UInt8) : Prop :=
  (∀ part ∈ parts data, IsLabel part) ∨
    (Wraps (parts data) ∧ ReadsNames 1 0 ((parts data).flatMap encodeLabel ++ [0]))

theorem small_of_not_wraps {chunks : List (List UInt8)} (fits : ¬ Wraps chunks) :
    ∀ chunk ∈ chunks, chunk.length < 256 :=
  fun chunk member => Nat.lt_of_not_le fun long => fits ⟨chunk, member, long⟩

theorem not_wraps_of_labels {chunks : List (List UInt8)}
    (areLabels : ∀ chunk ∈ chunks, IsLabel chunk) : ¬ Wraps chunks := by
  rintro ⟨chunk, member, long⟩
  have short := (areLabels chunk member).2
  omega

/-- The wire form of a text reads as one name. -/
theorem readsNames_stringToWire_iff (data : List UInt8) :
    ReadsNames 1 0 (stringToWire data true) ↔ NameFits data := by
  rw [stringToWire_parts, NameFits]
  by_cases wraps : Wraps (parts data)
  · exact ⟨fun reads => .inr ⟨wraps, reads⟩, fun fits => fits.elim
      (fun areLabels => absurd wraps (not_wraps_of_labels areLabels)) And.right⟩
  · rw [readsNames_name_iff (small_of_not_wraps wraps)]
    exact ⟨.inl, fun fits => fits.elim id fun other => absurd other.1 wraps⟩

/-- A text is written as strings, an empty text as an empty string. -/
theorem areStrings_txtToWire (txt : List UInt8) : AreStrings (txtToWire txt) := by
  refine areStrings_iff.mpr ⟨?_, _, readStrings_txtToWire txt⟩
  rw [txtToWire_strings]
  intro isNil
  have count := length_le_encoded (txtStrings txt)
  rw [isNil] at count
  exact txtStrings_ne_nil txt (List.eq_nil_of_length_eq_zero (Nat.le_zero.mp count))

/-! ## The data of an SOA -/

/-- The chunks of the first two tokens. An empty one is the zero behind a name. -/
def nameChunks (tokens : List (List UInt8)) : List (List UInt8) :=
  (tokens.take 2).flatMap fun token => parts token ++ [[]]

/-- The numbers behind the first two tokens. -/
def soaNumbers (tokens : List (List UInt8)) : Except StdException (List UInt64) :=
  (tokens.drop 2).mapM stoul

/-- Numbers as they are written. -/
def numberBytes (numbers : List UInt64) : List UInt8 :=
  numbers.flatMap fun number => be32 number.toUInt32

theorem numberBytes_length (numbers : List UInt64) :
    (numberBytes numbers).length = 4 * numbers.length := by
  induction numbers with
  | nil => rfl
  | cons number numbers ih =>
      have first : numberBytes (number :: numbers) =
          be32 number.toUInt32 ++ numberBytes numbers := rfl
      rw [first, List.length_append, ih, be32_length, List.length_cons]
      omega

theorem soaParts_numbers {sindex : Nat} (behindNames : 2 ≤ sindex) (tokens : List (List UInt8)) :
    soaParts sindex tokens = (tokens.mapM stoul).map numberBytes := by
  induction tokens generalizing sindex with
  | nil => rfl
  | cons token tokens ih =>
      rw [soaParts, soaPart, if_neg (by omega), ih (Nat.le_succ_of_le behindNames), List.mapM_cons]
      cases stoul token with
      | error failure => rfl
      | ok number =>
          cases tokens.mapM stoul with
          | error failure => rfl
          | ok numbers => rfl

theorem stringToWire_chunks (data : List UInt8) :
    stringToWire data true = (parts data ++ [[]]).flatMap encodeLabel := by
  rw [stringToWire_parts, List.flatMap_append]
  rfl

theorem soaParts_name {sindex : Nat} (isName : sindex ≤ 1) (token : List UInt8)
    (tokens : List (List UInt8)) :
    soaParts sindex (token :: tokens) = (soaParts (sindex + 1) tokens).map fun wire =>
      (parts token ++ [[]]).flatMap encodeLabel ++ wire := by
  rw [soaParts, soaPart, if_pos isName, stringToWire_chunks]
  cases soaParts (sindex + 1) tokens <;> rfl

/-- **The data of an SOA**: its names, and its numbers unless one of them throws. -/
theorem generateRData_soa (data : List UInt8) :
    generateRData data RecordType.soa.code =
      (soaNumbers (splitBySpace data)).map fun numbers =>
        (nameChunks (splitBySpace data)).flatMap encodeLabel ++ numberBytes numbers := by
  have isParts : generateRData data RecordType.soa.code = soaParts 0 (splitBySpace data) := rfl
  rw [isParts]
  rcases splitBySpace data with _ | ⟨first, _ | ⟨second, others⟩⟩
  · rfl
  · rw [soaParts_name (Nat.zero_le 1)]
    simp [soaParts, nameChunks, soaNumbers, numberBytes, Except.map, pure, Except.pure]
  · rw [soaParts_name (Nat.zero_le 1), soaParts_name (Nat.le_refl 1),
      soaParts_numbers (Nat.le_refl 2)]
    have names : nameChunks (first :: second :: others) =
        (parts first ++ [[]]) ++ (parts second ++ [[]]) := by simp [nameChunks]
    have numbers : soaNumbers (first :: second :: others) = others.mapM stoul := rfl
    rw [names, numbers]
    cases others.mapM stoul with
    | error failure => rfl
    | ok numbers => simp only [Except.map, List.flatMap_append, List.append_assoc]

/-- An SOA without tokens is empty data. Any other has numbers behind its first two
tokens, and the two names that a reader sees in these have twenty bytes behind them,
with what is left of the tokens counted in. -/
def SoaFits (tokens : List (List UInt8)) : Prop :=
  tokens = [] ∨ ∃ numbers, soaNumbers tokens = .ok numbers ∧
    ((∃ size, size + 4 * numbers.length = 20 ∧ NamesThen 2 size (nameChunks tokens)) ∨
      (Wraps (nameChunks tokens) ∧
        ReadsNames 2 20 ((nameChunks tokens).flatMap encodeLabel ++ numberBytes numbers)))

/-- Two tokens have two ends of names, and numbers stand only behind two tokens. -/
theorem nameChunks_ends {tokens : List (List UInt8)} {numbers : List UInt64}
    (areNumbers : soaNumbers tokens = .ok numbers) :
    2 ≤ emptyCount (nameChunks tokens) ∨ numberBytes numbers = [] := by
  rcases tokens with _ | ⟨first, _ | ⟨second, others⟩⟩
  · cases areNumbers
    exact .inr rfl
  · cases areNumbers
    exact .inr rfl
  · left
    have names : nameChunks (first :: second :: others) =
        (parts first ++ [[]]) ++ (parts second ++ [[]]) := by simp [nameChunks]
    rw [names, emptyCount, List.countP_append, List.countP_append, List.countP_append]
    have one : [([] : List UInt8)].countP (fun chunk => decide (chunk = [])) = 1 := rfl
    omega

/-- A reader takes an SOA that has tokens. -/
theorem readsNames_soa_iff {tokens : List (List UInt8)} {numbers : List UInt64}
    (areNumbers : soaNumbers tokens = .ok numbers) :
    ReadsNames 2 20 ((nameChunks tokens).flatMap encodeLabel ++ numberBytes numbers) ↔
      (∃ size, size + 4 * numbers.length = 20 ∧ NamesThen 2 size (nameChunks tokens)) ∨
        (Wraps (nameChunks tokens) ∧
          ReadsNames 2 20 ((nameChunks tokens).flatMap encodeLabel ++ numberBytes numbers)) := by
  have chunks := fun small =>
    @readsNames_chunks_iff 2 20 (nameChunks tokens) (numberBytes numbers) small
      (nameChunks_ends areNumbers)
  rw [numberBytes_length] at chunks
  by_cases wraps : Wraps (nameChunks tokens)
  · refine ⟨fun reads => .inr ⟨wraps, reads⟩, ?_⟩
    rintro (⟨size, total, fits⟩ | ⟨-, reads⟩)
    · exact (chunks (namesThen_small (by omega) fits)).mpr ⟨size, total, fits⟩
    · exact reads
  · have plain := chunks (small_of_not_wraps wraps)
    exact ⟨fun reads => .inl (plain.mp reads),
      fun fits => fits.elim plain.mpr fun other => absurd other.1 wraps⟩

/-! ## The form of the data -/

/-- The text fits its type: a reader takes what `generateRData` makes of it, or it
makes nothing. -/
def TextFits : RecordType → List UInt8 → Prop
  | .a, _ => True
  | .txt, _ => True
  | .aaaa, data => SixteenBytes data
  | .soa, data => SoaFits (splitBySpace data)
  | _, data => NameFits data

/-- The data of a record is made without an exception, and it is empty or taken by a
reader of its type. -/
def Generated (type : RecordType) (data : List UInt8) : Prop :=
  ∃ wire, generateRData data type.code = .ok wire ∧ (wire = [] ∨ type.Takes wire)

theorem stringToWire_ne_nil (data : List UInt8) : stringToWire data true ≠ [] := by
  rw [stringToWire_parts]
  exact fun isNil => List.cons_ne_nil _ _ (List.append_eq_nil_iff.mp isNil).2

/-- The data that is written as one name. -/
theorem generated_of_name {type : RecordType} {data : List UInt8}
    (isName : generateRData data type.code = .ok (stringToWire data true)) :
    Generated type data ↔ type.Takes (stringToWire data true) := by
  constructor
  · rintro ⟨wire, made, form⟩
    obtain rfl := Except.ok.inj (isName.symm.trans made)
    exact form.resolve_left (stringToWire_ne_nil data)
  · intro takes
    exact ⟨_, isName, .inr takes⟩

/-- The data of an SOA that has tokens is not empty. -/
theorem soaBytes_ne_nil {tokens : List (List UInt8)} (notEmpty : tokens ≠ [])
    (numbers : List UInt64) :
    (nameChunks tokens).flatMap encodeLabel ++ numberBytes numbers ≠ [] := by
  obtain ⟨token, others, rfl⟩ := List.exists_cons_of_ne_nil notEmpty
  have names : nameChunks (token :: others) =
      (parts token ++ [[]]) ++ (others.take 1).flatMap fun other => parts other ++ [[]] := by
    simp [nameChunks]
  rw [names, List.flatMap_append, ← stringToWire_chunks]
  simp [stringToWire_ne_nil]

theorem generated_soa_iff (data : List UInt8) :
    Generated .soa data ↔ SoaFits (splitBySpace data) := by
  rw [Generated, generateRData_soa, SoaFits]
  cases made : soaNumbers (splitBySpace data) with
  | error failure =>
      have notEmpty : splitBySpace data ≠ [] := by
        intro isEmpty
        rw [isEmpty] at made
        cases made
      simp [Except.map, notEmpty]
  | ok numbers =>
      have reads := readsNames_soa_iff made
      by_cases isEmpty : splitBySpace data = []
      · refine ⟨fun _ => .inl isEmpty, fun _ => ⟨_, rfl, .inl ?_⟩⟩
        rw [isEmpty] at made ⊢
        cases made
        rfl
      · constructor
        · rintro ⟨wire, isWire, form⟩
          obtain rfl := Except.ok.inj isWire
          exact .inr ⟨numbers, rfl, reads.mp (form.resolve_left (soaBytes_ne_nil isEmpty numbers))⟩
        · rintro (nothing | ⟨others, same, fits⟩)
          · exact absurd nothing isEmpty
          · obtain rfl := Except.ok.inj same
            exact ⟨_, rfl, .inr (reads.mpr fits)⟩

/-- **The generated data has the form of its type** exactly for the texts that fit it. -/
theorem generated_iff (type : RecordType) (data : List UInt8) :
    Generated type data ↔ TextFits type data := by
  cases type with
  | a =>
      refine ⟨fun _ => trivial, fun _ => ⟨ipv4ToWire data, rfl, ?_⟩⟩
      exact (ipv4ToWire_length data).imp List.eq_nil_of_length_eq_zero id
  | txt =>
      exact ⟨fun _ => trivial, fun _ => ⟨txtToWire data, rfl, .inr (areStrings_txtToWire data)⟩⟩
  | soa => exact generated_soa_iff data
  | aaaa => rw [generated_of_name rfl]; exact stringToWire_sixteen_iff data
  | ns | cname | ptr | mx => rw [generated_of_name rfl]; exact readsNames_stringToWire_iff data

/-- **Data that no reader takes**: a name with an empty part ends early, an IPv6 address
is written as a name, and an SOA whose numbers are none throws. -/
theorem not_generated :
    ¬ (∀ (type : RecordType) (data : List UInt8), Generated type data) ∧
      generateRData "a..b".toUTF8.toList RecordType.ns.code = .ok [1, 97, 0, 1, 98, 0] ∧
      generateRData "::1".toUTF8.toList RecordType.aaaa.code = .ok [3, 58, 58, 49, 0] ∧
      generateRData "a b x".toUTF8.toList RecordType.soa.code = .error .invalidArgument := by
  have early : generateRData "a..b".toUTF8.toList RecordType.ns.code =
      .ok [1, 97, 0, 1, 98, 0] := by decide +kernel
  refine ⟨fun always => ?_, early, by decide +kernel, by decide +kernel⟩
  obtain ⟨wire, made, form⟩ := always .ns "a..b".toUTF8.toList
  obtain rfl := Except.ok.inj (early.symm.trans made)
  revert form
  decide

end EdgeDNS.RData
