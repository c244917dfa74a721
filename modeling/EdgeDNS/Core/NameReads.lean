import EdgeDNS.Core.HandleResponse

/-!
# What is read to turn a name into text

On a cache miss the handler makes texts of the wire name of the query and of its
zone. The walk over the labels asks at each label whether it starts inside the
name, but not whether it ends there. The handler keeps 256 bytes of a name, and
folds the case of all of them: the cut may lie inside a label, and a length that is
a letter becomes a greater one.

`reads_inside_iff` says that nothing behind a name is read exactly when the kept
bytes are whole labels, up to a zero or to their end.
-/

set_option autoImplicit false

namespace EdgeDNS.Utils

open Dns

/-! ## The walk with its reads -/

/-- The loop of `wireToDomain` with the positions that it reads: those of the
lengths, and those of the labels that are appended. -/
def wireToDomainTrace (memory : List UInt8) (len : Nat) :
    Nat → Nat → List UInt8 → List UInt8 × List Nat
  | 0, _, result => (result, [])
  | left + 1, i, result =>
      if i < len then
        let labelLen := memory.getD i 0
        if labelLen ≠ 0 then
          let result := if result = [] then result else result ++ [46]
          let others := wireToDomainTrace memory len left (i + 1 + labelLen.toNat)
            (result ++ (memory.drop (i + 1)).take labelLen.toNat)
          (others.1, i :: (List.range' (i + 1) labelLen.toNat ++ others.2))
        else (result, [i])
      else (result, [])

/-- The walk gives the text. -/
theorem wireToDomainTrace_fst (memory : List UInt8) (len left i : Nat) (result : List UInt8) :
    (wireToDomainTrace memory len left i result).1 =
      wireToDomainLoop memory len left i result := by
  induction left generalizing i result with
  | zero => rfl
  | succ left ih =>
      rw [wireToDomainTrace, wireToDomainLoop]
      by_cases inside : i < len
      · by_cases isRoot : memory.getD i 0 = 0
        · simp only [inside, isRoot, ne_eq, not_true_eq_false, and_false, if_false, if_true]
        · simp only [inside, isRoot, ne_eq, not_false_eq_true, and_self, if_true, ih]
      · simp only [inside, if_false, false_and]

/-- The positions that `wireToDomain` reads of a name at the front of the memory. -/
def wireToDomainReads (memory : List UInt8) (len : Nat) : List Nat :=
  (wireToDomainTrace memory len len 0 []).2

/-! ## Whole labels -/

/-- The bytes are whole labels, up to a zero or to their end. -/
inductive WholeLabels : List UInt8 → Prop
  | ends : WholeLabels []
  | root (rest : List UInt8) : WholeLabels (0 :: rest)
  | label (label rest : List UInt8) (positive : 1 ≤ label.length) (small : label.length < 256)
      (others : WholeLabels rest) : WholeLabels (encodeLabel label ++ rest)

/-- A length that is not zero begins whole labels when as many bytes follow, and whole
labels behind them. -/
theorem wholeLabels_cons_iff {length : UInt8} (notRoot : length ≠ 0) (rest : List UInt8) :
    WholeLabels (length :: rest) ↔
      length.toNat ≤ rest.length ∧ WholeLabels (rest.drop length.toNat) := by
  constructor
  · intro whole
    generalize isWire : length :: rest = wire at whole
    cases whole with
    | ends => cases isWire
    | root => exact absurd (List.cons.inj isWire).1 notRoot
    | label label others positive small whole =>
        obtain ⟨isLength, isRest⟩ := List.cons.inj isWire
        replace isRest : rest = label ++ others := isRest
        have count : length.toNat = label.length := by
          rw [isLength, ofNat8_toNat small]
        rw [count, isRest, List.drop_left]
        exact ⟨by simp, whole⟩
  · rintro ⟨inside, whole⟩
    have count : (rest.take length.toNat).length = length.toNat := List.length_take_of_le inside
    have isLength : UInt8.ofNat (rest.take length.toNat).length = length := by
      rw [count, UInt8.ofNat_toNat]
    have positive := one_le_toNat8 notRoot
    have split : length :: rest = encodeLabel (rest.take length.toNat) ++
        rest.drop length.toNat := by
      rw [encodeLabel, isLength, List.cons_append, List.take_append_drop]
    rw [split]
    exact .label _ _ (by rw [count]; exact positive) (by rw [count]; exact length.toNat_lt) whole

/-- **A walk stays inside of a name** exactly when whole labels lie ahead of it. -/
theorem trace_inside_iff {wire behind : List UInt8} {left i : Nat} (before : i ≤ wire.length)
    (enough : wire.length ≤ i + left) (result : List UInt8) :
    (∀ position ∈ (wireToDomainTrace (wire ++ behind) wire.length left i result).2,
        position < wire.length) ↔ WholeLabels (wire.drop i) := by
  induction left generalizing i result with
  | zero =>
      have atEnd : wire.drop i = [] := List.drop_eq_nil_of_le (by omega)
      rw [atEnd]
      exact ⟨fun _ => .ends, fun _ position member => absurd member List.not_mem_nil⟩
  | succ left ih =>
      rcases Nat.lt_or_ge i wire.length with inside | atEnd
      · have isByte : (wire ++ behind).getD i 0 = wire[i] := by
          rw [List.getD_eq_getElem?_getD, List.getElem?_append_left inside,
            List.getElem?_eq_getElem inside, Option.getD_some]
        rw [wireToDomainTrace, if_pos inside, List.drop_eq_getElem_cons inside]
        simp only [isByte]
        by_cases isRoot : wire[i] = 0
        · simp only [isRoot, ne_eq, not_true_eq_false, if_false, List.mem_singleton, forall_eq,
            inside, true_iff]
          exact .root _
        · have positive := one_le_toNat8 isRoot
          rw [if_pos isRoot, wholeLabels_cons_iff isRoot, List.length_drop, List.drop_drop]
          generalize (if result = [] then result else result ++ [46]) ++
            ((wire ++ behind).drop (i + 1)).take wire[i].toNat = appended
          constructor
          · intro reads
            have lastRead := reads (i + wire[i].toNat) (by
              refine List.mem_cons_of_mem _ (List.mem_append_left _ ?_)
              rw [List.mem_range'_1]
              omega)
            refine ⟨by omega, (ih (by omega) (by omega) appended).mp fun position member => ?_⟩
            exact reads position (List.mem_cons_of_mem _ (List.mem_append_right _ member))
          · rintro ⟨fits, whole⟩ position member
            rcases List.mem_cons.mp member with rfl | later
            · exact inside
            · rcases List.mem_append.mp later with inLabel | inOthers
              · rw [List.mem_range'_1] at inLabel
                omega
              · exact (ih (by omega) (by omega) appended).mpr whole position inOthers
      · have nothing : wire.drop i = [] := List.drop_eq_nil_of_le atEnd
        rw [wireToDomainTrace, if_neg (Nat.not_lt_of_le atEnd), nothing]
        exact ⟨fun _ => .ends, fun _ position member => absurd member List.not_mem_nil⟩

theorem reads_inside_iff_wholeLabels (wire behind : List UInt8) :
    (∀ position ∈ wireToDomainReads (wire ++ behind) wire.length, position < wire.length) ↔
      WholeLabels wire :=
  trace_inside_iff (Nat.zero_le _) (Nat.le_of_eq (Nat.zero_add _).symm) []

/-! ## The zone of whole labels -/

/-- Whole labels lie ahead of every index that is recorded. -/
theorem labelIndices_whole {wire : List UInt8} {left i : Nat} (whole : WholeLabels (wire.drop i)) :
    ∀ index ∈ labelIndices wire left i, WholeLabels (wire.drop index) := by
  induction left generalizing i with
  | zero => exact fun index member => absurd member List.not_mem_nil
  | succ left ih =>
      intro index member
      rw [labelIndices] at member
      split at member
      · exact absurd member List.not_mem_nil
      · next length isLength =>
          split at member
          · exact absurd member List.not_mem_nil
          · next notRoot =>
              rcases List.mem_cons.mp member with rfl | later
              · exact whole
              · obtain ⟨inside, isByte⟩ := List.getElem?_eq_some_iff.mp isLength
                rw [List.drop_eq_getElem_cons inside, isByte, wholeLabels_cons_iff notRoot,
                  List.drop_drop] at whole
                have further : i + length.toNat + 1 = i + 1 + length.toNat := by omega
                rw [further] at later
                exact ih whole.2 index later

theorem getHostWireFromWireNoAlloc_whole {wire : List UInt8} {outCap : Nat}
    (fits : wire.length ≤ outCap) (whole : WholeLabels wire) :
    WholeLabels (getHostWireFromWireNoAlloc wire outCap) := by
  rw [getHostWireFromWireNoAlloc]
  split
  · exact .ends
  · have begins : WholeLabels (wire.drop
        (if 2 < (labelIndices wire 16 0).length then
          (labelIndices wire 16 0).getD ((labelIndices wire 16 0).length - 2) 0
        else 0)) := by
      split
      · next many =>
          have inside : (labelIndices wire 16 0).length - 2 < (labelIndices wire 16 0).length := by
            omega
          rw [List.getD_eq_getElem?_getD, List.getElem?_eq_getElem inside, Option.getD_some]
          exact @labelIndices_whole wire 16 0 whole _ (List.getElem_mem inside)
      · exact whole
    simp only
    rw [List.take_of_length_le]
    · exact begins
    · rw [List.length_drop]
      omega

end EdgeDNS.Utils

namespace EdgeDNS.Core

open Utils Wire

/-! ## The two calls of the handler -/

/-- The positions of the query name that the handler reads on a cache miss. -/
def nameReads (request : Request) (query : Query) : List Nat :=
  wireToDomainReads (query.nameWire ++ request.behindName) query.nameWire.length

/-- The zone that the handler takes from the name of a query. -/
def zoneWire (query : Query) : List UInt8 := getHostWireFromWireNoAlloc query.nameWire nameSize

/-- The positions of the zone that the handler reads on a cache miss. -/
def zoneReads (request : Request) (query : Query) : List Nat :=
  wireToDomainReads (zoneWire query ++ request.behindZone) (zoneWire query).length

/-- Both calls read below the length that they are given. -/
structure ReadsInside (request : Request) (query : Query) : Prop where
  name : ∀ position ∈ nameReads request query, position < query.nameWire.length
  zone : ∀ position ∈ zoneReads request query, position < (zoneWire query).length

/-- The texts for the database are those of the two walks. -/
theorem databaseRecords_traced (database : Database) (request : Request) (query : Query) :
    databaseRecords database request query = database.getRecord
      (wireToDomainTrace (zoneWire query ++ request.behindZone) (zoneWire query).length
        (zoneWire query).length 0 []).1
      (wireToDomainTrace (query.nameWire ++ request.behindName) query.nameWire.length
        query.nameWire.length 0 []).1 query.qtype.toNat := by
  rw [wireToDomainTrace_fst, wireToDomainTrace_fst]
  rfl

/-- The bytes of its name that the handler keeps of a query, in lower case, when the
labels end at the given offset. -/
def keptName (request : Request) (root : Nat) : List UInt8 :=
  (((queryBuf request.payload).drop (messageStart request.isTcp + 12)).take
    (min (root + 1 - (messageStart request.isTcp + 12)) nameSize)).map lowerByte

theorem keptName_length_le (request : Request) (root : Nat) :
    (keptName request root).length ≤ nameSize := by
  rw [keptName, List.length_map, List.length_take]
  omega

theorem readsInside_iff {request : Request} {query : Query}
    (atMost : query.nameWire.length ≤ nameSize) :
    ReadsInside request query ↔ WholeLabels query.nameWire := by
  constructor
  · intro inside
    exact (reads_inside_iff_wholeLabels _ _).mp inside.name
  · intro whole
    exact ⟨(reads_inside_iff_wholeLabels _ _).mpr whole,
      (reads_inside_iff_wholeLabels _ _).mpr (getHostWireFromWireNoAlloc_whole atMost whole)⟩

/-- **When nothing behind a name is read**: exactly when the bytes kept of the name are
whole labels. -/
theorem reads_inside_iff (request : Request) (short : request.payload.length ≤ receiveSize) :
    ∃ query root, parseQuery (queryBuf request.payload) request.isTcp = .ok query ∧
      labelLoop (queryBuf request.payload) bufferSize (messageStart request.isTcp + 12) = .ok root ∧
      (ReadsInside request query ↔ WholeLabels (keptName request root)) := by
  obtain ⟨root, ends⟩ := labelsEnd short
  refine ⟨_, root, ends.parses, ends.walked, ?_⟩
  exact readsInside_iff (keptName_length_le request root)

theorem reads_inside_iff_stream :
    ∃ query root, parseQuery (queryBuf streamQuery.payload) streamQuery.isTcp = .ok query ∧
      labelLoop (queryBuf streamQuery.payload) bufferSize (messageStart streamQuery.isTcp + 12) =
        .ok root ∧
      (ReadsInside streamQuery query ↔ WholeLabels (keptName streamQuery root)) :=
  reads_inside_iff streamQuery (by decide)

/-- A query for two labels of 200 bytes each, of which the second is cut. -/
def longNameQuery : Request :=
  datagram ([7, 7, 1, 0, 0, 1, 0, 0, 0, 0, 0, 0] ++ 200 :: List.replicate 200 97 ++
    200 :: List.replicate 200 97 ++ [0, 0, 1, 0, 1])

theorem longNameQuery_short : longNameQuery.payload.length ≤ receiveSize := by decide +kernel

/-- **A name that is cut inside of a label** is read behind its end, and behind the
buffer that holds it. -/
theorem reads_behind_name :
    longNameQuery.payload.length ≤ receiveSize ∧
      ∃ query, parseQuery (queryBuf longNameQuery.payload) longNameQuery.isTcp = .ok query ∧
        (∃ position ∈ nameReads longNameQuery query, nameSize ≤ position) ∧
        ¬ ReadsInside longNameQuery query := by
  have parses : parseQuery (queryBuf longNameQuery.payload) longNameQuery.isTcp =
      .ok (parsed (queryBuf longNameQuery.payload) false 414) := by decide +kernel
  have isRead : 401 ∈ nameReads longNameQuery
      (parsed (queryBuf longNameQuery.payload) false 414) := by
    decide +kernel
  refine ⟨longNameQuery_short, _, parses, ⟨401, isRead, by decide⟩, fun inside => ?_⟩
  have atMost := keptName_length_le longNameQuery 414
  have below : 401 < (keptName longNameQuery 414).length := inside.name 401 isRead
  exact absurd (Nat.lt_of_lt_of_le below atMost) (by decide)

end EdgeDNS.Core
