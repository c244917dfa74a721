import EdgeDNS.Library.DnsMessage
import EdgeDNS.Utils.String

/-!
# Wire names and wire data

The conversions of `Utils::Vector` between texts and bytes on the wire, as the
source loops over them. None of them checks the length of a label.

`getHostWireFromWireNoAlloc` and `wireToDomain` walk the labels of a wire name.
The second appends a label without asking whether it lies inside the name, so
it takes the memory from the name on.
-/

set_option autoImplicit false

namespace EdgeDNS.Utils

open Dns

/-! ## From a wire name -/

/-- The offsets of the first labels of a wire name, at most as many as the
first argument says. -/
def labelIndices (wire : List UInt8) : Nat → Nat → List Nat
  | 0, _ => []
  | left + 1, i =>
      match wire[i]? with
      | none => []
      | some length => if length = 0 then [] else i :: labelIndices wire left (i + length.toNat + 1)

/-- The last two of the first sixteen labels, and what follows them. -/
def getHostWireFromWireNoAlloc (wire : List UInt8) (outCap : Nat) : List UInt8 :=
  if wire = [] ∨ wire.head? = some 0 then []
  else
    let labelIndices := labelIndices wire 16 0
    let startIdx :=
      if 2 < labelIndices.length then labelIndices.getD (labelIndices.length - 2) 0 else 0
    (wire.drop startIdx).take outCap

/-- The loop of `wireToDomain`. Every round moves on by a byte at least, so that
the first argument, the length of the name, bounds the rounds. -/
def wireToDomainLoop (memory : List UInt8) (len : Nat) : Nat → Nat → List UInt8 → List UInt8
  | 0, _, result => result
  | left + 1, i, result =>
      let labelLen := memory.getD i 0
      if i < len ∧ labelLen ≠ 0 then
        let result := if result = [] then result else result ++ [46]
        wireToDomainLoop memory len left (i + 1 + labelLen.toNat)
          (result ++ (memory.drop (i + 1)).take labelLen.toNat)
      else result

/-- The dotted text of a wire name that lies at the front of the memory. -/
def wireToDomain (memory : List UInt8) (len : Nat) : List UInt8 :=
  wireToDomainLoop memory len len 0 []

/-! ## To the wire -/

/-- The loop of `stringToWire`: the bytes up to the next dot are a label. -/
def stringToWireLoop : Nat → List UInt8 → List UInt8
  | 0, _ => []
  | _ + 1, [] => []
  | left + 1, byte :: domain =>
      let label := (byte :: domain).takeWhile (· != 46)
      encodeLabel label ++ stringToWireLoop left ((byte :: domain).drop (label.length + 1))

/-- The wire form of a dotted text in lower case. One dot at the end is
dropped. -/
def stringToWire (input : List UInt8) (zero : Bool) : List UInt8 :=
  let domain := input.map lowerByte
  let domain := if domain.getLast? = some 46 then domain.dropLast else domain
  stringToWireLoop domain.length domain ++ if zero then [0] else []

/-- The loop of `txtToWire`: chunks of at most 255 bytes. -/
def txtToWireLoop : Nat → List UInt8 → List UInt8
  | 0, _ => []
  | _ + 1, [] => []
  | left + 1, byte :: txt =>
      encodeLabel ((byte :: txt).take 255) ++ txtToWireLoop left ((byte :: txt).drop 255)

/-- The character strings of a text. -/
def txtToWire (txt : List UInt8) : List UInt8 :=
  if txt = [] then [0] else txtToWireLoop txt.length txt

/-- The parts that `std::getline` reads up to each delimiter. There is no empty
part at the end. -/
def getLines (delimiter : UInt8) : List UInt8 → List UInt8 → List (List UInt8)
  | [], [] => []
  | part, [] => [part.reverse]
  | part, byte :: text =>
      if byte = delimiter then part.reverse :: getLines delimiter [] text
      else getLines delimiter (byte :: part) text

/-- A part of an address as a byte, unless it is none. -/
def addressByte (part : List UInt8) : Option UInt8 :=
  match stoi part with
  | .error _ => none
  | .ok byte => if byte < 0 ∨ 255 < byte then none else some (UInt8.ofNat byte.toNat)

/-- The four bytes of an address, or nothing. -/
def ipv4ToWire (ip : List UInt8) : List UInt8 :=
  match (getLines 46 [] ip).mapM addressByte with
  | none => []
  | some wire => if wire.length = 4 then wire else []

/-! ## What the conversions give -/

/-- What a buffer holds from an offset on, behind what it holds first. -/
theorem prefix_behind {buffer first second : List UInt8} {start : Nat}
    (holds : first ++ second <+: buffer.drop start) :
    second <+: buffer.drop (start + first.length) := by
  obtain ⟨rest, split⟩ := holds
  refine ⟨rest, ?_⟩
  rw [← List.drop_drop, ← split, List.append_assoc, List.drop_left]

theorem getD_of_isPrefix {buffer bytes : List UInt8} {byte : UInt8} {start : Nat}
    (holds : byte :: bytes <+: buffer.drop start) :
    start < buffer.length ∧ buffer.getD start 0 = byte := by
  obtain ⟨rest, split⟩ := holds
  have at0 : (buffer.drop start)[0]? = some byte := by rw [← split]; rfl
  rw [List.getElem?_drop, Nat.add_zero] at at0
  exact ⟨(List.getElem?_eq_some_iff.mp at0).1, by rw [List.getD_eq_getElem?_getD, at0]; rfl⟩

theorem ipv4ToWire_length (ip : List UInt8) :
    (ipv4ToWire ip).length = 0 ∨ (ipv4ToWire ip).length = 4 := by
  rw [ipv4ToWire]
  split
  · exact .inl rfl
  · split
    · next four => exact .inr four
    · exact .inl rfl

theorem stringToWireLoop_length_le (left : Nat) (domain : List UInt8) :
    (stringToWireLoop left domain).length ≤ domain.length + 1 := by
  induction left generalizing domain with
  | zero => exact Nat.zero_le _
  | succ left ih =>
      cases domain with
      | nil => exact Nat.zero_le _
      | cons byte domain =>
          have cut : ((byte :: domain).takeWhile (· != 46)).length ≤ (byte :: domain).length :=
            (List.takeWhile_sublist _).length_le
          have others :=
            ih ((byte :: domain).drop (((byte :: domain).takeWhile (· != 46)).length + 1))
          rw [List.length_drop] at others
          rw [stringToWireLoop, List.length_append, encodeLabel_length]
          rcases Nat.lt_or_ge ((byte :: domain).takeWhile (· != 46)).length
            (byte :: domain).length with before | whole
          · omega
          · have nothing : (byte :: domain).drop
                (((byte :: domain).takeWhile (· != 46)).length + 1) = [] :=
              List.drop_eq_nil_of_le (Nat.le_succ_of_le whole)
            rw [nothing]
            cases left <;> simp only [stringToWireLoop, List.length_nil] <;> omega

/-- The wire form of a text is at most two bytes longer. -/
theorem stringToWire_length_le (input : List UInt8) :
    (stringToWire input true).length ≤ input.length + 2 := by
  simp only [stringToWire, if_true, List.length_append, List.length_singleton]
  split
  · have loop := stringToWireLoop_length_le (input.map lowerByte).dropLast.length
      (input.map lowerByte).dropLast
    rw [List.length_dropLast, List.length_map] at loop
    rw [List.length_dropLast, List.length_map]
    omega
  · have loop := stringToWireLoop_length_le (input.map lowerByte).length (input.map lowerByte)
    rw [List.length_map] at loop
    rw [List.length_map]
    omega

/-- A dotted text of labels. -/
def dotted (labels : List (List UInt8)) : List UInt8 := [46].intercalate labels

theorem dotted_singleton (label : List UInt8) : dotted [label] = label := by
  simp [dotted, List.intercalate]

theorem dotted_cons_cons (label other : List UInt8) (labels : List (List UInt8)) :
    dotted (label :: other :: labels) = label ++ 46 :: dotted (other :: labels) := by
  simp [dotted, List.intercalate, List.intersperse]

theorem isNotDot {label : List UInt8} (noDot : 46 ∉ label) :
    ∀ byte ∈ label, (byte != 46) = true := by
  intro byte member
  rw [bne_iff_ne]
  exact fun same => noDot (same ▸ member)

theorem takeWhile_label {label rest : List UInt8} (noDot : 46 ∉ label) :
    (label ++ 46 :: rest).takeWhile (· != 46) = label := by
  rw [List.takeWhile_append_of_pos (isNotDot noDot)]
  simp

theorem takeWhile_lastLabel {label : List UInt8} (noDot : 46 ∉ label) :
    label.takeWhile (· != 46) = label := by
  have whole : (label ++ []).takeWhile (· != 46) = label ++ [].takeWhile (· != 46) :=
    List.takeWhile_append_of_pos (isNotDot noDot)
  rwa [List.append_nil, List.takeWhile_nil, List.append_nil] at whole

/-- The loop cuts a dotted text at its dots. -/
theorem stringToWireLoop_dotted {labels : List (List UInt8)}
    (nonempty : ∀ label ∈ labels, 1 ≤ label.length) (noDot : ∀ label ∈ labels, 46 ∉ label)
    {left : Nat} (enough : (dotted labels).length ≤ left) :
    stringToWireLoop left (dotted labels) = labels.flatMap encodeLabel := by
  induction labels generalizing left with
  | nil => cases left <;> rfl
  | cons label labels ih =>
      have positive := nonempty label (List.mem_cons_self ..)
      have plain := noDot label (List.mem_cons_self ..)
      obtain ⟨byte, tail, rfl⟩ := List.exists_cons_of_length_pos positive
      cases labels with
      | nil =>
          rw [dotted_singleton] at enough ⊢
          obtain ⟨left, rfl⟩ := Nat.exists_eq_add_of_le' (Nat.one_le_of_lt enough)
          rw [stringToWireLoop, takeWhile_lastLabel plain, List.drop_eq_nil_of_le (by simp)]
          cases left <;> simp [stringToWireLoop]
      | cons other labels =>
          rw [dotted_cons_cons] at enough ⊢
          rw [List.length_append, List.length_cons, List.length_cons] at enough
          obtain ⟨left, rfl⟩ := Nat.exists_eq_add_of_le' (Nat.one_le_of_lt enough)
          have shorter : (dotted (other :: labels)).length ≤ left := by omega
          have others := ih (fun next member => nonempty next (List.mem_cons_of_mem _ member))
            (fun next member => noDot next (List.mem_cons_of_mem _ member)) shorter
          have cut := @takeWhile_label _ (dotted (other :: labels)) plain
          rw [List.cons_append] at cut ⊢
          rw [stringToWireLoop, cut, List.flatMap_cons, ← others]
          congr 2
          simp

/-- Folding the case of a byte that is none of `A` to `Z`. -/
theorem lowerByte_of_lt {byte : UInt8} (below : byte < 65) : lowerByte byte = byte :=
  if_neg fun upper => absurd below (UInt8.not_lt.mpr upper.1)

theorem lowerByte_eq_dot_iff {byte : UInt8} : lowerByte byte = 46 ↔ byte = 46 := by
  obtain ⟨⟨value⟩⟩ := byte
  revert value
  decide +kernel

/-- Labels in lower case. -/
def lowerLabels (labels : List (List UInt8)) : List (List UInt8) := labels.map (List.map lowerByte)

theorem lowerLabels_cons (label : List UInt8) (labels : List (List UInt8)) :
    lowerLabels (label :: labels) = label.map lowerByte :: lowerLabels labels := rfl

theorem map_length_lowerLabels (labels : List (List UInt8)) :
    (lowerLabels labels).map List.length = labels.map List.length := by
  rw [lowerLabels, List.map_map]
  exact List.map_congr_left fun label _ => List.length_map _

/-- Labels that differ in their case alone have the same lengths. -/
theorem lowerLabels_length {labels other : List (List UInt8)}
    (same : lowerLabels other = lowerLabels labels) :
    other.map List.length = labels.map List.length := by
  rw [← map_length_lowerLabels other, same, map_length_lowerLabels]

theorem dotted_lower (labels : List (List UInt8)) :
    (dotted labels).map lowerByte = dotted (lowerLabels labels) := by
  induction labels with
  | nil => rfl
  | cons label labels ih =>
      cases labels with
      | nil => simp [dotted_singleton, lowerLabels]
      | cons other labels =>
          rw [dotted_cons_cons, List.map_append, List.map_cons, ih]
          exact (dotted_cons_cons _ _ _).symm

/-- A dotted text of labels does not end in a dot. -/
theorem dotted_getLast? {labels : List (List UInt8)}
    (nonempty : ∀ label ∈ labels, 1 ≤ label.length) (noDot : ∀ label ∈ labels, 46 ∉ label) :
    (dotted labels).getLast? ≠ some 46 := by
  induction labels with
  | nil => exact fun impossible => absurd impossible (Option.some_ne_none _).symm
  | cons label labels ih =>
      cases labels with
      | nil =>
          rw [dotted_singleton]
          exact fun isDot => noDot label (List.mem_cons_self ..) (List.mem_of_getLast? isDot)
      | cons other labels =>
          have others := ih (fun next member => nonempty next (List.mem_cons_of_mem _ member))
            (fun next member => noDot next (List.mem_cons_of_mem _ member))
          rw [dotted_cons_cons, List.getLast?_append, List.getLast?_cons]
          cases last : (dotted (other :: labels)).getLast? with
          | some byte => simpa [last] using others
          | none =>
              have empty := List.getLast?_eq_none_iff.mp last
              have positive := nonempty other (by simp)
              cases labels with
              | nil => simp_all [dotted_singleton]
              | cons _ _ => simp [dotted_cons_cons] at empty

theorem lowerLabels_nonempty {labels : List (List UInt8)}
    (nonempty : ∀ label ∈ labels, 1 ≤ label.length) :
    ∀ label ∈ lowerLabels labels, 1 ≤ label.length := by
  intro label member
  obtain ⟨original, isLabel, rfl⟩ := List.mem_map.mp member
  rw [List.length_map]
  exact nonempty original isLabel

theorem lowerLabels_noDot {labels : List (List UInt8)} (noDot : ∀ label ∈ labels, 46 ∉ label) :
    ∀ label ∈ lowerLabels labels, 46 ∉ label := by
  intro label member isDot
  obtain ⟨original, isLabel, rfl⟩ := List.mem_map.mp member
  obtain ⟨byte, inLabel, lowered⟩ := List.mem_map.mp isDot
  exact noDot original isLabel (lowerByte_eq_dot_iff.mp lowered ▸ inLabel)

/-- **The wire form of a dotted text** is the encoding of its labels in lower
case. -/
theorem stringToWire_dotted {labels : List (List UInt8)}
    (nonempty : ∀ label ∈ labels, 1 ≤ label.length) (noDot : ∀ label ∈ labels, 46 ∉ label) :
    stringToWire (dotted labels) true = encodeLabels (lowerLabels labels) := by
  have lowerNonempty := lowerLabels_nonempty nonempty
  have lowerNoDot := lowerLabels_noDot noDot
  simp only [stringToWire, dotted_lower, if_neg (dotted_getLast? lowerNonempty lowerNoDot),
    if_true]
  rw [stringToWireLoop_dotted lowerNonempty lowerNoDot (Nat.le_refl _), encodeLabels]

/-- Folding the case of an encoded name folds that of its labels: the lengths
are no letters. -/
theorem encodeLabels_lower {labels : List (List UInt8)}
    (short : ∀ label ∈ labels, label.length ≤ 63) :
    (encodeLabels labels).map lowerByte = encodeLabels (lowerLabels labels) := by
  induction labels with
  | nil => rfl
  | cons label labels ih =>
      have atMost := short label (List.mem_cons_self ..)
      have others := ih fun other member => short other (List.mem_cons_of_mem _ member)
      have length : lowerByte (UInt8.ofNat label.length) = UInt8.ofNat label.length := by
        refine lowerByte_of_lt ?_
        rw [UInt8.lt_iff_toNat_lt, ofNat8_toNat (by omega)]
        have sixtyFive : (65 : UInt8).toNat = 65 := rfl
        omega
      rw [encodeLabels_cons, List.map_append, others, encodeLabel, List.map_cons, length]
      rw [lowerLabels_cons, encodeLabels_cons, encodeLabel, List.length_map]

theorem dotted_length (label : List UInt8) (labels : List (List UInt8)) :
    (encodeLabels (label :: labels)).length = (dotted (label :: labels)).length + 2 := by
  induction labels generalizing label with
  | nil => simp [encodeLabels, encodeLabel, dotted_singleton]
  | cons other labels ih =>
      rw [encodeLabels_cons, List.length_append, encodeLabel_length, ih, dotted_cons_cons,
        List.length_append, List.length_cons]
      omega

theorem dotted_cons (label : List UInt8) (labels : List (List UInt8)) :
    dotted (label :: labels) = label ++ labels.flatMap (46 :: ·) := by
  induction labels generalizing label with
  | nil => rw [dotted_singleton, List.flatMap_nil, List.append_nil]
  | cons other labels ih => rw [dotted_cons_cons, ih, List.flatMap_cons, List.cons_append]

/-- What the loop over a name reads of its first label. -/
theorem wireToDomainLoop_cons {memory label : List UInt8} {labels : List (List UInt8)}
    {len left i : Nat} {result : List UInt8} (positive : 1 ≤ label.length)
    (atMost : label.length < 256) (holds : encodeLabels (label :: labels) <+: memory.drop i)
    (inside : i + (encodeLabels (label :: labels)).length ≤ len) :
    wireToDomainLoop memory len (left + 1) i result =
      wireToDomainLoop memory len left (i + (label.length + 1))
        ((if result = [] then result else result ++ [46]) ++ label) := by
  rw [encodeLabels_cons] at holds inside
  have length : (UInt8.ofNat label.length).toNat = label.length := ofNat8_toNat atMost
  have notRoot : UInt8.ofNat label.length ≠ 0 := ofNat8_ne_zero positive atMost
  have first : memory.getD i 0 = UInt8.ofNat label.length := (getD_of_isPrefix holds).2
  have before : i < len := by
    rw [List.length_append, encodeLabel_length] at inside
    omega
  have behind : label ++ encodeLabels labels <+: memory.drop (i + 1) :=
    @prefix_behind memory [UInt8.ofNat label.length] (label ++ encodeLabels labels) i holds
  have read : (memory.drop (i + 1)).take label.length = label :=
    (List.prefix_iff_eq_take.mp ((List.prefix_append ..).trans behind)).symm
  have next : i + 1 + label.length = i + (label.length + 1) := by omega
  simp only [wireToDomainLoop, first, before, notRoot, ne_eq, not_false_eq_true, and_self, if_true,
    length, read, next]

/-- The loop appends the labels, each behind a dot. -/
theorem wireToDomainLoop_labels {memory : List UInt8} {labels : List (List UInt8)}
    (nonempty : ∀ label ∈ labels, 1 ≤ label.length) (small : ∀ label ∈ labels, label.length < 256)
    {len left i : Nat} {result : List UInt8} (started : result ≠ [])
    (holds : encodeLabels labels <+: memory.drop i)
    (inside : i + (encodeLabels labels).length ≤ len) (enough : labels.length ≤ left) :
    wireToDomainLoop memory len left i result = result ++ labels.flatMap (46 :: ·) := by
  induction labels generalizing left i result with
  | nil =>
      rw [List.flatMap_nil, List.append_nil]
      cases left with
      | zero => rfl
      | succ left =>
          have isRoot : memory.getD i 0 = 0 := (getD_of_isPrefix holds).2
          simp only [wireToDomainLoop, isRoot, ne_eq, not_true_eq_false, and_false, if_false]
  | cons label labels ih =>
      obtain ⟨left, rfl⟩ := Nat.exists_eq_add_of_le' (Nat.one_le_of_lt enough)
      have positive := nonempty label (List.mem_cons_self ..)
      have atMost := small label (List.mem_cons_self ..)
      have behind : encodeLabels labels <+: memory.drop (i + (label.length + 1)) := by
        rw [encodeLabels_cons] at holds
        exact prefix_behind holds
      have inside' : i + (label.length + 1) + (encodeLabels labels).length ≤ len := by
        rw [encodeLabels_cons, List.length_append, encodeLabel_length] at inside
        omega
      rw [wireToDomainLoop_cons positive atMost holds inside, if_neg started,
        ih (fun other member => nonempty other (List.mem_cons_of_mem _ member))
          (fun other member => small other (List.mem_cons_of_mem _ member)) (by simp [started])
          behind inside' (Nat.le_of_succ_le_succ enough)]
      simp

/-- **The text of a wire name** is that of its labels, whatever lies behind it in
memory. -/
theorem wireToDomain_labels {labels : List (List UInt8)}
    (nonempty : ∀ label ∈ labels, 1 ≤ label.length) (small : ∀ label ∈ labels, label.length < 256)
    (behind : List UInt8) :
    wireToDomain (encodeLabels labels ++ behind) (encodeLabels labels).length = dotted labels := by
  have holds : encodeLabels labels <+: (encodeLabels labels ++ behind).drop 0 :=
    List.prefix_append ..
  rw [wireToDomain]
  cases labels with
  | nil => rfl
  | cons label labels =>
      have positive := nonempty label (List.mem_cons_self ..)
      have atMost := small label (List.mem_cons_self ..)
      obtain ⟨left, isLength⟩ :=
        Nat.exists_eq_add_of_le' (encodeLabels_length_pos (label :: labels))
      have others : encodeLabels labels <+:
          (encodeLabels (label :: labels) ++ behind).drop (0 + (label.length + 1)) := by
        rw [encodeLabels_cons] at holds ⊢
        exact @prefix_behind _ (encodeLabel label) (encodeLabels labels) 0 holds
      have inside : 0 + (label.length + 1) + (encodeLabels labels).length ≤
          (encodeLabels (label :: labels)).length := by
        rw [encodeLabels_cons, List.length_append, encodeLabel_length]
        omega
      have twoEach := labels_length_le nonempty
      have enough : labels.length ≤ left := by
        rw [List.length_cons, isLength] at twoEach
        omega
      have started : label ≠ [] := List.ne_nil_of_length_pos positive
      have loop := @wireToDomainLoop_cons (encodeLabels (label :: labels) ++ behind) label labels
        (encodeLabels (label :: labels)).length left 0 [] positive atMost holds (by omega)
      rw [← isLength, if_pos rfl, List.nil_append] at loop
      rw [loop, dotted_cons]
      exact wireToDomainLoop_labels
        (fun other member => nonempty other (List.mem_cons_of_mem _ member))
        (fun other member => small other (List.mem_cons_of_mem _ member))
        started others inside enough

/-- One index is recorded for each label, up to the limit, and from the index of a
label on the labels from it on are encoded. -/
theorem labelIndices_labels {wire : List UInt8} {labels : List (List UInt8)}
    (nonempty : ∀ label ∈ labels, 1 ≤ label.length)
    (small : ∀ label ∈ labels, label.length < 256) {left i : Nat}
    (holds : wire.drop i = encodeLabels labels) :
    (labelIndices wire left i).length = min left labels.length ∧
      ∀ place index, (labelIndices wire left i)[place]? = some index →
        wire.drop index = encodeLabels (labels.drop place) := by
  induction labels generalizing left i with
  | nil =>
      have isRoot : wire[i]? = some 0 := by
        rw [← Nat.add_zero i, ← List.getElem?_drop, holds]
        rfl
      cases left <;> simp [labelIndices, isRoot]
  | cons label labels ih =>
      have positive := nonempty label (List.mem_cons_self ..)
      have atMost := small label (List.mem_cons_self ..)
      have length : (UInt8.ofNat label.length).toNat = label.length := ofNat8_toNat atMost
      have notRoot : UInt8.ofNat label.length ≠ 0 := ofNat8_ne_zero positive atMost
      have isLength : wire[i]? = some (UInt8.ofNat label.length) := by
        rw [← Nat.add_zero i, ← List.getElem?_drop, holds]
        rfl
      have behind : wire.drop (i + label.length + 1) = encodeLabels labels := by
        rw [Nat.add_assoc, ← List.drop_drop, holds, encodeLabels_cons]
        exact List.drop_left
      cases left with
      | zero => simp [labelIndices]
      | succ left =>
          obtain ⟨count, starts⟩ := @ih
            (fun other member => nonempty other (List.mem_cons_of_mem _ member))
            (fun other member => small other (List.mem_cons_of_mem _ member)) left _ behind
          rw [labelIndices, isLength]
          simp only [notRoot, if_false, length]
          refine ⟨by rw [List.length_cons, count, List.length_cons]; omega, ?_⟩
          intro place index isIndex
          cases place with
          | zero =>
              obtain rfl := Option.some.inj isIndex
              exact holds
          | succ place => exact starts place index isIndex

/-- **The zone of a wire name** consists of the labels from the last but one of those
that are recorded on. -/
theorem getHostWireFromWireNoAlloc_eq {labels : List (List UInt8)}
    (nonempty : ∀ label ∈ labels, 1 ≤ label.length)
    (small : ∀ label ∈ labels, label.length < 256) {outCap : Nat}
    (fits : (encodeLabels labels).length ≤ outCap) (notRoot : labels ≠ []) :
    getHostWireFromWireNoAlloc (encodeLabels labels) outCap =
      encodeLabels (labels.drop (min 16 labels.length - 2)) := by
  obtain ⟨label, others, rfl⟩ := List.exists_cons_of_ne_nil notRoot
  have first : ¬ (encodeLabels (label :: others) = [] ∨
      (encodeLabels (label :: others)).head? = some 0) := by
    have notZero := ofNat8_ne_zero (nonempty label (List.mem_cons_self ..))
      (small label (List.mem_cons_self ..))
    simp [encodeLabels_cons, encodeLabel, notZero]
  obtain ⟨count, starts⟩ := @labelIndices_labels (encodeLabels (label :: others)) _ nonempty small
    16 0 rfl
  rw [getHostWireFromWireNoAlloc, if_neg first]
  have begins : (encodeLabels (label :: others)).drop
      (if 2 < (labelIndices (encodeLabels (label :: others)) 16 0).length then
        (labelIndices (encodeLabels (label :: others)) 16 0).getD
          ((labelIndices (encodeLabels (label :: others)) 16 0).length - 2) 0
      else 0) = encodeLabels ((label :: others).drop (min 16 (label :: others).length - 2)) := by
    rw [count]
    split
    · next many =>
        have inside : min 16 (label :: others).length - 2 <
            (labelIndices (encodeLabels (label :: others)) 16 0).length := by
          rw [count]
          omega
        rw [List.getD_eq_getElem?_getD, List.getElem?_eq_getElem inside, Option.getD_some]
        exact starts _ _ (List.getElem?_eq_getElem inside)
    · next few =>
        have isZero : min 16 (label :: others).length - 2 = 0 := by omega
        rw [isZero]
        rfl
  have shorter := congrArg List.length begins
  rw [List.length_drop] at shorter
  simp only [begins]
  exact List.take_of_length_le (by omega)

/-- The zone of a wire name is empty or consists of its last labels. -/
theorem getHostWireFromWireNoAlloc_labels {labels : List (List UInt8)}
    (nonempty : ∀ label ∈ labels, 1 ≤ label.length)
    (small : ∀ label ∈ labels, label.length < 256) {outCap : Nat}
    (fits : (encodeLabels labels).length ≤ outCap) :
    getHostWireFromWireNoAlloc (encodeLabels labels) outCap = [] ∨
      ∃ suffix, suffix <:+ labels ∧
        getHostWireFromWireNoAlloc (encodeLabels labels) outCap = encodeLabels suffix := by
  by_cases isRoot : labels = []
  · subst isRoot
    exact .inl rfl
  · exact .inr ⟨_, List.drop_suffix .., getHostWireFromWireNoAlloc_eq nonempty small fits isRoot⟩

end EdgeDNS.Utils
