import EdgeDNS.Cache.MmapRecords
import EdgeDNS.Utils.Vector

/-!
# Names as text and on the wire

`stringToWire` and `wireToDomain` are inverse to each other on names in lower
case, for labels as long as a length byte can say. Neither checks more.

The synchronization stores a record under the wire form of the text of its name,
a query is looked up under its wire name with the case folded, and the text for
the database is made from that wire name. `nameRoundTrips` says that all three
speak of the same name.
-/

set_option autoImplicit false

namespace EdgeDNS.Utils

open Dns

/-- Labels that the codec can tell apart: of 1 to 255 bytes each, and without dots. -/
structure CodecLabels (labels : List (List UInt8)) : Prop where
  nonempty : ∀ label ∈ labels, 1 ≤ label.length
  small : ∀ label ∈ labels, label.length ≤ 255
  noDot : ∀ label ∈ labels, 46 ∉ label

/-- The text and the wire form of a name are made from each other, up to its case, and
the wire forms of all cases have one key. -/
structure NameRoundTrips (labels : List (List UInt8)) : Prop where
  encode : stringToWire (dotted labels) true = encodeLabels (lowerLabels labels)
  encodeDot : stringToWire (dotted labels ++ [46]) true = encodeLabels (lowerLabels labels)
  decode : ∀ behind, wireToDomain (encodeLabels (lowerLabels labels) ++ behind)
    (encodeLabels (lowerLabels labels)).length = (dotted labels).map lowerByte
  lowerWire : ∀ behind, stringToWire (wireToDomain (encodeLabels (lowerLabels labels) ++ behind)
    (encodeLabels (lowerLabels labels)).length) true = encodeLabels (lowerLabels labels)
  wire : ∀ behind, stringToWire (wireToDomain (encodeLabels labels ++ behind)
    (encodeLabels labels).length) true = encodeLabels (lowerLabels labels)
  key : Records.calculateHash (stringToWire (dotted labels) true) =
    Records.calculateHash ((encodeLabels labels).map lowerByte)
  queried : (∀ label ∈ labels, label.length ≤ 63) →
    (encodeLabels labels).map lowerByte = stringToWire (dotted labels) true

namespace CodecLabels

variable {labels : List (List UInt8)} (codec : CodecLabels labels)

include codec

theorem lower : CodecLabels (lowerLabels labels) where
  nonempty := lowerLabels_nonempty codec.nonempty
  small label member := by
    obtain ⟨original, isLabel, rfl⟩ := List.mem_map.mp member
    rw [List.length_map]
    exact codec.small original isLabel
  noDot := lowerLabels_noDot codec.noDot

theorem wireToDomain_eq (behind : List UInt8) :
    wireToDomain (encodeLabels labels ++ behind) (encodeLabels labels).length = dotted labels :=
  wireToDomain_labels codec.nonempty
    (fun label member => Nat.lt_succ_of_le (codec.small label member)) behind

end CodecLabels

/-- A dot at the end of a text is dropped. -/
theorem stringToWire_dot {labels : List (List UInt8)} (codec : CodecLabels labels) :
    stringToWire (dotted labels ++ [46]) true = encodeLabels (lowerLabels labels) := by
  have isDot : lowerByte 46 = 46 := by decide
  have text : (dotted labels ++ [46]).map lowerByte = dotted (lowerLabels labels) ++ [46] := by
    rw [List.map_append, dotted_lower, List.map_singleton, isDot]
  simp only [stringToWire, text, List.getLast?_concat, if_true, List.dropLast_concat]
  rw [stringToWireLoop_dotted codec.lower.nonempty codec.lower.noDot (Nat.le_refl _), encodeLabels]

theorem lowerLabels_lowerLabels (labels : List (List UInt8)) :
    lowerLabels (lowerLabels labels) = lowerLabels labels := by
  have sameByte : lowerByte ∘ lowerByte = lowerByte := funext lowerByte_lowerByte
  rw [lowerLabels, lowerLabels, List.map_map]
  refine List.map_congr_left fun label _ => ?_
  rw [Function.comp_apply, List.map_map, sameByte]

/-- Folding the case of a whole wire name undoes the case of its labels. -/
theorem encodeLabels_map_lowerByte (labels : List (List UInt8)) :
    (encodeLabels (lowerLabels labels)).map lowerByte = (encodeLabels labels).map lowerByte := by
  induction labels with
  | nil => rfl
  | cons label labels ih =>
      have sameByte : lowerByte ∘ lowerByte = lowerByte := funext lowerByte_lowerByte
      rw [lowerLabels_cons, encodeLabels_cons, encodeLabels_cons, List.map_append, List.map_append,
        ih, encodeLabel, encodeLabel, List.map_cons, List.map_cons, List.map_map, List.length_map,
        sameByte]

/-- The cache does not see the case of a name. -/
theorem calculateHash_lower (labels : List (List UInt8)) :
    Records.calculateHash (encodeLabels (lowerLabels labels)) =
      Records.calculateHash ((encodeLabels labels).map lowerByte) := by
  rw [Records.calculateHash, Records.calculateHash, ← foldedHash_map_lowerByte,
    encodeLabels_map_lowerByte]

/-- **The name codec round trip.** -/
theorem nameRoundTrips (labels : List (List UInt8)) (codec : CodecLabels labels) :
    NameRoundTrips labels := by
  have encode := stringToWire_dotted codec.nonempty codec.noDot
  exact
    { encode := encode
      encodeDot := stringToWire_dot codec
      decode := fun behind => by rw [codec.lower.wireToDomain_eq, dotted_lower]
      lowerWire := fun behind => by
        rw [codec.lower.wireToDomain_eq,
          stringToWire_dotted codec.lower.nonempty codec.lower.noDot, lowerLabels_lowerLabels]
      wire := fun behind => by rw [codec.wireToDomain_eq, encode]
      key := by rw [encode, calculateHash_lower]
      queried := fun short => by rw [encodeLabels_lower short, encode] }

/-- The name `A.b` with its two labels. -/
theorem nameRoundTrips_ab : NameRoundTrips [[65], [98]] :=
  nameRoundTrips [[65], [98]] ⟨by decide, by decide, by decide⟩

end EdgeDNS.Utils
