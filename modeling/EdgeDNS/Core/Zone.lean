import EdgeDNS.Core.CompleteAnswers

/-!
# The zone of a query

On a cache miss the handler asks the database for the records of a name in its
zone, which is meant to be the last two labels of the name. The zone is cut from
the wire name at the last but one of the label offsets that are recorded, and no
more than sixteen are.

`zone_extracted_iff` says that this gives the zone exactly for names of at most
sixteen labels.
-/

set_option autoImplicit false

namespace EdgeDNS.Core

open Utils Wire

/-- The last two labels of a name. -/
def lastTwo (labels : List (List UInt8)) : List (List UInt8) := labels.drop (labels.length - 2)

/-- The zone of a name is its last two labels on the wire, and the database is asked
for it. -/
structure ZoneExtracted (labels : List (List UInt8)) : Prop where
  zone : getHostWireFromWireNoAlloc (Dns.encodeLabels labels) nameSize =
    Dns.encodeLabels (lastTwo labels)
  queried : ∀ (database : Database) (request : Request) (query : Query),
    ParsesLabels request labels query →
      databaseRecords database request query =
        database.getRecord (dotted (lastTwo (lowerLabels labels)))
          (dotted (lowerLabels labels)) query.qtype.toNat

section Zone

variable {labels : List (List UInt8)} (valid : Dns.ValidLabels labels)

include valid

theorem zone_eq (notRoot : labels ≠ []) :
    getHostWireFromWireNoAlloc (Dns.encodeLabels labels) nameSize =
      Dns.encodeLabels (labels.drop (min 16 labels.length - 2)) := by
  have total := valid.total
  refine getHostWireFromWireNoAlloc_eq valid.nonempty valid.small ?_ notRoot
  rw [nameSize]
  omega

/-- The zone of a name of at most sixteen labels. -/
theorem zone_of_few (two : 2 ≤ labels.length) (few : labels.length ≤ 16) :
    getHostWireFromWireNoAlloc (Dns.encodeLabels labels) nameSize =
      Dns.encodeLabels (lastTwo labels) := by
  have notRoot : labels ≠ [] := List.ne_nil_of_length_pos (by omega)
  rw [zone_eq valid notRoot, Nat.min_eq_right few, lastTwo]

/-- The zone of a longer name has labels in front of the last two. -/
theorem zone_of_many (many : 16 < labels.length) :
    getHostWireFromWireNoAlloc (Dns.encodeLabels labels) nameSize ≠
      Dns.encodeLabels (lastTwo labels) := by
  have notRoot : labels ≠ [] := List.ne_nil_of_length_pos (by omega)
  rw [zone_eq valid notRoot, Nat.min_eq_left (Nat.le_of_lt many), lastTwo]
  intro same
  have front : labels.drop 14 =
      (labels.drop 14).take (labels.length - 16) ++ labels.drop (labels.length - 2) := by
    have isDrop : labels.drop (labels.length - 2) =
        (labels.drop 14).drop (labels.length - 16) := by
      rw [List.drop_drop]
      congr 1
      omega
    rw [isDrop, List.take_append_drop]
  have lengths := congrArg List.length same
  have more : 1 ≤ ((labels.drop 14).take (labels.length - 16)).length := by
    rw [List.length_take, List.length_drop]
    omega
  obtain ⟨label, others, isFront⟩ := List.exists_cons_of_length_pos more
  rw [front, isFront] at lengths
  simp only [Dns.encodeLabels, List.flatMap_append, List.flatMap_cons, List.length_append,
    Dns.encodeLabel_length] at lengths
  omega

end Zone

/-- **The zone is the last two labels** exactly for names of at most sixteen labels. -/
theorem zone_extracted_iff (labels : List (List UInt8)) (valid : Dns.ValidLabels labels)
    (two : 2 ≤ labels.length) : ZoneExtracted labels ↔ labels.length ≤ 16 := by
  constructor
  · intro extracted
    by_contra many
    exact zone_of_many valid (Nat.lt_of_not_le many) extracted.zone
  · intro few
    refine ⟨zone_of_few valid two few, fun database request query asked => ?_⟩
    have lower := valid.of_lengths (map_length_lowerLabels labels)
    have count : (lowerLabels labels).length = labels.length := List.length_map _
    have name : query.nameWire = Dns.encodeLabels (lowerLabels labels) :=
      asked.name.trans (encodeLabels_lower valid.short)
    have text : ∀ {labels : List (List UInt8)}, (∀ label ∈ labels, 1 ≤ label.length) →
        (∀ label ∈ labels, label.length < 256) →
        wireToDomain (Dns.encodeLabels labels) (Dns.encodeLabels labels).length =
          dotted labels := by
      intro labels nonempty small
      have behindNothing := wireToDomain_labels nonempty small []
      rwa [List.append_nil] at behindNothing
    have isSuffix : lastTwo (lowerLabels labels) <:+ lowerLabels labels := List.drop_suffix ..
    rw [databaseRecords_eq request lower name, definedRows, name,
      zone_of_few lower (by omega) (by omega), text lower.nonempty lower.small,
      text (fun label member => lower.nonempty label (isSuffix.mem member))
        fun label member => lower.small label (isSuffix.mem member)]

/-- A name of seventeen labels. -/
def seventeenLabels : List (List UInt8) := List.replicate 17 [97]

theorem seventeenLabels_valid : Dns.ValidLabels seventeenLabels :=
  ⟨by decide, by decide, by decide⟩

/-- **The zone of a long name is too long**: it has three labels. -/
theorem zone_of_seventeen :
    Dns.ValidLabels seventeenLabels ∧ 2 ≤ seventeenLabels.length ∧
      getHostWireFromWireNoAlloc (Dns.encodeLabels seventeenLabels) nameSize =
        Dns.encodeLabels [[97], [97], [97]] ∧
      ¬ ZoneExtracted seventeenLabels := by
  refine ⟨seventeenLabels_valid, by decide, by decide, fun extracted => ?_⟩
  exact absurd extracted.zone (by decide)

theorem zone_extracted_iff_two : ZoneExtracted [[97], [98]] ↔
    ([[97], [98]] : List (List UInt8)).length ≤ 16 :=
  zone_extracted_iff [[97], [98]] ⟨by decide, by decide, by decide⟩ (by decide)

end EdgeDNS.Core
