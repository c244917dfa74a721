import EdgeDNS.Cache.IpGroupText
import EdgeDNS.Cache.MmapRecords

/-!
# The cycle of a probe

The two caches probe their tables with one loop, which ends at a bucket that stops it
or back at its start. The mask is the size of the table less one, and no size of the
source is a power of two, so that a probe does not see the whole table.

For a table of any size the indices of a probe return to the start after `2 ^ r` steps,
`r` being the number of one bits the mask ends in, and they differ until then. So the
loop ends, and it finds the first index of the cycle that stops it
(`find_bucket_probes_cycle`). The tables of 100000 buckets have cycles of 32
(`cycleLength_hashTableSize`).
-/

set_option autoImplicit false

namespace EdgeDNS

open Probing Utils

/-- The probe loop for the text of a country code, over a table of any size. -/
def IpGroup.probeTableText (size : Nat) (hashTable : Nat → IpGroup.IndexBucket) (hash : UInt64)
    (text : List UInt8) : Option (Option Nat) :=
  probeLoop (maskedStep (size - 1)) (IpGroup.Mmap.probeStopsText hashTable hash text)
    (hash.toNat &&& (size - 1)) size (hash.toNat &&& (size - 1))

/-- A cache probes for a text with this loop, over the size of its own table. -/
theorem IpGroup.Mmap.findBucketText_eq (m : IpGroup.Mmap) (hash : UInt64) (text : List UInt8) :
    m.findBucketText hash text =
      (IpGroup.probeTableText IpGroup.hashTableSize m.hashTable hash text).join := rfl

/-- The index of a probe after some steps, in a table of the given size. -/
def probeIndex (size : Nat) (hash : UInt64) (steps : Nat) : Nat :=
  (maskedStep (size - 1))^[steps] (hash.toNat &&& (size - 1))

/-- The number of indices that a probe runs through. -/
def cycleLength (size : Nat) : Nat := 2 ^ trailingOnes (size - 1)

/-- A probe runs through a cycle of the table and returns. Its result is the first index of the
cycle where a bucket stops it, and none exactly when no bucket of the cycle does. -/
structure ProbesCycle (size : Nat) (hash : UInt64) (stops : Nat → Prop)
    (result : Option (Option Nat)) : Prop where
  below : ∀ steps, probeIndex size hash steps < size
  returns : probeIndex size hash (cycleLength size) = probeIndex size hash 0
  distinct : ∀ first < cycleLength size, ∀ second < cycleLength size,
    probeIndex size hash first = probeIndex size hash second → first = second
  terminates : result ≠ none
  found : ∀ index, result = some (some index) ↔ ∃ steps < cycleLength size,
    probeIndex size hash steps = index ∧ stops index ∧
      ∀ earlier < steps, ¬ stops (probeIndex size hash earlier)
  exhausted : result = some none ↔
    ∀ steps < cycleLength size, ¬ stops (probeIndex size hash steps)

theorem cycleLength_pos (size : Nat) : 0 < cycleLength size := Nat.two_pow_pos _

/-- A cycle fits into the table. -/
theorem cycleLength_le {size : Nat} (positive : 1 ≤ size) : cycleLength size ≤ size := by
  obtain ⟨high, isMask⟩ := trailingOnes_spec (size - 1)
  have atLeast := Nat.two_pow_pos (trailingOnes (size - 1))
  rw [cycleLength]
  omega

/-- The tables of the caches have cycles of 32 buckets. -/
theorem cycleLength_hashTableSize : cycleLength Records.hashTableSize = 32 := by
  rw [cycleLength, Records.hashTableSize]
  simp [trailingOnes]

/-- **A probe of a table of any size** runs through its cycle. -/
theorem probesCycle {size : Nat} (positive : 1 ≤ size) (hash : UInt64) {stop : Nat → Bool}
    {stops : Nat → Prop} (isStop : ∀ index, stop index = true ↔ stops index) :
    ProbesCycle size hash stops (probeLoop (maskedStep (size - 1)) stop
      (hash.toNat &&& (size - 1)) size (hash.toNat &&& (size - 1))) := by
  have ones := trailingOnes_spec (size - 1)
  have closes := maskedStep_iterate_period ones hash.toNat
  have enough := cycleLength_le positive
  have continues : ∀ index, stop index = false ↔ ¬ stops index := by
    intro index
    rw [← isStop, Bool.not_eq_true]
  refine
    { below := fun steps => ?_
      returns := closes
      distinct := fun first isFirst second isSecond =>
        maskedStep_iterate_injective ones hash.toNat isFirst isSecond
      terminates := ?_
      found := fun index => ?_
      exhausted := ?_ }
  · have atMost := maskedStep_iterate_le hash.toNat (size - 1) steps
    rw [probeIndex]
    omega
  · rw [← Option.isSome_iff_ne_none]
    exact probeLoop_isSome closes enough (cycleLength_pos size)
  · rw [probeLoop_found_iff closes enough (cycleLength_pos size)]
    simp only [isStop, continues]
    rfl
  · rw [probeLoop_exhausted_iff closes enough (cycleLength_pos size)]
    simp only [continues]
    rfl

/-- **The probe loop of `find_bucket`**, in both caches: it ends at the first bucket of its cycle
that is empty or has the key, and in vain exactly when other keys have all of them. The second
cache compares a stored code with a code or with the text of one. -/
theorem find_bucket_probes_cycle (size : Nat) (positive : 1 ≤ size) (hash : UInt64) :
    (∀ (hashTable : Nat → Records.IndexBucket) (qtype : Int),
      ProbesCycle size hash
        (fun index => (hashTable index).nameHash = 0 ∨
          (hashTable index).nameHash = hash ∧ (hashTable index).qtype = qtype)
        (Records.probeTable size hashTable hash qtype)) ∧
      (∀ (hashTable : Nat → IpGroup.IndexBucket) (countryCode : IpGroup.CountryCode),
        ProbesCycle size hash
          (fun index => (hashTable index).groupIdHash = 0 ∨
            (hashTable index).groupIdHash = hash ∧ (hashTable index).countryCode = countryCode)
          (IpGroup.probeTable size hashTable hash countryCode)) ∧
      ∀ (hashTable : Nat → IpGroup.IndexBucket) (text : List UInt8),
        ProbesCycle size hash
          (fun index => (hashTable index).groupIdHash = 0 ∨
            (hashTable index).groupIdHash = hash ∧
              (hashTable index).countryCode.chars = cString text)
          (IpGroup.probeTableText size hashTable hash text) := by
  refine ⟨fun hashTable qtype => ?_, fun hashTable countryCode => ?_, fun hashTable text => ?_⟩
  · exact probesCycle positive hash fun index => by simp [Records.probeStops]
  · exact probesCycle positive hash fun index => by simp [IpGroup.probeStops]
  · exact probesCycle positive hash fun index => by simp [IpGroup.Mmap.probeStopsText]

/-- A table that is full of one key. -/
def fullTable : Nat → Records.IndexBucket := fun _ => ⟨9, 1, 0⟩

theorem find_bucket_probes_cycle_full :
    1 ≤ 100000 ∧ Records.probeTable 100000 fullTable 7 1 = some none := by
  have cycle := (find_bucket_probes_cycle 100000 (by decide) 7).1 fullTable 1
  refine ⟨by decide, cycle.exhausted.mpr ?_⟩
  rintro steps - (isFree | ⟨isKey, -⟩)
  · exact absurd isFree (by simp [fullTable])
  · exact absurd isKey (by simp [fullTable])

end EdgeDNS
