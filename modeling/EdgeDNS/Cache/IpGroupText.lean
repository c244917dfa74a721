import EdgeDNS.Cache.IpGroupEntered
import EdgeDNS.Utils.String
import Mathlib.Data.List.TakeWhile

/-!
# Country codes as texts

A sync request passes the address cache a text of up to 31 characters for a
country code. The cache stores seven of them and compares eight, so a longer
text matches no bucket and its probe ends only at an empty one. For texts of up
to seven characters the functions are those of `IpGroup.Mmap` (`findBucketText_short`).

Appends under long texts are further ways to change the cache. They too keep
every used slot entered (`Entered.runText`).
-/

set_option autoImplicit false

namespace EdgeDNS.IpGroup

open Probing Utils

/-- The code that seven bytes of a text leave in a cleared array. -/
def CountryCode.ofText (text : List UInt8) : CountryCode where
  chars := (cString text).take 7
  short := List.length_take_le ..
  noEnd := fun isEnd => by
    have kept := List.mem_takeWhile_imp (List.mem_of_mem_take isEnd)
    exact absurd kept (by decide)

namespace Mmap

/-- The comparison of a probe with a text: no stored code is longer than seven
characters. -/
def probeStopsText (hashTable : Nat → IndexBucket) (hash : UInt64) (text : List UInt8)
    (index : Nat) : Bool :=
  (hashTable index).groupIdHash == 0 ||
    ((hashTable index).groupIdHash == hash &&
      (hashTable index).countryCode.chars == cString text)

/-- The probe for a group and a country text. The text is compared with the codes of the
buckets as it came. -/
def findBucketText (m : Mmap) (hash : UInt64) (text : List UInt8) : Option Nat :=
  (probeLoop (maskedStep (hashTableSize - 1)) (probeStopsText m.hashTable hash text)
    (hash.toNat &&& (hashTableSize - 1)) hashTableSize
    (hash.toNat &&& (hashTableSize - 1))).join

/-- The lookup of a group and a country text. -/
def getRecordText (m : Mmap) (groupId : CassUuid) (text : List UInt8) :
    List IpGroupEntryResponse :=
  match m.findBucketText (calculateHashFromUuid groupId) text with
  | none => []
  | some bucketIdx =>
      if (m.hashTable bucketIdx).groupIdHash = 0 then []
      else m.getRecordLoop maxDataRecords (m.hashTable bucketIdx).headSlotIdx

/-- The append under a country text of any length. It is compared as it came, and stored
as what fits. -/
def appendRecordText (m : Mmap) (groupId id : CassUuid) (text : List UInt8) (val : Address)
    (priority : Int) : Bool × Mmap :=
  let hash := calculateHashFromUuid groupId
  match m.findBucketText hash text with
  | none => (false, m)
  | some bucketIdx =>
      if m.idHashTable (idSlot id) ≠ -1 then (false, m)
      else
        match m.popFreeSlot with
        | none => (false, m)
        | some (newSlotIdx, popped) =>
            (true, (popped.fillSlot newSlotIdx groupId id (.ofText text) val priority).linkSlot
              hash bucketIdx newSlotIdx)

/-- An update writes seven bytes of the text and compares none. -/
def updateRecordText (m : Mmap) (groupId id : CassUuid) (text : List UInt8) (val : Address)
    (priority : Int) : Bool × Mmap :=
  m.updateRecord groupId id (.ofText text) val priority

end Mmap

section Texts

variable {m : Mmap} {text : List UInt8}

theorem CountryCode.ofText_chars (short : (cString text).length ≤ 7) :
    (CountryCode.ofText text).chars = cString text := List.take_of_length_le short

/-- Short texts are compared as country codes. -/
theorem findBucketText_short (hash : UInt64) (short : (cString text).length ≤ 7) :
    m.findBucketText hash text = m.findBucket hash (.ofText text) := by
  have sameStops : Mmap.probeStopsText m.hashTable hash text =
      probeStops m.hashTable hash (.ofText text) := by
    funext index
    have sameCode : ((m.hashTable index).countryCode.chars == cString text) =
        ((m.hashTable index).countryCode == CountryCode.ofText text) := by
      rw [Bool.eq_iff_iff, beq_iff_eq, beq_iff_eq, CountryCode.ext_iff,
        CountryCode.ofText_chars short]
    rw [Mmap.probeStopsText, probeStops, sameCode]
  rw [Mmap.findBucketText, Mmap.findBucket, probeTable, sameStops]

/-- Appends under short texts are appends under country codes. -/
theorem appendRecordText_short (groupId id : CassUuid) (short : (cString text).length ≤ 7)
    (val : Address) (priority : Int) :
    m.appendRecordText groupId id text val priority =
      m.appendRecord groupId id (.ofText text) val priority := by
  rw [Mmap.appendRecordText, findBucketText_short _ short]
  rfl

/-- The key is that of the group, and its code the text as it came. -/
def IsKeyOf (groupId : CassUuid) (text : List UInt8) (key : UInt64 × CountryCode) : Prop :=
  key.1 = calculateHashFromUuid groupId ∧ key.2.chars = cString text

/-- A probe for a text stops at a vacant bucket and at one with its key. -/
theorem probeStopsText_iff {groupId : CassUuid} {bucketIdx : Nat} :
    Mmap.probeStopsText m.hashTable (calculateHashFromUuid groupId) text bucketIdx = true ↔
      m.keys bucketIdx = none ∨ ∃ key, m.keys bucketIdx = some key ∧ IsKeyOf groupId text key := by
  rw [Mmap.probeStopsText, Bool.or_eq_true, Bool.and_eq_true, beq_iff_eq, beq_iff_eq, beq_iff_eq,
    Mmap.keys, IndexBucket.key]
  split
  · next vacant => simp [vacant]
  · next occupied => simp [occupied, IsKeyOf]

theorem findBucketText_masked {hash : UInt64} {bucketIdx : Nat}
    (ends : m.findBucketText hash text = some bucketIdx) : Masked bucketIdx := by
  have found := Option.join_eq_some_iff.mp ends
  exact probeLoop_induction Masked (fun index _ => ⟨index + 1, rfl⟩) ⟨hash.toNat, rfl⟩ found

theorem Entered.appendRecordText (entered : Entered m) (groupId id : CassUuid)
    (val : Address) (priority : Int) :
    Entered (m.appendRecordText groupId id text val priority).2 := by
  rw [Mmap.appendRecordText]
  cases ends : m.findBucketText (calculateHashFromUuid groupId) text with
  | none => exact entered
  | some bucketIdx =>
      dsimp only
      split
      · exact entered
      · next free =>
          cases pops : m.popFreeSlot with
          | none => exact entered
          | some slot =>
              obtain ⟨slotIdx, popped⟩ := slot
              have filled := entered.fillSlot pops (not_not.mp free) groupId (.ofText text) val
                priority
              exact filled.of_onlyLinks (OnlyLinks.linkSlot ..) (findBucketText_masked ends)

end Texts

/-! ## Runs with texts -/

/-- A call that changes the store, with a code or with the text for one. -/
inductive TextCall
  | plain (c : Call)
  | append (groupId id : CassUuid) (text : List UInt8) (val : Address) (priority : Int)
  | update (groupId id : CassUuid) (text : List UInt8) (val : Address) (priority : Int)
deriving DecidableEq, Repr

/-- The store after a call. -/
def Mmap.stepText (m : Mmap) : TextCall → Mmap
  | .plain c => m.step c
  | .append groupId id text val priority =>
      (m.appendRecordText groupId id text val priority).2
  | .update groupId id text val priority =>
      (m.updateRecordText groupId id text val priority).2

theorem Entered.stepText {m : Mmap} (entered : Entered m) (c : TextCall) :
    Entered (m.stepText c) := by
  cases c with
  | plain c => exact entered.step c
  | append groupId id text val priority => exact entered.appendRecordText groupId id val priority
  | update groupId id text val priority =>
      exact entered.updateRecord groupId id (.ofText text) val priority

/-- **In every state that calls with texts reach the used slots are entered.** -/
theorem Entered.runText (calls : List TextCall) :
    Entered (Run.exec Mmap.stepText Mmap.fresh calls) := by
  refine @Run.exec_invariant _ _ Mmap.stepText Entered (fun _ => True) (fun m c _ before => ?_)
    calls Mmap.fresh Entered.fresh fun _ _ => trivial
  exact before.stepText c

/-! ## Deletions by id -/

section Deletions

variable {m : Mmap} {groupId id : CassUuid} {slotIdx : Nat}

/-- A deletion by id of a stored entry under its own group. It finds the entry
whenever the probe for the present code of the slot ends. -/
theorem Entered.deleted_iff (entered : Entered m) (bounded : slotIdx < maxDataRecords)
    (inUse : (m.dataEntries slotIdx).isUsed = true)
    (holds : (m.dataEntries slotIdx).id = id)
    (ofGroup : (m.dataEntries slotIdx).groupId = groupId) :
    ¬ (m.deleteRecordFromUuid groupId id).2.Stored id ↔
      m.findBucket (calculateHashFromUuid groupId) (m.dataEntries slotIdx).countryCode ≠ none := by
  have found := entered.slotOfId_eq_some inUse holds
  have holdsGroup : m.HoldsGroup slotIdx groupId := holdsGroup_iff.mpr ofGroup
  have after := entered.deleteRecordFromUuid groupId id
  cases ends : m.findBucket (calculateHashFromUuid groupId) (m.dataEntries slotIdx).countryCode with
  | none =>
      have unchanged : (m.deleteRecordFromUuid groupId id).2 = m := by
        simp only [Mmap.deleteRecordFromUuid, found, ends]
      rw [unchanged]
      exact ⟨fun gone => absurd ⟨slotIdx, bounded, inUse, holds⟩ gone,
        fun ended => absurd rfl ended⟩
  | some bucketIdx =>
      have emptied : (m.deleteRecordFromUuid groupId id).2.idHashTable (idSlot id) = -1 := by
        simp only [Mmap.deleteRecordFromUuid, found, ends, if_pos holdsGroup]
        exact Function.update_self ..
      refine ⟨fun _ => Option.some_ne_none _, fun _ => ?_⟩
      rintro ⟨other, -, otherUsed, otherHolds⟩
      have entry := after.slots other otherUsed
      rw [Mmap.idEntry, otherHolds, emptied] at entry
      omega

end Deletions

end EdgeDNS.IpGroup
