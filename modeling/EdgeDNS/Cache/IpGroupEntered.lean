import EdgeDNS.Cache.IpGroupInvariant

/-!
# What survives in every state of the address cache

An update that moves an entry to another country breaks the chains and the free
list. Two facts survive any calls whatever (`Entered.run`): every used slot is
entered in the id table at the hash of its id, and every occupied bucket is one
that the mask of the table lets through. So no two used slots hold ids with one
entry, and a deletion by id leaves no slot with the id.
-/

set_option autoImplicit false

namespace EdgeDNS.IpGroup

open Probing

/-- The index is one that the mask of the bucket table lets through. -/
def Masked (bucketIdx : Nat) : Prop := ∃ value, bucketIdx = value &&& (hashTableSize - 1)

theorem findBucket_masked {m : Mmap} {hash : UInt64} {countryCode : CountryCode} {bucketIdx : Nat}
    (ends : m.findBucket hash countryCode = some bucketIdx) : Masked bucketIdx := by
  rw [findBucket_eq, findKey_eq_some_iff] at ends
  exact probeLoop_induction Masked (fun index _ => ⟨index + 1, rfl⟩) ⟨hash.toNat, rfl⟩ ends

/-- A field that a write to a slot does not change. -/
theorem setEntry_field {β : Type*} (field : IpGroupEntry → β) {m : Mmap} {slotIdx : Nat}
    {entry : IpGroupEntry} (same : field entry = field (m.dataEntries slotIdx)) (other : Nat) :
    field ((m.setEntry slotIdx entry).dataEntries other) = field (m.dataEntries other) :=
  congrFun (map_update_same field same) other

/-- Two stores differ in links between slots and in one bucket only. -/
structure OnlyLinks (m m' : Mmap) (bucketIdx : Nat) : Prop where
  idHashTable : m'.idHashTable = m.idHashTable
  used : ∀ slotIdx, (m'.dataEntries slotIdx).isUsed = (m.dataEntries slotIdx).isUsed
  ids : ∀ slotIdx, (m'.dataEntries slotIdx).id = (m.dataEntries slotIdx).id
  buckets : ∀ other, other ≠ bucketIdx → m'.hashTable other = m.hashTable other

namespace OnlyLinks

variable {m m' : Mmap} {bucketIdx : Nat}

theorem idEntry (frame : OnlyLinks m m' bucketIdx) : m'.idEntry = m.idEntry := by
  funext slotIdx
  rw [Mmap.idEntry, Mmap.idEntry, frame.ids]

theorem refl : OnlyLinks m m bucketIdx := ⟨rfl, fun _ => rfl, fun _ => rfl, fun _ _ => rfl⟩

theorem setBucket (frame : OnlyLinks m m' bucketIdx) (bucket : IndexBucket) :
    OnlyLinks m (m'.setBucket bucketIdx bucket) bucketIdx where
  idHashTable := frame.idHashTable
  used := frame.used
  ids := frame.ids
  buckets other different := (Function.update_of_ne different ..).trans
    (frame.buckets other different)

theorem setLinks (frame : OnlyLinks m m' bucketIdx) (slotIdx : Nat) (nextIndex prevIndex : Int) :
    OnlyLinks m (m'.setEntry slotIdx { m'.dataEntries slotIdx with
      nextIndex := nextIndex, prevIndex := prevIndex }) bucketIdx where
  idHashTable := frame.idHashTable
  used other := (setEntry_field IpGroupEntry.isUsed (by rfl) other).trans (frame.used other)
  ids other := (setEntry_field IpGroupEntry.id (by rfl) other).trans (frame.ids other)
  buckets := frame.buckets

/-- Linking a slot changes links and the bucket. -/
theorem linkSlot (hash : UInt64) (bucketIdx newSlotIdx : Nat) :
    OnlyLinks m (m.linkSlot hash bucketIdx newSlotIdx) bucketIdx := by
  have self : OnlyLinks m m bucketIdx := refl
  have salvages (salvageHead : Int) := (self.setBucket
    { m.hashTable bucketIdx with headSlotIdx := newSlotIdx }).setLinks newSlotIdx salvageHead (-1)
  unfold Mmap.linkSlot
  dsimp only
  split
  · exact (self.setBucket _).setLinks newSlotIdx _ _
  · split
    · generalize (if (m.hashTable bucketIdx).headSlotIdx ≠ (newSlotIdx : Int) ∧
          InSlotRange (m.hashTable bucketIdx).headSlotIdx then
        m.salvageLoop maxDataRecords
          (m.dataEntries (m.hashTable bucketIdx).headSlotIdx.toNat).nextIndex
        else -1) = salvageHead
      split
      · exact (salvages salvageHead).setLinks _ _ _
      · exact salvages salvageHead
    · exact ((self.setLinks _ _ _).setLinks newSlotIdx _ _).setBucket _

theorem unlinkSlot (bucketIdx slotIdx : Nat) :
    OnlyLinks m (m.unlinkSlot bucketIdx slotIdx) bucketIdx where
  idHashTable := unlinkSlot_idHashTable ..
  used := congrFun (unlinkSlot_field IpGroupEntry.isUsed fun _ _ _ => rfl)
  ids := congrFun (unlinkSlot_field IpGroupEntry.id fun _ _ _ => rfl)
  buckets other different := by
    rw [unlinkSlot_hashTable, Function.update_of_ne different]

end OnlyLinks

/-- Every used slot is entered at the hash of its id, and every occupied bucket
is under the mask. -/
structure Entered (m : Mmap) : Prop where
  slots : ∀ slotIdx, m.arena.used slotIdx = true →
    m.idHashTable (m.idEntry slotIdx) = (slotIdx : Int)
  buckets : ∀ bucketIdx, (m.hashTable bucketIdx).groupIdHash ≠ 0 → Masked bucketIdx

namespace Entered

variable {m m' : Mmap}

/-- No two used slots share an entry. -/
theorem injective (entered : Entered m) {first second : Nat} (firstUsed : m.arena.used first = true)
    (secondUsed : m.arena.used second = true) (same : m.idEntry first = m.idEntry second) :
    first = second := by
  have atFirst := entered.slots first firstUsed
  rw [same, entered.slots second secondUsed] at atFirst
  exact_mod_cast atFirst.symm

theorem fresh : Entered Mmap.fresh := by
  rw [Mmap.fresh_eq_freshTable]
  refine ⟨fun slotIdx inUse => ?_, fun bucketIdx occupied => absurd rfl occupied⟩
  exact absurd ((Mmap.freshTable_isUsed slotIdx).symm.trans inUse) Bool.false_ne_true

/-- Changing links and one bucket under the mask. -/
theorem of_onlyLinks (entered : Entered m) {bucketIdx : Nat} (frame : OnlyLinks m m' bucketIdx)
    (masked : Masked bucketIdx) : Entered m' := by
  refine ⟨?_, fun other occupied => ?_⟩
  · intro slotIdx inUse
    rw [frame.idHashTable, frame.idEntry]
    exact entered.slots slotIdx ((frame.used slotIdx).symm.trans inUse)
  · rcases eq_or_ne other bucketIdx with rfl | different
    · exact masked
    · rw [frame.buckets other different] at occupied
      exact entered.buckets other occupied

/-- Emptying an entry that holds a slot, and the slot with it. -/
theorem release (entered : Entered m) (slotIdx : Nat) (table : m'.hashTable = m.hashTable)
    (used : m'.arena.used = Function.update m.arena.used slotIdx false)
    (entries : ∀ other, other ≠ slotIdx → m'.idEntry other = m.idEntry other)
    (ids : ∀ entry, m'.idHashTable entry = m.idHashTable entry ∨
      m.idHashTable entry = (slotIdx : Int)) : Entered m' := by
  refine ⟨fun other inUse => ?_, fun bucketIdx occupied => ?_⟩
  · have different : other ≠ slotIdx := by
      rintro rfl
      rw [used, Function.update_self] at inUse
      cases inUse
    rw [used, Function.update_of_ne different] at inUse
    have before := entered.slots other inUse
    rw [entries other different]
    rcases ids (m.idEntry other) with same | held
    · exact same.trans before
    · exact absurd (Int.natCast_inj.mp (before.symm.trans held)) different
  · rw [table] at occupied
    exact entered.buckets bucketIdx occupied

end Entered

/-! ## The calls -/

section Calls

variable {m : Mmap}

theorem Entered.releaseSlot (entered : Entered m) (slotIdx : Nat) :
    Entered (m.releaseSlot slotIdx) := by
  refine entered.release slotIdx ?_ ?_ (fun other different => ?_) fun entry => ?_
  · exact Mmap.clearIdEntry_hashTable m slotIdx
  · rw [Mmap.releaseSlot_arena]
    rfl
  · have sameId : ((m.releaseSlot slotIdx).dataEntries other).id = (m.dataEntries other).id :=
      congrArg Content.id (Mmap.releaseSlot_content_of_ne m different)
    rw [Mmap.idEntry, Mmap.idEntry, sameId]
  · have cleared : (m.releaseSlot slotIdx).idHashTable = (m.clearIdEntry slotIdx).idHashTable := rfl
    rw [cleared, Mmap.clearIdEntry]
    split
    · next holds =>
        rcases eq_or_ne entry (idSlot (m.dataEntries slotIdx).id) with rfl | different
        · exact .inr holds
        · exact .inl (Function.update_of_ne different ..)
    · exact .inl rfl

/-- The loop of `delete_record`, whatever it runs over. -/
theorem Entered.deleteLoop (left : Nat) (entered : Entered m) (slot : Int) :
    Entered (Mmap.deleteLoop left m slot) := by
  induction left generalizing m slot with
  | zero => exact entered
  | succ left ih =>
      rw [Mmap.deleteLoop]
      split
      · exact ih (entered.releaseSlot slot.toNat) _
      · exact entered

/-- A slot is taken from the free list without touching another. -/
theorem popFreeSlot_spec {slotIdx : Nat} {popped : Mmap}
    (pops : m.popFreeSlot = some (slotIdx, popped)) :
    popped.hashTable = m.hashTable ∧ popped.idHashTable = m.idHashTable ∧
      ∀ other, other ≠ slotIdx → popped.dataEntries other = m.dataEntries other := by
  rw [Mmap.popFreeSlot] at pops
  split at pops
  · cases pops
  · obtain ⟨rfl, rfl⟩ := Prod.mk.inj (Option.some.inj pops)
    exact ⟨rfl, rfl, fun other different => Function.update_of_ne different ..⟩

/-- Filling a slot enters it at an empty entry. -/
theorem Entered.fillSlot (entered : Entered m) {slotIdx : Nat} {popped : Mmap} {id : CassUuid}
    (pops : m.popFreeSlot = some (slotIdx, popped)) (free : m.idHashTable (idSlot id) = -1)
    (groupId : CassUuid) (countryCode : CountryCode) (val : Address) (priority : Int) :
    Entered (popped.fillSlot slotIdx groupId id countryCode val priority) := by
  obtain ⟨sameTable, sameIds, sameSlots⟩ := popFreeSlot_spec pops
  generalize filledStore : popped.fillSlot slotIdx groupId id countryCode val priority = filled
  have table : filled.hashTable = m.hashTable := by
    rw [← filledStore, ← sameTable]
    rfl
  have ids : filled.idHashTable = Function.update m.idHashTable (idSlot id) (slotIdx : Int) := by
    rw [← filledStore, ← sameIds]
    rfl
  have own : (filled.dataEntries slotIdx).id = id := by
    simp only [← filledStore, Mmap.fillSlot, Mmap.setEntry_dataEntries, Function.update_self]
  have others : ∀ other, other ≠ slotIdx → filled.dataEntries other = m.dataEntries other := by
    intro other different
    rw [← sameSlots other different]
    simp only [← filledStore, Mmap.fillSlot, Mmap.setIdEntry, Mmap.setEntry_dataEntries,
      Function.update_of_ne different]
  refine ⟨fun other inUse => ?_, fun bucket occupied => ?_⟩
  · rw [ids]
    rcases eq_or_ne other slotIdx with rfl | different
    · rw [Mmap.idEntry, own, Function.update_self]
    · have wasUsed : (m.dataEntries other).isUsed = true := by
        rw [← others other different]
        exact inUse
      have before := entered.slots other wasUsed
      have sameEntry : filled.idEntry other = m.idEntry other := by
        rw [Mmap.idEntry, Mmap.idEntry, others other different]
      rw [sameEntry, Function.update_of_ne, before]
      intro shared
      rw [shared, free] at before
      omega
  · rw [table] at occupied
    exact entered.buckets bucket occupied

theorem Entered.appendRecord (entered : Entered m) (groupId id : CassUuid)
    (countryCode : CountryCode) (val : Address) (priority : Int) :
    Entered (m.appendRecord groupId id countryCode val priority).2 := by
  rw [Mmap.appendRecord]
  cases ends : m.findBucket (calculateHashFromUuid groupId) countryCode with
  | none => exact entered
  | some bucketIdx =>
      dsimp only
      split
      · exact entered
      · next free =>
          cases pops : m.popFreeSlot with
          | none => exact entered
          | some slot =>
              obtain ⟨slotIdx, popped⟩ := slot
              have filled := entered.fillSlot pops (not_not.mp free) groupId countryCode val
                priority
              exact filled.of_onlyLinks (OnlyLinks.linkSlot ..) (findBucket_masked ends)

/-- An update keeps the id of its slot. -/
theorem Entered.updateRecord (entered : Entered m) (groupId id : CassUuid)
    (countryCode : CountryCode) (val : Address) (priority : Int) :
    Entered (m.updateRecord groupId id countryCode val priority).2 := by
  rw [Mmap.updateRecord]
  cases m.slotOfId id with
  | none => exact entered
  | some slotIdx =>
      dsimp only
      split
      · refine ⟨?_, entered.buckets⟩
        intro other inUse
        have wasUsed : (m.dataEntries other).isUsed = true :=
          (setEntry_field IpGroupEntry.isUsed (by rfl) other).symm.trans inUse
        rw [← entered.slots other wasUsed, Mmap.idEntry, Mmap.idEntry,
          setEntry_field IpGroupEntry.id (by rfl) other]
        rfl
      · exact entered

theorem Entered.deleteRecord (entered : Entered m) (groupId : CassUuid)
    (countryCode : CountryCode) : Entered (m.deleteRecord groupId countryCode).2 := by
  rw [Mmap.deleteRecord]
  cases ends : m.findBucket (calculateHashFromUuid groupId) countryCode with
  | none => exact entered
  | some bucketIdx =>
      dsimp only
      split
      · exact entered
      · split
        · exact (entered.deleteLoop _ _).of_onlyLinks (OnlyLinks.refl.setBucket _)
            (findBucket_masked ends)
        · exact entered

/-- The slot that the id table gives for an id is used, holds the id and is
entered at it. -/
theorem slotOfId_spec {id : CassUuid} {slotIdx : Nat} (found : m.slotOfId id = some slotIdx) :
    m.idHashTable (idSlot id) ≠ -1 ∧ slotIdx = (m.idHashTable (idSlot id)).toNat ∧
      m.arena.used slotIdx = true ∧ (m.dataEntries slotIdx).id = id := by
  simp only [Mmap.slotOfId] at found
  split at found
  · cases found
  · next entered =>
      split at found
      · cases found
      · next holds =>
          obtain rfl := Option.some.inj found
          simp only [not_or, ne_eq, not_not, Bool.not_eq_false] at holds
          exact ⟨entered, rfl, holds.1, CassUuid.ext holds.2.2 holds.2.1⟩

/-- Releasing the unlinked slot of an id, and emptying the entry of the id. -/
theorem Entered.deleteRecordFromUuid (entered : Entered m) (groupId id : CassUuid) :
    Entered (m.deleteRecordFromUuid groupId id).2 := by
  rw [Mmap.deleteRecordFromUuid]
  cases found : m.slotOfId id with
  | none => exact entered
  | some slotIdx =>
      dsimp only
      obtain ⟨-, -, inUse, holds⟩ := slotOfId_spec found
      have held : m.idHashTable (idSlot id) = (slotIdx : Int) := holds ▸ entered.slots slotIdx inUse
      cases ends : m.findBucket (calculateHashFromUuid groupId)
          (m.dataEntries slotIdx).countryCode with
      | none => exact entered
      | some bucketIdx =>
          dsimp only
          split
          · have unlinked := entered.of_onlyLinks (OnlyLinks.unlinkSlot bucketIdx slotIdx)
              (findBucket_masked ends)
            have sameIds := @unlinkSlot_idHashTable m bucketIdx slotIdx
            generalize m.unlinkSlot bucketIdx slotIdx = before at unlinked sameIds ⊢
            refine unlinked.release slotIdx rfl ?_ (fun other different => ?_) ?_
            · exact congrArg LinkedArena.Arena.used (Mmap.pushFreeSlot_arena before slotIdx)
            · have pushed := congrFun (Mmap.pushFreeSlot_idEntry before slotIdx) other
              rw [Function.update_of_ne different] at pushed
              exact pushed
            · intro entry
              rcases eq_or_ne entry (idSlot id) with rfl | different
              · exact .inr (sameIds ▸ held)
              · exact .inl (Function.update_of_ne different ..)
          · exact entered

/-- **Every call keeps the slots entered.** -/
theorem Entered.step (entered : Entered m) (c : Call) : Entered (m.step c) := by
  cases c with
  | append groupId id countryCode val priority =>
      exact entered.appendRecord groupId id countryCode val priority
  | update groupId id countryCode val priority =>
      exact entered.updateRecord groupId id countryCode val priority
  | delete groupId countryCode => exact entered.deleteRecord groupId countryCode
  | deleteFromUuid groupId id => exact entered.deleteRecordFromUuid groupId id

end Calls

/-- In every state that calls reach the used slots are entered. -/
theorem Entered.run (calls : List Call) : Entered (Run.exec Mmap.step Mmap.fresh calls) := by
  refine @Run.exec_invariant _ _ Mmap.step Entered (fun _ => True) (fun m c _ before => ?_) calls
    Mmap.fresh Entered.fresh fun _ _ => trivial
  exact Entered.step before c

/-- A used slot holds the id. -/
def Mmap.Stored (m : Mmap) (id : CassUuid) : Prop :=
  ∃ slotIdx < maxDataRecords, (m.dataEntries slotIdx).isUsed = true ∧
    (m.dataEntries slotIdx).id = id

/-- The slot of an id is found in every state. -/
theorem Entered.slotOfId_eq_some {m : Mmap} (entered : Entered m) {id : CassUuid} {slotIdx : Nat}
    (inUse : (m.dataEntries slotIdx).isUsed = true) (holds : (m.dataEntries slotIdx).id = id) :
    m.slotOfId id = some slotIdx := by
  have entry : m.idHashTable (idSlot id) = (slotIdx : Int) := holds ▸ entered.slots slotIdx inUse
  have notEmpty : m.idHashTable (idSlot id) ≠ -1 := by omega
  have atSlot : (m.idHashTable (idSlot id)).toNat = slotIdx := by
    rw [entry, Int.toNat_natCast]
  simp only [Mmap.slotOfId, if_neg notEmpty, atSlot, inUse, holds, ne_eq, not_true_eq_false,
    or_self, Bool.true_eq_false, if_false]

end EdgeDNS.IpGroup
