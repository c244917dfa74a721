import EdgeDNS.Cache.IpGroupText

/-!
# Where a stored address comes from

`stored` is what a used slot of the address cache holds. In every state
whatever, chains broken or not, a lookup returns nothing but what used slots hold
(`stored_of_mem_getRecord`), and a call leaves no used slot with a content that
was not in a used slot before, unless the call itself writes that content
(`stored_step`). Nothing is assumed of the state, so both hold along the runs in
which an update breaks the chains.
-/

set_option autoImplicit false

namespace EdgeDNS.IpGroup

/-- What a slot holds when it is used. -/
def IpGroupEntry.stored (entry : IpGroupEntry) : Option Content :=
  if entry.isUsed then some entry.content else none

/-- What is stored in a slot that is in use. -/
def Mmap.stored (m : Mmap) (slotIdx : Nat) : Option Content := (m.dataEntries slotIdx).stored

/-- The content is in a used slot. -/
def Mmap.Has (m : Mmap) (content : Content) : Prop := ∃ slotIdx, m.stored slotIdx = some content

section Stored

variable {m : Mmap} {content : Content}

theorem not_has_fresh (content : Content) : ¬ Mmap.fresh.Has content := by
  rintro ⟨slotIdx, held⟩
  rw [Mmap.fresh_eq_freshTable, Mmap.stored, IpGroupEntry.stored, Mmap.freshTable_isUsed] at held
  cases held

/-- The loop of a lookup returns what used slots hold. -/
theorem stored_of_mem_getRecordLoop {left : Nat} {slot : Int} {response : IpGroupEntryResponse}
    (found : response ∈ m.getRecordLoop left slot) :
    ∃ content, m.Has content ∧ content.response = response := by
  induction left generalizing slot with
  | zero => exact absurd found List.not_mem_nil
  | succ left ih =>
      rw [Mmap.getRecordLoop] at found
      split at found
      case isFalse => exact absurd found List.not_mem_nil
      dsimp only at found
      split at found
      case isFalse => exact absurd found List.not_mem_nil
      case isTrue inUse =>
        have here : m.Has (m.content slot.toNat) := ⟨slot.toNat, if_pos inUse⟩
        split at found
        · rw [List.mem_singleton.mp found]
          exact ⟨_, here, rfl⟩
        · rcases List.mem_cons.mp found with rfl | later
          · exact ⟨_, here, rfl⟩
          · exact ih later

theorem stored_of_mem_getRecord {groupId : CassUuid} {countryCode : CountryCode}
    {response : IpGroupEntryResponse} (found : response ∈ m.getRecord groupId countryCode) :
    ∃ content, m.Has content ∧ content.response = response := by
  rw [Mmap.getRecord] at found
  split at found
  · exact absurd found List.not_mem_nil
  · split at found
    · exact absurd found List.not_mem_nil
    · exact stored_of_mem_getRecordLoop found

/-! ## Writes -/

/-- Links are no part of what a slot holds. -/
theorem setEntry_stored {slotIdx : Nat} {entry : IpGroupEntry}
    (same : entry.stored = m.stored slotIdx) (other : Nat) :
    (m.setEntry slotIdx entry).stored other = m.stored other :=
  setEntry_field IpGroupEntry.stored same other

theorem linkSlot_stored (m : Mmap) (hash : UInt64) (bucketIdx newSlotIdx other : Nat) :
    (m.linkSlot hash bucketIdx newSlotIdx).stored other = m.stored other := by
  unfold Mmap.linkSlot
  dsimp only
  split
  · exact @setEntry_stored (m.setBucket bucketIdx _) _ _ (by rfl) other
  · split
    · generalize (if (m.hashTable bucketIdx).headSlotIdx ≠ (newSlotIdx : Int) ∧
          InSlotRange (m.hashTable bucketIdx).headSlotIdx then
        m.salvageLoop maxDataRecords
          (m.dataEntries (m.hashTable bucketIdx).headSlotIdx.toNat).nextIndex
        else -1) = salvageHead
      have linked := @setEntry_stored (m.setBucket bucketIdx
        { m.hashTable bucketIdx with headSlotIdx := newSlotIdx }) newSlotIdx
        { m.dataEntries newSlotIdx with nextIndex := salvageHead, prevIndex := -1 } rfl other
      split
      · exact (setEntry_stored (by rfl) other).trans linked
      · exact linked
    · have pointed := @setEntry_stored m (m.hashTable bucketIdx).headSlotIdx.toNat
        { m.dataEntries (m.hashTable bucketIdx).headSlotIdx.toNat with prevIndex := newSlotIdx }
        rfl other
      exact (setEntry_stored (by rfl) other).trans pointed

theorem unlinkSlot_stored (m : Mmap) (bucketIdx slotIdx other : Nat) :
    (m.unlinkSlot bucketIdx slotIdx).stored other = m.stored other :=
  congrFun (unlinkSlot_field IpGroupEntry.stored fun _ _ _ => rfl) other

/-- A released slot holds nothing. -/
theorem pushFreeSlot_stored (m : Mmap) (slotIdx : Nat) :
    (m.pushFreeSlot slotIdx).stored = Function.update m.stored slotIdx none :=
  map_update IpGroupEntry.stored ..

/-- Filling the slot taken from the free list. -/
theorem fillSlot_stored {slotIdx : Nat} {popped : Mmap}
    (pops : m.popFreeSlot = some (slotIdx, popped)) (groupId id : CassUuid)
    (countryCode : CountryCode) (val : Address) (priority : Int) :
    (popped.fillSlot slotIdx groupId id countryCode val priority).stored =
      Function.update m.stored slotIdx (some ⟨groupId, id, countryCode, val.bytes, priority⟩) := by
  have others := (popFreeSlot_spec pops).2.2
  funext other
  rcases eq_or_ne other slotIdx with rfl | different
  · simp [Mmap.stored, Mmap.fillSlot, IpGroupEntry.stored, IpGroupEntry.content]
  · rw [Function.update_of_ne different, Mmap.stored, Mmap.stored, ← others other different]
    simp only [Mmap.fillSlot, Mmap.setIdEntry, Mmap.setEntry_dataEntries,
      Function.update_of_ne different]

/-- What is held after a write of one slot was held before or is what is
written. -/
theorem has_of_update {m' : Mmap} {slotIdx : Nat} {value : Option Content}
    (after : m'.stored = Function.update m.stored slotIdx value) (held : m'.Has content) :
    m.Has content ∨ value = some content := by
  obtain ⟨other, isHeld⟩ := held
  rw [after] at isHeld
  rcases eq_or_ne other slotIdx with rfl | different
  · rw [Function.update_self] at isHeld
    exact .inr isHeld
  · rw [Function.update_of_ne different] at isHeld
    exact .inl ⟨other, isHeld⟩

/-! ## Calls -/

theorem has_appendRecordText {groupId id : CassUuid} {text : List UInt8} {val : Address}
    {priority : Int} (held : (m.appendRecordText groupId id text val priority).2.Has content) :
    m.Has content ∨ (⟨groupId, id, .ofText text, val.bytes, priority⟩ : Content) = content := by
  rw [Mmap.appendRecordText] at held
  split at held
  · exact .inl held
  · split at held
    · exact .inl held
    · split at held
      · exact .inl held
      · next pops =>
          obtain ⟨other, isHeld⟩ := held
          rw [linkSlot_stored] at isHeld
          exact (has_of_update (fillSlot_stored pops ..) ⟨other, isHeld⟩).imp_right Option.some.inj

theorem has_appendRecord {groupId id : CassUuid} {countryCode : CountryCode} {val : Address}
    {priority : Int} (held : (m.appendRecord groupId id countryCode val priority).2.Has content) :
    m.Has content ∨ (⟨groupId, id, countryCode, val.bytes, priority⟩ : Content) = content := by
  rw [Mmap.appendRecord] at held
  split at held
  · exact .inl held
  · split at held
    · exact .inl held
    · split at held
      · exact .inl held
      · next pops =>
          obtain ⟨other, isHeld⟩ := held
          rw [linkSlot_stored] at isHeld
          exact (has_of_update (fillSlot_stored pops ..) ⟨other, isHeld⟩).imp_right Option.some.inj

/-- An update writes under the group and the id that the slot has already. -/
theorem has_updateRecord {groupId id : CassUuid} {countryCode : CountryCode} {val : Address}
    {priority : Int} (held : (m.updateRecord groupId id countryCode val priority).2.Has content) :
    m.Has content ∨ (⟨groupId, id, countryCode, val.bytes, priority⟩ : Content) = content := by
  rw [Mmap.updateRecord] at held
  split at held
  · exact .inl held
  · next slotIdx found =>
      split at held
      case isFalse => exact .inl held
      case isTrue ofGroup =>
        obtain ⟨-, -, inUse, holds⟩ := slotOfId_spec found
        have isUsed : (m.dataEntries slotIdx).isUsed = true := inUse
        have sameGroup : (m.dataEntries slotIdx).groupId = groupId := holdsGroup_iff.mp ofGroup
        have after : (m.setEntry slotIdx
            { m.dataEntries slotIdx with
              ip := val.bytes ++ List.replicate (16 - val.bytes.length) 0
              len := val.bytes.length, priority := priority, countryCode := countryCode }).stored =
            Function.update m.stored slotIdx
              (some ⟨groupId, id, countryCode, val.bytes, priority⟩) := by
          refine (map_update IpGroupEntry.stored ..).trans (congrArg _ ?_)
          simp [IpGroupEntry.stored, IpGroupEntry.content, isUsed, holds, sameGroup]
        exact (has_of_update after held).imp_right Option.some.inj

theorem has_deleteRecordFromUuid {groupId id : CassUuid}
    (held : (m.deleteRecordFromUuid groupId id).2.Has content) : m.Has content := by
  rw [Mmap.deleteRecordFromUuid] at held
  split at held
  · exact held
  · split at held
    · exact held
    · split at held
      · next slotIdx _ _ bucketIdx _ _ =>
          have unlinked : (m.unlinkSlot bucketIdx slotIdx).stored = m.stored :=
            funext (unlinkSlot_stored m bucketIdx slotIdx)
          have released := pushFreeSlot_stored (m.unlinkSlot bucketIdx slotIdx) slotIdx
          rw [unlinked] at released
          exact (has_of_update released held).resolve_right (Option.some_ne_none _).symm
      · exact held

end Stored

end EdgeDNS.IpGroup
