import EdgeDNS.Cache.IpGroupEffects
import EdgeDNS.Library.Run
import EdgeDNS.Library.Scans

/-!
# The invariant of the address cache

A freshly created store is sound, and every call keeps it sound except a
`delete_record_from_uuid` whose second probe arrives at a bucket from which it
cannot unlink the slot. The probe goes to the bucket of the group and of the
present country code of the slot, and `update_record` rewrites that code where
the slot stands. A slot released in this way is still the head of its former
bucket, or the successor of a used slot.

`Structured` spells the invariant out in the fields of the store, and
`structured_iff_along` says that these deletions are the only calls that break
it.
-/

set_option autoImplicit false

namespace EdgeDNS.IpGroup

open LinkedArena DirectIndex Probing

/-! ## The two scans of `init` -/

namespace Mmap

/-- The table of the ids, as a part of the store. -/
def idPart : Part Mmap (Nat → Int) where
  get m := m.idHashTable
  set m table := { m with idHashTable := table }
  get_set _ _ := rfl
  set_get _ := rfl
  set_set _ _ _ := rfl

/-- The successors of the slots and the head of the free list, as a part of the
store. -/
def linkPart : Part Mmap ((Nat → Int) × Int) where
  get m := (m.arena.next, m.freeListHeadIdx)
  set m links :=
    { m with
      dataEntries := fun slotIdx => { m.dataEntries slotIdx with nextIndex := links.1 slotIdx }
      freeListHeadIdx := links.2 }
  get_set _ _ := rfl
  set_get _ := rfl
  set_set _ _ _ := rfl

theorem rebuildIdTable_eq (m : Mmap) (count : Nat) :
    rebuildIdTable m count =
      { m with idHashTable := rebuilt m.arena.used m.idEntry m.idHashTable count } :=
  @scan_eq_rebuilt Mmap (fun m => m.arena.used) idPart idEntry (fun _ _ => rfl) (fun _ _ => rfl)
    rebuildIdTable (fun _ => rfl) (fun _ _ => rfl) m count

theorem threadSlot_eq (m : Mmap) (slotIdx : Nat) :
    m.threadSlot slotIdx = linkPart.set m
      (Function.update m.arena.next slotIdx m.freeListHeadIdx, slotIdx) := by
  refine Mmap.ext rfl rfl (funext fun other => ?_) rfl
  dsimp only [threadSlot, setEntry, linkPart]
  rcases eq_or_ne other slotIdx with rfl | different
  · rw [Function.update_self, Function.update_self]
  · rw [Function.update_of_ne different, Function.update_of_ne different]
    rfl

/-- Threading writes the links of the unused slots and nothing else. -/
theorem threadFreeList_eq (count : Nat) (m : Mmap) :
    threadFreeList count m = linkPart.set m
      (threaded (fun slotIdx => !m.arena.used slotIdx) count m.arena.next m.freeListHeadIdx) := by
  refine @scan_eq_threaded Mmap (fun m => m.arena.used) linkPart (fun _ _ => rfl) threadFreeList
    (fun _ => rfl) (fun count m => ?_) count m
  rw [threadFreeList, threadSlot_eq]
  rfl

end Mmap

/-! ## The fresh store -/

namespace Mmap

/-- The arrays of a new file before the free list is threaded. -/
def blank : Mmap where
  hashTable _ := ⟨0, .empty, 0⟩
  idHashTable entry := if entry < idHashTableSize then -1 else 0
  dataEntries slotIdx :=
    if slotIdx < maxDataRecords then blankEntry (zeroed.dataEntries slotIdx)
    else zeroed.dataEntries slotIdx
  freeListHeadIdx := -1

/-- The fresh store, array by array. -/
def freshTable : Mmap where
  hashTable := blank.hashTable
  idHashTable := blank.idHashTable
  dataEntries slotIdx :=
    if slotIdx < maxDataRecords then
      { blank.dataEntries slotIdx with
        nextIndex := if slotIdx + 1 = maxDataRecords then -1 else slotIdx + 1 }
    else blank.dataEntries slotIdx
  freeListHeadIdx := 0

theorem freshTable_isUsed (slotIdx : Nat) : (freshTable.dataEntries slotIdx).isUsed = false := by
  simp only [freshTable, blank]
  split <;> rfl

theorem fresh_eq_freshTable : fresh = freshTable := by
  have empty : (fun i => if i < hashTableSize then (⟨0, .empty, 0⟩ : IndexBucket)
      else ⟨0, .empty, 0⟩) = fun _ => ⟨0, .empty, 0⟩ := funext fun _ => ite_self _
  have opened : fresh = threadFreeList maxDataRecords blank := by
    simp only [fresh, init, if_true, blank, ← empty]
    rfl
  have unused : ∀ slotIdx, slotIdx < maxDataRecords → (!blank.arena.used slotIdx) = true := by
    intro slotIdx bounded
    simp only [arena, blank, if_pos bounded]
    rfl
  rw [opened, threadFreeList_eq, threaded_all unused]
  refine Mmap.ext rfl rfl (funext fun slotIdx => ?_) rfl
  dsimp only [linkPart, freshTable]
  split <;> rfl

end Mmap

/-- A freshly created store has no chains, and every slot is spare. -/
theorem Sound.fresh : Sound Mmap.fresh (fun _ => []) (List.range maxDataRecords) := by
  have unused : Mmap.freshTable.arena.used = fun _ => false := funext Mmap.freshTable_isUsed
  have steps : ∀ slotIdx, slotIdx < maxDataRecords → Mmap.freshTable.arena.next slotIdx =
      if slotIdx + 1 = maxDataRecords then -1 else (slotIdx : Int) + 1 := by
    intro slotIdx bounded
    simp only [Mmap.arena, Mmap.freshTable, if_pos bounded]
  have represents := Arena.Represents.unused (by decide) unused rfl rfl steps
  rw [Mmap.fresh_eq_freshTable]
  exact ⟨represents, .unused Mmap.freshTable_isUsed fun entry bound => if_pos bound⟩

/-! ## The structure in the fields of the store -/

/-- The free list and the chains of a store, in its own fields. -/
structure Structured (m : Mmap) : Prop where
  /-- The free list holds exactly the unused slots, each once. -/
  freeList : ∃ spare : List Nat, spare.Nodup ∧
    Linked (fun slotIdx => (m.dataEntries slotIdx).nextIndex) m.freeListHeadIdx spare ∧
    ∀ slotIdx, slotIdx ∈ spare ↔
      slotIdx < maxDataRecords ∧ (m.dataEntries slotIdx).isUsed = false
  /-- Every occupied bucket heads a chain of used slots with mutually inverse
  links, and every used slot is on exactly one chain. -/
  chains : ∃ chain : Nat → List Nat,
    (∀ bucketIdx, (m.hashTable bucketIdx).groupIdHash = 0 → chain bucketIdx = []) ∧
    (∀ bucketIdx, (m.hashTable bucketIdx).groupIdHash ≠ 0 →
      chain bucketIdx ≠ [] ∧ (chain bucketIdx).Nodup ∧
      Linked (fun slotIdx => (m.dataEntries slotIdx).nextIndex)
        (m.hashTable bucketIdx).headSlotIdx (chain bucketIdx) ∧
      BackLinked (fun slotIdx => (m.dataEntries slotIdx).prevIndex) (-1) (chain bucketIdx) ∧
      ∀ slotIdx ∈ chain bucketIdx, slotIdx < maxDataRecords ∧
        (m.dataEntries slotIdx).isUsed = true) ∧
    ∀ slotIdx < maxDataRecords, (m.dataEntries slotIdx).isUsed = true →
      ∃! bucketIdx, slotIdx ∈ chain bucketIdx
  /-- The head of an occupied bucket is a used slot. -/
  headUsed : ∀ bucketIdx, (m.hashTable bucketIdx).groupIdHash ≠ 0 →
    ∃ slotIdx < maxDataRecords, (m.hashTable bucketIdx).headSlotIdx = (slotIdx : Int) ∧
      (m.dataEntries slotIdx).isUsed = true
  /-- A link of a used slot leads to a used slot. -/
  linkUsed : ∀ slotIdx < maxDataRecords, (m.dataEntries slotIdx).isUsed = true →
    ∀ other : Nat, (m.dataEntries slotIdx).nextIndex = (other : Int) ∨
        (m.dataEntries slotIdx).prevIndex = (other : Int) →
      other < maxDataRecords ∧ (m.dataEntries other).isUsed = true

/-- A sound store whose slots are covered has the structure. -/
theorem Sound.structured {m : Mmap} {chain : Nat → List Nat} {spare : List Nat}
    (sound : Sound m chain spare) (covers : Covers maxDataRecords chain spare) :
    Structured m where
  freeList := ⟨spare, sound.represents.spare_nodup, sound.represents.spareLinked,
    sound.represents.memSpare⟩
  chains := by
    refine ⟨chain, ?_, ?_, ?_⟩
    · intro bucketIdx empty
      exact sound.represents.vacant bucketIdx (head_eq_none_iff.mpr empty)
    · intro bucketIdx occupied
      obtain ⟨nonempty, linked⟩ :=
        sound.represents.chainLinked bucketIdx _ (head_of_occupied occupied)
      exact ⟨nonempty, sound.represents.chain_nodup bucketIdx, linked,
        sound.represents.chainBack bucketIdx, sound.represents.chainUsed bucketIdx⟩
    · intro slotIdx bounded inUse
      obtain ⟨bucketIdx, member⟩ := covers.mem_chain sound.represents bounded inUse
      exact ⟨bucketIdx, member, fun other inOther =>
        sound.represents.disjoint other bucketIdx slotIdx inOther member⟩
  headUsed := by
    intro bucketIdx occupied
    obtain ⟨first, rest, cells, atFirst⟩ :=
      sound.represents.head_eq_cons (head_of_occupied occupied)
    obtain ⟨bounded, inUse⟩ := sound.represents.chainUsed bucketIdx first (by simp [cells])
    exact ⟨first, bounded, atFirst, inUse⟩
  linkUsed := by
    intro slotIdx bounded inUse other link
    obtain ⟨bucketIdx, member⟩ := covers.mem_chain sound.represents bounded inUse
    obtain ⟨start, -, linked⟩ := sound.represents.head_of_mem member
    apply sound.represents.chainUsed bucketIdx other
    rcases link with follows | leads
    · exact linked.mem_of_next member follows
    · exact (sound.represents.chainBack bucketIdx).mem_of_prev member leads

/-! ## One call -/

/-- The group id of an append does not hash to zero. -/
def Call.Hashed : Call → Prop
  | .append groupId _ _ _ _ => calculateHashFromUuid groupId ≠ 0
  | _ => True

instance (c : Call) : Decidable c.Hashed := by
  cases c <;> simp only [Call.Hashed] <;> infer_instance

/-- A deletion by id whose checks pass arrives at a bucket from which it can
unlink the slot. -/
def Mmap.Unlinks (m : Mmap) : Call → Prop
  | .deleteFromUuid groupId id => ∀ slotIdx bucketIdx, m.slotOfId id = some slotIdx →
      (m.content slotIdx).groupId = groupId →
      m.findBucket (calculateHashFromUuid groupId) (m.content slotIdx).countryCode =
        some bucketIdx → m.UnlinksOwner bucketIdx slotIdx
  | _ => True

/-- Some chains and free list make the store sound and cover the slots. -/
def Tidy (m : Mmap) : Prop := ∃ chain spare, Sound m chain spare ∧ Covers maxDataRecords chain spare

theorem Tidy.fresh : Tidy Mmap.fresh := ⟨_, _, Sound.fresh, Covers.range maxDataRecords⟩

/-- **A call whose deletion can unlink its slot keeps the invariant.** -/
theorem Tidy.step {m : Mmap} (tidy : Tidy m) {c : Call} (hashed : c.Hashed)
    (unlinks : m.Unlinks c) : Tidy (m.step c) := by
  obtain ⟨chain, spare, sound, covers⟩ := tidy
  have unchanged : ∀ m', m' = m → Tidy m' := by
    rintro m' rfl
    exact ⟨chain, spare, sound, covers⟩
  cases c with
  | append groupId id countryCode val priority =>
      rcases sound.appendRecord_cases groupId id countryCode val priority with
        ⟨refused, -⟩ | ⟨bucketIdx, slotIdx, rest, rfl, -, free, -, effect⟩
      · exact unchanged _ (congrArg Prod.snd refused)
      · have after := sound.appended effect free
        rw [if_neg hashed] at after
        exact ⟨_, _, after, covers.push bucketIdx⟩
  | update groupId id countryCode val priority =>
      rcases sound.updateRecord_cases groupId id countryCode val priority with
        ⟨refused, -⟩ | ⟨slotIdx, found, -, -, effect⟩
      · exact unchanged _ (congrArg Prod.snd refused)
      · exact ⟨_, _, sound.updated effect found, covers⟩
  | delete groupId countryCode =>
      rcases sound.deleteRecord_cases groupId countryCode with
        ⟨refused, -⟩ | ⟨bucketIdx, -, -, -, -, -, -, -, effect⟩
      · exact unchanged _ (congrArg Prod.snd refused)
      · exact ⟨_, _, effect.sound, covers.clear bucketIdx⟩
  | deleteFromUuid groupId id =>
      rcases deleteRecordFromUuid_cases m groupId id with
        ⟨refused, -⟩ | ⟨slotIdx, bucketIdx, found, sameGroup, ends, deleted⟩
      · exact unchanged _ (congrArg Prod.snd refused)
      · obtain ⟨bounded, inUse, -⟩ := sound.slotOfId_eq_some_iff.mp found
        obtain ⟨owner, member⟩ := covers.mem_chain sound.represents bounded inUse
        have effect := sound.removed found member (unlinks slotIdx bucketIdx found sameGroup ends)
        rw [Mmap.step, Mmap.call, deleted]
        exact ⟨_, _, effect.sound, covers.erase owner slotIdx⟩

/-- Releasing a slot changes the links of no other slot. -/
theorem release_nextIndex_of_ne (m : Mmap) {slotIdx other : Nat} (different : other ≠ slotIdx)
    (entry : Nat) :
    (((m.pushFreeSlot slotIdx).setIdEntry entry (-1)).dataEntries other).nextIndex =
      (m.dataEntries other).nextIndex := by
  simp only [Mmap.setIdEntry, Mmap.pushFreeSlot, Mmap.setEntry, Function.update_of_ne different]

theorem release_isUsed (m : Mmap) (slotIdx other entry : Nat) :
    (((m.pushFreeSlot slotIdx).setIdEntry entry (-1)).dataEntries other).isUsed =
      if other = slotIdx then false else (m.dataEntries other).isUsed := by
  simp only [Mmap.setIdEntry, Mmap.pushFreeSlot, Mmap.setEntry, Function.update_apply]
  split <;> rfl

/-- **A deletion that arrives at a bucket from which it cannot unlink its slot
leaves a link to the released slot.** -/
theorem Tidy.breaks {m : Mmap} (tidy : Tidy m) {c : Call} (misses : ¬ m.Unlinks c) :
    ¬ Structured (m.step c) := by
  obtain ⟨chain, spare, sound, covers⟩ := tidy
  cases c with
  | append groupId id countryCode val priority => exact absurd trivial misses
  | update groupId id countryCode val priority => exact absurd trivial misses
  | delete groupId countryCode => exact absurd trivial misses
  | deleteFromUuid groupId id =>
      simp only [Mmap.Unlinks, not_forall] at misses
      obtain ⟨slotIdx, bucketIdx, found, sameGroup, ends, cannot⟩ := misses
      rcases deleteRecordFromUuid_cases m groupId id with
        ⟨-, refuses⟩ | ⟨slotIdx', bucketIdx', found', -, ends', deleted⟩
      · exact absurd sameGroup (refuses slotIdx bucketIdx found ends)
      obtain rfl : slotIdx' = slotIdx := Option.some.inj (found'.symm.trans found)
      obtain rfl : bucketIdx' = bucketIdx := Option.some.inj (ends'.symm.trans ends)
      obtain ⟨bounded, inUse, -⟩ := sound.slotOfId_eq_some_iff.mp found
      obtain ⟨owner, member⟩ := covers.mem_chain sound.represents bounded inUse
      obtain ⟨occupied, -, -, isHead⟩ := sound.owner_head member
      rw [Mmap.step, Mmap.call, deleted]
      intro structured
      have released := release_isUsed (m.unlinkSlot bucketIdx' slotIdx') slotIdx' slotIdx'
        (idSlot id)
      rw [if_pos rfl] at released
      by_cases first : (m.dataEntries slotIdx').prevIndex = -1
      · -- the released slot is still the head of its owner
        rw [Mmap.UnlinksOwner, if_pos first] at cannot
        have different : owner ≠ bucketIdx' := by
          rintro rfl
          exact cannot ⟨occupied, isHead.mpr first⟩
        have sameBucket : (m.unlinkSlot bucketIdx' slotIdx').hashTable owner =
            m.hashTable owner := by
          rw [unlinkSlot_hashTable, Function.update_of_ne different]
        obtain ⟨head, -, atHead, headUsed⟩ := structured.headUsed owner
          (by exact sameBucket ▸ occupied)
        have atSlot : (m.hashTable owner).headSlotIdx = (head : Int) :=
          (congrArg IndexBucket.headSlotIdx sameBucket).symm.trans atHead
        obtain rfl : head = slotIdx' := by
          have := isHead.mpr first
          omega
        exact Bool.noConfusion (released.symm.trans headUsed)
      · -- the predecessor still points to the released slot
        rw [Mmap.UnlinksOwner, if_neg first, not_not] at cannot
        obtain ⟨last, lastMember, different, pointsAt⟩ :=
          sound.represents.exists_predecessor member first
        obtain ⟨lastBound, lastUsed⟩ := sound.represents.chainUsed owner last lastMember
        have keepsNext : (fun other =>
            ((m.unlinkSlot bucketIdx' slotIdx').dataEntries other).nextIndex) =
            fun other => (m.dataEntries other).nextIndex :=
          unlinkSlot_nextIndex.trans (if_neg fun redirects => redirects.1 cannot.symm)
        have keepsUse : ((m.unlinkSlot bucketIdx' slotIdx').dataEntries last).isUsed = true :=
          (congrFun (unlinkSlot_field IpGroupEntry.isUsed fun _ _ _ => rfl) last).trans lastUsed
        have stillPoints := (release_nextIndex_of_ne (m.unlinkSlot bucketIdx' slotIdx') different
          (idSlot id)).trans ((congrFun keepsNext last).trans pointsAt)
        have stillUsed := (release_isUsed (m.unlinkSlot bucketIdx' slotIdx') slotIdx' last
          (idSlot id)).trans ((if_neg different).trans keepsUse)
        have slotUsed := (structured.linkUsed last lastBound stillUsed slotIdx'
          (.inl stillPoints)).2
        exact Bool.noConfusion (released.symm.trans slotUsed)

/-! ## Every run -/

/-- **The structure of the address cache holds exactly along the runs in which
every deletion by id can unlink its slot.** From a fresh store, by calls that
append no group id that hashes to zero. -/
theorem structured_iff_along {calls : List Call} (hashed : ∀ c ∈ calls, c.Hashed) :
    Run.Throughout Mmap.step Structured Mmap.fresh calls ↔
      Run.Along Mmap.step Mmap.Unlinks Mmap.fresh calls := by
  refine Run.throughout_iff_along ?_ ?_ ?_ Tidy.fresh hashed
  · rintro m ⟨chain, spare, sound, covers⟩
    exact sound.structured covers
  · intro m c isHashed tidy unlinks
    exact tidy.step isHashed unlinks
  · intro m c _ tidy misses
    exact tidy.breaks misses

/-- The country codes `DE` and `FR`. -/
def codeDE : CountryCode := ⟨[68, 69], by decide, by decide⟩

/-- The country `FR`. -/
def codeFR : CountryCode := ⟨[70, 82], by decide, by decide⟩

/-- The address 10.0.0.1. -/
def addressOne : Address := ⟨[10, 0, 0, 1], by decide⟩

/-- Storing and deleting one entry keeps the structure. -/
theorem structured_iff_along_two_calls :
    Run.Throughout Mmap.step Structured Mmap.fresh
        [.append ⟨7, 7⟩ ⟨1, 1⟩ codeDE addressOne 0, .deleteFromUuid ⟨7, 7⟩ ⟨1, 1⟩] ↔
      Run.Along Mmap.step Mmap.Unlinks Mmap.fresh
        [.append ⟨7, 7⟩ ⟨1, 1⟩ codeDE addressOne 0, .deleteFromUuid ⟨7, 7⟩ ⟨1, 1⟩] :=
  structured_iff_along (by decide)

/-- **A moved entry dangles after its deletion.** An update moves an entry to
another country, and the deletion looks for its bucket under the new code. The
bucket of the old code keeps the released slot as its head. -/
theorem moved_entry_dangles :
    ¬ ∀ calls : List Call, (∀ c ∈ calls, c.Hashed) →
      Run.Throughout Mmap.step Structured Mmap.fresh calls := by
  intro always
  have atEnd := (always [.append ⟨7, 7⟩ ⟨1, 1⟩ codeDE addressOne 0,
    .update ⟨7, 7⟩ ⟨1, 1⟩ codeFR addressOne 0, .deleteFromUuid ⟨7, 7⟩ ⟨1, 1⟩]
    (by decide)).last
  rw [Mmap.fresh_eq_freshTable] at atEnd
  generalize reached : Run.exec Mmap.step Mmap.freshTable _ = m at atEnd
  have occupied : (m.hashTable (home (hashKey ⟨7, 7⟩ codeDE))).groupIdHash ≠ 0 := by
    rw [← reached]
    decide +kernel
  have head : (m.hashTable (home (hashKey ⟨7, 7⟩ codeDE))).headSlotIdx = 0 := by
    rw [← reached]
    decide +kernel
  have unused : (m.dataEntries 0).isUsed = false := by
    rw [← reached]
    decide +kernel
  obtain ⟨slotIdx, -, atHead, inUse⟩ := atEnd.headUsed _ occupied
  obtain rfl : slotIdx = 0 := by omega
  exact Bool.noConfusion (unused.symm.trans inUse)

end EdgeDNS.IpGroup
