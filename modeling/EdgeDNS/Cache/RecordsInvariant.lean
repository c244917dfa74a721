import EdgeDNS.Cache.RecordsEffects
import EdgeDNS.Library.Run
import EdgeDNS.Library.Scans

/-!
# The invariant of the record cache

A freshly created store is sound (`Sound.fresh`), and every call keeps it sound
(`Sound.step`), whatever its arguments. As long as no name hashes to zero,
every used slot moreover stays on a chain: the free list and the chains
together cover the slots (`Covers`).

`WellFormed` spells the invariant out in the fields of the store. It holds in
every state of every run (`wellFormed_of_run`), and there the branch of
`append_record` that salvages a chain and the guards of `get_record` against
cyclic chains are dead.
-/

set_option autoImplicit false

namespace EdgeDNS.Records

open LinkedArena DirectIndex Probing

/-! ## The two scans of `init` -/

namespace Mmap

/-- The table of the ids, as a part of the store. -/
def idPart : Part Mmap (Nat → Int) where
  get m := m.idHashTable
  set m table := { m with idHashTable := table }
  get_set _ _ := rfl
  set_get _ := rfl
  set_set _ _ _ := rfl

/-- The successors of the slots and the head of the free list, as a part of the
store. -/
def linkPart : Part Mmap ((Nat → Int) × Int) where
  get m := (m.arena.next, m.freeListHeadIdx)
  set m links :=
    { m with
      dataRecords := fun slotIdx => { m.dataRecords slotIdx with nextIndex := links.1 slotIdx }
      freeListHeadIdx := links.2 }
  get_set _ _ := rfl
  set_get _ := rfl
  set_set _ _ _ := rfl

theorem rebuildIdTable_eq (m : Mmap) (count : Nat) :
    rebuildIdTable m count =
      { m with idHashTable := rebuilt m.arena.used m.idEntry m.idHashTable count } :=
  @scan_eq_rebuilt Mmap (fun m => m.arena.used) idPart idEntry (fun _ _ => rfl) (fun _ _ => rfl)
    rebuildIdTable (fun _ => rfl) (fun _ _ => rfl) m count

theorem threadSlot_eq (m : Mmap) (slotIdx : Nat) :
    m.threadSlot slotIdx = linkPart.set m
      (Function.update m.arena.next slotIdx m.freeListHeadIdx, slotIdx) := by
  refine Mmap.ext rfl rfl (funext fun other => ?_) rfl
  dsimp only [threadSlot, setRecord, linkPart]
  rcases eq_or_ne other slotIdx with rfl | different
  · rw [Function.update_self, Function.update_self]
  · rw [Function.update_of_ne different, Function.update_of_ne different]
    rfl

/-- Threading writes the links of the unused slots and nothing else. -/
theorem threadFreeList_eq (count : Nat) (m : Mmap) :
    threadFreeList count m = linkPart.set m
      (threaded (fun slotIdx => !m.arena.used slotIdx) count m.arena.next m.freeListHeadIdx) := by
  refine @scan_eq_threaded Mmap (fun m => m.arena.used) linkPart (fun _ _ => rfl) threadFreeList
    (fun _ => rfl) (fun count m => ?_) count m
  rw [threadFreeList, threadSlot_eq]
  rfl

end Mmap

/-! ## The fresh store -/

namespace Mmap

/-- The arrays of a new file before the free list is threaded. -/
def blank : Mmap where
  hashTable _ := ⟨0, 0, 0⟩
  idHashTable entry := if entry < idHashTableSize then -1 else 0
  dataRecords slotIdx :=
    if slotIdx < maxDataRecords then blankRecord (zeroed.dataRecords slotIdx)
    else zeroed.dataRecords slotIdx
  freeListHeadIdx := -1

/-- The fresh store, array by array. -/
def freshTable : Mmap where
  hashTable := blank.hashTable
  idHashTable := blank.idHashTable
  dataRecords slotIdx :=
    if slotIdx < maxDataRecords then
      { blank.dataRecords slotIdx with
        nextIndex := if slotIdx + 1 = maxDataRecords then -1 else slotIdx + 1 }
    else blank.dataRecords slotIdx
  freeListHeadIdx := 0

theorem freshTable_isUsed (slotIdx : Nat) : (freshTable.dataRecords slotIdx).isUsed = false := by
  simp only [freshTable, blank]
  split <;> rfl

theorem fresh_eq_freshTable : fresh = freshTable := by
  have empty : (fun i => if i < hashTableSize then (⟨0, 0, 0⟩ : IndexBucket)
      else ⟨0, 0, 0⟩) = fun _ => ⟨0, 0, 0⟩ := funext fun _ => ite_self _
  have opened : fresh = threadFreeList maxDataRecords blank := by
    simp only [fresh, init, if_true, blank, ← empty]
    rfl
  have unused : ∀ slotIdx, slotIdx < maxDataRecords → (!blank.arena.used slotIdx) = true := by
    intro slotIdx bounded
    simp only [arena, blank, if_pos bounded]
    rfl
  rw [opened, threadFreeList_eq, threaded_all unused]
  refine Mmap.ext rfl rfl (funext fun slotIdx => ?_) rfl
  dsimp only [linkPart, freshTable]
  split <;> rfl

end Mmap

/-- A freshly created store has no chains, and every slot is spare. -/
theorem Sound.fresh : Sound Mmap.fresh (fun _ => []) (List.range maxDataRecords) := by
  have unused : Mmap.freshTable.arena.used = fun _ => false := funext Mmap.freshTable_isUsed
  have steps : ∀ slotIdx, slotIdx < maxDataRecords → Mmap.freshTable.arena.next slotIdx =
      if slotIdx + 1 = maxDataRecords then -1 else (slotIdx : Int) + 1 := by
    intro slotIdx bounded
    simp only [Mmap.arena, Mmap.freshTable, if_pos bounded]
  have represents := Arena.Represents.unused (by decide) unused rfl rfl steps
  rw [Mmap.fresh_eq_freshTable]
  exact ⟨represents, .unused Mmap.freshTable_isUsed fun entry bound => if_pos bound,
    fun bucketIdx slotIdx member => absurd member List.not_mem_nil⟩

/-! ## Every call keeps the invariant -/

/-- The name of an append does not hash to zero. -/
def Call.Hashed : Call → Prop
  | .append wireName _ _ _ => calculateHash wireName ≠ 0
  | _ => True

instance (c : Call) : Decidable c.Hashed := by
  cases c <;> simp only [Call.Hashed] <;> infer_instance

/-- **Every call keeps the store sound**, whatever its arguments, and keeps the
slots covered when it appends no name that hashes to zero. -/
theorem Sound.step {m : Mmap} {chain : Nat → List Nat} {spare : List Nat}
    (sound : Sound m chain spare) (c : Call) :
    ∃ chain' spare', Sound (m.step c) chain' spare' ∧
      (c.Hashed → Covers maxDataRecords chain spare → Covers maxDataRecords chain' spare') := by
  have unchanged : ∀ m', m' = m → ∃ chain' spare', Sound m' chain' spare' ∧
      (c.Hashed → Covers maxDataRecords chain spare → Covers maxDataRecords chain' spare') := by
    rintro m' rfl
    exact ⟨chain, spare, sound, fun _ covers => covers⟩
  cases c with
  | append wireName qtype id data =>
      rcases sound.appendRecord_cases wireName qtype id data with
        refused | ⟨bucketIdx, slotIdx, rest, rfl, -, -, free, -, effect⟩
      · exact unchanged _ (congrArg Prod.snd refused)
      · refine ⟨_, _, sound.appended free effect, fun hashed covers => ?_⟩
        rw [if_neg hashed]
        exact covers.push bucketIdx
  | update id data =>
      rcases sound.updateRecord_cases id data with refused | ⟨slotIdx, found, -, -, effect⟩
      · exact unchanged _ (congrArg Prod.snd refused)
      · exact ⟨chain, spare, sound.updated found effect, fun _ covers => covers⟩
  | delete wireName qtype =>
      rcases sound.deleteRecord_cases wireName qtype with
        ⟨refused, -⟩ | ⟨bucketIdx, -, -, -, effect⟩
      · exact unchanged _ (congrArg Prod.snd refused)
      · exact ⟨_, _, effect.sound, fun _ covers => covers.clear bucketIdx⟩
  | deleteFromUuid id =>
      rcases sound.deleteRecordFromUuid_cases id with
        ⟨-, refused⟩ | ⟨slotIdx, -, -, effect⟩
      · exact unchanged _ (congrArg Prod.snd refused)
      · exact ⟨_, _, effect.sound, fun _ covers => covers.erase _ slotIdx⟩

/-- Some chains and free list make the store sound. -/
def Intact (m : Mmap) : Prop := ∃ chain spare, Sound m chain spare

/-- Some chains and free list make the store sound and cover the slots. -/
def Tidy (m : Mmap) : Prop := ∃ chain spare, Sound m chain spare ∧ Covers maxDataRecords chain spare

theorem Intact.step {m : Mmap} (intact : Intact m) (c : Call) : Intact (m.step c) := by
  obtain ⟨chain, spare, sound⟩ := intact
  obtain ⟨chain', spare', sound', -⟩ := sound.step c
  exact ⟨chain', spare', sound'⟩

theorem Tidy.step {m : Mmap} (tidy : Tidy m) {c : Call} (hashed : c.Hashed) :
    Tidy (m.step c) := by
  obtain ⟨chain, spare, sound, covers⟩ := tidy
  obtain ⟨chain', spare', sound', keeps⟩ := sound.step c
  exact ⟨chain', spare', sound', keeps hashed covers⟩

theorem Tidy.fresh : Tidy Mmap.fresh := ⟨_, _, Sound.fresh, Covers.range maxDataRecords⟩

theorem Intact.fresh : Intact Mmap.fresh := ⟨_, _, Sound.fresh⟩

/-- Every store reached by any calls is sound. -/
theorem Intact.run (calls : List Call) : Intact (Run.exec Mmap.step Mmap.fresh calls) := by
  have noDemand : ∀ c ∈ calls, True := fun _ _ => trivial
  exact Run.exec_invariant (fun _ c _ intact => intact.step c) Intact.fresh noDemand

/-- Without names that hash to zero the slots stay covered. -/
theorem Tidy.run {calls : List Call} (hashed : ∀ c ∈ calls, c.Hashed) :
    Tidy (Run.exec Mmap.step Mmap.fresh calls) :=
  Run.exec_invariant (fun _ _ isHashed tidy => tidy.step isHashed) Tidy.fresh hashed

/-! ## Ids that are not stored -/

/-- A used slot holds the id. -/
def Mmap.Stored (m : Mmap) (id : CassUuid) : Prop :=
  ∃ slotIdx < maxDataRecords, (m.dataRecords slotIdx).isUsed = true ∧
    (m.dataRecords slotIdx).id = id

section Missing

variable {m : Mmap} {chain : Nat → List Nat} {spare : List Nat} {id : CassUuid}

theorem Sound.slotOfId_eq_none_iff_not_stored (sound : Sound m chain spare) :
    m.slotOfId id = none ↔ ¬ m.Stored id := by
  rw [sound.slotOfId_eq_none_iff]
  constructor
  · rintro missing ⟨slotIdx, bounded, inUse, holds⟩
    exact missing slotIdx bounded inUse holds
  · intro notStored slotIdx bounded inUse holds
    exact notStored ⟨slotIdx, bounded, inUse, holds⟩

/-- An id that is not stored stays so when no used slot takes it. -/
theorem Sound.missing_of {m' : Mmap} {chain' : Nat → List Nat} {spare' : List Nat}
    (sound : Sound m chain spare) (after : Sound m' chain' spare') (missing : m.slotOfId id = none)
    (kept : ∀ slotIdx, slotIdx ∉ spare' → (m'.dataRecords slotIdx).id ≠ id ∨
      slotIdx ∉ spare ∧ (m'.dataRecords slotIdx).id = (m.dataRecords slotIdx).id) :
    m'.slotOfId id = none := by
  rw [after.slotOfId_eq_none_iff]
  intro slotIdx bounded inUse
  have notSpare : slotIdx ∉ spare' := fun member =>
    Bool.false_ne_true (((after.represents.memSpare slotIdx).mp member).2.symm.trans inUse)
  rcases kept slotIdx notSpare with different | ⟨wasUsed, sameId⟩
  · exact different
  · rw [sameId]
    refine sound.slotOfId_eq_none_iff.mp missing slotIdx bounded ?_
    by_contra unused
    exact wasUsed ((sound.represents.memSpare slotIdx).mpr
      ⟨bounded, Bool.eq_false_of_not_eq_true unused⟩)

/-- **Only an append of an id stores it.** -/
theorem Sound.missing_step (sound : Sound m chain spare) {c : Call}
    (notAppended : ∀ wireName qtype data, c ≠ .append wireName qtype id data)
    (missing : m.slotOfId id = none) : (m.step c).slotOfId id = none := by
  have unchanged : ∀ m', m' = m → m'.slotOfId id = none := by
    rintro m' rfl
    exact missing
  cases c with
  | append wireName qtype id' data =>
      rcases sound.appendRecord_cases wireName qtype id' data with
        refused | ⟨bucketIdx, slotIdx, rest, rfl, -, -, free, -, effect⟩
      · exact unchanged _ (congrArg Prod.snd refused)
      · refine sound.missing_of (sound.appended free effect) missing fun other notSpare => ?_
        rcases eq_or_ne other slotIdx with rfl | different
        · refine .inl fun holds => ?_
          have own : id' = id := (congrArg DNSResponseData.id effect.own).symm.trans holds
          exact notAppended wireName qtype data (own ▸ rfl)
        · have wasUsed : other ∉ slotIdx :: rest := by
            simp only [List.mem_cons, different, notSpare, or_self, not_false_eq_true]
          exact .inr ⟨wasUsed, congrArg DNSResponseData.id (effect.others other different)⟩
  | update id' data =>
      rcases sound.updateRecord_cases id' data with refused | ⟨slotIdx, found, -, -, effect⟩
      · exact unchanged _ (congrArg Prod.snd refused)
      · refine sound.missing_of (sound.updated found effect) missing fun other notSpare => ?_
        rcases eq_or_ne other slotIdx with rfl | different
        · have holds := (sound.slotOfId_eq_some_iff.mp found).2.2
          exact .inr ⟨notSpare, (congrArg DNSResponseData.id effect.own).trans holds.symm⟩
        · exact .inr ⟨notSpare, congrArg DNSResponseData.id (effect.others other different)⟩
  | delete wireName qtype =>
      rcases sound.deleteRecord_cases wireName qtype with
        ⟨refused, -⟩ | ⟨bucketIdx, -, -, -, effect⟩
      · exact unchanged _ (congrArg Prod.snd refused)
      · refine sound.missing_of effect.sound missing fun other notSpare => ?_
        rw [List.mem_append, List.mem_reverse, not_or] at notSpare
        exact .inr ⟨notSpare.2, congrArg DNSRecord.id (effect.others other notSpare.1)⟩
  | deleteFromUuid id' =>
      rcases sound.deleteRecordFromUuid_cases id' with ⟨-, refused⟩ | ⟨slotIdx, -, -, effect⟩
      · exact unchanged _ (congrArg Prod.snd refused)
      · refine sound.missing_of effect.sound missing fun other notSpare => ?_
        rw [List.mem_cons, not_or] at notSpare
        exact .inr ⟨notSpare.2,
          congrArg DNSResponseData.id (effect.others other notSpare.1)⟩

end Missing

/-! ## The loop of a lookup -/

namespace Mmap

/-- The loop of `get_record` over a chain reads every slot of it and ends at the
end of the chain: none of its guards is reached. -/
theorem getRecordLoop_eq {slots : List Nat} {m : Mmap} {start : Int} {left : Nat}
    (linked : Linked m.arena.next start slots)
    (inUse : ∀ slotIdx ∈ slots, slotIdx < maxDataRecords ∧ m.arena.used slotIdx = true)
    (enough : slots.length ≤ left) :
    m.getRecordLoop left start =
      (slots.map fun slotIdx => (m.dataRecords slotIdx).response, .endOfChain) := by
  induction slots generalizing start left with
  | nil =>
      have outside : ¬ InSlotRange start := by
        have ended : start = -1 := linked
        simp [InSlotRange, ended]
      cases left with
      | zero => exact if_neg outside
      | succ left => exact if_neg outside
  | cons slotIdx slots ih =>
      obtain ⟨left, rfl⟩ : ∃ left', left = left' + 1 :=
        Nat.exists_eq_succ_of_ne_zero (Nat.ne_of_gt (Nat.lt_of_lt_of_le (Nat.succ_pos _) enough))
      obtain ⟨bounded, used⟩ := inUse slotIdx (List.mem_cons_self ..)
      obtain rfl : start = (slotIdx : Int) := linked.1
      have inside : InSlotRange (slotIdx : Int) := by
        constructor <;> omega
      have notSelf : (m.dataRecords slotIdx).nextIndex ≠ (slotIdx : Int) :=
        linked.next_ne_self (List.mem_cons_self ..)
      have isUsed : (m.dataRecords slotIdx).isUsed = true := used
      have rest := ih linked.2 (fun other member => inUse other (List.mem_cons_of_mem _ member))
        (Nat.le_of_succ_le_succ enough)
      rw [getRecordLoop, if_pos inside]
      simp only [Int.toNat_natCast, isUsed, if_true, if_neg notSelf, List.map_cons]
      exact congrArg (fun walked : List DNSResponseData × LoopExit =>
        ((m.dataRecords slotIdx).response :: walked.1, walked.2)) rest

end Mmap

section Lookup

variable {m : Mmap} {chain : Nat → List Nat} {spare : List Nat}

/-- A lookup in an occupied bucket walks its chain. -/
theorem Sound.getRecordTraced_eq (sound : Sound m chain spare) {wireName : List UInt8}
    {qtype : Int} {bucketIdx : Nat}
    (ends : m.findBucket (calculateHash wireName) qtype = some bucketIdx)
    (occupied : m.keys bucketIdx ≠ none) :
    m.getRecordTraced wireName qtype =
      ((chain bucketIdx).map fun slotIdx => (m.dataRecords slotIdx).response,
        some .endOfChain) := by
  have hashed : (m.hashTable bucketIdx).nameHash ≠ 0 := mt key_eq_none_iff.mpr occupied
  have linked := (sound.represents.chainLinked bucketIdx _ (head_of_occupied hashed)).2
  have walked := Mmap.getRecordLoop_eq linked (sound.represents.chainUsed bucketIdx)
    (sound.represents.chain_length_le bucketIdx)
  simp only [Mmap.getRecordTraced, ends, if_neg hashed, walked]

/-- **A lookup returns the chain of the bucket where its probe ends.** -/
theorem Sound.getRecord_eq (sound : Sound m chain spare) (wireName : List UInt8)
    (qtype : Int) :
    m.getRecord wireName qtype =
      ((m.findBucket (calculateHash wireName) qtype).elim [] chain).map fun slotIdx =>
        (m.dataRecords slotIdx).response := by
  cases ends : m.findBucket (calculateHash wireName) qtype with
  | none => simp [Mmap.getRecord, Mmap.getRecordTraced, ends]
  | some bucketIdx =>
      by_cases occupied : m.keys bucketIdx = none
      · have hashed := key_eq_none_iff.mp occupied
        have vacant := sound.represents.vacant bucketIdx (head_eq_none_iff.mpr hashed)
        simp [Mmap.getRecord, Mmap.getRecordTraced, ends, hashed, vacant]
      · rw [Mmap.getRecord, sound.getRecordTraced_eq ends occupied]
        rfl

/-- The loop of a lookup never ends at a guard. -/
theorem Sound.getRecordTraced_exit (sound : Sound m chain spare) (wireName : List UInt8)
    (qtype : Int) :
    (m.getRecordTraced wireName qtype).2 = none ∨
      (m.getRecordTraced wireName qtype).2 = some .endOfChain := by
  cases ends : m.findBucket (calculateHash wireName) qtype with
  | none => exact .inl (by simp [Mmap.getRecordTraced, ends])
  | some bucketIdx =>
      by_cases occupied : m.keys bucketIdx = none
      · exact .inl (by simp [Mmap.getRecordTraced, ends, key_eq_none_iff.mp occupied])
      · exact .inr (by rw [sound.getRecordTraced_eq ends occupied])

/-- An append never salvages a chain. -/
theorem Sound.appendBranch_ne_salvage (sound : Sound m chain spare) (wireName : List UInt8)
    (qtype : Int) (id : CassUuid) (data : RecordData) :
    m.appendBranch wireName qtype id data ≠ some .salvage := by
  rcases sound.appendRecord_cases wireName qtype id data with
    refused | ⟨bucketIdx, slotIdx, rest, rfl, fits, ends, free, -, -⟩
  · have noSlot : m.prepareAppend wireName qtype id data = none := by
      cases prepared : m.prepareAppend wireName qtype id data with
      | none => rfl
      | some slot =>
          simp only [Mmap.appendRecord, prepared, Prod.mk.injEq, Bool.true_eq_false,
            false_and] at refused
    simp [Mmap.appendBranch, noSlot]
  · simp only [Mmap.appendBranch, sound.prepareAppend_eq fits ends free, Option.map_some]
    rw [@Sound.linkBranch_eq m chain rest slotIdx bucketIdx id data sound]
    split <;> simp

/-- A lookup without a hash to look for finds nothing. -/
theorem Sound.getRecord_of_zero (sound : Sound m chain spare) {wireName : List UInt8}
    (zero : calculateHash wireName = 0) (qtype : Int) : m.getRecord wireName qtype = [] := by
  rw [sound.getRecord_eq]
  cases ends : m.findBucket (calculateHash wireName) qtype with
  | none => rfl
  | some bucketIdx =>
      have empty : (m.hashTable bucketIdx).nameHash = 0 := by
        rcases key_of_findKey ((findBucket_eq ..).symm.trans ends) with vacant | here
        · exact key_eq_none_iff.mp vacant
        · exact (key_eq_some_iff.mp here).2.1.trans zero
      rw [Option.elim_some, sound.represents.vacant bucketIdx (head_eq_none_iff.mpr empty)]
      rfl

/-- What a lookup finds stands in a used slot on the chain of the bucket that
stores the key. -/
theorem Sound.mem_getRecord (sound : Sound m chain spare) {wireName : List UInt8} {qtype : Int}
    {response : DNSResponseData} (member : response ∈ m.getRecord wireName qtype) :
    ∃ bucketIdx slotIdx, m.keys bucketIdx = some (calculateHash wireName, qtype) ∧
      slotIdx ∈ chain bucketIdx ∧ response = (m.dataRecords slotIdx).response := by
  rw [sound.getRecord_eq] at member
  cases ends : m.findBucket (calculateHash wireName) qtype with
  | none =>
      rw [ends] at member
      exact absurd member List.not_mem_nil
  | some bucketIdx =>
      rw [ends] at member
      obtain ⟨slotIdx, onChain, rfl⟩ := List.mem_map.mp member
      refine ⟨bucketIdx, slotIdx, ?_, onChain, rfl⟩
      rcases key_of_findKey ((findBucket_eq ..).symm.trans ends) with vacant | here
      · have empty := sound.represents.vacant bucketIdx
          (head_eq_none_iff.mpr (key_eq_none_iff.mp vacant))
        rw [Option.elim_some, empty] at onChain
        exact absurd onChain List.not_mem_nil
      · exact here

/-- The ids that lookups return are stored. -/
theorem Sound.slotOfId_of_mem_getRecord (sound : Sound m chain spare) {wireName : List UInt8}
    {qtype : Int} {response : DNSResponseData}
    (member : response ∈ m.getRecord wireName qtype) : m.slotOfId response.id ≠ none := by
  obtain ⟨bucketIdx, slotIdx, -, onChain, rfl⟩ := sound.mem_getRecord member
  obtain ⟨bounded, inUse⟩ := sound.represents.chainUsed bucketIdx slotIdx onChain
  have found := sound.slotOfId_eq_some_iff.mpr ⟨bounded, inUse, rfl⟩
  exact fun missing => absurd (missing.symm.trans found) (Option.some_ne_none _).symm

/-- **An appended record is the first that a lookup of its name finds.** -/
theorem Sound.getRecord_appended {m' : Mmap} {wireName : List UInt8} {qtype : Int}
    {bucketIdx slotIdx : Nat} {id : CassUuid} {data : RecordData}
    (sound : Sound m chain (slotIdx :: spare)) (hashed : calculateHash wireName ≠ 0)
    (ends : m.findBucket (calculateHash wireName) qtype = some bucketIdx)
    (free : m.idHashTable (idSlot id) = -1)
    (effect : Appended m m' (calculateHash wireName) qtype bucketIdx slotIdx id data) :
    m'.getRecord wireName qtype =
      data.response id bucketIdx :: m.getRecord wireName qtype := by
  have after := sound.appended free effect
  rw [if_neg hashed] at after
  have endsAfter : m'.findBucket (calculateHash wireName) qtype = some bucketIdx := by
    rw [findBucket_eq, effect.keys, if_neg hashed]
    exact findKey_update_self ((findBucket_eq ..).symm.trans ends)
  rw [after.getRecord_eq, sound.getRecord_eq, ends, endsAfter, Option.elim_some, Option.elim_some,
    Function.update_self, List.map_cons, effect.own]
  refine congrArg (List.cons _) (List.map_congr_left fun other member => ?_)
  exact effect.others other (sound.represents.used_of_ne_spare member)

/-- A new id appears in no lookup under another key. -/
theorem Sound.appended_elsewhere {m' : Mmap} {hash : UInt64} {qtype qtype' : Int}
    {wireName' : List UInt8} {bucketIdx slotIdx : Nat} {id : CassUuid} {data : RecordData}
    (sound : Sound m chain (slotIdx :: spare)) (missing : m.slotOfId id = none)
    (free : m.idHashTable (idSlot id) = -1)
    (effect : Appended m m' hash qtype bucketIdx slotIdx id data)
    (different : (calculateHash wireName', qtype') ≠ (hash, qtype)) :
    ∀ response ∈ m'.getRecord wireName' qtype', response.id ≠ id := by
  intro response member sameId
  obtain ⟨bucket, slot, here, onChain, rfl⟩ := (sound.appended free effect).mem_getRecord member
  have old : slot ∈ chain bucket := by
    split at onChain
    · exact onChain
    · next hashed =>
        rcases eq_or_ne bucket bucketIdx with rfl | other
        · rw [effect.keys, if_neg hashed, Function.update_self, Option.some.injEq] at here
          exact absurd here.symm different
        · rwa [Function.update_of_ne other] at onChain
  obtain ⟨bounded, inUse⟩ := sound.represents.chainUsed bucket slot old
  rw [effect.others slot (sound.represents.used_of_ne_spare old)] at sameId
  exact sound.slotOfId_eq_none_iff.mp missing slot bounded inUse sameId

end Lookup

/-! ## The invariant in the fields of the store -/

/-- The free list, the chains and the id table of a store, in its own fields. -/
structure WellFormed (m : Mmap) : Prop where
  /-- The free list is finite, meets no slot twice and holds exactly the unused
  slots. -/
  freeList : ∃ spare : List Nat, spare.Nodup ∧
    Linked (fun slotIdx => (m.dataRecords slotIdx).nextIndex) m.freeListHeadIdx spare ∧
    ∀ slotIdx, slotIdx ∈ spare ↔
      slotIdx < maxDataRecords ∧ (m.dataRecords slotIdx).isUsed = false
  /-- Every occupied bucket heads a chain of used slots that name the bucket, with
  mutually inverse links, and every used slot is on exactly one chain. -/
  chains : ∃ chain : Nat → List Nat,
    (∀ bucketIdx, (m.hashTable bucketIdx).nameHash = 0 → chain bucketIdx = []) ∧
    (∀ bucketIdx, (m.hashTable bucketIdx).nameHash ≠ 0 →
      chain bucketIdx ≠ [] ∧ (chain bucketIdx).Nodup ∧
      Linked (fun slotIdx => (m.dataRecords slotIdx).nextIndex)
        (m.hashTable bucketIdx).headSlotIdx (chain bucketIdx) ∧
      BackLinked (fun slotIdx => (m.dataRecords slotIdx).prevIndex) (-1) (chain bucketIdx) ∧
      ∀ slotIdx ∈ chain bucketIdx, slotIdx < maxDataRecords ∧
        (m.dataRecords slotIdx).isUsed = true ∧
        (m.dataRecords slotIdx).bucketIdx = bucketIdx) ∧
    ∀ slotIdx < maxDataRecords, (m.dataRecords slotIdx).isUsed = true →
      ∃! bucketIdx, slotIdx ∈ chain bucketIdx
  /-- Every used slot is entered at the hash of its id. -/
  idEntered : ∀ slotIdx < maxDataRecords, (m.dataRecords slotIdx).isUsed = true →
    m.idHashTable (idSlot (m.dataRecords slotIdx).id) = (slotIdx : Int)
  /-- Every entry but the empty ones is a used slot whose id hashes there. -/
  idEntry : ∀ entry < idHashTableSize, m.idHashTable entry ≠ -1 →
    ∃ slotIdx < maxDataRecords, m.idHashTable entry = (slotIdx : Int) ∧
      (m.dataRecords slotIdx).isUsed = true ∧ idSlot (m.dataRecords slotIdx).id = entry
  /-- No id is stored twice. -/
  idUnique : ∀ first < maxDataRecords, ∀ second < maxDataRecords,
    (m.dataRecords first).isUsed = true → (m.dataRecords second).isUsed = true →
    (m.dataRecords first).id = (m.dataRecords second).id → first = second

/-- A sound store whose slots are covered is well formed. -/
theorem Sound.wellFormed {m : Mmap} {chain : Nat → List Nat} {spare : List Nat}
    (sound : Sound m chain spare) (covers : Covers maxDataRecords chain spare) : WellFormed m where
  freeList := ⟨spare, sound.represents.spare_nodup, sound.represents.spareLinked,
    sound.represents.memSpare⟩
  chains := by
    refine ⟨chain, ?_, ?_, ?_⟩
    · intro bucketIdx empty
      exact sound.represents.vacant bucketIdx (head_eq_none_iff.mpr empty)
    · intro bucketIdx occupied
      obtain ⟨nonempty, linked⟩ :=
        sound.represents.chainLinked bucketIdx _ (head_of_occupied occupied)
      refine ⟨nonempty, sound.represents.chain_nodup bucketIdx, linked,
        sound.represents.chainBack bucketIdx, fun slotIdx member => ?_⟩
      obtain ⟨bounded, inUse⟩ := sound.represents.chainUsed bucketIdx slotIdx member
      exact ⟨bounded, inUse, sound.owned bucketIdx slotIdx member⟩
    · intro slotIdx bounded inUse
      obtain ⟨bucketIdx, member⟩ := covers.mem_chain sound.represents bounded inUse
      exact ⟨bucketIdx, member, fun other inOther =>
        sound.represents.disjoint other bucketIdx slotIdx inOther member⟩
  idEntered := sound.indexed.complete
  idEntry := by
    intro entry bound entered
    obtain ⟨slotIdx, bounded, inUse, atEntry, holds⟩ := sound.indexed.sound entry bound entered
    exact ⟨slotIdx, bounded, holds, inUse, atEntry⟩
  idUnique := by
    intro first firstBound second secondBound firstUsed secondUsed same
    exact sound.indexed.injective firstBound firstUsed secondBound secondUsed
      (congrArg idSlot same)

/-- **The representation invariant of the record cache.** In every state that
calls reach from a fresh store, when no appended name hashes to zero, the store
is well formed, no append salvages a chain, and no lookup is stopped by a guard
of its loop. -/
theorem wellFormed_of_run (calls : List Call) (hashed : ∀ c ∈ calls, c.Hashed) :
    WellFormed (Run.exec Mmap.step Mmap.fresh calls) ∧
    (∀ wireName qtype id data,
      (Run.exec Mmap.step Mmap.fresh calls).appendBranch wireName qtype id data ≠
        some .salvage) ∧
    ∀ wireName qtype,
      ((Run.exec Mmap.step Mmap.fresh calls).getRecordTraced wireName qtype).2 = none ∨
      ((Run.exec Mmap.step Mmap.fresh calls).getRecordTraced wireName qtype).2 =
        some .endOfChain := by
  obtain ⟨chain, spare, sound, covers⟩ := Tidy.run hashed
  exact ⟨sound.wellFormed covers, sound.appendBranch_ne_salvage, sound.getRecordTraced_exit⟩

/-- The invariant after two appends under one name and the deletion of the
first. -/
theorem wellFormed_of_three_calls :
    WellFormed (Run.exec Mmap.step Mmap.fresh
      [.append [1, 97, 0] 1 ⟨1, 1⟩ ⟨60, 0, ⟨0, 0⟩, false, false, [10, 0, 0, 1]⟩,
        .append [1, 97, 0] 1 ⟨2, 2⟩ ⟨60, 0, ⟨0, 0⟩, false, false, [10, 0, 0, 2]⟩,
        .deleteFromUuid ⟨1, 1⟩]) :=
  (wellFormed_of_run _ (by decide)).1

end EdgeDNS.Records
