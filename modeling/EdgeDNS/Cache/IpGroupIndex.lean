import EdgeDNS.Cache.IpGroupInvariant

/-!
# What a lookup in the address cache returns

A lookup for a group and a country is exact when it returns the used entries
that store this group and this country, each once (`ExactAt`).

`Filed` is the invariant behind it: every slot stands in the bucket of its own
group hash and country code, and every stored key is found. Four things break
it, each in one kind of call (`Mmap.KeepsIndex`): an append of a group id that
hashes to zero, an update that changes the country code, and the two deletions
when they empty a bucket on the probe path of another key.

Even a filed store answers for the hash of a group id only, and the hash folds
the case of the raw bytes. A lookup in a filed store is exact unless an entry of
another group with the same hash is stored under the country (`Mmap.Collides`).
-/

set_option autoImplicit false

namespace EdgeDNS.IpGroup

open LinkedArena DirectIndex Probing

/-! ## Exact lookups -/

/-- The used entry in a slot belongs to the group and to the country. -/
def Mmap.Stores (m : Mmap) (groupId : CassUuid) (countryCode : CountryCode) (slotIdx : Nat) :
    Prop :=
  slotIdx < maxDataRecords ∧ (m.dataEntries slotIdx).isUsed = true ∧
    (m.content slotIdx).groupId = groupId ∧ (m.content slotIdx).countryCode = countryCode

/-- The lookup returns exactly the used entries of the group and the country,
each once. -/
def Mmap.ExactAt (m : Mmap) (groupId : CassUuid) (countryCode : CountryCode) : Prop :=
  ∃ slots : List Nat, slots.Nodup ∧
    (∀ slotIdx, slotIdx ∈ slots ↔ m.Stores groupId countryCode slotIdx) ∧
    m.getRecord groupId countryCode = slots.map fun slotIdx => (m.content slotIdx).response

/-- An entry of another group with the same hash is stored under the country. -/
def Mmap.Collides (m : Mmap) (groupId : CassUuid) (countryCode : CountryCode) : Prop :=
  ∃ other slotIdx, other ≠ groupId ∧
    calculateHashFromUuid other = calculateHashFromUuid groupId ∧
    m.Stores other countryCode slotIdx

/-- The call keeps every slot in the bucket of its key, and every stored key
found. -/
def Mmap.KeepsIndex (m : Mmap) : Call → Prop
  | .append groupId id countryCode _ _ =>
      calculateHashFromUuid groupId = 0 → ¬ m.CanAppend groupId id countryCode
  | .update groupId id countryCode _ _ => ∀ slotIdx, m.slotOfId id = some slotIdx →
      (m.content slotIdx).groupId = groupId → (m.content slotIdx).countryCode = countryCode
  | .delete groupId countryCode => ∀ bucketIdx,
      m.findBucket (calculateHashFromUuid groupId) countryCode = some bucketIdx →
      (m.hashTable bucketIdx).groupIdHash ≠ 0 →
      (m.content (m.hashTable bucketIdx).headSlotIdx.toNat).groupId = groupId →
      CutsNoPath probeStep home hashTableSize m.keys bucketIdx
  | .deleteFromUuid groupId id => ∀ slotIdx bucketIdx, m.slotOfId id = some slotIdx →
      (m.content slotIdx).groupId = groupId →
      m.findBucket (calculateHashFromUuid groupId) (m.content slotIdx).countryCode =
        some bucketIdx →
      (m.hashTable bucketIdx).headSlotIdx = (slotIdx : Int) →
      (m.dataEntries slotIdx).nextIndex = -1 →
      CutsNoPath probeStep home hashTableSize m.keys bucketIdx

/-! ## The loop of a lookup -/

/-- The loop of `get_record` over a chain reads every slot of it. -/
theorem Mmap.getRecordLoop_eq {slots : List Nat} {m : Mmap} {start : Int} {left : Nat}
    (linked : Linked m.arena.next start slots)
    (inUse : ∀ slotIdx ∈ slots, slotIdx < maxDataRecords ∧ m.arena.used slotIdx = true)
    (enough : slots.length ≤ left) :
    m.getRecordLoop left start = slots.map fun slotIdx => (m.content slotIdx).response := by
  induction slots generalizing start left with
  | nil =>
      have outside : ¬ InSlotRange start := by
        have ended : start = -1 := linked
        simp [InSlotRange, ended]
      cases left with
      | zero => rfl
      | succ left => exact if_neg outside
  | cons slotIdx slots ih =>
      obtain ⟨left, rfl⟩ : ∃ left', left = left' + 1 :=
        Nat.exists_eq_succ_of_ne_zero (Nat.ne_of_gt (Nat.lt_of_lt_of_le (Nat.succ_pos _) enough))
      obtain ⟨bounded, used⟩ := inUse slotIdx (List.mem_cons_self ..)
      obtain rfl : start = (slotIdx : Int) := linked.1
      have inside : InSlotRange (slotIdx : Int) := by
        constructor <;> omega
      have notSelf : (m.dataEntries slotIdx).nextIndex ≠ (slotIdx : Int) :=
        linked.next_ne_self (List.mem_cons_self ..)
      have isUsed : (m.dataEntries slotIdx).isUsed = true := used
      have rest := ih linked.2 (fun other member => inUse other (List.mem_cons_of_mem _ member))
        (Nat.le_of_succ_le_succ enough)
      rw [getRecordLoop, if_pos inside]
      simp only [Int.toNat_natCast, isUsed, if_true, if_neg notSelf, List.map_cons]
      exact congrArg (List.cons (m.dataEntries slotIdx).response) rest

/-- **A lookup returns the chain of the bucket where its probe ends.** -/
theorem Sound.getRecord_eq {m : Mmap} {chain : Nat → List Nat} {spare : List Nat}
    (sound : Sound m chain spare) (groupId : CassUuid) (countryCode : CountryCode) :
    m.getRecord groupId countryCode =
      ((m.findBucket (calculateHashFromUuid groupId) countryCode).elim [] chain).map
        fun slotIdx => (m.content slotIdx).response := by
  cases ends : m.findBucket (calculateHashFromUuid groupId) countryCode with
  | none => simp [Mmap.getRecord, ends]
  | some bucketIdx =>
      rcases eq_or_ne (m.hashTable bucketIdx).groupIdHash 0 with empty | occupied
      · have vacant := sound.represents.vacant bucketIdx (head_eq_none_iff.mpr empty)
        simp [Mmap.getRecord, ends, empty, vacant]
      · have linked := (sound.represents.chainLinked bucketIdx _ (head_of_occupied occupied)).2
        have walked := Mmap.getRecordLoop_eq linked (sound.represents.chainUsed bucketIdx)
          (sound.represents.chain_length_le bucketIdx)
        simp only [Mmap.getRecord, ends, if_neg occupied, walked, Option.elim_some]

/-! ## The invariant -/

/-- The key under which the entry of a slot belongs. -/
def Mmap.keyOfSlot (m : Mmap) (slotIdx : Nat) : UInt64 × CountryCode :=
  hashKey (m.content slotIdx).groupId (m.content slotIdx).countryCode

/-- Every slot stands in the bucket of its key, and every stored key is found. -/
structure Filed (m : Mmap) (chain : Nat → List Nat) (spare : List Nat) : Prop where
  sound : Sound m chain spare
  covers : Covers maxDataRecords chain spare
  findable : Findable probeStep home hashTableSize m.keys
  keyed : ∀ bucketIdx, ∀ slotIdx ∈ chain bucketIdx,
    m.keys bucketIdx = some (m.keyOfSlot slotIdx)

section Filed

variable {m : Mmap} {chain : Nat → List Nat} {spare : List Nat}

/-- A used slot is on the chain where the probe for its key ends. -/
theorem Filed.found_of_used (filed : Filed m chain spare) {slotIdx : Nat}
    (bounded : slotIdx < maxDataRecords) (inUse : (m.dataEntries slotIdx).isUsed = true) :
    ∃ bucketIdx, slotIdx ∈ chain bucketIdx ∧
      m.findBucket (m.keyOfSlot slotIdx).1 (m.keyOfSlot slotIdx).2 = some bucketIdx := by
  obtain ⟨bucketIdx, member⟩ := filed.covers.mem_chain filed.sound.represents bounded inUse
  refine ⟨bucketIdx, member, ?_⟩
  rw [findBucket_eq]
  exact filed.findable bucketIdx _ (filed.keyed bucketIdx slotIdx member)

/-- The slots that a lookup reads are the used slots whose key has its hash and
its country. -/
theorem Filed.mem_looked_up (filed : Filed m chain spare) (groupId : CassUuid)
    (countryCode : CountryCode) (slotIdx : Nat) :
    slotIdx ∈ (m.findBucket (calculateHashFromUuid groupId) countryCode).elim [] chain ↔
      slotIdx < maxDataRecords ∧ (m.dataEntries slotIdx).isUsed = true ∧
        m.keyOfSlot slotIdx = hashKey groupId countryCode := by
  constructor
  · intro member
    cases ends : m.findBucket (calculateHashFromUuid groupId) countryCode with
    | none =>
        rw [ends] at member
        cases member
    | some bucketIdx =>
        rw [ends, Option.elim_some] at member
        obtain ⟨bounded, inUse⟩ := filed.sound.represents.chainUsed bucketIdx slotIdx member
        have stored := filed.keyed bucketIdx slotIdx member
        have keyHere := (key_of_findKey ((findBucket_eq ..).symm.trans ends)).resolve_left
          fun vacant => by cases vacant.symm.trans stored
        exact ⟨bounded, inUse, Option.some.inj (stored.symm.trans keyHere)⟩
  · rintro ⟨bounded, inUse, sameKey⟩
    obtain ⟨bucketIdx, member, ends⟩ := filed.found_of_used bounded inUse
    rw [sameKey] at ends
    have here : m.findBucket (calculateHashFromUuid groupId) countryCode = some bucketIdx := ends
    rwa [here, Option.elim_some]

/-- **A lookup in a filed store is exact exactly when no entry of another group
with the same hash is stored under the country.** -/
theorem Filed.exactAt_iff (filed : Filed m chain spare) (groupId : CassUuid)
    (countryCode : CountryCode) :
    m.ExactAt groupId countryCode ↔ ¬ m.Collides groupId countryCode := by
  have looked := filed.mem_looked_up groupId countryCode
  have answer := filed.sound.getRecord_eq groupId countryCode
  constructor
  · rintro ⟨slots, -, stores, returned⟩ ⟨other, slotIdx, different, sameHash, bounded, inUse,
      isOther, sameCode⟩
    have member := (looked slotIdx).mpr ⟨bounded, inUse, by
      rw [Mmap.keyOfSlot, hashKey, hashKey, isOther, sameHash, sameCode]⟩
    have returnedHere : (m.content slotIdx).response ∈
        slots.map fun slotIdx => (m.content slotIdx).response := by
      rw [← returned, answer]
      exact List.mem_map_of_mem member
    obtain ⟨slotIdx', member', sameResponse⟩ := List.mem_map.mp returnedHere
    obtain ⟨bounded', inUse', isGroup, -⟩ := (stores slotIdx').mp member'
    -- the id table holds no id twice, so the answer names the slot
    have sameId : m.idEntry slotIdx' = m.idEntry slotIdx :=
      congrArg idSlot (congrArg IpGroupEntryResponse.id sameResponse)
    obtain rfl := filed.sound.indexed.injective bounded' inUse' bounded inUse sameId
    exact different (isOther.symm.trans isGroup)
  · intro apart
    refine ⟨_, ?_, fun slotIdx => (looked slotIdx).trans ?_, answer⟩
    · cases m.findBucket (calculateHashFromUuid groupId) countryCode with
      | none => exact List.nodup_nil
      | some bucketIdx => exact filed.sound.represents.chain_nodup bucketIdx
    · refine and_congr_right fun bounded => and_congr_right fun inUse => ?_
      simp only [Mmap.keyOfSlot, hashKey, Prod.mk.injEq]
      refine and_congr_left fun sameCode => ⟨fun sameHash => ?_, congrArg _⟩
      by_contra different
      exact apart ⟨_, slotIdx, different, sameHash, bounded, inUse, rfl, sameCode⟩

/-! ## One call -/

/-- The deletion by id of a filed entry arrives at the bucket that owns the
slot. -/
theorem Filed.unlinksOwner (filed : Filed m chain spare) {slotIdx bucketIdx : Nat}
    (member : slotIdx ∈ chain bucketIdx) : m.UnlinksOwner bucketIdx slotIdx := by
  obtain ⟨occupied, -, -, isHead⟩ := filed.sound.owner_head member
  rw [Mmap.UnlinksOwner]
  split
  case isTrue first => exact ⟨occupied, isHead.mpr first⟩
  case isFalse notFirst => exact mt isHead.mp notFirst

/-- A bucket holds one slot exactly when this slot is its head and has no
successor. -/
theorem Filed.chain_eq_single_iff (filed : Filed m chain spare) {slotIdx bucketIdx : Nat}
    (member : slotIdx ∈ chain bucketIdx) :
    (m.hashTable bucketIdx).headSlotIdx = (slotIdx : Int) ∧
      (m.dataEntries slotIdx).nextIndex = -1 ↔ chain bucketIdx = [slotIdx] := by
  obtain ⟨occupied, -, -, -⟩ := filed.sound.owner_head member
  have linked := (filed.sound.represents.chainLinked bucketIdx _ (head_of_occupied occupied)).2
  constructor
  · rintro ⟨isHead, isLast⟩
    refine linked.unique ?_
    exact ⟨isHead, isLast⟩
  · intro single
    rw [single] at linked
    exact ⟨linked.1, linked.2⟩

/-- The probe of a deletion by id ends at the owner of the slot. -/
theorem Filed.deletes_at_owner (filed : Filed m chain spare) {groupId id : CassUuid}
    {slotIdx bucketIdx : Nat} (found : m.slotOfId id = some slotIdx)
    (sameGroup : (m.content slotIdx).groupId = groupId)
    (ends : m.findBucket (calculateHashFromUuid groupId) (m.content slotIdx).countryCode =
      some bucketIdx) : slotIdx ∈ chain bucketIdx := by
  obtain ⟨bounded, inUse, -⟩ := filed.sound.slotOfId_eq_some_iff.mp found
  obtain ⟨owner, member, ownerEnds⟩ := filed.found_of_used bounded inUse
  rw [Mmap.keyOfSlot, sameGroup] at ownerEnds
  obtain rfl : owner = bucketIdx := Option.some.inj (ownerEnds.symm.trans ends)
  exact member

theorem keyOfSlot_congr {m m' : Mmap} {slotIdx : Nat}
    (same : m'.content slotIdx = m.content slotIdx) :
    m'.keyOfSlot slotIdx = m.keyOfSlot slotIdx := by
  rw [Mmap.keyOfSlot, Mmap.keyOfSlot, same]

theorem Filed.of_eq (filed : Filed m chain spare) {m' : Mmap} (same : m' = m) :
    ∃ chain' spare', Filed m' chain' spare' :=
  ⟨chain, spare, same ▸ filed⟩

/-- An append puts its slot into the bucket where the probe for its key ends. -/
theorem Filed.step_append (filed : Filed m chain spare) {groupId id : CassUuid}
    {countryCode : CountryCode} {val : Address} {priority : Int}
    (keepsIndex : m.KeepsIndex (.append groupId id countryCode val priority)) :
    ∃ chain' spare',
      Filed (m.step (.append groupId id countryCode val priority)) chain' spare' := by
  rcases filed.sound.appendRecord_cases groupId id countryCode val priority with
    ⟨refused, -⟩ | ⟨bucketIdx, slotIdx, rest, rfl, ends, free, -, effect⟩
  · exact filed.of_eq (congrArg Prod.snd refused)
  have head : m.freeListHeadIdx = (slotIdx : Int) := filed.sound.represents.spareLinked.1
  have hashed : calculateHashFromUuid groupId ≠ 0 := fun zero =>
    keepsIndex zero ⟨by simp [ends], free, by omega⟩
  have after := filed.sound.appended effect free
  have keys := effect.keys
  rw [if_neg hashed] at after keys
  have probed := (findBucket_eq m (calculateHashFromUuid groupId) countryCode).symm.trans ends
  refine ⟨_, _, after, filed.covers.push bucketIdx, ?_, fun bucket other member => ?_⟩
  · rw [Mmap.step, Mmap.call, keys]
    exact filed.findable.insert probed
  · have keeps : ∀ {bucket}, other ∈ chain bucket →
        m.keys bucket =
          some ((m.step (.append groupId id countryCode val priority)).keyOfSlot other) := by
      intro bucket old
      have notSlot := filed.sound.represents.used_of_ne_spare old
      rw [filed.keyed bucket other old, Mmap.step, Mmap.call,
        keyOfSlot_congr (effect.others other notSlot)]
    rw [Mmap.step, Mmap.call, keys]
    rcases eq_or_ne bucket bucketIdx with rfl | different
    · rw [Function.update_self] at member ⊢
      rcases List.mem_cons.mp member with rfl | old
      · rw [Mmap.keyOfSlot, effect.own]
      · have stored := keeps old
        have keyHere := (key_of_findKey probed).resolve_left fun vacant => by
          cases vacant.symm.trans stored
        exact keyHere.symm.trans stored
    · rw [Function.update_of_ne different] at member ⊢
      exact keeps member

/-- An update that keeps the country keeps the key of its slot. -/
theorem Filed.step_update (filed : Filed m chain spare) {groupId id : CassUuid}
    {countryCode : CountryCode} {val : Address} {priority : Int}
    (keepsIndex : m.KeepsIndex (.update groupId id countryCode val priority)) :
    ∃ chain' spare',
      Filed (m.step (.update groupId id countryCode val priority)) chain' spare' := by
  rcases filed.sound.updateRecord_cases groupId id countryCode val priority with
    ⟨refused, -⟩ | ⟨slotIdx, found, sameGroup, -, effect⟩
  · exact filed.of_eq (congrArg Prod.snd refused)
  have keys : (m.step (.update groupId id countryCode val priority)).keys = m.keys := effect.keys
  refine ⟨_, _, filed.sound.updated effect found, filed.covers, ?_,
    fun bucketIdx other member => ?_⟩
  · rw [keys]
    exact filed.findable
  · rw [keys, filed.keyed bucketIdx other member]
    refine congrArg some ?_
    rcases eq_or_ne other slotIdx with rfl | different
    · have sameCode := keepsIndex other found sameGroup
      rw [Mmap.keyOfSlot, Mmap.keyOfSlot, Mmap.step, Mmap.call, effect.own, sameGroup, sameCode]
    · exact (keyOfSlot_congr (effect.others other different)).symm

/-- A deletion empties a bucket that no other path crosses. -/
theorem Filed.step_delete (filed : Filed m chain spare) {groupId : CassUuid}
    {countryCode : CountryCode} (keepsIndex : m.KeepsIndex (.delete groupId countryCode)) :
    ∃ chain' spare', Filed (m.step (.delete groupId countryCode)) chain' spare' := by
  rcases filed.sound.deleteRecord_cases groupId countryCode with
    ⟨refused, -⟩ | ⟨bucketIdx, first, rest, ends, stored, cells, sameGroup, -, effect⟩
  · exact filed.of_eq (congrArg Prod.snd refused)
  have member : first ∈ chain bucketIdx := by simp [cells]
  obtain ⟨occupied, -, -, -⟩ := filed.sound.owner_head member
  obtain ⟨first', rest', cells', atFirst⟩ :=
    filed.sound.represents.head_eq_cons (head_of_occupied occupied)
  obtain ⟨rfl, -⟩ := List.cons.inj (cells.symm.trans cells')
  have cutsNo := keepsIndex bucketIdx ends occupied (by
    rw [atFirst, Int.toNat_natCast]
    exact sameGroup)
  refine ⟨_, _, effect.sound, filed.covers.clear bucketIdx, ?_, fun bucket other inChain => ?_⟩
  · rw [Mmap.step, Mmap.call, effect.keys]
    exact filed.findable.erase cutsNo
  · rcases eq_or_ne bucket bucketIdx with rfl | different
    · simp at inChain
    · rw [Function.update_of_ne different] at inChain
      have outside : other ∉ chain bucketIdx := fun inBucket =>
        different (filed.sound.represents.disjoint bucket bucketIdx other inChain inBucket)
      rw [Mmap.step, Mmap.call, effect.keys, Function.update_of_ne different,
        filed.keyed bucket other inChain, keyOfSlot_congr (effect.others other outside)]

/-- A deletion by id takes its slot out of the bucket that owns it. -/
theorem Filed.step_deleteFromUuid (filed : Filed m chain spare) {groupId id : CassUuid}
    (keepsIndex : m.KeepsIndex (.deleteFromUuid groupId id)) :
    ∃ chain' spare', Filed (m.step (.deleteFromUuid groupId id)) chain' spare' := by
  rcases deleteRecordFromUuid_cases m groupId id with
    ⟨refused, -⟩ | ⟨slotIdx, bucketIdx, found, sameGroup, ends, deleted⟩
  · exact filed.of_eq (congrArg Prod.snd refused)
  have member := filed.deletes_at_owner found sameGroup ends
  have effect := filed.sound.removed found member (filed.unlinksOwner member)
  rw [Mmap.step, Mmap.call, deleted]
  refine ⟨_, _, effect.sound, filed.covers.erase bucketIdx slotIdx, ?_,
    fun bucket other inChain => ?_⟩
  · rw [effect.keys]
    split
    case isTrue single =>
      obtain ⟨isHead, isLast⟩ := (filed.chain_eq_single_iff member).mpr single
      exact filed.findable.erase
        (keepsIndex slotIdx bucketIdx found sameGroup ends isHead isLast)
    case isFalse => exact filed.findable
  · have stays : other ≠ slotIdx ∧ other ∈ chain bucket := by
      rcases eq_or_ne bucket bucketIdx with rfl | different
      · rw [Function.update_self] at inChain
        refine ⟨?_, List.mem_of_mem_erase inChain⟩
        rintro rfl
        exact List.Nodup.not_mem_erase (filed.sound.represents.chain_nodup bucket) inChain
      · rw [Function.update_of_ne different] at inChain
        refine ⟨?_, inChain⟩
        rintro rfl
        exact different (filed.sound.represents.disjoint _ _ other inChain member)
    rw [keyOfSlot_congr (effect.others other stays.1), ← filed.keyed bucket other stays.2,
      effect.keys]
    split
    case isTrue single =>
      refine Function.update_of_ne ?_ _ _
      rintro rfl
      rw [single, List.mem_singleton] at stays
      exact stays.1 stays.2
    case isFalse => rfl

/-- **A call that keeps the index keeps the store filed.** -/
theorem Filed.step (filed : Filed m chain spare) {c : Call} (keepsIndex : m.KeepsIndex c) :
    ∃ chain' spare', Filed (m.step c) chain' spare' := by
  cases c with
  | append groupId id countryCode val priority => exact filed.step_append keepsIndex
  | update groupId id countryCode val priority => exact filed.step_update keepsIndex
  | delete groupId countryCode => exact filed.step_delete keepsIndex
  | deleteFromUuid groupId id => exact filed.step_deleteFromUuid keepsIndex

/-! ## Appends alone -/

/-- The answers of a lookup are those of the used slots whose key has its hash
and its country. -/
theorem Filed.mem_getRecord (filed : Filed m chain spare) {groupId : CassUuid}
    {countryCode : CountryCode} {response : IpGroupEntryResponse} :
    response ∈ m.getRecord groupId countryCode ↔
      ∃ slotIdx, (slotIdx < maxDataRecords ∧ (m.dataEntries slotIdx).isUsed = true ∧
        m.keyOfSlot slotIdx = hashKey groupId countryCode) ∧
          (m.content slotIdx).response = response := by
  simp only [filed.sound.getRecord_eq, List.mem_map, filed.mem_looked_up]

/-- An append that cannot be made changes nothing. -/
theorem Filed.not_appended (filed : Filed m chain spare) {groupId id : CassUuid}
    {countryCode : CountryCode} {val : Address} {priority : Int}
    (cannot : ¬ m.CanAppend groupId id countryCode) :
    m.appendRecord groupId id countryCode val priority = (false, m) := by
  rcases filed.sound.appendRecord_cases groupId id countryCode val priority with
    ⟨refused, -⟩ | ⟨bucketIdx, slotIdx, rest, rfl, ends, free, -, -⟩
  · exact refused
  · have head : m.freeListHeadIdx = (slotIdx : Int) := filed.sound.represents.spareLinked.1
    exact absurd ⟨by rw [ends]; exact Option.some_ne_none _, free, by omega⟩ cannot

/-- **An append that can be made** adds its entry to the lookups of its key. -/
theorem Filed.appended (filed : Filed m chain spare) {groupId id : CassUuid}
    {countryCode : CountryCode} {val : Address} {priority : Int}
    (hashed : calculateHashFromUuid groupId ≠ 0) (can : m.CanAppend groupId id countryCode)
    (other : CassUuid) (code : CountryCode) (response : IpGroupEntryResponse) :
    response ∈ (m.appendRecord groupId id countryCode val priority).2.getRecord other code ↔
      response ∈ m.getRecord other code ∨
        hashKey groupId countryCode = hashKey other code ∧
          ⟨id, val.bytes, priority⟩ = response := by
  have keepsIndex : m.KeepsIndex (.append groupId id countryCode val priority) :=
    fun zero => absurd zero hashed
  obtain ⟨chain', spare', after⟩ := filed.step keepsIndex
  rw [Mmap.step, Mmap.call] at after
  rcases filed.sound.appendRecord_cases groupId id countryCode val priority with
    ⟨-, cannot⟩ | ⟨bucketIdx, slotIdx, rest, rfl, ends, free, -, effect⟩
  · exact absurd can cannot
  have bounded := ((filed.sound.represents.memSpare slotIdx).mp (List.mem_cons_self ..)).1
  have unused := ((filed.sound.represents.memSpare slotIdx).mp (List.mem_cons_self ..)).2
  have usedAfter : ∀ slot,
      ((m.appendRecord groupId id countryCode val priority).2.dataEntries slot).isUsed =
        Function.update m.arena.used slotIdx true slot := congrFun effect.used
  have ownKey : (m.appendRecord groupId id countryCode val priority).2.keyOfSlot slotIdx =
      hashKey groupId countryCode := by rw [Mmap.keyOfSlot, effect.own]
  have othersKey : ∀ slot, slot ≠ slotIdx →
      (m.appendRecord groupId id countryCode val priority).2.keyOfSlot slot = m.keyOfSlot slot :=
    fun slot different => keyOfSlot_congr (effect.others slot different)
  rw [after.mem_getRecord, filed.mem_getRecord]
  constructor
  · rintro ⟨slot, ⟨inside, inUse, sameKey⟩, rfl⟩
    rcases eq_or_ne slot slotIdx with rfl | different
    · exact .inr ⟨ownKey.symm.trans sameKey, by rw [effect.own]; rfl⟩
    · rw [usedAfter, Function.update_of_ne different] at inUse
      exact .inl ⟨slot, ⟨inside, inUse, (othersKey slot different).symm.trans sameKey⟩,
        by rw [effect.others slot different]⟩
  · rintro (⟨slot, ⟨inside, inUse, sameKey⟩, rfl⟩ | ⟨sameKey, rfl⟩)
    · have different : slot ≠ slotIdx := by
        rintro rfl
        exact Bool.false_ne_true (unused.symm.trans inUse)
      refine ⟨slot, ⟨inside, ?_, (othersKey slot different).trans sameKey⟩,
        by rw [effect.others slot different]⟩
      rw [usedAfter, Function.update_of_ne different]
      exact inUse
    · refine ⟨slotIdx, ⟨bounded, ?_, ownKey.trans sameKey⟩, by rw [effect.own]; rfl⟩
      rw [usedAfter, Function.update_self]

/-! ## What breaks a lookup -/

/-- An answer without the id of a stored entry is not exact. -/
theorem not_exactAt_of_missing {m : Mmap} {groupId : CassUuid} {countryCode : CountryCode}
    {slotIdx : Nat} (stores : m.Stores groupId countryCode slotIdx)
    (missing : ∀ response ∈ m.getRecord groupId countryCode, response.id ≠ (m.content slotIdx).id) :
    ¬ m.ExactAt groupId countryCode := by
  rintro ⟨slots, -, isStored, returned⟩
  rw [returned] at missing
  exact missing _ (List.mem_map_of_mem ((isStored slotIdx).mpr stores)) rfl

/-- A key whose path is cut is no longer found, although its entries are still
there. -/
theorem Filed.not_exactAt_of_cut (filed : Filed m chain spare) {m' : Mmap}
    {chain' : Nat → List Nat} {spare' : List Nat} {bucketIdx other : Nat}
    {key : UInt64 × CountryCode} (sound : Sound m' chain' spare')
    (keys : m'.keys = Function.update m.keys bucketIdx none)
    (inOther : m.keys other = some key)
    (cut : bucketIdx ∈ pathOf probeStep home hashTableSize m.keys key)
    (same : ∀ slotIdx ∈ chain other, m'.content slotIdx = m.content slotIdx ∧
      (m'.dataEntries slotIdx).isUsed = true) :
    ∃ groupId countryCode, ¬ m'.ExactAt groupId countryCode := by
  have occupied : (m.hashTable other).groupIdHash ≠ 0 := fun zero => by
    cases (key_eq_none_iff.mpr zero).symm.trans inOther
  obtain ⟨first, rest, cells, -⟩ :=
    filed.sound.represents.head_eq_cons (head_of_occupied occupied)
  have member : first ∈ chain other := by simp [cells]
  obtain rfl := Option.some.inj (inOther.symm.trans (filed.keyed other first member))
  obtain ⟨sameContent, stillUsed⟩ := same first member
  have ends : m'.findBucket (calculateHashFromUuid (m.content first).groupId)
      (m.content first).countryCode = some bucketIdx := by
    rw [findBucket_eq, keys]
    exact Findable.findKey_erase_of_mem cut
  have vacant : m'.keys bucketIdx = none := by rw [keys, Function.update_self]
  have empty := sound.represents.vacant bucketIdx
    (head_eq_none_iff.mpr (key_eq_none_iff.mp vacant))
  refine ⟨(m.content first).groupId, (m.content first).countryCode, not_exactAt_of_missing
    ⟨(filed.sound.represents.chainUsed other first member).1, stillUsed,
      by rw [sameContent], by rw [sameContent]⟩ ?_⟩
  rw [sound.getRecord_eq, ends, Option.elim_some, empty]
  intro response isMember
  cases isMember

/-- An entry of a group that hashes to zero is not found. -/
theorem Filed.breaks_append (filed : Filed m chain spare) {groupId id : CassUuid}
    {countryCode : CountryCode} {val : Address} {priority : Int}
    (misses : ¬ m.KeepsIndex (.append groupId id countryCode val priority)) :
    ∃ group code, ¬ (m.step (.append groupId id countryCode val priority)).ExactAt group code := by
  simp only [Mmap.KeepsIndex, Classical.not_imp, not_not] at misses
  obtain ⟨zero, can⟩ := misses
  rcases filed.sound.appendRecord_cases groupId id countryCode val priority with
    ⟨-, cannot⟩ | ⟨bucketIdx, slotIdx, rest, rfl, ends, free, -, effect⟩
  · exact absurd can cannot
  have after := filed.sound.appended effect free
  have bounded := ((filed.sound.represents.memSpare slotIdx).mp (List.mem_cons_self ..)).1
  have inUse := congrFun effect.used slotIdx
  rw [Function.update_self] at inUse
  refine ⟨groupId, countryCode, @not_exactAt_of_missing _ groupId countryCode slotIdx
    ⟨bounded, inUse, congrArg Content.groupId effect.own,
      congrArg Content.countryCode effect.own⟩ ?_⟩
  rw [Mmap.step, Mmap.call, after.getRecord_eq]
  cases ends' : (m.appendRecord groupId id countryCode val priority).2.findBucket
      (calculateHashFromUuid groupId) countryCode with
  | none =>
      intro response isMember
      cases isMember
  | some bucketIdx' =>
      have vacant := (key_of_findKey ((findBucket_eq ..).symm.trans ends')).resolve_right
        fun stored => hash_ne_zero_of_key stored zero
      have empty := after.represents.vacant bucketIdx'
        (head_eq_none_iff.mpr (key_eq_none_iff.mp vacant))
      rw [Option.elim_some, empty]
      intro response isMember
      cases isMember

/-- An entry that is moved to another country is not found there. -/
theorem Filed.breaks_update (filed : Filed m chain spare) {groupId id : CassUuid}
    {countryCode : CountryCode} {val : Address} {priority : Int}
    (misses : ¬ m.KeepsIndex (.update groupId id countryCode val priority)) :
    ∃ group code, ¬ (m.step (.update groupId id countryCode val priority)).ExactAt group code := by
  simp only [Mmap.KeepsIndex, not_forall] at misses
  obtain ⟨slotIdx, found, sameGroup, moved⟩ := misses
  rcases filed.sound.updateRecord_cases groupId id countryCode val priority with
    ⟨-, refuses⟩ | ⟨slotIdx', found', -, -, effect⟩
  · exact absurd sameGroup (refuses slotIdx found)
  obtain rfl : slotIdx' = slotIdx := Option.some.inj (found'.symm.trans found)
  have after := filed.sound.updated effect found
  obtain ⟨bounded, inUse, -⟩ := filed.sound.slotOfId_eq_some_iff.mp found
  have stillUsed := (congrFun (congrArg Arena.used effect.arena) slotIdx').trans inUse
  refine ⟨groupId, countryCode, @not_exactAt_of_missing _ groupId countryCode slotIdx'
    ⟨bounded, stillUsed, congrArg Content.groupId effect.own,
      congrArg Content.countryCode effect.own⟩ ?_⟩
  rw [Mmap.step, Mmap.call, after.getRecord_eq, findBucket_eq, effect.keys, ← findBucket_eq]
  intro response isMember sameId
  obtain ⟨other, looked, rfl⟩ := List.mem_map.mp isMember
  obtain ⟨otherBounded, otherUsed, otherKey⟩ :=
    (filed.mem_looked_up groupId countryCode other).mp looked
  have otherStillUsed := (congrFun (congrArg Arena.used effect.arena) other).trans otherUsed
  obtain rfl := after.indexed.injective otherBounded otherStillUsed bounded stillUsed
    (congrArg idSlot sameId)
  exact moved (congrArg Prod.snd otherKey)

/-- A deletion that cuts a path hides the key behind it. -/
theorem Filed.breaks_delete (filed : Filed m chain spare) {groupId : CassUuid}
    {countryCode : CountryCode}
    (misses : ¬ m.KeepsIndex (.delete groupId countryCode)) :
    ∃ group code, ¬ (m.step (.delete groupId countryCode)).ExactAt group code := by
  simp only [Mmap.KeepsIndex, CutsNoPath, not_forall, not_not] at misses
  obtain ⟨bucketIdx, ends, occupied, sameGroup, other, key, inOther, different, cut⟩ := misses
  obtain ⟨first, rest, cells, atFirst⟩ :=
    filed.sound.represents.head_eq_cons (head_of_occupied occupied)
  rw [atFirst, Int.toNat_natCast] at sameGroup
  rcases filed.sound.deleteRecord_cases groupId countryCode with
    ⟨-, refuses⟩ | ⟨bucketIdx', first', rest', ends', -, -, -, -, effect⟩
  · exact absurd sameGroup (refuses bucketIdx ends first rest cells)
  obtain rfl : bucketIdx' = bucketIdx := Option.some.inj (ends'.symm.trans ends)
  refine filed.not_exactAt_of_cut effect.sound effect.keys inOther cut fun slotIdx member => ?_
  have outside : slotIdx ∉ chain bucketIdx' := fun inBucket =>
    different (filed.sound.represents.disjoint other bucketIdx' slotIdx member inBucket)
  refine ⟨effect.others slotIdx outside, ?_⟩
  have stays : slotIdx ∈ Function.update chain bucketIdx' [] other := by
    rwa [Function.update_of_ne different]
  exact (effect.sound.represents.chainUsed other slotIdx stays).2

/-- A deletion by id that cuts a path hides the key behind it. -/
theorem Filed.breaks_deleteFromUuid (filed : Filed m chain spare) {groupId id : CassUuid}
    (misses : ¬ m.KeepsIndex (.deleteFromUuid groupId id)) :
    ∃ group code, ¬ (m.step (.deleteFromUuid groupId id)).ExactAt group code := by
  simp only [Mmap.KeepsIndex, CutsNoPath, not_forall, not_not] at misses
  obtain ⟨slotIdx, bucketIdx, found, sameGroup, ends, isHead, isLast, other, key, inOther,
    different, cut⟩ := misses
  rcases deleteRecordFromUuid_cases m groupId id with
    ⟨-, refuses⟩ | ⟨slotIdx', bucketIdx', found', -, ends', deleted⟩
  · exact absurd sameGroup (refuses slotIdx bucketIdx found ends)
  obtain rfl : slotIdx' = slotIdx := Option.some.inj (found'.symm.trans found)
  obtain rfl : bucketIdx' = bucketIdx := Option.some.inj (ends'.symm.trans ends)
  have member := filed.deletes_at_owner found sameGroup ends
  have effect := filed.sound.removed found member (filed.unlinksOwner member)
  have single := (filed.chain_eq_single_iff member).mp ⟨isHead, isLast⟩
  have keys := effect.keys
  rw [if_pos single] at keys
  rw [Mmap.step, Mmap.call, deleted]
  refine filed.not_exactAt_of_cut effect.sound keys inOther cut fun slot inChain => ?_
  have notSlot : slot ≠ slotIdx' := by
    rintro rfl
    exact different (filed.sound.represents.disjoint _ _ slot inChain member)
  refine ⟨effect.others slot notSlot, ?_⟩
  have stays : slot ∈ Function.update chain bucketIdx'
      ((chain bucketIdx').erase slotIdx') other := by
    rwa [Function.update_of_ne different]
  exact (effect.sound.represents.chainUsed other slot stays).2

/-- **A call that misses the condition makes some lookup inexact.** -/
theorem Filed.breaks (filed : Filed m chain spare) {c : Call} (misses : ¬ m.KeepsIndex c) :
    ∃ groupId countryCode, ¬ (m.step c).ExactAt groupId countryCode := by
  cases c with
  | append groupId id countryCode val priority => exact filed.breaks_append misses
  | update groupId id countryCode val priority => exact filed.breaks_update misses
  | delete groupId countryCode => exact filed.breaks_delete misses
  | deleteFromUuid groupId id => exact filed.breaks_deleteFromUuid misses

end Filed

/-! ## Every run -/

/-- Some chains and free list make the store filed. -/
def IsFiled (m : Mmap) : Prop := ∃ chain spare, Filed m chain spare

theorem IsFiled.fresh : IsFiled Mmap.fresh := by
  have noKeys : Mmap.fresh.keys = fun _ => none := by
    rw [Mmap.fresh_eq_freshTable]
    rfl
  have findable : Findable probeStep home hashTableSize Mmap.fresh.keys := by
    rw [noKeys]
    exact findable_empty
  exact ⟨_, _, Sound.fresh, Covers.range maxDataRecords, findable,
    fun _ _ member => by cases member⟩

theorem Mmap.getRecord_fresh (groupId : CassUuid) (countryCode : CountryCode) :
    Mmap.fresh.getRecord groupId countryCode = [] := by
  have noChain : ∀ ends : Option Nat, ends.elim [] (fun _ => ([] : List Nat)) = [] := by
    rintro (nothing | bucketIdx) <;> rfl
  rw [Sound.fresh.getRecord_eq, noChain, List.map_nil]

/-- **Exact lookups of the address cache.** Along a run whose calls keep the
index, in every state, a lookup is exact exactly when no entry of another group
with the same hash is stored under the country. Conversely, in a run that keeps
every lookup exact all calls keep the index. -/
theorem lookups_exact (calls : List Call) :
    (Run.Along Mmap.step Mmap.KeepsIndex Mmap.fresh calls →
      Run.Throughout Mmap.step (fun m => ∀ groupId countryCode,
        m.ExactAt groupId countryCode ↔ ¬ m.Collides groupId countryCode) Mmap.fresh calls) ∧
    (Run.Throughout Mmap.step (fun m => ∀ groupId countryCode, m.ExactAt groupId countryCode)
        Mmap.fresh calls →
      Run.Along Mmap.step Mmap.KeepsIndex Mmap.fresh calls) := by
  have noDemand : ∀ c ∈ calls, True := fun _ _ => trivial
  have keeps : ∀ m c, True → IsFiled m → m.KeepsIndex c → IsFiled (m.step c) := by
    rintro m c - ⟨chain, spare, filed⟩ keepsIndex
    exact filed.step keepsIndex
  constructor
  · intro along
    refine (Run.throughout_of_along keeps IsFiled.fresh noDemand along).mono ?_
    rintro m ⟨chain, spare, filed⟩
    exact filed.exactAt_iff
  · intro always
    refine Run.along_of_throughout keeps ?_ IsFiled.fresh noDemand always
    rintro m c - ⟨chain, spare, filed⟩ misses allExact
    obtain ⟨groupId, countryCode, inexact⟩ := filed.breaks misses
    exact inexact (allExact groupId countryCode)

/-- Two entries of one group under two countries are looked up exactly. -/
theorem lookups_exact_two_appends :
    Run.Throughout Mmap.step (fun m => ∀ groupId countryCode,
        m.ExactAt groupId countryCode ↔ ¬ m.Collides groupId countryCode) Mmap.fresh
      [.append ⟨7, 7⟩ ⟨1, 1⟩ codeDE addressOne 0, .append ⟨7, 7⟩ ⟨2, 2⟩ codeFR addressOne 0] :=
  (lookups_exact _).1 ⟨fun zero => absurd zero (by decide), fun zero => absurd zero (by decide),
    trivial⟩

/-- **A moved entry is not found under its new country.** -/
theorem moved_entry_not_found :
    ¬ ∀ calls : List Call, Run.Throughout Mmap.step
      (fun m => ∀ groupId countryCode, m.ExactAt groupId countryCode) Mmap.fresh calls := by
  intro always
  have atEnd := (always [.append ⟨7, 7⟩ ⟨1, 1⟩ codeDE addressOne 0,
    .update ⟨7, 7⟩ ⟨1, 1⟩ codeFR addressOne 0]).last ⟨7, 7⟩ codeFR
  rw [Mmap.fresh_eq_freshTable] at atEnd
  generalize reached : Run.exec Mmap.step Mmap.freshTable _ = m at atEnd
  have stores : m.Stores ⟨7, 7⟩ codeFR 0 := by
    rw [← reached]
    exact ⟨by decide, by decide +kernel, by decide +kernel, by decide +kernel⟩
  have missing : m.getRecord ⟨7, 7⟩ codeFR = [] := by
    rw [← reached]
    decide +kernel
  refine not_exactAt_of_missing stores (fun response member => ?_) atEnd
  rw [missing] at member
  cases member

end EdgeDNS.IpGroup
