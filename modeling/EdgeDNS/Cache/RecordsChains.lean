import EdgeDNS.Cache.RecordsInvariant

/-!
# What a call does to the chains

`chain bucketIdx` is the sequence of the records linked from a bucket, each with
its slot, and `freeList` the sequence of the free slots. Both are read off the
mapped arrays.

For every kind of call, `Effect` says what an accepted call does to the two: an
append prepends one record to one chain, an update rewrites one record where it
stands, a deletion by id takes one record out of one chain, and a deletion by
name empties one chain. The other chains stay as they are. `call_effect` proves
it for every state that calls reach, when no appended name hashes to zero.
-/

set_option autoImplicit false

namespace EdgeDNS.Records

open LinkedArena Probing

/-! ## Chains and the free list as sequences -/

namespace Mmap

/-- The slots linked from a slot index. -/
def walk (m : Mmap) : Nat → Int → List Nat
  | 0, _ => []
  | left + 1, slot =>
      if InSlotRange slot then slot.toNat :: walk m left (m.dataRecords slot.toNat).nextIndex
      else []

/-- The slots linked from a bucket. -/
def chainSlots (m : Mmap) (bucketIdx : Nat) : List Nat :=
  if (m.hashTable bucketIdx).nameHash = 0 then []
  else m.walk maxDataRecords (m.hashTable bucketIdx).headSlotIdx

/-- The records linked from a bucket, each with its slot. -/
def chain (m : Mmap) (bucketIdx : Nat) : List (Nat × DNSResponseData) :=
  (m.chainSlots bucketIdx).map fun slotIdx => (slotIdx, (m.dataRecords slotIdx).response)

/-- The slots of the free list, in order. -/
def freeList (m : Mmap) : List Nat := m.walk maxDataRecords m.freeListHeadIdx

/-- The number of unused slots. -/
def freeCount (m : Mmap) : Nat :=
  ((List.range maxDataRecords).filter fun slotIdx => !(m.dataRecords slotIdx).isUsed).length

theorem walk_eq {m : Mmap} {slots : List Nat} {start : Int} {left : Nat}
    (linked : Linked m.arena.next start slots)
    (bounded : ∀ slotIdx ∈ slots, slotIdx < maxDataRecords) (enough : slots.length ≤ left) :
    m.walk left start = slots := by
  induction slots generalizing start left with
  | nil =>
      have outside : ¬ InSlotRange start := by
        have ended : start = -1 := linked
        simp [InSlotRange, ended]
      cases left with
      | zero => rfl
      | succ left => exact if_neg outside
  | cons slotIdx slots ih =>
      obtain ⟨left, rfl⟩ : ∃ left', left = left' + 1 :=
        Nat.exists_eq_succ_of_ne_zero (Nat.ne_of_gt (Nat.lt_of_lt_of_le (Nat.succ_pos _) enough))
      obtain rfl : start = (slotIdx : Int) := linked.1
      have inside : InSlotRange (slotIdx : Int) := by
        have := bounded slotIdx (List.mem_cons_self ..)
        constructor <;> omega
      rw [walk, if_pos inside, Int.toNat_natCast]
      refine congrArg (List.cons slotIdx) (ih linked.2 ?_ (Nat.le_of_succ_le_succ enough))
      exact fun other member => bounded other (List.mem_cons_of_mem _ member)

end Mmap

section Views

variable {m : Mmap} {chain : Nat → List Nat} {spare : List Nat}

theorem Sound.chainSlots_eq (sound : Sound m chain spare) (bucketIdx : Nat) :
    m.chainSlots bucketIdx = chain bucketIdx := by
  rw [Mmap.chainSlots]
  split
  · next empty => exact (sound.represents.vacant bucketIdx (head_eq_none_iff.mpr empty)).symm
  · next occupied =>
      refine Mmap.walk_eq
        (sound.represents.chainLinked bucketIdx _ (head_of_occupied occupied)).2 ?_
        (sound.represents.chain_length_le bucketIdx)
      exact fun slotIdx member => (sound.represents.chainUsed bucketIdx slotIdx member).1

theorem Sound.chain_eq (sound : Sound m chain spare) (bucketIdx : Nat) :
    m.chain bucketIdx =
      (chain bucketIdx).map fun slotIdx => (slotIdx, (m.dataRecords slotIdx).response) := by
  rw [Mmap.chain, sound.chainSlots_eq]

/-- The free list holds exactly the unused slots. -/
theorem Sound.mem_spare_iff_filter (sound : Sound m chain spare) (slotIdx : Nat) :
    slotIdx ∈ spare ↔
      slotIdx ∈ (List.range maxDataRecords).filter fun slotIdx =>
        !(m.dataRecords slotIdx).isUsed := by
  rw [sound.represents.memSpare, List.mem_filter, List.mem_range, Bool.not_eq_true']
  rfl

theorem Sound.spare_perm (sound : Sound m chain spare) :
    spare.Perm
      ((List.range maxDataRecords).filter fun slotIdx => !(m.dataRecords slotIdx).isUsed) :=
  (List.perm_ext_iff_of_nodup sound.represents.spare_nodup (List.nodup_range.filter _)).mpr
    sound.mem_spare_iff_filter

theorem Sound.freeCount_eq (sound : Sound m chain spare) : m.freeCount = spare.length :=
  sound.spare_perm.length_eq.symm

theorem Sound.freeList_eq (sound : Sound m chain spare) : m.freeList = spare := by
  refine Mmap.walk_eq sound.represents.spareLinked
    (fun slotIdx member => ((sound.represents.memSpare slotIdx).mp member).1) ?_
  have atMost := List.length_filter_le
    (fun slotIdx => !(m.dataRecords slotIdx).isUsed) (List.range maxDataRecords)
  rw [List.length_range] at atMost
  exact sound.spare_perm.length_eq.trans_le atMost

end Views

/-! ## The effect of a call -/

/-- A new record, in a slot taken from the free list, stands in front of one
chain. -/
structure Prepends (m m' : Mmap) (bucketIdx slotIdx : Nat) (record : DNSResponseData) : Prop where
  chain : m'.chain bucketIdx = (slotIdx, record) :: m.chain bucketIdx
  others : ∀ other, other ≠ bucketIdx → m'.chain other = m.chain other
  freeList : m.freeList = slotIdx :: m'.freeList
  freeCount : m.freeCount = m'.freeCount + 1

/-- The record of a slot on a chain is rewritten where it stands. The tables,
the links, the use flags and the free list are as before. -/
structure Rewrites (m m' : Mmap) (bucketIdx slotIdx : Nat) (id : CassUuid)
    (record : DNSResponseData) : Prop where
  onChain : ∃ old, (slotIdx, old) ∈ m.chain bucketIdx ∧ old.id = id
  only : ∀ bucket, ∀ cell ∈ m.chain bucket, cell.2.id = id → cell.1 = slotIdx
  chain : ∀ bucket, m'.chain bucket =
    (m.chain bucket).map fun cell => if cell.1 = slotIdx then (slotIdx, record) else cell
  hashTable : m'.hashTable = m.hashTable
  idHashTable : m'.idHashTable = m.idHashTable
  links : ∀ other, (m'.dataRecords other).nextIndex = (m.dataRecords other).nextIndex ∧
    (m'.dataRecords other).prevIndex = (m.dataRecords other).prevIndex ∧
    (m'.dataRecords other).isUsed = (m.dataRecords other).isUsed
  freeListHeadIdx : m'.freeListHeadIdx = m.freeListHeadIdx
  freeList : m'.freeList = m.freeList
  freeCount : m'.freeCount = m.freeCount

/-- The record of an id is taken out of one chain, and its slot goes to the free
list. -/
structure TakesOut (m m' : Mmap) (bucketIdx slotIdx : Nat) (id : CassUuid) : Prop where
  chain : ∃ front old behind, old.id = id ∧
    m.chain bucketIdx = front ++ (slotIdx, old) :: behind ∧
    m'.chain bucketIdx = front ++ behind
  others : ∀ other, other ≠ bucketIdx → m'.chain other = m.chain other
  gone : ∀ bucket, ∀ cell ∈ m'.chain bucket, cell.2.id ≠ id
  freeList : m'.freeList = slotIdx :: m.freeList
  freeCount : m'.freeCount = m.freeCount + 1

/-- One chain is emptied, and all of its slots go to the free list. -/
structure EmptiesChain (m m' : Mmap) (bucketIdx : Nat) : Prop where
  nonempty : m.chain bucketIdx ≠ []
  chain : m'.chain bucketIdx = []
  others : ∀ other, other ≠ bucketIdx → m'.chain other = m.chain other
  freeList : m'.freeList = (m.chainSlots bucketIdx).reverse ++ m.freeList
  freeCount : m'.freeCount = m.freeCount + (m.chain bucketIdx).length

/-- No append of the id is accepted. -/
def NotAppended (id : CassUuid) (m : Mmap) (c : Call) : Prop :=
  ∀ wireName qtype data, c = .append wireName qtype id data → (m.call c).1 = false

/-- In every continuation, updates and deletions of the id are refused until an
append of it is accepted. -/
def Forgotten (m : Mmap) (id : CassUuid) : Prop :=
  ∀ calls, Run.Along Mmap.step (NotAppended id) m calls →
    (∀ data, ((Run.exec Mmap.step m calls).updateRecord id data).1 = false) ∧
      ((Run.exec Mmap.step m calls).deleteRecordFromUuid id).1 = false

/-- What an accepted call does to the chains and to the free list. -/
def Effect (m m' : Mmap) : Call → Prop
  | .append wireName qtype id data => ∃ bucketIdx slotIdx,
      m.findBucket (calculateHash wireName) qtype = some bucketIdx ∧
      Prepends m m' bucketIdx slotIdx (data.response id bucketIdx) ∧
      m'.getRecord wireName qtype = data.response id bucketIdx :: m.getRecord wireName qtype
  | .update id data => ∃ bucketIdx slotIdx,
      Rewrites m m' bucketIdx slotIdx id (data.response id bucketIdx)
  | .delete wireName qtype => ∃ bucketIdx,
      m.findBucket (calculateHash wireName) qtype = some bucketIdx ∧ EmptiesChain m m' bucketIdx
  | .deleteFromUuid id => (∃ bucketIdx slotIdx, TakesOut m m' bucketIdx slotIdx id) ∧
      Forgotten m' id

section Effects

variable {m m' : Mmap} {chain : Nat → List Nat} {spare : List Nat} {bucketIdx slotIdx : Nat}
  {wireName : List UInt8} {qtype : Int} {id : CassUuid} {data : RecordData}

/-- A chain with the same slots and the same records is the same. -/
theorem Sound.chain_congr {chain' : Nat → List Nat} {spare' : List Nat}
    (sound : Sound m chain spare) (after : Sound m' chain' spare') {bucket : Nat}
    (sameSlots : chain' bucket = chain bucket)
    (sameRecords : ∀ slot ∈ chain bucket,
      (m'.dataRecords slot).response = (m.dataRecords slot).response) :
    m'.chain bucket = m.chain bucket := by
  rw [sound.chain_eq, after.chain_eq, sameSlots]
  refine List.map_congr_left fun slot member => ?_
  rw [sameRecords slot member]

/-- **An append** prepends its record. -/
theorem Sound.prepends (sound : Sound m chain (slotIdx :: spare))
    (hashed : calculateHash wireName ≠ 0) (free : m.idHashTable (idSlot id) = -1)
    (effect : Appended m m' (calculateHash wireName) qtype bucketIdx slotIdx id data) :
    Prepends m m' bucketIdx slotIdx (data.response id bucketIdx) := by
  have after := sound.appended free effect
  rw [if_neg hashed] at after
  have old : ∀ bucket, ∀ slot ∈ chain bucket,
      (m'.dataRecords slot).response = (m.dataRecords slot).response :=
    fun bucket slot member => effect.others slot (sound.represents.used_of_ne_spare member)
  refine ⟨?_, fun other different => ?_, ?_, ?_⟩
  · rw [sound.chain_eq, after.chain_eq, Function.update_self, List.map_cons, effect.own]
    refine congrArg (List.cons _) (List.map_congr_left fun slot member => ?_)
    rw [old bucketIdx slot member]
  · exact sound.chain_congr after (Function.update_of_ne different ..) (old other)
  · rw [sound.freeList_eq, after.freeList_eq]
  · rw [sound.freeCount_eq, after.freeCount_eq, List.length_cons]

/-- The record of a stored id is the only one of that id, and it is on a chain
when the slots are covered. -/
theorem Sound.mem_chain_iff (sound : Sound m chain spare)
    (found : m.slotOfId id = some slotIdx) {bucket : Nat} {cell : Nat × DNSResponseData}
    (member : cell ∈ m.chain bucket) : cell.2.id = id ↔ cell.1 = slotIdx := by
  rw [sound.chain_eq] at member
  obtain ⟨slot, onChain, rfl⟩ := List.mem_map.mp member
  exact sound.id_eq_iff found onChain

/-- **An update** rewrites its record where it stands. -/
theorem Sound.rewrites (sound : Sound m chain spare) (covers : Covers maxDataRecords chain spare)
    (found : m.slotOfId id = some slotIdx) (effect : Updated m m' slotIdx id data) :
    Rewrites m m' (m.dataRecords slotIdx).bucketIdx slotIdx id
      (data.response id (m.dataRecords slotIdx).bucketIdx) := by
  have after := sound.updated found effect
  have onChain := sound.mem_chain_of_found covers found
  have holds := (sound.slotOfId_eq_some_iff.mp found).2.2
  refine ⟨⟨(m.dataRecords slotIdx).response, ?_, holds⟩, ?_, ?_, effect.hashTable,
    effect.idHashTable, ?_, congrArg Arena.free effect.arena, ?_, ?_⟩
  · rw [sound.chain_eq]
    exact List.mem_map.mpr ⟨slotIdx, onChain, rfl⟩
  · exact fun bucket cell member => (sound.mem_chain_iff found member).mp
  · intro bucket
    rw [sound.chain_eq, after.chain_eq, List.map_map]
    refine List.map_congr_left fun slot member => ?_
    rcases eq_or_ne slot slotIdx with rfl | different
    · rw [Function.comp_apply, if_pos rfl, effect.own]
    · rw [Function.comp_apply, if_neg different, effect.others slot different]
  · exact fun other => ⟨congrFun (congrArg Arena.next effect.arena) other,
      congrFun (congrArg Arena.prev effect.arena) other,
      congrFun (congrArg Arena.used effect.arena) other⟩
  · rw [sound.freeList_eq, after.freeList_eq]
  · rw [sound.freeCount_eq, after.freeCount_eq]

/-- **A deletion by id** takes its record out. -/
theorem Sound.takesOut (sound : Sound m chain spare) (covers : Covers maxDataRecords chain spare)
    (found : m.slotOfId id = some slotIdx)
    (effect : Removed m m' chain spare (m.dataRecords slotIdx).bucketIdx slotIdx) :
    TakesOut m m' (m.dataRecords slotIdx).bucketIdx slotIdx id := by
  have onChain := sound.mem_chain_of_found covers found
  have holds := (sound.slotOfId_eq_some_iff.mp found).2.2
  generalize (m.dataRecords slotIdx).bucketIdx = bucketIdx at effect onChain ⊢
  have distinct := sound.represents.chain_nodup bucketIdx
  obtain ⟨front, behind, notBefore, split, erased⟩ := List.exists_erase_eq onChain
  have stays : ∀ bucket, ∀ slot ∈ Function.update chain bucketIdx
      ((chain bucketIdx).erase slotIdx) bucket, slot ∈ chain bucket ∧ slot ≠ slotIdx := by
    intro bucket slot member
    rcases eq_or_ne bucket bucketIdx with rfl | different
    · rw [Function.update_self] at member
      exact ⟨List.mem_of_mem_erase member, (distinct.mem_erase_iff.mp member).1⟩
    · rw [Function.update_of_ne different] at member
      refine ⟨member, ?_⟩
      rintro rfl
      exact different (sound.represents.disjoint bucket bucketIdx slot member onChain)
  refine ⟨?_, fun other different => ?_, ?_, ?_, ?_⟩
  · refine ⟨front.map fun slot => (slot, (m.dataRecords slot).response),
      (m.dataRecords slotIdx).response,
      behind.map fun slot => (slot, (m.dataRecords slot).response), holds, ?_, ?_⟩
    · rw [sound.chain_eq, split, List.map_append, List.map_cons]
    · rw [effect.sound.chain_eq, Function.update_self, erased, ← List.map_append]
      refine List.map_congr_left fun slot member => ?_
      rw [← erased] at member
      rw [effect.others slot (distinct.mem_erase_iff.mp member).1]
  · refine sound.chain_congr effect.sound (Function.update_of_ne different ..)
      fun slot member => effect.others slot ?_
    rintro rfl
    exact different (sound.represents.disjoint other bucketIdx slot member onChain)
  · intro bucket cell member
    rw [effect.sound.chain_eq] at member
    obtain ⟨slot, remains, rfl⟩ := List.mem_map.mp member
    obtain ⟨wasOn, different⟩ := stays bucket slot remains
    rw [effect.others slot different]
    have cellBefore : (slot, (m.dataRecords slot).response) ∈ m.chain bucket := by
      rw [sound.chain_eq]
      exact List.mem_map.mpr ⟨slot, wasOn, rfl⟩
    exact fun same => different ((sound.mem_chain_iff found cellBefore).mp same)
  · rw [sound.freeList_eq, effect.sound.freeList_eq]
  · rw [sound.freeCount_eq, effect.sound.freeCount_eq, List.length_cons]

/-- **A deletion by name** empties its chain. -/
theorem Sound.emptiesChain (sound : Sound m chain spare) {key : UInt64 × Int}
    (here : m.keys bucketIdx = some key) (effect : Cleared m m' chain spare bucketIdx) :
    EmptiesChain m m' bucketIdx := by
  have occupied : (m.hashTable bucketIdx).nameHash ≠ 0 := by
    intro empty
    rw [key_eq_none_iff.mpr empty] at here
    cases here
  have nonempty := (sound.represents.chainLinked bucketIdx _ (head_of_occupied occupied)).1
  refine ⟨?_, ?_, fun other different => ?_, ?_, ?_⟩
  · rw [sound.chain_eq]
    exact fun empty => nonempty (List.map_eq_nil_iff.mp empty)
  · rw [effect.sound.chain_eq, Function.update_self, List.map_nil]
  · refine sound.chain_congr effect.sound (Function.update_of_ne different ..)
      fun slot member => congrArg DNSRecord.response (effect.others slot ?_)
    exact fun inBucket =>
      different (sound.represents.disjoint other bucketIdx slot member inBucket)
  · rw [sound.freeList_eq, effect.sound.freeList_eq, sound.chainSlots_eq]
  · rw [sound.freeCount_eq, effect.sound.freeCount_eq, sound.chain_eq, List.length_append,
      List.length_reverse, List.length_map, Nat.add_comm]

/-- An id that is not stored stays forgotten until it is appended. -/
theorem Sound.forgotten (sound : Sound m chain spare) (missing : m.slotOfId id = none) :
    Forgotten m id := by
  intro calls along
  have stays : (Run.exec Mmap.step m calls).slotOfId id = none := by
    induction calls generalizing m chain spare with
    | nil => exact missing
    | cons c calls ih =>
        obtain ⟨chain', spare', sound', -⟩ := sound.step c
        refine ih sound' ?_ along.2
        by_cases appends : ∃ wireName qtype data, c = .append wireName qtype id data
        · obtain ⟨wireName, qtype, data, rfl⟩ := appends
          have refused : (m.appendRecord wireName qtype id data).1 = false :=
            along.1 wireName qtype data rfl
          rcases sound.appendRecord_cases wireName qtype id data with
            unchanged | ⟨_, _, _, _, _, _, _, accepted, _⟩
          · rw [Mmap.step, Mmap.call, unchanged]
            exact missing
          · exact absurd (refused.symm.trans accepted) Bool.false_ne_true
        · refine sound.missing_step (fun wireName qtype data same => ?_) missing
          exact appends ⟨wireName, qtype, data, same⟩
  exact ⟨fun data => by simp only [Mmap.updateRecord, stays],
    by simp only [Mmap.deleteRecordFromUuid, stays]⟩

/-- An accepted call has its effect on every sound store whose slots are
covered. -/
theorem Sound.effect_of_call (sound : Sound m chain spare)
    (covers : Covers maxDataRecords chain spare) {c : Call} (hashed : c.Hashed)
    (accepted : (m.call c).1 = true) :
    Effect m (m.call c).2 c := by
  have notRefused : m.call c ≠ (false, m) := by
    intro refused
    rw [refused] at accepted
    exact Bool.false_ne_true accepted
  cases c with
  | append wireName qtype id data =>
      rcases sound.appendRecord_cases wireName qtype id data with
        refused | ⟨bucketIdx, slotIdx, rest, rfl, -, ends, free, -, effect⟩
      · exact absurd refused notRefused
      · exact ⟨bucketIdx, slotIdx, ends, sound.prepends hashed free effect,
          sound.getRecord_appended hashed ends free effect⟩
  | update id data =>
      rcases sound.updateRecord_cases id data with refused | ⟨slotIdx, found, -, -, effect⟩
      · exact absurd refused notRefused
      · exact ⟨_, slotIdx, sound.rewrites covers found effect⟩
  | delete wireName qtype =>
      rcases sound.deleteRecord_cases wireName qtype with
        ⟨refused, -⟩ | ⟨bucketIdx, ends, here, -, effect⟩
      · exact absurd refused notRefused
      · exact ⟨bucketIdx, ends, sound.emptiesChain here effect⟩
  | deleteFromUuid id =>
      rcases sound.deleteRecordFromUuid_cases id with ⟨-, refused⟩ | ⟨slotIdx, found, -, effect⟩
      · exact absurd refused notRefused
      · exact ⟨⟨_, slotIdx, sound.takesOut covers found effect⟩,
          effect.sound.forgotten (sound.slotOfId_deleted id)⟩

end Effects

/-- **The effect of the calls on the chains.** In every state that calls reach
from a fresh store, when no appended name hashes to zero, an accepted call has
its effect on the chains and on the free list. -/
theorem call_effect (calls : List Call) (hashed : ∀ c ∈ calls, c.Hashed) (c : Call)
    (isHashed : c.Hashed)
    (accepted : ((Run.exec Mmap.step Mmap.fresh calls).call c).1 = true) :
    Effect (Run.exec Mmap.step Mmap.fresh calls) ((Run.exec Mmap.step Mmap.fresh calls).call c).2
      c := by
  obtain ⟨chain, spare, sound, covers⟩ := Tidy.run hashed
  exact sound.effect_of_call covers isHashed accepted

/-- Deleting the second of two records under one name. -/
theorem call_effect_middle_delete :
    Effect (Run.exec Mmap.step Mmap.fresh
        [.append [1, 97, 0] 1 ⟨1, 1⟩ ⟨60, 0, ⟨0, 0⟩, false, false, [10, 0, 0, 1]⟩,
          .append [1, 97, 0] 1 ⟨2, 2⟩ ⟨60, 0, ⟨0, 0⟩, false, false, [10, 0, 0, 2]⟩])
      ((Run.exec Mmap.step Mmap.fresh
        [.append [1, 97, 0] 1 ⟨1, 1⟩ ⟨60, 0, ⟨0, 0⟩, false, false, [10, 0, 0, 1]⟩,
          .append [1, 97, 0] 1 ⟨2, 2⟩ ⟨60, 0, ⟨0, 0⟩, false, false, [10, 0, 0, 2]⟩]).call
        (.deleteFromUuid ⟨1, 1⟩)).2 (.deleteFromUuid ⟨1, 1⟩) :=
  call_effect _ (by decide) _ trivial (by
    rw [Mmap.fresh_eq_freshTable]
    decide +kernel)

end EdgeDNS.Records
