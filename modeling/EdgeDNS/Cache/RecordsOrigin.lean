import EdgeDNS.Cache.RecordsChains
import EdgeDNS.Cache.RecordsRefinement

/-!
# Where a stored record comes from

`Holds` says that a record is filed under a key: it stands on the chain of a
bucket with the key. A lookup returns nothing else (`Intact.holds_of_mem_getRecord`).

A call makes a record stand under a key only by writing it (`Intact.holds_step`):
an append files the record it is given under the hash of the name it is given,
and an update rewrites the record of an id where it is filed.
-/

set_option autoImplicit false

namespace EdgeDNS.Records

open LinkedArena Probing

/-- A record on the chain of a bucket with the key. -/
def Mmap.Holds (m : Mmap) (key : UInt64 × Int) (entry : Entry) : Prop :=
  ∃ bucketIdx slotIdx, m.keys bucketIdx = some key ∧ slotIdx ∈ m.chainSlots bucketIdx ∧
    m.entryAt slotIdx = entry

/-- The call writes the record under the key: an append files its own record, and
an update rewrites the record of its id where it is filed. -/
def Call.Puts (m : Mmap) (key : UInt64 × Int) (entry : Entry) : Call → Prop
  | .append wireName qtype id data => key = hashKey wireName qtype ∧ entry = data.entry id
  | .update id data => entry = data.entry id ∧ ∃ old, m.Holds key old ∧ old.id = id
  | .delete _ _ => False
  | .deleteFromUuid _ => False

section Calls

variable {m m' : Mmap} {chain chain' : Nat → List Nat} {spare spare' : List Nat}
  {key : UInt64 × Int} {entry : Entry}

theorem Sound.holds_iff (sound : Sound m chain spare) :
    m.Holds key entry ↔ ∃ bucketIdx slotIdx, m.keys bucketIdx = some key ∧
      slotIdx ∈ chain bucketIdx ∧ m.entryAt slotIdx = entry := by
  simp only [Mmap.Holds, sound.chainSlots_eq]

/-- A lookup returns what is filed under its key. -/
theorem Intact.holds_of_mem_getRecord (intact : Intact m) {wireName : List UInt8} {qtype : Int}
    {response : DNSResponseData} (found : response ∈ m.getRecord wireName qtype) :
    m.Holds (hashKey wireName qtype) response.entry := by
  obtain ⟨chain, spare, sound⟩ := intact
  obtain ⟨bucketIdx, slotIdx, here, onChain, rfl⟩ := sound.mem_getRecord found
  exact sound.holds_iff.mpr ⟨bucketIdx, slotIdx, here, onChain, rfl⟩

theorem Mmap.entryAt_of_response {slotIdx : Nat} {response : DNSResponseData}
    (same : (m.dataRecords slotIdx).response = response) : m.entryAt slotIdx = response.entry :=
  congrArg DNSResponseData.entry same

/-- After an append a filed record was filed before or is the appended one. -/
theorem Sound.holds_appended {wireName : List UInt8} {qtype : Int} {bucketIdx slotIdx : Nat}
    {id : CassUuid} {data : RecordData} (sound : Sound m chain (slotIdx :: spare))
    (ends : m.findBucket (calculateHash wireName) qtype = some bucketIdx)
    (free : m.idHashTable (idSlot id) = -1)
    (effect : Appended m m' (calculateHash wireName) qtype bucketIdx slotIdx id data)
    (held : m'.Holds key entry) :
    m.Holds key entry ∨ key = hashKey wireName qtype ∧ entry = data.entry id := by
  obtain ⟨bucket, slot, here, onChain, rfl⟩ := (sound.appended free effect).holds_iff.mp held
  have kept : ∀ {other bucket}, other ∈ chain bucket → m.keys bucket = some key →
      m.Holds key (m'.entryAt other) := by
    intro other bucket member here
    refine sound.holds_iff.mpr ⟨bucket, other, here, member, ?_⟩
    have notNew := sound.represents.used_of_ne_spare member
    exact (Mmap.entryAt_of_response (effect.others other notNew)).symm
  split at onChain
  · next zero =>
      rw [effect.keys, if_pos zero] at here
      exact .inl (kept onChain here)
  · next hashed =>
      rw [effect.keys, if_neg hashed] at here
      rcases eq_or_ne bucket bucketIdx with rfl | other
      · rw [Function.update_self] at here onChain
        have sameKey : key = hashKey wireName qtype := (Option.some.inj here).symm
        rcases List.mem_cons.mp onChain with rfl | old
        · exact .inr ⟨sameKey, Mmap.entryAt_of_response effect.own⟩
        · -- A probe ends at an empty bucket or at one that has the key already.
          rcases key_of_findKey ((findBucket_eq ..).symm.trans ends) with vacant | filed
          · have noChain := sound.represents.vacant bucket
              (head_eq_none_iff.mpr (key_eq_none_iff.mp vacant))
            rw [noChain] at old
            exact absurd old List.not_mem_nil
          · exact .inl (kept old (sameKey ▸ filed))
      · rw [Function.update_of_ne other] at here onChain
        exact .inl (kept onChain here)

/-- After an update a filed record was filed before or is the one of the id. -/
theorem Sound.holds_updated {slotIdx : Nat} {id : CassUuid} {data : RecordData}
    (sound : Sound m chain spare) (found : m.slotOfId id = some slotIdx)
    (effect : Updated m m' slotIdx id data) (held : m'.Holds key entry) :
    m.Holds key entry ∨ entry = data.entry id ∧ ∃ old, m.Holds key old ∧ old.id = id := by
  obtain ⟨bucket, slot, here, onChain, rfl⟩ := (sound.updated found effect).holds_iff.mp held
  have sameKeys : m'.keys = m.keys := funext fun other =>
    congrArg IndexBucket.key (congrFun effect.hashTable other)
  rw [sameKeys] at here
  have wasHeld : m.Holds key (m.entryAt slot) :=
    sound.holds_iff.mpr ⟨bucket, slot, here, onChain, rfl⟩
  rcases eq_or_ne slot slotIdx with rfl | different
  · refine .inr ⟨Mmap.entryAt_of_response effect.own, _, wasHeld, ?_⟩
    exact (sound.slotOfId_eq_some_iff.mp found).2.2
  · left
    rwa [Mmap.entryAt_of_response (effect.others slot different)]

/-- **A call files a record only by writing it.** -/
theorem Intact.holds_step (intact : Intact m) (c : Call) (held : (m.step c).Holds key entry) :
    m.Holds key entry ∨ c.Puts m key entry := by
  obtain ⟨chain, spare, sound⟩ := intact
  have unchanged : ∀ {after}, after = m → after.Holds key entry → m.Holds key entry := by
    rintro after rfl stays
    exact stays
  cases c with
  | append wireName qtype id data =>
      rcases sound.appendRecord_cases wireName qtype id data with
        refused | ⟨bucketIdx, slotIdx, rest, rfl, -, ends, free, -, effect⟩
      · exact .inl (unchanged (congrArg Prod.snd refused) held)
      · exact sound.holds_appended ends free effect held
  | update id data =>
      rcases sound.updateRecord_cases id data with refused | ⟨slotIdx, found, -, -, effect⟩
      · exact .inl (unchanged (congrArg Prod.snd refused) held)
      · exact sound.holds_updated found effect held
  | delete wireName qtype =>
      rcases sound.deleteRecord_cases wireName qtype with
        ⟨refused, -⟩ | ⟨bucketIdx, -, -, -, effect⟩
      · exact .inl (unchanged (congrArg Prod.snd refused) held)
      · obtain ⟨bucket, slot, here, onChain, rfl⟩ := effect.sound.holds_iff.mp held
        have elsewhere : bucket ≠ bucketIdx := by
          rintro rfl
          rw [effect.keys, Function.update_self] at here
          cases here
        rw [Function.update_of_ne elsewhere] at onChain
        rw [effect.keys, Function.update_of_ne elsewhere] at here
        refine .inl (sound.holds_iff.mpr ⟨bucket, slot, here, onChain, ?_⟩)
        have offChain : slot ∉ chain bucketIdx := fun inBoth =>
          elsewhere (sound.represents.disjoint bucket bucketIdx slot onChain inBoth)
        exact congrArg (fun record => record.response.entry) (effect.others slot offChain).symm
  | deleteFromUuid id =>
      rcases sound.deleteRecordFromUuid_cases id with ⟨-, refused⟩ | ⟨slotIdx, -, -, effect⟩
      · exact .inl (unchanged (congrArg Prod.snd refused) held)
      · obtain ⟨bucket, slot, here, onChain, rfl⟩ := effect.sound.holds_iff.mp held
        have stays : slot ∈ chain bucket := by
          rcases eq_or_ne bucket (m.dataRecords slotIdx).bucketIdx with rfl | other
          · rw [Function.update_self] at onChain
            exact List.mem_of_mem_erase onChain
          · rwa [Function.update_of_ne other] at onChain
        have notRemoved : slot ≠ slotIdx := by
          rintro rfl
          exact effect.sound.represents.used_of_ne_spare onChain rfl
        have sameKey : m.keys bucket = some key := by
          rw [effect.keys] at here
          split at here
          · rcases eq_or_ne bucket (m.dataRecords slotIdx).bucketIdx with rfl | other
            · rw [Function.update_self] at here
              cases here
            · rwa [Function.update_of_ne other] at here
          · exact here
        refine .inl (sound.holds_iff.mpr ⟨bucket, slot, sameKey, stays, ?_⟩)
        exact (Mmap.entryAt_of_response (effect.others slot notRemoved)).symm

end Calls

/-- A new store holds nothing. -/
theorem not_holds_fresh (key : UInt64 × Int) (entry : Entry) : ¬ Mmap.fresh.Holds key entry := by
  intro held
  obtain ⟨bucketIdx, slotIdx, -, onChain, -⟩ := Sound.fresh.holds_iff.mp held
  exact List.not_mem_nil onChain

end EdgeDNS.Records
