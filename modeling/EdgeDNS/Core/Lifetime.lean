import EdgeDNS.Core.Activities
import EdgeDNS.Core.CompleteAnswers
import EdgeDNS.Core.DeletedRecords
import EdgeDNS.Core.SyncMoves

/-!
# How long a record is found

A record that the lookups of its name return stays among them through every call that
neither takes it away nor empties a bucket at which the probe for its key looks
(`finds_step_iff`). So in a run of calls it is found throughout exactly when no call does
(`found_iff_kept`), and its fields change only by updates of its id.

The running server makes no other calls on the record cache than those that its queued
rows and its sync requests come to (`act_recordsMap`). So a record that was added by a
sync request (`findsEntry_of_add`) is found until a later request is about its id or cuts
its path (`FindsEntry.act`). Without a sync request nothing goes: what the cache has read
from the database answers its queries whatever its time to live and whatever becomes of
its row (`never_expires`).
-/

set_option autoImplicit false

namespace EdgeDNS.Core

open Probing Records Utils RData

/-- The call deletes the record of the id, or it empties a bucket at which the probe for
the name and the type looks. -/
def Loses (recordsMap : Mmap) (nameWire : List UInt8) (type : Int) (id : CassUuid) (c : Call) :
    Prop :=
  c = .deleteFromUuid id ∨ ∃ bucketIdx, recordsMap.Empties c bucketIdx ∧
    bucketIdx ∈ lookedAt probeStep home hashTableSize recordsMap.keys (hashKey nameWire type)

/-! ## Calls -/

/-- A record in its slot, on the chain of the bucket to which the probe for its key
leads. -/
structure Stands (m : Mmap) (chain : Nat → List Nat) (key : UInt64 × Int) (entry : Entry)
    (bucketIdx slotIdx : Nat) : Prop where
  leads : Leads probeStep home hashTableSize m.keys key bucketIdx
  onChain : slotIdx ∈ chain bucketIdx
  isEntry : m.entryAt slotIdx = entry

section Calls

variable {m m' : Mmap} {chain chain' : Nat → List Nat} {spare : List Nat}
  {nameWire : List UInt8} {type : Int} {entry : Entry} {bucketIdx slotIdx : Nat}

theorem Stands.finds (stands : Stands m chain (hashKey nameWire type) entry bucketIdx slotIdx)
    (sound : Sound m chain spare) :
    ∃ record ∈ m.getRecord nameWire type, record.entry = entry := by
  have ends : m.findBucket (calculateHash nameWire) type = some bucketIdx :=
    (findBucket_eq ..).trans stands.leads.ends
  rw [sound.getRecord_eq, ends, Option.elim_some]
  exact ⟨_, List.mem_map_of_mem stands.onChain, stands.isEntry⟩

theorem stands_of_mem (sound : Sound m chain spare) {record : DNSResponseData}
    (found : record ∈ m.getRecord nameWire type) :
    ∃ bucketIdx slotIdx, Stands m chain (hashKey nameWire type) record.entry bucketIdx
      slotIdx := by
  rw [sound.getRecord_eq] at found
  cases ends : m.findBucket (calculateHash nameWire) type with
  | none =>
      rw [ends, Option.elim_none, List.map_nil] at found
      exact absurd found List.not_mem_nil
  | some bucketIdx =>
      rw [ends, Option.elim_some] at found
      obtain ⟨slotIdx, onChain, rfl⟩ := List.mem_map.mp found
      have probed := (findBucket_eq ..).symm.trans ends
      refine ⟨bucketIdx, slotIdx, ⟨probed, ?_⟩, onChain, rfl⟩
      refine (key_of_findKey probed).resolve_left fun vacant => ?_
      have nothing := sound.represents.vacant bucketIdx
        (head_eq_none_iff.mpr (key_eq_none_iff.mp vacant))
      rw [nothing] at onChain
      exact List.not_mem_nil onChain

/-- The head of an occupied bucket is a slot with nothing behind it exactly when it is the
only one. -/
theorem empties_iff (sound : Sound m chain spare) (occupied : m.keys bucketIdx ≠ none) :
    ((m.hashTable bucketIdx).headSlotIdx = (slotIdx : Int) ∧
      (m.dataRecords slotIdx).nextIndex = -1) ↔ chain bucketIdx = [slotIdx] := by
  have hashed : (m.hashTable bucketIdx).nameHash ≠ 0 := mt key_eq_none_iff.mpr occupied
  have linked := (sound.represents.chainLinked bucketIdx _ (head_of_occupied hashed)).2
  constructor
  · rintro ⟨isHead, isLast⟩
    exact linked.unique ⟨isHead, isLast⟩
  · intro single
    rw [single] at linked
    exact ⟨linked.1, linked.2⟩

/-- What an append leaves of a record that stands. -/
theorem Stands.appended {name : List UInt8} {qtype : Int} {other newSlot : Nat} {id : CassUuid}
    {data : RecordData} {key : UInt64 × Int}
    (stands : Stands m chain key entry bucketIdx slotIdx)
    (sound : Sound m chain (newSlot :: spare))
    (ends : m.findBucket (calculateHash name) qtype = some other)
    (effect : Appended m m' (calculateHash name) qtype other newSlot id data) :
    Stands m' (if calculateHash name = 0 then chain
      else Function.update chain other (newSlot :: chain other)) key entry bucketIdx slotIdx := by
  have notNew : slotIdx ≠ newSlot := sound.represents.used_of_ne_spare stands.onChain
  have isEntry : m'.entryAt slotIdx = entry :=
    (congrArg DNSResponseData.entry (effect.others slotIdx notNew)).trans stands.isEntry
  have keys := effect.keys
  split at keys
  · next zero =>
      rw [if_pos zero]
      exact ⟨by rw [keys]; exact stands.leads, stands.onChain, isEntry⟩
  · next hashed =>
      rw [if_neg hashed]
      have probed := (findBucket_eq ..).symm.trans ends
      rcases eq_or_ne bucketIdx other with rfl | different
      · have sameKey : key = (calculateHash name, qtype) := by
          rcases key_of_findKey probed with vacant | already
          · cases vacant.symm.trans stands.leads.stored
          · exact Option.some.inj (stands.leads.stored.symm.trans already)
        have unchanged : Function.update m.keys bucketIdx (some (calculateHash name, qtype)) =
            m.keys := by
          rw [← sameKey, ← stands.leads.stored, Function.update_eq_self]
        refine ⟨by rw [keys, unchanged]; exact stands.leads, ?_, isEntry⟩
        rw [Function.update_self]
        exact List.mem_cons_of_mem _ stands.onChain
      · refine ⟨by rw [keys]; exact stands.leads.insert probed different, ?_, isEntry⟩
        rw [Function.update_of_ne different]
        exact stands.onChain

/-- A bucket is vacated at which the probe does not look. -/
theorem Stands.vacated {key : UInt64 × Int} {other : Nat}
    (stands : Stands m chain key entry bucketIdx slotIdx)
    (misses : other ∉ lookedAt probeStep home hashTableSize m.keys key)
    (keys : m'.keys = Function.update m.keys other none)
    (others : ∀ bucket ≠ other, chain' bucket = chain bucket)
    (content : m'.entryAt slotIdx = m.entryAt slotIdx) :
    Stands m' chain' key entry bucketIdx slotIdx := by
  have different : bucketIdx ≠ other := by
    rintro rfl
    exact misses (stands.leads.mem_lookedAt_iff.mpr (.inr rfl))
  refine ⟨by rw [keys]; exact stands.leads.erase misses, ?_, content.trans stands.isEntry⟩
  rw [others bucketIdx different]
  exact stands.onChain

/-- What an update leaves of a record that stands: its fields are new if the id is its
own. -/
theorem Stands.updated {key : UInt64 × Int} {updatedSlot : Nat} {id : CassUuid}
    {data : RecordData} (stands : Stands m chain key entry bucketIdx slotIdx)
    (sound : Sound m chain spare) (found : m.slotOfId id = some updatedSlot)
    (effect : Updated m m' updatedSlot id data) :
    ∃ entry', Stands m' chain key entry' bucketIdx slotIdx ∧ entry'.id = entry.id ∧
      (entry.id ≠ id → entry' = entry) := by
  have sameKeys : m'.keys = m.keys := funext fun other =>
    congrArg IndexBucket.key (congrFun effect.hashTable other)
  have leads : Leads probeStep home hashTableSize m'.keys key bucketIdx := by
    rw [sameKeys]
    exact stands.leads
  rcases eq_or_ne slotIdx updatedSlot with rfl | different
  · have ownId : entry.id = id := (congrArg Entry.id stands.isEntry.symm).trans
      ((sound.id_eq_iff found stands.onChain).mpr rfl)
    exact ⟨data.entry id, ⟨leads, stands.onChain, congrArg DNSResponseData.entry effect.own⟩,
      ownId.symm, fun other => absurd ownId other⟩
  · exact ⟨entry, ⟨leads, stands.onChain, (congrArg DNSResponseData.entry
      (effect.others slotIdx different)).trans stands.isEntry⟩, rfl, fun _ => rfl⟩

/-- What the clearing of another bucket leaves of a record that stands. -/
theorem Stands.cleared {key : UInt64 × Int} {other : Nat}
    (stands : Stands m chain key entry bucketIdx slotIdx) (sound : Sound m chain spare)
    (misses : other ∉ lookedAt probeStep home hashTableSize m.keys key)
    (effect : Cleared m m' chain spare other) :
    Stands m' (Function.update chain other []) key entry bucketIdx slotIdx := by
  have offChain : slotIdx ∉ chain other := fun inOther => by
    have same := sound.represents.disjoint bucketIdx other slotIdx stands.onChain inOther
    exact misses (stands.leads.mem_lookedAt_iff.mpr (.inr same.symm))
  exact stands.vacated misses effect.keys
    (fun bucket different => Function.update_of_ne different ..)
    (congrArg (fun record => record.response.entry) (effect.others slotIdx offChain))

/-- What the removal of another slot leaves of a record that stands. -/
theorem Stands.removed {key : UInt64 × Int} {other removedSlot : Nat}
    (stands : Stands m chain key entry bucketIdx slotIdx) (different : slotIdx ≠ removedSlot)
    (misses : chain other = [removedSlot] →
      other ∉ lookedAt probeStep home hashTableSize m.keys key)
    (effect : Removed m m' chain spare other removedSlot) :
    Stands m' (Function.update chain other ((chain other).erase removedSlot)) key entry
      bucketIdx slotIdx := by
  have isEntry : m'.entryAt slotIdx = entry :=
    (congrArg DNSResponseData.entry (effect.others slotIdx different)).trans stands.isEntry
  have onChain : slotIdx ∈
      Function.update chain other ((chain other).erase removedSlot) bucketIdx := by
    rcases eq_or_ne bucketIdx other with rfl | elsewhere
    · rw [Function.update_self]
      exact (List.mem_erase_of_ne different).mpr stands.onChain
    · rw [Function.update_of_ne elsewhere]
      exact stands.onChain
  have keys := effect.keys
  split at keys
  · next single =>
      exact ⟨by rw [keys]; exact stands.leads.erase (misses single), onChain, isEntry⟩
  · next several =>
      exact ⟨by rw [keys]; exact stands.leads, onChain, isEntry⟩

/-- What a call leaves of a record that stands: it still stands, with the same fields
unless the call is an update of its id. -/
def StillStands (before : Mmap) (nameWire : List UInt8) (type : Int) (entry : Entry) (c : Call) :
    Prop :=
  ∃ chain spare entry' bucketIdx slotIdx, Sound (before.step c) chain spare ∧
    Stands (before.step c) chain (hashKey nameWire type) entry' bucketIdx slotIdx ∧
    entry'.id = entry.id ∧ ((∀ data, c ≠ .update entry.id data) → entry' = entry)

/-- **A record outlives every call that does not lose it.** -/
theorem Stands.step (stands : Stands m chain (hashKey nameWire type) entry bucketIdx slotIdx)
    (sound : Sound m chain spare) {c : Call} (keeps : ¬ Loses m nameWire type entry.id c) :
    StillStands m nameWire type entry c := by
  have unchanged : m.step c = m → StillStands m nameWire type entry c := by
    intro same
    refine ⟨chain, spare, entry, bucketIdx, slotIdx, ?_, ?_, rfl, fun _ => rfl⟩
    · rw [same]
      exact sound
    · rw [same]
      exact stands
  rw [Loses, not_or] at keeps
  obtain ⟨notDeleted, missesAll⟩ := keeps
  have misses : ∀ other, m.Empties c other →
      other ∉ lookedAt probeStep home hashTableSize m.keys (hashKey nameWire type) :=
    fun other empties looks => missesAll ⟨other, empties, looks⟩
  cases c with
  | append name qtype id data =>
      rcases sound.appendRecord_cases name qtype id data with
        refused | ⟨other, newSlot, rest, rfl, -, ends, free, -, effect⟩
      · exact unchanged (congrArg Prod.snd refused)
      · exact ⟨_, _, entry, bucketIdx, slotIdx, sound.appended free effect,
          stands.appended sound ends effect, rfl, fun _ => rfl⟩
  | update id data =>
      rcases sound.updateRecord_cases id data with refused | ⟨updatedSlot, found, -, -, effect⟩
      · exact unchanged (congrArg Prod.snd refused)
      · obtain ⟨entry', stands', sameId, same⟩ := stands.updated sound found effect
        refine ⟨_, _, entry', bucketIdx, slotIdx, sound.updated found effect, stands', sameId, ?_⟩
        intro notUpdated
        exact same fun ownId => notUpdated data (by rw [ownId])
  | delete name qtype =>
      rcases sound.deleteRecord_cases name qtype with
        ⟨refused, -⟩ | ⟨other, ends, here, -, effect⟩
      · exact unchanged (congrArg Prod.snd refused)
      · exact ⟨_, _, entry, bucketIdx, slotIdx, effect.sound,
          stands.cleared sound (misses other ⟨ends, by simp [here]⟩) effect, rfl, fun _ => rfl⟩
  | deleteFromUuid id =>
      rcases sound.deleteRecordFromUuid_cases id with
        ⟨-, refused⟩ | ⟨removedSlot, found, -, effect⟩
      · exact unchanged (congrArg Prod.snd refused)
      · have different : slotIdx ≠ removedSlot := by
          intro same
          have ownId := (sound.id_eq_iff found stands.onChain).mpr same
          have isId : entry.id = id := (congrArg Entry.id stands.isEntry.symm).trans ownId
          exact notDeleted (by rw [isId])
        refine ⟨_, _, entry, bucketIdx, slotIdx, effect.sound,
          stands.removed different ?_ effect, rfl, fun _ => rfl⟩
        -- a bucket with this slot alone is one that the call empties
        intro single
        have holdsKey : m.keys (m.dataRecords removedSlot).bucketIdx ≠ none := by
          intro vacant
          have nothing := sound.represents.vacant _
            (head_eq_none_iff.mpr (key_eq_none_iff.mp vacant))
          rw [nothing] at single
          cases single
        obtain ⟨isHead, isLast⟩ := (empties_iff sound holdsKey).mpr single
        exact misses _ ⟨removedSlot, found, rfl, isHead, isLast⟩

/-- A lookup whose probe ends at a vacant bucket finds nothing. -/
theorem not_finds_of_vacant {id : CassUuid} (sound : Sound m chain spare)
    (ends : m.findBucket (calculateHash nameWire) type = some bucketIdx)
    (vacant : m.keys bucketIdx = none) : ¬ Finds m nameWire type id := by
  rintro ⟨record, found, -⟩
  rw [sound.getRecord_eq, ends, Option.elim_some, sound.represents.vacant bucketIdx
    (head_eq_none_iff.mpr (key_eq_none_iff.mp vacant))] at found
  exact List.not_mem_nil found

/-- **A call that loses the record takes it from the lookups of its name.** -/
theorem not_finds_of_loses (stands : Stands m chain (hashKey nameWire type) entry bucketIdx slotIdx)
    (sound : Sound m chain spare) {c : Call} (loses : Loses m nameWire type entry.id c) :
    ¬ Finds (m.step c) nameWire type entry.id := by
  have lost : ∀ {other : Nat} {after : Mmap} {chain' : Nat → List Nat} {spare' : List Nat},
      Sound after chain' spare' → after.keys = Function.update m.keys other none →
      other ∈ lookedAt probeStep home hashTableSize m.keys (hashKey nameWire type) →
      ¬ Finds after nameWire type entry.id := by
    intro other after chain' spare' soundAfter keys looks
    refine @not_finds_of_vacant _ _ _ _ _ other _ soundAfter ?_ ?_
    · rw [findBucket_eq, keys]
      exact stands.leads.findKey_erase looks
    · rw [keys, Function.update_self]
  rcases loses with rfl | ⟨other, empties, looks⟩
  · intro finds
    obtain ⟨chain', spare', soundAfter⟩ := Intact.step ⟨chain, spare, sound⟩
      (.deleteFromUuid entry.id)
    exact finds.isStored soundAfter (sound.slotOfId_deleted entry.id)
  · cases c with
    | append name qtype id data => exact empties.elim
    | update id data => exact empties.elim
    | delete name qtype =>
        obtain ⟨ends, holdsKey⟩ := empties
        rcases sound.deleteRecord_cases name qtype with
          ⟨-, vacant⟩ | ⟨other', ends', here, -, effect⟩
        · exact absurd (vacant other ends) holdsKey
        · obtain rfl : other = other' := Option.some.inj (ends.symm.trans ends')
          exact lost effect.sound effect.keys looks
    | deleteFromUuid id =>
        obtain ⟨removedSlot, found, rfl, isHead, isLast⟩ := empties
        have single := (empties_iff sound (stands.leads.occupied looks)).mp ⟨isHead, isLast⟩
        rcases sound.deleteRecordFromUuid_cases id with
          ⟨missing, -⟩ | ⟨removedSlot', found', -, effect⟩
        · cases missing.symm.trans found
        · obtain rfl : removedSlot = removedSlot' := Option.some.inj (found.symm.trans found')
          exact lost effect.sound (effect.keys.trans (if_pos single)) looks

end Calls

section Runs

variable {m : Mmap} {nameWire : List UInt8} {type : Int} {id : CassUuid}

/-- **When a record is still found.** -/
theorem finds_step_iff (intact : Intact m) (finds : Finds m nameWire type id) (c : Call) :
    Finds (m.step c) nameWire type id ↔ ¬ Loses m nameWire type id c := by
  obtain ⟨chain, spare, sound⟩ := intact
  obtain ⟨record, found, rfl⟩ := finds
  obtain ⟨bucketIdx, slotIdx, stands⟩ := stands_of_mem sound found
  constructor
  · intro still loses
    exact not_finds_of_loses stands sound loses still
  · intro keeps
    obtain ⟨chain', spare', entry', bucketIdx', slotIdx', sound', stands', sameId, -⟩ :=
      stands.step sound keeps
    obtain ⟨record', found', isEntry⟩ := stands'.finds sound'
    exact ⟨record', found', (congrArg Entry.id isEntry).trans sameId⟩

/-- **A record that is found stays found exactly as long as no call loses it**, whatever
the calls were before. -/
theorem found_iff_kept (before : List Call) (nameWire : List UInt8) (type : Int) (id : CassUuid)
    (finds : Finds (Run.exec Mmap.step .fresh before) nameWire type id) (calls : List Call) :
    Run.Throughout Mmap.step (fun m => Finds m nameWire type id)
        (Run.exec Mmap.step .fresh before) calls ↔
      Run.Along Mmap.step (fun m c => ¬ Loses m nameWire type id c)
        (Run.exec Mmap.step .fresh before) calls := by
  have intact := Intact.run before
  generalize Run.exec Mmap.step .fresh before = m at finds intact ⊢
  refine @Run.throughout_iff_along _ _ Mmap.step
    (fun m => Intact m ∧ Finds m nameWire type id) (fun m => Finds m nameWire type id)
    (fun m c => ¬ Loses m nameWire type id c) (fun _ => True) (fun _ holds => holds.2) ?_ ?_ calls
    m ⟨intact, finds⟩ fun _ _ => trivial
  · rintro m c - ⟨intact, finds⟩ keeps
    exact ⟨intact.step c, (finds_step_iff intact finds c).mpr keeps⟩
  · rintro m c - ⟨intact, finds⟩ loses still
    exact loses ((finds_step_iff intact finds c).mp still)

/-- The record of `bh` is lost when the record of `a`, behind which it stands, is
deleted. -/
theorem found_iff_kept_behind :
    Run.Throughout Mmap.step (fun m => Finds m nameBH 1 ⟨2, 2⟩)
        (Run.exec Mmap.step .fresh
          [.append nameA 1 ⟨1, 1⟩ addressData, .append nameBH 1 ⟨2, 2⟩ addressData])
        [.deleteFromUuid ⟨1, 1⟩] ↔
      Run.Along Mmap.step (fun m c => ¬ Loses m nameBH 1 ⟨2, 2⟩ c)
        (Run.exec Mmap.step .fresh
          [.append nameA 1 ⟨1, 1⟩ addressData, .append nameBH 1 ⟨2, 2⟩ addressData])
        [.deleteFromUuid ⟨1, 1⟩] := by
  refine found_iff_kept [.append nameA 1 ⟨1, 1⟩ addressData, .append nameBH 1 ⟨2, 2⟩ addressData]
    nameBH 1 ⟨2, 2⟩ ?_ [.deleteFromUuid ⟨1, 1⟩]
  rw [Finds, Mmap.fresh_eq_freshTable]
  decide +kernel

end Runs

/-! ## Added records -/

/-- An activity leaves the record of the id alone: no call of it is an update of the id or
loses the record. -/
def Activity.Spares (cassUuidFromString : List UInt8 → Option CassUuid) (nameWire : List UInt8)
    (type : Int) (id : CassUuid) (world : World) (activity : Activity) : Prop :=
  ∀ c ∈ activity.recordCalls cassUuidFromString world,
    ¬ Loses world.caches.recordsMap nameWire type id c ∧ ∀ data, c ≠ .update id data

/-- The lookups of a name and a type return a record with these fields. -/
def FindsEntry (recordsMap : Mmap) (nameWire : List UInt8) (type : Int) (entry : Entry) : Prop :=
  ∃ record ∈ recordsMap.getRecord nameWire type, record.entry = entry

section Added

variable {server : Server} {cassUuidFromString : List UInt8 → Option CassUuid} {m : Mmap}
  {nameWire : List UInt8} {type : Int} {entry : Entry}

theorem FindsEntry.step (finds : FindsEntry m nameWire type entry) (intact : Intact m) {c : Call}
    (keeps : ¬ Loses m nameWire type entry.id c) (notUpdated : ∀ data, c ≠ .update entry.id data) :
    FindsEntry (m.step c) nameWire type entry := by
  obtain ⟨chain, spare, sound⟩ := intact
  obtain ⟨record, found, rfl⟩ := finds
  obtain ⟨bucketIdx, slotIdx, stands⟩ := stands_of_mem sound found
  obtain ⟨chain', spare', entry', bucketIdx', slotIdx', sound', stands', -, same⟩ :=
    stands.step sound keeps
  obtain rfl := same notUpdated
  exact stands'.finds sound'

/-- No append loses a record. -/
theorem not_loses_append (m : Mmap) (nameWire name : List UInt8) (type qtype : Int)
    (id other : CassUuid) (data : RecordData) :
    ¬ Loses m nameWire type id (.append name qtype other data) := by
  rintro (isDelete | ⟨bucketIdx, empties, -⟩)
  · cases isDelete
  · exact empties

theorem FindsEntry.act {world : World} {activity : Activity}
    (finds : FindsEntry world.caches.recordsMap nameWire type entry)
    (intact : Intact world.caches.recordsMap)
    (spares : activity.Spares cassUuidFromString nameWire type entry.id world) :
    FindsEntry (world.act server cassUuidFromString activity).caches.recordsMap nameWire type
      entry := by
  rw [act_recordsMap]
  rcases @recordCalls_cases cassUuidFromString world activity with
    none | ⟨c, one | ⟨name, qtype, id, data, two⟩⟩
  · rw [none]
    exact finds
  · obtain ⟨keeps, notUpdated⟩ := spares c (by simp [one])
    rw [one]
    exact finds.step intact keeps notUpdated
  · obtain ⟨keeps, notUpdated⟩ := spares c (by simp [two])
    rw [two]
    refine (finds.step intact keeps notUpdated).step (intact.step c)
      (not_loses_append _ _ _ _ _ _ _ _) ?_
    intro other impossible
    cases impossible

theorem FindsEntry.run {world : World} {activities : List Activity}
    (finds : FindsEntry world.caches.recordsMap nameWire type entry)
    (intact : Intact world.caches.recordsMap)
    (spared : Run.Along (World.act server cassUuidFromString)
      (Activity.Spares cassUuidFromString nameWire type entry.id) world activities) :
    FindsEntry (Run.exec (World.act server cassUuidFromString) world activities).caches.recordsMap
      nameWire type entry := by
  have always := @Run.throughout_of_along _ _ (World.act server cassUuidFromString)
    (fun world => Intact world.caches.recordsMap ∧
      FindsEntry world.caches.recordsMap nameWire type entry)
    (Activity.Spares cassUuidFromString nameWire type entry.id) (fun _ => True)
    (fun world activity _ holds spares =>
      ⟨intact_act holds.1 activity, holds.2.act holds.1 spares⟩)
    activities world ⟨intact, finds⟩ (fun _ _ => trivial) spared
  exact always.last.2

/-- A record that is found for a query, and that is neither proxied nor a geo record, is in
the response when this is whole. -/
theorem answered_of_findsEntry {world : World} {asked : List (List UInt8)} {entry : Entry}
    {request : Request} {query : Query} (asks : AsksFor request asked query)
    (finds : FindsEntry world.caches.recordsMap query.nameWire query.qtype.toNat entry)
    (notGeo : entry.isGeo = false) (notProxy : entry.isProxy = false) :
    ∃ handled, world.respond server request = .ok handled ∧
      (handled.truncated = false →
        ∃ message, Dns.decodeMessage (unframed request.isTcp handled.out) = some message ∧
          (Answer.mk entry.ttl entry.priority entry.rdata).record query.qtype ∈
            message.answers) := by
  obtain ⟨handled, query', written, runs, parsed, responds⟩ := handle_of_labels server
    world.database world.caches world.recordQueue world.entryQueue world.rrlBuckets asks.valid
    asks.name
  refine ⟨handled, runs, fun whole => ?_⟩
  obtain rfl : query = query' := Except.ok.inj (asks.parses.symm.trans parsed.parses)
  obtain ⟨record, found, rfl⟩ := finds
  have cached : record ∈ cachedRecords world.caches query := found
  have matched : record ∈ matchedRecords world.database world.caches request query := by
    rw [matchedRecords, if_pos (List.ne_nil_of_mem cached)]
    exact cached
  have alone : answeringGroup server request record = none := by
    have isProxy : record.isProxy = false := notProxy
    rw [answeringGroup_eq_none_iff]
    exact ⟨by simp [isProxied, isProxy], notGeo⟩
  have answers : (⟨record.ttl, record.priority, record.rdata⟩ : Answer) ∈ written := by
    rw [responds.complete whole, responseAnswers, if_pos asks.accepted]
    refine List.mem_flatMap.mpr ⟨record, matched, ?_⟩
    rw [recordAnswers, alone]
    exact List.mem_singleton_self _
  exact ⟨_, responds.decodes asks.valid parsed, List.mem_map_of_mem answers⟩

end Added

/-- A well-formed add that finds its place is found by the lookups of its name. -/
theorem findsEntry_of_add {server : Server} {cassUuidFromString : List UInt8 → Option CassUuid}
    {world : World} (intact : Intact world.caches.recordsMap) {add : SyncRequest}
    {labels : List (List UInt8)} {type : UInt16} {id : CassUuid} {item : Answer}
    (host : HostName labels) (wellFormed : WellFormedAdd cassUuidFromString add labels type id item)
    (fits : item.rdata.length ≤ payloadSize)
    (room : world.caches.recordsMap.freeListHeadIdx ≠ -1)
    (reaches : AddReaches world.caches.recordsMap labels type id) :
    ∃ groupId, FindsEntry (world.act server cassUuidFromString (.sync add)).caches.recordsMap
      (hostWire labels) type.toNat ((addedData groupId item).entry id) := by
  obtain ⟨chain, spare, sound⟩ := intact
  obtain ⟨groupId, serves⟩ := wellFormed.serves world.caches.recordsMap
  have runs := (serveRecords_recordOperation wellFormed.operation).mp serves
  have after := (@act_recordsMap server cassUuidFromString world (.sync add)).trans
    (recordOperation_calls wellFormed.operation runs).symm
  obtain ⟨bucketIdx, others, first⟩ := @AddReaches.first _ chain spare labels type id groupId item
    sound host reaches fits room
  refine ⟨groupId, (addedData groupId item).response id bucketIdx, ?_, rfl⟩
  rw [after, first]
  exact List.mem_cons_self ..

/-! ## Cached rows -/

/-- Without a sync request the record cache only grows. -/
theorem spares_of_not_sync {cassUuidFromString : List UInt8 → Option CassUuid} {world : World}
    {activity : Activity} (notSync : ∀ request, activity ≠ .sync request) (nameWire : List UInt8)
    (type : Int) (id : CassUuid) : activity.Spares cassUuidFromString nameWire type id world := by
  intro c member
  cases activity with
  | query request => exact absurd member List.not_mem_nil
  | administer database => exact absurd member List.not_mem_nil
  | sync request => exact absurd rfl (notSync request)
  | lifeCycle =>
      rw [Activity.recordCalls] at member
      split at member
      · exact absurd member List.not_mem_nil
      · split at member
        · obtain rfl := List.mem_singleton.mp member
          refine ⟨not_loses_append _ _ _ _ _ _ _ _, fun data impossible => ?_⟩
          cases impossible
        · exact absurd member List.not_mem_nil

/-- **Nothing expires.** A record that the cache has for a query is in every later response
to it that is whole, however long its time to live is and whatever becomes of its row in
the database, until a sync request comes. -/
theorem never_expires (server : Server) (cassUuidFromString : List UInt8 → Option CassUuid)
    (database : Database) (before after : List Activity)
    (noSync : ∀ activity ∈ after, ∀ request, activity ≠ .sync request) (asked : List (List UInt8))
    (request : Request) (query : Query) (asks : AsksFor request asked query)
    (record : DNSResponseData)
    (cached : record ∈ cachedRecords (Run.exec (World.act server cassUuidFromString)
      (World.start database) before).caches query)
    (asItStands : record.isGeo = false ∧ record.isProxy = false) :
    ∃ handled,
      (Run.exec (World.act server cassUuidFromString) (World.start database)
        (before ++ after)).respond server request = .ok handled ∧
      (handled.truncated = false →
        ∃ message, Dns.decodeMessage (unframed request.isTcp handled.out) = some message ∧
          (Answer.mk record.ttl record.priority record.rdata).record query.qtype ∈
            message.answers) := by
  have intact := @intact_run server cassUuidFromString database before
  have found : FindsEntry (Run.exec (World.act server cassUuidFromString) (World.start database)
      before).caches.recordsMap query.nameWire query.qtype.toNat record.entry :=
    ⟨record, cached, rfl⟩
  have spared : Run.Along (World.act server cassUuidFromString)
      (Activity.Spares cassUuidFromString query.nameWire query.qtype.toNat record.entry.id)
      (Run.exec (World.act server cassUuidFromString) (World.start database) before) after :=
    Run.along_of_forall fun world activity member =>
      spares_of_not_sync (noSync activity member) _ _ _
  rw [Run.exec_append]
  exact answered_of_findsEntry asks (found.run intact spared) asItStands.1 asItStands.2

theorem parses_textQuery : parseQuery (queryBuf textQuery.payload) textQuery.isTcp =
    .ok ⟨0x0707, 0x0100, 1, [1, 97, 0], 16, 1, 19, 0⟩ := by
  apply eq_ok_of_toOption
  decide +kernel

theorem asksFor_textQuery :
    AsksFor textQuery [[97]] ⟨0x0707, 0x0100, 1, [1, 97, 0], 16, 1, 19, 0⟩ :=
  ⟨validLabels_a, by decide +kernel, parses_textQuery, rfl, rfl⟩

/-- A text is answered after its row has gone from the database. -/
theorem never_expires_text :
    ∃ handled,
      (Run.exec (World.act plainServer readsOne) (World.start oneText)
        ([.query textQuery, .lifeCycle] ++
          [.administer emptyDatabase, .lifeCycle, .query textQuery])).respond plainServer
            textQuery = .ok handled ∧
      (handled.truncated = false →
        ∃ message, Dns.decodeMessage (unframed textQuery.isTcp handled.out) = some message ∧
          (Answer.mk 60 0 [1, 120]).record 16 ∈ message.answers) := by
  have fields : (cachedRecords (Run.exec (World.act plainServer readsOne) (World.start oneText)
      [.query textQuery, .lifeCycle]).caches
        ⟨0x0707, 0x0100, 1, [1, 97, 0], 16, 1, 19, 0⟩).map (fun record =>
      (Answer.mk record.ttl record.priority record.rdata, record.isGeo, record.isProxy)) =
        [(⟨60, 0, [1, 120]⟩, false, false)] := by
    rw [World.start, Mmap.fresh_eq_freshTable]
    decide +kernel
  obtain ⟨record, cached, values⟩ := List.mem_map.mp (fields ▸ List.mem_singleton_self _)
  obtain ⟨isAnswer, flags⟩ := Prod.mk.inj values
  rw [← isAnswer]
  refine never_expires plainServer readsOne oneText [.query textQuery, .lifeCycle]
    [.administer emptyDatabase, .lifeCycle, .query textQuery] ?_ [[97]] textQuery _
    asksFor_textQuery record cached (Prod.mk.inj flags)
  intro activity member request
  simp only [List.mem_cons, List.not_mem_nil, or_false] at member
  rcases member with rfl | rfl | rfl <;> exact fun impossible => by cases impossible

end EdgeDNS.Core
