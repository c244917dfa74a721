import EdgeDNS.Cache.RecordsRefinement
import EdgeDNS.Core.SyncServed

/-!
# Where a sync update leaves its record

An update names a record by its id and gives a name and a type. When the id is
stored, the fields are written into its slot, and the slot stays on the chain of
the key under which the record was added; the name and the type of the request
are used only when the update is refused and the record is appended again.

`update_moves_iff` says exactly when the lookups of the requested name and type,
and no others, return the record afterwards.
-/

set_option autoImplicit false

namespace EdgeDNS.Core

open Utils RData

/-- The lookup of a name and a type returns a record of the id. -/
def Finds (recordsMap : Records.Mmap) (nameWire : List UInt8) (type : Int) (id : CassUuid) :
    Prop :=
  ∃ record ∈ recordsMap.getRecord nameWire type, record.id = id

/-- The record of an id is found under a name and a type with the given fields,
and under no other key. -/
structure MovedTo (recordsMap : Records.Mmap) (nameWire : List UInt8) (type : Int) (id : CassUuid)
    (data : Records.RecordData) : Prop where
  here : ∃ record ∈ recordsMap.getRecord nameWire type, record.entry = data.entry id
  nowhereElse : ∀ other type', Records.hashKey other type' ≠ Records.hashKey nameWire type →
    ¬ Finds recordsMap other type' id

/-- The ways to the requested key. The record is there already, or the id is not
stored and the record is appended under the name and the type that the arrays of
the worker hold. -/
inductive UpdateReaches (recordsMap : Records.Mmap) (params : RecordParams)
    (nameWire : List UInt8) (type : Int) (id : CassUuid) (data : Records.RecordData) : Prop
  | inPlace (fits : data.Fits) (found : Finds recordsMap nameWire type id)
  | appended (missing : recordsMap.slotOfId id = none)
      (key : Records.hashKey (stringToWire params.name true) (atoi params.type) =
        Records.hashKey nameWire type)
      (hashed : Records.calculateHash nameWire ≠ 0)
      (room : recordsMap.CanAppend (stringToWire params.name true) (atoi params.type) id data)

section Moves

variable {recordsMap : Records.Mmap} {chain : Nat → List Nat} {spare : List Nat} {slotIdx : Nat}
  {nameWire stored : List UInt8} {type storedType : Int} {id : CassUuid}
  {data : Records.RecordData}

/-- The lookups of names with the same hash and type agree. -/
theorem getRecord_of_key (sound : Records.Sound recordsMap chain spare)
    (key : Records.hashKey stored storedType = Records.hashKey nameWire type) :
    recordsMap.getRecord stored storedType = recordsMap.getRecord nameWire type := by
  obtain ⟨hash, rfl⟩ := Prod.mk.inj key
  rw [sound.getRecord_eq, sound.getRecord_eq, hash]

/-- A lookup finds a stored id when its slot is on the chain where the probe
ends. -/
theorem finds_iff_mem_chain (sound : Records.Sound recordsMap chain spare)
    (found : recordsMap.slotOfId id = some slotIdx) :
    Finds recordsMap nameWire type id ↔
      slotIdx ∈ (recordsMap.findBucket (Records.calculateHash nameWire) type).elim [] chain := by
  obtain ⟨bounded, inUse, holds⟩ := sound.slotOfId_eq_some_iff.mp found
  rw [Finds, sound.getRecord_eq]
  cases recordsMap.findBucket (Records.calculateHash nameWire) type with
  | none =>
      simp only [Option.elim_none, List.map_nil, List.not_mem_nil, false_and, exists_false]
  | some bucketIdx =>
      rw [Option.elim_some]
      constructor
      · rintro ⟨_, member, sameId⟩
        obtain ⟨other, onChain, rfl⟩ := List.mem_map.mp member
        obtain ⟨otherBounded, otherUsed⟩ := sound.represents.chainUsed bucketIdx other onChain
        have sameSlot := sound.indexed.injective otherBounded otherUsed bounded inUse
          (congrArg Records.idSlot (sameId.trans holds.symm))
        exact sameSlot ▸ onChain
      · intro onChain
        exact ⟨_, List.mem_map_of_mem onChain, holds⟩

/-- Only the lookups of one key find an id. -/
theorem Finds.hashKey_eq (sound : Records.Sound recordsMap chain spare)
    (here : Finds recordsMap nameWire type id) (there : Finds recordsMap stored storedType id) :
    Records.hashKey stored storedType = Records.hashKey nameWire type := by
  obtain ⟨_, member, rfl⟩ := here
  obtain ⟨_, member', sameId⟩ := there
  obtain ⟨bucketIdx, slot, key, onChain, rfl⟩ := sound.mem_getRecord member
  obtain ⟨bucketIdx', slot', key', onChain', rfl⟩ := sound.mem_getRecord member'
  obtain ⟨bounded, inUse⟩ := sound.represents.chainUsed bucketIdx slot onChain
  obtain ⟨bounded', inUse'⟩ := sound.represents.chainUsed bucketIdx' slot' onChain'
  obtain rfl : slot' = slot :=
    sound.indexed.injective bounded' inUse' bounded inUse (congrArg Records.idSlot sameId)
  obtain rfl : bucketIdx' = bucketIdx :=
    (sound.owned bucketIdx' slot' onChain').symm.trans (sound.owned bucketIdx slot' onChain)
  exact Option.some.inj (key'.symm.trans key)

theorem Finds.isStored (sound : Records.Sound recordsMap chain spare)
    (here : Finds recordsMap nameWire type id) : recordsMap.slotOfId id ≠ none := by
  obtain ⟨_, member, rfl⟩ := here
  exact sound.slotOfId_of_mem_getRecord member

theorem MovedTo.finds (moved : MovedTo recordsMap nameWire type id data) :
    Finds recordsMap nameWire type id := by
  obtain ⟨record, member, entry⟩ := moved.here
  exact ⟨record, member, congrArg Records.Entry.id entry⟩

/-- **An update in place** leaves the record under the key where it was found. -/
theorem movedTo_inPlace_iff (sound : Records.Sound recordsMap chain spare)
    (found : recordsMap.slotOfId id = some slotIdx) (fits : data.Fits) :
    MovedTo (updateOrReplace recordsMap stored storedType id data) nameWire type id data ↔
      Finds recordsMap nameWire type id := by
  obtain ⟨accepted, effect⟩ := sound.updateRecord_accepted found fits
  have updated : updateOrReplace recordsMap stored storedType id data =
      (recordsMap.updateRecord id data).2 := by
    rw [updateOrReplace, if_pos accepted]
  rw [updated]
  generalize (recordsMap.updateRecord id data).2 = after at effect
  have afterSound := sound.updated found effect
  obtain ⟨bounded, inUse, -⟩ := sound.slotOfId_eq_some_iff.mp found
  have foundAfter : after.slotOfId id = some slotIdx := by
    refine afterSound.slotOfId_eq_some_iff.mpr ⟨bounded, ?_, ?_⟩
    · exact (congrFun (congrArg LinkedArena.Arena.used effect.arena) slotIdx).trans inUse
    · exact congrArg Records.DNSResponseData.id effect.own
  have sameProbe : after.findBucket (Records.calculateHash nameWire) type =
      recordsMap.findBucket (Records.calculateHash nameWire) type := by
    have keys : after.keys = recordsMap.keys := by
      funext bucketIdx
      exact congrArg Records.IndexBucket.key (congrFun effect.hashTable bucketIdx)
    rw [Records.findBucket_eq, Records.findBucket_eq, keys]
  have sameFinds : Finds after nameWire type id ↔ Finds recordsMap nameWire type id := by
    rw [finds_iff_mem_chain sound found, finds_iff_mem_chain afterSound foundAfter, sameProbe]
  refine ⟨fun moved => sameFinds.mp moved.finds, fun finds => ⟨?_, fun other type' different => ?_⟩⟩
  · obtain ⟨record, member, sameId⟩ := sameFinds.mpr finds
    obtain ⟨bucketIdx, slot, -, onChain, rfl⟩ := afterSound.mem_getRecord member
    obtain ⟨slotBounded, slotUsed⟩ := afterSound.represents.chainUsed bucketIdx slot onChain
    have sameSlot := afterSound.slotOfId_eq_some_iff.mpr ⟨slotBounded, slotUsed, sameId⟩
    obtain rfl : slot = slotIdx := Option.some.inj (sameSlot.symm.trans foundAfter)
    refine ⟨_, member, ?_⟩
    rw [effect.own, Records.RecordData.response_entry]
  · exact fun there => different ((sameFinds.mpr finds).hashKey_eq afterSound there)

/-- **An append of an id that is not stored** brings the record to the key of the
appended name and type. -/
theorem movedTo_appended_iff (sound : Records.Sound recordsMap chain spare)
    (missing : recordsMap.slotOfId id = none) :
    MovedTo (recordsMap.appendRecord stored storedType id data).2 nameWire type id data ↔
      Records.hashKey stored storedType = Records.hashKey nameWire type ∧
        Records.calculateHash nameWire ≠ 0 ∧
        recordsMap.CanAppend stored storedType id data := by
  constructor
  · intro moved
    rcases sound.appendRecord_cases stored storedType id data with
      refused | ⟨bucketIdx, slotIdx, rest, rfl, fits, ends, free, -, effect⟩
    · rw [refused] at moved
      exact absurd missing (moved.finds.isStored sound)
    · have head : recordsMap.freeListHeadIdx = (slotIdx : Int) :=
        sound.represents.spareLinked.1
      have can : recordsMap.CanAppend stored storedType id data :=
        ⟨fits, by rw [ends]; exact Option.some_ne_none _, free, by omega⟩
      refine ⟨?_, fun zero => ?_, can⟩
      · by_contra different
        obtain ⟨record, member, sameId⟩ := moved.finds
        exact sound.appended_elsewhere missing free effect (Ne.symm different) record member sameId
      · obtain ⟨record, member, -⟩ := moved.finds
        rw [(sound.appended free effect).getRecord_of_zero zero] at member
        exact absurd member List.not_mem_nil
  · rintro ⟨key, hashed, can⟩
    obtain ⟨bucketIdx, ends⟩ := Option.ne_none_iff_exists'.mp can.bucket
    cases spare with
    | nil => exact absurd sound.represents.spareLinked can.spare
    | cons slotIdx rest =>
        obtain ⟨-, effect⟩ := sound.appendRecord_accepted can.fits ends can.idFree
        have storedHashed : Records.calculateHash stored ≠ 0 :=
          fun zero => hashed ((congrArg Prod.fst key).symm.trans zero)
        have first := sound.getRecord_appended storedHashed ends can.idFree effect
        rw [getRecord_of_key (sound.appended can.idFree effect) key] at first
        refine ⟨⟨_, first ▸ List.mem_cons_self .., rfl⟩, fun other type' different => ?_⟩
        rintro ⟨record, member, sameId⟩
        rw [← key] at different
        exact sound.appended_elsewhere missing can.idFree effect different record member sameId

theorem updateOrReplace_intact (intact : Records.Intact recordsMap) :
    Records.Intact (updateOrReplace recordsMap stored storedType id data) := by
  rw [updateOrReplace]
  split
  · exact intact.step (.update id data)
  · exact (intact.step (.deleteFromUuid id)).step (.append stored storedType id data)

/-- An id that is not stored is appended. -/
theorem updateOrReplace_missing (sound : Records.Sound recordsMap chain spare)
    (missing : recordsMap.slotOfId id = none) :
    updateOrReplace recordsMap stored storedType id data =
      (recordsMap.appendRecord stored storedType id data).2 := by
  have notUpdated : (recordsMap.updateRecord id data).1 = false := by
    simp only [Records.Mmap.updateRecord, missing]
  have notDeleted : (recordsMap.deleteRecordFromUuid id).2 = recordsMap := by
    rcases sound.deleteRecordFromUuid_cases id with ⟨-, refused⟩ | ⟨slotIdx, found, -⟩
    · exact congrArg Prod.snd refused
    · cases missing.symm.trans found
  rw [updateOrReplace, notUpdated, if_neg Bool.false_ne_true, notDeleted]

/-- Where an update that is carried out leaves its record. -/
theorem updateOrReplace_movedTo_iff {params : RecordParams}
    (sound : Records.Sound recordsMap chain spare) :
    MovedTo (updateOrReplace recordsMap (stringToWire params.name true) (atoi params.type) id data)
        nameWire type id data ↔
      UpdateReaches recordsMap params nameWire type id data := by
  cases found : recordsMap.slotOfId id with
  | some slotIdx =>
      by_cases fits : data.Fits
      · rw [movedTo_inPlace_iff sound found fits]
        refine ⟨.inPlace fits, fun reaches => ?_⟩
        cases reaches with
        | inPlace _ finds => exact finds
        | appended missing => cases found.symm.trans missing
      · constructor
        · intro moved
          obtain ⟨chain', spare', sound'⟩ :=
            @updateOrReplace_intact recordsMap (stringToWire params.name true) (atoi params.type)
              id data ⟨chain, spare, sound⟩
          exact absurd (updateOrReplace_tooMuch sound fits _ _) (moved.finds.isStored sound')
        · intro reaches
          cases reaches with
          | inPlace fits' => exact absurd fits' fits
          | appended missing => cases found.symm.trans missing
  | none =>
      rw [updateOrReplace_missing sound found, movedTo_appended_iff sound found]
      constructor
      · rintro ⟨key, hashed, can⟩
        exact .appended found key hashed can
      · intro reaches
        cases reaches with
        | inPlace _ finds => exact absurd found (finds.isStored sound)
        | appended _ key hashed can => exact ⟨key, hashed, can⟩

end Moves

/-! ## Update requests -/

/-- The wire form of the name in the text of a request, before it is cut to an
array. -/
def SyncRequest.nameWire (request : SyncRequest) : List UInt8 :=
  stringToWire ((request.text "name").getD []) true

/-- The type in the text of a request. -/
def SyncRequest.recType (request : SyncRequest) : Int :=
  atoi ((request.text "rec_type").getD [])

/-- **An update moves its record exactly when it need not be moved.** For a
stored id the record must be found under the requested name and type already,
and for an id that is not stored the append must reach that key. -/
theorem update_moves_iff (calls : List Records.Call)
    (cassUuidFromString : List UInt8 → Option CassUuid) (request : SyncRequest) (id : CassUuid)
    (isUpdate : request.operation = .recordOperation 50)
    (forId : (request.param "db_id" 40).bind cassUuidFromString = some id) :
    (∀ after,
      serveRecords cassUuidFromString request (Run.exec Records.Mmap.step .fresh calls) =
        .ok (some success, after) →
      ∃ data, requestedData cassUuidFromString request = some (.ok data) ∧
        MovedTo after request.nameWire request.recType id data) ↔
      ∀ params data, request.recordParams = some params →
        requestedData cassUuidFromString request = some (.ok data) →
        UpdateReaches (Run.exec Records.Mmap.step .fresh calls) params request.nameWire
          request.recType id data := by
  obtain ⟨chain, spare, sound⟩ := Records.Intact.run calls
  generalize Run.exec Records.Mmap.step .fresh calls = before at sound ⊢
  simp only [serveRecords_recordOperation isUpdate]
  rcases recordOperation_update cassUuidFromString request before with
    ⟨refusal, notSuccess, nothing, refused⟩ | ⟨error, failed, fails⟩ |
      ⟨params, data, complete, requested, updates⟩
  · constructor
    · intro _ params data _ requested
      cases nothing.symm.trans requested
    · intro _ after answered
      exact absurd (Prod.mk.inj (Except.ok.inj (refused.symm.trans answered))).1 notSuccess
  · constructor
    · intro _ params data _ requested
      cases failed.symm.trans requested
    · intro _ after answered
      cases fails.symm.trans answered
  · rw [namedId_of_recordParams forId complete] at updates
    constructor
    · intro moves params' data' complete' requested'
      obtain rfl : params = params' := Option.some.inj (complete.symm.trans complete')
      obtain ⟨data'', requested'', moved⟩ := moves _ updates
      obtain rfl : data' = data'' :=
        Except.ok.inj (Option.some.inj (requested'.symm.trans requested''))
      obtain rfl : data' = data :=
        Except.ok.inj (Option.some.inj (requested'.symm.trans requested))
      exact (updateOrReplace_movedTo_iff sound).mp moved
    · intro reaches after answered
      obtain ⟨-, rfl⟩ := Prod.mk.inj (Except.ok.inj (updates.symm.trans answered))
      exact ⟨data, requested,
        (updateOrReplace_movedTo_iff sound).mpr (reaches params data complete requested)⟩

/-! ### A record that keeps its name -/

theorem update_moves_iff_short_text :
    (∀ after,
      serveRecords readsOne (textUpdate [121]) (Run.exec Records.Mmap.step .fresh [storeText]) =
        .ok (some success, after) →
      ∃ data, requestedData readsOne (textUpdate [121]) = some (.ok data) ∧
        MovedTo after (textUpdate [121]).nameWire (textUpdate [121]).recType idOne data) ↔
      ∀ params data, (textUpdate [121]).recordParams = some params →
        requestedData readsOne (textUpdate [121]) = some (.ok data) →
        UpdateReaches (Run.exec Records.Mmap.step .fresh [storeText]) params
          (textUpdate [121]).nameWire (textUpdate [121]).recType idOne data :=
  update_moves_iff [storeText] readsOne (textUpdate [121]) idOne (by decide +kernel)
    (by decide +kernel)

/-- An update of the id 1 that gives the name `b`. -/
def renameToB : SyncRequest where
  payload :=
    bytesOf "type=0-2&zone=b&rec_type=16&ttl=60&priority=0&name=b&db_id=" ++ textOfOne ++
      bytesOf "&group_id=" ++ textOfOne ++ bytesOf "&is_geo=0&is_proxy=0&value=y"
  staleGroupId := ⟨0, 0⟩
  staleId := ⟨0, 0⟩

/-- An update that renames a record from `a` to `b` is answered with success, and
nothing is found under `b`. -/
theorem rename_does_not_move :
    renameToB.operation = .recordOperation 50 ∧
    (renameToB.param "db_id" 40).bind readsOne = some idOne ∧
    ¬ ∀ after,
      serveRecords readsOne renameToB (Run.exec Records.Mmap.step .fresh [storeText]) =
        .ok (some success, after) →
      ∃ data, requestedData readsOne renameToB = some (.ok data) ∧
        MovedTo after renameToB.nameWire renameToB.recType idOne data := by
  have nothing : (serveRecords readsOne renameToB
      (Run.exec Records.Mmap.step .fresh [storeText])).toOption.map (fun served =>
        (served.1, served.2.getRecord renameToB.nameWire renameToB.recType)) =
          some (some success, []) := by
    rw [Records.Mmap.fresh_eq_freshTable]
    decide +kernel
  refine ⟨by decide +kernel, by decide +kernel, fun moves => ?_⟩
  simp only [Option.map_eq_some_iff, Prod.mk.injEq] at nothing
  obtain ⟨⟨response, after⟩, served, rfl, empty⟩ := nothing
  obtain ⟨data, -, moved⟩ := moves after (eq_ok_of_toOption served)
  obtain ⟨record, member, -⟩ := moved.here
  rw [empty] at member
  exact absurd member List.not_mem_nil

end EdgeDNS.Core
