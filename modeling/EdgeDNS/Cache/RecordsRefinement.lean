import EdgeDNS.Cache.RecordsInvariant

/-!
# The record cache and the map it stands for

The abstract store maps a lower-cased wire name and a type to a list of
records, newest first. `Store.apply` says what an accepted call does to it, and
`pairStep` runs the record cache and the abstract store side by side.

The cache refines the abstract store (`Refines`) when every lookup returns the
abstract list. `Tracks` is the invariant behind it: the chain of every stored
key is the abstract list of that key, and the probe for every stored key ends
at its bucket. The deletions empty a bucket and leave no mark. When the probe
for another stored key passed that bucket, that key is no longer found.
`refines_iff_along` says that this is the only way in which the cache leaves
the abstract store.
-/

set_option autoImplicit false

namespace EdgeDNS.Records

open LinkedArena Probing

/-! ## The abstract store -/

/-- What a lookup returns for a record, without the bucket. -/
@[ext] structure Entry where
  ttl : UInt32
  priority : UInt16
  rdata : List UInt8
  groupId : CassUuid
  id : CassUuid
  isGeo : Bool
  isProxy : Bool
deriving DecidableEq, Repr

/-- What a lookup says of a record, without its place in the store. -/
def DNSResponseData.entry (response : DNSResponseData) : Entry where
  ttl := response.ttl
  priority := response.priority
  rdata := response.rdata
  groupId := response.groupId
  id := response.id
  isGeo := response.isGeo
  isProxy := response.isProxy

/-- The record that a call stores under an id. -/
def RecordData.entry (data : RecordData) (id : CassUuid) : Entry where
  ttl := data.ttl
  priority := data.priority
  rdata := data.rdata
  groupId := data.groupId
  id := id
  isGeo := data.isGeo
  isProxy := data.isProxy

@[simp] theorem RecordData.response_entry (data : RecordData) (id : CassUuid) (bucketIdx : Nat) :
    (data.response id bucketIdx).entry = data.entry id := rfl

/-- The key of a name and a type: names are compared without case. -/
def keyOf (wireName : List UInt8) (qtype : Int) : List UInt8 × Int :=
  (wireName.map lowerByte, qtype)

/-- A store in the abstract: the records of each name and type. -/
abbrev Store := List UInt8 × Int → List Entry

/-- What an accepted call does to the abstract store. -/
def Store.apply (store : Store) : Call → Store
  | .append wireName qtype id data =>
      Function.update store (keyOf wireName qtype)
        (data.entry id :: store (keyOf wireName qtype))
  | .update id data => fun key =>
      (store key).map fun entry => if entry.id = id then data.entry id else entry
  | .delete wireName qtype => Function.update store (keyOf wireName qtype) []
  | .deleteFromUuid id => fun key => (store key).filter fun entry => entry.id ≠ id

@[simp] theorem Store.apply_update (store : Store) (id : CassUuid) (data : RecordData)
    (key : List UInt8 × Int) :
    store.apply (.update id data) key =
      (store key).map fun entry => if entry.id = id then data.entry id else entry := rfl

@[simp] theorem Store.apply_deleteFromUuid (store : Store) (id : CassUuid)
    (key : List UInt8 × Int) :
    store.apply (.deleteFromUuid id) key = (store key).filter fun entry => entry.id ≠ id := rfl

/-- A call on the cache and, when the cache accepts it, on the abstract store. -/
def pairStep (state : Mmap × Store) (c : Call) : Mmap × Store :=
  ((state.1.call c).2, if (state.1.call c).1 then state.2.apply c else state.2)

/-- The fresh cache beside the empty abstract store. -/
def freshPair : Mmap × Store := (Mmap.fresh, fun _ => [])

/-- Every lookup under the given names returns the abstract list. -/
def Refines (names : List UInt8 → Prop) (state : Mmap × Store) : Prop :=
  ∀ wireName, names wireName → ∀ qtype,
    (state.1.getRecord wireName qtype).map DNSResponseData.entry =
      state.2 (keyOf wireName qtype)

/-- The hash tells the given names apart, and none of them hashes to zero. -/
structure Distinguished (names : List UInt8 → Prop) : Prop where
  nonzero : ∀ wireName, names wireName → calculateHash wireName ≠ 0
  injective : ∀ first second, names first → names second →
    calculateHash first = calculateHash second → first.map lowerByte = second.map lowerByte

/-- The name in a call is one of the given names. -/
def Call.Uses (names : List UInt8 → Prop) : Call → Prop
  | .append wireName _ _ _ => names wireName
  | .delete wireName _ => names wireName
  | _ => True

/-! ## The exact condition -/

/-- The call deletes the last record of the bucket. -/
def Mmap.Empties (m : Mmap) : Call → Nat → Prop
  | .delete wireName qtype, bucketIdx =>
      m.findBucket (calculateHash wireName) qtype = some bucketIdx ∧ m.keys bucketIdx ≠ none
  | .deleteFromUuid id, bucketIdx =>
      ∃ slotIdx, m.slotOfId id = some slotIdx ∧ (m.dataRecords slotIdx).bucketIdx = bucketIdx ∧
        (m.hashTable bucketIdx).headSlotIdx = (slotIdx : Int) ∧
        (m.dataRecords slotIdx).nextIndex = -1
  | _, _ => False

/-- A bucket that the call empties lies on the probe path of no other stored
key. -/
def Mmap.KeepsPaths (m : Mmap) (c : Call) : Prop :=
  ∀ bucketIdx, m.Empties c bucketIdx →
    CutsNoPath probeStep home hashTableSize m.keys bucketIdx

/-! ## The invariant -/

/-- The key under which the bucket table stores a name. -/
def hashKey (wireName : List UInt8) (qtype : Int) : UInt64 × Int :=
  (calculateHash wireName, qtype)

/-- The record of a slot, without its place. -/
def Mmap.entryAt (m : Mmap) (slotIdx : Nat) : Entry := (m.dataRecords slotIdx).response.entry

theorem hashKey_eq_iff {names : List UInt8 → Prop} (distinguished : Distinguished names)
    {first second : List UInt8} (isFirst : names first) (isSecond : names second)
    {qtype qtype' : Int} :
    hashKey first qtype = hashKey second qtype' ↔ keyOf first qtype = keyOf second qtype' := by
  simp only [hashKey, keyOf, Prod.mk.injEq]
  refine and_congr_left fun _ => ⟨distinguished.injective first second isFirst isSecond, ?_⟩
  intro sameFolded
  rw [calculateHash, calculateHash, ← foldedHash_map_lowerByte, sameFolded,
    foldedHash_map_lowerByte]

/-- The abstract list of every key is the chain of the bucket that stores the
key, and every stored key is found. -/
structure Tracks (names : List UInt8 → Prop) (m : Mmap) (store : Store)
    (chain : Nat → List Nat) (spare : List Nat) : Prop where
  sound : Sound m chain spare
  covers : Covers maxDataRecords chain spare
  findable : Findable probeStep home hashTableSize m.keys
  named : ∀ bucketIdx key, m.keys bucketIdx = some key →
    ∃ wireName, names wireName ∧ key = hashKey wireName key.2
  stored : ∀ bucketIdx wireName qtype, names wireName →
    m.keys bucketIdx = some (hashKey wireName qtype) →
    store (keyOf wireName qtype) = (chain bucketIdx).map m.entryAt
  absent : ∀ wireName qtype, names wireName →
    (∀ bucketIdx, m.keys bucketIdx ≠ some (hashKey wireName qtype)) →
    store (keyOf wireName qtype) = []

section Tracks

variable {names : List UInt8 → Prop} {m : Mmap} {store : Store} {chain : Nat → List Nat}
  {spare : List Nat}

/-- Where the probe for a name ends is its list. -/
theorem Tracks.listed (tracks : Tracks names m store chain spare) {wireName : List UInt8}
    {qtype : Int} {bucketIdx : Nat} (isName : names wireName)
    (ends : m.findBucket (calculateHash wireName) qtype = some bucketIdx) :
    store (keyOf wireName qtype) = (chain bucketIdx).map m.entryAt := by
  have probed := (findBucket_eq m (calculateHash wireName) qtype).symm.trans ends
  rcases key_of_findKey probed with vacant | already
  · have nowhere : ∀ bucket, m.keys bucket ≠ some (hashKey wireName qtype) := by
      refine tracks.findable.absent fun bucket here => ?_
      obtain rfl : bucketIdx = bucket := Option.some.inj (probed.symm.trans here)
      exact vacant
    have empty := tracks.sound.represents.vacant bucketIdx
      (head_eq_none_iff.mpr (key_eq_none_iff.mp vacant))
    rw [tracks.absent wireName qtype isName nowhere, empty]
    rfl
  · exact tracks.stored bucketIdx wireName qtype isName already

/-- **The invariant gives the refinement.** -/
theorem Tracks.refines (tracks : Tracks names m store chain spare) :
    Refines names (m, store) := by
  intro wireName isName qtype
  change (m.getRecord wireName qtype).map DNSResponseData.entry = store (keyOf wireName qtype)
  rw [tracks.sound.getRecord_eq, List.map_map]
  cases ends : m.findBucket (calculateHash wireName) qtype with
  | some bucketIdx =>
      rw [tracks.listed isName ends]
      rfl
  | none =>
      have nowhere : ∀ bucketIdx, m.keys bucketIdx ≠ some (hashKey wireName qtype) := by
        intro bucketIdx here
        have found := (findBucket_eq ..).trans (tracks.findable bucketIdx _ here)
        cases ends.symm.trans found
      rw [tracks.absent wireName qtype isName nowhere]
      rfl

/-- A slot on a chain holds its own id and no other slot does. -/
theorem Tracks.entryAt_id (tracks : Tracks names m store chain spare) {id : CassUuid}
    {slotIdx : Nat} (found : m.slotOfId id = some slotIdx) {bucketIdx other : Nat}
    (member : other ∈ chain bucketIdx) : (m.entryAt other).id = id ↔ other = slotIdx :=
  tracks.sound.id_eq_iff found member

/-- An accepted append. -/
theorem Tracks.appended {m' : Mmap} {wireName : List UInt8} {qtype : Int} {id : CassUuid}
    {data : RecordData} {bucketIdx slotIdx : Nat} (distinguished : Distinguished names)
    (tracks : Tracks names m store chain (slotIdx :: spare)) (isName : names wireName)
    (ends : m.findBucket (calculateHash wireName) qtype = some bucketIdx)
    (free : m.idHashTable (idSlot id) = -1)
    (effect : Appended m m' (calculateHash wireName) qtype bucketIdx slotIdx id data) :
    Tracks names m' (store.apply (.append wireName qtype id data))
      (Function.update chain bucketIdx (slotIdx :: chain bucketIdx)) spare := by
  have hashed := distinguished.nonzero wireName isName
  have keys : m'.keys = Function.update m.keys bucketIdx (some (hashKey wireName qtype)) := by
    rw [effect.keys, if_neg hashed]
    rfl
  have probed := (findBucket_eq m (calculateHash wireName) qtype).symm.trans ends
  have keyHere := key_of_findKey probed
  have sound := tracks.sound.appended free effect
  rw [if_neg hashed] at sound
  have findable : Findable probeStep home hashTableSize m'.keys := by
    rw [keys]
    exact tracks.findable.insert probed
  -- the list of this key before the append
  have before := tracks.listed isName ends
  have kept : ∀ bucket, (chain bucket).map m'.entryAt = (chain bucket).map m.entryAt := by
    intro bucket
    refine List.map_congr_left fun other member => ?_
    exact congrArg DNSResponseData.entry
      (effect.others other (tracks.sound.represents.used_of_ne_spare member))
  refine ⟨sound, tracks.covers.push bucketIdx, findable, ?_, ?_, ?_⟩
  · intro bucket key here
    rcases eq_or_ne bucket bucketIdx with rfl | different
    · rw [keys, Function.update_self, Option.some.injEq] at here
      exact ⟨wireName, isName, by rw [← here]; rfl⟩
    · rw [keys, Function.update_of_ne different] at here
      exact tracks.named bucket key here
  · intro bucket wireName' qtype' isName' here
    rcases eq_or_ne bucket bucketIdx with rfl | different
    · rw [keys, Function.update_self, Option.some.injEq] at here
      have sameKey := (hashKey_eq_iff distinguished isName isName').mp here
      have own : m'.entryAt slotIdx = data.entry id :=
        (congrArg DNSResponseData.entry effect.own).trans (data.response_entry id bucket)
      rw [← sameKey, Store.apply, Function.update_self, Function.update_self, before,
        List.map_cons, own, kept]
    · have otherKey : keyOf wireName' qtype' ≠ keyOf wireName qtype := by
        intro sameKey
        have sameHash := (hashKey_eq_iff distinguished isName' isName).mpr sameKey
        have stored : m'.keys bucketIdx = some (hashKey wireName' qtype') := by
          rw [keys, Function.update_self, sameHash]
        exact different (findable.injective here stored)
      rw [keys, Function.update_of_ne different] at here
      rw [Store.apply, Function.update_of_ne otherKey, Function.update_of_ne different, kept]
      exact tracks.stored bucket wireName' qtype' isName' here
  · intro wireName' qtype' isName' nowhere
    have otherKey : keyOf wireName' qtype' ≠ keyOf wireName qtype := by
      intro sameKey
      apply nowhere bucketIdx
      rw [keys, Function.update_self, (hashKey_eq_iff distinguished isName' isName).mpr sameKey]
    rw [Store.apply, Function.update_of_ne otherKey]
    refine tracks.absent wireName' qtype' isName' fun bucket here => ?_
    rcases eq_or_ne bucket bucketIdx with rfl | different
    · rcases keyHere with vacant | already
      · cases vacant.symm.trans here
      · have sameHash := Option.some.inj (already.symm.trans here)
        exact otherKey ((hashKey_eq_iff distinguished isName' isName).mp sameHash.symm)
    · apply nowhere bucket
      rwa [keys, Function.update_of_ne different]

/-- An accepted update. -/
theorem Tracks.updated {m' : Mmap} {id : CassUuid} {data : RecordData} {slotIdx : Nat}
    (tracks : Tracks names m store chain spare) (found : m.slotOfId id = some slotIdx)
    (effect : Updated m m' slotIdx id data) :
    Tracks names m' (store.apply (.update id data)) chain spare := by
  have keys : m'.keys = m.keys := by
    funext bucketIdx
    rw [Mmap.keys, effect.hashTable]
    rfl
  refine ⟨tracks.sound.updated found effect, tracks.covers, keys ▸ tracks.findable,
    keys ▸ tracks.named, ?_, ?_⟩
  · intro bucketIdx wireName qtype isName here
    rw [keys] at here
    rw [Store.apply_update, tracks.stored bucketIdx wireName qtype isName here, List.map_map]
    refine List.map_congr_left fun other member => ?_
    rw [Function.comp_apply]
    rcases eq_or_ne other slotIdx with rfl | different
    · rw [if_pos ((tracks.entryAt_id found member).mpr rfl)]
      exact (congrArg DNSResponseData.entry effect.own).symm
    · rw [if_neg (mt (tracks.entryAt_id found member).mp different)]
      exact (congrArg DNSResponseData.entry (effect.others other different)).symm
  · intro wireName qtype isName nowhere
    rw [keys] at nowhere
    rw [Store.apply_update, tracks.absent wireName qtype isName nowhere]
    rfl

/-- An accepted `delete_record` that cuts no path. -/
theorem Tracks.cleared {m' : Mmap} {wireName : List UInt8} {qtype : Int} {bucketIdx : Nat}
    (distinguished : Distinguished names) (tracks : Tracks names m store chain spare)
    (isName : names wireName) (here : m.keys bucketIdx = some (hashKey wireName qtype))
    (effect : Cleared m m' chain spare bucketIdx) (findable : Findable probeStep home
      hashTableSize m'.keys) :
    Tracks names m' (store.apply (.delete wireName qtype)) (Function.update chain bucketIdx [])
      ((chain bucketIdx).reverse ++ spare) := by
  have kept : ∀ bucket, bucket ≠ bucketIdx →
      (chain bucket).map m'.entryAt = (chain bucket).map m.entryAt := by
    intro bucket different
    refine List.map_congr_left fun other member => ?_
    have outside : other ∉ chain bucketIdx := fun inBucket =>
      different (tracks.sound.represents.disjoint bucket bucketIdx other member inBucket)
    rw [Mmap.entryAt, effect.others other outside]
    rfl
  have stays : ∀ {bucket key}, m'.keys bucket = some key →
      bucket ≠ bucketIdx ∧ m.keys bucket = some key := by
    intro bucket key stored
    rcases eq_or_ne bucket bucketIdx with rfl | different
    · rw [effect.keys, Function.update_self] at stored
      cases stored
    · rw [effect.keys, Function.update_of_ne different] at stored
      exact ⟨different, stored⟩
  refine ⟨effect.sound, tracks.covers.clear bucketIdx, findable, ?_, ?_, ?_⟩
  · intro bucket key stored
    exact tracks.named bucket key (stays stored).2
  · intro bucket wireName' qtype' isName' stored
    obtain ⟨different, before⟩ := stays stored
    have otherKey : keyOf wireName' qtype' ≠ keyOf wireName qtype := by
      intro sameKey
      rw [(hashKey_eq_iff distinguished isName' isName).mpr sameKey] at before
      exact different (tracks.findable.injective before here)
    rw [Store.apply, Function.update_of_ne otherKey, Function.update_of_ne different,
      kept bucket different]
    exact tracks.stored bucket wireName' qtype' isName' before
  · intro wireName' qtype' isName' nowhere
    by_cases sameKey : keyOf wireName' qtype' = keyOf wireName qtype
    · rw [Store.apply, sameKey, Function.update_self]
    · rw [Store.apply, Function.update_of_ne sameKey]
      refine tracks.absent wireName' qtype' isName' fun bucket stored => ?_
      have different : bucket ≠ bucketIdx := by
        rintro rfl
        have sameHash := Option.some.inj (here.symm.trans stored)
        exact sameKey ((hashKey_eq_iff distinguished isName' isName).mp sameHash.symm)
      apply nowhere bucket
      rwa [effect.keys, Function.update_of_ne different]

/-- An accepted deletion of an id that cuts no path. -/
theorem Tracks.removed {m' : Mmap} {id : CassUuid} {slotIdx bucketIdx : Nat}
    (tracks : Tracks names m store chain spare) (found : m.slotOfId id = some slotIdx)
    (member : slotIdx ∈ chain bucketIdx) (effect : Removed m m' chain spare bucketIdx slotIdx)
    (findable : Findable probeStep home hashTableSize m'.keys) :
    Tracks names m' (store.apply (.deleteFromUuid id))
      (Function.update chain bucketIdx ((chain bucketIdx).erase slotIdx)) (slotIdx :: spare) := by
  have distinct := tracks.sound.represents.chain_nodup bucketIdx
  -- erasing the slot is filtering the id out of the list of its bucket
  have filtered : ∀ bucket,
      ((chain bucket).map m.entryAt).filter (fun entry => entry.id ≠ id) =
        (Function.update chain bucketIdx ((chain bucketIdx).erase slotIdx) bucket).map
          m'.entryAt := by
    intro bucket
    have sameFilter : (chain bucket).filter ((fun entry => decide (entry.id ≠ id)) ∘ m.entryAt) =
        (chain bucket).filter (fun other => other ≠ slotIdx) := by
      refine List.filter_congr fun other isMember => ?_
      rw [Function.comp_apply]
      exact decide_eq_decide.mpr (not_congr (tracks.entryAt_id found isMember))
    have sameEntries : ((chain bucket).filter (fun other => other ≠ slotIdx)).map m.entryAt =
        ((chain bucket).filter (fun other => other ≠ slotIdx)).map m'.entryAt := by
      refine List.map_congr_left fun other isMember => ?_
      have different : other ≠ slotIdx := by simpa using (List.mem_filter.mp isMember).2
      exact congrArg DNSResponseData.entry (effect.others other different).symm
    rw [List.filter_map, sameFilter, sameEntries]
    rcases eq_or_ne bucket bucketIdx with rfl | different
    · rw [Function.update_self, distinct.erase_eq_filter]
      refine congrArg (List.map m'.entryAt) (List.filter_congr fun other _ => ?_)
      rw [Bool.eq_iff_iff]
      simp
    · have outside : ∀ other ∈ chain bucket, decide (other ≠ slotIdx) = true := by
        intro other isMember
        rw [decide_eq_true_iff]
        rintro rfl
        exact different (tracks.sound.represents.disjoint bucket bucketIdx other isMember member)
      rw [Function.update_of_ne different, List.filter_eq_self.mpr outside]
  have stays : ∀ {bucket key}, m'.keys bucket = some key → m.keys bucket = some key := by
    intro bucket key stored
    rw [effect.keys] at stored
    split at stored
    · rcases eq_or_ne bucket bucketIdx with rfl | different
      · rw [Function.update_self] at stored
        cases stored
      · rwa [Function.update_of_ne different] at stored
    · exact stored
  refine ⟨effect.sound, tracks.covers.erase bucketIdx slotIdx, findable, ?_, ?_, ?_⟩
  · intro bucket key stored
    exact tracks.named bucket key (stays stored)
  · intro bucket wireName qtype isName stored
    rw [Store.apply_deleteFromUuid, tracks.stored bucket wireName qtype isName (stays stored)]
    exact filtered bucket
  · intro wireName qtype isName nowhere
    by_cases wasStored : ∃ bucket, m.keys bucket = some (hashKey wireName qtype)
    · obtain ⟨bucket, before⟩ := wasStored
      have lost := nowhere bucket
      rw [effect.keys] at lost
      split at lost
      case isTrue single =>
        obtain rfl : bucket = bucketIdx := by
          by_contra different
          rw [Function.update_of_ne different] at lost
          exact lost before
        rw [Store.apply_deleteFromUuid, tracks.stored bucket wireName qtype isName before,
          filtered bucket, Function.update_self, single]
        simp
      case isFalse => exact absurd before lost
    · push Not at wasStored
      rw [Store.apply_deleteFromUuid, tracks.absent wireName qtype isName wasStored]
      rfl

/-! ## One call -/

/-- The bucket that a deletion of an id empties has no other slot. -/
theorem Tracks.chain_eq_single_iff (tracks : Tracks names m store chain spare)
    {slotIdx bucketIdx : Nat} (member : slotIdx ∈ chain bucketIdx) :
    (m.hashTable bucketIdx).headSlotIdx = (slotIdx : Int) ∧
      (m.dataRecords slotIdx).nextIndex = -1 ↔ chain bucketIdx = [slotIdx] := by
  obtain ⟨occupied, -, -⟩ := tracks.sound.headed_iff member
  have linked := (tracks.sound.represents.chainLinked bucketIdx _ (head_of_occupied occupied)).2
  constructor
  · rintro ⟨isHead, isLast⟩
    refine linked.unique ?_
    exact ⟨isHead, isLast⟩
  · intro single
    rw [single] at linked
    exact ⟨linked.1, linked.2⟩

/-- **A call that keeps the paths keeps the invariant.** -/
theorem Tracks.step (distinguished : Distinguished names)
    (tracks : Tracks names m store chain spare) {c : Call} (uses : c.Uses names)
    (keepsPaths : m.KeepsPaths c) :
    ∃ chain' spare', Tracks names (pairStep (m, store) c).1 (pairStep (m, store) c).2
      chain' spare' := by
  have unchanged : m.call c = (false, m) → ∃ chain' spare',
      Tracks names (pairStep (m, store) c).1 (pairStep (m, store) c).2 chain' spare' := by
    intro refused
    rw [pairStep, refused]
    exact ⟨chain, spare, tracks⟩
  cases c with
  | append wireName qtype id data =>
      rcases tracks.sound.appendRecord_cases wireName qtype id data with
        refused | ⟨bucketIdx, slotIdx, rest, rfl, -, ends, free, accepted, effect⟩
      · exact unchanged refused
      · simp only [pairStep, Mmap.call, accepted, if_true]
        exact ⟨_, _, tracks.appended distinguished uses ends free effect⟩
  | update id data =>
      rcases tracks.sound.updateRecord_cases id data with
        refused | ⟨slotIdx, found, -, accepted, effect⟩
      · exact unchanged refused
      · simp only [pairStep, Mmap.call, accepted, if_true]
        exact ⟨_, _, tracks.updated found effect⟩
  | delete wireName qtype =>
      rcases tracks.sound.deleteRecord_cases wireName qtype with
        ⟨refused, -⟩ | ⟨bucketIdx, ends, here, accepted, effect⟩
      · exact unchanged refused
      · have cutsNo := keepsPaths bucketIdx ⟨ends, by simp [here]⟩
        have findable : Findable probeStep home hashTableSize
            (m.deleteRecord wireName qtype).2.keys := by
          rw [effect.keys]
          exact tracks.findable.erase cutsNo
        simp only [pairStep, Mmap.call, accepted, if_true]
        exact ⟨_, _, tracks.cleared distinguished uses here effect findable⟩
  | deleteFromUuid id =>
      rcases tracks.sound.deleteRecordFromUuid_cases id with
        ⟨-, refused⟩ | ⟨slotIdx, found, accepted, effect⟩
      · exact unchanged refused
      · have member := tracks.sound.mem_chain_of_found tracks.covers found
        have findable : Findable probeStep home hashTableSize
            (m.deleteRecordFromUuid id).2.keys := by
          rw [effect.keys]
          split
          case isTrue single =>
            obtain ⟨isHead, isLast⟩ := (tracks.chain_eq_single_iff member).mpr single
            exact tracks.findable.erase (keepsPaths _ ⟨slotIdx, found, rfl, isHead, isLast⟩)
          case isFalse => exact tracks.findable
        simp only [pairStep, Mmap.call, accepted, if_true]
        exact ⟨_, _, tracks.removed found member effect findable⟩

/-- A key whose path is cut is no longer found, although its list is not
empty. -/
theorem Tracks.not_refines_of_cut (tracks : Tracks names m store chain spare) {m' : Mmap}
    {store' : Store} {chain' : Nat → List Nat} {spare' : List Nat} {bucketIdx other : Nat}
    {key : UInt64 × Int} (sound : Sound m' chain' spare')
    (keys : m'.keys = Function.update m.keys bucketIdx none)
    (inOther : m.keys other = some key)
    (cut : bucketIdx ∈ pathOf probeStep home hashTableSize m.keys key)
    (same : ∀ wireName qtype, names wireName → key = hashKey wireName qtype →
      store' (keyOf wireName qtype) = store (keyOf wireName qtype)) :
    ¬ Refines names (m', store') := by
  intro refines
  obtain ⟨wireName, isName, isKey⟩ := tracks.named other key inOther
  have ends : m'.findBucket (calculateHash wireName) key.2 = some bucketIdx := by
    rw [findBucket_eq, keys]
    refine Findable.findKey_erase_of_mem ?_
    rw [isKey] at cut
    exact cut
  have vacant : m'.keys bucketIdx = none := by rw [keys, Function.update_self]
  have empty := sound.represents.vacant bucketIdx
    (head_eq_none_iff.mpr (key_eq_none_iff.mp vacant))
  have lost : m'.getRecord wireName key.2 = [] := by
    rw [sound.getRecord_eq, ends, Option.elim_some, empty]
    rfl
  have kept : store' (keyOf wireName key.2) = (chain other).map m.entryAt :=
    (same wireName key.2 isName isKey).trans
      (tracks.stored other wireName key.2 isName (isKey ▸ inOther))
  have noEntries : [] = (chain other).map m.entryAt := by
    have answered : (m'.getRecord wireName key.2).map DNSResponseData.entry =
        store' (keyOf wireName key.2) := refines wireName isName key.2
    rwa [lost, kept] at answered
  have occupied : (m.hashTable other).nameHash ≠ 0 := fun zero => by
    cases (key_eq_none_iff.mpr zero).symm.trans inOther
  exact (tracks.sound.represents.chainLinked other _ (head_of_occupied occupied)).1
    (List.map_eq_nil_iff.mp noEntries.symm)

/-- **A call that cuts a path breaks the refinement.** -/
theorem Tracks.breaks (distinguished : Distinguished names)
    (tracks : Tracks names m store chain spare) {c : Call} (uses : c.Uses names)
    (cutsPath : ¬ m.KeepsPaths c) : ¬ Refines names (pairStep (m, store) c) := by
  simp only [Mmap.KeepsPaths, CutsNoPath, not_forall, not_not] at cutsPath
  obtain ⟨bucketIdx, empties, other, key, inOther, different, cut⟩ := cutsPath
  cases c with
  | append wireName qtype id data => exact empties.elim
  | update id data => exact empties.elim
  | delete wireName qtype =>
      obtain ⟨ends, occupied⟩ := empties
      rcases tracks.sound.deleteRecord_cases wireName qtype with
        ⟨-, vacant⟩ | ⟨bucketIdx', ends', here, accepted, effect⟩
      · exact absurd (vacant bucketIdx ends) occupied
      · obtain rfl : bucketIdx' = bucketIdx := Option.some.inj (ends'.symm.trans ends)
        simp only [pairStep, Mmap.call, accepted, if_true]
        refine tracks.not_refines_of_cut effect.sound effect.keys inOther cut ?_
        intro wireName' qtype' isName' isKey
        refine Function.update_of_ne (fun sameKey => different ?_) _ _
        have sameHash := (hashKey_eq_iff distinguished isName' uses).mpr sameKey
        rw [isKey, sameHash] at inOther
        exact tracks.findable.injective inOther here
  | deleteFromUuid id =>
      obtain ⟨slotIdx, found, rfl, isHead, isLast⟩ := empties
      rcases tracks.sound.deleteRecordFromUuid_cases id with
        ⟨missing, -⟩ | ⟨slotIdx', found', accepted, effect⟩
      · cases missing.symm.trans found
      · obtain rfl : slotIdx' = slotIdx := Option.some.inj (found'.symm.trans found)
        have member := tracks.sound.mem_chain_of_found tracks.covers found
        have single := (tracks.chain_eq_single_iff member).mp ⟨isHead, isLast⟩
        have keys := effect.keys
        rw [if_pos single] at keys
        simp only [pairStep, Mmap.call, accepted, if_true]
        refine tracks.not_refines_of_cut effect.sound keys inOther cut ?_
        intro wireName qtype isName isKey
        rw [isKey] at inOther
        rw [Store.apply_deleteFromUuid, tracks.stored other wireName qtype isName inOther]
        refine List.filter_eq_self.mpr fun entry isEntry => ?_
        obtain ⟨slot, inChain, rfl⟩ := List.mem_map.mp isEntry
        rw [decide_eq_true_iff]
        intro sameId
        obtain rfl := (tracks.entryAt_id found inChain).mp sameId
        exact different (tracks.sound.represents.disjoint _ _ slot inChain member)

end Tracks

/-! ## Every run -/

/-- Some chains and free list track the abstract store. -/
def Tracked (names : List UInt8 → Prop) (state : Mmap × Store) : Prop :=
  ∃ chain spare, Tracks names state.1 state.2 chain spare

theorem Tracked.fresh (names : List UInt8 → Prop) : Tracked names freshPair := by
  have noKeys : Mmap.fresh.keys = fun _ => none := by
    funext bucketIdx
    rw [Mmap.fresh_eq_freshTable]
    rfl
  have noKey : ∀ {bucketIdx key}, Mmap.fresh.keys bucketIdx ≠ some key := by
    intro bucketIdx key stored
    rw [noKeys] at stored
    cases stored
  have findable : Findable probeStep home hashTableSize Mmap.fresh.keys := by
    rw [noKeys]
    exact findable_empty
  have tracks : Tracks names Mmap.fresh (fun _ => []) (fun _ => [])
      (List.range maxDataRecords) :=
    ⟨Sound.fresh, Covers.range maxDataRecords, findable, fun _ _ stored => absurd stored noKey,
      fun _ _ _ _ stored => absurd stored noKey, fun _ _ _ _ => rfl⟩
  dsimp only [Tracked, freshPair]
  exact ⟨_, _, tracks⟩

/-! ## Appends alone -/

/-- What a lookup returns, without the buckets. -/
def Mmap.entries (m : Mmap) (wireName : List UInt8) (qtype : Int) : List Entry :=
  (m.getRecord wireName qtype).map DNSResponseData.entry

/-- An append finds room for its rdata, a bucket, a free id entry and a free
slot. -/
structure Mmap.CanAppend (m : Mmap) (wireName : List UInt8) (qtype : Int) (id : CassUuid)
    (data : RecordData) : Prop where
  fits : data.Fits
  bucket : m.findBucket (calculateHash wireName) qtype ≠ none
  idFree : m.idHashTable (idSlot id) = -1
  spare : m.freeListHeadIdx ≠ -1

/-- The cache tracks some abstract store. -/
def TracksSome (names : List UInt8 → Prop) (m : Mmap) : Prop := ∃ store, Tracked names (m, store)

theorem TracksSome.fresh (names : List UInt8 → Prop) : TracksSome names Mmap.fresh := by
  have tracked := Tracked.fresh names
  rw [freshPair] at tracked
  exact ⟨_, tracked⟩

theorem Mmap.entries_fresh (wireName : List UInt8) (qtype : Int) :
    Mmap.fresh.entries wireName qtype = [] := by
  obtain ⟨chain, spare, tracks⟩ := Tracked.fresh fun _ => True
  have refines := tracks.refines
  dsimp only [Refines, freshPair] at refines
  exact refines wireName trivial qtype

section Appends

variable {names : List UInt8 → Prop} {m : Mmap} {wireName : List UInt8} {qtype : Int}
  {id : CassUuid} {data : RecordData}

/-- An append that cannot be made changes nothing. -/
theorem TracksSome.not_appended (tracked : TracksSome names m)
    (cannot : ¬ m.CanAppend wireName qtype id data) :
    m.appendRecord wireName qtype id data = (false, m) := by
  obtain ⟨store, chain, spare, tracks⟩ := tracked
  rcases tracks.sound.appendRecord_cases wireName qtype id data with
    refused | ⟨bucketIdx, slotIdx, rest, rfl, fits, ends, free, -, -⟩
  · exact refused
  · have head : m.freeListHeadIdx = (slotIdx : Int) := tracks.sound.represents.spareLinked.1
    exact absurd ⟨fits, by rw [ends]; exact Option.some_ne_none _, free, by omega⟩ cannot

/-- **An append that can be made** puts its record in front of the lookups of its
key, and leaves the other lookups as they are. -/
theorem TracksSome.appended (distinguished : Distinguished names) (tracked : TracksSome names m)
    (isName : names wireName) (can : m.CanAppend wireName qtype id data) :
    TracksSome names (m.appendRecord wireName qtype id data).2 ∧
      ∀ other, names other → ∀ qtype',
        (m.appendRecord wireName qtype id data).2.entries other qtype' =
          if keyOf other qtype' = keyOf wireName qtype then
            data.entry id :: m.entries other qtype'
          else m.entries other qtype' := by
  obtain ⟨store, chain, spare, tracks⟩ := tracked
  have tracks : Tracks names m store chain spare := tracks
  obtain ⟨bucketIdx, ends⟩ := Option.ne_none_iff_exists'.mp can.bucket
  cases spare with
  | nil => exact absurd tracks.sound.represents.spareLinked can.spare
  | cons slotIdx rest =>
      obtain ⟨-, effect⟩ := tracks.sound.appendRecord_accepted can.fits ends can.idFree
      have after := tracks.appended distinguished isName ends can.idFree effect
      refine ⟨⟨_, _, _, after⟩, fun other isOther qtype' => ?_⟩
      have before : m.entries other qtype' = store (keyOf other qtype') :=
        tracks.refines other isOther qtype'
      have looked : (m.appendRecord wireName qtype id data).2.entries other qtype' =
          store.apply (.append wireName qtype id data) (keyOf other qtype') :=
        after.refines other isOther qtype'
      rw [looked, before, Store.apply]
      split
      · next same => rw [same, Function.update_self]
      · next different => rw [Function.update_of_ne different]

end Appends

/-- **The record cache refines its abstract store exactly along the runs that
cut no path.** From a fresh store, by calls whose names the hash tells apart,
every lookup returns the abstract list in every state of the run if and only if
no deletion empties a bucket that the probe for another stored key passes. -/
theorem refines_iff_along {names : List UInt8 → Prop} (distinguished : Distinguished names)
    {calls : List Call} (uses : ∀ c ∈ calls, c.Uses names) :
    Run.Throughout pairStep (Refines names) freshPair calls ↔
      Run.Along pairStep (fun state c => state.1.KeepsPaths c) freshPair calls := by
  refine Run.throughout_iff_along ?_ ?_ ?_ (Tracked.fresh names) uses
  · rintro state ⟨chain, spare, tracks⟩
    exact tracks.refines
  · rintro state c isValid ⟨chain, spare, tracks⟩ keepsPaths
    exact tracks.step distinguished isValid keepsPaths
  · rintro state c isValid ⟨chain, spare, tracks⟩ cutsPath
    exact tracks.breaks distinguished isValid cutsPath

/-- The wire name `a`. -/
def nameA : List UInt8 := [1, 97, 0]

/-- The wire name `bh`, whose probe starts in the same bucket as that of
`a`. -/
def nameBH : List UInt8 := [2, 98, 104, 0]

/-- An address record for the two names. -/
def addressData : RecordData := ⟨60, 0, ⟨0, 0⟩, false, false, [10, 0, 0, 1]⟩

theorem distinguished_two : Distinguished (fun wireName => wireName ∈ [nameA, nameBH]) where
  nonzero wireName member := by
    simp only [List.mem_cons, List.not_mem_nil, or_false] at member
    rcases member with rfl | rfl <;> decide
  injective first second isFirst isSecond := by
    simp only [List.mem_cons, List.not_mem_nil, or_false] at isFirst isSecond
    rcases isFirst with rfl | rfl <;> rcases isSecond with rfl | rfl <;> decide

/-- Storing and deleting one name keeps the refinement. -/
theorem refines_iff_along_two_calls :
    Run.Throughout pairStep (Refines (fun wireName => wireName ∈ [nameA, nameBH])) freshPair
        [.append nameA 1 ⟨1, 1⟩ addressData, .delete nameA 1] ↔
      Run.Along pairStep (fun state c => state.1.KeepsPaths c) freshPair
        [.append nameA 1 ⟨1, 1⟩ addressData, .delete nameA 1] :=
  refines_iff_along distinguished_two (by simp [Call.Uses])

/-- **A deletion can hide another name.** The records of `bh` stand one bucket
behind those of `a`. When `a` is deleted, the probe for `bh` ends in the emptied
bucket. -/
theorem delete_hides_other_name :
    ¬ ∀ (names : List UInt8 → Prop) (calls : List Call), Distinguished names →
      (∀ c ∈ calls, c.Uses names) → Run.Throughout pairStep (Refines names) freshPair calls := by
  intro always
  have atEnd := (always _ [.append nameA 1 ⟨1, 1⟩ addressData,
    .append nameBH 1 ⟨2, 2⟩ addressData, .delete nameA 1] distinguished_two
    (by simp [Call.Uses])).last nameBH (by simp) 1
  rw [freshPair, Mmap.fresh_eq_freshTable] at atEnd
  revert atEnd
  decide +kernel

end EdgeDNS.Records
