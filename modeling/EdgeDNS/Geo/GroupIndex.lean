import EdgeDNS.Geo.Group
import EdgeDNS.Library.Run
import EdgeDNS.Library.Shelves

/-!
# The index of the groups

An entry says at which index of the vector of its location its id stands, and an
id is removed by moving the last id of the vector to its index. For each group
the two maps are shelves of ids (`Shown`): loading a row with a new id puts it on
a shelf, and removing an id takes it.

So loading and removing keep the maps in step (`index_bookkeeping`).
-/

set_option autoImplicit false

namespace EdgeDNS.Geo

open Utils

/-! ## Maps of maps -/

section Maps

variable {Key Value : Type} [DecidableEq Key] (map : CassUuid → Key → Value)
  {groupId other : CassUuid} (key : Key) (value : Value)

theorem setIn_self : setIn map groupId key value groupId =
    Function.update (map groupId) key value := Function.update_self ..

theorem setIn_other (isOther : other ≠ groupId) : setIn map groupId key value other = map other :=
  Function.update_of_ne isOther ..

end Maps

/-! ## A group as shelves -/

/-- Where an entry says that its id stands. -/
def IpEntry.slot (entry : IpEntry) : List UInt8 × Nat := (entry.countryCode, entry.indexInVector)

/-- What an entry holds besides its index. -/
def IpEntry.content (entry : IpEntry) : List UInt8 × List UInt8 × Int :=
  (entry.countryCode, entry.ip, entry.priority)

/-- The maps of a group are the shelves of its ids. -/
structure Shown (groups : Groups) (g : CassUuid) (shelves : Shelves CassUuid (List UInt8)) :
    Prop where
  entries : ∀ id, (groups.entries g id).map IpEntry.slot = shelves.noted id
  vectors : groups.groupEntries g = shelves.shelf

theorem shown_empty (g : CassUuid) : Shown emptyGroups g .empty := ⟨fun _ => rfl, rfl⟩

section Steps

variable {groups : Groups} {g : CassUuid} {shelves : Shelves CassUuid (List UInt8)}

/-- A group that keeps its maps shows the same shelves. -/
theorem Shown.congr {groups' : Groups} (shown : Shown groups g shelves)
    (entries : groups'.entries g = groups.entries g)
    (vectors : groups'.groupEntries g = groups.groupEntries g) : Shown groups' g shelves :=
  ⟨fun id => by rw [entries]; exact shown.entries id, vectors.trans shown.vectors⟩

theorem Shown.absent (shown : Shown groups g shelves) {id : CassUuid}
    (absent : groups.entries g id = none) : shelves.noted id = none := by
  rw [← shown.entries, absent]
  rfl

theorem insertRow_other (isLater : CassUuid → CassUuid → Bool) (row : EntryRow)
    (isOther : g ≠ row.groupId) :
    (insertRow isLater groups row).entries g = groups.entries g ∧
      (insertRow isLater groups row).groupEntries g = groups.groupEntries g :=
  ⟨setIn_other _ _ _ isOther, setIn_other _ _ _ isOther⟩

/-- Loading a row with a new id puts the id on a shelf. -/
theorem Shown.insertRow {row : EntryRow} (shown : Shown groups row.groupId shelves)
    (isLater : CassUuid → CassUuid → Bool) (fresh : shelves.noted row.id = none) :
    Shown (insertRow isLater groups row) row.groupId
      (shelves.put row.id row.locationCode fresh) where
  entries id := by
    simp only [Geo.insertRow, setIn_self, shown.vectors, Shelves.put, Function.update_apply]
    split
    · simp [IpEntry.slot]
    · exact shown.entries id
  vectors := by
    simp only [Geo.insertRow, setIn_self, shown.vectors, Shelves.put]

/-- Only the entry of an id that is moved changes when a vector is shortened. -/
structure Shortened (groups after : Groups) (g : CassUuid)
    (shelves : Shelves CassUuid (List UInt8)) (loc : List UInt8) (idx : Nat) (id : CassUuid) :
    Prop where
  vectors : after.groupEntries =
    setIn groups.groupEntries g loc (Shelves.swapRemove (shelves.shelf loc) idx)
  version : after.version = groups.version
  elsewhere : ∀ other, other ≠ g → after.entries other = groups.entries other
  slots : ∀ other, other ≠ id → (after.entries g other).map IpEntry.slot =
    if (shelves.shelf loc).getLast? = some other then some (loc, idx) else shelves.noted other
  kept : ∀ other, other ≠ id → (shelves.shelf loc).getLast? ≠ some other →
    after.entries g other = groups.entries g other
  contents : ∀ other, other ≠ id →
    (after.entries g other).map IpEntry.content = (groups.entries g other).map IpEntry.content

/-- Removing the id at the end of a vector moves none. -/
theorem shortened_last {loc : List UInt8} {idx : Nat} {id : CassUuid}
    (shown : Shown groups g shelves) (isNoted : shelves.noted id = some (loc, idx))
    (isLast : idx = (shelves.shelf loc).length - 1) :
    Shortened groups (removeFromVector g loc idx groups) g shelves loc idx id := by
  have atIndex := (shelves.coherent id loc idx).mp isNoted
  have inside := (List.getElem?_eq_some_iff.mp atIndex).1
  have lastIs : (shelves.shelf loc).getLast? = some id := by
    rw [List.getLast?_eq_getElem?, ← isLast]
    exact atIndex
  have noMove : Shelves.swapRemove (shelves.shelf loc) idx = (shelves.shelf loc).dropLast := by
    rw [Shelves.swapRemove, lastIs]
    simp only
    rw [← (List.getElem?_eq_some_iff.mp atIndex).2, List.set_getElem_self]
  have isShortened : removeFromVector g loc idx groups =
      { groups with
        groupEntries := setIn groups.groupEntries g loc
          (Shelves.swapRemove (shelves.shelf loc) idx) } := by
    simp only [removeFromVector, shown.vectors, if_pos inside, noMove]
    rw [if_neg (not_not.mpr isLast)]
  rw [isShortened]
  have notLast : ∀ other, other ≠ id → (shelves.shelf loc).getLast? ≠ some other := by
    intro other isOther same
    exact isOther (Option.some.inj (same.symm.trans lastIs))
  exact
    { vectors := rfl, version := rfl, elsewhere := fun _ _ => rfl
      slots := fun other isOther => by
        rw [if_neg (notLast other isOther)]
        exact shown.entries other
      kept := fun _ _ _ => rfl
      contents := fun _ _ => rfl }

/-- Removing another id moves the last one to its index. -/
theorem shortened_moved {loc : List UInt8} {idx : Nat} {id : CassUuid}
    (shown : Shown groups g shelves) (isNoted : shelves.noted id = some (loc, idx))
    (notLast : idx ≠ (shelves.shelf loc).length - 1) :
    Shortened groups (removeFromVector g loc idx groups) g shelves loc idx id := by
  have atIndex := (shelves.coherent id loc idx).mp isNoted
  have inside := (List.getElem?_eq_some_iff.mp atIndex).1
  have notEmpty : shelves.shelf loc ≠ [] :=
    List.ne_nil_of_length_pos (Nat.zero_lt_of_lt inside)
  obtain ⟨last, lastIs⟩ : ∃ last, (shelves.shelf loc).getLast? = some last :=
    ⟨_, List.getLast?_eq_some_getLast notEmpty⟩
  have isLastD : (shelves.shelf loc).getLastD ⟨0, 0⟩ = last := by
    rw [List.getLastD_eq_getLast?, lastIs]
    rfl
  have atEnd := lastIs
  rw [List.getLast?_eq_getElem?] at atEnd
  have noted := shown.entries last
  rw [(shelves.coherent _ _ _).mpr atEnd] at noted
  obtain ⟨lastEntry, isEntry, isSlot⟩ := Option.map_eq_some_iff.mp noted
  have location : lastEntry.countryCode = loc := (Prod.mk.inj isSlot).1
  have isShortened : removeFromVector g loc idx groups =
      { groups with
        groupEntries := setIn groups.groupEntries g loc
          (Shelves.swapRemove (shelves.shelf loc) idx)
        entries := setIn groups.entries g last
          (some { lastEntry with indexInVector := idx }) } := by
    simp only [removeFromVector, shown.vectors, if_pos inside, isLastD, isEntry,
      Option.getD_some, Shelves.swapRemove, lastIs]
    rw [if_pos notLast]
  rw [isShortened]
  exact
    { vectors := rfl, version := rfl
      elsewhere := fun other isOther => setIn_other _ _ _ isOther
      slots := fun other _ => by
        simp only [setIn_self, Function.update_apply, lastIs, Option.some.injEq,
          eq_comm (a := last)]
        split
        · simp [IpEntry.slot, location]
        · exact shown.entries other
      kept := fun other _ isOther => by
        rw [lastIs] at isOther
        simp only [setIn_self]
        exact Function.update_of_ne (fun same => isOther (congrArg some same.symm)) ..
      contents := fun other _ => by
        simp only [setIn_self, Function.update_apply]
        split
        · next same =>
            rw [same, isEntry]
            rfl
        · rfl }

theorem shortened {loc : List UInt8} {idx : Nat} {id : CassUuid}
    (shown : Shown groups g shelves) (isNoted : shelves.noted id = some (loc, idx)) :
    Shortened groups (removeFromVector g loc idx groups) g shelves loc idx id := by
  by_cases isLast : idx = (shelves.shelf loc).length - 1
  · exact shortened_last shown isNoted isLast
  · exact shortened_moved shown isNoted isLast

/-- Removing an id that is there, by parts. -/
theorem incrementalRemoved_eq {id : CassUuid} {entry : IpEntry}
    (isEntry : groups.entries g id = some entry) :
    incrementalRemoved g id groups =
      let after := removeFromVector g entry.countryCode entry.indexInVector groups
      { after with entries := setIn after.entries g id none } := by
  rw [incrementalRemoved, isEntry]

theorem incrementalRemoved_absent {id : CassUuid} (absent : groups.entries g id = none) :
    incrementalRemoved g id groups = groups := by
  rw [incrementalRemoved, absent]

theorem Shown.noted (shown : Shown groups g shelves) {id : CassUuid} {entry : IpEntry}
    (isEntry : groups.entries g id = some entry) : shelves.noted id = some entry.slot := by
  rw [← shown.entries, isEntry]
  rfl

/-- Removing an id takes it from its shelf. -/
theorem Shown.removed (shown : Shown groups g shelves) (id : CassUuid) :
    Shown (incrementalRemoved g id groups) g (shelves.take id) := by
  cases isEntry : groups.entries g id with
  | none =>
      rw [incrementalRemoved_absent isEntry, Shelves.take_absent (shown.absent isEntry)]
      exact shown
  | some entry =>
      have isNoted := shown.noted isEntry
      have effect := shortened shown isNoted
      rw [incrementalRemoved_eq isEntry, Shelves.take_noted isNoted]
      refine ⟨fun other => ?_, ?_⟩
      · simp only [setIn_self, Function.update_apply, Shelves.takeAt]
        by_cases isId : other = id
        · rw [if_pos isId, if_pos isId]
          rfl
        · rw [if_neg isId, if_neg isId]
          exact effect.slots other isId
      · simp only [effect.vectors, setIn_self, shown.vectors, Shelves.takeAt]

theorem Shown.removed_other (shown : Shown groups g shelves) (id : CassUuid) {other : CassUuid}
    (isOther : other ≠ g) :
    (incrementalRemoved g id groups).entries other = groups.entries other ∧
      (incrementalRemoved g id groups).groupEntries other = groups.groupEntries other := by
  cases isEntry : groups.entries g id with
  | none =>
      rw [incrementalRemoved_absent isEntry]
      exact ⟨rfl, rfl⟩
  | some entry =>
      have effect := shortened shown (shown.noted isEntry)
      rw [incrementalRemoved_eq isEntry]
      refine ⟨(setIn_other _ _ _ isOther).trans (effect.elsewhere other isOther), ?_⟩
      simp only [effect.vectors]
      exact setIn_other _ _ _ isOther

/-- Removing takes exactly the given id away: all others stay in their vectors and
keep what their entries hold, and other groups and locations stay as they are. -/
structure RemovesExactly (g id : CassUuid) (groups after : Groups) : Prop where
  absent : groups.entries g id = none → after = groups
  gone : after.entries g id = none
  contents : ∀ other, other ≠ id →
    (after.entries g other).map IpEntry.content = (groups.entries g other).map IpEntry.content
  ids : ∀ loc other, other ∈ after.groupEntries g loc ↔
    other ∈ groups.groupEntries g loc ∧ other ≠ id
  elsewhere : ∀ other, other ≠ g →
    after.entries other = groups.entries other ∧
      after.groupEntries other = groups.groupEntries other
  locations : ∀ entry loc, groups.entries g id = some entry → entry.countryCode ≠ loc →
    after.groupEntries g loc = groups.groupEntries g loc ∧
      ∀ other kept, groups.entries g other = some kept → kept.countryCode = loc →
        after.entries g other = some kept
  versions : after.version = groups.version

theorem Shown.removesExactly (shown : Shown groups g shelves) (id : CassUuid) :
    RemovesExactly g id groups (incrementalRemoved g id groups) := by
  have elsewhere : ∀ other, other ≠ g →
      (incrementalRemoved g id groups).entries other = groups.entries other ∧
        (incrementalRemoved g id groups).groupEntries other = groups.groupEntries other :=
    fun _ isOther => shown.removed_other id isOther
  have ids : ∀ loc other, other ∈ (incrementalRemoved g id groups).groupEntries g loc ↔
      other ∈ groups.groupEntries g loc ∧ other ≠ id := by
    intro loc other
    rw [(shown.removed id).vectors, shown.vectors]
    exact Shelves.mem_take_iff other loc
  cases isEntry : groups.entries g id with
  | none =>
      have unchanged := incrementalRemoved_absent isEntry
      rw [unchanged] at ids elsewhere ⊢
      exact
        { absent := fun _ => rfl, gone := isEntry, contents := fun _ _ => rfl, ids := ids
          elsewhere := elsewhere
          locations := fun _ _ present => by rw [isEntry] at present; cases present
          versions := rfl }
  | some entry =>
      have isNoted := shown.noted isEntry
      have effect := shortened shown isNoted
      rw [incrementalRemoved_eq isEntry] at ids elsewhere ⊢
      have others : ∀ other, other ≠ id →
          setIn (removeFromVector g entry.countryCode entry.indexInVector groups).entries g id none
            g other = (removeFromVector g entry.countryCode entry.indexInVector groups).entries g
              other := by
        intro other isOther
        rw [setIn_self]
        exact Function.update_of_ne isOther ..
      exact
        { absent := fun absent => by rw [isEntry] at absent; cases absent
          gone := by
            simp only [setIn_self]
            exact Function.update_self ..
          contents := fun other isOther => by
            simp only [others other isOther]
            exact effect.contents other isOther
          ids := ids
          elsewhere := elsewhere
          locations := fun entry' loc present isOther => by
            obtain rfl := Option.some.inj (isEntry.symm.trans present)
            refine ⟨?_, fun other kept isKept isLoc => ?_⟩
            · simp only [effect.vectors, setIn_self]
              exact Function.update_of_ne (Ne.symm isOther) ..
            · have notId : other ≠ id := by
                rintro rfl
                rw [isEntry] at isKept
                exact isOther (isLoc ▸ congrArg IpEntry.countryCode (Option.some.inj isKept))
              have notLast : (shelves.shelf entry.countryCode).getLast? ≠ some other := by
                intro isLast
                obtain ⟨index, noted⟩ := shelves.mem_shelf_iff.mp (List.mem_of_getLast? isLast)
                rw [shown.noted isKept] at noted
                exact isOther (isLoc ▸ (Prod.mk.inj (Option.some.inj noted)).1).symm
              simp only [others other notId]
              exact (effect.kept other notId notLast).trans isKept
          versions := effect.version }

end Steps

/-! ## What is kept in step -/

/-- The vectors and the entries of a group say the same. -/
structure IndexedGroup (groups : Groups) (g : CassUuid) : Prop where
  nodup : ∀ loc, (groups.groupEntries g loc).Nodup
  ids : ∀ loc id, id ∈ groups.groupEntries g loc ↔
    ∃ entry, groups.entries g id = some entry ∧ entry.countryCode = loc
  placed : ∀ id entry, groups.entries g id = some entry →
    (groups.groupEntries g entry.countryCode)[entry.indexInVector]? = some id

/-- Every group is indexed. -/
def Indexed (groups : Groups) : Prop := ∀ g, IndexedGroup groups g

theorem Shown.indexed {groups : Groups} {g : CassUuid} {shelves : Shelves CassUuid (List UInt8)}
    (shown : Shown groups g shelves) : IndexedGroup groups g where
  nodup loc := by
    rw [shown.vectors]
    exact shelves.nodup loc
  ids loc id := by
    rw [shown.vectors, shelves.mem_shelf_iff]
    constructor
    · rintro ⟨index, isNoted⟩
      rw [← shown.entries] at isNoted
      obtain ⟨entry, isEntry, isSlot⟩ := Option.map_eq_some_iff.mp isNoted
      exact ⟨entry, isEntry, (Prod.mk.inj isSlot).1⟩
    · rintro ⟨entry, isEntry, rfl⟩
      exact ⟨entry.indexInVector, shown.noted isEntry⟩
  placed id entry isEntry := by
    rw [shown.vectors, ← shelves.coherent]
    exact shown.noted isEntry

/-- Every group is shelves of its ids. -/
def AllShown (groups : Groups) : Prop := ∀ g, ∃ shelves, Shown groups g shelves

theorem AllShown.indexed {groups : Groups} (shown : AllShown groups) : Indexed groups := by
  intro g
  obtain ⟨shelves, shows⟩ := shown g
  exact shows.indexed

theorem allShown_empty : AllShown emptyGroups := fun g => ⟨_, shown_empty g⟩

theorem AllShown.insertRow {groups : Groups} (shown : AllShown groups)
    (isLater : CassUuid → CassUuid → Bool) {row : EntryRow}
    (fresh : groups.entries row.groupId row.id = none) :
    AllShown (insertRow isLater groups row) := by
  intro g
  obtain ⟨shelves, shows⟩ := shown g
  by_cases isGroup : g = row.groupId
  · subst isGroup
    exact ⟨_, shows.insertRow isLater (shows.absent fresh)⟩
  · obtain ⟨entries, vectors⟩ := @insertRow_other groups g isLater row isGroup
    exact ⟨shelves, shows.congr entries vectors⟩

theorem AllShown.removed {groups : Groups} (shown : AllShown groups) (g id : CassUuid) :
    AllShown (incrementalRemoved g id groups) := by
  intro other
  obtain ⟨shelves, shows⟩ := shown other
  by_cases isGroup : other = g
  · subst isGroup
    exact ⟨_, shows.removed id⟩
  · obtain ⟨_, showsGroup⟩ := shown g
    obtain ⟨entries, vectors⟩ := showsGroup.removed_other id isGroup
    exact ⟨shelves, shows.congr entries vectors⟩

/-! ## Runs -/

/-- The group and the id of a row. -/
def EntryRow.key (row : EntryRow) : CassUuid × CassUuid := (row.groupId, row.id)

theorem insertRow_entries_of_ne (isLater : CassUuid → CassUuid → Bool) (groups : Groups)
    {row : EntryRow} {g id : CassUuid} (isOther : (g, id) ≠ row.key) :
    (insertRow isLater groups row).entries g id = groups.entries g id := by
  by_cases isGroup : g = row.groupId
  · subst isGroup
    have otherId : id ≠ row.id := fun same => isOther (by rw [same, EntryRow.key])
    simp only [insertRow, setIn_self]
    exact Function.update_of_ne otherId ..
  · rw [(@insertRow_other groups g isLater row isGroup).1]

/-- Rows whose ids are new keep the maps in step. -/
theorem loaded_throughout (isLater : CassUuid → CassUuid → Bool) {rows : List EntryRow}
    (unique : (rows.map EntryRow.key).Nodup) {groups : Groups} (shown : AllShown groups)
    (fresh : ∀ row ∈ rows, groups.entries row.groupId row.id = none) :
    Run.Throughout (insertRow isLater) AllShown groups rows := by
  induction rows generalizing groups with
  | nil => exact shown
  | cons row rows ih =>
      rw [List.map_cons, List.nodup_cons] at unique
      have isFresh := fresh row (List.mem_cons_self ..)
      refine ⟨shown, ih unique.2 (shown.insertRow isLater isFresh) fun other member => ?_⟩
      have isOther : (other.groupId, other.id) ≠ row.key := by
        intro same
        exact unique.1 (same ▸ List.mem_map_of_mem member)
      rw [insertRow_entries_of_ne isLater groups isOther]
      exact fresh other (List.mem_cons_of_mem _ member)

/-- At the start the maps are loaded from all rows of the database. -/
theorem allShown_initIpEntries {database : GroupDatabase}
    (unique : ∀ rows, database.allEntries = some rows → (rows.map EntryRow.key).Nodup) :
    AllShown (initIpEntries database emptyGroups) := by
  rw [initIpEntries]
  cases isRows : database.allEntries with
  | none => exact allShown_empty
  | some rows =>
      exact (loaded_throughout laterTime (unique rows isRows) allShown_empty fun _ _ => rfl).last

/-- **The maps are in step from the start.** -/
theorem initIpEntries_indexed {database : GroupDatabase}
    (unique : ∀ rows, database.allEntries = some rows → (rows.map EntryRow.key).Nodup) :
    Indexed (initIpEntries database emptyGroups) := (allShown_initIpEntries unique).indexed

/-- Remove an id from a group. -/
def removeStep (groups : Groups) (removal : CassUuid × CassUuid) : Groups :=
  incrementalRemoved removal.1 removal.2 groups

/-- **The maps of the groups stay in step**, whatever is loaded with new ids and
whatever is then removed, and every removal takes exactly its id away. -/
theorem index_bookkeeping (isLater : CassUuid → CassUuid → Bool) (rows : List EntryRow)
    (unique : (rows.map EntryRow.key).Nodup) (removals : List (CassUuid × CassUuid)) :
    Run.Throughout (insertRow isLater) Indexed emptyGroups rows ∧
      Run.Throughout removeStep Indexed (Run.exec (insertRow isLater) emptyGroups rows) removals ∧
      Run.Along removeStep (fun groups removal =>
          RemovesExactly removal.1 removal.2 groups (removeStep groups removal))
        (Run.exec (insertRow isLater) emptyGroups rows) removals := by
  have loading := loaded_throughout isLater unique allShown_empty fun _ _ => rfl
  have loaded := loading.last
  have removing := @Run.throughout_invariant _ _ removeStep AllShown (fun _ => True)
    (fun _ removal _ shown => shown.removed removal.1 removal.2) removals _ loaded
    fun _ _ => trivial
  refine ⟨loading.mono fun _ shown => shown.indexed, removing.mono fun _ shown => shown.indexed, ?_⟩
  exact @Run.Along.of_invariant _ _ removeStep AllShown (fun _ _ => True) (fun _ => True) _
    (fun _ removal _ shown _ => shown.removed removal.1 removal.2)
    (fun _ removal _ shown _ => by
      obtain ⟨shelves, shows⟩ := shown removal.1
      exact shows.removesExactly removal.2) removals _
    loaded (fun _ _ => trivial) (Run.along_of_forall fun _ _ _ => trivial)

/-- Two entries of a group for one location, of which the first is removed. -/
def sampleRows : List EntryRow :=
  [⟨⟨1, 0⟩, ⟨7, 7⟩, ⟨1, 0⟩, [85, 83], [49, 46, 50, 46, 51, 46, 52], 0⟩,
    ⟨⟨2, 0⟩, ⟨7, 7⟩, ⟨2, 0⟩, [85, 83], [49, 46, 50, 46, 51, 46, 53], 0⟩]

theorem index_bookkeeping_sample :
    Run.Throughout (insertRow laterTime) Indexed emptyGroups sampleRows ∧
      Run.Throughout removeStep Indexed (Run.exec (insertRow laterTime) emptyGroups sampleRows)
        [(⟨7, 7⟩, ⟨1, 0⟩)] ∧
      Run.Along removeStep (fun groups removal =>
          RemovesExactly removal.1 removal.2 groups (removeStep groups removal))
        (Run.exec (insertRow laterTime) emptyGroups sampleRows) [(⟨7, 7⟩, ⟨1, 0⟩)] :=
  index_bookkeeping laterTime sampleRows (by decide) [(⟨7, 7⟩, ⟨1, 0⟩)]

end EdgeDNS.Geo
