import EdgeDNS.Geo.GroupIndex
import EdgeDNS.Library.KeyedLog
import Mathlib.Data.List.Dedup

/-!
# Reloading a group

The database holds the entries of a group, each with the version of its last
write, and a log with a row for each change. `fullReload` loads the entries as
they are. `incrementalReload` replays the removals of the log, and then loads
every entry that is newer than the group was, also those that are loaded
already: such an entry comes to stand in a vector twice, or in the vector of its
old location as well.

`reload_agrees_iff` says when the two agree all the same. The order in which the
database compares versions is a parameter, and so is the order of the rows.
-/

set_option autoImplicit false

namespace EdgeDNS.Geo

open Utils

/-! ## The database over time -/

/-- A change of an entry: a removal when its action is 1, else a write of what the
entry then holds. -/
structure Change where
  version : CassUuid
  entryId : CassUuid
  action : Int
  locationCode : List UInt8
  ip : List UInt8
  priority : Int
deriving DecidableEq, Repr

/-- The row that a change writes, if it is no removal. -/
def Change.written (g : CassUuid) (change : Change) : Option EntryRow :=
  if change.action = 1 then none
  else some ⟨change.entryId, g, change.version, change.locationCode, change.ip, change.priority⟩

/-- The row of a change in the log. -/
def Change.logged (g : CassUuid) (change : Change) : VersionRow :=
  ⟨g, change.version, change.entryId, change.action⟩

/-- The entries of a group after a history. -/
def tableOf (g : CassUuid) (history : List Change) : CassUuid → Option EntryRow :=
  KeyedLog.table Change.entryId (Change.written g) (fun _ => none) history

/-- The rows of the entries that are asked for, each once, in any order. -/
structure Answers (rows : List EntryRow) (table : CassUuid → Option EntryRow)
    (asked : EntryRow → Prop) : Prop where
  unique : (rows.map EntryRow.id).Nodup
  rows : ∀ row, row ∈ rows ↔ table row.id = some row ∧ asked row

/-- The database holds a group after a history. -/
structure GroupDatabase.Holds (database : GroupDatabase) (before : CassUuid → CassUuid → Prop)
    (g : CassUuid) (history : List Change) : Prop where
  entriesOf : ∃ rows, database.entriesOf g = some rows ∧
    Answers rows (tableOf g history) fun _ => True
  entriesSince : ∀ version, ∃ rows, database.entriesSince g version = some rows ∧
    Answers rows (tableOf g history) fun row => before version row.version
  versionsSince : ∀ version, ∃ rows, database.versionsSince g version = some rows ∧
    ∀ row, row ∈ rows ↔
      ∃ change ∈ history, row = change.logged g ∧ before version change.version

/-- The version of a group after its entries are loaded: that of the first row with
the latest time, unless the group was later before. -/
def watermark (version : CassUuid) (rows : List EntryRow) : CassUuid :=
  rows.foldl (fun version row => if laterTime version row.version then row.version else version)
    version

/-! ## Loading rows -/

/-- What an entry made from a row holds besides its index. -/
def EntryRow.content (row : EntryRow) : List UInt8 × List UInt8 × Int :=
  (row.locationCode, ipv4ToWire row.ip, row.priority)

section Loading

variable {g : CassUuid} {rows : List EntryRow} (isLater : CassUuid → CassUuid → Bool)

/-- The vectors grow by the ids of the rows for their location. -/
theorem loaded_vectors (ofGroup : ∀ row ∈ rows, row.groupId = g) (groups : Groups)
    (loc : List UInt8) :
    (rows.foldl (insertRow isLater) groups).groupEntries g loc =
      groups.groupEntries g loc ++
        (rows.filter fun row => row.locationCode = loc).map EntryRow.id := by
  induction rows generalizing groups with
  | nil => exact (List.append_nil _).symm
  | cons row rows ih =>
      obtain rfl := ofGroup row (List.mem_cons_self ..)
      rw [List.foldl_cons, ih fun other member => ofGroup other (List.mem_cons_of_mem _ member)]
      simp only [insertRow, setIn_self, Function.update_apply]
      by_cases isLoc : loc = row.locationCode
      · simp [isLoc]
      · rw [if_neg isLoc, List.filter_cons_of_neg (by simpa using Ne.symm isLoc)]

/-- An id that no row has keeps its entry. -/
theorem loaded_untouched {id : CassUuid} (untouched : ∀ row ∈ rows, row.id ≠ id)
    (groups : Groups) :
    (rows.foldl (insertRow isLater) groups).entries g id = groups.entries g id := by
  induction rows generalizing groups with
  | nil => rfl
  | cons row rows ih =>
      have isOther : (g, id) ≠ row.key := by
        intro same
        exact untouched row (List.mem_cons_self ..) (Prod.mk.inj same).2.symm
      rw [List.foldl_cons, ih fun other member => untouched other (List.mem_cons_of_mem _ member),
        insertRow_entries_of_ne isLater groups isOther]

/-- The id of a row gets the entry that the row makes. -/
theorem loaded_row (ofGroup : ∀ row ∈ rows, row.groupId = g)
    (unique : (rows.map EntryRow.id).Nodup) {row : EntryRow} (member : row ∈ rows)
    (groups : Groups) :
    ((rows.foldl (insertRow isLater) groups).entries g row.id).map IpEntry.content =
      some row.content := by
  obtain ⟨first, others, rfl⟩ := List.append_of_mem member
  rw [List.map_append, List.map_cons] at unique
  have untouched : ∀ other ∈ others, other.id ≠ row.id := by
    intro other inOthers same
    have behind := (List.nodup_append.mp unique).2.1
    exact (List.nodup_cons.mp behind).1 (same ▸ List.mem_map_of_mem inOthers)
  obtain rfl := ofGroup row member
  rw [List.foldl_append, List.foldl_cons, loaded_untouched isLater untouched]
  simp only [insertRow, setIn_self, Function.update_self]
  rfl

/-- Rows with new ids keep the maps of a group in step. -/
theorem loaded_shown (ofGroup : ∀ row ∈ rows, row.groupId = g)
    (unique : (rows.map EntryRow.id).Nodup) {groups : Groups}
    {shelves : Shelves CassUuid (List UInt8)} (shown : Shown groups g shelves)
    (fresh : ∀ row ∈ rows, groups.entries g row.id = none) :
    ∃ shelves, Shown (rows.foldl (insertRow isLater) groups) g shelves := by
  induction rows generalizing groups shelves with
  | nil => exact ⟨shelves, shown⟩
  | cons row rows ih =>
      obtain rfl := ofGroup row (List.mem_cons_self ..)
      rw [List.map_cons, List.nodup_cons] at unique
      have isFresh := shown.absent (fresh row (List.mem_cons_self ..))
      refine ih (fun other member => ofGroup other (List.mem_cons_of_mem _ member)) unique.2
        (shown.insertRow isLater isFresh) fun other member => ?_
      have isOther : (row.groupId, other.id) ≠ row.key := by
        intro same
        exact unique.1 ((Prod.mk.inj same).2 ▸ List.mem_map_of_mem member)
      rw [insertRow_entries_of_ne isLater groups isOther]
      exact fresh other (List.mem_cons_of_mem _ member)

/-- Loading whole groups leaves the version behind that is the latest by its time. -/
theorem loaded_version (ofGroup : ∀ row ∈ rows, row.groupId = g) (groups : Groups) :
    (rows.foldl (insertRow laterTime) groups).version g = watermark (groups.version g) rows := by
  induction rows generalizing groups with
  | nil => rfl
  | cons row rows ih =>
      obtain rfl := ofGroup row (List.mem_cons_self ..)
      rw [List.foldl_cons, ih fun other member => ofGroup other (List.mem_cons_of_mem _ member),
        watermark, watermark, List.foldl_cons]
      congr 1
      simp only [insertRow]
      split
      · exact Function.update_self ..
      · rfl

end Loading

/-! ## Replaying the log -/

section Replaying

variable {g : CassUuid} {groups : Groups}

theorem replayVersion_maps (row : VersionRow) :
    (replayVersion g groups row).entries = (if row.action = 1 then
        incrementalRemoved row.groupId row.entryId groups else groups).entries ∧
      (replayVersion g groups row).groupEntries = (if row.action = 1 then
        incrementalRemoved row.groupId row.entryId groups else groups).groupEntries := by
  simp only [replayVersion]
  split <;> split <;> exact ⟨rfl, rfl⟩

/-- The log says that an id was removed. -/
def Removes (rows : List VersionRow) (id : CassUuid) : Prop :=
  ∃ row ∈ rows, row.action = 1 ∧ row.entryId = id

/-- What is left of a group when the removals of a log are replayed. -/
structure Replayed (g : CassUuid) (rows : List VersionRow) (groups after : Groups) : Prop where
  shown : ∃ shelves, Shown after g shelves
  removed : ∀ id, Removes rows id → after.entries g id = none
  kept : ∀ id, ¬ Removes rows id →
    (after.entries g id).map IpEntry.content = (groups.entries g id).map IpEntry.content
  vectors : ∀ loc id, ¬ Removes rows id →
    (id ∈ after.groupEntries g loc ↔ id ∈ groups.groupEntries g loc)

/-- One round takes the id of a removal away. -/
theorem replayVersion_replayed {shelves : Shelves CassUuid (List UInt8)}
    (shown : Shown groups g shelves) {row : VersionRow} (ofGroup : row.groupId = g) :
    Replayed g [row] groups (replayVersion g groups row) := by
  obtain ⟨entries, vectors⟩ := @replayVersion_maps g groups row
  have removes : ∀ id, Removes [row] id ↔ row.action = 1 ∧ row.entryId = id := by
    intro id
    simp [Removes]
  by_cases isRemoval : row.action = 1
  · rw [if_pos isRemoval] at entries vectors
    subst ofGroup
    have effect := shown.removesExactly row.entryId
    refine ⟨⟨_, (shown.removed row.entryId).congr (congrFun entries _) (congrFun vectors _)⟩,
      ?_, ?_, ?_⟩
    · intro id isRemoved
      rw [entries, ← ((removes id).mp isRemoved).2]
      exact effect.gone
    · intro id notRemoved
      rw [entries]
      exact effect.contents id fun same => notRemoved ((removes id).mpr ⟨isRemoval, same.symm⟩)
    · intro loc id notRemoved
      rw [vectors, effect.ids]
      exact and_iff_left fun same => notRemoved ((removes id).mpr ⟨isRemoval, same.symm⟩)
  · rw [if_neg isRemoval] at entries vectors
    refine ⟨⟨_, shown.congr (congrFun entries _) (congrFun vectors _)⟩, ?_, ?_, ?_⟩
    · intro id isRemoved
      exact absurd ((removes id).mp isRemoved).1 isRemoval
    · intro id _
      rw [entries]
    · intro loc id _
      rw [vectors]

/-- **Replaying a log** takes the ids away that it removes, and no others. -/
theorem replayed {shelves : Shelves CassUuid (List UInt8)} (shown : Shown groups g shelves)
    {rows : List VersionRow} (ofGroup : ∀ row ∈ rows, row.groupId = g) :
    Replayed g rows groups (rows.foldl (replayVersion g) groups) := by
  induction rows generalizing groups shelves with
  | nil =>
      have noneRemoved : ∀ id, ¬ Removes [] id := by
        rintro id ⟨row, member, -⟩
        exact absurd member List.not_mem_nil
      exact ⟨⟨_, shown⟩, fun id isRemoved => absurd isRemoved (noneRemoved id), fun _ _ => rfl,
        fun _ _ _ => Iff.rfl⟩
  | cons row rows ih =>
      have first := replayVersion_replayed shown (ofGroup row (List.mem_cons_self ..))
      obtain ⟨shelves', shown'⟩ := first.shown
      have others := ih shown' fun other member => ofGroup other (List.mem_cons_of_mem _ member)
      have removes : ∀ id, Removes (row :: rows) id ↔ Removes [row] id ∨ Removes rows id := by
        intro id
        simp [Removes]
      rw [List.foldl_cons]
      refine ⟨others.shown, ?_, ?_, ?_⟩
      · intro id isRemoved
        by_cases later : Removes rows id
        · exact others.removed id later
        · have gone := first.removed id (((removes id).mp isRemoved).resolve_right later)
          have same := others.kept id later
          rw [gone, Option.map_none, Option.map_eq_none_iff] at same
          exact same
      · intro id notRemoved
        rw [removes, not_or] at notRemoved
        rw [others.kept id notRemoved.2, first.kept id notRemoved.1]
      · intro loc id notRemoved
        rw [removes, not_or] at notRemoved
        rw [others.vectors loc id notRemoved.2, first.vectors loc id notRemoved.1]

end Replaying

/-! ## Full reload -/

section Reload

variable {before : CassUuid → CassUuid → Prop} {g : CassUuid} {history : List Change}

/-- A row of the table was written by a change of the history. -/
theorem tableOf_eq_some {id : CassUuid} {row : EntryRow}
    (isRow : tableOf g history id = some row) :
    row.id = id ∧ row.groupId = g ∧ ∃ first change later, history = first ++ change :: later ∧
      change.entryId = id ∧ (∀ other ∈ later, other.entryId ≠ id) ∧
      change.written g = some row := by
  rcases KeyedLog.table_eq_some isRow with
    ⟨first, change, later, isSplit, isKey, isLast, isWritten⟩ | ⟨-, impossible⟩
  · have written := isWritten
    rw [Change.written] at written
    split at written
    · cases written
    · obtain rfl := Option.some.inj written
      exact ⟨isKey, rfl, first, change, later, isSplit, isKey, isLast, isWritten⟩
  · cases impossible

/-- A change that writes a row is no removal, and the row has its version. -/
theorem Change.written_eq_some {change : Change} {row : EntryRow}
    (isWritten : change.written g = some row) :
    change.action ≠ 1 ∧ row.version = change.version := by
  rw [Change.written] at isWritten
  split at isWritten
  · cases isWritten
  · next notRemoval =>
      obtain rfl := Option.some.inj isWritten
      exact ⟨notRemoval, rfl⟩

theorem Answers.ofGroup {rows : List EntryRow} {asked : EntryRow → Prop}
    (answers : Answers rows (tableOf g history) asked) : ∀ row ∈ rows, row.groupId = g :=
  fun row member => (tableOf_eq_some ((answers.rows row).mp member).1).2.1

/-- A group holds the entries of a table. -/
structure Loaded (g : CassUuid) (table : CassUuid → Option EntryRow) (groups : Groups) :
    Prop where
  shown : ∃ shelves, Shown groups g shelves
  contents : ∀ id, (groups.entries g id).map IpEntry.content = (table id).map EntryRow.content

theorem shown_clearGroup (g : CassUuid) (groups : Groups) :
    Shown (clearGroup g groups) g .empty := by
  refine ⟨fun id => ?_, ?_⟩
  · simp only [clearGroup, Function.update_self]
    rfl
  · simp only [clearGroup, Function.update_self]
    rfl

/-- **A full reload** loads the entries of the table. -/
theorem fullReload_loaded {database : GroupDatabase} (holds : database.Holds before g history)
    (groups : Groups) {rows : List EntryRow} (loads : database.entriesOf g = some rows) :
    Loaded g (tableOf g history) (fullReload database g groups) ∧
      (fullReload database g groups).version g = watermark (groups.version g) rows := by
  obtain ⟨rows', loads', answers⟩ := holds.entriesOf
  obtain rfl := Option.some.inj (loads'.symm.trans loads)
  have isReload : fullReload database g groups =
      rows'.foldl (insertRow laterTime) (clearGroup g groups) := by
    rw [fullReload, loads]
  have cleared : ∀ id, (clearGroup g groups).entries g id = none := fun id => by
    simp only [clearGroup, Function.update_self]
  rw [isReload]
  refine ⟨⟨?_, fun id => ?_⟩, ?_⟩
  · exact loaded_shown laterTime answers.ofGroup answers.unique (shown_clearGroup g groups)
      fun row _ => cleared row.id
  · cases isRow : tableOf g history id with
    | some row =>
        obtain ⟨rfl, -⟩ := tableOf_eq_some isRow
        have member := (answers.rows row).mpr ⟨isRow, trivial⟩
        exact loaded_row laterTime answers.ofGroup answers.unique member _
    | none =>
        have untouched : ∀ row ∈ rows', row.id ≠ id := by
          rintro row member rfl
          rw [((answers.rows row).mp member).1] at isRow
          cases isRow
        rw [loaded_untouched laterTime untouched, cleared]
        rfl
  · exact loaded_version answers.ofGroup _

theorem watermark_mem (version : CassUuid) (rows : List EntryRow) :
    watermark version rows = version ∨ ∃ row ∈ rows, watermark version rows = row.version := by
  induction rows generalizing version with
  | nil => exact .inl rfl
  | cons row rows ih =>
      rw [watermark, List.foldl_cons, ← watermark]
      split
      · rcases ih row.version with same | ⟨other, member, same⟩
        · exact .inr ⟨row, List.mem_cons_self .., same⟩
        · exact .inr ⟨other, List.mem_cons_of_mem _ member, same⟩
      · rcases ih version with same | ⟨other, member, same⟩
        · exact .inl same
        · exact .inr ⟨other, List.mem_cons_of_mem _ member, same⟩

/-! ## Incremental reload -/

/-- A history that is split: its changes have increasing versions, and the group is
not ahead of those behind the split. -/
structure Split (before : CassUuid → CassUuid → Prop) (past since : List Change)
    (version : CassUuid) : Prop where
  transitive : ∀ first second third, before first second → before second third →
    before first third
  increasing : (past ++ since).Pairwise fun change other => before change.version other.version
  notAhead : ∀ change ∈ since, before version change.version

/-- The log says that an id was removed after a version. -/
def RemovedAfter (before : CassUuid → CassUuid → Prop) (history : List Change)
    (version id : CassUuid) : Prop :=
  ∃ change ∈ history, change.entryId = id ∧ change.action = 1 ∧ before version change.version

variable {past since : List Change} {version mark : CassUuid}

/-- What happens behind the split is newer than what is loaded there. -/
theorem Split.since_newer (isSplit : Split before past since version) {rows : List EntryRow}
    {asked : EntryRow → Prop} (answers : Answers rows (tableOf g past) asked) :
    ∀ change ∈ since, before (watermark version rows) change.version := by
  intro change member
  rcases watermark_mem version rows with same | ⟨row, isRow, same⟩
  · rw [same]
    exact isSplit.notAhead change member
  · obtain ⟨-, -, first, writing, later, isPast, -, -, isWritten⟩ :=
      tableOf_eq_some ((answers.rows row).mp isRow).1
    have inPast : writing ∈ past := by
      rw [isPast]
      exact List.mem_append_right _ (List.mem_cons_self ..)
    rw [same, (Change.written_eq_some isWritten).2]
    exact (List.pairwise_append.mp isSplit.increasing).2.2 writing inPast change member

/-- An entry that is not newer than the watermark is what it was at the split, and the
log does not say that it was removed after the watermark. -/
theorem Split.settled (isSplit : Split before past since version)
    (newer : ∀ change ∈ since, before mark change.version) {id : CassUuid} {row : EntryRow}
    (isRow : tableOf g (past ++ since) id = some row) (notNewer : ¬ before mark row.version) :
    tableOf g past id = some row ∧ ¬ RemovedAfter before (past ++ since) mark id := by
  rw [tableOf, KeyedLog.table_append] at isRow
  rcases KeyedLog.table_eq_some isRow with
    ⟨first, change, later, isSince, -, -, isWritten⟩ | ⟨untouched, isPast⟩
  · have member : change ∈ since := by
      rw [isSince]
      exact List.mem_append_right _ (List.mem_cons_self ..)
    rw [(Change.written_eq_some isWritten).2] at notNewer
    exact absurd (newer change member) notNewer
  · refine ⟨isPast, ?_⟩
    rintro ⟨removal, member, isId, isRemoval, isNewer⟩
    rcases List.mem_append.mp member with inPast | inSince
    · obtain ⟨-, -, first, change, later, rfl, -, isLast, isWritten⟩ := tableOf_eq_some isPast
      obtain ⟨notRemoval, isVersion⟩ := Change.written_eq_some isWritten
      rcases List.mem_append.mp inPast with earlier | behind
      -- The entry was written after this removal, and so is newer than the watermark.
      · have increasing := (List.pairwise_append.mp isSplit.increasing).1
        have ordered := (List.pairwise_append.mp increasing).2.2 removal earlier change
          (List.mem_cons_self ..)
        rw [isVersion] at notNewer
        exact notNewer (isSplit.transitive _ _ _ isNewer ordered)
      · rcases List.mem_cons.mp behind with rfl | inLater
        · exact notRemoval isRemoval
        · exact isLast removal inLater isId
    · exact untouched removal inSince isId

/-- An entry that is gone was gone at the split, or the log says that it was removed
after the watermark. -/
theorem Split.gone (newer : ∀ change ∈ since, before mark change.version) {id : CassUuid}
    (isNone : tableOf g (past ++ since) id = none) :
    tableOf g past id = none ∨ RemovedAfter before (past ++ since) mark id := by
  rw [tableOf, KeyedLog.table_append] at isNone
  rcases KeyedLog.table_eq_none isNone with ⟨change, member, isId, isNothing⟩ | ⟨-, isPast⟩
  · have isRemoval : change.action = 1 := by
      by_contra notRemoval
      rw [Change.written, if_neg notRemoval] at isNothing
      cases isNothing
    exact .inr ⟨change, List.mem_append_right _ member, isId, isRemoval, newer change member⟩
  · exact .inl isPast

/-- An entry that is loaded at the split, and is newer at the end, was removed in
between by the log. -/
def RemovedBeforeRewritten (before : CassUuid → CassUuid → Prop) (g : CassUuid)
    (past since : List Change) (mark : CassUuid) : Prop :=
  ∀ id kept written, tableOf g past id = some kept → tableOf g (past ++ since) id = some written →
    before mark written.version → RemovedAfter before (past ++ since) mark id

/-- What a group holds, up to positions: the ids of each location, once, and the
entries. -/
structure SameGroup (g : CassUuid) (groups expected : Groups) : Prop where
  nodup : ∀ loc, (groups.groupEntries g loc).Nodup
  ids : ∀ loc id, id ∈ groups.groupEntries g loc ↔ id ∈ expected.groupEntries g loc
  entries : ∀ id,
    (groups.entries g id).map IpEntry.content = (expected.entries g id).map IpEntry.content

/-- Two loaded groups with the same entries hold the same. -/
theorem Loaded.sameGroup {table : CassUuid → Option EntryRow} {groups expected : Groups}
    (loaded : Loaded g table groups) (expects : Loaded g table expected) :
    SameGroup g groups expected := by
  obtain ⟨shelves, shown⟩ := loaded.shown
  obtain ⟨shelves', shown'⟩ := expects.shown
  have entries : ∀ id, (groups.entries g id).map IpEntry.content =
      (expected.entries g id).map IpEntry.content :=
    fun id => (loaded.contents id).trans (expects.contents id).symm
  have carried : ∀ {first second : Groups}, (∀ id, (first.entries g id).map IpEntry.content =
      (second.entries g id).map IpEntry.content) → ∀ loc id,
      (∃ entry, first.entries g id = some entry ∧ entry.countryCode = loc) →
        ∃ entry, second.entries g id = some entry ∧ entry.countryCode = loc := by
    intro first second same loc id
    rintro ⟨entry, isEntry, isLoc⟩
    have content := same id
    rw [isEntry, Option.map_some] at content
    obtain ⟨other, isOther, sameContent⟩ := Option.map_eq_some_iff.mp content.symm
    exact ⟨other, isOther, (Prod.mk.inj sameContent).1.trans isLoc⟩
  refine ⟨shown.indexed.nodup, fun loc id => ?_, entries⟩
  rw [shown.indexed.ids, shown'.indexed.ids]
  exact ⟨carried entries loc id, carried (fun id => (entries id).symm) loc id⟩

/-- An incremental reload by parts: the rows of the log are replayed, and then the
entries are loaded that are newer than the group. -/
theorem incrementalReload_parts {database : GroupDatabase} (holds : database.Holds before g history)
    (groups : Groups) :
    ∃ logRows newRows,
      incrementalReload database g groups =
        newRows.foldl (insertRow later) (logRows.foldl (replayVersion g) groups) ∧
      (∀ row ∈ logRows, row.groupId = g) ∧
      (∀ id, Removes logRows id ↔ RemovedAfter before history (groups.version g) id) ∧
      Answers newRows (tableOf g history) fun row => before (groups.version g) row.version := by
  obtain ⟨logRows, isLog, logged⟩ := holds.versionsSince (groups.version g)
  obtain ⟨newRows, isNew, answers⟩ := holds.entriesSince (groups.version g)
  refine ⟨logRows, newRows, ?_, ?_, ?_, answers⟩
  · simp only [incrementalReload, incrementalAdded, isLog, isNew]
  · intro row member
    obtain ⟨change, -, rfl, -⟩ := (logged row).mp member
    rfl
  · intro id
    constructor
    · rintro ⟨row, member, isRemoval, isId⟩
      obtain ⟨change, inHistory, rfl, isNewer⟩ := (logged row).mp member
      exact ⟨change, inHistory, isId, isRemoval, isNewer⟩
    · rintro ⟨change, inHistory, isId, isRemoval, isNewer⟩
      exact ⟨_, (logged _).mpr ⟨change, inHistory, rfl, isNewer⟩, isRemoval, isId⟩

section Incremental

variable {database : GroupDatabase} {groups : Groups}
  (holds : database.Holds before g (past ++ since)) (loaded : Loaded g (tableOf g past) groups)

include holds loaded

/-- When every loaded entry that is newer at the end was removed in between, the
incremental reload loads the entries of the end. -/
theorem incremental_loaded (isSplit : Split before past since version)
    (newer : ∀ change ∈ since, before (groups.version g) change.version)
    (removed : RemovedBeforeRewritten before g past since (groups.version g)) :
    Loaded g (tableOf g (past ++ since)) (incrementalReload database g groups) := by
  obtain ⟨logRows, newRows, isReload, ofGroup, removes, answers⟩ :=
    incrementalReload_parts holds groups
  obtain ⟨shelves, shown⟩ := loaded.shown
  have effect := replayed shown ofGroup
  obtain ⟨shelves', shown'⟩ := effect.shown
  rw [isReload]
  -- No row is loaded for an id that is still there.
  have fresh : ∀ row ∈ newRows,
      (logRows.foldl (replayVersion g) groups).entries g row.id = none := by
    intro row member
    obtain ⟨isRow, isNewer⟩ := (answers.rows row).mp member
    by_cases isRemoved : Removes logRows row.id
    · exact effect.removed row.id isRemoved
    · have contents := (effect.kept row.id isRemoved).trans (loaded.contents row.id)
      cases isKept : tableOf g past row.id with
      | none =>
          rw [isKept, Option.map_none, Option.map_eq_none_iff] at contents
          exact contents
      | some kept =>
          exact absurd ((removes row.id).mpr (removed row.id kept row isKept isRow isNewer))
            isRemoved
  refine ⟨loaded_shown later answers.ofGroup answers.unique shown' fresh, fun id => ?_⟩
  by_cases hasRow : ∃ row ∈ newRows, row.id = id
  · obtain ⟨row, member, rfl⟩ := hasRow
    rw [loaded_row later answers.ofGroup answers.unique member,
      ((answers.rows row).mp member).1]
    rfl
  · have untouched : ∀ row ∈ newRows, row.id ≠ id := fun row member isId =>
      hasRow ⟨row, member, isId⟩
    rw [loaded_untouched later untouched]
    cases isRow : tableOf g (past ++ since) id with
    | some row =>
        have isId := (tableOf_eq_some isRow).1
        have notNewer : ¬ before (groups.version g) row.version := by
          intro isNewer
          rw [← isId] at isRow
          exact untouched row ((answers.rows row).mpr ⟨isRow, isNewer⟩) isId
        obtain ⟨isPast, notRemoved⟩ := isSplit.settled newer isRow notNewer
        rw [effect.kept id fun isRemoved => notRemoved ((removes id).mp isRemoved),
          loaded.contents, isPast]
    | none =>
        by_cases isRemoved : Removes logRows id
        · rw [effect.removed id isRemoved]
          rfl
        · have isPast := (Split.gone newer isRow).resolve_right fun after =>
            isRemoved ((removes id).mpr after)
          rw [effect.kept id isRemoved, loaded.contents, isPast]

/-- When the incremental reload gives what a full one gives, every loaded entry that
is newer at the end was removed in between: another one would stand in two
vectors, or twice in one. -/
theorem removed_of_sameGroup {expected : Groups}
    (expects : Loaded g (tableOf g (past ++ since)) expected)
    (same : SameGroup g (incrementalReload database g groups) expected) :
    RemovedBeforeRewritten before g past since (groups.version g) := by
  intro id kept written isKept isWritten isNewer
  by_contra notRemoved
  obtain ⟨logRows, newRows, isReload, ofGroup, removes, answers⟩ :=
    incrementalReload_parts holds groups
  obtain ⟨shelves, shown⟩ := loaded.shown
  obtain ⟨shelves', shown'⟩ := expects.shown
  have effect := replayed shown ofGroup
  have vectors := loaded_vectors later answers.ofGroup (logRows.foldl (replayVersion g) groups)
  rw [isReload] at same
  -- The id still stands in the vector of the location that it had.
  have contents := loaded.contents id
  rw [isKept, Option.map_some] at contents
  obtain ⟨entry, isEntry, isContent⟩ := Option.map_eq_some_iff.mp contents
  have stood : id ∈ groups.groupEntries g kept.locationCode :=
    (shown.indexed.ids _ _).mpr ⟨entry, isEntry, (Prod.mk.inj isContent).1⟩
  have stands := (effect.vectors kept.locationCode id fun isRemoved =>
    notRemoved ((removes id).mp isRemoved)).mpr stood
  have isId := (tableOf_eq_some isWritten).1
  have isNew : written ∈ newRows := by
    rw [← isId] at isWritten
    exact (answers.rows written).mpr ⟨isWritten, isNewer⟩
  by_cases sameLocation : written.locationCode = kept.locationCode
  · have comes : id ∈ (newRows.filter fun row => row.locationCode = kept.locationCode).map
        EntryRow.id := by
      rw [← isId]
      exact List.mem_map_of_mem (List.mem_filter.mpr ⟨isNew, decide_eq_true sameLocation⟩)
    have nodup := same.nodup kept.locationCode
    rw [vectors] at nodup
    exact (List.nodup_append.mp nodup).2.2 id stands id comes rfl
  · have inVector : id ∈ expected.groupEntries g kept.locationCode := by
      rw [← same.ids, vectors]
      exact List.mem_append_left _ stands
    obtain ⟨entry', isEntry', isLoc⟩ := (shown'.indexed.ids _ _).mp inVector
    have contents' := expects.contents id
    rw [isEntry', isWritten] at contents'
    exact sameLocation ((Prod.mk.inj (Option.some.inj contents')).1.symm.trans isLoc)

end Incremental

end Reload

/-- **When an incremental reload gives what a full reload gives**: exactly when every
entry that was loaded at the split, and is newer at the end, was removed in
between. -/
theorem reload_agrees_iff {before : CassUuid → CassUuid → Prop} (g : CassUuid)
    (past since : List Change) (atSplit atEnd : GroupDatabase) (groups other : Groups)
    (isSplit : Split before past since (groups.version g))
    (holds : atSplit.Holds before g past) (holds' : atEnd.Holds before g (past ++ since))
    {rows : List EntryRow} (loads : atSplit.entriesOf g = some rows) :
    SameGroup g (incrementalReload atEnd g (fullReload atSplit g groups))
        (fullReload atEnd g other) ↔
      RemovedBeforeRewritten before g past since (watermark (groups.version g) rows) := by
  obtain ⟨loaded, mark⟩ := fullReload_loaded holds groups loads
  obtain ⟨rows', loads', answers'⟩ := holds'.entriesOf
  obtain ⟨expects, -⟩ := fullReload_loaded holds' other loads'
  obtain ⟨rows'', loads'', answers⟩ := holds.entriesOf
  obtain rfl := Option.some.inj (loads''.symm.trans loads)
  have newer := isSplit.since_newer answers
  rw [← mark] at newer ⊢
  constructor
  · intro same
    exact removed_of_sameGroup holds' loaded expects same
  · intro removed
    exact (incremental_loaded holds' loaded isSplit newer removed).sameGroup expects

/-! ## A database with a history -/

section DatabaseOf

variable (g : CassUuid) (history : List Change)

/-- The rows of the entries of a group, in the order of their first changes. -/
def rowsOf : List EntryRow :=
  (history.map Change.entryId).dedup.filterMap (tableOf g history)

/-- A database that holds one group and compares versions as the incremental paths
do. -/
def databaseOf : GroupDatabase where
  allEntries := some (rowsOf g history)
  entriesOf group := some (if group = g then rowsOf g history else [])
  versionsSince group version := some (if group = g then
    (history.map (Change.logged g)).filter fun row => later version row.version else [])
  entriesSince group version := some (if group = g then
    (rowsOf g history).filter fun row => later version row.version else [])

theorem later_trans {first second third : CassUuid} (isLater : later first second = true)
    (stillLater : later second third = true) : later first third = true := by
  simp only [later, Bool.or_eq_true, Bool.and_eq_true, decide_eq_true_eq, beq_iff_eq,
    UInt64.lt_iff_toNat_lt, ← UInt64.toNat_inj] at isLater stillLater ⊢
  omega

variable {g history}

theorem rowsOf_unique : ((rowsOf g history).map EntryRow.id).Nodup := by
  have ids : ∀ ids : List CassUuid, (ids.filterMap (tableOf g history)).map EntryRow.id =
      ids.filter fun id => (tableOf g history id).isSome := by
    intro ids
    induction ids with
    | nil => rfl
    | cons id ids ih =>
        cases isRow : tableOf g history id with
        | none => rw [List.filterMap_cons_none isRow, ih, List.filter_cons_of_neg (by simp [isRow])]
        | some row =>
            rw [List.filterMap_cons_some isRow, List.map_cons, ih, (tableOf_eq_some isRow).1,
              List.filter_cons_of_pos (by simp [isRow])]
  rw [rowsOf, ids]
  exact (List.nodup_dedup _).filter _

theorem mem_rowsOf_iff (row : EntryRow) :
    row ∈ rowsOf g history ↔ tableOf g history row.id = some row := by
  rw [rowsOf, List.mem_filterMap]
  constructor
  · rintro ⟨id, -, isRow⟩
    rwa [(tableOf_eq_some isRow).1]
  · intro isRow
    obtain ⟨-, -, first, change, others, isSplit, isId, -, -⟩ := tableOf_eq_some isRow
    refine ⟨row.id, List.mem_dedup.mpr ?_, isRow⟩
    rw [← isId, isSplit]
    exact List.mem_map_of_mem (List.mem_append_right _ (List.mem_cons_self ..))

/-- Such a database holds the group after its history. -/
theorem databaseOf_holds :
    (databaseOf g history).Holds (fun version other => later version other = true) g history where
  entriesOf := by
    refine ⟨_, congrArg some (if_pos rfl), rowsOf_unique, fun row => ?_⟩
    rw [mem_rowsOf_iff, and_true]
  entriesSince version := by
    refine ⟨_, congrArg some (if_pos rfl), ?_, fun row => ?_⟩
    · exact rowsOf_unique.sublist (List.filter_sublist.map _)
    · rw [List.mem_filter, mem_rowsOf_iff]
  versionsSince version := by
    refine ⟨_, congrArg some (if_pos rfl), fun row => ?_⟩
    rw [List.mem_filter, List.mem_map]
    constructor
    · rintro ⟨⟨change, member, rfl⟩, isLater⟩
      exact ⟨change, member, rfl, isLater⟩
    · rintro ⟨change, member, rfl, isLater⟩
      exact ⟨⟨change, member, rfl⟩, isLater⟩

end DatabaseOf

/-! ## An entry that is updated -/

/-- The group and the entry of the examples. -/
def sampleGroup : CassUuid := ⟨7, 7⟩

/-- A write of one entry at a time, for the location `US`. -/
def sampleWrite (time : UInt64) (action : Int) : Change :=
  ⟨⟨time, 0⟩, ⟨1, 0⟩, action, [85, 83], [49, 46, 50, 46, 51, 46, 52], 0⟩

/-- Two writes, the second of them behind the split. -/
theorem updated_split : Split (fun version other => later version other = true)
    [sampleWrite 1 0] [sampleWrite 2 0] (emptyGroups.version sampleGroup) :=
  ⟨fun _ _ _ => later_trans, by decide, by decide⟩

/-- **An update is loaded twice.** The entry was loaded at the split, and comes to
stand in the vector of its location a second time. -/
theorem update_loaded_twice :
    Split (fun version other => later version other = true) [sampleWrite 1 0] [sampleWrite 2 0]
        (emptyGroups.version sampleGroup) ∧
      (databaseOf sampleGroup [sampleWrite 1 0]).Holds
        (fun version other => later version other = true) sampleGroup [sampleWrite 1 0] ∧
      (databaseOf sampleGroup ([sampleWrite 1 0] ++ [sampleWrite 2 0])).Holds
        (fun version other => later version other = true) sampleGroup
        ([sampleWrite 1 0] ++ [sampleWrite 2 0]) ∧
      ¬ SameGroup sampleGroup
        (incrementalReload (databaseOf sampleGroup ([sampleWrite 1 0] ++ [sampleWrite 2 0]))
          sampleGroup
          (fullReload (databaseOf sampleGroup [sampleWrite 1 0]) sampleGroup emptyGroups))
        (fullReload (databaseOf sampleGroup ([sampleWrite 1 0] ++ [sampleWrite 2 0])) sampleGroup
          emptyGroups) := by
  refine ⟨updated_split, databaseOf_holds, databaseOf_holds, ?_⟩
  intro same
  have nodup := same.nodup [85, 83]
  have twice : (incrementalReload
      (databaseOf sampleGroup ([sampleWrite 1 0] ++ [sampleWrite 2 0])) sampleGroup
      (fullReload (databaseOf sampleGroup [sampleWrite 1 0]) sampleGroup emptyGroups)).groupEntries
        sampleGroup [85, 83] = [⟨1, 0⟩, ⟨1, 0⟩] := by decide +kernel
  rw [twice] at nodup
  exact absurd nodup (by decide)

/-- A write, and behind the split a removal and another write. -/
theorem removed_split : Split (fun version other => later version other = true)
    [sampleWrite 1 0] [sampleWrite 2 1, sampleWrite 3 0] (emptyGroups.version sampleGroup) :=
  ⟨fun _ _ _ => later_trans, by decide, by decide⟩

theorem reload_agrees_iff_removed :
    SameGroup sampleGroup
        (incrementalReload
          (databaseOf sampleGroup ([sampleWrite 1 0] ++ [sampleWrite 2 1, sampleWrite 3 0]))
          sampleGroup
          (fullReload (databaseOf sampleGroup [sampleWrite 1 0]) sampleGroup emptyGroups))
        (fullReload
          (databaseOf sampleGroup ([sampleWrite 1 0] ++ [sampleWrite 2 1, sampleWrite 3 0]))
          sampleGroup emptyGroups) ↔
      RemovedBeforeRewritten (fun version other => later version other = true) sampleGroup
        [sampleWrite 1 0] [sampleWrite 2 1, sampleWrite 3 0]
        (watermark (emptyGroups.version sampleGroup) (rowsOf sampleGroup [sampleWrite 1 0])) :=
  reload_agrees_iff sampleGroup [sampleWrite 1 0] [sampleWrite 2 1, sampleWrite 3 0]
    (databaseOf sampleGroup [sampleWrite 1 0])
    (databaseOf sampleGroup ([sampleWrite 1 0] ++ [sampleWrite 2 1, sampleWrite 3 0]))
    emptyGroups emptyGroups removed_split databaseOf_holds databaseOf_holds
    (congrArg some (if_pos rfl))

end EdgeDNS.Geo
