import EdgeDNS.Core.RData
import Mathlib.Logic.Function.Basic

/-!
# The groups in memory

The model of `Group`: for each group its entries by id, for each group and
location code the ids of the entries there, and for each group the version up to
which it is loaded. A group or a code without a key in its map is one with
nothing in it: `operator[]` makes it, and no function tells the two apart.

The three loops that load entries have one body. They differ in what they take
for a later version: the two that load whole groups compare the time alone.
-/

set_option autoImplicit false

namespace EdgeDNS.Geo

open Utils

/-! ## The maps -/

/-- An address of a group, and its place in the vector of its country. -/
structure IpEntry where
  countryCode : List UInt8
  ip : List UInt8
  priority : Int
  indexInVector : Nat
deriving DecidableEq, Repr, Inhabited

/-- The maps `entries`, `group_entries` and `groups`. -/
structure Groups where
  entries : CassUuid → CassUuid → Option IpEntry
  groupEntries : CassUuid → List UInt8 → List CassUuid
  version : CassUuid → CassUuid

/-- A row of `ip_group_entries`. -/
structure EntryRow where
  id : CassUuid
  groupId : CassUuid
  version : CassUuid
  locationCode : List UInt8
  ip : List UInt8
  priority : Int
deriving DecidableEq, Repr

/-- A row of `ip_group_versions`. -/
structure VersionRow where
  groupId : CassUuid
  version : CassUuid
  entryId : CassUuid
  action : Int
deriving DecidableEq, Repr

/-- What the queries of a group give, or nothing when one fails. The last two ask
for what is newer than a version. -/
structure GroupDatabase where
  allEntries : Option (List EntryRow)
  entriesOf : CassUuid → Option (List EntryRow)
  versionsSince : CassUuid → CassUuid → Option (List VersionRow)
  entriesSince : CassUuid → CassUuid → Option (List EntryRow)

/-! ## Loading -/

/-- Set the value of a key in the map of a group. -/
def setIn {Key Value : Type} [DecidableEq Key] (map : CassUuid → Key → Value) (groupId : CassUuid)
    (key : Key) (value : Value) : CassUuid → Key → Value :=
  Function.update map groupId (Function.update (map groupId) key value)

/-- Whether a version is later by its time alone. -/
def laterTime (version other : CassUuid) : Bool := version.timeAndVersion < other.timeAndVersion

/-- Whether a version is later by its time, and by its node at the same time. -/
def later (version other : CassUuid) : Bool :=
  version.timeAndVersion < other.timeAndVersion ||
    (version.timeAndVersion == other.timeAndVersion &&
      version.clockSeqAndNode < other.clockSeqAndNode)

/-- The body of the loops that load entries. -/
def insertRow (isLater : CassUuid → CassUuid → Bool) (groups : Groups) (row : EntryRow) : Groups :=
  let vec := groups.groupEntries row.groupId row.locationCode ++ [row.id]
  -- `generateRData` of type A makes the address, which is `ipv4ToWire`
  let entry : IpEntry :=
    { countryCode := row.locationCode, ip := ipv4ToWire row.ip, priority := row.priority
      indexInVector := vec.length - 1 }
  { entries := setIn groups.entries row.groupId row.id (some entry)
    groupEntries := setIn groups.groupEntries row.groupId row.locationCode vec
    version :=
      if isLater (groups.version row.groupId) row.version then
        Function.update groups.version row.groupId row.version
      else groups.version }

/-- Maps with nothing in them. -/
def emptyGroups : Groups := ⟨fun _ _ => none, fun _ _ => [], fun _ => ⟨0, 0⟩⟩

/-- Load the entries of all groups. -/
def initIpEntries (database : GroupDatabase) (groups : Groups) : Groups :=
  match database.allEntries with
  | none => groups
  | some rows => rows.foldl (insertRow laterTime) groups

/-- Forget the entries of a group, but not its version. -/
def clearGroup (groupId : CassUuid) (groups : Groups) : Groups :=
  { groups with
    entries := Function.update groups.entries groupId fun _ => none
    groupEntries := Function.update groups.groupEntries groupId fun _ => [] }

/-- Load the entries of one group anew. -/
def fullReload (database : GroupDatabase) (groupId : CassUuid) (groups : Groups) : Groups :=
  match database.entriesOf groupId with
  | none => groups
  | some rows => rows.foldl (insertRow laterTime) (clearGroup groupId groups)

/-- Returns the number of rows as well. -/
def incrementalAdded (database : GroupDatabase) (groupId version : CassUuid) (groups : Groups) :
    Groups × Nat :=
  match database.entriesSince groupId version with
  | none => (groups, 0)
  | some rows => (rows.foldl (insertRow later) groups, rows.length)

/-! ## Removing -/

/-- Take the last id of a vector away, after moving it to the index of the id that
is removed. -/
def removeFromVector (groupId : CassUuid) (loc : List UInt8) (idxToRemove : Nat)
    (groups : Groups) : Groups :=
  let vec := groups.groupEntries groupId loc
  if idxToRemove < vec.length then
    if idxToRemove ≠ vec.length - 1 then
      let lastEntryId := vec.getLastD ⟨0, 0⟩
      let lastEntry := (groups.entries groupId lastEntryId).getD default
      { groups with
        groupEntries := setIn groups.groupEntries groupId loc
          (vec.set idxToRemove lastEntryId).dropLast
        entries := setIn groups.entries groupId lastEntryId
          (some { lastEntry with indexInVector := idxToRemove }) }
    else
      { groups with groupEntries := setIn groups.groupEntries groupId loc vec.dropLast }
  else groups

/-- Take one entry from its group. -/
def incrementalRemoved (groupId entryId : CassUuid) (groups : Groups) : Groups :=
  match groups.entries groupId entryId with
  | none => groups
  | some entry =>
      let groups := removeFromVector groupId entry.countryCode entry.indexInVector groups
      { groups with entries := setIn groups.entries groupId entryId none }

/-! ## Reloading -/

/-- One round of the loop over the version log of a group. -/
def replayVersion (g : CassUuid) (groups : Groups) (row : VersionRow) : Groups :=
  let groups := if row.action = 1 then incrementalRemoved row.groupId row.entryId groups else groups
  if later (groups.version g) row.version then
    { groups with version := Function.update groups.version g row.version }
  else groups

/-- Replay what the log says of the time after the version of the group, and load
the entries that are newer. -/
def incrementalReload (database : GroupDatabase) (g : CassUuid) (groups : Groups) : Groups :=
  let v := groups.version g
  let replayed :=
    match database.versionsSince g v with
    | none => groups
    | some rows => rows.foldl (replayVersion g) groups
  (incrementalAdded database g v replayed).1

end EdgeDNS.Geo
