import EdgeDNS.Core.Lifetime
import EdgeDNS.Core.ProgramFaults

/-!
# What the running program serves

A sync request that adds a record is one message among those that the workers take, and an
exception in any of them ends the program (`Core.ProgramFaults`). As long as the program
runs, a record that was added and found its place is among the answers for its name,
whichever worker is asked, until a turn is about its id or cuts its path. Nor does a query
for the name end the program (`added_stays_served`).
-/

set_option autoImplicit false

namespace EdgeDNS.Core

open DB Utils RData Records

/-! ## The record cache of the program -/

section Turns

variable {threadCount : Nat} {server : Server}
  {cassUuidFromString : List UInt8 → Option CassUuid} {program : Program threadCount}
  {turn : Program.Turn threadCount} {nameWire : List UInt8} {type : Int} {entry : Entry}

/-- What the threads share, as one server without buckets finds it. -/
def Program.world (program : Program threadCount) : World :=
  program.process.shared.world fun _ => ⟨0, 0⟩

/-- What a turn does leaves the record of the id alone. -/
def Program.Spares (cassUuidFromString : List UInt8 → Option CassUuid) (nameWire : List UInt8)
    (type : Int) (id : CassUuid) (program : Program threadCount)
    (turn : Program.Turn threadCount) : Prop :=
  ∀ activity ∈ program.process.activities turn.turn,
    activity.Spares cassUuidFromString nameWire type id program.world

/-- The record cache of the program is intact and has the record under its name. -/
structure Program.Keeps (nameWire : List UInt8) (type : Int) (entry : Entry)
    (program : Program threadCount) : Prop where
  intact : Intact program.process.shared.caches.recordsMap
  finds : FindsEntry program.process.shared.caches.recordsMap nameWire type entry

/-- A turn asks at most one thing of the server. -/
theorem activities_cases (process : Process threadCount) (turn : Core.Turn threadCount) :
    process.activities turn = [] ∨ ∃ activity, process.activities turn = [activity] := by
  have guarded : ∀ activity : Activity,
      (if process.running = true then [activity] else []) = [] ∨
        ∃ other, (if process.running = true then [activity] else []) = [other] := by
    intro activity
    split
    · exact .inr ⟨activity, rfl⟩
    · exact .inl rfl
  cases turn with
  | worker th round =>
      simp only [Process.activities]
      split
      · exact guarded _
      · exact .inl rfl
  | lifeCycle => exact guarded .lifeCycle
  | administer database => exact guarded (.administer database)

/-- A turn that does not harm the program is on the shared state what it asks of the
server. -/
theorem Program.caches_step (unharmed : ¬ program.Harmed turn) (received : turn.turn.Received) :
    (program.step server cassUuidFromString turn).process.shared.caches =
      (Run.exec (World.act server cassUuidFromString) program.world
        (program.process.activities turn.turn)).caches := by
  have same : program.world.shared = program.process.shared := rfl
  rw [Program.step_process unharmed, ← shared_step received same]
  rfl

theorem Program.intact_step (unharmed : ¬ program.Harmed turn) (received : turn.turn.Received)
    (intact : Intact program.process.shared.caches.recordsMap) :
    Intact (program.step server cassUuidFromString turn).process.shared.caches.recordsMap := by
  rw [Program.caches_step unharmed received]
  rcases activities_cases program.process turn.turn with none | ⟨activity, one⟩
  · rw [none]
    exact intact
  · rw [one]
    exact @intact_act server cassUuidFromString program.world intact activity

/-- A turn that spares the record keeps it. -/
theorem Program.Keeps.step (keeps : program.Keeps nameWire type entry)
    (unharmed : ¬ program.Harmed turn) (received : turn.turn.Received)
    (spares : program.Spares cassUuidFromString nameWire type entry.id turn) :
    (program.step server cassUuidFromString turn).Keeps nameWire type entry := by
  refine ⟨Program.intact_step unharmed received keeps.intact, ?_⟩
  rw [Program.caches_step unharmed received]
  rcases activities_cases program.process turn.turn with none | ⟨activity, one⟩
  · rw [none]
    exact keeps.finds
  · have spared := spares activity (by rw [one]; exact List.mem_singleton_self _)
    have finds : FindsEntry program.world.caches.recordsMap nameWire type entry := keeps.finds
    rw [one]
    exact finds.act keeps.intact spared

/-- The life cycle and the administrator take no record from the cache. -/
theorem Program.spares_of_no_worker {id : CassUuid}
    (noWorker : ∀ th round, turn ≠ .worker th round) :
    program.Spares cassUuidFromString nameWire type id turn := by
  intro activity member
  refine spares_of_not_sync (fun request isSync => ?_) nameWire type id
  subst isSync
  cases turn with
  | worker th round => exact noWorker th round rfl
  | lifeCycle =>
      rw [Program.Turn.turn, Process.activities] at member
      split at member
      · cases List.mem_singleton.mp member
      · exact List.not_mem_nil member
  | administer tables =>
      rw [Program.Turn.turn, Process.activities] at member
      split at member
      · cases List.mem_singleton.mp member
      · exact List.not_mem_nil member

/-- The record cache is intact for as long as nothing harms the program. -/
theorem intact_exec {tables : Tables} {sockets : Fin threadCount → Sockets}
    {turns : List (Program.Turn threadCount)} (received : ∀ turn ∈ turns, turn.turn.Received)
    (unharmed : Run.Along (Program.step server cassUuidFromString)
      (fun program turn => ¬ program.Harmed turn) (.start tables sockets) turns) :
    Intact (Run.exec (Program.step server cassUuidFromString) (.start tables sockets)
      turns).process.shared.caches.recordsMap := by
  have always := @Run.throughout_of_along _ _ (Program.step server cassUuidFromString)
    (fun program : Program threadCount => Intact program.process.shared.caches.recordsMap)
    (fun program turn => ¬ program.Harmed turn) (fun turn => turn.turn.Received)
    (fun _ _ isReceived intact harmless => Program.intact_step harmless isReceived intact)
    turns (.start tables sockets) (@intact_start tables.database) received unharmed
  exact always.last

/-- A record is kept through every run whose turns spare it. -/
theorem Program.Keeps.exec {turns : List (Program.Turn threadCount)}
    (keeps : program.Keeps nameWire type entry) (received : ∀ turn ∈ turns, turn.turn.Received)
    (unharmed : Run.Along (Program.step server cassUuidFromString)
      (fun program turn => ¬ program.Harmed turn) program turns)
    (spared : Run.Along (Program.step server cassUuidFromString)
      (Program.Spares cassUuidFromString nameWire type entry.id) program turns) :
    (Run.exec (Program.step server cassUuidFromString) program turns).Keeps nameWire type
      entry := by
  have always := @Run.throughout_of_along _ _ (Program.step server cassUuidFromString)
    (Program.Keeps nameWire type entry)
    (fun program turn => ¬ program.Harmed turn ∧
      program.Spares cassUuidFromString nameWire type entry.id turn)
    (fun turn => turn.turn.Received)
    (fun _ _ isReceived before both => before.step both.1 isReceived both.2)
    turns program keeps received (unharmed.and spared)
  exact always.last

/-- A query that the cache has a record for meets no exception. -/
theorem not_harms_of_finds {tables : Tables} {caches : Caches} {request : Request} {query : Query}
    (parses : parseQuery (queryBuf request.payload) request.isTcp = .ok query)
    (finds : FindsEntry caches.recordsMap query.nameWire query.qtype.toNat entry) :
    ¬ (Activity.query request).Harms tables caches := by
  rintro ⟨query', parses', nothing, -⟩
  obtain rfl : query = query' := Except.ok.inj (parses.symm.trans parses')
  obtain ⟨record, found, -⟩ := finds
  have cached : record ∈ cachedRecords caches query := found
  rw [nothing] at cached
  exact List.not_mem_nil cached

end Turns

/-! ## Added records -/

/-- The turn takes a well-formed add, and the record finds its place. -/
structure Program.Adds {threadCount : Nat} (cassUuidFromString : List UInt8 → Option CassUuid)
    (add : SyncRequest) (labels : List (List UInt8)) (type : UInt16) (id : CassUuid) (item : Answer)
    (program : Program threadCount) (turn : Program.Turn threadCount) : Prop where
  takes : program.process.activities turn.turn = [.sync add]
  wellFormed : WellFormedAdd cassUuidFromString add labels type id item
  fits : item.rdata.length ≤ payloadSize
  room : program.process.shared.caches.recordsMap.freeListHeadIdx ≠ -1
  reaches : AddReaches program.process.shared.caches.recordsMap labels type id

/-- **An added record stays served.** The threads take any turns, and the program still runs
behind them. One turn adds a record, and no later turn is about its id or cuts its path.
Then whichever worker is asked for the name, in any case of the letters and over either
transport, the query does not end the program, its lookup returns what the handler answers
from, and the record is among the answers unless the response is truncated. -/
theorem added_stays_served {threadCount : Nat} (server : Server)
    (cassUuidFromString : List UInt8 → Option CassUuid) (tables : Tables)
    (sockets : Fin threadCount → Sockets) (before after : List (Program.Turn threadCount))
    (turn : Program.Turn threadCount) (add : SyncRequest) (labels asked : List (List UInt8))
    (type : UInt16) (id : CassUuid) (item : Answer) (request : Request) (query : Query)
    (th : Fin threadCount) (host : HostName labels)
    (received : ∀ other ∈ before ++ turn :: after, other.turn.Received)
    (running : (Run.exec (Program.step server cassUuidFromString) (.start tables sockets)
      (before ++ turn :: after)).process.running = true)
    (adds : (Run.exec (Program.step server cassUuidFromString) (.start tables sockets)
      before).Adds cassUuidFromString add labels type id item turn)
    (spared : Run.Along (Program.step server cassUuidFromString)
      (Program.Spares cassUuidFromString (hostWire labels) type.toNat id)
      (Run.exec (Program.step server cassUuidFromString) (.start tables sockets)
        (before ++ [turn])) after)
    (same : lowerLabels asked = lowerLabels labels) (asks : AsksFor request asked query)
    (isType : query.qtype = type) :
    let reached := Run.exec (Program.step server cassUuidFromString) (.start tables sockets)
      (before ++ turn :: after)
    ¬ (Activity.query request).Harms reached.tables reached.process.shared.caches ∧
      lookedUpRecords reached.tables reached.process.shared.caches request query =
        .ok (matchedRecords reached.process.shared.database reached.process.shared.caches request
          query) ∧
      ∃ handled, (reached.process.seen th).world.respond server request = .ok handled ∧
        (handled.truncated = false →
          ∃ message, Dns.decodeMessage (unframed request.isTcp handled.out) = some message ∧
            item.record type ∈ message.answers) := by
  intro reached
  obtain ⟨alongBefore, harmless, alongAfter⟩ := Run.along_append.mp
    ((running_exec_iff (allRun_start tables.database sockets) rfl _).mp running)
  have addReceived := received turn (by simp)
  have intact := intact_exec (fun other member => received other (List.mem_append_left _ member))
    alongBefore
  obtain ⟨groupId, found⟩ := @findsEntry_of_add server _ (Program.world _) intact _ _ _ _ _ host
    adds.wellFormed adds.fits adds.room adds.reaches
  have kept : Program.Keeps (hostWire labels) type.toNat ((addedData groupId item).entry id)
      (Run.exec (Program.step server cassUuidFromString) (.start tables sockets)
        (before ++ [turn])) := by
    rw [Run.exec_append, Run.exec_cons, Run.exec_nil]
    refine ⟨Program.intact_step harmless addReceived intact, ?_⟩
    rw [Program.caches_step harmless addReceived, adds.takes]
    exact found
  have isReached : reached = Run.exec (Program.step server cassUuidFromString)
      (Run.exec (Program.step server cassUuidFromString) (.start tables sockets)
        (before ++ [turn])) after := by
    rw [← Run.exec_append, List.append_assoc, List.singleton_append]
  rw [Run.exec_append, Run.exec_cons, Run.exec_nil] at kept isReached spared
  have keeps := kept.exec (fun other member => received other (by simp [member])) alongAfter spared
  rw [← isReached] at keeps
  obtain ⟨asQuery, parsed⟩ := parses_of_labels asks.valid asks.name
  obtain rfl : query = asQuery := Except.ok.inj (asks.parses.symm.trans parsed.parses)
  have finds := keeps.finds
  rw [← host.nameWire same parsed, ← isType] at finds
  have harmlessQuery := @not_harms_of_finds _ reached.tables _ _ _ asks.parses finds
  have agrees : reached.Agrees := agrees_exec server cassUuidFromString tables sockets _ received
  refine ⟨harmlessQuery, agrees.answered_from_rows running asks.parses harmlessQuery, ?_⟩
  rw [← isType]
  exact @answered_of_findsEntry server (reached.process.seen th).world _ _ _ _ asks finds rfl rfl

/-- A client connects to the socket for sync requests. -/
def syncAccepted : Program.Turn 1 := .worker 0 ⟨.accepted 1 9 0 [] true, true, true⟩

/-- A text is added over this connection. -/
def textAdded : Program.Turn 1 :=
  .worker 0 ⟨.read 1 (.message 0 (.plain (textAdd (dotted shortName)).payload)) false, true, true⟩

/-- Tables without rows. -/
def emptyTables : Tables := ⟨fun _ _ _ => [], fun _ _ => []⟩

/-- A text is added and asked for over TCP, after a round of the life cycle and a change of
the tables. -/
theorem added_stays_served_text :
    let turns := [syncAccepted] ++ textAdded :: [.lifeCycle, .administer emptyTables]
    let reached := Run.exec (Program.step plainServer readsOne) (.start emptyTables oneSockets)
      turns
    ∃ query, AsksFor (streamFor shortName 16) shortName query ∧
      ¬ (Activity.query (streamFor shortName 16)).Harms reached.tables
        reached.process.shared.caches ∧
      lookedUpRecords reached.tables reached.process.shared.caches (streamFor shortName 16) query =
        .ok (matchedRecords reached.process.shared.database reached.process.shared.caches
          (streamFor shortName 16) query) ∧
      ∃ handled,
        (reached.process.seen 0).world.respond plainServer (streamFor shortName 16) =
          .ok handled ∧
        (handled.truncated = false →
          ∃ message, Dns.decodeMessage (unframed true handled.out) = some message ∧
            textAnswer.record 16 ∈ message.answers) := by
  have asks := @streamFor_asks shortName 16 shortName_host textAnswer.rdata.length (by decide)
  have valid := shortName_host.valid rfl
  obtain ⟨query, parsed⟩ := @parses_of_labels (streamFor shortName 16) _ valid asks.name
  have asksFor : AsksFor (streamFor shortName 16) shortName query :=
    ⟨valid, asks.name, parsed.parses, parsed.qclass.trans asks.qclass,
      parsed.qdcount.trans asks.qdcount⟩
  have fresh : (Run.exec (Program.step plainServer readsOne) (.start emptyTables oneSockets)
      [syncAccepted]).process.shared.caches = ⟨.fresh, .fresh⟩ := rfl
  refine ⟨query, asksFor, added_stays_served plainServer readsOne emptyTables oneSockets
    [syncAccepted] [.lifeCycle, .administer emptyTables] textAdded (textAdd (dotted shortName))
    shortName shortName 16 idOne textAnswer (streamFor shortName 16) query 0 shortName_host ?_ ?_
    ⟨rfl, textAdd_wellFormed (by decide +kernel) (by decide +kernel), by decide, ?_, ?_⟩ ?_ rfl
    asksFor (parsed.qtype.trans asks.qtype)⟩
  · intro turn member
    simp only [List.cons_append, List.nil_append, List.mem_cons, List.not_mem_nil,
      or_false] at member
    rcases member with rfl | rfl | rfl | rfl
    · trivial
    · have short : (textAdd (dotted shortName)).payload.length ≤ receiveSize := by decide +kernel
      exact short
    · trivial
    · trivial
  · rw [Program.start, Process.start, World.start, Mmap.fresh_eq_freshTable]
    decide +kernel
  · rw [fresh, Mmap.fresh_eq_freshTable]
    decide +kernel
  · rw [fresh, Mmap.fresh_eq_freshTable]
    exact ⟨by decide +kernel, by decide +kernel, by decide +kernel, by decide +kernel⟩
  · exact ⟨Program.spares_of_no_worker fun th round => by simp,
      Program.spares_of_no_worker fun th round => by simp, trivial⟩

end EdgeDNS.Core
