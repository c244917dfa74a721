import EdgeDNS.Cassandra.Record
import EdgeDNS.Core.SyncFaults
import EdgeDNS.Core.Threads

/-!
# What ends the program

The handler of a query looks its rows up in the database when the cache has none, and
the lookup makes their wire data. So an SOA whose numbers cannot be read ends the
program as a query finds it, as it does when a sync request brings it
(`Core.SyncFaults`). Nothing else throws: neither an address nor an entry of a group.

The program is the `Process` of all threads over the tables of the database. It runs on
exactly through the turns that harm it in neither way (`runs_on_iff_unharmed`). For so
long it does what its threads do over the databases that the tables define
(`exec_process_of_unharmed`), and the handler finds what the lookups make of the rows
(`agrees_exec`, `Program.Agrees.answered_from_rows`).
-/

set_option autoImplicit false

namespace EdgeDNS.Core

open DB Utils RData

/-! ## Lookups -/

/-- The rows of the tables that a query asks for. -/
def queryRows (tables : Tables) (request : Request) (query : Query) : List RecordRow :=
  let zoneWire := getHostWireFromWireNoAlloc query.nameWire nameSize
  tables.selected
    (wireToDomain (zoneWire ++ request.behindZone) zoneWire.length)
    (wireToDomain (query.nameWire ++ request.behindName) query.nameWire.length)
    query.qtype.toNat

/-- The records that a query is answered from, whatever its class and its number of
questions. -/
def lookedUpRecords (tables : Tables) (caches : Caches) (request : Request) (query : Query) :
    Except StdException (List Records.DNSResponseData) :=
  if cachedRecords caches query ≠ [] then .ok (cachedRecords caches query)
  else (queryRows tables request query).mapM (RecordRow.data query.qtype.toNat)

/-- The lookup of a query throws. -/
def lookupThrows (tables : Tables) (caches : Caches) (request : Request) : Bool :=
  match parseQuery (queryBuf request.payload) request.isTcp with
  | .ok query =>
      match lookedUpRecords tables caches request query with
      | .ok _ => false
      | .error _ => true
  | .error _ => false

/-- A query finds nothing in the cache and an SOA with a bad number in the tables. -/
def FindsBadRow (tables : Tables) (caches : Caches) (request : Request) : Prop :=
  ∃ query, parseQuery (queryBuf request.payload) request.isTcp = .ok query ∧
    cachedRecords caches query = [] ∧ query.qtype = 6 ∧
      ∃ row ∈ queryRows tables request query,
        row.isGeo = false ∧ HasBadNumber (cString row.value)

/-- A lookup that does not throw finds the records that the handler finds in the database
that the tables define. -/
theorem lookedUpRecords_ok {tables : Tables} {caches : Caches} {request : Request}
    {query : Query} {records : List Records.DNSResponseData}
    (found : lookedUpRecords tables caches request query = .ok records) :
    matchedRecords tables.database caches request query = records := by
  rw [lookedUpRecords] at found
  rw [matchedRecords]
  split at found
  · next hit =>
      rw [if_pos hit]
      exact Except.ok.inj found
  · next miss =>
      rw [if_neg miss]
      exact database_records found

/-- **Which queries throw.** -/
theorem lookupThrows_iff (tables : Tables) (caches : Caches) (request : Request) :
    lookupThrows tables caches request = true ↔ FindsBadRow tables caches request := by
  rw [lookupThrows, FindsBadRow]
  cases parses : parseQuery (queryBuf request.payload) request.isTcp with
  | error fault => simp
  | ok query =>
      have throws : (∃ failure, lookedUpRecords tables caches request query = .error failure) ↔
          cachedRecords caches query = [] ∧ query.qtype = 6 ∧
            ∃ row ∈ queryRows tables request query,
              row.isGeo = false ∧ HasBadNumber (cString row.value) := by
        have isSoa : (query.qtype.toNat : Int) = 6 ↔ query.qtype = 6 := by
          rw [← UInt16.toNat_inj]
          exact_mod_cast Iff.rfl
        rw [lookedUpRecords]
        split
        · next hit => simp [hit]
        · next miss =>
            rw [mapM_throws_iff]
            simp only [RecordRow.data_throws_iff, generateRData_throws_iff, isSoa]
            rw [not_not] at miss
            simp only [miss, true_and]
            constructor
            · rintro ⟨row, isRow, notGeo, soa, bad⟩
              exact ⟨soa, row, isRow, notGeo, bad⟩
            · rintro ⟨soa, row, isRow, notGeo, bad⟩
              exact ⟨row, isRow, notGeo, soa, bad⟩
      simp only [Except.ok.injEq, exists_eq_left', ← throws]
      cases lookedUpRecords tables caches request query with
      | error failure => simp
      | ok records => simp

/-! ## Turns -/

/-- What a message asks of the server meets an exception. -/
def Activity.Harms (tables : Tables) (caches : Caches) : Activity → Prop
  | .query request => FindsBadRow tables caches request
  | .sync request => request.Poisons
  | _ => False

/-- All threads, and the tables of the database as they stand. -/
structure Program (threadCount : Nat) where
  tables : Tables
  process : Process threadCount

/-- A turn of a thread, or a change of the tables by the administrator. -/
inductive Program.Turn (threadCount : Nat)
  | worker (th : Fin threadCount) (round : Round)
  | lifeCycle
  | administer (tables : Tables)

namespace Program

variable {threadCount : Nat} (server : Server)
  (cassUuidFromString : List UInt8 → Option CassUuid) (program : Program threadCount)

/-- The program when its threads have been started. -/
def start (tables : Tables) (sockets : Fin threadCount → Sockets) : Program threadCount :=
  ⟨tables, .start tables.database sockets⟩

/-- The turn of the threads over the database that the tables define. -/
def Turn.turn : Turn threadCount → Core.Turn threadCount
  | .worker th round => .worker th round
  | .lifeCycle => .lifeCycle
  | .administer tables => .administer tables.database

/-- A worker takes a query whose lookup throws. -/
def lookupFails (th : Fin threadCount) (round : Round) : Bool :=
  match (program.process.seen th).message round with
  | some (_, conn, arrival) =>
      match conn.activity arrival with
      | .query request => lookupThrows program.tables program.process.shared.caches request
      | _ => false
  | none => false

/-- One turn. The exception of a lookup leaves the loop of its worker and ends the
program. -/
def step (turn : Turn threadCount) : Program threadCount :=
  match turn with
  | .worker th round =>
      if program.lookupFails th round then
        { program with process := { program.process with running := false } }
      else
        { program with process := program.process.step server cassUuidFromString turn.turn }
  | .lifeCycle =>
      { program with process := program.process.step server cassUuidFromString turn.turn }
  | .administer tables =>
      { tables := tables, process := program.process.step server cassUuidFromString turn.turn }

/-- A worker takes a message that harms the program. -/
def Harmed (turn : Turn threadCount) : Prop :=
  match turn with
  | .worker th round =>
      ∃ fd conn arrival, (program.process.seen th).message round = some (fd, conn, arrival) ∧
        (conn.activity arrival).Harms program.tables program.process.shared.caches
  | _ => False

end Program

section Turns

variable {threadCount : Nat} {server : Server}
  {cassUuidFromString : List UInt8 → Option CassUuid} {program : Program threadCount}

/-- A poisoned round is one that brings such a request. -/
theorem poisoned_iff {worker : Worker} {round : Round} (running : worker.running = true) :
    worker.Poisoned round ↔ ∃ fd conn arrival, worker.message round = some (fd, conn, arrival) ∧
      conn.type = .SYNC ∧ arrival.syncRequest.Poisons := by
  obtain ⟨event, sendSqe, readSqe⟩ := round
  rw [Worker.Poisoned, Worker.message]
  cases event with
  | read index received more =>
      cases received with
      | message bufId arrival =>
          simp only [running, if_true, Option.bind_eq_some_iff, Option.map_eq_some_iff,
            Prod.mk.injEq]
          constructor
          · rintro ⟨read, isRead, ⟨conn, isConn, isSync⟩, poisons⟩
            exact ⟨read.fd, conn, arrival, ⟨read, isRead, conn, isConn, rfl, rfl, rfl⟩, isSync,
              poisons⟩
          · rintro ⟨fd, conn, other, ⟨read, isRead, same, isConn, rfl, rfl, rfl⟩, isSync, poisons⟩
            exact ⟨read, isRead, ⟨same, isConn, isSync⟩, poisons⟩
      | failed => simp
      | invalid bufId => simp
  | accepted index clientFd ip memory more => simp
  | acceptFailed index => simp
  | transmit index freed => simp
  | written index ok => simp
  | contextSent index => simp
  | elsewhere caches recordQueue entryQueue database => simp

/-- A message harms by its lookup or as a sync request. -/
theorem activity_harms_iff {conn : Connection} {arrival : Arrival} {tables : Tables}
    {caches : Caches} :
    (conn.activity arrival).Harms tables caches ↔
      conn.type = .SYNC ∧ arrival.syncRequest.Poisons ∨
        ∃ request, conn.activity arrival = .query request ∧
          lookupThrows tables caches request = true := by
  rw [Connection.activity]
  split
  · next isSync => simp [Activity.Harms, isSync]
  · next isTcp => simp [Activity.Harms, isTcp, lookupThrows_iff]
  · next isUdp => simp [Activity.Harms, isUdp, lookupThrows_iff]

theorem lookupFails_iff {th : Fin threadCount} {round : Round} :
    program.lookupFails th round = true ↔
      ∃ fd conn arrival, (program.process.seen th).message round = some (fd, conn, arrival) ∧
        ∃ request, conn.activity arrival = .query request ∧
          lookupThrows program.tables program.process.shared.caches request = true := by
  rw [Program.lookupFails]
  cases (program.process.seen th).message round with
  | none => simp
  | some message =>
      obtain ⟨fd, conn, arrival⟩ := message
      simp only [Option.some.injEq, Prod.mk.injEq]
      cases isActivity : conn.activity arrival with
      | query request => simp [isActivity]
      | lifeCycle => simp [isActivity]
      | sync request => simp [isActivity]
      | administer database => simp [isActivity]

/-- **A turn keeps the program running exactly when it does not harm it.** -/
theorem Program.running_step_iff (all : program.process.AllRun)
    (running : program.process.running = true) (turn : Program.Turn threadCount) :
    (program.step server cassUuidFromString turn).process.running = true ↔
      ¬ program.Harmed turn := by
  cases turn with
  | worker th round =>
      have runs : (program.process.seen th).running = true := all running th
      have harmed : program.Harmed (.worker th round) ↔
          (program.process.seen th).Poisoned round ∨ program.lookupFails th round = true := by
        rw [poisoned_iff runs, lookupFails_iff, Program.Harmed]
        simp only [activity_harms_iff]
        constructor
        · rintro ⟨fd, conn, arrival, brings, ⟨isSync, poisons⟩ | throws⟩
          · exact .inl ⟨fd, conn, arrival, brings, isSync, poisons⟩
          · exact .inr ⟨fd, conn, arrival, brings, throws⟩
        · rintro (⟨fd, conn, arrival, brings, poisons⟩ | ⟨fd, conn, arrival, brings, throws⟩)
          · exact ⟨fd, conn, arrival, brings, .inl poisons⟩
          · exact ⟨fd, conn, arrival, brings, .inr throws⟩
      rw [harmed, Program.step]
      split
      · next fails => simp [fails]
      · next returns =>
          rw [or_iff_left returns, ← @step_running_iff server cassUuidFromString _ round runs]
          simp [Program.Turn.turn, Process.step, running, Process.takeTurn, Process.takeRound]
  | lifeCycle =>
      simp [Program.step, Program.Turn.turn, Process.step, running, Process.takeTurn,
        Program.Harmed]
  | administer tables =>
      simp [Program.step, Program.Turn.turn, Process.step, running, Process.takeTurn,
        Program.Harmed]

theorem Program.allRun_step (all : program.process.AllRun) (turn : Program.Turn threadCount) :
    (program.step server cassUuidFromString turn).process.AllRun := by
  cases turn with
  | worker th round =>
      rw [Program.step]
      split
      · exact fun impossible => absurd impossible Bool.false_ne_true
      · exact all.step _
  | lifeCycle => exact all.step _
  | administer tables => exact all.step _

/-- A program that has ended does nothing more. -/
theorem Program.step_of_stopped (stopped : program.process.running = false)
    (turn : Program.Turn threadCount) :
    (program.step server cassUuidFromString turn).process = program.process := by
  have same : program.process.step server cassUuidFromString turn.turn = program.process := by
    rw [Process.step, stopped, if_neg Bool.false_ne_true]
  cases turn with
  | worker th round =>
      rw [Program.step]
      split
      · exact congrArg (Process.mk · _ _) stopped.symm
      · exact same
  | lifeCycle => exact same
  | administer tables => exact same

/-- A turn whose lookup does not throw is one of the threads. -/
theorem Program.step_process {turn : Program.Turn threadCount} (unharmed : ¬ program.Harmed turn) :
    (program.step server cassUuidFromString turn).process =
      program.process.step server cassUuidFromString turn.turn := by
  cases turn with
  | worker th round =>
      have returns : ¬ program.lookupFails th round = true := by
        rw [lookupFails_iff]
        rintro ⟨fd, conn, arrival, brings, throws⟩
        exact unharmed ⟨fd, conn, arrival, brings, activity_harms_iff.mpr (.inr throws)⟩
      rw [Program.step, if_neg returns]
  | lifeCycle => rfl
  | administer tables => rfl

end Turns

/-- **As long as nothing harms it**, the program does what its threads do over the
databases that the tables define. -/
theorem exec_process_of_unharmed {threadCount : Nat} (server : Server)
    (cassUuidFromString : List UInt8 → Option CassUuid) (program : Program threadCount)
    (turns : List (Program.Turn threadCount))
    (unharmed : Run.Along (Program.step server cassUuidFromString)
      (fun program turn => ¬ program.Harmed turn) program turns) :
    (Run.exec (Program.step server cassUuidFromString) program turns).process =
      Run.exec (fun process => Process.step server cassUuidFromString process) program.process
        (turns.map Program.Turn.turn) := by
  induction turns generalizing program with
  | nil => rfl
  | cons turn turns ih =>
      rw [Run.exec_cons, ih _ unharmed.2, Program.step_process unharmed.1, List.map_cons,
        Run.exec_cons]

/-! ## The database of the handler -/

section Rows

variable {threadCount : Nat} {server : Server}
  {cassUuidFromString : List UInt8 → Option CassUuid} {program : Program threadCount}

/-- A message of a client leaves the database as it is. -/
theorem activity_database (world : World) (conn : Connection) (arrival : Arrival) :
    (world.act server cassUuidFromString (conn.activity arrival)).database = world.database := by
  have ofQuery : ∀ request, (world.handleQuery server request).database = world.database := by
    intro request
    rw [World.handleQuery]
    split <;> rfl
  rw [Connection.activity]
  split
  · exact (world.serveRequest_others cassUuidFromString _).2.2
  · exact ofQuery _
  · exact ofQuery _

/-- As long as the program runs, its threads see the database that the tables define. -/
def Program.Agrees (program : Program threadCount) : Prop :=
  program.process.running = true → program.process.shared.database = program.tables.database

theorem Program.Agrees.step (agrees : program.Agrees) {turn : Program.Turn threadCount}
    (received : turn.turn.Received) : (program.step server cassUuidFromString turn).Agrees := by
  by_cases running : program.process.running = true
  case neg =>
    have stopped : program.process.running = false := by simpa using running
    intro runs
    rw [Program.step_of_stopped stopped, stopped] at runs
    exact absurd runs Bool.false_ne_true
  case pos =>
    have before := agrees running
    cases turn with
    | worker th round =>
        rw [Program.step]
        split
        · exact fun impossible => absurd impossible Bool.false_ne_true
        · intro _
          have sharedOf : (program.process.seen th).world.database =
              program.process.shared.database := rfl
          simp only [Program.Turn.turn, Process.step, running, if_true, Process.takeTurn,
            Process.takeRound]
          rw [← before, ← sharedOf]
          cases brings : (program.process.seen th).message round with
          | none => exact congrArg Shared.database (shared_quiet received brings)
          | some message =>
              obtain ⟨fd, conn, arrival⟩ := message
              have answers := @step_message server cassUuidFromString _ _ _ _ _ brings
              exact (congrArg World.database answers.world).trans (activity_database ..)
    | lifeCycle =>
        intro _
        simp only [Program.step, Program.Turn.turn, Process.step, running, if_true,
          Process.takeTurn]
        exact before
    | administer tables =>
        intro _
        simp only [Program.step, Program.Turn.turn, Process.step, running, if_true,
          Process.takeTurn]

/-- **Queries are answered from the rows of the tables.** What the handler finds for a
query is what the lookup makes of the rows that are there. -/
theorem Program.Agrees.answered_from_rows (agrees : program.Agrees)
    (running : program.process.running = true) {request : Request} {query : Query}
    (parses : parseQuery (queryBuf request.payload) request.isTcp = .ok query)
    (unharmed : ¬ FindsBadRow program.tables program.process.shared.caches request) :
    lookedUpRecords program.tables program.process.shared.caches request query =
      .ok (matchedRecords program.process.shared.database program.process.shared.caches request
        query) := by
  rw [agrees running]
  cases found : lookedUpRecords program.tables program.process.shared.caches request query with
  | ok records => rw [lookedUpRecords_ok found]
  | error failure =>
      refine absurd ((lookupThrows_iff ..).mp ?_) unharmed
      rw [lookupThrows, parses]
      dsimp only
      rw [found]

end Rows

/-- **The threads see the tables** at the end of every run. -/
theorem agrees_exec {threadCount : Nat} (server : Server)
    (cassUuidFromString : List UInt8 → Option CassUuid) (tables : Tables)
    (sockets : Fin threadCount → Sockets) (turns : List (Program.Turn threadCount))
    (received : ∀ turn ∈ turns, turn.turn.Received) :
    (Run.exec (Program.step server cassUuidFromString) (.start tables sockets) turns).Agrees := by
  have keeps : ∀ (program : Program threadCount) turn, turn.turn.Received → program.Agrees →
      (program.step server cassUuidFromString turn).Agrees :=
    fun program turn isReceived before => before.step isReceived
  have starts : (Program.start tables sockets).Agrees := fun _ => rfl
  exact Run.exec_invariant keeps starts received

/-! ## The end of the program -/

/-- A program runs on through exactly the turns that do not harm it. -/
theorem running_exec_iff {threadCount : Nat} {server : Server}
    {cassUuidFromString : List UInt8 → Option CassUuid} {program : Program threadCount}
    (all : program.process.AllRun) (running : program.process.running = true)
    (turns : List (Program.Turn threadCount)) :
    (Run.exec (Program.step server cassUuidFromString) program turns).process.running = true ↔
      Run.Along (Program.step server cassUuidFromString)
        (fun program turn => ¬ program.Harmed turn) program turns := by
  have keeps : ∀ (program : Program threadCount) turn, True → program.process.AllRun →
      (program.step server cassUuidFromString turn).process.AllRun :=
    fun program turn _ all => Program.allRun_step all turn
  have dead : ∀ (program : Program threadCount) turn, ¬ program.process.running = true →
      ¬ (program.step server cassUuidFromString turn).process.running = true := by
    intro program turn ended
    have stopped : program.process.running = false := by simpa using ended
    rw [Program.step_of_stopped stopped]
    exact ended
  exact Run.alive_iff_along keeps dead
    (fun program turn _ all running => Program.running_step_iff all running turn)
    all (fun _ _ => trivial) running

/-- **What ends the program**, whatever the threads and the administrator do and in
whatever order. -/
theorem runs_on_iff_unharmed {threadCount : Nat} (server : Server)
    (cassUuidFromString : List UInt8 → Option CassUuid) (tables : Tables)
    (sockets : Fin threadCount → Sockets) (turns : List (Program.Turn threadCount)) :
    (Run.exec (Program.step server cassUuidFromString) (.start tables sockets)
        turns).process.running = true ↔
      Run.Along (Program.step server cassUuidFromString)
        (fun program turn => ¬ program.Harmed turn) (.start tables sockets) turns :=
  running_exec_iff (allRun_start tables.database sockets) rfl turns

end EdgeDNS.Core
