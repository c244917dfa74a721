import EdgeDNS.Core.Messages
import EdgeDNS.Core.Provenance

/-!
# The threads of the program

`Core::start` runs a number of workers and, beside them, the thread of the life cycle. The
threads share the caches, the queues and the database behind them. Everything else, the
buckets of the rate limit among it, a worker has to itself. They take turns in any order,
each turn one round of a loop, and an exception in one of them ends them all.

A run can be looked at in two ways. One worker sees its own rounds and, between them, what
the others leave (`worker_follows`), so what is proved of the loop of a worker holds of
each of them. What they share is what the whole server of `Activities` comes to by the
activities of all of them one after another (`shared_follows`). So the program refines the
loop and the server at once (`program_refines`).

Together they say what the program puts out: whatever the threads do in whatever order, a
response of any worker has nothing in it that was not given before it
(`responses_have_origin`).
-/

set_option autoImplicit false

namespace EdgeDNS.Core

/-! ## Turns -/

/-- What the threads share. -/
structure Shared where
  caches : Caches
  recordQueue : List Operational.Record
  entryQueue : List Operational.Entry
  database : Database

/-- The part of a world that the threads share. -/
def World.shared (world : World) : Shared :=
  ⟨world.caches, world.recordQueue, world.entryQueue, world.database⟩

/-- The world of a worker with these buckets. -/
def Shared.world (shared : Shared) (rrlBuckets : RRLKey → RRLBucket) : World :=
  ⟨shared.caches, shared.recordQueue, shared.entryQueue, rrlBuckets, shared.database⟩

/-- One round of the life cycle, which has no buckets. -/
def Shared.queueLifeCycle (shared : Shared) : Shared :=
  (shared.world fun _ => ⟨0, 0⟩).queueLifeCycle.shared

/-- The worker when it looks at what is shared. -/
def Worker.sees (worker : Worker) (shared : Shared) : Worker :=
  { worker with world := shared.world worker.world.rrlBuckets }

/-- What the others do, as a worker finds it. -/
def Shared.round (shared : Shared) : Round :=
  ⟨.elsewhere shared.caches shared.recordQueue shared.entryQueue shared.database, true, true⟩

/-- All threads of the program, and what they share. -/
structure Process (threadCount : Nat) where
  running : Bool
  shared : Shared
  workers : Fin threadCount → Worker

/-- Whose turn it is, and what happens in it. -/
inductive Turn (threadCount : Nat)
  | worker (th : Fin threadCount) (round : Round)
  | lifeCycle
  | administer (database : Database)

/-- A round that is the worker's own, with a message that its buffers can hold. -/
def Round.Received (round : Round) : Prop :=
  match round.event with
  | .read _ (.message _ arrival) _ => arrival.payload.length ≤ receiveSize
  | .elsewhere _ _ _ _ => False
  | _ => True

/-- The round of a worker is its own, with a message that its buffers can hold. -/
def Turn.Received {threadCount : Nat} : Turn threadCount → Prop
  | .worker _ round => round.Received
  | _ => True

/-- The sockets of a worker, and the memory of their buffers. -/
structure Sockets where
  udpFd : Nat
  tcpFd : Nat
  syncFd : Nat
  memory : List UInt8

namespace Process

variable {threadCount : Nat} (server : Server)
  (cassUuidFromString : List UInt8 → Option CassUuid)

/-- The worker that a thread runs, with what is shared. -/
def seen (process : Process threadCount) (th : Fin threadCount) : Worker :=
  (process.workers th).sees process.shared

/-- The program when its threads have been started. -/
def start (database : Database) (sockets : Fin threadCount → Sockets) : Process threadCount where
  running := true
  shared := (World.start database).shared
  workers th := Worker.start (World.start database) (sockets th).udpFd (sockets th).tcpFd
    (sockets th).syncFd (sockets th).memory

/-- A round of a worker. It leaves what is shared to the others. -/
def takeRound (process : Process threadCount) (th : Fin threadCount) (round : Round) :
    Process threadCount :=
  let worker := (process.seen th).step server cassUuidFromString round
  { running := worker.running
    shared := worker.world.shared
    workers := Function.update process.workers th worker }

/-- What a turn does to a program that runs. -/
def takeTurn (process : Process threadCount) : Turn threadCount → Process threadCount
  | .worker th round => process.takeRound server cassUuidFromString th round
  | .lifeCycle => { process with shared := process.shared.queueLifeCycle }
  | .administer database => { process with shared := { process.shared with database := database } }

/-- One turn. A program that has ended does nothing more. -/
def step (process : Process threadCount) (turn : Turn threadCount) : Process threadCount :=
  if process.running then process.takeTurn server cassUuidFromString turn else process

/-- The rounds in which a worker sees a turn. -/
def roundsOf (th : Fin threadCount) (process : Process threadCount) (turn : Turn threadCount) :
    List Round :=
  let after := (process.step server cassUuidFromString turn).shared.round
  match turn with
  | .worker other round =>
      if process.running then if other = th then [round] else [after] else []
  | _ => if process.running then [after] else []

/-- The activity of a turn. -/
def activities (process : Process threadCount) (turn : Turn threadCount) : List Activity :=
  match turn with
  | .worker th round =>
      match (process.seen th).message round with
      | some (_, conn, arrival) => if process.running then [conn.activity arrival] else []
      | none => []
  | .lifeCycle => if process.running then [.lifeCycle] else []
  | .administer database => if process.running then [.administer database] else []

end Process

/-! ## What a worker sees -/

section Workers

variable {threadCount : Nat} {server : Server}
  {cassUuidFromString : List UInt8 → Option CassUuid} {process : Process threadCount}

/-- As long as the program runs, so does every worker. -/
def Process.AllRun (process : Process threadCount) : Prop :=
  process.running = true → ∀ th, (process.workers th).running = true

theorem Process.AllRun.step (all : process.AllRun) (turn : Turn threadCount) :
    (process.step server cassUuidFromString turn).AllRun := by
  rw [Process.step]
  split
  case isFalse => exact all
  case isTrue running =>
    cases turn with
    | worker th round =>
        intro runs other
        by_cases isTh : other = th
        · subst isTh
          simpa [Process.takeTurn, Process.takeRound] using runs
        · simpa [Process.takeTurn, Process.takeRound, isTh] using all running other
    | lifeCycle => exact fun _ => all running
    | administer database => exact fun _ => all running

/-- A worker sees what another has left as a change from elsewhere. -/
theorem sees_elsewhere {worker : Worker} (running : worker.running = true)
    (before after : Shared) :
    worker.sees after =
      (worker.sees before).step server cassUuidFromString after.round := by
  have runs : (worker.sees before).running = true := running
  rw [Worker.step, if_pos runs]
  rfl

/-- **One turn as a worker sees it.** -/
theorem seen_step (all : process.AllRun) (turn : Turn threadCount) (th : Fin threadCount) :
    (process.step server cassUuidFromString turn).seen th =
      Run.exec (fun worker => Worker.step worker server cassUuidFromString) (process.seen th)
        (process.roundsOf server cassUuidFromString th turn) := by
  by_cases running : process.running = true
  case neg =>
    have nothing : process.roundsOf server cassUuidFromString th turn = [] := by
      cases turn <;> simp [Process.roundsOf, running]
    rw [nothing, Process.step, if_neg running, Run.exec_nil]
  case pos =>
    have runs := all running th
    cases turn with
    | worker other round =>
        by_cases isTh : other = th
        · subst isTh
          have own : ∀ worker : Worker, worker.sees worker.world.shared = worker := fun _ => rfl
          simp [Process.roundsOf, running, Process.step, Process.takeTurn, Process.takeRound,
            Process.seen, own]
        · have untouched : (process.step server cassUuidFromString
              (.worker other round)).workers th = process.workers th := by
            rw [Process.step, if_pos running]
            exact Function.update_of_ne (Ne.symm isTh) ..
          simp only [Process.roundsOf, running, isTh, if_true, if_false, Run.exec_cons,
            Run.exec_nil]
          rw [Process.seen, untouched]
          exact sees_elsewhere runs ..
    | lifeCycle =>
        have untouched : (process.step server cassUuidFromString .lifeCycle).workers th =
            process.workers th := by
          rw [Process.step, if_pos running, Process.takeTurn]
        simp only [Process.roundsOf, running, if_true, Run.exec_cons, Run.exec_nil]
        rw [Process.seen, untouched]
        exact sees_elsewhere runs ..
    | administer database =>
        have untouched : (process.step server cassUuidFromString (.administer database)).workers
            th = process.workers th := by
          rw [Process.step, if_pos running, Process.takeTurn]
        simp only [Process.roundsOf, running, if_true, Run.exec_cons, Run.exec_nil]
        rw [Process.seen, untouched]
        exact sees_elsewhere runs ..

theorem allRun_start (database : Database) (sockets : Fin threadCount → Sockets) :
    (Process.start database sockets).AllRun := fun _ _ => rfl

/-- **Every worker is a run of the worker loop**, of its own rounds and of changes that the
others make between them. -/
theorem worker_follows (server : Server) (cassUuidFromString : List UInt8 → Option CassUuid)
    (database : Database) (sockets : Fin threadCount → Sockets) (turns : List (Turn threadCount))
    (th : Fin threadCount) :
    let step := fun process => Process.step server cassUuidFromString process
    let start := Process.start database sockets
    (Run.exec step start turns).seen th =
      Run.exec (fun worker => Worker.step worker server cassUuidFromString) (start.seen th)
        (Run.emitted step (fun process => process.roundsOf server cassUuidFromString th) start
          turns) := by
  intro step start
  refine @Run.simulated _ _ step Process.AllRun (fun _ => True) _ _
    (fun worker => Worker.step worker server cassUuidFromString)
    (fun process => process.roundsOf server cassUuidFromString th)
    (fun process worker => process.seen th = worker) (fun _ turn _ all => all.step turn) ?_ turns
    start (start.seen th) (allRun_start database sockets) (fun _ _ => trivial) rfl
  rintro process turn worker - all rfl
  exact seen_step all turn th

end Workers

/-! ## What the threads share -/

section Sharing

variable {threadCount : Nat} {server : Server}
  {cassUuidFromString : List UInt8 → Option CassUuid} {process : Process threadCount}
  {world other : World}

/-- An activity does the same to what is shared, whatever the buckets are. -/
theorem act_shared (same : world.shared = other.shared) {activity : Activity}
    (received : activity.Received) :
    (world.act server cassUuidFromString activity).shared =
      (other.act server cassUuidFromString activity).shared := by
  obtain ⟨caches, recordQueue, entryQueue, rrlBuckets, database⟩ := world
  obtain ⟨caches', recordQueue', entryQueue', rrlBuckets', database'⟩ := other
  obtain ⟨rfl, rfl, rfl, rfl⟩ := Shared.mk.inj same
  cases activity with
  | query request =>
      obtain ⟨query, after, parses, isAfter⟩ := @World.handleQuery_eq server
        ⟨caches, recordQueue, entryQueue, rrlBuckets, database⟩ request received
      obtain ⟨query', after', parses', isAfter'⟩ := @World.handleQuery_eq server
        ⟨caches, recordQueue, entryQueue, rrlBuckets', database⟩ request received
      obtain rfl : query = query' := Except.ok.inj (parses.symm.trans parses')
      simp only [World.act, isAfter, isAfter', World.shared]
  | lifeCycle => rfl
  | administer database => rfl
  | sync request =>
      simp only [World.act, World.serveRequest]
      cases serveSync cassUuidFromString request caches with
      | error failure => rfl
      | ok served => rfl

theorem message_arrival {worker : Worker} {round : Round} {fd : Nat} {conn : Connection}
    {arrival : Arrival} (brings : worker.message round = some (fd, conn, arrival))
    (received : round.Received) : (conn.activity arrival).Received := by
  obtain ⟨event, sendSqe, readSqe⟩ := round
  have short : arrival.payload.length ≤ receiveSize := by
    rw [Worker.message] at brings
    split at brings
    · next isEvent =>
        dsimp only at isEvent
        subst isEvent
        split at brings
        · obtain ⟨read, -, found⟩ := Option.bind_eq_some_iff.mp brings
          obtain ⟨client, -, same⟩ := Option.map_eq_some_iff.mp found
          obtain ⟨rfl, rfl, rfl⟩ : read.fd = fd ∧ client = conn ∧ _ = arrival := by
            simpa using same
          exact received
        · cases brings
    · cases brings
  rw [Connection.activity]
  split
  · trivial
  · exact short
  · exact short

/-- What a turn does is received when the turn is. -/
theorem activities_received {turn : Turn threadCount} (received : turn.Received) :
    ∀ activity ∈ process.activities turn, activity.Received := by
  intro activity member
  cases turn with
  | worker th round =>
      simp only [Process.activities] at member
      split at member
      · next brings =>
          split at member
          · rw [List.mem_singleton.mp member]
            exact message_arrival brings received
          · cases member
      · cases member
  | lifeCycle =>
      simp only [Process.activities] at member
      split at member
      · rw [List.mem_singleton.mp member]
        trivial
      · cases member
  | administer database =>
      simp only [Process.activities] at member
      split at member
      · rw [List.mem_singleton.mp member]
        trivial
      · cases member

theorem emitted_received {turns : List (Turn threadCount)}
    (received : ∀ turn ∈ turns, turn.Received) :
    ∀ activity ∈ Run.emitted (Process.step server cassUuidFromString) Process.activities process
      turns, activity.Received := by
  induction turns generalizing process with
  | nil => exact fun _ member => absurd member List.not_mem_nil
  | cons turn turns ih =>
      intro activity member
      rcases List.mem_append.mp member with first | later
      · exact activities_received (received turn (List.mem_cons_self ..)) activity first
      · exact ih (fun other isLater => received other (List.mem_cons_of_mem _ isLater)) activity
          later

/-- A round without a message leaves what is shared. -/
theorem shared_quiet {worker : Worker} {round : Round} (received : round.Received)
    (quiet : worker.message round = none) :
    (worker.step server cassUuidFromString round).world.shared = worker.world.shared := by
  cases @step_quiet server cassUuidFromString _ _ quiet with
  | same kept same => rw [same.world]
  | sent index isSent running isAfter => rw [isAfter]
  | moved caches recordQueue entryQueue database isMoved running isAfter =>
      rw [Round.Received, isMoved] at received
      exact received.elim

/-- **One turn on what is shared** is its activity on the whole server. -/
theorem shared_step {turn : Turn threadCount} (received : turn.Received)
    (same : world.shared = process.shared) :
    (Run.exec (World.act server cassUuidFromString) world (process.activities turn)).shared =
      (process.step server cassUuidFromString turn).shared := by
  by_cases running : process.running = true
  case neg =>
    have nothing : process.activities turn = [] := by
      cases turn with
      | worker th round =>
          simp only [Process.activities]
          split <;> simp [running]
      | _ => simp [Process.activities, running]
    rw [nothing, Process.step, if_neg running]
    exact same
  case pos =>
    rw [Process.step, if_pos running]
    cases turn with
    | worker th round =>
        have sharedOf : (process.seen th).world.shared = process.shared := rfl
        simp only [Process.activities, Process.takeTurn, Process.takeRound, running, if_true]
        cases brings : (process.seen th).message round with
        | none => exact same.trans (sharedOf.symm.trans (shared_quiet received brings).symm)
        | some message =>
            obtain ⟨fd, conn, arrival⟩ := message
            have answers := @step_message server cassUuidFromString _ _ _ _ _ brings
            rw [answers.world]
            exact act_shared (same.trans sharedOf.symm) (message_arrival brings received)
    | lifeCycle =>
        simp only [Process.activities, running, if_true]
        have alike : world.shared = (process.shared.world fun _ => ⟨0, 0⟩).shared := same
        exact @act_shared server cassUuidFromString _ _ alike .lifeCycle trivial
    | administer database =>
        simp only [Process.activities, running, if_true]
        have alike : world.shared = (process.shared.world fun _ => ⟨0, 0⟩).shared := same
        exact @act_shared server cassUuidFromString _ _ alike (.administer database) trivial

/-- **What the threads share is what one server comes to** that does the activities of all of
them one after another. -/
theorem shared_follows (server : Server) (cassUuidFromString : List UInt8 → Option CassUuid)
    (database : Database) (sockets : Fin threadCount → Sockets) (turns : List (Turn threadCount))
    (received : ∀ turn ∈ turns, turn.Received) :
    let step := fun process => Process.step server cassUuidFromString process
    let start := Process.start database sockets
    (Run.exec step start turns).shared =
      (Run.exec (World.act server cassUuidFromString) (World.start database)
        (Run.emitted step Process.activities start turns)).shared := by
  intro step start
  refine Eq.symm (@Run.simulated _ _ step (fun _ => True) Turn.Received _ _
    (World.act server cassUuidFromString) Process.activities
    (fun process world => world.shared = process.shared) (fun _ _ _ _ => trivial) ?_ turns
    start (World.start database) trivial received rfl)
  intro process turn world isReceived _ same
  exact shared_step isReceived same

end Sharing

/-- The text is asked for over UDP. -/
def textRound : Round := ⟨.read 0 (.message 0 (.plain textQuery.payload)) true, true, true⟩

theorem textRound_received : textRound.Received := by
  have short : textQuery.payload.length ≤ receiveSize := by decide
  exact short

/-- **The program refines its two parts.** In every run of the threads, in any order, each
worker is where the loop of one worker comes to, and what they share is where one server
comes to that does the activities of all of them one after another. -/
theorem program_refines {threadCount : Nat} (server : Server)
    (cassUuidFromString : List UInt8 → Option CassUuid) (database : Database)
    (sockets : Fin threadCount → Sockets) (turns : List (Turn threadCount))
    (received : ∀ turn ∈ turns, turn.Received) :
    let step := fun process => Process.step server cassUuidFromString process
    let start := Process.start database sockets
    let reached := Run.exec step start turns
    (∀ th, reached.seen th =
        Run.exec (fun worker => Worker.step worker server cassUuidFromString) (start.seen th)
          (Run.emitted step (fun process => process.roundsOf server cassUuidFromString th) start
            turns)) ∧
      reached.shared =
        (Run.exec (World.act server cassUuidFromString) (World.start database)
          (Run.emitted step Process.activities start turns)).shared :=
  ⟨worker_follows server cassUuidFromString database sockets turns,
    shared_follows server cassUuidFromString database sockets turns received⟩

/-- Two workers are asked for the same text, and the life cycle takes it in between. -/
theorem program_refines_two :
    let sockets : Fin 2 → Sockets := fun _ => ⟨5, 6, 7, []⟩
    let step := fun process => Process.step plainServer readsOne process
    let start := Process.start oneText sockets
    let turns := [.worker 0 textRound, .lifeCycle, .worker 1 textRound]
    let reached := Run.exec step start turns
    (∀ th, reached.seen th =
        Run.exec (fun worker => Worker.step worker plainServer readsOne) (start.seen th)
          (Run.emitted step (fun process => process.roundsOf plainServer readsOne th) start
            turns)) ∧
      reached.shared =
        (Run.exec (World.act plainServer readsOne) (World.start oneText)
          (Run.emitted step Process.activities start turns)).shared := by
  intro sockets step start turns reached
  refine program_refines plainServer readsOne oneText sockets turns ?_
  intro turn member
  simp only [turns, List.mem_cons, List.not_mem_nil, or_false] at member
  rcases member with rfl | rfl | rfl
  · exact textRound_received
  · trivial
  · exact textRound_received

/-! ## What goes out -/

/-- The query that a message on a connection is. -/
def Connection.query (conn : Connection) (arrival : Arrival) : Request :=
  match conn.type with
  | .UDP => arrival.request false arrival.peerIp
  | _ => arrival.request true conn.ip

/-- A response to the request with nothing in it that the activities did not give. -/
def ResponseOrigin (cassUuidFromString : List UInt8 → Option CassUuid) (server : Server)
    (database : Database) (activities : List Activity) (request : Request) (out : List UInt8) :
    Prop :=
  ∃ query truncated written,
    parseQuery (queryBuf request.payload) request.isTcp = .ok query ∧
      out = framed request.isTcp (responseMessage request query truncated written) ∧
      ∀ item ∈ written,
        AnswerOrigin cassUuidFromString server database activities request query item

section Responses

variable {threadCount : Nat} {server : Server}
  {cassUuidFromString : List UInt8 → Option CassUuid} {database : Database}

/-- The response of a world whose shared state a run of activities has brought about. -/
theorem response_hasOrigin {activities : List Activity}
    (received : ∀ activity ∈ activities, activity.Received) {world : World}
    (same : world.shared =
      (Run.exec (World.act server cassUuidFromString) (World.start database) activities).shared)
    {request : Request} (short : request.payload.length ≤ receiveSize) :
    ResponseOrigin cassUuidFromString server database activities request
      (world.response server request) := by
  obtain ⟨handled, query, written, runs, parses, responds⟩ := handle_responds server world.database
    world.caches world.recordQueue world.entryQueue world.rrlBuckets short
  have isOut : world.response server request = handled.out := by
    rw [World.response, World.respond, runs]
  refine ⟨query, handled.truncated, written, parses, isOut.trans responds.out, ?_⟩
  intro item isWritten
  have stood := responds.first.subset isWritten
  obtain ⟨sameCaches, -, -, sameDatabase⟩ := Shared.mk.inj same
  rw [sameCaches, sameDatabase] at stood
  exact answerOrigin_of_mem received stood

/-- A turn in which a worker handles a message. -/
def Process.Handles (process : Process threadCount) (turn : Turn threadCount)
    (th : Fin threadCount) (fd : Nat) (conn : Connection) (arrival : Arrival) : Prop :=
  process.running = true ∧ ∃ round, turn = .worker th round ∧
    (process.seen th).message round = some (fd, conn, arrival)

/-- What a worker has put out, one way or the other, behind a descriptor. -/
inductive Worker.HasPutOut (worker : Worker) : Nat → ConnectionType → List UInt8 → Prop
  | datagram {context : Context} (member : context ∈ worker.contexts) :
      worker.HasPutOut context.fd .UDP context.out
  | streamed {response : Produced} (member : response ∈ worker.produced) :
      worker.HasPutOut response.fd .TCP response.out

theorem hasPutOut_step {worker : Worker} {round : Round} {fd : Nat} {type : ConnectionType}
    {out : List UInt8}
    (present : (worker.step server cassUuidFromString round).HasPutOut fd type out) :
    worker.HasPutOut fd type out ∨ ∃ conn arrival,
      worker.message round = some (fd, conn, arrival) ∧ conn.type = type ∧
        out = worker.world.response server (conn.query arrival) := by
  cases brings : worker.message round with
  | none =>
      left
      cases @step_quiet server cassUuidFromString _ _ brings with
      | same kept same =>
          cases present with
          | datagram member => exact .datagram (same.contexts ▸ member)
          | streamed member => exact .streamed (same.produced ▸ member)
      | sent index isSent running isAfter =>
          rw [isAfter] at present
          cases present with
          | datagram member => exact .datagram (List.mem_of_mem_eraseIdx member)
          | streamed member => exact .streamed member
      | moved caches recordQueue entryQueue database isMoved running isAfter =>
          rw [isAfter] at present
          cases present with
          | datagram member => exact .datagram member
          | streamed member => exact .streamed member
  | some message =>
      obtain ⟨client, conn, arrival⟩ := message
      have answers := @step_message server cassUuidFromString _ _ _ _ _ brings
      cases present with
      | @datagram context member =>
          rw [answers.contexts] at member
          rcases List.mem_append.mp member with old | new
          · exact .inl (.datagram old)
          · right
            split at new
            · cases isType : conn.type with
              | UDP =>
                  simp only [Connection.datagrams, isType, List.mem_singleton] at new
                  subst new
                  exact ⟨conn, arrival, rfl, isType, by simp [Connection.query, isType]⟩
              | _ => simp [Connection.datagrams, isType] at new
            · cases new
      | @streamed response member =>
          rw [answers.produced] at member
          rcases List.mem_append.mp member with old | new
          · exact .inl (.streamed old)
          · right
            cases isType : conn.type with
            | TCP =>
                simp only [Connection.streamed, isType, List.mem_singleton] at new
                subst new
                exact ⟨conn, arrival, rfl, isType, by simp [Connection.query, isType]⟩
            | _ => simp [Connection.streamed, isType] at new

theorem hasPutOut_turn {process : Process threadCount} {turn : Turn threadCount}
    {th : Fin threadCount} {fd : Nat} {type : ConnectionType} {out : List UInt8}
    (present : ((process.step server cassUuidFromString turn).workers th).HasPutOut fd type
      out) :
    (process.workers th).HasPutOut fd type out ∨ ∃ conn arrival,
      process.Handles turn th fd conn arrival ∧ conn.type = type ∧
        out = (process.seen th).world.response server (conn.query arrival) := by
  rw [Process.step] at present
  split at present
  case isFalse => exact .inl present
  case isTrue running =>
    cases turn with
    | lifeCycle => exact .inl present
    | administer database => exact .inl present
    | worker other round =>
        by_cases isTh : th = other
        · subst isTh
          have stepped : ((process.seen th).step server cassUuidFromString round).HasPutOut fd type
              out := by
            simpa [Process.takeTurn, Process.takeRound] using present
          rcases hasPutOut_step stepped with old | ⟨conn, arrival, brings, isType, isOut⟩
          · cases old with
            | datagram member => exact .inl (.datagram member)
            | streamed member => exact .inl (.streamed member)
          · exact .inr ⟨conn, arrival, ⟨running, round, rfl, brings⟩, isType, isOut⟩
        · have untouched : (process.takeTurn server cassUuidFromString
              (.worker other round)).workers th = process.workers th :=
            Function.update_of_ne isTh ..
          rw [untouched] at present
          exact .inl present

/-- A query over UDP that finds an entry of the ring is answered. -/
theorem datagram_hasPutOut {process : Process threadCount} {th : Fin threadCount} {round : Round}
    {fd : Nat} {conn : Connection} {arrival : Arrival} (running : process.running = true)
    (brings : (process.seen th).message round = some (fd, conn, arrival))
    (isUdp : conn.type = .UDP) (sqe : round.sendSqe = true) :
    ((process.step server cassUuidFromString (.worker th round)).workers th).HasPutOut fd .UDP
      ((process.seen th).world.response server (conn.query arrival)) := by
  have stepped : (process.step server cassUuidFromString (.worker th round)).workers th =
      (process.seen th).step server cassUuidFromString round := by
    rw [Process.step, if_pos running]
    exact Function.update_self th _ process.workers
  have answers := @step_message server cassUuidFromString _ _ _ _ _ brings
  have member : Context.mk fd arrival.peerIp
      ((process.seen th).world.response server (conn.query arrival)) ∈
        ((process.seen th).step server cassUuidFromString round).contexts := by
    rw [answers.contexts, if_pos sqe, Connection.datagrams, Connection.query, isUdp]
    exact List.mem_append_right _ (List.mem_singleton_self _)
  rw [stepped]
  exact Worker.HasPutOut.datagram member

theorem Process.Handles.short {process : Process threadCount} {turn : Turn threadCount}
    {th : Fin threadCount} {fd : Nat} {conn : Connection} {arrival : Arrival}
    (handles : process.Handles turn th fd conn arrival) (received : turn.Received)
    (isQuery : conn.type ≠ .SYNC) : (conn.query arrival).payload.length ≤ receiveSize := by
  obtain ⟨-, round, rfl, brings⟩ := handles
  have short := message_arrival brings received
  rw [Connection.activity] at short
  rw [Connection.query]
  cases isType : conn.type with
  | SYNC => exact absurd isType isQuery
  | TCP =>
      rw [isType] at short
      exact short
  | UDP =>
      rw [isType] at short
      exact short

end Responses

/-- **Nothing goes out that was not given.** Let the threads take any turns. Each datagram
that a worker has on its way, and each response that it has made over TCP, answers a
message that this worker took in the run, and every answer in it has an origin in what
the threads did before that message. -/
theorem responses_have_origin {threadCount : Nat} (server : Server)
    (cassUuidFromString : List UInt8 → Option CassUuid) (database : Database)
    (sockets : Fin threadCount → Sockets) (turns : List (Turn threadCount))
    (received : ∀ turn ∈ turns, turn.Received) (th : Fin threadCount) (fd : Nat)
    (type : ConnectionType) (out : List UInt8) :
    let step := fun process => Process.step server cassUuidFromString process
    let start := Process.start database sockets
    ((Run.exec step start turns).workers th).HasPutOut fd type out →
      ∃ before turn after conn arrival, turns = before ++ turn :: after ∧
        (Run.exec step start before).Handles turn th fd conn arrival ∧ conn.type = type ∧
        ResponseOrigin cassUuidFromString server database
          (Run.emitted step Process.activities start before) (conn.query arrival) out := by
  intro step start present
  have origin : ∀ (process : Process threadCount) (turn : Turn threadCount) (_ : Unit), True →
      True → ((step process turn).workers th).HasPutOut fd type out →
      (process.workers th).HasPutOut fd type out ∨ ∃ conn arrival,
        process.Handles turn th fd conn arrival ∧ conn.type = type ∧
          out = (process.seen th).world.response server (conn.query arrival) :=
    fun _ _ _ _ _ isPresent => hasPutOut_turn isPresent
  obtain atStart | ⟨before, turn, after, rfl, conn, arrival, handles, isType, isOut⟩ :=
    @Run.given_of_exec _ _ step (fun _ => True) (fun _ => True) Unit
      (fun process _ => (process.workers th).HasPutOut fd type out)
      (fun process turn _ => ∃ conn arrival, process.Handles turn th fd conn arrival ∧
        conn.type = type ∧ out = (process.seen th).world.response server (conn.query arrival))
      (fun _ _ _ _ => trivial) origin turns start trivial (fun _ _ => trivial) () present
  · cases atStart with
    | datagram member => cases member
    | streamed member => cases member
  · have receivedBefore : ∀ turn ∈ before, turn.Received := fun other member =>
      received other (List.mem_append_left _ member)
    have isQuery : conn.type ≠ .SYNC := by
      rw [isType]
      rintro rfl
      cases present
    refine ⟨before, turn, after, conn, arrival, rfl, handles, isType, ?_⟩
    rw [isOut]
    refine response_hasOrigin (emitted_received receivedBefore) ?_
      (handles.short (received turn (by simp)) isQuery)
    exact shared_follows server cassUuidFromString database sockets before receivedBefore

/-- The sockets of a single worker. -/
def oneSockets : Fin 1 → Sockets := fun _ => ⟨5, 6, 7, []⟩

/-- The text is added to the database and then asked for over UDP. -/
theorem responses_have_origin_text :
    let step := fun process => Process.step plainServer readsOne process
    let start := Process.start emptyDatabase oneSockets
    let turns := [.administer oneText, .worker 0 textRound]
    let out := (World.start oneText).response plainServer textQuery
    ((Run.exec step start turns).workers 0).HasPutOut 5 .UDP out ∧
      ∃ before turn after conn arrival, turns = before ++ turn :: after ∧
        (Run.exec step start before).Handles turn 0 5 conn arrival ∧ conn.type = .UDP ∧
        ResponseOrigin readsOne plainServer emptyDatabase
          (Run.emitted step Process.activities start before) (conn.query arrival) out := by
  intro step start turns out
  have running : (step start (.administer oneText)).running = true := rfl
  have brings : ((step start (.administer oneText)).seen 0).message textRound =
      some (5, ⟨.UDP, 0, 0, [], 1⟩, .plain textQuery.payload) := rfl
  have world : World.start oneText = ((step start (.administer oneText)).seen 0).world := rfl
  have query : textQuery = Connection.query ⟨.UDP, 0, 0, [], 1⟩ (.plain textQuery.payload) := rfl
  have present : ((Run.exec step start turns).workers 0).HasPutOut 5 .UDP out := by
    have isOut := congrArg₂ (World.response plainServer) world query
    have answered := @datagram_hasPutOut _ plainServer readsOne _ _ _ _ _ _ running brings rfl rfl
    rw [← isOut] at answered
    exact answered
  refine ⟨present, responses_have_origin plainServer readsOne emptyDatabase oneSockets turns ?_ 0 5
    .UDP out present⟩
  intro turn member
  simp only [turns, List.mem_cons, List.not_mem_nil, or_false] at member
  rcases member with rfl | rfl
  · trivial
  · exact textRound_received

end EdgeDNS.Core
