import EdgeDNS.Core.Activities
import EdgeDNS.Core.Worker
import EdgeDNS.Library.Run

/-!
# Messages of the worker loop

What a round of the loop does to the world, and what it puts out, is decided by the
message that it takes from a read. Without a message it does neither (`step_quiet`).
With one it is an activity of the whole server, and what goes out is the response of
the world before it (`step_message`).

A datagram has a buffer of its own, so nothing that comes later can change it. In every
run the datagrams that were queued are those that have left and those that are still
on their way, each as it was computed (`datagrams_conserved`).
-/

set_option autoImplicit false

namespace EdgeDNS.Core

open Worker

/-- What a message on a connection asks of the server. -/
def Connection.activity (conn : Connection) (arrival : Arrival) : Activity :=
  match conn.type with
  | .SYNC => .sync arrival.syncRequest
  | .TCP => .query (arrival.request true conn.ip)
  | .UDP => .query (arrival.request false arrival.peerIp)

/-- The message that a round brings to the handler, with its connection. -/
def Worker.message (worker : Worker) (round : Round) : Option (Nat × Connection × Arrival) :=
  match round.event with
  | .read index (.message _ arrival) _ =>
      if worker.running then
        (worker.reads[index]?).bind fun read =>
          (worker.connections read.fd).map fun conn => (read.fd, conn, arrival)
      else none
  | _ => none

/-- The datagrams that answer a message. -/
def Connection.datagrams (server : Server) (world : World) (fd : Nat) (conn : Connection)
    (arrival : Arrival) : List Context :=
  match conn.type with
  | .UDP =>
      [⟨fd, arrival.peerIp, world.response server (arrival.request false arrival.peerIp)⟩]
  | _ => []

/-- The responses over TCP that answer a message. -/
def Connection.streamed (server : Server) (world : World) (fd : Nat) (conn : Connection)
    (arrival : Arrival) : List Produced :=
  match conn.type with
  | .TCP => [⟨fd, world.response server (arrival.request true conn.ip)⟩]
  | _ => []

/-- The datagrams that have left with a round. -/
def Worker.sentDatagrams (worker : Worker) (round : Round) : List Context :=
  match round.event with
  | .contextSent index => if worker.running then (worker.contexts[index]?).toList else []
  | _ => []

/-! ## What the moves leave alone -/

/-- Neither the world nor anything that goes out is different. -/
structure SameOutputs (before after : Worker) : Prop where
  world : after.world = before.world
  contexts : after.contexts = before.contexts
  produced : after.produced = before.produced

namespace SameOutputs

variable {worker after last : Worker} {fd : Nat} {conn : Connection} {multishot sqe : Bool}

theorem refl (worker : Worker) : SameOutputs worker worker := ⟨rfl, rfl, rfl⟩

theorem trans (first : SameOutputs worker after) (second : SameOutputs after last) :
    SameOutputs worker last :=
  ⟨second.world.trans first.world, second.contexts.trans first.contexts,
    second.produced.trans first.produced⟩

theorem armRead : SameOutputs worker (worker.armRead multishot sqe fd conn) := by
  cases sqe <;> exact ⟨rfl, rfl, rfl⟩

theorem rearm : SameOutputs worker (worker.rearm sqe fd) := by
  rw [Worker.rearm]
  split
  · exact refl worker
  · split
    · exact armRead
    · exact armRead

theorem failed : SameOutputs worker (worker.failed sqe fd) := by
  rw [Worker.failed]
  split
  · exact refl worker
  · split
    · exact armRead
    · exact ⟨rfl, rfl, rfl⟩

theorem queueMultishotAccept : SameOutputs worker (worker.queueMultishotAccept sqe fd) := by
  cases sqe <;> exact ⟨rfl, rfl, rfl⟩

theorem queueWriteTcp : SameOutputs worker (worker.queueWriteTcp sqe fd conn) := by
  cases sqe <;> exact ⟨rfl, rfl, rfl⟩

theorem writeCompleted {round : Round} {send : Send} {ok : Bool} :
    SameOutputs worker (worker.writeCompleted round send ok) := by
  rw [Worker.writeCompleted]
  split
  · split
    · split
      · exact armRead
      · exact refl worker
    · exact refl worker
  · exact failed

end SameOutputs

/-! ## Rounds -/

/-- A message is handled: the world takes the activity, and the response of the world
before it goes out. -/
structure Answers (server : Server) (cassUuidFromString : List UInt8 → Option CassUuid)
    (sqe : Bool) (fd : Nat) (conn : Connection) (arrival : Arrival) (before after : Worker) :
    Prop where
  world : after.world = before.world.act server cassUuidFromString (conn.activity arrival)
  contexts : after.contexts =
    before.contexts ++ if sqe then conn.datagrams server before.world fd arrival else []
  produced : after.produced = before.produced ++ conn.streamed server before.world fd arrival

section Rounds

variable {server : Server} {cassUuidFromString : List UInt8 → Option CassUuid}
  {worker after last : Worker} {round : Round} {fd : Nat} {conn : Connection} {sqe : Bool}
  {arrival : Arrival}

theorem Answers.trans
    (answers : Answers server cassUuidFromString sqe fd conn arrival worker after)
    (same : SameOutputs after last) :
    Answers server cassUuidFromString sqe fd conn arrival worker last :=
  ⟨same.world.trans answers.world, same.contexts.trans answers.contexts,
    same.produced.trans answers.produced⟩

theorem Answers.receive (worker : Worker) (fd : Nat) (conn : Connection) (sqe : Bool)
    (arrival : Arrival) :
    Answers server cassUuidFromString sqe fd conn arrival worker
      (worker.receive server cassUuidFromString sqe fd conn arrival) := by
  rw [Worker.receive]
  cases isType : conn.type with
  | SYNC =>
      have nothing : (if sqe then conn.datagrams server worker.world fd arrival else []) = [] := by
        simp [Connection.datagrams, isType]
      have none : conn.streamed server worker.world fd arrival = [] := by
        simp [Connection.streamed, isType]
      have asks : conn.activity arrival = .sync arrival.syncRequest := by
        simp [Connection.activity, isType]
      rw [Worker.receiveSync]
      cases serves : serveSync cassUuidFromString arrival.syncRequest worker.world.caches with
      | error failure =>
          refine ⟨?_, by simp [nothing], by simp [none]⟩
          simp only [asks, World.act, World.serveRequest, serves]
      | ok served =>
          refine Answers.trans ?_ SameOutputs.queueWriteTcp
          refine ⟨?_, by simp [nothing, Worker.put], by simp [none, Worker.put]⟩
          simp only [asks, World.act, World.serveRequest, serves, Worker.put]
  | TCP =>
      refine Answers.trans ?_ SameOutputs.queueWriteTcp
      refine ⟨?_, ?_, ?_⟩
      · simp [Connection.activity, isType, World.act, Worker.put]
      · simp [Connection.datagrams, isType, Worker.put]
      · simp [Connection.streamed, isType, Worker.put]
  | UDP =>
      cases sqe with
      | false =>
          refine ⟨?_, ?_, ?_⟩
          · simp [Connection.activity, isType, World.act, Worker.receiveUdp, Worker.queueWriteUdp]
          · simp [Worker.receiveUdp, Worker.queueWriteUdp]
          · simp [Connection.streamed, isType, Worker.receiveUdp, Worker.queueWriteUdp]
      | true =>
          refine ⟨?_, ?_, ?_⟩
          · simp [Connection.activity, isType, World.act, Worker.receiveUdp, Worker.queueWriteUdp]
          · simp [Connection.datagrams, isType, Worker.receiveUdp, Worker.queueWriteUdp]
          · simp [Connection.streamed, isType, Worker.receiveUdp, Worker.queueWriteUdp]

/-- A message on an open connection is handled, whether its read goes on or not. -/
theorem Answers.readCompleted (worker : Worker) {read : ArmedRead}
    (isConn : worker.connections read.fd = some conn) (round : Round) (bufId : Nat)
    (arrival : Arrival) (hasMore : Bool) :
    Answers server cassUuidFromString round.sendSqe read.fd conn arrival worker
      (worker.readCompleted server cassUuidFromString round read (.message bufId arrival)
        hasMore) := by
  have answers := @Answers.receive server cassUuidFromString (worker.useBuffer read bufId) read.fd
    conn round.sendSqe arrival
  have used : (worker.useBuffer read bufId).connections read.fd = some conn := isConn
  simp only [Worker.readCompleted, used]
  split
  · exact ⟨answers.world, answers.contexts, answers.produced⟩
  · have rearmed := answers.trans (@SameOutputs.rearm _ read.fd round.readSqe)
    exact ⟨rearmed.world, rearmed.contexts, rearmed.produced⟩

/-- **A message is handled as an activity of the whole server.** -/
theorem step_message (brings : worker.message round = some (fd, conn, arrival)) :
    Answers server cassUuidFromString round.sendSqe fd conn arrival worker
      (worker.step server cassUuidFromString round) := by
  obtain ⟨event, sendSqe, readSqe⟩ := round
  cases event with
  | read index received more =>
      cases received with
      | failed => cases brings
      | invalid bufId => cases brings
      | message bufId arrived =>
          simp only [Worker.message] at brings
          split at brings
          case isFalse => cases brings
          case isTrue running =>
            obtain ⟨read, isRead, found⟩ := Option.bind_eq_some_iff.mp brings
            obtain ⟨client, isConn, same⟩ := Option.map_eq_some_iff.mp found
            obtain ⟨rfl, rfl, rfl⟩ : read.fd = fd ∧ client = conn ∧ arrived = arrival := by
              simpa using same
            rw [Worker.step, if_pos running]
            simp only [Worker.handleEvent, isRead]
            generalize (if (more && read.multishot) = true then worker.reads
              else worker.reads.eraseIdx index) = reads
            have answers := @Answers.readCompleted server cassUuidFromString client
              { worker with reads := reads } read isConn
              ⟨.read index (.message bufId arrived) more, sendSqe, readSqe⟩ bufId arrived
              (more && read.multishot)
            exact ⟨answers.world, answers.contexts, answers.produced⟩
  | accepted index clientFd ip memory more => cases brings
  | acceptFailed index => cases brings
  | written index ok => cases brings
  | transmit index freed => cases brings
  | contextSent index => cases brings
  | elsewhere caches recordQueue entryQueue database => cases brings

/-- A round without a message: a datagram has left, the rest of the program has moved, or
neither the world nor what goes out is different. -/
inductive Quiet (worker : Worker) (round : Round) (after : Worker) : Prop
  | same (kept : worker.sentDatagrams round = []) (same : SameOutputs worker after)
  | sent (index : Nat) (isSent : round.event = .contextSent index)
      (running : worker.running = true)
      (isAfter : after = { worker with contexts := worker.contexts.eraseIdx index })
  | moved (caches : Caches) (recordQueue : List Operational.Record)
      (entryQueue : List Operational.Entry) (database : Database)
      (isMoved : round.event = .elsewhere caches recordQueue entryQueue database)
      (running : worker.running = true)
      (isAfter : after = { worker with
        world := { worker.world with
          caches := caches, recordQueue := recordQueue, entryQueue := entryQueue
          database := database } })

/-- **A round without a message asks nothing of the server.** -/
theorem step_quiet (quiet : worker.message round = none) :
    Quiet worker round (worker.step server cassUuidFromString round) := by
  rw [Worker.step]
  split
  case isFalse stopped =>
    refine .same ?_ (.refl worker)
    rw [Worker.sentDatagrams]
    split
    · exact if_neg stopped
    · rfl
  case isTrue running =>
    obtain ⟨event, sendSqe, readSqe⟩ := round
    cases event with
    | contextSent index => exact .sent index rfl running rfl
    | elsewhere caches recordQueue entryQueue database =>
        exact .moved caches recordQueue entryQueue database rfl running rfl
    | accepted index clientFd ip memory more =>
        refine .same rfl ?_
        simp only [Worker.handleEvent]
        split
        · refine SameOutputs.trans ?_ SameOutputs.rearm
          exact ⟨rfl, rfl, rfl⟩
        · exact .refl worker
    | acceptFailed index =>
        refine .same rfl ?_
        simp only [Worker.handleEvent]
        split
        · have disarmed : SameOutputs worker
              { worker with accepts := worker.accepts.eraseIdx index } := ⟨rfl, rfl, rfl⟩
          exact (disarmed.trans SameOutputs.failed).trans SameOutputs.queueMultishotAccept
        · exact .refl worker
    | written index ok =>
        refine .same rfl ?_
        simp only [Worker.handleEvent]
        split
        · split
          · exact .refl worker
          · refine SameOutputs.trans ?_ SameOutputs.writeCompleted
            exact ⟨rfl, rfl, rfl⟩
        · exact .refl worker
    | transmit index freed =>
        refine .same rfl ?_
        simp only [Worker.handleEvent]
        split
        · split
          · exact .refl worker
          · exact ⟨rfl, rfl, rfl⟩
        · exact .refl worker
    | read index received more =>
        refine .same rfl ?_
        simp only [Worker.handleEvent]
        cases isRead : worker.reads[index]? with
        | none => exact .refl worker
        | some read =>
            cases received with
            | failed =>
                refine SameOutputs.trans ?_ SameOutputs.failed
                exact ⟨rfl, rfl, rfl⟩
            | invalid bufId => exact ⟨rfl, rfl, rfl⟩
            | message bufId arrival =>
                have closed : worker.connections read.fd = none := by
                  simpa [Worker.message, running, isRead] using quiet
                simp only [Worker.readCompleted, Worker.useBuffer, closed]
                exact ⟨rfl, rfl, rfl⟩

end Rounds

/-! ## Datagrams -/

section Datagrams

variable (server : Server) (cassUuidFromString : List UInt8 → Option CassUuid)

/-- The datagrams that a round queues: the answer to its message, when the ring has an
entry for it. -/
def Worker.queuedDatagrams (worker : Worker) (round : Round) : List Context :=
  match worker.message round with
  | some (fd, conn, arrival) =>
      if round.sendSqe then conn.datagrams server worker.world fd arrival else []
  | none => []

variable {server cassUuidFromString} {worker : Worker} {round : Round}

theorem sentDatagrams_of_message {fd : Nat} {conn : Connection} {arrival : Arrival}
    (brings : worker.message round = some (fd, conn, arrival)) :
    worker.sentDatagrams round = [] := by
  obtain ⟨event, sendSqe, readSqe⟩ := round
  cases event with
  | contextSent index => cases brings
  | _ => rfl

/-- A datagram that was on its way has left or is still on its way. -/
theorem contexts_perm (index : Nat) :
    (worker.contexts).Perm
      ((worker.contexts[index]?).toList ++ worker.contexts.eraseIdx index) := by
  cases isContext : worker.contexts[index]? with
  | none =>
      rw [List.eraseIdx_of_length_le (List.getElem?_eq_none_iff.mp isContext)]
      exact .refl _
  | some context =>
      obtain ⟨inside, rfl⟩ := List.getElem?_eq_some_iff.mp isContext
      exact (List.getElem_cons_eraseIdx_perm inside).symm

theorem datagrams_balance (worker : Worker) (round : Round) :
    (worker.contexts ++ worker.queuedDatagrams server round).Perm
      (worker.sentDatagrams round ++
        (worker.step server cassUuidFromString round).contexts) := by
  cases brings : worker.message round with
  | some message =>
      obtain ⟨fd, conn, arrival⟩ := message
      have answers := @step_message server cassUuidFromString _ _ _ _ _ brings
      rw [answers.contexts, sentDatagrams_of_message brings, Worker.queuedDatagrams, brings]
      exact .refl _
  | none =>
      have queued : worker.queuedDatagrams server round = [] := by
        rw [Worker.queuedDatagrams, brings]
      rw [queued, List.append_nil]
      cases @step_quiet server cassUuidFromString _ _ brings with
      | same kept same =>
          rw [same.contexts, kept]
          exact .refl _
      | sent index isSent running isAfter =>
          obtain ⟨event, sendSqe, readSqe⟩ := round
          obtain rfl : event = .contextSent index := isSent
          simp only [isAfter, Worker.sentDatagrams, running, if_true]
          exact contexts_perm index
      | moved caches recordQueue entryQueue database isMoved running isAfter =>
          obtain ⟨event, sendSqe, readSqe⟩ := round
          obtain rfl : event = .elsewhere caches recordQueue entryQueue database := isMoved
          simp only [isAfter, Worker.sentDatagrams]
          exact .refl _

/-- What is on its way stays in order behind what was queued before it. -/
theorem contexts_sublist (worker : Worker) (round : Round) :
    (worker.step server cassUuidFromString round).contexts.Sublist
      (worker.contexts ++ worker.queuedDatagrams server round) := by
  cases brings : worker.message round with
  | some message =>
      obtain ⟨fd, conn, arrival⟩ := message
      have answers := @step_message server cassUuidFromString _ _ _ _ _ brings
      rw [answers.contexts, Worker.queuedDatagrams, brings]
  | none =>
      have queued : worker.queuedDatagrams server round = [] := by
        rw [Worker.queuedDatagrams, brings]
      rw [queued, List.append_nil]
      cases @step_quiet server cassUuidFromString _ _ brings with
      | same kept same => rw [same.contexts]
      | sent index isSent running isAfter =>
          rw [isAfter]
          exact List.eraseIdx_sublist ..
      | moved caches recordQueue entryQueue database isMoved running isAfter => rw [isAfter]

end Datagrams

/-- **No datagram is lost, sent twice or changed.** In every run of the loop the answers
queued over UDP are, as they were computed, those that have left together with those that
are on their way, which are in the order of their queries. -/
theorem datagrams_conserved (server : Server)
    (cassUuidFromString : List UInt8 → Option CassUuid) (world : World)
    (udpFd tcpFd syncFd : Nat) (memory : List UInt8) (rounds : List Round) :
    let step := fun worker => Worker.step worker server cassUuidFromString
    let start := Worker.start world udpFd tcpFd syncFd memory
    let queued := Run.emitted step (fun worker => worker.queuedDatagrams server) start rounds
    let onTheWay := (Run.exec step start rounds).contexts
    queued.Perm (Run.emitted step Worker.sentDatagrams start rounds ++ onTheWay) ∧
      onTheWay.Sublist queued := by
  intro step start queued onTheWay
  have nothing : start.contexts = [] := rfl
  have balanced := @Run.conserved _ _ step _ Worker.contexts
    (fun worker => worker.queuedDatagrams server) Worker.sentDatagrams datagrams_balance start
    rounds
  have ordered := @Run.sublist_emitted _ _ step _ Worker.contexts
    (fun worker => worker.queuedDatagrams server) contexts_sublist start rounds
  rw [nothing, List.nil_append] at balanced ordered
  exact ⟨balanced, ordered⟩

end EdgeDNS.Core
