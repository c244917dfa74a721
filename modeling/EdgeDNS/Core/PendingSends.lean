import EdgeDNS.Core.Worker
import EdgeDNS.Library.Outstanding

/-!
# The pending sends of a worker

A connection has one write buffer. A send over TCP points into it, and the
kernel reads the bytes when it performs the send. `OwnResponses` says that the
sends over TCP and the responses that `handle` produced come in step, and that
what has been transmitted for a send is its response.

Nothing in the loop knows of pending sends. A multishot read brings the next
query while the response to the last one is still to be sent, and its response
goes to the same buffer. `AwaitsSends` says that this does not happen: a query
over TCP is handled when no send of its connection is pending and the ring has
an entry for its response, and a send is performed while its connection is
there. Along such runs every client receives its own responses, and no buffer
changes under a pending send (`ownResponses_of_awaitsSends`).
-/

set_option autoImplicit false

namespace EdgeDNS.Core

open Outstanding

/-- A send of a client over TCP. -/
def Send.isTcp (send : Send) : Bool := send.type = .TCP

/-- A send that belongs to a response, and transmitted nothing else. -/
structure SendsResponse (send : Send) (response : Produced) : Prop where
  fd : send.fd = response.fd
  bytes : ∀ bytes, send.transmitted = some bytes → bytes = response.out

/-- The sends over TCP are those of the responses, in their order, and each
transmits its own. -/
def OwnResponses (worker : Worker) : Prop :=
  InStep Send.isTcp SendsResponse worker.sends worker.produced

instance (send : Send) (response : Produced) : Decidable (SendsResponse send response) :=
  decidable_of_iff (send.fd = response.fd ∧ ∀ bytes ∈ send.transmitted, bytes = response.out)
    ⟨fun holds => ⟨holds.1, fun bytes sent => holds.2 bytes sent⟩,
      fun holds => ⟨holds.fd, fun bytes sent => holds.bytes bytes sent⟩⟩

instance (worker : Worker) : Decidable (OwnResponses worker) :=
  inferInstanceAs (Decidable (List.Forall₂ _ _ _))

/-- A round leaves the write buffer and the length of a connection alone while a
send from them is pending. -/
def KeepsBuffers (server : Server) (cassUuidFromString : List UInt8 → Option CassUuid)
    (worker : Worker) (round : Round) : Prop :=
  ∀ send ∈ worker.sends, send.isTcp = true → send.completed = false → send.detached = false →
    ∀ conn after, worker.connections send.fd = some conn →
      (worker.step server cassUuidFromString round).connections send.fd = some after →
        after.writeBuffer = conn.writeBuffer ∧ after.len = conn.len

/-- A query over TCP finds no pending send of its connection and an entry for its
response, and a send is performed while its connection is there. -/
def AwaitsSends (worker : Worker) (round : Round) : Prop :=
  worker.running = true →
    match round.event with
    | .read index (.message _ _) _ =>
        ∀ read conn, worker.reads[index]? = some read →
          worker.connections read.fd = some conn → conn.type = .TCP →
            round.sendSqe = true ∧
              ∀ send ∈ worker.sends, send.fd = read.fd → send.detached = false →
                send.completed = true
    | .transmit index _ =>
        ∀ send, worker.sends[index]? = some send → send.isTcp = true → send.completed = false →
          send.transmitted = none → send.detached = false
    | _ => True

/-! ## What a round does to the write buffers -/

/-- What a send looks at. -/
def Connection.written (conn : Connection) : ConnectionType × Nat × List UInt8 :=
  (conn.type, conn.len, conn.writeBuffer)

/-- The sends, the responses and the write buffers are the same. -/
structure SameWrites (before after : Worker) : Prop where
  sends : after.sends = before.sends
  produced : after.produced = before.produced
  written : ∀ fd, (after.connections fd).map Connection.written =
    (before.connections fd).map Connection.written

/-- What a round may do to the sends, the responses and the write buffers. -/
inductive Writes (server : Server) (worker : Worker) (round : Round) : Worker → Prop
  | nothing : Writes server worker round worker
  | entered {fd : Nat} (vacant : worker.connections fd = none) (conn : Connection) :
      Writes server worker round (worker.put fd conn)
  | erased (fd : Nat) : Writes server worker round (worker.erase fd)
  | sync {fd : Nat} {conn : Connection} (isConn : worker.connections fd = some conn)
      (isSync : conn.type = .SYNC) (out : List UInt8) (sqe : Bool) :
      Writes server worker round
        ((worker.put fd (conn.fill out)).queueWriteTcp sqe fd (conn.fill out))
  | tcp {index bufId : Nat} {arrival : Arrival} {more : Bool} {read : ArmedRead}
      {conn : Connection} (event : round.event = .read index (.message bufId arrival) more)
      (armed : worker.reads[index]? = some read)
      (isConn : worker.connections read.fd = some conn) (isTcp : conn.type = .TCP) :
      Writes server worker round (worker.receiveTcp server round.sendSqe read.fd conn arrival)
  | transmitted {index : Nat} {freed : List UInt8} {send : Send}
      (event : round.event = .transmit index freed) (isSend : worker.sends[index]? = some send)
      (pending : send.completed = false) (unsent : send.transmitted = none) :
      Writes server worker round
        { worker with
          sends := worker.sends.set index
            { send with transmitted := some (worker.bytesFor send freed) } }
  | completed {index : Nat} {send : Send} (isSend : worker.sends[index]? = some send) :
      Writes server worker round
        { worker with sends := worker.sends.set index { send with completed := true } }
  | broken {index : Nat} {send : Send} (isSend : worker.sends[index]? = some send) (fd : Nat) :
      Writes server worker round
        ({ worker with sends := worker.sends.set index { send with completed := true } }.erase fd)

section Moves

variable {worker : Worker} {fd : Nat} {conn : Connection}

theorem SameWrites.refl (worker : Worker) : SameWrites worker worker := ⟨rfl, rfl, fun _ => rfl⟩

theorem SameWrites.trans {first second third : Worker} (same : SameWrites first second)
    (same' : SameWrites second third) : SameWrites first third where
  sends := same'.sends.trans same.sends
  produced := same'.produced.trans same.produced
  written := fun fd => (same'.written fd).trans (same.written fd)

theorem SameWrites.armRead (isConn : worker.connections fd = some conn) (multishot sqe : Bool) :
    SameWrites worker (worker.armRead multishot sqe fd conn) := by
  cases sqe with
  | false => exact .refl worker
  | true =>
      refine ⟨rfl, rfl, fun other => ?_⟩
      by_cases same : other = fd
      · rw [same, worker.armRead_self conn multishot, isConn]
        rfl
      · rw [worker.armRead_of_ne conn multishot same]

theorem SameWrites.rearm (worker : Worker) (sqe : Bool) (fd : Nat) :
    SameWrites worker (worker.rearm sqe fd) := by
  rw [Worker.rearm]
  split
  · exact .refl worker
  · next conn isConn =>
      split
      · exact .armRead isConn false sqe
      · exact .armRead isConn true sqe

/-- A completion with an error erases its connection or changes nothing. -/
theorem failed_writes (worker : Worker) (sqe : Bool) (fd : Nat) :
    SameWrites worker (worker.failed sqe fd) ∨ worker.failed sqe fd = worker.erase fd := by
  rw [Worker.failed]
  split
  · exact .inl (.refl worker)
  · next conn isConn =>
      split
      · exact .inl (.armRead isConn true sqe)
      · exact .inr rfl

theorem SameWrites.queueMultishotAccept (worker : Worker) (sqe : Bool) (fd : Nat) :
    SameWrites worker (worker.queueMultishotAccept sqe fd) := by
  rw [Worker.queueMultishotAccept]
  split <;> exact ⟨rfl, rfl, fun _ => rfl⟩

end Moves

section Steps

variable {server : Server} {cassUuidFromString : List UInt8 → Option CassUuid} {worker : Worker}
  {round : Round}

/-- What a completed read does. -/
theorem readCompleted_writes {index : Nat} {received : Received} {more hasMore : Bool}
    {read : ArmedRead} (event : round.event = .read index received more)
    (armed : worker.reads[index]? = some read) (reads : List ArmedRead) :
    ∃ after, Writes server worker round after ∧
      SameWrites after ({ worker with reads := reads }.readCompleted server cassUuidFromString round
        read received hasMore) := by
  cases received with
  | failed =>
      rcases failed_writes { worker with reads := reads } round.readSqe read.fd with same | erases
      · exact ⟨worker, .nothing, same.sends, same.produced, same.written⟩
      · refine ⟨_, .erased read.fd, ?_⟩
        rw [Worker.readCompleted, erases]
        exact ⟨rfl, rfl, fun _ => rfl⟩
  | invalid bufId => exact ⟨worker, .nothing, rfl, rfl, fun _ => rfl⟩
  | message bufId arrival =>
      obtain ⟨used, isUsed⟩ : ∃ used, used = { worker with reads := reads }.useBuffer read bufId :=
        ⟨_, rfl⟩
      have usedConn : used.connections read.fd = worker.connections read.fd := by rw [isUsed]; rfl
      simp only [Worker.readCompleted, ← isUsed, usedConn]
      split
      · exact ⟨worker, .nothing, by rw [isUsed]; exact ⟨rfl, rfl, fun _ => rfl⟩⟩
      · next conn isConn =>
          have receives : ∃ after, Writes server worker round after ∧ SameWrites after
              (used.receive server cassUuidFromString round.sendSqe read.fd conn arrival) := by
            rw [Worker.receive]
            split
            · next isSync =>
                rw [Worker.receiveSync]
                split
                · exact ⟨worker, .nothing, by rw [isUsed]; exact ⟨rfl, rfl, fun _ => rfl⟩⟩
                · next response caches _ =>
                    refine ⟨_, .sync isConn isSync (bytesOf response) round.sendSqe, ?_⟩
                    rw [isUsed, Worker.queueWriteTcp, Worker.queueWriteTcp]
                    split <;> exact ⟨rfl, rfl, fun _ => rfl⟩
            · next isTcp =>
                refine ⟨_, .tcp event armed isConn isTcp, ?_⟩
                rw [isUsed, Worker.receiveTcp, Worker.receiveTcp, Worker.queueWriteTcp,
                  Worker.queueWriteTcp]
                split <;> exact ⟨rfl, rfl, fun _ => rfl⟩
            · refine ⟨worker, .nothing, ?_⟩
              rw [isUsed, Worker.receiveUdp, Worker.queueWriteUdp]
              split <;> exact ⟨rfl, rfl, fun _ => rfl⟩
          obtain ⟨after, writes, same⟩ := receives
          refine ⟨after, writes, ?_⟩
          split
          · exact same
          · exact same.trans (.rearm ..)

/-- What a completed send does. -/
theorem writeCompleted_writes {index : Nat} {send : Send}
    (isSend : worker.sends[index]? = some send) (ok : Bool) :
    ∃ after, Writes server worker round after ∧
      SameWrites after
        ({ worker with
            sends := worker.sends.set index { send with completed := true } }.writeCompleted
          round send ok) := by
  obtain ⟨marked, isMarked⟩ : ∃ marked, marked =
      { worker with sends := worker.sends.set index { send with completed := true } } := ⟨_, rfl⟩
  have completed : Writes server worker round marked := isMarked ▸ .completed isSend
  have broken : Writes server worker round (marked.erase send.fd) :=
    isMarked ▸ .broken isSend send.fd
  rw [← isMarked, Worker.writeCompleted]
  split
  · refine ⟨marked, completed, ?_⟩
    split
    · next conn isConn =>
        split
        · exact .armRead isConn false round.readSqe
        · exact .refl marked
    · exact .refl marked
  · rcases failed_writes marked round.readSqe send.fd with same | erases
    · exact ⟨marked, completed, same⟩
    · rw [erases]
      exact ⟨_, broken, .refl _⟩

/-- **What a round does to the write buffers.** -/
theorem handleEvent_writes :
    ∃ after, Writes server worker round after ∧
      SameWrites after (worker.handleEvent server cassUuidFromString round) := by
  have idle : ∃ after, Writes server worker round after ∧ SameWrites after worker :=
    ⟨worker, .nothing, .refl worker⟩
  rw [Worker.handleEvent]
  split
  · next index clientFd ip memory more event =>
      split
      · next listening isListening vacant =>
          obtain ⟨conn, isConn⟩ : ∃ conn, conn = Connection.entered
              (if listening = worker.tcpFd then ConnectionType.TCP else .SYNC) ip memory :=
            ⟨_, rfl⟩
          obtain ⟨accepts, isAccepts⟩ : ∃ accepts, accepts =
              if more then worker.accepts else worker.accepts.eraseIdx index := ⟨_, rfl⟩
          have same := SameWrites.rearm ({ worker with accepts := accepts }.put clientFd conn)
            round.readSqe clientFd
          refine ⟨_, .entered vacant conn, ?_⟩
          rw [Worker.acceptCompleted, ← isAccepts, ← isConn]
          exact ⟨same.sends, same.produced, same.written⟩
      · exact idle
  · next index event =>
      split
      · next listening isListening =>
          have queued := fun after : Worker =>
            SameWrites.queueMultishotAccept after round.sendSqe listening
          rcases failed_writes { worker with accepts := worker.accepts.eraseIdx index }
            round.readSqe listening with same | erases
          · have kept : SameWrites worker _ := ⟨same.sends, same.produced, same.written⟩
            exact ⟨worker, .nothing, kept.trans (queued _)⟩
          · rw [erases]
            have kept : SameWrites (worker.erase listening)
                ({ worker with accepts := worker.accepts.eraseIdx index }.erase listening) :=
              ⟨rfl, rfl, fun _ => rfl⟩
            exact ⟨_, .erased listening, kept.trans (queued _)⟩
      · exact idle
  · next index received more event =>
      split
      · next read armed => exact readCompleted_writes event armed _
      · exact idle
  · next index freed event =>
      split
      · next send isSend =>
          split
          · exact idle
          · next open' =>
              rw [Bool.or_eq_true, not_or, Bool.not_eq_true, Option.not_isSome_iff_eq_none] at open'
              exact ⟨_, .transmitted event isSend open'.1 open'.2, .refl _⟩
      · exact idle
  · next index ok event =>
      split
      · next send isSend =>
          split
          · exact idle
          · exact writeCompleted_writes isSend ok
      · exact idle
  · exact ⟨worker, .nothing, rfl, rfl, fun _ => rfl⟩
  · exact ⟨worker, .nothing, rfl, rfl, fun _ => rfl⟩

end Steps

/-! ## The invariant -/

/-- A send that belongs to a response and, while it waits, finds it in the buffer of
its connection. -/
structure Waits (connections : Nat → Option Connection) (send : Send) (response : Produced) : Prop
    extends SendsResponse send response where
  intact : send.completed = false → send.detached = false →
    ∃ conn, connections send.fd = some conn ∧ conn.type = .TCP ∧
      (send.transmitted = none → conn.writeBuffer.take send.len = response.out)

/-- The sends over TCP and the responses are in step, and what waits is intact. -/
def Faithful (worker : Worker) : Prop :=
  InStep Send.isTcp (Waits worker.connections) worker.sends worker.produced

section Invariant

variable {server : Server} {cassUuidFromString : List UInt8 → Option CassUuid}
  {worker after : Worker} {round : Round} {send : Send} {response : Produced} {fd : Nat}

theorem Faithful.ownResponses (holds : Faithful worker) : OwnResponses worker :=
  holds.mono fun _ _ _ waits => waits.toSendsResponse

/-- A send looks at its own connection only. -/
theorem Waits.congr {connections connections' : Nat → Option Connection}
    (waits : Waits connections send response)
    (same : (connections' send.fd).map Connection.written =
      (connections send.fd).map Connection.written) : Waits connections' send response where
  toSendsResponse := waits.toSendsResponse
  intact := fun pending attached => by
    obtain ⟨conn, isConn, isTcp, holds⟩ := waits.intact pending attached
    rw [isConn, Option.map_some] at same
    obtain ⟨conn', isConn', written⟩ := Option.map_eq_some_iff.mp same
    obtain ⟨type, -, buffer⟩ : conn'.type = conn.type ∧ conn'.len = conn.len ∧
        conn'.writeBuffer = conn.writeBuffer := by
      simpa only [Connection.written, Prod.mk.injEq] using written
    exact ⟨conn', isConn', type.trans isTcp, fun unsent => by rw [buffer]; exact holds unsent⟩

/-- A send that does not wait looks at nothing. -/
theorem SendsResponse.waits {connections : Nat → Option Connection}
    (sends : SendsResponse send response)
    (done : send.completed = false → send.detached = false → False) :
    Waits connections send response :=
  ⟨sends, fun pending attached => (done pending attached).elim⟩

theorem Faithful.congr (holds : Faithful worker) (same : SameWrites worker after) :
    Faithful after := by
  rw [Faithful, same.sends, same.produced]
  exact holds.mono fun send _ _ waits => waits.congr (same.written send.fd)

/-- A pending send over TCP has its connection. -/
theorem Faithful.attached (holds : Faithful worker) (member : send ∈ worker.sends)
    (isTcp : send.isTcp = true) (pending : send.completed = false)
    (attached : send.detached = false) :
    ∃ conn, worker.connections send.fd = some conn ∧ conn.type = .TCP := by
  obtain ⟨response, waits⟩ := holds.exists_related member isTcp
  obtain ⟨conn, isConn, type, -⟩ := waits.intact pending attached
  exact ⟨conn, isConn, type⟩

/-- An erased connection leaves its sends behind. -/
theorem Faithful.erase (holds : Faithful worker) (fd : Nat) : Faithful (worker.erase fd) := by
  refine InStep.map holds (fun send => ?_) fun send response waits => ?_
  · split <;> rfl
  · split
    · exact SendsResponse.waits ⟨waits.fd, waits.bytes⟩ fun _ attached => nomatch attached
    · next other =>
        refine waits.congr ?_
        rw [worker.erase_of_ne other]

/-- A send that has completed does not wait. -/
theorem Faithful.complete (holds : Faithful worker) {index : Nat}
    (isSend : worker.sends[index]? = some send) :
    Faithful { worker with sends := worker.sends.set index { send with completed := true } } := by
  refine @InStep.set _ _ _ _ _ _ _ holds _ _ isSend rfl fun _ response waits => ?_
  exact SendsResponse.waits ⟨waits.fd, waits.bytes⟩ fun pending _ => nomatch pending

/-- A send is performed while its connection is there. -/
theorem Faithful.transmit (holds : Faithful worker) {index : Nat}
    (isSend : worker.sends[index]? = some send) (pending : send.completed = false)
    (unsent : send.transmitted = none) (attached : send.isTcp = true → send.detached = false)
    (freed : List UInt8) :
    Faithful
      { worker with
        sends := worker.sends.set index
          { send with transmitted := some (worker.bytesFor send freed) } } := by
  refine @InStep.set _ _ _ _ _ _ _ holds _ _ isSend rfl fun isTcp response waits => ?_
  obtain ⟨conn, isConn, type, intact⟩ := waits.intact pending (attached isTcp)
  refine ⟨⟨waits.fd, fun bytes sent => ?_⟩, fun _ _ => ⟨conn, isConn, type, fun still => ?_⟩⟩
  · obtain rfl := Option.some.inj sent
    rw [Worker.bytesFor, isConn]
    simp only [attached isTcp, Bool.false_eq_true, if_false]
    exact intact unsent
  · cases still

/-- A response over TCP is filled in when nothing waits in the buffer. -/
theorem Faithful.receiveTcp (holds : Faithful worker) {conn : Connection} (isTcp : conn.type = .TCP)
    (free : ∀ send ∈ worker.sends, send.fd = fd → send.detached = false → send.completed = true)
    (arrival : Arrival) : Faithful (worker.receiveTcp server true fd conn arrival) := by
  obtain ⟨out, isOut⟩ : ∃ out, out = worker.world.response server (arrival.request true conn.ip) :=
    ⟨_, rfl⟩
  rw [Worker.receiveTcp, ← isOut]
  refine InStep.append (holds.mono fun send member response waits => ?_) ?_ ?_
  · by_cases same : send.fd = fd
    · exact waits.toSendsResponse.waits fun pending attached => by
        rw [free send member same attached] at pending
        cases pending
    · refine waits.congr ?_
      have kept := worker.put_of_ne (conn.fill out) same
      exact congrArg (Option.map Connection.written) kept
  · exact decide_eq_true isTcp
  · refine ⟨⟨rfl, fun bytes sent => nomatch sent⟩,
      fun _ _ => ⟨conn.fill out, ?_, isTcp, fun _ => ?_⟩⟩
    · exact worker.put_self (conn.fill out)
    · exact List.take_left

/-- **A round that awaits the sends keeps the invariant.** -/
theorem Faithful.writes (holds : Faithful worker) (running : worker.running = true)
    (awaits : AwaitsSends worker round) (writes : Writes server worker round after) :
    Faithful after := by
  have awaits' := awaits running
  cases writes with
  | nothing => exact holds
  | @entered fd vacant conn =>
      refine holds.mono fun send _ response waits => ?_
      by_cases same : send.fd = fd
      · refine waits.toSendsResponse.waits fun pending attached => ?_
        obtain ⟨conn', isConn', -⟩ := waits.intact pending attached
        rw [same, vacant] at isConn'
        cases isConn'
      · refine waits.congr ?_
        rw [worker.put_of_ne conn same]
  | erased fd => exact holds.erase fd
  | @sync fd conn isConn isSync out sqe =>
      have kept : InStep Send.isTcp (Waits (worker.put fd (conn.fill out)).connections)
          worker.sends worker.produced := by
        refine holds.mono fun send _ response waits => ?_
        by_cases same : send.fd = fd
        · refine waits.toSendsResponse.waits fun pending attached => ?_
          obtain ⟨conn', isConn', isTcp, -⟩ := waits.intact pending attached
          rw [same, isConn] at isConn'
          obtain rfl := Option.some.inj isConn'
          exact nomatch isSync.symm.trans isTcp
        · refine waits.congr ?_
          rw [worker.put_of_ne _ same]
      rw [Worker.queueWriteTcp]
      split
      · refine InStep.append_other kept (decide_eq_false fun isTcp => ?_)
        exact nomatch isSync.symm.trans isTcp
      · exact kept
  | tcp event armed isConn isTcp =>
      rw [event] at awaits'
      obtain ⟨sqe, free⟩ := awaits' _ _ armed isConn isTcp
      rw [sqe]
      exact holds.receiveTcp isTcp free _
  | transmitted event isSend pending unsent =>
      rw [event] at awaits'
      exact holds.transmit isSend pending unsent
        (fun isTcp => awaits' _ isSend isTcp pending unsent) _
  | completed isSend => exact holds.complete isSend
  | broken isSend fd => exact (holds.complete isSend).erase fd

/-- Under a pending send, a connection is erased or stays as it is written. -/
theorem Faithful.undisturbed (holds : Faithful worker) (running : worker.running = true)
    (awaits : AwaitsSends worker round) (writes : Writes server worker round after)
    (member : send ∈ worker.sends) (isTcp : send.isTcp = true) (pending : send.completed = false)
    (attached : send.detached = false) :
    after.connections send.fd = none ∨ (after.connections send.fd).map Connection.written =
      (worker.connections send.fd).map Connection.written := by
  have awaits' := awaits running
  obtain ⟨conn, isConn, type⟩ := holds.attached member isTcp pending attached
  have erased : ∀ fd, (worker.erase fd).connections send.fd = none ∨
      ((worker.erase fd).connections send.fd).map Connection.written =
        (worker.connections send.fd).map Connection.written := by
    intro fd
    by_cases same : send.fd = fd
    · rw [same, worker.erase_self]
      exact .inl rfl
    · rw [worker.erase_of_ne same]
      exact .inr rfl
  cases writes with
  | nothing => exact .inr rfl
  | @entered fd vacant conn' =>
      have other : send.fd ≠ fd := fun same => by
        rw [same, vacant] at isConn
        cases isConn
      rw [worker.put_of_ne _ other]
      exact .inr rfl
  | erased fd => exact erased fd
  | @sync fd conn' isConn' isSync out sqe =>
      have other : send.fd ≠ fd := fun same => by
        rw [same, isConn'] at isConn
        obtain rfl := Option.some.inj isConn
        exact nomatch isSync.symm.trans type
      have kept := worker.put_of_ne (conn'.fill out) other
      rw [Worker.queueWriteTcp]
      split <;> exact .inr (congrArg (Option.map Connection.written) kept)
  | @tcp index bufId arrival more read conn' event armed isConn' isTcp' =>
      rw [event] at awaits'
      have other : send.fd ≠ read.fd := fun same => by
        rw [(awaits' _ _ armed isConn' isTcp').2 send member same attached] at pending
        cases pending
      have kept := worker.put_of_ne
        (conn'.fill (worker.world.response server (arrival.request true conn'.ip))) other
      rw [Worker.receiveTcp, Worker.queueWriteTcp]
      split <;> exact .inr (congrArg (Option.map Connection.written) kept)
  | transmitted => exact .inr rfl
  | completed => exact .inr rfl
  | broken _ fd => exact erased fd

theorem Faithful.step (holds : Faithful worker) (awaits : AwaitsSends worker round) :
    Faithful (worker.step server cassUuidFromString round) := by
  rw [Worker.step]
  split
  · next running =>
      obtain ⟨after, writes, same⟩ := @handleEvent_writes server cassUuidFromString worker round
      exact (holds.writes running awaits writes).congr same
  · exact holds

theorem Faithful.keepsBuffers (holds : Faithful worker) (awaits : AwaitsSends worker round) :
    KeepsBuffers server cassUuidFromString worker round := by
  intro send member isTcp pending attached conn conn' isConn isConn'
  rw [Worker.step] at isConn'
  split at isConn'
  · next running =>
      obtain ⟨after, writes, same⟩ := @handleEvent_writes server cassUuidFromString worker round
      have written := same.written send.fd
      rw [isConn', Option.map_some] at written
      rcases holds.undisturbed running awaits writes member isTcp pending attached with gone | kept
      · rw [gone] at written
        cases written
      · rw [← written, isConn, Option.map_some] at kept
        obtain ⟨-, len, buffer⟩ : conn'.type = conn.type ∧ conn'.len = conn.len ∧
            conn'.writeBuffer = conn.writeBuffer := by
          simpa only [Connection.written, Option.some.injEq, Prod.mk.injEq] using kept
        exact ⟨buffer, len⟩
  · obtain rfl := Option.some.inj (isConn.symm.trans isConn')
    exact ⟨rfl, rfl⟩

/-- A read after all sends have completed awaits them. -/
theorem awaitsSends_read {index : Nat} {received : Received} {more readSqe : Bool}
    (done : worker.sends.all Send.completed = true) :
    AwaitsSends worker ⟨.read index received more, true, readSqe⟩ := by
  intro _
  cases received with
  | message bufId arrival =>
      exact fun _ _ _ _ _ => ⟨rfl, fun send member _ _ => List.all_eq_true.mp done send member⟩
  | _ => exact trivial

theorem awaitsSends_transmit {index : Nat} {freed : List UInt8} {sendSqe readSqe : Bool}
    (attached : worker.sends.all (fun send => !send.detached) = true) :
    AwaitsSends worker ⟨.transmit index freed, sendSqe, readSqe⟩ := by
  intro _ send isSend _ _ _
  have kept := List.all_eq_true.mp attached send (List.mem_of_getElem? isSend)
  rwa [Bool.not_eq_true'] at kept

end Invariant

/-! ## The runs -/

/-- The worker enters its loop without sends. -/
theorem faithful_start (world : World) (udpFd tcpFd syncFd : Nat) (memory : List UInt8) :
    Faithful (Worker.start world udpFd tcpFd syncFd memory) := .nil

/-- **Every client receives its own responses** along the runs that await the sends:
each send over TCP transmits the response to its query, and no write buffer
changes under a pending send. -/
theorem ownResponses_of_awaitsSends (server : Server)
    (cassUuidFromString : List UInt8 → Option CassUuid) (world : World)
    (udpFd tcpFd syncFd : Nat) (memory : List UInt8) (rounds : List Round)
    (awaits : Run.Along (fun worker => Worker.step worker server cassUuidFromString) AwaitsSends
      (Worker.start world udpFd tcpFd syncFd memory) rounds) :
    Run.Throughout (fun worker => Worker.step worker server cassUuidFromString) OwnResponses
        (Worker.start world udpFd tcpFd syncFd memory) rounds ∧
      Run.Along (fun worker => Worker.step worker server cassUuidFromString)
        (KeepsBuffers server cassUuidFromString)
        (Worker.start world udpFd tcpFd syncFd memory) rounds := by
  have starts := faithful_start world udpFd tcpFd syncFd memory
  refine ⟨?_, ?_⟩
  · have always := @Run.throughout_of_along _ _
      (fun worker => Worker.step worker server cassUuidFromString) Faithful AwaitsSends
      (fun _ => True) (fun _ _ _ holds awaits => holds.step awaits) _ _ starts
      (fun _ _ => trivial) awaits
    exact always.mono fun _ holds => holds.ownResponses
  · exact @Run.Along.of_invariant _ _
      (fun worker => Worker.step worker server cassUuidFromString) Faithful AwaitsSends
      (fun _ => True) _ (fun _ _ _ holds awaits => holds.step awaits)
      (fun _ _ _ holds awaits => holds.keepsBuffers awaits) _ _ starts (fun _ _ => trivial) awaits

/-- A query over TCP for the address of the name `a`. -/
def tcpQuery (id : UInt8) : Arrival :=
  .plain ([0, 19, id, id, 1, 0, 0, 1, 0, 0, 0, 0, 0, 0] ++ [1, 97, 0, 0, 1, 0, 1])

/-- A client over TCP sends a query when it has the response to the last one. -/
def politeRounds : List Round :=
  [⟨.accepted 0 9 0 [] true, true, true⟩, ⟨.read 1 (.message 5 (tcpQuery 7)) true, true, true⟩,
    ⟨.transmit 0 [], true, true⟩, ⟨.written 0 true, true, true⟩,
    ⟨.read 1 (.message 5 (tcpQuery 8)) true, true, true⟩, ⟨.transmit 1 [], true, true⟩]

/-- The server with new files, as tables that can be evaluated. -/
theorem start_emptyDatabase : World.start emptyDatabase =
    ⟨⟨Records.Mmap.freshTable, IpGroup.Mmap.freshTable⟩, [], [], fun _ => ⟨0, 0⟩,
      emptyDatabase⟩ := by
  rw [World.start, Records.Mmap.fresh_eq_freshTable, IpGroup.Mmap.fresh_eq_freshTable]

theorem ownResponses_polite :
    Run.Throughout (fun worker => Worker.step worker plainServer fun _ => none) OwnResponses
        (Worker.start (World.start emptyDatabase) 3 4 5 []) politeRounds ∧
      Run.Along (fun worker => Worker.step worker plainServer fun _ => none)
        (KeepsBuffers plainServer fun _ => none)
        (Worker.start (World.start emptyDatabase) 3 4 5 []) politeRounds := by
  refine ownResponses_of_awaitsSends plainServer (fun _ => none) (World.start emptyDatabase) 3 4 5
    [] politeRounds ?_
  rw [start_emptyDatabase]
  refine ⟨fun _ => trivial, awaitsSends_read ?_, awaitsSends_transmit ?_, fun _ => trivial,
    awaitsSends_read ?_, awaitsSends_transmit ?_, trivial⟩
  all_goals decide +kernel

/-- A client over TCP sends two queries before the first response is sent. -/
def pipelinedRounds : List Round :=
  [⟨.accepted 0 9 0 [] true, true, true⟩, ⟨.read 1 (.message 5 (tcpQuery 7)) true, true, true⟩,
    ⟨.read 1 (.message 6 (tcpQuery 8)) true, true, true⟩, ⟨.transmit 0 [], true, true⟩]

/-- The first send transmits the response to the second query. -/
theorem pipelinedRounds_overwrite :
    ¬ Run.Throughout (fun worker => Worker.step worker plainServer fun _ => none) OwnResponses
      (Worker.start (World.start emptyDatabase) 3 4 5 []) pipelinedRounds := by
  intro always
  have own := always.last
  rw [start_emptyDatabase] at own
  revert own
  decide +kernel

end EdgeDNS.Core
