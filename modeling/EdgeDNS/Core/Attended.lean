import EdgeDNS.Core.ArmedReads

/-!
# Connections that are listened to

A worker hears of a connection only while a read of it is armed in the ring.
`Attended` says that one is armed for every connection but the listening TCP
socket, which is entered as a connection and never read. Above all it says so of
the UDP socket.

`Rearms` says when a round keeps this: a connection that is accepted, and one
whose last read has just ended, needs an entry of the ring for the next read,
and the last read of a connection must not end with a buffer that is not valid,
for the worker then goes on without arming another. The runs of such rounds are
exactly the runs in which every connection is attended throughout
(`attended_iff_rearms`).

What is lost is not made up for. A UDP socket without an armed read stays without
one, whatever happens (`deaf_stays_deaf`).
-/

set_option autoImplicit false

namespace EdgeDNS.Core

open Outstanding

/-- A read is armed on the descriptor. -/
def Listens (reads : List ArmedRead) (fd : Nat) : Prop := ∃ read ∈ reads, read.fd = fd

/-- A worker that runs has a read armed for each of its connections but the
listening socket. -/
def Attended (worker : Worker) : Prop :=
  worker.running = true → ∀ fd, fd ≠ worker.tcpFd → (worker.connections fd).isSome →
    Listens worker.reads fd

/-- The message is a sync request whose exception ends the program. -/
def Worker.IsFatal (worker : Worker) (cassUuidFromString : List UInt8 → Option CassUuid)
    (fd : Nat) (arrival : Arrival) : Prop :=
  worker.IsSync fd ∧ ∃ error,
    serveSync cassUuidFromString arrival.syncRequest worker.world.caches = .error error

/-- A round leaves every connection attended: what is accepted is read, and a
connection whose read ends has another one armed, or it is closed. -/
def Rearms (cassUuidFromString : List UInt8 → Option CassUuid) (worker : Worker)
    (round : Round) : Prop :=
  worker.running = true →
    match round.event with
    | .accepted index clientFd _ _ _ =>
        (worker.accepts[index]?).isSome → worker.connections clientFd = none →
          clientFd ≠ worker.tcpFd → round.readSqe = true ∨ Listens worker.reads clientFd
    | .read index received more =>
        ∀ read, worker.reads[index]? = some read → (more && read.multishot) = false →
          read.fd ≠ worker.tcpFd → (worker.connections read.fd).isSome →
          Listens (worker.reads.eraseIdx index) read.fd ∨
            match received with
            | .failed => worker.IsUdp read.fd → round.readSqe = true
            | .invalid _ => False
            | .message _ arrival =>
                round.readSqe = true ∨ worker.IsFatal cassUuidFromString read.fd arrival
    | _ => True

/-! ## Moves -/

/-- Every connection but one is attended. -/
def AttendedBut (worker : Worker) (fd : Nat) : Prop :=
  worker.running = true → ∀ other, other ≠ fd → other ≠ worker.tcpFd →
    (worker.connections other).isSome → Listens worker.reads other

section Moves

variable {worker after : Worker} {fd : Nat} {conn : Connection} {sqe multishot : Bool}

theorem Attended.but (attended : Attended worker) (fd : Nat) : AttendedBut worker fd :=
  fun running other _ notListening isConn => attended running other notListening isConn

/-- It remains to look at the one. -/
theorem AttendedBut.attended_iff (but : AttendedBut worker fd) :
    Attended worker ↔ (worker.running = true → fd ≠ worker.tcpFd →
      (worker.connections fd).isSome → Listens worker.reads fd) := by
  constructor
  · exact fun attended running => attended running fd
  · intro here running other notListening isConn
    rcases eq_or_ne other fd with rfl | different
    · exact here running notListening isConn
    · exact but running other different notListening isConn

theorem Listens.append {reads : List ArmedRead} (listens : Listens reads fd)
    (more : List ArmedRead) : Listens (reads ++ more) fd := by
  obtain ⟨read, member, same⟩ := listens
  exact ⟨read, List.mem_append_left more member, same⟩

/-- Reads on other descriptors stay armed when one ends. -/
theorem Listens.eraseIdx {reads : List ArmedRead} {index : Nat} {read : ArmedRead}
    (listens : Listens reads fd) (ends : reads[index]? = some read) (different : fd ≠ read.fd) :
    Listens (reads.eraseIdx index) fd := by
  obtain ⟨other, member, rfl⟩ := listens
  refine ⟨other, List.mem_eraseIdx_iff_getElem?.mpr ?_, rfl⟩
  obtain ⟨place, isPlace⟩ := List.getElem?_of_mem member
  refine ⟨place, ?_, isPlace⟩
  rintro rfl
  obtain rfl := Option.some.inj (isPlace.symm.trans ends)
  exact different rfl

/-- A move that arms reads and neither enters nor closes a connection. -/
structure ReadsMore (before after : Worker) (more : List ArmedRead) : Prop where
  reads : after.reads = before.reads ++ more
  present : ∀ fd, (after.connections fd).isSome = (before.connections fd).isSome
  tcpFd : after.tcpFd = before.tcpFd
  running : after.running = before.running

theorem AttendedBut.readsMore {more : List ArmedRead} (but : AttendedBut worker fd)
    (moves : ReadsMore worker after more) : AttendedBut after fd := by
  intro running other different notListening isConn
  rw [moves.running] at running
  rw [moves.tcpFd] at notListening
  rw [moves.present] at isConn
  rw [moves.reads]
  exact (but running other different notListening isConn).append more

theorem Attended.readsMore {more : List ArmedRead} (attended : Attended worker)
    (moves : ReadsMore worker after more) : Attended after := by
  intro running other notListening isConn
  rw [moves.running] at running
  rw [moves.tcpFd] at notListening
  rw [moves.present] at isConn
  rw [moves.reads]
  exact (attended running other notListening isConn).append more

/-- **Arming a read** of a connection, when the ring has an entry. -/
theorem readsMore_armRead (isConn : worker.connections fd = some conn) :
    ReadsMore worker (worker.armRead multishot sqe fd conn)
      (if sqe then [⟨fd, pickGroup worker.rrCounter, multishot⟩] else []) := by
  cases sqe with
  | false => exact ⟨(List.append_nil _).symm, fun _ => rfl, rfl, rfl⟩
  | true =>
      refine ⟨rfl, fun other => ?_, rfl, rfl⟩
      rcases eq_or_ne other fd with rfl | different
      · rw [worker.armRead_self conn multishot, isConn]
        rfl
      · rw [worker.armRead_of_ne conn multishot different]

theorem readsMore_rearm (isConn : (worker.connections fd).isSome) :
    ∃ multishot, ReadsMore worker (worker.rearm sqe fd)
      (if sqe then [⟨fd, pickGroup worker.rrCounter, multishot⟩] else []) := by
  obtain ⟨conn, isConn⟩ := Option.isSome_iff_exists.mp isConn
  simp only [Worker.rearm, isConn]
  split
  · exact ⟨false, readsMore_armRead isConn⟩
  · exact ⟨true, readsMore_armRead isConn⟩

/-- After arming, the connection is attended if the ring had an entry or a read was
armed before. -/
theorem listens_armed_iff {reads : List ArmedRead} {group : Nat} :
    Listens (reads ++ if sqe then [⟨fd, group, multishot⟩] else []) fd ↔
      sqe = true ∨ Listens reads fd := by
  cases sqe with
  | false => simp
  | true =>
      simp only [if_true, true_or, iff_true]
      exact ⟨_, List.mem_append_right _ (List.mem_singleton_self _), rfl⟩

theorem AttendedBut.erase (but : AttendedBut worker fd) : Attended (worker.erase fd) := by
  intro running other notListening isConn
  rcases eq_or_ne other fd with rfl | different
  · rw [worker.erase_self] at isConn
    cases isConn
  · rw [worker.erase_of_ne different] at isConn
    exact but running other different notListening isConn

/-- **A completion with an error** closes the connection, or arms the UDP socket
again. -/
theorem AttendedBut.failed_iff (but : AttendedBut worker fd) (running : worker.running = true) :
    Attended (worker.failed sqe fd) ↔
      (fd ≠ worker.tcpFd → worker.IsUdp fd → sqe = true ∨ Listens worker.reads fd) := by
  cases found : worker.connections fd with
  | none =>
      simp only [Worker.failed, found]
      constructor
      · rintro - - ⟨-, conn, isConn, -⟩
        cases found.symm.trans isConn
      · rintro -
        refine but.attended_iff.mpr fun _ _ isConn => ?_
        rw [found] at isConn
        cases isConn
  | some conn =>
      simp only [Worker.failed, found]
      split
      case isTrue udp =>
        have moves := @readsMore_armRead worker fd conn sqe true found
        have isUdp : worker.IsUdp fd := ⟨udp.2, conn, found, udp.1⟩
        rw [Worker.queueRead, (but.readsMore moves).attended_iff, moves.reads, moves.tcpFd,
          moves.running, moves.present, listens_armed_iff]
        simp [running, isUdp, found]
      case isFalse notUdp =>
        refine ⟨fun _ _ isUdp => absurd ?_ notUdp, fun _ => but.erase⟩
        obtain ⟨isFd, conn', isConn', type⟩ := isUdp
        obtain rfl := Option.some.inj (found.symm.trans isConn')
        exact ⟨type, isFd⟩

theorem ReadsMore.of_sameReads (same : SameReads worker after) (tcpFd : after.tcpFd = worker.tcpFd)
    (running : after.running = worker.running) : ReadsMore worker after [] where
  reads := by rw [same.reads, List.append_nil]
  present fd := by
    have known := congrArg Option.isSome (same.groups fd)
    rwa [Option.isSome_map, Option.isSome_map] at known
  tcpFd := tcpFd
  running := running

/-- Handling a message arms no read. It may end the program. -/
theorem readsMore_receive (server : Server) (cassUuidFromString : List UInt8 → Option CassUuid)
    (isConn : worker.connections fd = some conn) (arrival : Arrival) :
    (worker.IsFatal cassUuidFromString fd arrival ∧
        (worker.receive server cassUuidFromString sqe fd conn arrival).running = false) ∨
      ¬ worker.IsFatal cassUuidFromString fd arrival ∧
        ReadsMore worker (worker.receive server cassUuidFromString sqe fd conn arrival) [] := by
  have same := @SameReads.receive worker fd conn sqe server cassUuidFromString isConn arrival
  have notSync : conn.type ≠ .SYNC → ¬ worker.IsFatal cassUuidFromString fd arrival := by
    rintro other ⟨⟨conn', isConn', isSync⟩, -⟩
    obtain rfl := Option.some.inj (isConn.symm.trans isConn')
    exact other isSync
  cases type : conn.type with
  | SYNC =>
      cases serves : serveSync cassUuidFromString arrival.syncRequest worker.world.caches with
      | error error =>
          refine .inl ⟨⟨⟨conn, isConn, type⟩, error, serves⟩, ?_⟩
          simp only [Worker.receive, type, Worker.receiveSync, serves]
      | ok served =>
          refine .inr ⟨?_, .of_sameReads same ?_ ?_⟩
          · rintro ⟨-, error, failed⟩
            cases serves.symm.trans failed
          · simp only [Worker.receive, type, Worker.receiveSync, serves, Worker.queueWriteTcp]
            split <;> rfl
          · simp only [Worker.receive, type, Worker.receiveSync, serves, Worker.queueWriteTcp]
            split <;> rfl
  | TCP =>
      refine .inr ⟨notSync (by rw [type]; decide), .of_sameReads same ?_ ?_⟩
      · simp only [Worker.receive, type, Worker.receiveTcp, Worker.queueWriteTcp]
        split <;> rfl
      · simp only [Worker.receive, type, Worker.receiveTcp, Worker.queueWriteTcp]
        split <;> rfl
  | UDP =>
      refine .inr ⟨notSync (by rw [type]; decide), .of_sameReads same ?_ ?_⟩
      · simp only [Worker.receive, type, Worker.receiveUdp, Worker.queueWriteUdp]
        split <;> rfl
      · simp only [Worker.receive, type, Worker.receiveUdp, Worker.queueWriteUdp]
        split <;> rfl

end Moves

/-! ## Rounds -/

section Rounds

variable {server : Server} {cassUuidFromString : List UInt8 → Option CassUuid} {worker : Worker}
  {round : Round}

/-- A read that ends leaves the other connections attended. -/
theorem Attended.disarmed (attended : Attended worker) {index : Nat} {read : ArmedRead}
    (ends : worker.reads[index]? = some read) :
    AttendedBut { worker with reads := worker.reads.eraseIdx index } read.fd :=
  fun running other different notListening isConn =>
    (attended running other notListening isConn).eraseIdx ends different

/-- A message on a connection that is not attended: it is armed again behind the
message, unless the message ends the program. -/
theorem AttendedBut.message_iff {fd bufId : Nat} {read : ArmedRead} {arrival : Arrival}
    (but : AttendedBut worker fd) (running : worker.running = true) (isFd : read.fd = fd) :
    Attended (worker.readCompleted server cassUuidFromString round read
        (.message bufId arrival) false) ↔
      (fd ≠ worker.tcpFd → (worker.connections fd).isSome →
        Listens worker.reads fd ∨ round.readSqe = true ∨
          worker.IsFatal cassUuidFromString fd arrival) := by
  subst isFd
  have used : ReadsMore worker (worker.useBuffer read bufId) [] :=
    ⟨(List.append_nil _).symm, fun _ => rfl, rfl, rfl⟩
  have sameConnections : (worker.useBuffer read bufId).connections read.fd =
      worker.connections read.fd := rfl
  cases found : worker.connections read.fd with
  | none =>
      simp only [Worker.readCompleted, sameConnections, found]
      rw [(but.readsMore used).attended_iff, used.present, found]
      simp
  | some conn =>
      simp only [Worker.readCompleted, sameConnections, found]
      have isConn : (worker.useBuffer read bufId).connections read.fd = some conn := found
      rcases @readsMore_receive (worker.useBuffer read bufId) read.fd conn round.sendSqe server
          cassUuidFromString isConn arrival with ⟨fatal, stopped⟩ | ⟨notFatal, moves⟩
      · rw [stopped, Bool.false_or, Bool.not_false, if_pos rfl]
        have isFatal : worker.IsFatal cassUuidFromString read.fd arrival := fatal
        refine ⟨fun _ _ _ => .inr (.inr isFatal), fun _ isRunning => ?_⟩
        cases stopped.symm.trans isRunning
      · have stillRuns := moves.running.trans (used.running.trans running)
        rw [stillRuns, Bool.false_or, Bool.not_true, if_neg Bool.false_ne_true]
        have present := (moves.present read.fd).trans (congrArg Option.isSome isConn)
        obtain ⟨multishot, rearmed⟩ := @readsMore_rearm _ read.fd round.readSqe present
        have butAfter := ((but.readsMore used).readsMore moves).readsMore rearmed
        have isNotFatal : ¬ worker.IsFatal cassUuidFromString read.fd arrival := notFatal
        rw [butAfter.attended_iff, rearmed.reads, rearmed.tcpFd, rearmed.running, rearmed.present,
          listens_armed_iff, moves.reads, moves.tcpFd, moves.running, moves.present, used.reads,
          used.tcpFd, used.running, used.present, List.append_nil, List.append_nil]
        simp [running, found, isNotFatal, or_comm]

/-- An accepted connection is read when the ring has an entry. -/
theorem Attended.accepted_iff (attended : Attended worker) (running : worker.running = true)
    {listening clientFd : Nat} {ip : UInt32} {memory : List UInt8} (accepts : List Nat)  :
    Attended ({ worker with accepts := accepts }.acceptCompleted round listening clientFd ip
        memory) ↔
      (clientFd ≠ worker.tcpFd → round.readSqe = true ∨ Listens worker.reads clientFd) := by
  have entered : AttendedBut (({ worker with accepts := accepts } : Worker).put clientFd
      (.entered (if listening = worker.tcpFd then .TCP else .SYNC) ip memory)) clientFd := by
    intro isRunning other different notListening isConn
    rw [Worker.put_of_ne _ _ different] at isConn
    exact attended isRunning other notListening isConn
  have present : ((({ worker with accepts := accepts } : Worker).put clientFd
      (.entered (if listening = worker.tcpFd then .TCP else .SYNC) ip memory)).connections
        clientFd).isSome := by
    rw [Worker.put_self]
    rfl
  obtain ⟨multishot, rearmed⟩ := @readsMore_rearm _ clientFd round.readSqe present
  have isRunning : (({ worker with accepts := accepts } : Worker).put clientFd
      (.entered (if listening = worker.tcpFd then .TCP else .SYNC) ip memory)).running = true :=
    running
  rw [Worker.acceptCompleted, (entered.readsMore rearmed).attended_iff, rearmed.reads,
    rearmed.tcpFd, rearmed.running, rearmed.present, listens_armed_iff]
  simp only [isRunning, present, forall_const]
  rfl

/-- A completion with an error on a descriptor that keeps its reads. -/
theorem Attended.failed (attended : Attended worker) (running : worker.running = true)
    (sqe : Bool) (fd : Nat) : Attended (worker.failed sqe fd) := by
  refine ((attended.but fd).failed_iff running).mpr fun notListening isUdp => .inr ?_
  obtain ⟨-, conn, isConn, -⟩ := isUdp
  exact attended running fd notListening (by rw [isConn]; rfl)

/-- A read that ends. -/
theorem Attended.read_iff (attended : Attended worker) (running : worker.running = true)
    {index : Nat} {read : ArmedRead} (ends : worker.reads[index]? = some read)
    (received : Received) :
    Attended ({ worker with reads := worker.reads.eraseIdx index }.readCompleted server
        cassUuidFromString round read received false) ↔
      (read.fd ≠ worker.tcpFd → (worker.connections read.fd).isSome →
        Listens (worker.reads.eraseIdx index) read.fd ∨
          match received with
          | .failed => worker.IsUdp read.fd → round.readSqe = true
          | .invalid _ => False
          | .message _ arrival =>
              round.readSqe = true ∨ worker.IsFatal cassUuidFromString read.fd arrival) := by
  have but := attended.disarmed ends
  have isRunning : ({ worker with reads := worker.reads.eraseIdx index } : Worker).running = true :=
    running
  cases received with
  | failed =>
      rw [Worker.readCompleted, but.failed_iff isRunning]
      have present : worker.IsUdp read.fd → (worker.connections read.fd).isSome := by
        rintro ⟨-, conn, isConn, -⟩
        rw [isConn]
        rfl
      constructor
      · intro armed notListening _
        by_cases isUdp : worker.IsUdp read.fd
        · exact (armed notListening isUdp).symm.imp_right fun sqe _ => sqe
        · exact .inr fun udp => absurd udp isUdp
      · intro armed notListening isUdp
        exact (armed notListening (present isUdp)).symm.imp_left fun needs => needs isUdp
  | invalid bufId =>
      have used : ReadsMore { worker with reads := worker.reads.eraseIdx index }
          (({ worker with reads := worker.reads.eraseIdx index } : Worker).useBuffer read bufId)
          [] := ⟨(List.append_nil _).symm, fun _ => rfl, rfl, rfl⟩
      rw [Worker.readCompleted, (but.readsMore used).attended_iff, used.reads, List.append_nil]
      simp only [or_false]
      exact forall_prop_of_true running
  | message bufId arrival =>
      exact but.message_iff isRunning rfl

/-- A read that goes on. -/
theorem Attended.readOn (attended : Attended worker) (running : worker.running = true)
    (read : ArmedRead) (received : Received) :
    Attended (worker.readCompleted server cassUuidFromString round read received true) := by
  have used : ∀ bufId, ReadsMore worker (worker.useBuffer read bufId) [] :=
    fun _ => ⟨(List.append_nil _).symm, fun _ => rfl, rfl, rfl⟩
  cases received with
  | failed => exact attended.failed running round.readSqe read.fd
  | invalid bufId => exact attended.readsMore (used bufId)
  | message bufId arrival =>
      cases found : worker.connections read.fd with
      | none =>
          have isGone : (worker.useBuffer read bufId).connections read.fd = none := found
          simp only [Worker.readCompleted, isGone]
          exact attended.readsMore (used bufId)
      | some conn =>
          have isConn : (worker.useBuffer read bufId).connections read.fd = some conn := found
          simp only [Worker.readCompleted, isConn, Bool.true_or, if_true]
          rcases @readsMore_receive (worker.useBuffer read bufId) read.fd conn round.sendSqe server
              cassUuidFromString isConn arrival with ⟨-, stopped⟩ | ⟨-, moves⟩
          · intro isRunning
            cases stopped.symm.trans isRunning
          · exact (attended.readsMore (used bufId)).readsMore moves

/-- A send that completes closes no connection that is kept without a read. -/
theorem Attended.written (attended : Attended worker) (running : worker.running = true)
    (round : Round) (send : Send) (ok : Bool) :
    Attended (worker.writeCompleted round send ok) := by
  cases ok with
  | false => exact attended.failed running round.readSqe send.fd
  | true =>
      simp only [Worker.writeCompleted, if_true]
      cases found : worker.connections send.fd with
      | none => exact attended
      | some conn =>
          dsimp only
          split
          · exact attended.readsMore (readsMore_armRead found)
          · exact attended

/-- **A round leaves every connection attended exactly when it rearms.** -/
theorem Attended.step_iff (attended : Attended worker) :
    Attended (worker.step server cassUuidFromString round) ↔
      Rearms cassUuidFromString worker round := by
  cases running : worker.running with
  | false =>
      rw [Worker.step, running, if_neg Bool.false_ne_true]
      refine ⟨fun _ isRunning => ?_, fun _ => attended⟩
      cases running.symm.trans isRunning
  | true =>
      rw [Worker.step, if_pos running, Rearms, forall_prop_of_true running]
      obtain ⟨event, sendSqe, readSqe⟩ := round
      have same : ∀ {after : Worker}, ReadsMore worker after [] → Attended after :=
        fun moves => attended.readsMore moves
      cases event with
      | accepted index clientFd ip memory more =>
          simp only [Worker.handleEvent]
          cases isAccept : worker.accepts[index]? with
          | none => simp [attended]
          | some listening =>
              cases isFree : worker.connections clientFd with
              | some conn => simp [attended]
              | none =>
                  have accepts := @Attended.accepted_iff worker
                    ⟨.accepted index clientFd ip memory more, sendSqe, readSqe⟩ attended running
                    listening clientFd ip memory
                    (if more then worker.accepts else worker.accepts.eraseIdx index)
                  simpa using accepts
      | acceptFailed index =>
          refine iff_of_true ?_ trivial
          simp only [Worker.handleEvent]
          cases worker.accepts[index]? with
          | none => exact attended
          | some listening =>
              have kept : Attended { worker with accepts := worker.accepts.eraseIdx index } :=
                same ⟨(List.append_nil _).symm, fun _ => rfl, rfl, rfl⟩
              have closed := kept.failed running readSqe listening
              simp only [Worker.queueMultishotAccept]
              split
              · exact closed.readsMore ⟨(List.append_nil _).symm, fun _ => rfl, rfl, rfl⟩
              · exact closed
      | read index received more =>
          simp only [Worker.handleEvent]
          cases ends : worker.reads[index]? with
          | none => simp [attended]
          | some read =>
              refine Iff.trans ?_ (forall_found_iff rfl).symm
              dsimp only
              cases more && read.multishot with
              | true =>
                  have continues := @Attended.readOn server cassUuidFromString worker
                    ⟨.read index received more, sendSqe, readSqe⟩ attended running read received
                  exact iff_of_true continues fun never => absurd never (by decide)
              | false =>
                  have ended := @Attended.read_iff server cassUuidFromString worker
                    ⟨.read index received more, sendSqe, readSqe⟩ attended running index read ends
                    received
                  exact ended.trans ⟨fun armed _ => armed, fun armed => armed rfl⟩
      | written index ok =>
          refine iff_of_true ?_ trivial
          simp only [Worker.handleEvent]
          cases worker.sends[index]? with
          | none => exact attended
          | some send =>
              dsimp only
              split
              · exact attended
              · have kept : Attended { worker with
                    sends := worker.sends.set index { send with completed := true } } :=
                  same ⟨(List.append_nil _).symm, fun _ => rfl, rfl, rfl⟩
                exact kept.written running _ send ok
      | transmit index freed =>
          refine iff_of_true ?_ trivial
          simp only [Worker.handleEvent]
          split
          · split
            · exact attended
            · exact same ⟨(List.append_nil _).symm, fun _ => rfl, rfl, rfl⟩
          · exact attended
      | contextSent index =>
          exact iff_of_true (same ⟨(List.append_nil _).symm, fun _ => rfl, rfl, rfl⟩) trivial
      | elsewhere caches recordQueue entryQueue database =>
          exact iff_of_true (same ⟨(List.append_nil _).symm, fun _ => rfl, rfl, rfl⟩) trivial

end Rounds

/-! ## Runs -/

theorem attended_start (world : World) (udpFd tcpFd syncFd : Nat) (memory : List UInt8) :
    Attended (Worker.start world udpFd tcpFd syncFd memory) := by
  rintro - fd notListening isConn
  refine ⟨_, List.mem_singleton_self _, ?_⟩
  by_contra other
  have notUdp : fd ≠ udpFd := fun same => other same.symm
  have gone : (Worker.start world udpFd tcpFd syncFd memory).connections fd = none := by
    refine (Worker.armRead_of_ne _ _ true notUdp).trans ?_
    refine (Worker.put_of_ne _ _ notListening).trans ?_
    exact Worker.put_of_ne _ _ notUdp
  rw [gone] at isConn
  cases isConn

/-- **Every connection is attended throughout exactly the runs whose rounds
rearm.** -/
theorem attended_iff_rearms (server : Server)
    (cassUuidFromString : List UInt8 → Option CassUuid) (world : World)
    (udpFd tcpFd syncFd : Nat) (memory : List UInt8) (rounds : List Round) :
    Run.Throughout (fun worker => Worker.step worker server cassUuidFromString) Attended
        (Worker.start world udpFd tcpFd syncFd memory) rounds ↔
      Run.Along (fun worker => Worker.step worker server cassUuidFromString)
        (Rearms cassUuidFromString) (Worker.start world udpFd tcpFd syncFd memory) rounds :=
  @Run.throughout_iff_along _ _ _ Attended Attended (Rearms cassUuidFromString) (fun _ => True)
    (fun _ attended => attended)
    (fun _ _ _ attended rearms => attended.step_iff.mpr rearms)
    (fun _ _ _ attended misses attends => misses (attended.step_iff.mp attends))
    _ _ (attended_start world udpFd tcpFd syncFd memory) (fun _ _ => trivial)

/-! ## A socket that is not read any more -/

/-- The UDP socket is a connection, it is no listening socket, and nothing is sent
over it as over TCP. -/
structure UdpSocket (udpFd : Nat) (worker : Worker) : Prop where
  isSocket : worker.udpFd = udpFd
  connected : ∃ conn, worker.connections udpFd = some conn ∧ conn.type = .UDP
  notListening : udpFd ∉ worker.accepts
  unsent : ∀ send ∈ worker.sends, send.fd ≠ udpFd

section Sockets

variable {server : Server} {cassUuidFromString : List UInt8 → Option CassUuid} {worker : Worker}
  {udpFd fd : Nat} {conn : Connection} {sqe multishot : Bool}

/-- A connection of another type is not the UDP socket. -/
theorem UdpSocket.ne_of_type (socket : UdpSocket udpFd worker)
    (isConn : worker.connections fd = some conn) (other : conn.type ≠ .UDP) : fd ≠ udpFd := by
  rintro rfl
  obtain ⟨udpConn, isUdpConn, isUdp⟩ := socket.connected
  obtain rfl := Option.some.inj (isConn.symm.trans isUdpConn)
  exact other isUdp

theorem UdpSocket.armRead (socket : UdpSocket udpFd worker)
    (isConn : worker.connections fd = some conn) :
    UdpSocket udpFd (worker.armRead multishot sqe fd conn) := by
  cases sqe with
  | false => exact socket
  | true =>
      refine ⟨socket.isSocket, ?_, socket.notListening, socket.unsent⟩
      obtain ⟨udpConn, isUdpConn, isUdp⟩ := socket.connected
      rcases eq_or_ne fd udpFd with rfl | other
      · obtain rfl := Option.some.inj (isConn.symm.trans isUdpConn)
        exact ⟨_, worker.armRead_self conn multishot, isUdp⟩
      · exact ⟨udpConn, (worker.armRead_of_ne conn multishot other.symm).trans isUdpConn, isUdp⟩

theorem UdpSocket.rearm (socket : UdpSocket udpFd worker) :
    UdpSocket udpFd (worker.rearm sqe fd) := by
  rw [Worker.rearm]
  split
  · exact socket
  · next isConn =>
      split
      · exact socket.armRead isConn
      · exact socket.armRead isConn

theorem UdpSocket.put (socket : UdpSocket udpFd worker) (other : fd ≠ udpFd)
    (conn : Connection) : UdpSocket udpFd (worker.put fd conn) := by
  refine ⟨socket.isSocket, ?_, socket.notListening, socket.unsent⟩
  obtain ⟨udpConn, isUdpConn, isUdp⟩ := socket.connected
  exact ⟨udpConn, (worker.put_of_ne conn other.symm).trans isUdpConn, isUdp⟩

/-- An error closes no UDP socket. -/
theorem UdpSocket.failed (socket : UdpSocket udpFd worker) :
    UdpSocket udpFd (worker.failed sqe fd) := by
  rw [Worker.failed]
  split
  · exact socket
  · next conn isConn =>
      split
      · exact socket.armRead isConn
      · next notUdp =>
          have other : fd ≠ udpFd := by
            rintro rfl
            obtain ⟨udpConn, isUdpConn, isUdp⟩ := socket.connected
            obtain rfl := Option.some.inj (isConn.symm.trans isUdpConn)
            exact notUdp ⟨isUdp, socket.isSocket.symm⟩
          refine ⟨socket.isSocket, ?_, socket.notListening, fun send member => ?_⟩
          · obtain ⟨udpConn, isUdpConn, isUdp⟩ := socket.connected
            exact ⟨udpConn, (worker.erase_of_ne other.symm).trans isUdpConn, isUdp⟩
          · obtain ⟨before, wasSend, rfl⟩ := List.mem_map.mp member
            have unsent := socket.unsent before wasSend
            split <;> exact unsent

theorem UdpSocket.queueWriteTcp (socket : UdpSocket udpFd worker) (other : fd ≠ udpFd) :
    UdpSocket udpFd (worker.queueWriteTcp sqe fd conn) := by
  rw [Worker.queueWriteTcp]
  split
  · refine ⟨socket.isSocket, socket.connected, socket.notListening, fun send member => ?_⟩
    rcases List.mem_append.mp member with old | new
    · exact socket.unsent send old
    · rw [List.mem_singleton.mp new]
      exact other
  · exact socket

theorem UdpSocket.receive (socket : UdpSocket udpFd worker)
    (isConn : worker.connections fd = some conn) (arrival : Arrival) :
    UdpSocket udpFd (worker.receive server cassUuidFromString sqe fd conn arrival) := by
  rw [Worker.receive]
  split
  · next isSync =>
      have other := socket.ne_of_type isConn (by rw [isSync]; decide)
      rw [Worker.receiveSync]
      split
      · exact ⟨socket.isSocket, socket.connected, socket.notListening, socket.unsent⟩
      · refine UdpSocket.queueWriteTcp (UdpSocket.put ?_ other _) other
        exact ⟨socket.isSocket, socket.connected, socket.notListening, socket.unsent⟩
  · next isTcp =>
      have other := socket.ne_of_type isConn (by rw [isTcp]; decide)
      refine UdpSocket.queueWriteTcp (UdpSocket.put ?_ other _) other
      exact ⟨socket.isSocket, socket.connected, socket.notListening, socket.unsent⟩
  · rw [Worker.receiveUdp, Worker.queueWriteUdp]
    split <;> exact ⟨socket.isSocket, socket.connected, socket.notListening, socket.unsent⟩

theorem UdpSocket.readCompleted (socket : UdpSocket udpFd worker) {read : ArmedRead}
    {round : Round} {received : Received} {hasMore : Bool} :
    UdpSocket udpFd
      (worker.readCompleted server cassUuidFromString round read received hasMore) := by
  have used : ∀ bufId, UdpSocket udpFd (worker.useBuffer read bufId) := fun _ =>
    ⟨socket.isSocket, socket.connected, socket.notListening, socket.unsent⟩
  cases received with
  | failed => exact socket.failed
  | invalid bufId => exact used bufId
  | message bufId arrival =>
      simp only [Worker.readCompleted]
      split
      · exact used bufId
      · next isConn =>
          split
          · exact (used bufId).receive isConn arrival
          · exact ((used bufId).receive isConn arrival).rearm

theorem UdpSocket.writeCompleted (socket : UdpSocket udpFd worker) {round : Round} {send : Send}
    {ok : Bool} : UdpSocket udpFd (worker.writeCompleted round send ok) := by
  rw [Worker.writeCompleted]
  split
  · split
    · next isConn =>
        split
        · exact socket.armRead isConn
        · exact socket
    · exact socket
  · exact socket.failed

/-- Changing a send that is on another descriptor. -/
theorem UdpSocket.unsent_set (socket : UdpSocket udpFd worker) (index : Nat) {send : Send}
    (unsent : send.fd ≠ udpFd) : ∀ other ∈ worker.sends.set index send, other.fd ≠ udpFd := by
  intro other member
  rcases List.mem_or_eq_of_mem_set member with old | rfl
  · exact socket.unsent other old
  · exact unsent

theorem UdpSocket.ne_of_free (socket : UdpSocket udpFd worker)
    (isFree : worker.connections fd = none) : fd ≠ udpFd := by
  rintro rfl
  obtain ⟨conn, isConn, -⟩ := socket.connected
  cases isFree.symm.trans isConn

/-- **The UDP socket stays what it is.** -/
theorem UdpSocket.step (socket : UdpSocket udpFd worker) (round : Round) :
    UdpSocket udpFd (worker.step server cassUuidFromString round) := by
  rw [Worker.step]
  split
  case isFalse => exact socket
  obtain ⟨event, sendSqe, readSqe⟩ := round
  cases event with
  | accepted index clientFd ip memory more =>
      simp only [Worker.handleEvent]
      split
      case h_2 => exact socket
      case h_1 isAccept isFree =>
        refine UdpSocket.rearm (UdpSocket.put ?_ (socket.ne_of_free isFree) _)
        refine ⟨socket.isSocket, socket.connected, fun member => socket.notListening ?_,
          socket.unsent⟩
        dsimp only at member
        split at member
        · exact member
        · exact List.mem_of_mem_eraseIdx member
  | acceptFailed index =>
      simp only [Worker.handleEvent]
      cases isAccept : worker.accepts[index]? with
      | none => exact socket
      | some listening =>
          have other : udpFd ≠ listening := fun same =>
            socket.notListening (same ▸ List.mem_of_getElem? isAccept)
          have kept : UdpSocket udpFd { worker with accepts := worker.accepts.eraseIdx index } :=
            ⟨socket.isSocket, socket.connected,
              fun member => socket.notListening (List.mem_of_mem_eraseIdx member), socket.unsent⟩
          have closed := @UdpSocket.failed _ udpFd listening readSqe kept
          simp only [Worker.queueMultishotAccept]
          split
          · refine ⟨closed.isSocket, closed.connected, fun member => ?_, closed.unsent⟩
            rcases List.mem_append.mp member with old | new
            · exact closed.notListening old
            · exact other (List.mem_singleton.mp new)
          · exact closed
  | read index received more =>
      simp only [Worker.handleEvent]
      split
      · refine UdpSocket.readCompleted ?_
        exact ⟨socket.isSocket, socket.connected, socket.notListening, socket.unsent⟩
      · exact socket
  | written index ok =>
      simp only [Worker.handleEvent]
      cases isSend : worker.sends[index]? with
      | none => exact socket
      | some send =>
          have unsent := socket.unsent send (List.mem_of_getElem? isSend)
          dsimp only
          split
          · exact socket
          · refine UdpSocket.writeCompleted ?_
            exact ⟨socket.isSocket, socket.connected, socket.notListening,
              socket.unsent_set index unsent⟩
  | transmit index freed =>
      simp only [Worker.handleEvent]
      cases isSend : worker.sends[index]? with
      | none => exact socket
      | some send =>
          have unsent := socket.unsent send (List.mem_of_getElem? isSend)
          dsimp only
          split
          · exact socket
          · exact ⟨socket.isSocket, socket.connected, socket.notListening,
              socket.unsent_set index unsent⟩
  | contextSent index =>
      exact ⟨socket.isSocket, socket.connected, socket.notListening, socket.unsent⟩
  | elsewhere caches recordQueue entryQueue database =>
      exact ⟨socket.isSocket, socket.connected, socket.notListening, socket.unsent⟩

/-- No read is armed on the UDP socket, and of the answers on their way over it
every one is among these. -/
structure Deaf (udpFd : Nat) (answered : List Context) (worker : Worker) : Prop where
  unread : ¬ Listens worker.reads udpFd
  contexts : ∀ context ∈ worker.contexts, context.fd = udpFd → context ∈ answered

variable {answered : List Context}

theorem Deaf.armRead (deaf : Deaf udpFd answered worker) (other : fd ≠ udpFd) :
    Deaf udpFd answered (worker.armRead multishot sqe fd conn) := by
  cases sqe with
  | false => exact deaf
  | true =>
      refine ⟨?_, deaf.contexts⟩
      rintro ⟨read, member, same⟩
      rcases List.mem_append.mp member with old | new
      · exact deaf.unread ⟨read, old, same⟩
      · rw [List.mem_singleton.mp new] at same
        exact other same

theorem Deaf.rearm (deaf : Deaf udpFd answered worker) (other : fd ≠ udpFd) :
    Deaf udpFd answered (worker.rearm sqe fd) := by
  rw [Worker.rearm]
  split
  · exact deaf
  · split
    · exact deaf.armRead other
    · exact deaf.armRead other

theorem Deaf.failed (deaf : Deaf udpFd answered worker) (other : fd ≠ udpFd) :
    Deaf udpFd answered (worker.failed sqe fd) := by
  rw [Worker.failed]
  split
  · exact deaf
  · split
    · exact deaf.armRead other
    · exact ⟨deaf.unread, deaf.contexts⟩

theorem Deaf.queueWriteTcp (deaf : Deaf udpFd answered worker) :
    Deaf udpFd answered (worker.queueWriteTcp sqe fd conn) := by
  rw [Worker.queueWriteTcp]
  split
  · exact ⟨deaf.unread, deaf.contexts⟩
  · exact deaf

/-- What is received on another descriptor is not answered over the UDP socket. -/
theorem Deaf.receive (deaf : Deaf udpFd answered worker) (other : fd ≠ udpFd)
    (arrival : Arrival) :
    Deaf udpFd answered (worker.receive server cassUuidFromString sqe fd conn arrival) := by
  rw [Worker.receive]
  split
  · rw [Worker.receiveSync]
    split
    · exact ⟨deaf.unread, deaf.contexts⟩
    · exact Deaf.queueWriteTcp ⟨deaf.unread, deaf.contexts⟩
  · exact Deaf.queueWriteTcp ⟨deaf.unread, deaf.contexts⟩
  · rw [Worker.receiveUdp, Worker.queueWriteUdp]
    split
    · refine ⟨deaf.unread, fun context member same => ?_⟩
      rcases List.mem_append.mp member with old | new
      · exact deaf.contexts context old same
      · rw [List.mem_singleton.mp new] at same
        exact absurd same other
    · exact ⟨deaf.unread, deaf.contexts⟩

theorem Deaf.readCompleted (deaf : Deaf udpFd answered worker) {read : ArmedRead}
    {round : Round} {received : Received} {hasMore : Bool} (other : read.fd ≠ udpFd) :
    Deaf udpFd answered
      (worker.readCompleted server cassUuidFromString round read received hasMore) := by
  have used : ∀ bufId, Deaf udpFd answered (worker.useBuffer read bufId) :=
    fun _ => ⟨deaf.unread, deaf.contexts⟩
  cases received with
  | failed => exact deaf.failed other
  | invalid bufId => exact used bufId
  | message bufId arrival =>
      simp only [Worker.readCompleted]
      split
      · exact used bufId
      · split
        · exact (used bufId).receive other arrival
        · exact ((used bufId).receive other arrival).rearm other

theorem Deaf.writeCompleted (deaf : Deaf udpFd answered worker) {round : Round} {send : Send}
    {ok : Bool} (other : send.fd ≠ udpFd) :
    Deaf udpFd answered (worker.writeCompleted round send ok) := by
  rw [Worker.writeCompleted]
  split
  · split
    · split
      · exact deaf.armRead other
      · exact deaf
    · exact deaf
  · exact deaf.failed other

/-- No event arms a read of the UDP socket: every branch that does comes after a
read of it. -/
theorem Deaf.step (deaf : Deaf udpFd answered worker) (socket : UdpSocket udpFd worker)
    (round : Round) : Deaf udpFd answered (worker.step server cassUuidFromString round) := by
  rw [Worker.step]
  split
  case isFalse => exact deaf
  obtain ⟨event, sendSqe, readSqe⟩ := round
  cases event with
  | accepted index clientFd ip memory more =>
      simp only [Worker.handleEvent]
      split
      case h_2 => exact deaf
      case h_1 isAccept isFree =>
        exact Deaf.rearm ⟨deaf.unread, deaf.contexts⟩ (socket.ne_of_free isFree)
  | acceptFailed index =>
      simp only [Worker.handleEvent]
      cases isAccept : worker.accepts[index]? with
      | none => exact deaf
      | some listening =>
          have other : listening ≠ udpFd := fun same =>
            socket.notListening (same ▸ List.mem_of_getElem? isAccept)
          have kept : Deaf udpFd answered
              { worker with accepts := worker.accepts.eraseIdx index } :=
            ⟨deaf.unread, deaf.contexts⟩
          have closed := @Deaf.failed _ udpFd listening readSqe answered kept other
          simp only [Worker.queueMultishotAccept]
          split
          · exact ⟨closed.unread, closed.contexts⟩
          · exact closed
  | read index received more =>
      simp only [Worker.handleEvent]
      split
      case h_2 => exact deaf
      case h_1 read isRead =>
        have other : read.fd ≠ udpFd := fun same =>
          deaf.unread ⟨read, List.mem_of_getElem? isRead, same⟩
        refine Deaf.readCompleted ?_ other
        refine ⟨?_, deaf.contexts⟩
        rintro ⟨armed, member, same⟩
        refine deaf.unread ⟨armed, ?_, same⟩
        dsimp only at member
        split at member
        · exact member
        · exact List.mem_of_mem_eraseIdx member
  | written index ok =>
      simp only [Worker.handleEvent]
      cases isSend : worker.sends[index]? with
      | none => exact deaf
      | some send =>
          have other := socket.unsent send (List.mem_of_getElem? isSend)
          dsimp only
          split
          · exact deaf
          · refine Deaf.writeCompleted ?_ other
            exact ⟨deaf.unread, deaf.contexts⟩
  | transmit index freed =>
      simp only [Worker.handleEvent]
      split
      · split
        · exact deaf
        · exact ⟨deaf.unread, deaf.contexts⟩
      · exact deaf
  | contextSent index =>
      exact ⟨deaf.unread, fun context member =>
        deaf.contexts context (List.mem_of_mem_eraseIdx member)⟩
  | elsewhere caches recordQueue entryQueue database => exact ⟨deaf.unread, deaf.contexts⟩

end Sockets

theorem udpSocket_start (world : World) {udpFd tcpFd syncFd : Nat} (memory : List UInt8)
    (notTcp : udpFd ≠ tcpFd) (notSync : udpFd ≠ syncFd) :
    UdpSocket udpFd (Worker.start world udpFd tcpFd syncFd memory) where
  isSocket := rfl
  connected := ⟨_, Worker.armRead_self _ _ true, rfl⟩
  notListening member := by
    rcases List.mem_cons.mp member with isTcp | isSync
    · exact notTcp isTcp
    · exact notSync (List.mem_singleton.mp isSync)
  unsent _ member := nomatch member

/-- **Once no read is armed on the UDP socket, none ever is again**, and no query that
comes over it is answered. -/
theorem deaf_stays_deaf (server : Server) (cassUuidFromString : List UInt8 → Option CassUuid)
    (world : World) {udpFd tcpFd syncFd : Nat} (memory : List UInt8) (notTcp : udpFd ≠ tcpFd)
    (notSync : udpFd ≠ syncFd) (before after : List Round) :
    let step := fun worker => Worker.step worker server cassUuidFromString
    let start := Worker.start world udpFd tcpFd syncFd memory
    let deafened := Run.exec step start before
    ¬ Listens deafened.reads udpFd →
      Deaf udpFd deafened.contexts (Run.exec step start (before ++ after)) := by
  intro step start deafened unread
  have socket : UdpSocket udpFd deafened :=
    @Run.exec_invariant _ _ step (UdpSocket udpFd) (fun _ => True)
      (fun _ round _ socket => socket.step round) _ _
      (udpSocket_start world memory notTcp notSync) fun _ _ => trivial
  have deaf : Deaf udpFd deafened.contexts deafened := ⟨unread, fun _ member _ => member⟩
  rw [Run.exec_append]
  exact (@Run.exec_invariant _ _ step
    (fun worker => UdpSocket udpFd worker ∧ Deaf udpFd deafened.contexts worker) (fun _ => True)
    (fun _ round _ both => ⟨both.1.step round, both.2.step both.1 round⟩) _ _ ⟨socket, deaf⟩
    fun _ _ => trivial).2

/-- The buffer of the first read is not valid, and the read does not go on. -/
theorem deaf_stays_deaf_invalid :
    let step := fun worker => Worker.step worker plainServer fun _ => none
    let start := Worker.start (World.start emptyDatabase) 5 6 7 []
    let deafened := Run.exec step start [⟨.read 0 (.invalid 7) false, true, true⟩]
    let sent := [⟨.accepted 0 9 0 [] true, true, true⟩, ⟨.read 0 (.invalid 3) false, true, true⟩]
    ¬ Listens deafened.reads 5 ∧
      Deaf 5 deafened.contexts (Run.exec step start
        ([⟨.read 0 (.invalid 7) false, true, true⟩] ++ sent)) := by
  intro step start deafened sent
  have unread : ¬ Listens deafened.reads 5 := fun ⟨_, member, _⟩ => nomatch member
  exact ⟨unread, deaf_stays_deaf plainServer (fun _ => none) (World.start emptyDatabase) []
    (by decide) (by decide) _ sent unread⟩

end EdgeDNS.Core
