import EdgeDNS.Core.Worker
import EdgeDNS.Library.Outstanding

/-!
# The armed reads of a worker

A completed read gives the worker a descriptor and the number of a buffer. The
group of the buffer is taken from the connection, which knows the group of the
read that was armed last. `OneRead` says that this is the group of the only
armed read of the connection, and that every completed buffer was looked up in
the group it was taken from.

Reads are armed when a connection is accepted, behind a message, behind an error
on the UDP socket and behind a send over a sync connection. `InTurn` says that
none of these finds a read that is still armed, and that no buffer completes
for a connection that is gone. The runs in turn are exactly the runs in which
`OneRead` holds throughout (`oneRead_iff_inTurn`). A sync request whose response
has been sent is not in turn: its read was armed again when it was received.
-/

set_option autoImplicit false

namespace EdgeDNS.Core

open Outstanding

/-- A connection has at most one armed read, armed with the group that it knows,
and every completed buffer was looked up in its own group and released to it. -/
structure OneRead (worker : Worker) : Prop where
  single : ∀ fd conn, worker.connections fd = some conn →
    Single ArmedRead.fd ArmedRead.group worker.reads fd conn.bufGroup
  returned : ∀ use ∈ worker.buffers, use.groupId = some use.taken

/-- No read is armed on a descriptor. -/
def Worker.Quiet (worker : Worker) (fd : Nat) : Prop := Idle ArmedRead.fd worker.reads fd

/-- A descriptor is the UDP socket. -/
def Worker.IsUdp (worker : Worker) (fd : Nat) : Prop :=
  fd = worker.udpFd ∧ ∃ conn, worker.connections fd = some conn ∧ conn.type = .UDP

/-- A descriptor is a sync connection. -/
def Worker.IsSync (worker : Worker) (fd : Nat) : Prop :=
  ∃ conn, worker.connections fd = some conn ∧ conn.type = .SYNC

/-- A round that arms a read finds none armed on the descriptor, and a buffer
completes while its connection is there. A connection that is accepted when the
ring has no entry may meet an old read of the first group, which is the group
that it begins with. -/
def InTurn (worker : Worker) (round : Round) : Prop :=
  worker.running = true →
    match round.event with
    | .accepted index clientFd _ _ _ =>
        (worker.accepts[index]?).isSome → worker.connections clientFd = none →
          ∀ read ∈ worker.reads, read.fd = clientFd → round.readSqe = false ∧ read.group = 1
    | .acceptFailed index =>
        ∀ fd, worker.accepts[index]? = some fd → worker.IsUdp fd → round.readSqe = true →
          worker.Quiet fd
    | .read index .failed more =>
        ∀ read, worker.reads[index]? = some read → worker.IsUdp read.fd → round.readSqe = true →
          (more && read.multishot) = false
    | .read index _ _ =>
        ∀ read, worker.reads[index]? = some read → (worker.connections read.fd).isSome
    | .written index true =>
        ∀ send, worker.sends[index]? = some send → send.completed = false →
          send.transmitted.isSome → worker.IsSync send.fd → round.readSqe = true →
            worker.Quiet send.fd
    | .written index false =>
        ∀ send, worker.sends[index]? = some send → send.completed = false →
          worker.IsUdp send.fd → round.readSqe = true → worker.Quiet send.fd
    | _ => True

/-! ## The invariant -/

/-- The invariant but for the connection of one descriptor. -/
structure OthersInOrder (worker : Worker) (fd : Nat) : Prop where
  others : ∀ other conn, other ≠ fd → worker.connections other = some conn →
    Single ArmedRead.fd ArmedRead.group worker.reads other conn.bufGroup
  returned : ∀ use ∈ worker.buffers, use.groupId = some use.taken
  atMostOne : ∀ other, (under ArmedRead.fd worker.reads other).length ≤ 1

/-- At most one read is armed on any descriptor, a connection or not. -/
structure InOrder (worker : Worker) : Prop where
  oneRead : OneRead worker
  atMostOne : ∀ fd, (under ArmedRead.fd worker.reads fd).length ≤ 1

/-- What the invariant looks at is the same. -/
structure SameReads (before after : Worker) : Prop where
  reads : after.reads = before.reads
  buffers : after.buffers = before.buffers
  groups : ∀ fd, (after.connections fd).map Connection.bufGroup =
    (before.connections fd).map Connection.bufGroup

theorem SameReads.trans {first second third : Worker} (same : SameReads first second)
    (same' : SameReads second third) : SameReads first third where
  reads := same'.reads.trans same.reads
  buffers := same'.buffers.trans same.buffers
  groups := fun fd => (same'.groups fd).trans (same.groups fd)

theorem SameReads.symm {before after : Worker} (same : SameReads before after) :
    SameReads after before where
  reads := same.reads.symm
  buffers := same.buffers.symm
  groups := fun fd => (same.groups fd).symm

theorem OneRead.congr {before after : Worker} (holds : OneRead before)
    (same : SameReads before after) : OneRead after where
  single := fun fd conn isConn => by
    have known : (before.connections fd).map Connection.bufGroup = some conn.bufGroup := by
      rw [← same.groups fd, isConn, Option.map_some]
    obtain ⟨conn', isConn', sameGroup⟩ := Option.map_eq_some_iff.mp known
    rw [same.reads, ← sameGroup]
    exact holds.single fd conn' isConn'
  returned := by
    rw [same.buffers]
    exact holds.returned

theorem InOrder.congr {before after : Worker} (holds : InOrder before)
    (same : SameReads before after) : InOrder after where
  oneRead := holds.oneRead.congr same
  atMostOne := by
    rw [same.reads]
    exact holds.atMostOne

/-- A condition decides whether what comes next is in order. -/
structure Decides (condition : Prop) (after : Worker) : Prop where
  keeps : condition → InOrder after
  breaks : ¬ condition → ¬ OneRead after

theorem InOrder.decides {after : Worker} (holds : InOrder after) {condition : Prop}
    (meets : condition) : Decides condition after :=
  ⟨fun _ => holds, fun misses => absurd meets misses⟩

theorem Decides.of_iff {condition condition' : Prop} {after : Worker}
    (decides : Decides condition after) (same : condition' ↔ condition) :
    Decides condition' after :=
  ⟨fun meets => decides.keeps (same.mp meets), fun misses => decides.breaks (misses ∘ same.mpr)⟩

/-- What is asked of an entry that is found. -/
theorem forall_found_iff {Entry : Type} {entry : Option Entry} {found : Entry}
    (isFound : entry = some found) {asks : Entry → Prop} :
    (∀ other, entry = some other → asks other) ↔ asks found := by
  constructor
  · exact fun meets => meets found isFound
  · intro meets other isOther
    rw [← Option.some.inj (isFound.symm.trans isOther)]
    exact meets

theorem Decides.congr {condition : Prop} {before after : Worker}
    (decides : Decides condition before) (same : SameReads before after) :
    Decides condition after :=
  ⟨fun meets => (decides.keeps meets).congr same,
    fun misses holds => decides.breaks misses (holds.congr same.symm)⟩

section Moves

variable {worker : Worker} {fd : Nat} {conn : Connection} {sqe multishot : Bool}

theorem InOrder.others (holds : InOrder worker) (fd : Nat) : OthersInOrder worker fd where
  others := fun other conn _ isConn => holds.oneRead.single other conn isConn
  returned := holds.oneRead.returned
  atMostOne := holds.atMostOne

theorem OthersInOrder.inOrder (others : OthersInOrder worker fd)
    (single : ∀ conn, worker.connections fd = some conn →
      Single ArmedRead.fd ArmedRead.group worker.reads fd conn.bufGroup) : InOrder worker where
  oneRead :=
    { single := fun other conn isConn => by
        by_cases same : other = fd
        · subst same
          exact single conn isConn
        · exact others.others other conn same isConn
      returned := others.returned }
  atMostOne := others.atMostOne

/-- Entering a connection concerns no other. -/
theorem OthersInOrder.put (others : OthersInOrder worker fd) (conn : Connection) :
    OthersInOrder (worker.put fd conn) fd where
  others := fun other conn' different isConn => by
    rw [worker.put_of_ne conn different] at isConn
    exact others.others other conn' different isConn
  returned := others.returned
  atMostOne := others.atMostOne

/-- **Arming a read** on a quiet descriptor brings its connection in order. -/
theorem OthersInOrder.armRead (others : OthersInOrder worker fd) (quiet : worker.Quiet fd)
    (conn : Connection) : InOrder (worker.armRead multishot true fd conn) := by
  obtain ⟨group, isGroup⟩ : ∃ group, group = pickGroup worker.rrCounter := ⟨_, rfl⟩
  have reads : (worker.armRead multishot true fd conn).reads =
      worker.reads ++ [⟨fd, group, multishot⟩] := by rw [isGroup]; rfl
  have connection : (worker.armRead multishot true fd conn).connections fd =
      some { conn with bufGroup := group } := by
    rw [isGroup]
    exact worker.armRead_self conn multishot
  refine @OthersInOrder.inOrder _ fd ⟨?_, others.returned, ?_⟩ ?_
  · intro other conn' different isConn
    rw [worker.armRead_of_ne conn multishot different] at isConn
    rw [reads, single_append_of_ne different.symm]
    exact others.others other conn' different isConn
  · intro other
    rw [reads, under_append]
    by_cases same : fd = other
    · subst same
      rw [idle_iff_under.mp quiet, if_pos rfl]
      exact Nat.le_refl 1
    · rw [if_neg same, List.append_nil]
      exact others.atMostOne other
  · intro conn' isConn
    rw [connection] at isConn
    obtain rfl := Option.some.inj isConn
    rw [reads]
    exact (single_append_iff rfl).mpr ⟨quiet, rfl⟩

/-- Arming a read on a descriptor that is not quiet makes a second one. -/
theorem not_oneRead_armRead (busy : ¬ worker.Quiet fd) (conn : Connection) :
    ¬ OneRead (worker.armRead multishot true fd conn) := by
  intro holds
  have single := holds.single fd _ (worker.armRead_self conn multishot)
  exact busy ((single_append_iff rfl).mp single).1

/-- **Queueing a read** asks for a quiet descriptor. -/
theorem InOrder.queue (holds : InOrder worker) (conn : Connection) :
    Decides (sqe = true → worker.Quiet fd) (worker.armRead multishot sqe fd conn) := by
  cases sqe with
  | false => exact holds.decides fun impossible => nomatch impossible
  | true =>
      exact ⟨fun quiet => (holds.others fd).armRead (quiet rfl) conn,
        fun busy => not_oneRead_armRead (fun quiet => busy fun _ => quiet) conn⟩

theorem InOrder.rearm (holds : InOrder worker) (quiet : sqe = true → worker.Quiet fd) :
    InOrder (worker.rearm sqe fd) := by
  rw [Worker.rearm]
  split
  · exact holds
  · split
    · exact (holds.queue _).keeps quiet
    · exact (holds.queue _).keeps quiet

/-- An erased connection has no reads to speak of. -/
theorem InOrder.erase (holds : InOrder worker) (fd : Nat) : InOrder (worker.erase fd) where
  oneRead :=
    { single := fun other conn isConn => by
        by_cases same : other = fd
        · rw [same, worker.erase_self] at isConn
          cases isConn
        · rw [worker.erase_of_ne same] at isConn
          exact holds.oneRead.single other conn isConn
      returned := holds.oneRead.returned }
  atMostOne := holds.atMostOne

/-- **A completion with an error** asks for a quiet UDP socket. -/
theorem InOrder.failed (holds : InOrder worker) :
    Decides (worker.IsUdp fd → sqe = true → worker.Quiet fd) (worker.failed sqe fd) := by
  rw [Worker.failed]
  split
  · next gone =>
      refine holds.decides fun isUdp => ?_
      obtain ⟨-, conn, isConn, -⟩ := isUdp
      cases gone.symm.trans isConn
  · next conn isConn =>
      split
      · next isUdp =>
          exact (holds.queue conn).of_iff
            (forall_prop_of_true ⟨isUdp.2, conn, isConn, isUdp.1⟩)
      · next notUdp =>
          refine (holds.erase fd).decides fun isUdp => absurd ?_ notUdp
          obtain ⟨isFd, conn', isConn', type⟩ := isUdp
          obtain rfl := Option.some.inj (isConn.symm.trans isConn')
          exact ⟨type, isFd⟩

/-- Filling the write buffer of a connection leaves the reads alone. -/
theorem SameReads.put_fill (isConn : worker.connections fd = some conn) (out : List UInt8) :
    SameReads worker (worker.put fd (conn.fill out)) where
  reads := rfl
  buffers := rfl
  groups := fun other => by
    by_cases same : other = fd
    · rw [same, worker.put_self, isConn]
      rfl
    · rw [worker.put_of_ne _ same]

/-- So does queueing what was filled in. -/
theorem SameReads.respond {after : Worker} (same : SameReads worker after)
    (isConn : after.connections fd = some conn) (out : List UInt8) :
    SameReads worker ((after.put fd (conn.fill out)).queueWriteTcp sqe fd (conn.fill out)) := by
  have filled := same.trans (SameReads.put_fill isConn out)
  rw [Worker.queueWriteTcp]
  split
  · exact ⟨filled.reads, filled.buffers, filled.groups⟩
  · exact filled

/-- Handling a message leaves the reads alone. -/
theorem SameReads.receive (server : Server) (cassUuidFromString : List UInt8 → Option CassUuid)
    (isConn : worker.connections fd = some conn) (arrival : Arrival) :
    SameReads worker (worker.receive server cassUuidFromString sqe fd conn arrival) := by
  rw [Worker.receive]
  split
  · rw [Worker.receiveSync]
    split
    · exact ⟨rfl, rfl, fun _ => rfl⟩
    · next response caches _ =>
        have served : SameReads worker
            { worker with world := { worker.world with caches := caches } } :=
          ⟨rfl, rfl, fun _ => rfl⟩
        exact served.respond isConn _
  · have handled : SameReads worker
        { worker with
          world := worker.world.handleQuery server (arrival.request true conn.ip)
          produced := worker.produced ++
            [⟨fd, worker.world.response server (arrival.request true conn.ip)⟩] } :=
      ⟨rfl, rfl, fun _ => rfl⟩
    exact handled.respond isConn _
  · rw [Worker.receiveUdp, Worker.queueWriteUdp]
    split <;> exact ⟨rfl, rfl, fun _ => rfl⟩

/-- Disarming a read keeps the order. -/
theorem InOrder.disarm (holds : InOrder worker) (index : Nat) :
    InOrder { worker with reads := worker.reads.eraseIdx index } where
  oneRead :=
    { single := fun fd conn isConn =>
        (holds.oneRead.single fd conn isConn).sublist (List.eraseIdx_sublist ..)
      returned := holds.oneRead.returned }
  atMostOne := fun fd =>
    Nat.le_trans (under_sublist (List.eraseIdx_sublist ..) fd) (holds.atMostOne fd)

/-- A buffer is looked up in its group when its connection knows the group. -/
theorem InOrder.useBuffer (holds : InOrder worker) {read : ArmedRead}
    (isConn : worker.connections read.fd = some conn) (carried : read.group = conn.bufGroup)
    (bufId : Nat) : InOrder (worker.useBuffer read bufId) where
  oneRead :=
    { single := holds.oneRead.single
      returned := fun use member => by
        rcases List.mem_append.mp member with old | new
        · exact holds.oneRead.returned use old
        · rw [List.mem_singleton.mp new, isConn, carried]
          rfl }
  atMostOne := holds.atMostOne

/-- A buffer that completes without a connection is not returned. -/
theorem not_oneRead_useBuffer {read : ArmedRead} (gone : worker.connections read.fd = none)
    (bufId : Nat) : ¬ OneRead (worker.useBuffer read bufId) := by
  intro holds
  have returned := holds.returned ⟨read.group, bufId, _⟩
    (List.mem_append_right _ (List.mem_singleton.mpr rfl))
  rw [gone] at returned
  cases returned

end Moves

/-! ## The steps -/

section Steps

variable {server : Server} {cassUuidFromString : List UInt8 → Option CassUuid} {worker : Worker}
  {round : Round}

/-- What is left of the reads when one has completed, and that its descriptor is
quiet when it was the last time. -/
structure Completes (worker : Worker) (read : ArmedRead) (hasMore : Bool) (rest : Worker) :
    Prop where
  inOrder : InOrder rest
  connections : rest.connections = worker.connections
  udpFd : rest.udpFd = worker.udpFd
  carried : ∀ conn, worker.connections read.fd = some conn → read.group = conn.bufGroup
  quiet : rest.Quiet read.fd ↔ hasMore = false

theorem InOrder.completes (holds : InOrder worker) {index : Nat} {read : ArmedRead}
    (armed : worker.reads[index]? = some read) (hasMore : Bool) :
    Completes worker read hasMore
      { worker with
        reads := if hasMore then worker.reads else worker.reads.eraseIdx index } where
  inOrder := by
    cases hasMore with
    | true => exact holds
    | false => exact holds.disarm index
  connections := rfl
  udpFd := rfl
  carried := fun conn isConn =>
    (holds.oneRead.single read.fd conn isConn).carries read (List.mem_of_getElem? armed) rfl
  quiet := by
    cases hasMore with
    | true =>
        refine ⟨fun quiet => ?_, fun impossible => nomatch impossible⟩
        exact absurd rfl (quiet read (List.mem_of_getElem? armed))
    | false => exact ⟨fun _ => rfl, fun _ => idle_of_finished (holds.atMostOne _) armed rfl⟩

/-- **A completed read** asks that an error ends the UDP read, and that a buffer finds
its connection. -/
theorem Completes.decides {read : ArmedRead} {hasMore : Bool} {rest : Worker}
    (completes : Completes worker read hasMore rest) (received : Received) :
    Decides
      (match received with
        | .failed => worker.IsUdp read.fd → round.readSqe = true → hasMore = false
        | _ => (worker.connections read.fd).isSome)
      (rest.readCompleted server cassUuidFromString round read received hasMore) := by
  have gone : ¬ (worker.connections read.fd).isSome → rest.connections read.fd = none := by
    rw [completes.connections]
    exact Option.not_isSome_iff_eq_none.mp
  have known : (worker.connections read.fd).isSome → ∃ conn,
      rest.connections read.fd = some conn ∧ read.group = conn.bufGroup := by
    intro isSome
    obtain ⟨conn, isConn⟩ := Option.isSome_iff_exists.mp isSome
    refine ⟨conn, ?_, completes.carried conn isConn⟩
    rw [completes.connections]
    exact isConn
  cases received with
  | failed =>
      refine completes.inOrder.failed.of_iff ?_
      rw [completes.quiet, Worker.IsUdp, Worker.IsUdp, completes.udpFd, completes.connections]
  | invalid bufId =>
      refine ⟨fun isSome => ?_, fun misses => not_oneRead_useBuffer (gone misses) bufId⟩
      obtain ⟨conn, isConn, carried⟩ := known isSome
      exact completes.inOrder.useBuffer isConn carried bufId
  | message bufId arrival =>
      refine ⟨fun isSome => ?_, fun misses => ?_⟩
      · obtain ⟨conn, isConn, carried⟩ := known isSome
        have used := completes.inOrder.useBuffer isConn carried bufId
        have usedConn : (rest.useBuffer read bufId).connections read.fd = some conn := isConn
        have same := @SameReads.receive _ _ _ round.sendSqe server cassUuidFromString usedConn
          arrival
        have received := used.congr same
        simp only [Worker.readCompleted, usedConn]
        split
        · exact received
        · next last =>
            rw [Bool.or_eq_true, not_or, Bool.not_eq_true] at last
            refine received.rearm fun _ => ?_
            rw [Worker.Quiet, same.reads]
            exact completes.quiet.mpr last.1
      · have usedGone : (rest.useBuffer read bufId).connections read.fd = none := gone misses
        simp only [Worker.readCompleted, usedGone]
        exact not_oneRead_useBuffer (gone misses) bufId

/-- **An accepted connection** asks that no read is left on its descriptor. -/
theorem InOrder.entered (holds : InOrder worker) (fd : Nat) (type : ConnectionType) (ip : UInt32)
    (memory : List UInt8) (sqe : Bool) :
    Decides (∀ read ∈ worker.reads, read.fd = fd → sqe = false ∧ read.group = 1)
      ((worker.put fd (.entered type ip memory)).rearm sqe fd) := by
  obtain ⟨conn, isConn⟩ : ∃ conn, conn = Connection.entered type ip memory := ⟨_, rfl⟩
  have group : conn.bufGroup = 1 := by rw [isConn]; rfl
  rw [← isConn]
  have others := (holds.others fd).put conn
  have arms : (worker.put fd conn).rearm sqe fd =
      (worker.put fd conn).armRead (conn.type ≠ .SYNC) sqe fd conn := by
    rw [Worker.rearm, worker.put_self]
    by_cases sync : conn.type = .SYNC
    · simp only [sync, if_true, ne_eq, not_true_eq_false, decide_false]
      rfl
    · simp only [sync, if_false, ne_eq, not_false_eq_true, decide_true]
      rfl
  rw [arms]
  cases sqe with
  | true =>
      refine ⟨fun none' => others.armRead (fun read member same => ?_) conn, fun some' => ?_⟩
      · exact Bool.noConfusion (none' read member same).1
      · refine not_oneRead_armRead (fun quiet => some' fun read member same => ?_) conn
        exact absurd same (quiet read member)
  | false =>
      refine ⟨fun first => others.inOrder fun conn' isConn' => ?_, fun other holds' => other ?_⟩
      · rw [worker.put_self] at isConn'
        obtain rfl := Option.some.inj isConn'
        exact ⟨holds.atMostOne fd, fun read member same =>
          (first read member same).2.trans group.symm⟩
      · intro read member same
        have single := holds'.single fd conn (worker.put_self conn)
        exact ⟨rfl, (single.carries read member same).trans group⟩

/-- **A completed send** asks for a quiet sync connection. -/
theorem InOrder.writeCompleted (holds : InOrder worker) (send : Send) (ok : Bool) :
    Decides
      (if ok then worker.IsSync send.fd → round.readSqe = true → worker.Quiet send.fd
        else worker.IsUdp send.fd → round.readSqe = true → worker.Quiet send.fd)
      (worker.writeCompleted round send ok) := by
  rw [Worker.writeCompleted]
  cases ok with
  | false => exact holds.failed
  | true =>
      simp only [if_true]
      split
      · next conn isConn =>
          split
          · next sync =>
              exact (holds.queue conn).of_iff (forall_prop_of_true ⟨conn, isConn, sync⟩)
          · next other =>
              refine holds.decides fun isSync => absurd ?_ other
              obtain ⟨conn', isConn', type⟩ := isSync
              obtain rfl := Option.some.inj (isConn.symm.trans isConn')
              exact type
      · next gone =>
          refine holds.decides fun isSync => ?_
          obtain ⟨conn', isConn', -⟩ := isSync
          cases gone.symm.trans isConn'

/-- What a completion of the ring asks when it is about a read. -/
theorem InOrder.readRound (holds : InOrder worker) (index : Nat) (received : Received)
    (more sendSqe readSqe : Bool) :
    Decides
      (∀ read, worker.reads[index]? = some read →
        match received with
        | .failed => worker.IsUdp read.fd → readSqe = true → (more && read.multishot) = false
        | _ => (worker.connections read.fd).isSome)
      (worker.handleEvent server cassUuidFromString
        ⟨.read index received more, sendSqe, readSqe⟩) := by
  rw [Worker.handleEvent]
  simp only
  cases armed : worker.reads[index]? with
  | none => exact holds.decides fun read impossible => nomatch impossible
  | some read =>
      simp only
      have completes := holds.completes armed (more && read.multishot)
      have decides := @Completes.decides server cassUuidFromString _
        ⟨.read index received more, sendSqe, readSqe⟩ _ _ _ completes received
      refine decides.of_iff ?_
      constructor
      · exact fun meets => meets read rfl
      · rintro meets _ ⟨⟩
        exact meets

/-- What a completion of the ring asks when it is about a send. -/
theorem InOrder.writtenRound (holds : InOrder worker) (index : Nat) (ok sendSqe readSqe : Bool) :
    Decides
      (∀ send, worker.sends[index]? = some send → send.completed = false →
        (ok = true → send.transmitted.isSome) →
          if ok then worker.IsSync send.fd → readSqe = true → worker.Quiet send.fd
          else worker.IsUdp send.fd → readSqe = true → worker.Quiet send.fd)
      (worker.handleEvent server cassUuidFromString ⟨.written index ok, sendSqe, readSqe⟩) := by
  rw [Worker.handleEvent]
  simp only
  cases isSend : worker.sends[index]? with
  | none => exact holds.decides fun send impossible => nomatch impossible
  | some send =>
      simp only
      refine Decides.of_iff ?_ (forall_found_iff rfl)
      have still : (send.completed || (ok && send.transmitted.isNone)) = false ↔
          send.completed = false ∧ (ok = true → send.transmitted.isSome) := by
        cases ok <;> simp [Option.isSome_iff_ne_none]
      by_cases finished : (send.completed || (ok && send.transmitted.isNone)) = true
      case pos =>
        rw [if_pos finished]
        refine holds.decides fun pending performed => ?_
        rw [still.mpr ⟨pending, performed⟩] at finished
        cases finished
      rw [if_neg finished]
      have pending := still.mp (Bool.not_eq_true _ ▸ finished)
      have same : InOrder
          { worker with sends := worker.sends.set index { send with completed := true } } :=
        holds.congr ⟨rfl, rfl, fun _ => rfl⟩
      have completes := @InOrder.writeCompleted _ ⟨.written index ok, sendSqe, readSqe⟩ same send ok
      exact completes.of_iff ⟨fun meets => meets pending.1 pending.2, fun meets _ _ => meets⟩

/-- **A round is in order exactly when it is in turn.** -/
theorem InOrder.step (holds : InOrder worker) :
    Decides (InTurn worker round) (worker.step server cassUuidFromString round) := by
  by_cases running : worker.running = true
  case neg =>
    rw [Worker.step, if_neg running]
    exact holds.decides fun runs => absurd runs running
  rw [Worker.step, if_pos running]
  obtain ⟨event, sendSqe, readSqe⟩ := round
  rw [Worker.handleEvent]
  cases event with
  | accepted index clientFd ip memory more =>
      refine Decides.of_iff ?_ (forall_prop_of_true running)
      simp only
      split
      · next listening isListening vacant =>
          have same : InOrder
              { worker with
                accepts := if more then worker.accepts else worker.accepts.eraseIdx index } :=
            holds.congr ⟨rfl, rfl, fun _ => rfl⟩
          have found : (worker.accepts[index]?).isSome := by rw [isListening]; rfl
          exact (same.entered clientFd _ ip memory readSqe).of_iff
            ⟨fun meets => meets found vacant, fun meets _ _ => meets⟩
      · next refused =>
          refine holds.decides fun isSome vacant => ?_
          obtain ⟨listening, isListening⟩ := Option.isSome_iff_exists.mp isSome
          exact (refused listening isListening vacant).elim
  | acceptFailed index =>
      refine Decides.of_iff ?_ (forall_prop_of_true running)
      simp only
      split
      · next listening isListening =>
          have same : InOrder { worker with accepts := worker.accepts.eraseIdx index } :=
            holds.congr ⟨rfl, rfl, fun _ => rfl⟩
          have queued : ∀ after : Worker,
              SameReads after (after.queueMultishotAccept sendSqe listening) := by
            intro after
            rw [Worker.queueMultishotAccept]
            split <;> exact ⟨rfl, rfl, fun _ => rfl⟩
          exact (same.failed.congr (queued _)).of_iff (forall_found_iff isListening)
      · next gone => exact holds.decides fun fd isFd => nomatch gone.symm.trans isFd
  | read index received more =>
      have decides := @InOrder.readRound server cassUuidFromString _ holds index received more
        sendSqe readSqe
      cases received with
      | failed => exact decides.of_iff (forall_prop_of_true running)
      | invalid bufId => exact decides.of_iff (forall_prop_of_true running)
      | message bufId arrival => exact decides.of_iff (forall_prop_of_true running)
  | written index ok =>
      have decides := @InOrder.writtenRound server cassUuidFromString _ holds index ok sendSqe
        readSqe
      refine decides.of_iff ((forall_prop_of_true running).trans ?_)
      cases ok <;> simp
  | transmit index freed =>
      refine InOrder.decides ?_ fun _ => trivial
      simp only
      split
      · split
        · exact holds
        · exact holds.congr ⟨rfl, rfl, fun _ => rfl⟩
      · exact holds
  | contextSent index =>
      refine InOrder.decides ?_ fun _ => trivial
      exact holds.congr ⟨rfl, rfl, fun _ => rfl⟩
  | elsewhere caches recordQueue entryQueue database =>
      refine InOrder.decides ?_ fun _ => trivial
      exact holds.congr ⟨rfl, rfl, fun _ => rfl⟩

end Steps

/-! ## The runs -/

/-- The worker enters its loop in order. -/
theorem inOrder_start (world : World) (udpFd tcpFd syncFd : Nat) (memory : List UInt8) :
    InOrder (Worker.start world udpFd tcpFd syncFd memory) := by
  refine OthersInOrder.armRead ⟨?_, ?_, ?_⟩ ?_ _
  · exact fun other conn _ _ => Idle.single (fun _ member => absurd member List.not_mem_nil) _
  · exact fun _ member => absurd member List.not_mem_nil
  · exact fun other => Nat.zero_le 1
  · exact fun _ member => absurd member List.not_mem_nil

/-- **One read at a time.** A run keeps at most one armed read for a connection, and
returns every buffer to its group, exactly when each of its rounds is in
turn. -/
theorem oneRead_iff_inTurn (server : Server) (cassUuidFromString : List UInt8 → Option CassUuid)
    (world : World) (udpFd tcpFd syncFd : Nat) (memory : List UInt8) (rounds : List Round) :
    Run.Throughout (fun worker => Worker.step worker server cassUuidFromString) OneRead
        (Worker.start world udpFd tcpFd syncFd memory) rounds ↔
      Run.Along (fun worker => Worker.step worker server cassUuidFromString) InTurn
        (Worker.start world udpFd tcpFd syncFd memory) rounds :=
  @Run.throughout_iff_along _ _ _ InOrder OneRead InTurn (fun _ => True)
    (fun _ holds => holds.oneRead)
    (fun _ _ _ holds inTurn => holds.step.keeps inTurn)
    (fun _ _ _ holds outOfTurn => holds.step.breaks outOfTurn)
    _ _ (inOrder_start world udpFd tcpFd syncFd memory) (fun _ _ => trivial)

/-- A sync client is accepted, its request is answered, and it is read again when
the response has been sent. Then the read that was armed with the request
completes. -/
def syncRounds : List Round :=
  [⟨.accepted 1 9 0 [] true, true, true⟩, ⟨.read 1 (.message 7 (.plain [])) false, true, true⟩,
    ⟨.transmit 0 [], true, true⟩, ⟨.written 0 true, true, true⟩,
    ⟨.read 1 (.message 7 (.plain [])) false, true, true⟩]

theorem syncRounds_buffers :
    (Run.exec (fun worker => Worker.step worker plainServer fun _ => none)
      (Worker.start (World.start emptyDatabase) 3 4 5 []) syncRounds).buffers =
        [⟨2, 7, some 2⟩, ⟨3, 7, some 4⟩] := by
  decide +kernel

/-- The second request comes in a buffer of group 3 that is looked up in group
4. -/
theorem syncRounds_overlap :
    ¬ Run.Throughout (fun worker => Worker.step worker plainServer fun _ => none) OneRead
      (Worker.start (World.start emptyDatabase) 3 4 5 []) syncRounds := by
  intro always
  have returned := always.last.returned ⟨3, 7, some 4⟩ (by
    rw [syncRounds_buffers]
    exact List.mem_cons_of_mem _ (List.mem_singleton.mpr rfl))
  exact absurd returned (by decide)

end EdgeDNS.Core
