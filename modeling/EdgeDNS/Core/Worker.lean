import EdgeDNS.Core.SyncEntries
import EdgeDNS.Core.System

/-!
# The worker loop

The model of the loop of `Core::worker` with `Pipeline` and the groups of
`BufferPool`. The worker takes completions from the ring, looks the connection
up by the descriptor in the user data, handles what was received, and queues
sends and further reads.

The kernel is the environment. It finishes the operations that are armed in any
order, and it reads the buffer of a send at some moment between its submission
and its completion (`transmit`). An operation counts as armed until the worker
has seen its last completion. Where the environment does what it cannot do (it
finishes what is not armed, or accepts a connection under a descriptor that is
in use), the step leaves the worker as it is.

A send points into its connection. When the connection is erased, the send is
left behind with freed memory. The address text of a connection points into a
frame that is gone by the time it is read, so it comes with what arrives.

Three logs record what the results about the loop speak of: the buffers that
completed reads have used, the sends in the order in which they were queued, and
the responses in the order in which `handle` produced them over TCP.
-/

set_option autoImplicit false

namespace EdgeDNS.Core

open Utils

/-! ## Connections and operations -/

/-- What is spoken over a connection. -/
inductive ConnectionType
  | UDP
  | TCP
  | SYNC
deriving DecidableEq, Repr

/-- `Gen::Connection` under its descriptor, with the fields that the loop uses. -/
structure Connection where
  type : ConnectionType
  ip : UInt32
  len : Nat
  writeBuffer : List UInt8
  bufGroup : Nat
deriving DecidableEq, Repr

/-- A connection as it is entered. Its write buffer is not initialised. -/
def Connection.entered (type : ConnectionType) (ip : UInt32) (memory : List UInt8) : Connection :=
  ⟨type, ip, 0, memory, 1⟩

/-- Write a response to the front of the write buffer. -/
def Connection.fill (conn : Connection) (response : List UInt8) : Connection :=
  { conn with
    len := response.length
    writeBuffer := response ++ conn.writeBuffer.drop response.length }

/-- A read in the ring. A multishot read completes more than once. -/
structure ArmedRead where
  fd : Nat
  group : Nat
  multishot : Bool
deriving DecidableEq, Repr

/-- A send over TCP from the buffer of a connection. The length is fixed when it is
queued, the bytes are those that the kernel finds. -/
structure Send where
  fd : Nat
  type : ConnectionType
  len : Nat
  transmitted : Option (List UInt8)
  completed : Bool
  detached : Bool
deriving DecidableEq, Repr

/-- `Gen::Context`: a datagram with a buffer of its own. -/
structure Context where
  fd : Nat
  peerIp : UInt32
  out : List UInt8
deriving DecidableEq, Repr

/-- The buffer of a completed read: the group it was taken from, and the group in
which it was looked up and to which it was released. -/
structure BufferUse where
  taken : Nat
  bufId : Nat
  groupId : Option Nat
deriving DecidableEq, Repr

/-- A response over TCP as `handle` produced it. -/
structure Produced where
  fd : Nat
  out : List UInt8
deriving DecidableEq, Repr

/-- What a read brings, and what else there is when it is handled: the clock, the
memory behind local variables and the text of the address. -/
structure Arrival where
  payload : List UInt8
  peerIp : UInt32
  ipStr : List UInt8
  now : UInt32
  behindName : List UInt8
  behindZone : List UInt8
  staleGroupId : CassUuid
  staleId : CassUuid
deriving DecidableEq, Repr

/-- A payload from a client whose address is not looked at. -/
def Arrival.plain (payload : List UInt8) : Arrival where
  payload := payload
  peerIp := 0
  ipStr := []
  now := 0
  behindName := []
  behindZone := []
  staleGroupId := ⟨0, 0⟩
  staleId := ⟨0, 0⟩

/-- What arrives, as a query over one of the transports. -/
def Arrival.request (arrival : Arrival) (isTcp : Bool) (ip : UInt32) : Request where
  payload := arrival.payload
  isTcp := isTcp
  ip := ip
  ipStr := arrival.ipStr
  now := arrival.now
  behindName := arrival.behindName
  behindZone := arrival.behindZone

/-- What arrives, as a sync request. -/
def Arrival.syncRequest (arrival : Arrival) : SyncRequest :=
  ⟨arrival.payload, arrival.staleGroupId, arrival.staleId⟩

/-- The result of a read: an error, a buffer that is not valid, or a message. -/
inductive Received
  | failed
  | invalid (bufId : Nat)
  | message (bufId : Nat) (arrival : Arrival)
deriving DecidableEq, Repr

/-- The state of a worker and of its ring. -/
structure Worker where
  running : Bool
  world : World
  udpFd : Nat
  tcpFd : Nat
  connections : Nat → Option Connection
  rrCounter : Nat
  accepts : List Nat
  reads : List ArmedRead
  sends : List Send
  contexts : List Context
  buffers : List BufferUse
  produced : List Produced

/-- What the ring brings, what the kernel does with a send, and what the rest of
the program does to the state that the workers share. -/
inductive RingEvent
  | accepted (index clientFd : Nat) (ip : UInt32) (memory : List UInt8) (more : Bool)
  | acceptFailed (index : Nat)
  | read (index : Nat) (received : Received) (more : Bool)
  | transmit (index : Nat) (freed : List UInt8)
  | written (index : Nat) (ok : Bool)
  | contextSent (index : Nat)
  | elsewhere (caches : Caches) (recordQueue : List Operational.Record)
      (entryQueue : List Operational.Entry) (database : Database)

/-- An event, and whether `getSqe` finds an entry for a send or an accept and for a
read while the worker handles it. -/
structure Round where
  event : RingEvent
  sendSqe : Bool
  readSqe : Bool

/-- The number of groups that `setup` makes. -/
def groupCount : Nat := 1024 * 1024 / 32768

/-- The next group in turn. -/
def pickGroup (rrCounter : Nat) : Nat := 1 + rrCounter % groupCount

/-- The response of a world to a query. -/
def World.response (server : Server) (world : World) (request : Request) : List UInt8 :=
  match world.respond server request with
  | .ok handled => handled.out
  | .error _ => []

namespace Worker

section Moves

variable (worker : Worker)

/-! ## The pipeline -/

/-- Enter a connection under its descriptor. -/
def put (fd : Nat) (conn : Connection) : Worker :=
  { worker with connections := Function.update worker.connections fd (some conn) }

/-- Arm a read with the next group in turn, when the ring has an entry for it. -/
def armRead (multishot : Bool) (sqe : Bool) (fd : Nat) (conn : Connection) : Worker :=
  if sqe then
    let group := pickGroup worker.rrCounter
    { worker.put fd { conn with bufGroup := group } with
      rrCounter := worker.rrCounter + 1
      reads := worker.reads ++ [⟨fd, group, multishot⟩] }
  else worker

/-- `Pipeline::queueRead`: a read that completes again and again. -/
def queueRead (sqe : Bool) (fd : Nat) (conn : Connection) : Worker :=
  worker.armRead true sqe fd conn

/-- `Pipeline::queueReadForSync`: a read that completes once. -/
def queueReadForSync (sqe : Bool) (fd : Nat) (conn : Connection) : Worker :=
  worker.armRead false sqe fd conn

/-- `Pipeline::queueMultishotAccept`: an accept that completes again and again. -/
def queueMultishotAccept (sqe : Bool) (fd : Nat) : Worker :=
  if sqe then { worker with accepts := worker.accepts ++ [fd] } else worker

/-- `Pipeline::queueWriteTcp`: a send from the buffer of the connection. -/
def queueWriteTcp (sqe : Bool) (fd : Nat) (conn : Connection) : Worker :=
  if sqe then
    { worker with sends := worker.sends ++ [⟨fd, conn.type, conn.len, none, false, false⟩] }
  else worker

/-- `Pipeline::queueWriteUdp`: a datagram from a buffer of its own. -/
def queueWriteUdp (sqe : Bool) (context : Context) : Worker :=
  if sqe then { worker with contexts := worker.contexts ++ [context] } else worker

/-! ## The branches of the loop -/

/-- Erase and close a connection. Its sends are left behind. -/
def erase (fd : Nat) : Worker :=
  { worker with
    connections := Function.update worker.connections fd none
    sends := worker.sends.map fun send =>
      if send.fd = fd then { send with detached := true } else send }

/-- A completion with an error, except for what it does to an accept. -/
def failed (sqe : Bool) (fd : Nat) : Worker :=
  match worker.connections fd with
  | none => worker
  | some conn =>
      if conn.type = .UDP ∧ fd = worker.udpFd then worker.queueRead sqe fd conn
      else worker.erase fd

/-- Arm the read of a connection according to its type. -/
def rearm (sqe : Bool) (fd : Nat) : Worker :=
  match worker.connections fd with
  | none => worker
  | some conn =>
      if conn.type = .SYNC then worker.queueReadForSync sqe fd conn
      else worker.queueRead sqe fd conn

/-- Look up and release the buffer of a read. -/
def useBuffer (read : ArmedRead) (bufId : Nat) : Worker :=
  { worker with
    buffers := worker.buffers ++
      [⟨read.group, bufId, (worker.connections read.fd).map Connection.bufGroup⟩] }

variable (server : Server) (cassUuidFromString : List UInt8 → Option CassUuid)

/-- An exception leaves the loop and ends the program. -/
def receiveSync (sqe : Bool) (fd : Nat) (conn : Connection) (arrival : Arrival) : Worker :=
  match serveSync cassUuidFromString arrival.syncRequest worker.world.caches with
  | .error _ => { worker with running := false }
  | .ok (response, caches) =>
      let conn := conn.fill (bytesOf response)
      let worker := { worker with world := { worker.world with caches := caches } }
      (worker.put fd conn).queueWriteTcp sqe fd conn

/-- A query over TCP. Its response takes the place of the last one in the connection. -/
def receiveTcp (sqe : Bool) (fd : Nat) (conn : Connection) (arrival : Arrival) : Worker :=
  let request := arrival.request true conn.ip
  let out := worker.world.response server request
  let conn := conn.fill out
  let worker : Worker :=
    { worker with
      world := worker.world.handleQuery server request
      produced := worker.produced ++ [⟨fd, out⟩] }
  (worker.put fd conn).queueWriteTcp sqe fd conn

/-- A query over UDP. -/
def receiveUdp (sqe : Bool) (fd : Nat) (arrival : Arrival) : Worker :=
  let request := arrival.request false arrival.peerIp
  let out := worker.world.response server request
  let worker : Worker := { worker with world := worker.world.handleQuery server request }
  worker.queueWriteUdp sqe ⟨fd, arrival.peerIp, out⟩

/-- Handle a message by the type of its connection. -/
def receive (sqe : Bool) (fd : Nat) (conn : Connection) (arrival : Arrival) : Worker :=
  match conn.type with
  | .SYNC => worker.receiveSync cassUuidFromString sqe fd conn arrival
  | .TCP => worker.receiveTcp server sqe fd conn arrival
  | .UDP => worker.receiveUdp server sqe fd arrival

/-- A read of the worker completes. One that is not followed by more is disarmed;
a buffer that is not valid is released and nothing is armed. -/
def readCompleted (round : Round) (read : ArmedRead) (received : Received) (hasMore : Bool) :
    Worker :=
  match received with
  | .failed => worker.failed round.readSqe read.fd
  | .invalid bufId => worker.useBuffer read bufId
  | .message bufId arrival =>
      let worker := worker.useBuffer read bufId
      match worker.connections read.fd with
      | none => worker
      | some conn =>
          let worker := worker.receive server cassUuidFromString round.sendSqe read.fd conn arrival
          if hasMore || !worker.running then worker else worker.rearm round.readSqe read.fd

/-- The bytes that the kernel finds for a send. -/
def bytesFor (send : Send) (freed : List UInt8) : List UInt8 :=
  match worker.connections send.fd with
  | some conn => if send.detached then freed else conn.writeBuffer.take send.len
  | none => freed

/-- A send of the worker completes. Only a sync connection is read again. -/
def writeCompleted (round : Round) (send : Send) (ok : Bool) : Worker :=
  if ok then
    match worker.connections send.fd with
    | some conn =>
        if conn.type = .SYNC then worker.queueReadForSync round.readSqe send.fd conn else worker
    | none => worker
  else worker.failed round.readSqe send.fd

/-- Enter the connection that an accept brings, and arm its read. -/
def acceptCompleted (round : Round) (listening clientFd : Nat) (ip : UInt32)
    (memory : List UInt8) : Worker :=
  let type := if listening = worker.tcpFd then ConnectionType.TCP else .SYNC
  (worker.put clientFd (.entered type ip memory)).rearm round.readSqe clientFd

/-- What an event does to a worker that runs. -/
def handleEvent (round : Round) : Worker :=
  match round.event with
  | .accepted index clientFd ip memory more =>
      match worker.accepts[index]?, worker.connections clientFd with
      | some listening, none =>
          let accepts := if more then worker.accepts else worker.accepts.eraseIdx index
          { worker with accepts := accepts }.acceptCompleted round listening clientFd ip memory
      | _, _ => worker
  | .acceptFailed index =>
      match worker.accepts[index]? with
      | some listening =>
          ({ worker with accepts := worker.accepts.eraseIdx index }.failed round.readSqe
            listening).queueMultishotAccept round.sendSqe listening
      | none => worker
  | .read index received more =>
      match worker.reads[index]? with
      | some read =>
          let hasMore := more && read.multishot
          let reads := if hasMore then worker.reads else worker.reads.eraseIdx index
          { worker with reads := reads }.readCompleted server cassUuidFromString round read received
            hasMore
      | none => worker
  | .transmit index freed =>
      match worker.sends[index]? with
      | some send =>
          if send.completed || send.transmitted.isSome then worker
          else
            let transmitted := some (worker.bytesFor send freed)
            { worker with sends := worker.sends.set index { send with transmitted := transmitted } }
      | none => worker
  | .written index ok =>
      match worker.sends[index]? with
      | some send =>
          if send.completed || (ok && send.transmitted.isNone) then worker
          else
            { worker with
              sends := worker.sends.set index { send with completed := true } }.writeCompleted
              round send ok
      | none => worker
  | .contextSent index => { worker with contexts := worker.contexts.eraseIdx index }
  | .elsewhere caches recordQueue entryQueue database =>
      { worker with
        world :=
          { worker.world with
            caches := caches, recordQueue := recordQueue, entryQueue := entryQueue
            database := database } }

/-- One step of the loop and its environment. -/
def step (round : Round) : Worker :=
  if worker.running then worker.handleEvent server cassUuidFromString round else worker

end Moves

/-- The worker when it enters its loop: the two sockets are connections, both
listening sockets are armed, and so is the read of the UDP socket. -/
def start (world : World) (udpFd tcpFd syncFd : Nat) (memory : List UInt8) : Worker :=
  let udpConn := Connection.entered .UDP 0 memory
  let opened : Worker :=
    { running := true, world := world, udpFd := udpFd, tcpFd := tcpFd
      connections := fun _ => none
      rrCounter := 0, accepts := [tcpFd, syncFd], reads := [], sends := [], contexts := []
      buffers := [], produced := [] }
  ((opened.put udpFd udpConn).put tcpFd (.entered .TCP 0 memory)).queueRead true udpFd udpConn

/-! ## The connections after a move -/

section Connections

variable (worker : Worker) {fd other : Nat} (conn : Connection)

@[simp] theorem put_self : (worker.put fd conn).connections fd = some conn :=
  Function.update_self ..

theorem put_of_ne (different : other ≠ fd) :
    (worker.put fd conn).connections other = worker.connections other :=
  Function.update_of_ne different ..

@[simp] theorem erase_self : (worker.erase fd).connections fd = none := Function.update_self ..

theorem erase_of_ne (different : other ≠ fd) :
    (worker.erase fd).connections other = worker.connections other :=
  Function.update_of_ne different ..

theorem armRead_self (multishot : Bool) :
    (worker.armRead multishot true fd conn).connections fd =
      some { conn with bufGroup := pickGroup worker.rrCounter } := Function.update_self ..

theorem armRead_of_ne (multishot : Bool) (different : other ≠ fd) :
    (worker.armRead multishot true fd conn).connections other = worker.connections other :=
  Function.update_of_ne different ..

end Connections

end Worker

end EdgeDNS.Core
