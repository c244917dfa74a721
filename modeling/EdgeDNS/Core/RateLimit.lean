import EdgeDNS.Core.Activities
import EdgeDNS.Core.DeletedRecords
import EdgeDNS.Core.Emission
import EdgeDNS.Library.Window

/-!
# The rate limit over a run

A worker counts the records that its datagrams are answered with, for every
address of a client and zone, in windows of one second. The buckets are the
counters of `Window`, with counts of 32 bits, and every matched record of a
datagram is one tick (`counters_act`). The records of a response that are let
through are the granted ticks.

So `rate_limited`: as long as the clock does not go backwards, of the records of
one client and zone in one second exactly the first `threshold` are let through,
over whatever activities of the server.
-/

set_option autoImplicit false

namespace EdgeDNS.Core

open Utils

/-! ## Buckets as counters -/

/-- The size of the count of a bucket. -/
def countSize : Nat := 2 ^ 32

/-- A bucket as a counter of a window. -/
def RRLBucket.counter (bucket : RRLBucket) : Window.Counter Nat :=
  ⟨bucket.windowStart.toNat, bucket.responses.toNat⟩

/-- The buckets as counters, one for each key. -/
def counters (rrlBuckets : RRLKey → RRLBucket) (key : RRLKey) : Window.Counter Nat :=
  (rrlBuckets key).counter

/-- The key and the second under which the records of a response are counted. -/
def limitTick (request : Request) (zoneBuf : List UInt8) : Window.Tick RRLKey Nat :=
  ⟨⟨request.ip.toUInt64, zoneId request zoneBuf, 0⟩, request.now.toNat⟩

/-- The bucket after one more response. -/
def RRLBucket.next (bucket : RRLBucket) (now : UInt32) : RRLBucket :=
  if bucket.windowStart ≠ now then ⟨now, 1⟩
  else { bucket with responses := bucket.responses + 1 }

theorem RRLBucket.next_counter (bucket : RRLBucket) (now : UInt32) :
    (bucket.next now).counter = bucket.counter.tick countSize now.toNat := by
  rw [next, Window.Counter.tick]
  by_cases same : bucket.windowStart = now
  · simp only [counter, same, ne_eq, not_true_eq_false, if_false, UInt32.toNat_add]
    rfl
  · have elsewhen : bucket.windowStart.toNat ≠ now.toNat := mt UInt32.toNat_inj.mp same
    simp only [counter, same, elsewhen, ne_eq, not_false_eq_true, if_true]
    rfl

section Responses

variable {server : Server} {request : Request} (zoneBuf : List UInt8)
  (rrlBuckets : RRLKey → RRLBucket)

/-- Counting a response is a tick, and it is over the limit when the count is. -/
theorem countResponse_eq (limits : (server.rateLimiting && !request.isTcp) = true) :
    counters (countResponse server request zoneBuf rrlBuckets).1 =
        Window.tickAll countSize (counters rrlBuckets) (limitTick request zoneBuf) ∧
      (countResponse server request zoneBuf rrlBuckets).2 =
        decide (server.threshold.toNat < (Window.tickAll countSize (counters rrlBuckets)
          (limitTick request zoneBuf) (limitTick request zoneBuf).key).count) := by
  obtain ⟨key, isKey⟩ : ∃ key, key = (limitTick request zoneBuf).key := ⟨_, rfl⟩
  have counted : countResponse server request zoneBuf rrlBuckets =
      (Function.update rrlBuckets key ((rrlBuckets key).next request.now),
        decide (server.threshold < ((rrlBuckets key).next request.now).responses)) := by
    simp only [countResponse, limitResponse, limits, if_true, rateLimit, Bool.false_or]
    rw [isKey]
    rfl
  have updated : counters (Function.update rrlBuckets key ((rrlBuckets key).next request.now)) =
      Window.tickAll countSize (counters rrlBuckets) (limitTick request zoneBuf) := by
    funext other
    rw [counters, Window.tickAll, ← isKey]
    rcases eq_or_ne other key with rfl | different
    · rw [Function.update_self, Function.update_self, RRLBucket.next_counter]
      rfl
    · rw [Function.update_of_ne different, Function.update_of_ne different]
      rfl
  rw [counted]
  refine ⟨updated, ?_⟩
  rw [← updated, ← isKey, counters, Function.update_self]
  rfl

/-- **A response lets through what the limit leaves.** -/
theorem unlimited_length (limits : (server.rateLimiting && !request.isTcp) = true)
    (records : List Records.DNSResponseData)
    (few : (counters rrlBuckets (limitTick request zoneBuf).key).within request.now.toNat +
      records.length < countSize) :
    (unlimited server request zoneBuf rrlBuckets records).length +
        min server.threshold.toNat
          ((counters rrlBuckets (limitTick request zoneBuf).key).within request.now.toNat) =
      min server.threshold.toNat
        ((counters rrlBuckets (limitTick request zoneBuf).key).within request.now.toNat +
          records.length) := by
  induction records generalizing rrlBuckets with
  | nil => simp [unlimited]
  | cons record records ih =>
      obtain ⟨ticked, exceeded⟩ := countResponse_eq zoneBuf rrlBuckets limits
      rw [List.length_cons] at few ⊢
      have atKey : Window.tickAll countSize (counters rrlBuckets) (limitTick request zoneBuf)
          (limitTick request zoneBuf).key =
          (counters rrlBuckets (limitTick request zoneBuf).key).tick countSize request.now.toNat :=
        Window.tickAll_self ..
      have room : (counters rrlBuckets (limitTick request zoneBuf).key).within
          request.now.toNat + 1 < countSize := by omega
      have counted := Window.Counter.tick_within _ room
      rw [atKey, Window.Counter.tick_count _ room] at exceeded
      have later := ih (countResponse server request zoneBuf rrlBuckets).1
        (by rw [ticked, atKey, counted]; omega)
      rw [ticked, atKey, counted] at later
      rw [unlimited, exceeded]
      by_cases exceeds : server.threshold.toNat <
          (counters rrlBuckets (limitTick request zoneBuf).key).within request.now.toNat + 1
      · simp only [exceeds, decide_true, if_true, List.length_nil]
        omega
      · simp only [exceeds, decide_false, Bool.false_eq_true, if_false, List.length_cons]
        omega

end Responses

/-! ## What a query counts -/

section Queries

variable (server : Server) (world : World)

/-- The zone of a query as the limit sees it. -/
def limitZone (query : Query) (caches : Caches) : List UInt8 :=
  getHostWire server query (cachedRecords caches query ≠ [])

/-- The ticks of an activity: one for every record that a datagram matches. -/
def counted : Activity → List (Window.Tick RRLKey Nat)
  | .query request =>
      match parseQuery (queryBuf request.payload) request.isTcp with
      | .ok query =>
          if (server.rateLimiting && !request.isTcp) ∧ query.qclass = 1 ∧ query.qdcount = 1 then
            List.replicate (matchedRecords world.database world.caches request query).length
              (limitTick request (limitZone server query world.caches))
          else []
      | .error _ => []
  | _ => []

/-- The ticks of the records whose answers the response comes to. -/
def letThrough : Activity → List (Window.Tick RRLKey Nat)
  | .query request =>
      match parseQuery (queryBuf request.payload) request.isTcp with
      | .ok query =>
          if (server.rateLimiting && !request.isTcp) ∧ query.qclass = 1 ∧ query.qdcount = 1 then
            List.replicate
              (unlimited server request (limitZone server query world.caches) world.rrlBuckets
                (matchedRecords world.database world.caches request query)).length
              (limitTick request (limitZone server query world.caches))
          else []
      | .error _ => []
  | _ => []

end Queries

section Handling

variable {server : Server} {database : Database} {caches : Caches} {request : Request}
  {query : Query}

/-- The buckets after the loop over the matched records. -/
theorem foldl_answered_rrlBuckets (limits : (server.rateLimiting && !request.isTcp) = true)
    (cacheHit : Bool) (zoneBuf : List UInt8) (records : List Records.DNSResponseData)
    (state : Answering) :
    counters (records.foldl
        (answeredRecord server database caches request query cacheHit zoneBuf) state).rrlBuckets =
      (List.replicate records.length (limitTick request zoneBuf)).foldl
        (Window.tickAll countSize) (counters state.rrlBuckets) := by
  induction records generalizing state with
  | nil => rfl
  | cons record records ih =>
      rw [List.foldl_cons, ih, answeredRecord_rrlBuckets, List.length_cons, List.replicate_succ,
        List.foldl_cons, (countResponse_eq zoneBuf state.rrlBuckets limits).1]

/-- Without rate limiting, or over TCP, the buckets stay as they are. -/
theorem foldl_answered_unlimited (off : (server.rateLimiting && !request.isTcp) = false)
    (cacheHit : Bool) (zoneBuf : List UInt8) (records : List Records.DNSResponseData)
    (state : Answering) :
    (records.foldl (answeredRecord server database caches request query cacheHit zoneBuf)
      state).rrlBuckets = state.rrlBuckets := by
  induction records generalizing state with
  | nil => rfl
  | cons record records ih =>
      rw [List.foldl_cons, ih, answeredRecord_rrlBuckets]
      simp only [countResponse, limitResponse, off, Bool.false_eq_true, if_false]

/-- The handler returns the buckets of its loops. -/
theorem rrlBuckets_of_handle {recordQueue : List Operational.Record}
    {entryQueue : List Operational.Entry} {rrlBuckets : RRLKey → RRLBucket} {handled : Handled}
    (parses : parseQuery (queryBuf request.payload) request.isTcp = .ok query)
    (runs : handle server database caches recordQueue entryQueue rrlBuckets request =
      .ok handled) :
    ∃ opened after, opened.rrlBuckets = rrlBuckets ∧
      answerRecords server database caches request query opened = .ok after ∧
      handled.rrlBuckets = after.rrlBuckets := by
  simp only [handle, parses, ok_bind] at runs
  cases opens : openResponse (queryBuf request.payload) request.isTcp query with
  | error fault =>
      rw [opens] at runs
      cases runs
  | ok out =>
      rw [opens, ok_bind] at runs
      obtain ⟨after, answered, -⟩ := answerRecords_said server database caches request query
        { out := out, truncated := false, anc := 0, recordQueue := recordQueue
          entryQueue := entryQueue, rrlBuckets := rrlBuckets }
      refine ⟨_, after, rfl, answered, ?_⟩
      rw [answered, ok_bind] at runs
      cases closes : closeMessage (responseFlags query) after with
      | error fault =>
          rw [closes] at runs
          cases runs
      | ok closed =>
          rw [closes, ok_bind] at runs
          cases frames : frameMessage request.isTcp closed.1 with
          | error fault =>
              rw [frames] at runs
              cases runs
          | ok framed =>
              rw [frames] at runs
              obtain rfl := Except.ok.inj runs
              rfl

/-- **Every matched record of a datagram is counted once.** -/
theorem counters_of_handle {recordQueue : List Operational.Record}
    {entryQueue : List Operational.Entry} {rrlBuckets : RRLKey → RRLBucket} {handled : Handled}
    (parses : parseQuery (queryBuf request.payload) request.isTcp = .ok query)
    (runs : handle server database caches recordQueue entryQueue rrlBuckets request =
      .ok handled) :
    counters handled.rrlBuckets =
      (if (server.rateLimiting && !request.isTcp) ∧ query.qclass = 1 ∧ query.qdcount = 1 then
        List.replicate (matchedRecords database caches request query).length
          (limitTick request (limitZone server query caches))
      else []).foldl (Window.tickAll countSize) (counters rrlBuckets) := by
  obtain ⟨opened, after, isOpened, answered, same⟩ := rrlBuckets_of_handle parses runs
  rw [same, ← isOpened]
  by_cases accepted : query.qclass = 1 ∧ query.qdcount = 1
  · simp only [answerRecords, accepted, and_self, if_true, answerList_eq] at answered
    obtain rfl := Except.ok.inj answered
    cases limits : server.rateLimiting && !request.isTcp with
    | true =>
        simp only [accepted, and_self, if_true]
        exact foldl_answered_rrlBuckets limits _ _ _ opened
    | false =>
        simp only [Bool.false_eq_true, false_and, if_false, List.foldl_nil]
        exact congrArg counters (foldl_answered_unlimited limits _ _ _ opened)
  · simp only [answerRecords, accepted, if_false] at answered
    obtain rfl := Except.ok.inj answered
    simp only [accepted, and_false, if_false, List.foldl_nil]

end Handling

/-! ## Runs -/

section Runs

variable {server : Server} {cassUuidFromString : List UInt8 → Option CassUuid} {world : World}

/-- An activity ticks the counters. -/
theorem counters_act {activity : Activity} (received : activity.Received) :
    counters (world.act server cassUuidFromString activity).rrlBuckets =
      (counted server world activity).foldl (Window.tickAll countSize)
        (counters world.rrlBuckets) := by
  cases activity with
  | lifeCycle => rfl
  | administer database => rfl
  | sync request =>
      have isAfter : world.act server cassUuidFromString (.sync request) =
          world.serveRequest cassUuidFromString request := rfl
      rw [isAfter, World.serveRequest]
      split <;> rfl
  | query request =>
      obtain ⟨handled, query, written, runs, parses, -⟩ := handle_responds server world.database
        world.caches world.recordQueue world.entryQueue world.rrlBuckets received
      have after : (world.act server cassUuidFromString (.query request)).rrlBuckets =
          handled.rrlBuckets := by
        simp only [World.act, World.handleQuery, World.respond, runs]
      rw [after, counters_of_handle parses runs]
      simp only [counted, parses]

/-- The seconds of the queries of a run. -/
def queryTimes (activities : List Activity) : List Nat :=
  activities.filterMap fun activity =>
    match activity with
    | .query request => some request.now.toNat
    | _ => none

theorem counted_eq_replicate (server : Server) (world : World) (activity : Activity) :
    counted server world activity = [] ∨
      ∃ request zoneBuf length, activity = .query request ∧
        counted server world activity = List.replicate length (limitTick request zoneBuf) := by
  cases activity with
  | lifeCycle => exact .inl rfl
  | sync request => exact .inl rfl
  | administer database => exact .inl rfl
  | query request =>
      cases parses : parseQuery (queryBuf request.payload) request.isTcp with
      | error fault => exact .inl (by simp only [counted, parses])
      | ok query =>
          simp only [counted, parses]
          split
          · exact .inr ⟨request, _, _, rfl, rfl⟩
          · exact .inl rfl

/-- The ticks of a run are ticks of its queries. -/
theorem now_of_emitted {activities : List Activity} {tick : Window.Tick RRLKey Nat}
    (member : tick ∈ Run.emitted (World.act server cassUuidFromString) (counted server) world
      activities) : tick.now ∈ queryTimes activities := by
  induction activities generalizing world with
  | nil => exact absurd member List.not_mem_nil
  | cons activity activities ih =>
      rcases List.mem_append.mp member with now | later
      · rcases counted_eq_replicate server world activity with none | ⟨request, _, _, rfl, some⟩
        · rw [none] at now
          exact absurd now List.not_mem_nil
        · rw [some] at now
          rw [(List.mem_replicate.mp now).2]
          exact List.mem_cons_self ..
      · have behind := ih later
        rw [queryTimes, List.filterMap_cons]
        split
        · exact behind
        · exact List.mem_cons_of_mem _ behind

/-- A clock that does not go backwards orders the ticks. -/
theorem emitted_ordered {activities : List Activity}
    (clock : (queryTimes activities).Pairwise (· ≤ ·)) :
    (Run.emitted (World.act server cassUuidFromString) (counted server) world
      activities).Pairwise fun first second => first.now ≤ second.now := by
  induction activities generalizing world with
  | nil => exact List.Pairwise.nil
  | cons activity activities ih =>
      have later : (queryTimes activities).Pairwise (· ≤ ·) := by
        rw [queryTimes, List.filterMap_cons] at clock
        split at clock
        · exact clock
        · exact (List.pairwise_cons.mp clock).2
      refine List.pairwise_append.mpr ⟨?_, ih later, fun first isFirst second isSecond => ?_⟩
      · rcases counted_eq_replicate server world activity with none | ⟨request, _, _, -, some⟩
        · rw [none]
          exact List.Pairwise.nil
        · rw [some]
          exact List.pairwise_replicate.mpr (.inr (Nat.le_refl _))
      · rcases counted_eq_replicate server world activity with none | ⟨request, _, _, rfl, some⟩
        · rw [none] at isFirst
          exact absurd isFirst List.not_mem_nil
        · rw [some] at isFirst
          rw [(List.mem_replicate.mp isFirst).2]
          exact (List.pairwise_cons.mp clock).1 _ (now_of_emitted isSecond)

/-- **The records that are let through are the granted ticks.** -/
theorem letThrough_count (activity : Activity) (tick : Window.Tick RRLKey Nat)
    (few : (counters world.rrlBuckets tick.key).within tick.now +
      (counted server world activity).count tick < countSize) :
    (letThrough server world activity).count tick =
      (Window.granted countSize server.threshold.toNat (counters world.rrlBuckets)
        (counted server world activity)).count tick := by
  have nothing : ∀ {ticks : List (Window.Tick RRLKey Nat)}, tick ∉ ticks →
      (Window.granted countSize server.threshold.toNat (counters world.rrlBuckets)
        ticks).count tick = 0 := fun outside =>
    List.count_eq_zero.mpr fun member => outside ((Window.granted_sublist ..).subset member)
  cases activity with
  | lifeCycle => rfl
  | sync request => rfl
  | administer database => rfl
  | query request =>
      cases parses : parseQuery (queryBuf request.payload) request.isTcp with
      | error fault =>
          simp only [letThrough, counted, parses]
          rfl
      | ok query =>
          simp only [letThrough, counted, parses] at few ⊢
          split
          case isFalse => rfl
          case isTrue accepted =>
            rw [if_pos accepted] at few
            generalize limitZone server query world.caches = zoneBuf at few ⊢
            generalize matchedRecords world.database world.caches request query = records
              at few ⊢
            rcases eq_or_ne tick (limitTick request zoneBuf) with rfl | different
            · rw [List.count_replicate_self] at few ⊢
              have lets := unlimited_length zoneBuf world.rrlBuckets accepted.1 records few
              have sameNow : ∀ other ∈ List.replicate records.length (limitTick request zoneBuf),
                  other = limitTick request zoneBuf :=
                fun other member => (List.mem_replicate.mp member).2
              have block := @Window.granted_eq _ _ _ _ _ countSize server.threshold.toNat
                (List.replicate records.length (limitTick request zoneBuf))
                (counters world.rrlBuckets) (limitTick request zoneBuf)
                (List.pairwise_replicate.mpr (.inr (Nat.le_refl _)))
                (fun _ other member _ => by rw [sameNow other member])
                (by rw [List.count_replicate_self]; exact few)
              rw [List.count_replicate_self] at block
              exact Nat.add_right_cancel (lets.trans block.symm)
            · have outside : ∀ length,
                  tick ∉ List.replicate length (limitTick request zoneBuf) :=
                fun length member => different (List.mem_replicate.mp member).2
              rw [nothing (outside _), List.count_eq_zero.mpr (outside _)]

theorem letThrough_run {activities : List Activity} {tick : Window.Tick RRLKey Nat}
    (received : ∀ activity ∈ activities, activity.Received)
    (few : (counters world.rrlBuckets tick.key).within tick.now +
      (Run.emitted (World.act server cassUuidFromString) (counted server) world
        activities).count tick < countSize) :
    (Run.emitted (World.act server cassUuidFromString) (letThrough server) world
        activities).count tick =
      (Window.granted countSize server.threshold.toNat (counters world.rrlBuckets)
        (Run.emitted (World.act server cassUuidFromString) (counted server) world
          activities)).count tick := by
  induction activities generalizing world with
  | nil => rfl
  | cons activity activities ih =>
      have isReceived := received activity (List.mem_cons_self ..)
      have after := @counters_act server cassUuidFromString world activity isReceived
      rw [Run.emitted, List.count_append] at few
      have first := @letThrough_count server world activity tick (by omega)
      have within := Window.within_foldl_le countSize (counters world.rrlBuckets)
        (counted server world activity) tick
      rw [← after] at within
      have rest := @ih (world.act server cassUuidFromString activity)
        (fun other member => received other (List.mem_cons_of_mem _ member)) (by omega)
      rw [Run.emitted, Run.emitted, Window.granted_append, List.count_append, List.count_append,
        first, rest, after]

/-- **The rate limit.** When the clock does not go backwards, of the records that
the datagrams of one client ask for in one zone and one second exactly as many
are let through as the limit allows. -/
theorem rate_limited (server : Server) (cassUuidFromString : List UInt8 → Option CassUuid)
    (database : Database) (activities : List Activity)
    (received : ∀ activity ∈ activities, activity.Received)
    (clock : (queryTimes activities).Pairwise (· ≤ ·)) (tick : Window.Tick RRLKey Nat)
    (few : (Run.emitted (World.act server cassUuidFromString) (counted server)
      (World.start database) activities).count tick < countSize) :
    (Run.emitted (World.act server cassUuidFromString) (letThrough server) (World.start database)
        activities).count tick =
      min server.threshold.toNat
        ((Run.emitted (World.act server cassUuidFromString) (counted server)
          (World.start database) activities).count tick) := by
  have nothing : (counters (World.start database).rrlBuckets tick.key).within tick.now = 0 := by
    rw [Window.Counter.within]
    split <;> rfl
  have startsAtZero : (counters (World.start database).rrlBuckets tick.key).start = 0 := rfl
  have lets := @letThrough_run server cassUuidFromString (World.start database) activities tick
    received (by rwa [nothing, Nat.zero_add])
  have law := @Window.granted_eq _ _ _ _ _ countSize server.threshold.toNat
    (Run.emitted (World.act server cassUuidFromString) (counted server) (World.start database)
      activities) (counters (World.start database).rrlBuckets) tick (emitted_ordered clock)
    (fun atZero other _ _ => by rw [← atZero, startsAtZero]; exact Nat.zero_le _)
    (by rwa [nothing, Nat.zero_add])
  rw [nothing, Nat.zero_add, Nat.min_zero, Nat.add_zero] at law
  exact lets.trans law

end Runs

/-- A server that lets one record through in a second. -/
def strictServer : Server := { plainServer with rateLimiting := true, threshold := 1 }

/-- The window of the text query. -/
def textTick : Window.Tick RRLKey Nat := limitTick textQuery [1, 97, 0]

/-- Two queries for a text in one second. -/
theorem rate_limited_two_queries :
    (Run.emitted (World.act strictServer readsOne) (letThrough strictServer) (World.start oneText)
        [.query textQuery, .query textQuery]).count textTick =
      min strictServer.threshold.toNat
        ((Run.emitted (World.act strictServer readsOne) (counted strictServer)
          (World.start oneText) [.query textQuery, .query textQuery]).count textTick) := by
  have short : textQuery.payload.length ≤ receiveSize := by decide
  refine rate_limited strictServer readsOne oneText [.query textQuery, .query textQuery] ?_
    (by decide) textTick ?_
  · simp only [List.mem_cons, List.not_mem_nil, or_false, or_self, forall_eq]
    exact short
  · rw [World.start, Records.Mmap.fresh_eq_freshTable]
    decide +kernel

end EdgeDNS.Core
