import EdgeDNS.Core.Attended
import EdgeDNS.Core.RDataForm

/-!
# Requests that end the program

The numbers of an SOA are read by `std::stoul`, which throws where a token is no number
or is too large. Nothing between there and the thread of the worker catches what it
throws, so the program ends.

`generateRData_throws_iff` says for which texts this happens, `serveSync_throws_iff` for
which requests: it depends on nothing but the request. So a round ends the worker exactly
when it takes a request of this kind from a sync connection (`step_running_iff`), whatever
else the worker receives and whatever the caches hold.
-/

set_option autoImplicit false

namespace EdgeDNS.Core

open Utils RData

/-! ## Texts -/

/-- A number that fits 64 bits stands at the front of the text, behind blanks and a
sign. -/
def ReadsUnsigned (text : List UInt8) : Prop :=
  ∃ blanks sign digits rest, NumberParts text blanks sign digits rest ∧
    digitsValue digits < 2 ^ 64

/-- A token of the text behind the first two is no such number. -/
def HasBadNumber (value : List UInt8) : Prop :=
  ∃ token ∈ (splitBySpace value).drop 2, ¬ ReadsUnsigned token

theorem stoul_reads_iff (text : List UInt8) :
    (∃ value, stoul text = .ok value) ↔ ReadsUnsigned text := by
  constructor
  · rintro ⟨value, isRead⟩
    rw [stoul] at isRead
    cases given : signedDigits text with
    | none =>
        rw [given] at isRead
        cases isRead
    | some number =>
        have present := Option.isSome_of_eq_some given
        obtain ⟨blanks, sign, digits, rest, parts⟩ := exists_numberParts present
        rw [parts.signedDigits] at isRead
        dsimp only at isRead
        split at isRead
        · next small => exact ⟨blanks, sign, digits, rest, parts, small⟩
        · cases isRead
  · rintro ⟨blanks, sign, digits, rest, parts, small⟩
    rw [stoul, parts.signedDigits]
    exact ⟨_, if_pos small⟩

theorem numbers_read_iff (tokens : List (List UInt8)) :
    (∃ numbers, tokens.mapM stoul = .ok numbers) ↔ ∀ token ∈ tokens, ReadsUnsigned token := by
  induction tokens with
  | nil => exact ⟨fun _ token member => (List.not_mem_nil member).elim, fun _ => ⟨[], rfl⟩⟩
  | cons token tokens ih =>
      rw [List.forall_mem_cons, ← ih, ← stoul_reads_iff, List.mapM_cons]
      cases stoul token with
      | error failure => simp [bind, Except.bind]
      | ok number =>
          cases tokens.mapM stoul with
          | error failure => simp [bind, Except.bind]
          | ok numbers => simp [bind, Except.bind, pure, Except.pure]

/-- A computation throws exactly when it has no result. -/
theorem throws_iff {α : Type} {result : Except StdException α} :
    (∃ failure, result = .error failure) ↔ ¬ ∃ value, result = .ok value := by
  cases result with
  | error failure => simp
  | ok value => simp

/-- **When the data of a record throws.** -/
theorem generateRData_throws_iff (data : List UInt8) (type : Int) :
    (∃ failure, generateRData data type = .error failure) ↔ type = 6 ∧ HasBadNumber data := by
  by_cases isSoa : type = 6
  · subst isSoa
    have soa := generateRData_soa data
    have code : Dns.RecordType.soa.code = 6 := rfl
    rw [code] at soa
    have numbers := numbers_read_iff ((splitBySpace data).drop 2)
    rw [soa, throws_iff, HasBadNumber]
    have mapped : (∃ wire, (soaNumbers (splitBySpace data)).map (fun numbers =>
        (nameChunks (splitBySpace data)).flatMap Dns.encodeLabel ++ numberBytes numbers) =
          .ok wire) ↔ ∃ values, soaNumbers (splitBySpace data) = .ok values := by
      cases soaNumbers (splitBySpace data) <;> simp [Except.map]
    rw [mapped, soaNumbers, numbers]
    push Not
    simp
  · rw [generateRData, if_neg isSoa]
    refine ⟨?_, fun bad => absurd bad.1 isSoa⟩
    rintro ⟨failure, fails⟩
    split at fails
    · cases fails
    · split at fails
      · cases fails
      · cases fails

/-! ## Requests -/

section Requests

variable {request : SyncRequest} {recordsMap : Records.Mmap} {params : RecordParams}
  {groupId id : CassUuid}

/-- The value that an add or an update reads makes it throw. -/
def SyncRequest.ThrowsWith (request : SyncRequest) (params : RecordParams) : Prop :=
  isSet params.isGeoStr = false ∧ atoi params.type = 6 ∧
    ∃ value, request.param "value" 4096 = some value ∧ HasBadNumber value

/-- An operation that goes on with the data of the value throws with it. -/
theorem throws_with_value {next : List UInt8 → String × Records.Mmap} (value : List UInt8) :
    (∃ failure, (generateRData value (atoi params.type) >>= fun rdata => pure (next rdata)) =
        .error failure) ↔ atoi params.type = 6 ∧ HasBadNumber value := by
  rw [← generateRData_throws_iff]
  cases generateRData value (atoi params.type) with
  | error failure => simp [bind, Except.bind]
  | ok rdata => simp [bind, Except.bind, pure, Except.pure]

theorem addRecord_throws_iff :
    (∃ failure, addRecord request recordsMap params groupId id = .error failure) ↔
      request.ThrowsWith params := by
  rw [addRecord, SyncRequest.ThrowsWith]
  cases isSet params.isGeoStr with
  | true => simp
  | false =>
      simp only [Bool.false_eq_true, if_false, true_and]
      cases request.param "value" 4096 with
      | none => simp
      | some value => exact (throws_with_value value).trans (by simp)

theorem updateRecord_throws_iff :
    (∃ failure, updateRecord request recordsMap params groupId id = .error failure) ↔
      request.ThrowsWith params := by
  rw [updateRecord, SyncRequest.ThrowsWith]
  cases isSet params.isGeoStr with
  | true => simp
  | false =>
      simp only [Bool.false_eq_true, if_false, true_and]
      cases request.param "value" 4096 with
      | none => simp
      | some value => exact (throws_with_value value).trans (by simp)

theorem recordOperation_throws_iff {cassUuidFromString : List UInt8 → Option CassUuid}
    {op : UInt8} :
    (∃ failure, recordOperation cassUuidFromString request recordsMap op = .error failure) ↔
      (op = 49 ∨ op = 50) ∧
        ∃ params, request.recordParams = some params ∧ request.ThrowsWith params := by
  rw [recordOperation]
  cases request.recordParams with
  | none =>
      simp only [reduceCtorEq, false_and, exists_false, and_false, iff_false]
      rintro ⟨failure, fails⟩
      split at fails
      · cases fails
      · split at fails
        · cases fails
        · cases fails
  | some params =>
      simp only [Option.some.injEq, exists_eq_left']
      by_cases isAdd : op = 49
      · simp only [isAdd, if_true, true_or, true_and]
        exact addRecord_throws_iff
      · by_cases isUpdate : op = 50
        · simp only [isUpdate, if_true, or_true, true_and]
          exact updateRecord_throws_iff
        · simp [isAdd, isUpdate]

end Requests

/-- A complete add or update of a record that is no geo record and is an SOA, with a value
that has a bad number. -/
def SyncRequest.Poisons (request : SyncRequest) : Prop :=
  (request.operation = .recordOperation 49 ∨ request.operation = .recordOperation 50) ∧
    ∃ params, request.recordParams = some params ∧ request.ThrowsWith params

/-- **Which requests end the program.** The caches and the reading of ids do not matter. -/
theorem serveSync_throws_iff (cassUuidFromString : List UInt8 → Option CassUuid)
    (request : SyncRequest) (caches : Caches) :
    (∃ failure, serveSync cassUuidFromString request caches = .error failure) ↔
      request.Poisons := by
  rw [serveSync, SyncRequest.Poisons]
  cases request.operation with
  | recordOperation op =>
      have throws := @recordOperation_throws_iff request caches.recordsMap cassUuidFromString op
      simp only [SyncOperation.recordOperation.injEq]
      rw [← throws]
      cases recordOperation cassUuidFromString request caches.recordsMap op with
      | error failure => simp [Except.map]
      | ok served => simp [Except.map]
  | entryOperation op => simp
  | refused => simp

/-- A word in place of the first number of an SOA. -/
example : (plainRequest (bytesOf "type=0-1&zone=b&rec_type=6&ttl=60&priority=0&name=a&db_id=" ++
    textOfOne ++ bytesOf "&group_id=" ++ textOfOne ++
    bytesOf "&is_geo=0&is_proxy=0&value=a b abc")).Poisons := by
  have bad : HasBadNumber (bytesOf "a b abc") :=
    ((generateRData_throws_iff _ 6).mp ⟨.invalidArgument, by decide +kernel⟩).2
  exact ⟨.inl (by decide +kernel), ⟨bytesOf "b", bytesOf "6", bytesOf "60", bytesOf "0",
    bytesOf "a", textOfOne, textOfOne, bytesOf "0", bytesOf "0"⟩, by decide +kernel,
    by decide +kernel, by decide +kernel, bytesOf "a b abc", by decide +kernel, bad⟩

/-! ## Rounds -/

/-- A round of the worker that takes such a request from a sync connection. -/
def Worker.Poisoned (worker : Worker) (round : Round) : Prop :=
  match round.event with
  | .read index (.message _ arrival) _ =>
      ∃ read, worker.reads[index]? = some read ∧ worker.IsSync read.fd ∧
        arrival.syncRequest.Poisons
  | _ => False

section Rounds

variable {server : Server} {cassUuidFromString : List UInt8 → Option CassUuid} {worker : Worker}
  {round : Round} {fd : Nat} {conn : Connection} {sqe multishot : Bool}

@[simp] theorem armRead_running :
    (worker.armRead multishot sqe fd conn).running = worker.running := by
  cases sqe <;> rfl

@[simp] theorem rearm_running : (worker.rearm sqe fd).running = worker.running := by
  rw [Worker.rearm]
  split
  · rfl
  · split
    · exact armRead_running
    · exact armRead_running

@[simp] theorem failed_running : (worker.failed sqe fd).running = worker.running := by
  rw [Worker.failed]
  split
  · rfl
  · split
    · exact armRead_running
    · rfl

theorem isFatal_iff_poisons {arrival : Arrival} :
    worker.IsFatal cassUuidFromString fd arrival ↔
      worker.IsSync fd ∧ arrival.syncRequest.Poisons := by
  rw [Worker.IsFatal, serveSync_throws_iff]

/-- A message stops the worker exactly when it is such a request. -/
theorem message_running_iff (running : worker.running = true) (read : ArmedRead) (bufId : Nat)
    (arrival : Arrival) (hasMore : Bool) :
    (worker.readCompleted server cassUuidFromString round read (.message bufId arrival)
        hasMore).running = true ↔ ¬ worker.IsFatal cassUuidFromString read.fd arrival := by
  have sameFatal : (worker.useBuffer read bufId).IsFatal cassUuidFromString read.fd arrival ↔
      worker.IsFatal cassUuidFromString read.fd arrival := Iff.rfl
  rw [← sameFatal, Worker.readCompleted]
  have usedRuns : (worker.useBuffer read bufId).running = true := running
  generalize worker.useBuffer read bufId = used at usedRuns ⊢
  cases found : used.connections read.fd with
  | none =>
      refine iff_of_true (by simpa using usedRuns) ?_
      rintro ⟨⟨conn, isConn, -⟩, -⟩
      cases found.symm.trans isConn
  | some conn =>
      dsimp only
      rcases @readsMore_receive used read.fd conn round.sendSqe server cassUuidFromString found
          arrival with ⟨fatal, stopped⟩ | ⟨notFatal, moves⟩
      · simp [stopped, fatal]
      · have stillRuns := moves.running.trans usedRuns
        refine iff_of_true ?_ notFatal
        split
        · exact stillRuns
        · exact rearm_running.trans stillRuns

theorem writeCompleted_running (send : Send) (ok : Bool) :
    (worker.writeCompleted round send ok).running = worker.running := by
  rw [Worker.writeCompleted]
  split
  · split
    · split
      · exact armRead_running
      · rfl
    · rfl
  · exact failed_running

/-- **A round keeps a worker running exactly when it is not poisoned.** -/
theorem step_running_iff (running : worker.running = true) :
    (worker.step server cassUuidFromString round).running = true ↔ ¬ worker.Poisoned round := by
  rw [Worker.step, if_pos running, Worker.Poisoned]
  obtain ⟨event, sendSqe, readSqe⟩ := round
  cases event with
  | accepted index clientFd ip memory more =>
      refine iff_of_true ?_ not_false
      simp only [Worker.handleEvent]
      split
      · exact rearm_running.trans running
      · exact running
  | acceptFailed index =>
      refine iff_of_true ?_ not_false
      simp only [Worker.handleEvent, Worker.queueMultishotAccept]
      split
      · split
        · exact failed_running.trans running
        · exact failed_running.trans running
      · exact running
  | read index received more =>
      simp only [Worker.handleEvent]
      cases isRead : worker.reads[index]? with
      | none => cases received <;> simp [running, isRead]
      | some read =>
          dsimp only
          cases received with
          | failed => simpa [Worker.readCompleted] using running
          | invalid bufId => simpa [Worker.readCompleted, Worker.useBuffer] using running
          | message bufId arrival =>
              simp only [isRead, Option.some.injEq, exists_eq_left', ← @isFatal_iff_poisons
                cassUuidFromString worker]
              refine (message_running_iff ?_ read bufId arrival _).trans Iff.rfl
              exact running
  | written index ok =>
      refine iff_of_true ?_ not_false
      simp only [Worker.handleEvent]
      split
      · split
        · exact running
        · exact (writeCompleted_running _ _).trans running
      · exact running
  | transmit index freed =>
      refine iff_of_true ?_ not_false
      simp only [Worker.handleEvent]
      split
      · split
        · exact running
        · exact running
      · exact running
  | contextSent index => exact iff_of_true running not_false
  | elsewhere caches recordQueue entryQueue database => exact iff_of_true running not_false

end Rounds

end EdgeDNS.Core
