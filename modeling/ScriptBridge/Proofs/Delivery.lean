import Mathlib.Data.List.Perm.Basic
import ScriptBridge.Proofs.Sessions

/-!
# Queries are run and reported once, in order

A query goes through five places. It waits in the mailbox, it is with the worker, the driver has
run it, its result waits in one of two queues, and at last it is delivered. The two sides move
queries on at any time, so no side alone knows where they all are.

**Where the queries are.** The queries that were accepted are those that the driver has run, then
the one that the worker holds, then those that wait, in this order. A new query is put at the end
of the list and at the end of the queue, and everything the worker does moves a query over one of
the two borders.

**Where the results are.** On each of the two streams, what was delivered and then what still waits
are the results that the driver's answers stand for, in the order of the calls. A query of the
drain stands for none. So each stream has its numbers in order, because it is a part of the calls,
and the two together have every number that is to be reported once.
-/

namespace ScriptBridge

/-! ## Queries and results of calls -/

namespace DriverCall

/-- The query that a call runs. -/
def query? : DriverCall → Option QueryRequest
  | .query request _ _ => some request
  | _ => none

/-- The query that a call runs, if its answer is to be reported. -/
def reported? : DriverCall → Option QueryRequest
  | .query request false _ => some request
  | _ => none

/-- The success that a call stands for. -/
def success? : DriverCall → Option QuerySuccess
  | .query request false (.ok result) => some ⟨request.id, result⟩
  | _ => none

/-- The failure that a call stands for. -/
def failure? : DriverCall → Option QueryFailure
  | .query request false (.error e) => some ⟨request.id, e.code, e.message⟩
  | _ => none

theorem query?_of_reported? {call : DriverCall} {request : QueryRequest}
    (h : call.reported? = some request) : ∃ q, call.query? = some q ∧ q.id = request.id := by
  unfold reported? at h
  split at h
  · exact ⟨request, h, rfl⟩
  · exact absurd h (by simp)

theorem query?_of_success? {call : DriverCall} {success : QuerySuccess}
    (h : call.success? = some success) : ∃ q, call.query? = some q ∧ q.id = success.id := by
  unfold success? at h
  split at h
  · rw [← Option.some.inj h]
    exact ⟨_, rfl, rfl⟩
  · exact absurd h (by simp)

theorem query?_of_failure? {call : DriverCall} {failure : QueryFailure}
    (h : call.failure? = some failure) : ∃ q, call.query? = some q ∧ q.id = failure.id := by
  unfold failure? at h
  split at h
  · rw [← Option.some.inj h]
    exact ⟨_, rfl, rfl⟩
  · exact absurd h (by simp)

end DriverCall

/-- The query that a worker holds. -/
def Worker.inFlight (worker : Worker) : List QueryRequest :=
  match worker.phase with
  | .running query _ => [query]
  | _ => []

theorem Worker.inFlight_length_le (worker : Worker) : worker.inFlight.length ≤ 1 := by
  unfold Worker.inFlight
  cases worker.phase <;> simp

/-- **Whether a worker has seen that it is to stop.** It does not go back to its loop then. -/
def Worker.stopping (worker : Worker) : Bool :=
  match worker.phase with
  | .running _ drained => drained.isSome
  | .draining _ => true
  | .closing => true
  | .exited => true
  | _ => false

namespace Worker.Moves

variable {limit : Nat} {worker worker' : Worker} {m m' : Mailbox} {call : Option DriverCall}

/-- **A move loses no query and brings none up**, and keeps their order. -/
theorem queries (h : worker.Moves limit m call worker' m') :
    call.toList.filterMap (·.query?) ++ worker'.inFlight ++ m'.queries =
      worker.inFlight ++ m.queries := by
  unfold Worker.inFlight
  cases h with
  | pick hphase _ hqueries => simp [hphase, hqueries]
  | next hphase _ _ hqueries => simp [hphase, hqueries]
  | @answered query answer hphase => cases answer <;> simp [hphase, reported, DriverCall.query?]
  | silent hphase => simp [hphase, DriverCall.query?]
  | stay hphase => simp [hphase]
  | _ hphase => simp [hphase, DriverCall.query?]

/-- A success is reported if the call stands for one. -/
theorem succeeded (h : worker.Moves limit m call worker' m') :
    m'.succeeded = m.succeeded ++ call.toList.filterMap (·.success?) := by
  cases h with
  | @answered query answer _ => cases answer <;> simp [reported, DriverCall.success?]
  | _ => simp [DriverCall.success?]

theorem failed (h : worker.Moves limit m call worker' m') :
    m'.failed = m.failed ++ call.toList.filterMap (·.failure?) := by
  cases h with
  | @answered query answer _ => cases answer <;> simp [reported, DriverCall.failure?]
  | _ => simp [DriverCall.failure?]

theorem shutdown (h : worker.Moves limit m call worker' m') : m'.shutdown = m.shutdown := by
  cases h with
  | @answered query answer _ => cases answer <;> rfl
  | _ => rfl

/-- A worker in its loop reports every query that it runs, and leaves the loop only if it is told to. -/
theorem of_loop (h : worker.Moves limit m call worker' m') (hloop : worker.stopping = false) :
    call.toList.filterMap (·.reported?) = call.toList.filterMap (·.query?)
      ∧ (worker'.stopping = true → m.shutdown = true) := by
  unfold Worker.stopping at *
  cases h with
  | stop _ hshutdown => exact ⟨rfl, fun _ => hshutdown⟩
  | wake hphase _ => exact ⟨rfl, fun h => absurd h (by simp)⟩
  | _ hphase => simp [hphase, DriverCall.reported?, DriverCall.query?] at hloop ⊢

/-- A worker that is stopping reports nothing and stays so. -/
theorem of_stopping (h : worker.Moves limit m call worker' m') (hstop : worker.stopping = true) :
    worker'.stopping = true ∧ call.toList.filterMap (·.reported?) = [] := by
  unfold Worker.stopping at *
  cases h with
  | _ hphase => simp [hphase, DriverCall.reported?] at hstop ⊢

end Worker.Moves

namespace Session

variable {W : Type}

/-! ## The invariant -/

/-- The queries that the driver has run, in the order in which it did. -/
def executed (s : Session W) : List QueryRequest := s.calls.filterMap (·.query?)

/-- The queries that were run and whose answers are to be reported. -/
def reported (s : Session W) : List QueryRequest := s.calls.filterMap (·.reported?)

/-- **The stream of successes**: those that were delivered and then those that still wait. -/
def successes (s : Session W) : List QuerySuccess :=
  s.delivered.filterMap (·.success?) ++ s.connection.mailbox.succeeded

/-- **The stream of failures.** -/
def failures (s : Session W) : List QueryFailure :=
  s.delivered.filterMap (·.failure?) ++ s.connection.mailbox.failed

/-- **Every query is in its place**, and so is every result. -/
structure Ordered (s : Session W) : Prop where
  /-- A query was run, or the worker holds it, or it waits. -/
  queue : s.queries = s.executed ++ s.connection.worker.inFlight ++ s.connection.mailbox.queries
  /-- The queries are numbered from zero. -/
  numbered : s.queries.map (·.id) = (List.range s.queries.length).map UInt32.ofNat
  next : s.connection.nextQuery = UInt32.ofNat s.queries.length
  /-- The streams are what the driver's answers stand for. -/
  succeeded : s.successes = s.calls.filterMap (·.success?)
  failed : s.failures = s.calls.filterMap (·.failure?)
  /-- Answers are dropped at the end only, once the worker has seen that it is to stop. -/
  told : s.connection.mailbox.shutdown = s.connection.closed
  stopping : s.connection.worker.stopping = true → s.connection.closed = true
  loop : s.connection.worker.stopping = false → s.reported = s.executed
  dropped : s.reported <+: s.executed

theorem ordered_start (timing : Timing) (w : W) : Ordered (start timing w) :=
  ⟨rfl, rfl, rfl, rfl, rfl, rfl, nofun, fun _ => rfl, List.prefix_rfl⟩

/-- **Every step keeps the order.** -/
theorem Ordered.step {s s' : Session W} (h : Ordered s) (hs : s.Step s') : Ordered s' := by
  cases hs with
  | refused _ => exact h
  | connect info hopen =>
      rw [Connection.connect_open hopen]
      exact ⟨h.queue, h.numbered, h.next, h.succeeded, h.failed, h.told, h.stopping, h.loop, h.dropped⟩
  | query text hopen =>
      -- the new query is the last of the queue, with the next number
      rw [Connection.query_open hopen]
      refine ⟨?_, ?_, ?_, h.succeeded, h.failed, h.told, h.stopping, h.loop, h.dropped⟩
      · show s.queries ++ [_] = s.executed ++ _ ++ (s.connection.mailbox.queries ++ [_])
        rw [← List.append_assoc, ← h.queue]
      · show (s.queries ++ [_]).map _ = (List.range (s.queries ++ [_]).length).map _
        rw [List.map_append, h.numbered, List.length_append, List.length_singleton,
          List.range_succ, List.map_append]
        exact congrArg _ (congrArg (fun n => [n]) h.next)
      · show s.connection.nextQuery + 1 = UInt32.ofNat (s.queries ++ [_]).length
        rw [h.next, List.length_append, List.length_singleton, UInt32.ofNat_add]
        rfl
  | take queue =>
      have hstreams := s.connection.takeFrom_streams queue
      rw [s.connection.takeFrom_other queue]
      refine ⟨h.queue, h.numbered, h.next, ?_, ?_, h.told, h.stopping, h.loop, h.dropped⟩
      · rw [← h.succeeded]
        unfold successes
        rw [List.filterMap_append, List.append_assoc, hstreams.2.1]
      · rw [← h.failed]
        unfold failures
        rw [List.filterMap_append, List.append_assoc, hstreams.2.2]
  | close hopen =>
      exact ⟨h.queue, h.numbered, h.next, h.succeeded, h.failed, rfl, fun _ => rfl, h.loop, h.dropped⟩
  | @work call worker m w hmove =>
      have hexecuted : (s.calls ++ call.toList).filterMap (·.query?)
          = s.executed ++ call.toList.filterMap (·.query?) := List.filterMap_append
      have hreported : (s.calls ++ call.toList).filterMap (·.reported?)
          = s.reported ++ call.toList.filterMap (·.reported?) := List.filterMap_append
      refine ⟨?_, h.numbered, h.next, ?_, ?_, hmove.shutdown.trans h.told, ?_, ?_, ?_⟩
      · have hqueries := congrArg (s.executed ++ ·) hmove.queries
        rw [← List.append_assoc, ← List.append_assoc, ← List.append_assoc, ← h.queue] at hqueries
        show s.queries = (s.calls ++ call.toList).filterMap _ ++ _ ++ _
        rw [hexecuted]
        exact hqueries.symm
      · show s.delivered.filterMap _ ++ m.succeeded = (s.calls ++ call.toList).filterMap _
        rw [hmove.succeeded, ← List.append_assoc, List.filterMap_append, ← h.succeeded]
        rfl
      · show s.delivered.filterMap _ ++ m.failed = (s.calls ++ call.toList).filterMap _
        rw [hmove.failed, ← List.append_assoc, List.filterMap_append, ← h.failed]
        rfl
      · intro hstop
        cases hloop : s.connection.worker.stopping with
        | true => exact h.stopping hloop
        | false => exact h.told.symm.trans ((hmove.of_loop hloop).2 hstop)
      · intro hloop'
        cases hloop : s.connection.worker.stopping with
        | true => exact absurd ((hmove.of_stopping hloop).1.symm.trans hloop') (by decide)
        | false =>
            show (s.calls ++ call.toList).filterMap _ = (s.calls ++ call.toList).filterMap _
            rw [hreported, hexecuted, h.loop hloop, (hmove.of_loop hloop).1]
      · show (s.calls ++ call.toList).filterMap _ <+: (s.calls ++ call.toList).filterMap _
        rw [hreported, hexecuted]
        cases hloop : s.connection.worker.stopping with
        | true =>
            rw [(hmove.of_stopping hloop).2, List.append_nil]
            exact h.dropped.trans (List.prefix_append _ _)
        | false =>
            have hsame : s.reported ++ call.toList.filterMap (·.reported?)
                = s.executed ++ call.toList.filterMap (·.query?) := by
              rw [h.loop hloop, (hmove.of_loop hloop).1]
            exact hsame ▸ List.prefix_rfl

theorem ordered_run (driver : DatabaseDriver W) (timing : Timing) (w : W)
    (actions : List SessionAction) : Ordered ((start timing w).run driver actions) :=
  run_invariant Ordered.step driver actions (ordered_start timing w)

/-! ## Numbers of queries -/

/-- The first 2³² numbers are told apart. -/
theorem toNat_ofNat_range {n : Nat} (h : n < UInt32.size) :
    ((List.range n).map UInt32.ofNat).map UInt32.toNat = List.range n := by
  rw [List.map_map]
  refine (List.map_congr_left fun i hi => ?_).trans (List.map_id _)
  have hi := List.mem_range.mp hi
  exact UInt32.toNat_ofNat_of_lt (Nat.lt_trans hi h)

/-- **The numbers of the queries that were run are the first ones.** -/
theorem Ordered.executed_ids {s : Session W} (h : Ordered s)
    (hcount : s.queries.length < UInt32.size) :
    s.executed.map (·.id.toNat) = List.range s.executed.length := by
  have hids : s.queries.map (·.id.toNat) = List.range s.queries.length := by
    have hnumbered := congrArg (List.map UInt32.toNat) h.numbered
    rwa [toNat_ofNat_range hcount, List.map_map] at hnumbered
  have hprefix : s.executed = s.queries.take s.executed.length := by
    rw [h.queue, List.append_assoc, List.take_left]
  have hle : s.executed.length ≤ s.queries.length := by
    rw [h.queue, List.append_assoc, List.length_append]
    exact Nat.le_add_right _ _
  calc s.executed.map (·.id.toNat)
      = (s.queries.map (·.id.toNat)).take s.executed.length := by rw [← List.map_take, ← hprefix]
    _ = List.range s.executed.length := by rw [hids, List.take_range, Nat.min_eq_left hle]

/-- Queries are run with rising numbers. -/
theorem Ordered.executed_pairwise {s : Session W} (h : Ordered s)
    (hcount : s.queries.length < UInt32.size) : (s.executed.map (·.id)).Pairwise (· < ·) := by
  have hrange : (s.executed.map (·.id.toNat)).Pairwise (· < ·) := by
    rw [h.executed_ids hcount]
    exact List.pairwise_lt_range
  rw [List.pairwise_map] at hrange ⊢
  exact hrange.imp fun hlt => UInt32.lt_iff_toNat_lt.mpr hlt

/-- What calls stand for has the numbers of their queries, in their order. -/
theorem ids_sublist {α : Type} {stands : DriverCall → Option α} {idOf : α → RequestId}
    (hstands : ∀ {call a}, stands call = some a → ∃ q, call.query? = some q ∧ q.id = idOf a) :
    ∀ calls : List DriverCall,
      ((calls.filterMap stands).map idOf).Sublist ((calls.filterMap (·.query?)).map (·.id))
  | [] => .slnil
  | call :: calls => by
      have hrest := ids_sublist hstands calls
      cases ha : stands call with
      | none =>
          rw [List.filterMap_cons_none ha]
          cases hq : call.query? with
          | none => rw [List.filterMap_cons_none hq]; exact hrest
          | some q => rw [List.filterMap_cons_some hq]; exact hrest.cons _
      | some a =>
          obtain ⟨q, hq, hid⟩ := hstands ha
          rw [List.filterMap_cons_some ha, List.filterMap_cons_some hq, List.map_cons,
            List.map_cons, hid]
          exact hrest.cons_cons _

/-- **Every answer that is to be reported is a success or a failure**, and never both. -/
theorem results_perm : ∀ calls : List DriverCall,
    ((calls.filterMap (·.success?)).map (·.id) ++ (calls.filterMap (·.failure?)).map (·.id)).Perm
      ((calls.filterMap (·.reported?)).map (·.id))
  | [] => .nil
  | .query request false (.ok result) :: calls => (results_perm calls).cons request.id
  | .query request false (.error e) :: calls =>
      List.perm_middle.trans ((results_perm calls).cons request.id)
  | .query request true answer :: calls => by
      cases answer <;> exact results_perm calls
  | .connect request answer :: calls => results_perm calls
  | .ping answer :: calls => results_perm calls
  | .close :: calls => results_perm calls

end Session

/-- A driver that always connects and answers every query but one. -/
def DatabaseDriver.refusing (bad : String) : DatabaseDriver Unit where
  connect _ w := (.ok (), w)
  ping w := (.ok (), w)
  query text w := (if text = bad then .error (.generic bad) else .ok default, w)
  close w := w

/--
**Queries are run and reported once, in order**, whatever the two sides do and whatever the driver
answers, as long as the numbers do not run out.

The driver has run the queries with the first numbers, each once and in order. Of the others at
most one is with the worker, and the rest wait. Every query that was not run in the drain has one
result with its number, which is a success or a failure. On each stream the numbers rise, from
the results that were delivered to those that wait, and the two streams have nothing else. What the
connection gives out when it is asked for its updates is delivered.
-/
theorem queries_run_and_reported_once {W : Type} (driver : DatabaseDriver W) (timing : Timing)
    (w : W) (actions : List SessionAction) :
    let s := (Session.start timing (w, [])).run driver.noted actions
    s.queries.length < UInt32.size →
      s.world.2 = s.calls.map (·.command)
        ∧ s.executed.map (·.id.toNat) = List.range s.executed.length
        ∧ s.queries = s.executed ++ s.connection.worker.inFlight ++ s.connection.mailbox.queries
        ∧ s.connection.worker.inFlight.length ≤ 1
        ∧ s.reported <+: s.executed
        ∧ (s.connection.closed = false → s.reported = s.executed)
        ∧ (s.reported.map (·.id)).Nodup
        ∧ (s.successes.map (·.id) ++ s.failures.map (·.id)).Perm (s.reported.map (·.id))
        ∧ (s.successes.map (·.id)).Pairwise (· < ·)
        ∧ (s.failures.map (·.id)).Pairwise (· < ·)
        ∧ s.successes = s.calls.filterMap (·.success?)
        ∧ s.failures = s.calls.filterMap (·.failure?)
        ∧ s.run driver.noted Session.takeUpdates =
          { s with
            connection := s.connection.takeUpdates.2
            delivered := s.delivered ++ s.connection.takeUpdates.1 } := by
  intro s hcount
  have h : s.Ordered := Session.ordered_run driver.noted timing (w, []) actions
  have hrising := h.executed_pairwise hcount
  -- whatever is reported of some of the calls has its numbers in their order
  have hreported : (s.reported.map (·.id)).Pairwise (· < ·) :=
    hrising.sublist (Session.ids_sublist DriverCall.query?_of_reported? s.calls)
  have hsuccesses : (s.successes.map (·.id)).Pairwise (· < ·) := by
    rw [h.succeeded]
    exact hrising.sublist (Session.ids_sublist DriverCall.query?_of_success? s.calls)
  have hfailures : (s.failures.map (·.id)).Pairwise (· < ·) := by
    rw [h.failed]
    exact hrising.sublist (Session.ids_sublist DriverCall.query?_of_failure? s.calls)
  have hperm : (s.successes.map (·.id) ++ s.failures.map (·.id)).Perm (s.reported.map (·.id)) := by
    rw [h.succeeded, h.failed]
    exact Session.results_perm s.calls
  refine ⟨Session.run_noted driver actions rfl, h.executed_ids hcount, h.queue,
    s.connection.worker.inFlight_length_le, h.dropped, fun hopen => h.loop ?_,
    hreported.imp (fun hlt => UInt32.ne_of_lt hlt), hperm, hsuccesses, hfailures, h.succeeded, h.failed,
    s.run_takeUpdates driver.noted⟩
  -- a worker that has not been told to stop is in its loop
  cases hstop : s.connection.worker.stopping with
  | false => rfl
  | true => exact absurd ((h.stopping hstop).symm.trans hopen) (by decide)

/-- Three queries, the second of which fails. The last one is run in the drain, after the first
result was taken. -/
theorem queries_run_and_reported_once_refusing :
    let actions : List SessionAction := [.connect {}, .query "one", .query "two", .query "three"]
      ++ List.replicate 11 (.work 0) ++ Session.takeUpdates ++ .close :: List.replicate 8 (.work 0)
    let s := (Session.start {} ((), [])).run (DatabaseDriver.refusing "two").noted actions
    s.queries.length < UInt32.size
      ∧ s.executed.map (·.id) = [0, 1, 2] ∧ s.reported.map (·.id) = [0, 1]
      ∧ s.delivered.filterMap (·.success?.map (·.id)) = [0] ∧ s.failures.map (·.id) = [1]
      ∧ s.world.2 = s.calls.map (·.command)
      ∧ (s.successes.map (·.id) ++ s.failures.map (·.id)).Perm (s.reported.map (·.id)) := by
  intro actions s
  have hcount : s.queries.length < UInt32.size := by decide +kernel
  have h := queries_run_and_reported_once (DatabaseDriver.refusing "two") {} () actions hcount
  exact ⟨hcount, by decide +kernel, by decide +kernel, by decide +kernel, by decide +kernel, h.1,
    h.2.2.2.2.2.2.2.1⟩

end ScriptBridge
