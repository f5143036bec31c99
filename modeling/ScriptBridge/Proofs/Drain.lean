import ScriptBridge.Proofs.Delivery
import ScriptBridge.Proofs.Discipline

/-!
# What a worker does when it is told to stop

A connection may be closed at any moment. The worker may sleep then, or wait for its driver: for a
connection, for a sign of life, for a query whose answer is to be reported. It finishes what it is
at and comes back to the head of its loop, and only there it sees that it is to stop.

**The way back** is short. `Worker.stepsToTop` counts the steps from each phase, and each step
brings the worker nearer whatever the driver answers, so it cannot miss the flag.

**The drain** follows the queue. Each query takes two steps, one to take it and one to run it, and
neither puts anything into a queue of results. At the limit, or when the queue is empty, the
connection is closed.

**After that** nothing changes any more but what is taken. The results that were there before are
still there, in their order, and are delivered one of each kind at a time.
-/

namespace ScriptBridge

/-! ## Moves of a worker that was told to stop -/

namespace Worker

/-- The largest number of steps back to the head of the loop. -/
def stepsToTop (worker : Worker) : Nat :=
  match worker.phase with
  | .awake => 3
  | .connecting _ => 2
  | .pinging => 2
  | .reporting _ => 1
  | .dropping => 1
  | .running _ none => 1
  | _ => 0

theorem stepsToTop_le (worker : Worker) : worker.stepsToTop ≤ 3 := by
  unfold stepsToTop
  split <;> omega

/-- A worker in its loop is at the head of it or has steps to go. -/
theorem stepsToTop_pos {worker : Worker} (hloop : worker.stopping = false)
    (hphase : worker.phase ≠ .top) : 0 < worker.stepsToTop := by
  unfold stopping at hloop
  unfold stepsToTop
  cases hother : worker.phase with
  | top => exact absurd hother hphase
  | running query drained =>
      rw [hother] at hloop
      cases drained with
      | none => exact Nat.one_pos
      | some count => exact absurd hloop (by simp)
  | draining count => rw [hother] at hloop; exact absurd hloop (by simp)
  | closing => rw [hother] at hloop; exact absurd hloop (by decide)
  | exited => rw [hother] at hloop; exact absurd hloop (by decide)
  | _ => exact Nat.succ_pos _

namespace Moves

variable {limit : Nat} {worker worker' : Worker} {m m' : Mailbox} {call : Option DriverCall}

/-- **Every step brings a worker nearer to the head of its loop.** -/
theorem nearer (h : worker.Moves limit m call worker' m') (hloop : worker.stopping = false)
    (hphase : worker.phase ≠ .top) :
    worker'.stopping = false ∧ worker'.stepsToTop < worker.stepsToTop := by
  unfold Worker.stopping Worker.stepsToTop at *
  cases h with
  | wake htop _ => exact absurd htop hphase
  | stop htop _ => exact absurd htop hphase
  | _ hother => simp [hother] at hloop ⊢

theorem of_told (h : worker.Moves limit m call worker' m') (hphase : worker.phase = .top)
    (hshutdown : m.shutdown = true) :
    call = none ∧ worker' = worker.enter (.draining 0) ∧ m' = m := by
  cases h with
  | stop _ _ => exact ⟨rfl, rfl, rfl⟩
  | wake _ hgoes => exact absurd (hshutdown.symm.trans hgoes) (by decide)
  | _ hother => exact absurd (hphase.symm.trans hother) (by simp)

theorem of_draining_next (h : worker.Moves limit m call worker' m') {count : Nat}
    (hphase : worker.phase = .draining count) (hconnected : worker.connected = true)
    (hcount : count < limit) {query : QueryRequest} {others : List QueryRequest}
    (hqueries : m.queries = query :: others) :
    call = none ∧ worker' = worker.enter (.running query (some count))
      ∧ m' = { m with queries := others } := by
  cases h with
  | next hother _ _ hothers =>
      obtain rfl : count = _ := WorkerPhase.draining.inj (hphase.symm.trans hother)
      obtain ⟨rfl, rfl⟩ := List.cons.inj (hqueries.symm.trans hothers)
      exact ⟨rfl, rfl, rfl⟩
  | finish hother _ hend =>
      obtain rfl : count = _ := WorkerPhase.draining.inj (hphase.symm.trans hother)
      rw [hqueries] at hend
      exact hend.elim (fun hlimit => absurd hcount (Nat.not_lt.mpr hlimit)) (fun hnil => nomatch hnil)
  | leave _ hlost => exact absurd (hconnected.symm.trans hlost) (by decide)
  | _ hother => exact absurd (hphase.symm.trans hother) (by simp)

theorem of_draining_end (h : worker.Moves limit m call worker' m') {count : Nat}
    (hphase : worker.phase = .draining count) (hconnected : worker.connected = true)
    (hend : limit ≤ count ∨ m.queries = []) :
    call = none ∧ worker' = worker.enter .closing ∧ m' = m := by
  cases h with
  | finish _ _ _ => exact ⟨rfl, rfl, rfl⟩
  | next hother _ hcount hqueries =>
      obtain rfl : count = _ := WorkerPhase.draining.inj (hphase.symm.trans hother)
      rw [hqueries] at hend
      exact hend.elim (fun hlimit => absurd hcount (Nat.not_lt.mpr hlimit)) (fun hnil => nomatch hnil)
  | leave _ hlost => exact absurd (hconnected.symm.trans hlost) (by decide)
  | _ hother => exact absurd (hphase.symm.trans hother) (by simp)

theorem of_draining_lost (h : worker.Moves limit m call worker' m') {count : Nat}
    (hphase : worker.phase = .draining count) (hlost : worker.connected = false) :
    call = none ∧ worker' = worker.enter .exited ∧ m' = { m with state := .closed } := by
  cases h with
  | leave _ _ => exact ⟨rfl, rfl, rfl⟩
  | next _ hconnected _ _ => exact absurd (hconnected.symm.trans hlost) (by decide)
  | finish _ hconnected _ => exact absurd (hconnected.symm.trans hlost) (by decide)
  | _ hother => exact absurd (hphase.symm.trans hother) (by simp)

theorem of_silent (h : worker.Moves limit m call worker' m') {query : QueryRequest} {count : Nat}
    (hphase : worker.phase = .running query (some count)) :
    (∃ answer, call = some (.query query true answer))
      ∧ worker' = worker.enter (.draining (count + 1)) ∧ m' = m := by
  cases h with
  | silent hother =>
      obtain ⟨rfl, hcount⟩ := WorkerPhase.running.inj (hphase.symm.trans hother)
      obtain rfl := Option.some.inj hcount
      exact ⟨⟨_, rfl⟩, rfl, rfl⟩
  | _ hother => exact absurd (hphase.symm.trans hother) (by simp)

theorem of_closing (h : worker.Moves limit m call worker' m') (hphase : worker.phase = .closing) :
    call = some .close ∧ worker' = worker.enter .exited ∧ m' = { m with state := .closed } := by
  cases h with
  | close _ => exact ⟨rfl, rfl, rfl⟩
  | _ hother => exact absurd (hphase.symm.trans hother) (by simp)

/-- **Results are put behind those that are there**, and queries are taken from the front. -/
theorem mailbox_grows (h : worker.Moves limit m call worker' m') :
    m'.queries <:+ m.queries ∧ m.attempts <+: m'.attempts ∧ m.succeeded <+: m'.succeeded
      ∧ m.failed <+: m'.failed := by
  have hsucceeded : m.succeeded <+: m'.succeeded := h.succeeded ▸ List.prefix_append _ _
  have hfailed : m.failed <+: m'.failed := h.failed ▸ List.prefix_append _ _
  cases h with
  | pick _ _ hqueries =>
      exact ⟨hqueries ▸ List.suffix_cons _ _, List.prefix_rfl, hsucceeded, hfailed⟩
  | next _ _ _ hqueries =>
      exact ⟨hqueries ▸ List.suffix_cons _ _, List.prefix_rfl, hsucceeded, hfailed⟩
  | report _ => exact ⟨List.suffix_rfl, List.prefix_append _ _, hsucceeded, hfailed⟩
  | @answered query answer _ =>
      cases answer <;> exact ⟨List.suffix_rfl, List.prefix_rfl, hsucceeded, hfailed⟩
  | _ => exact ⟨List.suffix_rfl, List.prefix_rfl, hsucceeded, hfailed⟩

end Moves

end Worker

namespace Session

variable {W : Type}

/-! ## Steps of the worker alone -/

/-- **What steps of the worker leave alone.** Requests and what was delivered stay, queries are taken
from the front, and results are put behind those that are there. -/
structure Worked (s s' : Session W) : Prop where
  connection : s'.connection =
    { s.connection with worker := s'.connection.worker, mailbox := s'.connection.mailbox }
  delivered : s'.delivered = s.delivered
  shutdown : s'.connection.mailbox.shutdown = s.connection.mailbox.shutdown
  queries : s'.connection.mailbox.queries <:+ s.connection.mailbox.queries
  attempts : s.connection.mailbox.attempts <+: s'.connection.mailbox.attempts
  succeeded : s.connection.mailbox.succeeded <+: s'.connection.mailbox.succeeded
  failed : s.connection.mailbox.failed <+: s'.connection.mailbox.failed

theorem Worked.refl (s : Session W) : Worked s s :=
  ⟨rfl, rfl, rfl, List.suffix_rfl, List.prefix_rfl, List.prefix_rfl, List.prefix_rfl⟩

theorem Worked.trans {s s' s'' : Session W} (h : Worked s s') (h' : Worked s' s'') :
    Worked s s'' where
  connection := by rw [h'.connection, h.connection]
  delivered := h'.delivered.trans h.delivered
  shutdown := h'.shutdown.trans h.shutdown
  queries := h'.queries.trans h.queries
  attempts := h.attempts.trans h'.attempts
  succeeded := h.succeeded.trans h'.succeeded
  failed := h.failed.trans h'.failed

theorem worked_act (driver : DatabaseDriver W) (s : Session W) (now : Nat) :
    Worked s (s.act driver (.work now)) := by
  obtain ⟨call, worker, m, w, hmove, hact⟩ := act_work driver s now
  obtain ⟨hqueries, hattempts, hsucceeded, hfailed⟩ := hmove.mailbox_grows
  rw [hact]
  exact ⟨rfl, rfl, hmove.shutdown, hqueries, hattempts, hsucceeded, hfailed⟩

theorem worked_work (driver : DatabaseDriver W) : ∀ (times : List Nat) (s : Session W),
    Worked s (s.work driver times)
  | [], s => .refl s
  | now :: times, s => (worked_act driver s now).trans (worked_work driver times _)

/-- **The worker comes back to the head of its loop**, whatever it is at and whatever the driver
answers. -/
theorem work_to_top (driver : DatabaseDriver W) : ∀ (steps : Nat) {s : Session W}
    {times : List Nat}, s.connection.worker.stopping = false →
      s.connection.worker.stepsToTop ≤ steps → steps ≤ times.length →
      ∃ n ≤ steps, (s.work driver (times.take n)).connection.worker.phase = .top
  | steps, s, times, hloop, hsteps, htimes => by
      by_cases hphase : s.connection.worker.phase = .top
      · exact ⟨0, Nat.zero_le _, hphase⟩
      have hpos := Worker.stepsToTop_pos hloop hphase
      cases steps with
      | zero => omega
      | succ steps =>
          cases times with
          | nil => exact absurd htimes (by simp)
          | cons now times =>
              obtain ⟨call, worker, m, w, hmove, hact⟩ := act_work driver s now
              obtain ⟨hloop', hnearer⟩ := hmove.nearer hloop hphase
              have hworker : (s.act driver (.work now)).connection.worker = worker := by rw [hact]
              have hsteps' : (s.act driver (.work now)).connection.worker.stepsToTop ≤ steps := by
                rw [hworker]
                omega
              rw [← hworker] at hloop'
              obtain ⟨n, hn, htop⟩ :=
                work_to_top driver steps hloop' hsteps' (Nat.le_of_succ_le_succ htimes)
              exact ⟨n + 1, Nat.succ_le_succ hn, htop⟩

end Session

/-! ## The drain -/

namespace Worker

/-- **Steps of a worker in a row**, with the calls of the driver that they make. -/
inductive Runs (limit : Nat) : Nat → Worker → Mailbox → List DriverCall → Worker → Mailbox → Prop where
  | nil {worker : Worker} {m : Mailbox} : Runs limit 0 worker m [] worker m
  | cons {n : Nat} {worker worker' worker'' : Worker} {m m' m'' : Mailbox}
      {call : Option DriverCall} {calls : List DriverCall} :
      worker.Moves limit m call worker' m' → Runs limit n worker' m' calls worker'' m'' →
      Runs limit (n + 1) worker m (call.toList ++ calls) worker'' m''

/-- **A call that drains a query.** Whatever it answers, it is not reported. -/
def Drains (query : QueryRequest) (call : DriverCall) : Prop :=
  ∃ answer, call = .query query true answer

/-- **What a worker has done when it has ended**: it has drained `count` queries, from the front, and
closed the connection if there was one. -/
structure Ended (worker : Worker) (m : Mailbox) (count : Nat) (calls : List DriverCall)
    (worker' : Worker) (m' : Mailbox) : Prop where
  calls : ∃ drained, List.Forall₂ Drains (m.queries.take count) drained
    ∧ calls = drained ++ if worker.connected then [.close] else []
  worker : worker' = worker.enter .exited
  mailbox : m' = { m with queries := m.queries.drop count, state := .closed }

variable {limit n count : Nat} {worker worker' : Worker} {m m' : Mailbox}
  {calls : List DriverCall}

/-- Only as many queries count as there are. -/
theorem Ended.congr {count' : Nat} (h : Ended worker m count calls worker' m')
    (hsame : min count m.queries.length = min count' m.queries.length) :
    Ended worker m count' calls worker' m' := by
  have htake : m.queries.take count = m.queries.take count' := List.take_eq_take_iff.mpr hsame
  have hdrop : m.queries.drop count = m.queries.drop count' := List.drop_eq_drop_iff.mpr hsame
  exact ⟨htake ▸ h.calls, h.worker, hdrop ▸ h.mailbox⟩

/-- A worker that has ended does nothing any more. -/
theorem Runs.of_exited (h : Runs limit n worker m calls worker' m')
    (hphase : worker.phase = .exited) : calls = [] ∧ worker' = worker ∧ m' = m := by
  induction h with
  | nil => exact ⟨rfl, rfl, rfl⟩
  | cons hmove _ ih =>
      obtain ⟨rfl, rfl, rfl⟩ := hmove.of_exited hphase
      exact ih hphase

/-- **The end of the drain.** Without a connection there is nothing to close. -/
theorem Runs.end_drain (h : Runs limit (n + 2) worker m calls worker' m')
    (hphase : worker.phase = .draining count)
    (hend : worker.connected = true → limit ≤ count ∨ m.queries = []) :
    Ended worker m 0 calls worker' m' := by
  cases h with
  | cons hmove hrest =>
      cases hconnected : worker.connected with
      | false =>
          obtain ⟨rfl, rfl, rfl⟩ := hmove.of_draining_lost hphase hconnected
          obtain ⟨rfl, rfl, rfl⟩ := hrest.of_exited rfl
          exact ⟨⟨[], .nil, by rw [hconnected]; rfl⟩, rfl, rfl⟩
      | true =>
          obtain ⟨rfl, rfl, rfl⟩ := hmove.of_draining_end hphase hconnected (hend hconnected)
          cases hrest with
          | cons hclose hrest =>
              obtain ⟨rfl, rfl, rfl⟩ := hclose.of_closing rfl
              obtain ⟨rfl, rfl, rfl⟩ := hrest.of_exited rfl
              exact ⟨⟨[], .nil, by rw [hconnected]; rfl⟩, rfl, rfl⟩

/-- **The drain runs the queries in order**, as many as the limit still allows. -/
theorem Runs.drain : ∀ (pending : List QueryRequest) {n count : Nat} {worker worker' : Worker}
    {m m' : Mailbox} {calls : List DriverCall},
    Runs limit (2 * pending.length + 2 + n) worker m calls worker' m' →
      worker.phase = .draining count → worker.connected = true → m.queries = pending →
      Ended worker m (limit - count) calls worker' m'
  | [], n, count, worker, worker', m, m', calls, h, hphase, hconnected, hqueries => by
      rw [show 2 * ([] : List QueryRequest).length + 2 + n = n + 2 by simp; omega] at h
      refine (h.end_drain hphase fun _ => Or.inr hqueries).congr ?_
      rw [hqueries, List.length_nil, Nat.min_zero, Nat.min_zero]
  | query :: others, n, count, worker, worker', m, m', calls, h, hphase, hconnected, hqueries => by
      by_cases hcount : limit ≤ count
      · rw [Nat.sub_eq_zero_of_le hcount]
        rw [show 2 * (query :: others).length + 2 + n = 2 * (query :: others).length + n + 2 by omega] at h
        exact h.end_drain hphase fun _ => Or.inl hcount
      rw [show 2 * (query :: others).length + 2 + n = (2 * others.length + 2 + n) + 1 + 1 by
        simp; omega] at h
      cases h with
      | cons htake hrest =>
          obtain ⟨rfl, rfl, rfl⟩ := htake.of_draining_next hphase hconnected (by omega) hqueries
          cases hrest with
          | cons hrun hrest =>
              obtain ⟨⟨answer, rfl⟩, rfl, rfl⟩ := hrun.of_silent rfl
              obtain ⟨⟨drained, hdrained, hcalls⟩, hworker, hmailbox⟩ :=
                Runs.drain others hrest rfl hconnected rfl
              have hleft : limit - count = (limit - (count + 1)) + 1 := by omega
              refine ⟨⟨.query query true answer :: drained, ?_, ?_⟩, hworker, ?_⟩
              · rw [hqueries, hleft, List.take_succ_cons]
                exact .cons ⟨answer, rfl⟩ hdrained
              · rw [hcalls]
                rfl
              · rw [hmailbox, hqueries, hleft, List.drop_succ_cons]

/-- **A worker at the head of its loop that was told to stop** drains what it may and ends. -/
theorem Runs.of_told (h : Runs limit (2 * m.queries.length + 3 + n) worker m calls worker' m')
    (hphase : worker.phase = .top) (hshutdown : m.shutdown = true) :
    Ended worker m (if worker.connected then min limit m.queries.length else 0) calls worker' m' := by
  rw [show 2 * m.queries.length + 3 + n = 2 * m.queries.length + 2 + n + 1 by omega] at h
  cases h with
  | cons hstop hrest =>
      obtain ⟨rfl, rfl, rfl⟩ := hstop.of_told hphase hshutdown
      cases hconnected : worker.connected with
      | true =>
          have hended := hrest.drain _ rfl hconnected rfl
          refine Ended.congr ⟨hended.calls, hended.worker, hended.mailbox⟩ ?_
          rw [if_pos rfl]
          omega
      | false =>
          rw [Nat.add_right_comm] at hrest
          have hended := hrest.end_drain rfl fun h => absurd (hconnected.symm.trans h) (by decide)
          exact ⟨hended.calls, hended.worker, hended.mailbox⟩

end Worker

namespace Session

variable {W : Type}

/-- Steps of the worker in a session are steps of the worker in a row. -/
theorem work_runs (driver : DatabaseDriver W) : ∀ (times : List Nat) (s : Session W),
    ∃ calls, (s.work driver times).calls = s.calls ++ calls
      ∧ Worker.Runs s.connection.timing.drainLimit times.length s.connection.worker
        s.connection.mailbox calls (s.work driver times).connection.worker
        (s.work driver times).connection.mailbox
  | [], s => ⟨[], (List.append_nil _).symm, .nil⟩
  | now :: times, s => by
      obtain ⟨call, worker, m, w, hmove, hact⟩ := act_work driver s now
      obtain ⟨calls, hcalls, hruns⟩ := work_runs driver times (s.act driver (.work now))
      refine ⟨call.toList ++ calls, ?_, ?_⟩
      · rw [work_cons, hcalls, hact, List.append_assoc]
      · rw [work_cons]
        rw [hact] at hruns ⊢
        exact .cons hmove hruns

/-- The flag of a worker at the head of its loop says whether a connection is open. -/
theorem InStep.isOpen_of_top {s : Session W} (h : InStep s)
    (htop : s.connection.worker.phase = .top) :
    isOpen s.calls = s.connection.worker.connected := by
  have hopen := h.hasConnection
  unfold Worker.hasConnection at hopen
  rwa [htop] at hopen

/-- **A session whose worker sees that it is to stop** is drained. -/
theorem work_told (driver : DatabaseDriver W) {s : Session W} (h : InStep s)
    (htop : s.connection.worker.phase = .top) (hshutdown : s.connection.mailbox.shutdown = true)
    {times : List Nat} (htimes : 2 * s.connection.mailbox.queries.length + 3 ≤ times.length) :
    let pending := s.connection.mailbox.queries
    let count := if isOpen s.calls then min s.connection.timing.drainLimit pending.length else 0
    let ended := s.work driver times
    (∃ drained, List.Forall₂ Worker.Drains (pending.take count) drained
        ∧ ended.calls = s.calls ++ drained ++ if isOpen s.calls then [.close] else [])
      ∧ ended.connection.mailbox =
        { s.connection.mailbox with queries := pending.drop count, state := .closed }
      ∧ ended.connection.worker.phase = .exited := by
  intro pending count ended
  obtain ⟨calls, hcalls, hruns⟩ := work_runs driver times s
  obtain ⟨k, hk⟩ := Nat.exists_eq_add_of_le htimes
  rw [hk] at hruns
  obtain ⟨⟨drained, hdrained, hended⟩, hworker, hmailbox⟩ := hruns.of_told htop hshutdown
  rw [← h.isOpen_of_top htop] at hdrained hended hmailbox
  refine ⟨⟨drained, hdrained, ?_⟩, hmailbox, ?_⟩
  · rw [hcalls, hended, List.append_assoc]
  · rw [hworker]
    rfl

/-- **The worker of a session that is being closed sees it** after at most three steps. -/
theorem close_seen (driver : DatabaseDriver W) {s : Session W} (h : Ordered s)
    (hopen : s.connection.closed = false) {times : List Nat} (htimes : 3 ≤ times.length) :
    ∃ n ≤ 3, let seen := (s.act driver .close).work driver (times.take n)
      seen.connection.worker.phase = .top ∧ seen.connection.mailbox.shutdown = true
        ∧ seen.connection.mailbox.queries.length ≤ s.connection.mailbox.queries.length := by
  rw [act_close_open hopen]
  -- a worker that was not told to stop before is in its loop
  have hloop : s.connection.worker.stopping = false := by
    cases hstop : s.connection.worker.stopping with
    | false => rfl
    | true => exact absurd ((h.stopping hstop).symm.trans hopen) (by decide)
  obtain ⟨n, hn, htop⟩ := work_to_top driver 3
    (show ({ s with connection := s.connection.requestStop } : Session W).connection.worker.stopping
      = false from hloop) (Worker.stepsToTop_le _) htimes
  have hworked := worked_work driver (times.take n)
    { s with connection := s.connection.requestStop }
  exact ⟨n, hn, htop, hworked.shutdown, hworked.queries.length_le⟩

end Session

namespace Connection

/-! ## Taking results again and again -/

/-- Take results a number of times. -/
def takeTimes : Nat → Connection → List ConnectionUpdate × Connection
  | 0, c => ([], c)
  | n + 1, c =>
    let (updates, c) := c.takeUpdates
    let (more, c) := takeTimes n c
    (updates ++ more, c)

/-- Results that are taken at once are the first of each kind. -/
theorem takeUpdates_first (c : Connection) :
    c.takeUpdates.1.filterMap (·.attempt?) = c.mailbox.attempts.take 1
      ∧ c.takeUpdates.1.filterMap (·.success?) = c.mailbox.succeeded.take 1
      ∧ c.takeUpdates.1.filterMap (·.failure?) = c.mailbox.failed.take 1 := by
  obtain ⟨_, _, ⟨_, _, attempts, succeeded, failed, _, _⟩, _, _, _⟩ := c
  cases attempts <;> cases succeeded <;> cases failed <;> exact ⟨rfl, rfl, rfl⟩

/-- What is taken of one kind, if the first result of its queue is taken each time. -/
theorem takeTimes_kind {α : Type} {kind : ConnectionUpdate → Option α} {queue : Connection → List α}
    (hfirst : ∀ c : Connection, c.takeUpdates.1.filterMap kind = (queue c).take 1)
    (hothers : ∀ c : Connection, queue c.takeUpdates.2 = (queue c).drop 1) :
    ∀ (n : Nat) (c : Connection), (takeTimes n c).1.filterMap kind = (queue c).take n
  | 0, _ => rfl
  | n + 1, c => by
      have hrest := takeTimes_kind hfirst hothers n c.takeUpdates.2
      show (c.takeUpdates.1 ++ (takeTimes n c.takeUpdates.2).1).filterMap kind = _
      rw [List.filterMap_append, hfirst, hrest, hothers, Nat.add_comm, List.take_add]

/-- **Results are delivered in order**, as many of each kind as they are taken times. -/
theorem takeTimes_delivers (n : Nat) (c : Connection) :
    (takeTimes n c).1.filterMap (·.attempt?) = c.mailbox.attempts.take n
      ∧ (takeTimes n c).1.filterMap (·.success?) = c.mailbox.succeeded.take n
      ∧ (takeTimes n c).1.filterMap (·.failure?) = c.mailbox.failed.take n :=
  ⟨takeTimes_kind (fun c => c.takeUpdates_first.1) (fun _ => rfl) n c,
    takeTimes_kind (fun c => c.takeUpdates_first.2.1) (fun _ => rfl) n c,
    takeTimes_kind (fun c => c.takeUpdates_first.2.2) (fun _ => rfl) n c⟩

end Connection

/--
**Closing a connection drains it.**

Take any session whose connection is open for requests, and any driver and limit. After at most
three steps the worker is at the head of its loop, where it sees that it is to stop. From there it
runs as many of the waiting queries as the limit allows, in order, if there is a connection, and
none if there is not. Their answers go nowhere: the mailbox afterwards is the one from then, with
these queries taken out and the state closed. The connection is closed once if there was one, and
nothing else is asked of the driver.

Afterwards every request is refused and changes nothing, and so does closing again. What was
waiting to be delivered still waits, in front of what came in on the way, and is delivered in order.
The steps may be taken at any times; `Connection.close` takes them at one.
-/
theorem close_drains {W : Type} (driver : DatabaseDriver W) (timing : Timing) (w : W)
    (actions : List SessionAction) (times : List Nat) :
    let s := (Session.start timing (w, [])).run driver.noted actions
    let told := s.act driver.noted .close
    let closed := told.work driver.noted times
    s.connection.closed = false → s.connection.stepsToEnd ≤ times.length →
      (∃ n ≤ 3,
        let seen := told.work driver.noted (times.take n)
        let pending := seen.connection.mailbox.queries
        let count := if isOpen seen.calls then min timing.drainLimit pending.length else 0
        seen.connection.worker.phase = .top
          ∧ seen.connection.mailbox.shutdown = true
          ∧ (∃ drained, List.Forall₂ Worker.Drains (pending.take count) drained
            ∧ closed.calls = seen.calls ++ drained ++ if isOpen seen.calls then [.close] else [])
          ∧ closed.connection.mailbox =
            { seen.connection.mailbox with queries := pending.drop count, state := .closed })
        ∧ closed.connection.worker.phase = .exited
        ∧ closed.world.2 = closed.calls.map (·.command)
        ∧ (∀ now, times = List.replicate s.connection.stepsToEnd now →
          s.connection.close driver.noted now s.world = (closed.connection, closed.world))
        ∧ (∀ more, let c := (closed.run driver.noted more).connection
          (∀ info, c.connect info = (.error .closed, c))
            ∧ (∀ text, c.query text = (.error .closed, c))
            ∧ ∀ now w, c.close driver.noted now w = (c, w))
        ∧ s.connection.mailbox.attempts <+: closed.connection.mailbox.attempts
        ∧ s.connection.mailbox.succeeded <+: closed.connection.mailbox.succeeded
        ∧ s.connection.mailbox.failed <+: closed.connection.mailbox.failed
        ∧ ∀ n, let updates := (Connection.takeTimes n closed.connection).1
          updates.filterMap (·.attempt?) = closed.connection.mailbox.attempts.take n
            ∧ updates.filterMap (·.success?) = closed.connection.mailbox.succeeded.take n
            ∧ updates.filterMap (·.failure?) = closed.connection.mailbox.failed.take n := by
  intro s told closed hopen hsteps
  have hordered : s.Ordered := Session.ordered_run driver.noted timing (w, []) actions
  have hinStep : s.InStep := Session.inStep_run driver.noted timing (w, []) actions
  have htold : told = { s with connection := s.connection.requestStop } :=
    Session.act_close_open hopen
  have hworked : told.Worked closed := Session.worked_work driver.noted times told
  rw [htold] at hworked
  have hclosed : closed.connection.closed = true := by
    rw [hworked.connection]
    rfl
  have hnoted : closed.world.2 = closed.calls.map (·.command) :=
    Session.run_noted driver _ (Session.run_noted driver [.close] (Session.run_noted driver actions rfl))
  have hlong : 2 * s.connection.mailbox.queries.length + 8 ≤ times.length := hsteps
  have hthree : 3 ≤ times.length := by omega
  obtain ⟨n, hn, htop, hshutdown, hpending⟩ := Session.close_seen driver.noted hordered hopen hthree
  -- the steps behind those that lead to the head of the loop are the drain
  have hseen : (told.work driver.noted (times.take n)).InStep :=
    Session.run_invariant Session.InStep.step driver.noted _
      (hinStep.step (Session.act_step driver.noted s .close))
  have hleft : 2 * (told.work driver.noted (times.take n)).connection.mailbox.queries.length + 3
      ≤ (times.drop n).length := by
    have hpending : (told.work driver.noted (times.take n)).connection.mailbox.queries.length
      ≤ s.connection.mailbox.queries.length := hpending
    rw [List.length_drop]
    omega
  have hdrain := Session.work_told driver.noted hseen htop hshutdown hleft
  have htiming : (told.work driver.noted (times.take n)).connection.timing = timing :=
    (Session.run_timing driver.noted _ told).trans
      ((Session.run_timing driver.noted [.close] s).trans (Session.run_timing driver.noted actions _))
  rw [← Session.work_append, List.take_append_drop, htiming] at hdrain
  obtain ⟨hcalls, hmailbox, hexited⟩ := hdrain
  refine ⟨⟨n, hn, htop, hshutdown, hcalls, hmailbox⟩, hexited, hnoted, ?_, ?_, hworked.attempts,
    hworked.succeeded, hworked.failed, fun n => Connection.takeTimes_delivers n closed.connection⟩
  · intro now htimes
    have hclose := Session.close_connection driver.noted now hopen
    rwa [← htimes] at hclose
  · intro more c
    have hrefuses : c.closed = true := Session.run_closed driver.noted more hclosed
    exact ⟨Connection.connect_closed hrefuses, Connection.query_closed hrefuses,
      fun now w => Connection.close_closed hrefuses driver.noted now w⟩

/-- Three queries, of which the first is answered in the loop. The limit allows one more, which fails
without a word, and the last is left. -/
theorem close_drains_refusing :
    let timing : Timing := { drainLimit := 1 }
    let driver := DatabaseDriver.refusing "two"
    let actions : List SessionAction := [.connect {}, .query "one", .query "two", .query "three"]
      ++ List.replicate 9 (.work 0)
    let times := List.replicate 12 0
    let s := (Session.start timing ((), [])).run driver.noted actions
    let told := s.act driver.noted .close
    let closed := told.work driver.noted times
    (s.connection.closed = false ∧ s.connection.stepsToEnd ≤ times.length)
      ∧ closed.connection.worker.phase = .exited
      ∧ closed.world.2 = closed.calls.map (·.command)
      ∧ closed.executed.map (·.id) = [0, 1]
      ∧ closed.connection.mailbox.queries.map (·.id) = [2]
      ∧ closed.connection.mailbox.succeeded.map (·.id) = [0]
      ∧ closed.connection.mailbox.failed = [] := by
  intro timing driver actions times s told closed
  have hopen : s.connection.closed = false := by decide +kernel
  have hsteps : s.connection.stepsToEnd ≤ times.length := by decide +kernel
  -- the two runs are compared as they are written, not by what they come to
  with_reducible
    obtain ⟨_, hexited, hnoted, _⟩ := close_drains driver timing () actions times hopen hsteps
    exact ⟨⟨hopen, hsteps⟩, hexited, hnoted, by decide +kernel, by decide +kernel,
      by decide +kernel, by decide +kernel⟩

end ScriptBridge
