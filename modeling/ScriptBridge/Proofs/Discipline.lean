import Mathlib.Data.List.Basic
import ScriptBridge.Proofs.Sessions

/-!
# How a worker treats its driver

A driver may rely on an order of calls. It is asked to connect only while there is no connection,
and anything else only while there is one. A connection is closed once: after it stopped answering,
or as the last thing of all. The worker keeps a flag for this and publishes a state, and both have
to be in step with what the driver was really asked.

**The calls as the measure.** `isOpen` reads off the calls whether a connection is open. It knows
nothing of the worker. The invariant says that the flag agrees with it, and the published state
too, in every phase.

**Attempts.** The worker connects with the first request for ever. Each answer of the driver becomes
one message, which is with the worker, in the queue, or delivered.
-/

namespace ScriptBridge

/-! ## The discipline -/

namespace DriverCall

def isConnect : DriverCall → Bool
  | .connect _ _ => true
  | _ => false

def isClose : DriverCall → Bool
  | .close => true
  | _ => false

/-- Whether a connection is open after a call. -/
def leavesOpen (before : Bool) : DriverCall → Bool
  | .connect _ (.ok ()) => true
  | .close => false
  | _ => before

/-- The message that a call stands for. -/
def attempt? : DriverCall → Option ConnectionAttempt
  | .connect request (.ok ()) => some ⟨request.id, true, 0, ""⟩
  | .connect request (.error e) => some ⟨request.id, false, e.code, e.message⟩
  | _ => none

end DriverCall

/-- **Whether a connection is open** after calls of the driver. -/
def isOpen (calls : List DriverCall) : Bool := calls.foldl DriverCall.leavesOpen false

theorem isOpen_append (calls more : List DriverCall) :
    isOpen (calls ++ more) = more.foldl DriverCall.leavesOpen (isOpen calls) :=
  List.foldl_append

/-- **When a driver may be called**, with the calls before and after. A close follows a failed ping or is
the last call of a worker that has ended. -/
def DriverCall.Permitted (before after : List DriverCall) (ended : Prop) : DriverCall → Prop
  | .connect _ _ => isOpen before = false
  | .ping _ => isOpen before = true
  | .query _ _ _ => isOpen before = true
  | .close => isOpen before = true
      ∧ ((∃ e, before.getLast? = some (.ping (.error e))) ∨ (after = [] ∧ ended))

/-- **Calls in a permitted order.** -/
def Disciplined (ended : Prop) (calls : List DriverCall) : Prop :=
  ∀ (before after : List DriverCall) (call : DriverCall), calls = before ++ call :: after →
    call.Permitted before after ended

theorem DriverCall.Permitted.imp {before after after' : List DriverCall} {ended ended' : Prop}
    {call : DriverCall} (h : call.Permitted before after ended)
    (himp : after = [] ∧ ended → after' = [] ∧ ended') : call.Permitted before after' ended' := by
  cases call with
  | close => exact ⟨h.1, h.2.imp_right himp⟩
  | _ => exact h

/-- Calls in order and one more that is permitted are in order. A worker that calls has not ended. -/
theorem Disciplined.snoc {ended ended' : Prop} {calls : List DriverCall} {call : DriverCall}
    (h : Disciplined ended calls) (hended : ¬ ended) (hcall : call.Permitted calls [] ended') :
    Disciplined ended' (calls ++ [call]) := by
  intro before after other heq
  rcases List.eq_nil_or_concat after with rfl | ⟨after, last, rfl⟩
  · obtain ⟨rfl, hlast⟩ := List.append_inj' heq rfl
    obtain rfl : call = other := List.singleton_inj.mp hlast
    exact hcall
  · have hassoc : calls ++ [call] = (before ++ other :: after) ++ [last] := by simpa using heq
    have hinit := (List.append_inj' hassoc rfl).1
    exact (h before after other hinit).imp fun hlast => absurd hlast.2 hended

theorem Disciplined.mono {ended ended' : Prop} {calls : List DriverCall}
    (h : Disciplined ended calls) (himp : ended → ended') : Disciplined ended' calls :=
  fun before after call heq => (h before after call heq).imp (And.imp_right himp)

/-- While there is no connection nothing but a connect is permitted. -/
theorem Disciplined.nil_of_closed {ended : Prop} {before segment after : List DriverCall}
    (h : Disciplined ended (before ++ segment ++ after)) (hclosed : isOpen before = false)
    (hsegment : ∀ call ∈ segment, call.isConnect = false) : segment = [] := by
  cases segment with
  | nil => rfl
  | cons call segment =>
      have hcall := h before (segment ++ after) call (by simp)
      have hconnect := hsegment call List.mem_cons_self
      cases call with
      | connect _ _ => exact absurd hconnect (by simp [DriverCall.isConnect])
      | ping _ => exact absurd (hcall.symm.trans hclosed) (by decide)
      | query _ _ _ => exact absurd (hcall.symm.trans hclosed) (by decide)
      | close => exact absurd (hcall.1.symm.trans hclosed) (by decide)

/-- **Between two connects there is at most one close.** -/
theorem Disciplined.closes_le_one {ended : Prop} :
    ∀ {segment before after : List DriverCall}, Disciplined ended (before ++ segment ++ after) →
      (∀ call ∈ segment, call.isConnect = false) → segment.countP (·.isClose) ≤ 1
  | [], _, _, _, _ => Nat.zero_le _
  | call :: segment, before, after, h, hsegment => by
      have hnext : before ++ (call :: segment) ++ after = (before ++ [call]) ++ segment ++ after := by
        simp
      rw [hnext] at h
      have hrest : ∀ call ∈ segment, call.isConnect = false :=
        fun other hother => hsegment other (List.mem_cons_of_mem _ hother)
      cases call with
      | close =>
          -- nothing is open behind it, and nothing in the segment opens anything
          have hclosed : isOpen (before ++ [.close]) = false := isOpen_append before [.close]
          rw [h.nil_of_closed hclosed hrest]
          exact Nat.le_refl _
      | _ => exact h.closes_le_one hrest

/-! ## The worker's view -/

namespace Worker

/-- Whether a worker has a connection. One that has ended has none. -/
def hasConnection (worker : Worker) : Bool :=
  match worker.phase with
  | .exited => false
  | _ => worker.connected

/-- The state that is published in a phase. -/
def published (worker : Worker) : ConnectionState :=
  match worker.phase with
  | .connecting _ => .connecting
  | .exited => .closed
  | _ => if worker.connected then .connected else .disconnected

/-- The message of an attempt that a worker has still to report. -/
def unreported (worker : Worker) : List ConnectionAttempt :=
  match worker.phase with
  | .reporting attempt => [attempt]
  | _ => []

/-- **What a phase takes for granted.** -/
def Consistent (worker : Worker) : Prop :=
  match worker.phase with
  | .connecting request => worker.connected = false ∧ worker.request = some request
  | .pinging => worker.connected = true
  | .dropping => worker.connected = true
  | .running _ _ => worker.connected = true
  | .closing => worker.connected = true
  | _ => True

/-- A state is published as closed by a worker that has ended. -/
theorem exited_of_published {worker : Worker} (h : worker.published = .closed) :
    worker.phase = .exited := by
  unfold published at h
  split at h
  · exact absurd h (by simp)
  · assumption
  · split at h <;> exact absurd h (by simp)

theorem unreported_length_le (worker : Worker) : worker.unreported.length ≤ 1 := by
  unfold unreported
  cases worker.phase <;> simp

namespace Moves

variable {limit : Nat} {worker worker' : Worker} {m m' : Mailbox} {call : Option DriverCall}

theorem consistent (h : worker.Moves limit m call worker' m') (hc : worker.Consistent) :
    worker'.Consistent := by
  unfold Consistent at *
  cases h with
  | attempt _ hrequest hconnected => exact ⟨hconnected, hrequest⟩
  | check _ hconnected => exact hconnected
  | pick _ hconnected _ => exact hconnected
  | lost hphase => rw [hphase] at hc; exact hc
  | next _ hconnected _ _ => exact hconnected
  | finish _ hconnected _ => exact hconnected
  | stay _ => exact hc
  | _ => trivial

/-- **Requests to connect** are with the worker, the first one, or wait. -/
theorem connects (h : worker.Moves limit m call worker' m') :
    worker'.request.toList ++ m'.connects = worker.request.toList ++ m.connects := by
  cases h with
  | take _ hrequest hconnects => rw [hrequest, hconnects]; rfl
  | @answered query answer _ => cases answer <;> rfl
  | _ => rfl

/-- The request of a worker stays, once it has one. -/
theorem request (h : worker.Moves limit m call worker' m') {request : ConnectRequest}
    (hrequest : worker.request = some request) : worker'.request = some request := by
  cases h with
  | take _ hnone _ => exact absurd (hrequest.symm.trans hnone) (by simp)
  | _ => exact hrequest

/-- **Each attempt is reported once**, and in order. -/
theorem attempts (h : worker.Moves limit m call worker' m') :
    m'.attempts ++ worker'.unreported =
      m.attempts ++ worker.unreported ++ call.toList.filterMap (·.attempt?) := by
  unfold unreported
  cases h with
  | @answered query answer hphase => cases answer <;> simp [hphase, reported, DriverCall.attempt?]
  | stay hphase => simp [hphase]
  | _ hphase => simp [hphase, DriverCall.attempt?]

/-- The flag of the worker follows the calls. -/
theorem hasConnection (h : worker.Moves limit m call worker' m') {calls : List DriverCall}
    (hopen : isOpen calls = worker.hasConnection) :
    isOpen (calls ++ call.toList) = worker'.hasConnection := by
  rw [isOpen_append, hopen]
  unfold Worker.hasConnection
  cases h with
  | leave hphase hconnected => simp [hphase, hconnected]
  | stay hphase => simp [hphase]
  | _ hphase => simp [hphase, DriverCall.leavesOpen]

/-- **A call is permitted** where the worker makes it. -/
theorem permitted (h : worker.Moves limit m call worker' m') (hc : worker.Consistent)
    {calls : List DriverCall} (hopen : isOpen calls = worker.hasConnection)
    (hlost : worker.phase = .dropping → ∃ e, calls.getLast? = some (.ping (.error e))) :
    ∀ c ∈ call.toList, c.Permitted calls [] (worker'.phase = .exited) := by
  unfold Worker.hasConnection Consistent at *
  cases h with
  | drop hphase =>
      rw [hphase] at hc hopen
      exact List.forall_mem_singleton.mpr ⟨hopen.trans hc, Or.inl (hlost hphase)⟩
  | close hphase =>
      rw [hphase] at hc hopen
      exact List.forall_mem_singleton.mpr ⟨hopen.trans hc, Or.inr ⟨rfl, rfl⟩⟩
  | opened hphase =>
      rw [hphase] at hc hopen
      exact List.forall_mem_singleton.mpr (hopen.trans hc.1)
  | refused hphase =>
      rw [hphase] at hc hopen
      exact List.forall_mem_singleton.mpr (hopen.trans hc.1)
  | alive hphase =>
      rw [hphase] at hc hopen
      exact List.forall_mem_singleton.mpr (hopen.trans hc)
  | lost hphase =>
      rw [hphase] at hc hopen
      exact List.forall_mem_singleton.mpr (hopen.trans hc)
  | answered hphase =>
      rw [hphase] at hc hopen
      exact List.forall_mem_singleton.mpr (hopen.trans hc)
  | silent hphase =>
      rw [hphase] at hc hopen
      exact List.forall_mem_singleton.mpr (hopen.trans hc)
  | _ => exact fun c hc => absurd hc (by simp)

/-- **The published state follows the phase.** -/
theorem published (h : worker.Moves limit m call worker' m') (hc : worker.Consistent)
    (hstate : m.state = worker.published) : m'.state = worker'.published := by
  unfold Worker.published Consistent at *
  cases h with
  | refused hphase => rw [hphase] at hc; simp [hc.1]
  | @answered query answer hphase =>
      rw [hphase] at hstate
      cases answer <;> exact hstate
  | stay _ => exact hstate
  | _ hphase => simp [hphase] at hstate ⊢ <;> assumption

/-- A worker gives up a connection only after a ping that failed. -/
theorem lost_of_dropping (h : worker.Moves limit m call worker' m')
    (hphase' : worker'.phase = .dropping) : ∃ e, call = some (.ping (.error e)) := by
  cases h with
  | lost _ => exact ⟨_, rfl⟩
  | stay hphase => exact absurd (hphase.symm.trans hphase') (by decide)
  | _ => exact absurd hphase' (by simp)

/-- A worker that has ended does nothing any more. -/
theorem of_exited (h : worker.Moves limit m call worker' m') (hphase : worker.phase = .exited) :
    call = none ∧ worker' = worker ∧ m' = m := by
  cases h with
  | stay _ => exact ⟨rfl, rfl, rfl⟩
  | _ hother => exact absurd (hphase.symm.trans hother) (by simp)

/-- A worker connects with the request that it has. -/
theorem of_connect (h : worker.Moves limit m call worker' m') (hc : worker.Consistent)
    {request : ConnectRequest} {answer : Except DriverError Unit}
    (hcall : call = some (.connect request answer)) : worker.request = some request := by
  unfold Consistent at hc
  cases h with
  | opened hphase =>
      rw [hphase] at hc
      rw [hc.2, (DriverCall.connect.inj (Option.some.inj hcall)).1]
  | refused hphase =>
      rw [hphase] at hc
      rw [hc.2, (DriverCall.connect.inj (Option.some.inj hcall)).1]
  | _ => exact absurd hcall (by simp)

/-- The state becomes connected only from connecting. -/
theorem to_connected (h : worker.Moves limit m call worker' m')
    (hstate : m.state = worker.published) (hconnected : m'.state = .connected) :
    m.state = .connected ∨ m.state = .connecting := by
  unfold Worker.published at hstate
  cases h with
  | opened hphase =>
      rw [hphase] at hstate
      exact Or.inr hstate
  | @answered query answer _ => cases answer <;> exact Or.inl hconnected
  | attempt _ _ _ => exact absurd hconnected (by simp)
  | refused _ => exact absurd hconnected (by simp)
  | drop _ => exact absurd hconnected (by simp)
  | leave _ _ => exact absurd hconnected (by simp)
  | close _ => exact absurd hconnected (by simp)
  | _ => exact Or.inl hconnected

end Moves

end Worker

/-! ## The invariant -/

namespace Session

variable {W : Type}

/-- **The stream of attempts**: those that were delivered and then those that still wait. -/
def attempts (s : Session W) : List ConnectionAttempt :=
  s.delivered.filterMap (·.attempt?) ++ s.connection.mailbox.attempts

/-- **The worker, the published state and the driver are in step.** -/
structure InStep (s : Session W) : Prop where
  consistent : s.connection.worker.Consistent
  hasConnection : isOpen s.calls = s.connection.worker.hasConnection
  published : s.connection.mailbox.state = s.connection.worker.published
  disciplined : Disciplined (s.connection.worker.phase = .exited) s.calls
  /-- A connection is given up only after a ping that failed. -/
  lost : s.connection.worker.phase = .dropping →
    ∃ e, s.calls.getLast? = some (.ping (.error e))
  /-- The worker has the first request, and connects with no other. -/
  connects : s.connects = s.connection.worker.request.toList ++ s.connection.mailbox.connects
  request : ∀ {request answer}, .connect request answer ∈ s.calls →
    s.connection.worker.request = some request
  attempts : s.attempts ++ s.connection.worker.unreported = s.calls.filterMap (·.attempt?)

theorem inStep_start (timing : Timing) (w : W) : InStep (start timing w) where
  consistent := trivial
  hasConnection := rfl
  published := rfl
  disciplined before after call heq := absurd heq (by simp [start])
  lost := nofun
  connects := rfl
  request := nofun
  attempts := rfl

/-- A move of the worker keeps the calls in order. -/
theorem InStep.disciplined_move {s : Session W} (h : InStep s) {limit : Nat}
    {call : Option DriverCall} {worker : Worker} {m : Mailbox}
    (hmove : s.connection.worker.Moves limit s.connection.mailbox call worker m) :
    Disciplined (worker.phase = .exited) (s.calls ++ call.toList) := by
  have hpermitted := hmove.permitted h.consistent h.hasConnection h.lost
  by_cases hphase : s.connection.worker.phase = .exited
  · obtain ⟨rfl, rfl, rfl⟩ := hmove.of_exited hphase
    rw [Option.toList_none, List.append_nil]
    exact h.disciplined
  · cases call with
    | none =>
        rw [Option.toList_none, List.append_nil]
        exact h.disciplined.mono fun hexited => absurd hexited hphase
    | some call => exact h.disciplined.snoc hphase (hpermitted call List.mem_cons_self)

/-- **Every step keeps them in step.** -/
theorem InStep.step {s s' : Session W} (h : InStep s) (hs : s.Step s') : InStep s' := by
  cases hs with
  | refused _ => exact h
  | connect info hopen =>
      rw [Connection.connect_open hopen]
      refine ⟨h.consistent, h.hasConnection, h.published, h.disciplined, h.lost, ?_, h.request,
        h.attempts⟩
      show s.connects ++ [_] = _ ++ (s.connection.mailbox.connects ++ [_])
      rw [h.connects, List.append_assoc]
  | query text hopen =>
      rw [Connection.query_open hopen]
      exact ⟨h.consistent, h.hasConnection, h.published, h.disciplined, h.lost, h.connects,
        h.request, h.attempts⟩
  | take queue =>
      have hstreams := s.connection.takeFrom_streams queue
      rw [s.connection.takeFrom_other queue]
      refine ⟨h.consistent, h.hasConnection, h.published, h.disciplined, h.lost, h.connects,
        h.request, ?_⟩
      rw [← h.attempts]
      unfold Session.attempts
      rw [List.filterMap_append, List.append_assoc (List.filterMap _ s.delivered), hstreams.1]
  | close hopen =>
      exact ⟨h.consistent, h.hasConnection, h.published, h.disciplined, h.lost, h.connects,
        h.request, h.attempts⟩
  | @work call worker m w hmove =>
      refine ⟨hmove.consistent h.consistent, hmove.hasConnection h.hasConnection,
        hmove.published h.consistent h.published, h.disciplined_move hmove, ?_, ?_, ?_, ?_⟩
      · intro hphase
        obtain ⟨e, rfl⟩ := hmove.lost_of_dropping hphase
        exact ⟨e, List.getLast?_concat⟩
      · exact h.connects.trans hmove.connects.symm
      · intro request answer hmem
        rcases List.mem_append.mp hmem with hmem | hmem
        · exact hmove.request (h.request hmem)
        · exact hmove.request (hmove.of_connect h.consistent (Option.mem_toList.mp hmem))
      · have hattempts := congrArg (s.delivered.filterMap (·.attempt?) ++ ·) hmove.attempts
        show s.delivered.filterMap _ ++ m.attempts ++ _ = (s.calls ++ call.toList).filterMap _
        rw [List.filterMap_append, ← h.attempts, List.append_assoc, hattempts]
        simp only [Session.attempts, List.append_assoc]

theorem inStep_run (driver : DatabaseDriver W) (timing : Timing) (w : W)
    (actions : List SessionAction) : InStep ((start timing w).run driver actions) :=
  run_invariant InStep.step driver actions (inStep_start timing w)

/-! ## The published state -/

/-- The state becomes connected only from connecting, whatever happens. -/
theorem InStep.to_connected {s s' : Session W} (h : InStep s) (hs : s.Step s')
    (hconnected : s'.connection.state = .connected) :
    s.connection.state = .connected ∨ s.connection.state = .connecting := by
  unfold Connection.state at *
  cases hs with
  | refused _ => exact Or.inl hconnected
  | connect info hopen =>
      rw [Connection.connect_open hopen] at hconnected
      exact Or.inl hconnected
  | query text hopen =>
      rw [Connection.query_open hopen] at hconnected
      exact Or.inl hconnected
  | take queue =>
      rw [s.connection.takeFrom_other queue] at hconnected
      exact Or.inl hconnected
  | close _ => exact Or.inl hconnected
  | work _ hmove => exact hmove.to_connected h.published hconnected

theorem InStep.closed_step {s s' : Session W} (h : InStep s) (hs : s.Step s')
    (hclosed : s.connection.state = .closed) : s'.connection.state = .closed := by
  unfold Connection.state at *
  cases hs with
  | refused _ => exact hclosed
  | connect info hopen => rw [Connection.connect_open hopen]; exact hclosed
  | query text hopen => rw [Connection.query_open hopen]; exact hclosed
  | take queue => rw [s.connection.takeFrom_other queue]; exact hclosed
  | close _ => exact hclosed
  | work _ hmove =>
      -- only a worker that has ended publishes this
      have hphase := Worker.exited_of_published (h.published.symm.trans hclosed)
      rw [(hmove.of_exited hphase).2.2]
      exact hclosed

/-- **A closed connection stays closed.** -/
theorem InStep.closed_run {s : Session W} (h : InStep s) (driver : DatabaseDriver W)
    (actions : List SessionAction) (hclosed : s.connection.state = .closed) :
    (s.run driver actions).connection.state = .closed :=
  (@run_invariant W (fun s => InStep s ∧ s.connection.state = .closed)
    (fun h hs => ⟨h.1.step hs, h.1.closed_step hs h.2⟩) driver actions s ⟨h, hclosed⟩).2

end Session

/--
**A worker treats its driver as it should**, whatever the other side does, whatever the driver
answers and whatever the clock shows.

The driver is asked to connect only while no connection is open, and everything else only while
one is. A connection is closed after a ping that failed, or as the last call before the worker
ends, and at most once before the next is made. Each attempt to connect is made with the first
request, and each becomes one message, in order; one at most is still with the worker. At the head
of the loop the published state says whether a connection is open. It becomes connected only
through connecting, and once it is closed it stays so.
-/
theorem driver_discipline {W : Type} (driver : DatabaseDriver W) (timing : Timing) (w : W)
    (actions : List SessionAction) :
    let s := (Session.start timing (w, [])).run driver.noted actions
    let state := s.connection.state
    s.world.2 = s.calls.map (·.command)
      ∧ Disciplined (s.connection.worker.phase = .exited) s.calls
      ∧ (∀ before segment after, s.calls = before ++ segment ++ after →
        (∀ call ∈ segment, call.isConnect = false) → segment.countP (·.isClose) ≤ 1)
      ∧ s.attempts ++ s.connection.worker.unreported = s.calls.filterMap (·.attempt?)
      ∧ s.connection.worker.unreported.length ≤ 1
      ∧ (∀ request answer, .connect request answer ∈ s.calls → s.connects.head? = some request)
      ∧ (s.connection.worker.phase = .top →
        state = if isOpen s.calls then .connected else .disconnected)
      ∧ (∀ action, (s.act driver.noted action).connection.state = .connected →
        state = .connected ∨ state = .connecting)
      ∧ (state = .closed → ∀ more, (s.run driver.noted more).connection.state = .closed) := by
  intro s state
  have h : s.InStep := Session.inStep_run driver.noted timing (w, []) actions
  refine ⟨Session.run_noted driver actions rfl, h.disciplined, ?_, h.attempts,
    s.connection.worker.unreported_length_le, ?_, ?_, ?_,
    fun hclosed more => h.closed_run driver.noted more hclosed⟩
  · intro before segment after hcalls hsegment
    have hdisciplined := h.disciplined
    rw [hcalls] at hdisciplined
    exact hdisciplined.closes_le_one hsegment
  · intro request answer hmem
    rw [h.connects, h.request hmem]
    rfl
  · intro hphase
    have hopen := h.hasConnection
    have hpublished : state = s.connection.worker.published := h.published
    unfold Worker.hasConnection at hopen
    unfold Worker.published at hpublished
    rw [hphase] at hopen hpublished
    rw [hpublished, hopen]
  · exact fun action hconnected => h.to_connected (Session.act_step driver.noted s action) hconnected

end ScriptBridge
