import ScriptBridge.Proofs.Dispatch
import ScriptBridge.Proofs.Told

/-!
# Calls that wait for a frame

A deferred call is forwarded at once and delivered later. Until then it waits in the bridge, and
meanwhile the bag that its arguments were read into serves other executions, programs are removed and
others are announced. None of this touches what waits.

**Accounts.** `BridgeRun.deferredAlong` lists the calls that a sequence of operations defers, each with
the bag that was read for it. What a host got delivered and what still waits are, together and in this
order, all that was ever deferred: nothing is lost, doubled or overtaken. Since a frame leaves nothing
behind, a frame delivers exactly the calls that were deferred since the one before.

**Turns.** After the calls a frame tells what the connections report. The connections stand in the
order of their numbers, which is an invariant of all that a host and the workers can do, and each of
them gives at most one result of each kind.
-/

namespace ScriptBridge

variable {F H W : Type}

/-! ## The order of connections -/

namespace Connections

theorem fst_of_mem_place {id : ConnectionId} {connection : Connection}
    {entry : ConnectionId × Connection} {entries : List (ConnectionId × Connection)}
    (h : entry ∈ place id connection entries) : entry.1 = id ∨ entry ∈ entries := by
  induction entries with
  | nil => exact .inl (congrArg Prod.fst (List.mem_singleton.mp h))
  | cons first rest ih =>
      unfold place at h
      split at h
      · rcases List.mem_cons.mp h with rfl | hrest
        · exact .inl rfl
        · exact .inr (List.mem_cons_of_mem _ hrest)
      · split at h
        · rcases List.mem_cons.mp h with rfl | hrest
          · exact .inl rfl
          · exact .inr hrest
        · rcases List.mem_cons.mp h with rfl | hrest
          · exact .inr List.mem_cons_self
          · exact (ih hrest).imp_right (List.mem_cons_of_mem _)

theorem place_pairwise {id : ConnectionId} {connection : Connection}
    {entries : List (ConnectionId × Connection)} (h : entries.Pairwise (·.1 < ·.1)) :
    (place id connection entries).Pairwise (·.1 < ·.1) := by
  induction entries with
  | nil => exact List.pairwise_singleton _ _
  | cons first rest ih =>
      obtain ⟨hfirst, hrest⟩ := List.pairwise_cons.mp h
      unfold place
      split
      · rename_i heq
        subst heq
        exact List.pairwise_cons.mpr ⟨hfirst, hrest⟩
      · rename_i hne
        split
        · rename_i hlt
          refine List.pairwise_cons.mpr ⟨fun entry hentry => ?_, h⟩
          rcases List.mem_cons.mp hentry with rfl | hentry
          · exact hlt
          · exact UInt32.lt_trans hlt (hfirst entry hentry)
        · rename_i hge
          -- the new entry comes somewhere after the first, whose number is smaller
          have hlt : first.1 < id := UInt32.lt_of_le_of_ne (UInt32.not_lt.mp hge) hne
          refine List.pairwise_cons.mpr ⟨fun entry hentry => ?_, ih hrest⟩
          rcases fst_of_mem_place hentry with heq | hentry
          · rw [heq]
            exact hlt
          · exact hfirst entry hentry

theorem takeAll_numbers (entries : List (ConnectionId × Connection)) :
    (takeAll entries).2.map Prod.fst = entries.map Prod.fst := by
  induction entries with
  | nil => rfl
  | cons first rest ih => exact congrArg (first.1 :: ·) ih

/-- **The connections stand in the order of their numbers**, and no two have the same. -/
def InOrder (c : Connections) : Prop := c.entries.Pairwise (·.1 < ·.1)

namespace InOrder

variable {c : Connections}

theorem set (h : c.InOrder) (id : ConnectionId) (connection : Connection) :
    (c.set id connection).InOrder :=
  place_pairwise h

theorem openWith (h : c.InOrder) (info : ConnectionInfo) : (c.openWith info).2.InOrder := by
  unfold Connections.openWith
  dsimp only
  split
  · exact h
  · exact h.set _ _

theorem query (h : c.InOrder) (id : ConnectionId) (text : String) :
    (c.query id text).2.InOrder := by
  unfold Connections.query
  split
  · exact h
  · exact h.set _ _

theorem takeUpdates (h : c.InOrder) : c.takeUpdates.2.InOrder := by
  have hnumbers : ((takeAll c.entries).2.map Prod.fst).Pairwise (· < ·) := by
    rw [takeAll_numbers]
    exact List.pairwise_map.mpr h
  exact List.pairwise_map.mp hnumbers

theorem close (h : c.InOrder) (driver : ConnectionId → DatabaseDriver W) (now : W → Nat)
    (id : ConnectionId) (w : W) : (c.close driver now id w).2.1.InOrder := by
  unfold Connections.close
  split
  · exact h
  · exact List.Pairwise.filter _ h

theorem step (h : c.InOrder) (driver : ConnectionId → DatabaseDriver W) (now : W → Nat)
    (id : ConnectionId) (w : W) : (c.step driver now id w).1.InOrder := by
  unfold Connections.step
  split
  · exact h
  · exact h.set _ _

/-! Nothing that a host does, and nothing that it is told of, disturbs the order. -/

variable (env : Environment F H W) (host : Host H W)

theorem perform {context : Context F H} (h : context.connections.InOrder) (action : HostAction H)
    (w : W) : (context.perform env action w).2.1.connections.InOrder := by
  cases action with
  | provide name signature handler =>
      show (context.provide name signature handler).2.connections.InOrder
      unfold Context.provide
      split <;> exact h
  | openConnection info => exact h.openWith info
  | query id text => exact h.query id text
  | closeConnection id => exact h.close env.driver env.now id w
  | _ => exact h

theorem plan {α : Type} (plan : Plan H W α) {context : Context F H} (w : W)
    (h : context.connections.InOrder) : (plan.run env context w).2.1.connections.InOrder := by
  induction plan generalizing context w with
  | done answer => exact h
  | act action next ih => exact ih _ _ (h.perform env action w)
  | change effect next ih => exact ih _ h
  | look next ih => exact ih w _ h

theorem tellAll (events : List HostEvent) {s : Bridge.Stage F H W}
    (h : s.context.connections.InOrder) :
    (Bridge.tellAll env host events s).context.connections.InOrder := by
  induction events generalizing s with
  | nil => exact h
  | cons event rest ih => exact ih (h.plan env (host event) s.world)

theorem heard (report : Report) {s : Bridge.Stage F H W} (h : s.context.connections.InOrder) :
    ((Bridge.delegate env host).heard s report).context.connections.InOrder := by
  cases report with
  | programChanged program =>
      have hset : ({ s.context with publics := s.context.publics.setProgram program } :
          Context F H).connections.InOrder := h
      exact hset.plan env (host (.programChanged program)) s.world
  | playerUpdate player => exact h.plan env (host (.playerUpdate player)) s.world
  | intercepted callback arguments answer =>
      unfold Bridge.delegate Delegate.heard
      dsimp only
      split
      · exact h
      · exact h.plan env (host (.callback callback arguments)) s.world

theorem reports (reports : List Report) {s : Bridge.Stage F H W}
    (h : s.context.connections.InOrder) :
    (reports.foldl (Bridge.delegate env host).heard s).context.connections.InOrder := by
  induction reports generalizing s with
  | nil => exact h
  | cons report rest ih => exact ih (h.heard env host report)

/-- **Every operation keeps the order.** -/
theorem act {r : BridgeRun F H W} (h : r.bridge.context.connections.InOrder)
    (action : BridgeAction F H W) :
    (r.act env host action).bridge.context.connections.InOrder := by
  cases action with
  | execute program index =>
      have hleft := InOrder.reports env host (r.reports env host program index)
        (s := r.bridge.stage r.world) h
      rw [← (r.execution_acts env host program index).heard] at hleft
      rw [BridgeRun.act_execute]
      exact hleft
  | unloaded program =>
      rw [BridgeRun.act_unloaded]
      show (r.bridge.onProgramUnloaded env host program r.world).1.context.connections.InOrder
      unfold Bridge.onProgramUnloaded
      split
      · exact h
      · exact InOrder.heard env host (.programChanged none) (s := r.bridge.stage r.world) h
  | frame =>
      have htaken : (⟨{ r.bridge.context with
          connections := r.bridge.context.connections.takeUpdates.2 }, [], r.world⟩ :
          Bridge.Stage F H W).context.connections.InOrder := h.takeUpdates
      rw [BridgeRun.act_frame]
      exact htaken.tellAll env host _
  | context plan =>
      rw [BridgeRun.act_context]
      exact h.plan env plan r.world
  | work connection => exact h.step env.driver env.now connection r.world
  | _ => exact h

theorem run (actions : List (BridgeAction F H W)) {r : BridgeRun F H W}
    (h : r.bridge.context.connections.InOrder) :
    (r.run env host actions).bridge.context.connections.InOrder := by
  induction actions generalizing r with
  | nil => exact h
  | cons action rest ih => exact ih (h.act env host action)

end InOrder

end Connections

/-! ## The turns of updates -/

/-- The place of a result among those of its connection. -/
def ConnectionUpdate.turn : ConnectionUpdate → Nat
  | .attempted _ => 0
  | .succeeded _ => 1
  | .failed _ => 2

/-- **Updates come in turn**: by increasing number of their connections, and for each connection an
attempt, a success and a failure, at most one of each. -/
def InTurn (updates : List (ConnectionId × ConnectionUpdate)) : Prop :=
  updates.Pairwise fun earlier later =>
    earlier.1 < later.1 ∨ earlier.1 = later.1 ∧ earlier.2.turn < later.2.turn

theorem Connection.takeUpdates_pairwise (c : Connection) :
    c.takeUpdates.1.Pairwise fun earlier later => earlier.turn < later.turn := by
  unfold Connection.takeUpdates
  dsimp only
  rcases c.mailbox.attempts with _ | ⟨attempt, _⟩ <;>
    rcases c.mailbox.succeeded with _ | ⟨success, _⟩ <;>
      rcases c.mailbox.failed with _ | ⟨failure, _⟩ <;>
        simp [ConnectionUpdate.turn]

namespace Connections

theorem takeAll_cons (id : ConnectionId) (connection : Connection)
    (rest : List (ConnectionId × Connection)) :
    (takeAll ((id, connection) :: rest)).1 =
      connection.takeUpdates.1.map (id, ·) ++ (takeAll rest).1 := rfl

theorem number_of_mem_takeAll {entries : List (ConnectionId × Connection)}
    {update : ConnectionId × ConnectionUpdate} (h : update ∈ (takeAll entries).1) :
    ∃ entry ∈ entries, entry.1 = update.1 := by
  induction entries with
  | nil => exact absurd h List.not_mem_nil
  | cons first rest ih =>
      rw [takeAll_cons] at h
      rcases List.mem_append.mp h with hfirst | hrest
      · obtain ⟨result, _, rfl⟩ := List.mem_map.mp hfirst
        exact ⟨first, List.mem_cons_self, rfl⟩
      · obtain ⟨entry, hentry, hnumber⟩ := ih hrest
        exact ⟨entry, List.mem_cons_of_mem _ hentry, hnumber⟩

theorem takeAll_inTurn {entries : List (ConnectionId × Connection)}
    (h : entries.Pairwise (·.1 < ·.1)) : InTurn (takeAll entries).1 := by
  induction entries with
  | nil => exact List.Pairwise.nil
  | cons first rest ih =>
      obtain ⟨hfirst, hrest⟩ := List.pairwise_cons.mp h
      rw [takeAll_cons]
      refine List.pairwise_append.mpr ⟨?_, ih hrest, fun earlier hearlier later hlater => .inl ?_⟩
      · refine List.pairwise_map.mpr (first.2.takeUpdates_pairwise.imp fun hturn => ?_)
        exact .inr ⟨rfl, hturn⟩
      · obtain ⟨result, _, rfl⟩ := List.mem_map.mp hearlier
        obtain ⟨entry, hentry, hnumber⟩ := number_of_mem_takeAll hlater
        rw [← hnumber]
        exact hfirst entry hentry

theorem InOrder.inTurn {c : Connections} (h : c.InOrder) : InTurn c.takeUpdates.1 :=
  takeAll_inTurn h

end Connections

/-! ## What is deferred -/

/-- **An execution defers only what it was offered**, with the bag that was read for it. -/
theorem Interceptor.Acts.deferral {D : Type} {i i' : Interceptor} {program : Program} {index : Cell}
    {delegate : Delegate D} {d d' : D} {decision : Decision} {reports : List Report}
    (h : i.Acts program index delegate d decision i' d' reports) {callback : Callback} {bag : Bag}
    (hdeferral : (callback, bag) ∈ reports.filterMap Report.deferral?) :
    callback.deferred = true ∧ i.Offers program index callback
      ∧ bag.ReadOff program callback.arguments := by
  obtain ⟨report, hreport, hleaves⟩ := List.mem_filterMap.mp hdeferral
  -- only a call leaves something behind, and an execution makes a call only for what it is offered
  have hcall : callback.deferred = true ∧ ∃ answer, report = .intercepted callback bag answer := by
    cases report with
    | programChanged program => exact absurd hleaves (by simp [Report.deferral?])
    | playerUpdate player => exact absurd hleaves (by simp [Report.deferral?])
    | intercepted other arguments answer =>
        unfold Report.deferral? at hleaves
        dsimp only at hleaves
        split at hleaves
        · rename_i hdeferred
          obtain ⟨rfl, rfl⟩ := Prod.mk.inj (Option.some.inj hleaves)
          exact ⟨hdeferred, answer, rfl⟩
        · exact absurd hleaves (by simp)
  obtain ⟨hdeferred, answer, rfl⟩ := hcall
  refine ⟨hdeferred, ?_⟩
  cases h with
  | offers hwatches hother hcallback hholds hbag _ =>
      obtain ⟨rfl, rfl, _⟩ := Report.intercepted.inj (List.mem_singleton.mp hreport)
      exact ⟨hwatches.offers hother hcallback hholds, hbag⟩
  | unloads hwatches hother hcallback hholds hbag _ =>
      rcases List.mem_cons.mp hreport with hfirst | hsecond
      · obtain ⟨rfl, rfl, _⟩ := Report.intercepted.inj hfirst
        exact ⟨hwatches.offers hother hcallback hholds, hbag⟩
      · exact absurd (List.mem_singleton.mp hsecond) (by simp)
  | loads _ _ => exact absurd (List.mem_singleton.mp hreport) (by simp)
  | updates _ _ _ => exact absurd (List.mem_singleton.mp hreport) (by simp)
  | _ => exact absurd hreport List.not_mem_nil

theorem Report.callback_of_mem_events {report : Report} {callback : Callback} {bag : Bag}
    (h : .callback callback bag ∈ report.events) : callback.deferred = false := by
  cases report with
  | programChanged program => exact absurd (List.mem_singleton.mp h) (by simp)
  | playerUpdate player => exact absurd (List.mem_singleton.mp h) (by simp)
  | intercepted other arguments answer =>
      unfold Report.events at h
      dsimp only at h
      split at h
      · exact absurd h List.not_mem_nil
      · rename_i hdeferred
        obtain ⟨rfl, rfl⟩ := HostEvent.callback.inj (List.mem_singleton.mp h)
        exact Bool.eq_false_iff.mpr hdeferred

theorem HostEvent.delivery?_of_not_isOfFrame {event : HostEvent} (h : event.isOfFrame = false) :
    event.delivery? = none := by
  cases event with
  | deferred callback arguments => exact absurd h (by simp [HostEvent.isOfFrame])
  | _ => rfl

theorem Bridge.frameEvents_deliveries (deferred : List (Callback × Bag))
    (updates : List (ConnectionId × ConnectionUpdate)) :
    (frameEvents deferred updates).filterMap HostEvent.delivery? = deferred := by
  have hcalls : (deferred.map fun call => HostEvent.deferred call.1 call.2).filterMap
      HostEvent.delivery? = deferred := by
    rw [List.filterMap_map]
    exact List.filterMap_some
  have hupdates : (updates.map HostEvent.ofUpdate).filterMap HostEvent.delivery? = [] := by
    refine List.filterMap_eq_nil_iff.mpr fun event hevent => ?_
    obtain ⟨⟨connection, update⟩, _, rfl⟩ := List.mem_map.mp hevent
    cases update <;> rfl
  unfold frameEvents
  rw [List.filterMap_append, List.filterMap_append, hcalls, hupdates, List.append_nil]
  exact List.append_nil deferred

/-! ## Accounts -/

/-- **The calls that were delivered late**, in their order. -/
def deliveries (notes : List (HostNote H)) : List (Callback × Bag) :=
  (toldEvents notes).filterMap HostEvent.delivery?

namespace BridgeRun

variable (env : Environment F H W) (host : Host H W)

/-- **The calls that operations defer**, in their order. -/
def deferredAlong : List (BridgeAction F H W) → BridgeRun F H W → List (Callback × Bag)
  | [], _ => []
  | action :: rest, r => r.defers env host action ++ deferredAlong rest (r.act env host action)

theorem run_append (before after : List (BridgeAction F H W)) (r : BridgeRun F H W) :
    r.run env host (before ++ after) = (r.run env host before).run env host after :=
  List.foldl_append

theorem defers_execute (r : BridgeRun F H W) (program : Program) (index : Cell) :
    r.defers env host (.execute program index) =
      (r.reports env host program index).filterMap Report.deferral? := rfl

theorem defers_frame {r : BridgeRun F H W} {action : BridgeAction F H W}
    (h : action.isFrame = true) : r.defers env host action = [] := by
  cases action with
  | frame => rfl
  | _ => exact absurd h Bool.false_ne_true

theorem deliveries_act (r : BridgeRun F H W) (action : BridgeAction F H W) :
    deliveries (r.act env host action).notes = deliveries r.notes
      ++ (r.told env host action).filterMap HostEvent.delivery? := by
  unfold deliveries
  rw [act_notes, toldEvents_append, List.filterMap_append]
  rfl

theorem deliveries_told (r : BridgeRun F H W) (action : BridgeAction F H W) :
    (r.told env host action).filterMap HostEvent.delivery? =
      if action.isFrame then r.bridge.deferred else [] := by
  cases hframe : action.isFrame with
  | true =>
      cases action with
      | frame =>
          rw [told_frame, Bridge.frameEvents_deliveries, if_pos rfl]
      | _ => exact absurd hframe Bool.false_ne_true
  | false =>
      rw [if_neg Bool.false_ne_true]
      refine List.filterMap_eq_nil_iff.mpr fun event hevent => ?_
      exact HostEvent.delivery?_of_not_isOfFrame (isOfFrame_told env host hframe hevent)

/-- **What was delivered and what waits are, in this order, all that was deferred.** -/
theorem account (actions : List (BridgeAction F H W)) (r : BridgeRun F H W) :
    deliveries (r.run env host actions).notes ++ (r.run env host actions).bridge.deferred =
      deliveries r.notes ++ r.bridge.deferred ++ r.deferredAlong env host actions := by
  induction actions generalizing r with
  | nil => exact (List.append_nil _).symm
  | cons action rest ih =>
      have hstep : deliveries (r.act env host action).notes
            ++ (r.act env host action).bridge.deferred =
          deliveries r.notes ++ r.bridge.deferred ++ r.defers env host action := by
        rw [deliveries_act, deliveries_told, act_deferred]
        cases hframe : action.isFrame with
        | true => rw [if_pos rfl, if_pos rfl, defers_frame env host hframe]
        | false =>
            rw [if_neg Bool.false_ne_true, if_neg Bool.false_ne_true, List.append_nil,
              List.append_assoc]
      have hrest := ih (r.act env host action)
      rw [hstep, List.append_assoc] at hrest
      exact hrest

/-- Without a frame everything waits. -/
theorem run_deferred {actions : List (BridgeAction F H W)}
    (h : ∀ action ∈ actions, action.isFrame = false) (r : BridgeRun F H W) :
    (r.run env host actions).bridge.deferred =
      r.bridge.deferred ++ r.deferredAlong env host actions := by
  induction actions generalizing r with
  | nil => exact (List.append_nil _).symm
  | cons action rest ih =>
      have hstep := r.act_deferred env host action
      rw [h action List.mem_cons_self, if_neg Bool.false_ne_true] at hstep
      have hrest := ih (fun other hother => h other (List.mem_cons_of_mem _ hother))
        (r.act env host action)
      rw [hstep, List.append_assoc] at hrest
      exact hrest

theorem callback_told {r : BridgeRun F H W} {action : BridgeAction F H W} {callback : Callback}
    {bag : Bag} (h : .callback callback bag ∈ r.told env host action) :
    callback.deferred = false := by
  rcases told_cases env host h with ⟨_, _, _, report, _, hevent⟩ | hevent | ⟨_, hevent⟩
  · exact Report.callback_of_mem_events hevent
  · exact absurd hevent (by simp)
  · rcases Bridge.mem_frameEvents.mp hevent with ⟨_, _, hcall⟩ | ⟨update, _, hupdate⟩ | hframe
    · exact absurd hcall (by simp)
    · obtain ⟨connection, result⟩ := update
      cases result <;> exact absurd hupdate (by simp [HostEvent.ofUpdate])
    · exact absurd hframe (by simp)

theorem callback_run (actions : List (BridgeAction F H W)) {r : BridgeRun F H W}
    (h : ∀ callback bag, .callback callback bag ∈ toldEvents r.notes → callback.deferred = false) :
    ∀ callback bag, .callback callback bag ∈ toldEvents (r.run env host actions).notes →
      callback.deferred = false := by
  induction actions generalizing r with
  | nil => exact h
  | cons action rest ih =>
      refine ih fun callback bag hevent => ?_
      rw [act_notes, toldEvents_append] at hevent
      rcases List.mem_append.mp hevent with hbefore | hnow
      · exact h callback bag hbefore
      · exact callback_told env host hnow

/-- **An offer is reported first**, and what is reported after it leaves nothing behind. -/
theorem reports_offered {r : BridgeRun F H W} {program : Program} {index : Cell}
    {callback : Callback} (hwatches : r.bridge.interceptor.Watches program index)
    (hoffers : r.bridge.interceptor.Offers program index callback) :
    ∃ (bag : Bag) (rest : List Report), bag.ReadOff program callback.arguments
      ∧ let answer := ((Bridge.delegate env host).intercepted callback bag
          (r.bridge.stage r.world)).1
        (r.bridge.onExecute env host program index r.world).1 = Interceptor.decide callback answer
          ∧ r.reports env host program index = .intercepted callback bag answer :: rest
          ∧ rest.filterMap Report.deferral? = [] := by
  obtain ⟨bag, hbag, hdecision, hreports⟩ := hoffers.offered hwatches.installed hwatches.inside
    (Bridge.delegate env host) (r.bridge.stage r.world)
  rcases hreports with ⟨_, _, hreports⟩ | ⟨_, _, hreports⟩
  · exact ⟨bag, [], hbag, hdecision, hreports, rfl⟩
  · exact ⟨bag, [.programChanged none], hbag, hdecision, hreports, rfl⟩

/-- **A deferred call is forwarded and waits**, with the bag that was read for it. -/
theorem defers_offered {r : BridgeRun F H W} {program : Program} {index : Cell}
    {callback : Callback} (hwatches : r.bridge.interceptor.Watches program index)
    (hoffers : r.bridge.interceptor.Offers program index callback)
    (hdeferred : callback.deferred = true) :
    (r.bridge.onExecute env host program index r.world).1 = .forward
      ∧ ∃ bag : Bag, bag.ReadOff program callback.arguments
        ∧ r.defers env host (.execute program index) = [(callback, bag)] := by
  obtain ⟨bag, rest, hbag, hdecision, hreports, hrest⟩ :=
    reports_offered env host hwatches hoffers
  -- a bridge answers for a deferred call without asking its host
  have hanswer : ((Bridge.delegate env host).intercepted callback bag
      (r.bridge.stage r.world)).1 = false := congrArg Prod.fst (if_pos hdeferred)
  rw [hanswer] at hdecision hreports
  have hleaves : (Report.intercepted callback bag false).deferral? = some (callback, bag) :=
    if_pos hdeferred
  refine ⟨hdecision, bag, hbag, ?_⟩
  rw [defers_execute, hreports, List.filterMap_cons_some hleaves, hrest]

end BridgeRun

/--
**A deferred call is delivered exactly once, in the next frame, in its turn and with its own
arguments.** Whatever is asked of a bridge, in whatever order, and whatever its host does:

* an execution that is offered for a deferred callback is forwarded, cancelable or not, and leaves one
  call behind, with a bag that was read off its stack; no other calls are ever left behind;
* a host is not told of a deferred call when it is made;
* a frame delivers the calls that were deferred since the frame before it, or ever if it is the first,
  in the order of the executions; then come the updates of the connections in turn; then the host is
  told of the frame, once. Nothing else is told by a frame, and none of this outside of one;
* all deliveries so far and the calls that wait are, in this order, all that was deferred.
-/
theorem deferred_calls_delivered_once (env : Environment F H W) (host : Host H W)
    (settings : Settings) (callbacks : CallbackTable) (natives : List String) (w : W)
    (actions : List (BridgeAction F H W)) :
    let fresh : BridgeRun F H W := .start settings callbacks natives w
    let r := fresh.run env host actions
    (∀ (program : Program) (index : Cell) (callback : Callback),
        r.bridge.interceptor.Watches program index →
        r.bridge.interceptor.Offers program index callback → callback.deferred = true →
        (r.bridge.onExecute env host program index r.world).1 = .forward
          ∧ ∃ bag : Bag, bag.ReadOff program callback.arguments
            ∧ r.defers env host (.execute program index) = [(callback, bag)])
      ∧ (∀ (program : Program) (index : Cell) (callback : Callback) (bag : Bag),
        (callback, bag) ∈ r.defers env host (.execute program index) →
        callback.deferred = true ∧ r.bridge.interceptor.Offers program index callback
          ∧ bag.ReadOff program callback.arguments)
      ∧ (∀ (callback : Callback) (bag : Bag), .callback callback bag ∈ toldEvents r.notes →
        callback.deferred = false)
      ∧ (∀ before between : List (BridgeAction F H W), actions = before ++ between →
        before = [] ∨ (∃ earlier, before = earlier ++ [.frame]) →
        (∀ action ∈ between, action.isFrame = false) →
        r.told env host .frame =
            ((fresh.run env host before).deferredAlong env host between).map
                (fun call => .deferred call.1 call.2)
              ++ r.bridge.context.connections.takeUpdates.1.map .ofUpdate ++ [.frame]
          ∧ InTurn r.bridge.context.connections.takeUpdates.1)
      ∧ (∀ action : BridgeAction F H W, action.isFrame = false →
        ∀ event ∈ r.told env host action, event.isOfFrame = false)
      ∧ deliveries r.notes ++ r.bridge.deferred = fresh.deferredAlong env host actions := by
  intro fresh r
  refine ⟨fun program index callback hwatches hoffers hdeferred => ?_,
    fun program index callback bag hdeferral => ?_, ?_,
    fun before between hactions hbefore hbetween => ?_, fun action haction event hevent => ?_, ?_⟩
  · exact BridgeRun.defers_offered env host hwatches hoffers hdeferred
  · exact (r.execution_acts env host program index).deferral hdeferral
  · exact BridgeRun.callback_run env host actions fun callback bag h =>
      absurd h List.not_mem_nil
  · have hr : r = (fresh.run env host before).run env host between := by
      rw [← BridgeRun.run_append, ← hactions]
    -- nothing waits in a new bridge, nor right after a frame
    have hnone : (fresh.run env host before).bridge.deferred = [] := by
      rcases hbefore with rfl | ⟨earlier, rfl⟩
      · rfl
      · rw [BridgeRun.run_append]
        exact BridgeRun.act_deferred env host (fresh.run env host earlier) .frame
    have hpending : r.bridge.deferred =
        (fresh.run env host before).deferredAlong env host between := by
      rw [hr, BridgeRun.run_deferred env host hbetween, hnone, List.nil_append]
    have horder : r.bridge.context.connections.InOrder :=
      Connections.InOrder.run env host actions List.Pairwise.nil
    rw [BridgeRun.told_frame, hpending]
    exact ⟨rfl, horder.inTurn⟩
  · exact BridgeRun.isOfFrame_told env host haction hevent
  · exact BridgeRun.account env host actions fresh

end ScriptBridge
