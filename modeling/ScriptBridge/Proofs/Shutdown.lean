import ScriptBridge.Proofs.Agreement
import ScriptBridge.Proofs.Deferral

/-!
# A bridge that was shut down

Shutting a bridge down closes its connections, drops the calls that wait and targets no program. The
interceptor is not touched: it goes on following the program that it followed, so what that program
runs afterwards reaches the host as before. A program that is removed takes another way, through
`Interceptor.forget`, and leaves nothing that is followed.

**What is left.** Only the entry point of a program makes an interceptor follow another one. Without
it, everything that a host hears of after the shutdown stems from executions of the one program that
was followed then; `Leftover` is the invariant. Where none was followed nothing is heard at all.
-/

namespace ScriptBridge

variable {F H W : Type}

/-! ## Whose functions are heard of -/

theorem Report.isDispatch_of_event {report : Report} {event : HostEvent} (h : event ∈ report.events)
    (hdispatch : event.isDispatch = true) : report.isDispatch = true := by
  cases report with
  | programChanged program =>
      rw [List.mem_singleton.mp h] at hdispatch
      exact absurd hdispatch Bool.false_ne_true
  | intercepted callback arguments answer => rfl
  | playerUpdate player => rfl

theorem Report.isDispatch_of_deferral {report : Report} {call : Callback × Bag}
    (h : report.deferral? = some call) : report.isDispatch = true := by
  cases report with
  | programChanged program => exact absurd h (by simp [Report.deferral?])
  | intercepted callback arguments answer => rfl
  | playerUpdate player => rfl

/-- **An execution is reported only if its program is followed.** -/
theorem Interceptor.Acts.followed_of_dispatch {D : Type} {i i' : Interceptor} {program : Program}
    {index : Cell} {delegate : Delegate D} {d d' : D} {decision : Decision} {reports : List Report}
    (h : i.Acts program index delegate d decision i' d' reports) {report : Report}
    (hreport : report ∈ reports) (hdispatch : report.isDispatch = true) :
    i.program = some program.id := by
  cases h with
  | loads _ _ =>
      rw [List.mem_singleton.mp hreport] at hdispatch
      exact absurd hdispatch Bool.false_ne_true
  | updates hwatches _ _ => exact hwatches.followed
  | offers hwatches _ _ _ _ _ => exact hwatches.followed
  | unloads hwatches _ _ _ _ _ => exact hwatches.followed
  | _ => exact absurd hreport List.not_mem_nil

theorem Interceptor.Acts.program_of_inside {D : Type} {i i' : Interceptor} {program : Program}
    {index : Cell} {delegate : Delegate D} {d d' : D} {decision : Decision} {reports : List Report}
    (h : i.Acts program index delegate d decision i' d' reports) (hinside : index ≠ entryPoint) :
    i'.program = none ∨ i'.program = i.program := by
  cases h with
  | loads _ hentry => exact absurd hentry hinside
  | unloads _ _ _ _ _ _ => exact .inl rfl
  | _ => exact .inr rfl

namespace BridgeRun

variable (env : Environment F H W) (host : Host H W)

/-- An operation that tells of a function delivers one that waits, or is an execution of the program
that is followed. -/
theorem dispatch_told {r : BridgeRun F H W} {action : BridgeAction F H W} {event : HostEvent}
    (h : event ∈ r.told env host action) (hdispatch : event.isDispatch = true) :
    r.bridge.deferred ≠ [] ∨ ∃ (program : Program) (index : Cell),
      action = .execute program index ∧ r.bridge.interceptor.program = some program.id := by
  rcases told_cases env host h with ⟨program, index, rfl, report, hreport, hevent⟩ | rfl | ⟨_, hevent⟩
  · have hfollowed := (r.execution_acts env host program index).followed_of_dispatch hreport
      (Report.isDispatch_of_event hevent hdispatch)
    exact .inr ⟨program, index, rfl, hfollowed⟩
  · exact absurd hdispatch Bool.false_ne_true
  · rcases Bridge.mem_frameEvents.mp hevent with ⟨call, hcall, _⟩ | ⟨update, _, rfl⟩ | rfl
    · exact .inl (List.ne_nil_of_mem hcall)
    · obtain ⟨connection, result⟩ := update
      cases result <;> exact absurd hdispatch Bool.false_ne_true
    · exact absurd hdispatch Bool.false_ne_true

theorem followed_of_defers {r : BridgeRun F H W} {action : BridgeAction F H W}
    (h : r.defers env host action ≠ []) : ∃ (program : Program) (index : Cell),
      action = .execute program index ∧ r.bridge.interceptor.program = some program.id := by
  cases action with
  | execute program index =>
      obtain ⟨call, hcall⟩ := List.exists_mem_of_ne_nil _ h
      rw [defers_execute] at hcall
      obtain ⟨report, hreport, hleaves⟩ := List.mem_filterMap.mp hcall
      have hfollowed := (r.execution_acts env host program index).followed_of_dispatch hreport
        (Report.isDispatch_of_deferral hleaves)
      exact ⟨program, index, rfl, hfollowed⟩
  | _ => exact absurd rfl h

/-- **Without an entry point no other program is followed.** -/
theorem act_program {r : BridgeRun F H W} {action : BridgeAction F H W}
    (haction : action.isMain = false) :
    (r.act env host action).bridge.interceptor.program = none
      ∨ (r.act env host action).bridge.interceptor.program = r.bridge.interceptor.program := by
  cases action with
  | install port =>
      right
      show (r.bridge.interceptor.install port r.world).2.1.program = _
      unfold Interceptor.install
      split <;> rfl
  | execute program index =>
      have hinside : index ≠ Interceptor.entryPoint := by
        intro hentry
        rw [BridgeAction.isMain, hentry, beq_self_eq_true] at haction
        exact absurd haction.symm Bool.false_ne_true
      rw [act_execute]
      exact (r.execution_acts env host program index).program_of_inside hinside
  | unloaded program =>
      rw [act_unloaded]
      show (r.bridge.onProgramUnloaded env host program r.world).1.interceptor.program = none ∨
        (r.bridge.onProgramUnloaded env host program r.world).1.interceptor.program = _
      unfold Bridge.onProgramUnloaded Interceptor.forget
      by_cases hfollowed : r.bridge.interceptor.program = some program
      · rw [if_pos hfollowed]
        exact .inl rfl
      · rw [if_neg hfollowed]
        exact .inr rfl
  | frame =>
      rw [act_frame]
      exact .inr rfl
  | context plan =>
      rw [act_context]
      exact .inr rfl
  | _ => exact .inr rfl

/-! ## What is left of a program -/

/-- **Everything that is heard of stems from one program**, which ran some function among the
operations so far; another one is not followed. -/
structure Leftover (left : Option ProgramId) (actions : List (BridgeAction F H W))
    (r : BridgeRun F H W) : Prop where
  program : r.bridge.interceptor.program = none ∨ r.bridge.interceptor.program = left
  waits : r.bridge.deferred ≠ [] → ∃ (program : Program) (index : Cell),
    .execute program index ∈ actions ∧ left = some program.id
  told : ∀ event ∈ toldEvents r.notes, event.isDispatch = true →
    ∃ (program : Program) (index : Cell), .execute program index ∈ actions ∧ left = some program.id

namespace Leftover

variable {left : Option ProgramId} {actions : List (BridgeAction F H W)} {r : BridgeRun F H W}

theorem step (h : Leftover left actions r) {action : BridgeAction F H W}
    (haction : action.isMain = false) :
    Leftover left (actions ++ [action]) (r.act env host action) := by
  have hearlier : (∃ (program : Program) (index : Cell),
        .execute program index ∈ actions ∧ left = some program.id) →
      ∃ (program : Program) (index : Cell),
        .execute program index ∈ actions ++ [action] ∧ left = some program.id := by
    rintro ⟨program, index, hmem, hleft⟩
    exact ⟨program, index, List.mem_append_left _ hmem, hleft⟩
  -- a program that is followed now is the one that was left
  have hnow : (∃ (program : Program) (index : Cell), action = .execute program index
        ∧ r.bridge.interceptor.program = some program.id) →
      ∃ (program : Program) (index : Cell),
        .execute program index ∈ actions ++ [action] ∧ left = some program.id := by
    rintro ⟨program, index, rfl, hfollowed⟩
    refine ⟨program, index, List.mem_append_right _ (List.mem_singleton_self _), ?_⟩
    rcases h.program with hnone | hleft
    · exact absurd (hnone.symm.trans hfollowed) (by simp)
    · exact hleft.symm.trans hfollowed
  refine ⟨?_, fun hwaits => ?_, fun event hevent hdispatch => ?_⟩
  · rcases act_program env host haction with hnone | hsame
    · exact .inl hnone
    · rw [hsame]
      exact h.program
  · rw [act_deferred] at hwaits
    split at hwaits
    · exact absurd rfl hwaits
    · by_cases hbefore : r.bridge.deferred = []
      · rw [hbefore, List.nil_append] at hwaits
        exact hnow (followed_of_defers env host hwaits)
      · exact hearlier (h.waits hbefore)
  · rw [act_notes, toldEvents_append] at hevent
    rcases List.mem_append.mp hevent with hbefore | htold
    · exact hearlier (h.told event hbefore hdispatch)
    · rcases dispatch_told env host htold hdispatch with hwaits | hexecuted
      · exact hearlier (h.waits hwaits)
      · exact hnow hexecuted

theorem run (h : Leftover left actions r) (later : List (BridgeAction F H W))
    (hlater : ∀ action ∈ later, action.isMain = false) :
    Leftover left (actions ++ later) (r.run env host later) := by
  induction later generalizing actions r with
  | nil =>
      rw [List.append_nil]
      exact h
  | cons action rest ih =>
      have hstep := h.step env host (hlater action List.mem_cons_self)
      have hrest := ih hstep fun other hother => hlater other (List.mem_cons_of_mem _ hother)
      rw [List.append_assoc] at hrest
      exact hrest

end Leftover

/-! ## Shutting down -/

/-- A bridge that is shut down, with a new notebook. -/
def afterShutdown (r : BridgeRun F H W) : BridgeRun F H W :=
  let (bridge, world) := r.bridge.shutdown env r.world
  { bridge, world }

theorem leftover_afterShutdown (r : BridgeRun F H W) :
    Leftover r.bridge.interceptor.program [] (r.afterShutdown env) :=
  ⟨.inr rfl, fun hwaits => absurd rfl hwaits, fun _ hevent => absurd hevent List.not_mem_nil⟩

/-- **What an interceptor is offered reaches the host, or waits for it.** -/
theorem offered_told {r : BridgeRun F H W} {program : Program} {index : Cell} {callback : Callback}
    (hwatches : r.bridge.interceptor.Watches program index)
    (hoffers : r.bridge.interceptor.Offers program index callback) :
    ∃ bag : Bag, bag.ReadOff program callback.arguments
      ∧ (callback.deferred = false →
        .callback callback bag ∈ r.told env host (.execute program index))
      ∧ (callback.deferred = true →
        r.defers env host (.execute program index) = [(callback, bag)]) := by
  cases hdeferred : callback.deferred with
  | true =>
      obtain ⟨_, bag, hbag, hdefers⟩ := defers_offered env host hwatches hoffers hdeferred
      exact ⟨bag, hbag, fun h => absurd h.symm Bool.false_ne_true, fun _ => hdefers⟩
  | false =>
      obtain ⟨bag, rest, hbag, _, hreports, _⟩ := reports_offered env host hwatches hoffers
      refine ⟨bag, hbag, fun _ => ?_, fun h => absurd h Bool.false_ne_true⟩
      rw [told_execute, hreports, List.flatMap_cons]
      refine List.mem_append_left _ ?_
      rw [Report.events, if_neg (by simp [hdeferred])]
      exact List.mem_singleton_self _

theorem updated_told {r : BridgeRun F H W} {program : Program} {index : Cell}
    (hwatches : r.bridge.interceptor.Watches program index)
    (hupdate : r.bridge.interceptor.playerUpdate = some index) :
    r.told env host (.execute program index) =
      (program.argument? 0).toList.map .playerUpdate := by
  obtain ⟨_, _, hreports⟩ := hwatches.updated hupdate (Bridge.delegate env host)
    (r.bridge.stage r.world)
  rw [told_execute, reports, hreports]
  cases program.argument? 0 <;> rfl

end BridgeRun

/--
**A shutdown forgets everything but the program that is followed.** Whatever a bridge has become, and
whatever is asked of it afterwards as long as no program announces itself:

* no program is targeted, no connection is open and no call waits; the interceptor is as it was;
* a host is told of functions of a program only if this program is the one that was followed at the
  shutdown, and has run since. If none was followed, it is told of none;
* what the program that was followed runs is still told, deferred, or reported as an update of a player.
-/
theorem shutdown_leaves_program_followed (env : Environment F H W) (host : Host H W)
    (r : BridgeRun F H W) :
    let s := r.afterShutdown env
    s.bridge.context.publics.program = none ∧ s.bridge.context.connections.entries = []
      ∧ s.bridge.deferred = [] ∧ s.bridge.interceptor = r.bridge.interceptor
      ∧ (∀ later : List (BridgeAction F H W), (∀ action ∈ later, action.isMain = false) →
        ∀ event ∈ toldEvents (s.run env host later).notes, event.isDispatch = true →
          ∃ (program : Program) (index : Cell), .execute program index ∈ later
            ∧ r.bridge.interceptor.program = some program.id)
      ∧ ∀ (program : Program) (index : Cell), r.bridge.interceptor.Watches program index →
        (∀ callback, r.bridge.interceptor.Offers program index callback →
            ∃ bag : Bag, bag.ReadOff program callback.arguments
              ∧ (callback.deferred = false →
                .callback callback bag ∈ s.told env host (.execute program index))
              ∧ (callback.deferred = true →
                s.defers env host (.execute program index) = [(callback, bag)]))
          ∧ (r.bridge.interceptor.playerUpdate = some index →
            s.told env host (.execute program index) =
              (program.argument? 0).toList.map .playerUpdate) := by
  intro s
  refine ⟨PublicCaller.setProgram_program _ none, rfl, rfl, rfl,
    fun later hlater event hevent hdispatch => ?_, fun program index hwatches => ⟨?_, ?_⟩⟩
  · have hleft := (r.leftover_afterShutdown env).run env host later hlater
    exact hleft.told event hevent hdispatch
  · exact fun callback hoffers => BridgeRun.offered_told env host (r := s) hwatches hoffers
  · exact fun hupdate => BridgeRun.updated_told env host (r := s) hwatches hupdate

/-- An environment without natives, handlers, functions of a server and databases. -/
def Environment.bare : Environment Empty Empty Unit where
  native := Empty.elim
  handler := Empty.elim
  server := ⟨none, none, none, none, none, none⟩
  driver _ := .disconnected
  now _ := 0

/-- **A program is heard of after a shutdown**, though it has not announced itself again. -/
theorem shutdown_forgets_no_program :
    let callback : Callback := { name := "OnTest", arguments := [("a", .integer)] }
    let program : Program :=
      { id := 3, argumentCount := 1, argument? := (([5] : List Cell)[·]?)
        readText? := fun _ => none, publicNames := ["OnTest"] }
    let r := (BridgeRun.start {} ⟨[callback]⟩ [] ()).run .bare .silent
      [.install ⟨fun _ => true, fun w => (.ok (), w)⟩, .execute program Interceptor.entryPoint]
    let s := r.afterShutdown .bare
    s.bridge.interceptor.program = some 3
      ∧ (BridgeAction.execute program 0 : BridgeAction Empty Empty Unit).isMain = false
      ∧ toldEvents (s.run .bare .silent [.execute program 0]).notes =
        [.callback callback (Bag.empty.insert "a" (.integer 5))] := by
  exact ⟨rfl, rfl, rfl⟩

end ScriptBridge
