import ScriptBridge.Proofs.Notebook

/-!
# What reaches a host and what waits

What a host writes says everything that it was told and did. Often it is enough to know which events it
was told of, and these do not depend on what it does: an execution leads to events through its reports,
a frame through what waits for it, and what a host does on its own leads to none.

A call that is deferred is no event of its execution. It waits in the bridge, with its arguments, and
`BridgeRun.defers` reads off the reports which calls these are. Nothing else is ever put there, and
only a frame takes something out.
-/

namespace ScriptBridge

variable {F H W : Type}

/-- The event that an entry is about, if it is about one. -/
def HostNote.event? : HostNote H → Option HostEvent
  | .told event => some event
  | _ => none

/-- **The events that a host was told of**, in their order. -/
def toldEvents (notes : List (HostNote H)) : List HostEvent := notes.filterMap (·.event?)

theorem toldEvents_append (notes more : List (HostNote H)) :
    toldEvents (notes ++ more) = toldEvents notes ++ toldEvents more :=
  List.filterMap_append

theorem Plan.toldEvents_notes {α : Type} (env : Environment F H W) (plan : Plan H W α) :
    ∀ (context : Context F H) (w : W), toldEvents (plan.notes env context w) = [] := by
  induction plan with
  | done answer => exact fun _ _ => rfl
  | act action next ih => exact fun _ _ => ih _ _ _
  | change effect next ih => exact fun _ _ => ih _ _
  | look next ih => exact fun _ _ => ih _ _ _

/-! ## Reports -/

namespace Report

/-- **The events of a report.** A deferred call is none. -/
def events : Report → List HostEvent
  | .programChanged program => [.programChanged program]
  | .intercepted callback arguments _ =>
    if callback.deferred then [] else [.callback callback arguments]
  | .playerUpdate player => [.playerUpdate player]

/-- **The call that a report leaves behind** for the next frame. -/
def deferral? : Report → Option (Callback × Bag)
  | .intercepted callback arguments _ =>
    if callback.deferred then some (callback, arguments) else none
  | _ => none

end Report

namespace Bridge

variable (env : Environment F H W) (host : Host H W)

theorem toldEvents_tellNotes (event : HostEvent) (s : Stage F H W) :
    toldEvents (tellNotes env host event s) = [event] :=
  congrArg (event :: ·) ((host event).toldEvents_notes env s.context s.world)

theorem toldEvents_tellAllNotes :
    ∀ (events : List HostEvent) (s : Stage F H W),
      toldEvents (tellAllNotes env host events s) = events
  | [], _ => rfl
  | event :: rest, s => by
      rw [tellAllNotes, toldEvents_append, toldEvents_tellNotes, toldEvents_tellAllNotes rest]
      rfl

theorem toldEvents_reportNotes (report : Report) (s : Stage F H W) :
    toldEvents (reportNotes env host s report) = report.events := by
  cases report with
  | programChanged program => exact toldEvents_tellNotes env host _ _
  | playerUpdate player => exact toldEvents_tellNotes env host _ _
  | intercepted callback arguments answer =>
      simp only [reportNotes, Report.events]
      split
      · rfl
      · exact toldEvents_tellNotes env host _ _

/-- **A host is told what the reports of an execution say**, whatever it does. -/
theorem toldEvents_reportsNotes :
    ∀ (reports : List Report) (s : Stage F H W),
      toldEvents (reportsNotes env host reports s) = reports.flatMap Report.events
  | [], _ => rfl
  | report :: rest, s => by
      rw [reportsNotes, toldEvents_append, toldEvents_reportNotes, toldEvents_reportsNotes rest,
        List.flatMap_cons]

/-- **A report adds at most one call to those that wait.** -/
theorem heard_deferred (report : Report) (s : Stage F H W) :
    ((delegate env host).heard s report).deferred = s.deferred ++ report.deferral?.toList := by
  cases report with
  | programChanged program => exact (List.append_nil s.deferred).symm
  | playerUpdate player => exact (List.append_nil s.deferred).symm
  | intercepted callback arguments answer =>
      unfold delegate Delegate.heard Report.deferral?
      dsimp only
      split
      · rfl
      · exact (List.append_nil s.deferred).symm

theorem reports_deferred :
    ∀ (reports : List Report) (s : Stage F H W),
      (reports.foldl (delegate env host).heard s).deferred =
        s.deferred ++ reports.filterMap Report.deferral?
  | [], s => (List.append_nil s.deferred).symm
  | report :: rest, s => by
      rw [List.foldl_cons, reports_deferred rest, heard_deferred, List.append_assoc]
      cases hreport : report.deferral? with
      | none => rw [List.filterMap_cons_none hreport]; rfl
      | some call => rw [List.filterMap_cons_some hreport]; rfl

theorem tellAll_deferred :
    ∀ (events : List HostEvent) (s : Stage F H W), (tellAll env host events s).deferred = s.deferred
  | [], _ => rfl
  | _ :: rest, _ => tellAll_deferred rest _

end Bridge

/-! ## Operations -/

namespace BridgeAction

/-- Whether a frame is run. -/
def isFrame : BridgeAction F H W → Bool
  | .frame => true
  | _ => false

/-- Whether a program announces itself. -/
def isMain : BridgeAction F H W → Bool
  | .execute _ index => index == Interceptor.entryPoint
  | _ => false

end BridgeAction

namespace HostEvent

/-- Whether an event belongs to a frame. -/
def isOfFrame : HostEvent → Bool
  | .programChanged _ => false
  | .callback .. => false
  | .playerUpdate _ => false
  | _ => true

/-- Whether an event is about a function that a program ran. -/
def isDispatch : HostEvent → Bool
  | .callback .. | .playerUpdate _ | .deferred .. => true
  | _ => false

/-- The call that an event delivers late, if it does. -/
def delivery? : HostEvent → Option (Callback × Bag)
  | .deferred declared arguments => some (declared, arguments)
  | _ => none

end HostEvent

theorem Bridge.mem_frameEvents {deferred : List (Callback × Bag)}
    {updates : List (ConnectionId × ConnectionUpdate)} {event : HostEvent} :
    event ∈ frameEvents deferred updates ↔
      (∃ call ∈ deferred, event = .deferred call.1 call.2)
        ∨ (∃ update ∈ updates, event = .ofUpdate update) ∨ event = .frame := by
  simp only [frameEvents, List.mem_append, List.mem_map, List.mem_singleton, or_assoc, eq_comm]

theorem Report.isOfFrame_events {report : Report} {event : HostEvent} (h : event ∈ report.events) :
    event.isOfFrame = false := by
  cases report with
  | programChanged program => rw [List.mem_singleton.mp h]; rfl
  | playerUpdate player => rw [List.mem_singleton.mp h]; rfl
  | intercepted callback arguments answer =>
      simp only [Report.events] at h
      split at h
      · exact absurd h List.not_mem_nil
      · rw [List.mem_singleton.mp h]; rfl

namespace BridgeRun

variable (env : Environment F H W) (host : Host H W)

/-- **What an operation adds to the notes**: all that the host writes into an empty notebook. -/
def newNotes (r : BridgeRun F H W) (action : BridgeAction F H W) : List (HostNote H) :=
  ({ r with notes := [] }.act env host action).notes

theorem newNotes_execute (r : BridgeRun F H W) (program : Program) (index : Cell) :
    r.newNotes env host (.execute program index) =
      r.bridge.executionNotes env host program index r.world := by
  rw [newNotes, act_execute]
  exact List.nil_append _

theorem newNotes_unloaded (r : BridgeRun F H W) (program : ProgramId) :
    r.newNotes env host (.unloaded program) = r.bridge.unloadNotes env host program r.world := by
  rw [newNotes, act_unloaded]
  exact List.nil_append _

theorem newNotes_frame (r : BridgeRun F H W) :
    r.newNotes env host .frame = r.bridge.frameNotes env host r.world := by
  rw [newNotes, act_frame]
  exact List.nil_append _

theorem newNotes_context {α : Type} (r : BridgeRun F H W) (plan : Plan H W α) :
    r.newNotes env host (.context plan) = plan.notes env r.bridge.context r.world := by
  rw [newNotes, act_context]
  exact List.nil_append _

/-- Whatever else is in a notebook, an operation adds the same to it. -/
theorem act_notes (r : BridgeRun F H W) (action : BridgeAction F H W) :
    (r.act env host action).notes = r.notes ++ r.newNotes env host action := by
  cases action with
  | install port => exact (List.append_nil r.notes).symm
  | setExports => exact (List.append_nil r.notes).symm
  | register list number => exact (List.append_nil r.notes).symm
  | work connection => exact (List.append_nil r.notes).symm
  | execute program index => rw [newNotes_execute, act_execute]
  | unloaded program => rw [newNotes_unloaded, act_unloaded]
  | frame => rw [newNotes_frame, act_frame]
  | context plan => rw [newNotes_context, act_context]

/-- **The events that an operation leads to.** -/
def told (r : BridgeRun F H W) (action : BridgeAction F H W) : List HostEvent :=
  toldEvents (r.newNotes env host action)

/-- What an execution reports to a bridge. -/
def reports (r : BridgeRun F H W) (program : Program) (index : Cell) : List Report :=
  r.bridge.interceptor.reports program index (Bridge.delegate env host) (r.bridge.stage r.world)

theorem execution_acts (r : BridgeRun F H W) (program : Program) (index : Cell) :
    let left := r.bridge.interceptor.onExecute program index (Bridge.delegate env host)
      (r.bridge.stage r.world)
    r.bridge.interceptor.Acts program index (Bridge.delegate env host) (r.bridge.stage r.world)
      left.1 left.2.1 left.2.2 (r.reports env host program index) :=
  r.bridge.interceptor.onExecute_acts program index (Bridge.delegate env host)
    (r.bridge.stage r.world)

/-- **The calls that an operation defers.** -/
def defers (r : BridgeRun F H W) : BridgeAction F H W → List (Callback × Bag)
  | .execute program index => (r.reports env host program index).filterMap Report.deferral?
  | _ => []

theorem told_execute (r : BridgeRun F H W) (program : Program) (index : Cell) :
    r.told env host (.execute program index) =
      (r.reports env host program index).flatMap Report.events := by
  rw [told, newNotes_execute]
  exact Bridge.toldEvents_reportsNotes env host _ _

/-- **A frame delivers what waits**, then what the connections report, and ends. -/
theorem told_frame (r : BridgeRun F H W) :
    r.told env host .frame =
      Bridge.frameEvents r.bridge.deferred r.bridge.context.connections.takeUpdates.1 := by
  rw [told, newNotes_frame]
  exact Bridge.toldEvents_tellAllNotes env host _ _

theorem told_unloaded (r : BridgeRun F H W) (program : ProgramId) :
    r.told env host (.unloaded program) =
      if (r.bridge.interceptor.forget program).1 then [.programChanged none] else [] := by
  rw [told, newNotes_unloaded, Bridge.unloadNotes]
  split
  · exact Bridge.toldEvents_reportNotes env host _ _
  · rfl

theorem told_context {α : Type} (r : BridgeRun F H W) (plan : Plan H W α) :
    r.told env host (.context plan) = [] := by
  rw [told, newNotes_context]
  exact plan.toldEvents_notes env r.bridge.context r.world

/-- **Where an event comes from**: a report of an execution, a program that is removed, or a frame. -/
theorem told_cases {r : BridgeRun F H W} {action : BridgeAction F H W} {event : HostEvent}
    (h : event ∈ r.told env host action) :
    (∃ (program : Program) (index : Cell), action = .execute program index
        ∧ ∃ report ∈ r.reports env host program index, event ∈ report.events)
      ∨ event = .programChanged none
      ∨ action = .frame ∧ event ∈ Bridge.frameEvents r.bridge.deferred
        r.bridge.context.connections.takeUpdates.1 := by
  cases action with
  | execute program index =>
      rw [told_execute] at h
      exact .inl ⟨program, index, rfl, List.mem_flatMap.mp h⟩
  | unloaded program =>
      rw [told_unloaded] at h
      split at h
      · exact .inr (.inl (List.mem_singleton.mp h))
      · exact absurd h List.not_mem_nil
  | frame =>
      rw [told_frame] at h
      exact .inr (.inr ⟨rfl, h⟩)
  | context plan =>
      rw [told_context] at h
      exact absurd h List.not_mem_nil
  | _ => exact absurd h List.not_mem_nil

/-- **What happens outside of frames is not of a frame.** -/
theorem isOfFrame_told {r : BridgeRun F H W} {action : BridgeAction F H W}
    (haction : action.isFrame = false) {event : HostEvent} (h : event ∈ r.told env host action) :
    event.isOfFrame = false := by
  rcases told_cases env host h with ⟨_, _, _, report, _, hevent⟩ | rfl | ⟨rfl, _⟩
  · exact Report.isOfFrame_events hevent
  · rfl
  · exact absurd haction (by simp [BridgeAction.isFrame])

/-- **What waits after an operation.** A frame leaves nothing, and everything else adds the calls that
it defers. -/
theorem act_deferred (r : BridgeRun F H W) (action : BridgeAction F H W) :
    (r.act env host action).bridge.deferred =
      if action.isFrame then [] else r.bridge.deferred ++ r.defers env host action := by
  cases action with
  | execute program index =>
      have hleft := Bridge.reports_deferred env host (r.reports env host program index)
        (r.bridge.stage r.world)
      rw [← (r.execution_acts env host program index).heard] at hleft
      rw [act_execute]
      exact hleft
  | unloaded program =>
      rw [act_unloaded]
      show (r.bridge.onProgramUnloaded env host program r.world).1.deferred = r.bridge.deferred ++ []
      unfold Bridge.onProgramUnloaded Interceptor.forget
      rw [List.append_nil]
      by_cases hfollowed : r.bridge.interceptor.program = some program
      · rw [if_pos hfollowed]; rfl
      · rw [if_neg hfollowed]
  | frame =>
      rw [act_frame]
      exact Bridge.tellAll_deferred env host _ _
  | context plan =>
      rw [act_context]
      exact (List.append_nil r.bridge.deferred).symm
  | _ => exact (List.append_nil r.bridge.deferred).symm

end BridgeRun

end ScriptBridge
