import ScriptBridge.Bridge.Basic
import ScriptBridge.Proofs.Executions
import ScriptBridge.Proofs.Widening

/-!
# What a host is told and what it sees

A host is told of events, and while it handles one it acts in a context and looks at it. To say what
it was told, in which order, and what its context showed in between, the host keeps a notebook.

**Writing.** The notebook is a part of the host's world, and `Host.noted` is the host that writes to it.
It starts its reaction to an event with an entry for the event, asks its context for the program before
each action and at the end, and otherwise does as before. So there is an entry for each time that a
bridge really calls its host, and for no other.

**Reading.** `Plan.notes`, `Bridge.tellNotes` and so on say which entries these are. `Plan.run_noted`
and the lemmas after it show that exactly they are written, and that writing changes nothing: the answer,
the bridge and the world are those of the host without a notebook.

**Runs.** `BridgeRun` is a bridge in a world of its host, with its notebook. It is led by operations in
any order. The operation that shuts a bridge down is not among them.
-/

namespace ScriptBridge

variable {F H W : Type}

/-- **An entry of a notebook**: an event that the host was told of, the program that its context
showed, or something that it did and what it got. -/
inductive HostNote (H : Type) where
  | told (event : HostEvent)
  | saw (program : Option ProgramId)
  | acted (action : HostAction H) (answer : ActionAnswer)

/-- Write an entry behind the others. -/
def HostNote.write (note : HostNote H) (s : W × List (HostNote H)) : W × List (HostNote H) :=
  (s.1, s.2 ++ [note])

namespace Plan

variable {α : Type}

/-- Ask the context for the program and write down the answer, and go on. -/
def seeing (next : Plan H (W × List (HostNote H)) α) : Plan H (W × List (HostNote H)) α :=
  .act .program fun
    | .program program => .change (HostNote.saw program).write next
    | _ => next

/-- **The plan of a host that writes**. -/
def noted : Plan H W α → Plan H (W × List (HostNote H)) α
  | .done answer => .seeing (.done answer)
  | .act action next =>
    .seeing (.act action fun answer =>
      .change (HostNote.acted action answer).write (noted (next answer)))
  | .change effect next => .change (fun s => (effect s.1, s.2)) (noted next)
  | .look next => .look fun s => noted (next s.1)

/-- **The notes of a plan** that is carried out. The context is looked at before each action and at
the end. -/
def notes (env : Environment F H W) : Plan H W α → Context F H → W → List (HostNote H)
  | .done _, context, _ => [.saw context.publics.program]
  | .act action next, context, w =>
    let (answer, after, w) := context.perform env action w
    .saw context.publics.program :: .acted action answer :: notes env (next answer) after w
  | .change effect next, context, w => notes env next context (effect w)
  | .look next, context, w => notes env (next w) context w

theorem run_seeing (env : Environment F H (W × List (HostNote H)))
    (next : Plan H (W × List (HostNote H)) α) (context : Context F H) (w : W)
    (before : List (HostNote H)) :
    (seeing next).run env context (w, before) =
      next.run env context (w, before ++ [.saw context.publics.program]) := rfl

theorem run_act (env : Environment F H W) (action : HostAction H) (next : ActionAnswer → Plan H W α)
    (context : Context F H) (w : W) :
    (act action next).run env context w =
      let (answer, context, w) := context.perform env action w
      (next answer).run env context w := rfl

/-- **A host that writes does what it did**, and writes the notes of its plan. -/
theorem run_noted (env : Environment F H W) (plan : Plan H W α) (context : Context F H) (w : W)
    (before : List (HostNote H)) :
    plan.noted.run env.widened context (w, before) =
      let (answer, context', w') := plan.run env context w
      (answer, context', w', before ++ plan.notes env context w) := by
  induction plan generalizing context w before with
  | done answer => rfl
  | act action next ih =>
      unfold noted notes
      rw [run_seeing, run_act, run_act, context.perform_widened]
      rcases context.perform env action w with ⟨answer, context', w'⟩
      refine (ih answer context' w' _).trans ?_
      dsimp only
      rw [List.append_assoc, List.append_assoc]
      rfl
  | change effect next ih => exact ih _ _ _
  | look next ih => exact ih w _ _ _

end Plan

/-- **A host that writes down what it is told and what it sees.** -/
def Host.noted (host : Host H W) : Host H (W × List (HostNote H)) := fun event =>
  .change (HostNote.told event).write (host event).noted

namespace Bridge

/-- What events change, with something beside the world. -/
def Stage.beside {E : Type} (s : Stage F H W) (e : E) : Stage F H (W × E) :=
  ⟨s.context, s.deferred, s.world, e⟩

/-! ## Notes of events -/

/-- The notes of an event. -/
def tellNotes (env : Environment F H W) (host : Host H W) (event : HostEvent) (s : Stage F H W) :
    List (HostNote H) :=
  .told event :: (host event).notes env s.context s.world

/-- The notes of events in their order. -/
def tellAllNotes (env : Environment F H W) (host : Host H W) :
    List HostEvent → Stage F H W → List (HostNote H)
  | [], _ => []
  | event :: rest, s =>
    tellNotes env host event s ++ tellAllNotes env host rest (tell env host event s).2

/-- The notes of a report. The program is targeted before the host is told of it, and a deferred
call does not reach the host. -/
def reportNotes (env : Environment F H W) (host : Host H W) (s : Stage F H W) :
    Report → List (HostNote H)
  | .programChanged program =>
    let context := { s.context with publics := s.context.publics.setProgram program }
    tellNotes env host (.programChanged program) { s with context }
  | .intercepted callback arguments _ =>
    if callback.deferred then [] else tellNotes env host (.callback callback arguments) s
  | .playerUpdate player => tellNotes env host (.playerUpdate player) s

/-- The notes of reports in their order. -/
def reportsNotes (env : Environment F H W) (host : Host H W) :
    List Report → Stage F H W → List (HostNote H)
  | [], _ => []
  | report :: rest, s =>
    reportNotes env host s report
      ++ reportsNotes env host rest ((delegate env host).heard s report)

/-- The notes of an execution. -/
def executionNotes (env : Environment F H W) (host : Host H W) (b : Bridge F H) (program : Program)
    (index : Cell) (w : W) : List (HostNote H) :=
  reportsNotes env host (b.interceptor.reports program index (delegate env host) (b.stage w))
    (b.stage w)

/-- The notes of a program that is removed. -/
def unloadNotes (env : Environment F H W) (host : Host H W) (b : Bridge F H) (program : ProgramId)
    (w : W) : List (HostNote H) :=
  if (b.interceptor.forget program).1 then reportNotes env host (b.stage w) (.programChanged none)
  else []

/-- The notes of a frame. -/
def frameNotes (env : Environment F H W) (host : Host H W) (b : Bridge F H) (w : W) :
    List (HostNote H) :=
  let (updates, connections) := b.context.connections.takeUpdates
  tellAllNotes env host (frameEvents b.deferred updates)
    ⟨{ b.context with connections }, [], w⟩

/-! ## Writing changes nothing -/

section

variable (env : Environment F H W) (host : Host H W)

/-- **Telling a host** is calling it: it writes the event and the notes of its reaction. -/
theorem tell_noted (event : HostEvent) (s : Stage F H W) (before : List (HostNote H)) :
    tell env.widened host.noted event (s.beside before) =
      ((tell env host event s).1,
        (tell env host event s).2.beside (before ++ tellNotes env host event s)) := by
  have hrun : (host.noted event).run env.widened (s.beside before).context (s.beside before).world =
      (((host event).run env s.context s.world).1, ((host event).run env s.context s.world).2.1,
        ((host event).run env s.context s.world).2.2, before ++ tellNotes env host event s) := by
    refine ((host event).run_noted env s.context s.world (before ++ [.told event])).trans ?_
    rw [List.append_assoc]
    rfl
  unfold tell
  rw [hrun]
  rfl

theorem tellAll_noted (events : List HostEvent) (s : Stage F H W) (before : List (HostNote H)) :
    tellAll env.widened host.noted events (s.beside before) =
      (tellAll env host events s).beside (before ++ tellAllNotes env host events s) := by
  induction events generalizing s before with
  | nil => exact congrArg s.beside (List.append_nil before).symm
  | cons event rest ih =>
      unfold tellAll tellAllNotes
      rw [tell_noted, ← List.append_assoc]
      exact ih _ _

/-- **A report reaches a host** as `reportNotes` says. -/
theorem heard_noted (report : Report) (s : Stage F H W) (before : List (HostNote H)) :
    (delegate env.widened host.noted).heard (s.beside before) report =
      ((delegate env host).heard s report).beside (before ++ reportNotes env host s report) := by
  cases report with
  | programChanged program =>
      exact congrArg Prod.snd (tell_noted env host (.programChanged program)
        { s with context := { s.context with publics := s.context.publics.setProgram program } }
        before)
  | intercepted callback arguments answer =>
      unfold delegate Delegate.heard reportNotes
      dsimp only
      split
      · rw [List.append_nil]
        rfl
      · exact congrArg Prod.snd (tell_noted env host (.callback callback arguments) s before)
  | playerUpdate player =>
      exact congrArg Prod.snd (tell_noted env host (.playerUpdate player) s before)

theorem intercepted_noted (callback : Callback) (arguments : Bag) (s : Stage F H W)
    (before : List (HostNote H)) :
    ((delegate env.widened host.noted).intercepted callback arguments (s.beside before)).1 =
      ((delegate env host).intercepted callback arguments s).1 := by
  unfold delegate
  dsimp only
  split
  · rfl
  · exact congrArg Prod.fst (tell_noted env host (.callback callback arguments) s before)

theorem reportsNotes_concat (reports : List Report) (report : Report) (s : Stage F H W) :
    reportsNotes env host (reports ++ [report]) s =
      reportsNotes env host reports s
        ++ reportNotes env host (reports.foldl (delegate env host).heard s) report := by
  induction reports generalizing s with
  | nil => exact List.append_nil _
  | cons first rest ih =>
      rw [List.cons_append, reportsNotes, ih, ← List.append_assoc]
      rfl

/-- **The stages of an execution.** On one side the reports so far are noted, on the other the host has
written what they led to. -/
structure Hears (s : Stage F H W) (before : List (HostNote H)) (left : Stage F H W × List Report)
    (right : Stage F H (W × List (HostNote H))) : Prop where
  plain : left.1 = left.2.foldl (delegate env host).heard s
  written : right = left.1.beside (before ++ reportsNotes env host left.2 s)

theorem Hears.heard {s : Stage F H W} {before : List (HostNote H)}
    {left : Stage F H W × List Report} {right : Stage F H (W × List (HostNote H))}
    (h : Hears env host s before left right) (report : Report) :
    Hears env host s before ((delegate env host).heard left.1 report, left.2 ++ [report])
      ((delegate env.widened host.noted).heard right report) := by
  refine ⟨?_, ?_⟩
  · rw [List.foldl_append, ← h.plain]
    rfl
  · rw [h.written, heard_noted, reportsNotes_concat, ← h.plain, List.append_assoc]

/-- An interceptor cannot tell whether its host writes. -/
theorem alike_noted (s : Stage F H W) (before : List (HostNote H)) :
    (delegate env host).noted.Alike (Hears env host s before)
      (delegate env.widened host.noted) where
  programChanged h program := h.heard env host (.programChanged program)
  playerUpdate h player := h.heard env host (.playerUpdate player)
  intercepted {left right} h callback arguments := by
    refine ⟨?_, h.heard env host (.intercepted callback arguments
      ((delegate env host).intercepted callback arguments left.1).1)⟩
    rw [h.written]
    exact (intercepted_noted env host callback arguments left.1 _).symm

/-- **An execution** with a host that writes. -/
theorem onExecute_written (b : Bridge F H) (program : Program) (index : Cell) (w : W)
    (before : List (HostNote H)) :
    b.onExecute env.widened host.noted program index (w, before) =
      let (decision, after, w') := b.onExecute env host program index w
      (decision, after, w', before ++ b.executionNotes env host program index w) := by
  have hstart : Hears env host (b.stage w) before (b.stage w, []) (b.stage (w, before)) :=
    ⟨rfl, congrArg (b.stage w).beside (List.append_nil before).symm⟩
  obtain ⟨hdecision, hinterceptor, hleft⟩ :=
    (alike_noted env host (b.stage w) before).onExecute hstart b.interceptor program index
  have hwritten := hleft.written
  rw [Interceptor.onExecute_noted] at hdecision hinterceptor hwritten
  unfold onExecute executionNotes
  dsimp only at hdecision hinterceptor hwritten ⊢
  rw [← hdecision, ← hinterceptor, hwritten]
  rfl

/-- **A program is removed** while the host writes. -/
theorem onProgramUnloaded_written (b : Bridge F H) (program : ProgramId) (w : W)
    (before : List (HostNote H)) :
    b.onProgramUnloaded env.widened host.noted program (w, before) =
      let (after, w') := b.onProgramUnloaded env host program w
      (after, w', before ++ b.unloadNotes env host program w) := by
  have hheard := heard_noted env host (.programChanged none) (b.stage w) before
  unfold onProgramUnloaded unloadNotes Interceptor.forget
  by_cases hfollowed : b.interceptor.program = some program
  · rw [if_pos hfollowed, if_pos rfl]
    exact congrArg (after { b with interceptor := b.interceptor.cleared }) hheard
  · rw [if_neg hfollowed, if_neg Bool.false_ne_true, List.append_nil]

/-- **A frame** with a host that writes. -/
theorem onFrame_written (b : Bridge F H) (w : W) (before : List (HostNote H)) :
    b.onFrame env.widened host.noted (w, before) =
      let (after, w') := b.onFrame env host w
      (after, w', before ++ b.frameNotes env host w) :=
  congrArg b.after (tellAll_noted env host _ ⟨_, [], w⟩ before)

/-- **What is done in the context** outside of any event. -/
theorem withContext_written {α : Type} (b : Bridge F H) (plan : Plan H W α) (w : W)
    (before : List (HostNote H)) :
    b.withContext env.widened plan.noted (w, before) =
      let (answer, after, w') := b.withContext env plan w
      (answer, after, w', before ++ plan.notes env b.context w) := by
  unfold withContext
  rw [plan.run_noted]

end

end Bridge

/-! ## Bridges with their notes -/

/-- **An operation on a bridge.** The worker of a connection takes its steps in between. -/
inductive BridgeAction (F H W : Type) : Type 1 where
  | install (port : HookPort W)
  | setExports
  | register (list : Option (List (NativeEntry F))) (number : Cell)
  | execute (program : Program) (index : Cell)
  | unloaded (program : ProgramId)
  | frame
  | context {α : Type} (plan : Plan H W α)
  | work (connection : ConnectionId)

/-- **A bridge with its notes**, in a world of its host. -/
structure BridgeRun (F H W : Type) where
  bridge : Bridge F H
  world : W
  notes : List (HostNote H) := []

namespace BridgeRun

/-- A new bridge. -/
def start (settings : Settings) (callbacks : CallbackTable) (natives : List String) (w : W) :
    BridgeRun F H W :=
  { bridge := .new settings callbacks natives, world := w }

/-- **What an operation does**, to a bridge whose host writes. -/
def act (env : Environment F H W) (host : Host H W) (r : BridgeRun F H W) :
    BridgeAction F H W → BridgeRun F H W
  | .install port =>
    let (_, interceptor, world) := r.bridge.interceptor.install port r.world
    { r with bridge := { r.bridge with interceptor }, world }
  | .setExports => { r with bridge := r.bridge.setExports }
  | .register list number => { r with bridge := r.bridge.onRegister list number }
  | .execute program index =>
    let (_, bridge, world, notes) :=
      r.bridge.onExecute env.widened host.noted program index (r.world, r.notes)
    { bridge, world, notes }
  | .unloaded program =>
    let (bridge, world, notes) :=
      r.bridge.onProgramUnloaded env.widened host.noted program (r.world, r.notes)
    { bridge, world, notes }
  | .frame =>
    let (bridge, world, notes) := r.bridge.onFrame env.widened host.noted (r.world, r.notes)
    { bridge, world, notes }
  | .context plan =>
    let (_, bridge, world, notes) := r.bridge.withContext env.widened plan.noted (r.world, r.notes)
    { bridge, world, notes }
  | .work connection =>
    let (bridge, world) := r.bridge.stepWorker env connection r.world
    { r with bridge, world }

/-- **A bridge led by operations.** -/
def run (env : Environment F H W) (host : Host H W) (actions : List (BridgeAction F H W))
    (r : BridgeRun F H W) : BridgeRun F H W :=
  actions.foldl (act env host) r

variable (env : Environment F H W) (host : Host H W) (r : BridgeRun F H W)

/-! An operation does what it does without notes, and adds those that belong to it. -/

theorem act_execute (program : Program) (index : Cell) :
    r.act env host (.execute program index) =
      let (_, bridge, world) := r.bridge.onExecute env host program index r.world
      { bridge, world, notes := r.notes ++ r.bridge.executionNotes env host program index r.world } := by
  unfold act
  dsimp only
  rw [Bridge.onExecute_written]

theorem act_unloaded (program : ProgramId) :
    r.act env host (.unloaded program) =
      let (bridge, world) := r.bridge.onProgramUnloaded env host program r.world
      { bridge, world, notes := r.notes ++ r.bridge.unloadNotes env host program r.world } := by
  unfold act
  dsimp only
  rw [Bridge.onProgramUnloaded_written]

theorem act_frame :
    r.act env host .frame =
      let (bridge, world) := r.bridge.onFrame env host r.world
      { bridge, world, notes := r.notes ++ r.bridge.frameNotes env host r.world } := by
  unfold act
  dsimp only
  rw [Bridge.onFrame_written]

theorem act_context {α : Type} (plan : Plan H W α) :
    r.act env host (.context plan) =
      let (_, bridge, world) := r.bridge.withContext env plan r.world
      { bridge, world, notes := r.notes ++ plan.notes env r.bridge.context r.world } := by
  unfold act
  dsimp only
  rw [Bridge.withContext_written]

end BridgeRun

end ScriptBridge
