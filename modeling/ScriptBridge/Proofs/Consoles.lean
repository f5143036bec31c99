import ScriptBridge.Bridge.Basic
import ScriptBridge.Bridge.Console
import ScriptBridge.Proofs.Executions

/-!
# What a console lets happen

A console stands in for a script. It writes lines to the log and remembers a few numbers, and that
is all it does: it answers every call with no and never acts in the context. So with a console every
execution is forwarded, whatever the callbacks allow, and all that the bridge leaves in the world is
what the console wrote there.
-/

namespace ScriptBridge

variable {F H W : Type}

/-- **What a console may do to a world**: it writes lines and remembers what it likes. -/
inductive Console.Wrote (console : Console W) (w : W) : W → Prop where
  | nothing : Wrote console w w
  | line {after : W} (event : Log.Event) : Wrote console w after →
      Wrote console w (console.log event after)
  | note {after : W} (f : ConsoleState → ConsoleState) : Wrote console w after →
      Wrote console w (console.remember f after)

namespace Console

variable {console : Console W} {w between after : W}

theorem Wrote.trans (h : console.Wrote w between) (h' : console.Wrote between after) :
    console.Wrote w after := by
  induction h' with
  | nothing => exact h
  | line event _ ih => exact ih.line event
  | note f _ ih => exact ih.note f

/-- A reaction is a note and perhaps a line. -/
theorem wrote_react (console : Console W) (event : HostEvent) (w : W) :
    console.Wrote w (console.react event w) := by
  have hnote : console.Wrote w (console.remember (remembered event) w) := .note _ .nothing
  unfold react
  dsimp only
  split
  · exact hnote.line _
  · exact hnote

end Console

/-- **What a delegate declines is forwarded**, whatever the callbacks allow. -/
theorem Interceptor.Acts.forward_of_declined {D : Type} {i i' : Interceptor} {program : Program}
    {index : Cell} {delegate : Delegate D} {d d' : D} {decision : Decision} {reports : List Report}
    (h : i.Acts program index delegate d decision i' d' reports)
    (hdeclined : ∀ callback bag, (delegate.intercepted callback bag d).1 = false) :
    decision = .forward := by
  cases h with
  | @offers callback bag _ _ _ _ _ _ =>
      rw [hdeclined callback bag]
      rfl
  | @unloads callback bag _ _ _ _ _ _ =>
      rw [hdeclined callback bag]
      rfl
  | _ => rfl

namespace Bridge

variable {env : Environment F H W} {console : Console W}

theorem wrote_tell (event : HostEvent) (s : Stage F H W) :
    console.Wrote s.world (tell env console.host event s).2.world :=
  console.wrote_react event s.world

theorem wrote_tellAll (events : List HostEvent) (s : Stage F H W) :
    console.Wrote s.world (tellAll env console.host events s).world := by
  induction events generalizing s with
  | nil => exact .nothing
  | cons event rest ih => exact (wrote_tell event s).trans (ih _)

/-- No call is handled. -/
theorem intercepted_console (callback : Callback) (arguments : Bag) (s : Stage F H W) :
    ((delegate env console.host).intercepted callback arguments s).1 = false := by
  unfold delegate
  dsimp only
  by_cases hdeferred : callback.deferred = true
  · rw [if_pos hdeferred]
  · rw [if_neg hdeferred]
    rfl

theorem wrote_heard (s : Stage F H W) (report : Report) :
    console.Wrote s.world ((delegate env console.host).heard s report).world := by
  cases report with
  | programChanged program => exact console.wrote_react (.programChanged program) s.world
  | playerUpdate player => exact console.wrote_react (.playerUpdate player) s.world
  | intercepted callback arguments answer =>
      show console.Wrote _ (if callback.deferred = true then _ else _ : Bool × Stage F H W).2.world
      by_cases hdeferred : callback.deferred = true
      · rw [if_pos hdeferred]
        exact .nothing
      · rw [if_neg hdeferred]
        exact wrote_tell (.callback callback arguments) s

theorem wrote_heard_all (reports : List Report) (s : Stage F H W) :
    console.Wrote s.world (reports.foldl (delegate env console.host).heard s).world := by
  induction reports generalizing s with
  | nil => exact .nothing
  | cons report rest ih => exact (wrote_heard s report).trans (ih _)

/-- **With a console every execution is forwarded**, and the world holds what the console wrote. -/
theorem onExecute_console (env : Environment F H W) (console : Console W) (b : Bridge F H)
    (program : Program) (index : Cell) (w : W) :
    (b.onExecute env console.host program index w).1 = .forward
      ∧ console.Wrote w (b.onExecute env console.host program index w).2.2 := by
  have hacts := b.interceptor.onExecute_acts program index (delegate env console.host) (b.stage w)
  constructor
  · show (b.interceptor.onExecute program index (delegate env console.host) (b.stage w)).1 = _
    exact hacts.forward_of_declined fun callback bag => intercepted_console callback bag (b.stage w)
  · show console.Wrote (b.stage w).world
      (b.interceptor.onExecute program index (delegate env console.host) (b.stage w)).2.2.world
    rw [hacts.heard]
    exact wrote_heard_all _ _

/-- A program that is removed is at most worth a line. -/
theorem wrote_onProgramUnloaded (b : Bridge F H) (program : ProgramId) (w : W) :
    console.Wrote w (b.onProgramUnloaded env console.host program w).2 := by
  unfold onProgramUnloaded
  split
  · exact .nothing
  · exact console.wrote_react (.programChanged none) w

/-- So is a frame. -/
theorem wrote_onFrame (b : Bridge F H) (w : W) :
    console.Wrote w (b.onFrame env console.host w).2 := by
  unfold onFrame
  exact wrote_tellAll (frameEvents b.deferred b.context.connections.takeUpdates.1) ⟨_, [], w⟩

end Bridge

end ScriptBridge
