import ScriptBridge.Bridge.Context
import ScriptBridge.Callback

/-!
# Hosts

The host is the script's side of the bridge. It is told of events, and its reaction to each
is a plan: a tree of actions in the context and of effects in its own world, at each
point of which it may go on as it likes. So a host can do anything to its world, and to the
bridge only what a context allows.

Every reaction ends with an answer. It matters for callbacks alone, where it says whether
the call was handled.
-/

namespace ScriptBridge

/-- **What a host is told.** -/
inductive HostEvent where
  | programChanged (program : Option ProgramId)
  | callback (callback : Callback) (arguments : Bag)
  | playerUpdate (player : Cell)
  | deferred (callback : Callback) (arguments : Bag)
  | frame
  | attempted (connection : ConnectionId) (attempt : ConnectionAttempt)
  | succeeded (connection : ConnectionId) (success : QuerySuccess)
  | failed (connection : ConnectionId) (failure : QueryFailure)

/-- What a host is told of something that a connection reports. -/
def HostEvent.ofUpdate : ConnectionId × ConnectionUpdate → HostEvent
  | (connection, .attempted attempt) => .attempted connection attempt
  | (connection, .succeeded success) => .succeeded connection success
  | (connection, .failed failure) => .failed connection failure

/-- **A plan** that ends with an answer. -/
inductive Plan (H W α : Type) where
  | done (answer : α)
  | act (action : HostAction H) (next : ActionAnswer → Plan H W α)
  | change (effect : W → W) (next : Plan H W α)
  | look (next : W → Plan H W α)

namespace Plan

variable {F H W α : Type}

/-- **Carry out a plan.** -/
def run (env : Environment F H W) : Plan H W α → Context F H → W → α × Context F H × W
  | .done answer, context, w => (answer, context, w)
  | .act action next, context, w =>
    let (answer, context, w) := context.perform env action w
    run env (next answer) context w
  | .change effect next, context, w => run env next context (effect w)
  | .look next, context, w => run env (next w) context w

/-- The plan with another answer. -/
def map {β : Type} (f : α → β) : Plan H W α → Plan H W β
  | .done answer => .done (f answer)
  | .act action next => .act action fun answer => map f (next answer)
  | .change effect next => .change effect (map f next)
  | .look next => .look fun w => map f (next w)

/-- Do one thing after the other. The answer holds those of all of them. -/
def perform : List (HostAction H) → Plan H W (List ActionAnswer)
  | [] => .done []
  | action :: rest => .act action fun answer => (perform rest).map (answer :: ·)

end Plan

/-- **A host.** -/
abbrev Host (H W : Type) := HostEvent → Plan H W Bool

/-- A host that ignores every event. -/
def Host.silent {H W : Type} : Host H W := fun _ => .done false

end ScriptBridge
