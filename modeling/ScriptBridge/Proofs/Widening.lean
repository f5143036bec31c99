import ScriptBridge.Bridge.Context

/-!
# Worlds with something beside

To say what a host does, its world is widened by a notebook that only the host writes to. Everything
else that acts on the world leaves the notebook alone: natives, handlers, the functions of the server
and the drivers.

`Environment.widened` is an environment in such a wider world. What a script asks for has there the
answer that it has in the narrow world, and the same effects on context and world:
`Context.perform_widened` says so, and has one lemma for each way from an action to the code outside.
-/

namespace ScriptBridge

variable {W E : Type}

/-- A native in a wider world. -/
def Native.widened (native : Native W) : Native (W × E) := fun m block s =>
  let (result, m, w) := native m block s.1
  (result, m, w, s.2)

/-- A handler in a wider world. -/
def Handler.widened (handler : Handler W) : Handler (W × E) := fun arguments s =>
  let (answer, w) := handler arguments s.1
  (answer, w, s.2)

/-- A driver in a wider world. -/
def DatabaseDriver.widened (driver : DatabaseDriver W) : DatabaseDriver (W × E) where
  connect info s :=
    let (answer, w) := driver.connect info s.1
    (answer, w, s.2)
  ping s :=
    let (answer, w) := driver.ping s.1
    (answer, w, s.2)
  query text s :=
    let (answer, w) := driver.query text s.1
    (answer, w, s.2)
  close s := (driver.close s.1, s.2)

namespace ServerFunctions

variable {α β : Type}

/-- A function of the server that leaves something beside its world alone. -/
def beside (f : Option (ProgramId → α → W → ServerAnswer W β)) :
    Option (ProgramId → α → W × E → ServerAnswer (W × E) β) :=
  f.map fun f program a s =>
    let (answer, w) := f program a s.1
    (answer, w, s.2)

theorem run_beside (f : Option (ProgramId → α → W → ServerAnswer W β)) (program : ProgramId) (a : α)
    (w : W) (e : E) :
    run (beside f) program a (w, e) = ((run f program a w).1, (run f program a w).2, e) := by
  cases f <;> rfl

/-- The functions of the server in a wider world. -/
def widened (server : ServerFunctions W) : ServerFunctions (W × E) where
  findPublic := beside server.findPublic
  push := beside server.push
  pushArray := beside server.pushArray
  pushText := beside server.pushText
  exec := beside server.exec
  release := beside server.release

end ServerFunctions

/-- **An environment in a wider world**, of which it leaves the new part alone. -/
def Environment.widened {F H : Type} (env : Environment F H W) : Environment F H (W × E) where
  native f := (env.native f).widened
  handler h := (env.handler h).widened
  server := env.server.widened
  driver connection := (env.driver connection).widened
  now s := env.now s.1

/-! ## Natives -/

namespace Registry

variable {F : Type}

theorem callIn_widened (offset : Nat → Nat) (native : Native W) (arguments : List NativeArgument)
    (w : W) (e : E) (s : Scratch) :
    callIn offset native.widened arguments (w, e) s =
      let ((result, after, w), s) := callIn offset native arguments w s
      ((result, after, w, e), s) := by
  unfold callIn
  rcases place offset arguments 0 0 arguments s with ⟨answer, s'⟩
  cases answer <;> rfl

theorem call_widened (registry : Registry F) (meaning : F → Native W) (name : String)
    (arguments : List NativeArgument) (w : W) (e : E) :
    registry.call (fun f => (meaning f).widened) name arguments (w, e) =
      let outcome := registry.call meaning name arguments w
      ⟨outcome.result, outcome.arguments, outcome.registry, (outcome.world, e)⟩ := by
  unfold call Scratch.inScope
  cases registry.find? name with
  | none => rfl
  | some handle =>
      dsimp only
      rw [callIn_widened]

end Registry

namespace Invoker

variable {S S' : Type}

/-- **A state that is seen through another one.** Who calls natives knows the same names and answers
the same. -/
structure Mirrors (seen : S → S') (dispatcher : Dispatcher S) (dispatcher' : Dispatcher S') :
    Prop where
  knows : ∀ s name, dispatcher'.knows (seen s) name = dispatcher.knows s name
  call : ∀ s name arguments, dispatcher'.call (seen s) name arguments =
    let (result, after, s) := dispatcher.call s name arguments
    (result, after, seen s)

variable {seen : S → S'} {dispatcher : Dispatcher S} {dispatcher' : Dispatcher S'}

theorem Mirrors.callBare (h : Mirrors seen dispatcher dispatcher') (invoker : Invoker) (s : S)
    (name : String) :
    callBare invoker dispatcher' (seen s) name =
      let (answer, invoker, s) := callBare invoker dispatcher s name
      (answer, invoker, seen s) := by
  unfold Invoker.callBare
  rw [h.call]
  rcases dispatcher.call s name [] with ⟨result, _, s'⟩
  cases result <;> rfl

theorem Mirrors.callStaged (h : Mirrors seen dispatcher dispatcher') (invoker : Invoker) (s : S)
    (name : String) (signature : Signature) :
    callStaged invoker dispatcher' (seen s) name signature =
      let (answer, invoker, s) := callStaged invoker dispatcher s name signature
      (answer, invoker, seen s) := by
  rcases hcall : dispatcher.call s name (invoker.staging.arguments signature.physicalCount) with
    ⟨result, after, s'⟩
  simp only [Invoker.callStaged, h.call, hcall]
  cases result <;> rfl

theorem Mirrors.callWith (h : Mirrors seen dispatcher dispatcher') (invoker : Invoker) (s : S)
    (name : String) (arguments : List ScriptValue) (signature : ScriptValue) :
    callWith invoker dispatcher' (seen s) name arguments signature =
      let (answer, invoker, s) := callWith invoker dispatcher s name arguments signature
      (answer, invoker, seen s) := by
  unfold Invoker.callWith
  cases checkedSignature arguments signature with
  | error e => rfl
  | ok signature =>
      dsimp only
      rcases invoker.staging.load signature.slots _ 0 leading with ⟨answer, staging⟩
      cases answer with
      | error e => rfl
      | ok _ => exact h.callStaged ⟨staging⟩ s name signature

/-- **A script cannot tell such states apart.** -/
theorem Mirrors.invoke (h : Mirrors seen dispatcher dispatcher') (invoker : Invoker) (s : S)
    (arguments : List ScriptValue) :
    invoker.invoke dispatcher' (seen s) arguments =
      let (answer, invoker, s) := invoker.invoke dispatcher s arguments
      (answer, invoker, seen s) := by
  unfold Invoker.invoke
  cases arguments.head?.bind (·.text?) with
  | none => rfl
  | some name =>
      dsimp only
      rw [h.knows]
      split
      · rfl
      · split
        · rfl
        · cases arguments[1]? with
          | none => exact h.callBare invoker s name
          | some signature => exact h.callWith invoker s name arguments signature

theorem mirrors_widened {F : Type} (meaning : F → Native W) (e : E) :
    Mirrors (fun s : Registry F × W => (s.1, (s.2, e))) (Registry.dispatcher meaning)
      (Registry.dispatcher fun f => (meaning f).widened) where
  knows _ _ := rfl
  call s name arguments := by
    unfold Registry.dispatcher
    dsimp only
    rw [Registry.call_widened]

end Invoker

/-! ## Public functions -/

namespace PublicCaller

/-- **A call is refused, or looks its name up** and executes what it found. -/
theorem call_cases (caller : PublicCaller) :
    (∃ e, ∀ {W : Type} (server : ServerFunctions W) (name : String) (arguments : List ArgumentValue)
        (w : W), caller.call server name arguments w = (.error e, caller, w))
      ∨ ∃ program, caller.program = some program ∧
        ∀ {W : Type} (server : ServerFunctions W) (name : String) (arguments : List ArgumentValue)
          (w : W), caller.call server name arguments w =
            match caller.findIndex server program name w with
            | (none, caller, w) => (.error (.unknownPublic name), caller, w)
            | (some index, caller, w) =>
              match execute server program index arguments w with
              | (.ok value, w) => (.ok value, caller, w)
              | (.error code, w) => (.error (.failed name code), caller, w) := by
  unfold call
  cases caller.program with
  | none => exact .inl ⟨_, fun _ _ _ _ => rfl⟩
  | some program =>
      cases caller.hasExports with
      | false => exact .inl ⟨_, fun _ _ _ _ => rfl⟩
      | true => exact .inr ⟨program, rfl, fun _ _ _ _ => rfl⟩

section

variable {server : ServerFunctions W} {beside : ServerFunctions (W × E)}

theorem push_beside (hpush : beside.push = ServerFunctions.beside server.push)
    (harray : beside.pushArray = ServerFunctions.beside server.pushArray)
    (htext : beside.pushText = ServerFunctions.beside server.pushText) (program : ProgramId)
    (argument : ArgumentValue) (w : W) (e : E) :
    push beside program argument (w, e) =
      ((push server program argument w).1, (push server program argument w).2, e) := by
  cases argument <;> simp only [push, hpush, harray, htext, ServerFunctions.run_beside]

theorem pushAll_beside (hpush : beside.push = ServerFunctions.beside server.push)
    (harray : beside.pushArray = ServerFunctions.beside server.pushArray)
    (htext : beside.pushText = ServerFunctions.beside server.pushText) (program : ProgramId)
    (arguments : List ArgumentValue) (first : Option Cell) (w : W) (e : E) :
    pushAll beside program arguments first (w, e) =
      ((pushAll server program arguments first w).1, (pushAll server program arguments first w).2.1,
        (pushAll server program arguments first w).2.2, e) := by
  induction arguments generalizing first w with
  | nil => rfl
  | cons argument rest ih =>
      unfold pushAll
      rw [push_beside hpush harray htext]
      rcases push server program argument w with ⟨answer, w'⟩
      cases answer with
      | error code => rfl
      | ok taken => exact ih (first <|> taken) w'

theorem release_beside (h : beside.release = ServerFunctions.beside server.release) (program : ProgramId)
    (first : Option Cell) (w : W) (e : E) :
    release beside program first (w, e) = (release server program first w, e) := by
  cases first with
  | none => rfl
  | some address =>
      simp only [release, h, ServerFunctions.run_beside]

theorem findIndex_beside (h : beside.findPublic = ServerFunctions.beside server.findPublic)
    (caller : PublicCaller) (program : ProgramId) (name : String) (w : W) (e : E) :
    caller.findIndex beside program name (w, e) =
      ((caller.findIndex server program name w).1, (caller.findIndex server program name w).2.1,
        (caller.findIndex server program name w).2.2, e) := by
  unfold findIndex
  split
  · rfl
  · split
    · rfl
    · rename_i bytes _
      simp only [h, ServerFunctions.run_beside]
      rcases ServerFunctions.run server.findPublic program bytes w with ⟨answer, w'⟩
      cases answer <;> rfl

end

theorem execute_widened (server : ServerFunctions W) (program : ProgramId) (index : Cell)
    (arguments : List ArgumentValue) (w : W) (e : E) :
    execute server.widened program index arguments (w, e) =
      ((execute server program index arguments w).1, (execute server program index arguments w).2,
        e) := by
  have hrelease : (server.widened (E := E)).release = ServerFunctions.beside server.release := rfl
  have hexec : (server.widened (E := E)).exec = ServerFunctions.beside server.exec := rfl
  unfold execute
  rw [pushAll_beside rfl rfl rfl]
  rcases pushAll server program arguments.reverse none w with ⟨answer, first, w'⟩
  cases answer with
  | error code => simp only [release_beside hrelease]
  | ok _ => simp only [hexec, ServerFunctions.run_beside, release_beside hrelease]

theorem call_widened (caller : PublicCaller) (server : ServerFunctions W) (name : String)
    (arguments : List ArgumentValue) (w : W) (e : E) :
    caller.call server.widened name arguments (w, e) =
      let (answer, caller, w) := caller.call server name arguments w
      (answer, caller, w, e) := by
  rcases caller.call_cases with ⟨error, hcall⟩ | ⟨program, _, hcall⟩
  · rw [hcall, hcall]
  · rw [hcall, hcall, findIndex_beside rfl]
    rcases caller.findIndex server program name w with ⟨found, caller', w'⟩
    cases found with
    | none => rfl
    | some index =>
        dsimp only
        rw [execute_widened]
        rcases execute server program index arguments w' with ⟨answer, w''⟩
        cases answer <;> rfl

end PublicCaller

/-! ## Databases -/

theorem Connection.step_widened (driver : DatabaseDriver W) (now : Nat) (c : Connection) (w : W)
    (e : E) :
    c.step driver.widened now (w, e) =
      ((c.step driver now w).1, (c.step driver now w).2, e) := by
  unfold Connection.step Worker.step
  cases c.worker.phase <;> rfl

theorem Connection.run_widened (driver : DatabaseDriver W) (now : Nat) (steps : Nat) (c : Connection)
    (w : W) (e : E) :
    Connection.run driver.widened now steps c (w, e) =
      ((Connection.run driver now steps c w).1, (Connection.run driver now steps c w).2, e) := by
  induction steps generalizing c w with
  | zero => rfl
  | succ steps ih =>
      unfold Connection.run
      rw [step_widened]
      exact ih _ _

theorem Connection.close_widened (driver : DatabaseDriver W) (now : Nat) (c : Connection) (w : W)
    (e : E) :
    c.close driver.widened now (w, e) =
      ((c.close driver now w).1, (c.close driver now w).2, e) := by
  unfold Connection.close
  split
  · rfl
  · exact run_widened driver now _ _ w e

theorem Connections.close_widened (driver : ConnectionId → DatabaseDriver W) (now : W → Nat)
    (c : Connections) (id : ConnectionId) (w : W) (e : E) :
    c.close (fun connection => (driver connection).widened) (fun s => now s.1) id (w, e) =
      let (found, c, w) := c.close driver now id w
      (found, c, w, e) := by
  unfold Connections.close
  cases c.get? id with
  | none => rfl
  | some connection =>
      dsimp only
      rw [Connection.close_widened]

/-! ## Actions -/

/-- **An action in a wider world is the same action.** -/
theorem Context.perform_widened {F H : Type} (env : Environment F H W) (context : Context F H)
    (action : HostAction H) (w : W) (e : E) :
    context.perform env.widened action (w, e) =
      let (answer, context, w) := context.perform env action w
      (answer, context, w, e) := by
  cases action with
  | invoke arguments =>
      have hinvoke := (Invoker.mirrors_widened env.native e).invoke context.invoker
        (context.registry, w) arguments
      unfold Context.perform
      dsimp only [Environment.widened]
      rw [hinvoke]
  | callPublic name arguments =>
      have hcall := context.publics.call_widened env.server name arguments w e
      unfold Context.perform
      dsimp only [Environment.widened]
      rw [hcall]
  | closeConnection id =>
      have hclose := context.connections.close_widened env.driver env.now id w e
      unfold Context.perform
      dsimp only [Environment.widened]
      rw [hclose]
  | _ => rfl

end ScriptBridge
