import ScriptBridge.Proofs.PublicIndices

/-!
# What a call asks of the server

To call a public function its arguments are pushed, it is executed, and the memory that its texts and
arrays took is given back. Every one of these requests can be refused, and what follows depends on
which one was.

**Requests.** `ServerFunctions.recorded` adds to a world the list of what was asked, each request with
the world that it found and the answer that it got. A function that is missing is asked as well: it
refuses. So `PublicCaller.requests` is what any server is asked in a call.

**Conduct.** `Pushes` follows the arguments up to the first that is refused, and `Conducts` goes on from
there to the execution and the release. All that is proved of calls comes from these two relations.

**The heap.** A server that takes memory from the top of a heap, and whose releases put the top where
they are told to, finds the heap after a call as it was before: what is released is what was taken first,
and it was taken at the top.
-/

namespace ScriptBridge

variable {W : Type}

/-- **What is asked of a server.** -/
inductive ServerRequest where
  | findPublic (name : List UInt8)
  | push (value : Cell)
  | pushArray (cells : List Cell)
  | pushText (bytes : List UInt8)
  | exec (index : Cell)
  | release (address : Cell)
  deriving DecidableEq

/-- A text or an array is pushed, which takes memory of the program. -/
def ServerRequest.takesMemory : ServerRequest → Bool
  | .pushArray _ => true
  | .pushText _ => true
  | _ => false

/-- **A request and its answer**: a code if it was refused, and otherwise the number that was given for
it, if one was. `before` is the world that it found. -/
structure ServerCall (W : Type) where
  program : ProgramId
  request : ServerRequest
  before : W
  answer : Except StatusCode (Option Cell)
  deriving DecidableEq

namespace ServerCall

/-- The code that a request was refused with. -/
def refusal? (call : ServerCall W) : Option StatusCode :=
  match call.answer with
  | .error code => some code
  | .ok _ => none

/-- The number that was given for a request. For a push it is the address of the memory that was taken. -/
def given? (call : ServerCall W) : Option Cell :=
  match call.answer with
  | .error _ => none
  | .ok number => number

end ServerCall

/-- What was changed in a good answer comes from a good answer. -/
theorem Except.map_eq_ok {ε α β : Type} {f : α → β} {answer : Except ε α} {b : β}
    (h : answer.map f = .ok b) : ∃ a, answer = .ok a ∧ f a = b := by
  cases answer with
  | error _ => exact absurd h (by simp [Except.map])
  | ok a => exact ⟨a, rfl, Except.ok.inj h⟩

theorem Except.map_eq_error {ε α β : Type} {f : α → β} {answer : Except ε α} {e : ε}
    (h : answer.map f = .error e) : answer = .error e := by
  cases answer with
  | error _ => exact congrArg Except.error (Except.error.inj h)
  | ok _ => exact absurd h (by simp [Except.map])

namespace ServerFunctions

variable {α β : Type}

/-- A function of the server whose requests are noted, also if it is missing. -/
def noting (f : Option (ProgramId → α → W → ServerAnswer W β)) (request : α → ServerRequest)
    (number : β → Option Cell) :
    Option (ProgramId → α → W × List (ServerCall W) → ServerAnswer (W × List (ServerCall W)) β) :=
  some fun program a s =>
    let (answer, w) := run f program a s.1
    (answer, w, s.2 ++ [⟨program, request a, s.1, answer.map number⟩])

/-- **A server that records what it is asked**, the latest last. -/
def recorded (server : ServerFunctions W) : ServerFunctions (W × List (ServerCall W)) where
  findPublic := noting server.findPublic .findPublic some
  push := noting server.push .push fun () => none
  pushArray := noting server.pushArray .pushArray some
  pushText := noting server.pushText .pushText some
  exec := noting server.exec .exec some
  release := noting server.release .release fun () => none

theorem run_noting (f : Option (ProgramId → α → W → ServerAnswer W β)) (request : α → ServerRequest)
    (number : β → Option Cell) (program : ProgramId) (a : α) (w : W) (calls : List (ServerCall W)) :
    run (noting f request number) program a (w, calls) =
      ((run f program a w).1, (run f program a w).2,
        calls ++ [⟨program, request a, w, (run f program a w).1.map number⟩]) := rfl

end ServerFunctions

/-- The request that pushes an argument. -/
def ArgumentValue.request : ArgumentValue → ServerRequest
  | .integer value => .push value
  | .float value => .push (Cell.ofSingle value)
  | .text value => .pushText (PublicCaller.pushedBytes value)
  | .cells values => .pushArray (values.map fun word => word.toInt32)

/--
**Arguments are pushed in order**, up to the first that is refused. `Pushes server program arguments w
calls answer w'` says that pushing leads from `w` to `w'` with these requests, and that `answer` comes
of it.
-/
inductive Pushes (server : ServerFunctions W) (program : ProgramId) :
    List ArgumentValue → W → List (ServerCall W) → Except StatusCode Unit → W → Prop where
  | done {w : W} : Pushes server program [] w [] (.ok ()) w
  | refused {argument : ArgumentValue} {rest : List ArgumentValue} {w w' : W} {code : StatusCode} :
      PublicCaller.push server program argument w = (.error code, w') →
      Pushes server program (argument :: rest) w [⟨program, argument.request, w, .error code⟩]
        (.error code) w'
  | pushed {argument : ArgumentValue} {rest : List ArgumentValue} {w w' w'' : W} {taken : Option Cell}
      {calls : List (ServerCall W)} {answer : Except StatusCode Unit} :
      PublicCaller.push server program argument w = (.ok taken, w') →
      Pushes server program rest w' calls answer w'' →
      Pushes server program (argument :: rest) w (⟨program, argument.request, w, .ok taken⟩ :: calls)
        answer w''

/-- **An address is given for a push that takes memory**, and for no other one. -/
theorem PublicCaller.given?_of_push {server : ServerFunctions W} {program : ProgramId}
    {argument : ArgumentValue} {w w' : W} {taken : Option Cell}
    (h : PublicCaller.push server program argument w = (.ok taken, w')) :
    taken.isSome = argument.request.takesMemory := by
  cases argument with
  | integer value =>
      obtain ⟨_, _, rfl⟩ := Except.map_eq_ok (Prod.mk.inj h).1
      rfl
  | float value =>
      obtain ⟨_, _, rfl⟩ := Except.map_eq_ok (Prod.mk.inj h).1
      rfl
  | text value =>
      obtain ⟨_, _, rfl⟩ := Except.map_eq_ok (Prod.mk.inj h).1
      rfl
  | cells values =>
      obtain ⟨_, _, rfl⟩ := Except.map_eq_ok (Prod.mk.inj h).1
      rfl

namespace Pushes

variable {server : ServerFunctions W} {program : ProgramId} {arguments : List ArgumentValue}
  {w w' : W} {calls : List (ServerCall W)} {answer : Except StatusCode Unit}

theorem program_eq (h : Pushes server program arguments w calls answer w') :
    ∀ call ∈ calls, call.program = program := by
  induction h with
  | done => exact fun _ hcall => absurd hcall List.not_mem_nil
  | refused _ => exact fun call hcall => by rw [List.mem_singleton.mp hcall]
  | pushed _ _ ih =>
      intro call hcall
      rcases List.mem_cons.mp hcall with rfl | hrest
      · rfl
      · exact ih call hrest

theorem requests_prefix (h : Pushes server program arguments w calls answer w') :
    calls.map (·.request) <+: arguments.map ArgumentValue.request := by
  induction h with
  | done => exact List.prefix_rfl
  | refused _ => exact List.prefix_append _ _
  | pushed _ _ ih => exact (List.prefix_append_right_inj [_]).mpr ih

/-- Only the last push can have been refused. -/
theorem refusal?_of_mem_dropLast (h : Pushes server program arguments w calls answer w') :
    ∀ call ∈ calls.dropLast, call.refusal? = none := by
  induction h with
  | done => exact fun _ hcall => absurd hcall List.not_mem_nil
  | refused _ => exact fun _ hcall => absurd hcall List.not_mem_nil
  | @pushed _ _ _ _ _ _ calls _ _ _ ih =>
      intro call hcall
      cases calls with
      | nil => exact absurd hcall List.not_mem_nil
      | cons next rest =>
          rcases List.mem_cons.mp hcall with rfl | hrest
          · rfl
          · exact ih call hrest

/-- An address is given for each push of a text or an array, unless it is refused. -/
theorem given?_isSome (h : Pushes server program arguments w calls answer w') :
    ∀ call ∈ calls,
      call.given?.isSome = (call.refusal?.isNone && call.request.takesMemory) := by
  induction h with
  | done => exact fun _ hcall => absurd hcall List.not_mem_nil
  | refused _ => exact fun call hcall => by rw [List.mem_singleton.mp hcall]; rfl
  | pushed hpush _ ih =>
      intro call hcall
      rcases List.mem_cons.mp hcall with rfl | hrest
      · exact PublicCaller.given?_of_push hpush
      · exact ih call hrest

/-- **Either a push was refused, or all arguments were pushed.** -/
theorem outcome (h : Pushes server program arguments w calls answer w') :
    (∃ code, answer = .error code ∧ calls.findSome? ServerCall.refusal? = some code)
      ∨ answer = .ok () ∧ calls.findSome? ServerCall.refusal? = none
        ∧ calls.length = arguments.length := by
  induction h with
  | done => exact .inr ⟨rfl, rfl, rfl⟩
  | refused _ => exact .inl ⟨_, rfl, rfl⟩
  | pushed _ _ ih =>
      rcases ih with ⟨code, hanswer, hcode⟩ | ⟨hanswer, hnone, hlength⟩
      · exact .inl ⟨code, hanswer, hcode⟩
      · exact .inr ⟨hanswer, hnone, congrArg (· + 1) hlength⟩

end Pushes

namespace PublicCaller

variable (server : ServerFunctions W)

/-! ## Requests of a call -/

/-- What is asked to give memory back, if any was taken. -/
def releaseCalls (program : ProgramId) (first : Option Cell) (w : W) : List (ServerCall W) :=
  first.toList.map fun address =>
    ⟨program, .release address, w,
      (ServerFunctions.run server.release program address w).1.map fun () => none⟩

/--
**What is asked once the index of a function is known**: pushes, executions and releases. The function
is executed if all arguments were pushed, and what was taken first is given back in either case.
-/
inductive Conducts (program : ProgramId) (index : Cell) (arguments : List ArgumentValue) (w : W) :
    List (ServerCall W) → List (ServerCall W) → List (ServerCall W) → Except StatusCode Cell → W →
    Prop where
  | refused {pushes : List (ServerCall W)} {code : StatusCode} {w' : W} :
      Pushes server program arguments.reverse w pushes (.error code) w' →
      Conducts program index arguments w pushes []
        (releaseCalls server program (pushes.findSome? ServerCall.given?) w') (.error code)
        (release server program (pushes.findSome? ServerCall.given?) w')
  | executed {pushes : List (ServerCall W)} {answer : Except StatusCode Cell} {w' w'' : W} :
      Pushes server program arguments.reverse w pushes (.ok ()) w' →
      ServerFunctions.run server.exec program index w' = (answer, w'') →
      Conducts program index arguments w pushes [⟨program, .exec index, w', answer.map some⟩]
        (releaseCalls server program (pushes.findSome? ServerCall.given?) w'') answer
        (release server program (pushes.findSome? ServerCall.given?) w'')

section

variable (w : W) (calls : List (ServerCall W))

theorem push_recorded (program : ProgramId) (argument : ArgumentValue) :
    push server.recorded program argument (w, calls) =
      ((push server program argument w).1, (push server program argument w).2,
        calls ++ [⟨program, argument.request, w, (push server program argument w).1⟩]) := by
  cases argument <;> rfl

theorem pushAll_recorded (program : ProgramId) (arguments : List ArgumentValue) (first : Option Cell) :
    let plain := pushAll server program arguments first w
    ∃ pushes, pushAll server.recorded program arguments first (w, calls) =
        (plain.1, plain.2.1, plain.2.2, calls ++ pushes)
      ∧ plain.2.1 = (first <|> pushes.findSome? ServerCall.given?)
      ∧ Pushes server program arguments w pushes plain.1 plain.2.2 := by
  -- what was taken before goes along: the first address is that of an earlier push, if there is one
  induction arguments generalizing first w calls with
  | nil => exact ⟨[], by rw [List.append_nil]; rfl, by simp [pushAll], .done⟩
  | cons argument rest ih =>
      unfold pushAll
      rw [push_recorded]
      generalize hpush : push server program argument w = pushed
      obtain ⟨answer, w'⟩ := pushed
      cases answer with
      | error code => exact ⟨_, rfl, by simp [ServerCall.given?], .refused hpush⟩
      | ok taken =>
          obtain ⟨pushes, hrest, hfirst, hpushes⟩ :=
            ih w' (calls ++ [⟨program, argument.request, w, .ok taken⟩]) (first <|> taken)
          refine ⟨_, ?_, ?_, .pushed hpush hpushes⟩
          · rw [List.append_assoc] at hrest
            exact hrest
          · refine hfirst.trans ?_
            cases first <;> cases taken <;> rfl

theorem release_recorded (program : ProgramId) (first : Option Cell) :
    release server.recorded program first (w, calls) =
      (release server program first w, calls ++ releaseCalls server program first w) := by
  cases first with
  | none => exact congrArg (w, ·) (List.append_nil calls).symm
  | some address => rfl

theorem exec_recorded (program : ProgramId) (index : Cell) :
    let plain := ServerFunctions.run server.exec program index w
    ServerFunctions.run server.recorded.exec program index (w, calls) =
      (plain.1, plain.2, calls ++ [⟨program, .exec index, w, plain.1.map some⟩]) := rfl

theorem findIndex_recorded (caller : PublicCaller) (program : ProgramId) (name : String) :
    let plain := caller.findIndex server program name w
    ∃ lookup, caller.findIndex server.recorded program name (w, calls) =
        (plain.1, plain.2.1, plain.2.2, calls ++ lookup)
      ∧ lookup.length ≤ 1 ∧ ∀ call ∈ lookup, ∃ bytes, call.request = .findPublic bytes := by
  unfold findIndex
  split
  · exact ⟨[], by rw [List.append_nil], Nat.zero_le 1, fun _ h => absurd h List.not_mem_nil⟩
  · split
    · exact ⟨[], by rw [List.append_nil], Nat.zero_le 1, fun _ h => absurd h List.not_mem_nil⟩
    · rename_i bytes _
      refine ⟨[⟨program, .findPublic bytes, w,
        (ServerFunctions.run server.findPublic program bytes w).1.map some⟩], ?_, Nat.le_refl 1,
        fun call hcall => ⟨bytes, by rw [List.mem_singleton.mp hcall]⟩⟩
      simp only [ServerFunctions.recorded, ServerFunctions.run_noting]
      rcases ServerFunctions.run server.findPublic program bytes w with ⟨answer, w'⟩
      cases answer <;> rfl

/-- **Once its index is known, a call is conducted in one of two ways**, and recording it changes
nothing. -/
theorem execute_recorded (program : ProgramId) (index : Cell) (arguments : List ArgumentValue) :
    let plain := execute server program index arguments w
    ∃ pushes executions releases, execute server.recorded program index arguments (w, calls) =
        (plain.1, plain.2, calls ++ (pushes ++ executions ++ releases))
      ∧ Conducts server program index arguments w pushes executions releases plain.1 plain.2 := by
  obtain ⟨pushes, hrecorded, hfirst, hpushes⟩ :=
    pushAll_recorded server w calls program arguments.reverse none
  unfold execute
  rw [hrecorded]
  generalize pushAll server program arguments.reverse none w = plain at hfirst hpushes ⊢
  obtain ⟨answer, first, w'⟩ := plain
  obtain rfl : first = pushes.findSome? ServerCall.given? := hfirst
  cases answer with
  | error code =>
      refine ⟨pushes, [], _, ?_, .refused hpushes⟩
      simp only [release_recorded, List.append_nil, List.append_assoc]
  | ok _ =>
      dsimp only
      rw [exec_recorded]
      generalize hexec : ServerFunctions.run server.exec program index w' = ran
      obtain ⟨answer, w''⟩ := ran
      refine ⟨pushes, _, _, ?_, .executed hpushes hexec⟩
      simp only [release_recorded, List.append_assoc]

end

/-- **The program and the index of the function that a call leads to**, if it leads to one. -/
def target? (caller : PublicCaller) (name : String) (w : W) : Option (ProgramId × Cell) :=
  if caller.hasExports then
    caller.program.bind fun program => (caller.findIndex server program name w).1.map (program, ·)
  else none

variable {server}

/-- **A call that leads to a function** conducts it, in the world that the lookup left. -/
theorem call_targeted {caller : PublicCaller} {name : String} {w : W} {program : ProgramId}
    {index : Cell} (h : caller.target? server name w = some (program, index))
    (arguments : List ArgumentValue) :
    let found := caller.findIndex server program name w
    let executed := execute server program index arguments found.2.2
    caller.program = some program ∧ found.1 = some index
      ∧ caller.call server name arguments w =
        (executed.1.mapError (.failed name), found.2.1, executed.2) := by
  unfold target? at h
  split at h
  swap
  · exact absurd h (by simp)
  rename_i hexports
  obtain ⟨program, hprogram, hmap⟩ := Option.bind_eq_some_iff.mp h
  obtain ⟨index, hfound, heq⟩ := Option.map_eq_some_iff.mp hmap
  obtain ⟨rfl, rfl⟩ := Prod.mk.inj heq
  refine ⟨hprogram, hfound, ?_⟩
  unfold call
  rw [hprogram, hexports]
  rcases hfind : caller.findIndex server program name w with ⟨_, caller', w'⟩
  rw [hfind] at hfound
  obtain rfl := hfound
  simp only [Bool.not_true, Bool.false_eq_true, if_false, hfind]
  rcases execute server program index arguments w' with ⟨answer, w''⟩
  cases answer <;> rfl

/-- **A call that leads to no function** at most looks its name up. -/
theorem call_untargeted {caller : PublicCaller} {name : String} {w : W}
    (h : caller.target? server name w = none) (arguments : List ArgumentValue) :
    let plain := caller.call server name arguments w
    (∃ lookup, caller.call server.recorded name arguments (w, []) =
          (plain.1, plain.2.1, plain.2.2, lookup)
        ∧ lookup.length ≤ 1 ∧ ∀ call ∈ lookup, ∃ bytes, call.request = .findPublic bytes)
      ∧ (∃ e, plain.1 = .error e)
      ∧ (plain.2.2 = w ∨ ∃ program, caller.program = some program
        ∧ plain.2.2 = (caller.findIndex server program name w).2.2) := by
  have hnothing : ([] : List (ServerCall W)).length ≤ 1
      ∧ ∀ call ∈ ([] : List (ServerCall W)), ∃ bytes, call.request = .findPublic bytes :=
    ⟨Nat.zero_le 1, fun _ hcall => absurd hcall List.not_mem_nil⟩
  unfold target? at h
  unfold call
  cases hprogram : caller.program with
  | none => exact ⟨⟨[], rfl, hnothing⟩, ⟨_, rfl⟩, .inl rfl⟩
  | some program =>
      cases hexports : caller.hasExports with
      | false => exact ⟨⟨[], rfl, hnothing⟩, ⟨_, rfl⟩, .inl rfl⟩
      | true =>
          rw [if_pos hexports, hprogram, Option.bind_some, Option.map_eq_none_iff] at h
          obtain ⟨lookup, hrecorded, hlookup⟩ := findIndex_recorded server w [] caller program name
          rcases hfind : caller.findIndex server program name w with ⟨_, caller', w'⟩
          rw [hfind] at h hrecorded
          obtain rfl := h
          simp only [Bool.not_true, Bool.false_eq_true, if_false, hfind, hrecorded]
          exact ⟨⟨lookup, rfl, hlookup⟩, ⟨_, rfl⟩, .inr ⟨program, rfl, by rw [hfind]⟩⟩

theorem target?_recorded (caller : PublicCaller) (name : String) (w : W)
    (calls : List (ServerCall W)) :
    caller.target? server.recorded name (w, calls) = caller.target? server name w := by
  have hfound : ∀ program, (caller.findIndex server.recorded program name (w, calls)).1 =
      (caller.findIndex server program name w).1 := fun program => by
    obtain ⟨_, hrecorded, _⟩ := findIndex_recorded server w calls caller program name
    rw [hrecorded]
  unfold target?
  simp only [hfound]

/-- **What a server is asked in a call.** -/
def requests (server : ServerFunctions W) (caller : PublicCaller) (name : String)
    (arguments : List ArgumentValue) (w : W) : List (ServerCall W) :=
  (caller.call server.recorded name arguments (w, [])).2.2.2

/-- **A call looks its name up** at most once, and then conducts what its name leads to. Recording it
changes nothing. -/
theorem call_recorded (server : ServerFunctions W) (caller : PublicCaller) (name : String)
    (arguments : List ArgumentValue) (w : W) :
    let plain := caller.call server name arguments w
    caller.call server.recorded name arguments (w, []) =
        (plain.1, plain.2.1, plain.2.2, caller.requests server name arguments w)
      ∧ ∃ lookup pushes executions releases,
        caller.requests server name arguments w = lookup ++ (pushes ++ executions ++ releases)
          ∧ lookup.length ≤ 1 ∧ (∀ call ∈ lookup, ∃ bytes, call.request = .findPublic bytes)
          ∧ (caller.target? server name w = none → pushes ++ executions ++ releases = [])
          ∧ ∀ program index, caller.target? server name w = some (program, index) →
            ∃ result, plain.1 = result.mapError (.failed name)
            ∧ Conducts server program index arguments (caller.findIndex server program name w).2.2
              pushes executions releases result plain.2.2 := by
  intro plain
  cases htarget : caller.target? server name w with
  | none =>
      obtain ⟨⟨lookup, hcall, hone, hlookup⟩, _, _⟩ := call_untargeted htarget arguments
      unfold requests
      rw [hcall]
      refine ⟨rfl, lookup, [], [], [], ?_, hone, hlookup, fun _ => rfl, fun _ _ h => absurd h (by simp)⟩
      rw [List.append_nil, List.append_nil, List.append_nil]
  | some target =>
      obtain ⟨program, index⟩ := target
      obtain ⟨lookup, hfind, hone, hlookup⟩ := findIndex_recorded server w [] caller program name
      obtain ⟨_, _, hplain⟩ := call_targeted htarget arguments
      obtain ⟨_, _, hcall⟩ := call_targeted ((caller.target?_recorded name w []).trans htarget)
        arguments
      obtain ⟨pushes, executions, releases, hexecute, hconducts⟩ := execute_recorded server
        (caller.findIndex server program name w).2.2 lookup program index arguments
      have hrecorded : caller.call server.recorded name arguments (w, []) =
          (plain.1, plain.2.1, plain.2.2, lookup ++ (pushes ++ executions ++ releases)) := by
        rw [hcall, hfind, show plain = _ from hplain]
        simp only [List.nil_append, hexecute]
      unfold requests
      rw [hrecorded]
      refine ⟨rfl, lookup, pushes, executions, releases, rfl, hone, hlookup,
        fun h => absurd h (by simp), fun program' index' h => ?_⟩
      obtain ⟨rfl, rfl⟩ := Prod.mk.inj (Option.some.inj h)
      rw [show plain = _ from hplain]
      exact ⟨_, rfl, hconducts⟩

/-- **To look a name up** keeps all of a world that the lookups of the server keep. -/
theorem findIndex_keeps {α : Type} {part : W → α} {program : ProgramId}
    (h : ∀ bytes w, part (ServerFunctions.run server.findPublic program bytes w).2 = part w)
    (caller : PublicCaller) (name : String) (w : W) :
    part (caller.findIndex server program name w).2.2 = part w := by
  unfold findIndex
  split
  · rfl
  split
  · rfl
  rename_i bytes _
  have hfind := h bytes w
  split
  · rename_i hrun
    rwa [hrun] at hfind
  · rename_i hrun
    rwa [hrun] at hfind

end PublicCaller

/-! ## The heap -/

/-- **A server that takes the memory of a program from the top of its heap.** `top` is where the heap
ends in a world. What is refused takes nothing, and a release puts the top where it is told to. -/
structure ServerFunctions.StacksHeap (server : ServerFunctions W) (program : ProgramId)
    (top : W → Cell) : Prop where
  findPublic : ∀ name w, top (run server.findPublic program name w).2 = top w
  push : ∀ value w, top (run server.push program value w).2 = top w
  pushArray_ok : ∀ cells w address, (run server.pushArray program cells w).1 = .ok address →
    address = top w
  pushArray_error : ∀ cells w code, (run server.pushArray program cells w).1 = .error code →
    top (run server.pushArray program cells w).2 = top w
  pushText_ok : ∀ bytes w address, (run server.pushText program bytes w).1 = .ok address →
    address = top w
  pushText_error : ∀ bytes w code, (run server.pushText program bytes w).1 = .error code →
    top (run server.pushText program bytes w).2 = top w
  release : ∀ address w, top (run server.release program address w).2 = address

namespace ServerFunctions.StacksHeap

variable {server : ServerFunctions W} {program : ProgramId} {top : W → Cell}

/-- **Memory was taken at the top** between two worlds, or the top is where it was. -/
def TakenAtTop (top : W → Cell) (w : W) : Option Cell → W → Prop
  | some address, _ => address = top w
  | none, w' => top w' = top w

theorem pushed_error (h : server.StacksHeap program top) {argument : ArgumentValue} {w w' : W}
    {code : StatusCode} (hpush : PublicCaller.push server program argument w = (.error code, w')) :
    top w' = top w := by
  cases argument with
  | integer value =>
      obtain ⟨_, rfl⟩ := Prod.mk.inj hpush
      exact h.push value w
  | float value =>
      obtain ⟨_, rfl⟩ := Prod.mk.inj hpush
      exact h.push (Cell.ofSingle value) w
  | text value =>
      obtain ⟨hanswer, rfl⟩ := Prod.mk.inj hpush
      exact h.pushText_error _ w code (Except.map_eq_error hanswer)
  | cells values =>
      obtain ⟨hanswer, rfl⟩ := Prod.mk.inj hpush
      exact h.pushArray_error _ w code (Except.map_eq_error hanswer)

theorem pushed_ok (h : server.StacksHeap program top) {argument : ArgumentValue} {w w' : W}
    {taken : Option Cell} (hpush : PublicCaller.push server program argument w = (.ok taken, w')) :
    TakenAtTop top w taken w' := by
  cases argument with
  | integer value =>
      obtain ⟨hanswer, rfl⟩ := Prod.mk.inj hpush
      obtain ⟨_, _, rfl⟩ := Except.map_eq_ok hanswer
      exact h.push value w
  | float value =>
      obtain ⟨hanswer, rfl⟩ := Prod.mk.inj hpush
      obtain ⟨_, _, rfl⟩ := Except.map_eq_ok hanswer
      exact h.push (Cell.ofSingle value) w
  | text value =>
      obtain ⟨hanswer, rfl⟩ := Prod.mk.inj hpush
      obtain ⟨address, hrun, rfl⟩ := Except.map_eq_ok hanswer
      exact h.pushText_ok _ w address hrun
  | cells values =>
      obtain ⟨hanswer, rfl⟩ := Prod.mk.inj hpush
      obtain ⟨address, hrun, rfl⟩ := Except.map_eq_ok hanswer
      exact h.pushArray_ok _ w address hrun

/-- **What was taken first was taken at the top.** If nothing was taken, the top is where it was. -/
theorem pushes (h : server.StacksHeap program top) {arguments : List ArgumentValue} {w w' : W}
    {calls : List (ServerCall W)} {answer : Except StatusCode Unit}
    (hpushes : Pushes server program arguments w calls answer w') :
    TakenAtTop top w (calls.findSome? ServerCall.given?) w' := by
  induction hpushes with
  | done => rfl
  | refused hpush => exact h.pushed_error hpush
  | @pushed _ _ w w' w'' taken calls _ hpush _ ih =>
      have hpushed := h.pushed_ok hpush
      cases taken with
      | some address => exact hpushed
      | none =>
          -- nothing was taken yet, so the next push finds the top where this one did
          have hsame : top w' = top w := hpushed
          unfold TakenAtTop at ih ⊢
          rw [← hsame]
          exact ih

/-- The release puts the top back. -/
theorem release_top (h : server.StacksHeap program top) {first : Option Cell} {w w' : W}
    (hfirst : TakenAtTop top w first w') :
    top (PublicCaller.release server program first w') = top w := by
  cases first with
  | none => exact hfirst
  | some address => exact (h.release address w').trans hfirst

/-- **A call leaves the top where it found it**, if the function that is executed does. -/
theorem conducts (h : server.StacksHeap program top) {index : Cell} {arguments : List ArgumentValue}
    {w w' : W} {pushes executions releases : List (ServerCall W)} {result : Except StatusCode Cell}
    (hexec : ∀ w, top (run server.exec program index w).2 = top w)
    (hconducts : PublicCaller.Conducts server program index arguments w pushes executions releases
      result w') : top w' = top w := by
  cases hconducts with
  | refused hpushes => exact h.release_top (h.pushes hpushes)
  | @executed _ pushed ran hpushes hrun =>
      have hsame : top ran = top pushed := by
        rw [← hexec pushed, hrun]
      -- the release comes after the execution, and the address was given before it
      refine h.release_top ?_
      have hfirst := h.pushes hpushes
      cases hgiven : List.findSome? ServerCall.given? _ with
      | some address => rw [hgiven] at hfirst; exact hfirst
      | none => rw [hgiven] at hfirst; exact hsame.trans hfirst

end ServerFunctions.StacksHeap

/-! ## The whole call -/

/--
**What is asked in a call that leads to a function**, and what comes of it. Arguments are pushed in
reverse order, up to and including the first that is refused. The function is executed once if none was,
and never otherwise. If memory was taken, the address that was given first is released, once.
-/
structure Balanced (program : ProgramId) (index : Cell) (name : String) (arguments : List ArgumentValue)
    (pushes executions releases : List (ServerCall W)) (result : Except PublicCallError Cell) : Prop where
  program_eq : ∀ call ∈ pushes ++ executions ++ releases, call.program = program
  reversed : pushes.map (·.request) <+: arguments.reverse.map ArgumentValue.request
  until_refused : ∀ call ∈ pushes.dropLast, call.refusal? = none
  refused : ∀ code, pushes.findSome? ServerCall.refusal? = some code →
    executions = [] ∧ result = .error (.failed name code)
  executed : pushes.findSome? ServerCall.refusal? = none → pushes.length = arguments.length
    ∧ ∃ (execution : ServerCall W) (answer : Except StatusCode Cell), executions = [execution]
      ∧ execution.request = .exec index ∧ execution.answer = answer.map some
      ∧ result = answer.mapError (.failed name)
  taken : ∀ call ∈ pushes, call.given?.isSome = (call.refusal?.isNone && call.request.takesMemory)
  released : releases.map (·.request) = (pushes.findSome? ServerCall.given?).toList.map .release

namespace PublicCaller

theorem mem_releaseCalls {server : ServerFunctions W} {program : ProgramId} {first : Option Cell} {w : W}
    {call : ServerCall W} (h : call ∈ releaseCalls server program first w) : call.program = program := by
  obtain ⟨_, _, rfl⟩ := List.mem_map.mp h
  rfl

theorem requests_releaseCalls (server : ServerFunctions W) (program : ProgramId) (first : Option Cell)
    (w : W) : (releaseCalls server program first w).map (·.request) = first.toList.map .release := by
  cases first <;> rfl

theorem Conducts.balanced {server : ServerFunctions W} {program : ProgramId} {index : Cell}
    {arguments : List ArgumentValue} {w w' : W} {pushes executions releases : List (ServerCall W)}
    {result : Except StatusCode Cell}
    (h : Conducts server program index arguments w pushes executions releases result w')
    (name : String) : Balanced program index name arguments pushes executions releases
      (result.mapError (.failed name)) := by
  cases h with
  | @refused code _ hpushes =>
      have hcode : pushes.findSome? ServerCall.refusal? = some code := by
        rcases hpushes.outcome with ⟨_, hanswer, hcode⟩ | ⟨hanswer, _⟩
        · rw [Except.error.inj hanswer, hcode]
        · exact absurd hanswer (by simp)
      refine ⟨?_, hpushes.requests_prefix, hpushes.refusal?_of_mem_dropLast, ?_, ?_,
        hpushes.given?_isSome, requests_releaseCalls _ _ _ _⟩
      · intro call hcall
        rw [List.append_nil, List.mem_append] at hcall
        exact hcall.elim (hpushes.program_eq call) mem_releaseCalls
      · intro code' hcode'
        rw [hcode] at hcode'
        exact ⟨rfl, by rw [Option.some.inj hcode']; rfl⟩
      · exact fun hnone => absurd (hcode.symm.trans hnone) (by simp)
  | executed hpushes hrun =>
      have hnone : pushes.findSome? ServerCall.refusal? = none
          ∧ pushes.length = arguments.reverse.length := by
        rcases hpushes.outcome with ⟨_, hanswer, _⟩ | ⟨_, hnone, hlength⟩
        · exact absurd hanswer (by simp)
        · exact ⟨hnone, hlength⟩
      refine ⟨?_, hpushes.requests_prefix, hpushes.refusal?_of_mem_dropLast, ?_, ?_,
        hpushes.given?_isSome, requests_releaseCalls _ _ _ _⟩
      · intro call hcall
        rw [List.append_assoc, List.mem_append, List.mem_append, List.mem_singleton] at hcall
        rcases hcall with hpush | rfl | hrelease
        · exact hpushes.program_eq call hpush
        · rfl
        · exact mem_releaseCalls hrelease
      · exact fun code hcode => absurd (hcode.symm.trans hnone.1) (by simp)
      · exact fun _ => ⟨hnone.2.trans List.length_reverse, _, _, rfl, rfl, rfl, rfl⟩

end PublicCaller

/--
**A call asks in order and gives back what it took.** Before the index of the function is known nothing
is asked but the index, and what is asked afterwards is `Balanced`. So a call leaves the top of the heap
where it was, if the server takes memory at the top and releases down to where it is told, and if the
function leaves the heap as it found it.
-/
theorem call_balances_heap (server : ServerFunctions W) (caller : PublicCaller) (name : String)
    (arguments : List ArgumentValue) (w : W) :
    let plain := caller.call server name arguments w
    caller.call server.recorded name arguments (w, []) =
        (plain.1, plain.2.1, plain.2.2, caller.requests server name arguments w)
      ∧ (∃ lookup pushes executions releases,
        caller.requests server name arguments w = lookup ++ (pushes ++ executions ++ releases)
          ∧ lookup.length ≤ 1 ∧ (∀ call ∈ lookup, ∃ bytes, call.request = .findPublic bytes)
          ∧ (caller.target? server name w = none → pushes ++ executions ++ releases = [])
          ∧ ∀ program index, caller.target? server name w = some (program, index) →
            Balanced program index name arguments pushes executions releases plain.1)
      ∧ ∀ program top, caller.program = some program → server.StacksHeap program top →
        (∀ index, caller.target? server name w = some (program, index) →
          ∀ w, top (ServerFunctions.run server.exec program index w).2 = top w) →
        top plain.2.2 = top w := by
  intro plain
  obtain ⟨hrecorded, lookup, pushes, executions, releases, hrequests, hone, hlookup, hnothing,
    hconducted⟩ := PublicCaller.call_recorded server caller name arguments w
  refine ⟨hrecorded, ⟨lookup, pushes, executions, releases, hrequests, hone, hlookup, hnothing, ?_⟩, ?_⟩
  · intro program index htarget
    obtain ⟨result, hresult, hconducts⟩ := hconducted program index htarget
    rw [show plain.1 = _ from hresult]
    exact hconducts.balanced name
  · intro program top hprogram hheap hexec
    cases htarget : caller.target? server name w with
    | none =>
        obtain ⟨_, _, hsame | ⟨program', hprogram', hfound⟩⟩ :=
          PublicCaller.call_untargeted htarget arguments
        · exact congrArg top hsame
        · obtain rfl := Option.some.inj (hprogram.symm.trans hprogram')
          exact (congrArg top hfound).trans
            (PublicCaller.findIndex_keeps hheap.findPublic caller name w)
    | some target =>
        obtain ⟨program', index⟩ := target
        obtain ⟨hprogram', _⟩ := PublicCaller.call_targeted htarget arguments
        obtain rfl := Option.some.inj (hprogram.symm.trans hprogram')
        obtain ⟨_, _, hconducts⟩ := hconducted _ index htarget
        exact (hheap.conducts (hexec index htarget) hconducts).trans
          (PublicCaller.findIndex_keeps hheap.findPublic caller name w)

/-- **The memory that calls of one program change**: where its heap ends, where its stack begins above
that, and how many parameters wait for the next execution. -/
structure CallState where
  heap : Cell
  stack : Int
  parameters : Nat
  deriving DecidableEq

namespace CallState

/-- Push a cell, if the stack can grow by one. -/
def push (s : CallState) : ServerAnswer CallState Unit :=
  if s.heap.toInt + 4 ≤ s.stack then
    (.ok (), { s with stack := s.stack - 4, parameters := s.parameters + 1 })
  else (.error 3, s)

/-- Take cells of the heap and push their address, if there is room for both. -/
def allocate (cells : Nat) (s : CallState) : ServerAnswer CallState Cell :=
  if s.heap.toInt + 4 * cells + 4 ≤ s.stack then
    (.ok s.heap, ⟨s.heap + Int32.ofNat (4 * cells), s.stack - 4, s.parameters + 1⟩)
  else (.error 16, s)

end CallState

/-- A server whose functions answer how many parameters they were given, and consume them. -/
def ServerFunctions.stacked : ServerFunctions CallState where
  findPublic := some fun _ _ s => (.ok 3, s)
  push := some fun _ _ s => s.push
  pushArray := some fun _ cells s => s.allocate cells.length
  pushText := some fun _ bytes s => s.allocate (bytes.length + 1)
  exec := some fun _ _ s =>
    (.ok (Int32.ofNat s.parameters), ⟨s.heap, s.stack + 4 * s.parameters, 0⟩)
  release := some fun _ address s => (.ok (), { s with heap := address })

theorem ServerFunctions.stacked_stacksHeap (program : ProgramId) :
    ServerFunctions.stacked.StacksHeap program CallState.heap := by
  have hok : ∀ cells s address, (CallState.allocate cells s).1 = .ok address → address = s.heap := by
    intro cells s address h
    unfold CallState.allocate at h
    split at h
    · exact (Except.ok.inj h).symm
    · exact absurd h (by simp)
  have herror : ∀ cells s code, (CallState.allocate cells s).1 = .error code →
      (CallState.allocate cells s).2.heap = s.heap := by
    intro cells s code h
    unfold CallState.allocate at h ⊢
    split at h
    · exact absurd h (by simp)
    · rename_i hfull
      rw [if_neg hfull]
  refine ⟨fun _ _ => rfl, fun _ s => ?_, fun _ s => hok _ s, fun _ s => herror _ s,
    fun _ s => hok _ s, fun _ s => herror _ s, fun _ _ => rfl⟩
  show (CallState.push s).2.heap = s.heap
  unfold CallState.push
  split <;> rfl

/-- A number and a text are pushed, and there is no room for the array: the text is given back. -/
theorem call_balances_heap_full :
    let server := ServerFunctions.stacked
    let caller : PublicCaller := ⟨true, some 7, []⟩
    let arguments : List ArgumentValue := [.integer 1, .cells [1, 2, 3, 4], .text "abc", .integer 5]
    let plain := caller.call server "OnTest" arguments ⟨100, 140, 0⟩
    caller.target? server "OnTest" ⟨100, 140, 0⟩ = some (7, 3)
      ∧ server.StacksHeap 7 CallState.heap
      ∧ (∀ s, CallState.heap (ServerFunctions.run server.exec 7 3 s).2 = s.heap)
      ∧ plain.1 = .error (.failed "OnTest" 16) ∧ plain.2.2.heap = 100
      ∧ ∃ lookup pushes executions releases,
        caller.requests server "OnTest" arguments ⟨100, 140, 0⟩ =
            lookup ++ (pushes ++ executions ++ releases)
          ∧ Balanced 7 3 "OnTest" arguments pushes executions releases plain.1 := by
  intro server caller arguments plain
  have htarget : caller.target? server "OnTest" ⟨100, 140, 0⟩ = some (7, 3) := by decide +kernel
  have hexec : ∀ s, CallState.heap (ServerFunctions.run server.exec 7 3 s).2 = s.heap := fun _ => rfl
  obtain ⟨_, ⟨lookup, pushes, executions, releases, hrequests, _, _, _, hbalanced⟩, hheap⟩ :=
    call_balances_heap server caller "OnTest" arguments ⟨100, 140, 0⟩
  refine ⟨htarget, ServerFunctions.stacked_stacksHeap 7, hexec, by decide +kernel, ?_, lookup, pushes,
    executions, releases, hrequests, hbalanced 7 3 htarget⟩
  refine hheap 7 CallState.heap rfl (ServerFunctions.stacked_stacksHeap 7) fun index hindex => ?_
  obtain rfl := (Prod.mk.inj (Option.some.inj (htarget.symm.trans hindex))).2
  exact hexec

end ScriptBridge
