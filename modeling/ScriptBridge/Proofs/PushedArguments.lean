import ScriptBridge.Proofs.Agreement
import ScriptBridge.Proofs.ServerRequests

/-!
# Arguments that wait for the next execution

A pushed argument lowers the stack of the program by a cell and is counted, until an execution takes all
that were counted. When a push is refused, the call ends without an execution: the memory of the texts
and arrays is given back, but nothing takes the arguments off the stack again that were pushed before.

**What a request does to the stack** is said in one place, by `ServerFunctions.CountsArguments`. From it
follows what a call leaves on the stack, for each of the two ways in which it is conducted.

**What a later execution finds** is therefore more than its own arguments, if a call before it was
refused an argument other than its last one.
-/

namespace ScriptBridge

variable {W : Type}

/-- **The stack of a program as calls see it**: where it begins, and how many arguments wait on it for
the next execution. -/
structure CallFrame where
  stack : Int
  waiting : Nat
  deriving DecidableEq

namespace CallFrame

/-- `count` arguments more. A cell has four bytes. -/
def grown (frame : CallFrame) (count : Nat) : CallFrame :=
  ⟨frame.stack - 4 * count, frame.waiting + count⟩

/-- An execution takes the arguments that waited. -/
def taken (frame : CallFrame) : CallFrame := ⟨frame.stack + 4 * frame.waiting, 0⟩

theorem grown_zero (frame : CallFrame) : frame.grown 0 = frame := by
  simp [grown]

theorem grown_grown (frame : CallFrame) (first second : Nat) :
    (frame.grown first).grown second = frame.grown (first + second) := by
  simp only [grown, CallFrame.mk.injEq]
  omega

theorem grown_eq_self {frame : CallFrame} {count : Nat} : frame.grown count = frame ↔ count = 0 := by
  constructor
  · intro h
    have hwaiting : frame.waiting + count = frame.waiting := congrArg CallFrame.waiting h
    omega
  · rintro rfl
    exact frame.grown_zero

end CallFrame

/-- What an answered push makes of the stack: an argument more, or nothing if it was refused. -/
def CallFrame.pushed {α : Type} (frame : CallFrame) : Except StatusCode α → CallFrame
  | .ok _ => frame.grown 1
  | .error _ => frame

theorem CallFrame.pushed_map {α β : Type} (frame : CallFrame) (f : α → β)
    (answer : Except StatusCode α) : frame.pushed (answer.map f) = frame.pushed answer := by
  cases answer <;> rfl

/-- **A server that counts the arguments of a program**: each push that it does not refuse is one more,
and an execution takes them all. Nothing else changes the stack. -/
structure ServerFunctions.CountsArguments (server : ServerFunctions W) (program : ProgramId)
    (frame : W → CallFrame) : Prop where
  findPublic : ∀ name w, frame (run server.findPublic program name w).2 = frame w
  push : ∀ value w, frame (run server.push program value w).2 =
    (frame w).pushed (run server.push program value w).1
  pushArray : ∀ cells w, frame (run server.pushArray program cells w).2 =
    (frame w).pushed (run server.pushArray program cells w).1
  pushText : ∀ bytes w, frame (run server.pushText program bytes w).2 =
    (frame w).pushed (run server.pushText program bytes w).1
  exec : ∀ index w, frame (run server.exec program index w).2 = (frame w).taken
  release : ∀ address w, frame (run server.release program address w).2 = frame w

namespace ServerFunctions.CountsArguments

variable {server : ServerFunctions W} {program : ProgramId} {frame : W → CallFrame}

theorem pushed (h : server.CountsArguments program frame) (argument : ArgumentValue) (w : W) :
    frame (PublicCaller.push server program argument w).2 =
      (frame w).pushed (PublicCaller.push server program argument w).1 := by
  cases argument with
  | integer value => exact (h.push value w).trans ((frame w).pushed_map _ _).symm
  | float value => exact (h.push _ w).trans ((frame w).pushed_map _ _).symm
  | text value => exact (h.pushText _ w).trans ((frame w).pushed_map _ _).symm
  | cells values => exact (h.pushArray _ w).trans ((frame w).pushed_map _ _).symm

theorem released (h : server.CountsArguments program frame) (first : Option Cell) (w : W) :
    frame (PublicCaller.release server program first w) = frame w := by
  cases first with
  | none => rfl
  | some address => exact h.release address w

end ServerFunctions.CountsArguments

/-! ## What a call leaves on the stack -/

/-- An argument is pushed, whatever its kind. -/
def ServerRequest.isPush : ServerRequest → Bool
  | .push _ => true
  | .pushArray _ => true
  | .pushText _ => true
  | _ => false

theorem ArgumentValue.request_isPush (argument : ArgumentValue) : argument.request.isPush = true := by
  cases argument <;> rfl

/-- **How many arguments were pushed.** What was refused does not count. -/
def accepted (calls : List (ServerCall W)) : Nat :=
  calls.countP fun call => call.request.isPush && call.refusal?.isNone

theorem accepted_pushed (program : ProgramId) (argument : ArgumentValue) (w : W) (taken : Option Cell)
    (calls : List (ServerCall W)) :
    accepted (⟨program, argument.request, w, .ok taken⟩ :: calls) = accepted calls + 1 := by
  refine List.countP_cons_of_pos ?_
  rw [argument.request_isPush]
  rfl

theorem accepted_refused (program : ProgramId) (request : ServerRequest) (w : W) (code : StatusCode) :
    accepted [⟨program, request, w, .error code⟩] = 0 := by
  refine List.countP_cons_of_neg ?_
  simp [ServerCall.refusal?]

namespace Pushes

variable {server : ServerFunctions W} {program : ProgramId} {arguments : List ArgumentValue}
  {w w' : W} {calls : List (ServerCall W)} {answer : Except StatusCode Unit}

theorem isPush (h : Pushes server program arguments w calls answer w') :
    ∀ call ∈ calls, call.request.isPush = true := by
  intro call hcall
  have hmem := h.requests_prefix.subset (List.mem_map_of_mem hcall)
  obtain ⟨argument, _, hrequest⟩ := List.mem_map.mp hmem
  rw [← hrequest]
  exact argument.request_isPush

/-- Only one push is refused. -/
theorem findSome?_refusal (h : Pushes server program arguments w calls answer w') {call : ServerCall W}
    (hmem : call ∈ calls) {code : StatusCode} (hcode : call.refusal? = some code) :
    calls.findSome? ServerCall.refusal? = some code := by
  induction h with
  | done => exact absurd hmem List.not_mem_nil
  | refused _ =>
      rw [List.mem_singleton] at hmem
      rw [List.findSome?_singleton, ← hmem, hcode]
  | pushed _ _ ih =>
      rcases List.mem_cons.mp hmem with rfl | hrest
      · exact absurd hcode (by simp [ServerCall.refusal?])
      · exact ih hrest

/-- **Each push that is not refused** is an argument more on the stack. -/
theorem frame_eq {frame : W → CallFrame} (hcounts : server.CountsArguments program frame)
    (h : Pushes server program arguments w calls answer w') :
    frame w' = (frame w).grown (accepted calls) := by
  induction h with
  | done => exact (CallFrame.grown_zero _).symm
  | @refused argument _ w _ _ hpush =>
      have hpushed := hcounts.pushed argument w
      rw [hpush] at hpushed
      rw [accepted_refused, CallFrame.grown_zero]
      exact hpushed
  | @pushed argument _ w w' _ _ calls _ hpush _ ih =>
      have hpushed := hcounts.pushed argument w
      rw [hpush] at hpushed
      have hone : frame w' = (frame w).grown 1 := hpushed
      rw [ih, hone, CallFrame.grown_grown, accepted_pushed, Nat.add_comm]

/-- **All arguments were pushed, or all that were asked for but the last.** -/
theorem accepted_eq (h : Pushes server program arguments w calls answer w') :
    (answer = .ok () ∧ accepted calls = arguments.length)
      ∨ (∃ code, answer = .error code) ∧ calls.length = accepted calls + 1 := by
  induction h with
  | done => exact .inl ⟨rfl, rfl⟩
  | refused _ =>
      right
      rw [accepted_refused]
      exact ⟨⟨_, rfl⟩, rfl⟩
  | pushed _ _ ih =>
      rw [accepted_pushed]
      rcases ih with ⟨hanswer, hlength⟩ | ⟨hanswer, hlength⟩
      · exact .inl ⟨hanswer, congrArg (· + 1) hlength⟩
      · exact .inr ⟨hanswer, congrArg (· + 1) hlength⟩

end Pushes

namespace PublicCaller

variable {server : ServerFunctions W} {program : ProgramId} {frame : W → CallFrame}

/-- **What is on the stack after a call**, and what its execution finds there, by the way in which it is
conducted. -/
theorem Conducts.frame_eq (hcounts : server.CountsArguments program frame) {index : Cell}
    {arguments : List ArgumentValue} {w w' : W} {pushes executions releases : List (ServerCall W)}
    {result : Except StatusCode Cell}
    (h : Conducts server program index arguments w pushes executions releases result w') :
    ((∃ code, result = .error code ∧ pushes.findSome? ServerCall.refusal? = some code)
        ∧ executions = [] ∧ pushes.length = accepted pushes + 1
        ∧ frame w' = (frame w).grown (accepted pushes))
      ∨ pushes.findSome? ServerCall.refusal? = none
        ∧ (∀ execution ∈ executions, frame execution.before = (frame w).grown arguments.length)
        ∧ frame w' = ((frame w).grown arguments.length).taken := by
  cases h with
  | @refused code pushed hpushes =>
      left
      rcases hpushes.outcome with ⟨code', hanswer, hcode⟩ | ⟨hanswer, _⟩
      swap
      · exact absurd hanswer (by simp)
      rcases hpushes.accepted_eq with ⟨hanswer', _⟩ | ⟨_, hlength⟩
      · exact absurd hanswer' (by simp)
      refine ⟨⟨code', congrArg Except.error (Except.error.inj hanswer), hcode⟩, rfl, hlength, ?_⟩
      rw [hcounts.released, hpushes.frame_eq hcounts]
  | @executed _ pushed ran hpushes hrun =>
      right
      rcases hpushes.outcome with ⟨_, hanswer, _⟩ | ⟨_, hnone, _⟩
      · exact absurd hanswer (by simp)
      rcases hpushes.accepted_eq with ⟨_, hall⟩ | ⟨⟨_, hanswer⟩, _⟩
      swap
      · exact absurd hanswer (by simp)
      rw [List.length_reverse] at hall
      have hfound : frame pushed = (frame w).grown arguments.length := by
        rw [hpushes.frame_eq hcounts, hall]
      have hleft : frame ran = (frame pushed).taken := by
        rw [← hcounts.exec index pushed, hrun]
      refine ⟨hnone, ?_, ?_⟩
      · intro execution hexecution
        rw [List.mem_singleton.mp hexecution]
        exact hfound
      · rw [hcounts.released, hleft, hfound]

theorem Conducts.findSome?_refusal {index : Cell} {arguments : List ArgumentValue} {w w' : W}
    {pushes executions releases : List (ServerCall W)} {result : Except StatusCode Cell}
    (h : Conducts server program index arguments w pushes executions releases result w')
    {call : ServerCall W} (hmem : call ∈ pushes) {code : StatusCode}
    (hcode : call.refusal? = some code) : pushes.findSome? ServerCall.refusal? = some code := by
  cases h with
  | refused hpushes => exact hpushes.findSome?_refusal hmem hcode
  | executed hpushes _ => exact hpushes.findSome?_refusal hmem hcode

/-- The requests of a call are of the three kinds that their names say. -/
theorem Conducts.kinds {index : Cell} {arguments : List ArgumentValue} {w w' : W}
    {pushes executions releases : List (ServerCall W)} {result : Except StatusCode Cell}
    (h : Conducts server program index arguments w pushes executions releases result w') :
    (∀ call ∈ pushes, call.request.isPush = true)
      ∧ (∀ call ∈ executions, call.request = .exec index)
      ∧ ∀ call ∈ releases, ∃ address, call.request = .release address := by
  have hreleases : ∀ first w', ∀ call ∈ releaseCalls server program first w',
      ∃ address, call.request = .release address := by
    intro first w' call hcall
    obtain ⟨address, _, rfl⟩ := List.mem_map.mp hcall
    exact ⟨address, rfl⟩
  cases h with
  | refused hpushes =>
      exact ⟨hpushes.isPush, fun _ hcall => absurd hcall List.not_mem_nil, hreleases _ _⟩
  | executed hpushes _ =>
      refine ⟨hpushes.isPush, ?_, hreleases _ _⟩
      intro call hcall
      rw [List.mem_singleton.mp hcall]

/-- **The pushes of a call are its first requests** after the look-up, and no others. -/
theorem Conducts.filter_isPush {index : Cell} {arguments : List ArgumentValue} {w w' : W}
    {lookup pushes executions releases : List (ServerCall W)} {result : Except StatusCode Cell}
    (h : Conducts server program index arguments w pushes executions releases result w')
    (hlookup : ∀ call ∈ lookup, ∃ bytes, call.request = .findPublic bytes) :
    (lookup ++ (pushes ++ executions ++ releases)).filter (·.request.isPush) = pushes := by
  obtain ⟨hpushes, hexecutions, hreleases⟩ := h.kinds
  have hfind : lookup.filter (·.request.isPush) = [] := by
    refine List.filter_eq_nil_iff.mpr ?_
    intro call hcall
    obtain ⟨bytes, hbytes⟩ := hlookup call hcall
    rw [hbytes]
    exact Bool.false_ne_true
  have hexec : executions.filter (·.request.isPush) = [] := by
    refine List.filter_eq_nil_iff.mpr ?_
    intro call hcall
    rw [hexecutions call hcall]
    exact Bool.false_ne_true
  have hrelease : releases.filter (·.request.isPush) = [] := by
    refine List.filter_eq_nil_iff.mpr ?_
    intro call hcall
    obtain ⟨address, haddress⟩ := hreleases call hcall
    rw [haddress]
    exact Bool.false_ne_true
  rw [List.filter_append, List.filter_append, List.filter_append, hfind, hexec, hrelease,
    List.filter_eq_self.mpr hpushes, List.nil_append, List.append_nil, List.append_nil]

/--
**What is pushed or executed in a call** belongs to the one function that the call leads to: all pushes
of the call are its pushes, and all executions its executions.
-/
theorem conducts_of_request {caller : PublicCaller} {name : String} {arguments : List ArgumentValue}
    {w : W} (hprogram : caller.program = some program) {call : ServerCall W}
    (hcall : call ∈ caller.requests server name arguments w)
    (hkind : call.request.isPush = true ∨ ∃ index, call.request = .exec index) :
    ∃ index pushes executions releases result,
      Conducts server program index arguments (caller.findIndex server program name w).2.2
          pushes executions releases result (caller.call server name arguments w).2.2
        ∧ (caller.call server name arguments w).1 = result.mapError (.failed name)
        ∧ (caller.requests server name arguments w).filter (·.request.isPush) = pushes
        ∧ (call ∈ pushes ∨ call ∈ executions) := by
  obtain ⟨_, lookup, pushes, executions, releases, hrequests, _, hlookup, hnothing, hconducted⟩ :=
    call_recorded server caller name arguments w
  rw [hrequests] at hcall ⊢
  -- neither a look-up nor a release is of these kinds
  have hfind : call ∉ lookup := by
    intro hmem
    obtain ⟨bytes, hbytes⟩ := hlookup call hmem
    rw [hbytes] at hkind
    rcases hkind with hpush | ⟨_, hexec⟩
    · exact absurd hpush Bool.false_ne_true
    · exact absurd hexec (by simp)
  have hrest := (List.mem_append.mp hcall).resolve_left hfind
  cases htarget : caller.target? server name w with
  | none =>
      rw [hnothing htarget] at hrest
      exact absurd hrest List.not_mem_nil
  | some target =>
      obtain ⟨program', index⟩ := target
      obtain ⟨hprogram', _⟩ := call_targeted htarget arguments
      obtain rfl := Option.some.inj (hprogram.symm.trans hprogram')
      obtain ⟨result, hresult, hconducts⟩ := hconducted _ index htarget
      obtain ⟨_, _, hreleases⟩ := hconducts.kinds
      have hrelease : call ∉ releases := by
        intro hmem
        obtain ⟨address, haddress⟩ := hreleases call hmem
        rw [haddress] at hkind
        rcases hkind with hpush | ⟨_, hexec⟩
        · exact absurd hpush Bool.false_ne_true
        · exact absurd hexec (by simp)
      have hmem := (List.mem_append.mp hrest).resolve_right hrelease
      exact ⟨index, pushes, executions, releases, result, hconducts, hresult,
        hconducts.filter_isPush hlookup, List.mem_append.mp hmem⟩

end PublicCaller

/-- The arguments that were pushed are pushes. -/
theorem accepted_filter (calls : List (ServerCall W)) :
    accepted (calls.filter (·.request.isPush)) = accepted calls := by
  unfold accepted
  rw [List.countP_filter]
  refine List.countP_congr ?_
  intro call _
  cases call.request.isPush <;> simp

/--
**A call that was refused an argument leaves the others on the stack**, those that it had pushed before.
The stack is as it was before the call only if the first push was refused. Whatever function is called
next, its execution finds them beside its own arguments, and takes them too.
-/
theorem refused_call_leaves_its_arguments {server : ServerFunctions W} {program : ProgramId}
    {frame : W → CallFrame} (hcounts : server.CountsArguments program frame) (caller : PublicCaller)
    (hprogram : caller.program = some program) (name : String) (arguments : List ArgumentValue) (w : W) :
    let requests := caller.requests server name arguments w
    let failed := caller.call server name arguments w
    ∀ refused ∈ requests, ∀ code, refused.request.isPush = true → refused.refusal? = some code →
      failed.1 = .error (.failed name code)
        ∧ (requests.filter (·.request.isPush)).length = accepted requests + 1
        ∧ frame failed.2.2 = (frame w).grown (accepted requests)
        ∧ (frame failed.2.2 = frame w ↔ accepted requests = 0)
        ∧ ∀ nextName nextArguments,
          ∀ execution ∈ failed.2.1.requests server nextName nextArguments failed.2.2,
            ∀ index, execution.request = .exec index →
              let found := (frame w).grown (accepted requests + nextArguments.length)
              frame execution.before = found
                ∧ frame (failed.2.1.call server nextName nextArguments failed.2.2).2.2 = found.taken := by
  intro requests failed refused hrefused code hpush hcode
  have hframe : frame (caller.findIndex server program name w).2.2 = frame w :=
    PublicCaller.findIndex_keeps hcounts.findPublic caller name w
  obtain ⟨index, pushes, executions, releases, result, hconducts, hresult, hpushes, hmem⟩ :=
    PublicCaller.conducts_of_request hprogram hrefused (.inl hpush)
  have hpushed : refused ∈ pushes := by
    rw [← hpushes]
    exact List.mem_filter.mpr ⟨hrefused, hpush⟩
  have hfirst := hconducts.findSome?_refusal hpushed hcode
  have haccepted : accepted pushes = accepted requests := by
    rw [← hpushes, accepted_filter]
  rcases hconducts.frame_eq hcounts with ⟨⟨code', rfl, hcode'⟩, _, hlength, hleft⟩ | ⟨hnone, _⟩
  swap
  · exact absurd (hfirst.symm.trans hnone) (by simp)
  obtain rfl := Option.some.inj (hfirst.symm.trans hcode')
  rw [haccepted, hframe] at hleft
  rw [haccepted, ← hpushes] at hlength
  refine ⟨hresult, hlength, hleft, ?_, ?_⟩
  · rw [hleft]
    exact CallFrame.grown_eq_self
  intro nextName nextArguments execution hexecution index' hexec
  -- the next call targets the same program
  have hnext : failed.2.1.program = some program :=
    (caller.call_program server name arguments w).trans hprogram
  obtain ⟨_, nextPushes, _, _, _, hconducts', _, hpushes', hmem'⟩ :=
    PublicCaller.conducts_of_request hnext hexecution (.inr ⟨index', hexec⟩)
  have hexecuted : execution ∈ _ := hmem'.resolve_left fun hmem => by
    have hkind := hconducts'.kinds.1 execution hmem
    rw [hexec] at hkind
    exact absurd hkind Bool.false_ne_true
  have hlooked := PublicCaller.findIndex_keeps hcounts.findPublic failed.2.1 nextName failed.2.2
  rcases hconducts'.frame_eq hcounts with ⟨_, hnothing, _⟩ | ⟨_, hfound, htaken⟩
  · rw [hnothing] at hexecuted
    exact absurd hexecuted List.not_mem_nil
  · have hfound' := hfound execution hexecuted
    rw [hlooked, hleft, CallFrame.grown_grown] at hfound' htaken
    exact ⟨hfound', htaken⟩

/-- The stack of the program that `ServerFunctions.stacked` calls. -/
def CallState.frame (s : CallState) : CallFrame := ⟨s.stack, s.parameters⟩

theorem ServerFunctions.stacked_countsArguments (program : ProgramId) :
    ServerFunctions.stacked.CountsArguments program CallState.frame := by
  have hpush : ∀ s, (CallState.push s).2.frame = s.frame.pushed (CallState.push s).1 := by
    intro s
    unfold CallState.push
    split
    · rfl
    · rfl
  have hallocate : ∀ cells s,
      (CallState.allocate cells s).2.frame = s.frame.pushed (CallState.allocate cells s).1 := by
    intro cells s
    unfold CallState.allocate
    split
    · rfl
    · rfl
  exact ⟨fun _ _ => rfl, fun _ s => hpush s, fun _ s => hallocate _ s, fun _ s => hallocate _ s,
    fun _ _ => rfl, fun _ _ => rfl⟩

/-- Two of four arguments are on the stack when the array is refused, and the next execution has three
in place of its one. -/
theorem refused_call_leaves_its_arguments_two :
    let server := ServerFunctions.stacked
    let caller : PublicCaller := ⟨true, some 7, []⟩
    let arguments : List ArgumentValue := [.integer 1, .cells [1, 2, 3, 4], .text "abc", .integer 5]
    let refused : ServerCall CallState := ⟨7, .pushArray [1, 2, 3, 4], ⟨116, 132, 2⟩, .error 16⟩
    let failed := caller.call server "OnTest" arguments ⟨100, 140, 0⟩
    server.CountsArguments 7 CallState.frame ∧ caller.program = some 7
      ∧ refused ∈ caller.requests server "OnTest" arguments ⟨100, 140, 0⟩
      ∧ refused.request.isPush = true ∧ refused.refusal? = some 16
      ∧ failed.1 = .error (.failed "OnTest" 16) ∧ failed.2.2.frame = ⟨132, 2⟩
      ∧ ∀ execution ∈ failed.2.1.requests server "OnTest" [.integer 9] failed.2.2,
        execution.request = .exec 3 → execution.before.frame = ⟨128, 3⟩
          ∧ (failed.2.1.call server "OnTest" [.integer 9] failed.2.2).2.2.frame = ⟨140, 0⟩ := by
  intro server caller arguments refused failed
  have hrefused : refused ∈ caller.requests server "OnTest" arguments ⟨100, 140, 0⟩ := by
    decide +kernel
  have htwo : accepted (caller.requests server "OnTest" arguments ⟨100, 140, 0⟩) = 2 := by
    decide +kernel
  obtain ⟨hresult, _, hleft, _, hnext⟩ := refused_call_leaves_its_arguments
    (ServerFunctions.stacked_countsArguments 7) caller rfl "OnTest" arguments ⟨100, 140, 0⟩ refused
    hrefused 16 rfl rfl
  rw [htwo] at hleft hnext
  refine ⟨ServerFunctions.stacked_countsArguments 7, rfl, hrefused, rfl, rfl, hresult, hleft, ?_⟩
  intro execution hexecution hexec
  exact hnext "OnTest" [.integer 9] execution hexecution 3 hexec

/-- **A refused call is not taken back.** The text is pushed, and there is no room for the array. The
stack is a cell lower than before the call, and the next execution is given a parameter although it is
called without arguments. -/
theorem refused_call_is_not_taken_back :
    let server := ServerFunctions.stacked
    let caller : PublicCaller := ⟨true, some 7, []⟩
    let before : CallState := ⟨100, 140, 0⟩
    let failed := caller.call server "OnTest" [.cells [1, 2, 3, 4, 5], .text "abc"] before
    let next := failed.2.1.call server "OnTest" [] failed.2.2
    server.CountsArguments 7 CallState.frame ∧ server.StacksHeap 7 CallState.heap
      ∧ failed.1 = .error (.failed "OnTest" 16)
      ∧ failed.2.2.frame ≠ before.frame ∧ failed.2.2 = ⟨100, 136, 1⟩
      ∧ next.1 = .ok 1 := by
  intro server caller before failed next
  exact ⟨ServerFunctions.stacked_countsArguments 7, ServerFunctions.stacked_stacksHeap 7,
    by decide +kernel, by decide +kernel, by decide +kernel, by decide +kernel⟩

end ScriptBridge
