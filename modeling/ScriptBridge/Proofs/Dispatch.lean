import ScriptBridge.Proofs.DefinitionFiles
import ScriptBridge.Proofs.Following

/-!
# Which executions are offered

An execution at an index that is kept is offered to the delegate, with the arguments read off the
stack. Whether that happens depends on the program, on what is kept of it and on its stack; what
then happens depends on the annotations of the callback and on the answer.

**Offers.** `Interceptor.Offers` collects what an offer depends on. An execution that fulfils it
leads to one call, with a bag that was read for it, and any other execution to none.

**Ends.** A callback that unloads its program ends what is kept, but only after an offer. Where the
arguments cannot be read there is no offer, the program runs the function all the same, and the
interceptor goes on following it.
-/

namespace ScriptBridge

namespace Interceptor

/-- **When an execution is offered.** The program is followed, the index leads to a callback and is
not that of the function that is recognised by name, and the arguments are all there. -/
structure Offers (i : Interceptor) (program : Program) (index : Cell) (callback : Callback) :
    Prop where
  followed : i.program = some program.id
  other : i.playerUpdate ≠ some index
  cached : ∃ position, i.intercepted.lookup index = some position
    ∧ i.callbacks.get? position = some callback
  holds : program.Holds callback.arguments

theorem callbackAt?_eq_some_iff {i : Interceptor} {index : Cell} {callback : Callback} :
    i.callbackAt? index = some callback ↔
      ∃ position, i.intercepted.lookup index = some position
        ∧ i.callbacks.get? position = some callback :=
  Option.bind_eq_some_iff

section

variable {D : Type} {i : Interceptor} {program : Program} {index : Cell} {callback : Callback}

/-- What is looked up and is all there is offered. -/
theorem Watches.offers (h : i.Watches program index) (hother : i.playerUpdate ≠ some index)
    (hcallback : i.callbackAt? index = some callback) (hholds : program.Holds callback.arguments) :
    i.Offers program index callback :=
  ⟨h.followed, hother, callbackAt?_eq_some_iff.mp hcallback, hholds⟩

/-- **An offer is one call**, and the end of the program where the callback says so. -/
theorem Offers.offered (h : i.Offers program index callback) (hinstalled : i.installed = true)
    (hinside : index ≠ entryPoint) (delegate : Delegate D) (d : D) :
    ∃ bag : Bag, bag.ReadOff program callback.arguments
      ∧ (i.onExecute program index delegate d).1 =
        decide callback (delegate.intercepted callback bag d).1
      ∧ (callback.unloadsProgram = false
          ∧ (i.onExecute program index delegate d).2.1 = { i with arguments := bag }
          ∧ i.reports program index delegate d =
            [.intercepted callback bag (delegate.intercepted callback bag d).1]
        ∨ callback.unloadsProgram = true
          ∧ (i.onExecute program index delegate d).2.1 =
            ({ i with arguments := bag } : Interceptor).cleared
          ∧ i.reports program index delegate d =
            [.intercepted callback bag (delegate.intercepted callback bag d).1,
              .programChanged none]) := by
  have hwatches : i.Watches program index := ⟨hinstalled, hinside, h.followed⟩
  have hat : i.callbackAt? index = some callback := callbackAt?_eq_some_iff.mpr h.cached
  obtain ⟨bag, hbag, hoffer⟩ := offer_read (i := i) h.holds
  refine ⟨bag, hbag, ?_⟩
  unfold reports
  rw [onExecute_offer delegate d hwatches h.other hat,
    onExecute_offer delegate.noted _ hwatches h.other hat, hoffer, hoffer]
  cases callback.unloadsProgram with
  | false => exact ⟨rfl, .inl ⟨rfl, rfl, rfl⟩⟩
  | true => exact ⟨rfl, .inr ⟨rfl, rfl, rfl⟩⟩

/-- Where the arguments of a callback cannot be read, nobody is told, and nothing changes but what
the bag holds. -/
theorem Watches.unreadable (h : i.Watches program index) (hother : i.playerUpdate ≠ some index)
    (hcallback : i.callbackAt? index = some callback)
    (hunread : ¬ program.Holds callback.arguments) (delegate : Delegate D) (d : D) :
    (∃ bag, (i.onExecute program index delegate d).2.1 = { i with arguments := bag })
      ∧ i.reports program index delegate d = [] := by
  unfold reports
  rw [onExecute_offer delegate d h hother hcallback,
    onExecute_offer delegate.noted _ h hother hcallback, offer_unread _ _ hunread,
    offer_unread _ _ hunread]
  exact ⟨⟨_, rfl⟩, rfl⟩

/-- The function that is recognised by name leads to a report if there is a player, and to nothing
else. -/
theorem Watches.updated (h : i.Watches program index) (hupdate : i.playerUpdate = some index)
    (delegate : Delegate D) (d : D) :
    (i.onExecute program index delegate d).1 = .forward
      ∧ (i.onExecute program index delegate d).2.1 = i
      ∧ i.reports program index delegate d = (program.argument? 0).toList.map .playerUpdate := by
  unfold reports
  rw [onExecute_update delegate d h hupdate, onExecute_update delegate.noted _ h hupdate]
  cases program.argument? 0 <;> exact ⟨rfl, rfl, rfl⟩

/-- **Without an offer there is no call**, and the execution is forwarded. -/
theorem Acts.not_offered {i' : Interceptor} {delegate : Delegate D} {d d' : D} {decision : Decision}
    {reports : List Report} (h : i.Acts program index delegate d decision i' d' reports)
    (hnone : ¬ ∃ callback, i.Offers program index callback) :
    decision = .forward ∧ ∀ report ∈ reports, report.isCall = false := by
  cases h with
  | asleep _ => exact ⟨rfl, by simp⟩
  | loads _ _ => exact ⟨rfl, by simp [Report.isCall]⟩
  | foreign _ _ => exact ⟨rfl, by simp⟩
  | updates _ _ _ => exact ⟨rfl, by simp [Report.isCall]⟩
  | noPlayer _ _ _ => exact ⟨rfl, by simp⟩
  | unknown _ _ _ => exact ⟨rfl, by simp⟩
  | unread _ _ _ _ _ => exact ⟨rfl, by simp⟩
  | offers hwatches hother hcallback hholds _ _ =>
      exact absurd ⟨_, hwatches.offers hother hcallback hholds⟩ hnone
  | unloads hwatches hother hcallback hholds _ _ =>
      exact absurd ⟨_, hwatches.offers hother hcallback hholds⟩ hnone

/-- **A call is suppressed exactly if its answer is yes and it may be.** -/
theorem decide_eq_handled_iff {answer : Bool} {value : Cell} :
    decide callback answer = .handled value ↔
      answer = true ∧ callback.cancelable = true ∧ callback.returnValue = value := by
  unfold decide
  cases answer <;> cases callback.cancelable <;> simp

/-- **An execution is suppressed exactly if a call was answered with yes and may be suppressed.** -/
theorem handled_iff (hinstalled : i.installed = true) (hinside : index ≠ entryPoint)
    (delegate : Delegate D) (d : D) (value : Cell) :
    (i.onExecute program index delegate d).1 = .handled value ↔
      ∃ (callback : Callback) (bag : Bag),
        .intercepted callback bag true ∈ i.reports program index delegate d
          ∧ callback.cancelable = true ∧ callback.returnValue = value := by
  by_cases hoffers : ∃ callback, i.Offers program index callback
  · obtain ⟨callback, hoffers⟩ := hoffers
    obtain ⟨bag, _, hdecision, hreports⟩ := hoffers.offered hinstalled hinside delegate d
    generalize i.reports program index delegate d = reports at hreports ⊢
    have hcall : .intercepted callback bag (delegate.intercepted callback bag d).1 ∈ reports := by
      rcases hreports with ⟨_, _, rfl⟩ | ⟨_, _, rfl⟩ <;> exact List.mem_cons_self
    have honly : ∀ (other : Callback) (bag' : Bag), .intercepted other bag' true ∈ reports →
        other = callback ∧ (delegate.intercepted callback bag d).1 = true := by
      intro other bag' hother
      have heq : Report.intercepted other bag' true =
          .intercepted callback bag (delegate.intercepted callback bag d).1 := by
        rcases hreports with ⟨_, _, rfl⟩ | ⟨_, _, rfl⟩ <;> simpa using hother
      obtain ⟨hsame, _, hanswer⟩ := Report.intercepted.inj heq
      exact ⟨hsame, hanswer.symm⟩
    rw [hdecision, decide_eq_handled_iff]
    constructor
    · rintro ⟨hanswer, hrest⟩
      exact ⟨callback, bag, hanswer ▸ hcall, hrest⟩
    · rintro ⟨other, bag', hother, hrest⟩
      obtain ⟨rfl, hanswer⟩ := honly other bag' hother
      exact ⟨hanswer, hrest⟩
  · obtain ⟨hforward, hreports⟩ :=
      (i.onExecute_acts program index delegate d).not_offered hoffers
    rw [hforward]
    constructor
    · intro hhandled
      exact absurd hhandled (by simp)
    · rintro ⟨_, _, hcall, _⟩
      exact absurd (hreports _ hcall) (by simp [Report.isCall])

end

end Interceptor

/-- What is kept leads to a callback. -/
theorem Caches.callback {callbacks : CallbackTable} {names : List String} {i : Interceptor}
    (h : Caches callbacks names i) {index : Cell} {position : Nat}
    (hposition : i.intercepted.lookup index = some position) :
    ∃ callback, callbacks.get? position = some callback := by
  obtain ⟨_, name, _, _, _, hname⟩ := h.leads index position hposition
  obtain ⟨callback, hcallback, _⟩ := CallbackTable.get?_of_position? hname
  exact ⟨callback, hcallback⟩

/-- Where an index stands for one function, the one that is recognised by name is not kept. -/
theorem Caches.update_not_kept {callbacks : CallbackTable} {names : List String} {i : Interceptor}
    (h : Caches callbacks names i) (hlen : names.length ≤ UInt32.size) {index : Cell} {position : Nat}
    (hposition : i.intercepted.lookup index = some position) : i.playerUpdate ≠ some index := by
  intro hupdate
  obtain ⟨place, name, hname, rfl, hother, _⟩ := h.leads index position hposition
  obtain ⟨place', hname', hindex, _⟩ := (h.update _).mp hupdate
  have hlt := (List.getElem?_eq_some_iff.mp hname).1
  have hlt' := (List.getElem?_eq_some_iff.mp hname').1
  obtain rfl : place' = place := Cell.ofSize_injective (by omega) (by omega) hindex
  exact hother (Option.some.inj (hname.symm.trans hname'))

/--
**An execution is offered exactly once, or not at all.** In whatever an interceptor has become, a
program runs a function other than its entry point.

If that is offered, its delegate gets one call, with a bag that was read for it; otherwise it gets
none. The execution is suppressed exactly if the call was answered with yes and its callback may be
suppressed, and then answers what was declared. The function that is recognised by name is always
forwarded, leaves everything as it was, and reports the player, if one is on the stack.

Every index that is kept leads to a callback. Where an index stands for one function, that of the
function that is recognised by name is not kept.
-/
theorem offered_once_or_never {D : Type} (callbacks : CallbackTable)
    (actions : List (InterceptorAction D)) (d : D) (program : Program) (index : Cell)
    (delegate : Delegate D) (hinside : index ≠ Interceptor.entryPoint) :
    let r := (InterceptorRun.start callbacks d).run actions
    let i := r.interceptor
    let outcome := i.onExecute program index delegate r.world
    let reports := i.reports program index delegate r.world
    (∀ callback, i.Offers program index callback →
        ∃ bag : Bag, bag.ReadOff program callback.arguments
          ∧ reports.filter (·.isCall) =
            [.intercepted callback bag (delegate.intercepted callback bag r.world).1])
      ∧ ((¬ ∃ callback, i.Offers program index callback) → reports.filter (·.isCall) = [])
      ∧ (∀ value, outcome.1 = .handled value ↔
        ∃ (callback : Callback) (bag : Bag), .intercepted callback bag true ∈ reports
          ∧ callback.cancelable = true ∧ callback.returnValue = value)
      ∧ (∀ (main : Program) (place : Nat), latestMain r.history = some main →
        i.program = some program.id →
        main.publicNames[place]? = some Interceptor.playerUpdateName →
        (∀ later, place < later →
          main.publicNames[later]? ≠ some Interceptor.playerUpdateName) →
        index = Cell.ofSize place →
        outcome.1 = .forward ∧ outcome.2.1 = i
          ∧ reports = (program.argument? 0).toList.map .playerUpdate)
      ∧ ∀ position, i.intercepted.lookup index = some position →
        (∃ callback, i.callbacks.get? position = some callback)
          ∧ ∀ main, latestMain r.history = some main → main.publicNames.length ≤ UInt32.size →
            i.playerUpdate ≠ some index := by
  intro r i outcome reports
  have h : r.Tracked callbacks :=
    InterceptorRun.run_tracked actions (InterceptorRun.tracked_start callbacks d)
  have hcaches : ∀ id, i.program = some id →
      ∃ main, latestMain r.history = some main ∧ Caches callbacks main.publicNames i := by
    intro id hid
    obtain ⟨main, hmain, _⟩ := (h.followed id).mp hid
    exact ⟨main, hmain.latestMain_eq, h.caches main hmain⟩
  refine ⟨fun callback hoffers => ?_, fun hnone => ?_, fun value => ?_,
    fun main place hmain hfollowed hname hlast hindex => ?_, fun position hposition => ?_⟩
  · obtain ⟨bag, hbag, _, hreports⟩ := hoffers.offered h.installed hinside delegate r.world
    refine ⟨bag, hbag, ?_⟩
    rcases hreports with ⟨_, _, hreports⟩ | ⟨_, _, hreports⟩ <;>
      exact congrArg (List.filter (·.isCall)) hreports
  · have hcalls := ((i.onExecute_acts program index delegate r.world).not_offered hnone).2
    exact List.filter_eq_nil_iff.mpr fun report hreport => by simp [hcalls report hreport]
  · exact i.handled_iff h.installed hinside delegate r.world value
  · obtain ⟨main', hmain', hcaches⟩ := hcaches _ hfollowed
    obtain rfl := Option.some.inj (hmain.symm.trans hmain')
    have hwatches : i.Watches program index := ⟨h.installed, hinside, hfollowed⟩
    exact hwatches.updated ((hcaches.update index).mpr ⟨place, hname, hindex.symm, hlast⟩)
      delegate r.world
  · -- nothing is kept without a program
    have hsome : i.program ≠ none := by
      intro hnone
      rw [(h.idle hnone).1] at hposition
      exact absurd hposition (by simp)
    obtain ⟨id, hid⟩ := Option.ne_none_iff_exists'.mp hsome
    obtain ⟨main, hmain, hcaches⟩ := hcaches id hid
    refine ⟨?_, fun main' hmain' hlen => ?_⟩
    · rw [h.table]
      exact hcaches.callback hposition
    · obtain rfl := Option.some.inj (hmain.symm.trans hmain')
      exact hcaches.update_not_kept hlen hposition

/-- A text that arrives, with a handler that says yes: the player who wrote it reads nothing. -/
theorem offered_once_or_never_text :
    let callback : Callback :=
      { name := "OnPlayerText", arguments := [("playerid", .integer), ("text", .text)]
        cancelable := true, returnValue := 7 }
    let program : Program :=
      { id := 3, argumentCount := 2, argument? := (([5, 64] : List Cell)[·]?)
        readText? := fun cell => if cell = 64 then some "hi" else none
        publicNames := ["OnPlayerUpdate", "OnPlayerText"] }
    let yes : Delegate Unit := ⟨fun _ _ => (), fun _ _ _ => (true, ()), fun _ _ => ()⟩
    let r := (InterceptorRun.start ⟨[callback]⟩ ()).run
      [.execute program Interceptor.entryPoint yes]
    (1 : Cell) ≠ Interceptor.entryPoint ∧ r.interceptor.Offers program 1 callback
      ∧ (∃ bag : Bag, bag.ReadOff program callback.arguments
        ∧ (r.interceptor.reports program 1 yes r.world).filter (·.isCall) =
          [.intercepted callback bag true])
      ∧ (r.interceptor.onExecute program 1 yes r.world).1 = .handled 7 := by
  intro callback program yes r
  have hinside : (1 : Cell) ≠ Interceptor.entryPoint := by decide
  have hoffers : r.interceptor.Offers program 1 callback := by
    refine ⟨rfl, by decide +kernel, ⟨0, by decide +kernel, rfl⟩, by decide, ?_⟩
    intro place name kind hplace
    match place with
    | 0 =>
        obtain ⟨rfl, rfl⟩ := Prod.mk.inj (Option.some.inj hplace)
        exact ⟨5, rfl, fun h => absurd h (by decide)⟩
    | 1 =>
        obtain ⟨rfl, rfl⟩ := Prod.mk.inj (Option.some.inj hplace)
        exact ⟨64, rfl, fun _ => by decide⟩
    | place + 2 => exact absurd hplace (by simp [callback])
  obtain ⟨honce, _, hhandled, _⟩ := offered_once_or_never ⟨[callback]⟩
    [.execute program Interceptor.entryPoint yes] () program 1 yes hinside
  obtain ⟨bag, hbag, hcalls⟩ := honce callback hoffers
  refine ⟨hinside, hoffers, ⟨bag, hbag, hcalls⟩, (hhandled 7).mpr ⟨callback, bag, ?_, rfl, rfl⟩⟩
  exact List.mem_of_mem_filter (hcalls ▸ List.mem_singleton_self _)

/-! ## The end of a program -/

/--
**What is followed ends with an unload exactly if the arguments can be read.** In whatever an
interceptor has become, the program that it follows runs a callback that unloads it.

Where the arguments are all there, nothing is followed or kept any more, and the delegate is told so
once, after the call. Where one is missing, nobody is told, and the program is followed as before.
-/
theorem tracking_ends_iff_read {D : Type} (callbacks : CallbackTable)
    (actions : List (InterceptorAction D)) (d : D) (program : Program) (index : Cell)
    (delegate : Delegate D) (callback : Callback) (hinside : index ≠ Interceptor.entryPoint)
    (hunloads : callback.unloadsProgram = true) :
    let r := (InterceptorRun.start callbacks d).run actions
    let i := r.interceptor
    let left := (i.onExecute program index delegate r.world).2.1
    let reports := i.reports program index delegate r.world
    i.program = some program.id → i.playerUpdate ≠ some index →
      i.callbackAt? index = some callback →
      (program.Holds callback.arguments →
        left.program = none ∧ left.intercepted = [] ∧ left.playerUpdate = none
          ∧ ∃ (bag : Bag) (answer : Bool),
            reports = [.intercepted callback bag answer, .programChanged none])
      ∧ (¬ program.Holds callback.arguments →
        left.program = i.program ∧ left.intercepted = i.intercepted
          ∧ left.playerUpdate = i.playerUpdate ∧ reports = []) := by
  intro r i left reports hfollowed hother hcallback
  have h : r.Tracked callbacks :=
    InterceptorRun.run_tracked actions (InterceptorRun.tracked_start callbacks d)
  have hwatches : i.Watches program index := ⟨h.installed, hinside, hfollowed⟩
  constructor
  · intro hholds
    have hoffers : i.Offers program index callback := hwatches.offers hother hcallback hholds
    obtain ⟨bag, _, _, ⟨hnot, _⟩ | ⟨_, hleft, hreports⟩⟩ :=
      hoffers.offered h.installed hinside delegate r.world
    · exact absurd (hunloads.symm.trans hnot) (by decide)
    · rw [show left = _ from hleft]
      exact ⟨rfl, rfl, rfl, bag, _, hreports⟩
  · intro hunread
    obtain ⟨⟨bag, hleft⟩, hreports⟩ :=
      hwatches.unreadable hother hcallback hunread delegate r.world
    rw [show left = _ from hleft]
    exact ⟨rfl, rfl, rfl, hreports⟩

section

/-- A callback that is the last one of its program and has a reason. -/
def Callback.farewell : Callback :=
  { name := "OnGameModeExit", arguments := [("reason", .integer)], unloadsProgram := true }

/-- A program that runs its last callback with some cells on its stack. -/
def Program.leaving (stack : List Cell) : Program :=
  { id := 3, argumentCount := stack.length, argument? := (stack[·]?), readText? := fun _ => none
    publicNames := ["OnGameModeExit"] }

/-- A delegate that says no. -/
def Delegate.no : Delegate Unit := ⟨fun _ _ => (), fun _ _ _ => (false, ()), fun _ _ => ()⟩

/-- With the reason on the stack the program is not followed any more. -/
theorem tracking_ends_iff_read_farewell :
    let program := Program.leaving [1]
    let r := (InterceptorRun.start ⟨[.farewell]⟩ ()).run
      [.execute program Interceptor.entryPoint .no]
    let left := (r.interceptor.onExecute program 0 .no r.world).2.1
    ((0 : Cell) ≠ Interceptor.entryPoint ∧ Callback.farewell.unloadsProgram = true
        ∧ r.interceptor.program = some program.id ∧ r.interceptor.playerUpdate ≠ some 0
        ∧ r.interceptor.callbackAt? 0 = some .farewell ∧ program.Holds Callback.farewell.arguments)
      ∧ left.program = none ∧ left.intercepted = [] ∧ left.playerUpdate = none
      ∧ ∃ (bag : Bag) (answer : Bool), r.interceptor.reports program 0 .no r.world =
        [.intercepted .farewell bag answer, .programChanged none] := by
  intro program r left
  have hinside : (0 : Cell) ≠ Interceptor.entryPoint := by decide
  have hother : r.interceptor.playerUpdate ≠ some 0 := by decide +kernel
  have hcallback : r.interceptor.callbackAt? 0 = some .farewell := by decide +kernel
  have hholds : program.Holds Callback.farewell.arguments := by
    refine ⟨by decide, fun place name kind hplace => ?_⟩
    match place with
    | 0 =>
        obtain ⟨rfl, rfl⟩ := Prod.mk.inj (Option.some.inj hplace)
        exact ⟨1, rfl, fun h => absurd h (by decide)⟩
    | place + 1 => exact absurd hplace (by simp [Callback.farewell])
  refine ⟨⟨hinside, rfl, rfl, hother, hcallback, hholds⟩, ?_⟩
  exact (tracking_ends_iff_read ⟨[.farewell]⟩ [.execute program Interceptor.entryPoint .no] ()
    program 0 .no .farewell hinside rfl rfl hother hcallback).1 hholds

/-- **A program may outlive its last callback**: without a reason on the stack it is followed on,
and nobody is told. -/
theorem unreadable_unload_keeps_program :
    let program := Program.leaving []
    let before := (InterceptorRun.start ⟨[.farewell]⟩ ()).run
      [.execute program Interceptor.entryPoint .no]
    let after := before.act (.execute program 0 .no)
    before.interceptor.program = some program.id ∧ before.interceptor.playerUpdate ≠ some 0
      ∧ before.interceptor.callbackAt? 0 = some .farewell
      ∧ Callback.farewell.unloadsProgram = true
      ∧ after.interceptor.program = some program.id ∧ after.interceptor.intercepted = [(0, 0)]
      ∧ before.interceptor.reports program 0 .no before.world = [] := by
  refine ⟨rfl, by decide +kernel, by decide +kernel, rfl, by decide +kernel, by decide +kernel, ?_⟩
  rfl

end

end ScriptBridge
