import ScriptBridge.Proofs.Following
import ScriptBridge.Proofs.Notebook

/-!
# One program for all

Three parts of a bridge know which program is loaded: the interceptor follows it, the caller of
public functions targets it, and the host was told of it. Each has its own copy, and the copies
change at different moments: in the middle of a dispatch, when a program is removed, and before or
after the host has reacted.

`Agrees` says that all copies are the same, and that this was so at every entry of the notebook.
What happens between two reports is up to the host, which may do anything that its context allows;
`Agrees.plan` is the induction over what it does. A report then moves all copies at once, and
`Agrees.reports` is the induction over the reports of an execution.
-/

namespace ScriptBridge

variable {F H W : Type}

/-! ## What a host was told last -/

/-- The program that an entry is about, if the host was told of one or of none. -/
def HostNote.announced : HostNote H → Option (Option ProgramId)
  | .told (.programChanged program) => some program
  | _ => none

/-- **The program that the host was told of last.** Before it was told of any there is none. -/
def lastTold (notes : List (HostNote H)) : Option ProgramId :=
  (notes.filterMap (·.announced)).getLast?.join

theorem lastTold_silent {notes : List (HostNote H)} {note : HostNote H}
    (h : note.announced = none) : lastTold (notes ++ [note]) = lastTold notes := by
  unfold lastTold
  rw [List.filterMap_append, List.filterMap_cons_none h, List.filterMap_nil, List.append_nil]

theorem lastTold_programChanged (notes : List (HostNote H)) (program : Option ProgramId) :
    lastTold (notes ++ [.told (.programChanged program)]) = program := by
  have hnote : (HostNote.told (.programChanged program) : HostNote H).announced = some program :=
    rfl
  unfold lastTold
  rw [List.filterMap_append, List.filterMap_cons_some hnote, List.filterMap_nil,
    List.getLast?_concat]
  rfl

/-- **An entry fits what came before it**: the context shows the program that the host was told of
last, and it is told that there is none only if there was one. -/
def HostNote.Fits (before : List (HostNote H)) : HostNote H → Prop
  | .saw program => program = lastTold before
  | .acted .program answer => answer = .program (lastTold before)
  | .told (.programChanged none) => lastTold before ≠ none
  | _ => True

/-- **All copies are the same** and were so at every entry. -/
structure Agrees (program : Option ProgramId) (context : Context F H)
    (notes : List (HostNote H)) : Prop where
  targeted : context.publics.program = program
  told : lastTold notes = program
  fits : Throughout HostNote.Fits notes

/-! ## What a host does -/

namespace PublicCaller

theorem setProgram_program (caller : PublicCaller) (program : Option ProgramId) :
    (caller.setProgram program).program = program := by
  unfold setProgram
  split
  · assumption
  · rfl

theorem findIndex_program (caller : PublicCaller) (server : ServerFunctions W) (program : ProgramId)
    (name : String) (w : W) :
    (caller.findIndex server program name w).2.1.program = caller.program := by
  unfold findIndex
  split
  · rfl
  · split
    · rfl
    · split <;> rfl

/-- A call targets the same program afterwards, whatever came of it. -/
theorem call_program (caller : PublicCaller) (server : ServerFunctions W) (name : String)
    (arguments : List ArgumentValue) (w : W) :
    (caller.call server name arguments w).2.1.program = caller.program := by
  unfold call
  split
  · rfl
  · split
    · rfl
    · rename_i program _ _
      have hfind := caller.findIndex_program server program name w
      split
      · rename_i heq
        rw [heq] at hfind
        exact hfind
      · rename_i heq
        rw [heq] at hfind
        split <;> exact hfind

end PublicCaller

/-- **No action of a host changes which program is targeted.** -/
theorem Context.perform_program (env : Environment F H W) (context : Context F H)
    (action : HostAction H) (w : W) :
    (context.perform env action w).2.1.publics.program = context.publics.program := by
  cases action with
  | callPublic name arguments => exact context.publics.call_program env.server name arguments w
  | provide name signature handler =>
      show (context.provide name signature handler).2.publics.program = _
      unfold provide
      split <;> rfl
  | _ => rfl

namespace Agrees

variable (env : Environment F H W) (host : Host H W) {program : Option ProgramId}
  {context : Context F H} {notes : List (HostNote H)} {s : Bridge.Stage F H W}

theorem snoc (h : Agrees program context notes) {note : HostNote H} (hnote : note.announced = none)
    (hfits : note.Fits notes) : Agrees program context (notes ++ [note]) :=
  ⟨h.targeted, (lastTold_silent hnote).trans h.told, h.fits.snoc hfits⟩

/-- **A host may do what it likes.** -/
theorem plan {α : Type} (plan : Plan H W α) (w : W) (h : Agrees program context notes) :
    Agrees program (plan.run env context w).2.1 (notes ++ plan.notes env context w) := by
  have hshows : ∀ {context : Context F H} {notes : List (HostNote H)},
      Agrees program context notes → context.publics.program = lastTold notes :=
    fun h => h.targeted.trans h.told.symm
  -- an action may change the context and lengthens the notes, so both vary along the tree
  induction plan generalizing context w notes with
  | done answer => exact h.snoc rfl (hshows h)
  | act action next ih =>
      have hsaw : Agrees program context (notes ++ [.saw context.publics.program]) :=
        h.snoc rfl (hshows h)
      have hacted : Agrees program context ((notes ++ [.saw context.publics.program])
          ++ [.acted action (context.perform env action w).1]) := by
        refine hsaw.snoc rfl ?_
        cases action with
        | program => exact congrArg ActionAnswer.program (hshows hsaw)
        | _ => trivial
      have hafter : Agrees program (context.perform env action w).2.1 _ :=
        ⟨(context.perform_program env action w).trans hacted.targeted, hacted.told, hacted.fits⟩
      have hrest := ih (context.perform env action w).1 (context.perform env action w).2.2 hafter
      rw [List.append_assoc, List.append_assoc] at hrest
      exact hrest
  | change effect next ih => exact ih (effect w) h
  | look next ih => exact ih w w h

/-- An event that is not about programs changes no copy. -/
theorem tell (h : Agrees program s.context notes) {event : HostEvent}
    (hevent : ∀ program, event ≠ .programChanged program) :
    Agrees program (Bridge.tell env host event s).2.context
      (notes ++ Bridge.tellNotes env host event s) := by
  have htold : Agrees program s.context (notes ++ [.told event]) := by
    cases event with
    | programChanged program => exact absurd rfl (hevent program)
    | _ => exact h.snoc rfl trivial
  have hrest := htold.plan env (host event) s.world
  rw [List.append_assoc] at hrest
  exact hrest

/-- Events that are not about programs change no copy. -/
theorem tellAll : ∀ (events : List HostEvent) {s : Bridge.Stage F H W} {notes : List (HostNote H)},
    Agrees program s.context notes →
    (∀ event ∈ events, ∀ program, event ≠ .programChanged program) →
    Agrees program (Bridge.tellAll env host events s).context
      (notes ++ Bridge.tellAllNotes env host events s)
  | [], s, notes, h, _ => by
      rw [show Bridge.tellAllNotes env host [] s = [] from rfl, List.append_nil]
      exact h
  | event :: rest, s, notes, h, hevents => by
      have hfirst := h.tell env host (hevents event List.mem_cons_self)
      have hrest := tellAll rest hfirst fun e he => hevents e (List.mem_cons_of_mem _ he)
      rw [List.append_assoc] at hrest
      exact hrest

end Agrees

/-! ## What an interceptor reports -/

namespace Report

/-- The program that is loaded after a report. -/
def follow (program : Option ProgramId) : Report → Option ProgramId
  | .programChanged other => other
  | _ => program

/-- **Reports in an order that makes sense**: there is a program when its end is reported. -/
def Ordered : Option ProgramId → List Report → Prop
  | _, [] => True
  | program, report :: rest =>
    (report = .programChanged none → program ≠ none) ∧ Ordered (report.follow program) rest

end Report

/-- **An interceptor follows the program that it reports**, and reports the end of one only. -/
theorem Interceptor.Acts.ordered {D : Type} {i i' : Interceptor} {program : Program} {index : Cell}
    {delegate : Delegate D} {d d' : D} {decision : Decision} {reports : List Report}
    (h : i.Acts program index delegate d decision i' d' reports) :
    Report.Ordered i.program reports ∧ i'.program = reports.foldl Report.follow i.program := by
  cases h with
  | asleep _ => exact ⟨trivial, rfl⟩
  | loads _ _ => exact ⟨⟨fun h => absurd h (by simp), trivial⟩, rfl⟩
  | foreign _ _ => exact ⟨trivial, rfl⟩
  | updates _ _ _ => exact ⟨⟨fun h => absurd h (by simp), trivial⟩, rfl⟩
  | noPlayer _ _ _ => exact ⟨trivial, rfl⟩
  | unknown _ _ _ => exact ⟨trivial, rfl⟩
  | unread _ _ _ _ _ => exact ⟨trivial, rfl⟩
  | offers _ _ _ _ _ _ => exact ⟨⟨fun h => absurd h (by simp), trivial⟩, rfl⟩
  | unloads hwatches _ _ _ _ _ =>
      refine ⟨⟨fun h => absurd h (by simp), fun _ => ?_, trivial⟩, rfl⟩
      exact Option.ne_none_iff_exists'.mpr ⟨_, hwatches.followed⟩

namespace Agrees

variable (env : Environment F H W) (host : Host H W) {program : Option ProgramId}
  {notes : List (HostNote H)} {s : Bridge.Stage F H W}

/-- **A report moves all copies at once.** -/
theorem report (h : Agrees program s.context notes) (report : Report)
    (hordered : report = .programChanged none → program ≠ none) :
    Agrees (report.follow program) ((Bridge.delegate env host).heard s report).context
      (notes ++ Bridge.reportNotes env host s report) := by
  cases report with
  | programChanged other =>
      -- the caller is targeted before the host is told, so its plan starts with equal copies
      have htold : Agrees other
          { s.context with publics := s.context.publics.setProgram other }
          (notes ++ [.told (.programChanged other)]) := by
        refine ⟨s.context.publics.setProgram_program other, lastTold_programChanged notes other,
          h.fits.snoc ?_⟩
        cases other with
        | none => exact fun hnone => hordered rfl (h.told.symm.trans hnone)
        | some id => trivial
      have hrest := htold.plan env (host (.programChanged other)) s.world
      rw [List.append_assoc] at hrest
      exact hrest
  | intercepted callback arguments answer =>
      show Agrees program (Bridge.delegate env host |>.intercepted callback arguments s).2.context
        (notes ++ if callback.deferred then [] else _)
      unfold Bridge.delegate
      dsimp only
      split
      · rw [List.append_nil]
        exact h
      · exact h.tell env host fun _ => by simp
  | playerUpdate player => exact h.tell env host fun _ => by simp

/-- **All copies are the same after every execution.** -/
theorem reports : ∀ (reports : List Report) {program : Option ProgramId}
    {s : Bridge.Stage F H W} {notes : List (HostNote H)},
    Agrees program s.context notes → Report.Ordered program reports →
    Agrees (reports.foldl Report.follow program)
      (reports.foldl (Bridge.delegate env host).heard s).context
      (notes ++ Bridge.reportsNotes env host reports s)
  | [], _, s, notes, h, _ => by
      rw [show Bridge.reportsNotes env host [] s = [] from rfl, List.append_nil]
      exact h
  | report :: rest, _, s, notes, h, hordered => by
      have hfirst := h.report env host report hordered.1
      have hrest := reports rest hfirst hordered.2
      rw [List.append_assoc] at hrest
      exact hrest

end Agrees

/-! ## Runs -/

namespace BridgeRun

/-- **All parts of a bridge agree** on the program that is loaded. -/
def Agreed (r : BridgeRun F H W) : Prop :=
  Agrees r.bridge.interceptor.program r.bridge.context r.notes

theorem agreed_start (settings : Settings) (callbacks : CallbackTable) (natives : List String)
    (w : W) : (start settings callbacks natives w : BridgeRun F H W).Agreed :=
  ⟨rfl, rfl, throughout_nil⟩

/-- What deferred calls and connections have to tell is not about programs. -/
theorem frameEvents_other (deferred : List (Callback × Bag))
    (updates : List (ConnectionId × ConnectionUpdate)) :
    ∀ event ∈ Bridge.frameEvents deferred updates,
      ∀ program, event ≠ HostEvent.programChanged program := by
  intro event hevent program
  rcases List.mem_append.mp hevent with hevent | hframe
  · rcases List.mem_append.mp hevent with hdeferred | hupdate
    · obtain ⟨call, _, rfl⟩ := List.mem_map.mp hdeferred
      simp
    · obtain ⟨⟨connection, update⟩, _, rfl⟩ := List.mem_map.mp hupdate
      cases update <;> simp [HostEvent.ofUpdate]
  · rw [List.mem_singleton.mp hframe]
    simp

/-- **Every operation keeps the agreement.** -/
theorem Agreed.step {r : BridgeRun F H W} (env : Environment F H W) (host : Host H W)
    (h : r.Agreed) (action : BridgeAction F H W) : (r.act env host action).Agreed := by
  cases action with
  | install port =>
      have hsame : (r.bridge.interceptor.install port r.world).2.1.program
          = r.bridge.interceptor.program := by
        unfold Interceptor.install
        split <;> rfl
      exact ⟨h.targeted.trans hsame.symm, h.told.trans hsame.symm, h.fits⟩
  | setExports => exact ⟨h.targeted, h.told, h.fits⟩
  | register list number => exact ⟨h.targeted, h.told, h.fits⟩
  | execute program index =>
      have hacts := r.bridge.interceptor.onExecute_acts program index (Bridge.delegate env host)
        (r.bridge.stage r.world)
      have hall := Agrees.reports env host _ (s := r.bridge.stage r.world) h hacts.ordered.1
      rw [← hacts.ordered.2, ← hacts.heard] at hall
      rw [act_execute]
      exact hall
  | unloaded program =>
      rw [act_unloaded]
      show Agrees (r.bridge.onProgramUnloaded env host program r.world).1.interceptor.program
        (r.bridge.onProgramUnloaded env host program r.world).1.context
        (r.notes ++ r.bridge.unloadNotes env host program r.world)
      unfold Bridge.onProgramUnloaded Bridge.unloadNotes Interceptor.forget
      by_cases hfollowed : r.bridge.interceptor.program = some program
      · rw [if_pos hfollowed]
        have hsome : r.bridge.interceptor.program ≠ none :=
          Option.ne_none_iff_exists'.mpr ⟨program, hfollowed⟩
        rw [if_pos rfl]
        exact Agrees.report env host (s := r.bridge.stage r.world) h (.programChanged none)
          fun _ => hsome
      · rw [if_neg hfollowed, if_neg Bool.false_ne_true, List.append_nil]
        exact h
  | frame =>
      have hstage : Agrees r.bridge.interceptor.program
          { r.bridge.context with connections := r.bridge.context.connections.takeUpdates.2 }
          r.notes := ⟨h.targeted, h.told, h.fits⟩
      rw [act_frame]
      exact Agrees.tellAll env host (s := ⟨_, [], r.world⟩) _ hstage (frameEvents_other _ _)
  | context plan =>
      rw [act_context]
      exact h.plan env plan r.world
  | work connection => exact ⟨h.targeted, h.told, h.fits⟩

theorem agreed_run (env : Environment F H W) (host : Host H W) :
    ∀ (actions : List (BridgeAction F H W)) {r : BridgeRun F H W}, r.Agreed →
      (r.run env host actions).Agreed
  | [], _, h => h
  | action :: actions, _, h => agreed_run env host actions (h.step env host action)

end BridgeRun

/--
**All parts of a bridge agree on the program that is loaded.** Whatever is asked of a bridge, in
whatever order, and whatever its host does: what the interceptor follows and what calls of public
functions are targeted at is the program that the host was told of last, and there is none before it
was told of one.

The same holds in between. Whenever a host looks at its context while it handles an event, or asks
it for the program, it finds the one that it was told of last. It is never told that there is none
unless it was told of one before.
-/
theorem parts_agree_on_program (env : Environment F H W) (host : Host H W) (settings : Settings)
    (callbacks : CallbackTable) (natives : List String) (w : W)
    (actions : List (BridgeAction F H W)) :
    let r := (BridgeRun.start settings callbacks natives w).run env host actions
    r.bridge.interceptor.program = lastTold r.notes
      ∧ r.bridge.context.publics.program = lastTold r.notes
      ∧ ∀ (before after : List (HostNote H)) (note : HostNote H),
        r.notes = before ++ note :: after →
          (∀ program, note = .saw program → program = lastTold before)
          ∧ (∀ answer, note = .acted .program answer → answer = .program (lastTold before))
          ∧ (note = .told (.programChanged none) → lastTold before ≠ none) := by
  intro r
  have h : r.Agreed :=
    BridgeRun.agreed_run env host actions (BridgeRun.agreed_start settings callbacks natives w)
  refine ⟨h.told.symm, h.targeted.trans h.told.symm, fun before after note heq => ?_⟩
  have hfits : note.Fits before := h.fits before after note heq
  refine ⟨fun program hnote => ?_, fun answer hnote => ?_, fun hnote => ?_⟩
  all_goals
    subst hnote
    exact hfits

/-- A program that is announced and then removed, twice, and a host that ignores all of it. -/
example (env : Environment F H Unit) (settings : Settings) :
    let program : Program := ⟨3, 0, fun _ => none, fun _ => none, ["OnGameModeInit"]⟩
    let installed : HookPort Unit := ⟨fun _ => true, fun w => (.ok (), w)⟩
    let r := (BridgeRun.start settings .empty [] ()).run env .silent
      [.install installed, .execute program Interceptor.entryPoint, .unloaded program.id,
        .unloaded program.id]
    r.notes = [.told (.programChanged (some 3)), .saw (some 3), .told (.programChanged none),
      .saw none] := rfl

end ScriptBridge
