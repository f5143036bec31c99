import ScriptBridge.Proofs.Notebook

/-!
# How old a known index is

A caller asks the server for the index of a public function once and keeps the answer. What the
server answers depends on the program, and a program may come back with other functions under the
same number.

**Tables.** `ServerFunctions.table` is what the server finds in a world. The functions of a server that
is `Steady` leave it alone, so it changes only when a program is loaded, which ends with an
announcement.

**Ages.** The answers that are kept are dropped when another program is targeted, not when the same one
is announced again. So an index is as old as the time since the target changed: it was found in the
table of one of the announcements since then. It is found in the present table if there was but one.
-/

namespace ScriptBridge

variable {W : Type}

/-- **The names of public functions**, by program, with the indices that they are found under. -/
abbrev PublicTable := ProgramId → List UInt8 → Except StatusCode Cell

namespace ServerFunctions

/-- **What the server finds under names** in a world. -/
def table (server : ServerFunctions W) (w : W) : PublicTable := fun program name =>
  (run server.findPublic program name w).1

/-- **A server whose functions change no table.** -/
structure Steady (server : ServerFunctions W) : Prop where
  findPublic : ∀ program name w,
    server.table (run server.findPublic program name w).2 = server.table w
  push : ∀ program value w, server.table (run server.push program value w).2 = server.table w
  pushArray : ∀ program cells w,
    server.table (run server.pushArray program cells w).2 = server.table w
  pushText : ∀ program bytes w, server.table (run server.pushText program bytes w).2 = server.table w
  exec : ∀ program index w, server.table (run server.exec program index w).2 = server.table w
  release : ∀ program address w,
    server.table (run server.release program address w).2 = server.table w

/-- **A server that notes what it executes**, the latest last. -/
def noted (server : ServerFunctions W) : ServerFunctions (W × List (ProgramId × Cell)) where
  findPublic := beside server.findPublic
  push := beside server.push
  pushArray := beside server.pushArray
  pushText := beside server.pushText
  exec := server.exec.map fun f program index s =>
    let (answer, w) := f program index s.1
    (answer, w, s.2 ++ [(program, index)])
  release := beside server.release

end ServerFunctions

namespace PublicCaller

variable (server : ServerFunctions W)

/-! ## What a call executes -/

/-- **What a call executes**: programs and the indices of functions. -/
def executed (caller : PublicCaller) (name : String) (arguments : List ArgumentValue) (w : W) :
    List (ProgramId × Cell) :=
  (caller.call server.noted name arguments (w, [])).2.2.2

section

variable (w : W) (notes : List (ProgramId × Cell))

theorem exec_noted (program : ProgramId) (index : Cell) :
    ∃ runs, (∀ run ∈ runs, run = (program, index)) ∧
      ServerFunctions.run server.noted.exec program index (w, notes) =
        ((ServerFunctions.run server.exec program index w).1,
          (ServerFunctions.run server.exec program index w).2, notes ++ runs) := by
  unfold ServerFunctions.noted ServerFunctions.run
  cases server.exec with
  | none => exact ⟨[], fun _ h => absurd h List.not_mem_nil, by simp⟩
  | some f => exact ⟨[(program, index)], fun _ h => List.mem_singleton.mp h, rfl⟩

theorem execute_noted (program : ProgramId) (index : Cell) (arguments : List ArgumentValue) :
    ∃ runs, (∀ run ∈ runs, run = (program, index)) ∧
      execute server.noted program index arguments (w, notes) =
        ((execute server program index arguments w).1,
          (execute server program index arguments w).2, notes ++ runs) := by
  have hrelease : server.noted.release = ServerFunctions.beside server.release := rfl
  unfold execute
  rw [pushAll_beside rfl rfl rfl]
  rcases pushAll server program arguments.reverse none w with ⟨answer, first, w'⟩
  cases answer with
  | error code =>
      refine ⟨[], fun _ h => absurd h List.not_mem_nil, ?_⟩
      simp only [release_beside hrelease, List.append_nil]
  | ok _ =>
      obtain ⟨runs, hruns, hexec⟩ := exec_noted server w' notes program index
      refine ⟨runs, hruns, ?_⟩
      simp only [hexec, release_beside hrelease]

/-- **Noting changes nothing**, and a call executes at most what its name leads to. -/
theorem call_noted (caller : PublicCaller) (name : String) (arguments : List ArgumentValue) :
    ∃ runs, (∀ run ∈ runs, caller.program = some run.1
        ∧ (caller.findIndex server run.1 name w).1 = some run.2) ∧
      caller.call server.noted name arguments (w, notes) =
        ((caller.call server name arguments w).1, (caller.call server name arguments w).2.1,
          (caller.call server name arguments w).2.2, notes ++ runs) := by
  rcases caller.call_cases with ⟨e, hcall⟩ | ⟨program, hprogram, hcall⟩
  · refine ⟨[], fun _ h => absurd h List.not_mem_nil, ?_⟩
    rw [hcall, hcall, List.append_nil]
  · rw [hcall, hcall, findIndex_beside rfl]
    rcases hfind : caller.findIndex server program name w with ⟨found, caller', w'⟩
    cases found with
    | none => exact ⟨[], fun _ h => absurd h List.not_mem_nil, by simp⟩
    | some index =>
        obtain ⟨runs, hruns, hexecute⟩ := execute_noted server w' notes program index arguments
        refine ⟨runs, fun run hrun => ?_, ?_⟩
        · rw [hruns run hrun, hfind]
          exact ⟨hprogram, rfl⟩
        · simp only [hexecute]
          rcases execute server program index arguments w' with ⟨answer, w''⟩
          cases answer <;> rfl

end

/-- **A call executes at most the index that its name leads to**, in the program that is targeted. -/
theorem findIndex_of_executed {server : ServerFunctions W} {caller : PublicCaller} {name : String}
    {arguments : List ArgumentValue} {w : W} {program : ProgramId} {index : Cell}
    (h : (program, index) ∈ caller.executed server name arguments w) :
    caller.program = some program ∧ (caller.findIndex server program name w).1 = some index := by
  obtain ⟨runs, hruns, hcall⟩ := caller.call_noted server w [] name arguments
  unfold executed at h
  rw [hcall] at h
  exact hruns _ h

/-! ## What a call leaves alone -/

/--
**What a lookup can do.** An index that is known is given without asking. A name that is asked for is
kept if it was found.
-/
inductive Finds (caller : PublicCaller) (program : ProgramId) (name : String) (w : W) :
    Option Cell → PublicCaller → W → Prop where
  | known {index : Cell} : caller.indices.lookup name = some index →
      Finds caller program name w (some index) caller w
  | unspeakable : nameBytes? name = none → Finds caller program name w none caller w
  | missing {bytes : List UInt8} {code : StatusCode} : nameBytes? name = some bytes →
      server.table w program bytes = .error code →
      Finds caller program name w none caller
        (ServerFunctions.run server.findPublic program bytes w).2
  | asked {bytes : List UInt8} {index : Cell} : nameBytes? name = some bytes →
      server.table w program bytes = .ok index →
      Finds caller program name w (some index)
        { caller with indices := (name, index) :: caller.indices }
        (ServerFunctions.run server.findPublic program bytes w).2

theorem findIndex_finds (caller : PublicCaller) (program : ProgramId) (name : String) (w : W) :
    let found := caller.findIndex server program name w
    caller.Finds server program name w found.1 found.2.1 found.2.2 := by
  intro found
  unfold found findIndex
  cases hknown : caller.indices.lookup name with
  | some index => exact .known hknown
  | none =>
      cases hbytes : nameBytes? name with
      | none => exact .unspeakable hbytes
      | some bytes =>
          dsimp only
          rcases hrun : ServerFunctions.run server.findPublic program bytes w with ⟨answer, w'⟩
          have hleft : w' = (ServerFunctions.run server.findPublic program bytes w).2 := by rw [hrun]
          have htable : server.table w program bytes = answer := congrArg Prod.fst hrun
          subst hleft
          cases answer with
          | error code => exact .missing hbytes htable
          | ok index => exact .asked hbytes htable

theorem call_caller (caller : PublicCaller) (name : String) (arguments : List ArgumentValue) (w : W) :
    (caller.call server name arguments w).2.1 = caller
      ∨ ∃ program, caller.program = some program ∧ (caller.call server name arguments w).2.1 =
        (caller.findIndex server program name w).2.1 := by
  rcases caller.call_cases with ⟨e, hcall⟩ | ⟨program, hprogram, hcall⟩
  · left
    rw [hcall]
  · right
    refine ⟨program, hprogram, ?_⟩
    rw [hcall]
    rcases caller.findIndex server program name w with ⟨found, caller', w'⟩
    cases found with
    | none => rfl
    | some index =>
        dsimp only
        rcases execute server program index arguments w' with ⟨answer, w''⟩
        cases answer <;> rfl

section

variable {server} (hsteady : server.Steady)

include hsteady

theorem push_steady (program : ProgramId) (argument : ArgumentValue) (w : W) :
    server.table (push server program argument w).2 = server.table w := by
  cases argument with
  | integer value => exact hsteady.push program value w
  | float value => exact hsteady.push program (Cell.ofSingle value) w
  | text value => exact hsteady.pushText program (pushedBytes value) w
  | cells values => exact hsteady.pushArray program (values.map fun word => word.toInt32) w

theorem pushAll_steady (program : ProgramId) (arguments : List ArgumentValue) (first : Option Cell)
    (w : W) :
    server.table (pushAll server program arguments first w).2.2 = server.table w := by
  induction arguments generalizing first w with
  | nil => rfl
  | cons argument rest ih =>
      have hpush := push_steady hsteady program argument w
      unfold pushAll
      generalize push server program argument w = pushed at hpush ⊢
      obtain ⟨answer, w'⟩ := pushed
      cases answer with
      | error code => exact hpush
      | ok taken => exact (ih (first <|> taken) w').trans hpush

theorem release_steady (program : ProgramId) (first : Option Cell) (w : W) :
    server.table (release server program first w) = server.table w := by
  cases first with
  | none => rfl
  | some address => exact hsteady.release program address w

theorem execute_steady (program : ProgramId) (index : Cell) (arguments : List ArgumentValue)
    (w : W) : server.table (execute server program index arguments w).2 = server.table w := by
  have hpushed := pushAll_steady hsteady program arguments.reverse none w
  unfold execute
  generalize pushAll server program arguments.reverse none w = pushed at hpushed ⊢
  obtain ⟨answer, first, w'⟩ := pushed
  cases answer with
  | error code => exact (release_steady hsteady program first w').trans hpushed
  | ok _ =>
      have hexec := hsteady.exec program index w'
      exact ((release_steady hsteady program first _).trans hexec).trans hpushed

theorem findIndex_steady (caller : PublicCaller) (program : ProgramId) (name : String) (w : W) :
    server.table (caller.findIndex server program name w).2.2 = server.table w := by
  have hfinds := caller.findIndex_finds server program name w
  generalize caller.findIndex server program name w = found at hfinds ⊢
  obtain ⟨index, caller', w'⟩ := found
  cases hfinds with
  | known _ => rfl
  | unspeakable _ => rfl
  | missing _ _ => exact hsteady.findPublic program _ w
  | asked _ _ => exact hsteady.findPublic program _ w

theorem call_steady (caller : PublicCaller) (name : String) (arguments : List ArgumentValue) (w : W) :
    server.table (caller.call server name arguments w).2.2 = server.table w := by
  rcases caller.call_cases with ⟨e, hcall⟩ | ⟨program, _, hcall⟩
  · rw [hcall]
  · have hfind := findIndex_steady hsteady caller program name w
    rw [hcall]
    generalize caller.findIndex server program name w = found at hfind ⊢
    obtain ⟨index?, caller', w'⟩ := found
    cases index? with
    | none => exact hfind
    | some index =>
        have hexecute := execute_steady hsteady program index arguments w'
        dsimp only
        generalize execute server program index arguments w' = executed at hexecute ⊢
        obtain ⟨answer, w''⟩ := executed
        cases answer <;> exact hexecute.trans hfind

end

end PublicCaller

/-! ## Callers in use -/

/-- **A change of the world that leaves the tables alone.** -/
structure QuietChange (server : ServerFunctions W) where
  effect : W → W
  keeps : ∀ w, server.table (effect w) = server.table w

/-- **What is done with a caller.** A program is announced after it was loaded, which may change the
world and its tables in any way; none is announced after one was removed. -/
inductive CallerAction (server : ServerFunctions W) where
  | setExports
  | announce (program : Option ProgramId) (load : W → W)
  | call (name : String) (arguments : List ArgumentValue)
  | pass (change : QuietChange server)

/-- **A caller in a world**, with the tables of the announcements since its target changed. -/
structure CallerRun (W : Type) where
  caller : PublicCaller := {}
  world : W
  since : List PublicTable := []

namespace CallerRun

variable {server : ServerFunctions W}

/-- **What an action does.** -/
def act (r : CallerRun W) : CallerAction server → CallerRun W
  | .setExports => { r with caller := r.caller.setExports }
  | .announce program load =>
    let world := load r.world
    let before := if r.caller.program = program then r.since else []
    { caller := r.caller.setProgram program, world, since := before ++ [server.table world] }
  | .call name arguments =>
    let (_, caller, world) := r.caller.call server name arguments r.world
    { r with caller, world }
  | .pass change => { r with world := change.effect r.world }

/-- **A caller led by actions.** -/
def run (actions : List (CallerAction server)) (r : CallerRun W) : CallerRun W :=
  actions.foldl act r

/-- **What is known was announced**: the present table is that of the last announcement, and every
index that is kept was found in the table of one. -/
structure Announced (server : ServerFunctions W) (r : CallerRun W) : Prop where
  latest : ∀ program, r.caller.program = some program →
    r.since.getLast? = some (server.table r.world)
  known : ∀ name index, r.caller.indices.lookup name = some index →
    ∃ program bytes, r.caller.program = some program
      ∧ PublicCaller.nameBytes? name = some bytes ∧ ∃ table ∈ r.since, table program bytes = .ok index

namespace Announced

variable {r : CallerRun W}

theorem start (w : W) : Announced server { world := w } :=
  ⟨fun _ h => absurd h (by simp), fun _ _ h => absurd h (by simp)⟩

theorem found (h : Announced server r) {program : ProgramId} {name : String} {index : Cell}
    (hprogram : r.caller.program = some program)
    (hindex : (r.caller.findIndex server program name r.world).1 = some index) :
    ∃ bytes, PublicCaller.nameBytes? name = some bytes
      ∧ ∃ table ∈ r.since, table program bytes = .ok index := by
  have hfinds := r.caller.findIndex_finds server program name r.world
  generalize r.caller.findIndex server program name r.world = found at hfinds hindex
  obtain ⟨answer, caller', w'⟩ := found
  cases hfinds with
  | known hknown =>
      obtain rfl := Option.some.inj hindex
      obtain ⟨program', bytes, hprogram', hbytes, htable⟩ := h.known _ _ hknown
      obtain rfl : program' = program := Option.some.inj (hprogram'.symm.trans hprogram)
      exact ⟨bytes, hbytes, htable⟩
  | unspeakable _ => exact absurd hindex (by simp)
  | missing _ _ => exact absurd hindex (by simp)
  | asked hbytes htable =>
      obtain rfl := Option.some.inj hindex
      exact ⟨_, hbytes, _, List.mem_of_getLast? (h.latest program hprogram), htable⟩

theorem findIndex (h : Announced server r) {program : ProgramId}
    (hprogram : r.caller.program = some program) (name : String) {w' : W}
    (htable : server.table w' = server.table r.world) :
    Announced server
      { r with caller := (r.caller.findIndex server program name r.world).2.1, world := w' } := by
  have hfound : ∀ index, (r.caller.findIndex server program name r.world).1 = some index →
      ∃ bytes, PublicCaller.nameBytes? name = some bytes
        ∧ ∃ table ∈ r.since, table program bytes = .ok index := fun _ => h.found hprogram
  have hfinds := r.caller.findIndex_finds server program name r.world
  generalize r.caller.findIndex server program name r.world = found at hfinds hfound
  obtain ⟨answer, caller', w''⟩ := found
  have hsame : Announced server { r with world := w' } := by
    refine ⟨fun program hprogram => ?_, h.known⟩
    exact (h.latest program hprogram).trans (congrArg some htable.symm)
  cases hfinds with
  | known _ => exact hsame
  | unspeakable _ => exact hsame
  | missing _ _ => exact hsame
  | @asked _ index _ _ =>
      refine ⟨hsame.latest, fun other index' hlookup => ?_⟩
      rw [List.lookup_cons] at hlookup
      by_cases hname : other = name
      · subst hname
        rw [beq_self_eq_true] at hlookup
        obtain rfl : index = index' := Option.some.inj hlookup
        obtain ⟨bytes, hbytes, htable⟩ := hfound _ rfl
        exact ⟨program, bytes, hprogram, hbytes, htable⟩
      · rw [beq_eq_false_iff_ne.mpr hname] at hlookup
        exact h.known other index' hlookup

/-- **Every action keeps it so.** -/
theorem step (h : Announced server r) (hsteady : server.Steady) (action : CallerAction server) :
    Announced server (r.act action) := by
  cases action with
  | setExports => exact ⟨h.latest, h.known⟩
  | announce program load =>
      refine ⟨fun _ _ => List.getLast?_concat, fun name index hlookup => ?_⟩
      by_cases hsame : r.caller.program = program
      · have hcaller : r.caller.setProgram program = r.caller := if_pos hsame
        simp only [act, hcaller] at hlookup ⊢
        rw [if_pos hsame]
        obtain ⟨program', bytes, hprogram, hbytes, table, htable, hok⟩ := h.known name index hlookup
        exact ⟨program', bytes, hprogram, hbytes, table, List.mem_append_left _ htable, hok⟩
      · -- another program starts with nothing
        have hcaller : r.caller.setProgram program = { r.caller with program, indices := [] } :=
          if_neg hsame
        simp only [act, hcaller] at hlookup
        exact absurd hlookup (by simp)
  | call name arguments =>
      have htable := PublicCaller.call_steady hsteady r.caller name arguments r.world
      rcases r.caller.call_caller server name arguments r.world with hcaller | ⟨program, hprogram, hcaller⟩
      · refine ⟨fun program hprogram => ?_, fun other index hlookup => ?_⟩
        · simp only [act, hcaller] at hprogram
          exact (h.latest program hprogram).trans (congrArg some htable.symm)
        · simp only [act, hcaller] at hlookup ⊢
          exact h.known other index hlookup
      · have hleft := h.findIndex hprogram name htable
        rw [← hcaller] at hleft
        exact hleft
  | pass change =>
      refine ⟨fun program hprogram => ?_, h.known⟩
      exact (h.latest program hprogram).trans (congrArg some (change.keeps r.world).symm)

theorem run (hsteady : server.Steady) (actions : List (CallerAction server))
    (h : Announced server r) : Announced server (r.run actions) := by
  induction actions generalizing r with
  | nil => exact h
  | cons action rest ih => exact ih (h.step hsteady action)

end Announced

end CallerRun

/--
**An index that is executed was found since the target changed.** Whatever programs are announced to
a caller and whatever it is asked to call, on a server whose tables change with announcements only:
what a call executes is a function of the targeted program, at an index that the server reported for
its name in the table of one of the announcements since this program became the target.

The present table is that of the last announcement. If that one made the program the target, the index
is the one that the server reports now.
-/
theorem executed_index_was_announced (server : ServerFunctions W) (hsteady : server.Steady) (w : W)
    (actions : List (CallerAction server)) (name : String) (arguments : List ArgumentValue) :
    let r := CallerRun.run actions { world := w }
    ∀ (program : ProgramId) (index : Cell),
      (program, index) ∈ r.caller.executed server name arguments r.world →
      r.caller.program = some program ∧ r.since.getLast? = some (server.table r.world)
        ∧ ∃ bytes, PublicCaller.nameBytes? name = some bytes
          ∧ (∃ table ∈ r.since, table program bytes = .ok index)
          ∧ (r.since.length = 1 → server.table r.world program bytes = .ok index) := by
  intro r program index hexecuted
  have h : r.Announced server := (CallerRun.Announced.start w).run hsteady actions
  obtain ⟨hprogram, hindex⟩ := PublicCaller.findIndex_of_executed hexecuted
  obtain ⟨bytes, hbytes, table, hmem, hok⟩ := h.found hprogram hindex
  have hlatest := h.latest program hprogram
  refine ⟨hprogram, hlatest, bytes, hbytes, ⟨table, hmem, hok⟩, fun hone => ?_⟩
  obtain ⟨only, honly⟩ := List.length_eq_one_iff.mp hone
  rw [honly, List.mem_singleton] at hmem
  rw [honly, List.getLast?_singleton] at hlatest
  rw [← Option.some.inj hlatest, ← hmem]
  exact hok

/-- A server that finds every name at the index that its world shows, and answers what it executes. -/
def ServerFunctions.showing : ServerFunctions Cell where
  findPublic := some fun _ _ w => (.ok w, w)
  push := none
  pushArray := none
  pushText := none
  exec := some fun _ index w => (.ok index, w)
  release := none

theorem ServerFunctions.showing_steady : ServerFunctions.showing.Steady := by
  constructor <;> intros <;> rfl

/-- A program takes the place of another one, of which an index was known. -/
theorem executed_index_was_announced_second :
    let server := ServerFunctions.showing
    let actions : List (CallerAction server) := [.setExports, .announce (some 3) id,
      .call "OnTest" [], .announce (some 4) fun w => w + 1]
    let r := CallerRun.run actions { world := 7 }
    server.Steady ∧ (4, 8) ∈ r.caller.executed server "OnTest" [] r.world
      ∧ r.caller.program = some 4 ∧ ∃ bytes, PublicCaller.nameBytes? "OnTest" = some bytes
        ∧ server.table r.world 4 bytes = .ok 8 := by
  intro server actions r
  have hexecuted : (4, 8) ∈ r.caller.executed server "OnTest" [] r.world := by decide +kernel
  have hone : r.since.length = 1 := by decide +kernel
  obtain ⟨hprogram, _, bytes, hbytes, _, hnow⟩ := executed_index_was_announced server
    ServerFunctions.showing_steady 7 actions "OnTest" [] 4 8 hexecuted
  exact ⟨ServerFunctions.showing_steady, hexecuted, hprogram, bytes, hbytes, hnow hone⟩

/-- **An old index is executed after a program was announced again.** The host calls a function of a
program; the program is loaded with its function at another index and announces itself; the function is
called again. -/
theorem announced_again_executes_old_index :
    let server := ServerFunctions.showing
    let env : Environment Empty Empty Cell :=
      ⟨Empty.elim, Empty.elim, server, fun _ => .disconnected, fun _ => 0⟩
    let program : Program := ⟨3, 0, fun _ => none, fun _ => none, ["OnTest"]⟩
    let r := (BridgeRun.start {} .empty [] 0).run env .silent
      [.install ⟨fun _ => true, fun w => (.ok (), w)⟩, .setExports,
        .execute program Interceptor.entryPoint, .context (.perform [.callPublic "OnTest" []]),
        .context (.change (fun w => w + 1) (.done ())), .execute program Interceptor.entryPoint]
    server.Steady ∧ r.bridge.context.publics.program = some 3
      ∧ r.bridge.context.publics.executed server "OnTest" [] r.world = [(3, 0)]
      ∧ ∀ bytes, server.table r.world 3 bytes = .ok 1 := by
  intro server env program r
  have hworld : r.world = 1 := by decide +kernel
  refine ⟨ServerFunctions.showing_steady, by decide +kernel, by decide +kernel, fun _ => ?_⟩
  exact congrArg Except.ok hworld

end ScriptBridge
