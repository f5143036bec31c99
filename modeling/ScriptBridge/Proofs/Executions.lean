import Mathlib.Data.List.Basic
import ScriptBridge.Proofs.StackArguments

/-!
# What an interceptor does with an execution

An interceptor looks at each execution that is asked for, changes what it remembers, tells its
delegate, and decides. What it does with one execution is listed here once, and all that is proved
about many of them is about steps of this list.

**Reports.** The delegate is arbitrary code. To say what it was told, and how often, its calls are
noted. `Delegate.noted` adds a list of reports to the state of a delegate and changes nothing
else, so `Interceptor.reports` is what any delegate is told.

**Acts.** `Interceptor.Acts` has a constructor for each way an execution can go, with the conditions
under which it goes that way. Most ways lead to nothing: the execution is forwarded and nobody is
told.
-/

namespace ScriptBridge

/-- **What a delegate is told.** A call comes with what the delegate answered. -/
inductive Report where
  | programChanged (program : Option ProgramId)
  | intercepted (callback : Callback) (arguments : Bag) (answer : Bool)
  | playerUpdate (player : Cell)

namespace Report

/-- Whether a call was offered. -/
def isCall : Report → Bool
  | .intercepted _ _ _ => true
  | _ => false

/-- Whether this is about a function that a program runs, and not about programs. -/
def isDispatch : Report → Bool
  | .programChanged _ => false
  | _ => true

end Report

variable {D : Type}

/-- A delegate that notes what it is told, the latest last. -/
def Delegate.noted (delegate : Delegate D) : Delegate (D × List Report) where
  programChanged program s :=
    (delegate.programChanged program s.1, s.2 ++ [.programChanged program])
  intercepted callback arguments s :=
    let (answer, d) := delegate.intercepted callback arguments s.1
    (answer, d, s.2 ++ [.intercepted callback arguments answer])
  playerUpdate player s := (delegate.playerUpdate player s.1, s.2 ++ [.playerUpdate player])

/-- A delegate after a report. -/
def Delegate.heard (delegate : Delegate D) (d : D) : Report → D
  | .programChanged program => delegate.programChanged program d
  | .intercepted callback arguments _ => (delegate.intercepted callback arguments d).2
  | .playerUpdate player => delegate.playerUpdate player d

namespace Interceptor

/-- **What a delegate is told of an execution.** -/
def reports (i : Interceptor) (program : Program) (index : Cell) (delegate : Delegate D) (d : D) :
    List Report :=
  (i.onExecute program index delegate.noted (d, [])).2.2.2

/-- **An execution that is looked up**: the interceptor is installed, the program is the one that is
followed, and it is not its entry point that is run. -/
structure Watches (i : Interceptor) (program : Program) (index : Cell) : Prop where
  installed : i.installed = true
  inside : index ≠ entryPoint
  followed : i.program = some program.id

/--
**What an interceptor can do.** `i.Acts program index delegate d decision i' d' reports` says that
an execution can lead from `i` and `d` to `i'` and `d'`, with this decision and these reports.
-/
inductive Acts (i : Interceptor) (program : Program) (index : Cell) (delegate : Delegate D)
    (d : D) : Decision → Interceptor → D → List Report → Prop where
  | asleep : i.installed = false → Acts i program index delegate d .forward i d []
  | loads : i.installed = true → index = entryPoint →
      Acts i program index delegate d .forward (i.load program)
        (delegate.programChanged (some program.id) d) [.programChanged (some program.id)]
  | foreign : index ≠ entryPoint → i.program ≠ some program.id →
      Acts i program index delegate d .forward i d []
  /-- The function that is recognised by name is reported if there is a player on the stack. -/
  | updates {player : Cell} : i.Watches program index → i.playerUpdate = some index →
      program.argument? 0 = some player →
      Acts i program index delegate d .forward i (delegate.playerUpdate player d)
        [.playerUpdate player]
  | noPlayer : i.Watches program index → i.playerUpdate = some index →
      program.argument? 0 = none → Acts i program index delegate d .forward i d []
  | unknown : i.Watches program index → i.playerUpdate ≠ some index → i.callbackAt? index = none →
      Acts i program index delegate d .forward i d []
  /-- Arguments that cannot be read leave nothing behind but what the bag holds. -/
  | unread {callback : Callback} (bag : Bag) : i.Watches program index →
      i.playerUpdate ≠ some index → i.callbackAt? index = some callback →
      ¬ program.Holds callback.arguments →
      Acts i program index delegate d .forward { i with arguments := bag } d []
  | offers {callback : Callback} {bag : Bag} : i.Watches program index →
      i.playerUpdate ≠ some index → i.callbackAt? index = some callback →
      program.Holds callback.arguments → bag.ReadOff program callback.arguments →
      callback.unloadsProgram = false →
      Acts i program index delegate d (decide callback (delegate.intercepted callback bag d).1)
        { i with arguments := bag } (delegate.intercepted callback bag d).2
        [.intercepted callback bag (delegate.intercepted callback bag d).1]
  | unloads {callback : Callback} {bag : Bag} : i.Watches program index →
      i.playerUpdate ≠ some index → i.callbackAt? index = some callback →
      program.Holds callback.arguments → bag.ReadOff program callback.arguments →
      callback.unloadsProgram = true →
      Acts i program index delegate d (decide callback (delegate.intercepted callback bag d).1)
        ({ i with arguments := bag } : Interceptor).cleared
        (delegate.programChanged none (delegate.intercepted callback bag d).2)
        [.intercepted callback bag (delegate.intercepted callback bag d).1, .programChanged none]

section

variable {i : Interceptor} {program : Program} {index : Cell}

/-- An offer that nobody is told of. -/
theorem offer_unread {callback : Callback} (delegate : Delegate D) (d : D)
    (h : ¬ program.Holds callback.arguments) :
    i.offer program callback delegate d =
      (.forward, { i with arguments := (readArguments program callback i.arguments).2 }, d) := by
  have hread : (readArguments program callback i.arguments).1 = false :=
    Bool.eq_false_iff.mpr fun hread => h (readArguments_fst.mp hread)
  unfold offer
  rw [show readArguments program callback i.arguments = (false, _) from Prod.ext hread rfl]

/-- **An offer**, with the bag that was read for it. -/
theorem offer_read {callback : Callback} (h : program.Holds callback.arguments) :
    ∃ bag : Bag, bag.ReadOff program callback.arguments ∧
      ∀ {D : Type} (delegate : Delegate D) (d : D), i.offer program callback delegate d =
        let (answer, d') := delegate.intercepted callback bag d
        let i' : Interceptor := { i with arguments := bag }
        if callback.unloadsProgram then
          (decide callback answer, i'.cleared, delegate.programChanged none d')
        else (decide callback answer, i', d') := by
  have hread : readArguments program callback i.arguments =
      (true, (readArguments program callback i.arguments).2) :=
    Prod.ext (readArguments_fst.mpr h) rfl
  refine ⟨_, readArguments_snd hread, fun delegate d => ?_⟩
  unfold offer
  rw [hread]

theorem onExecute_asleep (delegate : Delegate D) (d : D) (h : i.installed = false) :
    i.onExecute program index delegate d = (.forward, i, d) := by
  simp [onExecute, h]

theorem onExecute_entryPoint (delegate : Delegate D) (d : D) (h : i.installed = true) :
    i.onExecute program entryPoint delegate d =
      (.forward, i.load program, delegate.programChanged (some program.id) d) := by
  simp [onExecute, h, load]

theorem onExecute_foreign (delegate : Delegate D) (d : D) (hinside : index ≠ entryPoint)
    (h : i.program ≠ some program.id) :
    i.onExecute program index delegate d = (.forward, i, d) := by
  simp [onExecute, hinside, h]

theorem onExecute_update (delegate : Delegate D) (d : D) (h : i.Watches program index)
    (hupdate : i.playerUpdate = some index) :
    i.onExecute program index delegate d =
      (.forward, i, ((program.argument? 0).map (delegate.playerUpdate · d)).getD d) := by
  unfold onExecute
  rw [if_neg (by simp [h.installed]), if_neg h.inside, if_neg (not_not_intro h.followed),
    if_pos hupdate]
  cases program.argument? 0 <;> rfl

theorem onExecute_unknown (delegate : Delegate D) (d : D) (h : i.Watches program index)
    (hupdate : i.playerUpdate ≠ some index) (hcallback : i.callbackAt? index = none) :
    i.onExecute program index delegate d = (.forward, i, d) := by
  simp [onExecute, h.installed, h.inside, h.followed, hupdate, hcallback]

theorem onExecute_offer {callback : Callback} (delegate : Delegate D) (d : D)
    (h : i.Watches program index) (hupdate : i.playerUpdate ≠ some index)
    (hcallback : i.callbackAt? index = some callback) :
    i.onExecute program index delegate d = i.offer program callback delegate d := by
  simp [onExecute, h.installed, h.inside, h.followed, hupdate, hcallback]

end

/-- Every execution goes one of these ways, and it goes the same way while reports are noted. -/
theorem onExecute_reported (i : Interceptor) (program : Program) (index : Cell)
    (delegate : Delegate D) (d : D) :
    let plain := i.onExecute program index delegate d
    ∃ reports, i.onExecute program index delegate.noted (d, []) =
        (plain.1, plain.2.1, plain.2.2, reports)
      ∧ i.Acts program index delegate d plain.1 plain.2.1 plain.2.2 reports := by
  intro plain
  cases hinstalled : i.installed with
  | false =>
      rw [show plain = _ from onExecute_asleep delegate d hinstalled]
      exact ⟨_, onExecute_asleep _ _ hinstalled, .asleep hinstalled⟩
  | true =>
  by_cases hinside : index = entryPoint
  · subst hinside
    rw [show plain = _ from onExecute_entryPoint delegate d hinstalled]
    exact ⟨_, onExecute_entryPoint _ _ hinstalled, .loads hinstalled rfl⟩
  by_cases hfollowed : i.program = some program.id
  swap
  · rw [show plain = _ from onExecute_foreign delegate d hinside hfollowed]
    exact ⟨_, onExecute_foreign _ _ hinside hfollowed, .foreign hinside hfollowed⟩
  have hwatches : i.Watches program index := ⟨hinstalled, hinside, hfollowed⟩
  by_cases hupdate : i.playerUpdate = some index
  · rw [show plain = _ from onExecute_update delegate d hwatches hupdate,
      onExecute_update delegate.noted _ hwatches hupdate]
    cases hplayer : program.argument? 0 with
    | none => exact ⟨_, rfl, .noPlayer hwatches hupdate hplayer⟩
    | some player => exact ⟨_, rfl, .updates hwatches hupdate hplayer⟩
  cases hcallback : i.callbackAt? index with
  | none =>
      rw [show plain = _ from onExecute_unknown delegate d hwatches hupdate hcallback]
      exact ⟨_, onExecute_unknown _ _ hwatches hupdate hcallback,
        .unknown hwatches hupdate hcallback⟩
  | some callback =>
      rw [show plain = _ from onExecute_offer delegate d hwatches hupdate hcallback,
        onExecute_offer delegate.noted _ hwatches hupdate hcallback]
      by_cases hholds : program.Holds callback.arguments
      swap
      · rw [offer_unread _ _ hholds, offer_unread _ _ hholds]
        exact ⟨_, rfl, .unread _ hwatches hupdate hcallback hholds⟩
      obtain ⟨bag, hbag, hoffer⟩ := offer_read (i := i) hholds
      rw [hoffer, hoffer]
      cases hunloads : callback.unloadsProgram with
      | false => exact ⟨_, rfl, .offers hwatches hupdate hcallback hholds hbag hunloads⟩
      | true => exact ⟨_, rfl, .unloads hwatches hupdate hcallback hholds hbag hunloads⟩

/-- **Noting changes nothing**: the decision, the interceptor and the delegate are as without notes.
-/
theorem onExecute_noted (i : Interceptor) (program : Program) (index : Cell) (delegate : Delegate D)
    (d : D) :
    let plain := i.onExecute program index delegate d
    i.onExecute program index delegate.noted (d, []) =
      (plain.1, plain.2.1, plain.2.2, i.reports program index delegate d) := by
  obtain ⟨reports, hnoted, _⟩ := i.onExecute_reported program index delegate d
  unfold Interceptor.reports
  rw [hnoted]

/-- **Every execution goes one of these ways**, whatever the delegate does. -/
theorem onExecute_acts (i : Interceptor) (program : Program) (index : Cell) (delegate : Delegate D)
    (d : D) :
    let plain := i.onExecute program index delegate d
    i.Acts program index delegate d plain.1 plain.2.1 plain.2.2
      (i.reports program index delegate d) := by
  obtain ⟨reports, hnoted, hacts⟩ := i.onExecute_reported program index delegate d
  unfold Interceptor.reports
  rw [hnoted]
  exact hacts

/-- **A delegate is left as its reports leave it**, one after the other. -/
theorem Acts.heard {i i' : Interceptor} {program : Program} {index : Cell} {delegate : Delegate D}
    {d d' : D} {decision : Decision} {reports : List Report}
    (h : i.Acts program index delegate d decision i' d' reports) :
    d' = reports.foldl delegate.heard d := by
  cases h <;> rfl

end Interceptor

/-! ## Delegates that answer alike -/

/-- **Delegates that answer alike** in states that are related, and are left in related states. -/
structure Delegate.Alike {D' : Type} (related : D → D' → Prop) (delegate : Delegate D)
    (other : Delegate D') : Prop where
  programChanged : ∀ {d d'}, related d d' → ∀ program,
    related (delegate.programChanged program d) (other.programChanged program d')
  intercepted : ∀ {d d'}, related d d' → ∀ callback arguments,
    (delegate.intercepted callback arguments d).1 = (other.intercepted callback arguments d').1
      ∧ related (delegate.intercepted callback arguments d).2
        (other.intercepted callback arguments d').2
  playerUpdate : ∀ {d d'}, related d d' → ∀ player,
    related (delegate.playerUpdate player d) (other.playerUpdate player d')

/-- **An interceptor cannot tell them apart.** -/
theorem Delegate.Alike.onExecute {D' : Type} {related : D → D' → Prop} {delegate : Delegate D}
    {other : Delegate D'} (h : delegate.Alike related other) {d : D} {d' : D'} (hd : related d d')
    (i : Interceptor) (program : Program) (index : Cell) :
    let left := i.onExecute program index delegate d
    let right := i.onExecute program index other d'
    left.1 = right.1 ∧ left.2.1 = right.2.1 ∧ related left.2.2 right.2.2 := by
  have hoffer (callback : Callback) : let left := i.offer program callback delegate d
      let right := i.offer program callback other d'
      left.1 = right.1 ∧ left.2.1 = right.2.1 ∧ related left.2.2 right.2.2 := by
    unfold Interceptor.offer
    split
    · exact ⟨rfl, rfl, hd⟩
    · rename_i bag _
      obtain ⟨hanswer, hleft⟩ := h.intercepted hd callback bag
      dsimp only
      rw [hanswer]
      split
      · exact ⟨rfl, rfl, h.programChanged hleft none⟩
      · exact ⟨rfl, rfl, hleft⟩
  unfold Interceptor.onExecute
  split
  · exact ⟨rfl, rfl, hd⟩
  split
  · exact ⟨rfl, rfl, h.programChanged hd _⟩
  split
  · exact ⟨rfl, rfl, hd⟩
  split
  · split
    · exact ⟨rfl, rfl, h.playerUpdate hd _⟩
    · exact ⟨rfl, rfl, hd⟩
  · split
    · exact ⟨rfl, rfl, hd⟩
    · exact hoffer _

end ScriptBridge
