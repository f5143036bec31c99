import ScriptBridge.Proofs.Shutdown

/-!
# Connections that were closed

A connection is told apart by its number, and a number is not given out again before all others were.
So what a host is told under the number of a connection that it closed can only be about that one.

**Notes and connections.** What a note says of the open connections is `HostNote.Changes`: one is opened
under the next number, one is closed, or at most some disappear. Everything a bridge does `Leads` from
connections to connections along its notes, and a note in the middle can be singled out again.

**Frames.** A frame takes what all connections have to report before it tells the host of anything. What
it took of a connection that the host closes meanwhile is still told in this frame. After it nothing is.
-/

namespace ScriptBridge

variable {F H W : Type}

namespace Connections

/-! ## Which connections are open -/

/-- The numbers of the open connections. -/
def numbers (c : Connections) : List ConnectionId := c.entries.map Prod.fst

/-- **Nothing was opened**, though something may have been closed. -/
structure Kept (c c' : Connections) : Prop where
  nextId : c'.nextId = c.nextId
  numbers : ∀ id ∈ c'.numbers, id ∈ c.numbers

namespace Kept

theorem refl (c : Connections) : Kept c c := ⟨rfl, fun _ h => h⟩

theorem trans {c c' c'' : Connections} (h : Kept c c') (h' : Kept c' c'') : Kept c c'' :=
  ⟨h'.nextId.trans h.nextId, fun id hid => h.numbers id (h'.numbers id hid)⟩

end Kept

theorem mem_numbers_of_get? {c : Connections} {id : ConnectionId} {connection : Connection}
    (h : c.get? id = some connection) : id ∈ c.numbers := by
  obtain ⟨before, after, hentries, _⟩ := List.lookup_eq_some_iff.mp h
  unfold numbers
  rw [hentries, List.map_append, List.map_cons]
  exact List.mem_append_right _ List.mem_cons_self

theorem kept_set {c : Connections} {id : ConnectionId} {connection : Connection}
    (h : c.get? id = some connection) (other : Connection) : Kept c (c.set id other) := by
  refine ⟨rfl, ?_⟩
  intro number hnumber
  obtain ⟨entry, hentry, rfl⟩ := List.mem_map.mp hnumber
  rcases fst_of_mem_place hentry with hid | hold
  · rw [hid]
    exact mem_numbers_of_get? h
  · exact List.mem_map_of_mem hold

theorem kept_query (c : Connections) (id : ConnectionId) (text : String) :
    Kept c (c.query id text).2 := by
  unfold Connections.query
  split
  · exact Kept.refl c
  · rename_i connection hget
    exact kept_set hget _

theorem kept_step (driver : ConnectionId → DatabaseDriver W) (now : W → Nat) (c : Connections)
    (id : ConnectionId) (w : W) : Kept c (c.step driver now id w).1 := by
  unfold Connections.step
  split
  · exact Kept.refl c
  · rename_i connection hget
    exact kept_set hget _

theorem kept_takeUpdates (c : Connections) : Kept c c.takeUpdates.2 := by
  refine ⟨rfl, ?_⟩
  intro id hid
  unfold numbers at hid ⊢
  rw [← takeAll_numbers]
  exact hid

theorem kept_closeAll (driver : ConnectionId → DatabaseDriver W) (now : W → Nat) (c : Connections)
    (w : W) : Kept c (c.closeAll driver now w).1 :=
  ⟨rfl, fun _ hid => absurd hid List.not_mem_nil⟩

theorem kept_close (driver : ConnectionId → DatabaseDriver W) (now : W → Nat) (c : Connections)
    (id : ConnectionId) (w : W) : Kept c (c.close driver now id w).2.1 := by
  unfold Connections.close
  split
  · exact Kept.refl c
  · refine ⟨rfl, ?_⟩
    intro number hnumber
    obtain ⟨entry, hentry, rfl⟩ := List.mem_map.mp hnumber
    exact List.mem_map_of_mem (List.mem_of_mem_filter hentry)

/-- **A connection that was closed** was open, and is not open any more. -/
theorem close_true {driver : ConnectionId → DatabaseDriver W} {now : W → Nat} {c : Connections}
    {id : ConnectionId} {w : W} (h : (c.close driver now id w).1 = true) :
    id ∈ c.numbers ∧ id ∉ (c.close driver now id w).2.1.numbers := by
  unfold Connections.close at h ⊢
  split at h
  · exact absurd h Bool.false_ne_true
  · rename_i connection hget
    refine ⟨mem_numbers_of_get? hget, ?_⟩
    intro hid
    obtain ⟨entry, hentry, hnumber⟩ := List.mem_map.mp hid
    have hother := (List.mem_filter.mp hentry).2
    rw [hnumber] at hother
    exact absurd hother (by simp)

/-- **A connection that was opened** has the next number. -/
theorem openWith_ok {c : Connections} {info : ConnectionInfo} {id : ConnectionId} {request : RequestId}
    (h : (c.openWith info).1 = .ok (id, request)) :
    (c.openWith info).2.nextId = c.nextId + 1
      ∧ ∀ number ∈ (c.openWith info).2.numbers, number ∈ c.numbers ∨ number = c.nextId := by
  unfold Connections.openWith at h ⊢
  dsimp only at h ⊢
  split at h
  · exact absurd h (by simp)
  · refine ⟨rfl, ?_⟩
    intro number hnumber
    obtain ⟨entry, hentry, rfl⟩ := List.mem_map.mp hnumber
    rcases fst_of_mem_place hentry with hid | hold
    · exact .inr hid
    · exact .inl (List.mem_map_of_mem hold)

theorem openWith_error {c : Connections} {info : ConnectionInfo} {e : DatabaseError}
    (h : (c.openWith info).1 = .error e) : (c.openWith info).2 = c := by
  unfold Connections.openWith at h ⊢
  dsimp only at h ⊢
  split at h
  · rfl
  · exact absurd h (by simp)

end Connections

/-! ## What a note says of the connections -/

namespace HostNote

/-- A connection was opened. -/
def opens : HostNote H → Bool
  | .acted (.openConnection _) (.opened (.ok _)) => true
  | _ => false

/-- The connection that was closed. -/
def closed? : HostNote H → Option ConnectionId
  | .acted (.closeConnection id) (.truth true) => some id
  | _ => none

/-- **What becomes of the connections where this is noted.** -/
structure Changes (note : HostNote H) (c c' : Connections) : Prop where
  nextId : c'.nextId = c.nextId + if note.opens then 1 else 0
  numbers : ∀ id ∈ c'.numbers, id ∈ c.numbers ∨ note.opens = true ∧ id = c.nextId
  closed : ∀ id, note.closed? = some id → id ∈ c.numbers ∧ id ∉ c'.numbers

theorem Changes.of_kept {note : HostNote H} {c c' : Connections} (hopens : note.opens = false)
    (hclosed : note.closed? = none) (h : c.Kept c') : note.Changes c c' := by
  refine ⟨?_, fun id hid => .inl (h.numbers id hid), fun id hid => ?_⟩
  · rw [hopens, h.nextId]
    exact (UInt32.add_zero _).symm
  · rw [hclosed] at hid
    exact absurd hid (by simp)

/-- **An action changes the connections as it is noted.** -/
theorem changes_perform (env : Environment F H W) (context : Context F H) (action : HostAction H)
    (w : W) :
    let after := context.perform env action w
    (HostNote.acted action after.1).Changes context.connections after.2.1.connections := by
  intro after
  cases action with
  | provide name signature handler =>
      refine Changes.of_kept rfl rfl ?_
      have hsame : (context.provide name signature handler).2.connections = context.connections := by
        unfold Context.provide
        split <;> rfl
      show context.connections.Kept (context.provide name signature handler).2.connections
      rw [hsame]
      exact Connections.Kept.refl _
  | openConnection info =>
      cases hanswer : (context.connections.openWith info).1 with
      | error e =>
          have hsame := Connections.openWith_error hanswer
          have hnote : after.1 = .opened (.error e) := congrArg ActionAnswer.opened hanswer
          rw [hnote]
          refine Changes.of_kept rfl rfl ?_
          show context.connections.Kept (context.connections.openWith info).2
          rw [hsame]
          exact Connections.Kept.refl _
      | ok opened =>
          obtain ⟨hnext, hnumbers⟩ := Connections.openWith_ok hanswer
          have hnote : after.1 = .opened (.ok opened) := congrArg ActionAnswer.opened hanswer
          rw [hnote]
          refine ⟨hnext, ?_, fun id hid => absurd hid (by simp [closed?])⟩
          intro number hnumber
          rcases hnumbers number hnumber with hold | hnew
          · exact .inl hold
          · exact .inr ⟨rfl, hnew⟩
  | query id text => exact Changes.of_kept rfl rfl (Connections.kept_query _ _ _)
  | closeConnection id =>
      have hkept := Connections.kept_close env.driver env.now context.connections id w
      cases hanswer : (context.connections.close env.driver env.now id w).1 with
      | false =>
          have hnote : after.1 = .truth false := congrArg ActionAnswer.truth hanswer
          rw [hnote]
          exact Changes.of_kept rfl rfl hkept
      | true =>
          have hnote : after.1 = .truth true := congrArg ActionAnswer.truth hanswer
          rw [hnote]
          refine ⟨?_, fun number hnumber => .inl (hkept.numbers number hnumber), ?_⟩
          · exact hkept.nextId.trans (UInt32.add_zero _).symm
          · intro number hnumber
            rw [← Option.some.inj hnumber]
            exact Connections.close_true hanswer
  | _ => exact Changes.of_kept rfl rfl (Connections.Kept.refl _)

end HostNote

/-- **Notes lead from connections to connections.** Between them some may disappear, as in a shutdown. -/
inductive Leads : Connections → List (HostNote H) → Connections → Prop where
  | done {c c' : Connections} : c.Kept c' → Leads c [] c'
  | note {c c' c'' : Connections} {note : HostNote H} {notes : List (HostNote H)} :
      note.Changes c c' → Leads c' notes c'' → Leads c (note :: notes) c''

namespace Leads

variable {c c' c'' : Connections} {notes more : List (HostNote H)}

theorem refl (c : Connections) : Leads (H := H) c [] c := .done (.refl c)

theorem of_kept (h : c.Kept c') (h' : Leads c' notes c'') : Leads c notes c'' := by
  cases h' with
  | done hkept => exact .done (h.trans hkept)
  | note hchanges hrest =>
      refine .note ⟨?_, fun id hid => ?_, fun id hid => ?_⟩ hrest
      · rw [hchanges.nextId, h.nextId]
      · rcases hchanges.numbers id hid with hold | ⟨hopens, hnew⟩
        · exact .inl (h.numbers id hold)
        · exact .inr ⟨hopens, hnew.trans h.nextId⟩
      · obtain ⟨hopen, hgone⟩ := hchanges.closed id hid
        exact ⟨h.numbers id hopen, hgone⟩

theorem trans (h : Leads c notes c') (h' : Leads c' more c'') : Leads c (notes ++ more) c'' := by
  induction h with
  | done hkept => exact of_kept hkept h'
  | note hchanges _ ih => exact .note hchanges (ih h')

/-- **A note in the middle** has connections before it and connections after it. -/
theorem split {front back : List (HostNote H)} {note : HostNote H}
    (h : Leads c (front ++ note :: back) c'') :
    ∃ before after, Leads c front before ∧ note.Changes before after ∧ Leads after back c'' := by
  induction front generalizing c with
  | nil =>
      cases h with
      | note hchanges hrest => exact ⟨c, _, refl c, hchanges, hrest⟩
  | cons first rest ih =>
      cases h with
      | note hchanges hrest =>
          obtain ⟨before, after, hfront, hnote, hback⟩ := ih hrest
          exact ⟨before, after, .note hchanges hfront, hnote, hback⟩

end Leads

/-- How many connections were opened. -/
def openings (notes : List (HostNote H)) : Nat := notes.countP (·.opens)

/-- **Each number is given out in its turn**: a connection that is open was open before, or has one of
the numbers that followed. -/
theorem Leads.numbered {c c' : Connections} {notes : List (HostNote H)} (h : Leads c notes c') :
    c'.nextId = c.nextId + UInt32.ofNat (openings notes)
      ∧ ∀ id ∈ c'.numbers, id ∈ c.numbers
        ∨ ∃ turn < openings notes, id = c.nextId + UInt32.ofNat turn := by
  induction h with
  | done hkept =>
      refine ⟨?_, fun id hid => .inl (hkept.numbers id hid)⟩
      rw [hkept.nextId]
      exact (UInt32.add_zero _).symm
  | @note c c' c'' note notes hchanges _ ih =>
      obtain ⟨hnext, hnumbers⟩ := ih
      cases hopens : note.opens with
      | false =>
          have hcount : openings (note :: notes) = openings notes :=
            List.countP_cons_of_neg (by simp [hopens])
          have hsame : c'.nextId = c.nextId := by
            rw [hchanges.nextId, hopens]
            exact UInt32.add_zero _
          rw [hcount, hnext, hsame]
          refine ⟨rfl, ?_⟩
          intro id hid
          rcases hnumbers id hid with hold | ⟨turn, hturn, hid⟩
          · rcases hchanges.numbers id hold with hopen | ⟨hopened, _⟩
            · exact .inl hopen
            · exact absurd (hopens.symm.trans hopened) Bool.false_ne_true
          · exact .inr ⟨turn, hturn, by rw [hid, hsame]⟩
      | true =>
          have hcount : openings (note :: notes) = openings notes + 1 :=
            List.countP_cons_of_pos hopens
          have hone : c'.nextId = c.nextId + 1 := by
            rw [hchanges.nextId, hopens]
            rfl
          have hlater : ∀ turn : Nat,
              c'.nextId + UInt32.ofNat turn = c.nextId + UInt32.ofNat (turn + 1) := by
            intro turn
            rw [hone, UInt32.ofNat_add, UInt32.add_assoc, UInt32.add_comm 1]
            rfl
          rw [hcount, hnext, hlater]
          refine ⟨rfl, ?_⟩
          intro id hid
          rcases hnumbers id hid with hold | ⟨turn, hturn, hid⟩
          · rcases hchanges.numbers id hold with hopen | ⟨_, hnew⟩
            · exact .inl hopen
            · exact .inr ⟨0, Nat.succ_pos _, hnew.trans (UInt32.add_zero _).symm⟩
          · exact .inr ⟨turn + 1, Nat.succ_lt_succ hturn, hid.trans (hlater turn)⟩

/-- **The number of a connection that was closed is not given out again**, as long as there are others. -/
theorem Leads.closed_gone {c c' : Connections} {notes : List (HostNote H)} (h : Leads c notes c')
    (hempty : c.entries = []) {id : ConnectionId}
    (hclosed : .acted (.closeConnection id) (.truth true) ∈ notes) (hcount : openings notes ≤ UInt32.size) :
    id ∉ c'.numbers := by
  intro hid
  obtain ⟨front, back, rfl⟩ := List.append_of_mem hclosed
  obtain ⟨before, after, hfront, hchanges, hback⟩ := h.split
  obtain ⟨hopen, hgone⟩ := hchanges.closed id rfl
  have hnone : c.numbers = [] := by
    unfold Connections.numbers
    rw [hempty]
    rfl
  -- it was opened in one turn before it was closed, and would have to be opened again in a later one
  obtain ⟨hnext, hnumbers⟩ := hfront.numbered
  obtain ⟨early, hearly, hidEarly⟩ : ∃ turn < openings front, id = c.nextId + UInt32.ofNat turn := by
    rcases hnumbers id hopen with hold | hturn
    · rw [hnone] at hold
      exact absurd hold List.not_mem_nil
    · exact hturn
  obtain ⟨_, hnumbers'⟩ := hback.numbered
  obtain ⟨late, hlate, hidLate⟩ : ∃ turn < openings back, id = after.nextId + UInt32.ofNat turn := by
    rcases hnumbers' id hid with hold | hturn
    · exact absurd hold hgone
    · exact hturn
  have hafter : after.nextId = c.nextId + UInt32.ofNat (openings front) :=
    (hchanges.nextId.trans (UInt32.add_zero _)).trans hnext
  have htotal : openings (front ++ .acted (.closeConnection id) (.truth true) :: back) =
      openings front + openings back := by
    unfold openings
    rw [List.countP_append, List.countP_cons_of_neg]
    exact Bool.false_ne_true
  have hsame : UInt32.ofNat early = UInt32.ofNat (openings front + late) := by
    rw [hidEarly, hafter, UInt32.add_assoc, ← UInt32.ofNat_add] at hidLate
    exact (UInt32.add_right_inj _).mp hidLate
  rw [htotal] at hcount
  have hnat := congrArg UInt32.toNat hsame
  rw [UInt32.toNat_ofNat_of_lt' (show early < UInt32.size by omega),
    UInt32.toNat_ofNat_of_lt' (show openings front + late < UInt32.size by omega)] at hnat
  omega

/-! ## What a bridge does to the connections -/

namespace Leads

variable (env : Environment F H W) (host : Host H W)

theorem plan {α : Type} (plan : Plan H W α) (context : Context F H) (w : W) :
    Leads context.connections (plan.notes env context w)
      (plan.run env context w).2.1.connections := by
  induction plan generalizing context w with
  | done answer => exact .note (.of_kept rfl rfl (.refl _)) (refl _)
  | act action next ih =>
      refine .note (.of_kept rfl rfl (.refl _)) ?_
      exact .note (HostNote.changes_perform env context action w) (ih _ _ _)
  | change effect next ih => exact ih _ _
  | look next ih => exact ih w _ _

theorem tell (event : HostEvent) (s : Bridge.Stage F H W) :
    Leads s.context.connections (Bridge.tellNotes env host event s)
      (Bridge.tell env host event s).2.context.connections :=
  .note (.of_kept rfl rfl (.refl _)) (plan env (host event) s.context s.world)

theorem tellAll (events : List HostEvent) (s : Bridge.Stage F H W) :
    Leads s.context.connections (Bridge.tellAllNotes env host events s)
      (Bridge.tellAll env host events s).context.connections := by
  induction events generalizing s with
  | nil => exact refl _
  | cons event rest ih => exact (tell env host event s).trans (ih _)

theorem heard (report : Report) (s : Bridge.Stage F H W) :
    Leads s.context.connections (Bridge.reportNotes env host s report)
      ((Bridge.delegate env host).heard s report).context.connections := by
  cases report with
  | programChanged program =>
      exact tell env host (.programChanged program)
        ⟨{ s.context with publics := s.context.publics.setProgram program }, s.deferred, s.world⟩
  | playerUpdate player => exact tell env host (.playerUpdate player) s
  | intercepted callback arguments answer =>
      unfold Bridge.reportNotes Bridge.delegate Delegate.heard
      dsimp only
      split
      · exact refl _
      · exact tell env host (.callback callback arguments) s

theorem reports (reports : List Report) (s : Bridge.Stage F H W) :
    Leads s.context.connections (Bridge.reportsNotes env host reports s)
      (reports.foldl (Bridge.delegate env host).heard s).context.connections := by
  induction reports generalizing s with
  | nil => exact refl _
  | cons report rest ih => exact (heard env host report s).trans (ih _)

/-- **An operation leads along what it adds to the notes.** -/
theorem act (r : BridgeRun F H W) (action : BridgeAction F H W) :
    Leads r.bridge.context.connections (r.newNotes env host action)
      (r.act env host action).bridge.context.connections := by
  cases action with
  | execute program index =>
      have hleft := reports env host (r.reports env host program index) (r.bridge.stage r.world)
      rw [← (r.execution_acts env host program index).heard] at hleft
      rw [BridgeRun.newNotes_execute, BridgeRun.act_execute]
      exact hleft
  | unloaded program =>
      rw [BridgeRun.newNotes_unloaded, BridgeRun.act_unloaded]
      show Leads _ (r.bridge.unloadNotes env host program r.world)
        (r.bridge.onProgramUnloaded env host program r.world).1.context.connections
      unfold Bridge.onProgramUnloaded Bridge.unloadNotes Interceptor.forget
      by_cases hfollowed : r.bridge.interceptor.program = some program
      · rw [if_pos hfollowed]
        exact heard env host (.programChanged none) (r.bridge.stage r.world)
      · rw [if_neg hfollowed]
        exact refl _
  | frame =>
      have htaken := Connections.kept_takeUpdates r.bridge.context.connections
      refine of_kept htaken ?_
      rw [BridgeRun.newNotes_frame, BridgeRun.act_frame]
      exact tellAll env host _ ⟨{ r.bridge.context with
        connections := r.bridge.context.connections.takeUpdates.2 }, [], r.world⟩
  | context plan =>
      rw [BridgeRun.newNotes_context, BridgeRun.act_context]
      exact Leads.plan env plan r.bridge.context r.world
  | work connection => exact .done (Connections.kept_step env.driver env.now _ connection r.world)
  | _ => exact refl _

end Leads

/-! ## Runs with shutdowns -/

/-- **An operation on a bridge, or its shutdown.** -/
inductive BridgeStep (F H W : Type) : Type 1 where
  | operation (action : BridgeAction F H W)
  | shutdown

/-- Whether a frame is run. -/
def BridgeStep.isFrame : BridgeStep F H W → Bool
  | .operation action => action.isFrame
  | .shutdown => false

namespace BridgeRun

/-- **What a step does.** A shutdown leaves the notebook as it is. -/
def step (env : Environment F H W) (host : Host H W) (r : BridgeRun F H W) :
    BridgeStep F H W → BridgeRun F H W
  | .operation action => r.act env host action
  | .shutdown => { r.afterShutdown env with notes := r.notes }

/-- **A bridge led by steps.** -/
def lead (env : Environment F H W) (host : Host H W) (steps : List (BridgeStep F H W))
    (r : BridgeRun F H W) : BridgeRun F H W :=
  steps.foldl (step env host) r

/-- What a step adds to the notes. -/
def stepNotes (env : Environment F H W) (host : Host H W) (r : BridgeRun F H W) :
    BridgeStep F H W → List (HostNote H)
  | .operation action => r.newNotes env host action
  | .shutdown => []

variable (env : Environment F H W) (host : Host H W)

theorem step_notes (r : BridgeRun F H W) (step : BridgeStep F H W) :
    (r.step env host step).notes = r.notes ++ r.stepNotes env host step := by
  cases step with
  | operation action => exact r.act_notes env host action
  | shutdown => exact (List.append_nil r.notes).symm

theorem step_leads (r : BridgeRun F H W) (step : BridgeStep F H W) :
    Leads r.bridge.context.connections (r.stepNotes env host step)
      (r.step env host step).bridge.context.connections := by
  cases step with
  | operation action => exact Leads.act env host r action
  | shutdown => exact .done (Connections.kept_closeAll env.driver env.now _ r.world)

/-- **The notes of a run lead to its connections.** -/
theorem lead_leads {c : Connections} (steps : List (BridgeStep F H W)) {r : BridgeRun F H W}
    (h : Leads c r.notes r.bridge.context.connections) :
    Leads c (r.lead env host steps).notes (r.lead env host steps).bridge.context.connections := by
  induction steps generalizing r with
  | nil => exact h
  | cons step rest ih =>
      refine ih ?_
      rw [step_notes]
      exact h.trans (r.step_leads env host step)

end BridgeRun

/-! ## What is told of connections -/

/-- The connection that an event is about, if it is about one. -/
def HostEvent.connection? : HostEvent → Option ConnectionId
  | .attempted connection _ => some connection
  | .succeeded connection _ => some connection
  | .failed connection _ => some connection
  | _ => none

theorem HostEvent.connection?_ofUpdate (update : ConnectionId × ConnectionUpdate) :
    (HostEvent.ofUpdate update).connection? = some update.1 := by
  obtain ⟨connection, result⟩ := update
  cases result <;> rfl

theorem HostEvent.isOfFrame_of_connection? {event : HostEvent} {id : ConnectionId}
    (h : event.connection? = some id) : event.isOfFrame = true := by
  cases event with
  | attempted connection attempt => rfl
  | succeeded connection success => rfl
  | failed connection failure => rfl
  | _ => exact absurd h (by simp [HostEvent.connection?])

/-- **The events of a frame that are about one connection** are what was taken from it. -/
theorem Bridge.frameEvents_about (deferred : List (Callback × Bag))
    (updates : List (ConnectionId × ConnectionUpdate)) (id : ConnectionId) :
    (frameEvents deferred updates).filter (·.connection? == some id) =
      (updates.filter (·.1 == id)).map HostEvent.ofUpdate := by
  have hcalls : (deferred.map fun call => HostEvent.deferred call.1 call.2).filter
      (·.connection? == some id) = [] := by
    refine List.filter_eq_nil_iff.mpr ?_
    intro event hevent
    obtain ⟨call, _, rfl⟩ := List.mem_map.mp hevent
    exact Bool.false_ne_true
  have hupdates : (fun update => HostEvent.connection? (.ofUpdate update) == some id) =
      fun update => update.1 == id := by
    funext update
    rw [HostEvent.connection?_ofUpdate]
    rfl
  unfold frameEvents
  rw [List.filter_append, List.filter_append, hcalls, List.nil_append, List.filter_map]
  unfold Function.comp
  rw [hupdates]
  exact List.append_nil _

namespace BridgeRun

variable (env : Environment F H W) (host : Host H W)

/-- **Only frames tell of connections**, and only of those that were open when they began. -/
theorem about_stepNotes {r : BridgeRun F H W} {step : BridgeStep F H W} {event : HostEvent}
    {id : ConnectionId} (h : event ∈ toldEvents (r.stepNotes env host step))
    (habout : event.connection? = some id) :
    step.isFrame = true ∧ id ∈ r.bridge.context.connections.numbers := by
  cases step with
  | shutdown => exact absurd h List.not_mem_nil
  | operation action =>
      cases hframe : action.isFrame with
      | false =>
          have houtside := isOfFrame_told env host hframe h
          rw [HostEvent.isOfFrame_of_connection? habout] at houtside
          exact absurd houtside.symm Bool.false_ne_true
      | true =>
          refine ⟨hframe, ?_⟩
          cases action with
          | frame =>
              have htold : event ∈ r.told env host .frame := h
              rw [told_frame] at htold
              have hmem : event ∈ (Bridge.frameEvents r.bridge.deferred
                  r.bridge.context.connections.takeUpdates.1).filter (·.connection? == some id) :=
                List.mem_filter.mpr ⟨htold, by rw [habout]; exact beq_self_eq_true _⟩
              rw [Bridge.frameEvents_about] at hmem
              obtain ⟨update, hupdate, _⟩ := List.mem_map.mp hmem
              obtain ⟨htaken, hid⟩ := List.mem_filter.mp hupdate
              obtain ⟨entry, hentry, hnumber⟩ := Connections.number_of_mem_takeAll htaken
              rw [← eq_of_beq hid, ← hnumber]
              exact List.mem_map_of_mem hentry
          | _ => exact absurd hframe Bool.false_ne_true

end BridgeRun

/--
**Nothing is told of a closed connection after the frame in which it was closed.** However a bridge was
led since it was new, and as long as its numbers last:

* a step that follows the closing tells nothing under the number of the connection;
* in the step in which it is closed nothing is told of it either, unless this step is a frame. Then, in
  all of the frame, exactly that is told of it which was taken from it when the frame began.
-/
theorem closed_connection_is_silent_after_frame (env : Environment F H W) (host : Host H W)
    (settings : Settings) (callbacks : CallbackTable) (natives : List String) (w : W)
    (steps : List (BridgeStep F H W)) (step : BridgeStep F H W) (id : ConnectionId) :
    let r := (BridgeRun.start settings callbacks natives w).lead env host steps
    (.acted (.closeConnection id) (.truth true) ∈ r.notes → openings r.notes ≤ UInt32.size →
        ∀ event ∈ toldEvents (r.stepNotes env host step), event.connection? ≠ some id)
      ∧ ∀ front back : List (HostNote H),
        r.stepNotes env host step = front ++ .acted (.closeConnection id) (.truth true) :: back →
          (step.isFrame = false → ∀ event ∈ toldEvents back, event.connection? ≠ some id)
            ∧ (step.isFrame = true →
              (toldEvents front ++ toldEvents back).filter (·.connection? == some id) =
                (r.bridge.context.connections.takeUpdates.1.filter (·.1 == id)).map
                  HostEvent.ofUpdate) := by
  intro r
  have hleads : Leads (BridgeRun.start (H := H) settings callbacks natives w :
      BridgeRun F H W).bridge.context.connections r.notes r.bridge.context.connections :=
    BridgeRun.lead_leads env host steps (Leads.refl _)
  refine ⟨?_, ?_⟩
  · intro hclosed hcount event hevent habout
    obtain ⟨_, hopen⟩ := BridgeRun.about_stepNotes env host hevent habout
    exact hleads.closed_gone rfl hclosed hcount hopen
  · intro front back hnotes
    have htold : toldEvents (r.stepNotes env host step) = toldEvents front ++ toldEvents back := by
      rw [hnotes, toldEvents_append]
      rfl
    refine ⟨?_, ?_⟩
    · intro hstep event hevent habout
      have hmem : event ∈ toldEvents (r.stepNotes env host step) := by
        rw [htold]
        exact List.mem_append_right _ hevent
      obtain ⟨hframe, _⟩ := BridgeRun.about_stepNotes env host hmem habout
      exact absurd (hstep.symm.trans hframe) Bool.false_ne_true
    · intro hframe
      rw [← htold]
      cases step with
      | shutdown => exact absurd hframe Bool.false_ne_true
      | operation action =>
          cases action with
          | frame =>
              have hevents : toldEvents (r.stepNotes env host (.operation .frame)) = _ :=
                r.told_frame env host
              rw [hevents]
              exact Bridge.frameEvents_about _ _ id
          | _ => exact absurd hframe Bool.false_ne_true

/-- A host that closes its first connection when a deferred call is delivered. -/
def Host.closing : Host Empty Unit
  | .deferred _ _ => .act (.closeConnection 0) fun _ => .done false
  | _ => .done false

/-- Steps that open a connection and defer a call. The worker takes the request, tries to connect, and
reports that it could not. -/
def BridgeStep.reporting : List (BridgeStep Empty Empty Unit) :=
  let program : Program :=
    { id := 3, argumentCount := 0, argument? := fun _ => none, readText? := fun _ => none,
      publicNames := ["OnTest"] }
  [.operation (.install ⟨fun _ => true, fun w => (.ok (), w)⟩),
    .operation (.execute program Interceptor.entryPoint),
    .operation (.context (.perform [.openConnection (.file "players.db")])),
    .operation (.execute program 0)] ++ List.replicate 6 (.operation (.work 0))

/-- A new bridge with one callback, which is deferred. -/
def BridgeRun.deferring : BridgeRun Empty Empty Unit :=
  .start {} ⟨[{ name := "OnTest", arguments := [], deferred := true }]⟩ [] ()

/-- The attempt is told in the frame in which the connection is closed, and nothing in the next. -/
theorem closed_connection_is_silent_after_frame_reporting :
    let r := BridgeRun.deferring.lead .bare .closing BridgeStep.reporting
    let s := BridgeRun.deferring.lead .bare .closing (BridgeStep.reporting ++ [.operation .frame])
    ∃ front back,
      r.stepNotes .bare .closing (.operation .frame) =
          front ++ .acted (.closeConnection 0) (.truth true) :: back
        ∧ (BridgeStep.operation .frame : BridgeStep Empty Empty Unit).isFrame = true
        ∧ (toldEvents front ++ toldEvents back).filter (·.connection? == some 0) =
          [.attempted 0 ⟨0, false, -1, "Not connected"⟩]
        ∧ .acted (.closeConnection 0) (.truth true) ∈ s.notes ∧ openings s.notes ≤ UInt32.size
        ∧ ∀ event ∈ toldEvents (s.stepNotes .bare .closing (.operation .frame)),
          event.connection? ≠ some 0 := by
  intro r s
  let front : List (HostNote Empty) :=
    [.told (.deferred { name := "OnTest", arguments := [], deferred := true } .empty), .saw (some 3)]
  let back : List (HostNote Empty) :=
    [.saw (some 3), .told (.attempted 0 ⟨0, false, -1, "Not connected"⟩), .saw (some 3),
      .told .frame, .saw (some 3)]
  have hnotes : r.stepNotes .bare .closing (.operation .frame) =
      front ++ .acted (.closeConnection 0) (.truth true) :: back := rfl
  have hclosed : .acted (.closeConnection 0) (.truth true) ∈ s.notes := by
    have hall : s.notes = r.notes ++ (front ++ .acted (.closeConnection 0) (.truth true) :: back) := rfl
    rw [hall]
    exact List.mem_append_right _ (List.mem_append_right _ List.mem_cons_self)
  have hcount : openings s.notes ≤ UInt32.size := by
    have hone : openings s.notes = 1 := rfl
    rw [hone]
    decide
  obtain ⟨_, hframe⟩ := closed_connection_is_silent_after_frame .bare .closing {}
    ⟨[{ name := "OnTest", arguments := [], deferred := true }]⟩ [] () BridgeStep.reporting
    (.operation .frame) 0
  obtain ⟨hsilent, _⟩ := closed_connection_is_silent_after_frame .bare .closing {}
    ⟨[{ name := "OnTest", arguments := [], deferred := true }]⟩ [] ()
    (BridgeStep.reporting ++ [.operation .frame]) (.operation .frame) 0
  obtain ⟨_, htaken⟩ := hframe front back hnotes
  exact ⟨front, back, hnotes, rfl, htaken rfl, hclosed, hcount, hsilent hclosed hcount⟩

/-- **A connection is heard of in the frame in which it was closed.** The host closes it when a call is
delivered, and is told afterwards of the attempt that the frame had taken. -/
theorem closed_connection_is_heard_of :
    let r := BridgeRun.deferring.lead .bare .closing BridgeStep.reporting
    ∃ front back attempt,
      r.stepNotes .bare .closing (.operation .frame) =
          front ++ .acted (.closeConnection 0) (.truth true) :: back
        ∧ .attempted 0 attempt ∈ toldEvents back ∧ openings r.notes = 1 := by
  intro r
  refine ⟨[.told (.deferred { name := "OnTest", arguments := [], deferred := true } .empty),
    .saw (some 3)], [.saw (some 3), .told (.attempted 0 ⟨0, false, -1, "Not connected"⟩),
    .saw (some 3), .told .frame, .saw (some 3)], ⟨0, false, -1, "Not connected"⟩, rfl, ?_, rfl⟩
  exact List.mem_cons_self

end ScriptBridge
