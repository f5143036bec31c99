import ScriptBridge.Log.Threads
import ScriptBridge.Proofs.LogLines

/-!
# Lines of many threads

The server thread prints what it logs at once. Every other thread leaves its lines in a queue, and the
server thread takes all of them out from time to time and prints them one by one. Meanwhile the others go
on.

**Accounts.** Of each thread, the lines that were printed, those that the server thread has taken, those
in the queue and those that the thread has yet to log are, together and in this order, all that it was
given to log. This is kept by every step of every thread, so no interleaving loses a line, prints it
twice, or changes the order.

**Flushes.** Only the server thread prints, and it prints what it took before it does anything else. So
what was pending when it began to flush comes next, whatever the others do meanwhile.
-/

namespace ScriptBridge.Log

/-- The lines of one thread among some entries. -/
def linesOf (id : ThreadId) (entries : List Entry) : List Line :=
  (entries.filter (·.thread == id)).map (·.line)

theorem linesOf_append (id : ThreadId) (first second : List Entry) :
    linesOf id (first ++ second) = linesOf id first ++ linesOf id second := by
  unfold linesOf
  rw [List.filter_append, List.map_append]

theorem linesOf_self (id : ThreadId) (line : Line) : linesOf id [⟨id, line⟩] = [line] := by
  simp [linesOf]

theorem linesOf_other {id other : ThreadId} (h : other ≠ id) (line : Line) :
    linesOf id [⟨other, line⟩] = [] := by
  simp [linesOf, h]

theorem linesOf_eq_nil {id : ThreadId} {entries : List Entry}
    (h : ∀ entry ∈ entries, entry.thread ≠ id) : linesOf id entries = [] := by
  unfold linesOf
  rw [List.filter_eq_nil_iff.mpr, List.map_nil]
  intro entry hentry
  simp [h entry hentry]

/-- The line that a request logs. -/
def Request.line? : Request → Option Line
  | .log line => some line
  | .flush => none

/-- The lines that a thread has yet to log. -/
def Thread.unlogged (state : Thread) : List Line := state.requests.filterMap Request.line?

/-- **The lines that a thread was given to log.** -/
def given (id : ThreadId) (actions : List ThreadAction) : List Line :=
  actions.flatMap fun
    | .log other text => if other = id then emit text else []
    | _ => []

namespace Threads

variable {t : Threads} {id other : ThreadId}

/-- The lines that were printed. -/
def printed (t : Threads) : List Entry := t.prints.map (·.entry)

theorem thread_put_self (t : Threads) (id : ThreadId) (state : Thread) :
    (t.put id state).thread id = state := if_pos rfl

theorem thread_put_other (t : Threads) (state : Thread) (h : other ≠ id) :
    (t.put id state).thread other = t.thread other := if_neg h

/-- A line without a zero is printed. -/
theorem print_put (t : Threads) (id : ThreadId) (state : Thread) (caller : ThreadId) {entry : Entry}
    (h : 0 ∉ entry.line) : (t.put id state).print caller entry =
      { t.put id state with prints := t.prints ++ [⟨caller, t.outlet, entry⟩] } := by
  unfold print
  rw [zeroEnded?_of_not_mem h]
  rfl

/-! ## What one step does -/

/-- **A step of a thread** prints, logs, takes what is pending, or does nothing, by what the thread has
to do next. -/
theorem turn_cases (t : Threads) (id : ThreadId) :
    (∃ entry rest requests, t.thread id = ⟨entry :: rest, requests⟩
        ∧ t.turn id = (t.put id ⟨rest, requests⟩).print id entry)
      ∨ (∃ line rest, t.thread id = ⟨[], .log line :: rest⟩
        ∧ t.turn id = (t.put id ⟨[], rest⟩).dispatch id line)
      ∨ (∃ rest, t.thread id = ⟨[], .flush :: rest⟩
        ∧ t.turn id = { t.put id ⟨t.pending, rest⟩ with pending := [] })
      ∨ t.thread id = ⟨[], []⟩ ∧ t.turn id = t := by
  unfold turn
  split
  · rename_i entry rest requests hstate
    exact .inl ⟨entry, rest, requests, hstate, rfl⟩
  · rename_i line rest hstate
    exact .inr (.inl ⟨line, rest, hstate, rfl⟩)
  · rename_i rest hstate
    exact .inr (.inr (.inl ⟨rest, hstate, rfl⟩))
  · rename_i hstate
    exact .inr (.inr (.inr ⟨hstate, rfl⟩))

/-- What waits to be printed: what the server thread took, and what is still in the queue. -/
def waiting (t : Threads) (server : ThreadId) : List Entry :=
  (t.thread server).printing ++ t.pending

/--
**Threads in good order.** Only the thread of the server prints, takes lines, and is asked to. What waits
is from other threads and can be printed. And of each thread, what was printed, what waits and what it has
yet to log are the lines that it was given, in their order.
-/
structure Orderly (server : ThreadId) (logged : ThreadId → List Line) (t : Threads) : Prop where
  server_eq : t.server = some server
  callers : ∀ print ∈ t.prints, print.caller = server
  others : ∀ id, id ≠ server → (t.thread id).printing = [] ∧ .flush ∉ (t.thread id).requests
  clean : ∀ id line, .log line ∈ (t.thread id).requests → 0 ∉ line
  waits : ∀ entry ∈ t.waiting server, entry.thread ≠ server ∧ 0 ∉ entry.line
  account : ∀ id, linesOf id (t.printed ++ t.waiting server) ++ (t.thread id).unlogged = logged id

namespace Orderly

variable {server : ThreadId} {logged : ThreadId → List Line}

theorem start (server : ThreadId) (hasPrinter : Bool) :
    Orderly server (fun id => given id []) (({} : Threads).init server hasPrinter) := by
  refine ⟨rfl, ?_, fun _ _ => ⟨rfl, List.not_mem_nil⟩, ?_, ?_, fun _ => rfl⟩
  · exact fun _ hprint => absurd hprint List.not_mem_nil
  · exact fun _ _ hline => absurd hline List.not_mem_nil
  · exact fun _ hentry => absurd hentry List.not_mem_nil

/-- Nothing that was said of the server is taken back. -/
theorem init (h : Orderly server logged t) (id : ThreadId) (hasPrinter : Bool) :
    Orderly server logged (t.init id hasPrinter) := by
  refine ⟨?_, h.callers, h.others, h.clean, h.waits, h.account⟩
  show (t.server <|> some id) = some server
  rw [h.server_eq]
  rfl

/-- **One thread changes its state**, and with it what is printed and what is pending. It is enough to look
at this thread, and to see that the lines of the others stay. -/
theorem update (h : Orderly server logged t) {state : Thread} {prints : List Print}
    {pending : List Entry} (waits : List Entry) {logged' : ThreadId → List Line}
    (hserver : id = server → state.printing ++ pending = waits)
    (hother : id ≠ server → (t.thread server).printing ++ pending = waits
      ∧ state.printing = [] ∧ .flush ∉ state.requests)
    (hprints : ∀ print ∈ prints, print.caller = server)
    (hclean : ∀ line, .log line ∈ state.requests → 0 ∉ line)
    (hwaits : ∀ entry ∈ waits, entry.thread ≠ server ∧ 0 ∉ entry.line)
    (haccount : linesOf id (prints.map (·.entry) ++ waits) ++ state.unlogged = logged' id)
    (hrest : ∀ other, other ≠ id → logged' other = logged other
      ∧ linesOf other (prints.map (·.entry) ++ waits) =
        linesOf other (t.printed ++ t.waiting server)) :
    Orderly server logged' { t.put id state with prints, pending } := by
  have hstate := thread_put_self t id state
  have hwaiting : ({ t.put id state with prints, pending } : Threads).waiting server = waits := by
    show ((t.put id state).thread server).printing ++ pending = waits
    by_cases hid : id = server
    · rw [← hserver hid, ← hid, hstate]
    · rw [← (hother hid).1, thread_put_other t state (Ne.symm hid)]
  refine ⟨h.server_eq, hprints, ?_, ?_, ?_, ?_⟩
  · intro other hne
    by_cases hid : other = id
    · subst hid
      show ((t.put other state).thread other).printing = [] ∧ _
      rw [hstate]
      exact (hother hne).2
    · show ((t.put id state).thread other).printing = [] ∧ .flush ∉ ((t.put id state).thread other).requests
      rw [thread_put_other t state hid]
      exact h.others other hne
  · intro other line hline
    have hmem : .log line ∈ ((t.put id state).thread other).requests := hline
    by_cases hid : other = id
    · subst hid
      rw [hstate] at hmem
      exact hclean line hmem
    · rw [thread_put_other t state hid] at hmem
      exact h.clean other line hmem
  · rw [hwaiting]
    exact hwaits
  · intro other
    rw [hwaiting]
    show linesOf other (prints.map (·.entry) ++ waits) ++ ((t.put id state).thread other).unlogged = _
    by_cases hid : other = id
    · subst hid
      rw [hstate]
      exact haccount
    · obtain ⟨hlogged, hlines⟩ := hrest other hid
      rw [thread_put_other t state hid, hlines, hlogged]
      exact h.account other

/-- Lines that a thread is given to log are added to its account. -/
theorem request (h : Orderly server logged t) (id : ThreadId) (requests : List Request)
    (hflush : .flush ∈ requests → id = server) (hclean : ∀ line, .log line ∈ requests → 0 ∉ line) :
    Orderly server
      (fun other => logged other ++ if id = other then requests.filterMap Request.line? else [])
      (t.request id requests) := by
  refine h.update (t.waiting server) ?_ ?_ h.callers ?_ h.waits ?_ ?_
  · rintro rfl
    rfl
  · intro hid
    obtain ⟨hnone, hlogs⟩ := h.others id hid
    refine ⟨rfl, hnone, ?_⟩
    intro hmem
    rcases List.mem_append.mp hmem with hold | hnew
    · exact hlogs hold
    · exact hid (hflush hnew)
  · intro line hline
    rcases List.mem_append.mp hline with hold | hnew
    · exact h.clean id line hold
    · exact hclean line hnew
  · have haccount := h.account id
    unfold Thread.unlogged at haccount ⊢
    rw [if_pos rfl, List.filterMap_append, ← List.append_assoc]
    exact congrArg (· ++ requests.filterMap Request.line?) haccount
  · intro other hid
    rw [if_neg (Ne.symm hid), List.append_nil]
    exact ⟨rfl, rfl⟩

theorem callers_snoc (h : Orderly server logged t) (entry : Entry) :
    ∀ print ∈ t.prints ++ [⟨server, t.outlet, entry⟩], print.caller = server := by
  intro print hprint
  rcases List.mem_append.mp hprint with hold | hnew
  · exact h.callers print hold
  · rw [List.mem_singleton.mp hnew]

/-- **The server thread prints a line that it took.** -/
theorem prints_taken (h : Orderly server logged t) {entry : Entry} {rest : List Entry}
    {requests : List Request} (hstate : t.thread server = ⟨entry :: rest, requests⟩) :
    Orderly server logged ((t.put server ⟨rest, requests⟩).print server entry) := by
  have hbefore : t.waiting server = entry :: (rest ++ t.pending) := by
    unfold waiting
    rw [hstate]
    rfl
  have hzero : 0 ∉ entry.line := by
    refine (h.waits entry ?_).2
    rw [hbefore]
    exact List.mem_cons_self
  -- the line goes from the front of what waits to the end of what was printed
  have hlines : (t.prints ++ [(⟨server, t.outlet, entry⟩ : Print)]).map (·.entry)
      ++ (rest ++ t.pending) = t.printed ++ t.waiting server := by
    rw [hbefore, List.map_append, List.append_assoc]
    rfl
  rw [print_put t server _ server hzero]
  refine h.update (rest ++ t.pending) (fun _ => rfl) ?_ ?_ ?_ ?_ ?_ ?_
  · exact fun hne => absurd rfl hne
  · exact h.callers_snoc _
  · intro line hline
    refine h.clean server line ?_
    rw [hstate]
    exact hline
  · intro waiter hwaiter
    refine h.waits waiter ?_
    rw [hbefore]
    exact List.mem_cons_of_mem _ hwaiter
  · have haccount := h.account server
    rw [hstate] at haccount
    exact (congrArg (linesOf server · ++ _) hlines).trans haccount
  · exact fun other _ => ⟨rfl, congrArg (linesOf other) hlines⟩

/-- **The server thread prints its own line at once.** Nothing of its own waits. -/
theorem prints_own (h : Orderly server logged t) {line : Line} {rest : List Request}
    (hstate : t.thread server = ⟨[], .log line :: rest⟩) :
    Orderly server logged ((t.put server ⟨[], rest⟩).print server ⟨server, line⟩) := by
  have hbefore : t.waiting server = t.pending := by
    unfold waiting
    rw [hstate]
    rfl
  have hzero : 0 ∉ line := by
    refine h.clean server line ?_
    rw [hstate]
    exact List.mem_cons_self
  have hprinted : (t.prints ++ [(⟨server, t.outlet, ⟨server, line⟩⟩ : Print)]).map (·.entry) =
      t.printed ++ [⟨server, line⟩] := List.map_append
  -- so printing a line at once overtakes none of the same thread
  have hnone : linesOf server t.pending = [] := by
    refine linesOf_eq_nil ?_
    intro entry hentry
    rw [← hbefore] at hentry
    exact (h.waits entry hentry).1
  rw [print_put t server _ server hzero]
  refine h.update t.pending (fun _ => rfl) ?_ ?_ ?_ ?_ ?_ ?_
  · exact fun hne => absurd rfl hne
  · exact h.callers_snoc _
  · intro other hline
    refine h.clean server other ?_
    rw [hstate]
    exact List.mem_cons_of_mem _ hline
  · rw [← hbefore]
    exact h.waits
  · have haccount := h.account server
    rw [hstate, hbefore, linesOf_append, hnone, List.append_nil] at haccount
    rw [hprinted, linesOf_append, linesOf_append, linesOf_self, hnone, List.append_nil,
      List.append_assoc]
    exact haccount
  · intro other hid
    rw [hprinted, hbefore, linesOf_append, linesOf_append, linesOf_append,
      linesOf_other (Ne.symm hid), List.append_nil]
    exact ⟨rfl, rfl⟩

/-- **Another thread leaves its line in the queue.** -/
theorem leaves (h : Orderly server logged t) {line : Line} {rest : List Request} (hid : id ≠ server)
    (hstate : t.thread id = ⟨[], .log line :: rest⟩) :
    Orderly server logged
      { t.put id ⟨[], rest⟩ with pending := t.pending ++ [⟨id, line⟩] } := by
  have hline : .log line ∈ (t.thread id).requests := by
    rw [hstate]
    exact List.mem_cons_self
  have hafter : (t.thread server).printing ++ (t.pending ++ [⟨id, line⟩]) =
      t.waiting server ++ [⟨id, line⟩] := (List.append_assoc _ _ _).symm
  refine h.update (t.waiting server ++ [⟨id, line⟩]) ?_ ?_ h.callers ?_ ?_ ?_ ?_
  · exact fun heq => absurd heq hid
  · intro _
    refine ⟨hafter, rfl, ?_⟩
    have hlogs := (h.others id hid).2
    rw [hstate] at hlogs
    exact fun hmem => hlogs (List.mem_cons_of_mem _ hmem)
  · intro other hother
    refine h.clean id other ?_
    rw [hstate]
    exact List.mem_cons_of_mem _ hother
  · intro entry hentry
    rcases List.mem_append.mp hentry with hold | hnew
    · exact h.waits entry hold
    · rw [List.mem_singleton.mp hnew]
      exact ⟨hid, h.clean id line hline⟩
  · have haccount := h.account id
    rw [hstate] at haccount
    rw [← List.append_assoc, linesOf_append, linesOf_self, List.append_assoc]
    exact haccount
  · intro other hne
    rw [← List.append_assoc, linesOf_append, linesOf_other (Ne.symm hne), List.append_nil]
    exact ⟨rfl, rfl⟩

/-- **The server thread takes what is pending.** -/
theorem takes (h : Orderly server logged t) {rest : List Request}
    (hstate : t.thread server = ⟨[], .flush :: rest⟩) :
    Orderly server logged { t.put server ⟨t.pending, rest⟩ with pending := [] } := by
  have hbefore : t.waiting server = t.pending := by
    unfold waiting
    rw [hstate]
    rfl
  refine h.update t.pending ?_ ?_ h.callers ?_ ?_ ?_ ?_
  · exact fun _ => List.append_nil _
  · exact fun hne => absurd rfl hne
  · intro line hline
    refine h.clean server line ?_
    rw [hstate]
    exact List.mem_cons_of_mem _ hline
  · rw [← hbefore]
    exact h.waits
  · have haccount := h.account server
    rw [hstate, hbefore] at haccount
    exact haccount
  · intro other _
    rw [hbefore]
    exact ⟨rfl, rfl⟩

/-- **Every step of every thread keeps the order.** -/
theorem turn (h : Orderly server logged t) (id : ThreadId) : Orderly server logged (t.turn id) := by
  rcases t.turn_cases id with ⟨entry, rest, requests, hstate, hturn⟩ | ⟨line, rest, hstate, hturn⟩
    | ⟨rest, hstate, hturn⟩ | ⟨_, hturn⟩
  · rw [hturn]
    by_cases hid : id = server
    · subst hid
      exact h.prints_taken hstate
    · have hnone := (h.others id hid).1
      rw [hstate] at hnone
      exact absurd hnone (by simp)
  · rw [hturn]
    unfold dispatch
    have hmay : (t.put id ⟨[], rest⟩).mayPrint id = (server == id) := by
      show t.server.all (· == id) = (server == id)
      rw [h.server_eq]
      rfl
    rw [hmay]
    by_cases hid : id = server
    · subst hid
      rw [if_pos (beq_self_eq_true id)]
      exact h.prints_own hstate
    · rw [if_neg (by simpa using Ne.symm hid)]
      exact h.leaves hid hstate
  · rw [hturn]
    by_cases hid : id = server
    · subst hid
      exact h.takes hstate
    · have hlogs := (h.others id hid).2
      rw [hstate] at hlogs
      exact absurd List.mem_cons_self hlogs
  · rw [hturn]
    exact h

/-- **What is asked and done keeps the order**, and what a thread is given is added to its account. -/
theorem act {earlier : List ThreadAction} (h : Orderly server (fun id => given id earlier) t)
    {action : ThreadAction} (hflush : ∀ id, action = .flush id → id = server) :
    Orderly server (fun id => given id (earlier ++ [action])) (t.act action) := by
  have hgiven : ∀ lines : ThreadId → List Line, (∀ id, given id [action] = lines id) →
      (fun id => given id (earlier ++ [action])) = fun id => given id earlier ++ lines id := by
    intro lines hlines
    funext id
    rw [← hlines id]
    exact List.flatMap_append
  have hnothing : (∀ id, given id [action] = []) →
      (fun id => given id (earlier ++ [action])) = fun id => given id earlier := by
    intro hlines
    rw [hgiven (fun _ => []) hlines]
    funext id
    exact List.append_nil _
  cases action with
  | init id hasPrinter =>
      rw [hnothing fun _ => rfl]
      exact h.init id hasPrinter
  | turn id =>
      rw [hnothing fun _ => rfl]
      exact h.turn id
  | flush id =>
      rw [hgiven (fun other => if id = other then [] else []) fun _ => (ite_self _).symm]
      exact h.request id [.flush] (fun _ => hflush id rfl)
        fun line hline => absurd (List.mem_singleton.mp hline) (by simp)
  | log id text =>
      have hlines : ((emit text).map Request.log).filterMap Request.line? = emit text := by
        rw [List.filterMap_map]
        exact List.filterMap_some
      have hrequest := h.request id ((emit text).map .log) ?_ ?_
      · rw [hlines] at hrequest
        rw [hgiven _ fun other => List.append_nil _]
        exact hrequest
      · intro hmem
        obtain ⟨_, _, hlog⟩ := List.mem_map.mp hmem
        exact absurd hlog (by simp)
      · intro line hline
        obtain ⟨source, hsource, hlog⟩ := List.mem_map.mp hline
        rw [← Request.log.inj hlog]
        exact zero_not_mem_emit hsource

theorem run {earlier : List ThreadAction} (h : Orderly server (fun id => given id earlier) t)
    {actions : List ThreadAction} (hflush : ∀ id, .flush id ∈ actions → id = server) :
    Orderly server (fun id => given id (earlier ++ actions)) (t.run actions) := by
  induction actions generalizing earlier t with
  | nil =>
      rw [List.append_nil]
      exact h
  | cons action rest ih =>
      have hstep := h.act fun id (hid : action = .flush id) =>
        hflush id (by rw [← hid]; exact List.mem_cons_self)
      have hrest := ih hstep fun id hid => hflush id (List.mem_cons_of_mem _ hid)
      rw [List.append_assoc] at hrest
      exact hrest

/-! ## What a flush prints -/

/-- **What others do** prints nothing, and leaves alone what the server thread has taken. -/
theorem act_other (h : Orderly server logged t) {action : ThreadAction}
    (haction : action ≠ .turn server) : (t.act action).printed = t.printed
      ∧ ((t.act action).thread server).printing = (t.thread server).printing := by
  have hrequest : ∀ id requests, ((t.request id requests).thread server).printing =
      (t.thread server).printing := by
    intro id requests
    by_cases hid : server = id
    · subst hid
      unfold Threads.request
      rw [thread_put_self]
    · exact congrArg Thread.printing (thread_put_other t _ hid)
  cases action with
  | init id hasPrinter => exact ⟨rfl, rfl⟩
  | log id text => exact ⟨rfl, hrequest id _⟩
  | flush id => exact ⟨rfl, hrequest id _⟩
  | turn id =>
      have hid : id ≠ server := fun heq => haction (congrArg ThreadAction.turn heq)
      obtain ⟨hnone, hlogs⟩ := h.others id hid
      show (t.turn id).printed = t.printed ∧ ((t.turn id).thread server).printing = _
      rcases t.turn_cases id with ⟨entry, rest, requests, hstate, _⟩ | ⟨line, rest, _, hturn⟩
        | ⟨rest, hstate, _⟩ | ⟨_, hturn⟩
      · rw [hstate] at hnone
        exact absurd hnone (by simp)
      · have hmay : (t.put id ⟨[], rest⟩).mayPrint id = false := by
          show t.server.all (· == id) = false
          rw [h.server_eq]
          simpa using Ne.symm hid
        rw [hturn]
        unfold dispatch
        rw [hmay, if_neg Bool.false_ne_true]
        exact ⟨rfl, congrArg Thread.printing (thread_put_other t _ (Ne.symm hid))⟩
      · rw [hstate] at hlogs
        exact absurd List.mem_cons_self hlogs
      · rw [hturn]
        exact ⟨rfl, rfl⟩

/-- **The server thread prints the first line that it took**, and keeps the others. -/
theorem turn_printing (h : Orderly server logged t) {entry : Entry} {rest : List Entry}
    (hprinting : (t.thread server).printing = entry :: rest) :
    (t.turn server).printed = t.printed ++ [entry]
      ∧ ((t.turn server).thread server).printing = rest := by
  have hzero : 0 ∉ entry.line := by
    refine (h.waits entry ?_).2
    unfold waiting
    rw [hprinting]
    exact List.mem_cons_self
  rcases t.turn_cases server with ⟨first, others, requests, hstate, hturn⟩ | ⟨_, _, hstate, _⟩
    | ⟨_, hstate, _⟩ | ⟨hstate, _⟩
  · rw [hstate] at hprinting
    obtain ⟨rfl, rfl⟩ := List.cons.inj hprinting
    rw [hturn, print_put t server _ server hzero]
    exact ⟨List.map_append, congrArg Thread.printing (thread_put_self t server _)⟩
  -- in all other cases nothing was taken
  all_goals
    rw [hstate] at hprinting
    exact absurd hprinting (by simp)

end Orderly

/-- What was printed stays printed. -/
theorem printed_print (t : Threads) (caller : ThreadId) (entry : Entry) :
    t.printed <+: (t.print caller entry).printed := by
  unfold print
  split
  · exact List.prefix_rfl
  · unfold printed
    rw [List.map_append]
    exact List.prefix_append _ _

theorem printed_act (t : Threads) (action : ThreadAction) : t.printed <+: (t.act action).printed := by
  cases action with
  | init id hasPrinter => exact List.prefix_rfl
  | log id text => exact List.prefix_rfl
  | flush id => exact List.prefix_rfl
  | turn id =>
      show t.printed <+: (t.turn id).printed
      rcases t.turn_cases id with ⟨entry, rest, requests, _, hturn⟩ | ⟨line, rest, _, hturn⟩
        | ⟨rest, _, hturn⟩ | ⟨_, hturn⟩
      · rw [hturn]
        exact printed_print (t.put id ⟨rest, requests⟩) id entry
      · rw [hturn]
        unfold dispatch
        split
        · exact printed_print (t.put id ⟨[], rest⟩) id ⟨id, line⟩
        · exact List.prefix_rfl
      · rw [hturn]
        exact List.prefix_rfl
      · refine ⟨[], ?_⟩
        rw [List.append_nil, hturn]

theorem printed_run (t : Threads) (actions : List ThreadAction) :
    t.printed <+: (t.run actions).printed := by
  induction actions generalizing t with
  | nil => exact List.prefix_rfl
  | cons action rest ih => exact (t.printed_act action).trans (ih _)

/--
**What the server thread took is printed next**, a line at each of its turns, and nothing else is printed
before.
-/
theorem Orderly.run_prints {server : ThreadId} {earlier : List ThreadAction}
    (h : Orderly server (fun id => given id earlier) t) {actions : List ThreadAction}
    (hflush : ∀ id, .flush id ∈ actions → id = server) :
    ∃ more, (t.run actions).printed =
        t.printed ++ (t.thread server).printing.take (actions.count (.turn server)) ++ more
      ∧ (actions.count (.turn server) ≤ (t.thread server).printing.length → more = []) := by
  induction actions generalizing earlier t with
  | nil =>
      refine ⟨[], ?_, fun _ => rfl⟩
      rw [List.count_nil, List.take_zero, List.append_nil, List.append_nil]
      rfl
  | cons action rest ih =>
      have hstep := h.act fun id (hid : action = .flush id) =>
        hflush id (by rw [← hid]; exact List.mem_cons_self)
      obtain ⟨more, hprinted, hmore⟩ := ih hstep fun id hid => hflush id (List.mem_cons_of_mem _ hid)
      by_cases haction : action = .turn server
      · subst haction
        rw [List.count_cons_self]
        cases hprinting : (t.thread server).printing with
        | nil =>
            -- the turn was used for something else
            obtain ⟨others, hothers⟩ := t.printed_run (.turn server :: rest)
            refine ⟨others, ?_, fun hle => absurd hle (by simp)⟩
            rw [List.take_nil, List.append_nil]
            exact hothers.symm
        | cons entry others =>
            obtain ⟨hone, hrest⟩ : (t.act (.turn server)).printed = t.printed ++ [entry]
                ∧ ((t.act (.turn server)).thread server).printing = others :=
              h.turn_printing hprinting
            refine ⟨more, ?_, ?_⟩
            · show ((t.act (.turn server)).run rest).printed = _
              rw [List.take_succ_cons, hprinted, hone, hrest]
              simp
            · intro hle
              exact hmore (by rw [hrest]; exact Nat.le_of_succ_le_succ hle)
      · obtain ⟨hsame, hkept⟩ := h.act_other haction
        rw [hsame, hkept] at hprinted
        rw [hkept] at hmore
        rw [List.count_cons_of_ne haction]
        exact ⟨more, hprinted, hmore⟩

/-! ## A thread that is not interrupted -/

/-- To print changes only what was printed. -/
theorem print_keeps (t : Threads) (caller : ThreadId) (entry : Entry) :
    (t.print caller entry).thread = t.thread ∧ (t.print caller entry).server = t.server := by
  unfold print
  split <;> exact ⟨rfl, rfl⟩

theorem queue_print (t : Threads) (caller : ThreadId) (entry : Entry) :
    (t.print caller entry).queue = t.queue.print entry.line := by
  unfold print Queue.print queue
  cases zeroEnded? entry.line with
  | none => rfl
  | some line =>
      dsimp only
      rw [List.map_append]
      rfl

/-- **To log a line** is the same for a queue and for a thread. -/
theorem dispatch_alone (t : Threads) (id : ThreadId) (line : Line) :
    (t.dispatch id line).queue = t.queue.dispatchLine (t.mayPrint id) line
      ∧ (t.dispatch id line).thread = t.thread
      ∧ (t.dispatch id line).mayPrint id = t.mayPrint id := by
  obtain ⟨hthread, hserver⟩ := t.print_keeps id ⟨id, line⟩
  unfold dispatch Queue.dispatchLine
  split
  · refine ⟨t.queue_print id ⟨id, line⟩, hthread, ?_⟩
    unfold mayPrint
    rw [hserver]
  · refine ⟨?_, rfl, rfl⟩
    unfold queue
    dsimp only
    rw [List.map_append]
    rfl

/-- **A thread that logs without interruption** does what a queue does with all lines at once. -/
theorem queue_log (lines : List Line) (rest : List Request) {t : Threads} {id : ThreadId}
    (h : t.thread id = ⟨[], lines.map .log ++ rest⟩) :
    (t.run (List.replicate lines.length (.turn id))).queue =
      t.queue.dispatch (t.mayPrint id) lines := by
  induction lines generalizing t with
  | nil => rfl
  | cons line others ih =>
      have hturn : t.turn id = (t.put id ⟨[], others.map .log ++ rest⟩).dispatch id line := by
        unfold turn
        rw [h]
        rfl
      obtain ⟨hqueue, hthread, hmay⟩ :=
        dispatch_alone (t.put id ⟨[], others.map .log ++ rest⟩) id line
      rw [← hturn] at hqueue hthread hmay
      have hstate : (t.turn id).thread id = ⟨[], others.map .log ++ rest⟩ := by
        rw [hthread]
        exact thread_put_self t id _
      have hrest := ih hstate
      rw [hqueue, hmay] at hrest
      exact hrest

/-- A thread prints what it took, if it is not interrupted. -/
theorem queue_printing (entries : List Entry) (requests : List Request) {t : Threads} {id : ThreadId}
    (h : t.thread id = ⟨entries, requests⟩) :
    (t.run (List.replicate entries.length (.turn id))).queue =
      (entries.map (·.line)).foldl Queue.print t.queue := by
  induction entries generalizing t with
  | nil => rfl
  | cons entry others ih =>
      have hturn : t.turn id = (t.put id ⟨others, requests⟩).print id entry := by
        unfold turn
        rw [h]
      have hstate : (t.turn id).thread id = ⟨others, requests⟩ := by
        rw [hturn, (print_keeps _ id entry).1]
        exact thread_put_self t id _
      have hrest := ih hstate
      rw [hturn, queue_print, ← hturn] at hrest
      exact hrest

/-- **A thread that flushes without interruption** does what a queue does in one step. -/
theorem queue_flush {rest : List Request} {t : Threads} {id : ThreadId}
    (h : t.thread id = ⟨[], .flush :: rest⟩) :
    (t.run (List.replicate (t.pending.length + 1) (.turn id))).queue = t.queue.flush := by
  have hturn : t.turn id = { t.put id ⟨t.pending, rest⟩ with pending := [] } := by
    unfold turn
    rw [h]
  have hstate : (t.turn id).thread id = ⟨t.pending, rest⟩ := by
    rw [hturn]
    exact thread_put_self t id _
  have hprinting := queue_printing t.pending rest hstate
  rw [hturn] at hprinting
  rw [List.replicate_succ]
  show ((t.turn id).run _).queue = _
  rw [hturn]
  exact hprinting

end Threads

/--
**Every line is printed once, by the server thread.** Logging begins on a thread, which becomes that of
the server, and then any threads log texts, the server thread flushes, and all take their steps in any
order:

* only the server thread prints;
* of each thread, the lines that were printed, those that wait and those that it has yet to log are the
  lines that it was given, in their order. So each line that it logged waits, or was printed once;
* what is pending when the server thread begins to flush is printed at its next turns, in order and before
  anything else;
* a thread that is not interrupted does to the queue what a logger with one thread does, which logs all
  lines of a text and flushes in one go.
-/
theorem log_lines_are_printed_once (server : ThreadId) (hasPrinter : Bool)
    (actions : List ThreadAction) (hflush : ∀ id, .flush id ∈ actions → id = server) :
    let t := (({} : Threads).init server hasPrinter).run actions
    (∀ print ∈ t.prints, print.caller = server)
      ∧ (∀ id, linesOf id (t.printed ++ t.waiting server) ++ (t.thread id).unlogged =
        given id actions)
      ∧ (∀ rest, t.thread server = ⟨[], .flush :: rest⟩ →
        (t.turn server).pending = []
          ∧ ∀ later : List ThreadAction, (∀ id, .flush id ∈ later → id = server) →
            ∃ more, ((t.turn server).run later).printed =
                t.printed ++ t.pending.take (later.count (.turn server)) ++ more
              ∧ (later.count (.turn server) ≤ t.pending.length → more = []))
      ∧ (∀ id lines rest, t.thread id = ⟨[], lines.map .log ++ rest⟩ →
        (t.run (List.replicate lines.length (.turn id))).queue =
          t.queue.dispatch (t.mayPrint id) lines)
      ∧ ∀ id rest, t.thread id = ⟨[], .flush :: rest⟩ →
        (t.run (List.replicate (t.pending.length + 1) (.turn id))).queue = t.queue.flush := by
  intro t
  have h : t.Orderly server fun id => given id actions :=
    (Threads.Orderly.start server hasPrinter).run hflush
  refine ⟨h.callers, h.account, ?_, fun id lines rest => t.queue_log lines rest,
    fun id rest => t.queue_flush⟩
  intro rest hstate
  have hturn : t.turn server = { t.put server ⟨t.pending, rest⟩ with pending := [] } := by
    unfold Threads.turn
    rw [hstate]
  have htaken : ((t.turn server).thread server).printing = t.pending := by
    rw [hturn]
    exact congrArg Thread.printing (Threads.thread_put_self t server _)
  refine ⟨by rw [hturn], ?_⟩
  intro later hlater
  have hprints := (h.turn server).run_prints hlater
  rw [htaken, show (t.turn server).printed = t.printed by rw [hturn]; rfl] at hprints
  exact hprints

/-- A worker has logged one of two lines when the server thread, which has logged a line of its own,
begins to flush. The worker then logs the other. -/
theorem log_lines_are_printed_once_worker :
    let line (text : String) : Line := Utf8.encode ("[pawnbridge] " ++ text)
    let actions : List ThreadAction :=
      [.log 1 (Utf8.encode "a\nb"), .log 0 (Utf8.encode "c"), .turn 1, .turn 0, .flush 0]
    let t := (({} : Threads).init 0 true).run actions
    (∀ id, .flush id ∈ actions → id = 0) ∧ t.thread 0 = ⟨[], [.flush]⟩
      ∧ t.prints = [⟨0, .server, ⟨0, line "c"⟩⟩] ∧ (∀ print ∈ t.prints, print.caller = 0)
      ∧ linesOf 1 (t.printed ++ t.waiting 0) ++ (t.thread 1).unlogged = [line "a", line "b"]
      ∧ ((t.turn 0).run [.turn 1, .turn 0]).printed = [⟨0, line "c"⟩, ⟨1, line "a"⟩] := by
  intro line actions t
  have hflush : ∀ id, .flush id ∈ actions → id = 0 := by
    intro id hid
    simpa [actions] using hid
  have hstate : t.thread 0 = ⟨[], [.flush]⟩ := by decide +kernel
  have hprints : t.prints = [⟨0, .server, ⟨0, line "c"⟩⟩] := by decide +kernel
  have hpending : t.pending = [⟨1, line "a"⟩] := by decide +kernel
  obtain ⟨hcallers, haccount, hflushes, _⟩ := log_lines_are_printed_once 0 true actions hflush
  obtain ⟨_, hlater⟩ := hflushes [] hstate
  obtain ⟨more, hprinted, hmore⟩ := hlater [.turn 1, .turn 0] (fun id hid => by simp at hid)
  refine ⟨hflush, hstate, hprints, hcallers, ?_, ?_⟩
  · rw [haccount 1]
    decide +kernel
  · rw [hprinted, hmore (by rw [show t.pending = _ from hpending]; decide), List.append_nil]
    show t.prints.map (·.entry) ++ t.pending.take 1 = _
    rw [hprints, hpending]
    rfl

end ScriptBridge.Log
