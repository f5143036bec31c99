import ScriptBridge.Log.Queue

/-!
# Threads that log

Many threads log at the same time. Each does one thing after the other: it logs a line, takes the
pending lines, or prints one of those that it took. What other threads do may come between two of these
steps, but not into one, since the queue is locked whenever it is used.

Which thread is that of the server, and whether the server has a function that prints, is said once, when
logging begins. Saying it again changes nothing that was said.
-/

namespace ScriptBridge.Log

/-- The number of a thread. -/
abbrev ThreadId := Nat

/-- **A line**, with the thread that logged it. -/
structure Entry where
  thread : ThreadId
  line : Line
  deriving DecidableEq

/-- **Where lines are printed**: by the server, or else on the standard error output. -/
inductive Outlet where
  | server
  | standardError
  deriving DecidableEq

/-- **A line that was printed**, with the thread that did it. -/
structure Print where
  caller : ThreadId
  outlet : Outlet
  entry : Entry
  deriving DecidableEq

/-- **What a thread has to do**: log a line, or print what is pending. -/
inductive Request where
  | log (line : Line)
  | flush
  deriving DecidableEq

/-- **A thread**, with the lines that it took out of the queue to print them, and with what it has to do
after that. -/
structure Thread where
  printing : List Entry := []
  requests : List Request := []
  deriving DecidableEq

/-- **All threads and what they share.** -/
structure Threads where
  server : Option ThreadId := none
  outlet : Outlet := .standardError
  pending : List Entry := []
  prints : List Print := []
  thread : ThreadId → Thread := fun _ => {}

namespace Threads

/-- **Begin to log.** The thread becomes that of the server, if no other one is. -/
def init (t : Threads) (id : ThreadId) (hasPrinter : Bool) : Threads :=
  { t with
    server := t.server <|> some id
    outlet := if hasPrinter then .server else t.outlet }

/-- Whether a thread may print. Before logging has begun, each may. -/
def mayPrint (t : Threads) (id : ThreadId) : Bool := t.server.all (· == id)

/-- The threads with another state of one of them. -/
def put (t : Threads) (id : ThreadId) (state : Thread) : Threads :=
  { t with thread := fun other => if other = id then state else t.thread other }

/-- **Print a line.** One that holds a zero is left out. -/
def print (t : Threads) (caller : ThreadId) (entry : Entry) : Threads :=
  match zeroEnded? entry.line with
  | none => t
  | some line => { t with prints := t.prints ++ [⟨caller, t.outlet, { entry with line }⟩] }

/-- **Log a line.** -/
def dispatch (t : Threads) (id : ThreadId) (line : Line) : Threads :=
  if t.mayPrint id then t.print id ⟨id, line⟩ else { t with pending := t.pending ++ [⟨id, line⟩] }

/-- **One step of a thread.** It prints what it took before it does anything else. -/
def turn (t : Threads) (id : ThreadId) : Threads :=
  match t.thread id with
  | ⟨entry :: rest, requests⟩ => (t.put id ⟨rest, requests⟩).print id entry
  | ⟨[], .log line :: rest⟩ => (t.put id ⟨[], rest⟩).dispatch id line
  | ⟨[], .flush :: rest⟩ => { t.put id ⟨t.pending, rest⟩ with pending := [] }
  | ⟨[], []⟩ => t

/-- Something more that a thread has to do. -/
def request (t : Threads) (id : ThreadId) (requests : List Request) : Threads :=
  t.put id { t.thread id with requests := (t.thread id).requests ++ requests }

/-- The lines of all threads, as a queue knows them. -/
def queue (t : Threads) : Queue := ⟨t.pending.map (·.line), t.prints.map (·.entry.line)⟩

end Threads

/-- **What happens**: logging begins, a thread logs a text or prints what is pending, or it takes a step. -/
inductive ThreadAction where
  | init (id : ThreadId) (hasPrinter : Bool)
  | log (id : ThreadId) (text : List UInt8)
  | flush (id : ThreadId)
  | turn (id : ThreadId)
  deriving DecidableEq

namespace Threads

/-- What an action does. A text is logged line by line. -/
def act (t : Threads) : ThreadAction → Threads
  | .init id hasPrinter => t.init id hasPrinter
  | .log id text => t.request id ((emit text).map .log)
  | .flush id => t.request id [.flush]
  | .turn id => t.turn id

/-- **The threads after some actions.** -/
def run (t : Threads) (actions : List ThreadAction) : Threads := actions.foldl act t

end Threads

end ScriptBridge.Log
