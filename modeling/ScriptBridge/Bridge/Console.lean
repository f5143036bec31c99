import ScriptBridge.Bridge.Host
import ScriptBridge.Log.Event

/-!
# The console

When no script is attached, a host stands in that writes every event to the log. It never
handles a call and never acts in the context, so that the server behaves as if the
bridge were not there.
-/

namespace ScriptBridge

/-- **What the console remembers**: the number of calls it saw, the deferred ones included, and the
program that is loaded. -/
structure ConsoleState where
  intercepted : Nat := 0
  program : Option ProgramId := none
  deriving DecidableEq, Inhabited

/-- **The console in a world**: how it writes to the log, and where it keeps what it remembers. -/
structure Console (W : Type) where
  log : Log.Event → W → W
  remember : (ConsoleState → ConsoleState) → W → W

namespace Console

open Log (Event Level FieldText)

/-- A number without a sign in the log. -/
def number (n : UInt32) : FieldText := .number n.toNat

/-- The fields of a request. -/
def request (connection : ConnectionId) (id : RequestId) : List (String × FieldText) :=
  [("connection", number connection), ("request", number id)]

/-- The fields of an error. -/
def error (code : Int32) (message : String) : List (String × FieldText) :=
  [("error_code", .number code.toInt), ("error_message", .quoted message)]

/-- The field of a call. -/
def call (callback : Callback) (arguments : Bag) : List (String × FieldText) :=
  [("call", .plain (callback.representation arguments))]

/-- A connection was made. -/
def connected : Event := ⟨.info, "Database connected", []⟩

/-- A connection could not be made. -/
def connectionFailed : Event := ⟨.warn, "Database connection failed", []⟩

/-- A query succeeded. -/
def queryFinished : Event := ⟨.debug, "Query finished", []⟩

/-- A query failed. -/
def queryFailed : Event := ⟨.warn, "Query failed", []⟩

/-- **What the console writes** for an event. A frame is not worth a line. -/
def report : HostEvent → Option Event
  | .programChanged (some _) => some ⟨.info, "Program loaded", []⟩
  | .programChanged none => some ⟨.info, "Program unloaded", []⟩
  | .callback callback arguments => some ⟨.debug, "Intercepted", call callback arguments⟩
  | .playerUpdate player => some ⟨.trace, "Player update", [("player_id", .number player.toInt)]⟩
  | .deferred callback arguments =>
    some ⟨.debug, "Intercepted (deferred)", call callback arguments⟩
  | .frame => none
  | .attempted connection attempt =>
    let fields := request connection attempt.id
    if attempt.succeeded then some { connected with fields }
    else
      some { connectionFailed with
        fields := fields ++ error attempt.errorCode attempt.errorMessage }
  | .succeeded connection success =>
    some { queryFinished with
      fields := request connection success.id ++ [("rows", .number success.result.rows.length)] }
  | .failed connection failure =>
    some { queryFailed with
      fields := request connection failure.id ++ error failure.errorCode failure.errorMessage }

/-- What the console remembers after an event. -/
def remembered : HostEvent → ConsoleState → ConsoleState
  | .programChanged program, s => { s with program }
  | .callback _ _, s => { s with intercepted := s.intercepted + 1 }
  | .deferred _ _, s => { s with intercepted := s.intercepted + 1 }
  | _, s => s

/-- What the console does to the world for an event. -/
def react {W : Type} (console : Console W) (event : HostEvent) (w : W) : W :=
  let w := console.remember (remembered event) w
  match report event with
  | some line => console.log line w
  | none => w

/-- **The console as a host.** -/
def host {H W : Type} (console : Console W) : Host H W :=
  fun event => .change (console.react event) (.done false)

end Console

end ScriptBridge
