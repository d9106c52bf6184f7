import AsciiPoker.Common.PacketFraming
import AsciiPoker.Library.Transition

/-
  The client's side of a connection (`network_client.h`,
  `network_client.cpp`) with the operations it has under way.

  asio completes each operation that was started once, in
  any order.  Closing a socket aborts what is under way on
  it, which completes with `operation_aborted`, and nothing
  else does.  Canceling the timer does the same to its
  waits, but for those that had expired by then: they can no
  longer be canceled and complete with success.  What a read
  delivers is left open.

  The members below the line are not in the source: how many
  connections were begun, whether the present one was begun
  by `reconnect`, the operations under way, each with the
  connection that was the present one when it was started,
  and what `connection_handler_` was told.

  Main declarations:
    * `ConnectionState`, `Operation`, `Outcome`
    * `NetworkClient`
    * `NetworkClient.beginConnect`,
      `NetworkClient.closeConnection`
    * `NetworkClient.Event`, `NetworkClient.step`,
      `NetworkClient.Run`
-/

------------------------------------------------------------
-- Operations
------------------------------------------------------------

namespace Poker

namespace Client

inductive ConnectionState
  | disconnected
  | connecting
  | connected
  | failed
  deriving DecidableEq, Repr

inductive OperationKind
  | resolve
  | connect
  | timer
  | readHeader
  | readBody (length : UInt32)
  | write
  deriving DecidableEq, Repr

/- Whether closing the socket aborts the operation. -/
def OperationKind.usesSocket : OperationKind → Bool
| .resolve => false
| .connect => true
| .timer => false
| .readHeader => true
| .readBody _ => true
| .write => true

/- An operation under way, started for a connection. -/
structure Operation where
  kind : OperationKind
  connection : Nat
  aborted : Bool := false
  deriving DecidableEq, Repr

/-
  How an operation completes.  `length` is what
  `decode_packet_length` makes of a header that was read.
-/
inductive Outcome
  | done (length : Option UInt32)
  | failed
  | aborted
  deriving DecidableEq, Repr

namespace Operation

/- Abort the operation if `which` says so. -/
def abortIf
    (which : Operation → Bool)
    (op : Operation) : Operation :=
  if which op then
    { op with aborted := true }
  else
    op

/-
  What is aborted, and nothing else, completes as aborted.
  A wait completes with success if it had expired before it
  was canceled; when it expires is not modelled, so that any
  canceled wait may have.
-/
def Admits
    (op : Operation) : Outcome → Prop
| .aborted => op.aborted = true
| .failed => op.aborted = false
| .done _ => op.aborted = false ∨ op.kind = .timer

instance
    (op : Operation) :
    (outcome : Outcome) → Decidable (op.Admits outcome)
| .aborted => inferInstanceAs (Decidable (_ = _))
| .failed => inferInstanceAs (Decidable (_ = _))
| .done _ => inferInstanceAs (Decidable (_ ∨ _))

end Operation

------------------------------------------------------------
-- The Client
------------------------------------------------------------

structure NetworkClient where
  connectionState : ConnectionState := .disconnected
  closed : Bool := true
  writeInProgress : Bool := false
  writeQueue : List (List UInt8) := []
  socketOpen : Bool := false
  -- Not in the source.
  connection : Nat := 0
  reconnected : Bool := false
  pending : List Operation := []
  reported : List ConnectionState := []
  deriving DecidableEq, Repr

namespace NetworkClient

/- Start an operation for the present connection. -/
def async
    (c : NetworkClient)
    (kind : OperationKind) : NetworkClient :=
  { c with pending := c.pending ++ [⟨kind, c.connection, false⟩] }

/- Abort the operations that `which` points out. -/
def abort
    (c : NetworkClient)
    (which : Operation → Bool) : NetworkClient :=
  { c with pending := c.pending.map (·.abortIf which) }

/- `connection_handler_(connection_state_)`. -/
def report
    (c : NetworkClient) : NetworkClient :=
  { c with reported := c.reported ++ [c.connectionState] }

/- `cancel_connect_timeout`. -/
def cancelConnectTimeout
    (c : NetworkClient) : NetworkClient :=
  c.abort fun op => decide (op.kind = .timer)

/- `socket_.close(ec)`. -/
def closeSocket
    (c : NetworkClient) : NetworkClient :=
  { c.abort fun op => op.kind.usesSocket &&
      decide (op.connection = c.connection) with
    socketOpen := false }

/-
  A new socket takes the place of the old one, which asio
  closes.
-/
def newSocket
    (c : NetworkClient) : NetworkClient :=
  { c.closeSocket with connection := c.connection + 1 }

/- `begin_connect`, called by `reconnect` or not. -/
def beginConnect
    (c : NetworkClient)
    (again : Bool) : NetworkClient :=
  if c.connectionState = .connecting then
    c
  else
    let c := if c.socketOpen then c.closeSocket else c
    let c := { c.newSocket with
      reconnected := again
      closed := false
      connectionState := .connecting }
    c.report.async .resolve

/- `arm_connect_timeout`: a new deadline cancels the old. -/
def armConnectTimeout
    (c : NetworkClient) : NetworkClient :=
  c.cancelConnectTimeout.async .timer

/- `do_write`. -/
def doWrite
    (c : NetworkClient) : NetworkClient :=
  if c.connectionState ≠ .connected ∨ c.writeInProgress ∨
      c.writeQueue = [] then
    c
  else
    { c with writeInProgress := true }.async .write

/- `do_read_header`. -/
def doReadHeader
    (c : NetworkClient) : NetworkClient :=
  if c.closed ∨ c.connectionState ≠ .connected then
    c
  else
    c.async .readHeader

/- `do_read_body`. -/
def doReadBody
    (c : NetworkClient)
    (length : UInt32) : NetworkClient :=
  if c.closed then
    c
  else
    c.async (.readBody length)

/- `on_connect_result`. -/
def onConnectResult
    (c : NetworkClient)
    (outcome : Outcome) : NetworkClient :=
  if c.closed then
    c
  else
    match outcome with
    | .done _ =>
        let c := { c with connectionState := .connected }
        let c := c.report
        let c :=
          if c.writeQueue ≠ [] ∧ ¬ c.writeInProgress then
            c.doWrite
          else
            c
        c.doReadHeader
    | .aborted => c
    | .failed =>
        { c with
          closed := true
          connectionState := .failed
          writeQueue := [] }.report

/- `close_connection`. -/
def closeConnection
    (c : NetworkClient)
    (notify : Bool) : NetworkClient :=
  let c := c.cancelConnectTimeout
  let wasConnected :=
    decide (c.connectionState = .connected ∨
      c.connectionState = .connecting)
  let c := { c with
    closed := true
    writeQueue := []
    writeInProgress := false }
  let c := if c.socketOpen then c.closeSocket else c
  if notify && wasConnected then
    { c with connectionState := .disconnected }.report
  else if c.connectionState = .connecting then
    { c with connectionState := .disconnected }
  else
    c

------------------------------------------------------------
-- Handlers
------------------------------------------------------------

/- The handler of `async_resolve`. -/
def onResolved
    (c : NetworkClient)
    (outcome : Outcome) : NetworkClient :=
  if c.closed then
    c
  else
    match outcome with
    | .done _ =>
        let c := c.armConnectTimeout
        { c with socketOpen := true }.async .connect
    | ec => c.onConnectResult ec

/- The handler of `async_connect`. -/
def onConnected
    (c : NetworkClient)
    (outcome : Outcome) : NetworkClient :=
  c.cancelConnectTimeout.onConnectResult outcome

/- The handler of `async_wait`. -/
def onTimer
    (c : NetworkClient)
    (outcome : Outcome) : NetworkClient :=
  match outcome with
  | .done _ =>
      if c.closed ∨ c.connectionState ≠ .connecting then
        c
      else
        c.closeSocket.onConnectResult .failed
  | _ => c

/- The handler of the read in `do_read_header`. -/
def onHeader
    (c : NetworkClient)
    (outcome : Outcome) : NetworkClient :=
  if c.closed then
    c
  else
    match outcome with
    | .done (some length) => c.doReadBody length
    | _ => c.closeConnection true

/-
  The handler of the read in `do_read_body`; `on_message`
  touches nothing of this.
-/
def onBody
    (c : NetworkClient)
    (outcome : Outcome) : NetworkClient :=
  if c.closed then
    c
  else
    match outcome with
    | .done _ => c.doReadHeader
    | _ => c.closeConnection true

/- The handler of the write in `do_write`. -/
def onWritten
    (c : NetworkClient)
    (outcome : Outcome) : NetworkClient :=
  let c := { c with writeInProgress := false }
  if c.connectionState ≠ .connected then
    c
  else
    match outcome with
    | .done _ =>
        let c := { c with writeQueue := c.writeQueue.drop 1 }
        if c.writeQueue ≠ [] then
          c.doWrite
        else
          c
    | _ => c.closeConnection true

/- The handler of an operation. -/
def handle
    (c : NetworkClient)
    (outcome : Outcome) : OperationKind → NetworkClient
| .resolve => c.onResolved outcome
| .connect => c.onConnected outcome
| .timer => c.onTimer outcome
| .readHeader => c.onHeader outcome
| .readBody _ => c.onBody outcome
| .write => c.onWritten outcome

/- What `send` posts, given the packet it has encoded. -/
def onPosted
    (c : NetworkClient)
    (packet : List UInt8) : NetworkClient :=
  if c.connectionState = .connecting then
    { c with writeQueue := c.writeQueue ++ [packet] }
  else if c.connectionState ≠ .connected then
    c
  else
    let c := { c with writeQueue := c.writeQueue ++ [packet] }
    if ¬ c.writeInProgress then
      c.doWrite
    else
      c

------------------------------------------------------------
-- The Machine
------------------------------------------------------------

inductive Event
  | start
  | reconnect
  | posted (packet : List UInt8)
  | complete (op : Operation) (outcome : Outcome)
  deriving DecidableEq, Repr

/- Why an event cannot happen. -/
inductive Refusal
  | notEnabled
  deriving DecidableEq, Repr

/- One event; a completion needs its operation under way. -/
def step
    (c : NetworkClient) : Event → Except Refusal NetworkClient
| .start => .ok (c.beginConnect false)
| .reconnect =>
    .ok ((c.closeConnection false).beginConnect true)
| .posted packet => .ok (c.onPosted packet)
| .complete op outcome =>
    if op ∈ c.pending ∧ op.Admits outcome then
      .ok ({ c with
        pending := c.pending.erase op }.handle outcome op.kind)
    else
      .error .notEnabled

/- Calls and completions in any order on a new client. -/
def Run
    (trace : List (NetworkClient × Event))
    (c : NetworkClient) : Prop :=
  Transition.Run step {} trace c

end NetworkClient

end Client

end Poker
