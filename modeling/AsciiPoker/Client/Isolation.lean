import AsciiPoker.Client.NetworkClient

/-
  What a late completion does to the connection that was
  begun since.

  Handlers do not know for which connection their operation
  was started.  They look at `closed_` and at the state,
  which `begin_connect` resets, so a read or a resolve that
  comes late closes the new connection or works on its
  socket, and a write that comes late clears its mark.  A
  wait that had expired when it was canceled fails a new
  connection that is still being made.

  Main declarations:
    * `NetworkClient.Sound`, `NetworkClient.Sound.step`
    * `NetworkClient.Untouched`
    * `NetworkClient.Isolates`, `NetworkClient.Spares`
    * `NetworkClient.Run.isolates_iff`
    * `NetworkClient.lateRead_not_isolated`
-/

namespace Poker

namespace Client

------------------------------------------------------------
-- Operations Under Way
------------------------------------------------------------

namespace NetworkClient

/-
  No operation is ahead of connection `n`.  Those on earlier
  sockets are aborted, and so are earlier waits if
  `reconnect` began the present connection.  Nobody cancels
  a resolve.
-/
structure Kept
    (ops : List Operation)
    (n : Nat)
    (again : Bool) : Prop where
  begun : ∀ op ∈ ops, op.connection ≤ n
  left : ∀ op ∈ ops, op.kind.usesSocket = true →
    op.connection < n → op.aborted = true
  waited : again = true → ∀ op ∈ ops, op.kind = .timer →
    op.connection < n → op.aborted = true
  resolving : ∀ op ∈ ops, op.kind = .resolve →
    op.aborted = false

variable {ops : List Operation}
variable {n : Nat}
variable {again : Bool}
variable {which : Operation → Bool}

/- Operations are marked and stay in their places. -/
theorem mem_abort
    {op : Operation}
    (hMem : op ∈ ops.map (·.abortIf which)) :
    ∃ old ∈ ops, op.kind = old.kind ∧
      op.connection = old.connection ∧
      op.aborted = (which old || old.aborted) := by
  rcases List.mem_map.mp hMem with ⟨old, hOld, rfl⟩
  refine ⟨old, hOld, ?_⟩
  unfold Operation.abortIf
  cases which old with
  | true => exact ⟨rfl, rfl, rfl⟩
  | false => exact ⟨rfl, rfl, rfl⟩

/- Fewer operations are kept as well. -/
theorem Kept.of_sublist
    {less : List Operation}
    (hKept : Kept ops n again)
    (hSub : ∀ op ∈ less, op ∈ ops) :
    Kept less n again where
  begun := fun op hMem => hKept.begun op (hSub op hMem)
  left := fun op hMem => hKept.left op (hSub op hMem)
  waited := fun hAgain op hMem =>
    hKept.waited hAgain op (hSub op hMem)
  resolving := fun op hMem =>
    hKept.resolving op (hSub op hMem)

/- A new one belongs to the present attempt. -/
theorem Kept.async
    (hKept : Kept ops n again)
    (kind : OperationKind) :
    Kept (ops ++ [⟨kind, n, false⟩]) n again := by
  have hEither : ∀ op ∈ ops ++ [⟨kind, n, false⟩],
      op ∈ ops ∨ op = ⟨kind, n, false⟩ := by
    intro op hMem
    simpa using hMem
  refine ⟨?_, ?_, ?_, ?_⟩
  · intro op hMem
    rcases hEither op hMem with hOld | rfl
    · exact hKept.begun op hOld
    · exact Nat.le_refl n
  · intro op hMem hSocket hLess
    rcases hEither op hMem with hOld | rfl
    · exact hKept.left op hOld hSocket hLess
    · exact absurd hLess (Nat.lt_irrefl n)
  · intro hAgain op hMem hTimer hLess
    rcases hEither op hMem with hOld | rfl
    · exact hKept.waited hAgain op hOld hTimer hLess
    · exact absurd hLess (Nat.lt_irrefl n)
  · intro op hMem hResolve
    rcases hEither op hMem with hOld | rfl
    · exact hKept.resolving op hOld hResolve
    · rfl

/- What a socket lets go of completes as aborted. -/
theorem eq_aborted_of_admits
    {op : Operation}
    {outcome : Outcome}
    (hAdmits : op.Admits outcome)
    (hAborted : op.aborted = true)
    (hSocket : op.kind.usesSocket = true) :
    outcome = .aborted := by
  cases outcome with
  | aborted => rfl
  | failed =>
      rw [Operation.Admits, hAborted] at hAdmits
      cases hAdmits
  | done length =>
      rcases hAdmits with hFree | hTimer
      · rw [hAborted] at hFree
        cases hFree
      · rw [hTimer] at hSocket
        cases hSocket

/- Whatever is aborted but resolves. -/
theorem Kept.abort
    (hKept : Kept ops n again)
    (hWhich : ∀ op : Operation, op.kind = .resolve →
      which op = false) :
    Kept (ops.map (·.abortIf which)) n again := by
  refine ⟨?_, ?_, ?_, ?_⟩
  · intro op hMem
    rcases mem_abort hMem with ⟨old, hOld, _, hNumber, _⟩
    rw [hNumber]
    exact hKept.begun old hOld
  · intro op hMem hSocket hLess
    rcases mem_abort hMem with
      ⟨old, hOld, hKind, hNumber, hAborted⟩
    rw [hKind] at hSocket
    rw [hNumber] at hLess
    rw [hAborted, hKept.left old hOld hSocket hLess,
      Bool.or_true]
  · intro hAgain op hMem hTimer hLess
    rcases mem_abort hMem with
      ⟨old, hOld, hKind, hNumber, hAborted⟩
    rw [hKind] at hTimer
    rw [hNumber] at hLess
    rw [hAborted, hKept.waited hAgain old hOld hTimer hLess,
      Bool.or_true]
  · intro op hMem hResolve
    rcases mem_abort hMem with
      ⟨old, hOld, hKind, _, hAborted⟩
    rw [hKind] at hResolve
    rw [hAborted, hWhich old hResolve,
      hKept.resolving old hOld hResolve, Bool.or_false]

------------------------------------------------------------
-- Clients
------------------------------------------------------------

variable {c d : NetworkClient}
variable {e : Event}
variable {outcome : Outcome}

/- The operations under way are as asio keeps them. -/
def Sound
    (c : NetworkClient) : Prop :=
  Kept c.pending c.connection c.reconnected

/- Nothing is under way. -/
theorem sound_init : Sound {} where
  begun := by simp
  left := by simp
  waited := by simp
  resolving := by simp

/- What is started belongs to the present attempt. -/
theorem Sound.async
    (hSound : c.Sound)
    (kind : OperationKind) :
    (c.async kind).Sound :=
  Kept.async hSound kind

/- To cancel marks the waits of the timer. -/
theorem Sound.cancelConnectTimeout
    (hSound : c.Sound) :
    c.cancelConnectTimeout.Sound := by
  refine Kept.abort hSound ?_
  intro op hResolve
  rw [hResolve]
  rfl

/- To close marks what the socket does. -/
theorem Sound.closeSocket
    (hSound : c.Sound) :
    c.closeSocket.Sound := by
  refine Kept.abort hSound ?_
  intro op hResolve
  rw [hResolve]
  rfl

/- A packet is written, if there is one. -/
theorem Sound.doWrite
    (hSound : c.Sound) :
    c.doWrite.Sound := by
  unfold NetworkClient.doWrite
  split
  · exact hSound
  · exact Kept.async hSound .write

/- The next header is read. -/
theorem Sound.doReadHeader
    (hSound : c.Sound) :
    c.doReadHeader.Sound := by
  unfold NetworkClient.doReadHeader
  split
  · exact hSound
  · exact hSound.async .readHeader

/- The attempt has succeeded or failed. -/
theorem Sound.onConnectResult
    (hSound : c.Sound)
    (outcome : Outcome) :
    (c.onConnectResult outcome).Sound := by
  unfold NetworkClient.onConnectResult
  split
  · exact hSound
  · cases outcome with
    | done length =>
        apply Sound.doReadHeader
        split
        · apply Sound.doWrite
          exact hSound
        · exact hSound
    | aborted => exact hSound
    | failed => exact hSound

/- A connection that `close_connection` has let go of. -/
def released
    (c : NetworkClient) : NetworkClient :=
  let c := { c.cancelConnectTimeout with
    closed := true
    writeQueue := []
    writeInProgress := false }
  if c.socketOpen then c.closeSocket else c

/- All is marked that was under way. -/
theorem Sound.released
    (hSound : c.Sound) :
    c.released.Sound := by
  have hCanceled := hSound.cancelConnectTimeout
  unfold NetworkClient.released
  dsimp only
  split
  · exact Sound.closeSocket (by exact hCanceled)
  · exact hCanceled

/- Every wait is canceled. -/
theorem released_timers
    (c : NetworkClient) :
    ∀ op ∈ c.released.pending, op.kind = .timer →
      op.aborted = true := by
  have hCanceled : ∀ op ∈ c.cancelConnectTimeout.pending,
      op.kind = .timer → op.aborted = true := by
    intro op hMem hTimer
    rcases mem_abort hMem with ⟨old, _, hKind, _, hAborted⟩
    rw [hKind] at hTimer
    rw [hAborted, hTimer]
    rfl
  unfold released
  dsimp only
  split
  · intro op hMem hTimer
    rcases mem_abort hMem with
      ⟨old, hOld, hKind, _, hAborted⟩
    rw [hKind] at hTimer
    rw [hAborted, hCanceled old hOld hTimer, Bool.or_true]
  · exact hCanceled

/- The state is left to the caller. -/
theorem released_same
    (c : NetworkClient) :
    c.released.connectionState = c.connectionState ∧
      c.released.closed = true := by
  unfold released
  dsimp only
  split
  · exact ⟨rfl, rfl⟩
  · exact ⟨rfl, rfl⟩

/- What is left to `close_connection` is the state. -/
theorem closeConnection_shape
    (c : NetworkClient)
    (notify : Bool) :
    c.closeConnection notify =
      if notify && decide (c.connectionState = .connected ∨
          c.connectionState = .connecting) then
        { c.released with
          connectionState := .disconnected }.report
      else if c.released.connectionState = .connecting then
        { c.released with connectionState := .disconnected }
      else
        c.released := rfl

/- It is not left connecting. -/
theorem closeConnection_eq
    (c : NetworkClient)
    (notify : Bool) :
    ∃ state reported, state ≠ .connecting ∧
      c.closeConnection notify = { c.released with
        connectionState := state
        reported := reported } := by
  rw [closeConnection_shape]
  split
  · exact ⟨.disconnected, _, by simp, rfl⟩
  · split
    · exact ⟨.disconnected, _, by simp, rfl⟩
    · rename_i hOther
      exact ⟨_, _, hOther, rfl⟩

/- To close twice does nothing more. -/
theorem Sound.closeConnection
    (hSound : c.Sound)
    (notify : Bool) :
    (c.closeConnection notify).Sound := by
  rcases c.closeConnection_eq notify with
    ⟨state, reported, _, hEq⟩
  rw [hEq]
  exact hSound.released

/-
  A connection that `reconnect` begins finds every wait
  canceled; one that `start` begins need not.
-/
theorem Sound.beginConnect
    (hSound : c.Sound)
    (again : Bool)
    (hCanceled : again = true → ∀ op ∈ c.pending,
      op.kind = .timer → op.aborted = true) :
    (c.beginConnect again).Sound := by
  unfold NetworkClient.beginConnect
  split
  · exact hSound
  dsimp only
  apply Sound.async
  have hNew : ∀ d : NetworkClient, d.Sound →
      (again = true → ∀ op ∈ d.pending,
        op.kind = .timer → op.aborted = true) →
      Kept d.newSocket.pending (d.connection + 1) again := by
    intro d hd hTimers
    refine ⟨?_, ?_, ?_, ?_⟩
    · intro op hMem
      exact Nat.le_succ_of_le (hd.closeSocket.begun op hMem)
    · intro op hMem hSocket hLess
      rcases mem_abort hMem with
        ⟨old, hOld, hKind, hNumber, hAborted⟩
      rw [hKind] at hSocket
      rw [hNumber] at hLess
      rcases Nat.lt_succ_iff_lt_or_eq.mp hLess with
        hEarlier | hHere
      · rw [hAborted, hd.left old hOld hSocket hEarlier,
          Bool.or_true]
      · rw [hAborted, hSocket, hHere, decide_eq_true rfl]
        rfl
    · intro hAgain op hMem hTimer _
      rcases mem_abort hMem with
        ⟨old, hOld, hKind, _, hAborted⟩
      rw [hKind] at hTimer
      rw [hAborted, hTimers hAgain old hOld hTimer,
        Bool.or_true]
    · exact hd.closeSocket.resolving
  split
  · refine hNew _ hSound.closeSocket ?_
    intro hAgain op hMem hTimer
    rcases mem_abort hMem with
      ⟨old, hOld, hKind, _, hAborted⟩
    rw [hKind] at hTimer
    rw [hAborted, hCanceled hAgain old hOld hTimer,
      Bool.or_true]
  · exact hNew _ hSound hCanceled

/- One case for each kind of operation. -/
theorem Sound.handle
    (hSound : c.Sound)
    (outcome : Outcome)
    (kind : OperationKind) :
    (c.handle outcome kind).Sound := by
  cases kind with
  | resolve =>
      change (c.onResolved outcome).Sound
      unfold onResolved
      split
      · exact hSound
      · split
        · apply Sound.async
          exact hSound.cancelConnectTimeout.async .timer
        · exact hSound.onConnectResult outcome
  | connect =>
      exact hSound.cancelConnectTimeout.onConnectResult outcome
  | timer =>
      change (c.onTimer outcome).Sound
      unfold onTimer
      split
      · split
        · exact hSound
        · exact hSound.closeSocket.onConnectResult .failed
      · exact hSound
  | readHeader =>
      change (c.onHeader outcome).Sound
      unfold onHeader
      split
      · exact hSound
      · split
        · unfold doReadBody
          split
          · exact hSound
          · exact hSound.async _
        · exact hSound.closeConnection true
  | readBody length =>
      change (c.onBody outcome).Sound
      unfold onBody
      split
      · exact hSound
      · split
        · exact hSound.doReadHeader
        · exact hSound.closeConnection true
  | write =>
      have hDone : Sound { c with writeInProgress := false } :=
        hSound
      change (c.onWritten outcome).Sound
      unfold onWritten
      dsimp only
      split
      · exact hDone
      · split
        · split
          · apply Sound.doWrite
            exact hSound
          · exact hSound
        · exact hDone.closeConnection true

/- An operation completes once. -/
theorem step_complete
    {op : Operation}
    (hOk : c.step (.complete op outcome) = .ok d) :
    op ∈ c.pending ∧ op.Admits outcome ∧
      d = { c with
        pending := c.pending.erase op }.handle
          outcome op.kind := by
  simp only [NetworkClient.step] at hOk
  split at hOk
  · rename_i hEnabled
    cases hOk
    exact ⟨hEnabled.1, hEnabled.2, rfl⟩
  · cases hOk

/- Every event keeps the operations in order. -/
theorem Sound.step
    (hSound : c.Sound)
    (hOk : c.step e = .ok d) :
    d.Sound := by
  cases e with
  | start =>
      cases hOk
      exact hSound.beginConnect false (by simp)
  | reconnect =>
      cases hOk
      apply (hSound.closeConnection false).beginConnect
      rcases c.closeConnection_eq false with
        ⟨state, reported, _, hEq⟩
      rw [hEq]
      exact fun _ => c.released_timers
  | posted packet =>
      cases hOk
      unfold onPosted
      split
      · exact hSound
      · split
        · exact hSound
        · dsimp only
          split
          · apply Sound.doWrite
            exact hSound
          · exact hSound
  | complete op outcome =>
      rcases step_complete hOk with ⟨_, _, rfl⟩
      apply Sound.handle
      exact hSound.of_sublist fun other =>
        List.mem_of_mem_erase

------------------------------------------------------------
-- Open Connections
------------------------------------------------------------

/- A connection that is up is not closed. -/
def Opened
    (c : NetworkClient) : Prop :=
  c.connectionState = .connected → c.closed = false

/- There has been no attempt. -/
theorem opened_init : Opened {} := by
  intro hState
  cases hState

/- Neither the state nor `closed_` is another. -/
def SameState
    (c d : NetworkClient) : Prop :=
  d.connectionState = c.connectionState ∧ d.closed = c.closed

/- The state and the flag are all that counts. -/
theorem Opened.of_same
    (hOpened : c.Opened)
    (hSame : c.SameState d) :
    d.Opened := by
  intro hState
  rw [hSame.1] at hState
  rw [hSame.2]
  exact hOpened hState

/- To write changes neither. -/
theorem doWrite_same
    (c : NetworkClient) :
    c.SameState c.doWrite := by
  unfold doWrite
  split
  · exact ⟨rfl, rfl⟩
  · exact ⟨rfl, rfl⟩

/- Nor does to read. -/
theorem doReadHeader_same
    (c : NetworkClient) :
    c.SameState c.doReadHeader := by
  unfold doReadHeader
  split
  · exact ⟨rfl, rfl⟩
  · exact ⟨rfl, rfl⟩

/- An attempt that succeeds is open. -/
theorem Opened.onConnectResult
    (hOpened : c.Opened)
    (outcome : Outcome) :
    (c.onConnectResult outcome).Opened := by
  unfold NetworkClient.onConnectResult
  split
  · exact hOpened
  · rename_i hOpen
    have hFree : c.closed = false := by simpa using hOpen
    cases outcome with
    | done length =>
        refine Opened.of_same ?_ (doReadHeader_same _)
        split
        · refine Opened.of_same ?_ (doWrite_same _)
          exact fun _ => hFree
        · exact fun _ => hFree
    | aborted => exact hOpened
    | failed =>
        intro hState
        cases hState

/- A connection that is closed for good is not up. -/
theorem closeConnection_opened
    (c : NetworkClient) :
    (c.closeConnection true).Opened := by
  intro hState
  rw [closeConnection_shape] at hState
  split at hState
  · cases hState
  · rename_i hDown
    rw [c.released_same.1] at hState
    split at hState
    · cases hState
    · rw [c.released_same.1] at hState
      exact absurd (by simp [hState]) hDown

/- An attempt begins with connecting. -/
theorem beginConnect_state
    (c : NetworkClient)
    (again : Bool) :
    (c.beginConnect again).connectionState = .connecting := by
  unfold beginConnect
  split
  · assumption
  · rfl

/- One case for each kind of operation. -/
theorem Opened.handle
    (hOpened : c.Opened)
    (outcome : Outcome)
    (kind : OperationKind) :
    (c.handle outcome kind).Opened := by
  cases kind with
  | resolve =>
      change (c.onResolved outcome).Opened
      unfold onResolved
      split
      · exact hOpened
      · split
        · exact hOpened
        · exact hOpened.onConnectResult outcome
  | connect =>
      exact Opened.onConnectResult (by exact hOpened) outcome
  | timer =>
      change (c.onTimer outcome).Opened
      unfold onTimer
      split
      · split
        · exact hOpened
        · exact Opened.onConnectResult (by exact hOpened) .failed
      · exact hOpened
  | readHeader =>
      change (c.onHeader outcome).Opened
      unfold onHeader
      split
      · exact hOpened
      · split
        · unfold doReadBody
          split
          · exact hOpened
          · exact hOpened
        · exact c.closeConnection_opened
  | readBody length =>
      change (c.onBody outcome).Opened
      unfold onBody
      split
      · exact hOpened
      · split
        · exact hOpened.of_same c.doReadHeader_same
        · exact c.closeConnection_opened
  | write =>
      change (c.onWritten outcome).Opened
      unfold onWritten
      dsimp only
      split
      · exact hOpened
      · split
        · split
          · exact Opened.of_same (by exact hOpened)
              (doWrite_same _)
          · exact hOpened
        · exact closeConnection_opened _

/- Whatever happens next. -/
theorem Opened.step
    (hOpened : c.Opened)
    (hOk : c.step e = .ok d) :
    d.Opened := by
  cases e with
  | start =>
      cases hOk
      intro hState
      rw [beginConnect_state] at hState
      cases hState
  | reconnect =>
      cases hOk
      intro hState
      rw [beginConnect_state] at hState
      cases hState
  | posted packet =>
      cases hOk
      unfold onPosted
      split
      · exact hOpened
      · split
        · exact hOpened
        · dsimp only
          split
          · exact Opened.of_same (by exact hOpened)
              (doWrite_same _)
          · exact hOpened
  | complete op outcome =>
      rcases step_complete hOk with ⟨_, _, rfl⟩
      exact Opened.handle (by exact hOpened) outcome op.kind

------------------------------------------------------------
-- The Present Connection
------------------------------------------------------------

/- The operations under way on the present socket. -/
def onSocket
    (c : NetworkClient) : List Operation :=
  c.pending.filter fun op => op.kind.usesSocket &&
    decide (op.connection = c.connection)

/-
  The state, the flags, the queue and the socket are as they
  were, and nobody was told anything.
-/
structure Untouched
    (c d : NetworkClient) : Prop where
  connectionState : d.connectionState = c.connectionState
  closed : d.closed = c.closed
  writeInProgress : d.writeInProgress = c.writeInProgress
  writeQueue : d.writeQueue = c.writeQueue
  socketOpen : d.socketOpen = c.socketOpen
  connection : d.connection = c.connection
  onSocket : d.onSocket = c.onSocket
  reported : d.reported = c.reported

/-
  What was started for an earlier connection completes
  without a trace on one that `reconnect` began since.
-/
def Isolates
    (c : NetworkClient)
    (e : Event) : Prop :=
  ∀ op outcome d, e = .complete op outcome →
    op.connection < c.connection → c.reconnected = true →
    c.step e = .ok d → c.Untouched d

/-
  Which operations that were started for an earlier
  connection may complete now: a resolve or a read when this
  one is closed, a wait that has expired when it is closed
  or not being made, a write when it is neither up nor
  writing, connects and canceled waits at any time.
-/
def withstands
    (c : NetworkClient)
    (outcome : Outcome) : OperationKind → Bool
| .resolve => c.closed
| .connect => true
| .timer =>
    decide (outcome = .aborted) || c.closed ||
      decide (c.connectionState ≠ .connecting)
| .readHeader => c.closed
| .readBody _ => c.closed
| .write =>
    decide (c.connectionState ≠ .connected) &&
      !c.writeInProgress

/- What completes late may complete now. -/
def Spares
    (c : NetworkClient) : Event → Prop
| .complete op outcome =>
    op.connection < c.connection → c.reconnected = true →
      c.withstands outcome op.kind = true
| _ => True

instance
    (c : NetworkClient) :
    (e : Event) → Decidable (c.Spares e)
| .start => inferInstanceAs (Decidable True)
| .reconnect => inferInstanceAs (Decidable True)
| .posted _ => inferInstanceAs (Decidable True)
| .complete _ _ =>
    inferInstanceAs (Decidable (_ → _ → _ = true))

section handlers

/- What is done is off the list of what is under way. -/
theorem onSocket_erase
    {op : Operation}
    (hEarlier : op.connection < c.connection) :
    { c with pending := c.pending.erase op }.onSocket =
      c.onSocket := by
  unfold onSocket
  change List.filter _ (c.pending.erase op) = _
  rw [← List.erase_filter]
  apply List.erase_of_not_mem
  intro hMem
  have hHere := (List.mem_filter.mp hMem).2
  simp only [Bool.and_eq_true, decide_eq_true_eq] at hHere
  omega

/- Waits are not on the socket. -/
theorem onSocket_cancel
    (c : NetworkClient) :
    c.cancelConnectTimeout.onSocket = c.onSocket := by
  let here : Operation → Bool := fun op =>
    op.kind.usesSocket && decide (op.connection = c.connection)
  let wait : Operation → Bool := fun op =>
    decide (op.kind = .timer)
  have hHere : ∀ op : Operation,
      here (op.abortIf wait) = here op := by
    intro op
    unfold Operation.abortIf
    split
    · rfl
    · rfl
  have hKept : ∀ op ∈ c.pending.filter here,
      op.abortIf wait = op := by
    intro op hMem
    have hSocket := (List.mem_filter.mp hMem).2
    have hOther : ¬ wait op = true := by
      intro hWait
      simp only [wait, decide_eq_true_eq] at hWait
      simp [here, hWait, OperationKind.usesSocket] at hSocket
    exact if_neg hOther
  calc (c.pending.map (·.abortIf wait)).filter here
    _ = (c.pending.filter here).map (·.abortIf wait) := by
        rw [List.filter_map]
        congr 2
        exact funext hHere
    _ = (c.pending.filter here).map id :=
        List.map_congr_left hKept
    _ = c.pending.filter here := List.map_id _

/- What is started on the socket is under way there. -/
theorem onSocket_async
    (c : NetworkClient)
    (kind : OperationKind) :
    (c.async kind).onSocket = c.onSocket ++
      if kind.usesSocket then
        [⟨kind, c.connection, false⟩]
      else
        [] := by
  unfold onSocket async
  rw [List.filter_append]
  cases hSocket : kind.usesSocket with
  | true => simp [hSocket]
  | false => simp [hSocket]

/- The new attempt is given up. -/
theorem onConnectResult_failed
    (c : NetworkClient) :
    (c.onConnectResult .failed).closed = true := by
  unfold onConnectResult
  split
  · assumption
  · rfl

/- An abort is not reported. -/
theorem onConnectResult_aborted
    (c : NetworkClient) :
    c.onConnectResult .aborted = c := by
  unfold onConnectResult
  split
  · rfl
  · rfl

/- To close what is open can be seen. -/
theorem closeConnection_touches
    (notify : Bool)
    (hOpen : c.closed = false) :
    ¬ c.Untouched (c.closeConnection notify) := by
  intro hUntouched
  have hClosed := hUntouched.closed
  rcases c.closeConnection_eq notify with
    ⟨state, reported, _, hEq⟩
  rw [hEq, hOpen] at hClosed
  change c.released.closed = false at hClosed
  rw [c.released_same.2] at hClosed
  cases hClosed

/- To do nothing cannot. -/
theorem Untouched.refl
    (c : NetworkClient) :
    c.Untouched c :=
  ⟨rfl, rfl, rfl, rfl, rfl, rfl, rfl, rfl⟩

/- A resolve that comes back goes on to connect, or fails. -/
theorem onResolved_untouched_iff
    (hOutcome : outcome ≠ .aborted) :
    c.Untouched (c.onResolved outcome) ↔
      c.closed = true := by
  unfold onResolved
  split
  · rename_i hClosed
    exact ⟨fun _ => hClosed, fun _ => Untouched.refl c⟩
  · rename_i hOpen
    refine ⟨?_, fun hClosed => absurd hClosed hOpen⟩
    intro hUntouched
    cases outcome with
    | done length =>
        have hArmed : c.armConnectTimeout.onSocket =
            c.onSocket := by
          unfold armConnectTimeout
          rw [onSocket_async, onSocket_cancel]
          exact List.append_nil _
        have hMore := hUntouched.onSocket
        dsimp only at hMore
        rw [onSocket_async] at hMore
        have hSame := List.append_right_eq_self.mp
          ((congrArg (· ++ _) hArmed).symm.trans hMore)
        cases hSame
    | aborted => exact absurd rfl hOutcome
    | failed =>
        rw [← hUntouched.closed]
        exact c.onConnectResult_failed

/- A connect that was called off is passed over. -/
theorem onConnected_untouched
    (c : NetworkClient) :
    c.Untouched (c.onConnected .aborted) := by
  unfold onConnected
  rw [onConnectResult_aborted]
  exact ⟨rfl, rfl, rfl, rfl, rfl, rfl, c.onSocket_cancel, rfl⟩

/- A wait that has expired fails what is being made. -/
theorem onTimer_untouched_iff
    (hOutcome : outcome ≠ .failed) :
    c.Untouched (c.onTimer outcome) ↔
      c.withstands outcome .timer = true := by
  unfold onTimer
  cases outcome with
  | aborted => exact iff_of_true (Untouched.refl c) rfl
  | failed => exact absurd rfl hOutcome
  | done length =>
      have hIff : c.withstands (.done length) .timer = true ↔
          c.closed = true ∨
            c.connectionState ≠ .connecting := by
        simp [withstands]
      rw [hIff]
      dsimp only
      split
      · rename_i hOver
        exact iff_of_true (Untouched.refl c) hOver
      · rename_i hMaking
        refine iff_of_false ?_ hMaking
        intro hUntouched
        refine hMaking (Or.inl ?_)
        rw [← hUntouched.closed]
        exact c.closeSocket.onConnectResult_failed

/- A read that was called off closes what is open. -/
theorem onHeader_untouched_iff :
    c.Untouched (c.onHeader .aborted) ↔ c.closed = true := by
  unfold onHeader
  split
  · rename_i hClosed
    exact ⟨fun _ => hClosed, fun _ => Untouched.refl c⟩
  · rename_i hOpen
    have hFree : c.closed = false := by simpa using hOpen
    exact ⟨fun hUntouched => absurd hUntouched
        (closeConnection_touches true hFree),
      fun hClosed => absurd hClosed hOpen⟩

/- An aborted body is read like an aborted header. -/
theorem onBody_untouched_iff :
    c.Untouched (c.onBody .aborted) ↔ c.closed = true :=
  onHeader_untouched_iff

/- A write that was called off takes the mark with it. -/
theorem onWritten_untouched_iff
    (hOpened : c.Opened) :
    c.Untouched (c.onWritten .aborted) ↔
      c.withstands .aborted .write = true := by
  have hIff : c.withstands .aborted .write = true ↔
      c.connectionState ≠ .connected ∧
        c.writeInProgress = false := by
    simp [withstands]
  rw [hIff]
  unfold onWritten
  dsimp only
  split
  · rename_i hDown
    constructor
    · intro hUntouched
      exact ⟨hDown, hUntouched.writeInProgress.symm⟩
    · intro hIdle
      exact ⟨rfl, rfl, hIdle.2.symm, rfl, rfl, rfl, rfl, rfl⟩
  · rename_i hUp
    have hState : c.connectionState = .connected := by
      simpa using hUp
    refine ⟨?_, fun hIdle => absurd hState hIdle.1⟩
    intro hUntouched
    have hClosed := hUntouched.closed
    rcases closeConnection_eq { c with
      writeInProgress := false } true with
      ⟨state, reported, _, hEq⟩
    rw [hEq, hOpened hState] at hClosed
    change (released _).closed = false at hClosed
    rw [(released_same _).2] at hClosed
    cases hClosed

end handlers

------------------------------------------------------------
-- Late Completions
------------------------------------------------------------

/- A late completion leaves no trace if it is spared. -/
theorem untouched_iff_spares
    {op : Operation}
    (hSound : c.Sound)
    (hOpened : c.Opened)
    (hMem : op ∈ c.pending)
    (hAdmits : op.Admits outcome)
    (hEarlier : op.connection < c.connection)
    (hAgain : c.reconnected = true) :
    c.Untouched ({ c with
        pending := c.pending.erase op }.handle outcome op.kind) ↔
      c.Spares (.complete op outcome) := by
  let rest := { c with pending := c.pending.erase op }
  have hRest : rest.onSocket = c.onSocket :=
    onSocket_erase hEarlier
  have hFrom : ∀ d, c.Untouched d ↔ rest.Untouched d := by
    intro d
    constructor
    · intro h
      exact { h with
        onSocket := h.onSocket.trans hRest.symm }
    · intro h
      exact { h with
        onSocket := h.onSocket.trans hRest }
  have hLeft : op.kind.usesSocket = true →
      outcome = .aborted := fun hSocket =>
    eq_aborted_of_admits hAdmits
      (hSound.left op hMem hSocket hEarlier) hSocket
  change c.Untouched (rest.handle outcome op.kind) ↔
    (op.connection < c.connection → c.reconnected = true →
      c.withstands outcome op.kind = true)
  rw [hFrom, forall_prop_of_true hEarlier,
    forall_prop_of_true hAgain]
  rcases hKind : op.kind with
    _ | _ | _ | _ | length | _
  · -- Nobody calls a resolve off.
    apply onResolved_untouched_iff
    rintro rfl
    have hFree := hSound.resolving op hMem hKind
    rw [Operation.Admits, hFree] at hAdmits
    cases hAdmits
  · rw [hLeft (by rw [hKind]; rfl)]
    exact iff_of_true rest.onConnected_untouched rfl
  · -- It was canceled, which is no failure.
    apply onTimer_untouched_iff
    rintro rfl
    have hCanceled :=
      hSound.waited hAgain op hMem hKind hEarlier
    rw [Operation.Admits, hCanceled] at hAdmits
    cases hAdmits
  · rw [hLeft (by rw [hKind]; rfl)]
    exact rest.onHeader_untouched_iff
  · rw [hLeft (by rw [hKind]; rfl)]
    exact rest.onBody_untouched_iff
  · rw [hLeft (by rw [hKind]; rfl)]
    exact onWritten_untouched_iff (c := rest) hOpened

/-
  In a run, what was started for earlier connections leaves
  no trace exactly if all of it is spared.
-/
theorem Run.isolates_iff
    {trace : List (NetworkClient × Event)}
    (run : Run trace c) :
    (∀ p ∈ trace, p.1.Isolates p.2) ↔
      ∀ p ∈ trace, p.1.Spares p.2 := by
  have hHere : ∀ p ∈ trace, p.1.Isolates p.2 ↔
      p.1.Spares p.2 := by
    intro ⟨s, e⟩ hMem
    have hSound : s.Sound :=
      Transition.Run.invariant_of_mem
        (fun _ _ _ hInv hOk => Sound.step hInv hOk)
        run sound_init hMem
    have hOpened : s.Opened :=
      Transition.Run.invariant_of_mem
        (fun _ _ _ hInv hOk => Opened.step hInv hOk)
        run opened_init hMem
    rcases Transition.Run.ok_of_mem run hMem with ⟨t, hOk⟩
    rcases e with _ | _ | packet | ⟨op, outcome⟩
    · exact iff_of_true (by intro _ _ _ h; cases h) trivial
    · exact iff_of_true (by intro _ _ _ h; cases h) trivial
    · exact iff_of_true (by intro _ _ _ h; cases h) trivial
    · rcases step_complete hOk with ⟨hPending, hAdmits, rfl⟩
      have hIff := untouched_iff_spares hSound hOpened
        hPending hAdmits
      constructor
      · intro hIsolates hEarlier hAgain
        have hUntouched := hIsolates op outcome _ rfl
          hEarlier hAgain hOk
        exact (hIff hEarlier hAgain).mp hUntouched
          hEarlier hAgain
      · intro hSpares op' outcome' d hSame hEarlier hAgain hOk'
        cases hSame
        cases hOk.symm.trans hOk'
        exact (hIff hEarlier hAgain).mpr hSpares
  exact forall₂_congr hHere

/-
  A connection is begun twice, and the first connect is late.
  The first wait, which had expired, comes when the second
  connection is up.
-/
def connectingTwice : List Event :=
  [.start, .complete ⟨.resolve, 1, false⟩ (.done none),
    .reconnect, .complete ⟨.connect, 1, true⟩ .aborted,
    .complete ⟨.resolve, 2, false⟩ (.done none),
    .complete ⟨.connect, 2, false⟩ (.done none),
    .complete ⟨.timer, 1, true⟩ (.done none)]

/- By then the wait is of no consequence. -/
theorem connectingTwice_isolates :
    ∃ trace c, Run trace c ∧
      trace.map Prod.snd = connectingTwice ∧
      ∀ p ∈ trace, p.1.Isolates p.2 := by
  have hPasses : Transition.passes step {} connectingTwice
      (fun trace _ =>
        trace.all fun p => decide (p.1.Spares p.2)) = true := by
    decide
  rcases Transition.exists_run_on_of_passes hPasses with
    ⟨trace, c, run, hEvents, hTest⟩
  refine ⟨trace, c, run, hEvents, ?_⟩
  apply (Run.isolates_iff run).mpr
  intro p hMem
  exact of_decide_eq_true (List.all_eq_true.mp hTest p hMem)

/- `reconnect` on a connection that is up and reads. -/
def readingOn : List Event :=
  [.start, .complete ⟨.resolve, 1, false⟩ (.done none),
    .complete ⟨.connect, 1, false⟩ (.done none), .reconnect]

/- The connection that was begun then. -/
def begunAgain : NetworkClient where
  connectionState := .connecting
  closed := false
  connection := 2
  reconnected := true
  pending := [⟨.timer, 1, true⟩, ⟨.readHeader, 1, true⟩,
    ⟨.resolve, 2, false⟩]
  reported := [.connecting, .connected, .connecting]

/-
  The read that `reconnect` called off closes the connection
  it has just begun, and this is what the user is told.
-/
theorem lateRead_not_isolated :
    ¬ ∀ {trace : List (NetworkClient × Event)}
      {c : NetworkClient},
      Run trace c → ∀ p ∈ trace, p.1.Isolates p.2 := by
  intro hAll
  have hRun : Run (Transition.execTrace step {} readingOn)
      begunAgain :=
    Transition.exec_run rfl
  have hOk : begunAgain.step
      (.complete ⟨.readHeader, 1, true⟩ .aborted) =
      .ok { begunAgain with
        connectionState := .disconnected
        closed := true
        pending := [⟨.timer, 1, true⟩, ⟨.resolve, 2, false⟩]
        reported := begunAgain.reported ++
          [.disconnected] } := rfl
  have hUntouched := hAll (Transition.Run.snoc hRun hOk) (_, _)
    (List.mem_append_right _ (List.mem_singleton_self _))
    _ _ _ rfl (by decide) rfl hOk
  have hTold := hUntouched.reported
  simp at hTold

end NetworkClient

end Client

end Poker
