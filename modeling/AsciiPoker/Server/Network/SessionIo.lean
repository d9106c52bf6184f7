import AsciiPoker.Library.Outbox
import AsciiPoker.Library.Transition
import AsciiPoker.Server.GameSession.State
import AsciiPoker.Server.Network.Session

/-
  A session with the operations it has under way
  (`session.cpp`).

  asio completes each operation that was started once, with
  an error or without: `reads` and `writes` are the
  operations it still has to complete.  Only the members of
  the class decide, so what a read delivers is left open.
  While a message is being processed the processor may send
  on the session or close it; what it calls in
  `on_disconnect` finds the session closed.  A message whose
  text cannot be dumped throws before anything is touched
  and is no event.

  Main declarations:
    * `SessionIo`, `SessionIo.send`, `SessionIo.doWrite`,
      `SessionIo.closeSession`
    * `SessionIo.Event`, `SessionIo.step`
    * `SessionIo.Sound`
    * `SessionIo.Run.protocol`
-/

------------------------------------------------------------
-- The Session and Its Operations
------------------------------------------------------------

namespace Poker

namespace Server

open Network

/-
  The flags and the queue of a session.  `accepted` are the
  packets that `send` has queued, `handed` those given to
  `async_write`, `processed` the messages given to the
  processor and `disconnects` counts its `on_disconnect`.
-/
structure SessionIo where
  writeQueue : List (List UInt8) := []
  disconnectNotified : Bool := false
  closed : Bool := false
  writeInProgress : Bool := false
  reads : List Reading := []
  writes : List (List UInt8) := []
  accepted : List (List UInt8) := []
  handed : List (List UInt8) := []
  processed : List (List UInt8) := []
  disconnects : Nat := 0
  deriving DecidableEq, Repr

namespace SessionIo

/- `do_write`. -/
def doWrite
    (s : SessionIo) : SessionIo :=
  if s.closed ∨ s.writeInProgress ∨ s.writeQueue = [] then
    s
  else
    { s with
      writeInProgress := true
      writes := s.writes ++ s.writeQueue.take 1
      handed := s.handed ++ s.writeQueue.take 1 }

/-
  `send`, given the text that the message is dumped to.  It
  drops what is too large for `encode_packet`.
-/
def send
    (s : SessionIo)
    (json : List UInt8) : SessionIo :=
  if s.closed then
    s
  else
    match encodePacket json with
    | none => s
    | some packet =>
        let s := { s with
          writeQueue := s.writeQueue ++ [packet]
          accepted := s.accepted ++ [packet] }
        if s.writeInProgress then
          s
        else
          s.doWrite

/- `close_session`. -/
def closeSession
    (s : SessionIo) : SessionIo :=
  if s.closed then
    s
  else
    let s := { s with closed := true }
    if s.disconnectNotified then
      s
    else
      { s with
        disconnectNotified := true
        disconnects := s.disconnects + 1 }

/- The handler of the write in `do_write`. -/
def onWritten
    (s : SessionIo)
    (failed : Bool) : SessionIo :=
  let s := { s with writeInProgress := false }
  if s.closed then
    s
  else if failed then
    s.closeSession
  else
    let s := { s with writeQueue := s.writeQueue.drop 1 }
    if s.writeQueue ≠ [] then
      s.doWrite
    else
      s

/- `do_read_header`. -/
def doReadHeader
    (s : SessionIo) : SessionIo :=
  if s.closed then
    s
  else
    { s with reads := s.reads ++ [.header] }

/- `do_read_body`. -/
def doReadBody
    (s : SessionIo)
    (length : UInt32) : SessionIo :=
  if s.closed then
    s
  else
    { s with reads := s.reads ++ [.body length] }

/-
  The handler of the read in `do_read_header`; `none` is a
  read that failed.
-/
def onHeader
    (s : SessionIo)
    (result : Option (List UInt8)) : SessionIo :=
  if s.closed then
    s
  else
    match result with
    | none => s.closeSession
    | some headerBuffer =>
        if headerBuffer.length = 4 then
          match decodePacketLength headerBuffer with
          | none => s.closeSession
          | some length => s.doReadBody length
        else
          s.closeSession

/- What a processor calls on the session of a message. -/
inductive Call
  | send (json : List UInt8)
  | closeSession
  deriving DecidableEq, Repr

def call
    (s : SessionIo) : Call → SessionIo
| .send json => s.send json
| .closeSession => s.closeSession

/- `on_message`, with the calls its processing makes. -/
def onMessage
    (s : SessionIo)
    (json : List UInt8)
    (calls : List Call) : SessionIo :=
  calls.foldl call
    { s with processed := s.processed ++ [json] }

/- The handler of the read in `do_read_body`. -/
def onBody
    (s : SessionIo)
    (result : Option (List UInt8))
    (calls : List Call) : SessionIo :=
  if s.closed then
    s
  else
    match result with
    | none => s.closeSession
    | some bodyBuffer =>
        (s.onMessage bodyBuffer calls).doReadHeader

------------------------------------------------------------
-- The Machine
------------------------------------------------------------

inductive Event
  | call (call : Call)
  | headerRead (result : Option (List UInt8))
  | bodyRead
      (length : UInt32)
      (result : Option (List UInt8))
      (calls : List Call)
  | written (packet : List UInt8) (failed : Bool)
  deriving DecidableEq, Repr

/- One event; a completion needs its operation under way. -/
def step
    (s : SessionIo) : Event → Except Exn SessionIo
| .call c => .ok (s.call c)
| .headerRead result =>
    if .header ∈ s.reads then
      .ok <| { s with
        reads := s.reads.erase .header }.onHeader result
    else
      .error .notEnabled
| .bodyRead length result calls =>
    if .body length ∈ s.reads then
      .ok <| { s with
        reads := s.reads.erase (.body length) }.onBody
          result calls
    else
      .error .notEnabled
| .written packet failed =>
    if packet ∈ s.writes then
      .ok <| { s with
        writes := s.writes.erase packet }.onWritten failed
    else
      .error .notEnabled

/- A session that has just been started, as `start` does. -/
def opening : SessionIo :=
  doReadHeader {}

/- Any order of calls and completions on one session. -/
def Run
    (trace : List (SessionIo × Event))
    (s : SessionIo) : Prop :=
  Transition.Run step opening trace s

------------------------------------------------------------
-- The Writing Side as an Outbox
------------------------------------------------------------

/- The write queue and its account. -/
def outbox
    (s : SessionIo) : Outbox (List UInt8) where
  queue := s.writeQueue
  flying := s.writes
  handed := s.handed
  accepted := s.accepted

/-
  While it is open, the session is an outbox and has told
  nobody that it is closed.  Once closed it keeps what it
  had.
-/
structure Sound
    (s : SessionIo) : Prop where
  sending : s.closed = false →
    s.outbox.Sound s.writeInProgress
  atMostOne : s.writes.length ≤ 1
  handed_prefix : s.handed <+: s.accepted
  notified : s.disconnectNotified = s.closed
  disconnects_eq : s.disconnects = s.closed.toNat

variable {s : SessionIo}

theorem sound_of_outbox
    (hOpen : s.closed = false)
    (hSending : s.outbox.Sound s.writeInProgress)
    (hNotified : s.disconnectNotified = false)
    (hNone : s.disconnects = 0) :
    s.Sound where
  sending := fun _ => hSending
  atMostOne := hSending.atMostOne
  handed_prefix := hSending.prefix
  notified := hNotified.trans hOpen.symm
  disconnects_eq := by
    rw [hOpen, hNone]
    rfl

/- Nothing but the reads differs, which no account is kept of. -/
theorem Sound.of_reads
    (hSound : s.Sound)
    (reads : List Reading) :
    Sound { s with reads := reads } :=
  ⟨hSound.sending, hSound.atMostOne, hSound.handed_prefix,
    hSound.notified, hSound.disconnects_eq⟩

theorem Sound.open_notified
    (hSound : s.Sound)
    (hOpen : s.closed = false) :
    s.disconnectNotified = false ∧ s.disconnects = 0 := by
  have hNotified := hSound.notified
  have hCount := hSound.disconnects_eq
  rw [hOpen] at hNotified hCount
  exact ⟨hNotified, hCount⟩

------------------------------------------------------------
-- What the Members Keep
------------------------------------------------------------

/- An idle session lets the front of its queue go. -/
theorem doWrite_eq
    (hOpen : s.closed = false)
    (hIdle : s.writeInProgress = false)
    (hSome : s.writeQueue ≠ []) :
    s.doWrite = { s with
      writeInProgress := true
      writes := s.writes ++ s.writeQueue.take 1
      handed := s.handed ++ s.writeQueue.take 1 } := by
  unfold doWrite
  rw [if_neg (by simp [hOpen, hIdle, hSome])]

theorem Sound.send
    (hSound : s.Sound)
    (json : List UInt8) :
    (s.send json).Sound := by
  unfold SessionIo.send
  by_cases hClosed : s.closed = true
  · rw [if_pos hClosed]
    exact hSound
  rw [if_neg hClosed]
  have hOpen : s.closed = false := by simpa using hClosed
  rcases hSound.open_notified hOpen with ⟨hNotified, hNone⟩
  have hSending := hSound.sending hOpen
  cases hPacket : encodePacket json with
  | none => exact hSound
  | some packet =>
      dsimp only
      cases hBusy : s.writeInProgress with
      | true =>
          rw [if_pos rfl]
          rw [hBusy] at hSending
          have hQueued := hSending.accept packet
          exact sound_of_outbox hOpen hQueued hNotified hNone
      | false =>
          rw [if_neg Bool.false_ne_true]
          rw [hBusy] at hSending
          have hGone := hSending.accept_dispatch packet
          rw [doWrite_eq (by exact hOpen) (by rfl) (by simp)]
          exact sound_of_outbox hOpen hGone hNotified hNone

theorem Sound.closeSession
    (hSound : s.Sound) :
    s.closeSession.Sound := by
  unfold SessionIo.closeSession
  by_cases hClosed : s.closed = true
  · rw [if_pos hClosed]
    exact hSound
  rw [if_neg hClosed]
  have hOpen : s.closed = false := by simpa using hClosed
  rcases hSound.open_notified hOpen with ⟨hNotified, hNone⟩
  dsimp only
  rw [if_neg (by simp [hNotified])]
  refine ⟨by simp, hSound.atMostOne, hSound.handed_prefix,
    rfl, ?_⟩
  dsimp only
  rw [hNone]
  rfl

theorem Sound.call
    (hSound : s.Sound)
    (call : Call) :
    (s.call call).Sound := by
  cases call with
  | send json => exact hSound.send json
  | closeSession => exact hSound.closeSession

theorem Sound.calls
    (hSound : s.Sound)
    (calls : List Call) :
    (calls.foldl SessionIo.call s).Sound := by
  induction calls generalizing s with
  | nil => exact hSound
  | cons call calls ih => exact ih (hSound.call call)

theorem Sound.doReadHeader
    (hSound : s.Sound) :
    s.doReadHeader.Sound := by
  unfold SessionIo.doReadHeader
  split
  · exact hSound
  · exact hSound.of_reads _

theorem Sound.doReadBody
    (hSound : s.Sound)
    (length : UInt32) :
    (s.doReadBody length).Sound := by
  unfold SessionIo.doReadBody
  split
  · exact hSound
  · exact hSound.of_reads _

theorem Sound.onHeader
    (hSound : s.Sound)
    (result : Option (List UInt8)) :
    (s.onHeader result).Sound := by
  unfold SessionIo.onHeader
  by_cases hClosed : s.closed = true
  · rw [if_pos hClosed]
    exact hSound
  rw [if_neg hClosed]
  cases result with
  | none => exact hSound.closeSession
  | some headerBuffer =>
      dsimp only
      split
      · split
        · exact hSound.closeSession
        next length _ => exact hSound.doReadBody length
      · exact hSound.closeSession

theorem Sound.onBody
    (hSound : s.Sound)
    (result : Option (List UInt8))
    (calls : List Call) :
    (s.onBody result calls).Sound := by
  unfold SessionIo.onBody
  by_cases hClosed : s.closed = true
  · rw [if_pos hClosed]
    exact hSound
  rw [if_neg hClosed]
  cases result with
  | none => exact hSound.closeSession
  | some bodyBuffer =>
      have hProcessed : Sound { s with
          processed := s.processed ++ [bodyBuffer] } :=
        ⟨hSound.sending, hSound.atMostOne,
          hSound.handed_prefix, hSound.notified,
          hSound.disconnects_eq⟩
      exact (hProcessed.calls calls).doReadHeader

/-
  The write under way is complete: the next one starts, if
  the session is open and something is waiting.
-/
theorem Sound.onWritten
    {packet : List UInt8}
    (hSound : s.Sound)
    (hMem : packet ∈ s.writes)
    (failed : Bool) :
    ({ s with
      writes := s.writes.erase packet }.onWritten
        failed).Sound := by
  have hLength := List.length_erase_of_mem hMem
  have hOne := hSound.atMostOne
  have hEmpty : s.writes.erase packet = [] := by
    apply List.eq_nil_of_length_eq_zero
    omega
  rw [hEmpty]
  unfold SessionIo.onWritten
  dsimp only
  by_cases hClosed : s.closed = true
  · rw [if_pos hClosed]
    refine ⟨?_, Nat.zero_le _, hSound.handed_prefix,
      hSound.notified, hSound.disconnects_eq⟩
    intro hOpen
    exact absurd hOpen (by simp [hClosed])
  rw [if_neg hClosed]
  have hOpen : s.closed = false := by simpa using hClosed
  rcases hSound.open_notified hOpen with ⟨hNotified, hNone⟩
  have hSending := hSound.sending hOpen
  by_cases hFailed : failed = true
  · rw [if_pos hFailed]
    unfold SessionIo.closeSession
    rw [if_neg hClosed]
    dsimp only
    rw [if_neg (by simp [hNotified])]
    refine ⟨by simp, Nat.zero_le _, hSound.handed_prefix,
      rfl, ?_⟩
    dsimp only
    rw [hNone]
    rfl
  rw [if_neg hFailed]
  by_cases hMore : s.writeQueue.drop 1 ≠ []
  · rw [if_pos hMore, doWrite_eq (by exact hOpen) (by rfl)
      (by exact hMore)]
    have hNext := hSending.land_dispatch
    have hBusy : (!s.outbox.land.queue.isEmpty) = true := by
      simpa [Outbox.land, outbox] using hMore
    rw [hBusy] at hNext
    exact sound_of_outbox hOpen hNext hNotified hNone
  · rw [if_neg hMore]
    have hLast := not_not.mp hMore
    exact sound_of_outbox hOpen (hSending.land hLast)
      hNotified hNone

/- Every event keeps the session in order. -/
theorem Sound.step
    {t : SessionIo}
    {e : Event}
    (hSound : s.Sound)
    (hOk : s.step e = .ok t) :
    t.Sound := by
  cases e with
  | call call =>
      cases hOk
      exact hSound.call call
  | headerRead result =>
      simp only [SessionIo.step] at hOk
      split at hOk
      · cases hOk
        exact (hSound.of_reads _).onHeader result
      · cases hOk
  | bodyRead length result calls =>
      simp only [SessionIo.step] at hOk
      split at hOk
      · cases hOk
        exact (hSound.of_reads _).onBody result calls
      · cases hOk
  | written packet failed =>
      simp only [SessionIo.step] at hOk
      split at hOk
      next hMem =>
        cases hOk
        exact hSound.onWritten hMem failed
      · cases hOk

theorem opening_sound :
    opening.Sound where
  sending := fun _ =>
    ⟨rfl, rfl, by simp [opening, doReadHeader, outbox]⟩
  atMostOne := Nat.zero_le _
  handed_prefix := List.prefix_rfl
  notified := rfl
  disconnects_eq := rfl

------------------------------------------------------------
-- A Closed Session
------------------------------------------------------------

/- A session that is closed, and what it has done by then. -/
structure Frozen
    (s t : SessionIo) : Prop where
  closed : t.closed = true
  handed_eq : t.handed = s.handed
  processed_eq : t.processed = s.processed
  accepted_eq : t.accepted = s.accepted
  disconnects_eq : t.disconnects = s.disconnects

/- Nothing that can happen thaws a closed session. -/
theorem Frozen.step
    {t u : SessionIo}
    {e : Event}
    (hFrozen : s.Frozen t)
    (hOk : t.step e = .ok u) :
    s.Frozen u := by
  have hClosed := hFrozen.closed
  cases e with
  | call call =>
      cases hOk
      cases call with
      | send json =>
          simp only [SessionIo.call, SessionIo.send, hClosed,
            if_true]
          exact hFrozen
      | closeSession =>
          simp only [SessionIo.call, SessionIo.closeSession,
            hClosed, if_true]
          exact hFrozen
  | headerRead result =>
      simp only [SessionIo.step] at hOk
      split at hOk
      · cases hOk
        simp only [SessionIo.onHeader, hClosed, if_true]
        exact ⟨rfl, hFrozen.handed_eq, hFrozen.processed_eq,
          hFrozen.accepted_eq, hFrozen.disconnects_eq⟩
      · cases hOk
  | bodyRead length result calls =>
      simp only [SessionIo.step] at hOk
      split at hOk
      · cases hOk
        simp only [SessionIo.onBody, hClosed, if_true]
        exact ⟨rfl, hFrozen.handed_eq, hFrozen.processed_eq,
          hFrozen.accepted_eq, hFrozen.disconnects_eq⟩
      · cases hOk
  | written packet failed =>
      simp only [SessionIo.step] at hOk
      split at hOk
      · cases hOk
        simp only [SessionIo.onWritten, hClosed, if_true]
        exact ⟨rfl, hFrozen.handed_eq, hFrozen.processed_eq,
          hFrozen.accepted_eq, hFrozen.disconnects_eq⟩
      · cases hOk

------------------------------------------------------------
-- Runs
------------------------------------------------------------

variable {trace : List (SessionIo × Event)}

theorem Run.sound
    (run : Run trace s) :
    s.Sound :=
  run.invariant_of_step
    (fun _ _ _ hSound hOk => hSound.step hOk)
    opening_sound

/-
  Whatever the order of calls and completions: at most one
  write is under way, the packets that were handed over are
  the first of those that were accepted, the processor is
  told of the end once at most, and after the session is
  closed nothing is processed, handed over or accepted.
-/
theorem Run.protocol
    (run : Run trace s) :
    s.writes.length ≤ 1 ∧
      s.handed <+: s.accepted ∧
      s.disconnects ≤ 1 ∧
      (s.closed = true → ∀ later t,
        Transition.Run step s later t → s.Frozen t) := by
  have hSound := run.sound
  refine ⟨hSound.atMostOne, hSound.handed_prefix, ?_, ?_⟩
  · rw [hSound.disconnects_eq]
    exact Bool.toNat_le s.closed
  · intro hClosed later t hLater
    exact hLater.invariant_of_step
      (fun _ _ _ hFrozen hOk => hFrozen.step hOk)
      ⟨hClosed, rfl, rfl, rfl, rfl⟩

/-
  Two packets are accepted while the first is written, the
  first write succeeds, and the session is closed.
-/
def Event.sendTwo : List Event :=
  [.call (.send [1]), .call (.send [2]),
    .written [0, 0, 0, 1, 1] false, .call .closeSession]

theorem sendTwo_protocol :
    ∃ trace s, Run trace s ∧
      s.closed = true ∧
      s.accepted = [[0, 0, 0, 1, 1], [0, 0, 0, 1, 2]] ∧
      s.writes.length ≤ 1 := by
  have hPasses : Transition.passes step opening
      Event.sendTwo (fun _ s => decide
        (s.closed = true ∧
          s.accepted =
            [[0, 0, 0, 1, 1], [0, 0, 0, 1, 2]])) = true := by
    decide +kernel
  rcases Transition.exists_run_of_passes hPasses with
    ⟨trace, s, run, hTest⟩
  rcases of_decide_eq_true hTest with ⟨hClosed, hAccepted⟩
  exact ⟨trace, s, run, hClosed, hAccepted,
    (Run.protocol run).1⟩

end SessionIo

end Server

end Poker
