import AsciiPoker.Common.PacketFraming

/-
  How a session reads packets off its connection
  (`session.cpp`).

  `asio::async_read` with `transfer_exactly` collects bytes,
  in whatever pieces they come, until its buffer is full and
  then calls its handler.  `receiveByte` is one byte of it.

  Main declarations:
    * `Session`, `Session.receiveByte`, `Session.receive`
    * `Session.Reads`, `Session.receive_reads`
    * `Session.framing_invertible`
-/

------------------------------------------------------------
-- The Receive Loop
------------------------------------------------------------

namespace Poker

namespace Server

open Network

/- The read that is under way. -/
inductive Reading
  | header
  | body (length : UInt32)
  deriving DecidableEq, Repr

/-
  A connection as the receive loop sees it.  `received` are
  the bodies that were given to `on_message`.
-/
structure Session where
  reading : Reading := .header
  headerBuffer : List UInt8 := []
  bodyBuffer : List UInt8 := []
  closed : Bool := false
  received : List (List UInt8) := []
  deriving DecidableEq, Repr

namespace Session

/- `do_read_header`. -/
def doReadHeader
    (s : Session) : Session :=
  { s with
    reading := .header
    headerBuffer := [] }

/- `do_read_body`. -/
def doReadBody
    (s : Session)
    (length : UInt32) : Session :=
  { s with
    reading := .body length
    bodyBuffer := [] }

/- `close_session`. -/
def closeSession
    (s : Session) : Session :=
  { s with closed := true }

/- The handler of the read in `do_read_header`. -/
def onHeader
    (s : Session) : Session :=
  match decodePacketLength s.headerBuffer with
  | none => s.closeSession
  | some length => s.doReadBody length

/- `on_message`. -/
def onMessage
    (s : Session)
    (body : List UInt8) : Session :=
  { s with received := s.received ++ [body] }

/- The handler of the read in `do_read_body`. -/
def onBody
    (s : Session) : Session :=
  (s.onMessage s.bodyBuffer).doReadHeader

/- One more byte has come in. -/
def receiveByte
    (s : Session)
    (byte : UInt8) : Session :=
  if s.closed then
    s
  else
    match s.reading with
    | .header =>
        let s := { s with
          headerBuffer := s.headerBuffer ++ [byte] }
        if s.headerBuffer.length = 4 then
          s.onHeader
        else
          s
    | .body length =>
        let s := { s with
          bodyBuffer := s.bodyBuffer ++ [byte] }
        if s.bodyBuffer.length = length.toNat then
          s.onBody
        else
          s

/- The session after all these bytes. -/
def receive
    (bytes : List UInt8) : Session :=
  bytes.foldl receiveByte {}

------------------------------------------------------------
-- What Was Read
------------------------------------------------------------

/- What lies behind the packets that were delivered. -/
inductive Rest
    (s : Session) : List UInt8 → Prop
  | header
      (hOpen : s.closed = false)
      (hReading : s.reading = .header)
      (hShort : s.headerBuffer.length < 4) :
      Rest s s.headerBuffer
  | body
      {length : UInt32}
      (hOpen : s.closed = false)
      (hReading : s.reading = .body length)
      (hWidth : s.headerBuffer.length = 4)
      (hDecode :
        decodePacketLength s.headerBuffer = some length)
      (hShort : s.bodyBuffer.length < length.toNat) :
      Rest s (s.headerBuffer ++ s.bodyBuffer)
  | refused
      {ignored : List UInt8}
      (hClosed : s.closed = true)
      (hWidth : s.headerBuffer.length = 4)
      (hNone : decodePacketLength s.headerBuffer = none) :
      Rest s (s.headerBuffer ++ ignored)

/- The bytes are the delivered packets and the rest. -/
def Reads
    (s : Session)
    (bytes : List UInt8) : Prop :=
  (∀ body ∈ s.received, Sendable body) ∧
    ∃ rest, s.Rest rest ∧
      bytes = packetFraming.stream s.received ++ rest

/- A full header is refused or announces a body. -/
theorem onHeader_reads
    {s : Session}
    {bytes : List UInt8}
    (hSendable : ∀ body ∈ s.received, Sendable body)
    (hOpen : s.closed = false)
    (hWidth : s.headerBuffer.length = 4)
    (hBytes : bytes =
      packetFraming.stream s.received ++ s.headerBuffer) :
    s.onHeader.Reads bytes := by
  unfold onHeader
  cases hDecode : decodePacketLength s.headerBuffer with
  | none =>
      have hRest : s.closeSession.Rest
          (s.headerBuffer ++ []) :=
        Rest.refused rfl hWidth hDecode
      rw [List.append_nil] at hRest
      exact ⟨hSendable, _, hRest, hBytes⟩
  | some length =>
      have hValid := isValidPacketLength_of_decode hDecode
      have hPos := UInt32.lt_iff_toNat_lt.mp hValid.1
      have hRest : (s.doReadBody length).Rest
          (s.headerBuffer ++ []) :=
        Rest.body hOpen rfl hWidth hDecode hPos
      rw [List.append_nil] at hRest
      exact ⟨hSendable, _, hRest, hBytes⟩

/- A full body is delivered. -/
theorem onBody_reads
    {s : Session}
    {length : UInt32}
    {bytes : List UInt8}
    (hSendable : ∀ body ∈ s.received, Sendable body)
    (hOpen : s.closed = false)
    (hWidth : s.headerBuffer.length = 4)
    (hDecode :
      decodePacketLength s.headerBuffer = some length)
    (hFull : s.bodyBuffer.length = length.toNat)
    (hBytes : bytes = packetFraming.stream s.received ++
      (s.headerBuffer ++ s.bodyBuffer)) :
    s.onBody.Reads bytes := by
  have hAnnounced :
      packetFraming.announced s.headerBuffer =
        some s.bodyBuffer.length := by
    change (decodePacketLength s.headerBuffer).map _ = _
    rw [hDecode, hFull]
    rfl
  have hPacket := Framing.packet_of_announced hWidth hAnnounced
  refine ⟨?_, [], ?_, ?_⟩
  · intro body hBody
    rcases List.mem_append.mp hBody with hOld | hNew
    · exact hSendable body hOld
    · rw [List.mem_singleton.mp hNew]
      exact sendable_of_announced hAnnounced
  · exact Rest.header hOpen rfl (by simp [onBody, doReadHeader])
  · rw [List.append_nil, hBytes, ← hPacket]
    change _ = packetFraming.stream (s.received ++ [_])
    simp

/- One byte more keeps account of all that was read. -/
theorem Reads.receiveByte
    {s : Session}
    {bytes : List UInt8}
    (hReads : s.Reads bytes)
    (byte : UInt8) :
    (s.receiveByte byte).Reads (bytes ++ [byte]) := by
  rcases hReads with ⟨hSendable, rest, hRest, hBytes⟩
  unfold Session.receiveByte
  cases hRest with
  | header hOpen hReading hShort =>
      rw [hOpen, hReading]
      simp only [Bool.false_eq_true, if_false]
      have hMore : bytes ++ [byte] =
          packetFraming.stream s.received ++
            (s.headerBuffer ++ [byte]) := by
        rw [hBytes, List.append_assoc]
      split
      next hFull =>
        exact onHeader_reads hSendable rfl hFull hMore
      next hPart =>
        refine ⟨hSendable, _, ?_, hMore⟩
        refine Rest.header rfl rfl ?_
        simp only [List.length_append, List.length_singleton]
          at hPart ⊢
        omega
  | @body length hOpen hReading hWidth hDecode hShort =>
      rw [hOpen, hReading]
      simp only [Bool.false_eq_true, if_false]
      have hMore : bytes ++ [byte] =
          packetFraming.stream s.received ++
            (s.headerBuffer ++ (s.bodyBuffer ++ [byte])) := by
        rw [hBytes, List.append_assoc, List.append_assoc]
      split
      next hFull =>
        exact onBody_reads hSendable rfl hWidth hDecode hFull
          hMore
      next hPart =>
        refine ⟨hSendable, _, ?_, hMore⟩
        refine Rest.body rfl rfl hWidth hDecode ?_
        simp only [List.length_append, List.length_singleton]
          at hPart ⊢
        omega
  | @refused ignored hClosed hWidth hNone =>
      rw [if_pos hClosed]
      have hNext : s.Rest
          (s.headerBuffer ++ (ignored ++ [byte])) :=
        Rest.refused hClosed hWidth hNone
      refine ⟨hSendable, _, hNext, ?_⟩
      rw [hBytes, List.append_assoc, List.append_assoc]

/- A session accounts for all it has read. -/
theorem receive_reads
    (bytes : List UInt8) :
    (receive bytes).Reads bytes := by
  suffices hLoop : ∀ (more : List UInt8) (s : Session)
      (before : List UInt8),
      s.Reads before →
      (more.foldl receiveByte s).Reads (before ++ more) from
    hLoop bytes {} []
      ⟨by simp, [], Rest.header rfl rfl (by decide), rfl⟩
  intro more
  induction more with
  | nil =>
      intro s before hReads
      simpa using hReads
  | cons byte more ih =>
      intro s before hReads
      have hNext := ih (s.receiveByte byte) (before ++ [byte])
        (hReads.receiveByte byte)
      simpa using hNext

------------------------------------------------------------
-- Framing Is Invertible
------------------------------------------------------------

/-
  Bytes that are not enough for the header, or not for the
  body that the header announces.
-/
def Incomplete
    (bytes : List UInt8) : Prop :=
  bytes.length < 4 ∨
    ∃ header part length,
      bytes = header ++ part ∧ header.length = 4 ∧
        decodePacketLength header = some length ∧
        part.length < length.toNat

/- Bytes that begin with a length that is not allowed. -/
def BadHeader
    (bytes : List UInt8) : Prop :=
  ∃ header ignored,
    bytes = header ++ ignored ∧ header.length = 4 ∧
      ¬ isValidPacketLength
        (fromBigEndian (loadWord header))

theorem partial_iff
    {bytes : List UInt8} :
    packetFraming.Partial bytes ↔ Incomplete bytes := by
  constructor
  · intro hPartial
    cases hPartial with
    | header hShort => exact Or.inl hShort
    | @body header part n hWidth hAnnounced hShort =>
        rcases Option.map_eq_some_iff.mp hAnnounced with
          ⟨length, hDecode, rfl⟩
        exact Or.inr ⟨header, part, length, rfl, hWidth,
          hDecode, hShort⟩
  · rintro (hShort | ⟨header, part, length, rfl, hWidth,
      hDecode, hShort⟩)
    · exact Framing.Partial.header hShort
    · exact Framing.Partial.body hWidth
        (Option.map_eq_some_iff.mpr ⟨_, hDecode, rfl⟩) hShort

theorem refused_iff
    {bytes : List UInt8} :
    packetFraming.Refused bytes ↔ BadHeader bytes := by
  have hNone : ∀ header, decodePacketLength header = none ↔
      ¬ isValidPacketLength
        (fromBigEndian (loadWord header)) := by
    intro header
    simp [decodePacketLength]
  constructor
  · intro hRefused
    cases hRefused with
    | @header header ignored hWidth hAnnounced =>
        exact ⟨header, ignored, rfl, hWidth,
          (hNone header).mp
            (Option.map_eq_none_iff.mp hAnnounced)⟩
  · rintro ⟨header, ignored, rfl, hWidth, hInvalid⟩
    exact Framing.Refused.header hWidth
      (Option.map_eq_none_iff.mpr
        ((hNone header).mpr hInvalid))

/- The session is open or closed as the rest says. -/
theorem Rest.split
    {s : Session}
    {rest : List UInt8}
    (hRest : s.Rest rest) :
    (s.closed = false ∧ Incomplete rest) ∨
      (s.closed = true ∧ BadHeader rest) := by
  cases hRest with
  | header hOpen hReading hShort =>
      exact Or.inl ⟨hOpen, Or.inl hShort⟩
  | body hOpen hReading hWidth hDecode hShort =>
      exact Or.inl ⟨hOpen, Or.inr
        ⟨_, _, _, rfl, hWidth, hDecode, hShort⟩⟩
  | refused hClosed hWidth hNone =>
      exact Or.inr ⟨hClosed, refused_iff.mp
        (Framing.Refused.header hWidth
          (Option.map_eq_none_iff.mpr hNone))⟩

/- However the bytes come apart, so they were received. -/
theorem receive_stream
    {bodies : List (List UInt8)}
    {rest : List UInt8}
    (hSendable : ∀ body ∈ bodies, Sendable body)
    (hRest : Incomplete rest ∨ BadHeader rest) :
    (receive (packetFraming.stream bodies ++ rest)).received =
        bodies ∧
      (receive (packetFraming.stream bodies ++ rest)).Rest
        rest := by
  rcases receive_reads
      (packetFraming.stream bodies ++ rest) with
    ⟨hReceived, other, hOther, hBytes⟩
  have hStops : packetFraming.Stops rest := by
    rcases hRest with hIncomplete | hBad
    · exact Or.inl (partial_iff.mpr hIncomplete)
    · exact Or.inr (refused_iff.mpr hBad)
  have hOtherStops : packetFraming.Stops other := by
    rcases hOther.split with ⟨_, hIncomplete⟩ | ⟨_, hBad⟩
    · exact Or.inl (partial_iff.mpr hIncomplete)
    · exact Or.inr (refused_iff.mpr hBad)
  rcases Framing.stream_append_inj
      (fun body hBody => (hSendable body hBody).fits)
      (fun body hBody => (hReceived body hBody).fits)
      hStops hOtherStops hBytes with
    ⟨hBodies, hSame⟩
  rw [← hSame] at hOther
  exact ⟨hBodies.symm, hOther⟩

/-
  Bodies of an allowed length arrive as they were sent, and
  nothing of a packet that is cut off does.  Whatever bytes
  arrive, the bodies delivered are encoded as what was
  consumed, and the session closes at the first length that
  is not allowed.
-/
theorem framing_invertible :
    (∀ bodies : List (List UInt8),
      (∀ body ∈ bodies,
        0 < body.length ∧
          body.length ≤ MAX_PACKET_SIZE.toNat) →
      ∃ packets, bodies.mapM encodePacket = some packets ∧
        ∀ trailing, Incomplete trailing →
          (receive (packets.flatten ++ trailing)).received =
              bodies ∧
            (receive (packets.flatten ++ trailing)).closed =
              false) ∧
    ∀ bytes : List UInt8, ∃ packets rest,
      (receive bytes).received.mapM encodePacket =
          some packets ∧
        bytes = packets.flatten ++ rest ∧
        ((receive bytes).closed = false ↔ Incomplete rest) ∧
        ((receive bytes).closed = true ↔ BadHeader rest) := by
  constructor
  · intro bodies hSendable
    refine ⟨_, mapM_encodePacket hSendable, ?_⟩
    intro trailing hTrailing
    rcases receive_stream hSendable (Or.inl hTrailing) with
      ⟨hBodies, hRest⟩
    refine ⟨hBodies, ?_⟩
    rcases hRest.split with ⟨hOpen, _⟩ | ⟨_, hBad⟩
    · exact hOpen
    · exact absurd (refused_iff.mpr hBad)
        (partial_iff.mpr hTrailing).not_refused
  · intro bytes
    rcases receive_reads bytes with
      ⟨hSendable, rest, hRest, hBytes⟩
    refine ⟨_, rest, mapM_encodePacket hSendable, hBytes, ?_⟩
    have hNotBoth : Incomplete rest → ¬ BadHeader rest := by
      intro hIncomplete hBad
      exact (partial_iff.mpr hIncomplete).not_refused
        (refused_iff.mpr hBad)
    rcases hRest.split with
      ⟨hOpen, hIncomplete⟩ | ⟨hClosed, hBad⟩
    · rw [hOpen]
      simp [hIncomplete, hNotBoth hIncomplete]
    · rw [hClosed]
      have hNot : ¬ Incomplete rest :=
        fun h => hNotBoth h hBad
      simp [hBad, hNot]

example :
    (receive [0, 0, 0, 1, 7, 0, 0, 0, 2, 8, 9, 0, 0]).received =
      [[7], [8, 9]] := by
  decide

end Session

end Server

end Poker
