import AsciiPoker.Common.Json.Messages
import AsciiPoker.Server.Network.Session

/-
  The messages of a client on their way to the server.

  A client dumps a message, drops it when the text is too
  large for a packet and queues the packet otherwise.  The
  bytes of the queue reach the server in order, in whatever
  pieces, and perhaps not all of them.

  Main declarations:
    * `ClientMessage.text`, `ClientMessage.packet`
    * `Client.wire`, `Server.readMessage`
    * `Server.Session.receive_take`
    * `Server.Session.wire_delivered`
-/

namespace Poker

open Protocol (ClientMessage)
open Network (Sendable packetFraming encodePacket)

variable {strtod : Json.Strtod}
variable {dumpFloat : Rat → List Char}

------------------------------------------------------------
-- Texts of Messages
------------------------------------------------------------

namespace Protocol.ClientMessage

/- The text that `send` dumps a message to. -/
def text
    (dumpFloat : Rat → List Char)
    (msg : ClientMessage) : List UInt8 :=
  Utf8.encode (msg.toJson.dump dumpFloat)

/- The text is not longer than a packet may be. -/
def Fits
    (dumpFloat : Rat → List Char)
    (msg : ClientMessage) : Prop :=
  (msg.text dumpFloat).length ≤ Network.MAX_PACKET_SIZE.toNat

instance
    (msg : ClientMessage) :
    Decidable (msg.Fits dumpFloat) := by
  unfold Fits
  infer_instance

/- The packet that `NetworkClient::send` posts, if any. -/
def packet
    (dumpFloat : Rat → List Char)
    (msg : ClientMessage) : Option (List UInt8) :=
  encodePacket (msg.text dumpFloat)

end Protocol.ClientMessage

/- The bytes that a client queues for these messages. -/
def Client.wire
    (dumpFloat : Rat → List Char)
    (msgs : List ClientMessage) : List UInt8 :=
  (msgs.filterMap
    (ClientMessage.packet dumpFloat)).flatten

/- What the server makes of a body, as a message. -/
def Server.readMessage
    (strtod : Json.Strtod)
    (body : List UInt8) : Option ClientMessage :=
  (Json.parse strtod body).toOption.bind fun data =>
    (ClientMessage.fromJson data).toOption

namespace Protocol.ClientMessage

/- A text is read as the message that it was dumped from. -/
theorem readMessage_text
    (strtod : Json.Strtod)
    (msg : ClientMessage) :
    Server.readMessage strtod (msg.text dumpFloat) =
      some msg := by
  unfold Server.readMessage text
  rw [msg.plain_toJson.parse_dump strtod dumpFloat]
  change (fromJson msg.toJson.canonical).toOption = some msg
  rw [msg.fromJson_canonical]
  rfl

/- No message has an empty text, which no value has. -/
theorem text_ne_nil
    (msg : ClientMessage) :
    msg.text dumpFloat ≠ [] := by
  intro hEmpty
  have hRead :
      Server.readMessage (fun _ => none)
        (msg.text dumpFloat) = some msg :=
    readMessage_text _ msg
  rw [hEmpty] at hRead
  cases hRead

theorem sendable_text
    {msg : ClientMessage}
    (hFits : msg.Fits dumpFloat) :
    Sendable (msg.text dumpFloat) :=
  ⟨List.length_pos_iff.mpr msg.text_ne_nil, hFits⟩

end Protocol.ClientMessage

/- The messages that fit make up a stream of packets. -/
theorem Client.wire_eq
    (msgs : List ClientMessage) :
    wire dumpFloat msgs =
      packetFraming.stream
        ((msgs.filter (·.Fits dumpFloat)).map
          (·.text dumpFloat)) := by
  induction msgs with
  | nil => rfl
  | cons msg msgs ih =>
      unfold wire at ih ⊢
      by_cases hFits : msg.Fits dumpFloat
      · have hPacket : msg.packet dumpFloat =
            some (packetFraming.packet (msg.text dumpFloat)) :=
          (ClientMessage.sendable_text hFits).encodePacket_eq
        rw [List.filterMap_cons_some hPacket,
          List.filter_cons_of_pos (by simpa using hFits),
          List.flatten_cons, List.map_cons,
          Framing.stream_cons, ih]
      · have hDropped : msg.packet dumpFloat = none := by
          unfold ClientMessage.packet encodePacket
          exact if_pos (Nat.lt_of_not_le hFits)
        rw [List.filterMap_cons_none hDropped,
          List.filter_cons_of_neg (by simpa using hFits), ih]

------------------------------------------------------------
-- A Part of a Stream
------------------------------------------------------------

namespace Server.Session

variable {s : Session}

/- What a session was given stays given, and closed closed. -/
structure Precedes
    (s t : Session) : Prop where
  received : s.received <+: t.received
  closed : s.closed = true → t.closed = true

theorem Precedes.refl
    (s : Session) :
    s.Precedes s :=
  ⟨List.prefix_rfl, id⟩

theorem Precedes.trans
    {t u : Session}
    (hFirst : s.Precedes t)
    (hSecond : t.Precedes u) :
    s.Precedes u :=
  ⟨hFirst.received.trans hSecond.received,
    hSecond.closed ∘ hFirst.closed⟩

theorem precedes_receiveByte
    (s : Session)
    (byte : UInt8) :
    s.Precedes (s.receiveByte byte) := by
  unfold receiveByte
  by_cases hClosed : s.closed = true
  · rw [if_pos hClosed]
    exact .refl s
  rw [if_neg hClosed]
  split
  · dsimp only
    split
    · unfold onHeader
      split
      · exact ⟨List.prefix_rfl, fun _ => rfl⟩
      · exact ⟨List.prefix_rfl, fun h => h⟩
    · exact ⟨List.prefix_rfl, fun h => h⟩
  · dsimp only
    split
    · exact ⟨List.prefix_append _ _, fun h => h⟩
    · exact ⟨List.prefix_rfl, fun h => h⟩

theorem precedes_foldl
    (s : Session)
    (bytes : List UInt8) :
    s.Precedes (bytes.foldl receiveByte s) := by
  induction bytes generalizing s with
  | nil => exact .refl s
  | cons byte bytes ih =>
      exact (precedes_receiveByte s byte).trans (ih _)

theorem precedes_append
    (bytes more : List UInt8) :
    (receive bytes).Precedes (receive (bytes ++ more)) := by
  unfold receive
  rw [List.foldl_append]
  exact precedes_foldl _ more

/- All of a stream is read, and the session stays open. -/
theorem receive_packets
    {bodies : List (List UInt8)}
    (hSendable : ∀ body ∈ bodies, Sendable body) :
    (receive (packetFraming.stream bodies)).received =
        bodies ∧
      (receive (packetFraming.stream bodies)).closed =
        false := by
  have hNothing : Incomplete [] := Or.inl (by decide)
  have hWhole := receive_stream hSendable (Or.inl hNothing)
  rw [List.append_nil] at hWhole
  refine ⟨hWhole.1, ?_⟩
  rcases hWhole.2.split with ⟨hOpen, _⟩ | ⟨_, hBad⟩
  · exact hOpen
  · exact absurd (refused_iff.mpr hBad)
      (partial_iff.mpr hNothing).not_refused

/- However far a stream came, its first bodies are read. -/
theorem receive_take
    {bodies : List (List UInt8)}
    (hSendable : ∀ body ∈ bodies, Sendable body)
    (n : Nat) :
    (receive ((packetFraming.stream bodies).take n)).received
        <+: bodies ∧
      (receive ((packetFraming.stream bodies).take n)).closed =
        false := by
  rcases receive_packets hSendable with ⟨hBodies, hOpen⟩
  have hPart := precedes_append
    ((packetFraming.stream bodies).take n)
    ((packetFraming.stream bodies).drop n)
  rw [List.take_append_drop] at hPart
  constructor
  · have hReceived := hPart.received
    rw [hBodies] at hReceived
    exact hReceived
  · by_contra hClosed
    have hLater := hPart.closed (by simpa using hClosed)
    rw [hOpen] at hLater
    cases hLater

/-
  The server reads what a client sent, in that order, except
  for what does not fit in a packet.  When the bytes break
  off it has read the first of these messages, and it never
  closes the connection for them.
-/
theorem wire_delivered
    (strtod : Json.Strtod)
    (dumpFloat : Rat → List Char)
    (msgs : List ClientMessage) :
    (receive (Client.wire dumpFloat msgs)).received.map
        (readMessage strtod) =
      (msgs.filter (·.Fits dumpFloat)).map some ∧
    ∀ n,
      (receive ((Client.wire dumpFloat msgs).take n)).closed =
        false ∧
      (receive ((Client.wire dumpFloat msgs).take
          n)).received.map (readMessage strtod) <+:
        (msgs.filter (·.Fits dumpFloat)).map some := by
  have hSendable :
      ∀ body ∈ (msgs.filter (·.Fits dumpFloat)).map
        (·.text dumpFloat), Sendable body := by
    intro body hBody
    rcases List.mem_map.mp hBody with ⟨msg, hMem, rfl⟩
    have hFits := (List.mem_filter.mp hMem).2
    exact ClientMessage.sendable_text (by simpa using hFits)
  have hRead :
      ((msgs.filter (·.Fits dumpFloat)).map
        (·.text dumpFloat)).map (readMessage strtod) =
      (msgs.filter (·.Fits dumpFloat)).map some := by
    rw [List.map_map]
    apply List.map_congr_left
    intro msg hMem
    rw [Function.comp_apply]
    exact msg.readMessage_text strtod
  rw [Client.wire_eq, ← hRead]
  refine ⟨by rw [(receive_packets hSendable).1], ?_⟩
  intro n
  rcases receive_take hSendable n with ⟨hFirst, hOpen⟩
  exact ⟨hOpen, hFirst.map _⟩

end Server.Session

end Poker
