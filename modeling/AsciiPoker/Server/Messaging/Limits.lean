import AsciiPoker.Common.Dump
import AsciiPoker.Library.Bytes
import AsciiPoker.Server.Lobby.Progress
import AsciiPoker.Server.Messaging.Authentication
import AsciiPoker.Server.Network.SessionIo
import Mathlib.Algebra.Group.Action.Defs

/-
  Which room lists and rosters can be sent at all.

  `Session::send` drops what is longer than a packet may be.
  The names of players are short, so every roster fits.  No
  check is made of the names of rooms or of how many rooms
  there are, so the room list fits exactly as long as its
  entries do.

  Main declarations:
    * `ServerMessage.Fits`, `SessionIo.send_of_not_fits`
    * `Room.entrySize`, `Lobby.ListFits`
    * `Lobby.Announces`
    * `Handshake.Run.announces_fits_iff`
    * `Handshake.Run.announced_accepted`,
      `Handshake.Run.roomList_dropped`
-/

namespace Poker

open Json (escapedSize digits)

------------------------------------------------------------
-- Messages That Fit
------------------------------------------------------------

namespace Protocol

variable {dumpFloat : Rat → List Char}

namespace ServerMessage

/- The text that `send` dumps a message to. -/
def text
    (dumpFloat : Rat → List Char)
    (msg : ServerMessage) : List UInt8 :=
  (String.ofList
    (msg.toJson.dump dumpFloat)).toByteArray.data.toList

/- The text is not longer than a packet may be. -/
def Fits
    (dumpFloat : Rat → List Char)
    (msg : ServerMessage) : Prop :=
  (msg.text dumpFloat).length ≤ Network.MAX_PACKET_SIZE.toNat

theorem length_text
    (msg : ServerMessage) :
    (msg.text dumpFloat).length =
      Json.size dumpFloat msg.toJson := by
  unfold text Json.size
  rw [← String.utf8ByteSize_ofList]
  rfl

/- The members `type` and `data` around a message. -/
theorem length_text_eq
    (msg : ServerMessage) :
    (msg.text dumpFloat).length =
      escapedSize msg.type + Json.size dumpFloat msg.data +
        19 := by
  have hKeys : escapedSize "type" = 4 ∧
      escapedSize "data" = 4 := by
    decide +kernel
  rw [length_text]
  unfold toJson
  rw [Json.size_object]
  simp only [List.map_cons, List.map_nil, List.sum_cons,
    List.sum_nil, List.length_cons, List.length_nil,
    Json.size_string, hKeys.1, hKeys.2]
  omega

end ServerMessage

/- The bytes of a room in the text of a room list. -/
def RoomInfo.entrySize
    (info : RoomInfo) : Nat :=
  72 + escapedSize info.roomName + digits info.roomId.toNat +
    digits info.currentPlayers.toNat +
    digits info.maxPlayers.toNat +
    (if info.inGame then 4 else 5)

theorem RoomInfo.size_toJson
    (info : RoomInfo) :
    Json.size dumpFloat info.toJson = info.entrySize := by
  have hKeys : escapedSize "room_id" = 7 ∧
      escapedSize "room_name" = 9 ∧
      escapedSize "current_players" = 15 ∧
      escapedSize "max_players" = 11 ∧
      escapedSize "in_game" = 7 := by
    decide +kernel
  rcases hKeys with ⟨hId, hName, hPlayers, hMax, hGame⟩
  unfold toJson entrySize Json.ofUInt8
  rw [Json.size_object]
  simp only [List.map_cons, List.map_nil, List.sum_cons,
    List.sum_nil, List.length_cons, List.length_nil,
    Json.size_string, Json.size_unsigned, Json.size_boolean,
    UInt8.toNat_toUInt64, hId, hName, hPlayers, hMax, hGame]
  omega

theorem RoomList.length_text
    (roomList : RoomList) :
    ((ServerMessage.roomList roomList).text
        dumpFloat).length =
      40 + (roomList.rooms.map RoomInfo.entrySize).sum +
        (roomList.rooms.length - 1) := by
  have hKeys : escapedSize "room_list" = 9 ∧
      escapedSize "rooms" = 5 := by
    decide +kernel
  have hEach : (roomList.rooms.map RoomInfo.toJson).map
      (Json.size dumpFloat) =
        roomList.rooms.map RoomInfo.entrySize := by
    rw [List.map_map]
    exact List.map_congr_left fun info _ => info.size_toJson
  rw [ServerMessage.length_text_eq]
  unfold ServerMessage.type ServerMessage.data
    RoomList.toJson Json.ofList
  rw [Json.size_object]
  simp only [List.map_cons, List.map_nil, List.sum_cons,
    List.sum_nil, List.length_cons, List.length_nil,
    Json.size_array, hEach, List.length_map, hKeys.1, hKeys.2]
  omega

/- A roster of short names fits. -/
theorem JoinedRoom.fits
    {joined : JoinedRoom}
    (hNames : ∀ name ∈ joined.playerNames,
      name.utf8ByteSize ≤ Auth.maxUsernameLength)
    (hHost : joined.hostName.utf8ByteSize ≤
      Auth.maxUsernameLength)
    (hMany : joined.playerNames.length ≤ 255) :
    (ServerMessage.joinedRoom joined).Fits dumpFloat := by
  have hKeys : escapedSize "joined_room" = 11 ∧
      escapedSize "room_id" = 7 ∧
      escapedSize "player_names" = 12 ∧
      escapedSize "host_name" = 9 ∧
      escapedSize "max_players" = 11 ∧
      escapedSize "in_game" = 7 := by
    decide +kernel
  rcases hKeys with ⟨hType, hId, hPlayers, hHostKey, hMax,
    hGame⟩
  have hShort : ∀ name : String,
      name.utf8ByteSize ≤ Auth.maxUsernameLength →
        escapedSize name ≤ 192 := by
    intro name hLe
    have hEscaped := Json.escapedSize_le name
    unfold Auth.maxUsernameLength at hLe
    omega
  have hList := List.sum_le_card_nsmul
    ((joined.playerNames.map Json.string).map
      (Json.size dumpFloat)) 194 (by
    intro size hMem
    rw [List.map_map] at hMem
    rcases List.mem_map.mp hMem with ⟨name, hName, rfl⟩
    have hName := hShort name (hNames name hName)
    rw [Function.comp_apply, Json.size_string]
    omega)
  rw [List.length_map, List.length_map, smul_eq_mul] at hList
  have hIdDigits : digits joined.roomId.toNat ≤ 20 :=
    Json.digits_le (by decide) (Nat.lt_of_lt_of_le
      joined.roomId.toNat_lt (by decide))
  have hMaxDigits : digits joined.maxPlayers.toNat ≤ 3 :=
    Json.digits_le (by decide) (Nat.lt_of_lt_of_le
      joined.maxPlayers.toNat_lt (by decide))
  have hHostSize := hShort _ hHost
  have hLimit : Network.MAX_PACKET_SIZE.toNat = 1048576 := rfl
  unfold ServerMessage.Fits
  rw [ServerMessage.length_text_eq, hLimit]
  unfold ServerMessage.type ServerMessage.data
    JoinedRoom.toJson Json.ofList Json.ofUInt8
  rw [Json.size_object]
  simp only [List.map_cons, List.map_nil, List.sum_cons,
    List.sum_nil, List.length_cons, List.length_nil,
    Json.size_array, Json.size_string, Json.size_unsigned,
    Json.size_boolean, UInt8.toNat_toUInt64, hType, hId,
    hPlayers, hHostKey, hMax, hGame]
  rw [List.length_map]
  split
  · omega
  · omega

end Protocol

namespace Server

open Protocol

------------------------------------------------------------
-- What the Session Does
------------------------------------------------------------

variable {dumpFloat : Rat → List Char}

/- What does not fit is dropped without a word. -/
theorem SessionIo.send_of_not_fits
    {msg : ServerMessage}
    (s : SessionIo)
    (hNot : ¬ msg.Fits dumpFloat) :
    s.send (msg.text dumpFloat) = s := by
  have hNone : Network.encodePacket (msg.text dumpFloat) =
      none :=
    if_pos (Nat.lt_of_not_le hNot)
  unfold send
  rw [hNone]
  split
  · rfl
  · rfl

/- And what fits is accepted while the session is open. -/
theorem SessionIo.accepted_of_fits
    {msg : ServerMessage}
    {s : SessionIo}
    (hOpen : s.closed = false)
    (hFits : msg.Fits dumpFloat) :
    ∃ packet, Network.encodePacket (msg.text dumpFloat) =
        some packet ∧
      (s.send (msg.text dumpFloat)).accepted =
        s.accepted ++ [packet] := by
  have hSome : Network.encodePacket (msg.text dumpFloat) =
      some _ :=
    if_neg (Nat.not_lt.mpr hFits)
  refine ⟨_, hSome, ?_⟩
  unfold send
  rw [hOpen, hSome]
  simp only [Bool.false_eq_true, if_false]
  split
  · rfl
  · unfold doWrite
    split
    · rfl
    · rfl

------------------------------------------------------------
-- Room Lists
------------------------------------------------------------

/- The bytes that a room takes in the text of a room list. -/
def Room.entrySize
    (room : Room) : Nat :=
  72 + escapedSize room.name + digits room.id.toNat +
    digits room.playerCount + digits room.maxPlayers.toNat +
    (if room.isGameStarted then 4 else 5)

theorem Room.InOrder.entrySize_eq
    {room : Room}
    (hOrder : room.InOrder) :
    room.getRoomInfo.entrySize = room.entrySize := by
  have hMax : room.maxPlayers.toNat < 2 ^ 8 :=
    room.maxPlayers.toNat_lt
  have hCount : (UInt8.ofNat room.playerCount).toNat =
      room.playerCount :=
    UInt8.toNat_ofNat_of_lt'
      (Nat.lt_of_le_of_lt hOrder.bounded hMax)
  unfold RoomInfo.entrySize entrySize getRoomInfo
  dsimp only
  rw [hCount]

namespace Lobby

/-
  The entries of the rooms and the commas between them fit
  into a packet, with the 40 bytes around them.
-/
def ListFits
    (lobby : Lobby) : Prop :=
  ∃ rooms, lobby.rooms.mapM lobby.room = .ok rooms ∧
    40 + (rooms.map Room.entrySize).sum +
        (rooms.length - 1) ≤
      Network.MAX_PACKET_SIZE.toNat

/- The room list or the roster of one of the rooms. -/
inductive Announces
    (lobby : Lobby) : ServerMessage → Prop
  | list
      {roomList : RoomList}
      (hList : lobby.getRoomList = .ok roomList) :
      Announces lobby (.roomList roomList)
  | roster
      {ptr : RoomPtr}
      {room : Room}
      (hHolds : lobby.Holds ptr room) :
      Announces lobby (.joinedRoom
        (room.makeJoinedRoomMessage lobby.world))

variable {lobby : Lobby}

/- A room list has the entries of the rooms it lists. -/
theorem Tidy.list_fits_iff
    {roomList : RoomList}
    (hTidy : lobby.Tidy)
    (hList : lobby.getRoomList = .ok roomList) :
    (ServerMessage.roomList roomList).Fits dumpFloat ↔
      lobby.ListFits := by
  unfold getRoomList at hList
  rcases Except.bind_eq_ok.mp hList with ⟨rooms, hRooms, hEnd⟩
  cases hEnd
  have hEach : (rooms.map Room.getRoomInfo).map
      RoomInfo.entrySize = rooms.map Room.entrySize := by
    rw [List.map_map]
    apply List.map_congr_left
    intro room hMem
    rcases List.mem_of_mapM_eq_ok hRooms hMem with
      ⟨ptr, hPtr, hRoom⟩
    exact (hTidy.of_holds
      ⟨hPtr, require_eq_ok.mp hRoom⟩).1.entrySize_eq
  unfold ServerMessage.Fits ListFits
  rw [RoomList.length_text, hEach, List.length_map]
  constructor
  · exact fun hFits => ⟨rooms, hRooms, hFits⟩
  · rintro ⟨others, hOthers, hFits⟩
    rw [hRooms] at hOthers
    cases hOthers
    exact hFits

theorem Tidy.exists_roomList
    (hTidy : lobby.Tidy) :
    ∃ roomList, lobby.getRoomList = .ok roomList := by
  apply Except.FailsOnly.exists_ok
  exact hTidy.getRoomList_failsOnly

end Lobby

------------------------------------------------------------
-- Names
------------------------------------------------------------

namespace Handshake

variable {parse : Parser}
variable {pbkdf2 : Pbkdf2}
variable {users : UserRepository}
variable {h after : Handshake}
variable {e : Event}
variable {trace : List (Handshake × Event)}

/- Whoever is authenticated goes by a valid user name. -/
def Named
    (h : Handshake) : Prop :=
  ∀ c ∈ h.authenticated, Auth.isValidUsername (h.name c) = true

theorem Named.quiet
    (hNamed : h.Named)
    (hQuiet : h.Quiet after) :
    after.Named := by
  intro c hThere
  rw [hQuiet.authenticated] at hThere
  rw [hQuiet.name_eq]
  exact hNamed c hThere

/- Names are checked before they are given. -/
theorem Named.step
    (hNamed : h.Named)
    (hOk : h.step parse pbkdf2 e = .ok after) :
    after.Named := by
  cases e with
  | message c body draws salt =>
      simp only [Handshake.step] at hOk
      split at hOk
      · cases hOk
      rcases processMessage_of_ok hOk with
        ⟨_, hQuiet⟩ | ⟨username, hAdmits, ⟨_, hQuiet⟩ | hEnters⟩
      · exact hNamed.quiet hQuiet
      · exact hNamed.quiet hQuiet
      · rcases hAdmits with ⟨_, login, _, hAccepts, rfl⟩
        intro d hThere
        rw [hEnters.authenticated] at hThere
        unfold name
        rw [hEnters.names]
        by_cases hSelf : d = c
        · rw [hSelf, Function.update_self]
          exact hAccepts.1
        · rw [Function.update_of_ne hSelf]
          exact hNamed d ((Finset.mem_insert.mp
            hThere).resolve_left hSelf)
  | disconnect c shuffles =>
      rcases onDisconnect_of_step hOk with ⟨_, hGone⟩
      rcases onDisconnect_of_ok hGone with
        ⟨_, hAuthenticated, _, hKeeps⟩
      intro d hThere
      rw [hAuthenticated] at hThere
      unfold name
      rw [hKeeps.names]
      exact hNamed d hThere

theorem Run.named
    (run : Run parse pbkdf2 users trace h) :
    h.Named :=
  Transition.Run.invariant_of_step
    (fun _ _ _ hNamed hOk => hNamed.step hOk)
    run (by simp [Named, opening])

theorem Named.name_le
    {c : ConnId}
    (hNamed : h.Named)
    (hThere : c ∈ h.authenticated) :
    (h.name c).utf8ByteSize ≤ Auth.maxUsernameLength := by
  have hValid := hNamed c hThere
  unfold Auth.isValidUsername at hValid
  split at hValid
  · cases hValid
  · rename_i hLength
    simp only [Bool.or_eq_true, decide_eq_true_eq, not_or]
      at hLength
    omega

/- The roster of every room fits. -/
theorem Named.roster_fits
    {ptr : RoomPtr}
    {room : Room}
    (hNamed : h.Named)
    (hGuarded : h.Guarded)
    (hHolds : h.lobby.Holds ptr room) :
    (ServerMessage.joinedRoom (room.makeJoinedRoomMessage
      h.lobby.world)).Fits dumpFloat := by
  rcases hGuarded.tidy.of_holds hHolds with ⟨hOrder, hHost⟩
  have hShort : ∀ c ∈ room.players,
      (h.lobby.world.names c).utf8ByteSize ≤
        Auth.maxUsernameLength := by
    intro c hc
    have hFind := (hGuarded.tidy.find_iff hHolds c).mpr hc
    exact hNamed.name_le (hGuarded.online c ptr hFind).1
  apply JoinedRoom.fits
  · intro name hName
    rcases List.mem_map.mp hName with ⟨c, hc, rfl⟩
    exact hShort c hc
  · exact hShort room.host hHost
  · change (room.players.map h.lobby.world.names).length ≤ 255
    rw [List.length_map]
    have hMax := room.maxPlayers.toNat_lt
    exact Nat.le_trans hOrder.bounded (by omega)

------------------------------------------------------------
-- Runs
------------------------------------------------------------

variable {msg : ServerMessage}
variable {s : SessionIo}

/- A list that fits is announced with rosters that do. -/
theorem Run.announced_fits
    (run : Run parse pbkdf2 users trace h)
    (hFits : h.lobby.ListFits)
    (hAnnounced : h.lobby.Announces msg) :
    msg.Fits dumpFloat := by
  have hGuarded := Run.guarded run
  cases hAnnounced with
  | list hList =>
      exact (hGuarded.tidy.list_fits_iff hList).mpr hFits
  | roster hHolds =>
      exact (Run.named run).roster_fits hGuarded hHolds

/-
  In every state between two events the rosters of all rooms
  can be sent, and the room list can be sent exactly when
  the entries of the rooms fit into a packet.
-/
theorem Run.announces_fits_iff
    (dumpFloat : Rat → List Char)
    (run : Run parse pbkdf2 users trace h) :
    (∀ msg, h.lobby.Announces msg → msg.Fits dumpFloat) ↔
      h.lobby.ListFits := by
  have hGuarded := Run.guarded run
  constructor
  · intro hAll
    rcases hGuarded.tidy.exists_roomList with
      ⟨roomList, hList⟩
    exact (hGuarded.tidy.list_fits_iff hList).mp
      (hAll _ (Lobby.Announces.list hList))
  · exact fun hFits msg hAnnounced =>
      Run.announced_fits run hFits hAnnounced

/-
  A session that is open then accepts whatever is announced
  to it, after all that it has accepted before.
-/
theorem Run.announced_accepted
    (run : Run parse pbkdf2 users trace h)
    (hFits : h.lobby.ListFits)
    (hAnnounced : h.lobby.Announces msg)
    (hOpen : s.closed = false) :
    ∃ packet, Network.encodePacket (msg.text dumpFloat) =
        some packet ∧
      (s.send (msg.text dumpFloat)).accepted =
        s.accepted ++ [packet] :=
  SessionIo.accepted_of_fits hOpen
    (Run.announced_fits run hFits hAnnounced)

/- A longer list reaches nobody, and nobody is told so. -/
theorem Run.roomList_dropped
    {roomList : RoomList}
    (run : Run parse pbkdf2 users trace h)
    (hLong : ¬ h.lobby.ListFits)
    (hList : h.lobby.getRoomList = .ok roomList)
    (s : SessionIo) :
    s.send ((ServerMessage.roomList roomList).text
      dumpFloat) = s :=
  s.send_of_not_fits fun hFits => hLong
    (((Run.guarded run).tidy.list_fits_iff hList).mp hFits)

end Handshake

------------------------------------------------------------
-- A Room with a Long Name
------------------------------------------------------------

namespace Lobby

variable {lobby : Lobby}

/- The room that its creator sits in alone. -/
def soleRoom
    (lobby : Lobby)
    (name : String)
    (player : ConnId) : Room where
  id := lobby.nextRoomId
  name := name
  maxPlayers := 2
  host := player
  players := [player]

theorem createRoom_of_empty
    {player : ConnId}
    (name : String)
    (hHeap : lobby.heap = [])
    (hRooms : lobby.rooms = [])
    (hFree : lobby.playerRooms.find player = none)
    (hPays : lobby.checkPlayerBankroll player = none) :
    ∃ after,
      lobby.createRoom name 2 player {} = .ok (some 0, after) ∧
        after.getRoomList =
          .ok ⟨[(lobby.soleRoom name player).getRoomInfo]⟩ := by
  have hStay : lobby.leavePresentRoom player [] = .ok lobby := by
    unfold leavePresentRoom
    rw [hFree]
    rfl
  let world := (lobby.soleRoom name player).notifyAllAboutJoined
    lobby.world
  let made : Lobby := { lobby with
    world := world
    heap := [lobby.soleRoom name player]
    rooms := [0]
    playerRooms := lobby.playerRooms.set player 0
    nextRoomId := lobby.nextRoomId + 1 }
  have hMade : lobby.createRoom name 2 player {} =
      made.broadcastRoomList >>= fun told =>
        .ok (some 0, told) := by
    unfold createRoom
    rw [if_neg (by decide), hPays, if_neg (by simp), hStay,
      Except.ok_bind]
    simp [makeRoom, hHeap, hRooms, room, require,
      Room.addPlayer, setRoom, insertPlayerRoom, hFree, made,
      world, soleRoom]
  have hList : made.getRoomList =
      .ok ⟨[(lobby.soleRoom name player).getRoomInfo]⟩ := rfl
  rw [hMade]
  unfold broadcastRoomList
  cases made.connectionRegistry with
  | none => exact ⟨made, rfl, hList⟩
  | some connections =>
      dsimp only
      rw [hList]
      exact ⟨_, rfl, hList⟩
end Lobby

namespace Handshake

/- The packet is one that the session reads. -/
def Event.Read : Event → Prop
| .message _ body _ _ => Network.Sendable body
| .disconnect _ _ => True

/- A request for a room of two with this name. -/
def createRoomData
    (name : String) : Json :=
  .object
    [("data", .object
        [("max_players", .unsigned 2),
          ("room_name", .string name)]),
      ("type", .string "create_room")]

/- The packet of that request, for a name without escapes. -/
def createRoomBody
    (name : String) : List UInt8 :=
  String.toByteArray
      ("\x7b\"type\":\"create_room\",\"data\":" ++
        "\x7b\"room_name\":\"" ++ name ++
        "\",\"max_players\":2\x7d\x7d")
    |>.data.toList

/- The parser on the packets of a login and this request. -/
def createRoomParser
    (name : String) : Parser := fun body =>
  if body = createRoomBody name then
    .value (createRoomData name)
  else
    loginParser body

/- A request that is answered without an exception. -/
theorem processMessage_of_request
    {parse : Parser}
    {pbkdf2 : Pbkdf2}
    {h : Handshake}
    {body : List UInt8}
    {c : ConnId}
    {draws : Draws}
    {salt : Option (List UInt8)}
    {data : Json}
    {type : String}
    {msg : ClientMessage}
    {lobby : Lobby}
    (hParse : parse body = .value data)
    (hType : data.atKey "type" >>= Json.getString = .ok type)
    (hOther : type ≠ "login")
    (hThere : c ∈ h.authenticated)
    (hMsg : ClientMessage.fromJson data = .ok msg)
    (hProcess : h.lobby.processClientMessage msg c draws =
      .ok lobby) :
    h.processMessage parse pbkdf2 body c draws salt =
      .ok { h with lobby := lobby } := by
  have hRequest : h.onRequest data c draws =
      .ok { h with lobby := lobby } := by
    unfold onRequest
    rw [if_neg (not_not.mpr hThere), hMsg]
    simp only [hProcess, Except.ok_bind]
  unfold processMessage
  simp only [hParse, hType, uncaught, Except.ok_bind]
  rw [if_neg hOther, hRequest]

theorem length_createRoomBody
    (name : String) :
    (createRoomBody name).length = name.utf8ByteSize + 62 := by
  have hParts : String.utf8ByteSize
        ("\x7b\"type\":\"create_room\",\"data\":" ++
          "\x7b\"room_name\":\"") = 43 ∧
      String.utf8ByteSize
        "\",\"max_players\":2\x7d\x7d" = 19 := by
    decide +kernel
  have hLength : (createRoomBody name).length =
      String.utf8ByteSize
        ("\x7b\"type\":\"create_room\",\"data\":" ++
          "\x7b\"room_name\":\"" ++ name ++
          "\",\"max_players\":2\x7d\x7d") := rfl
  rw [hLength, String.utf8ByteSize_append,
    String.utf8ByteSize_append, hParts.1, hParts.2]
  omega

/- Alice logs in and makes a room with a given name. -/
theorem createsRoom
    (name : String)
    (hOther : loginBody "Alice" ≠ createRoomBody name) :
    ∃ trace h,
      Run (createRoomParser name) loginPbkdf2 aliceUsers
        trace h ∧
      trace.map Prod.snd =
        [login 0 "Alice",
          .message 0 (createRoomBody name) {} none] ∧
      h.lobby.getRoomList = .ok ⟨[⟨1, name, 1, 2, false⟩]⟩ := by
  have hPasses : Transition.passes
      (step loginParser loginPbkdf2) (opening aliceUsers)
      [login 0 "Alice"]
      (fun _ h => decide (0 ∈ h.authenticated ∧
        0 ∉ h.closed ∧ h.lobby.heap.length = 0 ∧
        h.lobby.rooms = [] ∧
        h.lobby.playerRooms.find 0 = none ∧
        h.lobby.checkPlayerBankroll 0 = none ∧
        h.lobby.nextRoomId = 1)) = true := by
    decide +kernel
  rcases Transition.exists_step_of_passes hPasses with
    ⟨online, hLogin, hTest⟩
  rcases of_decide_eq_true hTest with
    ⟨hThere, hOpen, hHeap, hRooms, hFree, hPays, hNext⟩
  have hFirst : (opening aliceUsers).step
      (createRoomParser name) loginPbkdf2 (login 0 "Alice") =
        .ok online := by
    have hParse : createRoomParser name (loginBody "Alice") =
        loginParser (loginBody "Alice") :=
      if_neg hOther
    rw [← hLogin]
    simp only [step, login, processMessage, hParse]
  rcases Lobby.createRoom_of_empty name
      (List.length_eq_zero_iff.mp hHeap) hRooms hFree hPays
    with ⟨after, hCreate, hList⟩
  have hSecond : online.step (createRoomParser name)
      loginPbkdf2 (.message 0 (createRoomBody name) {} none) =
        .ok { online with lobby := after } := by
    have hParse : createRoomParser name
        (createRoomBody name) = .value (createRoomData name) :=
      if_pos rfl
    have hType : (createRoomData name).atKey "type" >>=
        Json.getString = .ok "create_room" := by
      simp [createRoomData, Json.atKey, Json.getString]
    have hMsg : ClientMessage.fromJson (createRoomData name) =
        .ok (.createRoom ⟨name, 2⟩) := by
      simp [ClientMessage.fromJson, ClientMessage.fromTyped,
        CreateRoom.fromJson, createRoomData, Json.atKey,
        Json.getString, Json.getUInt8, Json.getArithmetic,
        Except.ok_bind]
      rfl
    have hRequest : online.lobby.processClientMessage
        (.createRoom ⟨name, 2⟩) 0 {} = .ok after := by
      simp only [Lobby.processClientMessage,
        Lobby.onCreateRoom, hPays, hCreate]
      rfl
    simp only [step]
    rw [if_neg hOpen]
    exact processMessage_of_request hParse hType (by decide)
      hThere hMsg hRequest
  refine ⟨_, _, Transition.Run.snoc
    (Transition.Run.snoc Transition.Run.nil hFirst) hSecond,
    rfl, ?_⟩
  rw [← hNext]
  exact hList

/- The list of that room alone. -/
theorem length_text_sole
    {dumpFloat : Rat → List Char}
    (name : String) :
    ((ServerMessage.roomList ⟨[⟨1, name, 1, 2, false⟩]⟩).text
      dumpFloat).length = escapedSize name + 120 := by
  have hOne : digits (1 : UInt64).toNat = 1 ∧
      digits (1 : UInt8).toNat = 1 ∧
      digits (2 : UInt8).toNat = 1 := by
    decide +kernel
  rw [RoomList.length_text, List.map_singleton,
    List.sum_singleton, List.length_singleton]
  unfold RoomInfo.entrySize
  dsimp only
  rw [hOne.1, hOne.2.1, hOne.2.2]
  simp only [Bool.false_eq_true, if_false]
  omega

theorem length_loginBody :
    (loginBody "Alice").length = 65 := by
  have hSize : (String.toByteArray
      ("\x7b\"type\":\"login\",\"data\":\x7b\"username\":\"" ++
        "Alice" ++ "\",\"password\":\"secret1\"\x7d\x7d")).size =
      65 := by
    decide +kernel
  unfold loginBody
  rw [Bytes.toList_eq, Array.length_toList]
  exact hSize

/- A room with a short name can be announced. -/
theorem shortName_fits :
    ∃ trace h,
      Run (createRoomParser "Table") loginPbkdf2 aliceUsers
        trace h ∧
      h.lobby.getRoomList = .ok ⟨[⟨1, "Table", 1, 2, false⟩]⟩ ∧
      ∀ msg, h.lobby.Announces msg → msg.Fits fun _ => [] := by
  have hSize : escapedSize "Table" = 5 ∧
      String.utf8ByteSize "Table" = 5 := by
    decide +kernel
  have hOther : loginBody "Alice" ≠ createRoomBody "Table" := by
    intro hEq
    have hLength := length_createRoomBody "Table"
    rw [← hEq, length_loginBody, hSize.2] at hLength
    cases hLength
  rcases createsRoom "Table" hOther with
    ⟨trace, h, run, _, hList⟩
  have hFits : (ServerMessage.roomList
      ⟨[⟨1, "Table", 1, 2, false⟩]⟩).Fits fun _ => [] := by
    unfold ServerMessage.Fits
    rw [length_text_sole, hSize.1]
    decide
  have hTidy := (Run.guarded run).tidy
  exact ⟨trace, h, run, hList,
    (Run.announces_fits_iff _ run).mpr
      ((hTidy.list_fits_iff hList).mp hFits)⟩

/- A name of 1048500 letters. -/
def longName : String :=
  String.ofList (List.replicate 1048500 'x')

theorem utf8Len_replicate
    (n : Nat) :
    String.utf8Len (List.replicate n 'x') = n := by
  rw [Json.utf8Len_of_ascii, List.length_replicate]
  intro c hMem
  rw [List.eq_of_mem_replicate hMem]
  decide

theorem longName_size :
    longName.utf8ByteSize = 1048500 ∧
      escapedSize longName = 1048500 := by
  have hFlat : ∀ n, (List.replicate n 'x').flatMap
      Json.escapeChar = List.replicate n 'x' := by
    intro n
    induction n with
    | zero => rfl
    | succ n ih =>
        rw [List.replicate_succ, List.flatMap_cons, ih]
        rfl
  constructor
  · unfold longName
    rw [String.utf8ByteSize_ofList, utf8Len_replicate]
  · unfold escapedSize Json.escaped longName
    rw [String.toList_ofList, hFlat, utf8Len_replicate]

/- A request that can be sent makes a list that cannot. -/
theorem longName_not_fits :
    ¬ ∀ (dumpFloat : Rat → List Char) (parse : Parser)
        (pbkdf2 : Pbkdf2) (users : UserRepository)
        (trace : List (Handshake × Event)) (h : Handshake),
      Run parse pbkdf2 users trace h →
      (∀ p ∈ trace, p.2.Read) →
      ∀ msg, h.lobby.Announces msg → msg.Fits dumpFloat := by
  intro hAll
  rcases longName_size with ⟨hBytes, hEscaped⟩
  have hLength := length_createRoomBody longName
  rw [hBytes] at hLength
  have hLogin := length_loginBody
  have hOther : loginBody "Alice" ≠ createRoomBody longName := by
    intro hEq
    rw [hEq, hLength] at hLogin
    omega
  rcases createsRoom longName hOther with
    ⟨trace, h, run, hEvents, hList⟩
  have hRead : ∀ p ∈ trace, p.2.Read := by
    intro p hMem
    have hEvent := List.mem_map_of_mem (f := Prod.snd) hMem
    rw [hEvents] at hEvent
    have hLimit : Network.MAX_PACKET_SIZE.toNat = 1048576 := rfl
    rcases List.mem_pair.mp hEvent with hFirst | hSecond
    · rw [hFirst]
      unfold login Event.Read Network.Sendable
      dsimp only
      rw [hLogin, hLimit]
      omega
    · rw [hSecond]
      unfold Event.Read Network.Sendable
      dsimp only
      rw [hLength, hLimit]
      omega
  have hFits := hAll (fun _ => []) _ _ _ _ _ run hRead _
    (Lobby.Announces.list hList)
  unfold ServerMessage.Fits at hFits
  rw [length_text_sole, hEscaped] at hFits
  have hOver : Network.MAX_PACKET_SIZE.toNat < 1048500 + 120 := by
    decide
  exact absurd hFits (Nat.not_le_of_lt hOver)

end Handshake

end Server

end Poker
