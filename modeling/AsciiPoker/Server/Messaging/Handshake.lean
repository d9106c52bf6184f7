import Mathlib.Logic.Function.Basic
import AsciiPoker.Common.Auth
import AsciiPoker.Common.Codec
import AsciiPoker.Server.Messaging.LobbyMessageProcessor

/-
  The processor of a connection's packets
  (`handshake_message_processor.cpp`) with the two
  registries and the state of the connections
  (`session.cpp`) that it works on.

  The JSON parser of the library is a parameter.  It yields
  a value, or throws a `parse_error` with a text that need
  not be UTF-8, or throws the `out_of_range` of a number
  that no double holds.

  A connection is closed when it is disconnected and sends
  nothing from then on.

  Main declarations:
    * `Parsed`, `Parser`
    * `Handshake`, `Handshake.handleLogin`
    * `Handshake.processMessage`, `Handshake.onDisconnect`
    * `Handshake.Event`, `Handshake.step`, `Handshake.Run`
-/

namespace Poker

namespace Server

open Protocol

------------------------------------------------------------
-- Parsing
------------------------------------------------------------

/- What becomes of `nlohmann::json::parse`. -/
inductive Parsed
  | value (data : Json)
  | parseError (what : List UInt8)
  | outOfRange

/- `nlohmann::json::parse` on the body of a packet. -/
abbrev Parser := List UInt8 → Parsed

------------------------------------------------------------
-- The Data
------------------------------------------------------------

/-
  The lobby, the names of `PlayerNameRegistry`, and which
  connections are authenticated and which are closed.  The
  connection registry is the lobby's own.
-/
structure Handshake where
  lobby : Lobby
  nameRegistry : Finset String := ∅
  authenticated : Finset ConnId := ∅
  closed : Finset ConnId := ∅

namespace Handshake

/- Answer a connection with an error. -/
def sendError
    (h : Handshake)
    (connection : ConnId)
    (code : ErrorCode)
    (detail : String) : Handshake :=
  { h with
    lobby := h.lobby.sendError connection code detail }

/- Replace the table of accounts. -/
def setUsers
    (h : Handshake)
    (users : UserRepository) : Handshake :=
  { h with
    lobby :=
      { h.lobby with
        world :=
          { h.lobby.world with repository := some users } } }

/- `connection->set_player_name(name)`. -/
def setPlayerName
    (h : Handshake)
    (connection : ConnId)
    (name : String) : Handshake :=
  { h with
    authenticated := insert connection h.authenticated
    lobby :=
      { h.lobby with
        world :=
          { h.lobby.world with
            names := Function.update h.lobby.world.names
              connection name } } }

/- `connection_registry_->add(connection)`. -/
def addConnection
    (h : Handshake)
    (connection : ConnId) : Handshake :=
  { h with
    lobby :=
      { h.lobby with
        connectionRegistry :=
          h.lobby.connectionRegistry.map fun connections =>
            connections.insert connection } }

/- `connection_registry_->remove(connection)`. -/
def removeConnection
    (h : Handshake)
    (connection : ConnId) : Handshake :=
  { h with
    lobby :=
      { h.lobby with
        connectionRegistry :=
          h.lobby.connectionRegistry.map fun connections =>
            connections.erase connection } }

/- `name_registry_->unregister(name)`. -/
def unregister
    (h : Handshake)
    (name : String) : Handshake :=
  { h with nameRegistry := h.nameRegistry.erase name }

------------------------------------------------------------
-- Login
------------------------------------------------------------

/- `finish_authentication`. -/
def finishAuthentication
    (h : Handshake)
    (name : String)
    (connection : ConnId)
    (chips : UInt32)
    (isNewAccount : Bool) : Handshake :=
  if name ∈ h.nameRegistry then
    h.sendError connection .alreadyOnline ""
  else
    let h := { h with nameRegistry := insert name h.nameRegistry }
    let h := h.setPlayerName connection name
    let h := h.addConnection connection
    { h with
      lobby := h.lobby.send connection
        (.welcome ⟨name, chips, isNewAccount⟩) }

/- The end of `handle_login`, which looks the account up. -/
def finishLogin
    (h : Handshake)
    (users : UserRepository)
    (username : String)
    (connection : ConnId)
    (isNewAccount : Bool) : Handshake :=
  match users.findByUsername username with
  | none =>
      h.sendError connection .invalidMessage
        "User record missing after login"
  | some user =>
      h.finishAuthentication username connection user.chips
        isNewAccount

/- The branches of `handle_login` that check a password. -/
def verifyLogin
    (pbkdf2 : Pbkdf2)
    (h : Handshake)
    (users : UserRepository)
    (username password : String)
    (connection : ConnId) : Except Exn Handshake := do
  if ← users.verifyPassword pbkdf2 username password then
    .ok (h.finishLogin users username connection false)
  else
    .ok (h.sendError connection .wrongPassword "")

/- `handle_login`. -/
def handleLogin
    (pbkdf2 : Pbkdf2)
    (h : Handshake)
    (login : Login)
    (connection : ConnId)
    (salt : Option (List UInt8)) : Except Exn Handshake :=
  let username := Auth.trimCopy login.username
  let password := login.password
  if ¬ Auth.isValidUsername username then
    .ok (h.sendError connection .invalidPlayerName "")
  else if ¬ Auth.isValidPassword password then
    .ok (h.sendError connection .invalidPassword "")
  else do
    let users ← require .badIndex h.lobby.world.repository
    if ¬ users.usernameExists username then
      let (created, users) ←
        users.createUser pbkdf2 username password
          STARTING_CHIPS salt
      let h := h.setUsers users
      if created then
        .ok (h.finishLogin users username connection true)
      else
        h.verifyLogin pbkdf2 users username password connection
    else
      h.verifyLogin pbkdf2 users username password connection

------------------------------------------------------------
-- Packets
------------------------------------------------------------

/- An exception of the library that nobody catches. -/
def uncaught
    {α : Type} : Except String α → Except Exn α
| .ok a => .ok a
| .error _ => .error .jsonException

/-
  Answer a body that is not JSON with the parser's text.
  The answer is serialized at once, which throws a
  `type_error` when that text is not UTF-8.
-/
def sendParseError
    (h : Handshake)
    (connection : ConnId)
    (what : List UInt8) : Except Exn Handshake :=
  match String.fromUTF8? ⟨what.toArray⟩ with
  | none => .error .jsonException
  | some text =>
      .ok (h.sendError connection .invalidJson text)

/- A packet with the type `login`. -/
def onLogin
    (pbkdf2 : Pbkdf2)
    (h : Handshake)
    (data : Json)
    (connection : ConnId)
    (salt : Option (List UInt8)) : Except Exn Handshake :=
  if connection ∈ h.authenticated then
    .ok (h.sendError connection .invalidMessage
      "Already authenticated")
  else
    match data.atKey "data" >>= Login.fromJson with
    | .error what =>
        .ok (h.sendError connection .invalidMessage what)
    | .ok login =>
        h.handleLogin pbkdf2 login connection salt

/- A packet with any other type. -/
def onRequest
    (h : Handshake)
    (data : Json)
    (connection : ConnId)
    (draws : Draws) : Except Exn Handshake :=
  if connection ∉ h.authenticated then
    .ok (h.sendError connection .notAuthenticated "")
  else
    match ClientMessage.fromJson data with
    | .error what =>
        .ok (h.sendError connection .invalidMessage what)
    | .ok msg => do
        let lobby ←
          h.lobby.processClientMessage msg connection draws
        .ok { h with lobby := lobby }

/- `process_message`. -/
def processMessage
    (parse : Parser)
    (pbkdf2 : Pbkdf2)
    (h : Handshake)
    (body : List UInt8)
    (connection : ConnId)
    (draws : Draws)
    (salt : Option (List UInt8)) : Except Exn Handshake :=
  match parse body with
  | .parseError what => h.sendParseError connection what
  | .outOfRange => .error .jsonException
  | .value data => do
      -- Not in any `try`, unlike what follows.
      let type ←
        uncaught (data.atKey "type" >>= Json.getString)
      if type = "login" then
        h.onLogin pbkdf2 data connection salt
      else
        h.onRequest data connection draws

/- `close_session` and the `on_disconnect` that it calls. -/
def onDisconnect
    (h : Handshake)
    (connection : ConnId)
    (shuffles : List Shuffle) : Except Exn Handshake := do
  let h := { h with closed := insert connection h.closed }
  let h :=
    if connection ∈ h.authenticated then
      (h.unregister
        (h.lobby.world.names connection)).removeConnection
          connection
    else
      h
  let lobby ← h.lobby.onDisconnect connection shuffles
  .ok { h with lobby := lobby }

------------------------------------------------------------
-- Runs
------------------------------------------------------------

/-
  A packet of a connection or its end.  A packet comes with
  the shuffles and the salt that its processing would draw.
-/
inductive Event
  | message
      (connection : ConnId)
      (body : List UInt8)
      (draws : Draws)
      (salt : Option (List UInt8))
  | disconnect
      (connection : ConnId)
      (shuffles : List Shuffle)

/- One event; a connection that is closed has none. -/
def step
    (parse : Parser)
    (pbkdf2 : Pbkdf2)
    (h : Handshake) : Event → Except Exn Handshake
| .message connection body draws salt =>
    if connection ∈ h.closed then
      .error .notEnabled
    else
      h.processMessage parse pbkdf2 body connection draws salt
| .disconnect connection shuffles =>
    if connection ∈ h.closed then
      .error .notEnabled
    else
      h.onDisconnect connection shuffles

/- A server that has just started on a table of accounts. -/
def opening
    (users : UserRepository) : Handshake where
  lobby := Lobby.opening
    { names := fun _ => "", repository := some users } (some [])

/-
  `Handshake.Run parse pbkdf2 users trace h`: the events in
  `trace` lead from a new server to `h`.
-/
def Run
    (parse : Parser)
    (pbkdf2 : Pbkdf2)
    (users : UserRepository)
    (trace : List (Handshake × Event))
    (h : Handshake) : Prop :=
  Transition.Run (step parse pbkdf2) (opening users) trace h

end Handshake

end Server

end Poker
