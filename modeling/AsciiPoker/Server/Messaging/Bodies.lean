import AsciiPoker.Common.Json.Diagnosis
import AsciiPoker.Server.Messaging.Survival

/-
  The bodies that end the server, byte by byte.

  The server reads a body with the library's parser and sends
  the text of a syntax error back.  The text quotes the token
  that could not be read as far as it was read, and the
  answer is serialized as UTF-8.  So a body that is given up
  in the middle of a character ends the server, even when
  the body is text itself.

  Main declarations:
    * `Breaks`, `unreadable_iff_breaks`
    * `Handshake.Run.message_throws_iff`
-/

namespace Poker

namespace Server

open Protocol

variable {strtod : Json.Strtod}
variable {body : List UInt8}

/-
  The parser meets a number that no double holds, or gives up
  inside of a character, or the body is a JSON text without a
  type.
-/
inductive Breaks
    (strtod : Json.Strtod)
    (body : List UInt8) : Prop
  | overflow
      {what : List UInt8}
      (hParse : Json.parse strtod body =
        .error (.outOfRange what))
  | cut
      {byte : Nat}
      {what : List UInt8}
      (hParse : Json.parse strtod body =
        .error (.parseError byte what))
      (hCut : ¬ Utf8.Valid (body.take byte))
  | untyped
      {data : Json}
      (hDocument : Json.Document strtod body data)
      (hType : ∀ type,
        data.find? "type" ≠ some (.string type))

/- A value is parsed from the JSON texts that have it. -/
theorem parser_eq_value
    {data : Json} :
    parser strtod body = .value data ↔
      Json.Document strtod body data := by
  constructor
  · intro hValue
    unfold parser at hValue
    split at hValue
    case h_1 hParse =>
      cases hValue
      exact Json.document_of_parse hParse
    case h_2 => cases hValue
    case h_3 => cases hValue
    case h_4 => cases hValue
  · intro hDocument
    unfold parser
    rw [Json.parse_of_document hDocument]

namespace Handshake

/- These are the bodies that cannot be read. -/
theorem unreadable_iff_breaks :
    Unreadable (parser strtod) body ↔ Breaks strtod body := by
  constructor
  · rintro (hRange | ⟨what, hError, hText⟩ |
      ⟨data, hValue, hType⟩)
    · unfold parser at hRange
      split at hRange
      case h_1 => cases hRange
      case h_2 => cases hRange
      case h_3 hParse => exact .overflow hParse
      case h_4 hParse =>
        exact absurd hParse (Json.parse_ne_exhausted _ _)
    · unfold parser at hError
      split at hError
      case h_1 => cases hError
      case h_2 hParse =>
        cases hError
        exact .cut hParse
          ((Json.parse_error_unreadable_iff hParse).mp hText)
      case h_3 => cases hError
      case h_4 => cases hError
    · exact .untyped (parser_eq_value.mp hValue) hType
  · intro hBreaks
    cases hBreaks with
    | overflow hParse => exact .inl (by rw [parser, hParse])
    | cut hParse hCut =>
        exact .inr (.inl ⟨_, by rw [parser, hParse],
          (Json.parse_error_unreadable_iff hParse).mpr hCut⟩)
    | untyped hDocument hType =>
        exact .inr (.inr
          ⟨_, parser_eq_value.mpr hDocument, hType⟩)

variable {pbkdf2 : Pbkdf2}
variable {users : UserRepository}
variable {h : Handshake}
variable {c : ConnId}
variable {draws : Draws}
variable {salt : Option (List UInt8)}

/-
  Of the packets that carry no login, those end the server
  whose body breaks it, after any run that leaves no room
  with more than 23 seats.
-/
theorem Run.message_throws_iff
    {trace : List (Handshake × Event)}
    (run : Run (parser strtod) pbkdf2 users trace h)
    (hOpen : c ∉ h.closed)
    (hSmall : h.lobby.SmallRooms)
    (hLogin : loginOf (parser strtod) body = none) :
    Throws (h.step (parser strtod) pbkdf2
        (.message c body draws salt)) ↔
      Breaks strtod body := by
  rw [Run.throws_onMessage run hOpen hSmall,
    ← unreadable_iff_breaks]
  constructor
  · intro hFatal
    cases hFatal with
    | unreadable hBody => exact hBody
    | unopenable _ hThere =>
        rw [hLogin] at hThere
        cases hThere
  · exact Fatal.unreadable

/- The text "é" is given up after the first of two bytes. -/
theorem accent_throws :
    Utf8.Valid [0xC3, 0xA9] ∧
      Throws ((opening { users := [] }).step
        (parser fun _ => none) loginPbkdf2
        (.message 0 [0xC3, 0xA9] {} none)) := by
  have hParse : ∃ what, Json.parse (fun _ => none)
      [0xC3, 0xA9] = .error (.parseError 1 what) :=
    ⟨_, rfl⟩
  rcases hParse with ⟨what, hParse⟩
  have hCut : ¬ Utf8.Valid ([0xC3, 0xA9].take 1) := by
    rw [← Utf8.fromUTF8?_eq_none]
    decide +kernel
  refine ⟨⟨['é'], by decide⟩,
    (Run.message_throws_iff .nil ?_ ?_ ?_).mpr
      (.cut hParse hCut)⟩
  · exact Finset.notMem_empty _
  · rintro ptr room ⟨hMem, _⟩
    cases hMem
  · unfold loginOf parser
    rw [hParse]

end Handshake

end Server

end Poker
