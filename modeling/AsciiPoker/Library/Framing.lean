import Mathlib.Data.List.Basic

/-
  Streams of packets that begin with their length.

  A header has a fixed width; it announces how long the body
  behind it is, or it is refused.  Packets that are written
  one behind the other need no separator: a stream comes
  apart into packets and a remainder that is none in one way
  only.

  Main declarations:
    * `Framing`, `Framing.packet`, `Framing.stream`
    * `Framing.Partial`, `Framing.Refused`
    * `Framing.stream_append_inj`
-/

------------------------------------------------------------
-- Packets
------------------------------------------------------------

/-
  Headers for lengths: how one is written, and which length
  is read off it.
-/
structure Framing (α : Type) where
  width : Nat
  header : Nat → List α
  announced : List α → Option Nat
  header_length : ∀ n, (header n).length = width
  header_announced : ∀ h n,
    h.length = width → announced h = some n → header n = h

namespace Framing

variable {α : Type}
variable {F : Framing α}

/- A length that is read as it was written. -/
def Fits
    (F : Framing α)
    (n : Nat) : Prop :=
  F.announced (F.header n) = some n

/- A body behind its header. -/
def packet
    (F : Framing α)
    (body : List α) : List α :=
  F.header body.length ++ body

/- Packets one behind the other. -/
def stream
    (F : Framing α)
    (bodies : List (List α)) : List α :=
  bodies.flatMap F.packet

@[simp] theorem stream_nil :
    F.stream [] = [] := rfl

@[simp] theorem stream_cons
    (body : List α)
    (bodies : List (List α)) :
    F.stream (body :: bodies) =
      F.packet body ++ F.stream bodies := rfl

@[simp] theorem stream_append
    (bodies more : List (List α)) :
    F.stream (bodies ++ more) =
      F.stream bodies ++ F.stream more :=
  List.flatMap_append

/- A header that was read is the header of its packet. -/
theorem packet_of_announced
    {h body : List α}
    (hWidth : h.length = F.width)
    (hAnnounced : F.announced h = some body.length) :
    F.packet body = h ++ body := by
  unfold packet
  rw [F.header_announced h _ hWidth hAnnounced]

------------------------------------------------------------
-- Remainders
------------------------------------------------------------

/- The beginning of a packet that may still be completed. -/
inductive Partial
    (F : Framing α) : List α → Prop
  | header
      {h : List α}
      (hShort : h.length < F.width) :
      Partial F h
  | body
      {h part : List α}
      {n : Nat}
      (hWidth : h.length = F.width)
      (hAnnounced : F.announced h = some n)
      (hShort : part.length < n) :
      Partial F (h ++ part)

/- What begins with a header that is refused. -/
inductive Refused
    (F : Framing α) : List α → Prop
  | header
      {h ignored : List α}
      (hWidth : h.length = F.width)
      (hNone : F.announced h = none) :
      Refused F (h ++ ignored)

/- No packet begins here, or none that is complete. -/
def Stops
    (F : Framing α)
    (rest : List α) : Prop :=
  F.Partial rest ∨ F.Refused rest

/- Two beginnings of the same width are the same. -/
theorem eq_of_append_eq
    {h k x y : List α}
    (hWidth : h.length = F.width)
    (kWidth : k.length = F.width)
    (hEq : h ++ x = k ++ y) :
    h = k ∧ x = y :=
  List.append_inj hEq (hWidth.trans kWidth.symm)

/- A remainder is not both. -/
theorem Partial.not_refused
    {rest : List α}
    (hPartial : F.Partial rest) :
    ¬ F.Refused rest := by
  rintro hRefused
  generalize hEq : rest = other at hRefused
  cases hRefused with
  | @header k ignored kWidth kNone =>
      cases hPartial with
      | header hShort =>
          rw [hEq, List.length_append] at hShort
          omega
      | @body h part n hWidth hAnnounced hShort =>
          rcases eq_of_append_eq hWidth kWidth hEq with
            ⟨rfl, _⟩
          rw [kNone] at hAnnounced
          cases hAnnounced

/- Where a packet begins, there is no remainder. -/
theorem not_stops_packet
    {body more : List α}
    (hFits : F.Fits body.length) :
    ¬ F.Stops (F.packet body ++ more) := by
  have hWidth := F.header_length body.length
  unfold packet
  rw [List.append_assoc]
  rintro (hPartial | hRefused)
  · generalize hEq : F.header body.length ++ (body ++ more) =
      rest at hPartial
    cases hPartial with
    | header hShort =>
        rw [← hEq, List.length_append] at hShort
        omega
    | @body h part n kWidth hAnnounced hShort =>
        rcases eq_of_append_eq hWidth kWidth hEq with
          ⟨hHeader, hPart⟩
        rw [← hHeader, hFits] at hAnnounced
        rw [← hPart, List.length_append,
          ← Option.some.inj hAnnounced] at hShort
        omega
  · generalize hEq : F.header body.length ++ (body ++ more) =
      rest at hRefused
    cases hRefused with
    | @header h ignored kWidth hNone =>
        rcases eq_of_append_eq hWidth kWidth hEq with
          ⟨hHeader, _⟩
        rw [← hHeader, hFits] at hNone
        cases hNone

------------------------------------------------------------
-- Streams Come Apart in One Way
------------------------------------------------------------

/- The first packet of a stream is known from its header. -/
theorem packet_append_inj
    {body other x y : List α}
    (hFits : F.Fits body.length)
    (hOther : F.Fits other.length)
    (hEq : F.packet body ++ x = F.packet other ++ y) :
    body = other ∧ x = y := by
  unfold packet at hEq
  rw [List.append_assoc, List.append_assoc] at hEq
  rcases eq_of_append_eq (F.header_length _)
      (F.header_length _) hEq with
    ⟨hHeader, hRest⟩
  have hLength : some body.length = some other.length := by
    rw [← hFits, ← hOther, hHeader]
  exact List.append_inj hRest (Option.some.inj hLength)

/- A stream has one list of packets and one remainder. -/
theorem stream_append_inj
    {bodies others : List (List α)}
    {rest remainder : List α}
    (hFits : ∀ body ∈ bodies, F.Fits body.length)
    (hOthers : ∀ body ∈ others, F.Fits body.length)
    (hRest : F.Stops rest)
    (hRemainder : F.Stops remainder)
    (hEq : F.stream bodies ++ rest =
      F.stream others ++ remainder) :
    bodies = others ∧ rest = remainder := by
  induction bodies generalizing others with
  | nil =>
      cases others with
      | nil => exact ⟨rfl, hEq⟩
      | cons other others =>
          rw [stream_nil, List.nil_append] at hEq
          rw [hEq, stream_cons, List.append_assoc] at hRest
          exact absurd hRest
            (not_stops_packet (hOthers other (by simp)))
  | cons body bodies ih =>
      cases others with
      | nil =>
          rw [stream_nil, List.nil_append] at hEq
          rw [← hEq, stream_cons, List.append_assoc]
            at hRemainder
          exact absurd hRemainder
            (not_stops_packet (hFits body (by simp)))
      | cons other others =>
          rw [stream_cons, stream_cons, List.append_assoc,
            List.append_assoc] at hEq
          rcases packet_append_inj (hFits body (by simp))
              (hOthers other (by simp)) hEq with
            ⟨rfl, hTail⟩
          have hMore := ih
            (fun b hb => hFits b (List.mem_cons_of_mem _ hb))
            (fun b hb => hOthers b (List.mem_cons_of_mem _ hb))
            hTail
          exact ⟨by rw [hMore.1], hMore.2⟩

end Framing
