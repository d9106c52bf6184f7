import AsciiPoker.Common.Json.Strings
import Mathlib.Data.List.Induction

/-
  The numbers that the lexer reads.

  Main declarations:
    * `NumberState.Accepts`, `NumberState.accepts_minus`
    * `Lexer.scanNumber_of_text`, `Lexer.of_scanNumber`
-/

namespace Poker

namespace Json

variable {b : UInt8}
variable {text rest : List UInt8}

------------------------------------------------------------
-- What Each Label Accepts
------------------------------------------------------------

open Lexer (NumberState isDigit isExponent)

/- The digits stand side by side in ASCII. -/
theorem isDigit_iff :
    isDigit b = true ↔ 0x30 ≤ b ∧ b ≤ 0x39 := by
  unfold isDigit
  rw [Bool.and_eq_true, decide_eq_true_eq, decide_eq_true_eq]

/- Both letters start an exponent. -/
theorem isExponent_iff :
    isExponent b = true ↔ b = 0x65 ∨ b = 0x45 := by
  unfold isExponent
  rw [Bool.or_eq_true, decide_eq_true_eq, decide_eq_true_eq]

/- No digits at all. -/
theorem digits_nil : Digits [] := by
  intro b hMem
  cases hMem

/- One digit more. -/
theorem digits_cons :
    Digits (b :: text) ↔ isDigit b = true ∧ Digits text := by
  unfold Digits
  rw [List.forall_mem_cons, isDigit_iff]

namespace Lexer

/-
  From a label and a type the bytes lead to a label that may
  be the last, with the second type.
-/
def NumberState.Accepts : NumberState → TokenType →
    List UInt8 → TokenType → Prop
| state, type, [], type' =>
    state.error = none ∧ type' = state.numberType type
| state, type, b :: text, type' =>
    ∃ next, state.next b = some next ∧
      next.Accepts (state.numberType type) text type'

variable {type type' : TokenType}

/- Behind a digit of the exponent: more digits. -/
theorem accepts_any2 :
    NumberState.any2.Accepts type text type' ↔
      Digits text ∧ type' = type := by
  induction text with
  | nil =>
      simp [NumberState.Accepts, NumberState.error,
        NumberState.numberType, digits_nil]
  | cons b text ih =>
      rw [digits_cons, and_assoc, ← ih]
      cases hDigit : isDigit b with
      | true =>
          simp [NumberState.Accepts, NumberState.next,
            NumberState.numberType, hDigit]
      | false =>
          simp [NumberState.Accepts, NumberState.next, hDigit]

/- Behind the sign of the exponent: a digit is due. -/
theorem accepts_sign :
    NumberState.sign.Accepts type text type' ↔
      text ≠ [] ∧ Digits text ∧ type' = type := by
  cases text with
  | nil => simp [NumberState.Accepts, NumberState.error]
  | cons b text =>
      rw [digits_cons, and_assoc, ← accepts_any2]
      cases hDigit : isDigit b with
      | true =>
          simp [NumberState.Accepts, NumberState.next,
            NumberState.numberType, hDigit]
      | false =>
          simp [NumberState.Accepts, NumberState.next, hDigit]

/- No digit is a sign. -/
theorem signed_of_sign
    (hSign : b = 0x2B ∨ b = 0x2D) :
    (∃ sign digits, b :: text = sign ++ digits ∧
        (sign = [] ∨ sign = [0x2B] ∨ sign = [0x2D]) ∧
        digits ≠ [] ∧ Digits digits) ↔
      text ≠ [] ∧ Digits text := by
  constructor
  · rintro ⟨sign, digits, hEq, hEach, hNe, hDigits⟩
    rcases hEach with rfl | hEach
    · rw [List.nil_append] at hEq
      subst hEq
      rw [digits_cons, isDigit_iff] at hDigits
      rcases hSign with rfl | rfl
      · exact absurd hDigits.1.1 (by decide)
      · exact absurd hDigits.1.1 (by decide)
    · rcases hEach with rfl | rfl
      · rcases List.cons.inj hEq with ⟨_, rfl⟩
        exact ⟨hNe, hDigits⟩
      · rcases List.cons.inj hEq with ⟨_, rfl⟩
        exact ⟨hNe, hDigits⟩
  · rintro ⟨hNe, hDigits⟩
    refine ⟨[b], text, rfl, .inr ?_, hNe, hDigits⟩
    simpa using hSign

/- Without a sign, the digits start at once. -/
theorem signed_of_not_sign
    (hSign : ¬ (b = 0x2B ∨ b = 0x2D)) :
    (∃ sign digits, b :: text = sign ++ digits ∧
        (sign = [] ∨ sign = [0x2B] ∨ sign = [0x2D]) ∧
        digits ≠ [] ∧ Digits digits) ↔
      Digits (b :: text) := by
  constructor
  · rintro ⟨sign, digits, hEq, hEach, hNe, hDigits⟩
    rcases hEach with rfl | hEach
    · rw [hEq]
      exact hDigits
    · refine absurd ?_ hSign
      rcases hEach with rfl | rfl
      · exact .inl (List.cons.inj hEq).1
      · exact .inr (List.cons.inj hEq).1
  · intro hDigits
    exact ⟨[], _, rfl, .inl rfl, List.cons_ne_nil _ _,
      hDigits⟩

/- Behind the letter: a sign or not, and digits. -/
theorem accepts_exponent :
    NumberState.exponent.Accepts type text type' ↔
      (∃ sign digits, text = sign ++ digits ∧
        (sign = [] ∨ sign = [0x2B] ∨ sign = [0x2D]) ∧
        digits ≠ [] ∧ Digits digits) ∧
      type' = .valueFloat := by
  cases text with
  | nil =>
      constructor
      · rintro ⟨hError, _⟩
        cases hError
      · rintro ⟨⟨sign, digits, hEmpty, _, hDigits, _⟩, _⟩
        exact absurd (List.append_eq_nil_iff.mp
          hEmpty.symm).2 hDigits
  | cons b text =>
      by_cases hSign : b = 0x2B ∨ b = 0x2D
      · have hNext : NumberState.exponent.next b =
            some .sign := if_pos hSign
        have hStep : NumberState.exponent.Accepts type
            (b :: text) type' ↔
            NumberState.sign.Accepts .valueFloat text type' := by
          simp [NumberState.Accepts, hNext,
            NumberState.numberType]
        rw [hStep, accepts_sign, ← and_assoc,
          signed_of_sign hSign]
      · rw [signed_of_not_sign hSign, digits_cons, and_assoc,
          ← accepts_any2]
        cases hDigit : isDigit b with
        | true =>
            simp [NumberState.Accepts, NumberState.next,
              NumberState.numberType, hSign, hDigit]
        | false =>
            simp [NumberState.Accepts, NumberState.next,
              hSign, hDigit]

/- An exponent starts with its letter. -/
theorem exponentPart_cons :
    ExponentPart (b :: text) ↔ isExponent b = true ∧
      NumberState.exponent.Accepts type text .valueFloat := by
  rw [accepts_exponent, isExponent_iff]
  constructor
  · rintro (hEmpty | ⟨letter, sign, digits, hEq, hLetter,
      hSign, hNe, hDigits⟩)
    · cases hEmpty
    · rw [List.cons_append, List.cons.injEq] at hEq
      rcases hEq with ⟨rfl, rfl⟩
      exact ⟨hLetter, ⟨sign, digits, rfl, hSign, hNe,
        hDigits⟩, rfl⟩
  · rintro ⟨hLetter, ⟨sign, digits, rfl, hSign, hNe,
      hDigits⟩, _⟩
    exact .inr ⟨b, sign, digits, rfl, hLetter, hSign, hNe,
      hDigits⟩

/- It may be absent. -/
theorem exponentPart_nil : ExponentPart [] := .inl rfl

/- The type of a number with something after its digits. -/
def tailType
    (type : TokenType)
    (tail : List UInt8) : TokenType :=
  if tail = [] then type else .valueFloat

/- Its letter is no digit. -/
theorem not_isDigit_of_isExponent
    (hExponent : isExponent b = true) :
    isDigit b = false := by
  rcases isExponent_iff.mp hExponent with rfl | rfl
  · rfl
  · rfl

/- Behind a decimal: more of them, then an exponent. -/
theorem accepts_decimal2 :
    NumberState.decimal2.Accepts type text type' ↔
      ∃ digits tail, text = digits ++ tail ∧
        Digits digits ∧ ExponentPart tail ∧
        type' = tailType type tail := by
  induction text with
  | nil =>
      constructor
      · rintro ⟨_, rfl⟩
        exact ⟨[], [], rfl, digits_nil, exponentPart_nil, rfl⟩
      · rintro ⟨digits, tail, hEmpty, _, _, rfl⟩
        rw [eq_comm, List.append_eq_nil_iff] at hEmpty
        rw [hEmpty.2]
        exact ⟨rfl, rfl⟩
  | cons b text ih =>
      constructor
      · rintro ⟨next, hNext, hRest⟩
        unfold NumberState.next at hNext
        dsimp only at hNext
        split_ifs at hNext with hDigit hExponent
        · cases hNext
          rcases ih.mp hRest with
            ⟨digits, tail, rfl, hDigits, hTail, hType⟩
          exact ⟨b :: digits, tail, rfl,
            digits_cons.mpr ⟨hDigit, hDigits⟩, hTail, hType⟩
        · cases hNext
          have hFloat := (accepts_exponent.mp hRest).2
          subst hFloat
          exact ⟨[], b :: text, rfl, digits_nil,
            exponentPart_cons.mpr ⟨hExponent, hRest⟩, rfl⟩
      · rintro ⟨digits, tail, hEq, hDigits, hTail, rfl⟩
        cases digits with
        | nil =>
            rw [List.nil_append] at hEq
            subst hEq
            rw [exponentPart_cons] at hTail
            refine ⟨.exponent, ?_, hTail.2⟩
            simp [NumberState.next, hTail.1,
              not_isDigit_of_isExponent hTail.1]
        | cons d digits =>
            rw [List.cons_append, List.cons.injEq] at hEq
            rcases hEq with ⟨rfl, rfl⟩
            rw [digits_cons] at hDigits
            refine ⟨.decimal2, if_pos hDigits.1, ?_⟩
            exact ih.mpr ⟨digits, tail, rfl, hDigits.2, hTail,
              rfl⟩

/- Behind the point: a decimal is due. -/
theorem accepts_decimal1 :
    NumberState.decimal1.Accepts type text type' ↔
      ∃ digits tail, text = digits ++ tail ∧ digits ≠ [] ∧
        Digits digits ∧ ExponentPart tail ∧
        type' = .valueFloat := by
  cases text with
  | nil =>
      constructor
      · rintro ⟨hError, _⟩
        cases hError
      · rintro ⟨digits, tail, hEmpty, hNe, _⟩
        exact absurd (List.append_eq_nil_iff.mp
          hEmpty.symm).1 hNe
  | cons b text =>
      constructor
      · rintro ⟨next, hNext, hRest⟩
        unfold NumberState.next at hNext
        dsimp only at hNext
        split_ifs at hNext with hDigit
        cases hNext
        rcases accepts_decimal2.mp hRest with
          ⟨digits, tail, rfl, hDigits, hTail, rfl⟩
        refine ⟨b :: digits, tail, rfl,
          List.cons_ne_nil _ _,
          digits_cons.mpr ⟨hDigit, hDigits⟩, hTail, ?_⟩
        exact ite_self _
      · rintro ⟨digits, tail, hEq, hNe, hDigits, hTail, rfl⟩
        cases digits with
        | nil => exact absurd rfl hNe
        | cons d digits =>
            rw [List.cons_append, List.cons.injEq] at hEq
            rcases hEq with ⟨rfl, rfl⟩
            rw [digits_cons] at hDigits
            refine ⟨.decimal2, if_pos hDigits.1, ?_⟩
            exact accepts_decimal2.mpr ⟨digits, tail, rfl,
              hDigits.2, hTail, (ite_self _).symm⟩

/- What may follow the digits before the point. -/
def Tail
    (tail : List UInt8) : Prop :=
  ∃ fraction exponent, tail = fraction ++ exponent ∧
    Fraction fraction ∧ ExponentPart exponent

/- An integer has neither point nor exponent. -/
theorem tail_nil : Tail [] :=
  ⟨[], [], rfl, .inl rfl, exponentPart_nil⟩

/- What is behind the integral part tells them apart. -/
theorem tail_cons
    (type : TokenType) :
    Tail (b :: text) ↔
      (b = 0x2E ∧ NumberState.decimal1.Accepts type text
        .valueFloat) ∨
      (isExponent b = true ∧
        NumberState.exponent.Accepts type text
          .valueFloat) := by
  rw [accepts_decimal1, ← exponentPart_cons]
  constructor
  · rintro ⟨fraction, exponent, hEq, hFraction, hExponent⟩
    rcases hFraction with rfl | ⟨digits, rfl, hNe, hDigits⟩
    · rw [List.nil_append] at hEq
      rw [hEq]
      exact .inr hExponent
    · rw [List.cons_append, List.cons.injEq] at hEq
      rcases hEq with ⟨rfl, rfl⟩
      exact .inl ⟨rfl, digits, exponent, rfl, hNe, hDigits,
        hExponent, rfl⟩
  · rintro (⟨rfl, digits, exponent, rfl, hNe, hDigits,
      hExponent, _⟩ | hExponent)
    · exact ⟨0x2E :: digits, exponent, rfl,
        .inr ⟨digits, rfl, hNe, hDigits⟩, hExponent⟩
    · exact ⟨[], _, rfl, .inl rfl, hExponent⟩

/- No digit follows a leading zero. -/
theorem accepts_zero :
    NumberState.zero.Accepts type text type' ↔
      Tail text ∧ type' = tailType type text := by
  cases text with
  | nil =>
      constructor
      · rintro ⟨_, rfl⟩
        exact ⟨tail_nil, rfl⟩
      · rintro ⟨_, rfl⟩
        exact ⟨rfl, rfl⟩
  | cons b text =>
      rw [tail_cons type]
      constructor
      · rintro ⟨next, hNext, hRest⟩
        unfold NumberState.next at hNext
        dsimp only at hNext
        split_ifs at hNext with hPoint hExponent
        · cases hNext
          rcases accepts_decimal1.mp hRest with
            ⟨_, _, _, _, _, _, rfl⟩
          exact ⟨.inl ⟨hPoint, hRest⟩, rfl⟩
        · cases hNext
          have hFloat := (accepts_exponent.mp hRest).2
          subst hFloat
          exact ⟨.inr ⟨hExponent, hRest⟩, rfl⟩
      · rintro ⟨⟨rfl, hRest⟩ | ⟨hExponent, hRest⟩, rfl⟩
        · exact ⟨.decimal1, rfl, hRest⟩
        · refine ⟨.exponent, ?_, hRest⟩
          have hPoint : b ≠ 0x2E := by
            rintro rfl
            cases hExponent
          simp [NumberState.next, hPoint, hExponent]

/- So the integral part is as long as it can be. -/
theorem not_isDigit_of_tail
    (hTail : Tail (b :: text)) :
    isDigit b = false := by
  rcases (tail_cons .valueFloat).mp hTail with
    ⟨rfl, _⟩ | ⟨hExponent, _⟩
  · rfl
  · exact not_isDigit_of_isExponent hExponent

/- Behind any other digit there may be more. -/
theorem accepts_any1 :
    NumberState.any1.Accepts type text type' ↔
      ∃ digits tail, text = digits ++ tail ∧
        Digits digits ∧ Tail tail ∧
        type' = tailType type tail := by
  induction text with
  | nil =>
      constructor
      · rintro ⟨_, rfl⟩
        exact ⟨[], [], rfl, digits_nil, tail_nil, rfl⟩
      · rintro ⟨digits, tail, hEmpty, _, _, rfl⟩
        rw [eq_comm, List.append_eq_nil_iff] at hEmpty
        rw [hEmpty.2]
        exact ⟨rfl, rfl⟩
  | cons b text ih =>
      -- Without a digit this label is the one after a zero.
      have hZero : isDigit b = false →
          (NumberState.any1.Accepts type (b :: text) type' ↔
            NumberState.zero.Accepts type (b :: text)
              type') := by
        intro hDigit
        simp [NumberState.Accepts, NumberState.next,
          NumberState.numberType, hDigit]
      constructor
      · intro hAccepts
        cases hDigit : isDigit b with
        | true =>
            rcases hAccepts with ⟨next, hNext, hRest⟩
            have hSame : NumberState.any1.next b =
                some .any1 := if_pos hDigit
            rw [hSame, Option.some.injEq] at hNext
            subst hNext
            rcases ih.mp hRest with
              ⟨digits, tail, rfl, hDigits, hTail, hType⟩
            exact ⟨b :: digits, tail, rfl,
              digits_cons.mpr ⟨hDigit, hDigits⟩, hTail, hType⟩
        | false =>
            rw [hZero hDigit, accepts_zero] at hAccepts
            exact ⟨[], b :: text, rfl, digits_nil, hAccepts⟩
      · rintro ⟨digits, tail, hEq, hDigits, hTail, rfl⟩
        cases digits with
        | nil =>
            rw [List.nil_append] at hEq
            subst hEq
            rw [hZero (not_isDigit_of_tail hTail),
              accepts_zero]
            exact ⟨hTail, rfl⟩
        | cons d digits =>
            rw [List.cons_append, List.cons.injEq] at hEq
            rcases hEq with ⟨rfl, rfl⟩
            rw [digits_cons] at hDigits
            refine ⟨.any1, if_pos hDigits.1, ?_⟩
            exact ih.mpr ⟨digits, tail, rfl, hDigits.2, hTail,
              rfl⟩

/- A digit and what the label after it accepts. -/
theorem accepts_digit
    (hDigit : isDigit b = true) :
    (if b = 0x30 then
        NumberState.zero
      else
        .any1).Accepts type text type' ↔
      ∃ digits tail, text = digits ++ tail ∧
        Integral (b :: digits) ∧ Tail tail ∧
        type' = tailType type tail := by
  by_cases hZero : b = 0x30
  · subst hZero
    rw [if_pos rfl, accepts_zero]
    constructor
    · rintro ⟨hTail, rfl⟩
      exact ⟨[], text, rfl, .inl rfl, hTail, rfl⟩
    · rintro ⟨digits, tail, rfl, hIntegral, hTail, rfl⟩
      rcases hIntegral with hAlone | ⟨_, first, hHead, hNe⟩
      · rcases List.cons.inj hAlone with ⟨_, rfl⟩
        exact ⟨hTail, rfl⟩
      · cases hHead
        exact absurd rfl hNe
  · rw [if_neg hZero, accepts_any1]
    have hIntegral : ∀ digits, Integral (b :: digits) ↔
        Digits digits := by
      intro digits
      constructor
      · rintro (hAlone | ⟨hDigits, _⟩)
        · exact absurd (List.cons.inj hAlone).1 hZero
        · exact (digits_cons.mp hDigits).2
      · intro hDigits
        exact .inr ⟨digits_cons.mpr ⟨hDigit, hDigits⟩, b, rfl,
          hZero⟩
    simp only [hIntegral]

/- An integral part starts with a digit. -/
theorem integral_cons
    (hIntegral : Integral (b :: text)) :
    isDigit b = true := by
  rcases hIntegral with hAlone | ⟨hDigits, _⟩
  · rcases List.cons.inj hAlone with ⟨rfl, _⟩
    rfl
  · exact (digits_cons.mp hDigits).1

/- And there is one. -/
theorem not_integral_nil : ¬ Integral [] := by
  rintro (hAlone | ⟨_, first, hHead, _⟩)
  · cases hAlone
  · cases hHead

/- A minus is followed by a zero or another digit. -/
theorem next_minus
    (hDigit : isDigit b = true) :
    NumberState.minus.next b =
      some (if b = 0x30 then .zero else .any1) := by
  change (if b = 0x30 then some NumberState.zero
    else if isDigit b = true then some .any1 else none) = _
  rw [if_pos hDigit, ← apply_ite some]

/- So it is with what stands behind it. -/
theorem accepts_minus :
    NumberState.minus.Accepts type text type' ↔
      ∃ integral tail, text = integral ++ tail ∧
        Integral integral ∧ Tail tail ∧
        type' = tailType .valueInteger tail := by
  cases text with
  | nil =>
      constructor
      · rintro ⟨hError, _⟩
        cases hError
      · rintro ⟨integral, tail, hEmpty, hIntegral, _⟩
        rw [eq_comm, List.append_eq_nil_iff] at hEmpty
        rw [hEmpty.1] at hIntegral
        exact absurd hIntegral not_integral_nil
  | cons b text =>
      constructor
      · rintro ⟨next, hNext, hRest⟩
        have hDigit : isDigit b = true := by
          unfold NumberState.next at hNext
          dsimp only at hNext
          split_ifs at hNext with hZero hDigit
          · rw [hZero]
            rfl
          · exact hDigit
        have hLabel : next =
            if b = 0x30 then .zero else .any1 := by
          rw [next_minus hDigit, Option.some.injEq] at hNext
          exact hNext.symm
        rw [hLabel, accepts_digit hDigit] at hRest
        rcases hRest with
          ⟨digits, tail, rfl, hIntegral, hTail, hType⟩
        exact ⟨b :: digits, tail, rfl, hIntegral, hTail, hType⟩
      · rintro ⟨integral, tail, hEq, hIntegral, hTail, hType⟩
        cases integral with
        | nil => exact absurd hIntegral not_integral_nil
        | cons d digits =>
            rw [List.cons_append, List.cons.injEq] at hEq
            rcases hEq with ⟨rfl, rfl⟩
            have hDigit := integral_cons hIntegral
            exact ⟨_, next_minus hDigit,
              (accepts_digit hDigit).mpr
                ⟨digits, tail, rfl, hIntegral, hTail, hType⟩⟩

------------------------------------------------------------
-- Values
------------------------------------------------------------

/- The value that the parser takes from a token. -/
def scalar?
    (type : TokenType)
    (lexer : Lexer) : Option Json :=
  match type with
  | .literalNull => some .null
  | .literalTrue => some (.boolean true)
  | .literalFalse => some (.boolean false)
  | .valueString => some (.string lexer.getString)
  | .valueUnsigned => some (.unsigned lexer.valueUnsigned)
  | .valueInteger => some (.integer lexer.valueInteger)
  | .valueFloat => lexer.valueFloat.map .float
  | _ => none

/- The value of the text of a number of a type. -/
def converted
    (strtod : Strtod)
    (type : TokenType)
    (text : List UInt8) : Option Json :=
  let float := (strtod text).map .float
  match type with
  | .valueUnsigned =>
      match strtoull text with
      | some x => some (.unsigned x)
      | none => float
  | .valueInteger =>
      match strtoll text with
      | some x => some (.integer x)
      | none => float
  | _ => float

/- A number, whatever its type. -/
def IsNumber
    (type : TokenType) : Prop :=
  type = .valueUnsigned ∨ type = .valueInteger ∨
    type = .valueFloat

variable {strtod : Strtod}
variable {lexer lexer' : Lexer}

/- The conversion reads nothing; it sets the value. -/
theorem of_convertNumber
    (hConvert : lexer.convertNumber strtod type =
      (type', lexer')) :
    IsNumber type' ∧ lexer'.ia = lexer.ia ∧
      lexer'.scalar? type' =
        converted strtod type lexer.tokenBuffer := by
  unfold convertNumber at hConvert
  unfold converted
  cases type with
  | valueUnsigned =>
      dsimp only at hConvert ⊢
      cases hValue : strtoull lexer.tokenBuffer with
      | some value =>
          rw [hValue] at hConvert
          cases hConvert
          exact ⟨.inl rfl, rfl, rfl⟩
      | none =>
          rw [hValue] at hConvert
          cases hConvert
          exact ⟨.inr (.inr rfl), rfl, rfl⟩
  | valueInteger =>
      dsimp only at hConvert ⊢
      cases hValue : strtoll lexer.tokenBuffer with
      | some value =>
          rw [hValue] at hConvert
          cases hConvert
          exact ⟨.inr (.inl rfl), rfl, rfl⟩
      | none =>
          rw [hValue] at hConvert
          cases hConvert
          exact ⟨.inr (.inr rfl), rfl, rfl⟩
  | _ =>
      cases hConvert
      exact ⟨.inr (.inr rfl), rfl, rfl⟩

/- Digit by digit from the left. -/
theorem digitsValue_eq
    (digits : List UInt8) :
    digitsValue digits = decimal digits := by
  unfold digitsValue decimal
  induction digits using List.reverseRecOn with
  | nil => rfl
  | append_singleton digits b ih =>
      rw [List.foldl_append, ih, List.reverse_append]
      simp only [List.foldl_cons, List.foldl_nil,
        List.reverse_singleton, List.singleton_append,
        List.map_cons, Nat.ofDigits_cons]
      exact Nat.add_comm _ _

/- The value of a number from the type that is scanned. -/
theorem converted_tailType
    {sign integral tail : List UInt8}
    {fraction exponent : List UInt8}
    (hTail : tail = fraction ++ exponent)
    (hSign : sign = [] ∨ sign = [0x2D]) :
    converted strtod
        (tailType (if sign = [] then .valueUnsigned
          else .valueInteger) tail)
        (sign ++ integral ++ tail) =
      numberValue strtod sign integral fraction exponent := by
  subst hTail
  unfold numberValue tailType
  dsimp only
  by_cases hEmpty : fraction ++ exponent = []
  · have hBoth := List.append_eq_nil_iff.mp hEmpty
    rw [if_pos hEmpty, if_pos hEmpty, hBoth.1, hBoth.2]
    rcases hSign with rfl | rfl
    · simp only [converted, strtoull, digitsValue_eq,
        List.nil_append, List.append_nil, if_true]
      split_ifs
      · rfl
      · rfl
    · simp only [converted, strtoll, digitsValue_eq,
        List.append_nil, List.cons_append, List.nil_append,
        List.tail_cons, List.cons_ne_nil, if_false]
      split_ifs
      · rfl
      · rfl
  · rw [if_neg hEmpty, if_neg hEmpty, ← List.append_assoc]
    rfl

/- The label that `scan_number` starts from. -/
def startState
    (b : UInt8) : NumberState :=
  if b = 0x2D then
    .minus
  else if b = 0x30 then
    .zero
  else
    .any1

/- A sign that is there or not, and what it does. -/
theorem accepts_startState
    (hStart : b = 0x2D ∨ isDigit b = true) :
    (startState b).Accepts .valueUnsigned text type ↔
      ∃ sign integral tail,
        b :: text = sign ++ integral ++ tail ∧
          (sign = [] ∨ sign = [0x2D]) ∧
          Integral integral ∧ Tail tail ∧
          type = tailType (if sign = [] then .valueUnsigned
            else .valueInteger) tail := by
  unfold startState
  by_cases hMinus : b = 0x2D
  · subst hMinus
    rw [if_pos rfl, accepts_minus]
    constructor
    · rintro ⟨integral, tail, rfl, hIntegral, hTail, hType⟩
      exact ⟨[0x2D], integral, tail, rfl, .inr rfl, hIntegral,
        hTail, hType⟩
    · rintro ⟨sign, integral, tail, hEq, hSign, hIntegral,
        hTail, hType⟩
      rcases hSign with rfl | rfl
      · cases integral with
        | nil => exact absurd hIntegral not_integral_nil
        | cons d digits =>
            rcases List.cons.inj hEq with ⟨rfl, _⟩
            exact absurd (integral_cons hIntegral) (by decide)
      · rcases List.cons.inj hEq with ⟨_, rfl⟩
        exact ⟨integral, tail, rfl, hIntegral, hTail, hType⟩
  · have hDigit := hStart.resolve_left hMinus
    rw [if_neg hMinus, accepts_digit hDigit]
    constructor
    · rintro ⟨digits, tail, rfl, hIntegral, hTail, hType⟩
      exact ⟨[], b :: digits, tail, rfl, .inl rfl, hIntegral,
        hTail, hType⟩
    · rintro ⟨sign, integral, tail, hEq, hSign, hIntegral,
        hTail, hType⟩
      rcases hSign with rfl | rfl
      · cases integral with
        | nil => exact absurd hIntegral not_integral_nil
        | cons d digits =>
            rcases List.cons.inj hEq with ⟨rfl, rfl⟩
            exact ⟨digits, tail, rfl, hIntegral, hTail, hType⟩
      · exact absurd (List.cons.inj hEq).1 hMinus

/- The numbers are what is accepted, with that value. -/
theorem numberText_cons
    {value : Option Json}
    (hStart : b = 0x2D ∨ isDigit b = true) :
    NumberText strtod (b :: text) value ↔
      ∃ type, (startState b).Accepts .valueUnsigned text
          type ∧
        value = converted strtod type (b :: text) := by
  constructor
  · rintro ⟨sign, integral, fraction, exponent, hText, hSign,
      hIntegral, hFraction, hExponent, rfl⟩
    rw [List.append_assoc] at hText
    refine ⟨_, (accepts_startState hStart).mpr
      ⟨sign, integral, _, hText, hSign, hIntegral,
        ⟨fraction, exponent, rfl, hFraction, hExponent⟩, rfl⟩,
      ?_⟩
    rw [hText, converted_tailType rfl hSign]
  · rintro ⟨type, hAccepts, rfl⟩
    rcases (accepts_startState hStart).mp hAccepts with
      ⟨sign, integral, tail, hText, hSign, hIntegral,
        ⟨fraction, exponent, rfl, hFraction, hExponent⟩, rfl⟩
    refine ⟨sign, integral, fraction, exponent, ?_, hSign,
      hIntegral, hFraction, hExponent, ?_⟩
    · rw [hText, List.append_assoc (sign ++ integral)]
    · rw [hText, converted_tailType rfl hSign]

/- There is no empty number. -/
theorem numberText_ne_nil
    {value : Option Json} :
    ¬ NumberText strtod [] value := by
  rintro ⟨sign, integral, fraction, exponent, hText, _,
    hIntegral, _⟩
  simp only [List.nil_eq, List.append_eq_nil_iff] at hText
  rw [hText.1.1.2] at hIntegral
  exact not_integral_nil hIntegral

/- The first byte tells that a number is coming. -/
theorem numberText_head
    {value : Option Json}
    (hText : NumberText strtod (b :: text) value) :
    b = 0x2D ∨ isDigit b = true := by
  rcases hText with ⟨sign, integral, fraction, exponent,
    hText, hSign, hIntegral, _⟩
  rcases hSign with rfl | rfl
  · cases integral with
    | nil => exact absurd hIntegral not_integral_nil
    | cons d digits =>
        rcases List.cons.inj hText with ⟨rfl, _⟩
        exact .inr (integral_cons hIntegral)
  · exact .inl (List.cons.inj hText).1

------------------------------------------------------------
-- Scanning
------------------------------------------------------------

/- No byte comes next that a number could go on with. -/
def Stops
    (rest : List UInt8) : Prop :=
  ∀ b ∈ rest.head?, isDigit b = false ∧
    isExponent b = false ∧ b ≠ 0x2E

/- A state that may end, ends at any other byte. -/
theorem next_eq_none
    {state : NumberState}
    (hEnd : state.error = none)
    (hDigit : isDigit b = false)
    (hExponent : isExponent b = false)
    (hPoint : b ≠ 0x2E) :
    state.next b = none := by
  cases state with
  | minus => cases hEnd
  | zero => simp [NumberState.next, hPoint, hExponent]
  | any1 => simp [NumberState.next, hDigit, hPoint, hExponent]
  | decimal1 => cases hEnd
  | decimal2 => simp [NumberState.next, hDigit, hExponent]
  | exponent => cases hEnd
  | sign => cases hEnd
  | any2 => simp [NumberState.next, hDigit]

/- A byte that was given back is read again. -/
@[simp] theorem unget_get_ia
    (lexer : Lexer) :
    lexer.get.unget.ia = lexer.ia := by
  have hUnget : lexer.get.unget.ia =
      lexer.get.current.toList ++ lexer.get.ia := rfl
  rw [hUnget, get_current, get_ia]
  cases lexer.ia with
  | nil => rfl
  | cons b ia => rfl

/- What is given back was not stored. -/
@[simp] theorem unget_tokenBuffer
    (lexer : Lexer) :
    lexer.unget.tokenBuffer = lexer.tokenBuffer := rfl

/- What is accepted is read up to where it stops. -/
theorem scanNumberLoop_of_accepts
    (strtod : Strtod)
    {state : NumberState}
    {turns : Nat}
    (hAccepts : state.Accepts type text type')
    (hInput : lexer.ia = text ++ rest)
    (hStops : Stops rest)
    (hTurns : text.length < turns) :
    ∃ done : Lexer,
      scanNumberLoop strtod turns state type lexer =
        done.convertNumber strtod type' ∧
      done.ia = rest ∧
      done.tokenBuffer = lexer.tokenBuffer ++ text := by
  induction text generalizing lexer state type turns with
  | nil =>
      obtain ⟨turns, rfl⟩ := Nat.exists_eq_succ_of_ne_zero
        (Nat.ne_of_gt hTurns)
      rcases hAccepts with ⟨hEnd, rfl⟩
      rw [List.nil_append] at hInput
      refine ⟨lexer.get.unget, ?_, ?_, ?_⟩
      · have hNone : lexer.get.current.bind state.next =
            none := by
          rw [get_current, hInput]
          cases rest with
          | nil => rfl
          | cons b rest =>
              rcases hStops b rfl with
                ⟨hDigit, hExponent, hPoint⟩
              exact next_eq_none hEnd hDigit hExponent hPoint
        rw [scanNumberLoop, hNone, hEnd]
      · rw [unget_get_ia, hInput]
      · rw [unget_tokenBuffer, get_tokenBuffer,
          List.append_nil]
  | cons b text ih =>
      obtain ⟨turns, rfl⟩ := Nat.exists_eq_succ_of_ne_zero
        (Nat.ne_of_gt (Nat.zero_lt_of_lt hTurns))
      rcases hAccepts with ⟨next, hNext, hRest⟩
      have hCurrent : lexer.get.current = some b := by
        rw [get_current, hInput]
        rfl
      have hGet : lexer.get.addCurrent.ia = text ++ rest := by
        rw [addCurrent_ia, get_ia, hInput]
        rfl
      have hLess : text.length < turns :=
        Nat.lt_of_succ_lt_succ hTurns
      rcases ih hRest hGet hLess with
        ⟨done, hLoop, hIa, hBuffer⟩
      refine ⟨done, ?_, hIa, ?_⟩
      · rw [scanNumberLoop, hCurrent, Option.bind_some, hNext]
        exact hLoop
      · rw [hBuffer, addCurrent_tokenBuffer, get_tokenBuffer,
          hCurrent, Option.toList_some, List.append_assoc,
          List.singleton_append]

/-
  By induction on the turns, each one step of the automaton.
-/
theorem of_scanNumberLoop
    {state : NumberState}
    {turns : Nat}
    (hLoop : scanNumberLoop strtod turns state type lexer =
      (type', lexer')) :
    type' = .parseError ∨
      ∃ text numberType, ∃ done : Lexer,
        state.Accepts type text numberType ∧
        lexer.ia = text ++ done.ia ∧
        done.tokenBuffer = lexer.tokenBuffer ++ text ∧
        done.convertNumber strtod numberType =
          (type', lexer') := by
  induction turns generalizing lexer state type with
  | zero =>
      cases hLoop
      exact .inl rfl
  | succ turns ih =>
      rw [scanNumberLoop] at hLoop
      split at hLoop
      case h_1 next hNext =>
        rw [Option.bind_eq_some_iff] at hNext
        rcases hNext with ⟨b, hCurrent, hNext⟩
        rcases ih hLoop with
          hError | ⟨text, numberType, done, hAccepts, hIa,
            hBuffer, hConvert⟩
        · exact .inl hError
        · refine .inr ⟨b :: text, numberType, done,
            ⟨next, hNext, hAccepts⟩, ?_, ?_, hConvert⟩
          · rw [addCurrent_ia, get_ia] at hIa
            rw [get_current, List.head?_eq_some_iff]
              at hCurrent
            rcases hCurrent with ⟨tail, hInput⟩
            rw [hInput, List.tail_cons] at hIa
            rw [hInput, hIa, List.cons_append]
          · rw [hBuffer, addCurrent_tokenBuffer,
              get_tokenBuffer, hCurrent, Option.toList_some,
              List.append_assoc, List.singleton_append]
      case h_2 =>
        split at hLoop
        case h_1 =>
          cases hLoop
          exact .inl rfl
        case h_2 hEnd =>
          refine .inr ⟨[], _, lexer.get.unget, ⟨hEnd, rfl⟩,
            ?_, ?_, hLoop⟩
          · rw [unget_get_ia, List.nil_append]
          · rw [unget_tokenBuffer, get_tokenBuffer,
              List.append_nil]

/- The first byte is stored before the loop starts. -/
theorem scanNumber_eq
    (hCurrent : lexer.current = some b) :
    lexer.scanNumber strtod =
      scanNumberLoop strtod (lexer.ia.length + 1)
        (startState b) .valueUnsigned
        lexer.reset.addCurrent := by
  unfold scanNumber startState
  simp only [hCurrent, Option.some.injEq]

/- A number is read from its first byte on. -/
theorem scanNumber_of_text
    {value : Option Json}
    (hText : NumberText strtod (b :: text) value)
    (hCurrent : lexer.current = some b)
    (hInput : lexer.ia = text ++ rest)
    (hStops : Stops rest) :
    ∃ type lexer', lexer.scanNumber strtod =
        (type, lexer') ∧
      IsNumber type ∧ lexer'.ia = rest ∧
      lexer'.scalar? type = value := by
  have hStart := numberText_head hText
  rcases (numberText_cons hStart).mp hText with
    ⟨numberType, hAccepts, rfl⟩
  have hReset : lexer.reset.addCurrent.ia = text ++ rest :=
    hInput
  have hTurns : text.length < lexer.ia.length + 1 := by
    rw [hInput, List.length_append]
    omega
  rcases scanNumberLoop_of_accepts strtod
    hAccepts hReset hStops hTurns with
    ⟨done, hLoop, hIa, hBuffer⟩
  rcases hConvert : done.convertNumber strtod numberType with
    ⟨type, lexer'⟩
  rcases of_convertNumber hConvert with
    ⟨hNumber, hIa', hValue⟩
  refine ⟨type, lexer', ?_, hNumber, hIa'.trans hIa, ?_⟩
  · rw [scanNumber_eq hCurrent, hLoop, hConvert]
  · have hToken : done.tokenBuffer = b :: text := by
      rw [hBuffer, addCurrent_tokenBuffer, reset_tokenBuffer]
      change [] ++ lexer.current.toList ++ text = _
      rw [hCurrent]
      rfl
    rw [hValue, hToken]

/- What is scanned as a number is the text of one. -/
theorem of_scanNumber
    (hStart : b = 0x2D ∨ isDigit b = true)
    (hCurrent : lexer.current = some b)
    (hScan : lexer.scanNumber strtod = (type, lexer')) :
    type = .parseError ∨
      IsNumber type ∧ ∃ text,
        NumberText strtod (b :: text)
          (lexer'.scalar? type) ∧
        lexer.ia = text ++ lexer'.ia := by
  rw [scanNumber_eq hCurrent] at hScan
  rcases of_scanNumberLoop hScan with
    hError | ⟨text, numberType, done, hAccepts, hIa, hBuffer,
      hConvert⟩
  · exact .inl hError
  · rcases of_convertNumber hConvert with
      ⟨hNumber, hIa', hValue⟩
    have hToken : done.tokenBuffer = b :: text := by
      rw [hBuffer, addCurrent_tokenBuffer, reset_tokenBuffer]
      change [] ++ lexer.current.toList ++ text = _
      rw [hCurrent]
      rfl
    refine .inr ⟨hNumber, text, ?_, ?_⟩
    · rw [numberText_cons hStart, hValue, hToken]
      exact ⟨numberType, hAccepts, rfl⟩
    · rw [hIa']
      exact hIa

end Lexer

end Json

end Poker
