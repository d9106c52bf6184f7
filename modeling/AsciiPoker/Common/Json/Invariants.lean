import AsciiPoker.Common.Json.Tokens

/-
  What the lexer keeps, whatever it reads.

  The lexer changes its input, its place in it and the text
  of its token by `get`, by `get` and `unget`, and by `reset`
  at the start of a token.  A property that the first two and
  all other changes keep is kept by whatever runs between
  two calls of `reset`.

  Main declarations:
    * `Lexer.Kept`
    * `Lexer.Kept.skipWhitespace`, `Lexer.Kept.scanCurrent`
-/

namespace Poker

namespace Json

namespace Lexer

/- The lexers are at the same place in the same token. -/
structure SamePlace
    (lexer lexer' : Lexer) : Prop where
  ia : lexer'.ia = lexer.ia
  position : lexer'.position = lexer.position
  tokenString : lexer'.tokenString = lexer.tokenString

/- What `get` and `unget` keep, and depends on the place. -/
structure Kept
    (P : Lexer → Prop) : Prop where
  get : ∀ {lexer}, P lexer → P lexer.get
  unget : ∀ {lexer}, P lexer → P lexer.get.unget
  same : ∀ {lexer lexer'}, SamePlace lexer lexer' →
    P lexer → P lexer'

namespace Kept

variable {P : Lexer → Prop}
variable {lexer : Lexer}

/- A byte of the decoded text is none of the place. -/
theorem add
    (hKept : Kept P)
    (b : UInt8)
    (hP : P lexer) :
    P (lexer.add b) := by
  have hSame : SamePlace lexer (lexer.add b) :=
    ⟨rfl, rfl, rfl⟩
  exact hKept.same hSame hP

/- Neither is the byte that was just read. -/
theorem addCurrent
    (hKept : Kept P)
    (hP : P lexer) :
    P lexer.addCurrent := by
  have hSame : SamePlace lexer lexer.addCurrent :=
    ⟨rfl, rfl, rfl⟩
  exact hKept.same hSame hP

/- Nor are the bytes of an escaped character. -/
theorem addCodepoint
    (hKept : Kept P)
    (codepoint : Nat)
    (hP : P lexer) :
    P (lexer.addCodepoint codepoint) := by
  have hSame : SamePlace lexer (lexer.addCodepoint codepoint) :=
    ⟨rfl, rfl, rfl⟩
  exact hKept.same hSame hP

/- A failure stays where it is noticed. -/
theorem fail
    (hKept : Kept P)
    (message : String)
    (hP : P lexer) :
    P (lexer.fail message) := by
  have hSame : SamePlace lexer (lexer.fail message) :=
    ⟨rfl, rfl, rfl⟩
  exact hKept.same hSame hP

------------------------------------------------------------
-- Strings
------------------------------------------------------------

/- Each hexadecimal digit is one `get`. -/
theorem getCodepointLoop
    (hKept : Kept P)
    {factors : List Nat}
    {codepoint : Nat}
    (hP : P lexer) :
    P (getCodepointLoop factors codepoint lexer).2 := by
  induction factors generalizing codepoint lexer with
  | nil => exact hP
  | cons factor factors ih =>
      rw [Lexer.getCodepointLoop]
      split
      · exact ih (hKept.get hP)
      · exact hKept.get hP

/- Found or not, the four digits were only read. -/
theorem getCodepoint
    (hKept : Kept P)
    {found : Option Nat}
    {lexer' : Lexer}
    (hGet : lexer.getCodepoint = (found, lexer'))
    (hP : P lexer) :
    P lexer' := by
  have hAll : P lexer.getCodepoint.2 :=
    hKept.getCodepointLoop hP
  rw [hGet] at hAll
  exact hAll

/- The bytes that continue a character. -/
theorem nextByteInRangeLoop
    (hKept : Kept P)
    {ranges : List (UInt8 × UInt8)}
    (hP : P lexer) :
    P (nextByteInRangeLoop ranges lexer).2 := by
  induction ranges generalizing lexer with
  | nil => exact hP
  | cons range ranges ih =>
      rw [Lexer.nextByteInRangeLoop]
      split
      · exact ih (hKept.addCurrent (hKept.get hP))
      · exact hKept.fail _ (hKept.get hP)

/- The second half of a surrogate pair. -/
theorem scanLowSurrogate
    (hKept : Kept P)
    {codepoint1 : Nat}
    (hP : P lexer) :
    P (lexer.scanLowSurrogate codepoint1).2 := by
  unfold Lexer.scanLowSurrogate
  dsimp only
  have hFirst := hKept.get hP
  have hSecond := hKept.get hFirst
  split
  · exact hKept.fail _ hFirst
  · split
    · exact hKept.fail _ hSecond
    · split
      case h_1 hCodepoint =>
        exact hKept.fail _
          (hKept.getCodepoint hCodepoint hSecond)
      case h_2 hCodepoint =>
        have hThird := hKept.getCodepoint hCodepoint hSecond
        split
        · exact hKept.addCodepoint _ hThird
        · exact hKept.fail _ hThird

/- An escape by code point, of one half or of two. -/
theorem scanUnicode
    (hKept : Kept P)
    (hP : P lexer) :
    P lexer.scanUnicode.2 := by
  unfold Lexer.scanUnicode
  split
  case h_1 hCodepoint =>
    exact hKept.fail _ (hKept.getCodepoint hCodepoint hP)
  case h_2 hCodepoint =>
    have hFirst := hKept.getCodepoint hCodepoint hP
    split
    · exact hKept.scanLowSurrogate hFirst
    · split
      · exact hKept.fail _ hFirst
      · exact hKept.addCodepoint _ hFirst

/- An escape by letter, or by code point. -/
theorem scanEscape
    (hKept : Kept P)
    (hP : P lexer) :
    P lexer.scanEscape.2 := by
  unfold Lexer.scanEscape
  dsimp only
  have hGet := hKept.get hP
  split
  · exact hKept.scanUnicode hGet
  · split
    · exact hKept.add _ hGet
    · exact hKept.fail _ hGet

/- One character of a string, in each of its classes. -/
theorem scanStringTurn
    (hKept : Kept P)
    (hP : P lexer) :
    P lexer.scanStringTurn.2 := by
  unfold Lexer.scanStringTurn
  dsimp only
  have hGet := hKept.get hP
  split
  · exact hKept.fail _ hGet
  · split_ifs
    · exact hGet
    · exact hKept.scanEscape hGet
    · exact hKept.fail _ hGet
    · exact hKept.addCurrent hGet
    · split
      case h_1 ranges _ =>
        have hLoop : P (lexer.get.nextByteInRange ranges).2 :=
          hKept.nextByteInRangeLoop (hKept.addCurrent hGet)
        split
        case h_1 hNext =>
          rw [hNext] at hLoop
          exact hLoop
        case h_2 hNext =>
          rw [hNext] at hLoop
          exact hLoop
      case h_2 => exact hKept.fail _ hGet

/- By induction on the turns, each a character. -/
theorem scanStringLoop
    (hKept : Kept P)
    {turns : Nat}
    (hP : P lexer) :
    P (scanStringLoop turns lexer).2 := by
  induction turns generalizing lexer with
  | zero => exact hP
  | succ turns ih =>
      have hTurn := hKept.scanStringTurn hP
      rw [Lexer.scanStringLoop]
      split
      case h_1 hEnd =>
        rw [hEnd] at hTurn
        exact hTurn
      case h_2 hNext =>
        rw [hNext] at hTurn
        exact ih hTurn

------------------------------------------------------------
-- Other Tokens
------------------------------------------------------------

/- The digits are converted and nothing is read. -/
theorem convertNumber
    (hKept : Kept P)
    {strtod : Strtod}
    {type : TokenType}
    (hP : P lexer) :
    P (lexer.convertNumber strtod type).2 := by
  refine hKept.same ?_ hP
  unfold Lexer.convertNumber
  dsimp only
  split
  · split
    · exact ⟨rfl, rfl, rfl⟩
    · exact ⟨rfl, rfl, rfl⟩
  · split
    · exact ⟨rfl, rfl, rfl⟩
    · exact ⟨rfl, rfl, rfl⟩
  · exact ⟨rfl, rfl, rfl⟩

/- The byte that ends a number is given back. -/
theorem scanNumberLoop
    (hKept : Kept P)
    {strtod : Strtod}
    {turns : Nat}
    {state : NumberState}
    {type : TokenType}
    (hP : P lexer) :
    P (scanNumberLoop strtod turns state type lexer).2 := by
  induction turns generalizing lexer state type with
  | zero => exact hP
  | succ turns ih =>
      rw [Lexer.scanNumberLoop]
      split
      · exact ih (hKept.addCurrent (hKept.get hP))
      · split
        · exact hKept.fail _ (hKept.get hP)
        · exact hKept.convertNumber (hKept.unget hP)

/- The letters of `true`, `false` and `null`. -/
theorem scanLiteral
    (hKept : Kept P)
    {text : List UInt8}
    {type : TokenType}
    (hP : P lexer) :
    P (scanLiteral text type lexer).2 := by
  induction text generalizing lexer with
  | nil => exact hP
  | cons b text ih =>
      rw [Lexer.scanLiteral]
      split
      · exact ih (hKept.get hP)
      · exact hKept.fail _ (hKept.get hP)

/- By induction on the turns, each a blank. -/
theorem skipWhitespaceLoop
    (hKept : Kept P)
    {turns : Nat}
    (hP : P lexer) :
    P (skipWhitespaceLoop turns lexer) := by
  induction turns generalizing lexer with
  | zero => exact hKept.get hP
  | succ turns ih =>
      rw [Lexer.skipWhitespaceLoop]
      split
      · exact ih (hKept.get hP)
      · exact hKept.get hP

/- All blanks before a token. -/
theorem skipWhitespace
    (hKept : Kept P)
    (hP : P lexer) :
    P lexer.skipWhitespace :=
  hKept.skipWhitespaceLoop hP

/- The mark is read, or its first byte is given back. -/
theorem skipBom
    (hKept : Kept P)
    (hP : P lexer) :
    P lexer.skipBom.2 := by
  unfold Lexer.skipBom
  dsimp only
  have hFirst := hKept.get hP
  have hSecond := hKept.get hFirst
  split
  · split
    · exact hKept.get hSecond
    · exact hSecond
  · exact hKept.unget hP

/- A token keeps what a token that starts afresh has too. -/
theorem scanCurrent
    (hKept : Kept P)
    {strtod : Strtod}
    (hP : P lexer)
    (hReset : lexer.current.isSome → P lexer.reset) :
    P (lexer.scanCurrent strtod).2 := by
  unfold Lexer.scanCurrent
  split
  case h_1 => exact hP
  case h_2 b hCurrent =>
    have hStart : P lexer.reset :=
      hReset (by rw [hCurrent]; rfl)
    split
    case h_7 => exact hKept.scanLiteral hP
    case h_8 => exact hKept.scanLiteral hP
    case h_9 => exact hKept.scanLiteral hP
    case h_10 => exact hKept.scanStringLoop hStart
    case h_12 =>
      split
      · exact hKept.scanNumberLoop (hKept.addCurrent hStart)
      · exact hKept.fail _ hP
    all_goals exact hP

end Kept

------------------------------------------------------------
-- Lexers That Have Started
------------------------------------------------------------

/- Something has been read: no mark is expected any more. -/
def Started
    (lexer : Lexer) : Prop :=
  0 < lexer.position.charsReadTotal

/- One byte is enough. -/
theorem started_get
    (lexer : Lexer) :
    lexer.get.Started := by
  unfold Started
  rw [get_charsReadTotal]
  exact Nat.succ_pos _

/- What is given back counts no longer. -/
theorem unget_get_charsReadTotal
    (lexer : Lexer) :
    lexer.get.unget.position.charsReadTotal =
      lexer.position.charsReadTotal := by
  have hTotal := lexer.get_charsReadTotal
  unfold unget
  dsimp only
  split
  · exact Nat.sub_eq_of_eq_add hTotal
  · exact Nat.sub_eq_of_eq_add hTotal

/- A lexer that has started stays so. -/
theorem kept_started : Kept Started where
  get := fun _ => started_get _
  unget := by
    intro lexer hStarted
    unfold Started
    rw [unget_get_charsReadTotal]
    exact hStarted
  same := by
    intro lexer lexer' hSame hStarted
    unfold Started
    rw [hSame.position]
    exact hStarted

/- Skipping reads at least the byte that is no blank. -/
theorem started_skipWhitespace
    (lexer : Lexer) :
    lexer.skipWhitespace.Started := by
  unfold skipWhitespace
  cases lexer.ia.length with
  | zero => exact started_get lexer
  | succ turns =>
      rw [skipWhitespaceLoop]
      split
      · exact kept_started.skipWhitespaceLoop
          (started_get lexer)
      · exact started_get lexer

/- A mark that is broken has been read in part. -/
theorem started_skipBom
    {lexer : Lexer}
    (hBroken : lexer.skipBom.1 = false) :
    lexer.skipBom.2.Started := by
  revert hBroken
  unfold skipBom
  dsimp only
  intro hBroken
  split
  · split
    · exact started_get _
    · exact started_get _
  case isFalse hFirst =>
    rw [if_neg hFirst] at hBroken
    cases hBroken

/- So a token is never the first thing scanned. -/
theorem started_scanToken
    (strtod : Strtod)
    (lexer : Lexer) :
    (lexer.scanToken strtod).2.Started :=
  kept_started.scanCurrent (started_skipWhitespace lexer)
    fun _ => started_skipWhitespace lexer

/- From then on a scan is that of a token. -/
theorem Started.scan_eq
    {lexer : Lexer}
    {strtod : Strtod}
    (hStarted : lexer.Started) :
    lexer.scan strtod = lexer.scanToken strtod :=
  if_neg (Nat.ne_of_gt hStarted)

end Lexer

end Json

end Poker
