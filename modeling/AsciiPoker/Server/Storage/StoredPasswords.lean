import AsciiPoker.Server.Storage.RecordFields

/-
  Checking a password against a stored one.

  What `hash` stores, `verify` accepts for just the
  passwords of the same key.  Of other texts `verify` takes
  more than it should: its number field may throw, and its
  pairs need not be two digits.

  Main declarations:
    * `Opens`, `verifyText_of_fields`
    * `KeyDerivation.Fills`, `hashText_verifies`
    * `WellFormed`, `Sound`
    * `Harmless`, `HarmlessFor`, `sound_iff_harmless`
-/

namespace Poker

namespace Server

/- A key that is derived is a whole one. -/
def KeyDerivation.Fills
    {Password : Type}
    (derive : KeyDerivation Password) : Prop :=
  ∀ password salt count key,
    derive password salt count = some key →
      key.length = PasswordHasher.hashBytes

namespace PasswordHasher

variable {Password : Type}
variable {derive : KeyDerivation Password}
variable {password candidate : Password}
variable {salt key : List UInt8}
variable {value : Int}
variable {text stored count saltHex hashHex : List Char}

------------------------------------------------------------
-- Outcomes of `verify`
------------------------------------------------------------

/-
  The salt and the key of a record are read, and the
  candidate's key is the one that was read.
-/
def Opens
    (derive : KeyDerivation Password)
    (candidate : Password)
    (value : Int)
    (saltHex hashHex : List Char) : Prop :=
  ∃ salt expected,
    fromHex saltHex = some salt ∧
      fromHex hashHex = some expected ∧
      expected.length = hashBytes ∧
      derive candidate salt value = some expected

/- A text of another form is no stored password. -/
theorem verifyText_of_other
    (hOther : ∀ count saltHex hashHex,
      ¬ Fields text scheme count saltHex hashHex) :
    verifyText derive candidate text = .ok false := by
  unfold verifyText
  split
  · rfl
  next kind count saltHex hashHex hSplit =>
    rw [splitStored_eq_some] at hSplit
    apply if_pos
    rintro rfl
    exact hOther count saltHex hashHex hSplit

/- What `std::stoi` throws, nothing catches. -/
theorem verifyText_of_unread
    {exn : Exn}
    (hFields : Fields text scheme count saltHex hashHex)
    (hCount : stoi count = .error exn) :
    verifyText derive candidate text = .error exn := by
  unfold verifyText
  rw [splitStored_eq_some.mpr hFields]
  dsimp only
  rw [if_neg (not_not.mpr rfl), hCount]
  rfl

/- A record whose number is read opens or does not open. -/
theorem verifyText_of_fields
    (hFields : Fields text scheme count saltHex hashHex)
    (hCount : stoi count = .ok value) :
    ∃ answer, verifyText derive candidate text = .ok answer ∧
      (answer = true ↔
        Opens derive candidate value saltHex hashHex) := by
  unfold verifyText
  rw [splitStored_eq_some.mpr hFields]
  dsimp only
  rw [if_neg (not_not.mpr rfl), hCount]
  dsimp only [bind, Except.bind]
  split
  next salt expected hSalt hHash =>
    have hOpens : Opens derive candidate value saltHex
          hashHex ↔ expected.length = hashBytes ∧
        derive candidate salt value = some expected := by
      unfold Opens
      simp [hSalt, hHash]
    rw [hOpens]
    by_cases hLength : expected.length = hashBytes
    · rw [if_neg (not_not.mpr hLength)]
      cases hKey : derive candidate salt value with
      | none => exact ⟨false, rfl, by simp⟩
      | some actual =>
          refine ⟨decide (actual = expected), rfl, ?_⟩
          simp [hLength]
    · rw [if_pos hLength]
      exact ⟨false, rfl, by simp [hLength]⟩
  next hNone =>
    refine ⟨false, rfl, ?_⟩
    refine iff_of_false Bool.false_ne_true ?_
    rintro ⟨salt, expected, hSalt, hHash, _⟩
    exact hNone salt expected hSalt hHash

------------------------------------------------------------
-- Round Trip
------------------------------------------------------------

/- No digit is the separator. -/
theorem dollar_notMem
    (hDigits : ∀ c ∈ text, HexDigit c) :
    '$' ∉ text :=
  fun hMem => absurd (hDigits _ hMem) (by decide)

/- `hash` stores four fields, and they can be told apart. -/
theorem fields_of_hashText
    (hHash : hashText derive password salt = .ok stored) :
    ∃ key, derive password salt iterations = some key ∧
      Fields stored scheme (toString iterations).toList
        (toHex salt) (toHex key) := by
  unfold hashText at hHash
  cases hKey : derive password salt iterations with
  | none =>
      rw [hKey] at hHash
      cases hHash
  | some key =>
      rw [hKey] at hHash
      cases hHash
      exact ⟨key, rfl, rfl, by decide, by decide,
        dollar_notMem (toHex_hexDigit salt)⟩

/- What `hash` stores opens for the same key. -/
theorem verifyText_hashText
    (hFills : derive.Fills)
    (hHash : hashText derive password salt = .ok stored) :
    verifyText derive candidate stored =
      .ok (decide (derive candidate salt iterations =
        derive password salt iterations)) := by
  rcases fields_of_hashText hHash with ⟨key, hKey, hFields⟩
  have hCount : stoi (toString iterations).toList =
      .ok iterations := by
    decide
  rcases verifyText_of_fields hFields hCount with
    ⟨answer, hAnswer, hOpens⟩
  rw [hAnswer, Except.ok.injEq, Bool.eq_iff_iff, hOpens,
    decide_eq_true_iff, hKey]
  unfold Opens
  rw [fromHex_toHex, fromHex_toHex]
  simp [hFills _ _ _ _ hKey]

/- The same of strings. -/
theorem verify_of_hash
    {pbkdf2 : Pbkdf2}
    {password candidate stored : String}
    (hFills : KeyDerivation.Fills pbkdf2)
    (hHash : hash pbkdf2 password salt = .ok stored) :
    verify pbkdf2 candidate stored =
      .ok (decide (pbkdf2 candidate salt iterations =
        pbkdf2 password salt iterations)) := by
  unfold hash at hHash
  cases hText : hashText pbkdf2 password salt with
  | error exn =>
      rw [hText] at hHash
      cases hHash
  | ok text =>
      rw [hText] at hHash
      cases hHash
      rcases fields_of_hashText hText with ⟨key, _, hFields⟩
      have hAscii : ∀ c ∈ text, c.toNat < 128 := by
        rw [hFields.text_eq]
        simp only [List.forall_mem_append, List.forall_mem_cons]
        have hHex : ∀ data, ∀ c ∈ toHex data, c.toNat < 128 :=
          fun data c hc =>
            ascii_of_hexDigit (toHex_hexDigit data c hc)
        have hScheme : (scheme.all fun c => c.toNat < 128) =
            true := by
          decide
        have hCount : ((toString iterations).toList.all
            fun c => c.toNat < 128) = true := by
          decide
        simp only [List.all_eq_true, decide_eq_true_eq]
          at hScheme hCount
        exact ⟨⟨⟨hScheme, by decide, hCount⟩, by decide,
          hHex salt⟩, by decide, hHex key⟩
      unfold verify
      rw [chars_ofList hAscii]
      exact verifyText_hashText hFills hText

/-
  Every password that is stored can be used again, and no
  other password but one of the same key.  The fields of the
  record are told apart, and its bytes are written as the
  stream formats them and read back.
-/
theorem hashText_verifies
    (hFills : derive.Fills)
    (hHash : hashText derive password salt = .ok stored) :
    (∀ candidate, verifyText derive candidate stored =
        .ok (decide (derive candidate salt iterations =
          derive password salt iterations))) ∧
      verifyText derive password stored = .ok true ∧
      (∃ key, derive password salt iterations = some key ∧
        splitStored stored = some (scheme, "100000".toList,
          toHex salt, toHex key)) ∧
      ∀ data, fromHex (toHex data) = some data ∧
        toHex data = data.flatMap fun byte =>
          (Nat.toDigits 16 byte.toNat).leftpad 2 '0' := by
  refine ⟨?_, ?_, ?_, ?_⟩
  · exact fun _ => verifyText_hashText hFills hHash
  · rw [verifyText_hashText hFills hHash, decide_eq_true rfl]
  · rcases fields_of_hashText hHash with ⟨key, hKey, hFields⟩
    exact ⟨key, hKey, splitStored_eq_some.mpr hFields⟩
  · exact fun data => ⟨fromHex_toHex data,
      toHex_eq_formatted data⟩

/- A salt that OpenSSL may draw: the bytes from 0 to 15. -/
def countingSalt : List UInt8 :=
  (List.range saltBytes).map UInt8.ofNat

/- Two keys of OpenSSL with this salt. -/
def countingKeys : Pbkdf2 := fun password drawn count =>
  if drawn ≠ countingSalt ∨ count ≠ iterations then
    none
  else if password = "secret1" then
    fromHex ("51f7afaa8339e6a3fbb0dde49171c3c1" ++
      "dc6d4547dcf8ca00135643da938534c7").toList
  else if password = "secret2" then
    fromHex ("b5e2ca13c695aaaa998685f67c153345" ++
      "48a91ba6b6d64fee32e8985ac70eeacf").toList
  else
    none

theorem countingKeys_fills :
    KeyDerivation.Fills countingKeys := by
  intro password drawn count key hKey
  unfold countingKeys at hKey
  split at hKey
  · cases hKey
  split at hKey
  · have hLength := fromHex_length hKey
    change 64 = 2 * key.length at hLength
    change key.length = 32
    omega
  split at hKey
  · have hLength := fromHex_length hKey
    change 64 = 2 * key.length at hLength
    change key.length = 32
    omega
  · cases hKey

/- One password opens its record, and another does not. -/
theorem countingKeys_verifies :
    ∃ stored,
      hashText countingKeys "secret1" countingSalt =
        .ok stored ∧
      verifyText countingKeys "secret1" stored = .ok true ∧
      verifyText countingKeys "secret2" stored =
        .ok false := by
  have hDiffer : countingKeys "secret2" countingSalt
        iterations ≠
      countingKeys "secret1" countingSalt iterations := by
    decide +kernel
  have hSome : (countingKeys "secret1" countingSalt
      iterations).isSome := by
    decide +kernel
  rcases Option.isSome_iff_exists.mp hSome with ⟨key, hKey⟩
  have hHash : ∃ stored,
      hashText countingKeys "secret1" countingSalt =
        .ok stored := by
    unfold hashText
    rw [hKey]
    exact ⟨_, rfl⟩
  rcases hHash with ⟨stored, hHash⟩
  have hVerifies := hashText_verifies countingKeys_fills hHash
  refine ⟨stored, hHash, hVerifies.2.1, ?_⟩
  rw [hVerifies.1, decide_eq_false hDiffer]

------------------------------------------------------------
-- Malformed Records
------------------------------------------------------------

/- Decimal digits, and hexadecimal digits. -/
def Strict
    (count saltHex hashHex : List Char) : Prop :=
  (∀ c ∈ count, c.isDigit) ∧
    (∀ c ∈ saltHex, HexDigit c) ∧
    ∀ c ∈ hashHex, HexDigit c

/- The form of a stored password. -/
def WellFormed
    (text : List Char) : Prop :=
  ∃ count saltHex hashHex,
    text = scheme ++ '$' :: count ++ '$' :: saltHex ++
        '$' :: hashHex ∧
      Strict count saltHex hashHex ∧
      count ≠ [] ∧ saltHex.length % 2 = 0 ∧
      hashHex.length = 64

/- `verify` answers, and accepts nothing malformed. -/
def Sound
    (derive : KeyDerivation Password)
    (candidate : Password)
    (text : List Char) : Prop :=
  (∃ answer, verifyText derive candidate text = .ok answer) ∧
    (verifyText derive candidate text = .ok true →
      WellFormed text)

/-
  The number of a record is one that `std::stoi` reads, and
  if everything else is read too, it is digits.
-/
def Harmless
    (text : List Char) : Prop :=
  ∀ count saltHex hashHex,
    Fields text scheme count saltHex hashHex →
      (∃ value, Counts count value) ∧
        (Scanning.Pairs ReadsPair saltHex →
          Scanning.Pairs ReadsPair hashHex →
          hashHex.length = 64 →
            Strict count saltHex hashHex)

/-
  The same for one candidate.  A record of other things than
  digits does no harm if it does not open for him.
-/
def HarmlessFor
    (derive : KeyDerivation Password)
    (candidate : Password)
    (text : List Char) : Prop :=
  ∀ count saltHex hashHex,
    Fields text scheme count saltHex hashHex →
      ∃ value, Counts count value ∧
        (Strict count saltHex hashHex ∨
          ¬ Opens derive candidate value saltHex hashHex)

theorem Counts.ne_nil
    (hCounts : Counts text value) :
    text ≠ [] := by
  rcases hCounts with ⟨_, _, hNumeral⟩
  rcases hNumeral.starts with ⟨rest, rfl, _⟩
  simp [hNumeral.digits_ne_nil]

/- A record has the form just when its fields do. -/
theorem wellFormed_iff_strict
    (hFields : Fields text scheme count saltHex hashHex) :
    WellFormed text ↔
      Strict count saltHex hashHex ∧
        count ≠ [] ∧ saltHex.length % 2 = 0 ∧
        hashHex.length = 64 := by
  constructor
  · rintro ⟨count', saltHex', hashHex', hText, hStrict, hRest⟩
    have hFields' :
        Fields text scheme count' saltHex' hashHex' := by
      refine ⟨hText, by decide, ?_, dollar_notMem hStrict.2.1⟩
      intro hMem
      exact absurd (hStrict.1 _ hMem) (by decide)
    have hSame := (splitStored_eq_some.mpr hFields).symm.trans
      (splitStored_eq_some.mpr hFields')
    cases hSame
    exact ⟨hStrict, hRest⟩
  · rintro ⟨hStrict, hRest⟩
    exact ⟨count, saltHex, hashHex, hFields.text_eq, hStrict,
      hRest⟩

/- What opens has the form if its fields are digits. -/
theorem wellFormed_of_opens
    (hFields : Fields text scheme count saltHex hashHex)
    (hCounts : Counts count value)
    (hOpens : Opens derive candidate value saltHex hashHex) :
    WellFormed text ↔ Strict count saltHex hashHex := by
  rcases hOpens with
    ⟨salt, expected, hSalt, hHash, hLength, _⟩
  have hEven := fromHex_length hSalt
  have hKey := fromHex_length hHash
  rw [hLength] at hKey
  rw [wellFormed_iff_strict hFields]
  constructor
  · exact And.left
  · intro hStrict
    exact ⟨hStrict, hCounts.ne_nil, by omega, hKey⟩

/- One candidate. -/
theorem sound_iff_harmlessFor :
    Sound derive candidate text ↔
      HarmlessFor derive candidate text := by
  constructor
  · rintro ⟨⟨answer, hAnswer⟩, hAccepts⟩ count saltHex hashHex
      hFields
    cases hCount : stoi count with
    | error exn =>
        rw [verifyText_of_unread hFields hCount] at hAnswer
        cases hAnswer
    | ok value =>
        have hCounts := stoi_eq_ok.mp hCount
        refine ⟨value, hCounts, ?_⟩
        by_cases hOpens :
            Opens derive candidate value saltHex hashHex
        · left
          rw [← wellFormed_of_opens hFields hCounts hOpens]
          apply hAccepts
          rcases verifyText_of_fields hFields hCount with
            ⟨given, hGiven, hIff⟩
          rw [hGiven, hIff.mpr hOpens]
        · exact Or.inr hOpens
  · intro hHarmless
    by_cases hRecord : ∃ count saltHex hashHex,
        Fields text scheme count saltHex hashHex
    · rcases hRecord with ⟨count, saltHex, hashHex, hFields⟩
      rcases hHarmless count saltHex hashHex hFields with
        ⟨value, hCounts, hEither⟩
      rcases verifyText_of_fields hFields
          (stoi_eq_ok.mpr hCounts) with
        ⟨answer, hAnswer, hIff⟩
      refine ⟨⟨answer, hAnswer⟩, ?_⟩
      intro hTrue
      rw [hAnswer, Except.ok.injEq] at hTrue
      have hOpens := hIff.mp hTrue
      rw [wellFormed_of_opens hFields hCounts hOpens]
      exact hEither.resolve_right (not_not.mpr hOpens)
    · have hFalse : verifyText derive candidate text =
          .ok false := by
        apply verifyText_of_other
        intro count saltHex hashHex hFields
        exact hRecord ⟨count, saltHex, hashHex, hFields⟩
      refine ⟨⟨false, hFalse⟩, ?_⟩
      intro hTrue
      rw [hFalse] at hTrue
      cases hTrue

/- Fields that are read open for somebody. -/
theorem exists_opens
    (value : Int)
    (hSalt : Scanning.Pairs ReadsPair saltHex)
    (hHash : Scanning.Pairs ReadsPair hashHex)
    (hLength : hashHex.length = 64) :
    ∃ derive : KeyDerivation Unit,
      Opens derive () value saltHex hashHex := by
  rcases Option.isSome_iff_exists.mp
    (fromHex_isSome.mpr hSalt) with ⟨salt, hSalt⟩
  rcases Option.isSome_iff_exists.mp
    (fromHex_isSome.mpr hHash) with ⟨expected, hHash⟩
  have hKey := fromHex_length hHash
  refine ⟨fun _ _ _ => some expected, salt, expected, hSalt,
    hHash, ?_, rfl⟩
  change expected.length = 32
  omega

/- A record is harmless when no candidate is harmed. -/
theorem harmless_iff :
    Harmless text ↔
      ∀ (Password : Type) (derive : KeyDerivation Password)
        (candidate : Password),
        HarmlessFor derive candidate text := by
  constructor
  · intro hHarmless Password derive candidate count saltHex
      hashHex hFields
    rcases hHarmless count saltHex hashHex hFields with
      ⟨⟨value, hCounts⟩, hStrict⟩
    refine ⟨value, hCounts, ?_⟩
    by_cases hOpens :
        Opens derive candidate value saltHex hashHex
    · left
      rcases hOpens with
        ⟨salt, expected, hSalt, hHash, hLength, _⟩
      have hKey := fromHex_length hHash
      rw [hLength] at hKey
      exact hStrict
        (fromHex_isSome.mp (by rw [hSalt]; rfl))
        (fromHex_isSome.mp (by rw [hHash]; rfl)) hKey
    · exact Or.inr hOpens
  · intro hAll count saltHex hashHex hFields
    rcases hAll Unit (fun _ _ _ => none) () count saltHex
      hashHex hFields with ⟨value, hCounts, _⟩
    refine ⟨⟨value, hCounts⟩, ?_⟩
    intro hSalt hHash hLength
    rcases exists_opens value hSalt hHash hLength with
      ⟨derive, hOpens⟩
    rcases hAll Unit derive () count saltHex hashHex hFields
      with ⟨other, hOther, hEither⟩
    have hSame : other = value := by
      have hBoth := (stoi_eq_ok.mpr hOther).symm.trans
        (stoi_eq_ok.mpr hCounts)
      exact Except.ok.inj hBoth
    subst hSame
    exact hEither.resolve_right (not_not.mpr hOpens)

/-
  When `verify` answers and accepts nothing malformed: for
  one candidate, and for a record whoever tries it.
-/
theorem sound_iff_harmless
    (text : List Char) :
    (∀ (Password : Type) (derive : KeyDerivation Password)
        (candidate : Password),
        Sound derive candidate text ↔
          HarmlessFor derive candidate text) ∧
      ((∀ (Password : Type) (derive : KeyDerivation Password)
          (candidate : Password),
          Sound derive candidate text) ↔
        Harmless text) := by
  refine ⟨fun _ _ _ => sound_iff_harmlessFor, ?_⟩
  rw [harmless_iff]
  simp only [sound_iff_harmlessFor]

/- A record whose number is a word. -/
def wordCount : List Char :=
  scheme ++ "$many$00$".toList ++ List.replicate 64 '0'

/-
  A record of the first password above, with a blank, a sign
  and a letter where `hash` has digits.
-/
def laxRecord : List Char :=
  scheme ++ "$100000x$ 0+102030405060708090a0b0c0d0e0f$".toList ++
    ("51f7afaa8339e6a3fbb0dde49171c3c1" ++
      "dc6d4547dcf8ca00135643da938534c7").toList

/-
  With the first record every attempt throws, and the second
  one opens.
-/
theorem wordCount_laxRecord_unsound :
    (∀ (pbkdf2 : Pbkdf2) (candidate : String),
        verifyText pbkdf2 candidate wordCount =
            .error .invalidArgument ∧
          ¬ Sound pbkdf2 candidate wordCount) ∧
      verifyText countingKeys "secret1" laxRecord = .ok true ∧
      ¬ Sound countingKeys "secret1" laxRecord := by
  have hWord : Fields wordCount scheme "many".toList
      "00".toList (List.replicate 64 '0') :=
    splitStored_eq_some.mp (by decide +kernel)
  have hLax : Fields laxRecord scheme "100000x".toList
      " 0+102030405060708090a0b0c0d0e0f".toList
      ("51f7afaa8339e6a3fbb0dde49171c3c1" ++
        "dc6d4547dcf8ca00135643da938534c7").toList :=
    splitStored_eq_some.mp (by decide +kernel)
  have hTrue : verifyText countingKeys "secret1" laxRecord =
      .ok true := by
    decide +kernel
  refine ⟨?_, hTrue, ?_⟩
  · intro pbkdf2 candidate
    have hThrows : verifyText pbkdf2 candidate wordCount =
        .error .invalidArgument :=
      verifyText_of_unread hWord (by decide)
    refine ⟨hThrows, ?_⟩
    rintro ⟨⟨answer, hAnswer⟩, _⟩
    rw [hThrows] at hAnswer
    cases hAnswer
  · rintro ⟨_, hAccepts⟩
    have hStrict := ((wellFormed_iff_strict hLax).mp
      (hAccepts hTrue)).1
    exact absurd (hStrict.1 'x' (by simp)) (by decide)

end PasswordHasher

end Server

end Poker
