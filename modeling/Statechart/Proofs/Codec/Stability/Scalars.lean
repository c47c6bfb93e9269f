import Mathlib.Data.List.TakeWhile
import Mathlib.Logic.Basic
import Statechart.Json.Typed
import Statechart.Proofs.Results

/-!
# Stable reading of JSON scalars

A reader is stable when it does not look at what stands behind a value. Texts and literals are
read like this. A number is not: it ends where something follows that cannot belong to it. It is
still read in the same way as soon as anything follows.
-/

namespace Statechart
namespace Json

variable {α β : Type}

/-- What the reader takes it takes in the same way in front of anything else. -/
def Reader.IsStable (reader : Reader α) : Prop :=
  ∀ ⦃characters value rest⦄, reader characters = .ok (value, rest) →
    ∀ more, reader (characters ++ more) = .ok (value, rest ++ more)

/-- What the reader takes from in front of something it takes in the same way when more stands
behind that. A number is read like this: only what follows it shows where it ends. -/
def Reader.IsStableInside (reader : Reader α) : Prop :=
  ∀ ⦃characters value rest⦄, reader characters = .ok (value, rest) → rest ≠ [] →
    ∀ more, reader (characters ++ more) = .ok (value, rest ++ more)

namespace Reader

variable {reader : Reader α}

theorem IsStable.inside (stable : reader.IsStable) : reader.IsStableInside :=
  fun _ _ _ read _ => stable read

theorem IsStable.convert (stable : reader.IsStable) (conversion : α → Option β) :
    (reader.convert conversion).IsStable := by
  intro characters converted rest read more
  simp only [Reader.convert] at read
  split at read
  · cases read
  · next readValue =>
      split at read
      · cases read
      · next converts =>
          cases read
          simp [Reader.convert, stable readValue more, converts]

theorem IsStableInside.map (stable : reader.IsStableInside) (transform : α → β) :
    (reader.map transform).IsStableInside := by
  intro characters transformed rest read inside more
  simp only [Reader.map] at read
  split at read
  · cases read
  · next readValue =>
      cases read
      simp [Reader.map, stable readValue inside more]

/-- When the reader takes all of a text, it takes nothing once the text has lost its end. -/
theorem IsStable.exists_eq_error
    (stable : reader.IsStable)
    {kept lost : List Char}
    {value : α}
    (read : reader (kept ++ lost) = .ok (value, []))
    (isDamaged : lost ≠ []) :
    ∃ fault, reader kept = .error fault := by
  cases readKept : reader kept with
  | error fault => exact ⟨fault, rfl⟩
  | ok taken =>
      have same := (stable readKept lost).symm.trans read
      simp [isDamaged] at same

end Reader

/-! ## Blanks, literals and colons -/

/-- The first visible character is the same whatever follows. -/
theorem skipBlanks_append_of_eq_cons
    {characters others : List Char}
    {first : Char}
    (seen : skipBlanks characters = first :: others)
    (more : List Char) :
    skipBlanks (characters ++ more) = first :: (others ++ more) := by
  rw [skipBlanks] at seen ⊢
  rw [List.dropWhile_append, seen]
  rfl

theorem expect_append
    {letters characters rest : List Char}
    (taken : expect letters characters = .ok rest)
    (more : List Char) :
    expect letters (characters ++ more) = .ok (rest ++ more) := by
  induction letters generalizing characters with
  | nil =>
      cases taken
      rfl
  | cons letter letters inductionHypothesis =>
      cases characters with
      | nil => cases taken
      | cons character characters =>
          simp only [expect] at taken
          split at taken
          · next same =>
              rw [List.cons_append, expect, if_pos same]
              exact inductionHypothesis taken
          · cases taken

theorem skipColon_append
    {characters rest : List Char}
    (taken : skipColon characters = .ok rest)
    (more : List Char) :
    skipColon (characters ++ more) = .ok (rest ++ more) := by
  cases seen : skipBlanks characters with
  | nil => simp [skipColon, seen] at taken
  | cons first others =>
      simp only [skipColon, seen, skipBlanks_append_of_eq_cons seen more] at taken ⊢
      split at taken
      · next colon =>
          cases taken
          rw [if_pos colon]
      · cases taken

/-! ## Texts -/

theorem readCodeUnit_append
    {characters rest : List Char}
    {unit : Nat}
    (read : readCodeUnit characters = .ok (unit, rest))
    (more : List Char) :
    readCodeUnit (characters ++ more) = .ok (unit, rest ++ more) := by
  simp only [readCodeUnit] at read
  split at read
  · next fourBytes =>
      split at read
      · next first second third fourth others =>
          have fourBytesAll :
              hasFourBytes (first :: second :: third :: fourth :: (others ++ more)) = true :=
            fourBytes
          split at read
          · next a b c d =>
              cases read
              simp [readCodeUnit, fourBytesAll, a, b, c, d]
          · cases read
      · cases read
  · cases read

theorem readLowSurrogate_append
    {high : Nat}
    {characters rest : List Char}
    {character : Char}
    (read : readLowSurrogate high characters = .ok (character, rest))
    (more : List Char) :
    readLowSurrogate high (characters ++ more) = .ok (character, rest ++ more) := by
  match characters with
  | [] => cases read
  | [backslash] =>
      simp only [readLowSurrogate] at read
      split at read <;> cases read
  | backslash :: letter :: digits =>
      simp only [readLowSurrogate, List.cons_append] at read ⊢
      split at read
      · cases read
      · next isBackslash =>
          rw [if_neg isBackslash]
          split at read
          · cases read
          · next isLetter =>
              rw [if_neg isLetter]
              split at read
              · cases read
              · next low _ readUnit =>
                  rw [readCodeUnit_append readUnit]
                  split at read
                  · next isLow =>
                      simp only [Except.ok.injEq, Prod.mk.injEq] at read
                      obtain ⟨rfl, rfl⟩ := read
                      simp only [if_pos isLow]
                  · cases read

theorem readEscape_append
    {characters rest : List Char}
    {character : Char}
    (read : readEscape characters = .ok (character, rest))
    (more : List Char) :
    readEscape (characters ++ more) = .ok (character, rest ++ more) := by
  unfold readEscape at read
  split at read
  case h_1 | h_11 => cases read
  case h_10 digits =>
    split at read
    · cases read
    · next unit _ readUnit =>
        have readAll := readCodeUnit_append readUnit more
        split at read
        · cases read
        · next notLow =>
            split at read
            · next isHigh =>
                simp only [List.cons_append, readEscape, readAll, if_neg notLow, if_pos isHigh]
                exact readLowSurrogate_append read more
            · next notHigh =>
                cases read
                simp only [List.cons_append, readEscape, readAll, if_neg notLow, if_neg notHigh]
  -- Every other escape is a single letter.
  all_goals
    cases read
    rfl

theorem skipEscape_append
    {characters rest : List Char}
    (taken : skipEscape characters = .ok rest)
    (more : List Char) :
    skipEscape (characters ++ more) = .ok (rest ++ more) := by
  cases characters with
  | nil => cases taken
  | cons letter characters =>
      simp only [skipEscape, List.cons_append] at taken ⊢
      split at taken
      · next isUnit =>
          obtain ⟨⟨unit, _⟩, readUnit, same⟩ := map_eq_ok.mp taken
          cases same
          rw [if_pos isUnit, readCodeUnit_append readUnit]
          rfl
      · next notUnit =>
          rw [if_neg notUnit]
          split at taken
          · next isLetter =>
              cases taken
              rw [if_pos isLetter]
          · cases taken

/-- One step can be taken under a larger bound too. -/
theorem exists_eq_succ {bound larger : Nat} (le : bound + 1 ≤ larger) :
    ∃ smaller, larger = smaller + 1 ∧ bound ≤ smaller :=
  ⟨larger - 1, by omega, by omega⟩

/-- The characters of a text are the same whatever stands behind the closing quote. A larger bound
makes no difference. -/
theorem readBodyWithin_append
    {bound larger : Nat}
    (le : bound ≤ larger)
    {characters body rest : List Char}
    (read : readBodyWithin bound characters = .ok (body, rest))
    (more : List Char) :
    readBodyWithin larger (characters ++ more) = .ok (body, rest ++ more) := by
  induction bound generalizing larger characters body with
  | zero => cases read
  | succ bound inductionHypothesis =>
      obtain ⟨larger, rfl, within⟩ := exists_eq_succ le
      simp only [readBodyWithin] at read
      split at read
      · cases read
      · cases read
        rfl
      · obtain ⟨⟨character, _⟩, readFirst, read⟩ := bind_eq_ok.mp read
        obtain ⟨⟨others, _⟩, readOthers, same⟩ := bind_eq_ok.mp read
        cases same
        simp [readBodyWithin, readEscape_append readFirst, inductionHypothesis within readOthers,
          bind, Except.bind, pure, Except.pure]
      · next character characters notQuote notBackslash =>
          split at read
          · cases read
          · next visible =>
              obtain ⟨⟨others, _⟩, readOthers, same⟩ := bind_eq_ok.mp read
              cases same
              simp [readBodyWithin, visible, inductionHypothesis within readOthers,
                bind, Except.bind, pure, Except.pure]

theorem skipBodyWithin_append
    {bound larger : Nat}
    (le : bound ≤ larger)
    {characters rest : List Char}
    (taken : skipBodyWithin bound characters = .ok rest)
    (more : List Char) :
    skipBodyWithin larger (characters ++ more) = .ok (rest ++ more) := by
  induction bound generalizing larger characters with
  | zero => cases taken
  | succ bound inductionHypothesis =>
      obtain ⟨larger, rfl, within⟩ := exists_eq_succ le
      simp only [skipBodyWithin] at taken
      split at taken
      · cases taken
      · cases taken
        rfl
      · obtain ⟨_, skipFirst, taken⟩ := bind_eq_ok.mp taken
        simp [skipBodyWithin, skipEscape_append skipFirst, inductionHypothesis within taken,
          bind, Except.bind]
      · split at taken
        · cases taken
        · next visible =>
            simp [skipBodyWithin, visible, inductionHypothesis within taken]

theorem readBody_isStable : Reader.IsStable readBody := by
  intro characters text rest read more
  simp only [readBody] at read
  split at read
  · cases read
  · next body _ readWithin =>
      cases read
      have enough : characters.length + 1 ≤ (characters ++ more).length + 1 := by simp
      rw [readBody, readBodyWithin_append enough readWithin]

theorem skipBody_append
    {characters rest : List Char}
    (taken : skipBody characters = .ok rest)
    (more : List Char) :
    skipBody (characters ++ more) = .ok (rest ++ more) :=
  skipBodyWithin_append (by simp) taken more

theorem readText_isStable : readText.IsStable := by
  intro characters text rest read more
  simp only [readText] at read
  split at read
  · next seen =>
      rw [readText, skipBlanks_append_of_eq_cons seen]
      exact readBody_isStable read more
  · cases read

/-! ## Numbers -/

/-- A run of characters that something follows is the same whatever comes behind that. -/
theorem takeWhile_append_of_drop_ne_nil
    {property : Char → Bool}
    {characters : List Char}
    (ends : characters.drop (characters.takeWhile property).length ≠ [])
    (more : List Char) :
    (characters ++ more).takeWhile property = characters.takeWhile property := by
  rw [List.takeWhile_append, if_neg]
  intro all
  rw [all, List.drop_length] at ends
  exact ends rfl

/-- What is left behind the run has more behind it. -/
theorem drop_takeWhile_append
    (property : Char → Bool)
    (characters more : List Char) :
    (characters ++ more).drop (characters.takeWhile property).length =
      characters.drop (characters.takeWhile property).length ++ more :=
  List.drop_append_of_le_length (List.takeWhile_prefix property).length_le

/-- A number with an exponent has no natural value. -/
theorem readExponent_eq_other
    {significand : Nat}
    {scale : Int}
    {characters rest : List Char}
    {number : Number}
    (read : readExponent significand scale characters = .ok (number, rest)) :
    number = .other := by
  simp only [readExponent] at read
  split at read
  · cases read
  split at read
  · obtain ⟨_, tooLarge⟩ | ⟨_, taken⟩ := ite_eq_iff.mp read
    · cases tooLarge
    · cases taken
      rfl
  · cases read

theorem readTail_eq_other
    {significand : Nat}
    {scale : Int}
    {characters rest : List Char}
    {number : Number}
    (read : readTail significand scale characters = .ok (number, rest)) :
    number = .other := by
  unfold readTail at read
  split at read
  · exact readExponent_eq_other read
  · exact readExponent_eq_other read
  · split at read
    · cases read
    · cases read
      rfl

/-- Neither has a number with a fraction. -/
theorem readFraction_eq_other
    {significand : Nat}
    {scale : Int}
    {characters rest : List Char}
    {number : Number}
    (read : readFraction significand scale characters = .ok (number, rest)) :
    number = .other := by
  simp only [readFraction] at read
  split at read
  · split at read <;> cases read
  · exact readTail_eq_other read

/-- The digits of a natural number are all its digits once something follows them. -/
theorem readUnsigned_append
    {negative : Bool}
    {characters rest : List Char}
    {value : Nat}
    (read : readUnsigned negative characters = .ok (.natural value, rest))
    (inside : rest ≠ [])
    (more : List Char) :
    readUnsigned negative (characters ++ more) = .ok (.natural value, rest ++ more) := by
  have digitsAll := @takeWhile_append_of_drop_ne_nil Char.isDigit characters
  have restAll := drop_takeWhile_append Char.isDigit characters more
  simp only [readUnsigned] at read
  split at read
  · split at read <;> cases read
  · next first others digits =>
      rw [digits] at digitsAll restAll read
      split at read
      · cases read
      · next noLeadingZero =>
          split at read
          · cases readFraction_eq_other read
          · cases readTail_eq_other read
          · cases readTail_eq_other read
          · next notPoint notSmall notLarge =>
              split at read
              · next whole =>
                  simp only [Except.ok.injEq, Prod.mk.injEq] at read
                  obtain ⟨isNatural, rfl⟩ := read
                  obtain ⟨next, tail, follows⟩ := List.exists_cons_of_ne_nil inside
                  have noPoint : next ≠ '.' := fun same => notPoint tail (same ▸ follows)
                  have noSmall : next ≠ 'e' := fun same => notSmall tail (same ▸ follows)
                  have noLarge : next ≠ 'E' := fun same => notLarge tail (same ▸ follows)
                  simp only [readUnsigned, digitsAll inside, restAll, follows,
                    if_neg noLeadingZero, whole, isNatural, List.cons_append]
                  simp [noPoint, noSmall, noLarge]
              · cases readTail_eq_other read

theorem readNumber_append
    {characters rest : List Char}
    {value : Nat}
    (read : readNumber characters = .ok (.natural value, rest))
    (inside : rest ≠ [])
    (more : List Char) :
    readNumber (characters ++ more) = .ok (.natural value, rest ++ more) := by
  cases characters with
  | nil => cases read
  | cons first others =>
      by_cases minus : first = '-'
      · subst minus
        exact readUnsigned_append read inside more
      · have unsigned (behind : List Char) :
            readNumber (first :: behind) = readUnsigned false (first :: behind) := by
          simp [readNumber, minus]
        rw [unsigned] at read
        rw [List.cons_append, unsigned]
        exact readUnsigned_append read inside more

theorem readNatural_isStableInside (bound : Nat) : (readNatural bound).IsStableInside := by
  intro characters value rest read inside more
  cases seen : skipBlanks characters with
  | nil => simp [readNatural, seen] at read
  | cons first others =>
      simp only [readNatural, seen, skipBlanks_append_of_eq_cons seen] at read ⊢
      split at read
      · next isDigit =>
          rw [if_pos isDigit]
          split at read
          · cases read
          · next readDigits =>
              split at read
              · next below =>
                  cases read
                  have readAll := readNumber_append readDigits inside more
                  rw [List.cons_append] at readAll
                  simp only [readAll, if_pos below]
              · cases read
          · cases read
      · cases read

/-! ### Skipped numbers -/

/-- What is left behind a run of characters, when something is. -/
theorem dropWhile_append_of_ne_nil
    {property : Char → Bool}
    {characters : List Char}
    (inside : characters.dropWhile property ≠ [])
    (more : List Char) :
    (characters ++ more).dropWhile property = characters.dropWhile property ++ more := by
  rw [List.dropWhile_append, if_neg (by simpa using inside)]

theorem skipDigits_append
    {characters rest : List Char}
    (taken : skipDigits characters = .ok rest)
    (inside : rest ≠ [])
    (more : List Char) :
    skipDigits (characters ++ more) = .ok (rest ++ more) := by
  cases characters with
  | nil => cases taken
  | cons first others =>
      by_cases isDigit : first.isDigit
      · have skipped (behind : List Char) : skipDigits (first :: behind) =
            .ok ((first :: behind).dropWhile Char.isDigit) := by
          simp [skipDigits, isDigit]
        rw [skipped] at taken
        cases taken
        rw [List.cons_append, skipped, ← List.cons_append, dropWhile_append_of_ne_nil inside]
      · simp [skipDigits, isDigit] at taken

theorem skipExponent_append
    {characters rest : List Char}
    (taken : skipExponent characters = .ok rest)
    (inside : rest ≠ [])
    (more : List Char) :
    skipExponent (characters ++ more) = .ok (rest ++ more) := by
  unfold skipExponent at taken
  split at taken
  · exact skipDigits_append taken inside more
  · exact skipDigits_append taken inside more
  · next notPlus notMinus =>
      cases characters with
      | nil => cases taken
      | cons first others =>
          have plus : first ≠ '+' := fun same => notPlus others (same ▸ rfl)
          have minus : first ≠ '-' := fun same => notMinus others (same ▸ rfl)
          simpa [skipExponent, plus, minus] using skipDigits_append taken inside more

theorem skipNumberTail_append
    {characters rest : List Char}
    (taken : skipNumberTail characters = .ok rest)
    (inside : rest ≠ [])
    (more : List Char) :
    skipNumberTail (characters ++ more) = .ok (rest ++ more) := by
  unfold skipNumberTail at taken
  split at taken
  · split at taken
    · cases taken
    · next skipped => 
      have skippedAll := skipDigits_append skipped (by simp) more
      simpa [skipNumberTail, skippedAll] using skipExponent_append taken inside more
    · next skipped => 
      have skippedAll := skipDigits_append skipped (by simp) more
      simpa [skipNumberTail, skippedAll] using skipExponent_append taken inside more
    · next notSmall notLarge skipped =>
      cases taken
      have skippedAll := skipDigits_append skipped inside more
      obtain ⟨next, tail, rfl⟩ := List.exists_cons_of_ne_nil inside
      have small : next ≠ 'e' := fun same => notSmall tail (same ▸ rfl)
      have large : next ≠ 'E' := fun same => notLarge tail (same ▸ rfl)
      simp [skipNumberTail, skippedAll, small, large]
  · exact skipExponent_append taken inside more
  · exact skipExponent_append taken inside more
  · next notPoint notSmall notLarge =>
      cases taken
      obtain ⟨next, tail, rfl⟩ := List.exists_cons_of_ne_nil inside
      have point : next ≠ '.' := fun same => notPoint tail (same ▸ rfl)
      have small : next ≠ 'e' := fun same => notSmall tail (same ▸ rfl)
      have large : next ≠ 'E' := fun same => notLarge tail (same ▸ rfl)
      simp [skipNumberTail, point, small, large]

theorem skipNumber_append
    {characters rest : List Char}
    (taken : skipNumber characters = .ok rest)
    (inside : rest ≠ [])
    (more : List Char) :
    skipNumber (characters ++ more) = .ok (rest ++ more) := by
  unfold skipNumber at taken
  split at taken
  · next others =>
      cases others with
      | nil =>
          cases taken
          contradiction
      | cons second others =>
          split at taken
          · cases taken
          · next single =>
              have zero (behind : List Char) :
                  skipNumber ('0' :: second :: behind) = skipNumberTail (second :: behind) :=
                if_neg single
              exact (zero _).trans (skipNumberTail_append taken inside more)
  · next notZero =>
      split at taken
      · cases taken
      · next behind skipped =>
          have continues : behind ≠ [] := by
            rintro rfl
            cases taken
            contradiction
          cases characters with
          | nil => cases skipped
          | cons first others =>
              have zero : first ≠ '0' := fun same => notZero others (same ▸ rfl)
              have skippedAll := skipDigits_append skipped continues more
              rw [List.cons_append] at skippedAll
              simpa [skipNumber, zero, skippedAll] using skipNumberTail_append taken inside more

end Json
end Statechart
