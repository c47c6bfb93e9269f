import Statechart.Json.Typed
import Statechart.Proofs.Codec.Digits

/-!
# Reading back JSON scalars

Texts, natural numbers and optional values are read back from their written form, with any
blanks in front. A number only ends where something follows that cannot belong to it, so
every value is read in front of what may follow a value in a document.
-/

namespace Statechart
namespace Json

variable {α β : Type}

/-- What may follow a value in a document: nothing, a blank, a comma or a closing bracket. -/
def EndsValue (rest : List Char) : Prop :=
  ∀ character ∈ rest.head?,
    isBlank character ∨ character = ',' ∨ character = ']' ∨ character = '\x7d'

/-- A value can start with anything but a blank, a comma or a closing bracket. -/
def StartsValue (character : Char) : Prop :=
  isBlank character = false ∧ character ≠ ',' ∧ character ≠ ']'

/-- The reader takes exactly the written text, behind any blanks and in front of anything
that may follow a value, and makes the value of it. -/
structure Reader.TakesBack
    (reader : Reader α)
    (written : List Char)
    (value : α) : Prop where
  /-- The text starts like a value. -/
  starts : ∃ first others, written = first :: others ∧ StartsValue first
  /-- The text is taken and nothing else. -/
  eq : ∀ {blanks rest : List Char}, blanks.all isBlank → EndsValue rest →
    reader (blanks ++ (written ++ rest)) = .ok (value, rest)

theorem skipBlanks_append
    {blanks : List Char}
    (areBlanks : blanks.all isBlank)
    {first : Char}
    (visible : isBlank first = false)
    (others : List Char) :
    skipBlanks (blanks ++ first :: others) = first :: others := by
  rw [skipBlanks, List.dropWhile_append_of_pos (List.all_eq_true.mp areBlanks),
    List.dropWhile_cons_of_neg (by simp [visible])]

namespace Reader.TakesBack

variable
  {reader : Reader α}
  {written : List Char}
  {value : α}

theorem map
    (takesBack : reader.TakesBack written value)
    (transform : α → β) :
    (reader.map transform).TakesBack written (transform value) where
  starts := takesBack.starts
  eq areBlanks ends := by simp [Reader.map, takesBack.eq areBlanks ends]

theorem convert
    (takesBack : reader.TakesBack written value)
    {conversion : α → Option β}
    {converted : β}
    (converts : conversion value = some converted) :
    (reader.convert conversion).TakesBack written converted where
  starts := takesBack.starts
  eq areBlanks ends := by simp [Reader.convert, takesBack.eq areBlanks ends, converts]

/-- Without blanks in front. -/
theorem front
    (takesBack : reader.TakesBack written value)
    {rest : List Char}
    (ends : EndsValue rest) :
    reader (written ++ rest) = .ok (value, rest) := by
  rw [← List.nil_append (written ++ rest)]
  exact takesBack.eq rfl ends

/-- With nothing around it. -/
theorem alone (takesBack : reader.TakesBack written value) :
    reader written = .ok (value, []) := by
  have ends : EndsValue [] := by simp [EndsValue]
  simpa using takesBack.front ends

/-- What is written decides what is read. -/
theorem value_eq
    (takesBack : reader.TakesBack written value)
    {other : α}
    (takesBackOther : reader.TakesBack written other) :
    value = other := by
  have same := takesBack.alone.symm.trans takesBackOther.alone
  simpa using same

end Reader.TakesBack

/-! ## Texts -/

/-- The four digits of a control character are its code. -/
theorem readCodeUnit_control
    {code : Nat}
    (control : code < 0x20)
    (rest : List Char) :
    readCodeUnit (List.replicate (4 - (Nat.toDigits 16 code).length) '0' ++
      Nat.toDigits 16 code ++ rest) = .ok (code, rest) := by
  interval_cases code <;> rfl

/-- The escape of a control character stands for it. -/
theorem readEscape_control
    {character : Char}
    (control : character.toNat < 0x20)
    (rest : List Char) :
    readEscape ('u' :: (List.replicate (4 - (Nat.toDigits 16 character.toNat).length) '0' ++
      Nat.toDigits 16 character.toNat ++ rest)) = .ok (character, rest) := by
  have low : ¬ (0xdc00 ≤ character.toNat ∧ character.toNat ≤ 0xdfff) := by omega
  have high : ¬ (0xd800 ≤ character.toNat ∧ character.toNat ≤ 0xdbff) := by omega
  simp only [readEscape, readCodeUnit_control control, if_neg low, if_neg high,
    Char.ofNat_toNat]

/-- An escape is read in one step. -/
theorem readBodyWithin_of_readEscape
    {bound : Nat}
    {escaped tail others rest : List Char}
    {character : Char}
    (escape : readEscape escaped = .ok (character, tail))
    (read : readBodyWithin bound tail = .ok (others, rest)) :
    readBodyWithin (bound + 1) ('\\' :: escaped) = .ok (character :: others, rest) := by
  simp [readBodyWithin, escape, read, bind, Except.bind, pure, Except.pure]

/-- One written character is read in one step. -/
theorem readBodyWithin_escape
    {bound : Nat}
    {tail others rest : List Char}
    (read : readBodyWithin bound tail = .ok (others, rest))
    (character : Char) :
    readBodyWithin (bound + 1) (escape character ++ tail) =
      .ok (character :: others, rest) := by
  by_cases short : character ∈ ['"', '\\', '\x08', '\x0c', '\n', '\r', '\t']
  · simp only [List.mem_cons, List.not_mem_nil, or_false] at short
    rcases short with rfl | rfl | rfl | rfl | rfl | rfl | rfl <;>
      exact readBodyWithin_of_readEscape rfl read
  · simp only [List.mem_cons, List.not_mem_nil, or_false, not_or] at short
    obtain ⟨notQuote, notBackslash, notBackspace, notFeed, notLine, notReturn, notTab⟩ := short
    by_cases control : character.toNat < 0x20
    · have digits := readEscape_control control tail
      simpa [escape, notQuote, notBackslash, notBackspace, notFeed, notLine, notReturn, notTab,
        control] using readBodyWithin_of_readEscape digits read
    · simp [escape, notQuote, notBackslash, notBackspace, notFeed, notLine, notReturn, notTab,
        control, readBodyWithin, read, bind, Except.bind, pure, Except.pure]

/-- Written characters are read up to the closing quote. -/
theorem readBodyWithin_flatMap_escape
    {bound : Nat}
    {characters : List Char}
    (enough : characters.length < bound)
    (rest : List Char) :
    readBodyWithin bound (characters.flatMap escape ++ '"' :: rest) =
      .ok (characters, rest) := by
  induction characters generalizing bound with
  | nil =>
      obtain ⟨bound, rfl⟩ := Nat.exists_eq_add_of_lt enough
      rfl
  | cons character characters inductionHypothesis =>
      cases bound with
      | zero => simp at enough
      | succ bound =>
          rw [List.flatMap_cons, List.append_assoc]
          exact readBodyWithin_escape (inductionHypothesis (by simpa using enough)) character

theorem escape_ne_nil (character : Char) : escape character ≠ [] := by
  unfold escape
  repeat' split
  all_goals simp

theorem length_le_length_flatMap
    {write : α → List Char}
    (visible : ∀ value, write value ≠ [])
    (values : List α) :
    values.length ≤ (values.flatMap write).length := by
  induction values with
  | nil => exact Nat.le_refl 0
  | cons value values inductionHypothesis =>
      have positive := List.length_pos_iff.mpr (visible value)
      rw [List.flatMap_cons, List.length_append, List.length_cons]
      omega

/-- The text behind its opening quote. -/
theorem readBody_escaped (text : String) (rest : List Char) :
    readBody (text.toList.flatMap escape ++ '"' :: rest) = .ok (text, rest) := by
  have enough : text.toList.length <
      (text.toList.flatMap escape ++ '"' :: rest).length + 1 := by
    have shorter := length_le_length_flatMap escape_ne_nil text.toList
    rw [List.length_append]
    omega
  rw [readBody, readBodyWithin_flatMap_escape enough]
  simp

theorem readText_takesBack (text : String) : readText.TakesBack (writeText text) text where
  starts := ⟨'"', _, rfl, rfl, by decide, by decide⟩
  eq {blanks rest} areBlanks _ := by
    rw [writeText, List.cons_append, List.cons_append, readText,
      skipBlanks_append areBlanks rfl]
    simp [readBody_escaped]

/-! ## Natural numbers -/

theorem absorb_eq
    (number : Nat)
    (digits : List Char)
    (fits : Digits.value number digits < Word.bound64) :
    absorb number digits = (Digits.value number digits, digits.length) := by
  induction digits generalizing number with
  | nil => rfl
  | cons digit digits inductionHypothesis =>
      have others : Digits.value number (digit :: digits) =
          Digits.value (10 * number + digitValue digit) digits := rfl
      rw [others] at fits ⊢
      have next := (Digits.le_value _ digits).trans_lt fits
      simp [absorb, next, inductionHypothesis _ fits]

theorem EndsValue.not_of_mem_head?
    {rest : List Char}
    (ends : EndsValue rest)
    {character : Char}
    (first : character ∈ rest.head?) :
    character.isDigit = false ∧ character ≠ '.' ∧ character ≠ 'e' ∧ character ≠ 'E' := by
  rcases ends character first with blank | rfl | rfl | rfl
  · simp only [isBlank, Bool.or_eq_true, beq_iff_eq] at blank
    rcases blank with ((rfl | rfl) | rfl) | rfl <;> decide
  all_goals decide

/-- The digits of a number are read as the number when nothing else belongs to it. -/
theorem readUnsigned_toDigits
    {number : Nat}
    (fits : number < Word.bound64)
    {rest : List Char}
    (ends : EndsValue rest) :
    readUnsigned false (Nat.toDigits 10 number ++ rest) = .ok (.natural number, rest) := by
  have taken : (Nat.toDigits 10 number ++ rest).takeWhile Char.isDigit =
      Nat.toDigits 10 number :=
    Digits.takeWhile_isDigit (fun _ => Digits.isDigit_of_mem)
      fun _ first => (ends.not_of_mem_head? first).1
  have absorbed := absorb_eq 0 (Nat.toDigits 10 number)
    (by rwa [Digits.value_toDigits])
  rw [Digits.value_toDigits] at absorbed
  have scale : ((Nat.toDigits 10 number).length : Int) -
      ((Nat.toDigits 10 number).length : Int) = 0 := Int.sub_self _
  cases digits : Nat.toDigits 10 number with
  | nil => exact absurd digits Nat.toDigits_ne_nil
  | cons first others =>
      have noLeadingZero : ¬ (first = '0' ∧ others ≠ []) := by
        rintro ⟨rfl, more⟩
        exact more (Digits.eq_nil_of_toDigits_eq_zero_cons digits)
      rw [digits] at taken absorbed scale
      simp only [readUnsigned, taken, List.drop_left, if_neg noLeadingZero, absorbed, scale]
      split
      · exact absurd rfl (ends.not_of_mem_head? rfl).2.1
      · exact absurd rfl (ends.not_of_mem_head? rfl).2.2.1
      · exact absurd rfl (ends.not_of_mem_head? rfl).2.2.2
      · simp

theorem exists_toDigits_eq_cons (number : Nat) :
    ∃ first others, Nat.toDigits 10 number = first :: others ∧ first.isDigit := by
  cases digits : Nat.toDigits 10 number with
  | nil => exact absurd digits Nat.toDigits_ne_nil
  | cons first others =>
      exact ⟨first, others, rfl, Digits.isDigit_of_mem (digits ▸ List.mem_cons_self)⟩

theorem startsValue_of_isDigit {character : Char} (digit : character.isDigit) :
    StartsValue character := by
  refine ⟨?_, ?_, ?_⟩
  · by_contra blank
    simp only [isBlank, Bool.not_eq_false, Bool.or_eq_true, beq_iff_eq] at blank
    rcases blank with ((rfl | rfl) | rfl) | rfl <;> simp at digit
  all_goals
    rintro rfl
    simp at digit

theorem readNumber_toDigits
    {number : Nat}
    (fits : number < Word.bound64)
    {rest : List Char}
    (ends : EndsValue rest) :
    readNumber (Nat.toDigits 10 number ++ rest) = .ok (.natural number, rest) := by
  have read := readUnsigned_toDigits fits ends
  obtain ⟨first, others, digits, digit⟩ := exists_toDigits_eq_cons number
  rw [digits, List.cons_append] at read ⊢
  unfold readNumber
  split
  · next minus => simp [(List.cons.inj minus).1] at digit
  · exact read

/-- A natural number of at most 64 bits is read back where it is allowed. -/
theorem readNatural_takesBack
    {bound number : Nat}
    (below : number < bound)
    (fits : number < Word.bound64) :
    (readNatural bound).TakesBack (writeNatural number) number where
  starts := by
    obtain ⟨first, others, digits, digit⟩ := exists_toDigits_eq_cons number
    exact ⟨first, others, digits, startsValue_of_isDigit digit⟩
  eq {blanks rest} areBlanks ends := by
    have read := readNumber_toDigits fits ends
    obtain ⟨first, others, digits, digit⟩ := exists_toDigits_eq_cons number
    rw [digits, List.cons_append] at read
    rw [writeNatural, digits, List.cons_append, readNatural,
      skipBlanks_append areBlanks (startsValue_of_isDigit digit).1]
    simp [digit, read, below]

/-! ## Optional values -/

/-- An optional value whose written form cannot be taken for the null literal. -/
theorem readOptional_takesBack
    {reader : Reader α}
    {write : α → List Char}
    {optional : Option α}
    (takesBack : ∀ value ∈ optional, reader.TakesBack (write value) value)
    (visible : ∀ value ∈ optional, (write value).head? ≠ some 'n') :
    (readOptional reader).TakesBack (writeOptional write optional) optional := by
  cases optional with
  | none =>
      refine ⟨⟨'n', ['u', 'l', 'l'], rfl, rfl, by decide, by decide⟩, ?_⟩
      intro blanks rest areBlanks _
      rw [writeOptional, null, List.cons_append, readOptional, skipBlanks_append areBlanks rfl]
      rfl
  | some value =>
      have inner := takesBack value rfl
      obtain ⟨first, others, written, startsValue⟩ := inner.starts
      refine ⟨⟨first, others, written, startsValue⟩, ?_⟩
      intro blanks rest areBlanks ends
      have read := inner.front ends
      have notNull : first ≠ 'n' := by simpa [written] using visible value rfl
      rw [written, List.cons_append] at read
      rw [writeOptional, written, List.cons_append, readOptional,
        skipBlanks_append areBlanks startsValue.1]
      split
      · next null => exact absurd (List.cons.inj null).1 notNull
      · rw [read]
        rfl

theorem head?_writeNatural_ne (number : Nat) : (writeNatural number).head? ≠ some 'n' := by
  obtain ⟨first, others, digits, digit⟩ := exists_toDigits_eq_cons number
  rw [writeNatural, digits]
  rintro ⟨⟩
  simp at digit

end Json
end Statechart
