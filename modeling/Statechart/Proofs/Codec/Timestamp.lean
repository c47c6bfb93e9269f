import Statechart.Proofs.Codec.Digits
import Statechart.Proofs.Results
import Statechart.Timestamp.Text

/-!
# Reading back timestamps

The text of a timestamp is read back as the same moment: the year with or without a sign,
the leap second, and a fraction of any length.
-/

namespace Statechart
namespace Timestamp

/-! ## Padded numbers -/

theorem isDigit_of_mem_padded
    {width number : Nat}
    {digit : Char}
    (member : digit ∈ padded width number) :
    digit.isDigit := by
  rcases List.mem_append.mp member with zero | digits
  · rw [(List.mem_replicate.mp zero).2]
    rfl
  · exact Digits.isDigit_of_mem digits

@[simp] theorem digitsValue_padded (width number : Nat) :
    digitsValue (padded width number) = number :=
  calc
    digitsValue (padded width number) = Digits.value 0 (padded width number) := rfl
    _ = Digits.value 0 (Nat.toDigits 10 number) := Digits.value_replicate_zero _ _
    _ = number := Digits.value_toDigits number

theorem length_padded
    (width number : Nat)
    (positive : 0 < width)
    (fits : number < 10 ^ width) :
    (padded width number).length = width := by
  have short := (Nat.length_toDigits_le_iff (by decide) positive).mpr fits
  simp only [padded, List.length_append, List.length_replicate]
  omega

theorem padded_ne_nil (width number : Nat) : padded width number ≠ [] := by
  simp [padded, Nat.toDigits_ne_nil]

theorem not_isBlank_of_isDigit {character : Char} (digit : character.isDigit) :
    Text.isBlank character = false := by
  have range : 48 ≤ character.toNat ∧ character.toNat ≤ 57 := by
    simpa [Char.isDigit, UInt32.le_iff_toNat_le] using digit
  simp only [Text.isBlank, Bool.or_eq_false_iff, Bool.and_eq_false_iff, decide_eq_false_iff_not,
    beq_eq_false_iff_ne]
  omega

theorem skipBlanks_cons
    {character : Char}
    (visible : Text.isBlank character = false)
    (rest : List Char) :
    Text.skipBlanks (character :: rest) = character :: rest := by
  simp [Text.skipBlanks, visible]

theorem exists_padded_eq_cons (width number : Nat) :
    ∃ first others, padded width number = first :: others ∧ first.isDigit := by
  cases digits : padded width number with
  | nil => exact absurd digits (padded_ne_nil width number)
  | cons first others =>
      exact ⟨first, others, rfl, isDigit_of_mem_padded (digits ▸ List.mem_cons_self)⟩

theorem skipBlanks_padded (width number : Nat) (rest : List Char) :
    Text.skipBlanks (padded width number ++ rest) = padded width number ++ rest := by
  obtain ⟨first, others, digits, digit⟩ := exists_padded_eq_cons width number
  rw [digits, List.cons_append]
  exact skipBlanks_cons (not_isBlank_of_isDigit digit) _

/-- A padded number ends where something else than a digit follows. -/
theorem takeWhile_padded
    (width number : Nat)
    {rest : List Char}
    (ends : ∀ character ∈ rest.head?, character.isDigit = false) :
    (padded width number ++ rest).takeWhile Char.isDigit = padded width number :=
  Digits.takeWhile_isDigit (fun _ => isDigit_of_mem_padded) ends

/-- A padded number is read back with its width as the limit, whatever follows. -/
theorem readNumber_padded
    {width number : Nat}
    (positive : 0 < width)
    (fits : number < 10 ^ width)
    (rest : List Char) :
    readNumber (some width) (padded width number ++ rest) = some (number, rest) := by
  have length := length_padded width number positive fits
  have window : (padded width number ++ rest).take width = padded width number :=
    List.take_left' length
  have nothing : ∀ character ∈ [].head?, Char.isDigit character = false := by simp
  have digits : (padded width number).takeWhile Char.isDigit = padded width number := by
    simpa using takeWhile_padded width number nothing
  simp [readNumber, skipBlanks_padded, window, digits, padded_ne_nil]

/-- Without a limit, what follows must not be a digit. -/
theorem readNumber_padded_of_ends
    (width number : Nat)
    (rest : List Char)
    (ends : ∀ character ∈ rest.head?, character.isDigit = false) :
    readNumber none (padded width number ++ rest) = some (number, rest) := by
  have digits := takeWhile_padded width number ends
  simp [readNumber, skipBlanks_padded, digits, padded_ne_nil]

/-! ## The parts of a timestamp -/

/-- The digits behind the sign of a year. -/
theorem readYear_unsigned_padded (number : Nat) (rest : List Char) :
    readYear.unsigned (padded 4 number ++ '-' :: rest) = some (number, '-' :: rest) := by
  have read := readNumber_padded_of_ends 4 number ('-' :: rest) (by simp)
  obtain ⟨first, others, digits, digit⟩ := exists_padded_eq_cons 4 number
  rw [digits, List.cons_append] at read ⊢
  simp [readYear.unsigned, digit, read]

theorem readYear_yearChars (year : Int) (rest : List Char) :
    readYear (yearChars year ++ '-' :: rest) = some (year, '-' :: rest) := by
  by_cases short : 0 ≤ year ∧ year ≤ 9999
  · have read := readNumber_padded (show 0 < 4 by decide)
      (show year.toNat < 10 ^ 4 by omega) ('-' :: rest)
    have value : (year.toNat : Int) = year := by omega
    rw [yearChars, if_pos short, readYear, skipBlanks_padded]
    obtain ⟨first, others, digits, digit⟩ := exists_padded_eq_cons 4 year.toNat
    rw [digits, List.cons_append] at read ⊢
    split
    · next starts => simp [(List.cons.inj starts).1] at digit
    · next starts => simp [(List.cons.inj starts).1] at digit
    · simp [read, value]
  · rw [yearChars, if_neg short, readYear]
    by_cases negative : year < 0
    · have value : -(year.natAbs : Int) = year := by omega
      rw [if_pos negative, List.cons_append, skipBlanks_cons rfl]
      simp only [readYear_unsigned_padded, Option.map_some, value]
    · have value : (year.natAbs : Int) = year := by omega
      rw [if_neg negative, List.cons_append, skipBlanks_cons rfl]
      simp only [readYear_unsigned_padded, Option.map_some, value]

/-- A fraction of the given number of digits. -/
theorem readFraction_padded
    {width number : Nat}
    (positive : 0 < width)
    (short : width ≤ 9)
    (fits : number < 10 ^ width) :
    readFraction ('.' :: padded width number ++ ['Z']) =
      some (number * 10 ^ (9 - width), ['Z']) := by
  have length := length_padded width number positive fits
  have notDigit : ∀ character ∈ ['Z'].head?, Char.isDigit character = false := by simp
  have digits := takeWhile_padded width number notDigit
  have kept : (padded width number).take 9 = padded width number :=
    List.take_of_length_le (by omega)
  simp [readFraction, digits, kept, length, padded_ne_nil]

theorem readFraction_fractionChars
    {nanosecond : Nat}
    (small : nanosecond < 1000000000) :
    readFraction (fractionChars nanosecond ++ ['Z']) = some (nanosecond, ['Z']) := by
  rw [fractionChars]
  split
  · next isZero => simp [readFraction, isZero]
  split
  · next milliseconds =>
      have value : nanosecond / 1000000 * 10 ^ (9 - 3) = nanosecond := by omega
      rw [readFraction_padded (by decide) (by decide) (by omega), value]
  split
  · next microseconds =>
      have value : nanosecond / 1000 * 10 ^ (9 - 6) = nanosecond := by omega
      rw [readFraction_padded (by decide) (by decide) (by omega), value]
  · rw [readFraction_padded (by decide) (by decide) (by omega), Nat.sub_self, Nat.pow_zero,
      Nat.mul_one]

/-! ## The whole text -/

theorem day_le (date : Date) : date.day ≤ 31 := by
  refine date.day_mem.2.trans ?_
  unfold daysInMonth
  split <;> try split
  all_goals decide

theorem readSeparator_cons
    (separator : Char)
    (visible : Text.isBlank separator = false)
    (rest : List Char) :
    readSeparator separator (separator :: rest) = some rest := by
  rw [readSeparator, skipBlanks_cons visible]
  exact if_pos rfl

/-- A moment of universal time is its own local time. -/
theorem ofLocal?_zero (date : Date) (second nanosecond : Nat) (inDay : second < 86400) :
    ofLocal? date second nanosecond 0 = make? date second nanosecond := by
  have inRange : ¬ (second : Int) < 0 ∧ ¬ 86400 ≤ (second : Int) := by omega
  simp [ofLocal?, inRange]

/-- The text with everything behind each part in its place. -/
theorem toChars_eq (timestamp : Timestamp) :
    timestamp.toChars = yearChars timestamp.date.year ++
      '-' :: (padded 2 timestamp.date.month ++
      '-' :: (padded 2 timestamp.date.day ++
      'T' :: (padded 2 (timestamp.second / 3600) ++
      ':' :: (padded 2 (timestamp.second / 60 % 60) ++
      ':' :: (padded 2 (timestamp.second % 60 + timestamp.nanosecond / 1000000000) ++
      (fractionChars (timestamp.nanosecond % 1000000000) ++ ['Z'])))))) := by
  simp only [toChars, List.append_assoc, List.cons_append]

/-- The parts that are shown make up the timestamp. -/
theorem ofLocal?_shown (timestamp : Timestamp) :
    (let minutes :=
        60 * (60 * (timestamp.second / 3600) + timestamp.second / 60 % 60)
      if timestamp.second % 60 + timestamp.nanosecond / 1000000000 = 60 then
        ofLocal? timestamp.date (minutes + 59)
          (1000000000 + timestamp.nanosecond % 1000000000) 0
      else
        ofLocal? timestamp.date
          (minutes + (timestamp.second % 60 + timestamp.nanosecond / 1000000000))
          (timestamp.nanosecond % 1000000000) 0) =
      some timestamp := by
  have inDay := timestamp.second_lt
  have bounded := timestamp.nanosecond_lt
  have leap := timestamp.leap
  simp only []
  split
  · next isLeap =>
      have second :
          60 * (60 * (timestamp.second / 3600) + timestamp.second / 60 % 60) + 59 =
            timestamp.second := by
        omega
      have nanosecond :
          1000000000 + timestamp.nanosecond % 1000000000 = timestamp.nanosecond := by
        omega
      rw [second, nanosecond, ofLocal?_zero _ _ _ inDay, make?_eq_self]
  · next notLeap =>
      have regular : timestamp.nanosecond < 1000000000 := by
        by_contra large
        have last := leap (by omega)
        omega
      have second :
          60 * (60 * (timestamp.second / 3600) + timestamp.second / 60 % 60) +
              (timestamp.second % 60 + timestamp.nanosecond / 1000000000) =
            timestamp.second := by
        omega
      rw [second, Nat.mod_eq_of_lt regular, ofLocal?_zero _ _ _ inDay, make?_eq_self]

/-- What is written of a timestamp is read back. -/
@[simp] theorem ofChars?_toChars (timestamp : Timestamp) :
    ofChars? timestamp.toChars = some timestamp := by
  have inDay := timestamp.second_lt
  have bounded := timestamp.nanosecond_lt
  have leap := timestamp.leap
  have month := readNumber_padded (show 0 < 2 by decide)
    (show timestamp.date.month < 10 ^ 2 by have := timestamp.date.month_mem; omega)
  have day := readNumber_padded (show 0 < 2 by decide)
    (show timestamp.date.day < 10 ^ 2 by have := day_le timestamp.date; omega)
  have hour := readNumber_padded (show 0 < 2 by decide)
    (show timestamp.second / 3600 < 10 ^ 2 by omega)
  have minute := readNumber_padded (show 0 < 2 by decide)
    (show timestamp.second / 60 % 60 < 10 ^ 2 by omega)
  have shown := readNumber_padded (show 0 < 2 by decide)
    (show timestamp.second % 60 + timestamp.nanosecond / 1000000000 < 10 ^ 2 by omega)
  have fraction := readFraction_fractionChars (Nat.mod_lt timestamp.nanosecond (by decide))
  have hyphen := readSeparator_cons '-' rfl
  have colon := readSeparator_cons ':' rfl
  have divider (rest : List Char) : readDivider ('T' :: rest) = some rest := rfl
  have universal : readOffset ['Z'] = some (0, []) := rfl
  have inRange : (Text.skipBlanks []).isEmpty ∧ timestamp.second / 3600 < 24 ∧
      timestamp.second / 60 % 60 < 60 ∧
      timestamp.second % 60 + timestamp.nanosecond / 1000000000 ≤ 60 := by
    refine ⟨rfl, ?_, ?_, ?_⟩
    · omega
    · omega
    · by_cases large : 1000000000 ≤ timestamp.nanosecond
      · have := leap large
        omega
      · omega
  rw [toChars_eq, ofChars?]
  -- The parts are read one after the other, each from what the one before has left.
  refine bind_eq_some (readYear_yearChars _ _) (bind_eq_some (hyphen _) ?_)
  refine bind_eq_some (month _) (bind_eq_some (hyphen _) ?_)
  refine bind_eq_some (day _) (bind_eq_some (divider _) ?_)
  refine bind_eq_some (hour _) (bind_eq_some (colon _) ?_)
  refine bind_eq_some (minute _) (bind_eq_some (colon _) ?_)
  refine bind_eq_some (shown _) (bind_eq_some fraction (bind_eq_some universal ?_))
  exact (if_pos inRange).trans
    (bind_eq_some (Date.make?_eq_self timestamp.date) (ofLocal?_shown timestamp))

@[simp] theorem ofText?_toText (timestamp : Timestamp) :
    ofText? timestamp.toText = some timestamp := by
  rw [ofText?, toText, String.toList_ofList, ofChars?_toChars]

/-! ## Its length -/

theorem length_padded_le
    (width number bound : Nat)
    (positive : 0 < bound)
    (wide : width ≤ bound)
    (fits : number < 10 ^ bound) :
    (padded width number).length ≤ bound := by
  have short := (Nat.length_toDigits_le_iff (by decide) positive).mpr fits
  simp only [padded, List.length_append, List.length_replicate]
  omega

theorem length_yearChars_le (date : Date) : (yearChars date.year).length ≤ 7 := by
  have range := date.year_mem
  rw [yearChars]
  split
  · exact (length_padded_le 4 date.year.toNat 4 (by decide) (by decide) (by omega)).trans
      (by decide)
  · have digits := length_padded_le 4 date.year.natAbs 6 (by decide) (by decide) (by omega)
    rw [List.length_cons]
    omega

theorem length_fractionChars_le
    {nanosecond : Nat}
    (small : nanosecond < 1000000000) :
    (fractionChars nanosecond).length ≤ 10 := by
  rw [fractionChars]
  split
  · exact Nat.zero_le 10
  split
  · rw [List.length_cons, length_padded _ _ (by decide) (by omega)]
    decide
  split
  · rw [List.length_cons, length_padded _ _ (by decide) (by omega)]
    decide
  · rw [List.length_cons, length_padded _ _ (by decide) (by omega)]

/-- No timestamp is written with more than 33 characters. -/
theorem length_toChars_le (timestamp : Timestamp) : timestamp.toChars.length ≤ 33 := by
  have inDay := timestamp.second_lt
  have bounded := timestamp.nanosecond_lt
  have monthRange := timestamp.date.month_mem
  have dayRange := day_le timestamp.date
  have year := length_yearChars_le timestamp.date
  have month := length_padded 2 timestamp.date.month (by decide) (by omega)
  have day := length_padded 2 timestamp.date.day (by decide) (by omega)
  have hour := length_padded 2 (timestamp.second / 3600) (by decide) (by omega)
  have minute := length_padded 2 (timestamp.second / 60 % 60) (by decide) (by omega)
  have shown := length_padded 2 (timestamp.second % 60 + timestamp.nanosecond / 1000000000)
    (by decide) (by omega)
  have fraction := length_fractionChars_le (Nat.mod_lt timestamp.nanosecond (by decide))
  rw [toChars_eq]
  simp only [List.length_append, List.length_cons, List.length_nil, month, day, hour, minute,
    shown]
  omega

end Timestamp
end Statechart
