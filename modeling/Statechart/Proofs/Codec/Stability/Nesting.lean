import Statechart.Proofs.Codec.Stability.Scalars

/-!
# Stable reading of nested JSON

Lists and structures end with a bracket of their own, so they are read in the same way in front
of anything. What they are made of stands in front of this bracket, where it is enough to read
alike once something follows. A bound on the number of steps may grow with the text.
-/

namespace Statechart
namespace Json

variable {α σ : Type}

/-! ## Skipped values -/

theorem skipKey_append
    {characters rest : List Char}
    (taken : skipKey characters = .ok rest)
    (more : List Char) :
    skipKey (characters ++ more) = .ok (rest ++ more) := by
  simp only [skipKey] at taken
  split at taken
  · cases taken
  · next seen =>
      obtain ⟨_, skipped, taken⟩ := bind_eq_ok.mp taken
      rw [skipKey, skipBlanks_append_of_eq_cons seen]
      exact bind_eq_ok.mpr ⟨_, skipBody_append skipped more, skipColon_append taken more⟩
  · cases taken

/-- Only the end is reached from the end. -/
theorem eq_nil_of_skipWithin_nil
    {bound : Nat}
    {awaiting : Bool}
    {outer : List Enclosure}
    {rest : List Char}
    (taken : skipWithin bound awaiting outer [] = .ok rest) :
    rest = [] := by
  match bound, awaiting, outer with
  | 0, _, _ => cases taken
  | _ + 1, true, _ => cases taken
  | _ + 1, false, [] =>
      cases taken
      rfl
  | _ + 1, false, .array :: _ => cases taken
  | _ + 1, false, .object :: _ => cases taken

/-- A digit starts a number. -/
theorem skipWithin_of_isDigit
    {first : Char}
    (digit : first.isDigit)
    {characters others : List Char}
    (seen : skipBlanks characters = first :: others)
    (bound : Nat)
    (outer : List Enclosure) :
    skipWithin (bound + 1) true outer characters =
      skipNumber (first :: others) >>= skipWithin bound false outer := by
  simp only [skipWithin, seen]
  split
  case h_1 same => cases same
  case h_9 same =>
    cases same
    exact if_pos digit
  -- No literal, sign, quote or bracket is a digit.
  all_goals
    next same =>
      cases same
      simp at digit

/-- From wherever the rest is reached in at most as many steps as the first bound allows, it is
also reached under the second bound with more behind it. -/
def SkipsAlike (bound larger : Nat) (rest more : List Char) : Prop :=
  ∀ ⦃awaiting outer characters⦄, skipWithin bound awaiting outer characters = .ok rest →
    skipWithin larger awaiting outer (characters ++ more) = .ok (rest ++ more)

section

variable
  {bound larger : Nat}
  {outer : List Enclosure}
  {characters rest more : List Char}

/-- A number ends where something follows, and something does when the text goes on. -/
theorem SkipsAlike.number
    (alike : SkipsAlike bound larger rest more)
    (inside : rest ≠ [])
    (taken : skipNumber characters >>= skipWithin bound false outer = .ok rest) :
    skipNumber (characters ++ more) >>= skipWithin larger false outer = .ok (rest ++ more) := by
  obtain ⟨behind, skipped, taken⟩ := bind_eq_ok.mp taken
  have continues : behind ≠ [] := fun ends =>
    inside (eq_nil_of_skipWithin_nil (ends ▸ taken))
  exact bind_eq_ok.mpr ⟨_, skipNumber_append skipped continues more, alike taken⟩

/-- One step in front of a value. -/
theorem SkipsAlike.awaiting
    (alike : SkipsAlike bound larger rest more)
    (inside : rest ≠ [])
    (taken : skipWithin (bound + 1) true outer characters = .ok rest) :
    skipWithin (larger + 1) true outer (characters ++ more) = .ok (rest ++ more) := by
  unfold skipWithin at taken
  split at taken
  case h_1 => cases taken
  case h_2 seen | h_3 seen | h_4 seen =>
    obtain ⟨_, skipped, taken⟩ := bind_eq_ok.mp taken
    simp only [skipWithin, skipBlanks_append_of_eq_cons seen]
    exact bind_eq_ok.mpr ⟨_, expect_append skipped more, alike taken⟩
  case h_5 seen =>
    obtain ⟨_, skipped, taken⟩ := bind_eq_ok.mp taken
    simp only [skipWithin, skipBlanks_append_of_eq_cons seen]
    exact bind_eq_ok.mpr ⟨_, skipBody_append skipped more, alike taken⟩
  case h_6 seen =>
    simp only [skipWithin, skipBlanks_append_of_eq_cons seen]
    exact alike.number inside taken
  case h_7 items seen =>
    simp only [skipWithin, skipBlanks_append_of_eq_cons seen]
    split at taken
    · cases taken
    · next seenClosing =>
        simp only [skipBlanks_append_of_eq_cons seenClosing]
        exact alike taken
    · next notNil notClosing =>
        obtain ⟨first, others, seenItem⟩ := List.exists_cons_of_ne_nil notNil
        have visible : first ≠ ']' := fun same => notClosing others (same ▸ seenItem)
        simpa [skipBlanks_append_of_eq_cons seenItem, visible] using alike taken
  case h_8 members seen =>
    simp only [skipWithin, skipBlanks_append_of_eq_cons seen]
    split at taken
    · next seenClosing =>
        simp only [skipBlanks_append_of_eq_cons seenClosing]
        exact alike taken
    · next notClosing =>
        obtain ⟨_, skipped, taken⟩ := bind_eq_ok.mp taken
        have skippedAll := skipKey_append skipped more
        cases seenKey : skipBlanks members with
        | nil =>
            rw [seenKey] at skipped
            cases skipped
        | cons first others =>
            have visible : first ≠ '\x7d' := fun same => notClosing others (same ▸ seenKey)
            rw [seenKey, List.cons_append] at skippedAll
            simp only [skipBlanks_append_of_eq_cons seenKey]
            split
            · next closing => exact absurd (List.cons.inj closing).1 visible
            · exact bind_eq_ok.mpr ⟨_, skippedAll, alike taken⟩
  case h_9 seen =>
    split at taken
    · next digit =>
        rw [skipWithin_of_isDigit digit (skipBlanks_append_of_eq_cons seen more)]
        exact alike.number inside taken
    · cases taken

/-- One step behind a value in an array. -/
theorem SkipsAlike.array
    (alike : SkipsAlike bound larger rest more)
    (taken : skipWithin (bound + 1) false (.array :: outer) characters = .ok rest) :
    skipWithin (larger + 1) false (.array :: outer) (characters ++ more) =
      .ok (rest ++ more) := by
  unfold skipWithin at taken
  split at taken
  case h_1 | h_4 => cases taken
  case h_2 seen | h_3 seen =>
    simp only [skipWithin, skipBlanks_append_of_eq_cons seen]
    exact alike taken

/-- One step behind a value in an object. -/
theorem SkipsAlike.object
    (alike : SkipsAlike bound larger rest more)
    (taken : skipWithin (bound + 1) false (.object :: outer) characters = .ok rest) :
    skipWithin (larger + 1) false (.object :: outer) (characters ++ more) =
      .ok (rest ++ more) := by
  unfold skipWithin at taken
  split at taken
  case h_1 | h_4 => cases taken
  case h_2 seen =>
    obtain ⟨_, skipped, taken⟩ := bind_eq_ok.mp taken
    simp only [skipWithin, skipBlanks_append_of_eq_cons seen]
    exact bind_eq_ok.mpr ⟨_, skipKey_append skipped more, alike taken⟩
  case h_3 seen =>
    simp only [skipWithin, skipBlanks_append_of_eq_cons seen]
    exact alike taken

end

/-- What is skipped up to something visible is skipped in the same way whatever comes behind
that. -/
theorem skipsAlike
    {bound larger : Nat}
    (le : bound ≤ larger)
    {rest : List Char}
    (inside : rest ≠ [])
    (more : List Char) :
    SkipsAlike bound larger rest more := by
  induction bound generalizing larger with
  | zero =>
      intro awaiting outer characters taken
      cases taken
  | succ bound inductionHypothesis =>
      obtain ⟨larger, rfl, within⟩ := exists_eq_succ le
      have alike : SkipsAlike bound larger rest more := inductionHypothesis within
      intro awaiting outer characters taken
      match awaiting, outer with
      | true, outer => exact alike.awaiting inside taken
      | false, [] =>
          cases taken
          rfl
      | false, .array :: outer => exact alike.array taken
      | false, .object :: outer => exact alike.object taken

theorem skipValue_append
    {characters rest : List Char}
    (taken : skipValue characters = .ok rest)
    (inside : rest ≠ [])
    (more : List Char) :
    skipValue (characters ++ more) = .ok (rest ++ more) := by
  refine skipsAlike ?_ inside more taken
  rw [List.length_append]
  omega

/-! ## Optional values and lists -/

variable {reader : Reader α}

theorem readOptional_isStableInside
    (stable : reader.IsStableInside)
    (nothing : reader [] = .error .truncated) :
    (readOptional reader).IsStableInside := by
  intro characters optional rest read inside more
  simp only [readOptional] at read
  split at read
  · next seen =>
      obtain ⟨_, letters, same⟩ := map_eq_ok.mp read
      cases same
      rw [readOptional, skipBlanks_append_of_eq_cons seen]
      exact map_eq_ok.mpr ⟨_, expect_append letters more, rfl⟩
  · next notNull =>
      obtain ⟨⟨value, _⟩, readValue, same⟩ := map_eq_ok.mp read
      cases same
      cases seen : skipBlanks characters with
      | nil => simp [seen, nothing] at readValue
      | cons first others =>
          have visible : first ≠ 'n' := fun same => notNull others (same ▸ seen)
          have readAll := stable readValue inside more
          rw [seen, List.cons_append] at readAll
          rw [readOptional, skipBlanks_append_of_eq_cons seen]
          split
          · next null => exact absurd (List.cons.inj null).1 visible
          · exact map_eq_ok.mpr ⟨_, readAll, rfl⟩

/-- What follows inside an array, with more behind it. -/
def Next.append : Next → List Char → Next
  | .item characters, more => .item (characters ++ more)
  | .closed rest, more => .closed (rest ++ more)

theorem nextItem_append
    {isFirst : Bool}
    {characters : List Char}
    {next : Next}
    (comes : nextItem isFirst characters = .ok next)
    (more : List Char) :
    nextItem isFirst (characters ++ more) = .ok (next.append more) := by
  unfold nextItem at comes
  split at comes
  · cases comes
  · next seen =>
      cases comes
      rw [nextItem, skipBlanks_append_of_eq_cons seen]
      rfl
  · next seen =>
      simp only [nextItem, skipBlanks_append_of_eq_cons seen]
      split at comes
      · next first =>
          cases comes
          rw [if_pos first]
          rfl
      · next other =>
          rw [if_neg other]
          split at comes
          · cases comes
          · cases comes
          · next start notNil notClosed =>
              cases comes
              obtain ⟨first, others, seenItem⟩ := List.exists_cons_of_ne_nil notNil
              have visible : first ≠ ']' := fun same => notClosed others (same ▸ seenItem)
              simp [skipBlanks_append_of_eq_cons seenItem, visible, seenItem, Next.append]
  · next start notNil notClosed notComma =>
      split at comes
      · next isFirst =>
          cases comes
          obtain ⟨first, others, seen⟩ := List.exists_cons_of_ne_nil notNil
          have noBracket : first ≠ ']' := fun same => notClosed others (same ▸ seen)
          have noComma : first ≠ ',' := fun same => notComma others (same ▸ seen)
          simp [nextItem, skipBlanks_append_of_eq_cons seen, isFirst, noBracket, noComma, seen,
            Next.append]
      · cases comes

theorem readItemsWithin_nil (reader : Reader α) (bound : Nat) (isFirst : Bool) :
    readItemsWithin reader bound isFirst [] = .error .truncated := by
  cases bound <;> rfl

/-- Items are taken up to the end of the array, so each of them stands in front of something. -/
theorem readItemsWithin_append
    (stable : reader.IsStableInside)
    {bound larger : Nat}
    (le : bound ≤ larger)
    {isFirst : Bool}
    {characters rest : List Char}
    {values : List α}
    (read : readItemsWithin reader bound isFirst characters = .ok (values, rest))
    (more : List Char) :
    readItemsWithin reader larger isFirst (characters ++ more) = .ok (values, rest ++ more) := by
  induction bound generalizing larger isFirst characters values with
  | zero => cases read
  | succ bound inductionHypothesis =>
      obtain ⟨larger, rfl, within⟩ := exists_eq_succ le
      simp only [readItemsWithin] at read ⊢
      split at read
      · cases read
      · next closed =>
          cases read
          rw [nextItem_append closed more]
          rfl
      · next start comes =>
          obtain ⟨⟨value, behind⟩, readValue, read⟩ := bind_eq_ok.mp read
          obtain ⟨⟨others, _⟩, readOthers, same⟩ := bind_eq_ok.mp read
          cases same
          have continues : behind ≠ [] := by
            rintro rfl
            rw [readItemsWithin_nil] at readOthers
            cases readOthers
          rw [nextItem_append comes more]
          exact bind_eq_ok.mpr ⟨_, stable readValue continues more,
            bind_eq_ok.mpr ⟨_, inductionHypothesis within readOthers, rfl⟩⟩

theorem readList_isStable (stable : reader.IsStableInside) : (readList reader).IsStable := by
  intro characters values rest read more
  simp only [readList] at read
  split at read
  · next seen =>
      rw [readList, skipBlanks_append_of_eq_cons seen]
      exact readItemsWithin_append stable (by simp) read more
  · cases read

/-! ## Structures -/

theorem nextKey_append
    {isFirst : Bool}
    {characters rest : List Char}
    {key : Option String}
    (comes : nextKey isFirst characters = .ok (key, rest))
    (more : List Char) :
    nextKey isFirst (characters ++ more) = .ok (key, rest ++ more) := by
  simp only [nextKey] at comes
  split at comes
  · cases comes
  · next seen =>
      cases comes
      simp only [nextKey, skipBlanks_append_of_eq_cons seen]
  · next seen =>
      split at comes
      · cases comes
      · next other =>
          split at comes
          · cases comes
          · next seenKey =>
              obtain ⟨_, readKey, same⟩ := map_eq_ok.mp comes
              cases same
              simp only [nextKey, skipBlanks_append_of_eq_cons seen, if_neg other,
                skipBlanks_append_of_eq_cons seenKey]
              exact map_eq_ok.mpr ⟨_, readBody_isStable readKey more, rfl⟩
          · cases comes
  · split at comes
    · next isFirst =>
        split at comes
        · cases comes
        · next seen => 
            obtain ⟨_, readKey, same⟩ := map_eq_ok.mp comes
            cases same
            simp only [nextKey, skipBlanks_append_of_eq_cons seen, if_pos isFirst]
            exact map_eq_ok.mpr ⟨_, readBody_isStable readKey more, rfl⟩
        · cases comes
    · cases comes

/-- Reading the member is stable, whatever has been read before. -/
def Member.IsStableInside (member : Member σ) : Prop :=
  ∀ slots, (member.read slots).IsStableInside

theorem Member.isStableInside_slot
    {key : String}
    {get : σ → Option α}
    {set : σ → α → σ}
    (stable : reader.IsStableInside) :
    (Member.slot key get set reader).IsStableInside :=
  fun slots => stable.map (set slots)

theorem readMembersWithin_nil
    (members : List (Member σ))
    (bound : Nat)
    (isFirst : Bool)
    (slots : σ) :
    readMembersWithin members bound isFirst slots [] = .error .truncated := by
  cases bound <;> rfl

theorem readMembersWithin_append
    {members : List (Member σ)}
    (stable : ∀ member ∈ members, member.IsStableInside)
    {bound larger : Nat}
    (le : bound ≤ larger)
    {isFirst : Bool}
    {slots final : σ}
    {characters rest : List Char}
    (read : readMembersWithin members bound isFirst slots characters = .ok (final, rest))
    (more : List Char) :
    readMembersWithin members larger isFirst slots (characters ++ more) =
      .ok (final, rest ++ more) := by
  induction bound generalizing larger isFirst slots characters with
  | zero => cases read
  | succ bound inductionHypothesis =>
      obtain ⟨larger, rfl, within⟩ := exists_eq_succ le
      have continues {slots : σ} {behind : List Char}
          (read : readMembersWithin members bound false slots behind = .ok (final, rest)) :
          behind ≠ [] := by
        rintro rfl
        rw [readMembersWithin_nil] at read
        cases read
      simp only [readMembersWithin] at read ⊢
      split at read
      · cases read
      · next closed =>
          cases read
          rw [nextKey_append closed more]
      · next key behind comes =>
          rw [nextKey_append comes more]
          simp only
          split at read
          · next unknown =>
              obtain ⟨_, colon, read⟩ := bind_eq_ok.mp read
              obtain ⟨_, skipped, read⟩ := bind_eq_ok.mp read
              exact bind_eq_ok.mpr ⟨_, skipColon_append colon more, bind_eq_ok.mpr
                ⟨_, skipValue_append skipped (continues read) more,
                  inductionHypothesis within read⟩⟩
          · next member found =>
              split at read
              · cases read
              · next isEmpty =>
                  rw [if_neg isEmpty]
                  obtain ⟨_, colon, read⟩ := bind_eq_ok.mp read
                  obtain ⟨_, readMember, read⟩ := bind_eq_ok.mp read
                  have stableMember := stable member (List.mem_of_find?_eq_some found)
                  exact bind_eq_ok.mpr ⟨_, skipColon_append colon more, bind_eq_ok.mpr
                    ⟨_, stableMember slots readMember (continues read) more,
                      inductionHypothesis within read⟩⟩

theorem closeArray_append
    {characters rest : List Char}
    (closed : closeArray characters = .ok rest)
    (more : List Char) :
    closeArray (characters ++ more) = .ok (rest ++ more) := by
  simp only [closeArray] at closed
  split at closed
  · cases closed
  · next seen =>
      cases closed
      simp only [closeArray, skipBlanks_append_of_eq_cons seen]
  · cases closed

theorem readInOrder_nil
    (mayStopEarly : Bool)
    (members : List (Member σ))
    (isFirst : Bool)
    (slots : σ) :
    readInOrder mayStopEarly members isFirst slots [] = .error .truncated := by
  cases members <;> rfl

theorem readInOrder_append
    {mayStopEarly : Bool}
    {members : List (Member σ)}
    (stable : ∀ member ∈ members, member.IsStableInside)
    {isFirst : Bool}
    {slots final : σ}
    {characters rest : List Char}
    (read : readInOrder mayStopEarly members isFirst slots characters = .ok (final, rest))
    (more : List Char) :
    readInOrder mayStopEarly members isFirst slots (characters ++ more) =
      .ok (final, rest ++ more) := by
  induction members generalizing isFirst slots characters with
  | nil =>
      obtain ⟨_, closed, same⟩ := bind_eq_ok.mp read
      cases same
      exact bind_eq_ok.mpr ⟨_, closeArray_append closed more, rfl⟩
  | cons member members inductionHypothesis =>
      simp only [readInOrder] at read ⊢
      split at read
      · cases read
      · next closed =>
          split at read
          · next allowed =>
              cases read
              rw [nextItem_append closed more]
              exact if_pos allowed
          · cases read
      · next start comes =>
          obtain ⟨⟨filled, behind⟩, readMember, read⟩ := bind_eq_ok.mp read
          have continues : behind ≠ [] := by
            rintro rfl
            rw [readInOrder_nil] at read
            cases read
          rw [nextItem_append comes more]
          exact bind_eq_ok.mpr
            ⟨_, stable member List.mem_cons_self slots readMember continues more,
              inductionHypothesis
                (fun other listed => stable other (List.mem_cons_of_mem member listed)) read⟩

/-- A structure ends with its closing bracket in both of its forms. -/
theorem readStructure_isStable
    {shape : Shape σ α}
    (stable : ∀ member ∈ shape.members, member.IsStableInside) :
    (readStructure shape).IsStable := by
  have object : Reader.IsStable fun inside =>
      readMembersWithin shape.members (inside.length + 1) true shape.empty inside := by
    intro characters slots rest read more
    exact readMembersWithin_append stable (by simp) read more
  have array : Reader.IsStable
      (readInOrder shape.mayStopEarly shape.members true shape.empty) :=
    fun _ _ _ read => readInOrder_append stable read
  intro characters value rest read more
  simp only [readStructure] at read
  split at read
  · next seen =>
      rw [readStructure, skipBlanks_append_of_eq_cons seen]
      exact object.convert shape.finish read more
  · next seen =>
      rw [readStructure, skipBlanks_append_of_eq_cons seen]
      exact array.convert shape.finish read more
  · cases read

end Json
end Statechart
