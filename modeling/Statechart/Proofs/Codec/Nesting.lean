import Statechart.Json.Layout
import Statechart.Proofs.Codec.Scalars

/-!
# Reading back nested JSON

Lists and objects are read back from their written form in either layout, at any depth, when
their items and members are. An object is described by the slots that its members fill one
after the other.
-/

namespace Statechart
namespace Json

variable {α σ : Type}

/-! ## Layout -/

namespace Layout

theorem isBlank_lineBreak (layout : Layout) (depth : Nat) :
    (layout.lineBreak depth).all isBlank := by
  cases layout with
  | compact => rfl
  | indented =>
      rw [lineBreak, List.all_cons, List.all_replicate]
      cases 2 * depth <;> rfl

/-- The colon stands at the front, and only blanks may follow it. -/
theorem exists_colon_eq (layout : Layout) :
    ∃ gap, layout.colon = ':' :: gap ∧ gap.all isBlank := by
  cases layout with
  | compact => exact ⟨[], rfl, rfl⟩
  | indented => exact ⟨[' '], rfl, rfl⟩

/-- The parts behind the first one, each behind its comma and line break. -/
def others (layout : Layout) (depth : Nat) (parts : List (List Char)) : List Char :=
  parts.flatMap fun part => ',' :: (layout.lineBreak depth ++ part)

@[simp] theorem others_nil (layout : Layout) (depth : Nat) : layout.others depth [] = [] := rfl

@[simp] theorem others_cons
    (layout : Layout)
    (depth : Nat)
    (part : List Char)
    (parts : List (List Char)) :
    layout.others depth (part :: parts) =
      ',' :: (layout.lineBreak depth ++ (part ++ layout.others depth parts)) := by
  simp [others]

theorem joined_eq
    (layout : Layout)
    (depth : Nat)
    (part : List Char)
    (parts : List (List Char)) :
    joined (',' :: layout.lineBreak depth) (part :: parts) =
      part ++ layout.others depth parts := by
  induction parts generalizing part with
  | nil => simp [joined]
  | cons other parts inductionHypothesis =>
      rw [joined, inductionHypothesis, others_cons]
      · simp
      · exact List.cons_ne_nil other parts

/-- What encloses at least one part, taken apart. -/
theorem enclose_cons
    (layout : Layout)
    (depth : Nat)
    (opening closing : Char)
    (part : List Char)
    (parts : List (List Char))
    (rest : List Char) :
    layout.enclose depth opening closing (part :: parts) ++ rest =
      opening :: (layout.lineBreak (depth + 1) ++ (part ++
        (layout.others (depth + 1) parts ++ (layout.lineBreak depth ++ closing :: rest)))) := by
  rw [enclose, joined_eq]
  simp

/-- What stands behind a part ends it: a comma, a line break or the closing bracket. -/
theorem endsValue_others_append
    (layout : Layout)
    (inner outer : Nat)
    (parts : List (List Char))
    {closing : Char}
    (closes : closing = ']' ∨ closing = '\x7d')
    (rest : List Char) :
    EndsValue (layout.others inner parts ++ (layout.lineBreak outer ++ closing :: rest)) := by
  intro character first
  cases parts with
  | cons part parts =>
      obtain rfl : ',' = character := by simpa using first
      exact .inr (.inl rfl)
  | nil =>
      cases layout with
      | compact =>
          obtain rfl : closing = character := by simpa [lineBreak] using first
          exact .inr (.inr closes)
      | indented =>
          obtain rfl : '\n' = character := by simpa [lineBreak] using first
          exact .inl rfl

theorem length_le_length_others
    (layout : Layout)
    (depth : Nat)
    (parts : List (List Char)) :
    parts.length ≤ (layout.others depth parts).length :=
  length_le_length_flatMap (fun _ => List.cons_ne_nil _ _) parts

end Layout

/-! ## Lists -/

/-- The first item starts behind the opening bracket. -/
theorem nextItem_first
    {blanks : List Char}
    (areBlanks : blanks.all isBlank)
    {first : Char}
    (starts : StartsValue first)
    (others : List Char) :
    nextItem true (blanks ++ first :: others) = .ok (.item (first :: others)) := by
  obtain ⟨visible, notComma, notClosing⟩ := starts
  rw [nextItem, skipBlanks_append areBlanks visible]
  split
  · next nothing => cases nothing
  · next closing => exact absurd (List.cons.inj closing).1 notClosing
  · next comma => exact absurd (List.cons.inj comma).1 notComma
  · rfl

/-- Every other item starts behind a comma. -/
theorem nextItem_other
    {blanks : List Char}
    (areBlanks : blanks.all isBlank)
    {first : Char}
    (starts : StartsValue first)
    (others : List Char) :
    nextItem false (',' :: (blanks ++ first :: others)) = .ok (.item (first :: others)) := by
  obtain ⟨visible, _, notClosing⟩ := starts
  have comma : skipBlanks (',' :: (blanks ++ first :: others)) =
      ',' :: (blanks ++ first :: others) := rfl
  simp only [nextItem, comma, skipBlanks_append areBlanks visible]
  rw [if_neg Bool.false_ne_true]
  split
  · next nothing => cases nothing
  · next closing => exact absurd (List.cons.inj closing).1 notClosing
  · rfl

theorem nextItem_closed
    {blanks : List Char}
    (areBlanks : blanks.all isBlank)
    (isFirst : Bool)
    (rest : List Char) :
    nextItem isFirst (blanks ++ ']' :: rest) = .ok (.closed rest) := by
  have closing : skipBlanks (blanks ++ ']' :: rest) = ']' :: rest :=
    skipBlanks_append areBlanks rfl rest
  simp only [nextItem, closing]

variable
  {reader : Reader α}
  {write : α → List Char}
  {layout : Layout}

/-- An item and what comes behind it. -/
theorem readItemsWithin_item
    {value : α}
    {written : List Char}
    (takesBack : reader.TakesBack written value)
    {bound : Nat}
    {isFirst : Bool}
    {characters tail rest : List Char}
    {values : List α}
    (next : nextItem isFirst characters = .ok (.item (written ++ tail)))
    (ends : EndsValue tail)
    (read : readItemsWithin reader bound false tail = .ok (values, rest)) :
    readItemsWithin reader (bound + 1) isFirst characters = .ok (value :: values, rest) := by
  simp [readItemsWithin, next, takesBack.front ends, read, bind, Except.bind, pure, Except.pure]

/-- The items behind the first one are read up to the closing bracket. -/
theorem readItemsWithin_others
    (layout : Layout)
    {values : List α}
    (takesBack : ∀ value ∈ values, reader.TakesBack (write value) value)
    {bound : Nat}
    (enough : values.length < bound)
    (inner outer : Nat)
    (rest : List Char) :
    readItemsWithin reader bound false
        (layout.others inner (values.map write) ++ (layout.lineBreak outer ++ ']' :: rest)) =
      .ok (values, rest) := by
  induction values generalizing bound with
  | nil =>
      obtain ⟨bound, rfl⟩ := Nat.exists_eq_add_of_lt enough
      rw [List.map_nil, Layout.others_nil, List.nil_append, readItemsWithin,
        nextItem_closed (layout.isBlank_lineBreak outer)]
  | cons value values inductionHypothesis =>
      cases bound with
      | zero => simp at enough
      | succ bound =>
          have member := takesBack value List.mem_cons_self
          obtain ⟨first, others, written, starts⟩ := member.starts
          have read := inductionHypothesis
            (fun other present => takesBack other (List.mem_cons_of_mem value present))
            (Nat.lt_of_succ_lt_succ enough)
          refine readItemsWithin_item member ?_
            (layout.endsValue_others_append inner outer _ (.inl rfl) rest) read
          rw [List.map_cons, Layout.others_cons, written]
          simpa using nextItem_other (layout.isBlank_lineBreak inner) starts _

theorem readList_takesBack
    {values : List α}
    {write : Nat → α → List Char}
    {depth : Nat}
    (takesBack : ∀ value ∈ values, reader.TakesBack (write (depth + 1) value) value) :
    (readList reader).TakesBack (layout.writeList depth write values) values := by
  cases values with
  | nil =>
      refine ⟨⟨'[', [']'], rfl, rfl, by decide, by decide⟩, ?_⟩
      intro blanks rest areBlanks _
      have opening : skipBlanks (blanks ++ '[' :: ']' :: rest) = '[' :: ']' :: rest :=
        skipBlanks_append areBlanks rfl _
      show readList reader (blanks ++ '[' :: ']' :: rest) = _
      simp only [readList, opening]
      rfl
  | cons value values =>
      have member := takesBack value List.mem_cons_self
      obtain ⟨first, others, written, starts⟩ := member.starts
      have encloses := layout.enclose_cons depth '[' ']' (write (depth + 1) value)
        (values.map (write (depth + 1)))
      refine ⟨⟨'[', _, (List.append_nil _).symm.trans (encloses []), rfl, by decide,
        by decide⟩, ?_⟩
      intro blanks rest areBlanks _
      rw [Layout.writeList, List.map_cons, encloses, readList,
        skipBlanks_append areBlanks rfl]
      have enough : values.length <
          (layout.lineBreak (depth + 1) ++ (write (depth + 1) value ++
            (layout.others (depth + 1) (values.map (write (depth + 1))) ++
              (layout.lineBreak depth ++ ']' :: rest)))).length := by
        have shorter := layout.length_le_length_others (depth + 1)
          (values.map (write (depth + 1)))
        simp only [List.length_append, List.length_cons, List.length_map] at shorter ⊢
        omega
      have read := readItemsWithin_others layout
        (fun other present => takesBack other (List.mem_cons_of_mem value present))
        enough (depth + 1) depth rest
      refine readItemsWithin_item member ?_
        (layout.endsValue_others_append (depth + 1) depth _ (.inl rfl) rest) read
      rw [written]
      simpa using nextItem_first (layout.isBlank_lineBreak (depth + 1)) starts _

/-! ## Objects -/

theorem writeText_append (text : String) (rest : List Char) :
    writeText text ++ rest = '"' :: (text.toList.flatMap escape ++ '"' :: rest) := by
  simp [writeText]

/-- The first key starts behind the opening brace. -/
theorem nextKey_first
    {blanks : List Char}
    (areBlanks : blanks.all isBlank)
    (key : String)
    (rest : List Char) :
    nextKey true (blanks ++ (writeText key ++ rest)) = .ok (some key, rest) := by
  have quote := skipBlanks_append areBlanks (show isBlank '"' = false from rfl)
  rw [writeText_append]
  simp [nextKey, quote, readBody_escaped, Except.map]

/-- Every other key starts behind a comma. -/
theorem nextKey_other
    {blanks : List Char}
    (areBlanks : blanks.all isBlank)
    (key : String)
    (rest : List Char) :
    nextKey false (',' :: (blanks ++ (writeText key ++ rest))) = .ok (some key, rest) := by
  have comma (others : List Char) : skipBlanks (',' :: others) = ',' :: others := rfl
  have quote := skipBlanks_append areBlanks (show isBlank '"' = false from rfl)
  rw [writeText_append]
  simp only [nextKey, comma, quote, readBody_escaped]
  rfl

theorem nextKey_closed
    {blanks : List Char}
    (areBlanks : blanks.all isBlank)
    (isFirst : Bool)
    (rest : List Char) :
    nextKey isFirst (blanks ++ '\x7d' :: rest) = .ok (none, rest) := by
  have closing : skipBlanks (blanks ++ '\x7d' :: rest) = '\x7d' :: rest :=
    skipBlanks_append areBlanks rfl rest
  simp only [nextKey, closing]

theorem skipColon_colon
    (layout : Layout)
    (rest : List Char) :
    ∃ gap, gap.all isBlank ∧ skipColon (layout.colon ++ rest) = .ok (gap ++ rest) := by
  obtain ⟨gap, colon, areBlanks⟩ := layout.exists_colon_eq
  refine ⟨gap, areBlanks, ?_⟩
  rw [colon]
  rfl

/-- Written members fill their slots one after the other, each of them an empty one. -/
inductive Fills (members : List (Member σ)) : σ → List (String × List Char) → σ → Prop
  | done (slots : σ) : Fills members slots [] slots
  | member
      {member : Member σ}
      {key : String}
      {written : List Char}
      {slots filled final : σ}
      {parts : List (String × List Char)}
      (found : (members.find? fun member => member.key == key) = some member)
      (isEmpty : member.isFilled slots = false)
      (takesBack : (member.read slots).TakesBack written filled)
      (others : Fills members filled parts final) :
      Fills members slots ((key, written) :: parts) final

/-- A member in an optional slot. -/
theorem Fills.slot
    {members : List (Member σ)}
    {key : String}
    {get : σ → Option α}
    {set : σ → α → σ}
    {value : α}
    {written : List Char}
    {slots final : σ}
    {parts : List (String × List Char)}
    (found : (members.find? fun member => member.key == key) =
      some (.slot key get set reader))
    (isEmpty : get slots = none)
    (takesBack : reader.TakesBack written value)
    (others : Fills members (set slots value) parts final) :
    Fills members slots ((key, written) :: parts) final :=
  .member found (by simp [Member.slot, isEmpty]) (takesBack.map (set slots)) others

/-- A member and what comes behind it. -/
theorem readMembersWithin_member
    (layout : Layout)
    {members : List (Member σ)}
    {member : Member σ}
    {key : String}
    {written : List Char}
    {slots filled final : σ}
    (found : (members.find? fun member => member.key == key) = some member)
    (isEmpty : member.isFilled slots = false)
    (takesBack : (member.read slots).TakesBack written filled)
    {bound : Nat}
    {isFirst : Bool}
    {characters tail rest : List Char}
    (next : nextKey isFirst characters = .ok (some key, layout.colon ++ (written ++ tail)))
    (ends : EndsValue tail)
    (read : readMembersWithin members bound false filled tail = .ok (final, rest)) :
    readMembersWithin members (bound + 1) isFirst slots characters = .ok (final, rest) := by
  obtain ⟨gap, areBlanks, colon⟩ := skipColon_colon layout (written ++ tail)
  simp [readMembersWithin, next, found, isEmpty, colon, takesBack.eq areBlanks ends, read, bind,
    Except.bind]

/-- A member of an object as it is written. -/
def Layout.memberText (layout : Layout) (part : String × List Char) : List Char :=
  writeText part.1 ++ layout.colon ++ part.2

/-- The members behind the first one are read up to the closing brace. -/
theorem readMembersWithin_others
    (layout : Layout)
    {members : List (Member σ)}
    {slots final : σ}
    {parts : List (String × List Char)}
    (fills : Fills members slots parts final)
    {bound : Nat}
    (enough : parts.length < bound)
    (inner outer : Nat)
    (rest : List Char) :
    readMembersWithin members bound false slots
        (layout.others inner (parts.map layout.memberText) ++
          (layout.lineBreak outer ++ '\x7d' :: rest)) =
      .ok (final, rest) := by
  induction fills generalizing bound with
  | done slots =>
      obtain ⟨bound, rfl⟩ := Nat.exists_eq_add_of_lt enough
      rw [List.map_nil, Layout.others_nil, List.nil_append, readMembersWithin,
        nextKey_closed (layout.isBlank_lineBreak outer)]
  | member found isEmpty takesBack _ inductionHypothesis =>
      cases bound with
      | zero => simp at enough
      | succ bound =>
          refine readMembersWithin_member layout found isEmpty takesBack ?_
            (layout.endsValue_others_append inner outer _ (.inr rfl) rest)
            (inductionHypothesis (Nat.lt_of_succ_lt_succ enough))
          simpa [Layout.memberText] using
            nextKey_other (layout.isBlank_lineBreak inner) _ _

theorem writeObject_eq
    (layout : Layout)
    (depth : Nat)
    (members : List (String × (Nat → List Char))) :
    layout.writeObject depth members =
      layout.enclose depth '\x7b' '\x7d'
        ((members.map fun member => (member.1, member.2 (depth + 1))).map
          layout.memberText) := by
  rw [List.map_map]
  rfl

/-- Written members between braces are read by the members of a structure. -/
theorem readMembersWithin_enclosed
    {members : List (Member σ)}
    {slots final : σ}
    {parts : List (String × List Char)}
    (fills : Fills members slots parts final)
    (layout : Layout)
    (depth : Nat)
    (rest : List Char) :
    ∃ inside,
      layout.enclose depth '\x7b' '\x7d' (parts.map layout.memberText) ++ rest =
          '\x7b' :: inside ∧
        readMembersWithin members (inside.length + 1) true slots inside = .ok (final, rest) := by
  cases fills with
  | done slots =>
      refine ⟨'\x7d' :: rest, rfl, ?_⟩
      have closed : nextKey true ([] ++ '\x7d' :: rest) = .ok (none, rest) :=
        nextKey_closed rfl true rest
      rw [List.nil_append] at closed
      rw [readMembersWithin, closed]
  | @member member key written slots filled _ parts found isEmpty takesBack others =>
      refine ⟨_, by rw [List.map_cons, Layout.enclose_cons], ?_⟩
      have shorter := layout.length_le_length_others (depth + 1)
        (parts.map layout.memberText)
      have enough : parts.length <
          (layout.lineBreak (depth + 1) ++ (layout.memberText (key, written) ++
            (layout.others (depth + 1) (parts.map layout.memberText) ++
              (layout.lineBreak depth ++ '\x7d' :: rest)))).length := by
        simp only [List.length_append, List.length_cons, List.length_map] at shorter ⊢
        omega
      have read := readMembersWithin_others layout others enough (depth + 1) depth rest
      refine readMembersWithin_member layout found isEmpty takesBack ?_
        (layout.endsValue_others_append (depth + 1) depth _ (.inr rfl) rest) read
      simpa [Layout.memberText] using
        nextKey_first (layout.isBlank_lineBreak (depth + 1)) _ _

/-- An object whose members fill the slots of a structure is read as the structure. -/
theorem readStructure_takesBack
    {shape : Shape σ α}
    {depth : Nat}
    {members : List (String × (Nat → List Char))}
    (slots : σ)
    {value : α}
    (fills : Fills shape.members shape.empty
      (members.map fun member => (member.1, member.2 (depth + 1))) slots)
    (finish : shape.finish slots = some value) :
    (readStructure shape).TakesBack (layout.writeObject depth members) value where
  starts := by
    obtain ⟨inside, enclosed, _⟩ := readMembersWithin_enclosed fills layout depth []
    rw [writeObject_eq, ← List.append_nil (layout.enclose _ _ _ _), enclosed]
    exact ⟨'\x7b', inside, rfl, rfl, by decide, by decide⟩
  eq {blanks rest} areBlanks _ := by
    obtain ⟨inside, enclosed, read⟩ := readMembersWithin_enclosed fills layout depth rest
    rw [writeObject_eq, enclosed, readStructure]
    have brace := skipBlanks_append areBlanks (show isBlank '\x7b' = false from rfl)
    simp [brace, Reader.convert, read, finish]

/-! ## Documents -/

/-- A written value alone is a document. -/
theorem readDocument_eq
    {value : α}
    {written : List Char}
    (takesBack : reader.TakesBack written value) :
    readDocument reader (String.ofList written) = .ok value := by
  simp [readDocument, takesBack.alone, skipBlanks]

end Json
end Statechart
