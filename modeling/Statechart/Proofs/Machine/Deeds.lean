import Statechart.Proofs.Machine.Response

/-!
# The deeds of a worker

The deeds of a worker are what the journal says about the worker alone, whatever callers
and callbacks do meanwhile. While a worker does something, events may be queued, and they
get the next numbers and the last places in the queue; but none is begun before the worker
takes it from the queue.
-/

namespace Statechart

variable {κ τ ω : Type}

namespace Activity

/-- The activity is only noted. The others go along with a change of the queue or of what
is published. -/
inductive IsRemark : Activity κ τ → Prop
  | refused (event : Event τ) : IsRemark (.refused event)
  | shown (view : View κ) : IsRemark (.shown view)
  | wrote (entry : Log.Entry) : IsRemark (.wrote entry)
  | asked (source : Nat) (verdict : Except GuardFault Bool) : IsRemark (.asked source verdict)
  | selected (transition : String) : IsRemark (.selected transition)
  | planned (exits entries : List κ) : IsRemark (.planned exits entries)
  | completed (step : Step) : IsRemark (.completed step)
  | failed (step : Step) (error : StepError) : IsRemark (.failed step error)
  | notified (observer : Nat) (notification : Notification κ τ) :
      IsRemark (.notified observer notification)
  | observerPanicked (observer : Nat) (kind message : String) :
      IsRemark (.observerPanicked observer kind message)
  | started (active : List κ) (observers : Nat) : IsRemark (.started active observers)
  | startFailed (state : String) (cause : Failure) : IsRemark (.startFailed state cause)
  | restored : IsRemark .restored
  | renamed (checkpoint : String) (id : Uuid) : IsRemark (.renamed checkpoint id)
  | stopFailed (state : String) (cause : Failure) : IsRemark (.stopFailed state cause)
  | stopped (processed : Nat) : IsRemark (.stopped processed)

/-- An activity that belongs to the worker, not to a caller, a callback or the queue. -/
def deed? : Activity κ τ → Option (Activity κ τ)
  | .accepted _ | .refused _ | .discarded _ | .renamed .. => none
  | .shown _ | .wrote _ | .observerPanicked .. => none
  | activity => some activity

/-- The event that a worker began with. -/
def began? : Activity κ τ → Option (Event τ)
  | .began event => some event
  | _ => none

/-- The snapshot that was published. -/
def published? : Activity κ τ → Option (Snapshot κ)
  | .published snapshot => some snapshot
  | _ => none

end Activity

namespace Session

/-- What the worker did, the earliest first. -/
def deeds (session : Session κ τ ω) : List (Activity κ τ) :=
  session.activities.filterMap Activity.deed?

/-- The events with which the worker began, the earliest first. -/
def begun (session : Session κ τ ω) : List (Event τ) :=
  session.activities.filterMap Activity.began?

theorem deeds_note (session : Session κ τ ω) (activity : Activity κ τ) :
    (session.note activity).deeds = session.deeds ++ activity.deed?.toList := by
  rw [deeds, activities, note, List.reverse_cons, List.filterMap_append]
  cases own : activity.deed? with
  | none => simp [own, deeds, activities]
  | some _ => simp [own, deeds, activities]

theorem begun_note (session : Session κ τ ω) (activity : Activity κ τ) :
    (session.note activity).begun = session.begun ++ activity.began?.toList := by
  rw [begun, activities, note, List.reverse_cons, List.filterMap_append]
  cases taken : activity.began? with
  | none => simp [taken, begun, activities]
  | some _ => simp [taken, begun, activities]

/-- The begin of an event is a deed. -/
theorem begun_eq_filterMap_deeds (session : Session κ τ ω) :
    session.begun = session.deeds.filterMap Activity.began? := by
  rw [begun, deeds, List.filterMap_filterMap]
  congr 1
  funext activity
  cases activity <;> rfl

/-- The snapshot that is shown after some deeds, where another one was shown before. -/
def shownAfter (shown : Snapshot κ) (deeds : List (Activity κ τ)) : Snapshot κ :=
  deeds.foldl (fun shown deed => deed.published?.getD shown) shown

theorem shownAfter_append
    (shown : Snapshot κ)
    (earlier later : List (Activity κ τ)) :
    shownAfter shown (earlier ++ later) = shownAfter (shownAfter shown earlier) later :=
  List.foldl_append

/-- Where nothing is published, what is shown stays. -/
theorem shownAfter_eq_self
    {deeds : List (Activity κ τ)}
    (nothing : ∀ deed ∈ deeds, deed.published? = none)
    (shown : Snapshot κ) :
    shownAfter shown deeds = shown := by
  induction deeds with
  | nil => rfl
  | cons deed deeds inductionHypothesis =>
      rw [shownAfter, List.foldl_cons, nothing deed List.mem_cons_self]
      exact inductionHypothesis fun other member => nothing other (List.mem_cons_of_mem _ member)

/-- What is shown was published last. -/
theorem shownAfter_eq_getLastD (shown : Snapshot κ) (deeds : List (Activity κ τ)) :
    shownAfter shown deeds = (deeds.filterMap Activity.published?).getLastD shown := by
  induction deeds generalizing shown with
  | nil => rfl
  | cons deed deeds inductionHypothesis =>
      refine (inductionHypothesis _).trans ?_
      cases published : deed.published? with
      | none => simp only [List.filterMap_cons_none published, published, Option.getD_none]
      | some snapshot =>
          simp only [List.filterMap_cons_some published, List.getLastD_cons, published,
            Option.getD_some]

/-- From one session to a later one a worker did some deeds, while events may have been
queued. -/
structure Proceeds
    (before : Session κ τ ω)
    (deeds : List (Activity κ τ))
    (after : Session κ τ ω) : Prop where
  /-- The deeds are recorded. -/
  deeds_eq : after.deeds = before.deeds ++ deeds
  /-- What is shown was published last. -/
  published_eq : after.published = shownAfter before.published deeds
  /-- No event was begun. -/
  begun_eq : after.begun = before.begun
  /-- Accepted events got the next numbers and the last places in the queue. -/
  admitted : ∃ events : List (Event τ),
    after.accepted = before.accepted ++ events ∧
      after.queue.events = before.queue.events ++ events ∧
      after.number = before.number + UInt64.ofNat events.length ∧
      events.map Event.number = Word.following before.number events.length
  /-- What is stopped stays stopped. -/
  stopped : before.phase = .stopped → after.phase = .stopped
  /-- What has begun does not begin again. -/
  not_created : before.phase ≠ .created → after.phase ≠ .created

namespace Proceeds

theorem refl (session : Session κ τ ω) : session.Proceeds [] session where
  deeds_eq := (List.append_nil _).symm
  published_eq := rfl
  begun_eq := rfl
  admitted :=
    ⟨[], (List.append_nil _).symm, (List.append_nil _).symm, (UInt64.add_zero _).symm, rfl⟩
  stopped := id
  not_created := id

theorem trans
    {first second third : Session κ τ ω}
    {earlier later : List (Activity κ τ)}
    (before : first.Proceeds earlier second)
    (after : second.Proceeds later third) :
    first.Proceeds (earlier ++ later) third where
  deeds_eq := by rw [after.deeds_eq, before.deeds_eq, List.append_assoc]
  published_eq := by rw [after.published_eq, before.published_eq, shownAfter_append]
  begun_eq := after.begun_eq.trans before.begun_eq
  admitted := by
    obtain ⟨events, accepted_eq, queued_eq, number_eq, numbers_eq⟩ := before.admitted
    obtain ⟨more, acceptedMore, queuedMore, numberMore, numbersMore⟩ := after.admitted
    refine ⟨events ++ more, ?_, ?_, ?_, ?_⟩
    · rw [acceptedMore, accepted_eq, List.append_assoc]
    · rw [queuedMore, queued_eq, List.append_assoc]
    · rw [numberMore, number_eq, List.length_append, UInt64.ofNat_add, UInt64.add_assoc]
    · rw [List.map_append, numbers_eq, numbersMore, number_eq, List.length_append,
        Word.following_append]
  stopped := after.stopped ∘ before.stopped
  not_created := after.not_created ∘ before.not_created

/-- Where neither the journal nor the queue nor what is shown has changed, nothing has been
done. -/
theorem of_eq
    {before after : Session κ τ ω}
    (journal_eq : after.journal = before.journal)
    (events_eq : after.queue.events = before.queue.events)
    (number_eq : after.number = before.number)
    (published_eq : after.published = before.published)
    (stopped : before.phase = .stopped → after.phase = .stopped)
    (not_created : before.phase ≠ .created → after.phase ≠ .created) :
    before.Proceeds [] after where
  deeds_eq := by simp only [deeds, activities, journal_eq, List.append_nil]
  published_eq := published_eq
  begun_eq := by simp only [begun, activities, journal_eq]
  admitted := ⟨[], by simp only [accepted, activities, journal_eq, List.append_nil],
    by rw [events_eq, List.append_nil], number_eq.trans (UInt64.add_zero _).symm, rfl⟩
  stopped := stopped
  not_created := not_created

end Proceeds

/-- Whatever a worker does, the accepted events stay numbered without gaps. -/
theorem IsNumbered.of_proceeds
    {base : UInt64}
    {before after : Session κ τ ω}
    {deeds : List (Activity κ τ)}
    (numbered : before.IsNumbered base)
    (proceeds : before.Proceeds deeds after) :
    after.IsNumbered base := by
  obtain ⟨events, accepted_eq, _, number_eq, numbers_eq⟩ := proceeds.admitted
  refine ⟨?_, ?_⟩
  · rw [number_eq, accepted_eq, numbered.number_eq, List.length_append, UInt64.ofNat_add,
      UInt64.add_assoc]
  · rw [accepted_eq, List.map_append, numbers_eq, numbered.numbers_eq, numbered.number_eq,
      List.length_append, Word.following_append]

/-- A remark is a deed of the worker, or says nothing about it. -/
theorem proceeds_note
    (session : Session κ τ ω)
    {activity : Activity κ τ}
    (isRemark : activity.IsRemark) :
    session.Proceeds activity.deed?.toList (session.note activity) := by
  have published_eq : session.published =
      shownAfter session.published activity.deed?.toList := by
    cases isRemark <;> rfl
  have noEvent : activity.accepted? = none := by
    cases isRemark <;> rfl
  have nothingBegun : activity.began? = none := by
    cases isRemark <;> rfl
  exact {
    deeds_eq := session.deeds_note activity
    published_eq := published_eq
    begun_eq := by
      rw [begun_note, nothingBegun]
      exact List.append_nil _
    admitted := by
      refine ⟨[], ?_, (List.append_nil _).symm, (UInt64.add_zero _).symm, rfl⟩
      rw [accepted_note, noEvent]
      rfl
    stopped := id
    not_created := id }

/-- Publishing is a deed. -/
theorem proceeds_publish (session : Session κ τ ω) (snapshot : Snapshot κ) :
    session.Proceeds [.published snapshot] (session.publish snapshot) where
  deeds_eq := deeds_note { session with published := snapshot } (.published snapshot)
  published_eq := rfl
  begun_eq := by
    rw [publish, begun_note]
    exact List.append_nil _
  admitted := by
    refine ⟨[], ?_, (List.append_nil _).symm, (UInt64.add_zero _).symm, rfl⟩
    rw [publish, accepted_note]
    rfl
  stopped := id
  not_created := id

/-- Queueing an event is no deed of the worker. -/
theorem proceeds_fire (session : Session κ τ ω) (event : Event τ) :
    session.Proceeds [] (session.fire event).2 := by
  rcases session.fire_outcome event with ⟨_, fired⟩ | ⟨_, _, fired⟩ | ⟨_, _, queue, pushed, fired⟩
  · rw [fired]
    exact .refl session
  · rw [fired]
    exact session.proceeds_note (.refused _)
  · rw [fired]
    exact {
      deeds_eq := deeds_note _ _
      published_eq := rfl
      begun_eq := (begun_note _ _).trans (List.append_nil _)
      admitted := ⟨[event.numbered (session.number + 1)], accepted_note _ _,
        Queue.events_of_push?_event pushed, rfl, rfl⟩
      stopped := id
      not_created := id }

end Session

end Statechart
