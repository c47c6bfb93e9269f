import Statechart.Proofs.Machine.Parts
import Statechart.Proofs.Machine.Unfolding

/-!
# What callbacks have seen

The journal tells what callbacks saw of their machine. Between the moment at which a callback
looks and the moment at which this is noted anything may happen, but nobody except the worker
publishes. What is noted as seen is therefore what had been published last.
-/

namespace Statechart

variable {κ τ ω α β : Type}

/-! ## Honest work -/

namespace Work

/-- Where a snapshot is shown, and nobody else publishes, the work notes as seen only what is
shown by then, whatever its requests are answered. -/
def IsHonest : Work κ τ ω α → Snapshot κ → Prop
  | .done _, _ => True
  | .note activity _ next, shown =>
      (∀ view, activity.seen? = some view → view.snapshot = shown) ∧ next.IsHonest shown
  | .publish snapshot next, _ => next.IsHonest snapshot
  | .fire _ next, shown => ∀ answer, (next answer).IsHonest shown
  | .read next, shown =>
      ∀ session : Session κ τ ω, session.published = shown → (next session).IsHonest shown
  | .retain _ next, shown => next.IsHonest shown

/-- Plain work that goes on with honest work is honest. -/
theorem IsPlain.isHonest_bind
    {work : Work κ τ ω α}
    {continuation : α → Work κ τ ω β}
    {shown : Snapshot κ}
    (isPlain : work.IsPlain)
    (rest : ∀ result, (continuation result).IsHonest shown) :
    (work.bind continuation).IsHonest shown := by
  induction isPlain with
  | done result => exact rest result
  | note notSeen _ inductionHypothesis =>
      refine ⟨fun view seen => ?_, inductionHypothesis⟩
      rw [notSeen] at seen
      contradiction
  | fire _ inductionHypothesis => exact inductionHypothesis
  | look _ inductionHypothesis =>
      intro session published_eq
      refine ⟨fun view seen => ?_, inductionHypothesis session.view⟩
      rw [← Option.some.inj seen]
      exact published_eq
  | read _ _ inductionHypothesis => exact fun session _ => inductionHypothesis session
  | retain _ inductionHypothesis => exact inductionHypothesis

theorem IsPlain.isHonest
    {work : Work κ τ ω α}
    (isPlain : work.IsPlain)
    (shown : Snapshot κ) :
    work.IsHonest shown := by
  rw [← bind_done work]
  exact isPlain.isHonest_bind fun _ => trivial

/-- Honest work stays honest after a request. -/
theorem IsHonest.step
    {work : Work κ τ ω α}
    {session : Session κ τ ω}
    (isHonest : work.IsHonest session.published) :
    (work.step session).1.IsHonest (work.step session).2.published := by
  cases work with
  | done result => trivial
  | note activity isRemark next => exact isHonest.2
  | publish snapshot next => exact isHonest
  | fire event next =>
      rw [Work.step, (session.proceeds_fire event).published_eq]
      exact isHonest _
  | read next => exact isHonest session rfl
  | retain world next => exact isHonest

section Tasks

variable (definition : Definition κ τ ω)

/-- Publishing a worker after plain work is honest. -/
theorem IsPlain.isHonest_thenPublish
    {work : Work κ τ ω (Worker κ)}
    (isPlain : work.IsPlain)
    (shown : Snapshot κ) :
    (thenPublish definition work).IsHonest shown :=
  isPlain.isHonest_bind fun _ => trivial

theorem isHonest_report
    (context : Context κ τ)
    (closing : Option (Notification κ τ))
    (worker : Worker κ)
    (shown : Snapshot κ) :
    (report definition context closing worker).IsHonest shown := by
  refine (isPlain_reportErrors definition context).isHonest_bind fun _ => ?_
  cases closing with
  | none => trivial
  | some notification => exact (isPlain_notify _ _).isHonest_bind fun _ => trivial

theorem isHonest_conclude
    [Inspect τ]
    (worker : Worker κ)
    (context : Context κ τ)
    (outcome : Option StepError × Configuration)
    (shown : Snapshot κ) :
    (conclude definition worker context outcome).IsHonest shown := by
  obtain ⟨failure, configuration⟩ := outcome
  cases failure with
  | some error => exact fun _ _ => isHonest_report ..
  | none => exact fun _ _ _ _ => isHonest_report ..

variable [DecidableEq κ] [StateKey κ]

theorem isHonest_shutdown (worker : Worker κ) (shown : Snapshot κ) :
    (shutdown definition worker).IsHonest shown := by
  rw [shutdown_eq, thenPublish, bind_assoc]
  exact (isPlain_leaveAll _ _ _).isHonest_bind fun _ => (isPlain_noteEnd _).isHonest _

variable [DecidableEq τ] [Inspect τ]

/-- Processing an event is honest. -/
theorem isHonest_process
    (worker : Worker κ)
    (event : Event τ)
    (shown : Snapshot κ) :
    (process definition worker event).IsHonest shown := by
  rw [process_eq]
  refine (isPlain_notify _ _).isHonest_bind fun _ =>
    (isPlain_choose _ _ _).isHonest_bind fun selected => ?_
  obtain ⟨chosen, faults⟩ := selected
  cases chosen with
  | none => exact fun _ _ => isHonest_report ..
  | some entry =>
      exact (isPlain_execute _ _ _ _).isHonest_bind fun _ => isHonest_conclude ..

end Tasks
end Work

/-! ## What the journal lists as seen -/

namespace Session

/-- Whatever the journal lists as seen had been published last, where something blank was shown
at first. -/
def Attests (blank : Snapshot κ) (session : Session κ τ ω) : Prop :=
  ∀ earlier view later, session.activities = earlier ++ .shown view :: later →
    view.snapshot = shownAfter blank earlier

/-- Activities of the session that are not about something seen are added to the journal. -/
def Extends (before after : Session κ τ ω) : Prop :=
  ∃ more, after.activities = before.activities ++ more ∧
    ∀ activity ∈ more, activity.seen? = none

theorem activities_note (session : Session κ τ ω) (activity : Activity κ τ) :
    (session.note activity).activities = session.activities ++ [activity] := by
  rw [activities, note, List.reverse_cons]
  rfl

/-- The deeds of a session publish what the session has published. -/
theorem shownAfter_activities (blank : Snapshot κ) (session : Session κ τ ω) :
    shownAfter blank session.activities = shownAfter blank session.deeds := by
  rw [shownAfter_eq_getLastD, shownAfter_eq_getLastD, deeds, List.filterMap_filterMap]
  congr 2
  funext activity
  cases activity <;> rfl

variable {blank : Snapshot κ} {before after : Session κ τ ω}

theorem Extends.of_eq (journal_eq : after.journal = before.journal) : before.Extends after :=
  ⟨[], by rw [activities, journal_eq, List.append_nil]; rfl, by simp⟩

theorem extends_note
    (session : Session κ τ ω)
    {activity : Activity κ τ}
    (notSeen : activity.seen? = none) :
    session.Extends (session.note activity) :=
  ⟨[activity], session.activities_note activity, by simpa using notSeen⟩

theorem extends_fire (session : Session κ τ ω) (event : Event τ) :
    session.Extends (session.fire event).2 := by
  rcases session.fire_outcome event with ⟨_, fired⟩ | ⟨_, _, fired⟩ | ⟨_, _, queue, _, fired⟩
  · rw [fired]
    exact .of_eq rfl
  · rw [fired]
    exact session.extends_note rfl
  · rw [fired]
    exact extends_note _ rfl

/-- Nothing new is listed as seen. -/
theorem Attests.extend (attests : before.Attests blank) (isExtended : before.Extends after) :
    after.Attests blank := by
  obtain ⟨more, activities_eq, unseen⟩ := isExtended
  intro earlier view later split
  have notMore : .shown view ∉ more := fun member => nomatch unseen _ member
  rw [activities_eq] at split
  rcases List.append_eq_append_iff.mp split with ⟨between, _, rfl⟩ | ⟨between, before_eq, rest⟩
  · exact absurd (List.mem_append_right _ List.mem_cons_self) notMore
  · cases between with
    | nil =>
        obtain rfl : .shown view :: later = more := rest
        exact absurd List.mem_cons_self notMore
    | cons other between =>
        obtain ⟨rfl, _⟩ := List.cons.inj rest
        exact attests earlier view between before_eq

/-- What is shown is listed as seen. -/
theorem Attests.note
    (attests : before.Attests blank)
    {activity : Activity κ τ}
    (honest : ∀ view, activity.seen? = some view →
      view.snapshot = shownAfter blank before.activities) :
    (before.note activity).Attests blank := by
  intro earlier view later split
  rw [activities_note] at split
  rcases List.eq_nil_or_concat later with rfl | ⟨others, last, rfl⟩
  · obtain ⟨rfl, rfl⟩ := List.append_singleton_inj.mp split
    exact honest view rfl
  · rw [List.concat_eq_append, ← List.cons_append, ← List.append_assoc] at split
    exact attests earlier view others (List.append_singleton_inj.mp split).1

end Session

/-! ## Courses -/

variable [DecidableEq κ] [StateKey κ] [DecidableEq τ] [Inspect τ]

/-- What callers do to a machine that has begun is never listed as seen. -/
theorem Machine.extends_apply
    {machine : Machine κ τ ω}
    (begun : machine.session.phase ≠ .created)
    {operation : Operation κ τ ω}
    (byCaller : operation ≠ .advance) :
    machine.session.Extends (machine.apply operation).session := by
  cases operation with
  | start hasRuntime =>
      rw [apply, start, launch_of_begun begun]
      exact .of_eq rfl
  | startFrom checkpoint hasRuntime =>
      rw [apply, startFrom_of_begun begun]
      rcases machine.comparingName_cases checkpoint with same | noted
      · rw [same]
        exact .of_eq rfl
      · rw [noted]
        exact Session.extends_note _ rfl
  | fire event => exact machine.session.extends_fire event
  | settle =>
      rw [apply, settle]
      split <;> exact .of_eq rfl
  | requestStop =>
      rw [apply, requestStop]
      split <;> exact .of_eq rfl
  | advance => contradiction
  | deposit => exact .of_eq rfl
  | change world => exact .of_eq rfl
  | pass clock => exact .of_eq rfl

omit [DecidableEq κ] [StateKey κ] [DecidableEq τ] [Inspect τ] in
/-- When the queue is emptied at the end nothing is listed as seen. -/
theorem Machine.extends_close (machine : Machine κ τ ω) :
    machine.session.Extends machine.close.session := by
  simp only [close]
  split
  · exact .of_eq rfl
  · exact Session.extends_note _ rfl

omit [DecidableEq κ] [StateKey κ] [DecidableEq τ] [Inspect τ] in
/-- A request lists as seen only what is shown. -/
theorem Session.Attests.step
    {blank : Snapshot κ}
    {session : Session κ τ ω}
    (attests : session.Attests blank)
    (shown_eq : session.published = shownAfter blank session.activities)
    {work : Work κ τ ω α}
    (isHonest : work.IsHonest session.published) :
    (work.step session).2.Attests blank := by
  cases work with
  | done result => exact attests
  | note activity isRemark next =>
      exact attests.note fun view seen => (isHonest.1 view seen).trans shown_eq
  | publish snapshot next =>
      have published : session.Extends (session.publish snapshot) :=
        extends_note { session with published := snapshot } rfl
      exact attests.extend published
  | fire event next => exact attests.extend (session.extends_fire event)
  | read next => exact attests
  | retain world next => exact attests.extend (.of_eq rfl)

namespace Scene

/-- Whatever the journal lists as seen was shown by then, and the worker keeps to that. -/
structure Attests (blank : Snapshot κ) (scene : Scene κ τ ω) : Prop where
  /-- What is listed as seen had been published last. -/
  listed : scene.machine.session.Attests blank
  /-- The rest of the task in hand notes only what it sees. -/
  isHonest {task : Task τ} {work : Work κ τ ω (Worker κ)} :
    scene.hand = some (task, work) → work.IsHonest scene.machine.session.published

variable
  {definition : Definition κ τ ω}
  {opening : Work κ τ ω (Worker κ)}
  {base : UInt64}
  {blank : Snapshot κ}
  {scene : Scene κ τ ω}
  {chronicle : Chronicle κ τ ω}

/-- A worker that takes up its next task lists nothing as seen. -/
theorem attests_takeUp (attests : scene.Attests blank) : scene.takeUp.Attests blank := by
  rw [takeUp]
  split
  · exact attests
  · split
    · refine ⟨attests.listed.extend (Machine.extends_close _), ?_⟩
      rintro _ _ ⟨⟩
      exact Work.isHonest_shutdown ..
    · split
      · refine ⟨attests.listed.extend (Session.extends_note _ rfl), ?_⟩
        rintro _ _ ⟨⟩
        exact Work.isHonest_process ..
      · exact ⟨attests.listed, attests.isHonest⟩
      · exact attests

/-- Whatever happens next, what is listed as seen was shown by then. -/
theorem attests_apply
    (unfolds : scene.Unfolds definition opening base blank chronicle)
    (attests : scene.Attests blank)
    (move : Move κ τ ω) :
    (scene.apply move).Attests blank := by
  cases move with
  | operation operation =>
      by_cases byWorker : operation = .advance
      · subst byWorker
        rw [apply, advance]
        split
        · exact attests_takeUp attests
        · exact ⟨attests.listed, by rintro _ _ ⟨⟩⟩
        · rename_i task work _ busy
          have shown_eq : scene.machine.session.published =
              Session.shownAfter blank scene.machine.session.activities := by
            rw [Session.shownAfter_activities, unfolds.shown_eq]
          refine ⟨attests.listed.step shown_eq (attests.isHonest busy), ?_⟩
          rintro _ _ ⟨⟩
          exact (attests.isHonest busy).step
      · obtain ⟨proceeds, _⟩ := Machine.proceeds_apply unfolds.begun byWorker
        rw [apply_of_ne_advance scene byWorker]
        refine ⟨attests.listed.extend (Machine.extends_apply unfolds.begun byWorker), ?_⟩
        intro task work busy
        simp only [proceeds.published_eq]
        exact attests.isHonest busy
  | tell => exact ⟨attests.listed, attests.isHonest⟩

/-- Whatever happens, what is listed as seen was shown by then. -/
theorem attests_perform
    (forest : definition.graph.IsForest)
    (fits : definition.table.Fits definition.graph)
    (unfolds : scene.Unfolds definition opening base blank chronicle)
    (attests : scene.Attests blank)
    (moves : List (Move κ τ ω)) :
    (scene.perform moves).Attests blank := by
  induction moves generalizing scene chronicle with
  | nil => exact attests
  | cons move moves inductionHypothesis =>
      obtain ⟨_, later⟩ := unfolds.apply forest fits move
      exact inductionHypothesis later (attests_apply unfolds attests move)

end Scene

namespace Work

omit [DecidableEq τ] [Inspect τ] in
/-- Whatever a worker does first is plain. -/
theorem Begins.isPlain
    {definition : Definition κ τ ω}
    {beginning : Beginning κ}
    {work : Work κ τ ω (Worker κ)}
    (begins : Begins definition beginning work) :
    work.IsPlain := by
  cases begins with
  | start clock world => exact isPlain_enterInitial _ _
  | restore _ => exact .note rfl (.done _)

end Work

omit [DecidableEq κ] [StateKey κ] [DecidableEq τ] [Inspect τ] in
/-- When a machine is set running nothing has been seen. -/
theorem Scene.attests_launched
    {machine : Machine κ τ ω}
    (unseen : ∀ activity ∈ machine.session.activities, activity.seen? = none)
    {opening : Work κ τ ω (Worker κ)}
    (isPlain : opening.IsPlain)
    (base : UInt64)
    (blank : Snapshot κ) :
    (launched machine base opening).Attests blank where
  listed earlier view later split := by
    have activities_eq : machine.session.activities = earlier ++ .shown view :: later := split
    have seen := unseen (.shown view) (by simp [activities_eq])
    contradiction
  isHonest := by
    rintro _ _ ⟨⟩
    exact isPlain.isHonest_thenPublish ..

omit [DecidableEq τ] [Inspect τ] in
/-- When a machine has just begun nothing has been seen. -/
theorem Scene.attests_begin
    {definition : Definition κ τ ω}
    {clock : Timestamp}
    {world : ω}
    {beginning : Beginning κ}
    {first : Scene κ τ ω}
    (accepted : begin (Machine.new definition clock world) beginning = .ok first)
    (blank : Snapshot κ) :
    first.Attests blank := by
  cases beginning with
  | start =>
      cases accepted
      exact attests_launched (fun _ member => absurd member List.not_mem_nil)
        (Work.isPlain_enterInitial _ _) _ _
  | restore checkpoint =>
      rw [begin] at accepted
      split at accepted
      · contradiction
      · cases accepted
        refine attests_launched ?_ (.note rfl (.done _)) _ _
        rcases (Machine.new definition clock world).comparingName_cases checkpoint with
          same | noted
        · rw [same]
          exact fun _ member => absurd member List.not_mem_nil
        · rw [noted]
          intro activity member
          rw [List.mem_singleton.mp member]
          rfl

/-- Whatever happens in the course of time, callbacks have seen what had been published
last. -/
theorem Course.attests
    {draft : MachineDraft κ τ ω}
    {definition : Definition κ τ ω}
    (built : draft.build = .ok definition)
    (course : Course definition) :
    course.scene.Attests course.blank := by
  have forest := (Definition.isWellFormed_of_build built).forest
  obtain ⟨_, _, unfolds⟩ := Scene.unfolds_begin course.accepted
  exact Scene.attests_perform forest (Definition.fits_of_build built) unfolds
    (Scene.attests_begin course.accepted _) course.moves

end Statechart
