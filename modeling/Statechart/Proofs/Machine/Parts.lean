import Statechart.Proofs.Machine.Looking

/-!
# The parts of a task

Callbacks run in parts of a task: while observers are told, while guards are asked, and while
steps are taken. A worker that has begun a task is in one of its parts or between two of
them.
-/

namespace Statechart

variable {κ τ ω α β : Type}

namespace Work

/-- Work that goes on with other work is in its first part or behind it. -/
theorem Leads.of_bind
    {work : Work κ τ ω α}
    {continuation : α → Work κ τ ω β}
    {deeds : List (Activity κ τ)}
    {later : Work κ τ ω β}
    (leads : (work.bind continuation).Leads deeds later) :
    (∃ rest, work.Leads deeds rest ∧ later = rest.bind continuation) ∨
      ∃ result earlier others, deeds = earlier ++ others ∧ work.Performs earlier result ∧
        (continuation result).Leads others later := by
  induction work generalizing deeds with
  | done result => exact .inr ⟨result, [], deeds, rfl, .refl _, leads⟩
  | note activity isRemark next inductionHypothesis =>
      cases leads with
      | refl => exact .inl ⟨_, .refl _, rfl⟩
      | note leads =>
          rcases inductionHypothesis leads with
            ⟨rest, within, rfl⟩ | ⟨result, earlier, others, rfl, performs, leads⟩
          · exact .inl ⟨rest, .note within, rfl⟩
          · exact .inr ⟨result, _, others, (List.append_assoc ..).symm, .note performs, leads⟩
  | publish snapshot next inductionHypothesis =>
      cases leads with
      | refl => exact .inl ⟨_, .refl _, rfl⟩
      | publish leads =>
          rcases inductionHypothesis leads with
            ⟨rest, within, rfl⟩ | ⟨result, earlier, others, rfl, performs, leads⟩
          · exact .inl ⟨rest, .publish within, rfl⟩
          · exact .inr ⟨result, _, others, rfl, .publish performs, leads⟩
  | fire event next inductionHypothesis =>
      cases leads with
      | refl => exact .inl ⟨_, .refl _, rfl⟩
      | fire answer leads =>
          rcases inductionHypothesis answer leads with
            ⟨rest, within, rfl⟩ | ⟨result, earlier, others, rfl, performs, leads⟩
          · exact .inl ⟨rest, .fire answer within, rfl⟩
          · exact .inr ⟨result, earlier, others, rfl, .fire answer performs, leads⟩
  | read next inductionHypothesis =>
      cases leads with
      | refl => exact .inl ⟨_, .refl _, rfl⟩
      | read session leads =>
          rcases inductionHypothesis session leads with
            ⟨rest, within, rfl⟩ | ⟨result, earlier, others, rfl, performs, leads⟩
          · exact .inl ⟨rest, .read session within, rfl⟩
          · exact .inr ⟨result, earlier, others, rfl, .read session performs, leads⟩
  | retain world next inductionHypothesis =>
      cases leads with
      | refl => exact .inl ⟨_, .refl _, rfl⟩
      | retain leads =>
          rcases inductionHypothesis leads with
            ⟨rest, within, rfl⟩ | ⟨result, earlier, others, rfl, performs, leads⟩
          · exact .inl ⟨rest, .retain within, rfl⟩
          · exact .inr ⟨result, earlier, others, rfl, .retain performs, leads⟩

/-- A part of work that leads on leads on within the work. -/
theorem Leads.bind
    {work rest : Work κ τ ω α}
    {deeds : List (Activity κ τ)}
    (leads : work.Leads deeds rest)
    (continuation : α → Work κ τ ω β) :
    (work.bind continuation).Leads deeds (rest.bind continuation) := by
  induction leads with
  | refl work => exact .refl _
  | note _ inductionHypothesis => exact .note inductionHypothesis
  | publish _ inductionHypothesis => exact .publish inductionHypothesis
  | fire answer _ inductionHypothesis => exact .fire answer inductionHypothesis
  | read session _ inductionHypothesis => exact .read session inductionHypothesis
  | retain _ inductionHypothesis => exact .retain inductionHypothesis

/-- Work that ends in publishing a worker is in its first part or behind it. -/
theorem of_leads_thenPublish
    {definition : Definition κ τ ω}
    {work later : Work κ τ ω (Worker κ)}
    {deeds : List (Activity κ τ)}
    (leads : (thenPublish definition work).Leads deeds later) :
    (∃ rest, work.Leads deeds rest ∧ later = thenPublish definition rest) ∨
      ∃ worker, (thenPublish definition work).Performs deeds worker ∧ later = .done worker := by
  have comes := leads
  rcases leads.of_bind with ⟨rest, within, rfl⟩ | ⟨worker, earlier, others, rfl, performs, leads⟩
  · exact .inl ⟨rest, within, rfl⟩
  · cases leads with
    | refl =>
        rw [List.append_nil]
        exact .inl ⟨.done worker, performs, rfl⟩
    | publish leads =>
        cases leads
        exact .inr ⟨worker, comes, rfl⟩

/-! ## The parts of an event -/

section Parts

variable [DecidableEq κ] [StateKey κ] [DecidableEq τ] [Inspect τ] (definition : Definition κ τ ω)

/-- How the observers can be told of the end of an event with some context. -/
inductive IsClosing (context : Context κ τ) : Option (Notification κ τ) → Prop
  /-- A transition that fails is reported by its failure alone. -/
  | failed : IsClosing context none
  | declined : IsClosing context (some (.declined context))
  | completed (before after : List κ) :
      IsClosing context (some (.completed before after context))

/-- Tells the observers that an event begins. -/
def tellBegin (worker : Worker κ) (event : Event τ) : Work κ τ ω Unit :=
  notify definition.observers (.begin (.new event (worker.active definition)))

/-- Asks the guards of the candidates for an event. -/
def select
    (worker : Worker κ)
    (event : Event τ) : Work κ τ ω (Option (Entry κ τ ω) × List StepError) :=
  choose definition event
    (definition.table.candidatesFrom definition.graph
      (worker.configuration.leaves definition.graph) event.trigger)

/-- Tells the observers how an event ended, if there is anything to tell. -/
def tellEnd (worker : Worker κ) : Option (Notification κ τ) → Work κ τ ω (Worker κ)
  | none => .done worker
  | some notification => (notify definition.observers notification).bind fun _ => .done worker

/-- Reports what there is to report of an event that has been published. -/
def report
    (context : Context κ τ)
    (closing : Option (Notification κ τ))
    (worker : Worker κ) : Work κ τ ω (Worker κ) :=
  (reportErrors definition context).bind fun _ => tellEnd definition worker closing

/-- The worker with a record of a completed transition. -/
def withRecord
    (before : List κ)
    (event : Event τ)
    (clock : Timestamp)
    (moved : Worker κ) : Worker κ :=
  { moved with
    history := moved.history.record
      ⟨before, moved.active definition, inspect event.trigger, event.number, clock⟩ }

/-- Ends an event with the outcome of the steps of an entry. -/
def conclude
    (worker : Worker κ)
    (context : Context κ τ) : Option StepError × Configuration → Work κ τ ω (Worker κ)
  | (failure, configuration) =>
      let context := context.fail failure.toList
      let moved := { worker with configuration }
      match failure with
      | some _ => (finishEvent definition moved).bind (report definition context none)
      | none =>
          .read fun session =>
            (finishEvent definition
                (withRecord definition context.active context.event session.clock moved)).bind
              (report definition context
                (some (.completed context.active (moved.active definition) context)))

/-- What is known about an event when an entry has been selected. -/
def contextOf
    (worker : Worker κ)
    (event : Event τ)
    (entry : Entry κ τ ω)
    (faults : List StepError) : Context κ τ :=
  ((Context.new event (worker.active definition)).fail faults).select entry.transition.source
    (entry.target.bind definition.graph.key?) entry.transition.describe

/-- Goes on with an event by what has been selected. -/
def goOn
    (worker : Worker κ)
    (event : Event τ) : Option (Entry κ τ ω) × List StepError → Work κ τ ω (Worker κ)
  | (none, faults) =>
      let context := (Context.new event (worker.active definition)).fail faults
      (finishEvent definition worker).bind
        (report definition context (some (.declined context)))
  | (some entry, faults) =>
      (execute definition entry event worker.configuration).bind
        (conclude definition worker (contextOf definition worker event entry faults))

/-- An event is processed part by part. -/
theorem process_eq (worker : Worker κ) (event : Event τ) :
    process definition worker event =
      (tellBegin definition worker event).bind fun _ =>
        (select definition worker event).bind (goOn definition worker event) := by
  unfold process tellBegin select
  refine congrArg (bind _) (funext fun _ => congrArg (bind _) (funext fun selected => ?_))
  obtain ⟨chosen, faults⟩ := selected
  cases chosen with
  | none => rfl
  | some entry =>
      refine congrArg (bind _) (funext fun outcome => ?_)
      obtain ⟨failure, configuration⟩ := outcome
      cases failure <;> rfl

end Parts

/-! ## The parts of the end -/

/-- The end of a worker is something to note. -/
theorem isRemark_stopped (worker : Worker κ) :
    (.stopped worker.metadata.processed : Activity κ τ).IsRemark :=
  .stopped _

/-- Notes the end of a worker that has left everything. -/
def noteEnd (worker : Worker κ) : Work κ τ ω (Worker κ) :=
  .note _ (isRemark_stopped worker) (.done worker)

theorem isPlain_noteEnd (worker : Worker κ) : (noteEnd worker : Work κ τ ω _).IsPlain :=
  .note rfl (.done _)

/-- At the end everything is left, the worker is published, and the end is noted. -/
theorem shutdown_eq
    [DecidableEq κ]
    [StateKey κ]
    (definition : Definition κ τ ω)
    (worker : Worker κ) :
    shutdown definition worker =
      (thenPublish definition
        (leaveAll definition (Plan.shutdown definition.graph worker.configuration) worker)).bind
          noteEnd := rfl

end Work
end Statechart
