import Statechart.Proofs.Machine.Deeds

/-!
# Work at a session

A worker shares its session with callers, who may use it between any two things that the
worker does. Work is what a worker does, cut into single requests to the session. Each
request meets the session as it is by then, so what work comes to depends on how the
requests are answered. The deeds on the way are told for all answers at once.
-/

namespace Statechart

variable {κ τ ω α β : Type}

/-- What a worker asks of its session, one request after the other. -/
inductive Work (κ τ ω α : Type)
  /-- The end, with a result. -/
  | done (result : α)
  /-- Adds a remark to the journal. -/
  | note (activity : Activity κ τ) (isRemark : activity.IsRemark) (next : Work κ τ ω α)
  /-- Publishes a snapshot. -/
  | publish (snapshot : Snapshot κ) (next : Work κ τ ω α)
  /-- Queues an event for a callback. -/
  | fire (event : Event τ) (next : Except MachineError Unit → Work κ τ ω α)
  /-- Looks at the session. -/
  | read (next : Session κ τ ω → Work κ τ ω α)
  /-- Keeps the state of the client. -/
  | retain (world : ω) (next : Work κ τ ω α)

namespace Work

/-- Goes on with other work that depends on the result. -/
def bind (work : Work κ τ ω α) (continuation : α → Work κ τ ω β) : Work κ τ ω β :=
  match work with
  | .done result => continuation result
  | .note activity isRemark next => .note activity isRemark (next.bind continuation)
  | .publish snapshot next => .publish snapshot (next.bind continuation)
  | .fire event next => .fire event fun answer => (next answer).bind continuation
  | .read next => .read fun session => (next session).bind continuation
  | .retain world next => .retain world (next.bind continuation)

/-- Makes one request. -/
def step : Work κ τ ω α → Session κ τ ω → Work κ τ ω α × Session κ τ ω
  | .done result, session => (.done result, session)
  | .note activity _ next, session => (next, session.note activity)
  | .publish snapshot next, session => (next, session.publish snapshot)
  | .fire event next, session => (next (session.fire event).1, (session.fire event).2)
  | .read next, session => (next session, session)
  | .retain world next, session => (next, { session with world })

/-- Makes all requests without interruption. -/
def run : Work κ τ ω α → Session κ τ ω → α × Session κ τ ω
  | .done result, session => (result, session)
  | .note activity _ next, session => next.run (session.note activity)
  | .publish snapshot next, session => next.run (session.publish snapshot)
  | .fire event next, session => (next (session.fire event).1).run (session.fire event).2
  | .read next, session => (next session).run session
  | .retain world next, session => next.run { session with world }

@[simp] theorem run_done (result : α) (session : Session κ τ ω) :
    (done result : Work κ τ ω α).run session = (result, session) := rfl

@[simp] theorem run_note
    (activity : Activity κ τ)
    (isRemark : activity.IsRemark)
    (next : Work κ τ ω α)
    (session : Session κ τ ω) :
    (note activity isRemark next).run session = next.run (session.note activity) := rfl

@[simp] theorem run_publish
    (snapshot : Snapshot κ)
    (next : Work κ τ ω α)
    (session : Session κ τ ω) :
    (publish snapshot next).run session = next.run (session.publish snapshot) := rfl

@[simp] theorem run_fire
    (event : Event τ)
    (next : Except MachineError Unit → Work κ τ ω α)
    (session : Session κ τ ω) :
    (fire event next).run session =
      (next (session.fire event).1).run (session.fire event).2 := rfl

@[simp] theorem run_read (next : Session κ τ ω → Work κ τ ω α) (session : Session κ τ ω) :
    (read next).run session = (next session).run session := rfl

@[simp] theorem run_retain (world : ω) (next : Work κ τ ω α) (session : Session κ τ ω) :
    (retain world next).run session = next.run { session with world } := rfl

/-- Work that goes on with other work is carried out in this order. -/
@[simp] theorem run_bind
    (work : Work κ τ ω α)
    (continuation : α → Work κ τ ω β)
    (session : Session κ τ ω) :
    (work.bind continuation).run session =
      (continuation (work.run session).1).run (work.run session).2 := by
  induction work generalizing session with
  | done result => rfl
  | note activity isRemark next inductionHypothesis => exact inductionHypothesis _
  | publish snapshot next inductionHypothesis => exact inductionHypothesis _
  | fire event next inductionHypothesis => exact inductionHypothesis _ _
  | read next inductionHypothesis => exact inductionHypothesis session session
  | retain world next inductionHypothesis => exact inductionHypothesis _

/-- Going on twice is going on with what goes on. -/
theorem bind_assoc
    {γ : Type}
    (work : Work κ τ ω α)
    (first : α → Work κ τ ω β)
    (second : β → Work κ τ ω γ) :
    (work.bind first).bind second = work.bind fun result => (first result).bind second := by
  induction work with
  | done result => rfl
  | note activity isRemark next inductionHypothesis =>
      exact congrArg (note activity isRemark) inductionHypothesis
  | publish snapshot next inductionHypothesis =>
      exact congrArg (publish snapshot) inductionHypothesis
  | fire event next inductionHypothesis => exact congrArg (fire event) (funext inductionHypothesis)
  | read next inductionHypothesis => exact congrArg read (funext inductionHypothesis)
  | retain world next inductionHypothesis => exact congrArg (retain world) inductionHypothesis

/-- Going on by ending changes nothing. -/
theorem bind_done (work : Work κ τ ω α) : work.bind done = work := by
  induction work with
  | done result => rfl
  | note activity isRemark next inductionHypothesis =>
      exact congrArg (note activity isRemark) inductionHypothesis
  | publish snapshot next inductionHypothesis =>
      exact congrArg (publish snapshot) inductionHypothesis
  | fire event next inductionHypothesis => exact congrArg (fire event) (funext inductionHypothesis)
  | read next inductionHypothesis => exact congrArg read (funext inductionHypothesis)
  | retain world next inductionHypothesis => exact congrArg (retain world) inductionHypothesis

/-- Work does not set its machine running, and does not stop it. -/
theorem phase_run (work : Work κ τ ω α) (session : Session κ τ ω) :
    (work.run session).2.phase = session.phase := by
  induction work generalizing session with
  | done result => rfl
  | note activity isRemark next inductionHypothesis => exact inductionHypothesis _
  | publish snapshot next inductionHypothesis => exact inductionHypothesis _
  | fire event next inductionHypothesis =>
      rw [run_fire, inductionHypothesis, (session.passes_fire event).phase_eq]
  | read next inductionHypothesis => exact inductionHypothesis session session
  | retain world next inductionHypothesis => exact inductionHypothesis _

/-! ## What work leads to -/

/-- Work leads to later work by some deeds, whatever the requests are answered. -/
inductive Leads : Work κ τ ω α → List (Activity κ τ) → Work κ τ ω α → Prop
  /-- Nothing has been requested yet. -/
  | refl (work : Work κ τ ω α) : Leads work [] work
  /-- A remark was noted first. -/
  | note
      {activity : Activity κ τ}
      {isRemark : activity.IsRemark}
      {next later : Work κ τ ω α}
      {deeds : List (Activity κ τ)}
      (rest : Leads next deeds later) :
      Leads (.note activity isRemark next) (activity.deed?.toList ++ deeds) later
  /-- A snapshot was published first. -/
  | publish
      {snapshot : Snapshot κ}
      {next later : Work κ τ ω α}
      {deeds : List (Activity κ τ)}
      (rest : Leads next deeds later) :
      Leads (.publish snapshot next) (.published snapshot :: deeds) later
  /-- An event was queued first, or not. -/
  | fire
      {event : Event τ}
      {next : Except MachineError Unit → Work κ τ ω α}
      {later : Work κ τ ω α}
      {deeds : List (Activity κ τ)}
      (answer : Except MachineError Unit)
      (rest : Leads (next answer) deeds later) :
      Leads (.fire event next) deeds later
  /-- The session was looked at first. -/
  | read
      {next : Session κ τ ω → Work κ τ ω α}
      {later : Work κ τ ω α}
      {deeds : List (Activity κ τ)}
      (session : Session κ τ ω)
      (rest : Leads (next session) deeds later) :
      Leads (.read next) deeds later
  /-- The state of the client was kept first. -/
  | retain
      {world : ω}
      {next later : Work κ τ ω α}
      {deeds : List (Activity κ τ)}
      (rest : Leads next deeds later) :
      Leads (.retain world next) deeds later

/-- Work is carried out to its end by some deeds, whatever the requests are answered. -/
def Performs (work : Work κ τ ω α) (deeds : List (Activity κ τ)) (result : α) : Prop :=
  work.Leads deeds (.done result)

/-- What work leads to leads on. -/
theorem Leads.trans
    {first second third : Work κ τ ω α}
    {earlier later : List (Activity κ τ)}
    (before : first.Leads earlier second)
    (after : second.Leads later third) :
    first.Leads (earlier ++ later) third := by
  induction before with
  | refl work => exact after
  | note rest inductionHypothesis =>
      rw [List.append_assoc]
      exact .note (inductionHypothesis after)
  | publish rest inductionHypothesis => exact .publish (inductionHypothesis after)
  | fire answer rest inductionHypothesis => exact .fire answer (inductionHypothesis after)
  | read session rest inductionHypothesis => exact .read session (inductionHypothesis after)
  | retain rest inductionHypothesis => exact .retain (inductionHypothesis after)

/-- On the way no event is begun. -/
theorem Leads.filterMap_began
    {work later : Work κ τ ω α}
    {deeds : List (Activity κ τ)}
    (leads : work.Leads deeds later) :
    deeds.filterMap Activity.began? = [] := by
  induction leads with
  | refl work => rfl
  | @note _ isRemark _ _ _ _ inductionHypothesis =>
      rw [List.filterMap_append, inductionHypothesis, List.append_nil]
      cases isRemark <;> rfl
  | publish _ inductionHypothesis => exact inductionHypothesis
  | fire _ _ inductionHypothesis => exact inductionHypothesis
  | read _ _ inductionHypothesis => exact inductionHypothesis
  | retain _ inductionHypothesis => exact inductionHypothesis

section Inversion

variable {deeds : List (Activity κ τ)} {result : α}

@[simp] theorem performs_done_iff
    {other : α} :
    (done other : Work κ τ ω α).Performs deeds result ↔ deeds = [] ∧ result = other := by
  constructor
  · rintro ⟨⟩
    exact ⟨rfl, rfl⟩
  · rintro ⟨rfl, rfl⟩
    exact .refl _

@[simp] theorem performs_note_iff
    {activity : Activity κ τ}
    {isRemark : activity.IsRemark}
    {next : Work κ τ ω α} :
    (note activity isRemark next).Performs deeds result ↔
      ∃ later, deeds = activity.deed?.toList ++ later ∧ next.Performs later result := by
  constructor
  · intro performs
    cases performs with
    | note rest => exact ⟨_, rfl, rest⟩
  · rintro ⟨later, rfl, rest⟩
    exact .note rest

@[simp] theorem performs_publish_iff
    {snapshot : Snapshot κ}
    {next : Work κ τ ω α} :
    (publish snapshot next).Performs deeds result ↔
      ∃ later, deeds = .published snapshot :: later ∧ next.Performs later result := by
  constructor
  · intro performs
    cases performs with
    | publish rest => exact ⟨_, rfl, rest⟩
  · rintro ⟨later, rfl, rest⟩
    exact .publish rest

@[simp] theorem performs_fire_iff
    {event : Event τ}
    {next : Except MachineError Unit → Work κ τ ω α} :
    (fire event next).Performs deeds result ↔
      ∃ answer, (next answer).Performs deeds result := by
  constructor
  · intro performs
    cases performs with
    | fire answer rest => exact ⟨answer, rest⟩
  · rintro ⟨answer, rest⟩
    exact .fire answer rest

@[simp] theorem performs_read_iff
    {next : Session κ τ ω → Work κ τ ω α} :
    (read next).Performs deeds result ↔
      ∃ session, (next session).Performs deeds result := by
  constructor
  · intro performs
    cases performs with
    | read session rest => exact ⟨session, rest⟩
  · rintro ⟨session, rest⟩
    exact .read session rest

@[simp] theorem performs_retain_iff
    {world : ω}
    {next : Work κ τ ω α} :
    (retain world next).Performs deeds result ↔ next.Performs deeds result := by
  constructor
  · intro performs
    cases performs with
    | retain rest => exact rest
  · exact .retain

/-- Work that goes on with other work is carried out in this order. -/
@[simp] theorem performs_bind_iff
    {work : Work κ τ ω β}
    {continuation : β → Work κ τ ω α} :
    (work.bind continuation).Performs deeds result ↔
      ∃ between earlier later, deeds = earlier ++ later ∧
        work.Performs earlier between ∧ (continuation between).Performs later result := by
  induction work generalizing deeds with
  | done other => simp [bind]
  | note activity isRemark next inductionHypothesis =>
      simp only [bind, performs_note_iff, inductionHypothesis]
      constructor
      · rintro ⟨_, rfl, between, earlier, later, rfl, first, second⟩
        exact ⟨between, _, later, (List.append_assoc ..).symm, ⟨earlier, rfl, first⟩, second⟩
      · rintro ⟨between, _, later, rfl, ⟨earlier, rfl, first⟩, second⟩
        exact ⟨_, List.append_assoc .., between, earlier, later, rfl, first, second⟩
  | publish snapshot next inductionHypothesis =>
      simp only [bind, performs_publish_iff, inductionHypothesis]
      constructor
      · rintro ⟨_, rfl, between, earlier, later, rfl, first, second⟩
        exact ⟨between, _, later, rfl, ⟨earlier, rfl, first⟩, second⟩
      · rintro ⟨between, _, later, rfl, ⟨earlier, rfl, first⟩, second⟩
        exact ⟨_, rfl, between, earlier, later, rfl, first, second⟩
  | fire event next inductionHypothesis =>
      simp only [bind, performs_fire_iff, inductionHypothesis]
      constructor
      · rintro ⟨answer, between, earlier, later, rfl, first, second⟩
        exact ⟨between, earlier, later, rfl, ⟨answer, first⟩, second⟩
      · rintro ⟨between, earlier, later, rfl, ⟨answer, first⟩, second⟩
        exact ⟨answer, between, earlier, later, rfl, first, second⟩
  | read next inductionHypothesis =>
      simp only [bind, performs_read_iff, inductionHypothesis]
      constructor
      · rintro ⟨session, between, earlier, later, rfl, first, second⟩
        exact ⟨between, earlier, later, rfl, ⟨session, first⟩, second⟩
      · rintro ⟨between, earlier, later, rfl, ⟨session, first⟩, second⟩
        exact ⟨session, between, earlier, later, rfl, first, second⟩
  | retain world next inductionHypothesis =>
      simp only [bind, performs_retain_iff, inductionHypothesis]

end Inversion

/-! ## What work does to its session -/

/-- A request leads on by the deed that it is. -/
theorem leads_step (work : Work κ τ ω α) (session : Session κ τ ω) :
    ∃ deeds, work.Leads deeds (work.step session).1 ∧
      session.Proceeds deeds (work.step session).2 := by
  cases work with
  | done result => exact ⟨[], .refl _, .refl session⟩
  | note activity isRemark next =>
      have leads : (note activity isRemark next).Leads (activity.deed?.toList ++ []) next :=
        .note (.refl next)
      rw [List.append_nil] at leads
      exact ⟨_, leads, session.proceeds_note isRemark⟩
  | publish snapshot next =>
      exact ⟨_, .publish (.refl next), session.proceeds_publish snapshot⟩
  | fire event next => exact ⟨_, .fire _ (.refl _), session.proceeds_fire event⟩
  | read next => exact ⟨_, .read session (.refl _), .refl session⟩
  | retain world next =>
      exact ⟨_, .retain (.refl next), .of_eq rfl rfl rfl rfl id id⟩

/-- Without interruption work is carried out to its end. -/
theorem performs_run (work : Work κ τ ω α) (session : Session κ τ ω) :
    ∃ deeds, work.Performs deeds (work.run session).1 ∧
      session.Proceeds deeds (work.run session).2 := by
  induction work generalizing session with
  | done result => exact ⟨[], .refl _, .refl session⟩
  | note activity isRemark next inductionHypothesis =>
      obtain ⟨deeds, performs, proceeds⟩ := inductionHypothesis (session.note activity)
      exact ⟨_, .note performs, (session.proceeds_note isRemark).trans proceeds⟩
  | publish snapshot next inductionHypothesis =>
      obtain ⟨deeds, performs, proceeds⟩ := inductionHypothesis (session.publish snapshot)
      exact ⟨_, .publish performs, (session.proceeds_publish snapshot).trans proceeds⟩
  | fire event next inductionHypothesis =>
      obtain ⟨deeds, performs, proceeds⟩ := inductionHypothesis _ (session.fire event).2
      exact ⟨_, .fire _ performs, (session.proceeds_fire event).trans proceeds⟩
  | read next inductionHypothesis =>
      obtain ⟨deeds, performs, proceeds⟩ := inductionHypothesis session session
      exact ⟨_, .read session performs, proceeds⟩
  | retain world next inductionHypothesis =>
      obtain ⟨deeds, performs, proceeds⟩ := inductionHypothesis { session with world }
      have kept : session.Proceeds [] { session with world } :=
        .of_eq rfl rfl rfl rfl id id
      exact ⟨_, .retain performs, kept.trans proceeds⟩

/-- What work leads to can be carried out to its end. -/
theorem Leads.exists_performs
    {work later : Work κ τ ω α}
    {deeds : List (Activity κ τ)}
    (leads : work.Leads deeds later)
    (session : Session κ τ ω) :
    ∃ rest result, work.Performs (deeds ++ rest) result := by
  obtain ⟨rest, performs, _⟩ := later.performs_run session
  exact ⟨rest, _, leads.trans performs⟩

end Work
end Statechart
