import Statechart.Proofs.Machine.Parts
import Statechart.Proofs.Machine.Unseen

/-!
# Work that matches

Two machines have the same definition but for their observers. Whatever one of them does, the
other one does as well, except that it tells other observers: the work of their workers matches
request by request. Requests of observers that are not seen may stand on one side alone.
-/

namespace Statechart

variable {κ τ ω σ α β : Type}

/-! ## Activities -/

/-- How two machines are compared. -/
structure Comparison (ω σ : Type) where
  /-- What the client's state shows to guards, actions and the observers that stay. -/
  seen : ω → σ
  /-- The common numbers of the observers of one machine. -/
  number? : Nat → Option Nat
  /-- The common numbers of the observers of the other machine. -/
  otherNumber? : Nat → Option Nat

/-- The same comparison from the other side. -/
def Comparison.swap (comparison : Comparison ω σ) : Comparison ω σ :=
  ⟨comparison.seen, comparison.otherNumber?, comparison.number?⟩

/-- What remains of an activity if observers are known by other numbers. Some of them may not
be known at all, and nobody knows how many there are. What callbacks look at and write, and
whether observers break off, is left out. -/
def Activity.common? (number? : Nat → Option Nat) : Activity κ τ → Option (Activity κ τ)
  | .notified observer notification =>
      (number? observer).map fun observer => .notified observer notification
  | .started active _ => some (.started active 0)
  | .shown _ | .wrote _ | .observerPanicked .. => none
  | activity => some activity

/-! ## Sessions -/

namespace Session

/-- Queueing an event leaves the client alone. -/
theorem world_fire (session : Session κ τ ω) (event : Event τ) :
    (session.fire event).2.world = session.world := by
  rcases session.fire_outcome event with ⟨_, fired⟩ | ⟨_, _, fired⟩ | ⟨_, _, _, _, fired⟩ <;>
    rw [fired] <;> rfl

/-- The activities of a session that can be compared, the latest first. -/
def common (number? : Nat → Option Nat) (session : Session κ τ ω) : List (Activity κ τ) :=
  session.journal.filterMap (Activity.common? number?)

/-- Two sessions are the same in everything that can be compared. -/
structure Matches
    (comparison : Comparison ω σ)
    (session other : Session κ τ ω) : Prop where
  phase_eq : session.phase = other.phase
  queue_eq : session.queue = other.queue
  number_eq : session.number = other.number
  published_eq : session.published = other.published
  clock_eq : session.clock = other.clock
  seen_eq : comparison.seen session.world = comparison.seen other.world
  common_eq : session.common comparison.number? = other.common comparison.otherNumber?

namespace Matches

variable {comparison : Comparison ω σ} {session other : Session κ τ ω}

theorem swap (matching : session.Matches comparison other) :
    other.Matches comparison.swap session where
  phase_eq := matching.phase_eq.symm
  queue_eq := matching.queue_eq.symm
  number_eq := matching.number_eq.symm
  published_eq := matching.published_eq.symm
  clock_eq := matching.clock_eq.symm
  seen_eq := matching.seen_eq.symm
  common_eq := matching.common_eq.symm

/-- Callbacks see the same of both machines. -/
theorem view_eq (matching : session.Matches comparison other) : session.view = other.view := by
  rw [view, view, isRunning, isRunning, matching.phase_eq, matching.published_eq]

/-- Both machines note the same. -/
theorem note
    (matching : session.Matches comparison other)
    {activity otherActivity : Activity κ τ}
    (same : activity.common? comparison.number? =
      otherActivity.common? comparison.otherNumber?) :
    (session.note activity).Matches comparison (other.note otherActivity) where
  phase_eq := matching.phase_eq
  queue_eq := matching.queue_eq
  number_eq := matching.number_eq
  published_eq := matching.published_eq
  clock_eq := matching.clock_eq
  seen_eq := matching.seen_eq
  common_eq := by
    have common_eq := matching.common_eq
    simp only [common, Session.note, List.filterMap_cons, same] at common_eq ⊢
    rw [common_eq]

/-- One machine notes what cannot be compared. -/
theorem note_left
    (matching : session.Matches comparison other)
    {activity : Activity κ τ}
    (nothing : activity.common? comparison.number? = none) :
    (session.note activity).Matches comparison other where
  phase_eq := matching.phase_eq
  queue_eq := matching.queue_eq
  number_eq := matching.number_eq
  published_eq := matching.published_eq
  clock_eq := matching.clock_eq
  seen_eq := matching.seen_eq
  common_eq := by
    rw [common, Session.note, List.filterMap_cons_none nothing]
    exact matching.common_eq

/-- Both machines publish the same. -/
theorem publish
    (matching : session.Matches comparison other)
    (snapshot : Snapshot κ) :
    (session.publish snapshot).Matches comparison (other.publish snapshot) := by
  have published : Matches comparison { session with published := snapshot }
      { other with published := snapshot } :=
    { matching with published_eq := rfl }
  exact published.note rfl

/-- Both machines take an event or turn it down. -/
theorem fire (matching : session.Matches comparison other) (event : Event τ) :
    (session.fire event).1 = (other.fire event).1 ∧
      (session.fire event).2.Matches comparison (other.fire event).2 := by
  unfold Session.fire
  rw [← matching.phase_eq, ← matching.queue_eq, ← matching.number_eq]
  split
  · exact ⟨rfl, matching⟩
  · exact ⟨rfl, matching⟩
  · extract_lets numbered
    split
    · rename_i queue _
      have accepted : Matches comparison
          { session with queue, number := session.number + 1 }
          { other with phase := session.phase, queue, number := session.number + 1 } :=
        { matching with phase_eq := rfl, queue_eq := rfl, number_eq := rfl }
      exact ⟨rfl, accepted.note rfl⟩
    · exact ⟨rfl, matching.note rfl⟩

/-- Both clients are left with what looks the same. -/
theorem retain
    (matching : session.Matches comparison other)
    {world otherWorld : ω}
    (sameSight : comparison.seen world = comparison.seen otherWorld) :
    Matches comparison { session with world } { other with world := otherWorld } :=
  { matching with seen_eq := sameSight }

/-- One client is left with what looks as before. -/
theorem retain_left
    (matching : session.Matches comparison other)
    {world : ω}
    (sameSight : comparison.seen world = comparison.seen session.world) :
    Matches comparison { session with world } other :=
  { matching with seen_eq := sameSight.trans matching.seen_eq }

end Matches
end Session

/-! ## Work -/

namespace Work

/-- Where something is seen of the client, two pieces of work make the same requests and come to
related results, but for requests that cannot be compared. -/
inductive Matches (comparison : Comparison ω σ) (related : α → β → Prop) :
    σ → Work κ τ ω α → Work κ τ ω β → Prop
  /-- Both are done. -/
  | done
      {sight : σ}
      {result : α}
      {other : β}
      (isRelated : related result other) :
      Matches comparison related sight (.done result) (.done other)
  /-- Both note the same. -/
  | note
      {sight : σ}
      {activity otherActivity : Activity κ τ}
      {isRemark : activity.IsRemark}
      {isOtherRemark : otherActivity.IsRemark}
      {next : Work κ τ ω α}
      {otherNext : Work κ τ ω β}
      (same : activity.common? comparison.number? =
        otherActivity.common? comparison.otherNumber?)
      (rest : Matches comparison related sight next otherNext) :
      Matches comparison related sight (.note activity isRemark next)
        (.note otherActivity isOtherRemark otherNext)
  /-- Both publish the same. -/
  | publish
      {sight : σ}
      {snapshot : Snapshot κ}
      {next : Work κ τ ω α}
      {otherNext : Work κ τ ω β}
      (rest : Matches comparison related sight next otherNext) :
      Matches comparison related sight (.publish snapshot next) (.publish snapshot otherNext)
  /-- Both queue an event. -/
  | fire
      {sight : σ}
      {event : Event τ}
      {next : Except MachineError Unit → Work κ τ ω α}
      {otherNext : Except MachineError Unit → Work κ τ ω β}
      (rest : ∀ answer, Matches comparison related sight (next answer) (otherNext answer)) :
      Matches comparison related sight (.fire event next) (.fire event otherNext)
  /-- Both look at their sessions. -/
  | read
      {sight : σ}
      {next : Session κ τ ω → Work κ τ ω α}
      {otherNext : Session κ τ ω → Work κ τ ω β}
      (rest : ∀ session other, session.Matches comparison other →
        comparison.seen session.world = sight →
          Matches comparison related sight (next session) (otherNext other)) :
      Matches comparison related sight (.read next) (.read otherNext)
  /-- Both leave their clients with what looks the same. -/
  | retain
      {sight : σ}
      {world otherWorld : ω}
      {next : Work κ τ ω α}
      {otherNext : Work κ τ ω β}
      (sameSight : comparison.seen world = comparison.seen otherWorld)
      (rest : Matches comparison related (comparison.seen world) next otherNext) :
      Matches comparison related sight (.retain world next) (.retain otherWorld otherNext)
  /-- One notes what cannot be compared. -/
  | noteLeft
      {sight : σ}
      {activity : Activity κ τ}
      {isRemark : activity.IsRemark}
      {next : Work κ τ ω α}
      {other : Work κ τ ω β}
      (nothing : activity.common? comparison.number? = none)
      (rest : Matches comparison related sight next other) :
      Matches comparison related sight (.note activity isRemark next) other
  /-- One looks at its session. -/
  | readLeft
      {sight : σ}
      {next : Session κ τ ω → Work κ τ ω α}
      {other : Work κ τ ω β}
      (rest : ∀ session, comparison.seen session.world = sight →
        Matches comparison related sight (next session) other) :
      Matches comparison related sight (.read next) other
  /-- One leaves its client with what looks as before. -/
  | retainLeft
      {sight : σ}
      {world : ω}
      {next : Work κ τ ω α}
      {other : Work κ τ ω β}
      (sameSight : comparison.seen world = sight)
      (rest : Matches comparison related sight next other) :
      Matches comparison related sight (.retain world next) other
  /-- The other one notes what cannot be compared. -/
  | noteRight
      {sight : σ}
      {activity : Activity κ τ}
      {isRemark : activity.IsRemark}
      {work : Work κ τ ω α}
      {next : Work κ τ ω β}
      (nothing : activity.common? comparison.otherNumber? = none)
      (rest : Matches comparison related sight work next) :
      Matches comparison related sight work (.note activity isRemark next)
  /-- The other one looks at its session. -/
  | readRight
      {sight : σ}
      {work : Work κ τ ω α}
      {next : Session κ τ ω → Work κ τ ω β}
      (rest : ∀ session, comparison.seen session.world = sight →
        Matches comparison related sight work (next session)) :
      Matches comparison related sight work (.read next)
  /-- The other one leaves its client with what looks as before. -/
  | retainRight
      {sight : σ}
      {world : ω}
      {work : Work κ τ ω α}
      {next : Work κ τ ω β}
      (sameSight : comparison.seen world = sight)
      (rest : Matches comparison related sight work next) :
      Matches comparison related sight work (.retain world next)

namespace Matches

variable
  {comparison : Comparison ω σ}
  {related : α → β → Prop}
  {sight : σ}
  {work : Work κ τ ω α}
  {other : Work κ τ ω β}

/-- What matches from one side matches from the other. -/
theorem swap (matching : work.Matches comparison related sight other) :
    other.Matches comparison.swap (fun result otherResult => related otherResult result) sight
      work := by
  induction matching with
  | done isRelated => exact .done isRelated
  | note same _ inductionHypothesis => exact .note same.symm inductionHypothesis
  | publish _ inductionHypothesis => exact .publish inductionHypothesis
  | fire _ inductionHypothesis => exact .fire inductionHypothesis
  | read _ inductionHypothesis =>
      exact .read fun session other sessions sees =>
        inductionHypothesis other session sessions.swap (sessions.seen_eq.symm.trans sees)
  | retain sameSight _ inductionHypothesis =>
      exact .retain sameSight.symm (sameSight ▸ inductionHypothesis)
  | noteLeft nothing _ inductionHypothesis => exact .noteRight nothing inductionHypothesis
  | readLeft _ inductionHypothesis => exact .readRight inductionHypothesis
  | retainLeft sameSight _ inductionHypothesis => exact .retainRight sameSight inductionHypothesis
  | noteRight nothing _ inductionHypothesis => exact .noteLeft nothing inductionHypothesis
  | readRight _ inductionHypothesis => exact .readLeft inductionHypothesis
  | retainRight sameSight _ inductionHypothesis => exact .retainLeft sameSight inductionHypothesis

/-- Work that comes to the same matches from the other side in the same way. -/
theorem symm
    {work other : Work κ τ ω α}
    (matching : work.Matches comparison Eq sight other) :
    other.Matches comparison.swap Eq sight work := by
  have swapped := matching.swap
  rwa [show (fun result otherResult : α => otherResult = result) = Eq from
    funext fun _ => funext fun _ => propext eq_comm] at swapped

/-- Work matches that goes on with matching work. -/
theorem bind
    {γ δ : Type}
    {relatedAfter : γ → δ → Prop}
    {continuation : α → Work κ τ ω γ}
    {otherContinuation : β → Work κ τ ω δ}
    (matching : work.Matches comparison related sight other)
    (rest : ∀ sight result otherResult, related result otherResult →
      (continuation result).Matches comparison relatedAfter sight
        (otherContinuation otherResult)) :
    (work.bind continuation).Matches comparison relatedAfter sight
      (other.bind otherContinuation) := by
  induction matching with
  | done isRelated => exact rest _ _ _ isRelated
  | note same _ inductionHypothesis => exact .note same inductionHypothesis
  | publish _ inductionHypothesis => exact .publish inductionHypothesis
  | fire _ inductionHypothesis => exact .fire inductionHypothesis
  | read _ inductionHypothesis => exact .read inductionHypothesis
  | retain sameSight _ inductionHypothesis => exact .retain sameSight inductionHypothesis
  | noteLeft nothing _ inductionHypothesis => exact .noteLeft nothing inductionHypothesis
  | readLeft _ inductionHypothesis => exact .readLeft inductionHypothesis
  | retainLeft sameSight _ inductionHypothesis => exact .retainLeft sameSight inductionHypothesis
  | noteRight nothing _ inductionHypothesis => exact .noteRight nothing inductionHypothesis
  | readRight _ inductionHypothesis => exact .readRight inductionHypothesis
  | retainRight sameSight _ inductionHypothesis =>
      exact .retainRight sameSight inductionHypothesis

/-- Work that matches goes on with matching work where both come to the same. -/
theorem bind_eq
    {γ δ : Type}
    {relatedAfter : γ → δ → Prop}
    {work other : Work κ τ ω α}
    {continuation : α → Work κ τ ω γ}
    {otherContinuation : α → Work κ τ ω δ}
    (matching : work.Matches comparison Eq sight other)
    (rest : ∀ sight result, (continuation result).Matches comparison relatedAfter sight
      (otherContinuation result)) :
    (work.bind continuation).Matches comparison relatedAfter sight
      (other.bind otherContinuation) :=
  matching.bind fun sight _ result same => same ▸ rest sight result

/-- Without interruption matching work leads from sessions that match to sessions that match,
and to related results. -/
theorem run
    (matching : work.Matches comparison related sight other)
    {session otherSession : Session κ τ ω}
    (sessions : session.Matches comparison otherSession)
    (sees : comparison.seen session.world = sight) :
    related (work.run session).1 (other.run otherSession).1 ∧
      (work.run session).2.Matches comparison (other.run otherSession).2 := by
  induction matching generalizing session otherSession with
  | done isRelated => exact ⟨isRelated, sessions⟩
  | note same _ inductionHypothesis => exact inductionHypothesis (sessions.note same) sees
  | publish _ inductionHypothesis => exact inductionHypothesis (sessions.publish _) sees
  | @fire _ event _ _ _ inductionHypothesis =>
      obtain ⟨answer_eq, fired⟩ := sessions.fire event
      rw [run_fire, run_fire, ← answer_eq]
      exact inductionHypothesis _ fired ((congrArg _ (session.world_fire event)).trans sees)
  | read _ inductionHypothesis =>
      exact inductionHypothesis session otherSession sessions sees sessions sees
  | retain sameSight _ inductionHypothesis =>
      exact inductionHypothesis (sessions.retain sameSight) rfl
  | noteLeft nothing _ inductionHypothesis =>
      exact inductionHypothesis (sessions.note_left nothing) sees
  | readLeft _ inductionHypothesis => exact inductionHypothesis session sees sessions sees
  | retainLeft sameSight _ inductionHypothesis =>
      exact inductionHypothesis (sessions.retain_left (sameSight.trans sees.symm)) sameSight
  | noteRight nothing _ inductionHypothesis =>
      exact inductionHypothesis (sessions.swap.note_left nothing).swap sees
  | readRight _ inductionHypothesis =>
      exact inductionHypothesis otherSession (sessions.seen_eq.symm.trans sees) sessions sees
  | @retainRight _ world _ _ sameSight _ inductionHypothesis =>
      have unchanged : comparison.seen world = comparison.seen otherSession.world :=
        sameSight.trans (sees.symm.trans sessions.seen_eq)
      exact inductionHypothesis (sessions.swap.retain_left unchanged).swap sees

end Matches
end Work
end Statechart
