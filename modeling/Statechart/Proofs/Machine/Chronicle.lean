import Statechart.Proofs.Machine.Account
import Statechart.Proofs.Machine.Ends
import Statechart.Proofs.Machine.Scene

/-!
# The chronicle of a machine

Whatever happens in the course of time, the deeds of a worker fall into parts. First it
opens, then it processes events one after the other, each to its end, and at last it leaves
everything.
-/

namespace Statechart

variable {κ τ ω : Type} [DecidableEq κ] [StateKey κ] [DecidableEq τ] [Inspect τ]

/-! ## Events processed to their ends -/

/-- From a first position a worker has come to another one by processing events, each to its
end. -/
inductive Handles (definition : Definition κ τ ω) (first : Worker κ) :
    List (Account κ τ ω) → Worker κ → Prop
  /-- There have been no events. -/
  | nothing : Handles definition first [] first
  /-- There has been one more event. -/
  | event
      {accounts : List (Account κ τ ω)}
      {account : Account κ τ ω}
      (earlier : Handles definition first accounts account.before)
      (isRight : account.IsRight definition)
      (performs : (Work.process definition account.before account.event).Performs
        (account.deeds definition) (account.after definition))
      (executes : account.Executes definition) :
      Handles definition first (accounts ++ [account]) (account.after definition)

namespace Handles

variable
  {definition : Definition κ τ ω}
  {first worker : Worker κ}
  {accounts : List (Account κ τ ω)}

/-- Every event is counted. -/
theorem count_eq (handles : Handles definition first accounts worker) :
    worker.metadata.count = first.metadata.count + UInt64.ofNat accounts.length := by
  induction handles with
  | nothing => exact (UInt64.add_zero _).symm
  | event _ _ _ _ inductionHypothesis =>
      rw [List.length_append, List.length_singleton, Word.add_ofNat_succ, ← inductionHypothesis]
      rfl

/-- Every event is begun once. -/
theorem filterMap_began (handles : Handles definition first accounts worker) :
    (accounts.flatMap (Account.chapter definition)).filterMap Activity.began? =
      accounts.map Account.event := by
  induction handles with
  | nothing => rfl
  | event _ _ performs _ inductionHypothesis =>
      rw [List.flatMap_append, List.filterMap_append, inductionHypothesis, List.map_append,
        List.flatMap_singleton, Account.chapter]
      exact congrArg (_ ++ _ :: ·) performs.filterMap_began

/-- The worker is shown as it is after the last event. -/
theorem shownAfter_eq (handles : Handles definition first accounts worker) :
    Session.shownAfter (first.snapshot definition)
        (accounts.flatMap (Account.chapter definition)) =
      worker.snapshot definition := by
  induction handles with
  | nothing => rfl
  | event _ _ _ _ _ =>
      rw [List.flatMap_append, List.flatMap_singleton, Session.shownAfter_append]
      exact Account.shownAfter_chapter _

/-- A worker that has processed events is as the last one has left it. -/
theorem eq_after (handles : Handles definition first accounts worker) :
    worker = accounts.getLast?.elim first (Account.after definition) := by
  cases handles with
  | nothing => rfl
  | event _ _ _ _ => simp

/-- The events before one of the events had been processed when it began. -/
theorem of_split
    (handles : Handles definition first accounts worker)
    {earlier later : List (Account κ τ ω)}
    {account : Account κ τ ω}
    (split : accounts = earlier ++ account :: later) :
    Handles definition first earlier account.before ∧ account.IsRight definition ∧
      (Work.process definition account.before account.event).Performs
        (account.deeds definition) (account.after definition) := by
  induction handles generalizing later with
  | nothing => simp at split
  | event before isRight performs _ inductionHypothesis =>
      rcases List.eq_nil_or_concat later with rfl | ⟨others, last, rfl⟩
      · obtain ⟨rfl, rfl⟩ := List.append_singleton_inj.mp split
        exact ⟨before, isRight, performs⟩
      · rw [List.concat_eq_append, ← List.cons_append, ← List.append_assoc] at split
        exact inductionHypothesis (List.append_singleton_inj.mp split).1

/-- The steps of every event are those of carrying out what was selected. -/
theorem executes
    (handles : Handles definition first accounts worker)
    {account : Account κ τ ω}
    (member : account ∈ accounts) :
    account.Executes definition := by
  induction handles with
  | nothing => contradiction
  | event _ _ _ executes inductionHypothesis =>
      rcases List.mem_append.mp member with earlier | last
      · exact inductionHypothesis earlier
      · rw [List.mem_singleton.mp last]
        exact executes

end Handles

/-! ## The parts of a life -/

/-- What a worker has done in its life. -/
structure Chronicle (κ τ ω : Type) where
  /-- The deeds of its opening. -/
  opened : List (Activity κ τ)
  /-- The events that it has processed to their ends. -/
  accounts : List (Account κ τ ω)
  /-- The deeds of its present task after the opening. -/
  current : List (Activity κ τ)

/-- All deeds in order. -/
def Chronicle.deeds
    (definition : Definition κ τ ω)
    (chronicle : Chronicle κ τ ω) : List (Activity κ τ) :=
  chronicle.opened ++ chronicle.accounts.flatMap (Account.chapter definition) ++
    chronicle.current

/-- How far a worker, who may have been told to stop, has come in its life. -/
inductive Stage (definition : Definition κ τ ω) (opening : Work κ τ ω (Worker κ)) :
    Bool → Option (Worker κ) → Option (Task τ × Work κ τ ω (Worker κ)) → Chronicle κ τ ω → Prop
  /-- It opens. -/
  | opening
      {told : Bool}
      {work : Work κ τ ω (Worker κ)}
      {opened : List (Activity κ τ)}
      (leads : opening.Leads opened work) :
      Stage definition opening told none (some (.opening, work)) ⟨opened, [], []⟩
  /-- It waits for its next task. -/
  | idle
      {told : Bool}
      {first worker : Worker κ}
      {opened : List (Activity κ τ)}
      {accounts : List (Account κ τ ω)}
      (opens : opening.Performs opened first)
      (handles : Handles definition first accounts worker) :
      Stage definition opening told (some worker) none ⟨opened, accounts, []⟩
  /-- It processes an event. -/
  | event
      {told : Bool}
      {first worker : Worker κ}
      {opened deeds : List (Activity κ τ)}
      {accounts : List (Account κ τ ω)}
      {event : Event τ}
      {work : Work κ τ ω (Worker κ)}
      (opens : opening.Performs opened first)
      (handles : Handles definition first accounts worker)
      (leads : (Work.process definition worker event).Leads deeds work) :
      Stage definition opening told (some worker) (some (.event event, work))
        ⟨opened, accounts, .began event :: deeds⟩
  /-- It leaves everything. -/
  | closing
      {first worker : Worker κ}
      {opened deeds : List (Activity κ τ)}
      {accounts : List (Account κ τ ω)}
      {work : Work κ τ ω (Worker κ)}
      (opens : opening.Performs opened first)
      (handles : Handles definition first accounts worker)
      (leads : (Work.shutdown definition worker).Leads deeds work) :
      Stage definition opening true (some worker) (some (.closing, work))
        ⟨opened, accounts, deeds⟩
  /-- It has come to its end. -/
  | ended
      {first worker left : Worker κ}
      {opened deeds : List (Activity κ τ)}
      {accounts : List (Account κ τ ω)}
      (opens : opening.Performs opened first)
      (handles : Handles definition first accounts worker)
      (performs : (Work.shutdown definition worker).Performs deeds left) :
      Stage definition opening true none none ⟨opened, accounts, deeds⟩

namespace Stage

variable
  {definition : Definition κ τ ω}
  {opening : Work κ τ ω (Worker κ)}
  {told : Bool}
  {worker : Worker κ}
  {remaining : Option (Worker κ)}
  {chronicle : Chronicle κ τ ω}

/-- When an event began the worker had opened and processed the events before it. -/
theorem of_split
    {hand : Option (Task τ × Work κ τ ω (Worker κ))}
    (stage : Stage definition opening told remaining hand chronicle)
    {earlier later : List (Account κ τ ω)}
    {account : Account κ τ ω}
    (split : chronicle.accounts = earlier ++ account :: later) :
    ∃ first, opening.Performs chronicle.opened first ∧
      Handles definition first earlier account.before ∧ account.IsRight definition ∧
      (Work.process definition account.before account.event).Performs
        (account.deeds definition) (account.after definition) := by
  cases stage with
  | opening leads => simp at split
  | idle opens handles => exact ⟨_, opens, handles.of_split split⟩
  | event opens handles _ => exact ⟨_, opens, handles.of_split split⟩
  | closing opens handles _ => exact ⟨_, opens, handles.of_split split⟩
  | ended opens handles _ => exact ⟨_, opens, handles.of_split split⟩

/-- A worker that opens has processed no event. -/
theorem of_opening
    {work : Work κ τ ω (Worker κ)}
    (stage : Stage definition opening told remaining (some (.opening, work)) chronicle) :
    ∃ opened, chronicle = ⟨opened, [], []⟩ ∧ opening.Leads opened work := by
  cases stage with
  | opening leads => exact ⟨_, rfl, leads⟩

/-- A worker that does not open any more has processed its events to their ends. -/
theorem of_opened
    {hand : Option (Task τ × Work κ τ ω (Worker κ))}
    (stage : Stage definition opening told remaining hand chronicle)
    (opened : ∀ work, hand ≠ some (.opening, work)) :
    ∃ first worker, opening.Performs chronicle.opened first ∧
      Handles definition first chronicle.accounts worker := by
  cases stage with
  | opening leads => exact absurd rfl (opened _)
  | idle opens handles => exact ⟨_, _, opens, handles⟩
  | event opens handles _ => exact ⟨_, _, opens, handles⟩
  | closing opens handles _ => exact ⟨_, _, opens, handles⟩
  | ended opens handles _ => exact ⟨_, _, opens, handles⟩

/-- A worker that waits for its next task has opened and processed its events to their
ends. -/
theorem of_idle (stage : Stage definition opening told (some worker) none chronicle) :
    ∃ opened first accounts, chronicle = ⟨opened, accounts, []⟩ ∧
      opening.Performs opened first ∧ Handles definition first accounts worker := by
  cases stage with
  | idle opens handles => exact ⟨_, _, _, rfl, opens, handles⟩

/-- A worker with an event in hand has begun it after others. -/
theorem of_event
    {event : Event τ}
    {work : Work κ τ ω (Worker κ)}
    (stage : Stage definition opening told remaining (some (.event event, work)) chronicle) :
    ∃ opened first accounts worker deeds,
      chronicle = ⟨opened, accounts, .began event :: deeds⟩ ∧ opening.Performs opened first ∧
        Handles definition first accounts worker ∧
        (Work.process definition worker event).Leads deeds work := by
  cases stage with
  | event opens handles leads => exact ⟨_, _, _, _, _, rfl, opens, handles, leads⟩

/-- A worker that has come to its end was told to stop, and has left everything after the
last event. -/
theorem of_ended (stage : Stage definition opening told none none chronicle) :
    ∃ opened first accounts worker deeds left, told = true ∧
      chronicle = ⟨opened, accounts, deeds⟩ ∧ opening.Performs opened first ∧
        Handles definition first accounts worker ∧
        (Work.shutdown definition worker).Performs deeds left := by
  cases stage with
  | ended opens handles performs => exact ⟨_, _, _, _, _, _, rfl, rfl, opens, handles, performs⟩

/-- A word to the worker changes nothing until its next task. -/
theorem tell
    {hand : Option (Task τ × Work κ τ ω (Worker κ))}
    (stage : Stage definition opening told remaining hand chronicle)
    (stopped : Bool) :
    Stage definition opening (told || stopped) remaining hand chronicle := by
  cases stage with
  | opening leads => exact .opening leads
  | idle opens handles => exact .idle opens handles
  | event opens handles leads => exact .event opens handles leads
  | closing opens handles leads => exact .closing opens handles leads
  | ended opens handles performs => exact .ended opens handles performs

/-- What work at a task leads to takes the worker further. -/
theorem of_leads
    {task : Task τ}
    {work next : Work κ τ ω (Worker κ)}
    (stage : Stage definition opening told remaining (some (task, work)) chronicle)
    {deeds : List (Activity κ τ)}
    (leads : work.Leads deeds next) :
    ∃ later, Stage definition opening told remaining (some (task, next)) later ∧
      later.deeds definition = chronicle.deeds definition ++ deeds := by
  cases stage with
  | opening earlier =>
      exact ⟨_, .opening (earlier.trans leads), by simp [Chronicle.deeds]⟩
  | event opens handles earlier =>
      exact ⟨_, .event opens handles (earlier.trans leads), by simp [Chronicle.deeds]⟩
  | closing opens handles earlier =>
      exact ⟨_, .closing opens handles (earlier.trans leads), by simp [Chronicle.deeds]⟩

/-- A worker that lays down a task has carried it out. -/
theorem of_done
    (forest : definition.graph.IsForest)
    (fits : definition.table.Fits definition.graph)
    {task : Task τ}
    (stage : Stage definition opening told remaining (some (task, .done worker)) chronicle) :
    ∃ later, Stage definition opening told (task.remaining worker) none later ∧
      later.deeds definition = chronicle.deeds definition := by
  cases stage with
  | opening performs => exact ⟨_, .idle performs .nothing, by simp [Chronicle.deeds]⟩
  | event opens handles performs =>
      obtain ⟨account, isRight, rfl, rfl, rfl, rfl, executes⟩ :=
        Work.exists_account_of_performs_process forest fits performs
      refine ⟨_, .idle opens (.event handles isRight performs executes), ?_⟩
      simp [Chronicle.deeds, Account.chapter]
  | closing opens handles performs => exact ⟨_, .ended opens handles performs, rfl⟩

end Stage

end Statechart
