import Mathlib.Logic.Relation
import ZodSchemas.Assembly.Plan

namespace ZodSchemas.Assembly

/-!
# Runs of a plan

A plan is run in order, or by a pool of workers.  Either way the first unknown
model in the order of the plan ends the run, and without one the outcomes are
gathered in that order.  In a pool, tasks are submitted and started in order but
may finish in any order; the collector waits for them one after the other.
-/

/-- The unknown model on which a task fails, if it does. -/
def Task.unknownModel? (task : Task) : Option String :=
  match task.outcome with
  | .error (.unknownModel model) => some model
  | _ => none

/-- The note about a task that fails for any other reason. -/
def Task.failure? (task : Task) : Option String :=
  match task.outcome with
  | .error (.broken kind message) => some (task.label ++ ": " ++ kind ++ ": " ++ message)
  | _ => none

/-- The units of several tasks and the notes about them. -/
def gathered (tasks : List Task) : Assembled :=
  ⟨tasks.filterMap fun task => task.outcome.toOption, tasks.filterMap Task.failure?⟩

/-- A run in order ends with the first unknown model, or gathers all outcomes. -/
theorem assemble_eq
    (tasks : List Task) :
    assemble tasks =
      match tasks.findSome? Task.unknownModel? with
      | some model => .error model
      | none => .ok (gathered tasks) := by
  induction tasks with
  | nil =>
      rfl
  | cons task rest inductionHypothesis =>
      rw [assemble, List.findSome?_cons, inductionHypothesis]
      cases outcome : task.outcome with
      | ok unit =>
          cases rest.findSome? Task.unknownModel? <;>
            simp [Task.unknownModel?, Task.failure?, gathered, outcome, Except.map,
              Except.toOption]
      | error failure =>
          cases failure with
          | unknownModel model =>
              simp [Task.unknownModel?, outcome]
          | broken kind message =>
              cases rest.findSome? Task.unknownModel? <;>
                simp [Task.unknownModel?, Task.failure?, gathered, outcome, Except.map,
                  Except.toOption]

/-- The state of a pool; started tasks are marked once they have finished. -/
structure Pool where
  collected : List Task
  started : List (Task × Bool)
  queued : List Task
  unsubmitted : List Task

namespace Pool

/-- The pool before its first task is submitted. -/
def initial (tasks : List Task) : Pool :=
  ⟨[], [], [], tasks⟩

/-- How many workers run a task. -/
def busy (started : List (Task × Bool)) : Nat :=
  started.countP fun entry => !entry.2

/-- One step of a pool with a number of workers, or of the collector of its outcomes. -/
inductive Step (workers : Nat) : Pool → Pool → Prop where
  | submit
      {collected queued rest : List Task}
      {started : List (Task × Bool)}
      {task : Task} :
      Step workers
        ⟨collected, started, queued, task :: rest⟩
        ⟨collected, started, queued ++ [task], rest⟩
  | start
      {collected rest unsubmitted : List Task}
      {started : List (Task × Bool)}
      {task : Task}
      (free : busy started < workers) :
      Step workers
        ⟨collected, started, task :: rest, unsubmitted⟩
        ⟨collected, started ++ [(task, false)], rest, unsubmitted⟩
  | finish
      {collected queued unsubmitted : List Task}
      {earlier later : List (Task × Bool)}
      {task : Task} :
      Step workers
        ⟨collected, earlier ++ (task, false) :: later, queued, unsubmitted⟩
        ⟨collected, earlier ++ (task, true) :: later, queued, unsubmitted⟩
  | collect
      {collected queued : List Task}
      {later : List (Task × Bool)}
      {task : Task}
      (known : task.unknownModel? = none) :
      Step workers
        ⟨collected, (task, true) :: later, queued, []⟩
        ⟨collected ++ [task], later, queued, []⟩

/-- What the collector returns, as soon as it does. -/
def verdict? (pool : Pool) : Option (Except String Assembled) :=
  match pool.started, pool.queued, pool.unsubmitted with
  | [], [], [] => some (.ok (gathered pool.collected))
  | (task, true) :: _, _, [] => task.unknownModel?.map .error
  | _, _, _ => none

/-- A pool holds the tasks of its plan in order, and has collected no unknown model. -/
structure Ordered (tasks : List Task) (pool : Pool) : Prop where
  inOrder :
    pool.collected ++ pool.started.map Prod.fst ++ pool.queued ++ pool.unsubmitted = tasks
  collectedKnown : ∀ task ∈ pool.collected, task.unknownModel? = none

theorem ordered_initial
    (tasks : List Task) :
    Ordered tasks (initial tasks) :=
  ⟨rfl, nofun⟩

/-- Every step keeps the order of the plan. -/
theorem Ordered.step
    {tasks : List Task}
    {workers : Nat}
    {before after : Pool}
    (ordered : Ordered tasks before)
    (step : Step workers before after) :
    Ordered tasks after := by
  obtain ⟨inOrder, collectedKnown⟩ := ordered
  cases step with
  | submit | start =>
      refine ⟨?_, collectedKnown⟩
      simpa using inOrder
  | finish =>
      refine ⟨?_, collectedKnown⟩
      simpa using inOrder
  | collect known =>
      refine ⟨by simpa using inOrder, ?_⟩
      rw [List.forall_mem_append]
      exact ⟨collectedKnown, List.forall_mem_singleton.mpr known⟩

theorem ordered_of_run
    {tasks : List Task}
    {workers : Nat}
    {pool : Pool}
    (run : Relation.ReflTransGen (Step workers) (initial tasks) pool) :
    Ordered tasks pool := by
  induction run with
  | refl =>
      exact ordered_initial tasks
  | tail _ step inductionHypothesis =>
      exact inductionHypothesis.step step

/-- However the tasks were interleaved, the collector returns what the run in order does. -/
theorem Ordered.verdict_eq
    {tasks : List Task}
    {pool : Pool}
    (ordered : Ordered tasks pool)
    {verdict : Except String Assembled}
    (returned : pool.verdict? = some verdict) :
    verdict = assemble tasks := by
  obtain ⟨collected, started, queued, unsubmitted⟩ := pool
  obtain ⟨inOrder, collectedKnown⟩ := ordered
  have noUnknown : collected.findSome? Task.unknownModel? = none :=
    List.findSome?_eq_none_iff.mpr collectedKnown
  unfold verdict? at returned
  split at returned
  · rename_i nothingStarted nothingQueued nothingUnsubmitted
    cases nothingStarted
    cases nothingQueued
    cases nothingUnsubmitted
    cases returned
    have allCollected : collected = tasks := by
      simpa using inOrder
    rw [assemble_eq, ← allCollected, noUnknown]
  · rename_i task later allStarted allSubmitted
    cases allStarted
    cases allSubmitted
    obtain ⟨model, unknown, rfl⟩ := Option.map_eq_some_iff.mp returned
    have firstUnknown : tasks.findSome? Task.unknownModel? = some model := by
      rw [← inOrder]
      simp [List.findSome?_append, noUnknown, unknown]
    rw [assemble_eq, firstUnknown]
  · contradiction

/-- How many steps a pool can make at most: each task is submitted, started, finished and
collected. -/
def remaining (pool : Pool) : Nat :=
  pool.started.length + pool.started.countP (fun entry => !entry.2) + 3 * pool.queued.length
    + 4 * pool.unsubmitted.length

/-- Every step brings a pool closer to its end. -/
theorem Step.remaining_lt
    {workers : Nat}
    {before after : Pool}
    (step : Step workers before after) :
    after.remaining < before.remaining := by
  cases step with
  | submit | start =>
      simp [remaining]
      omega
  | finish | collect =>
      simp [remaining]

/-- No pool runs forever. -/
theorem wellFounded_step
    (workers : Nat) :
    WellFounded fun after before => Step workers before after :=
  Subrelation.wf Step.remaining_lt (measure remaining).wf

/-- With a worker, a pool can make a step until its collector returns. -/
theorem exists_step_of_verdict?_eq_none
    {workers : Nat}
    (enough : 0 < workers)
    {pool : Pool}
    (unfinished : pool.verdict? = none) :
    ∃ after, Step workers pool after := by
  obtain ⟨collected, started, queued, unsubmitted⟩ := pool
  cases unsubmitted with
  | cons task rest =>
      exact ⟨_, .submit⟩
  | nil =>
      cases started with
      | nil =>
          cases queued with
          | nil =>
              contradiction
          | cons task rest =>
              exact ⟨_, .start enough⟩
      | cons entry later =>
          obtain ⟨task, finished⟩ := entry
          cases finished with
          | false =>
              exact ⟨_, @Step.finish workers collected queued [] [] later task⟩
          | true =>
              have known : task.unknownModel? = none := by
                simpa [verdict?] using unfinished
              exact ⟨_, .collect known⟩

/-- Every run of a pool with a worker can be continued until its collector returns. -/
theorem exists_verdict
    {workers : Nat}
    (enough : 0 < workers)
    (pool : Pool) :
    ∃ last verdict,
      Relation.ReflTransGen (Step workers) pool last ∧ last.verdict? = some verdict := by
  induction pool using (wellFounded_step workers).induction with
  | _ pool inductionHypothesis =>
      cases returned : pool.verdict? with
      | some verdict =>
          exact ⟨pool, verdict, .refl, returned⟩
      | none =>
          obtain ⟨after, step⟩ := exists_step_of_verdict?_eq_none enough returned
          obtain ⟨last, verdict, run, atLast⟩ := inductionHypothesis after step
          exact ⟨last, verdict, .head step run, atLast⟩

end Pool

end ZodSchemas.Assembly
