/-!
# Jobs done by tasks

A loop goes over jobs and starts a task in each round; it waits while as many tasks are
under way as are allowed. A task first looks whether the group is cancelled, and if so
fails with the cancellation. Otherwise it does a job, and then either writes the result
at the place of a job or fails. The first failure is kept and cancels the group, later
ones are dropped, and whoever waits for the group gets the failure that was kept, or
else the results, once every task has ended. Keeping a failure and cancelling the group
are two moves, so that others may move in between.

A task reads twice in the variables of the loop which job it is about: when it does the
job, and when it writes the result. If every round has variables of its own, that is the
job of the round in which the task was started. If the rounds share them, it is the job
of the round that the loop has come to.

Who moves next is up to a schedule, a list of turns. `TaskGroup.outcome` is what comes
out after a schedule and as many further turns as are needed.
-/

namespace MuxFlow

/-- The variables of a loop, as the tasks see them that it starts. -/
inductive LoopVariables where
  /-- Every round has its own. -/
  | own
  /-- All rounds have the same. -/
  | shared
  deriving DecidableEq, Repr

/-- Jobs, and how each of them is done. -/
structure TaskGroup (α β ε : Type) where
  jobs : List α
  work : α → Except ε β
  /-- How a task fails that finds the group cancelled. -/
  cancellation : ε
  /-- What stands at the place of a result that is not there yet. -/
  blank : β
  /-- How many tasks may be under way at a time. -/
  limit : Nat
  loopVars : LoopVariables

namespace TaskGroup

variable {α β ε : Type}

/-- Who moves next. -/
inductive Turn where
  | loop
  | task (i : Nat)
  deriving DecidableEq, Repr

/-- How far a task has come. -/
inductive Task (β ε : Type) where
  | ready
  /-- The group was not cancelled when the task looked. -/
  | cleared
  | done (r : Except ε β)
  /-- The failure of the task is the one that was kept. -/
  | kept
  | ended
  deriving Repr

structure State (β ε : Type) where
  /-- The round that the loop has come to. -/
  round : Nat
  /-- The tasks that were started, one for each round. -/
  tasks : List (Task β ε)
  results : List β
  failure : Option ε
  cancelled : Bool
  deriving Repr

/-- How many turns a task needs at most to end. -/
def Task.turns : Task β ε → Nat
  | ready => 4
  | cleared => 3
  | done _ => 2
  | kept => 1
  | ended => 0

/-- How many turns tasks need at most, all together. -/
def Task.turnsOf : List (Task β ε) → Nat
  | [] => 0
  | t :: ts => t.turns + turnsOf ts

namespace State

def put (s : State β ε) (i : Nat) (t : Task β ε) : State β ε :=
  { s with tasks := s.tasks.set i t }

/-- The failure of a task is kept unless there is one. -/
def fail (s : State β ε) (i : Nat) (e : ε) : State β ε :=
  match s.failure with
  | none => { s.put i .kept with failure := some e }
  | some _ => s.put i .ended

/-- How many tasks are under way. -/
def underWay (s : State β ε) : Nat := s.tasks.countP fun t => t.turns ≠ 0

/-- The failure that was kept, or else the results. -/
def result (s : State β ε) : Except ε (List β) :=
  match s.failure with
  | some e => .error e
  | none => .ok s.results

end State

variable (G : TaskGroup α β ε)

def start : State β ε where
  round := 0
  tasks := []
  results := List.replicate G.jobs.length G.blank
  failure := none
  cancelled := false

/-- A turn of the loop: it enters the next round, or starts the task of the round it is
in, or waits. -/
def advance (s : State β ε) : State β ε :=
  if s.tasks.length < G.jobs.length then
    if s.round < s.tasks.length then { s with round := s.tasks.length }
    else if s.underWay < G.limit then { s with tasks := s.tasks ++ [.ready] }
    else s
  else s

/-- The number of the job that a task reads in the variables of the loop. -/
def index (s : State β ε) (i : Nat) : Nat :=
  match G.loopVars with
  | .own => i
  | .shared => s.round

def move (s : State β ε) (i : Nat) : Task β ε → State β ε
  | .ready => s.put i (if s.cancelled then .done (.error G.cancellation) else .cleared)
  | .cleared =>
    match G.jobs[G.index s i]? with
    | some job => s.put i (.done (G.work job))
    | none => s.put i .ended
  | .done (.ok b) => { s.put i .ended with results := s.results.set (G.index s i) b }
  | .done (.error e) => s.fail i e
  | .kept => { s.put i .ended with cancelled := true }
  | .ended => s.put i .ended

/-- The state after a turn. Who has nothing to do leaves it alone. -/
def step (s : State β ε) : Turn → State β ε
  | .loop => G.advance s
  | .task i =>
    match s.tasks[i]? with
    | some t => G.move s i t
    | none => s

def run (s : State β ε) (turns : List Turn) : State β ε := turns.foldl G.step s

def after (turns : List Turn) : State β ε := G.run G.start turns

/-- What waiting for the group returns; nothing while a task has not ended or the loop
is not through. -/
def wait (s : State β ε) : Option (Except ε (List β)) :=
  if s.tasks.length = G.jobs.length ∧ ∀ t ∈ s.tasks, t.turns = 0 then some s.result else none

/-! ## Coming to an end -/

/-- Whose turn it is when the loop goes on only after every task has ended. -/
def next? (s : State β ε) : Option Turn :=
  match s.tasks.findIdx? fun t => t.turns ≠ 0 with
  | some i => some (.task i)
  | none => if s.tasks.length < G.jobs.length then some .loop else none

/-- No more turns than these change anything. -/
def remaining (s : State β ε) : Nat :=
  5 * (G.jobs.length - s.tasks.length) + (G.jobs.length - s.round) + Task.turnsOf s.tasks

/-- The state after at most `n` more turns, one task after another. -/
def finish : Nat → State β ε → State β ε
  | 0, s => s
  | n + 1, s =>
    match G.next? s with
    | some turn => finish n (G.step s turn)
    | none => s

/-- What comes out when the group moves by a schedule first. -/
def outcome (turns : List Turn) : Except ε (List β) :=
  let s := G.after turns
  (G.finish (G.remaining s) s).result

end TaskGroup

end MuxFlow
