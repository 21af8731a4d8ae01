/-!
# Concurrent tasks

A task delivers a value or an error at an instant. A job is a task or a group of jobs that are
awaited together, and groups may stand inside each other. All that is due at one instant delivers
before a failure takes effect: then a group with a failed member cancels what still runs in it and
fails in its turn, with the first error of a preferred kind among those of its members, and
otherwise with the first of them all.
-/

namespace GatewayLedger

/-- Something that happens at an instant. -/
structure Timed (α : Type) where
  instant : Nat
  value : α

abbrev Task (ε α : Type) := Timed (Except ε α)

/-- A task or a group of jobs at some point of its run. -/
inductive Job (ε α : Type) where
  | running (task : Task ε α)
  | done (value : α)
  | failed (error : ε)
  | cancelled
  | group (members : List (Job ε α))

namespace Job

variable {ε α β : Type}

/-- Induction over a job and the jobs in its groups. -/
@[elab_as_elim, induction_eliminator]
theorem inductionOn {motive : Job ε α → Prop} (running : ∀ task, motive (running task))
    (done : ∀ value, motive (done value)) (failed : ∀ error, motive (failed error))
    (cancelled : motive cancelled)
    (group : ∀ members, (∀ j ∈ members, motive j) → motive (group members)) : ∀ j, motive j
  | .running task => running task
  | .done value => done value
  | .failed error => failed error
  | .cancelled => cancelled
  | .group members =>
    group members fun j _ => inductionOn running done failed cancelled group j

/-- The tasks that still run, in their order. -/
def tasks : Job ε α → List (Task ε α)
  | running task => [task]
  | group members => members.flatMap tasks
  | _ => []

def isRunning (j : Job ε α) : Bool := !j.tasks.isEmpty

def ofOutcome : Except ε α → Job ε α
  | .ok value => done value
  | .error error => failed error

/-- Lets the tasks deliver that are due at an instant. -/
def deliver (instant : Nat) : Job ε α → Job ε α
  | running task => if task.instant = instant then ofOutcome task.value else running task
  | group members => group (members.map (deliver instant))
  | j => j

def cancel : Job ε α → Job ε α
  | running _ => cancelled
  | group members => group (members.map cancel)
  | j => j

/-- The error that stands for several: the first of a preferred kind, or else the first. -/
def pick (preferred : ε → Bool) (errors : List ε) : Option ε :=
  (errors.find? preferred).or errors.head?

def error? (preferred : ε → Bool) : Job ε α → Option ε
  | failed error => some error
  | group members => pick preferred (members.filterMap (error? preferred))
  | _ => none

/-- Lets failures take effect, from the inner groups to the outer ones. -/
def abort (preferred : ε → Bool) : Job ε α → Job ε α
  | group members =>
    let members := members.map (abort preferred)
    if members.any fun j => (j.error? preferred).isSome then group (members.map cancel)
    else group members
  | j => j

def tick (preferred : ε → Bool) (instant : Nat) (j : Job ε α) : Job ε α :=
  (j.deliver instant).abort preferred

/-- Follows a job over the given instants until nothing of it runs any more. -/
def follow (preferred : ε → Bool) (start : Nat) (j : Job ε α) : List Nat → Timed (Job ε α)
  | [] => ⟨start, j⟩
  | instant :: later =>
    let j := j.tick preferred instant
    if j.isRunning then follow preferred start j later else ⟨instant, j⟩

/-- The instants at which something of a job is due, the earliest first. -/
def instants (j : Job ε α) : List Nat := (j.tasks.map (·.instant)).mergeSort

/-- When and how a job ends that starts at an instant. If it does not fail, its tasks have delivered
the values that make up `result`. -/
def settle (preferred : ε → Bool) (start : Nat) (j : Job ε α) (result : Except ε β) : Task ε β :=
  let ended := j.follow preferred start j.instants
  match ended.value.error? preferred with
  | some error => ⟨ended.instant, .error error⟩
  | none => ⟨ended.instant, result⟩

end Job

namespace Concurrent

variable {ε α : Type}

def chooseAll (preferred : ε → Bool) (first : ε) (others : List ε) : ε :=
  (Job.pick preferred (first :: others)).getD first

def job (tasks : List (Task ε α)) : Job ε α := .group (tasks.map .running)

/-- All tasks of a list together, which start at the given instant. They are listed once more in the
order in which those of one instant take effect, since that order is up to the scheduler. -/
def allIn (preferred : ε → Bool) (start : Nat) (order tasks : List (Task ε α)) : Task ε (List α) :=
  (job order).settle preferred start (tasks.mapM (·.value))

/-- The tasks of one instant take effect in the order of the list. -/
def all (preferred : ε → Bool) (start : Nat) (tasks : List (Task ε α)) : Task ε (List α) :=
  allIn preferred start tasks tasks

def hasValue (t : Task ε α) : Bool :=
  match t.value with
  | .ok _ => true
  | .error _ => false

def positions (p : Task ε α → Bool) (tasks : List (Task ε α)) : List Nat :=
  tasks.zipIdx.filterMap fun t => if p t.1 then some t.2 else none

def finishedBy (instant : Nat) (tasks : List (Task ε α)) : List Nat :=
  positions (fun t => hasValue t && t.instant ≤ instant) tasks

def runningAfter (instant : Nat) (tasks : List (Task ε α)) : List Nat :=
  positions (fun t => instant < t.instant) tasks

end Concurrent

end GatewayLedger
