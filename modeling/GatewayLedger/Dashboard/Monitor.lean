import GatewayLedger.Dashboard.Timeline

/-!
# Monitor

A dashboard that runs in time. Refreshes are asked for one by one or at a fixed interval, where each
one starts on time however long the ones before it take. A periodic run ends when all refreshes
that are still out at its last start are completed, or when one of them fails; what is out then
goes on in the background.
-/

namespace GatewayLedger

structure Monitor where
  /-- Ticks since the monitor was set up. -/
  time : Nat
  client : Client
  dashboard : Dashboard
  /-- What is still to happen in the background, in its order. -/
  agenda : Timeline
  scheduler : Scheduler
  /-- The time of a row that has none. -/
  rowTime : Moment
  /-- The moment at which the monitor was set up. -/
  origin : Moment

/-- What a caller sees of one activity of the monitor. -/
structure Activity where
  requests : List Request
  effects : List Effect
  raised : Option Failure

/-- The clock of a periodic run, and the tick up to which it has slept. -/
structure Pace where
  time : Nat
  nextTick : Nat

namespace Pace

/-- Sleeps until the next tick, or not at all if that is over. Ticks are added up in the binary format
of the clock. -/
def sleep (interval : Nat) (p : Pace) : Pace :=
  let nextTick := Tick.round (p.nextTick + interval)
  ⟨Tick.after p.time (Tick.remaining p.time nextTick), nextTick⟩

/-- The pace of a run that starts at the given instant and has slept a number of times. -/
def slept (start interval : Nat) : Nat → Pace
  | 0 => ⟨start, start⟩
  | times + 1 => (slept start interval times).sleep interval

end Pace

namespace Monitor

open Timeline

def initial (client : Client) (scheduler : Scheduler) (rowTime origin : Moment) : Monitor :=
  ⟨0, client, Dashboard.initial, [], scheduler, rowTime, origin⟩

/-! ## Following a timeline -/

def perform (m : Monitor) (d : Dashboard) (h : Timed Happening) : Dashboard × List Effect :=
  match h.value.event with
  | .start => (d.start, [])
  | .arrival _ log => (d, log.map .log)
  | .completion outcome =>
    let c := d.complete outcome m.rowTime (m.origin.later? (Tick.micros h.instant))
    (c.dashboard, c.effects)

def performAll (m : Monitor) (d : Dashboard) : Timeline → Dashboard × List Effect
  | [] => (d, [])
  | h :: rest =>
    let (d, effects) := m.perform d h
    let (d, others) := m.performAll d rest
    (d, effects ++ others)

/-- The first number that no refresh on the agenda has. -/
def nextNumber (m : Monitor) : Nat := m.agenda.foldl (fun n h => max n (h.value.refresh + 1)) 0

/-- Flights as the event loop takes them up. -/
def takeUp (m : Monitor) (flights : List Flight) : List Flight :=
  flights.map fun f => f.withTurns ((m.scheduler flights).turns f.number)

/-- All that is to happen once flights are added to the agenda, in the order of the event loop. -/
def layOut (m : Monitor) (flights : List Flight) : Timeline :=
  (m.scheduler flights).arrange (m.agenda ++ (m.takeUp flights).flatMap Flight.timeline)

/-! ## Runs -/

/-- A run at one of its ticks. -/
structure Rounds where
  pace : Pace
  client : Client
  /-- The refreshes in the order of their starts. -/
  started : List Flight
  /-- The number of the next refresh. -/
  number : Nat

namespace Rounds

/-- Starts a refresh and does not wait for it. -/
def launch (filter : Filter) (r : Rounds) : Rounds :=
  let (flight, client) := r.client.launch filter r.number r.pace.time
  { r with client := client, started := r.started ++ [flight], number := r.number + 1 }

def sleep (interval : Nat) (r : Rounds) : Rounds := { r with pace := r.pace.sleep interval }

/-- Starts a refresh at each of the given number of ticks. It does not sleep after the last one. -/
def run (interval : Nat) (filter : Filter) : Nat → Rounds → Rounds
  | 0, r => r
  | ticks + 1, r =>
    let r := r.launch filter
    if ticks = 0 then r else run interval filter ticks (r.sleep interval)

/-- Starts a refresh at each tick before an instant. A run that gets no further by sleeping is given
up. -/
def runBefore (stop interval : Nat) (filter : Filter) (r : Rounds) : Rounds :=
  if r.pace.time < stop then
    if r.pace.time < (r.pace.sleep interval).time then
      runBefore stop interval filter ((r.launch filter).sleep interval)
    else r.launch filter
  else r
termination_by stop - r.pace.time
decreasing_by
  change stop - (r.pace.sleep interval).time < stop - r.pace.time
  omega

end Rounds

def roundsFrom (m : Monitor) : Rounds := ⟨⟨m.time, m.time⟩, m.client, [], m.nextNumber⟩

def rounds (m : Monitor) (interval ticks : Nat) (filter : Filter) : Rounds :=
  Rounds.run interval filter ticks m.roundsFrom

/-- The start of the refresh that has been started last. -/
def isLastStart (r : Rounds) (h : Timed Happening) : Bool :=
  h.value.refresh + 1 == r.number && h.value.event.rank == 0

/-- The end of a refresh that has the given number or a later one. -/
def isCompletionFrom (number : Nat) (h : Timed Happening) : Bool :=
  number ≤ h.value.refresh && h.value.event.rank == 2

def failureOf (rowTime : Moment) (h : Timed Happening) : Option Failure :=
  match h.value.event with
  | .completion outcome => Dashboard.failureOf outcome rowTime
  | _ => none

/-- Waits for the refreshes from a number on that have not ended. The wait is over when all of them
have, or when one of them fails; what comes after it is the second part. -/
def await (rowTime : Moment) (number : Nat) : Timeline → Timeline × Timeline × Option Failure
  | [] => ([], [], none)
  | h :: rest =>
    if (h :: rest).any (isCompletionFrom number) then
      match if isCompletionFrom number h then failureOf rowTime h else none with
      | some failure => ([h], rest, some failure)
      | none =>
        let (awaited, later, raised) := await rowTime number rest
        (h :: awaited, later, raised)
    else ([], h :: rest, none)

/-- Follows the refreshes of a run to their last start, and then waits for those that are still
out. -/
def finish (m : Monitor) (r : Rounds) : Monitor × Activity :=
  let (before, rest) := through (isLastStart r) (m.layOut r.started)
  let (awaited, agenda, raised) := await m.rowTime m.nextNumber rest
  let (dashboard, effects) := m.performAll m.dashboard (before ++ awaited)
  let time := (awaited.getLast?.map (·.instant)).getD r.pace.time
  ({ m with time := time, client := r.client, dashboard := dashboard, agenda := agenda },
    ⟨(m.takeUp r.started).flatMap Flight.requests, effects, raised⟩)

/-! ## Activities -/

/-- Completions at the instant at which the wait ends are left to what comes next. -/
def isBefore (stop : Nat) (h : Timed Happening) : Bool :=
  h.instant < stop || (h.instant == stop && h.value.event.rank < 2)

def wait (m : Monitor) (delay : Nat) : Monitor × Activity :=
  let stop := Tick.after m.time delay
  let (dashboard, effects) := m.performAll m.dashboard (m.agenda.takeWhile (isBefore stop))
  ({ m with time := stop, dashboard := dashboard, agenda := m.agenda.dropWhile (isBefore stop) },
    ⟨[], effects, none⟩)

def refresh (m : Monitor) (filter : Filter) : Monitor × Activity :=
  m.finish (m.roundsFrom.launch filter)

/-- Makes `ticks` refreshes and waits for those that are still out. -/
def runPeriodic (m : Monitor) (interval ticks : Nat) (filter : Filter) : Monitor × Activity :=
  if ticks = 0 then (m, ⟨[], [], none⟩) else m.finish (m.rounds interval ticks filter)

/-- Refreshes at the interval until the run is cancelled, and with it what it has out. -/
def runUntilCancelled (m : Monitor) (interval duration : Nat) (filter : Filter) :
    Monitor × Activity :=
  let stop := Tick.after m.time duration
  let r := m.roundsFrom.runBefore stop interval filter
  let (before, rest) := (m.layOut r.started).span (isBefore stop)
  let (dashboard, effects) := m.performAll m.dashboard before
  let agenda := rest.filter fun h => h.value.refresh < m.nextNumber
  ({ m with time := stop, client := r.client, dashboard := dashboard, agenda := agenda },
    ⟨(m.takeUp r.started).flatMap Flight.requests, effects, none⟩)

end Monitor

end GatewayLedger
