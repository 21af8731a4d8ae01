import GatewayLedger.Dashboard.Timeline

/-!
# Timers

An event loop keeps its timers in a binary heap. What falls due at one instant it takes up in the order
in which the heap gives it out, which follows neither the order in which the timers were set nor that
of the refreshes. `Timers.scheduler` is the plan of a loop that runs one list of flights: it starts each
refresh before it takes up what else is due at that instant, and completes refreshes after all
arrivals of the instant.
-/

namespace GatewayLedger

/-- A timer that is set for a request, or for the sleep before the next refresh. -/
structure Timer where
  instant : Nat
  refresh : Nat
  part : Option Part

/-- A binary heap, in which the timers below place `n` stand at `2 * n + 1` and `2 * n + 2`. -/
abbrev Timers := Array Timer

namespace Timers

/-- Moves a timer up past those that are due later. -/
def rise (ts : Timers) (place : Nat) : Timers :=
  if 0 < place then
    let above := (place - 1) / 2
    match ts[place]?, ts[above]? with
    | some t, some u =>
      if t.instant < u.instant then rise (ts.swapIfInBounds place above) above else ts
    | _, _ => ts
  else ts
termination_by place

/-- Moves a timer down to the bottom, and from there up to its place. Of the two below it the one that
is due earlier takes its place, and the second one if they are due together. -/
def sink (ts : Timers) (place : Nat) : Timers :=
  if _h : 2 * place + 1 < ts.size then
    match ts[2 * place + 1]?, ts[2 * place + 2]? with
    | some t, some u =>
      if t.instant < u.instant then
        sink (ts.swapIfInBounds place (2 * place + 1)) (2 * place + 1)
      else sink (ts.swapIfInBounds place (2 * place + 2)) (2 * place + 2)
    | _, _ => sink (ts.swapIfInBounds place (2 * place + 1)) (2 * place + 1)
  else rise ts place
termination_by ts.size - place
decreasing_by all_goals rw [Array.size_swapIfInBounds]; omega

def set (ts : Timers) (t : Timer) : Timers := rise (ts.push t) ts.size

/-- Takes out the first timer. The last one takes its place. -/
def pop? (ts : Timers) : Option (Timer × Timers) :=
  match ts[0]?, ts.back? with
  | some first, some last => some (first, sink ((ts.setIfInBounds 0 last).pop) 0)
  | _, _ => none

/-- Takes out what is due up to an instant, from one instant to the next and at most the given number
of timers. The timers of a refresh that is over are dropped when they come to the front. -/
def takeDue (ended : Nat → Nat) (stop : Nat) : Nat → Nat → Timers → List Timer × Timers
  | 0, _, ts => ([], ts)
  | count + 1, now, ts =>
    match ts.pop? with
    | none => ([], ts)
    | some (t, rest) =>
      let isDropped := t.part.isSome &&
        (ended t.refresh < now || (ended t.refresh == now && now < stop))
      if now < t.instant && isDropped then takeDue ended stop count now rest
      else if t.instant ≤ stop then
        let (due, rest) := takeDue ended stop count (max now t.instant) rest
        (t :: due, rest)
      else ([], ts)

def ofParts (parts : List (Part × Issued)) (number start : Nat) : List Timer :=
  parts.map fun p => ⟨p.2.instant start, number, some p.1⟩

/-- Sets timers one after the other at an instant. What is over by then needs no timer. -/
def setAll (ts : Timers) (now : Nat) (added : List Timer) : Timers :=
  (added.filter fun t => now < t.instant).foldl set ts

/-- Takes out all timers, none of which is dropped. -/
def takeAll (ts : Timers) : List Timer :=
  (takeDue (fun _ => Tick.never) Tick.never ts.size 0 ts).1

/-- The timers of flights in the order in which they are given out. With each flight the sleep before
the next one is set first. -/
def given (ended : Nat → Nat) (now : Nat) (ts : Timers) : List Flight → List Timer
  | [] => (takeDue ended Tick.never ts.size now ts).1
  | f :: later =>
    let (due, ts) := takeDue ended f.start ts.size now ts
    let sleep := later.head?.toList.map fun g => ⟨g.start, g.number, none⟩
    due ++ given ended f.start (ts.setAll f.start (sleep ++ ofParts f.parts f.number f.start)) later

/-- The place of a request among all timers. One without a timer comes after them. -/
def turnOf (order : List Timer) (refresh : Nat) (part : Part) : Nat :=
  (order.findIdx? fun t => t.refresh == refresh && t.part == some part).getD order.length

/-- The history as a whole takes effect after the account. -/
def turns (order : List Timer) (refresh : Nat) : Turns
  | .history => order.length + 1
  | part => turnOf order refresh part

/-- The turns of requests for the history alone that are made at the instant zero. -/
def turnsOf (h : HistoryRequests) : Turns := turns (setAll #[] 0 (ofParts h.parts 0 0)).takeAll 0

/-- How often the loop goes through what is ready before a refresh completes, once the last of its
timers is given out. A group learns of a member one round after it has ended, and goes on one round
later; if it fails, it first waits for the members that it cancels. Those who wait for a refresh learn
of its failure two rounds later. -/
def rounds (f : Flight) : Nat :=
  let isDue (i : Issued) : Bool := i.instant f.start = f.task.instant
  let isLate (i : Issued) : Bool := f.task.instant < i.instant f.start
  let fails (i : Issued) : Bool := isDue i && !Concurrent.hasValue (i.task f.start)
  let history := f.history.toList
  let (first, second) := if f.task.instant = f.start then (3, 4) else (1, 1)
  let historyEnd :=
    if history.any fails then second + (if history.any isLate then 4 else 2)
    else if history.any isLate then first + 5
    else if history.any isDue then second + 2 else 0
  let accountEnd := if isDue f.account then first else if isLate f.account then historyEnd + 2 else 0
  let waiting :=
    match f.task.value with
    | .ok _ | .error (.gateway _) => 0
    | .error _ => 2
  max accountEnd historyEnd + 2 + waiting

/-- The turn of the request that ends a refresh: the first one that fails, or else the last one. -/
def lastTurn (order : List Timer) (f : Flight) : Nat :=
  let due := f.parts.filter fun p => p.2.instant f.start = f.task.instant
  let turn (p : Part × Issued) : Nat := turnOf order f.number p.1
  match due.filter fun p => !Concurrent.hasValue (p.2.task f.start) with
  | [] => (due.map turn).foldl max 0
  | p :: others => (others.map turn).foldl min (turn p)

/-- The place of what happens at one instant. -/
def placeOf (order : List Timer) (flights : List Flight) (h : Happening) : Nat :=
  match h.event with
  | .start => 0
  | .arrival part _ => turnOf order h.refresh part
  | .completion _ =>
    match flights.find? fun f => f.number == h.refresh with
    | none => 0
    | some f => rounds f * (order.length + 1) + lastTurn order f

def scheduler : Scheduler := fun flights =>
  let ended (number : Nat) : Nat :=
    ((flights.find? fun f => f.number == number).map (·.task.instant)).getD Tick.never
  let order := given ended 0 #[] flights
  .byPlace (turns order) (placeOf order flights)

end Timers

end GatewayLedger
