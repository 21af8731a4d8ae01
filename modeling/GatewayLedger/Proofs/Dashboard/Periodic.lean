import GatewayLedger.Dashboard.Timers
import GatewayLedger.Proofs.Dashboard.Rounds
import GatewayLedger.Proofs.Exchange.Reply

/-!
# Periodic runs

A periodic run starts its refreshes at the ticks of its clock, since it does not wait for any of them
while it goes on. After its last start it waits for those that are still out, and none of the others
ends later. So it returns when the last refresh of all has completed, and the dashboard shows what that
one leaves there. The ticks are sums in the binary format: they are the multiples of the interval as
long as the format has these.
-/

namespace GatewayLedger

open Dashboard (Ending Ended)

/-! ## An exchange that answers badly -/

namespace Client

/-- A client of an exchange that answers queries of any kind with one answer after the other. -/
def ofAnswers (sessions : Sessions) (answers : List Answer) : Client where
  account := sampleAccount
  sessions := sessions
  clock := [.whole 1700000000]
  script := [⟨"GET", "", answers⟩]
  platform := Platform.usual

/-- What is left after one answer. The last answer stays. -/
def following : List Answer → List Answer
  | [] => []
  | [a] => [a]
  | _ :: rest => rest

/-- The exchange does not answer in time. -/
def late (delay : Nat) : Answer := ⟨delay, .timedOut⟩

variable {answer : Answer}

theorem exists_issue_first (call : Call) {payload : Payload} (hpayload : call.payload = .ok payload)
    (hwritable : Query.areWritable (Request.signedPairs payload (1700000000 * 1000)) = true)
    (hget : call.endpoint.method = .get) (sessions : Sessions) {answers : List Answer}
    (hanswer : answers.head? = some answer) :
    ∃ i later, (ofAnswers sessions answers).issue call = (i, ofAnswers later (following answers)) ∧
      i.delay = answer.delay ∧
      i.settlement = answer.delivery.settle Platform.usual call.endpoint sampleAccount.timeout := by
  have hsecret : sampleAccount.secret ≠ "" := by decide
  obtain ⟨r, hr, hendpoint⟩ :=
    Request.exists_make hsecret call.endpoint payload (1700000000 * 1000)
  have hissue := issue_eq_send (c := ofAnswers sessions answers) hpayload
    (Seconds.millis_whole 1700000000) hwritable hr
  have hending : (Route.location r).endsWith "" = true := String.Slice.endsWith_string_empty
  have hfits : Route.fits ⟨"GET", "", answers⟩ r = true := by
    rw [Route.fits, hending, hendpoint, hget]
    rfl
  have hnext : Route.next ⟨"GET", "", answers⟩ = (answer, ⟨"GET", "", following answers⟩) := by
    cases answers with
    | nil => cases hanswer
    | cons first rest =>
      obtain rfl : first = answer := Option.some.inj hanswer
      cases rest <;> rfl
  have hscript : Script.answer [⟨"GET", "", answers⟩] r =
      (answer, [⟨"GET", "", following answers⟩]) := by
    simp only [Script.answer, hfits, if_true, hnext]
  refine ⟨⟨some r, answer.delay, answer.delivery.settle Platform.usual r.endpoint sampleAccount.timeout⟩,
    sessions.acquire, ?_, rfl, by rw [hendpoint]⟩
  rw [hissue]
  simp only [send, readClock, ofAnswers, hscript]

theorem launch_eq {c c₁ c₂ c₃ c₄ : Client} {account deposits withdrawals payments : Issued}
    {filter : Filter} (h₁ : c.issue .balances = (account, c₁))
    (h₂ : c₁.issue (.deposits filter) = (deposits, c₂))
    (h₃ : c₂.issue (.withdrawals filter) = (withdrawals, c₃))
    (h₄ : c₃.issue (.paymentRequests filter) = (payments, c₄)) (number start : Nat) :
    c.launch filter number start =
      (⟨number, start, account, ⟨deposits, withdrawals, payments, fun _ => 0⟩⟩, c₄) := by
  simp only [launch, requestHistory, h₁, h₂, h₃, h₄]

/-- A refresh ends with a failure of a kind after a delay, whatever the turns of its requests. -/
def EndsWith (p : Failure → Prop) (start delay : Nat) (f : Flight) : Prop :=
  ∀ turn, ∃ failure, p failure ∧ (f.withTurns turn).task = ⟨Tick.after start delay, .error failure⟩

/-- A refresh all of whose requests get one answer, which is a failure. -/
theorem exists_launch_failing (sessions : Sessions) (answers : List Answer) (number start : Nat)
    {p : Failure → Prop}
    (hfails : ∀ e, ∃ failure,
      (answer.delivery.settle Platform.usual e sampleAccount.timeout).outcome = .error failure ∧
        p failure)
    (h₁ : answers.head? = some answer) (h₂ : (following answers).head? = some answer)
    (h₃ : (following (following answers)).head? = some answer)
    (h₄ : (following (following (following answers))).head? = some answer) :
    ∃ f later, (ofAnswers sessions answers).launch {} number start =
        (f, ofAnswers later (following (following (following (following answers))))) ∧
      EndsWith p start answer.delay f := by
  have hlimit : Query.areWritable (Request.signedPairs (.query [("limit", .int 20)])
      (1700000000 * 1000)) = true := by decide +kernel
  obtain ⟨account, s₁, hissue₁, hd₁, ho₁⟩ := exists_issue_first .balances rfl areWritable_sample rfl sessions h₁
  obtain ⟨deposits, s₂, hissue₂, hd₂, ho₂⟩ :=
    exists_issue_first (.deposits {}) rfl hlimit rfl s₁ h₂
  obtain ⟨withdrawals, s₃, hissue₃, hd₃, ho₃⟩ :=
    exists_issue_first (.withdrawals {}) rfl hlimit rfl s₂ h₃
  obtain ⟨payments, s₄, hissue₄, hd₄, ho₄⟩ :=
    exists_issue_first (.paymentRequests {}) rfl hlimit rfl s₃ h₄
  refine ⟨_, s₄, launch_eq hissue₁ hissue₂ hissue₃ hissue₄ number start, fun turn => ?_⟩
  let f : Flight := ⟨number, start, account, ⟨deposits, withdrawals, payments, turn⟩⟩
  have hissued : ∀ i ∈ f.issued, i.delay = answer.delay ∧
      ∃ failure, i.settlement.outcome = .error failure ∧ p failure :=
    Flight.forall_issued.mpr ⟨⟨hd₁, ho₁ ▸ hfails _⟩, ⟨hd₂, ho₂ ▸ hfails _⟩, ⟨hd₃, ho₃ ▸ hfails _⟩,
      ⟨hd₄, ho₄ ▸ hfails _⟩⟩
  obtain ⟨failure₁, he₁, _⟩ := (hissued account List.mem_cons_self).2
  obtain ⟨i, hi, failure, hfailure, htask⟩ :=
    Flight.exists_issued_of_failure (f := f) ⟨account, List.mem_cons_self, _, he₁⟩
  obtain ⟨hdelay, failure', he, hp⟩ := hissued i hi
  obtain rfl : failure = failure' := Except.error.inj (hfailure.symm.trans he)
  have hinstant : i.instant f.start = Tick.after start answer.delay := by rw [Issued.instant, hdelay]
  exact ⟨failure, hp, htask.trans (by rw [hinstant])⟩

/-- A refresh all of whose requests time out after the same delay. -/
theorem exists_launch_late (sessions : Sessions) (answers : List Answer) (number start : Nat)
    {delay : Nat}
    (h₁ : answers.head? = some (late delay)) (h₂ : (following answers).head? = some (late delay))
    (h₃ : (following (following answers)).head? = some (late delay))
    (h₄ : (following (following (following answers))).head? = some (late delay)) :
    ∃ f later, (ofAnswers sessions answers).launch {} number start =
        (f, ofAnswers later (following (following (following (following answers))))) ∧
      EndsWith (fun failure => ∃ e, failure = .gateway e) start delay f :=
  exists_launch_failing sessions answers number start (fun _ => ⟨_, rfl, _, rfl⟩) h₁ h₂ h₃ h₄

end Client

/-! ## The end of a run in which nothing fails -/

namespace Monitor

open Timeline

variable {m : Monitor} {interval ticks : Nat} {filter : Filter}

/-- A refresh that ends with data or with an error of the exchange leaves no failure. -/
theorem failure?_of_ending {f : Flight} {now : Moment} {ending : Ending}
    (h : Ending.Of now f.task.value ending) : f.failure? now = none := by
  rw [Flight.failure?]
  generalize f.task.value = outcome at h
  cases h with
  | data hl hb => simp only [Dashboard.failureOf, hl, hb]
  | error e => rfl

/-- A periodic run whose refreshes all end with data or an error of the exchange starts each of them at
its tick, returns when the last one has completed, and shows what that one has left. -/
theorem runPeriodic_shows_last_completed (hticks : 1 ≤ ticks)
    (hends : ∀ f ∈ m.flights interval ticks filter,
      ∃ ending, Ending.Of m.rowTime f.task.value ending) :
    let flights := m.flights interval ticks filter
    let ran := m.runPeriodic interval ticks filter
    flights.length = ticks ∧
      (∀ k (hk : k < flights.length),
        flights[k].start = (Pace.slept m.time interval k).time ∧
          (Tick.IsExact interval → (∀ j ≤ k, Tick.IsExact (m.time + j * interval)) →
            flights[k].start = m.time + k * interval)) ∧
      ran.2.requests = flights.flatMap Flight.requests ∧ ran.2.raised = none ∧
      (∀ f ∈ flights, f.task.instant ≤ ran.1.time) ∧ (∀ h ∈ ran.1.agenda, h ∈ m.agenda) ∧
      ∃ earlier last ending, last ∈ flights ∧
        m.course interval ticks filter = earlier ++ last.completionOf :: ran.1.agenda ∧
        (∀ f ∈ flights, f ≠ last → f.completionOf ∈ earlier) ∧
        last.task.instant = ran.1.time ∧ Ending.Of m.rowTime last.task.value ending ∧
        ran.1.dashboard.context =
          (⟨last.number, ending, m.origin.later? (Tick.micros ran.1.time)⟩ : Ended).shown := by
  intro flights ran
  obtain ⟨before, newest, front, last, later, _, hlast, hcourse, _, hlater, htime, hagenda,
    hdashboard, hrequests, hraised⟩ := m.exists_decisive interval filter hticks
  obtain ⟨ending, hending⟩ := hends last hlast
  have hfine := failure?_of_ending hending
  have hnone := hlater hfine
  let earlier := before ++ newest.startOf :: front
  have hsplit : m.course interval ticks filter = earlier ++ last.completionOf :: later := by
    rw [hcourse]
    simp [earlier]
  refine ⟨m.length_flights interval ticks filter, ?_, hrequests, hraised.trans hfine, ?_, ?_,
    earlier, last, ending, hlast, by rw [hagenda]; exact hsplit, ?_, htime.symm, hending, ?_⟩
  · intro k hk
    obtain ⟨-, hstart⟩ := head_flight hk
    exact ⟨hstart, fun hi hexact => by rw [hstart, Pace.slept_of_isExact hi hexact]⟩
  · intro f hf
    rw [htime]
    exact instant_le_of_not_mem hsplit hf (hnone f hf)
  · intro h hh
    have hend : m.course interval ticks filter = (earlier ++ [last.completionOf]) ++ later := by
      simp [hsplit]
    exact mem_agenda_of_over hend hnone (hagenda ▸ hh)
  · exact fun f hf hne => completionOf_mem_front hsplit hf hlast hne (hnone f hf)
  · have happend : before ++ newest.startOf :: (front ++ [last.completionOf]) =
        earlier ++ [last.completionOf] := by simp [earlier]
    rw [hdashboard, happend, htime]
    exact context_performAll hending _ _

/-! ## Runs in which nothing is answered in time -/

attribute [local irreducible] Tick.perSecond

/-- A run of two refreshes each of which ends with a failure of a kind. -/
theorem exists_flights_of_two_launches (m : Monitor) (interval : Nat) {first second : Flight}
    {c₁ c₂ : Client} {p q : Failure → Prop} {delay delay' : Nat}
    (h₁ : m.client.launch filter m.nextNumber m.time = (first, c₁))
    (h₂ : c₁.launch filter (m.nextNumber + 1) (Pace.slept m.time interval 1).time = (second, c₂))
    (hfirst : Client.EndsWith p m.time delay first)
    (hsecond : Client.EndsWith q (Pace.slept m.time interval 1).time delay' second) :
    ∃ f g failure failure', m.flights interval 2 filter = [f, g] ∧
      (p failure ∧ f.task = ⟨Tick.after m.time delay, .error failure⟩) ∧
      (q failure' ∧
        g.task = ⟨Tick.after (Pace.slept m.time interval 1).time delay', .error failure'⟩) := by
  have hstarted : (m.rounds interval 2 filter).started = [first, second] := by
    have hslept : (⟨m.time, m.time⟩ : Pace).sleep interval = Pace.slept m.time interval 1 := rfl
    simp only [rounds, Rounds.run, roundsFrom, Rounds.launch, Rounds.sleep, h₁, hslept, h₂]
    rfl
  let turns := (m.scheduler [first, second]).turns
  have hflights : m.flights interval 2 filter =
      [first.withTurns (turns first.number), second.withTurns (turns second.number)] := by
    rw [flights, hstarted]
    rfl
  obtain ⟨failure, hfailure⟩ := hfirst (turns first.number)
  obtain ⟨failure', hfailure'⟩ := hsecond (turns second.number)
  exact ⟨_, _, failure, failure', hflights, hfailure, hfailure'⟩

/-- The first of two refreshes takes five seconds and ends after the second, which takes one. -/
theorem runPeriodic_shows_slow_first_refresh :
    let start : Moment := ⟨0, some 0, by decide⟩
    let slow := Client.late (5 * Tick.perSecond)
    let quick := Client.late (1 * Tick.perSecond)
    let answers := [slow, slow, slow, slow, quick]
    let m := Monitor.initial (Client.ofAnswers Sessions.initial answers) Timers.scheduler start start
    let interval := 2 * Tick.perSecond
    let ran := m.runPeriodic interval 2 {}
    (1 ≤ 2 ∧ ∀ f ∈ m.flights interval 2 {}, ∃ ending, Ending.Of m.rowTime f.task.value ending) ∧
      ran.1.time = 5 * Tick.perSecond ∧ ∃ first second e,
        m.flights interval 2 {} = [first, second] ∧
          first.task = ⟨5 * Tick.perSecond, .error (.gateway e)⟩ ∧
          second.task.instant = 3 * Tick.perSecond ∧ ran.1.dashboard.context =
            ⟨.error, [], Ledger.empty, some e.userMessage, start.later? 5000000⟩ := by
  intro start slow quick answers m interval
  have hpace : (Pace.slept m.time interval 1).time = 2 * Tick.perSecond :=
    Pace.slept_seconds (by decide)
  have hfive : Tick.after m.time (5 * Tick.perSecond) = 5 * Tick.perSecond :=
    Tick.after_zero_seconds (by decide)
  have hthree : Tick.after (2 * Tick.perSecond) (1 * Tick.perSecond) = 3 * Tick.perSecond :=
    Tick.after_seconds (by decide)
  obtain ⟨first, s₁, h₁, hfirst⟩ :=
    Client.exists_launch_late Sessions.initial answers 0 0 rfl rfl rfl rfl
  obtain ⟨second, s₂, h₂, hsecond⟩ :=
    Client.exists_launch_late s₁ [quick] 1 (Pace.slept m.time interval 1).time rfl rfl rfl rfl
  obtain ⟨first, second, _, _, hflights, ⟨⟨e, rfl⟩, ht₁⟩, ⟨e', rfl⟩, ht₂⟩ :=
    exists_flights_of_two_launches m interval h₁ h₂ hfirst hsecond
  rw [hfive] at ht₁
  rw [hpace, hthree] at ht₂
  have hends : ∀ f ∈ m.flights interval 2 {}, ∃ ending, Ending.Of m.rowTime f.task.value ending := by
    intro f hf
    rw [hflights] at hf
    rcases List.mem_pair.mp hf with rfl | rfl
    · exact ⟨.error e, by rw [ht₁]; exact .error e⟩
    · exact ⟨.error e', by rw [ht₂]; exact .error e'⟩
  have hmain := runPeriodic_shows_last_completed (by decide : 1 ≤ 2) hends
  generalize m.runPeriodic interval 2 {} = ran at hmain ⊢
  obtain ⟨_, _, _, _, hle, _, _, last, ending, hmem, _, _, htime, hending, hcontext⟩ := hmain
  rw [hflights] at hle hmem
  have hlate : 5 * Tick.perSecond ≤ ran.1.time := by
    have hinstant := hle first (by simp)
    rwa [ht₁] at hinstant
  rcases List.mem_pair.mp hmem with rfl | rfl
  · rw [ht₁] at htime hending
    cases hending
    have hmicros : Tick.micros (5 * Tick.perSecond) = 5000000 := Tick.micros_seconds 5
    have hshown (time : Option Moment) : (⟨last.number, .error e, time⟩ : Ended).shown =
        ⟨.error, [], Ledger.empty, some e.userMessage, time⟩ := rfl
    rw [← htime, hmicros, hshown] at hcontext
    have hsecond' : second.task.instant = 3 * Tick.perSecond := congrArg (·.instant) ht₂
    exact ⟨⟨by decide, hends⟩, htime.symm, last, second, e, hflights, ht₁, hsecond', hcontext⟩
  · rw [ht₂] at htime
    have hearly : ran.1.time = 3 * Tick.perSecond := htime.symm
    have hlt : 3 * Tick.perSecond < 5 * Tick.perSecond :=
      Nat.mul_lt_mul_of_pos_right (by decide) Tick.perSecond_pos
    exact absurd (hlate.trans_eq hearly) hlt.not_ge

/-! ## Ticks that are no multiples -/

theorem Rounds.forall_run {P : Client → Prop} {Q : Flight → Prop} {r : Rounds}
    (hstep : ∀ c number start, P c →
      Q (c.launch filter number start).1 ∧ P (c.launch filter number start).2)
    (hr : P r.client) (hstarted : ∀ f ∈ r.started, Q f) (ticks : Nat) :
    ∀ f ∈ (Rounds.run interval filter ticks r).started, Q f := by
  induction ticks generalizing r with
  | zero => exact hstarted
  | succ ticks ih =>
    obtain ⟨hflight, hclient⟩ := hstep r.client r.number r.pace.time hr
    have hlaunched : ∀ f ∈ (r.launch filter).started, Q f :=
      List.forall_mem_append.mpr ⟨hstarted, List.forall_mem_singleton.mpr hflight⟩
    rw [Rounds.run]
    split
    · exact hlaunched
    · exact ih (r := (r.launch filter).sleep interval) hclient hlaunched

/-- At an interval of a tenth of a second the seventh refresh does not start at the sixth multiple of
the interval, nor at the number of the format that is next to it. -/
theorem runPeriodic_drifts_from_multiples :
    let start : Moment := ⟨0, some 0, by decide⟩
    let m := Monitor.initial (Client.ofAnswers Sessions.initial [Client.late 0]) Timers.scheduler
      start start
    let interval := Tick.ofSeconds (.finite false 7205759403792794 (-56))
    (∀ f ∈ m.flights interval 7 {}, ∃ ending, Ending.Of m.rowTime f.task.value ending) ∧
      ∃ f, (m.flights interval 7 {})[6]? = some f ∧ f.start ≠ m.time + 6 * interval ∧
        f.start ≠ Tick.round (m.time + 6 * interval) := by
  intro start m interval
  constructor
  · intro f hf
    obtain ⟨raw, hraw, rfl⟩ := List.mem_map.mp hf
    have hlate : Client.EndsWith (fun failure => ∃ e, failure = .gateway e) raw.start 0 raw := by
      refine Rounds.forall_run
        (P := fun c => ∃ sessions, c = Client.ofAnswers sessions [Client.late 0])
        (Q := fun f => Client.EndsWith (fun failure => ∃ e, failure = .gateway e) f.start 0 f)
        ?_ ?_ ?_ 7 raw hraw
      · rintro _ number start ⟨sessions, rfl⟩
        obtain ⟨f, later, hlaunch, hends⟩ := Client.exists_launch_late sessions
          [Client.late 0] number start rfl rfl rfl rfl
        have hstart (c : Client) : (c.launch {} number start).1.start = start := rfl
        rw [hstart, hlaunch]
        exact ⟨hends, _, rfl⟩
      · exact ⟨_, rfl⟩
      · exact List.forall_mem_nil _
    obtain ⟨_, ⟨e, rfl⟩, htask⟩ := hlate ((m.scheduler _).turns raw.number)
    exact ⟨.error e, by rw [htask]; exact .error e⟩
  · have hdrift : (Pace.slept m.time interval 6).time ≠ m.time + 6 * interval ∧
        (Pace.slept m.time interval 6).time ≠ Tick.round (m.time + 6 * interval) := by
      decide +kernel
    have hlt : 6 < (m.flights interval 7 {}).length := by
      rw [length_flights]
      decide
    obtain ⟨-, hstart⟩ := head_flight hlt
    rw [← hstart] at hdrift
    exact ⟨_, List.getElem?_eq_getElem hlt, hdrift⟩

end Monitor

end GatewayLedger
