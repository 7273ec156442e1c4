import Groovebox.Proofs.Runs
import Groovebox.Session.Live

/-!
# The loop of a session

A session calls its sequencer for every command that it receives, and polls it after every command
and whenever none comes for a while; a shutdown is one last stop.  The log of a life has these calls
in order, each with the output as the call finds it.  What the session does to the outside is what
the sequencer does at these calls, each refusal reported where it occurs
(`live_fronts_sequencer`); and its sequencer goes through a run of operations
(`exists_run_of_live`), so that what holds of all runs holds of all sessions.

The clock goes on between a command and the poll after it, and so a round of the loop has two places
where the output moves.  When it does not move in the second, rounds are wakings (`live_eq_run`).
-/

namespace Groovebox

/-! ## Calls -/

/-- A call that a session makes to its sequencer, or to its output in the case of the level. -/
inductive LoopCall (τ : Type) where
  | command (command : SessionCommand τ)
  | poll
  /-- The stop that ends the session. -/
  | finish

namespace Wake

variable {τ : Type}

/-- Whether the session ends. -/
def ends : Wake τ → Bool
  | .command .shutdown => true
  | .closed => true
  | _ => false

/-- The calls that a session makes when its waiting ends. -/
def calls : Wake τ → List (LoopCall τ)
  | .command .shutdown => [.finish]
  | .closed => [.finish]
  | .timeout => [.poll]
  | .command received => [.command received, .poll]

theorem calls_of_ends {wake : Wake τ} (h : wake.ends = true) : wake.calls = [.finish] := by
  cases wake with
  | timeout => cases h
  | closed => rfl
  | command received =>
    cases received with
    | shutdown => rfl
    | _ => cases h

end Wake

/-- The refusal that an effect reports, if it reports one. -/
def SessionEffect.refusal? {τ : Type} : SessionEffect τ → Option Refusal
  | .report (.rejected refusal) => some refusal
  | _ => none

namespace Outcome

variable {τ : Type}

/-- The refusal that is answered, if there is one. -/
def refusal? (outcome : Outcome τ (Except Refusal Unit)) : Option Refusal :=
  match outcome.result with
  | .ok () => none
  | .error refusal => some refusal

/-- What a session does to the outside at a call: what the sequencer does, and then the report of
the refusal if there is one. -/
def reports (outcome : Outcome τ (Except Refusal Unit)) : List (SessionEffect τ) :=
  outcome.effects.map Session.passOn ++ Session.rejection outcome.result

theorem filterMap_refusal?_passOn (effects : List (Effect τ)) :
    (effects.map Session.passOn).filterMap SessionEffect.refusal? = [] := by
  rw [List.filterMap_map, List.filterMap_eq_nil_iff]
  intro effect _
  cases effect <;> rfl

/-- A call's reports have its refusal once, and no other. -/
theorem filterMap_refusal?_reports (outcome : Outcome τ (Except Refusal Unit)) :
    outcome.reports.filterMap SessionEffect.refusal? = outcome.refusal?.toList := by
  rw [reports, List.filterMap_append, filterMap_refusal?_passOn, refusal?]
  cases outcome.result <;> rfl

end Outcome

namespace Sequencer

variable {κ τ : Type} [TimeScale τ] [AudioOutput κ τ]

/-- What a sequencer answers and does at a call that finds the output as given. -/
def answer (seq : Sequencer τ) (output : κ) : LoopCall τ → Outcome τ (Except Refusal Unit)
  | .command .start =>
    let outcome := seq.start output
    { outcome with result := outcome.result.2 }
  | .command .pause => seq.apply (.pause (AudioClock.now output))
  | .command .resume => seq.apply (.resume (AudioClock.now output))
  | .command .stop => seq.apply (.stop (AudioClock.now output))
  | .command (.setTempo bpm) => seq.apply (.setTempo bpm)
  | .command (.setVolume db) => ⟨.ok (), seq, [.sound (.volume db)]⟩
  | .command (.submitText text) => seq.apply (.submitText text (AudioClock.now output))
  | .command .shutdown => ⟨.ok (), seq, []⟩
  | .poll => seq.apply (.poll (AudioClock.now output))
  | .finish => seq.apply (.stop (AudioClock.now output))

/-- What a sequencer answers and does at some calls. -/
def answers (seq : Sequencer τ) : List (κ × LoopCall τ) → List (Outcome τ (Except Refusal Unit))
  | [] => []
  | (output, call) :: rest =>
    let outcome := seq.answer output call
    outcome :: outcome.sequencer.answers rest

/-- The sequencer after some calls. -/
def afterCalls (seq : Sequencer τ) (log : List (κ × LoopCall τ)) : Sequencer τ :=
  log.foldl (fun seq entry => (seq.answer entry.1 entry.2).sequencer) seq

theorem answers_append (seq : Sequencer τ) (a b : List (κ × LoopCall τ)) :
    seq.answers (a ++ b) = seq.answers a ++ (seq.afterCalls a).answers b := by
  induction a generalizing seq with
  | nil => rfl
  | cons entry rest ih => exact congrArg _ (ih _)

theorem afterCalls_append (seq : Sequencer τ) (a b : List (κ × LoopCall τ)) :
    seq.afterCalls (a ++ b) = (seq.afterCalls a).afterCalls b :=
  List.foldl_append

/-- Only a start and a resume are refused, and they have done no more than announce statuses. -/
theorem of_refused_answer {seq : Sequencer τ} {output : κ} {call : LoopCall τ} {refusal : Refusal}
    (h : (seq.answer output call).result = .error refusal) :
    (call = .command .start ∨ call = .command .resume) ∧
      ∃ statuses : List TransportStatus,
        (seq.answer output call).effects = statuses.map announce := by
  cases call with
  | poll => cases h
  | finish => cases h
  | command command =>
    cases command with
    | start =>
      obtain ⟨manual, _, heffects⟩ := seq.start_eq_start_manual output
      obtain ⟨statuses, hstatuses⟩ := seq.effects_start manual
      exact ⟨.inl rfl, statuses, heffects.symm.trans hstatuses⟩
    | resume => exact ⟨.inr rfl, seq.effects_resume (AudioClock.now output)⟩
    | _ => cases h

/-- A call makes of a sequencer what an operation makes of it, or nothing. -/
theorem exists_run_of_answer (seq : Sequencer τ) (output : κ) (call : LoopCall τ) :
    ∃ ops, (seq.answer output call).sequencer = seq.after ops := by
  cases call with
  | poll => exact ⟨[.poll (AudioClock.now output)], rfl⟩
  | finish => exact ⟨[.stop (AudioClock.now output)], rfl⟩
  | command command =>
    cases command with
    | start =>
      obtain ⟨manual, hseq, _⟩ := seq.start_eq_start_manual output
      exact ⟨[.start manual], hseq.symm⟩
    | pause => exact ⟨[.pause (AudioClock.now output)], rfl⟩
    | resume => exact ⟨[.resume (AudioClock.now output)], rfl⟩
    | stop => exact ⟨[.stop (AudioClock.now output)], rfl⟩
    | setTempo bpm => exact ⟨[.setTempo bpm], rfl⟩
    | submitText text => exact ⟨[.submitText text (AudioClock.now output)], rfl⟩
    | setVolume | shutdown => exact ⟨[], rfl⟩

theorem exists_run_of_calls (seq : Sequencer τ) (log : List (κ × LoopCall τ)) :
    ∃ ops, seq.afterCalls log = seq.after ops := by
  induction log generalizing seq with
  | nil => exact ⟨[], rfl⟩
  | cons entry rest ih =>
    obtain ⟨ops, hops⟩ := seq.exists_run_of_answer entry.1 entry.2
    obtain ⟨later, hlater⟩ := ih (seq.answer entry.1 entry.2).sequencer
    refine ⟨ops ++ later, ?_⟩
    rw [after_append, ← hops, ← hlater]
    rfl

end Sequencer

/-! ## Rounds -/

/-- A round of a session's loop.  The output moves on while the session waits, and again before the
poll. -/
structure Round (κ τ : Type) where
  waiting : κ → κ
  wake : Wake τ
  between : κ → κ

namespace Session

variable {κ τ : Type} [TimeScale τ] [AudioOutput κ τ]

/-- A session whose output has moved on. -/
def moved (session : Session κ τ) (move : κ → κ) : Session κ τ :=
  { session with output := move session.output }

/-- What a session does in a round; once it is over it does nothing. -/
def round (session : Session κ τ) (round : Round κ τ) : Session κ τ × List (SessionEffect τ) :=
  let session := session.moved round.waiting
  if session.finished then (session, [])
  else match round.wake with
    | .command .shutdown => session.finish
    | .closed => session.finish
    | .timeout => (session.moved round.between).poll
    | .command command =>
      let (session, applied) := session.apply command
      let (session, polled) := (session.moved round.between).poll
      (session, applied ++ polled)

/-- A session's life, round by round. -/
def live (session : Session κ τ) : List (Round κ τ) → Session κ τ × List (SessionEffect τ)
  | [] => (session, [])
  | round :: rest =>
    let (session, effects) := session.round round
    let (session, later) := session.live rest
    (session, effects ++ later)

/-- The calls that a session makes in a round, each with the output as it finds it. -/
def logOf (session : Session κ τ) (round : Round κ τ) : List (κ × LoopCall τ) :=
  let session := session.moved round.waiting
  if session.finished then []
  else match round.wake with
    | .command .shutdown => [(session.output, .finish)]
    | .closed => [(session.output, .finish)]
    | .timeout => [(round.between session.output, .poll)]
    | .command command =>
      [(session.output, .command command),
        (round.between (session.apply command).1.output, .poll)]

/-- The calls that a session makes in its life. -/
def log (session : Session κ τ) : List (Round κ τ) → List (κ × LoopCall τ)
  | [] => []
  | round :: rest => session.logOf round ++ (session.round round).1.log rest

/-- Where the output does not move before the poll, a round is a waking. -/
theorem round_eq_wake (session : Session κ τ) (move : κ → κ) (wake : Wake τ) :
    session.round ⟨move, wake, id⟩ =
      ({ session with output := move session.output } : Session κ τ).wake wake := by
  cases wake with
  | command command => cases command <;> rfl
  | timeout => rfl
  | closed => rfl

theorem live_eq_run (session : Session κ τ) (wakes : List ((κ → κ) × Wake τ)) :
    session.live (wakes.map fun (move, wake) => ⟨move, wake, id⟩) = session.run wakes := by
  induction wakes generalizing session with
  | nil => rfl
  | cons first rest ih =>
    rw [List.map_cons, live, run, round_eq_wake]
    simp only [ih]

/-! ## What a round does -/

/-- A command is done by a call. -/
theorem apply_eq_answer (session : Session κ τ) (command : SessionCommand τ) :
    let outcome := session.sequencer.answer session.output (.command command)
    (session.apply command).1.sequencer = outcome.sequencer ∧
      (session.apply command).1.finished = session.finished ∧
      (session.apply command).2 = outcome.reports := by
  cases command with
  | start => exact ⟨rfl, rfl, rfl⟩
  | resume => exact ⟨rfl, rfl, rfl⟩
  | _ => exact ⟨rfl, rfl, (List.append_nil _).symm⟩

/-- A poll is done by a call. -/
theorem poll_eq_answer (session : Session κ τ) :
    let outcome := session.sequencer.answer session.output .poll
    session.poll.1.sequencer = outcome.sequencer ∧
      session.poll.1.finished = session.finished ∧
      session.poll.2 = outcome.reports :=
  ⟨rfl, rfl, (List.append_nil _).symm⟩

/-- The last stop is done by a call. -/
theorem finish_eq_answer (session : Session κ τ) :
    let outcome := session.sequencer.answer session.output .finish
    session.finish.1.sequencer = outcome.sequencer ∧
      session.finish.1.finished = true ∧
      session.finish.2 = outcome.reports :=
  ⟨rfl, rfl, (List.append_nil _).symm⟩

/-- The last stop tells of the steps that are due, takes back what is later, and tells that the
transport is stopped. -/
theorem effects_finish (session : Session κ τ) :
    session.finish.2 = (session.sequencer.due session.now).map (fun tick =>
        .report (.display (.stepAdvance tick.step tick.patterns))) ++
      [.sound (.cancelAfter session.now), .report (.display (.status .stopped))] := by
  have hstop : session.finish.2 = ((session.sequencer.due session.now).map Tick.announcement ++
      [Effect.sound (.cancelAfter session.now)] ++ [Sequencer.announce .stopped]).map passOn := rfl
  rw [hstop, List.map_append, List.map_append, List.map_map, List.append_assoc]
  rfl

/-- A session that is over does nothing. -/
theorem round_of_finished {session : Session κ τ} (h : session.finished = true)
    (round : Round κ τ) :
    session.round round = (session.moved round.waiting, []) ∧ session.logOf round = [] :=
  ⟨if_pos h, if_pos h⟩

theorem live_of_finished {session : Session κ τ} (h : session.finished = true)
    (rounds : List (Round κ τ)) :
    (session.live rounds).1.sequencer = session.sequencer ∧
      (session.live rounds).1.finished = true ∧
      (session.live rounds).2 = [] ∧ session.log rounds = [] := by
  induction rounds generalizing session with
  | nil => exact ⟨rfl, h, rfl, rfl⟩
  | cons round rest ih =>
    obtain ⟨hround, hlog⟩ := round_of_finished h round
    have hmoved : (session.moved round.waiting).finished = true := h
    obtain ⟨hseq, hfinished, heffects, hrest⟩ := ih hmoved
    rw [live, log, hlog, hround]
    exact ⟨hseq, hfinished, heffects, hrest⟩

omit [TimeScale τ] [AudioOutput κ τ] in
/-- Time does not end a session. -/
theorem not_finished_moved {session : Session κ τ} (h : session.finished = false) (move : κ → κ) :
    ¬ (session.moved move).finished = true := by
  rw [moved, h]
  exact Bool.false_ne_true

/-- A session that is not over makes the calls of its waking, and does what they say. -/
theorem round_of_going {session : Session κ τ} (h : session.finished = false)
    (round : Round κ τ) :
    (session.logOf round).map Prod.snd = round.wake.calls ∧
      (session.round round).1.finished = round.wake.ends ∧
      (session.round round).1.sequencer = session.sequencer.afterCalls (session.logOf round) ∧
      (session.round round).2 =
        (session.sequencer.answers (session.logOf round)).flatMap Outcome.reports := by
  obtain ⟨waiting, wake, between⟩ := round
  let there := session.moved waiting
  have hthere : ¬ there.finished = true := not_finished_moved h waiting
  rw [Session.round, logOf, if_neg hthere, if_neg hthere]
  cases wake with
  | timeout =>
    obtain ⟨hseq, hgoing, heffects⟩ := (there.moved between).poll_eq_answer
    exact ⟨rfl, hgoing.trans h, hseq, heffects.trans (List.append_nil _).symm⟩
  | closed =>
    obtain ⟨hseq, hover, heffects⟩ := there.finish_eq_answer
    exact ⟨rfl, hover, hseq, heffects.trans (List.append_nil _).symm⟩
  | command command =>
    -- the poll finds the sequencer as the command has left it
    obtain ⟨hseq, hgoing, heffects⟩ := there.apply_eq_answer command
    obtain ⟨hseq', hgoing', heffects'⟩ :=
      ((there.apply command).1.moved between).poll_eq_answer
    cases command with
    | shutdown =>
      obtain ⟨hseq, hover, heffects⟩ := there.finish_eq_answer
      exact ⟨rfl, hover, hseq, heffects.trans (List.append_nil _).symm⟩
    | _ =>
      refine ⟨rfl, (hgoing'.trans hgoing).trans h, hseq', ?_⟩
      rw [Sequencer.answers, Sequencer.answers, Sequencer.answers, List.flatMap_cons,
        List.flatMap_cons, List.flatMap_nil, List.append_nil]
      exact congrArg₂ (· ++ ·) heffects heffects'

/-- A round that ends the session does what a stop does. -/
theorem round_of_ends {session : Session κ τ} (h : session.finished = false)
    {round : Round κ τ} (hround : round.wake.ends = true) :
    session.round round = (session.moved round.waiting).finish := by
  obtain ⟨waiting, wake, between⟩ := round
  rw [Session.round, if_neg (not_finished_moved h waiting)]
  cases wake with
  | timeout => cases hround
  | closed => rfl
  | command command =>
    cases command with
    | shutdown => rfl
    | _ => cases hround

/-! ## Lives -/

/-- A life does what its log says. -/
theorem live_eq_answers (session : Session κ τ) (rounds : List (Round κ τ)) :
    (session.live rounds).1.sequencer = session.sequencer.afterCalls (session.log rounds) ∧
      (session.live rounds).2 =
        (session.sequencer.answers (session.log rounds)).flatMap Outcome.reports := by
  induction rounds generalizing session with
  | nil => exact ⟨rfl, rfl⟩
  | cons round rest ih =>
    have hround : (session.round round).1.sequencer =
          session.sequencer.afterCalls (session.logOf round) ∧
        (session.round round).2 =
          (session.sequencer.answers (session.logOf round)).flatMap Outcome.reports := by
      cases hfinished : session.finished with
      | false => exact (round_of_going hfinished round).2.2
      | true =>
        obtain ⟨hround, hlog⟩ := round_of_finished hfinished round
        rw [hround, hlog]
        exact ⟨rfl, rfl⟩
    obtain ⟨hseq, heffects⟩ := hround
    obtain ⟨hseq', heffects'⟩ := ih (session.round round).1
    rw [live, log, Sequencer.afterCalls_append, Sequencer.answers_append, ← hseq,
      List.flatMap_append, ← heffects, ← heffects']
    exact ⟨hseq', rfl⟩

/-- The sequencer of a session goes through a run of operations. -/
theorem exists_run_of_live (session : Session κ τ) (rounds : List (Round κ τ)) :
    ∃ ops, (session.live rounds).1.sequencer = session.sequencer.after ops := by
  rw [(session.live_eq_answers rounds).1]
  exact session.sequencer.exists_run_of_calls (session.log rounds)

theorem live_append (session : Session κ τ) (a b : List (Round κ τ)) :
    (session.live (a ++ b)).1 = ((session.live a).1.live b).1 ∧
      (session.live (a ++ b)).2 = (session.live a).2 ++ ((session.live a).1.live b).2 ∧
      session.log (a ++ b) = session.log a ++ (session.live a).1.log b := by
  induction a generalizing session with
  | nil => exact ⟨rfl, rfl, rfl⟩
  | cons round rest ih =>
    obtain ⟨hsession, heffects, hlog⟩ := ih (session.round round).1
    rw [List.cons_append, live, live, log, log, hlog, List.append_assoc, List.append_assoc]
    exact ⟨hsession, congrArg _ heffects, rfl⟩

/-- A session goes on while no waking ends it, and makes the calls of its wakings. -/
theorem live_of_going {session : Session κ τ} (h : session.finished = false)
    {rounds : List (Round κ τ)} (hrounds : ∀ round ∈ rounds, round.wake.ends = false) :
    (session.live rounds).1.finished = false ∧
      (session.log rounds).map Prod.snd = rounds.flatMap (·.wake.calls) := by
  induction rounds generalizing session with
  | nil => exact ⟨h, rfl⟩
  | cons round rest ih =>
    obtain ⟨hcalls, hends, _, _⟩ := round_of_going h round
    have hgoing : (session.round round).1.finished = false :=
      hends.trans (hrounds round List.mem_cons_self)
    obtain ⟨hgoing', hcalls'⟩ := ih hgoing fun round' hmem => hrounds round' (.tail _ hmem)
    rw [log, List.map_append, hcalls, hcalls', List.flatMap_cons]
    exact ⟨hgoing', rfl⟩

/-- A session ends with the round that ends it, whatever comes later. -/
theorem live_of_ends {session : Session κ τ} (h : session.finished = false) {last : Round κ τ}
    (hlast : last.wake.ends = true) (rest : List (Round κ τ)) :
    let ended := (session.moved last.waiting).finish
    (session.live (last :: rest)).1.sequencer = ended.1.sequencer ∧
      (session.live (last :: rest)).1.finished = true ∧
      (session.live (last :: rest)).2 = ended.2 ∧
      (session.log (last :: rest)).map Prod.snd = [.finish] := by
  have hover : (session.moved last.waiting).finish.1.finished = true := rfl
  obtain ⟨hseq, hfinished, heffects, hrest⟩ := live_of_finished hover rest
  have hcalls : last.wake.calls = [.finish] := Wake.calls_of_ends hlast
  rw [live, log, List.map_append, (round_of_going h last).1, hcalls, round_of_ends h hlast, hrest]
  refine ⟨hseq, hfinished, ?_, rfl⟩
  show _ ++ ((session.moved last.waiting).finish.1.live rest).2 = _
  rw [heffects, List.append_nil]

omit [TimeScale τ] in
/-- The refusals that are reported are those that are answered. -/
theorem filterMap_refusal?_flatMap_reports (outcomes : List (Outcome τ (Except Refusal Unit))) :
    (outcomes.flatMap Outcome.reports).filterMap SessionEffect.refusal? =
      outcomes.filterMap Outcome.refusal? := by
  rw [List.filterMap_flatMap, List.filterMap_eq_flatMap_toList]
  exact List.flatMap_congr fun outcome _ => outcome.filterMap_refusal?_reports

/-- A session makes the calls that its wakings ask for, a poll after each command and each time-out,
until one of them ends it, and does to the outside what its sequencer does at these calls.  Each
refusal is reported once, behind the statuses of its own call, and what is refused is a start or a
resume.  In the end the steps that are due are told, the backend is called to take back what is
later, and the status that is told last is that of a stopped transport.  Later rounds do nothing. -/
theorem live_fronts_sequencer (config : SequencerConfig τ) (output : κ)
    {first : List (Round κ τ)} (hfirst : ∀ round ∈ first, round.wake.ends = false)
    {last : Round κ τ} (hlast : last.wake.ends = true) (rest : List (Round κ τ)) :
    let session := new config output
    let seq := session.sequencer
    let log := session.log (first ++ last :: rest)
    let ended := (session.live (first ++ last :: rest)).1
    let effects := (session.live (first ++ last :: rest)).2
    let there := (session.live first).1.moved last.waiting
    log.map Prod.snd = first.flatMap (·.wake.calls) ++ [.finish] ∧
      effects = (seq.answers log).flatMap Outcome.reports ∧
      effects.filterMap SessionEffect.refusal? = (seq.answers log).filterMap Outcome.refusal? ∧
      (∀ before found call after, log = before ++ (found, call) :: after →
        let outcome := (seq.afterCalls before).answer found call
        (∃ later, effects = (seq.answers before).flatMap Outcome.reports ++
          (outcome.effects.map passOn ++ rejection outcome.result) ++ later) ∧
        ∀ refusal, outcome.result = .error refusal →
          (call = .command .start ∨ call = .command .resume) ∧
            ∃ statuses : List TransportStatus,
              outcome.effects = statuses.map Sequencer.announce) ∧
      effects = (session.live first).2 ++
        (there.sequencer.due there.now).map (fun tick =>
          .report (.display (.stepAdvance tick.step tick.patterns))) ++
        [.sound (.cancelAfter there.now), .report (.display (.status .stopped))] ∧
      ended.sequencer.state = .stopped ∧ ended.sequencer.loop = none ∧
      ended.sequencer.pending = [] ∧
      effects = (session.live (first ++ [last])).2 ∧
      ended.sequencer = (session.live (first ++ [last])).1.sequencer ∧
      ended.reply = .error .disconnected := by
  intro session seq log ended effects there
  have hnew : session.finished = false := rfl
  obtain ⟨hgoing, hcalls⟩ := live_of_going hnew hfirst
  obtain ⟨hended, hover, hlast', hfinish⟩ := live_of_ends hgoing hlast rest
  obtain ⟨hended₁, _, hlast₁, _⟩ := live_of_ends hgoing hlast []
  obtain ⟨hsession, hsplit, hlog⟩ := session.live_append first (last :: rest)
  obtain ⟨hsession₁, hsplit₁, _⟩ := session.live_append first [last]
  have hreports : effects = (seq.answers log).flatMap Outcome.reports :=
    (session.live_eq_answers (first ++ last :: rest)).2
  have hseq : ended.sequencer = there.finish.1.sequencer := by
    rw [← hended, ← hsession]
  have heffects : effects = (session.live first).2 ++ there.finish.2 := by
    rw [← hlast', ← hsplit]
  refine ⟨?_, hreports, ?_, ?_, ?_, ?_, ?_, ?_, ?_, ?_, ?_⟩
  · show (session.log (first ++ last :: rest)).map Prod.snd = _
    rw [hlog, List.map_append, hcalls, hfinish]
  · rw [hreports, filterMap_refusal?_flatMap_reports]
  · intro before found call after hat outcome
    refine ⟨⟨(outcome.sequencer.answers after).flatMap Outcome.reports, ?_⟩, ?_⟩
    · rw [hreports, hat, Sequencer.answers_append, List.flatMap_append, List.append_assoc]
      rfl
    · exact fun refusal hrefused => Sequencer.of_refused_answer hrefused
  · rw [heffects, effects_finish, List.append_assoc]
  · rw [hseq]
    rfl
  · rw [hseq]
    rfl
  · rw [hseq]
    rfl
  · rw [heffects, hsplit₁, hlast₁]
  · rw [hseq, hsession₁, hended₁]
  · rw [reply, if_pos]
    show (session.live (first ++ last :: rest)).1.finished = true
    rw [hsession]
    exact hover

/-- The clock, set to a time. -/
def setTo (now : Rat) (clock : ManualClock Rat) : ManualClock Rat := { clock with now := now }

/-- A start without patterns, a kick, a start, and a poll that comes a little later than the end of
the waiting. -/
def kickRounds : List (Round (ManualClock Rat) Rat) :=
  [⟨id, .command .start, id⟩, ⟨setTo (1 / 8), .command (.submitText "drums: kick"), id⟩,
    ⟨setTo (1 / 4), .command .start, id⟩, ⟨setTo (5 / 16), .timeout, setTo (3 / 8)⟩]

/-- The start without patterns is refused, and a start after the shutdown does nothing. -/
theorem live_fronts_sequencer_kick :
    let session : Session (ManualClock Rat) Rat := new .standard ⟨0, true, none⟩
    let shutdown : Round (ManualClock Rat) Rat := ⟨setTo (7 / 16), .command .shutdown, id⟩
    let late : Round (ManualClock Rat) Rat := ⟨setTo (1 / 2), .command .start, id⟩
    let effects := (session.live (kickRounds ++ [shutdown, late])).2
    effects.filterMap SessionEffect.refusal? = [.nothingToPlay] ∧
      (∃ earlier, effects = earlier ++
        [.sound (.cancelAfter (7 / 16)), .report (.display (.status .stopped))]) ∧
      effects = (session.live (kickRounds ++ [shutdown])).2 := by
  intro session shutdown late effects
  have hgoing : ∀ round ∈ kickRounds, round.wake.ends = false := by decide
  have hends : shutdown.wake.ends = true := rfl
  obtain ⟨_, _, hrefusals, _, hend, _, _, _, hsame, _, _⟩ :=
    live_fronts_sequencer .standard (⟨0, true, none⟩ : ManualClock Rat) hgoing hends [late]
  exact ⟨hrefusals.trans (by decide +kernel), ⟨_, hend⟩, hsame⟩

end Session

end Groovebox
