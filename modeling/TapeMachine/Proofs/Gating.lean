import TapeMachine.Proofs.Faults
import TapeMachine.Proofs.Gate
import TapeMachine.Proofs.PlainRun

/-! Runs through a step gate, beside the plain run of the same machine. Each instruction waits for
one token of its own, a snapshot is reported before each wait, and the run ends where the program
does, where an instruction fails, or where a request to cancel is met. -/

namespace TapeMachine
namespace Machine

/-- The machine as a plain run starts from it: in order, and with nothing left of a gate. -/
def linearly (m : Machine) : Machine := (m.traverse .linear).arm {}

/-- Snapshots of a run as it goes through its states from the first, one each, all taken as the
next instruction is about to be handed out. -/
def Pictured (m : Machine) (pics : List Snapshot) : Prop :=
  ∀ k pic, pics[k]? = some pic →
    ∃ t, Loop.after turn k m = some t ∧ t.running.snapshot = .ok pic

/-- What a machine at a gate has done when it has executed `n` instructions: what the plain run
has done by then, for the signals it has met. Behind the last signal stands a request to
cancel. -/
structure Stands (m : Machine) (signals : List Signal) (n : Nat) (s : Machine)
    (used : List Signal) (g : Machine) : Prop where
  after : Loop.after turn n m.linearly = some s
  count : s.steps = m.steps + n
  tape : g.config.tape = s.config.tape
  written : g.config.output.written = s.config.output.written
  steps : g.steps = s.steps
  met : used <+: signals ++ [.cancel]
  gate : g.traversal = .gated (signals.drop used.length) .report

/-- How a gated run ends that has executed `n` instructions, where the plain run stands at `s`:
the signals it met, its result, the state it leaves, and how many snapshots it took before. -/
inductive GateEnd (s : Machine) (n : Nat) : List Signal → Except Fault Unit → RunState → Nat → Prop
  /-- The program is at its end. -/
  | completed {used : List Signal} (released : Released n used) (spent : s.hasNext = .ok false) :
      GateEnd s n used (.ok ()) .completed n
  /-- A request came with the last token. -/
  | stopped {used : List Signal} (released : Released n used)
      (request : used.any Signal.isCancel = true) (more : s.hasNext = .ok true) :
      GateEnd s n used (.error (Guard.cancellation "cancelled" s.ip)) .cancelled n
  /-- A request came while the next instruction waited. -/
  | refused {used : List Signal} (released : Released n used) (polls : Nat)
      (calm : used.any Signal.isCancel = false) (more : s.hasNext = .ok true) :
      GateEnd s n (used ++ (List.replicate polls .nothing ++ [.cancel]))
        (.error (Guard.cancellation "cancelled" s.ip)) .cancelled (n + 1)
  /-- The next instruction was let through, and failed. -/
  | failed {used : List Signal} {f : Fault} {s' : Machine} (released : Released (n + 1) used)
      (fails : s.turn = .done (.error f, s')) :
      GateEnd s n used (.error f) .failed (n + 1)

/-- A machine at a gate beside the machine of the plain run, both after `n` instructions. -/
structure Abreast (m : Machine) (signals : List Signal) (n : Nat) (s : Machine)
    (used : List Signal) (g : Machine) : Prop where
  after : Loop.after turn n m.linearly = some s
  count : s.steps = m.steps + n
  plain : s.Plain
  ordinary : s.config.Ordinary
  ready : g.Ready
  program : g.program = s.program
  config : g.config = s.config
  steps : g.steps = s.steps
  met : used <+: signals
  gate : g.traversal = .gated (signals.drop used.length) .report
  released : Released n used
  request : g.guard.cancelled = used.any Signal.isCancel
  unwatched : g.guard.Unwatched
  pictured : m.linearly.Pictured g.report.toList
  posted : g.report.toList.length = n

variable {m g s : Machine} {signals used used' : List Signal} {n : Nat}

/-- What a wait for the next instruction leaves. -/
def held (g : Machine) (signals : List Signal) (guard : Guard) : Machine :=
  { g.running.posted .report with guard, traversal := .gated signals .report }

theorem clearance_gated {rest : List Signal} (gate : g.traversal = .gated rest .report)
    (unwatched : g.guard.Unwatched) (calm : g.guard.cancelled = false) :
    g.running.clearance = ((g.guard.await g.ip rest).1,
      g.held (g.guard.await g.ip rest).2.1 (g.guard.await g.ip rest).2.2) := by
  have passes := Guard.check_idle calm unwatched.event unwatched.deadline g.ip
  have checked : g.running.check = (.ok (), g.running) := by
    simp only [check, show g.running.guard.check g.running.ip = _ from passes, withGuard]
    rfl
  have gate : g.running.traversal = .gated rest .report := gate
  simp only [clearance, checked, leave, gate]
  rfl

theorem Pictured.push {pics : List Snapshot} {pic : Snapshot} (h : m.Pictured pics)
    (after : Loop.after turn pics.length m = some s) (taken : s.running.snapshot = .ok pic) :
    m.Pictured (pics ++ [pic]) := by
  intro k other found
  rcases Nat.lt_trichotomy k pics.length with before | rfl | behind
  · rw [List.getElem?_append_left before] at found
    exact h k other found
  · rw [List.getElem?_append_right (Nat.le_refl _), Nat.sub_self] at found
    cases found
    exact ⟨s, after, taken⟩
  · rw [List.getElem?_eq_none (by simp; omega)] at found
    cases found

/-- An answer to which a gated run comes after `n` instructions, but for the last snapshot. -/
structure Ended (m : Machine) (signals : List Signal) (n : Nat) (s : Machine)
    (used : List Signal) (answer : Except Fault Unit × Machine) : Prop where
  safe : answer.2.Safe
  stands : m.Stands signals n s used answer.2
  pictured : m.linearly.Pictured answer.2.report.toList
  uninterrupted : (Fault.ofResult? answer.1).any Fault.isInterrupt = false
  ending : GateEnd s n used answer.1 answer.2.state answer.2.report.toList.length

namespace Abreast

theorem hasNext (h : m.Abreast signals n s used g) : g.hasNext = s.hasNext := by
  have ip : g.ip = s.ip := by rw [ip, h.config, ip]
  simp only [Machine.hasNext, h.gate, h.plain.linear, beforeEnd, ip, h.program]

theorem more_eq (h : m.Abreast signals n s used g) : g.more = s.more := by
  rw [more, h.hasNext, more]

/-- Signals met, the next ones being those from there on. -/
theorem met_next (h : m.Abreast signals n s used g) {front back : List Signal}
    (next : front <+: signals.drop used.length ++ back) : used ++ front <+: signals ++ back := by
  obtain ⟨rest, rfl⟩ := h.met
  rw [List.drop_left] at next
  rw [List.append_assoc]
  exact (List.prefix_append_right_inj used).mpr next

/-- The snapshot taken before the wait is one of the plain run's state. -/
theorem pictured_posted (h : m.Abreast signals n s used g) :
    m.linearly.Pictured (g.running.posted .report).report.toList ∧
      (g.running.posted .report).report.toList.length = n + 1 := by
  have pushed : (g.running.posted .report).report.toList =
      g.report.toList ++ [g.running.picture] := Log.toList_push _ _
  have same : g.running.picture = s.running.picture := by
    have ip : g.running.ip = s.running.ip := congrArg Config.ip h.config
    have program : g.running.program = s.running.program := h.program
    have config : g.running.config = s.running.config := h.config
    have steps : g.running.steps = s.running.steps := h.steps
    simp only [picture, ip, program, config, steps]
    rfl
  have safe : s.running.Safe := ⟨h.plain.program, h.plain.inside⟩
  have taken := safe.snapshot none
  rw [pushed, same]
  refine ⟨h.pictured.push ?_ taken, ?_⟩
  · rw [h.posted]
    exact h.after
  · rw [List.length_append, h.posted]
    rfl

theorem stands (h : m.Abreast signals n s used g) {used' : List Signal} {g' : Machine}
    (config : g'.config = g.config) (steps : g'.steps = g.steps)
    (met : used' <+: signals ++ [.cancel])
    (gate : g'.traversal = .gated (signals.drop used'.length) .report) :
    m.Stands signals n s used' g' := by
  refine ⟨h.after, h.count, ?_, ?_, steps.trans h.steps, met, gate⟩
  · rw [config, h.config]
  · rw [config, h.config]

/-- At the end of the program the run is complete. -/
theorem turn_over (h : m.Abreast signals n s used g) (spent : s.more = false) :
    g.turn = .done (.ok (), g.complete) ∧ m.Ended signals n s used (.ok (), g.complete) := by
  have next := h.plain.toSafe.hasNext
  rw [spent] at next
  have met : used <+: signals ++ [.cancel] := h.met.trans (List.prefix_append _ _)
  have ending : GateEnd s n used (.ok ()) .completed g.report.toList.length := by
    rw [h.posted]
    exact .completed h.released next
  refine ⟨Machine.turn_over h.ready.toSafe (h.more_eq.trans spent),
    ⟨?_, ?_, h.pictured, rfl, ending⟩⟩
  · exact ⟨h.ready.program, h.ready.inside⟩
  · exact h.stands rfl rfl met h.gate

/-- A request that came with the last token is met before the next snapshot. -/
theorem turn_stopped (h : m.Abreast signals n s used g) (more : s.more = true)
    (request : used.any Signal.isCancel = true) :
    ∃ answer, g.turn = .done answer ∧ m.Ended signals n s used answer := by
  have next := h.plain.toSafe.hasNext
  have here : g.more = true := h.more_eq.trans more
  obtain ⟨k, o, t, ip, found⟩ := h.ready.next here
  rw [more] at next
  let fault := Guard.cancellation "cancelled" g.ip
  have refused : g.running.clearance = (.error fault, g.running) := by
    have checked := Guard.check_cancelled (h.request.trans request) g.ip
    simp only [clearance, check, withGuard,
      show g.running.guard.check g.running.ip = _ from checked]
    rfl
  have turn : g.turn = .done (.error fault, g.running.fail fault) := by
    rw [turn_step h.ready.toSafe here, h.ready.step (h.ready.live here) here ip found, refused]
  have met : used <+: signals ++ [.cancel] := h.met.trans (List.prefix_append _ _)
  have ending : GateEnd s n used (.error fault) .cancelled g.report.toList.length := by
    have ip : g.ip = s.ip := congrArg Config.ip h.config
    rw [h.posted]
    simp only [fault, ip]
    exact .stopped h.released request next
  refine ⟨_, turn, ⟨?_, ?_, h.pictured, rfl, ending⟩⟩
  · exact ⟨h.ready.program, h.ready.inside⟩
  · exact h.stands rfl rfl met h.gate

/-- A request that comes during the wait is met there. -/
theorem turn_refused (h : m.Abreast signals n s used g) (more : s.more = true)
    (calm : used.any Signal.isCancel = false) {polls : Nat} {guard : Guard}
    (met : List.replicate polls .nothing ++ [.cancel] <+: signals.drop used.length ++ [.cancel])
    (refused : g.running.clearance = (.error (Guard.cancellation "cancelled" g.ip),
      held g ((signals.drop used.length).drop (polls + 1)) guard)) :
    ∃ answer, g.turn = .done answer ∧
      m.Ended signals n s (used ++ (List.replicate polls .nothing ++ [.cancel])) answer := by
  have next := h.plain.toSafe.hasNext
  have here : g.more = true := h.more_eq.trans more
  obtain ⟨k, o, t, ip, found⟩ := h.ready.next here
  rw [more] at next
  let fault := Guard.cancellation "cancelled" g.ip
  let q := held g ((signals.drop used.length).drop (polls + 1)) guard
  have turn : g.turn = .done (.error fault, q.fail fault) := by
    rw [turn_step h.ready.toSafe here, h.ready.step (h.ready.live here) here ip found, refused]
  obtain ⟨pictured, posted⟩ := h.pictured_posted
  have ending : GateEnd s n (used ++ (List.replicate polls .nothing ++ [.cancel])) (.error fault)
      .cancelled (g.running.posted .report).report.toList.length := by
    have ip : g.ip = s.ip := congrArg Config.ip h.config
    rw [posted]
    simp only [fault, ip]
    exact .refused h.released polls calm next
  refine ⟨_, turn, ⟨?_, ?_, pictured, rfl, ending⟩⟩
  · exact ⟨h.ready.program, h.ready.inside⟩
  · refine h.stands rfl rfl (h.met_next met) ?_
    simp [q, held, Machine.fail, List.drop_drop]

end Abreast

/-- A machine at a gate whose next instruction has been let through, beside the machine of the
plain run, which is about to execute it. -/
structure LetThrough (m : Machine) (signals : List Signal) (n : Nat) (s : Machine)
    (used : List Signal) (q : Machine) : Prop where
  safe : q.Safe
  program : q.program = s.program
  config : q.config = s.config
  steps : q.steps = s.steps
  state : q.state = .running
  met : used <+: signals
  gate : q.traversal = .gated (signals.drop used.length) .report
  released : Released (n + 1) used
  request : q.guard.cancelled = used.any Signal.isCancel
  unwatched : q.guard.Unwatched
  pictured : m.linearly.Pictured q.report.toList
  posted : q.report.toList.length = n + 1

theorem Abreast.letThrough (h : m.Abreast signals n s used g)
    (calm : used.any Signal.isCancel = false) {polls : Nat} {signal : Signal} {guard : Guard}
    (met : List.replicate polls .nothing ++ [signal] <+: signals.drop used.length)
    (token : signal.isToken = true) (request : guard.cancelled = signal.isCancel)
    (unwatched : guard.Unwatched) :
    m.LetThrough signals n s (used ++ (List.replicate polls .nothing ++ [signal]))
      (g.held ((signals.drop used.length).drop (polls + 1)) guard) := by
  obtain ⟨pictured, posted⟩ := h.pictured_posted
  have further : used ++ (List.replicate polls .nothing ++ [signal]) <+: signals := by
    simpa using @met_next _ _ _ _ _ _ h _ [] (by simpa using met)
  refine ⟨⟨h.ready.program, h.ready.inside⟩, h.program, h.config, h.steps, rfl, further, ?_,
    .next h.released calm polls token, ?_, unwatched, pictured, posted⟩
  · simp [held, List.drop_drop]
  · have silent : ∀ s ∈ List.replicate polls Signal.nothing, ¬ s.isCancel = true := by
      intro s mem
      rw [List.eq_of_mem_replicate mem]
      exact nofun
    change guard.cancelled = _
    rw [request, List.any_append, calm, List.any_append, List.any_eq_false.mpr silent]
    simp

variable {q : Machine} {c : Config} {k : Nat} {o : Op} {t : Option Int} {f : Fault}

namespace LetThrough

theorem mark_gate (h : m.LetThrough signals n s used q) (o : Op) (k : Nat) :
    (q.mark o k).traversal = .gated (signals.drop used.length) .report := by
  simp only [mark, h.gate]

theorem ticked (h : m.LetThrough signals n s used q) (o : Op) (k : Nat) :
    ((q.mark o k).withConfig (s.config.tick s.program).2).Safe := by
  have ticked := h.safe.ticked o k
  rwa [h.config, h.program] at ticked

/-- An instruction that fails ends both runs. -/
theorem failed (h : m.LetThrough signals n s used q) (abreast : m.Abreast signals n s used' g)
    (ip : s.ip = some (k : Int)) (found : s.program.instructions[k]? = some ⟨.op o, t⟩)
    (tick : s.config.tick s.program = (.error f, c)) :
    m.Ended signals n s used (.error f, ((q.mark o k).withConfig c).fail f) := by
  have ticked := h.ticked o k
  have failing := (Config.tick_ordinary abreast.ordinary ip found).2 f (by rw [tick])
  rw [tick] at ticked
  obtain ⟨tape, written⟩ := Config.tick_kept ip found tick
  have more : s.more = true := by
    rw [more_linear abreast.plain.linear ip]
    exact decide_eq_true (Program.lt_length found)
  obtain ⟨s', fails, _⟩ := abreast.plain.turn_fault more tick
  have state : (((q.mark o k).withConfig c).fail f).state = .failed := by
    simp [fail, Fault.aftermath, failing.interrupt, failing.cancellation]
  have met : used <+: signals ++ [.cancel] := h.met.trans (List.prefix_append _ _)
  have ending : GateEnd s n used (.error f) .failed q.report.toList.length := by
    rw [h.posted]
    exact .failed h.released fails
  refine ⟨⟨ticked.program, ticked.inside⟩, ?_, h.pictured, failing.interrupt, ?_⟩
  · exact ⟨abreast.after, abreast.count, tape, written, h.steps, met, h.mark_gate o k⟩
  · rw [state]
    exact ending

/-- An instruction that succeeds leaves the two runs abreast. -/
theorem executed (h : m.LetThrough signals n s used q) (abreast : m.Abreast signals n s used' g)
    (ip : s.ip = some (k : Int)) (found : s.program.instructions[k]? = some ⟨.op o, t⟩)
    (tick : s.config.tick s.program = (.ok (), c)) :
    ∃ s', m.Abreast signals (n + 1) s' used ((q.mark o k).withConfig c).counted := by
  have ticked := h.ticked o k
  have ordinary := (Config.tick_ordinary abreast.ordinary ip found).1
  rw [tick] at ticked ordinary
  obtain ⟨s', again, plain, program, config, steps⟩ := abreast.plain.turn_tick tick
  have midway := ticked.counted_midway h.state
  refine ⟨s', ?_⟩
  exact {
    after := Loop.after_succ abreast.after again
    count := by
      rw [steps, abreast.count]
      rfl
    plain := plain
    ordinary := by
      rw [config]
      exact ordinary
    ready := midway.toReady
    program := by
      rw [counted_program, program]
      exact h.program
    config := by
      rw [counted_config, config]
      rfl
    steps := by
      rw [counted_steps, steps, ← h.steps]
      rfl
    met := h.met
    gate := by
      rw [counted_traversal]
      exact h.mark_gate o k
    released := h.released
    request := by
      rw [counted_guard]
      exact h.request
    unwatched := by
      rw [counted_guard]
      exact h.unwatched
    pictured := by
      rw [counted_report]
      exact h.pictured
    posted := by
      rw [counted_report]
      exact h.posted }

end LetThrough

namespace Abreast

/-- An instruction that is let through fails in both runs, or is executed in both. -/
theorem turn_released (h : m.Abreast signals n s used g) (more : s.more = true)
    (through : m.LetThrough signals n s used' q) (passed : g.running.clearance = (.ok (), q)) :
    (∃ answer, g.turn = .done answer ∧ m.Ended signals n s used' answer) ∨
    ∃ s' g', g.turn = .again g' ∧ m.Abreast signals (n + 1) s' used' g' := by
  have here : g.more = true := h.more_eq.trans more
  obtain ⟨k, o, t, ip, found⟩ := h.ready.next here
  have turn := turn_step h.ready.toSafe here
  rw [h.ready.step (h.ready.live here) here ip found, passed] at turn
  simp only [through.config, through.program] at turn
  have ip : s.ip = some (k : Int) := (congrArg Config.ip h.config).symm.trans ip
  have found : s.program.instructions[k]? = some ⟨.op o, t⟩ := h.program ▸ found
  cases tick : s.config.tick s.program with
  | mk result c =>
    rw [tick] at turn
    cases result with
    | error f => exact .inl ⟨_, turn, through.failed h ip found tick⟩
    | ok =>
      obtain ⟨s', next⟩ := through.executed h ip found tick
      exact .inr ⟨s', _, turn, next⟩

/-- One turn at the gate ends the run or takes it one instruction on, with more of the signals
met. -/
theorem turn (h : m.Abreast signals n s used g) :
    (∃ used' answer, g.turn = .done answer ∧ m.Ended signals n s used' answer) ∨
    ∃ s' used' g', g.turn = .again g' ∧ m.Abreast signals (n + 1) s' used' g' ∧
      used.length < used'.length := by
  cases more : s.more with
  | false => exact .inl ⟨used, _, h.turn_over more⟩
  | true =>
    cases request : used.any Signal.isCancel with
    | true => exact .inl ⟨used, h.turn_stopped more request⟩
    | false =>
      have calm := h.request.trans request
      have waited := Guard.await_unwatched h.unwatched calm g.ip (signals.drop used.length)
      have cleared := clearance_gated h.gate h.unwatched calm
      generalize g.guard.await g.ip (signals.drop used.length) = answer at waited cleared
      cases waited with
      | @refused polls met => exact .inl ⟨_, h.turn_refused more request met cleared⟩
      | @released polls signal met token =>
        have asked : (if signal.isCancel then g.guard.cancel else g.guard).cancelled =
            signal.isCancel := by
          cases signal.isCancel with
          | true => rfl
          | false => exact calm
        have unwatched : (if signal.isCancel then g.guard.cancel else g.guard).Unwatched := by
          cases signal.isCancel with
          | true => exact ⟨h.unwatched.event, h.unwatched.deadline⟩
          | false => exact h.unwatched
        have through := h.letThrough request met token asked unwatched
        rcases h.turn_released more through cleared with
          ⟨answer, done, ended⟩ | ⟨s', g', again, next⟩
        · exact .inl ⟨_, answer, done, ended⟩
        · refine .inr ⟨s', _, g', again, next, ?_⟩
          simp

/-- Signals are met in every turn that goes on, so the run ends. -/
theorem ends (h : m.Abreast signals n s used g) :
    ∃ n' s' used' answer, Loop.Ends Machine.turn g answer ∧
      m.Ended signals n' s' used' answer := by
  induction left : signals.length - used.length using Nat.strongRecOn
    generalizing n s used g with
  | ind left ih =>
    rcases h.turn with ⟨used', answer, done, ended⟩ | ⟨s', used', g', again, h', longer⟩
    · exact ⟨n, s, used', answer, ⟨1, by simp only [Loop.turns, done]⟩, ended⟩
    · have inside := h'.met.length_le
      obtain ⟨n'', s'', used'', answer, ⟨fuel, ends⟩, ended⟩ := ih _ (by omega) h' rfl
      exact ⟨n'', s'', used'', answer, ⟨fuel + 1, by simp only [Loop.turns, again, ends]⟩, ended⟩

end Abreast

/-- At the start nothing was met and nothing executed. -/
theorem abreast_start (safe : m.Safe) (ready : m.state = .ready)
    (request : m.guard.cancelled = false) (ordinary : m.config.Ordinary)
    (signals : List Signal) :
    m.Abreast signals 0 m.linearly [] (m.arm { gate := some signals, snapshots := true }) := by
  have live : m.state.isFinal = false := by
    rw [ready]
    rfl
  exact {
    after := rfl
    count := rfl
    plain := ⟨⟨⟨safe.program, safe.inside⟩, fun _ => live⟩, rfl, ⟨request, rfl, rfl⟩⟩
    ordinary := ordinary
    ready := ⟨⟨safe.program, safe.inside⟩, fun _ => live⟩
    program := rfl
    config := rfl
    steps := rfl
    met := List.nil_prefix
    gate := rfl
    released := .none
    request := request
    unwatched := ⟨rfl, rfl⟩
    pictured := fun k pic found => by cases found
    posted := rfl }

/-- A run through a gate ends, whatever the signals. After some number of instructions it stands
where the plain run stands by then. Each instruction that was handed out took one token, and the
snapshots reported are those of the plain run's states, one each and in order, and a last one of
the machine as it was left, with the fault that ended the run. -/
theorem gated_run_follows_plain_run {source : Source} (compiled : compile source = .ok m.program)
    (ready : m.state = .ready) (inside : m.config.Inside m.program)
    (request : m.guard.cancelled = false) (ordinary : m.config.Ordinary)
    (signals : List Signal) :
    ∃ outcome n s used pics last,
      m.RunEnds { gate := some signals, snapshots := true } outcome ∧
      m.Stands signals n s used outcome.machine ∧
      outcome.reported = pics ++ [last] ∧ m.linearly.Pictured pics ∧
      outcome.machine.snapshot (Fault.ofResult? outcome.result) = .ok last ∧
      GateEnd s n used outcome.result outcome.machine.state pics.length := by
  have safe : m.Safe := ⟨compile_sound compiled, inside⟩
  have start := abreast_start safe ready request ordinary signals
  obtain ⟨n, s, used, ⟨r, g⟩, ⟨fuel, ends⟩, ended⟩ := start.ends
  let last := g.picture (Fault.ofResult? r)
  have taken : g.snapshot (Fault.ofResult? r) = .ok last := ended.safe.snapshot _
  let outcome : RunOutcome :=
    ⟨r, (g.report.push last).toList, { g with report := g.report.push last }⟩
  have concluded : conclude true r g = outcome := by
    have uninterrupted : (Fault.ofResult? r).any Fault.isInterrupt = false := ended.uninterrupted
    simp only [conclude, uninterrupted, taken]
    rfl
  have stands := ended.stands
  refine ⟨outcome, n, s, used, g.report.toList, last, ⟨fuel, ?_⟩, ?_, Log.toList_push _ _,
    ended.pictured, taken, ended.ending⟩
  · rw [run, if_pos ready, drive, ends]
    exact congrArg some concluded
  · exact ⟨stands.after, stands.count, stands.tape, stands.written, stands.steps, stands.met,
      stands.gate⟩

/-- An echo for which a controller asks that it stop, as it lets the second instruction
through. -/
theorem gated_echo_follows_plain_echo :
    ∃ m : Machine, compile (.text "+[,.]") = .ok m.program ∧ m.state = .ready ∧
      m.config.Inside m.program ∧ m.guard.cancelled = false ∧ m.config.Ordinary ∧
      ∃ outcome n s used pics last,
        m.RunEnds
          { gate := some [.nothing, .token, .nothing, .cancelWithToken], snapshots := true }
          outcome ∧
        m.Stands [.nothing, .token, .nothing, .cancelWithToken] n s used outcome.machine ∧
        outcome.reported = pics ++ [last] ∧ m.linearly.Pictured pics ∧
        outcome.machine.snapshot (Fault.ofResult? outcome.result) = .ok last ∧
        GateEnd s n used outcome.result outcome.machine.state pics.length := by
  obtain ⟨p, compiled⟩ : ∃ p, compile (.text "+[,.]") = .ok p := ⟨_, rfl⟩
  let m : Machine := onTape p .blank (.ofBytes [0x61]) .reliable
  have inside : m.config.Inside m.program := ⟨0, rfl, Nat.zero_le _⟩
  have ordinary : m.config.Ordinary := ⟨rfl, fun _ _ => nofun⟩
  exact ⟨m, compiled, rfl, inside, rfl, ordinary,
    @gated_run_follows_plain_run m _ compiled rfl inside rfl ordinary _⟩

end Machine
end TapeMachine
