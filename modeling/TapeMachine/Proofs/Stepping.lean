import TapeMachine.Machine.Run
import TapeMachine.Proofs.Ticks

/-! One step of a machine whose program is sound. A step first asks for leave (from the guard,
and at a gate from the controller), then hands out one instruction and executes it, which is one
tick, and then counts it. Each part is said once here; what drives a machine is proved from
them. -/

namespace TapeMachine
namespace Machine

/-- A machine with a sound program and its index in it. -/
structure Safe (m : Machine) : Prop where
  program : m.program.Sound
  inside : m.config.Inside m.program

/-- Whether the traversal has an instruction to hand out, where this can be told. -/
def more (m : Machine) : Bool :=
  match m.hasNext with
  | .ok more => more
  | .error _ => false

def running (m : Machine) : Machine := { m with state := .running }

/-- The snapshot of a machine whose index is not lost. -/
def picture (m : Machine) (fault : Option Fault := none) : Snapshot :=
  { tape := m.config.tape
    ip := m.ip.getD 0
    instruction := m.program.instructions[(m.ip.getD 0).toNat]?
    steps := m.steps
    state := m.state
    fault }

/-- The notes taken when the instruction at an index is handed out. -/
def mark (m : Machine) (o : Op) (k : Nat) : Machine :=
  { m with
    traversal :=
      match m.traversal with
      | .recording left => .recording (left.map (· - 1))
      | t => t
    recorded :=
      match m.traversal with
      | .recording _ => m.recorded.push k
      | _ => m.recorded
    trace :=
      if m.tracing then
        m.trace.push ⟨k, o.symbol, m.config.tape.pointer, m.config.tape.cell⟩
      else m.trace }

/-- The machine once a step has been counted. -/
def counted (m : Machine) : Machine :=
  let m := { m with steps := m.steps + 1 }
  if m.more then m else m.complete

def posted (m : Machine) : Outlet → Machine
  | .nowhere | .abandoned => m
  | .mailbox => { m with mailbox := m.mailbox.push m.picture }
  | .report => { m with report := m.report.push m.picture }

/-- Asks the controller for leave, where the traversal stands at a gate, once a snapshot has been
posted. -/
def leave (m : Machine) : Except Fault Unit × Machine :=
  match m.traversal with
  | .linear | .recording _ => (.ok (), m)
  | .gated signals outlet => (m.posted outlet).await signals outlet

/-- Asks for leave to hand out the next instruction: the guard first, then the controller. -/
def clearance (m : Machine) : Except Fault Unit × Machine :=
  match m.check with
  | (.error f, m) => (.error f, m)
  | (.ok (), m) => m.leave

/-- Notes and executes an instruction that has been handed out. -/
def carryOut : Except Fault (Instruction × Int) × Machine → Except Fault Unit × Machine
  | (.error f, m) => (.error f, m)
  | (.ok (instruction, index), m) =>
    match m.note instruction index with
    | .error f => (.error f, m)
    | .ok m => m.execute instruction index

/-- Ends a step: a fault decides the state, and success is counted. -/
def settle : Except Fault Unit × Machine → Except Fault Unit × Machine
  | (.error f, m) => (.error f, m.fail f)
  | (.ok (), m) => m.countStep

/-- What a machine still is once it has asked for leave, whatever came of it. -/
structure Asked (m m' : Machine) : Prop where
  program : m'.program = m.program
  config : m'.config = m.config
  steps : m'.steps = m.steps
  state : m'.state = m.state

variable {m m' : Machine} {k : Nat} {o : Op} {t : Option Int}

theorem Asked.trans {n : Machine} (h : Asked m m') (h' : Asked m' n) : Asked m n :=
  ⟨h'.program.trans h.program, h'.config.trans h.config, h'.steps.trans h.steps,
    h'.state.trans h.state⟩

theorem asked_posted (m : Machine) (outlet : Outlet) : Asked m (m.posted outlet) := by
  cases outlet <;> exact ⟨rfl, rfl, rfl, rfl⟩

theorem asked_await (m : Machine) (signals : List Signal) (outlet : Outlet) :
    Asked m (m.await signals outlet).2 := ⟨rfl, rfl, rfl, rfl⟩

theorem asked_leave (m : Machine) : Asked m m.leave.2 := by
  unfold leave
  split
  · exact ⟨rfl, rfl, rfl, rfl⟩
  · exact ⟨rfl, rfl, rfl, rfl⟩
  · exact (asked_posted m _).trans (asked_await _ _ _)

theorem asked_clearance (m : Machine) : Asked m m.clearance.2 := by
  have checked : Asked m m.check.2 := ⟨rfl, rfl, rfl, rfl⟩
  unfold clearance
  generalize m.check = answer at checked ⊢
  obtain ⟨result, n⟩ := answer
  cases result with
  | error f => exact checked
  | ok => exact checked.trans (asked_leave n)

namespace Safe

theorem asked (safe : m.Safe) (h : Asked m m') : m'.Safe :=
  ⟨h.program ▸ safe.program, by rw [h.program, h.config]; exact safe.inside⟩

theorem beforeEnd (safe : m.Safe) :
    ∃ k : Nat, m.ip = some (k : Int) ∧ m.beforeEnd = .ok (decide (k < m.program.length)) := by
  obtain ⟨k, ip, _⟩ := safe.inside
  have ip : m.ip = some (k : Int) := ip
  refine ⟨k, ip, ?_⟩
  rw [Machine.beforeEnd, ip]
  simp

theorem hasNext (safe : m.Safe) : m.hasNext = .ok m.more := by
  obtain ⟨k, _, before⟩ := safe.beforeEnd
  have told : ∃ more, m.hasNext = .ok more := by
    rw [Machine.hasNext, before]
    split
    · split <;> exact ⟨_, rfl⟩
    · exact ⟨_, rfl⟩
  obtain ⟨more, told⟩ := told
  rw [Machine.more, told]

/-- The instruction at the index, where there is one to hand out. -/
theorem next (safe : m.Safe) (more : m.more = true) :
    ∃ (k : Nat) (o : Op) (t : Option Int), m.ip = some (k : Int) ∧
      m.program.instructions[k]? = some ⟨.op o, t⟩ := by
  obtain ⟨k, ip, before⟩ := safe.beforeEnd
  have told := safe.hasNext
  rw [more, Machine.hasNext, before] at told
  have lt : k < m.program.length := by
    split at told
    · split at told
      · cases told
      · simpa using told
    · simpa using told
  obtain ⟨o, t, found, _⟩ := safe.program.at lt
  exact ⟨k, o, t, ip, found⟩

theorem snapshot (safe : m.Safe) (fault : Option Fault) :
    m.snapshot fault = .ok (m.picture fault) := by
  obtain ⟨k, ip, _⟩ := safe.inside
  have ip : m.ip = some (k : Int) := ip
  simp [Machine.snapshot, current, picture, ip, Except.map, Program.instructions]

theorem post (safe : m.Safe) (outlet : Outlet) : m.post outlet = .ok (m.posted outlet) := by
  cases outlet <;> simp [Machine.post, posted, safe.snapshot, Except.map]

end Safe

theorem fetch_at (ip : m.ip = some (k : Int))
    (found : m.program.instructions[k]? = some ⟨.op o, t⟩) :
    m.fetch = (.ok (⟨.op o, t⟩, (k : Int)), m.jump (some (k + 1))) := by
  have get : m.program.get k = .ok ⟨.op o, t⟩ := Program.get_of_instruction found
  simp only [fetch, ip, get]

/-- Noting an instruction that has been fetched, and executing it. -/
theorem carryOut_fetched (ip : m.ip = some (k : Int))
    (found : m.program.instructions[k]? = some ⟨.op o, t⟩) :
    carryOut (.ok (⟨.op o, t⟩, (k : Int)), m.jump (some (k + 1))) =
      ((m.config.tick m.program).1,
        { m with
          config := (m.config.tick m.program).2
          trace :=
            if m.tracing then
              m.trace.push ⟨k, o.symbol, m.config.tape.pointer, m.config.tape.cell⟩
            else m.trace }) := by
  have config_ip : m.config.ip = some (k : Int) := ip
  rw [Config.tick_at config_ip found]
  cases tracing : m.tracing <;>
    simp [carryOut, note, jump, withConfig, tracing, Instruction.symbol, Except.map, execute,
      Config.execute, Config.jump]

/-- Once the controller gave leave, an instruction is handed out and executed, in one tick. -/
theorem Safe.carryOut_next (safe : m.Safe) (ip : m.ip = some (k : Int))
    (found : m.program.instructions[k]? = some ⟨.op o, t⟩) :
    carryOut m.next =
      match m.leave with
      | (.error f, m') => (.error f, m')
      | (.ok (), m') =>
        ((m'.config.tick m'.program).1,
          (m'.mark o k).withConfig (m'.config.tick m'.program).2) := by
  have fetched := fetch_at ip found
  cases traversal : m.traversal with
  | linear =>
    have executed := carryOut_fetched ip found
    rw [traversal] at executed
    simp only [Machine.next, leave, mark, traversal, fetched]
    exact executed
  | recording left =>
    -- the record is kept between fetching and noting, and neither sees it
    let recorded : Machine :=
      { m with traversal := .recording (left.map (· - 1)), recorded := m.recorded.push k }
    have executed := @carryOut_fetched recorded k o t ip found
    simp only [Machine.next, leave, mark, traversal, fetched]
    exact executed
  | gated signals outlet =>
    have asked := (asked_posted m outlet).trans (asked_await _ signals outlet)
    have gated : ((m.posted outlet).await signals outlet).2.traversal =
      .gated ((m.posted outlet).guard.await (m.posted outlet).ip signals).2.1 outlet := rfl
    simp only [Machine.next, leave, traversal, safe.post outlet]
    generalize (m.posted outlet).await signals outlet = answer at asked gated ⊢
    obtain ⟨result, n⟩ := answer
    cases result with
    | error f => rfl
    | ok =>
      have ip : n.ip = some (k : Int) := by rw [Machine.ip, asked.config]; exact ip
      have found : n.program.instructions[k]? = some ⟨.op o, t⟩ := by
        rw [asked.program]
        exact found
      have gated : n.traversal = _ := gated
      have executed := carryOut_fetched ip found
      simp only [fetch_at ip found, mark, gated]
      rw [gated] at executed
      exact executed

/-- Once leave was given, an instruction is handed out and executed, in one tick. -/
theorem Safe.attempt (safe : m.Safe) (ip : m.ip = some (k : Int))
    (found : m.program.instructions[k]? = some ⟨.op o, t⟩) :
    m.attempt =
      match m.clearance with
      | (.error f, m') => (.error f, m')
      | (.ok (), m') =>
        ((m'.config.tick m'.program).1,
          (m'.mark o k).withConfig (m'.config.tick m'.program).2) := by
  have checked : Asked m m.check.2 := ⟨rfl, rfl, rfl, rfl⟩
  rw [Machine.attempt, clearance]
  generalize m.check = answer at checked ⊢
  obtain ⟨result, n⟩ := answer
  cases result with
  | error f => rfl
  | ok =>
    have ip : n.ip = some (k : Int) := by rw [Machine.ip, checked.config]; exact ip
    have found : n.program.instructions[k]? = some ⟨.op o, t⟩ := by
      rw [checked.program]
      exact found
    exact (safe.asked checked).carryOut_next ip found

/-! ## Whole steps -/

theorem Safe.ticked (safe : m.Safe) (o : Op) (k : Nat) :
    ((m.mark o k).withConfig (m.config.tick m.program).2).Safe :=
  ⟨safe.program, Config.tick_inside safe.program safe.inside⟩

theorem Safe.countStep (safe : m.Safe) : m.countStep = (.ok (), m.counted) := by
  have counting : ({ m with steps := m.steps + 1 } : Machine).Safe := ⟨safe.program, safe.inside⟩
  have told := counting.hasNext
  simp only [Machine.countStep, counted, told]
  cases ({ m with steps := m.steps + 1 } : Machine).more <;> rfl

/-- A step where nothing is left to hand out. -/
theorem Safe.step_over (safe : m.Safe) (live : m.state.isFinal = false) (spent : m.more = false) :
    m.step = (.ok (), m.complete) := by
  have told := safe.hasNext
  rw [spent] at told
  simp [Machine.step, live, told]

/-- A step where an instruction is left: leave, one tick, and the count. -/
theorem Safe.step (safe : m.Safe) (live : m.state.isFinal = false) (more : m.more = true)
    (ip : m.ip = some (k : Int)) (found : m.program.instructions[k]? = some ⟨.op o, t⟩) :
    m.step =
      match m.running.clearance with
      | (.error f, m') => (.error f, m'.fail f)
      | (.ok (), m') =>
        match m'.config.tick m'.program with
        | (.error f, c) => (.error f, ((m'.mark o k).withConfig c).fail f)
        | (.ok (), c) => (.ok (), ((m'.mark o k).withConfig c).counted) := by
  have told := safe.hasNext
  have begun : m.running.Safe := ⟨safe.program, safe.inside⟩
  have asked := begun.asked (asked_clearance m.running)
  have attempted := begun.attempt ip found
  rw [more] at told
  simp only [Machine.step, live, told, Bool.false_eq_true, if_false]
  change settle m.running.attempt = _
  rw [attempted]
  generalize m.running.clearance = answer at asked ⊢
  obtain ⟨result, n⟩ := answer
  cases result with
  | error f => rfl
  | ok =>
    have ticked := asked.ticked o k
    simp only at ticked ⊢
    generalize n.config.tick n.program = answer at ticked ⊢
    obtain ⟨result, c⟩ := answer
    cases result with
    | error f => rfl
    | ok => exact ticked.countStep

theorem counted_cases_eq (m : Machine) :
    m.counted = { m with steps := m.steps + 1 } ∨
      m.counted = ({ m with steps := m.steps + 1 } : Machine).complete := by
  rw [counted]
  split
  · exact .inl rfl
  · exact .inr rfl

/-- The guard has no say in whether there is more. -/
theorem counted_withGuard (m : Machine) (g : Guard) :
    (m.withGuard g).counted = m.counted.withGuard g := by
  let n : Machine := { m with steps := m.steps + 1 }
  change (if n.more then n.withGuard g else (n.withGuard g).complete) =
    (if n.more then n else n.complete).withGuard g
  split
  · rfl
  · rfl

/-- What is the same whether the run goes on or is complete. -/
theorem counted_part {β : Type} (part : Machine → β) (m : Machine) {b : β}
    (on : part { m with steps := m.steps + 1 } = b)
    (complete : part ({ m with steps := m.steps + 1 } : Machine).complete = b) :
    part m.counted = b := by
  rcases counted_cases_eq m with going | done
  · rw [going, on]
  · rw [done, complete]

@[simp] theorem counted_program (m : Machine) : m.counted.program = m.program :=
  m.counted_part Machine.program rfl rfl

@[simp] theorem counted_config (m : Machine) : m.counted.config = m.config :=
  m.counted_part Machine.config rfl rfl

@[simp] theorem counted_steps (m : Machine) : m.counted.steps = m.steps + 1 :=
  m.counted_part Machine.steps rfl rfl

@[simp] theorem counted_guard (m : Machine) : m.counted.guard = m.guard :=
  m.counted_part Machine.guard rfl rfl

@[simp] theorem counted_traversal (m : Machine) : m.counted.traversal = m.traversal :=
  m.counted_part Machine.traversal rfl rfl

@[simp] theorem counted_report (m : Machine) : m.counted.report = m.report :=
  m.counted_part Machine.report rfl rfl

/-- The machine after a counted step: it goes on, or its run is complete. -/
theorem counted_cases (m : Machine) :
    m.counted.more = true ∧ m.counted.state = m.state ∨
      m.counted.more = false ∧ m.counted.state = .completed := by
  cases more : ({ m with steps := m.steps + 1 } : Machine).more
  · right
    simp only [counted, more]
    exact ⟨more, rfl⟩
  · left
    simp only [counted, more]
    exact ⟨more, rfl⟩

theorem Safe.counted (safe : m.Safe) : m.counted.Safe := by
  refine ⟨?_, ?_⟩
  · rw [counted_program]
    exact safe.program
  · rw [counted_program, counted_config]
    exact safe.inside

/-- A machine that may take a turn: it is not final, unless nothing is left to hand out. -/
structure Ready (m : Machine) : Prop extends m.Safe where
  live : m.more = true → m.state.isFinal = false

/-- A machine between two steps: it has more to hand out, or has completed. -/
structure Midway (m : Machine) : Prop extends m.Ready where
  spent : m.more = false → m.state = .completed

theorem Safe.counted_midway (safe : m.Safe) (running : m.state = .running) :
    m.counted.Midway := by
  rcases counted_cases m with ⟨more, state⟩ | ⟨spent, completed⟩
  · refine ⟨⟨safe.counted, ?_⟩, ?_⟩
    · intro _
      rw [state, running]
      rfl
    · intro spent
      rw [spent] at more
      cases more
  · refine ⟨⟨safe.counted, ?_⟩, fun _ => completed⟩
    intro more
    rw [spent] at more
    cases more

/-- A step fails and leaves a final state, unless it was interrupted; or it executes an
instruction, after which there is another or the run is complete. -/
theorem Safe.step_cases (safe : m.Safe) (live : m.state.isFinal = false) (more : m.more = true) :
    (∃ (f : Fault) (m' : Machine),
      m.step = (.error f, m'.fail f) ∧ m'.Safe ∧ m'.state = .running) ∨
    ∃ m' : Machine, m.step = (.ok (), m') ∧ m'.Midway := by
  obtain ⟨k, o, t, ip, found⟩ := safe.next more
  rw [safe.step live more ip found]
  have begun : m.running.Safe := ⟨safe.program, safe.inside⟩
  have asked := asked_clearance m.running
  generalize m.running.clearance = answer at asked ⊢
  obtain ⟨result, n⟩ := answer
  have cleared : n.Safe := begun.asked asked
  cases result with
  | error f => exact .inl ⟨f, n, rfl, cleared, asked.state⟩
  | ok =>
    have ticked := cleared.ticked o k
    simp only
    generalize n.config.tick n.program = answer at ticked ⊢
    obtain ⟨result, c⟩ := answer
    cases result with
    | error f => exact .inl ⟨f, _, rfl, ticked, asked.state⟩
    | ok => exact .inr ⟨_, rfl, ticked.counted_midway asked.state⟩

end Machine
end TapeMachine
