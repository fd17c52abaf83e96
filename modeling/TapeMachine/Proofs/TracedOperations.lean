import TapeMachine.Proofs.Tracing

/-! Everything that can be done to a machine, done to one that traces and to one that does not: both
answer the same and are left the same but for the trace, and the trace of the first holds a line for
each instruction that was handed out, in order. -/

namespace TapeMachine

namespace Debugger

def withTrace (d : Debugger) (on : Bool) (log : Log TraceEntry) : Debugger :=
  d.withMachine (d.machine.withTrace on log)

/-- The machines that take a step as a debugger advances: one, or none if the debugger is not
waiting or too late. -/
def passes (d : Debugger) : List Machine :=
  if d.state = .waiting then
    match d.expired with
    | (true, _) => []
    | (false, d) => [d.machine]
  else []

/-- A debugger of a machine that traces, and beside it one that is the same but for the trace. -/
structure Paired (log : Log TraceEntry) (lines : List TraceEntry) (d e : Debugger) : Prop where
  machine : d.machine.Paired log lines e.machine
  muted : e = d.withTrace false log

/-- Ways in which two such debuggers came out. -/
structure PairedIn {β : Type} (log : Log TraceEntry) (lines : List TraceEntry)
    (a b : β × Debugger) : Prop where
  result : b.1 = a.1
  debugger : a.2.Paired log lines b.2

variable {d e : Debugger} {m w : Machine} {log : Log TraceEntry} {lines : List TraceEntry}

theorem PairedIn.split {β : Type} {a b : β × Debugger} (h : PairedIn log lines a b) :
    ∃ r d e, a = (r, d) ∧ b = (r, e) ∧ d.Paired log lines e :=
  ⟨a.1, a.2, b.2, rfl, Prod.ext h.result rfl, h.debugger⟩

/-- Debuggers that differ in their machines alone. -/
theorem paired_withMachine {n v : Machine} (h : n.Paired log lines v) (d : Debugger) :
    (d.withMachine n).Paired log lines (d.withMachine v) := by
  refine ⟨h, ?_⟩
  rw [h.muted]
  rfl

theorem Paired.expired (h : d.Paired log lines e) : PairedIn log lines d.expired e.expired := by
  obtain ⟨machine, rfl⟩ := h
  unfold Debugger.expired
  have same : (d.withTrace false log).deadline = d.deadline := rfl
  rw [same]
  cases d.deadline with
  | none => exact ⟨rfl, machine, rfl⟩
  | some deadline => exact ⟨rfl, machine.keep rfl rfl rfl rfl, rfl⟩

theorem Paired.cancel (h : d.Paired log lines e) : d.cancel.Paired log lines e.cancel := by
  obtain ⟨machine, rfl⟩ := h
  unfold Debugger.cancel
  have same : (d.withTrace false log).finished = d.finished := rfl
  rw [same]
  by_cases finished : d.finished = true
  · rw [if_pos finished, if_pos finished]
    exact ⟨machine, rfl⟩
  · rw [if_neg finished, if_neg finished]
    exact ⟨machine.keep rfl rfl rfl rfl, rfl⟩

theorem Paired.expire (h : d.Paired log lines e) : PairedIn log lines d.expire e.expire := by
  obtain ⟨machine, muted⟩ := h.cancel
  have current : e.machine.current = d.machine.current := by
    rw [h.muted]
    rfl
  unfold Debugger.expire
  rw [current]
  cases d.machine.current with
  | error f => exact ⟨rfl, h⟩
  | ok place =>
    refine ⟨rfl, machine.keep rfl rfl rfl machine.muted.symm, ?_⟩
    rw [muted]
    rfl

theorem Paired.stepOnce (h : d.Paired log lines e) :
    PairedIn log (lines ++ d.machine.line) d.stepOnce e.stepOnce := by
  obtain ⟨machine, rfl⟩ := h
  obtain ⟨r, n, v, here, there, stepped⟩ := machine.step.split
  unfold Debugger.stepOnce
  rw [here, there]
  cases r with
  | error f =>
    refine ⟨rfl, ?_⟩
    unfold Debugger.afterFault
    by_cases interrupt : f.isInterrupt = true
    · simp only [if_pos interrupt]
      exact paired_withMachine stepped { d with state := .running }
    · simp only [if_neg interrupt]
      exact paired_withMachine stepped
        { d with fault := some f, state := if f.isCancellation then .cancelled else .failed }
  | ok =>
    simp only [stepped.hasNext, stepped.snapshot]
    cases n.hasNext with
    | error f => exact ⟨rfl, paired_withMachine stepped { d with state := .running }⟩
    | ok more => exact ⟨rfl, paired_withMachine stepped { d with state := stateFor more }⟩

theorem Paired.advance (h : d.Paired log lines e) :
    Machine.Traced log lines d.passes e.passes ∧
      PairedIn log (lines ++ d.passes.flatMap Machine.line) d.advance e.advance := by
  have state : e.state = d.state := by
    rw [h.muted]
    rfl
  unfold passes Debugger.advance
  rw [state]
  by_cases waiting : d.state = .waiting
  · obtain ⟨late, d', e', here, there, asked⟩ := h.expired.split
    simp only [if_pos waiting, here, there]
    cases late with
    | true =>
      simp only [List.flatMap_nil, List.append_nil]
      exact ⟨.nil, congrArg Except.error asked.expire.result, asked.expire.debugger⟩
    | false =>
      rw [List.flatMap_singleton]
      exact ⟨.cons asked.machine .nil, asked.stepOnce⟩
  · simp only [if_neg waiting, List.flatMap_nil, List.append_nil]
    exact ⟨.nil, rfl, h⟩

theorem Paired.turn (h : d.Paired log lines e) :
    Turn.Rel (Paired log (lines ++ d.passes.flatMap Machine.line))
      (PairedIn log (lines ++ d.passes.flatMap Machine.line)) d.turn e.turn := by
  have state : e.state = d.state := by
    rw [h.muted]
    rfl
  obtain ⟨_, advanced⟩ := h.advance
  unfold Debugger.turn
  rw [state]
  by_cases waiting : d.state = .waiting
  · obtain ⟨r, d', e', here, there, further⟩ := advanced.split
    simp only [if_pos waiting, here, there]
    cases r with
    | error f => exact .done ⟨rfl, further⟩
    | ok shot => exact .again further
  · have none : d.passes = [] := by rw [passes, if_neg waiting]
    rw [none, List.flatMap_nil, List.append_nil]
    simp only [if_neg waiting]
    exact .done ⟨h.machine.snapshot Option.none, h⟩

theorem Paired.runToEnd (h : d.Paired log lines e) (fuel : Nat) :
    Machine.Traced log lines ((Loop.path Debugger.turn fuel d).flatMap passes)
        ((Loop.path Debugger.turn fuel e).flatMap passes) ∧
      Option.Rel
        (PairedIn log
          (lines ++ ((Loop.path Debugger.turn fuel d).flatMap passes).flatMap Machine.line))
        (d.runToEnd fuel) (e.runToEnd fuel) :=
  Loop.path_traced (fun _ _ _ h => ⟨h.advance.1, h.turn⟩) fuel h

/-- Debuggers are put on machines side by side, or on neither. -/
theorem create_paired (h : m.Paired log lines w) (timeout : Option Float) :
    (∃ f, Debugger.create m timeout = .error f ∧ Debugger.create w timeout = .error f) ∨
      ∃ d e, Debugger.create m timeout = .ok d ∧ Debugger.create w timeout = .ok e ∧
        d.Paired log lines e := by
  let n := m.withGuard { m.guard with clock := (m.guard.clock.deadline timeout).2 }
  have left : Debugger.create m timeout = n.hasNext.map fun more =>
      { machine := n, deadline := (m.guard.clock.deadline timeout).1,
        state := stateFor more } := rfl
  have right : Debugger.create w timeout = n.hasNext.map fun more =>
      { machine := n.withTrace false log, deadline := (m.guard.clock.deadline timeout).1,
        state := stateFor more } := by
    rw [h.muted]
    rfl
  rw [left, right]
  cases n.hasNext with
  | error f => exact .inl ⟨f, rfl, rfl⟩
  | ok more => exact .inr ⟨_, _, rfl, rfl, h.keep rfl rfl rfl rfl, rfl⟩

end Debugger

/-! ## Operations -/

/-- What comes of operations, one after the other: what they answer, the snapshots that they hand
out, the machines at their turns, and the bench they leave, if the last of them comes to an end. -/
structure Account where
  answers : List (Except Fault Unit) := []
  shots : List Snapshot := []
  passes : List Machine := []
  left : Option Bench

/-- A bench, and all that its debuggers know of the machine, with tracing on or off and with another
trace. -/
def Bench.withTrace (b : Bench) (on : Bool) (log : Log TraceEntry) : Bench :=
  ⟨b.machine.withTrace on log, b.debuggers.map (·.withTrace on log)⟩

def Account.withTrace (a : Account) (on : Bool) (log : Log TraceEntry) : Account :=
  { a with
    passes := a.passes.map (·.withTrace on log)
    left := a.left.map (·.withTrace on log) }

/-- An operation that switches no tracing on or off. -/
def Operation.Unswitched (op : Operation) : Prop := ∀ on, op ≠ .request (.trace on)

namespace Bench

/-- The machines at the turns of an operation. -/
def passes (fuel : Nat) (b : Bench) : Operation → List Machine
  | .request .step => [b.machine]
  | .request (.run o) => b.machine.passes fuel o
  | .request (.advance i) => (b.debugger? i).toList.flatMap Debugger.passes
  | .request (.runToEnd i) =>
    (b.debugger? i).toList.flatMap fun d => (Loop.path Debugger.turn fuel d).flatMap Debugger.passes
  | _ => []

/-- The snapshots that an operation hands out. -/
def shots (fuel : Nat) (b : Bench) : Operation → List Snapshot
  | .request (.run o) => (b.machine.run fuel o).toList.flatMap (·.reported)
  | .request (.advance i) => (b.debugger? i).toList.flatMap fun d => d.advance.1.toOption.toList
  | .request (.runToEnd i) =>
    (b.debugger? i).toList.flatMap fun d => (d.runToEnd fuel).toList.flatMap (·.1.toOption.toList)
  | _ => []

/-- Carries out operations, each within as many turns as stand beside it, up to the first that does
not come to an end. -/
def account : List (Nat × Operation) → Bench → Account
  | [], b => { left := some b }
  | (fuel, op) :: ops, b =>
    match b.perform fuel op with
    | none => { shots := b.shots fuel op, passes := b.passes fuel op, left := none }
    | some (r, b') =>
      let rest := account ops b'
      { rest with
        answers := r :: rest.answers
        shots := b.shots fuel op ++ rest.shots
        passes := b.passes fuel op ++ rest.passes }

structure Paired (log : Log TraceEntry) (lines : List TraceEntry) (b v : Bench) : Prop where
  machine : b.machine.Paired log lines v.machine
  muted : v = b.withTrace false log

variable {b v : Bench} {log : Log TraceEntry} {lines : List TraceEntry} {fuel : Nat}
  {op : Operation} {i : Nat}

theorem Paired.withMachine (h : b.Paired log lines v) {lines' : List TraceEntry} {n u : Machine}
    (h' : n.Paired log lines' u) : (b.withMachine n).Paired log lines' (v.withMachine u) := by
  refine ⟨h', ?_⟩
  rw [h.muted, h'.muted]
  rfl

theorem Paired.leave (h : b.Paired log lines v) {lines' : List TraceEntry} {d e : Debugger}
    (h' : d.Paired log lines' e) (i : Nat) : (b.leave i d).Paired log lines' (v.leave i e) := by
  refine ⟨h'.machine, ?_⟩
  rw [h.muted, h'.muted]
  exact congrArg (Bench.mk _) List.map_set.symm

/-- A debugger is there on both benches, or on neither. -/
theorem Paired.debugger_cases (h : b.Paired log lines v) (i : Nat) :
    (b.debugger? i = none ∧ v.debugger? i = none) ∨
      ∃ d e, b.debugger? i = some d ∧ v.debugger? i = some e ∧ d.Paired log lines e := by
  have machine := h.machine
  rw [h.muted] at machine ⊢
  unfold Bench.debugger? withTrace
  rw [List.getElem?_map]
  cases b.debuggers[i]? with
  | none => exact .inl ⟨rfl, rfl⟩
  | some d => exact .inr ⟨_, _, rfl, rfl, machine, rfl⟩

/-- Ways in which an operation came out on benches side by side. -/
structure PairedIn (log : Log TraceEntry) (lines : List TraceEntry)
    (a c : Except Fault Unit × Bench) : Prop where
  result : c.1 = a.1
  bench : a.2.Paired log lines c.2

/-- An operation carried out side by side. -/
structure Performs (log : Log TraceEntry) (lines : List TraceEntry) (fuel : Nat) (op : Operation)
    (b v : Bench) : Prop where
  traced : Machine.Traced log lines (b.passes fuel op) (v.passes fuel op)
  shots : v.shots fuel op = b.shots fuel op
  answers : Option.Rel (PairedIn log (lines ++ (b.passes fuel op).flatMap Machine.line))
    (b.perform fuel op) (v.perform fuel op)

theorem Paired.run (h : b.Paired log lines v) (fuel : Nat) (o : RunOptions) :
    Performs log lines fuel (.request (.run o)) b v := by
  obtain ⟨traced, outcomes⟩ := h.machine.run fuel o
  refine ⟨traced, ?_, ?_⟩
  · simp only [Bench.shots]
    generalize b.machine.run fuel o = this, v.machine.run fuel o = that at outcomes ⊢
    cases outcomes with
    | none => rfl
    | some came => simp only [Option.toList_some, List.flatMap_singleton, came.reported]
  · simp only [perform, answer, passes]
    generalize b.machine.run fuel o = this, v.machine.run fuel o = that at outcomes ⊢
    cases outcomes with
    | none => exact .none
    | some came => exact .some ⟨came.result, h.withMachine came.machine⟩

theorem Paired.advance (h : b.Paired log lines v) (fuel i : Nat) :
    Performs log lines fuel (.request (.advance i)) b v := by
  rcases h.debugger_cases i with ⟨none, none'⟩ | ⟨d, e, found, found', paired⟩
  · refine ⟨?_, ?_, ?_⟩
    · simp only [passes, none, none']
      exact .nil
    · simp only [Bench.shots, none, none']
    · simp only [perform, answer, none, none']
      exact .none
  · obtain ⟨traced, advanced⟩ := paired.advance
    obtain ⟨r, d', e', here, there, advanced⟩ := advanced.split
    refine ⟨?_, ?_, ?_⟩
    · simpa only [passes, found, found', Option.toList_some, List.flatMap_singleton] using traced
    · simp only [Bench.shots, found, found', here, there, Option.toList_some,
        List.flatMap_singleton]
    · simp only [perform, answer, passes, found, found', here, there, Option.map_some,
        Option.toList_some, List.flatMap_singleton]
      exact .some ⟨rfl, h.leave advanced i⟩

theorem Paired.runToEnd (h : b.Paired log lines v) (fuel i : Nat) :
    Performs log lines fuel (.request (.runToEnd i)) b v := by
  rcases h.debugger_cases i with ⟨none, none'⟩ | ⟨d, e, found, found', paired⟩
  · refine ⟨?_, ?_, ?_⟩
    · simp only [passes, none, none']
      exact .nil
    · simp only [Bench.shots, none, none']
    · simp only [perform, answer, none, none']
      exact .none
  · obtain ⟨traced, ended⟩ := paired.runToEnd fuel
    refine ⟨?_, ?_, ?_⟩
    · simpa only [passes, found, found', Option.toList_some, List.flatMap_singleton] using traced
    · simp only [Bench.shots, found, found', Option.toList_some, List.flatMap_singleton]
      generalize d.runToEnd fuel = this, e.runToEnd fuel = that at ended ⊢
      cases ended with
      | none => rfl
      | some came => simp only [Option.toList_some, List.flatMap_singleton, came.result]
    · simp only [perform, answer, passes, found, found', Option.bind_some, Option.toList_some,
        List.flatMap_singleton]
      generalize d.runToEnd fuel = this, e.runToEnd fuel = that at ended ⊢
      cases ended with
      | none => exact .none
      | some came =>
        refine .some ⟨?_, h.leave came.debugger i⟩
        simp only [came.result]

/-- An operation that takes no step, and leaves the machine changed in something else. -/
theorem Performs.still {r : Except Fault Unit} {b' v' : Bench} (none : b.passes fuel op = [])
    (none' : v.passes fuel op = []) (shots : v.shots fuel op = b.shots fuel op)
    (here : b.perform fuel op = some (r, b')) (there : v.perform fuel op = some (r, v'))
    (paired : b'.Paired log lines v') : Performs log lines fuel op b v := by
  refine ⟨?_, shots, ?_⟩
  · rw [none, none']
    exact .nil
  · rw [here, there, none, List.flatMap_nil, List.append_nil]
    exact .some ⟨rfl, paired⟩

/-- Every operation goes the same way on both benches. -/
theorem Paired.perform (h : b.Paired log lines v) (fuel : Nat) (unswitched : op.Unswitched) :
    Performs log lines fuel op b v := by
  cases op with
  | execute | traverse | record | elapse =>
    obtain ⟨machine, rfl⟩ := h
    exact .still rfl rfl rfl rfl rfl ⟨machine.keep rfl rfl rfl rfl, rfl⟩
  | request request =>
    cases request with
    | run o => exact h.run fuel o
    | advance i => exact h.advance fuel i
    | runToEnd i => exact h.runToEnd fuel i
    | trace on => exact absurd rfl (unswitched on)
    | cancel | linear | gate | jump =>
      obtain ⟨machine, rfl⟩ := h
      exact .still rfl rfl rfl rfl rfl ⟨machine.keep rfl rfl rfl rfl, rfl⟩
    | step =>
      have stepped := h.machine.step
      refine ⟨.cons h.machine .nil, rfl, ?_⟩
      rw [passes, List.flatMap_singleton]
      exact .some ⟨stepped.result, h.withMachine stepped.machine⟩
    | debug timeout =>
      rcases Debugger.create_paired h.machine timeout with
        ⟨f, here, there⟩ | ⟨d, e, here, there, paired⟩
      · have here : b.perform fuel (.request (.debug timeout)) = some (.error f, b) := by
          simp only [Bench.perform, answer, here]
        have there : v.perform fuel (.request (.debug timeout)) = some (.error f, v) := by
          simp only [Bench.perform, answer, there]
        exact .still rfl rfl rfl here there h
      · have here : b.perform fuel (.request (.debug timeout)) =
            some (.ok (), ⟨d.machine, b.debuggers ++ [d]⟩) := by
          simp only [Bench.perform, answer, here]
        have there : v.perform fuel (.request (.debug timeout)) =
            some (.ok (), ⟨e.machine, v.debuggers ++ [e]⟩) := by
          simp only [Bench.perform, answer, there]
        refine .still rfl rfl rfl here there ⟨paired.machine, ?_⟩
        rw [h.muted, paired.muted]
        simp only [Bench.withTrace, List.map_append]
        rfl
    | giveUp i =>
      rcases h.debugger_cases i with ⟨none, none'⟩ | ⟨d, e, found, found', paired⟩
      · refine ⟨.nil, rfl, ?_⟩
        simp only [Bench.perform, answer, none, none']
        exact .none
      · have here : b.perform fuel (.request (.giveUp i)) = some (.ok (), b.leave i d.cancel) := by
          simp only [Bench.perform, answer, found, Option.map_some]
        have there : v.perform fuel (.request (.giveUp i)) = some (.ok (), v.leave i e.cancel) := by
          simp only [Bench.perform, answer, found', Option.map_some]
        exact .still rfl rfl rfl here there (h.leave paired.cancel i)

/-! ## Operations in a row -/

/-- What comes of operations on benches side by side. -/
structure Tells (log : Log TraceEntry) (lines : List TraceEntry) (a c : Account) : Prop where
  answers : c.answers = a.answers
  shots : c.shots = a.shots
  traced : Machine.Traced log lines a.passes c.passes
  left : Option.Rel (Paired log (lines ++ a.passes.flatMap Machine.line)) a.left c.left

theorem Paired.account {ops : List (Nat × Operation)} (h : b.Paired log lines v)
    (unswitched : ∀ x ∈ ops, x.2.Unswitched) :
    Tells log lines (b.account ops) (v.account ops) := by
  induction ops generalizing b v lines with
  | nil =>
    have none : (b.account []).passes = [] := rfl
    refine ⟨rfl, rfl, .nil, .some ?_⟩
    rw [none, List.flatMap_nil, List.append_nil]
    exact h
  | cons x ops ih =>
    obtain ⟨fuel, op⟩ := x
    have quiet := fun y mem => unswitched y (List.mem_cons_of_mem _ mem)
    obtain ⟨traced, shots, answers⟩ := h.perform fuel (unswitched _ List.mem_cons_self)
    unfold Bench.account
    dsimp only at answers traced shots ⊢
    generalize b.perform fuel op = this, v.perform fuel op = that at answers ⊢
    cases answers with
    | none => exact ⟨rfl, shots, traced, .none⟩
    | @some a c came =>
      obtain ⟨r, b'⟩ := a
      obtain ⟨_, v'⟩ := c
      obtain ⟨rfl, paired⟩ := came
      obtain ⟨answers, shots', traced', left⟩ := ih paired quiet
      refine ⟨?_, ?_, traced.append traced', ?_⟩
      · simp only [answers]
      · simp only [shots, shots']
      · rw [List.append_assoc, ← List.flatMap_append] at left
        exact left

theorem Tells.muted {a c : Account} (h : Tells log lines a c) : c = a.withTrace false log := by
  obtain ⟨answers, shots, traced, left⟩ := h
  obtain ⟨_, _, _, this⟩ := a
  obtain ⟨_, _, _, that⟩ := c
  cases answers
  cases shots
  cases traced.muted
  cases left with
  | none => rfl
  | some paired =>
    rw [paired.muted]
    rfl

end Bench

/-- A machine of a compiled program, with tracing and without. Whatever is done to it, in whatever
order: it answers the same, hands out the same snapshots, and is the same at every turn and at the
end, but for the trace, which stays as it was if there is no tracing. With tracing, it grows by one
line for each instruction that is handed out, in this order: a step that hands one out writes the
line, which shows the instruction and the tape as it was before, however the step then goes on; and
any other step writes nothing, as does one that is stopped by a cancellation. The text of the trace
grows by these lines, and they can be read off it. -/
theorem tracing_only_observes {source : Source} {m : Machine}
    (compiled : compile source = .ok m.program) {ops : List (Nat × Operation)}
    (unswitched : ∀ x ∈ ops, x.2.Unswitched) {told : Account}
    (loud : Bench.account ops ⟨m.withTrace true m.trace, []⟩ = told) :
    Bench.account ops ⟨m.withTrace false m.trace, []⟩ = told.withTrace false m.trace ∧
    (∀ front v back, told.passes = front ++ v :: back →
      ∃ lines, m.TracedSince lines v ∧
        List.Forall₂ TraceEntry.Shows lines (front.filter (·.handed?.isSome))) ∧
    (∀ b, told.left = some b →
      ∃ lines, m.TracedSince lines b.machine ∧
        List.Forall₂ TraceEntry.Shows lines (told.passes.filter (·.handed?.isSome))) ∧
    ∀ v ∈ told.passes,
      (∀ i index, v.handed? = some (i, index) →
        ∃ e, e.Shows v ∧ v.TracedSince [e] v.step.2) ∧
      (v.handed? = none →
        v.step.2.trace.toList = v.trace.toList ∧ v.step.2.traceText = v.traceText) ∧
      ∀ f w, v.step = (.error f, w) → f.isCancellation = true → v.handed? = none := by
  have machine : (m.withTrace true m.trace).Paired m.trace m.trace.toList
      (m.withTrace false m.trace) := ⟨compile_sound compiled, rfl, rfl, rfl⟩
  have paired : Bench.Paired m.trace m.trace.toList ⟨m.withTrace true m.trace, []⟩
      ⟨m.withTrace false m.trace, []⟩ := ⟨machine, rfl⟩
  have tells := paired.account unswitched
  rw [loud] at tells
  refine ⟨tells.muted, ?_, ?_, ?_⟩
  · intro front v back split
    have traced := tells.traced
    rw [split] at traced
    obtain ⟨here, _, before⟩ := traced.at
    exact ⟨_, Machine.tracedSince (TraceEntry.known_of_shows before.shows) here.trace, before.shows⟩
  · intro b left
    have ends := tells.left
    rw [left] at ends
    have shows := tells.traced.shows
    generalize Account.left _ = other at ends
    cases ends with
    | some ended =>
      exact ⟨_, Machine.tracedSince (TraceEntry.known_of_shows shows) ended.machine.trace, shows⟩
  · intro v met
    obtain ⟨front, back, split⟩ := List.append_of_mem met
    have traced := tells.traced
    rw [split] at traced
    obtain ⟨here, _⟩ := traced.at
    refine ⟨?_, here.step_silent, ?_⟩
    · intro i index handed
      exact here.step_writes handed
    · intro f w failed cancelled
      exact Machine.handed?_of_cancelled here.sound failed cancelled

/-- An echo is stepped once, and a debugger then runs it to its end, which is a read that fails. -/
theorem failing_read_traced :
    ∃ p told b f, compile (.text ",.,") = .ok p ∧
      Bench.account [(1, .request .step), (1, .request (.debug none)), (9, .request (.runToEnd 0))]
        ⟨(Machine.onTape p .blank (.ofBytes [0x41]) .reliable).withTrace true {}, []⟩ = told ∧
      told.answers = [.ok (), .ok (), .error f] ∧ told.left = some b ∧
      b.machine.trace.toList = [⟨0, ',', 0, 0⟩, ⟨1, '.', 0, 0x41⟩, ⟨2, ',', 0, 0x41⟩] ∧
      b.machine.traceText = "TRACE ip=0000 , ptr=0 cell=0\n" ++
        "TRACE ip=0001 . ptr=0 cell=65\n" ++ "TRACE ip=0002 , ptr=0 cell=65\n" ∧
      TraceEntry.read? b.machine.traceText = some b.machine.trace.toList ∧
      List.Forall₂ TraceEntry.Shows b.machine.trace.toList
        (told.passes.filter (·.handed?.isSome)) ∧
      (Bench.account [(1, .request .step), (1, .request (.debug none)), (9, .request (.runToEnd 0))]
        ⟨(Machine.onTape p .blank (.ofBytes [0x41]) .reliable).withTrace false {}, []⟩).answers =
          told.answers := by
  obtain ⟨p, compiled⟩ : ∃ p, compile (.text ",.,") = .ok p := ⟨_, rfl⟩
  obtain ⟨told, b, f, loud, answers, left, trace⟩ : ∃ told b f,
      Bench.account [(1, .request .step), (1, .request (.debug none)), (9, .request (.runToEnd 0))]
        ⟨(Machine.onTape p .blank (.ofBytes [0x41]) .reliable).withTrace true {}, []⟩ = told ∧
      told.answers = [.ok (), .ok (), .error f] ∧ told.left = some b ∧
      b.machine.trace.toList = [⟨0, ',', 0, 0⟩, ⟨1, '.', 0, 0x41⟩, ⟨2, ',', 0, 0x41⟩] := by
    cases compiled
    exact ⟨_, _, _, rfl, rfl, rfl, rfl⟩
  have unswitched : ∀ x ∈ [(1, Operation.request .step), (1, .request (.debug none)),
      (9, .request (.runToEnd 0))], Operation.Unswitched x.2 := by
    intro x mem on switched
    simp only [List.mem_cons, List.not_mem_nil, or_false] at mem
    rcases mem with rfl | rfl | rfl
    · cases switched
    · cases switched
    · cases switched
  obtain ⟨quiet, _, ends, _⟩ := @tracing_only_observes (.text ",.,")
    (Machine.onTape p .blank (.ofBytes [0x41]) .reliable) compiled _ unswitched told loud
  obtain ⟨lines, since, shows⟩ := ends b left
  have same : b.machine.trace.toList = lines := since.entries
  have text : b.machine.traceText = String.join (lines.map TraceEntry.text) := since.text
  have shown := since.shown
  rw [← text, ← same] at shown
  rw [← same] at shows text
  refine ⟨p, told, b, f, compiled, loud, answers, left, trace, ?_, shown, shows, ?_⟩
  · rw [text, trace]
    decide
  · exact (congrArg Account.answers quiet :)

end TapeMachine
