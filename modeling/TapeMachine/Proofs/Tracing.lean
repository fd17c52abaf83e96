import Mathlib.Data.List.Forall2
import TapeMachine.Proofs.Operations
import TapeMachine.Proofs.TraceLines

/-! What tracing does: it writes a line for each instruction that is handed out, and nothing else.
Two machines that differ in whether they trace are driven side by side, in any way there is. Of
the program it is only used that every instruction of it has a symbol. -/

namespace TapeMachine

/-- A line of the trace shows the instruction that a machine hands out next, and the tape as it is
before. -/
structure TraceEntry.Shows (e : TraceEntry) (m : Machine) : Prop where
  handed : ∃ i, m.handed? = some (i, e.index) ∧ i.symbol = .ok e.symbol
  pointer : e.pointer = m.config.tape.pointer
  cell : e.cell = m.config.tape.cell

/-- The symbols on lines are those of operations. -/
theorem TraceEntry.known_of_shows {lines : List TraceEntry} {ms : List Machine}
    (shows : List.Forall₂ TraceEntry.Shows lines ms) :
    ∀ e ∈ lines, ∃ o : Op, e.symbol = o.symbol := by
  induction shows with
  | nil => nofun
  | cons first _ ih =>
    obtain ⟨⟨opcode, _⟩, _, symbol⟩ := first.handed
    cases opcode with
    | op o => exact List.forall_mem_cons.mpr ⟨⟨o, (Except.ok.inj symbol).symm⟩, ih⟩
    | unknown => cases symbol

namespace Machine

/-- The machine with tracing on or off, and with another trace. -/
def withTrace (m : Machine) (on : Bool) (log : Log TraceEntry) : Machine :=
  { m with tracing := on, trace := log }

/-- What tracing writes for what is handed out: one line for an instruction, and else nothing. -/
def lineFor (m : Machine) : Option (Instruction × Int) → List TraceEntry
  | none => []
  | some (i, index) => i.symbol.toOption.toList.map fun symbol =>
      ⟨index, symbol, m.config.tape.pointer, m.config.tape.cell⟩

/-- What tracing writes in the course of the next step. -/
def line (m : Machine) : List TraceEntry := m.lineFor m.handed?

/-- The instruction that is handed out if none of the reasons not to look for one holds. -/
def offered? (m : Machine) : Option (Instruction × Int) :=
  match m.check with
  | (.ok (), n) => n.next.1.toOption
  | _ => none

/-- A machine that traces and has written these lines, and beside it one that is the same but for
the trace: it does not trace, and has another log. -/
structure Paired (log : Log TraceEntry) (lines : List TraceEntry) (m w : Machine) : Prop where
  sound : m.program.Sound
  tracing : m.tracing = true
  trace : m.trace.toList = lines
  muted : w = m.withTrace false log

/-- Ways in which two such machines came out. -/
structure PairedIn {β : Type} (log : Log TraceEntry) (lines : List TraceEntry)
    (a b : β × Machine) : Prop where
  result : b.1 = a.1
  machine : a.2.Paired log lines b.2

variable {m n w : Machine} {on : Bool} {log : Log TraceEntry} {lines : List TraceEntry}
  {i : Instruction} {index : Int} {f : Fault}

@[simp] theorem state_withTrace : (m.withTrace on log).state = m.state := rfl

@[simp] theorem hasNext_withTrace : (m.withTrace on log).hasNext = m.hasNext := rfl

@[simp] theorem snapshot_withTrace (fault : Option Fault) :
    (m.withTrace on log).snapshot fault = m.snapshot fault := rfl

/-- Handing out instructions makes nothing of the trace. -/
theorem aside_withTrace (on : Bool) (log : Log TraceEntry) : Aside fun m => m.withTrace on log :=
  ⟨fun _ => rfl, fun _ => rfl, fun _ => rfl, fun _ => rfl, fun _ _ => rfl, fun _ _ => rfl,
    fun _ _ => rfl, fun _ _ => rfl, fun _ _ => rfl, fun _ _ => rfl, fun _ _ => rfl, fun _ => rfl,
    fun _ => rfl⟩

/-! ## A step -/

theorem lineFor_congr (tape : n.config.tape = m.config.tape) : n.lineFor = m.lineFor := by
  funext handed
  cases handed with
  | none => rfl
  | some handed => simp only [lineFor, tape]

theorem line_of_none (none : m.handed? = none) : m.line = [] := by
  rw [line, none]
  rfl

/-- An instruction that has a symbol can be traced. -/
theorem note_known {o : Op} (known : i.opcode = .op o) (m : Machine) (index : Int) :
    m.note i index = .ok (m.withTrace m.tracing
      (m.trace.append (if m.tracing then m.lineFor (some (i, index)) else []))) := by
  have symbol : i.symbol = .ok o.symbol := by simp only [Instruction.symbol, known]
  obtain ⟨_, _, _, _, _, _, tracing, _, _, _, _⟩ := m
  cases tracing with
  | false => rfl
  | true =>
    simp only [note, lineFor, symbol, if_true]
    rfl

/-- All that can come of an attempt, with tracing on or off and whatever was traced before. -/
inductive Attempts (m : Machine) : Prop
  /-- Nothing was handed out. -/
  | stopped {f : Fault} {n : Machine} (none : m.offered? = none) (handing : m.Handing n)
      (attempt : ∀ on log, (m.withTrace on log).attempt = (.error f, n.withTrace on log)) :
      Attempts m
  /-- An instruction was handed out, traced if it is to be, and executed. -/
  | executed {i : Instruction} {index : Int} {o : Op} {n : Machine}
      (offered : m.offered? = some (i, index)) (known : i.opcode = .op o) (handing : m.Handing n)
      (attempt : ∀ on log, (m.withTrace on log).attempt =
        (n.withTrace on (log.append (if on then m.lineFor (some (i, index)) else []))).execute
          i index) : Attempts m

theorem attempts (sound : m.program.Sound) : m.Attempts := by
  have checked := m.check_handing
  rcases asked : m.check with ⟨f | ⟨⟩, n⟩
  · rw [asked] at checked
    refine @Attempts.stopped m f n ?_ checked ?_
    · simp only [offered?, asked]
    · intro on log
      simp only [attempt, (aside_withTrace on log).check m, asked]
  · rw [asked] at checked
    have handing := checked.trans n.next_handing
    rcases handed : n.next with ⟨f | ⟨i, index⟩, q⟩
    · rw [handed] at handing
      refine @Attempts.stopped m f q ?_ handing ?_
      · simp only [offered?, asked, handed, Except.toOption]
      · intro on log
        simp only [attempt, (aside_withTrace on log).check m, asked,
          (aside_withTrace on log).next n, handed]
    · rw [handed] at handing
      have mem := next_mem (congrArg Prod.fst handed)
      rw [checked.program] at mem
      obtain ⟨o, known⟩ := sound.known i mem
      refine @Attempts.executed m i index o q ?_ known handing ?_
      · simp only [offered?, asked, handed, Except.toOption]
      · intro on log
        have noted : (q.withTrace on log).note i index = .ok (q.withTrace on
            (log.append (if on then q.lineFor (some (i, index)) else []))) :=
          note_known known (q.withTrace on log) index
        simp only [attempt, (aside_withTrace on log).check m, asked,
          (aside_withTrace on log).next n, handed, noted, lineFor_congr handing.tape]

/-- An attempt writes its line if it is to, and apart from that goes the same way in any case. -/
theorem attempt_withTrace (sound : m.program.Sound) (on : Bool) (log : Log TraceEntry) :
    (m.withTrace on log).attempt =
      (m.attempt.1, m.attempt.2.withTrace on
        (log.append (if on then m.lineFor m.offered? else []))) := by
  cases attempts sound with
  | stopped none _ attempt =>
    have here : m.attempt = _ := attempt m.tracing m.trace
    rw [attempt, here, none, lineFor, ite_self]
    rfl
  | executed offered _ _ attempt =>
    have here : m.attempt = _ := attempt m.tracing m.trace
    rw [attempt, here, offered]
    rfl

theorem attempt_program (sound : m.program.Sound) : m.attempt.2.program = m.program := by
  cases attempts sound with
  | stopped _ handing attempt =>
    have here : m.attempt = _ := attempt m.tracing m.trace
    rw [here]
    exact handing.program
  | executed _ _ handing attempt =>
    have here : m.attempt = _ := attempt m.tracing m.trace
    rw [here]
    exact handing.program

theorem handed?_live (live : m.state.isFinal = false) (next : m.hasNext = .ok true) :
    m.handed? = m.running.offered? := by
  simp only [handed?, offered?, live, next]
  generalize m.running.check = answer
  obtain ⟨_ | ⟨⟩, n⟩ := answer
  · rfl
  · rfl

theorem line_of_idle (idle : m.state.isFinal = true ∨ m.hasNext ≠ .ok true) : m.line = [] := by
  have none : m.handed? = none := by
    unfold handed?
    rcases idle with final | other
    · rw [if_pos final]
    · split
      · rfl
      · split
        · next next _ => exact absurd next other
        · rfl
  exact line_of_none none

/-- A step writes its line if it is to, and apart from that goes the same way in any case. -/
theorem step_withTrace (sound : m.program.Sound) (on : Bool) (log : Log TraceEntry) :
    (m.withTrace on log).step =
      (m.step.1, m.step.2.withTrace on (log.append (if on then m.line else []))) := by
  cases live : m.state.isFinal with
  | true =>
    have live' : (m.withTrace on log).state.isFinal = true := live
    rw [step_final live, step_final live', line_of_idle (.inl live), ite_self]
    rfl
  | false =>
    unfold step
    rw [state_withTrace, live, if_neg Bool.false_ne_true, if_neg Bool.false_ne_true,
      hasNext_withTrace]
    cases next : m.hasNext with
    | error f =>
      rw [line_of_idle (.inr (by rw [next]; nofun)), ite_self]
      rfl
    | ok more =>
      cases more with
      | false =>
        rw [line_of_idle (.inr (by rw [next]; nofun)), ite_self]
        rfl
      | true =>
        have line : m.line = m.running.lineFor m.running.offered? := by
          rw [Machine.line, handed?_live live next]
          rfl
        have attempted := m.running.attempt_withTrace sound on log
        rw [← line] at attempted
        have begun : ({ m.withTrace on log with state := .running } : Machine).attempt = _ :=
          attempted
        have begun' : ({ m with state := .running } : Machine) = m.running := rfl
        simp only [begun, begun']
        generalize m.running.attempt = answer
        obtain ⟨f | ⟨⟩, n⟩ := answer
        · rfl
        · exact (aside_withTrace on _).countStep n

theorem countStep_program (m : Machine) : m.countStep.2.program = m.program := by
  unfold countStep
  dsimp only
  generalize Machine.hasNext _ = more
  rcases more with f | _ | _
  · rfl
  · rfl
  · rfl

/-- A step leaves the program alone. -/
theorem step_program (sound : m.program.Sound) : m.step.2.program = m.program := by
  unfold step
  by_cases final : m.state.isFinal = true
  · rw [if_pos final]
  · rw [if_neg final]
    rcases m.hasNext with f | _ | _
    · rfl
    · rfl
    · have attempted : m.running.attempt.2.program = m.program := attempt_program sound
      have begun : ({ m with state := .running } : Machine) = m.running := rfl
      simp only [begun]
      generalize m.running.attempt = answer at attempted ⊢
      obtain ⟨f | ⟨⟩, n⟩ := answer
      · exact attempted
      · exact n.countStep_program.trans attempted

theorem handed?_some (handed : m.handed? = some (i, index)) :
    m.state.isFinal = false ∧ m.hasNext = .ok true ∧ m.running.offered? = some (i, index) := by
  cases live : m.state.isFinal with
  | true =>
    simp only [handed?, live, if_true] at handed
    cases handed
  | false =>
    rcases next : m.hasNext with f | _ | _
    · simp only [handed?, live, next] at handed
      cases handed
    · simp only [handed?, live, next] at handed
      cases handed
    · rw [handed?_live live next] at handed
      exact ⟨rfl, rfl, handed⟩

/-- What is handed out has a symbol, as has any instruction of the program. -/
theorem handed?_known (sound : m.program.Sound) (handed : m.handed? = some (i, index)) :
    ∃ o, i.opcode = .op o := by
  obtain ⟨_, _, offered⟩ := handed?_some handed
  have sound : m.running.program.Sound := sound
  cases attempts sound with
  | stopped none =>
    rw [none] at offered
    cases offered
  | executed offered' known =>
    cases offered.symm.trans offered'
    exact ⟨_, known⟩

/-- For what is handed out there is one line, which shows it. -/
theorem line_of_some (sound : m.program.Sound) (handed : m.handed? = some (i, index)) :
    ∃ e, m.line = [e] ∧ e.Shows m := by
  obtain ⟨o, known⟩ := handed?_known sound handed
  have symbol : i.symbol = .ok o.symbol := by simp only [Instruction.symbol, known]
  refine ⟨⟨index, o.symbol, m.config.tape.pointer, m.config.tape.cell⟩, ?_,
    ⟨i, handed, symbol⟩, rfl, rfl⟩
  rw [line, handed, lineFor, symbol]
  rfl

/-- An operation that fails is not cancelled. -/
theorem execute_uncancelled {o : Op} (known : i.opcode = .op o)
    (failed : m.execute i index = (.error f, n)) : f.isCancellation = false := by
  simp only [execute, Config.execute, known] at failed
  have result : (m.config.perform o i.target index).1 = .error f := congrArg Prod.fst failed
  exact (Config.perform_breaks (Prod.ext result rfl)).uncancelled

theorem countStep_uncancelled (failed : m.countStep = (.error f, n)) :
    f.isCancellation = false := by
  simp only [countStep] at failed
  rcases further : Machine.hasNext _ with g | _ | _
  · rw [further] at failed
    cases failed
    rw [hasNext_error further]
    rfl
  · rw [further] at failed
    cases failed
  · rw [further] at failed
    cases failed

/-- A step that is stopped by a cancellation has handed nothing out. -/
theorem handed?_of_cancelled (sound : m.program.Sound) (failed : m.step = (.error f, n))
    (cancelled : f.isCancellation = true) : m.handed? = none := by
  cases handed : m.handed? with
  | none => rfl
  | some offer =>
    exfalso
    obtain ⟨i, index⟩ := offer
    obtain ⟨live, next, offered⟩ := handed?_some handed
    have sound : m.running.program.Sound := sound
    have begun : ({ m with state := .running } : Machine) = m.running := rfl
    simp only [step, live, next, begun] at failed
    cases attempts sound with
    | stopped none =>
      rw [none] at offered
      cases offered
    | @executed j k o q _ known _ attempt =>
      have here : m.running.attempt = _ := attempt m.tracing m.trace
      rw [here] at failed
      rcases executed : Machine.execute _ j k with ⟨g | ⟨⟩, u⟩
      · rw [executed] at failed
        cases failed
        rw [execute_uncancelled known executed] at cancelled
        cases cancelled
      · rw [executed] at failed
        rw [countStep_uncancelled failed] at cancelled
        cases cancelled

/-! ## Two machines side by side -/

theorem Paired.keep {v : Machine} (paired : m.Paired log lines w) (program : n.program = m.program)
    (tracing : n.tracing = m.tracing) (trace : n.trace = m.trace)
    (muted : n.withTrace false log = v) : n.Paired log lines v := by
  refine ⟨?_, ?_, ?_, muted.symm⟩
  · rw [program]
    exact paired.sound
  · rw [tracing]
    exact paired.tracing
  · rw [trace]
    exact paired.trace

theorem Paired.step (paired : m.Paired log lines w) :
    PairedIn log (lines ++ m.line) m.step w.step := by
  have loud := step_withTrace paired.sound m.tracing m.trace
  have quiet := step_withTrace paired.sound false log
  have same : m.withTrace m.tracing m.trace = m := rfl
  rw [same, paired.tracing, if_pos rfl] at loud
  rw [← paired.muted] at quiet
  have left : m.step.2 = m.step.2.withTrace true (m.trace.append m.line) := congrArg Prod.snd loud
  rw [quiet]
  refine ⟨rfl, ?_, ?_, ?_, rfl⟩
  · rw [step_program paired.sound]
    exact paired.sound
  · rw [left]
    rfl
  · rw [left, ← paired.trace]
    exact Log.toList_append _ _

/-- A step that hands out an instruction writes a line that shows it. -/
theorem Paired.step_writes (paired : m.Paired log lines w) (handed : m.handed? = some (i, index)) :
    ∃ e, e.Shows m ∧ m.TracedSince [e] m.step.2 := by
  obtain ⟨e, one, shows⟩ := line_of_some paired.sound handed
  have written := paired.step.machine.trace
  rw [← paired.trace, one] at written
  exact ⟨e, shows, tracedSince (TraceEntry.known_of_shows (.cons shows .nil)) written⟩

/-- A step that hands out nothing writes nothing. -/
theorem Paired.step_silent (paired : m.Paired log lines w) (none : m.handed? = none) :
    m.step.2.trace.toList = m.trace.toList ∧ m.step.2.traceText = m.traceText := by
  have written := paired.step.machine.trace
  rw [← paired.trace, line_of_none none, List.append_nil] at written
  exact ⟨written, by rw [traceText, written, traceText]⟩

theorem Paired.hasNext (paired : m.Paired log lines w) : w.hasNext = m.hasNext := by
  rw [paired.muted, hasNext_withTrace]

theorem Paired.state (paired : m.Paired log lines w) : w.state = m.state := by
  rw [paired.muted, state_withTrace]

theorem Paired.snapshot (paired : m.Paired log lines w) (fault : Option Fault) :
    w.snapshot fault = m.snapshot fault := by
  rw [paired.muted, snapshot_withTrace]

theorem PairedIn.split {β : Type} {a b : β × Machine} (h : PairedIn log lines a b) :
    ∃ r n v, a = (r, n) ∧ b = (r, v) ∧ n.Paired log lines v :=
  ⟨a.1, a.2, b.2, rfl, Prod.ext h.result rfl, h.machine⟩

theorem Paired.turn (paired : m.Paired log lines w) :
    Turn.Rel (Paired log (lines ++ m.line)) (PairedIn log (lines ++ m.line)) m.turn w.turn := by
  cases next : m.hasNext with
  | error f =>
    rw [line_of_idle (.inr (by simp [next])), List.append_nil]
    simp only [Machine.turn, paired.hasNext, next]
    exact .done ⟨rfl, paired⟩
  | ok more =>
    cases more with
    | false =>
      rw [line_of_idle (.inr (by simp [next])), List.append_nil]
      simp only [Machine.turn, paired.hasNext, next]
      refine .done ⟨rfl, paired.keep rfl rfl rfl ?_⟩
      rw [paired.muted]
      rfl
    | true =>
      obtain ⟨r, n, v, here, there, stepped⟩ := paired.step.split
      simp only [Machine.turn, paired.hasNext, next, here, there]
      cases r with
      | error f => exact .done ⟨rfl, stepped⟩
      | ok => exact .again stepped

/-- Machines met one after the other, each of which has traced what those before it handed out, and
others beside them. -/
inductive Traced (log : Log TraceEntry) : List TraceEntry → List Machine → List Machine → Prop
  | nil {lines : List TraceEntry} : Traced log lines [] []
  | cons {lines : List TraceEntry} {m w : Machine} {ms ws : List Machine}
      (here : m.Paired log lines w) (rest : Traced log (lines ++ m.line) ms ws) :
      Traced log lines (m :: ms) (w :: ws)

variable {ms ws ms' ws' : List Machine}

theorem Traced.append (h : Traced log lines ms ws)
    (h' : Traced log (lines ++ ms.flatMap line) ms' ws') :
    Traced log lines (ms ++ ms') (ws ++ ws') := by
  induction h with
  | nil =>
    rw [List.flatMap_nil, List.append_nil] at h'
    exact h'
  | cons here _ ih =>
    rw [List.flatMap_cons, ← List.append_assoc] at h'
    exact .cons here (ih h')

theorem Traced.muted (h : Traced log lines ms ws) : ws = ms.map (·.withTrace false log) := by
  induction h with
  | nil => rfl
  | cons here _ ih => rw [List.map_cons, ← here.muted, ih]

/-- The lines of machines met one after the other show those that hand something out. -/
theorem Traced.shows (h : Traced log lines ms ws) :
    List.Forall₂ TraceEntry.Shows (ms.flatMap line) (ms.filter (·.handed?.isSome)) := by
  induction h with
  | nil => exact .nil
  | @cons _ m _ ms _ here _ ih =>
    rw [List.flatMap_cons]
    cases handed : m.handed? with
    | none =>
      rw [line_of_none handed, List.filter_cons_of_neg (by simp [handed])]
      exact ih
    | some offer =>
      obtain ⟨e, one, shows⟩ := line_of_some here.sound handed
      rw [one, List.filter_cons_of_pos (by simp [handed])]
      exact .cons shows ih

/-- A machine that is met has written the lines of those before it. -/
theorem Traced.at {front back : List Machine} (h : Traced log lines (front ++ m :: back) ws) :
    m.Paired log (lines ++ front.flatMap line) (m.withTrace false log) ∧
      ∃ before, Traced log lines front before := by
  induction front generalizing lines ws with
  | nil =>
    rw [List.nil_append] at h
    cases h with
    | cons here _ =>
      rw [List.flatMap_nil, List.append_nil, ← here.muted]
      exact ⟨here, [], .nil⟩
  | cons n front ih =>
    cases h with
    | @cons _ _ v _ _ here rest =>
      obtain ⟨last, before, traced⟩ := ih rest
      rw [List.append_assoc, ← List.flatMap_cons] at last
      exact ⟨last, v :: before, .cons here traced⟩

end Machine

/-- Loops side by side, of which every turn meets machines that have been traced. -/
theorem Loop.path_traced {σ ρ τ κ : Type} {log : Log TraceEntry}
    {R : List TraceEntry → σ → τ → Prop} {Q : List TraceEntry → ρ → κ → Prop}
    {turn : σ → Turn σ ρ} {other : τ → Turn τ κ} {met : σ → List Machine} {met' : τ → List Machine}
    (step : ∀ lines s t, R lines s t → Machine.Traced log lines (met s) (met' t) ∧
      Turn.Rel (R (lines ++ (met s).flatMap Machine.line))
        (Q (lines ++ (met s).flatMap Machine.line)) (turn s) (other t))
    (n : Nat) {lines : List TraceEntry} {s : σ} {t : τ} (h : R lines s t) :
    Machine.Traced log lines ((path turn n s).flatMap met) ((path other n t).flatMap met') ∧
      Option.Rel (Q (lines ++ ((path turn n s).flatMap met).flatMap Machine.line))
        (turns turn n s) (turns other n t) := by
  induction n generalizing lines s t with
  | zero => exact ⟨.nil, .none⟩
  | succ n ih =>
    obtain ⟨met, both⟩ := step lines s t h
    unfold path turns
    generalize turn s = a, other t = b at both ⊢
    cases both with
    | again further =>
      obtain ⟨later, answers⟩ := ih further
      simp only [List.flatMap_cons, List.flatMap_append]
      rw [List.append_assoc] at answers
      exact ⟨met.append later, answers⟩
    | done answer =>
      simp only [List.flatMap_cons, List.flatMap_nil, List.append_nil]
      exact ⟨met, .some answer⟩

namespace Machine

variable {m w : Machine} {log : Log TraceEntry} {lines : List TraceEntry}

/-- The machines at the turns of a run. -/
def passes (fuel : Nat) (o : RunOptions) (m : Machine) : List Machine :=
  if m.state = .ready then Loop.path turn fuel (m.arm o) else []

/-- Runs side by side that came out the same but for the trace. -/
structure RunOutcome.Paired (log : Log TraceEntry) (lines : List TraceEntry)
    (a b : RunOutcome) : Prop where
  result : b.result = a.result
  reported : b.reported = a.reported
  machine : a.machine.Paired log lines b.machine

theorem PairedIn.conclude {a b : Except Fault Unit × Machine} (h : PairedIn log lines a b)
    (snapshots : Bool) :
    (Machine.conclude snapshots a.1 a.2).Paired log lines
      (Machine.conclude snapshots b.1 b.2) := by
  obtain ⟨r, n, v, rfl, rfl, paired⟩ := h.split
  have report : v.report = n.report := by
    rw [paired.muted]
    rfl
  unfold Machine.conclude
  dsimp only
  by_cases wanted : (snapshots && !((Fault.ofResult? r).any Fault.isInterrupt)) = true
  · simp only [if_pos wanted, paired.snapshot, report]
    cases n.snapshot (Fault.ofResult? r) with
    | error f => exact ⟨rfl, rfl, paired⟩
    | ok picture =>
      refine ⟨rfl, rfl, paired.keep rfl rfl rfl ?_⟩
      rw [paired.muted]
      rfl
  · simp only [if_neg wanted, report]
    exact ⟨rfl, rfl, paired⟩

theorem Paired.arm (paired : m.Paired log lines w) (o : RunOptions) :
    (m.arm o).Paired log lines (w.arm o) := by
  rw [paired.muted]
  simp only [Machine.arm]
  cases o.gate with
  | none => exact paired.keep rfl rfl rfl rfl
  | some signals => exact paired.keep rfl rfl rfl rfl

theorem Paired.run (paired : m.Paired log lines w) (fuel : Nat) (o : RunOptions) :
    Traced log lines (m.passes fuel o) (w.passes fuel o) ∧
      Option.Rel (RunOutcome.Paired log (lines ++ (m.passes fuel o).flatMap line))
        (m.run fuel o) (w.run fuel o) := by
  unfold passes Machine.run
  rw [paired.state]
  by_cases ready : m.state = .ready
  · have alone : ∀ lines m w, m.Paired log lines w → Traced log lines [m] [w] ∧
        Turn.Rel (Paired log (lines ++ [m].flatMap line)) (PairedIn log (lines ++ [m].flatMap line))
          m.turn w.turn := by
      intro lines m w paired
      rw [List.flatMap_singleton]
      exact ⟨.cons paired .nil, paired.turn⟩
    obtain ⟨traced, driven⟩ := Loop.path_traced alone fuel (paired.arm o)
    rw [List.flatMap_singleton', List.flatMap_singleton'] at traced
    rw [List.flatMap_singleton'] at driven
    simp only [if_pos ready, drive]
    refine ⟨traced, ?_⟩
    generalize Loop.turns Machine.turn fuel (m.arm o) = this,
      Loop.turns Machine.turn fuel (w.arm o) = that at driven ⊢
    cases driven with
    | none => exact .none
    | some ended => exact .some (ended.conclude o.snapshots)
  · simp only [if_neg ready, List.flatMap_nil, List.append_nil]
    exact ⟨.nil, .some ⟨rfl, rfl, paired⟩⟩

end Machine
end TapeMachine
