import TapeMachine.Debugger.Basic
import TapeMachine.Proofs.Outcomes

/-! What a machine whose program is sound can come to in a step, a run, or an advance of a
debugger, whatever its streams, its guard and its gate do. Its index stays in the program and its
tape never shrinks; and what is raised is a report, the refusal of a step in a final state, or what
a stream raised itself. -/

namespace TapeMachine

/-- What an input raises at this read or at a later one. -/
inductive Input.Raises : Input → Cause → Prop
  | now {i : Input} {why : Cause} (raised : i.read.1 = .error why) : Raises i why
  | later {i : Input} {why : Cause} (raises : Raises i.read.2 why) : Raises i why

/-- What an output raises at this write or at a later one. -/
def Output.Raises (o : Output) (why : Cause) : Prop := ∃ n, o.calls ≤ n ∧ o.faultAt n = some why

def Config.Raises (c : Config) (why : Cause) : Prop := c.input.Raises why ∨ c.output.Raises why

theorem Input.rest_readSymbol (i : Input) (index : Int) : (i.readSymbol index).2 = i.read.2 := by
  unfold readSymbol
  obtain ⟨_ | (_ | ⟨b, bs⟩), rest⟩ := i.read
  · rfl
  · rfl
  · rfl

theorem Output.rest_writeSymbol (o : Output) (index : Int) (b : UInt8) :
    (o.writeSymbol index b).2 = (o.write b).2 := by
  unfold writeSymbol
  obtain ⟨_ | ⟨⟩, rest⟩ := o.write b
  · rfl
  · rfl

theorem Output.raises_of_write {o : Output} {b : UInt8} {why : Cause}
    (raises : (o.write b).2.Raises why) : o.Raises why := by
  obtain ⟨n, late, raised⟩ := raises
  unfold write at late raised
  cases now : o.faultAt o.calls with
  | some c =>
    rw [now] at late raised
    exact ⟨n, Nat.le_of_succ_le late, raised⟩
  | none =>
    rw [now] at late raised
    exact ⟨n, Nat.le_of_succ_le late, raised⟩

theorem Output.raises_of_error {o : Output} {b : UInt8} {why : Cause}
    (raised : (o.write b).1 = .error why) : o.Raises why := by
  unfold write at raised
  cases now : o.faultAt o.calls with
  | some c =>
    rw [now] at raised
    cases raised
    exact ⟨o.calls, Nat.le_refl _, now⟩
  | none =>
    rw [now] at raised
    cases raised

namespace Config

/-- A configuration that instructions may have made of another. -/
structure Leads (c d : Config) : Prop where
  tape : c.tape.length ≤ d.tape.length
  streams : ∀ why, d.Raises why → c.Raises why

variable {c d e : Config} {p : Program} {o : Op} {t : Option Int} {index : Int} {f : Fault}

theorem Leads.refl (c : Config) : c.Leads c := ⟨Nat.le_refl _, fun _ raises => raises⟩

theorem Leads.trans (h : c.Leads d) (h' : d.Leads e) : c.Leads e :=
  ⟨Nat.le_trans h.tape h'.tape, fun why raises => h.streams why (h'.streams why raises)⟩

theorem leads_jump (c : Config) (target : Option Int) : c.Leads (c.jump target) :=
  ⟨Nat.le_refl _, fun _ raises => raises⟩

theorem leads_perform (c : Config) (o : Op) (t : Option Int) (index : Int) :
    c.Leads (c.perform o t index).2 := by
  cases o with
  | moveRight => exact ⟨c.tape.length_moveRight, fun _ raises => raises⟩
  | increment | decrement => exact ⟨Nat.le_refl _, fun _ raises => raises⟩
  | moveLeft =>
    unfold perform moveLeft
    cases moved : c.tape.moveLeft? with
    | none => exact .refl c
    | some tape => exact ⟨Nat.le_of_eq (Tape.length_moveLeft? moved).symm, fun _ raises => raises⟩
  | loopStart =>
    rw [perform]
    by_cases zero : c.tape.cell = 0
    · rw [if_pos zero]
      exact leads_jump c t
    · rw [if_neg zero]
      exact .refl c
  | loopEnd =>
    rw [perform]
    by_cases zero : c.tape.cell = 0
    · rw [if_pos zero]
      exact .refl c
    · rw [if_neg zero]
      exact leads_jump c t
  | output =>
    refine ⟨Nat.le_refl _, ?_⟩
    intro why raises
    rcases raises with raises | raises
    · exact .inl raises
    · right
      refine @Output.raises_of_write c.output c.tape.cell why ?_
      rw [← Output.rest_writeSymbol c.output index]
      exact raises
  | input =>
    have rest := c.input.rest_readSymbol index
    unfold perform readSymbol
    generalize c.input.readSymbol index = answer at rest ⊢
    obtain ⟨result, input⟩ := answer
    cases rest
    cases result with
    | error f =>
      refine ⟨Nat.le_refl _, ?_⟩
      intro why raises
      rcases raises with raises | raises
      · exact .inl (.later raises)
      · exact .inr raises
    | ok b =>
      refine ⟨Nat.le_refl _, ?_⟩
      intro why raises
      rcases raises with raises | raises
      · exact .inl (.later raises)
      · exact .inr raises

theorem leads_tick {k : Nat} (ip : c.ip = some (k : Int))
    (found : p.instructions[k]? = some ⟨.op o, t⟩) : c.Leads (c.tick p).2 := by
  rw [tick_at ip found]
  exact (leads_jump c _).trans (leads_perform _ o t k)

end Config

namespace Machine

/-- A machine that requests may have made of another. -/
structure Later (m n : Machine) : Prop where
  safe : n.Safe
  program : n.program = m.program
  config : m.config.Leads n.config

/-- The faults that a machine `m` may come back with from a request that leaves it as `n`. -/
inductive Expects (m n : Machine) : Fault → Prop
  | report {r : Report} (kind : r.kind ≠ .compilation) : Expects m n (.report r)
  | final (state : n.state.isFinal = true) : Expects m n (.notReady n.state)
  | stream {why : Cause} (raised : m.config.Raises why)
      (other : why.kind.isStreamFailure = false) : Expects m n (.stream why)

/-- An answer in good order. -/
structure Orderly (m : Machine) (r : Except Fault Unit) (n : Machine) : Prop where
  later : m.Later n
  fault : ∀ f, r = .error f → m.Expects n f

variable {m n q : Machine} {r : Except Fault Unit} {f : Fault} {fuel : Nat} {o : RunOptions}

theorem Safe.later_of_config (safe : m.Safe) (program : n.program = m.program)
    (config : n.config = m.config) : m.Later n := by
  refine ⟨⟨?_, ?_⟩, program, ?_⟩
  · rw [program]
    exact safe.program
  · rw [program, config]
    exact safe.inside
  · rw [config]
    exact .refl _

theorem Later.trans (h : m.Later n) (h' : n.Later q) : m.Later q :=
  ⟨h'.safe, h'.program.trans h.program, h.config.trans h'.config⟩

theorem Later.orderly (h : m.Later n) : m.Orderly (.ok ()) n := ⟨h, fun _ failed => by cases failed⟩

/-- What is expected of a later machine is expected of an earlier one. -/
theorem Orderly.before (h : m.Later n) (h' : n.Orderly r q) : m.Orderly r q := by
  refine ⟨h.trans h'.later, ?_⟩
  intro f failed
  cases h'.fault f failed with
  | report kind => exact .report kind
  | final state => exact .final state
  | stream raised other => exact .stream (h.config.streams _ raised) other

theorem expects_cancellation (why : String) (ip : Option Int) :
    m.Expects n (Guard.cancellation why ip) := by
  refine .report ?_
  intro kind
  cases kind

/-- An instruction fails in a way that the machine expects. -/
theorem expects_breaks {k : Int} {o : Op} (breaks : m.config.Breaks k o f) : m.Expects n f := by
  cases breaks with
  | leftEnd first => exact .report nofun
  | unread raised trouble => exact .report nofun
  | exhausted nothing => exact .report nofun
  | readPassed raised other => exact .stream (.inl (.now raised)) other
  | unwritten raised trouble => exact .report nofun
  | writePassed raised other => exact .stream (.inr (Output.raises_of_error raised)) other

/-- A machine that has asked for leave, and then carried out its instruction, well or badly. -/
theorem Safe.ticked_later {k : Nat} {op : Op} {t : Option Int} {c : Config} (safe : m.Safe)
    (ip : m.ip = some (k : Int)) (found : m.program.instructions[k]? = some ⟨.op op, t⟩)
    (tick : m.config.tick m.program = (r, c)) : m.Later ((m.cleared.mark op k).withConfig c) := by
  have asked := m.asked_cleared
  have ticks : m.cleared.config.tick m.cleared.program = (r, c) := by
    rw [asked.config, asked.program]
    exact tick
  have running : m.running.Safe := ⟨safe.program, safe.inside⟩
  have ticked := (running.asked asked).ticked op k
  have leads := Config.leads_tick ip found
  rw [ticks] at ticked
  rw [tick] at leads
  exact ⟨ticked, asked.program, leads⟩

theorem Safe.step_orderly (safe : m.Safe) : m.Orderly m.step.1 m.step.2 := by
  cases live : m.state.isFinal with
  | true =>
    rw [step_final live]
    refine ⟨safe.later_of_config rfl rfl, ?_⟩
    intro g failed
    cases failed
    exact .final live
  | false =>
    have asked := m.asked_cleared
    have stepped := safe.stepped live
    generalize m.step = answer at stepped ⊢
    cases stepped with
    | finished =>
      have completed : m.Later m.complete := safe.later_of_config rfl rfl
      exact completed.orderly
    | @refused why told =>
      refine ⟨safe.later_of_config asked.program asked.config, ?_⟩
      intro g failed
      cases failed
      exact expects_cancellation why m.ip
    | @failed k o t f c told ip found tick =>
      have ticked : m.Later ((m.cleared.mark o k).withConfig c) := safe.ticked_later ip found tick
      refine ⟨ticked.trans (ticked.safe.later_of_config rfl rfl), ?_⟩
      intro g failed
      cases failed
      exact expects_breaks (Config.tick_breaks ip found tick)
    | @executed k o t c told ip found tick =>
      have ticked : m.Later ((m.cleared.mark o k).withConfig c) := safe.ticked_later ip found tick
      exact (ticked.trans
        (ticked.safe.later_of_config (counted_program _) (counted_config _))).orderly

/-! ## Runs -/

theorem Safe.turn_keeps (safe : m.Safe) :
    m.turn.Keeps m.Later fun answer => m.Orderly answer.1 answer.2 := by
  cases more : m.more with
  | false =>
    have completed : m.Later m.complete := safe.later_of_config rfl rfl
    rw [turn_over safe more]
    exact .done completed.orderly
  | true =>
    have orderly := safe.step_orderly
    rw [turn_step safe more]
    generalize m.step = answer at orderly ⊢
    obtain ⟨_ | ⟨⟩, n⟩ := answer
    · exact .done orderly
    · exact .again orderly.later

/-- A turn keeps a machine in good order with one that it comes from. -/
theorem Later.turn_keeps (h : m.Later n) :
    n.turn.Keeps m.Later fun answer => m.Orderly answer.1 answer.2 := by
  have kept := h.safe.turn_keeps
  generalize n.turn = taken at kept ⊢
  cases kept with
  | again further => exact .again (h.trans further)
  | done orderly => exact .done (orderly.before h)

theorem Safe.arm_later (safe : m.Safe) (o : RunOptions) : m.Later (m.arm o) := by
  unfold arm
  cases o.gate with
  | none => exact safe.later_of_config rfl rfl
  | some signals => exact safe.later_of_config rfl rfl

theorem Orderly.conclude (h : m.Orderly r n) (snapshots : Bool) :
    m.Orderly (Machine.conclude snapshots r n).result (Machine.conclude snapshots r n).machine := by
  unfold Machine.conclude
  by_cases wanted : (snapshots && !((Fault.ofResult? r).any Fault.isInterrupt)) = true
  · rw [if_pos wanted, h.later.safe.snapshot]
    refine ⟨h.later.trans (h.later.safe.later_of_config rfl rfl), ?_⟩
    intro f failed
    cases h.fault f failed with
    | report kind => exact .report kind
    | final state => exact .final state
    | stream raised other => exact .stream raised other
  · rw [if_neg wanted]
    exact h

theorem Safe.run_orderly (safe : m.Safe) (ready : m.state = .ready) {outcome : RunOutcome}
    (ran : m.run fuel o = some outcome) : m.Orderly outcome.result outcome.machine := by
  rw [run, if_pos ready, drive, Option.map_eq_some_iff] at ran
  obtain ⟨⟨r, n⟩, ended, rfl⟩ := ran
  have orderly := Loop.turns_keeps (fun _ => Later.turn_keeps) (safe.arm_later o) ended
  exact orderly.conclude o.snapshots

end Machine

/-! ## Debuggers -/

namespace Debugger

/-- An answer of a debugger in good order. -/
structure Orderly (d : Debugger) (r : Except Fault Snapshot) (d' : Debugger) : Prop where
  later : d.machine.Later d'.machine
  fault : ∀ f, r = .error f → d.machine.Expects d'.machine f

variable {d d' : Debugger} {r : Except Fault Snapshot} {fuel : Nat}

theorem expired_later (safe : d.machine.Safe) :
    d.machine.Later d.expired.2.machine := by
  unfold expired
  cases d.deadline with
  | none => exact safe.later_of_config rfl rfl
  | some deadline => exact safe.later_of_config rfl rfl

theorem machine_afterFault (d : Debugger) (f : Fault) : (d.afterFault f).machine = d.machine := by
  unfold afterFault
  by_cases interrupted : f.isInterrupt = true
  · rw [if_pos interrupted]
  · rw [if_neg interrupted]

theorem stepOnce_orderly (safe : d.machine.Safe) : d.Orderly d.stepOnce.1 d.stepOnce.2 := by
  have orderly := safe.step_orderly
  unfold stepOnce
  generalize d.machine.step = answer at orderly ⊢
  obtain ⟨f | ⟨⟩, n⟩ := answer
  · have kept := machine_afterFault { d with machine := n, state := .running } f
    refine ⟨?_, ?_⟩
    · rw [kept]
      exact orderly.later
    · intro g failed
      cases failed
      rw [kept]
      exact orderly.fault f rfl
  · have told := orderly.later.safe.hasNext
    have shown := orderly.later.safe.snapshot none
    simp only [told, shown]
    exact ⟨orderly.later, fun _ failed => by cases failed⟩

theorem cancel_later (safe : d.machine.Safe) : d.machine.Later d.cancel.machine := by
  unfold cancel
  by_cases finished : d.finished = true
  · rw [if_pos finished]
    exact safe.later_of_config rfl rfl
  · rw [if_neg finished]
    exact safe.later_of_config rfl rfl

theorem expire_orderly (safe : d.machine.Safe) : d.Orderly (.error d.expire.1) d.expire.2 := by
  obtain ⟨k, ip, _⟩ := safe.inside
  have ip : d.machine.ip = some (k : Int) := ip
  simp only [expire, Machine.current, ip]
  refine ⟨cancel_later safe, ?_⟩
  intro g failed
  cases failed
  exact Machine.expects_cancellation _ _

theorem Orderly.before (h : d.machine.Later d'.machine) {e : Debugger} (h' : d'.Orderly r e) :
    d.Orderly r e := by
  refine ⟨h.trans h'.later, ?_⟩
  intro f failed
  have answer : d'.machine.Orderly (.error f) e.machine :=
    ⟨h'.later, fun g same => by cases same; exact h'.fault f failed⟩
  exact (answer.before h).fault f rfl

theorem advance_orderly (safe : d.machine.Safe) (waiting : d.state = .waiting) :
    d.Orderly d.advance.1 d.advance.2 := by
  have later := expired_later safe
  unfold advance
  rw [if_pos waiting]
  generalize d.expired = answer at later ⊢
  obtain ⟨late, e⟩ := answer
  cases late with
  | true => exact (expire_orderly later.safe).before later
  | false => exact (stepOnce_orderly later.safe).before later

theorem turn_keeps (h : d.machine.Later d'.machine) :
    d'.turn.Keeps (fun e => d.machine.Later e.machine) fun answer =>
      d.Orderly answer.1 answer.2 := by
  unfold turn
  by_cases waiting : d'.state = .waiting
  · rw [if_pos waiting]
    have orderly := (advance_orderly h.safe waiting).before h
    generalize d'.advance = answer at orderly ⊢
    obtain ⟨f | shot, e⟩ := answer
    · exact .done orderly
    · exact .again orderly.later
  · rw [if_neg waiting]
    refine .done ⟨h, ?_⟩
    intro f failed
    have shown := h.safe.snapshot none
    simp only [snapshot, shown] at failed
    cases failed

theorem runToEnd_orderly (safe : d.machine.Safe) (ran : d.runToEnd fuel = some (r, d')) :
    d.Orderly r d' :=
  Loop.turns_keeps (fun _ => turn_keeps) (safe.later_of_config rfl rfl) ran

end Debugger
end TapeMachine
