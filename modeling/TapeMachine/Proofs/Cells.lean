import TapeMachine.Proofs.Lifecycle

/-! What the cells of a tape hold, told from what was executed: each cell from the last byte that
was read into it and from the increments and decrements made on it since, and the number of cells
from how far the pointer has come. -/

namespace TapeMachine

/-- An instruction that was executed: what it did, where the pointer was, and what the stream
delivered if it read. -/
structure Deed where
  op : Op
  pointer : Nat
  delivered : List UInt8 := []
  deriving DecidableEq, Repr

namespace Deed

def isAt (d : Deed) (o : Op) (j : Nat) : Bool := d.op = o && d.pointer = j

/-- The increments made on a cell, less the decrements. -/
def gain (deeds : List Deed) (j : Nat) : Int :=
  (deeds.countP (·.isAt .increment j) : Int) - deeds.countP (·.isAt .decrement j)

/-- How far the pointer has come that is at `last` after the deeds. -/
def farthest (deeds : List Deed) (last : Nat) : Nat := (deeds.map (·.pointer)).foldr max last

end Deed

/-- What a cell holds, with zero cells right of the tape. -/
def Tape.value (t : Tape) (j : Nat) : UInt8 := t.cells.getD j 0

/-- The tape `t` is what the deeds have made of the tape `start`. -/
structure Tape.Accounted (start : Tape) (deeds : List Deed) (t : Tape) : Prop where
  length : t.cells.length = max start.cells.length (1 + Deed.farthest deeds t.pointer)
  /-- A cell that nothing was read into. -/
  unread : ∀ j, (∀ d ∈ deeds, d.isAt .input j = false) →
    ((t.value j).toNat : Int) = ((start.value j).toNat + Deed.gain deeds j) % 256
  /-- A cell that something was read into, the last time by the deed `d`. -/
  read : ∀ j before d after, deeds = before ++ d :: after → d.isAt .input j = true →
    (∀ e ∈ after, e.isAt .input j = false) →
    ∃ b rest, d.delivered = b :: rest ∧
      ((t.value j).toNat : Int) = (b.toNat + Deed.gain after j) % 256
  /-- A cell that the pointer was never at. -/
  untouched : ∀ j, (∀ d ∈ deeds, d.pointer ≠ j) → t.value j = start.value j

namespace Config

/-- What the stream delivers to an operation, if it reads. -/
def delivered (c : Config) (o : Op) : List UInt8 :=
  match o, c.input.read.1 with
  | .input, .ok bytes => bytes
  | _, _ => []

/-- What an operation does that is carried out. -/
def deed (c : Config) (o : Op) : Deed := ⟨o, c.tape.pointer, c.delivered o⟩

end Config

namespace Machine

/-- What the machine does if the instruction at its index is executed. -/
def deed? (m : Machine) : Option Deed :=
  match m.ip with
  | none => none
  | some i =>
    match m.program.get i with
    | .ok ⟨.op o, _⟩ => some (m.config.deed o)
    | _ => none

/-- What a run executes in so many turns, unless it ends before. -/
def deeds : Nat → Machine → List Deed
  | 0, _ => []
  | n + 1, m =>
    match m.turn with
    | .again m' => m.deed?.toList ++ deeds n m'
    | .done _ => []

end Machine

/-! ## One cell -/

namespace Deed

/-- What a deed makes of what a cell holds. -/
def effect (d : Deed) (j : Nat) (v : UInt8) : UInt8 :=
  if d.pointer = j then
    match d.op with
    | .increment => v + 1
    | .decrement => v - 1
    | .input => d.delivered.headD 0
    | _ => v
  else v

/-- What deeds make of what a cell holds. -/
def total (deeds : List Deed) (j : Nat) (v : UInt8) : UInt8 :=
  deeds.foldl (fun v d => d.effect j v) v

variable {deeds : List Deed} {d : Deed} {j : Nat}

theorem effect_elsewhere (away : d.pointer ≠ j) (v : UInt8) : d.effect j v = v := if_neg away

theorem effect_read (reads : d.isAt .input j = true) (v : UInt8) :
    d.effect j v = d.delivered.headD 0 := by
  obtain ⟨op, there⟩ : d.op = .input ∧ d.pointer = j := by simpa [isAt] using reads
  simp [effect, op, there]

/-- A deed that is no read changes a cell by what the cell gains. -/
theorem effect_unread (unread : d.isAt .input j = false) (v : UInt8) :
    ((d.effect j v).toNat : Int) = (v.toNat + gain [d] j) % 256 := by
  obtain ⟨op, pointer, delivered⟩ := d
  have small := v.toNat_lt
  by_cases there : pointer = j
  · subst there
    cases op with
    | increment => simp [effect, gain, isAt, UInt8.toNat_add]
    | decrement =>
      simp [effect, gain, isAt, UInt8.toNat_sub]
      omega
    | input => simp [isAt] at unread
    | moveRight | moveLeft | loopStart | loopEnd | output =>
      simp [effect, gain, isAt]
      omega
  · simp [effect, gain, isAt, there]
    omega

theorem gain_cons (d : Deed) (deeds : List Deed) (j : Nat) :
    gain (d :: deeds) j = gain [d] j + gain deeds j := by
  simp only [gain, List.countP_cons, List.countP_nil]
  omega

theorem total_unread (unread : ∀ d ∈ deeds, d.isAt .input j = false) (v : UInt8) :
    ((total deeds j v).toNat : Int) = (v.toNat + gain deeds j) % 256 := by
  induction deeds generalizing v with
  | nil =>
    have small := v.toNat_lt
    simp [total, gain]
    omega
  | cons d deeds ih =>
    have first := effect_unread (unread d (List.mem_cons_self ..)) v
    have others := ih (fun e mem => unread e (List.mem_cons_of_mem d mem)) (d.effect j v)
    rw [first] at others
    rw [gain_cons]
    change ((total deeds j (d.effect j v)).toNat : Int) = _
    omega

theorem total_elsewhere (away : ∀ d ∈ deeds, d.pointer ≠ j) (v : UInt8) :
    total deeds j v = v := by
  induction deeds with
  | nil => rfl
  | cons d deeds ih =>
    change total deeds j (d.effect j v) = v
    rw [effect_elsewhere (away d (List.mem_cons_self ..))]
    exact ih fun e mem => away e (List.mem_cons_of_mem d mem)

theorem total_append (front back : List Deed) (j : Nat) (v : UInt8) :
    total (front ++ back) j v = total back j (total front j v) := List.foldl_append

end Deed

theorem Tape.value_write (t : Tape) (b : UInt8) (j : Nat) :
    (t.write b).value j = if t.pointer = j then b else t.value j := by
  have inside := t.pointer_lt
  simp only [value, cells_write, List.getD_eq_getElem?_getD, List.getElem?_set]
  by_cases here : t.pointer = j
  · subst here
    simp [inside]
  · simp [here]

theorem Tape.value_pointer (t : Tape) : t.value t.pointer = t.cell := by
  rw [value, List.getD_eq_getElem?_getD, t.cells_pointer]
  rfl

/-- A cell is appended with nothing in it. -/
theorem Tape.value_moveRight (t : Tape) (j : Nat) : t.moveRight.value j = t.value j := by
  rw [value, value, cells_moveRight]
  split
  · simp only [List.getD_eq_getElem?_getD]
    rcases Nat.lt_or_ge j t.cells.length with inside | outside
    · rw [List.getElem?_append_left inside]
    · rw [List.getElem?_append_right outside, List.getElem?_eq_none outside]
      cases j - t.cells.length <;> rfl
  · rfl

/-- A tape is as long as it was, or as it has to be for the pointer. -/
theorem Tape.length_moveRight_eq (t : Tape) :
    t.moveRight.length = max t.length (1 + t.moveRight.pointer) := by
  obtain ⟨left, cell, right, before, after, rfl, rfl⟩ := t
  cases right with
  | nil => simp [moveRight, length, pointer]; omega
  | cons c right => simp [moveRight, length, pointer]; omega

namespace Config

variable {c d : Config} {o : Op} {t : Option Int} {index : Int}

/-- What comes of an operation that is carried out: the cells change as the deed says, the tape is
as long as the pointer needs it, and a read was delivered something. -/
structure Acts (c : Config) (o : Op) (d : Config) : Prop where
  value : ∀ j, d.tape.value j = (c.deed o).effect j (c.tape.value j)
  length : d.tape.length = max c.tape.length (1 + d.tape.pointer)
  grown : d.tape.length = c.tape.length ∨ d.tape.cells = c.tape.cells ++ [0]
  delivered : o = .input → ∃ b rest, c.delivered .input = b :: rest

/-- A tape on which one cell was written. -/
theorem acts_write {b : UInt8} (written : d.tape = c.tape.write b)
    (effect : (c.deed o).effect c.tape.pointer c.tape.cell = b)
    (delivered : o = .input → ∃ b rest, c.delivered .input = b :: rest) : c.Acts o d := by
  have same : d.tape.length = c.tape.length := by
    rw [written]
    rfl
  refine ⟨?_, ?_, .inl same, delivered⟩
  · intro j
    rw [written, Tape.value_write]
    by_cases here : c.tape.pointer = j
    · subst here
      rw [if_pos rfl, Tape.value_pointer, effect]
    · rw [if_neg here, Deed.effect_elsewhere here]
  · have inside := c.tape.pointer_lt
    rw [← Tape.length_eq] at inside
    rw [same, written, Tape.pointer_write]
    omega

theorem perform_acts (done : c.perform o t index = (.ok (), d)) : c.Acts o d := by
  -- an operation that leaves the cell as it is writes it again
  have kept : d.tape = c.tape → (∀ j v, (c.deed o).effect j v = v) → o ≠ .input → c.Acts o d := by
    intro same still unread
    exact acts_write (b := c.tape.cell) same (still _ _) fun reads => absurd reads unread
  cases o with
  | moveRight =>
    cases done
    refine ⟨?_, c.tape.length_moveRight_eq, ?_, nofun⟩
    · intro j
      rw [Deed.effect]
      split <;> exact c.tape.value_moveRight j
    · rw [Tape.length_eq, Tape.length_eq, Tape.cells_moveRight]
      split
      · exact .inr rfl
      · exact .inl rfl
  | moveLeft =>
    unfold perform moveLeft at done
    cases moved : c.tape.moveLeft? with
    | none =>
      rw [moved] at done
      cases done
    | some tape =>
      rw [moved] at done
      cases done
      have same : tape.length = c.tape.length := Tape.length_moveLeft? moved
      obtain ⟨cells, pointer⟩ := Tape.cells_moveLeft? moved
      have inside := c.tape.pointer_lt
      rw [← Tape.length_eq] at inside
      refine ⟨?_, ?_, .inl same, nofun⟩
      · intro j
        rw [Tape.value, Tape.value, cells, Deed.effect]
        split <;> rfl
      · change tape.length = max c.tape.length (1 + tape.pointer)
        omega
  | increment =>
    cases done
    exact acts_write rfl (if_pos rfl) nofun
  | decrement =>
    cases done
    exact acts_write rfl (if_pos rfl) nofun
  | loopStart | loopEnd =>
    cases done
    refine kept ?_ ?_ nofun
    · split <;> rfl
    · intro j v
      exact ite_self v
  | output =>
    unfold perform writeSymbol at done
    obtain ⟨_, rfl⟩ := Prod.mk.inj done
    refine kept rfl ?_ nofun
    intro j v
    exact ite_self v
  | input =>
    unfold perform readSymbol Input.readSymbol at done
    rcases read : c.input.read with ⟨_ | _ | ⟨b, rest⟩, input⟩
    · rw [read] at done
      cases done
    · rw [read] at done
      cases done
    · rw [read] at done
      cases done
      have delivered : c.delivered .input = b :: rest := by simp only [Config.delivered, read]
      refine acts_write rfl ?_ fun _ => ⟨b, rest, delivered⟩
      simp [Deed.effect, deed, delivered]

end Config

namespace Machine

variable {m n s e : Machine} {k i : Nat} {o : Op} {t : Option Int} {r : Except Fault Unit}

theorem Executes.deed? (executed : m.Executes n k o t) : m.deed? = some (m.config.deed o) := by
  have ip := executed.ip
  have get := Program.get_of_instruction executed.found
  simp only [Machine.deed?, ip, get]

theorem Executes.acts (executed : m.Executes n k o t) : m.config.Acts o n.config := by
  have tick := executed.tick
  rw [Config.tick_at executed.ip executed.found] at tick
  -- where the next instruction is does not matter to the tape
  obtain ⟨value, length, grown, delivered⟩ := Config.perform_acts tick
  exact ⟨value, length, grown, delivered⟩

theorem deeds_succ (turned : m.turn = .again n) (executed : m.Executes n k o t) :
    deeds (i + 1) m = m.config.deed o :: deeds i n := by
  rw [deeds, turned, executed.deed?]
  rfl

/-- What so many turns have made of the tape. -/
structure Done (m : Machine) (deeds : List Deed) (s : Machine) : Prop where
  value : ∀ j, s.config.tape.value j = Deed.total deeds j (m.config.tape.value j)
  length : s.config.tape.length =
    max m.config.tape.length (1 + Deed.farthest deeds s.config.tape.pointer)
  reached : m.config.tape.pointer ≤ Deed.farthest deeds s.config.tape.pointer
  delivered : ∀ d ∈ deeds, d.op = .input → ∃ b rest, d.delivered = b :: rest

theorem Done.start (m : Machine) : m.Done [] m := by
  have inside := m.config.tape.pointer_lt
  rw [← Tape.length_eq] at inside
  refine ⟨fun j => rfl, ?_, Nat.le_refl _, nofun⟩
  change m.config.tape.length = max m.config.tape.length (1 + m.config.tape.pointer)
  omega

/-- One deed more, in front of the others. -/
theorem Done.after {deeds : List Deed} (acts : m.config.Acts o n.config) (done : n.Done deeds s) :
    m.Done (m.config.deed o :: deeds) s := by
  have front : Deed.farthest (m.config.deed o :: deeds) s.config.tape.pointer =
      max m.config.tape.pointer (Deed.farthest deeds s.config.tape.pointer) := rfl
  have inside := m.config.tape.pointer_lt
  rw [← Tape.length_eq] at inside
  have reached := done.reached
  refine ⟨?_, ?_, ?_, ?_⟩
  · intro j
    rw [done.value, acts.value]
    rfl
  · rw [done.length, acts.length, front]
    omega
  · rw [front]
    omega
  · intro d mem reads
    rcases List.mem_cons.mp mem with rfl | mem
    · have reads : o = .input := reads
      subst reads
      exact acts.delivered rfl
    · exact done.delivered d mem reads

theorem Safe.done_deeds (safe : m.Safe) (reached : Loop.after turn i m = some s) :
    m.Done (deeds i m) s ∧ (deeds i m).length = i := by
  induction i generalizing m with
  | zero =>
    cases reached
    exact ⟨.start s, rfl⟩
  | succ i ih =>
    unfold Loop.after at reached
    cases turned : m.turn with
    | done =>
      rw [turned] at reached
      cases reached
    | again n =>
      rw [turned] at reached
      obtain ⟨k, o, t, executed⟩ := safe.turn_executes turned
      obtain ⟨done, length⟩ := ih executed.safe reached
      rw [deeds_succ turned executed]
      exact ⟨done.after executed.acts, congrArg (· + 1) length⟩

theorem Done.accounted {deeds : List Deed} (done : m.Done deeds s) :
    m.config.tape.Accounted deeds s.config.tape := by
  refine ⟨?_, ?_, ?_, ?_⟩
  · rw [← Tape.length_eq, ← Tape.length_eq]
    exact done.length
  · intro j unread
    rw [done.value, Deed.total_unread unread]
  · intro j before d after split reads last
    have input : d.op = .input := by
      have both := reads
      simp [Deed.isAt] at both
      exact both.1
    obtain ⟨b, rest, delivered⟩ := done.delivered d (by simp [split]) input
    refine ⟨b, rest, delivered, ?_⟩
    have first := Deed.effect_read reads (Deed.total before j (m.config.tape.value j))
    rw [delivered] at first
    rw [done.value, split, Deed.total_append]
    change ((Deed.total after j (d.effect j _)).toNat : Int) = _
    rw [first, Deed.total_unread last]
    rfl
  · intro j away
    rw [done.value, Deed.total_elsewhere away]

/-- In any run of a compiled program, whatever watches over it, the tape is after so many
instructions what they have made of it: each cell holds the last byte that was read into it, or what
it held at the start, with the increments and decrements made on it since counted modulo 256; and
the tape is as long as at the start, or as long as the farthest cell that the pointer was at needs
it. Each instruction leaves the tape as long as it was, or appends a zero to it. The turn that ends
the run changes nothing of this. -/
theorem cells_accounted_for {source : Source} (compiled : compile source = .ok m.program)
    (inside : m.config.Inside m.program) (o : RunOptions)
    (reached : Loop.after turn i (m.arm o) = some s) :
    (deeds i (m.arm o)).length = i ∧ s.steps = m.steps + i ∧
      m.config.tape.Accounted (deeds i (m.arm o)) s.config.tape ∧
      (∀ n, s.turn = .again n → n.config.tape.length = s.config.tape.length ∨
        n.config.tape.cells = s.config.tape.cells ++ [0]) ∧
      ∀ r e, s.turn = .done (r, e) →
        e.config.tape = s.config.tape ∧ e.steps = s.steps := by
  have safe : m.Safe := ⟨compile_sound compiled, inside⟩
  have armed := (safe.arm_later o).safe
  have unmoved := m.arm_unmoved o
  obtain ⟨done, length⟩ := armed.done_deeds reached
  obtain ⟨safe', _, steps⟩ := armed.after_turns reached
  refine ⟨length, ?_, ?_, ?_, ?_⟩
  · rw [steps, unmoved.steps]
  · rw [← unmoved.config]
    exact done.accounted
  · intro n turned
    obtain ⟨k, op, t, executed⟩ := safe'.turn_executes turned
    exact executed.acts.grown
  · intro r e turned
    exact safe'.turn_ends turned

/-- A byte is read into a cell that was incremented before, and decremented below zero; and the
pointer walks off the tape. -/
theorem overwritten_cell_accounted_for :
    ∃ m s : Machine, compile (.text "+,-->") = .ok m.program ∧ m.config.Inside m.program ∧
      Loop.after turn 5 (m.arm {}) = some s ∧ s.config.tape.cells = [0xFF, 0] ∧
      m.config.tape.Accounted
        [⟨.increment, 0, []⟩, ⟨.input, 0, [1]⟩, ⟨.decrement, 0, []⟩, ⟨.decrement, 0, []⟩,
          ⟨.moveRight, 0, []⟩] s.config.tape := by
  obtain ⟨p, compiled⟩ : ∃ p, compile (.text "+,-->") = .ok p := ⟨_, rfl⟩
  let m : Machine := onTape p (.split [] 7 []) (.ofBytes [1]) .reliable
  have inside : m.config.Inside m.program := ⟨0, rfl, Nat.zero_le _⟩
  obtain ⟨s, reached, cells, did⟩ : ∃ s, Loop.after turn 5 (m.arm {}) = some s ∧
      s.config.tape.cells = [0xFF, 0] ∧ deeds 5 (m.arm {}) =
        [⟨.increment, 0, []⟩, ⟨.input, 0, [1]⟩, ⟨.decrement, 0, []⟩, ⟨.decrement, 0, []⟩,
          ⟨.moveRight, 0, []⟩] := by
    cases compiled
    exact ⟨_, rfl, by decide +kernel, by decide +kernel⟩
  obtain ⟨_, _, accounted, _⟩ := @cells_accounted_for m s 5 _ compiled inside {} reached
  rw [did] at accounted
  exact ⟨m, s, compiled, inside, reached, cells, accounted⟩

end Machine
end TapeMachine
