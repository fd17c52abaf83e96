import TapeMachine.Proofs.Places

/-! What a program holds, told from the changes that were asked of it and from their answers. Each
emit that succeeds adds one entry behind the others, for good; of an entry only the target can
change, and it is the one that was last given. A frozen program refuses every change. -/

namespace TapeMachine

/-- A change asked of a program. -/
inductive Change where
  | emit (instruction : Instruction) (location : Option Location)
  | patch (index : Int) (target : Option Int)
  | freeze
  deriving DecidableEq, Repr

/-- A change that was asked, with the length of the program at that time and its answer. Only an
emit is answered with an index. -/
structure Event where
  change : Change
  length : Nat
  answer : Except Fault (Option Nat)

namespace Event

/-- The entry that a successful emit asked for. -/
def added? : Event → Option Entry
  | ⟨.emit instruction location, _, .ok _⟩ => some ⟨instruction, location⟩
  | _ => none

/-- The index that a successful emit was answered with. -/
def index? (e : Event) : Option Nat := e.answer.toOption.join

/-- The target that a successful patch gave to the instruction at `k`, which it addressed directly
or counted from the end as it was then. -/
def target? (k : Nat) : Event → Option (Option Int)
  | ⟨.patch index target, length, .ok _⟩ =>
    if index = k ∨ index < 0 ∧ index + length = k then some target else none
  | _ => none

end Event

/-- The entries that successful emits asked for, in order. -/
def emitted (events : List Event) : List Entry := events.filterMap Event.added?

/-- The targets that successful patches gave to the instruction at `k`, in order. -/
def retargeted (events : List Event) (k : Nat) : List (Option Int) :=
  events.filterMap (Event.target? k)

/-- The target of the instruction at `k`: the one last given, or that of its emit if none was. -/
def targetAfter (events : List Event) (k : Nat) (e : Entry) : Option Int :=
  (retargeted events k).getLast?.getD e.instruction.target

namespace Program

/-- Makes a change, unless it is refused. -/
def change (p : Program) : Change → Except Fault (Option Nat) × Program
  | .emit instruction location =>
    let (r, p) := p.emit instruction location
    (r.map some, p)
  | .patch index target =>
    let (r, p) := p.patch index target
    (r.map fun _ => none, p)
  | .freeze => (.ok none, p.freeze)

/-- Makes changes one after the other, whatever each is answered. -/
def changeAll : Program → List Change → List Event × Program
  | p, [] => ([], p)
  | p, c :: cs =>
    let (answer, q) := p.change c
    let (events, r) := q.changeAll cs
    (⟨c, p.length, answer⟩ :: events, r)

/-- All that can come of a change. -/
inductive Changes (p : Program) : Change → Except Fault (Option Nat) × Program → Prop
  | emitted (growing : p.frozen = false) (instruction : Instruction) (location : Option Location) :
      Changes p (.emit instruction location)
        (.ok (some p.length), ⟨p.entries.push ⟨instruction, location⟩, false⟩)
  | patched {index : Int} {k : Nat} (growing : p.frozen = false)
      (found : p.position? index = some k) (target : Option Int) :
      Changes p (.patch index target)
        (.ok none, ⟨p.entries.modify k fun e => e.retarget target, false⟩)
  | missed {index : Int} (growing : p.frozen = false) (absent : p.position? index = none)
      (target : Option Int) : Changes p (.patch index target) (.error (p.outside index), p)
  | refused {c : Change} (frozen : p.frozen = true) (other : c ≠ .freeze) :
      Changes p c (.error .programFrozen, p)
  | froze : Changes p .freeze (.ok none, p.freeze)

/-- A program that holds what events tell. -/
structure Tells (events : List Event) (p : Program) : Prop where
  entries : p.entries.toList =
    (emitted events).mapIdx fun k e => e.retarget (targetAfter events k e)
  indices : events.filterMap Event.index? = List.range p.length
  frozen : p.frozen = true ↔ .freeze ∈ events.map Event.change
  /-- No patch has reached an instruction before it was emitted. -/
  unreached : ∀ k, p.length ≤ k → retargeted events k = []

variable {p q : Program} {events : List Event} {e : Event} {index : Int} {k : Nat}

/-! ## One change -/

/-- An index stands for the position that it is, or that it comes to when counted from the end. -/
theorem position?_eq_some_iff :
    p.position? index = some k ↔
      k < p.length ∧ (index = k ∨ index < 0 ∧ index + p.length = k) := by
  unfold position?
  grind

theorem position?_eq_none_iff :
    p.position? index = none ↔ ¬ (-p.length ≤ index ∧ index < p.length) := by
  unfold position?
  grind

theorem outside_name (p : Program) (index : Int) : (p.outside index).name = "IndexError" := by
  unfold outside
  split <;> rfl

theorem change_changes (p : Program) (c : Change) : p.Changes c (p.change c) := by
  cases frozen : p.frozen with
  | true =>
    cases c with
    | emit instruction location =>
      rw [change, emit_frozen frozen]
      exact .refused frozen nofun
    | patch index target =>
      rw [change, patch_frozen frozen]
      exact .refused frozen nofun
    | freeze => exact .froze
  | false =>
    cases c with
    | emit instruction location =>
      rw [change, emit_growing frozen]
      exact .emitted frozen instruction location
    | patch index target =>
      cases found : p.position? index with
      | none =>
        have patched : p.patch index target = (.error (p.outside index), p) := by
          simp [patch, frozen, found]
        rw [change, patched]
        exact .missed frozen found target
      | some k =>
        have patched : p.patch index target =
            (.ok (), ⟨p.entries.modify k fun e => e.retarget target, false⟩) := by
          simp [patch, frozen, found]
        rw [change, patched]
        exact .patched frozen found target
    | freeze => exact .froze

/-! ## What events tell -/

theorem emitted_concat (events : List Event) (e : Event) :
    emitted (events ++ [e]) = emitted events ++ e.added?.toList := by
  rw [emitted, List.filterMap_append]
  cases told : e.added? <;> simp [emitted, told]

theorem retargeted_concat (events : List Event) (e : Event) (k : Nat) :
    retargeted (events ++ [e]) k = retargeted events k ++ (e.target? k).toList := by
  rw [retargeted, List.filterMap_append]
  cases told : e.target? k <;> simp [retargeted, told]

theorem tells_empty : Tells [] empty :=
  ⟨rfl, rfl, by simp [empty], fun _ _ => rfl⟩

/-- There are as many entries as emits have succeeded. -/
theorem Tells.count (h : Tells events p) : (emitted events).length = p.length := by
  have length := congrArg List.length h.entries
  rw [List.length_mapIdx] at length
  exact length.symm

theorem targetAfter_concat (events : List Event) (e : Event) (k : Nat) (entry : Entry) :
    targetAfter (events ++ [e]) k entry = (e.target? k).getD (targetAfter events k entry) := by
  rw [targetAfter, retargeted_concat]
  cases e.target? k with
  | none => rw [Option.toList_none, List.append_nil]; rfl
  | some target => rw [Option.toList_some, List.getLast?_concat]; rfl

/-- A change after which the entries are the same, as its event tells. -/
theorem Tells.silent (h : Tells events p) (same : q.entries = p.entries) (entry : e.added? = none)
    (target : ∀ k, e.target? k = none) (index : e.index? = none)
    (frozen : q.frozen = true ↔ p.frozen = true ∨ e.change = .freeze) :
    Tells (events ++ [e]) q := by
  have length : q.length = p.length := congrArg Array.size same
  refine ⟨?_, ?_, ?_, ?_⟩
  · rw [same, h.entries, emitted_concat, entry, Option.toList_none, List.append_nil]
    simp only [targetAfter_concat, target, Option.getD_none]
  · rw [List.filterMap_append, h.indices, length]
    simp [index]
  · rw [frozen, h.frozen, List.map_append, List.mem_append, List.map_singleton,
      List.mem_singleton, eq_comm (a := Change.freeze)]
  · intro k behind
    rw [retargeted_concat, target, h.unreached k (length ▸ behind)]
    rfl

/-- An emit that succeeds adds its entry, which no patch has reached yet. -/
theorem Tells.emitted (h : Tells events p) (growing : p.frozen = false) (instruction : Instruction)
    (location : Option Location) :
    Tells (events ++ [⟨.emit instruction location, p.length, .ok (some p.length)⟩])
      ⟨p.entries.push ⟨instruction, location⟩, false⟩ := by
  have kept (k : Nat) (entry : Entry) : targetAfter
      (events ++ [⟨.emit instruction location, p.length, .ok (some p.length)⟩]) k entry =
      targetAfter events k entry := targetAfter_concat _ _ _ _
  have longer : length ⟨p.entries.push ⟨instruction, location⟩, false⟩ = p.length + 1 :=
    Array.size_push _
  refine ⟨?_, ?_, ?_, ?_⟩
  · have fresh : targetAfter events p.length ⟨instruction, location⟩ = instruction.target := by
      rw [targetAfter, h.unreached p.length (Nat.le_refl _)]
      rfl
    rw [Array.toList_push, h.entries, emitted_concat, Event.added?, Option.toList_some,
      List.mapIdx_concat, h.count]
    simp only [kept, fresh]
    rfl
  · rw [List.filterMap_append, h.indices, longer, List.range_succ]
    rfl
  · have before := h.frozen
    rw [growing] at before
    rw [List.map_append, List.mem_append, ← before]
    simp
  · intro k behind
    rw [longer] at behind
    rw [retargeted_concat, h.unreached k (Nat.le_of_succ_le behind)]
    rfl

/-- A patch that succeeds gives the entry that it addresses another target. -/
theorem Tells.patched (h : Tells events p) (growing : p.frozen = false)
    (found : p.position? index = some k) (target : Option Int) :
    Tells (events ++ [⟨.patch index target, p.length, .ok none⟩])
      ⟨p.entries.modify k fun e => e.retarget target, false⟩ := by
  obtain ⟨inside, addressed⟩ := position?_eq_some_iff.mp found
  have given (j : Nat) (before : j < p.length) :
      Event.target? j ⟨.patch index target, p.length, .ok none⟩ =
        if j = k then some target else none := by
    unfold Event.target?
    grind
  have kept : length ⟨p.entries.modify k fun e => e.retarget target, false⟩ = p.length :=
    Array.size_modify
  refine ⟨?_, ?_, ?_, ?_⟩
  · have nothing : Event.added? ⟨.patch index target, p.length, .ok none⟩ = none := rfl
    rw [Array.toList_modify, h.entries, emitted_concat, nothing, Option.toList_none,
      List.append_nil]
    apply List.ext_getElem
    · simp
    · intro j _ here
      rw [List.length_mapIdx, h.count] at here
      rw [List.getElem_modify, List.getElem_mapIdx, List.getElem_mapIdx, targetAfter_concat,
        given j here]
      by_cases at_k : k = j
      · subst at_k
        simp [Entry.retarget]
      · simp [at_k, Ne.symm at_k]
  · rw [List.filterMap_append, h.indices, kept]
    exact List.append_nil _
  · have before := h.frozen
    rw [growing] at before
    rw [List.map_append, List.mem_append, ← before]
    simp
  · intro j behind
    rw [kept] at behind
    have elsewhere : Event.target? j ⟨.patch index target, p.length, .ok none⟩ = none := by
      unfold Event.target?
      grind
    rw [retargeted_concat, elsewhere, h.unreached j behind]
    rfl

/-- One change more, whatever comes of it. -/
theorem Tells.change (h : Tells events p) (c : Change) :
    Tells (events ++ [⟨c, p.length, (p.change c).1⟩]) (p.change c).2 := by
  have came := p.change_changes c
  generalize p.change c = made at came ⊢
  cases came with
  | emitted growing instruction location => exact h.emitted growing instruction location
  | patched growing found target => exact h.patched growing found target
  | missed => exact h.silent rfl rfl (fun _ => rfl) rfl (by simp)
  | refused frozen other =>
    cases c with
    | freeze => exact absurd rfl other
    | _ => exact h.silent rfl rfl (fun _ => rfl) rfl (by simp)
  | froze => exact h.silent rfl rfl (fun _ => rfl) rfl (by simp [freeze])

/-- Any number of changes more. -/
theorem Tells.changeAll (h : Tells events p) (cs : List Change) :
    Tells (events ++ (p.changeAll cs).1) (p.changeAll cs).2 := by
  induction cs generalizing p events with
  | nil => simpa [Program.changeAll] using h
  | cons c cs ih =>
    have further := ih (h.change c)
    rw [List.append_assoc] at further
    exact further

/-- Each change asked is in the events. -/
theorem changes_changeAll (p : Program) (cs : List Change) :
    (p.changeAll cs).1.map Event.change = cs := by
  induction cs generalizing p with
  | nil => rfl
  | cons c cs ih => exact congrArg (c :: ·) (ih _)

/-! ## Any history -/

theorem Tells.instructions (h : Tells events p) :
    p.instructions = (TapeMachine.emitted events).mapIdx fun k e =>
      ⟨e.instruction.opcode, targetAfter events k e⟩ := by
  rw [Program.instructions, h.entries, List.mapIdx_eq_zipIdx_map, List.map_map,
    List.mapIdx_eq_zipIdx_map]
  rfl

theorem Tells.locations (h : Tells events p) :
    p.locations = (TapeMachine.emitted events).map Entry.location := by
  apply List.ext_getElem?
  intro k
  rw [Program.locations, h.entries, List.getElem?_map, List.getElem?_mapIdx, Option.map_map,
    List.getElem?_map]
  rfl

/-- An instruction came from where its emit said; an index outside the program has no place. -/
theorem Tells.location (h : Tells events p) (index : Int) :
    p.location index =
      if 0 ≤ index ∧ index < p.length then
        (TapeMachine.emitted events)[index.toNat]?.bind Entry.location
      else none := by
  by_cases negative : index < 0
  · rw [Program.location, if_neg (by omega), if_neg (by omega)]
  · obtain ⟨k, rfl⟩ := Int.eq_ofNat_of_zero_le (Int.not_lt.mp negative)
    rw [location_eq, h.locations, List.getElem?_map, Int.toNat_natCast]
    by_cases inside : k < p.length
    · rw [if_pos (by omega)]
      cases (TapeMachine.emitted events)[k]? <;> rfl
    · rw [if_neg (by omega), List.getElem?_eq_none (by rw [h.count]; omega)]
      rfl

/-- A program that grows takes any emit, and any patch of an index that it has. -/
theorem growing_answers (growing : p.frozen = false) :
    (∀ instruction location, ∃ q, p.emit instruction location = (.ok p.length, q) ∧
      q.instructions = p.instructions ++ [instruction] ∧ q.locations = p.locations ++ [location]) ∧
    ∀ (index : Int) target,
      (-p.length ≤ index ∧ index < p.length → ∃ q, p.patch index target = (.ok (), q)) ∧
      (¬ (-p.length ≤ index ∧ index < p.length) →
        ∃ f, p.patch index target = (.error f, p) ∧ f.name = "IndexError") := by
  refine ⟨fun instruction location => ?_, fun index target => ⟨fun inside => ?_, fun outside => ?_⟩⟩
  · refine ⟨_, emit_growing growing instruction location, ?_, ?_⟩
    · simp [instructions]
    · simp [locations]
  · cases found : p.position? index with
    | none => exact absurd inside (position?_eq_none_iff.mp found)
    | some k =>
      refine ⟨⟨p.entries.modify k fun e => e.retarget target, false⟩, ?_⟩
      simp [patch, growing, found]
  · refine ⟨p.outside index, ?_, p.outside_name index⟩
    simp [patch, growing, position?_eq_none_iff.mpr outside]

/-- Whatever is asked of a new program, it has as many places as instructions, and its
instructions are those of the emits that succeeded: these were answered with the indexes from zero
on, the opcode of each instruction and its place are those of its emit, and its target is the one
that a successful patch gave it last, if any did. Until the program is frozen an emit succeeds and
leaves the earlier entries alone, and a patch succeeds if the program has its index, and else fails
and changes nothing. From then on both are refused and nothing changes, also if the program is
frozen again. -/
theorem changes_account_for_program {cs : List Change}
    (made : Program.empty.changeAll cs = (events, p)) :
    events.map Event.change = cs ∧
    (p.instructions.length = p.length ∧ p.locations.length = p.length) ∧
    events.filterMap Event.index? = List.range p.length ∧
    (p.instructions = (emitted events).mapIdx fun k e =>
      ⟨e.instruction.opcode, (retargeted events k).getLast?.getD e.instruction.target⟩) ∧
    (∀ index, p.location index =
      if 0 ≤ index ∧ index < p.length then (emitted events)[index.toNat]?.bind Entry.location
      else none) ∧
    (.freeze ∉ cs →
      (∀ instruction location, ∃ q, p.emit instruction location = (.ok p.length, q) ∧
        q.instructions = p.instructions ++ [instruction] ∧
        q.locations = p.locations ++ [location]) ∧
      ∀ (index : Int) target,
        (-p.length ≤ index ∧ index < p.length → ∃ q, p.patch index target = (.ok (), q)) ∧
        (¬ (-p.length ≤ index ∧ index < p.length) →
          ∃ f, p.patch index target = (.error f, p) ∧ f.name = "IndexError")) ∧
    (.freeze ∈ cs →
      (∀ instruction location, p.emit instruction location = (.error .programFrozen, p)) ∧
      (∀ index target, p.patch index target = (.error .programFrozen, p)) ∧
      Fault.programFrozen.name = "RuntimeError" ∧ p.freeze = p) := by
  have tells := tells_empty.changeAll cs
  have asked := changes_changeAll .empty cs
  rw [made] at asked tells
  replace tells : Tells events p := tells
  have frozen : p.frozen = true ↔ .freeze ∈ cs := asked ▸ tells.frozen
  refine ⟨asked, ⟨p.length_eq.symm, ?_⟩, tells.indices, tells.instructions, tells.location, ?_, ?_⟩
  · rw [tells.locations, List.length_map, tells.count]
  · intro unfrozen
    exact growing_answers (Bool.eq_false_iff.mpr fun closed => unfrozen (frozen.mp closed))
  · intro closed
    have frozen := frozen.mpr closed
    refine ⟨emit_frozen frozen, patch_frozen frozen, rfl, ?_⟩
    obtain ⟨entries, _⟩ := p
    cases frozen
    rfl

/-- A loop whose start is given a target twice, first from the end and then from the front; a patch
behind the end misses, and once the program is frozen nothing changes any more. -/
theorem start_keeps_last_target :
    ∃ events p, Program.empty.changeAll [.emit ⟨.op .increment, none⟩ none,
        .emit ⟨.op .loopStart, none⟩ (some ⟨1, 2⟩), .patch (-1) (some 7),
        .emit ⟨.op .loopEnd, some 1⟩ (some ⟨2, 1⟩), .patch 1 (some 2), .patch 3 (some 0), .freeze,
        .emit ⟨.op .output, none⟩ none, .patch 0 (some 0)] = (events, p) ∧
      p.instructions = [⟨.op .increment, none⟩, ⟨.op .loopStart, some 2⟩, ⟨.op .loopEnd, some 1⟩] ∧
      p.location 1 = some ⟨1, 2⟩ ∧ p.location (-1) = none ∧
      p.patch 1 (some 5) = (.error .programFrozen, p) := by
  obtain ⟨events, p, made⟩ : ∃ events p, Program.empty.changeAll [.emit ⟨.op .increment, none⟩ none,
      .emit ⟨.op .loopStart, none⟩ (some ⟨1, 2⟩), .patch (-1) (some 7),
      .emit ⟨.op .loopEnd, some 1⟩ (some ⟨2, 1⟩), .patch 1 (some 2), .patch 3 (some 0), .freeze,
      .emit ⟨.op .output, none⟩ none, .patch 0 (some 0)] = (events, p) := ⟨_, _, rfl⟩
  obtain ⟨_, _, _, instructions, location, _, closed⟩ := changes_account_for_program made
  obtain ⟨_, patch, _, _⟩ := closed (by decide)
  cases made
  exact ⟨_, _, rfl, instructions, location 1, location (-1), patch 1 (some 5)⟩

end Program
end TapeMachine
