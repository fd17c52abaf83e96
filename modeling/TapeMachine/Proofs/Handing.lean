import TapeMachine.Machine.Step

/-! Handing out an instruction, whatever the order: what it leaves alone, where the instruction is
from, and which changes to a machine make no difference to it. -/

namespace TapeMachine

/-- Whatever an index stands for is an instruction of the program. -/
theorem Program.mem_of_get {p : Program} {index : Int} {i : Instruction}
    (found : p.get index = .ok i) : i ∈ p.instructions := by
  unfold get at found
  cases place : p.position? index with
  | none =>
    rw [place] at found
    cases found
  | some k =>
    simp only [place] at found
    cases entry : p.entries[k]? with
    | none =>
      rw [entry] at found
      cases found
    | some e =>
      rw [entry] at found
      cases found
      exact List.mem_map_of_mem (Array.mem_toList_iff.mpr (Array.mem_of_getElem? entry))

namespace Machine

variable {m n q : Machine} {outlet : Outlet} {i : Instruction} {index : Int}

/-! ## What is left alone -/

/-- A machine that differs from another in nothing but what handing out an instruction may set. -/
structure Handing (m n : Machine) : Prop where
  program : n.program = m.program
  tape : n.config.tape = m.config.tape
  state : n.state = m.state
  steps : n.steps = m.steps

theorem Handing.trans (h : m.Handing n) (h' : n.Handing q) : m.Handing q :=
  ⟨h'.program.trans h.program, h'.tape.trans h.tape, h'.state.trans h.state,
    h'.steps.trans h.steps⟩

theorem check_handing (m : Machine) : m.Handing m.check.2 := ⟨rfl, rfl, rfl, rfl⟩

theorem await_handing (m : Machine) (signals : List Signal) (outlet : Outlet) :
    m.Handing (m.await signals outlet).2 := ⟨rfl, rfl, rfl, rfl⟩

theorem fetch_handing (m : Machine) : m.Handing m.fetch.2 := by
  unfold fetch
  cases m.ip with
  | none => exact ⟨rfl, rfl, rfl, rfl⟩
  | some k =>
    dsimp only
    cases m.program.get k <;> exact ⟨rfl, rfl, rfl, rfl⟩

theorem post_handing (posted : m.post outlet = .ok n) : m.Handing n := by
  cases outlet with
  | nowhere =>
    cases posted
    exact ⟨rfl, rfl, rfl, rfl⟩
  | mailbox | report | abandoned =>
    unfold post at posted
    cases shot : m.snapshot with
    | error f =>
      rw [shot] at posted
      cases posted
    | ok s =>
      rw [shot] at posted
      cases posted
      exact ⟨rfl, rfl, rfl, rfl⟩

theorem next_handing (m : Machine) : m.Handing m.next.2 := by
  have fetched := m.fetch_handing
  unfold next
  cases m.traversal with
  | linear => exact fetched
  | recording left =>
    dsimp only
    generalize m.fetch = answer at fetched ⊢
    obtain ⟨_ | _, n⟩ := answer
    · exact fetched
    · exact ⟨fetched.program, fetched.tape, fetched.state, fetched.steps⟩
  | gated signals outlet =>
    dsimp only
    cases posted : m.post outlet with
    | error f => exact ⟨rfl, rfl, rfl, rfl⟩
    | ok n =>
      have awaited := (post_handing posted).trans (n.await_handing signals outlet)
      dsimp only
      generalize n.await signals outlet = answer at awaited ⊢
      obtain ⟨_ | _, q⟩ := answer
      · exact awaited
      · exact awaited.trans q.fetch_handing

/-! ## Where the instruction is from -/

theorem fetch_mem (fetched : m.fetch.1 = .ok (i, index)) : i ∈ m.program.instructions := by
  unfold fetch at fetched
  cases ip : m.ip with
  | none =>
    rw [ip] at fetched
    cases fetched
  | some k =>
    simp only [ip] at fetched
    cases found : m.program.get k with
    | error f =>
      rw [found] at fetched
      cases fetched
    | ok j =>
      rw [found] at fetched
      cases fetched
      exact Program.mem_of_get found

/-- What is handed out is an instruction of the program. -/
theorem next_mem (handed : m.next.1 = .ok (i, index)) : i ∈ m.program.instructions := by
  unfold next at handed
  cases traversal : m.traversal with
  | linear =>
    rw [traversal] at handed
    exact fetch_mem handed
  | recording left =>
    rw [traversal] at handed
    dsimp only at handed
    rcases fetched : m.fetch with ⟨_ | ⟨j, k⟩, n⟩
    · rw [fetched] at handed
      cases handed
    · rw [fetched] at handed
      cases handed
      exact fetch_mem (congrArg Prod.fst fetched)
  | gated signals outlet =>
    rw [traversal] at handed
    dsimp only at handed
    cases posted : m.post outlet with
    | error f =>
      rw [posted] at handed
      cases handed
    | ok n =>
      rw [posted] at handed
      dsimp only at handed
      have awaited := (post_handing posted).trans (n.await_handing signals outlet)
      generalize n.await signals outlet = answer at handed awaited
      obtain ⟨_ | _, q⟩ := answer
      · cases handed
      · rw [← awaited.program]
        exact fetch_mem handed

/-! ## Changes that make no difference -/

/-- A change to what handing out neither looks at nor sets. It can as well be made afterwards. -/
structure Aside (f : Machine → Machine) : Prop where
  ip : ∀ m, (f m).ip = m.ip
  program : ∀ m, (f m).program = m.program
  guard : ∀ m, (f m).guard = m.guard
  traversal : ∀ m, (f m).traversal = m.traversal
  snapshot : ∀ m fault, (f m).snapshot fault = m.snapshot fault
  jump : ∀ m target, (f m).jump target = f (m.jump target)
  withGuard : ∀ m g, (f m).withGuard g = f (m.withGuard g)
  traverse : ∀ m t, (f m).traverse t = f (m.traverse t)
  recorded : ∀ m (index : Int), ({ f m with recorded := (f m).recorded.push index } : Machine) =
    f { m with recorded := m.recorded.push index }
  mailbox : ∀ m s, ({ f m with mailbox := (f m).mailbox.push s } : Machine) =
    f { m with mailbox := m.mailbox.push s }
  report : ∀ m s, ({ f m with report := (f m).report.push s } : Machine) =
    f { m with report := m.report.push s }
  counted : ∀ m, ({ f m with steps := (f m).steps + 1 } : Machine) =
    f { m with steps := m.steps + 1 }
  complete : ∀ m, (f m).complete = f m.complete

namespace Aside

variable {f : Machine → Machine} (aside : Aside f)
include aside

theorem hasNext (m : Machine) : (f m).hasNext = m.hasNext := by
  simp only [Machine.hasNext, beforeEnd, aside.traversal, aside.ip, aside.program]

theorem check (m : Machine) : (f m).check = (m.check.1, f m.check.2) := by
  simp only [Machine.check, aside.guard, aside.ip, aside.withGuard]

theorem fetch (m : Machine) : (f m).fetch = (m.fetch.1, f m.fetch.2) := by
  simp only [Machine.fetch, aside.ip, aside.program]
  cases m.ip with
  | none => rfl
  | some k =>
    dsimp only
    cases m.program.get k with
    | error g => rfl
    | ok i => exact Prod.ext rfl (aside.jump m _)

theorem post (m : Machine) (outlet : Outlet) : (f m).post outlet = (m.post outlet).map f := by
  cases outlet with
  | nowhere => rfl
  | mailbox =>
    simp only [Machine.post, aside.snapshot]
    cases m.snapshot with
    | error g => rfl
    | ok s => exact congrArg Except.ok (aside.mailbox m s)
  | report =>
    simp only [Machine.post, aside.snapshot]
    cases m.snapshot with
    | error g => rfl
    | ok s => exact congrArg Except.ok (aside.report m s)
  | abandoned =>
    simp only [Machine.post, aside.snapshot]
    cases m.snapshot <;> rfl

theorem await (m : Machine) (signals : List Signal) (outlet : Outlet) :
    (f m).await signals outlet =
      ((m.await signals outlet).1, f (m.await signals outlet).2) := by
  simp only [Machine.await, aside.guard, aside.ip]
  generalize m.guard.await m.ip signals = answer
  obtain ⟨r, signals, g⟩ := answer
  refine Prod.ext rfl ?_
  change ((f m).withGuard g).traverse _ = f ((m.withGuard g).traverse _)
  rw [aside.withGuard, aside.traverse]

theorem next (m : Machine) : (f m).next = (m.next.1, f m.next.2) := by
  simp only [Machine.next, aside.traversal]
  cases m.traversal with
  | linear => exact aside.fetch m
  | recording left =>
    simp only [aside.fetch m]
    rcases m.fetch with ⟨g | ⟨i, index⟩, n⟩
    · rfl
    · refine Prod.ext rfl ?_
      change ({ f n with recorded := (f n).recorded.push index } : Machine).traverse _ =
        f (({ n with recorded := n.recorded.push index } : Machine).traverse _)
      rw [aside.recorded, aside.traverse]
  | gated signals outlet =>
    simp only [aside.post]
    cases m.post outlet with
    | error g => rfl
    | ok n =>
      simp only [Except.map, aside.await n]
      rcases n.await signals outlet with ⟨g | ⟨⟩, q⟩
      · rfl
      · exact aside.fetch q

theorem countStep (m : Machine) : (f m).countStep = (m.countStep.1, f m.countStep.2) := by
  simp only [Machine.countStep, aside.counted, aside.hasNext]
  rcases Machine.hasNext _ with g | _ | _
  · rfl
  · exact Prod.ext rfl (aside.complete _)
  · rfl

end Aside
end Machine
end TapeMachine
