import TapeMachine.Files

/-! Files that are written by a path. A path under which a file can be written leads there by
directories only, none of which the file takes the place of: the same path reads back what was
written, and all that other names lead to is as it was. -/

namespace TapeMachine
namespace Files

variable {fs : Files} {path part : String} {parts : List String} {names here there : List String}
  {n : Node} {c : Cause}

theorem node?_put_self (free : isGiven names = false) (fs : Files) (n : Node) :
    (fs.put names n).node? names = some n := by
  simp [put, node?, free]

theorem lookup_filter_other (other : here ≠ names) (nodes : List (List String × Node)) :
    (nodes.filter (·.1 ≠ names)).lookup here = nodes.lookup here := by
  induction nodes with
  | nil => rfl
  | cons entry rest ih =>
    obtain ⟨key, m⟩ := entry
    by_cases same : key = names
    · subst same
      have apart : (here == key) = false := by simpa using other
      simpa [List.lookup_cons, apart] using ih
    · simp only [List.filter_cons, ne_eq, same, not_false_eq_true, decide_true, if_true,
        List.lookup_cons, ih]

theorem node?_put_other (other : here ≠ names) (fs : Files) (n : Node) :
    (fs.put names n).node? here = fs.node? here := by
  by_cases given : isGiven names = true
  · simp [put, given]
  · have apart : (here == names) = false := by simpa using other
    simp only [put, given, Bool.false_eq_true, if_false, node?, List.lookup_cons, apart,
      lookup_filter_other other]

/-! ## Looking up -/

theorem enter_ok (entered : fs.enter path here part = .ok there) :
    fs.node? here = some .directory ∧ there = child here part := by
  unfold enter at entered
  split at entered
  · cases entered
  · cases entered
  · rename_i directory
    split at entered
    · cases entered
    · cases entered
      exact ⟨directory, rfl⟩

/-- A file that takes the place of no directory is not met on the way along directories. -/
theorem enter_put (entered : fs.enter path here part = .ok there)
    (apart : fs.node? names ≠ some .directory) (n : Node) :
    (fs.put names n).enter path here part = .ok there := by
  have other : here ≠ names := by
    rintro rfl
    exact apart (enter_ok entered).1
  have same := node?_put_other other fs n
  unfold enter at entered ⊢
  rw [same]
  exact entered

theorem walk_put (walked : parts.foldlM (fs.enter path) here = .ok there)
    (apart : fs.node? names ≠ some .directory) (n : Node) :
    parts.foldlM ((fs.put names n).enter path) here = .ok there := by
  induction parts generalizing here with
  | nil => exact walked
  | cons part rest ih =>
    rw [List.foldlM_cons] at walked ⊢
    cases entered : fs.enter path here part with
    | error c =>
      rw [entered] at walked
      cases walked
    | ok next =>
      rw [entered] at walked
      rw [enter_put entered apart n]
      exact ih walked

/-- A path that ends with a slash leads to a directory. -/
theorem walk_slash (walked : (parts ++ ["."]).foldlM (fs.enter path) here = .ok there) :
    fs.node? there = some .directory := by
  rw [List.foldlM_append] at walked
  cases front : parts.foldlM (fs.enter path) here with
  | error c =>
    rw [front] at walked
    cases walked
  | ok next =>
    rw [front] at walked
    have last : ["."].foldlM (fs.enter path) next = .ok there := walked
    rw [List.foldlM_cons] at last
    cases entered : fs.enter path next "." with
    | error c =>
      rw [entered] at last
      cases last
    | ok here' =>
      rw [entered] at last
      cases last
      obtain ⟨directory, rfl⟩ := enter_ok entered
      exact directory

theorem writable_ok (opened : fs.writable path = .ok names) :
    fs.resolve path = .ok names ∧ fs.node? names ≠ some .directory := by
  unfold writable at opened
  cases checked : checkPath path with
  | error c =>
    rw [checked] at opened
    cases opened
  | ok =>
    simp only [checked] at opened
    generalize walked : (writtenParts (start path).2).foldlM (fs.enter path) (start path).1 =
      answer at opened
    cases answer with
    | error c => cases opened
    | ok there =>
      by_cases directory : fs.node? there = some .directory
      · simp only [if_pos directory] at opened
        cases opened
      · simp only [if_neg directory] at opened
        cases opened
        refine ⟨?_, directory⟩
        by_cases slash : (start path).2.getLast? = some ""
        · rw [writtenParts, if_pos slash] at walked
          exact absurd (walk_slash walked) directory
        · rw [writtenParts, if_neg slash] at walked
          simp only [resolve, checked]
          exact walked

/-- What is written under a path is what the path reads. -/
theorem read_put (opened : fs.writable path = .ok names) (bytes : List UInt8) :
    (fs.put names (.file bytes)).read path = .ok bytes := by
  obtain ⟨resolved, apart⟩ := writable_ok opened
  have free : isGiven names = false := by
    rw [Bool.eq_false_iff]
    intro given
    exact apart (node?_given given fs)
  have again : (fs.put names (.file bytes)).resolve path = .ok names := by
    unfold resolve at resolved ⊢
    cases checked : checkPath path with
    | error c =>
      rw [checked] at resolved
      cases resolved
    | ok =>
      rw [checked] at resolved
      exact walk_put resolved apart _
  simp only [read, again, node?_put_self free]

/-! ## Trouble -/

theorem enter_error (failed : fs.enter path here part = .error c) : c.kind ≠ .interrupt := by
  unfold enter at failed
  split at failed
  · cases failed
    nofun
  · cases failed
    nofun
  · split at failed
    · cases failed
      nofun
    · cases failed

theorem walk_error (failed : parts.foldlM (fs.enter path) here = .error c) :
    c.kind ≠ .interrupt := by
  induction parts generalizing here with
  | nil => cases failed
  | cons part rest ih =>
    rw [List.foldlM_cons] at failed
    cases entered : fs.enter path here part with
    | error c' =>
      rw [entered] at failed
      cases failed
      exact enter_error entered
    | ok next =>
      rw [entered] at failed
      exact ih failed

theorem checkPath_error (failed : checkPath path = .error c) : c.kind ≠ .interrupt := by
  unfold checkPath at failed
  split at failed
  · cases failed
    nofun
  · split at failed
    · cases failed
      nofun
    · split at failed
      · cases failed
        nofun
      · cases failed

theorem resolve_error (failed : fs.resolve path = .error c) : c.kind ≠ .interrupt := by
  unfold resolve at failed
  cases checked : checkPath path with
  | error c' =>
    rw [checked] at failed
    cases failed
    exact checkPath_error checked
  | ok =>
    rw [checked] at failed
    exact walk_error failed

/-- A file that cannot be read is no interrupt. -/
theorem read_error (failed : fs.read path = .error c) : c.kind ≠ .interrupt := by
  unfold read at failed
  cases resolved : fs.resolve path with
  | error c' =>
    rw [resolved] at failed
    cases failed
    exact resolve_error resolved
  | ok here =>
    simp only [resolved] at failed
    split at failed
    · cases failed
      nofun
    · cases failed
      nofun
    · cases failed

theorem writable_error (failed : fs.writable path = .error c) : c.kind ≠ .interrupt := by
  unfold writable at failed
  cases checked : checkPath path with
  | error c' =>
    rw [checked] at failed
    cases failed
    exact checkPath_error checked
  | ok =>
    simp only [checked] at failed
    generalize walked : (writtenParts (start path).2).foldlM (fs.enter path) (start path).1 =
      answer at failed
    cases answer with
    | error c' =>
      cases failed
      exact walk_error walked
    | ok there =>
      by_cases directory : fs.node? there = some .directory
      · simp only [if_pos directory] at failed
        cases failed
        nofun
      · simp only [if_neg directory] at failed
        cases failed

end Files
end TapeMachine
