import TapeMachine.Debugger.Basic
import TapeMachine.Debugger.Frame
import TapeMachine.Text.Blank

/-! A session in the debug view: show the machine, read a command, carry it out. Commands may
come from the machine's own input, so that one stream serves both. -/

namespace TapeMachine

inductive Command where
  | step | runToEnd | quit
  deriving DecidableEq, Repr

/-- The command of a line. No line at all means to quit; a line of anything but the two letters
steps. -/
def Command.ofLine (cs : List Char) : Command :=
  if cs = [] then .quit
  else
    match (Blank.trim cs).map Char.toLower with
    | ['q'] => .quit
    | ['c'] => .runToEnd
    | _ => .step

example : Command.ofLine " C\n".toList = .runToEnd ∧ Command.ofLine "\n".toList = .step := by decide

/-- Where commands come from: the input that the program reads, or a stream of their own. -/
inductive Controls where
  | shared
  | text (rest : List Char)
  | bytes (rest : List UInt8)
  deriving DecidableEq, Repr

/-- The first line with its ending, and what follows; none if no line ends. -/
def cutLine {α : Type} [DecidableEq α] (ending : α) : List α → Option (List α × List α)
  | [] => none
  | a :: rest =>
    if a = ending then some ([a], rest)
    else (cutLine ending rest).map fun (line, after) => (a :: line, after)

structure Session where
  debugger : Debugger
  /-- The machine as it was last shown. -/
  shot : Snapshot
  controls : Controls
  screen : Log String := {}

/-- How a session ended: the fault that ended it, if it was not the program's end. -/
structure SessionEnd where
  fault : Option Fault
  session : Session

namespace Session

def clearScreen : String := "\x1b[2J\x1b[H"

def menu : String := "\n[enter] step  [c] continue  [q] quit\n"

def create (d : Debugger) (controls : Controls) : Except Fault Session :=
  d.snapshot.map fun shot => { debugger := d, shot, controls }

def machine (s : Session) : Machine := s.debugger.machine

def put (s : Session) (text : String) : Session := { s with screen := s.screen.push text }

def screenText (s : Session) : String := String.join s.screen.toList

/-- What the program has written. -/
def captured (s : Session) : List UInt8 := s.machine.config.output.written

/-- A cleared screen with a picture of the machine on it. -/
def picture (s : Session) (shot : Snapshot) (status : Option String) : Except Fault String :=
  ((Frame.ofSnapshot shot).render s.machine.program s.captured status).map (clearScreen ++ ·)

def withInput (s : Session) (i : Input) : Session :=
  let m := s.machine
  { s with debugger := s.debugger.withMachine (m.withConfig { m.config with input := i }) }

/-- Reads a command line. A line may lack its ending at the end of the stream, unless the stream
stops in an interrupt. -/
def readLine (s : Session) : Except Cause (List Char) × Session :=
  match s.controls with
  | .text cs =>
    match cutLine '\n' cs with
    | some (line, rest) => (.ok line, { s with controls := .text rest })
    | none => (.ok cs, { s with controls := .text [] })
  | .bytes bs =>
    match cutLine 0x0A bs with
    | some (line, rest) => (.ok (Utf8.decodeFrom none line), { s with controls := .bytes rest })
    | none => (.ok (Utf8.decodeFrom none bs), { s with controls := .bytes [] })
  | .shared =>
    match s.machine.config.input with
    | .bytes bs atEnd =>
      match cutLine 0x0A bs, atEnd with
      | some (line, rest), _ => (.ok (Utf8.decodeFrom none line), s.withInput (.bytes rest atEnd))
      | none, .ended => (.ok (Utf8.decodeFrom none bs), s.withInput (.bytes [] atEnd))
      | none, .interrupted => (.error .interrupt, s)
    | _ => (.ok [], s)

def endWith (s : Session) (f : Fault) : Turn Session (Option SessionEnd) := .done (some ⟨some f, s⟩)

/-- Goes on from what a command led to. A report ends the session with a last picture. -/
def settle (s : Session) : Except Fault Snapshot × Debugger → Turn Session (Option SessionEnd)
  | (.ok shot, d) => .again { s with debugger := d, shot := shot }
  | (.error f, d) =>
    let s := { s with debugger := d }
    if f.isReport then
      match d.snapshot >>= fun shot => s.picture shot (some ("failed: " ++ f.message)) with
      | .error g => s.endWith g
      | .ok text => (s.put (text ++ "\n")).endWith f
    else s.endWith f

def obey (fuel : Nat) (s : Session) : Command → Turn Session (Option SessionEnd)
  | .quit =>
    let s := { s with debugger := s.debugger.cancel }
    s.endWith (Guard.cancellation "stopped from debugger" (some s.shot.ip))
  | .runToEnd =>
    match s.debugger.runToEnd fuel with
    | none => .done none
    | some r => s.settle r
  | .step => s.settle s.debugger.advance

/-- One turn of a session: a picture and a command, or the last picture. -/
def turn (fuel : Nat) (s : Session) : Turn Session (Option SessionEnd) :=
  if s.debugger.finished then
    match s.picture s.shot (some "finished") with
    | .error f => s.endWith f
    | .ok text => .done (some ⟨none, s.put (text ++ "\n")⟩)
  else
    match s.picture s.shot none with
    | .error f => s.endWith f
    | .ok text =>
      match (s.put (text ++ menu)).readLine with
      | (.error c, s) => s.endWith (.stream c)
      | (.ok line, s) => s.obey fuel (Command.ofLine line)

/-- A whole session, within `fuel` commands of `fuel` turns each. -/
def run (fuel : Nat) (s : Session) : Option SessionEnd := (Loop.turns (turn fuel) fuel s).join

end Session
end TapeMachine
