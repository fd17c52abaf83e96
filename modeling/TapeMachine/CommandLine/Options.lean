import TapeMachine.Decimal
import TapeMachine.Text.Numeral
import TapeMachine.Text.Quoted

/-! The options of the command line: what each word of it stands for, and what they amount to. A
long option may be cut short as long as it stays unique, and a value may follow an equals sign or
be the next word. -/

namespace TapeMachine

inductive Setting where
  | help | input | output | debug | dump | trace | timeout | repl | traceback
  deriving DecidableEq, Repr

namespace Setting

def all : List Setting := [help, input, output, debug, dump, trace, timeout, repl, traceback]

def names : Setting → List String
  | help => ["-h", "--help"]
  | input => ["--input", "-in", "-if"]
  | output => ["--output", "-out", "-of"]
  | debug => ["--debug", "-dbg", "-d"]
  | dump => ["--dump"]
  | trace => ["--trace"]
  | timeout => ["--timeout"]
  | repl => ["--repl"]
  | traceback => ["--traceback"]

def takesValue : Setting → Bool
  | input | output | timeout => true
  | help | debug | dump | trace | repl | traceback => false

/-- All option names with their settings. -/
def table : List (String × Setting) := all.flatMap fun s => s.names.map (·, s)

def named? (name : String) : Option Setting := table.lookup name

/-- All names in one, as they are reported. -/
def title (s : Setting) : String := "/".intercalate s.names

end Setting

inductive UsageError where
  | ambiguous (word : String) (names : List String)
  | missingValue (s : Setting)
  | needlessValue (s : Setting) (value : String)
  | badNumber (s : Setting) (value : String)
  | unrecognized (words : List String)
  deriving DecidableEq, Repr

namespace UsageError

def message : UsageError → String
  | ambiguous word names =>
    "ambiguous option: " ++ word ++ " could match " ++ ", ".intercalate names
  | missingValue s => "argument " ++ s.title ++ ": expected one argument"
  | needlessValue s value =>
    "argument " ++ s.title ++ ": ignored explicit argument " ++ Quoted.quoted value
  | badNumber s value =>
    "argument " ++ s.title ++ ": invalid float value: " ++ Quoted.quoted value
  | unrecognized words => "unrecognized arguments: " ++ " ".intercalate words

def text (e : UsageError) : String := "bfvm: error: " ++ e.message ++ "\n"

end UsageError

/-- What an option is given for a value. Two dashes attached to it are no value: they leave it
with nothing. -/
inductive Operand (α : Type) where
  | value (a : α)
  | nothing
  deriving DecidableEq, Repr

namespace Operand

def value? {α : Type} : Operand α → Option α
  | value a => some a
  | nothing => none

def ofAttached (cs : List Char) : Operand String :=
  if cs = ['-', '-'] then nothing else value (String.ofList cs)

end Operand

structure Options where
  input : Option (Operand String) := none
  output : Option (Operand String) := none
  debug : Bool := false
  dump : Bool := false
  trace : Bool := false
  timeout : Option (Operand Float) := none
  repl : Bool := false
  traceback : Bool := false

/-- What a command line may end in other than options. -/
inductive Dismissal where
  | help
  | usage (e : UsageError)
  deriving DecidableEq, Repr

namespace CommandLine

/-- An option as written: under which kind of name, and with what attached to it. -/
structure Mention where
  setting : Setting
  short : Bool
  attached : Option (List Char) := none
  deriving DecidableEq, Repr

/-- What a word of the command line stands for. -/
inductive Word where
  | plain
  | mention (m : Mention)
  | unknown
  deriving DecidableEq, Repr

/-- Whether a name has one dash only. -/
def isShort (name : String) : Bool := name.toList.take 2 ≠ ['-', '-']

/-- A word before its first equals sign, and after it if there is one. -/
def splitEquals (cs : List Char) : List Char × Option (List Char) :=
  (cs.takeWhile (· ≠ '='), (cs.dropWhile (· ≠ '=')).tail?)

/-- A negative number is a value. One line feed may follow it. -/
def isNegativeNumber (cs : List Char) : Bool :=
  let isDigit c := (digitValue? c).isSome
  match cs with
  | '-' :: rest =>
    let body := if rest.getLast? = some '\n' then rest.dropLast else rest
    match body.dropWhile isDigit with
    | [] => body ≠ []
    | '.' :: fraction => fraction ≠ [] && fraction.all isDigit
    | _ => false
  | _ => false

/-- The options whose names a word may be short for. A word with two dashes is cut at its equals
sign. One with a single dash stands for names that go on from it, or is a one-letter option with
something attached. -/
def candidates (cs : List Char) : List (String × Mention) :=
  if cs.take 2 = ['-', '-'] then
    let (start, after) := splitEquals cs
    Setting.table.filterMap fun (name, s) =>
      if start.isPrefixOf name.toList then
        some (name, { setting := s, short := isShort name, attached := after })
      else none
  else
    Setting.table.filterMap fun (name, s) =>
      if name.toList = cs.take 2 then
        some (name, { setting := s, short := true, attached := some (cs.drop 2) })
      else if cs.isPrefixOf name.toList then some (name, { setting := s, short := isShort name })
      else none

/-- What a word stands for that starts with a dash and is longer than one. -/
def classifyDashed (word : String) : Except UsageError Word :=
  let cs := word.toList
  let (start, after) := splitEquals cs
  let exact : Option Mention :=
    match Setting.named? word with
    | some s => some { setting := s, short := isShort word }
    | none =>
      let name := String.ofList start
      match after, Setting.named? name with
      | some value, some s =>
        some { setting := s, short := isShort name, attached := some value }
      | _, _ => none
  match exact with
  | some m => .ok (.mention m)
  | none =>
    match candidates cs with
    | [] => .ok (if isNegativeNumber cs || cs.contains ' ' then .plain else .unknown)
    | [(_, m)] => .ok (.mention m)
    | several => .error (.ambiguous word (several.map (·.1)))

def classify (word : String) : Except UsageError Word :=
  match word.toList with
  | '-' :: _ :: _ => classifyDashed word
  | _ => .ok .plain

/-- A word with what it stands for. Behind two dashes every word is plain; they themselves are
no value for an option. -/
structure Classified where
  text : String
  word : Word
  isValue : Bool := true

def classifyAll : List String → Except UsageError (List Classified)
  | [] => .ok []
  | text :: rest =>
    if text = "--" then .ok (⟨text, .plain, false⟩ :: rest.map fun t => ⟨t, .plain, true⟩)
    else
      match classify text with
      | .error e => .error e
      | .ok word => (classifyAll rest).map (⟨text, word, word = .plain⟩ :: ·)

/-- The one-letter option of a character. None of them takes a value. -/
def letter? (c : Char) : Option Setting := Setting.named? (String.ofList ['-', c])

/-- The settings made by an option without value that has something attached. Letters of
one-letter options may be attached to a name with one dash, and nothing else to any name. -/
def chain (s : Setting) (short : Bool) : List Char → Except UsageError (List Setting)
  | [] => .error (.needlessValue s "")
  | c :: rest =>
    match if short then letter? c else none with
    | none => .error (.needlessValue s (String.ofList (c :: rest)))
    | some t => if rest = [] then .ok [s, t] else (chain t true rest).map (s :: ·)

/-- The settings that the mention of an option without value makes. -/
def settings (m : Mention) : Except UsageError (List Setting) :=
  match m.attached with
  | none => .ok [m.setting]
  | some cs => chain m.setting m.short cs

/-- Makes a setting that takes no value. -/
def switch (o : Options) : Setting → Except Dismissal Options
  | .help => .error .help
  | .debug => .ok { o with debug := true }
  | .dump => .ok { o with dump := true }
  | .trace => .ok { o with trace := true }
  | .repl => .ok { o with repl := true }
  | .traceback => .ok { o with traceback := true }
  | .input | .output | .timeout => .ok o

/-- Makes a setting that takes a value. -/
def assign (o : Options) (s : Setting) (given : Operand String) : Except Dismissal Options :=
  match s with
  | .input => .ok { o with input := some given }
  | .output => .ok { o with output := some given }
  | .timeout =>
    match given with
    | .nothing => .ok { o with timeout := some .nothing }
    | .value text =>
      match Decimal.read? text with
      | some x => .ok { o with timeout := some (.value x) }
      | none => .error (.usage (.badNumber s text))
  | .help | .debug | .dump | .trace | .repl | .traceback => .ok o

/-- Makes the settings of words in order. Words that are no option and no option's value are
left over. -/
def apply : Options → List Classified → Except Dismissal (Options × List String)
  | o, [] => .ok (o, [])
  | o, w :: ws =>
    match w.word with
    | .plain | .unknown => (apply o ws).map fun (o, left) => (o, w.text :: left)
    | .mention m =>
      if m.setting.takesValue then
        match m.attached, ws with
        | some value, ws =>
          match assign o m.setting (.ofAttached value) with
          | .error d => .error d
          | .ok o => apply o ws
        | none, [] => .error (.usage (.missingValue m.setting))
        | none, v :: vs =>
          if v.isValue then
            match assign o m.setting (.value v.text) with
            | .error d => .error d
            | .ok o => apply o vs
          else .error (.usage (.missingValue m.setting))
      else
        match settings m with
        | .error e => .error (.usage e)
        | .ok ss =>
          match ss.foldlM switch o with
          | .error d => .error d
          | .ok o => apply o ws

/-- The options that a command line amounts to. Words left over are reported only if nothing
else ends the reading. -/
def parse (argv : List String) : Except Dismissal Options :=
  match classifyAll argv with
  | .error e => .error (.usage e)
  | .ok words =>
    match apply {} words with
    | .error d => .error d
    | .ok (o, []) => .ok o
    | .ok (_, left) => .error (.usage (.unrecognized left))

example : (classify "--ti=5").toOption =
    some (.mention ⟨.timeout, false, some ['5']⟩) := by decide

example : (classify "-dh").toOption = some (.mention ⟨.debug, true, some ['h']⟩) := by decide

example : (settings ⟨.debug, true, some ['h', 'd']⟩).toOption = some [.debug, .help, .debug] := by
  decide

example : settings ⟨.debug, true, some ['h', 'x']⟩ = .error (.needlessValue .help "x") := rfl

example : (match classify "--tr" with
    | .error e => e.message
    | .ok _ => "") = "ambiguous option: --tr could match --trace, --traceback" := by decide

end CommandLine
end TapeMachine
