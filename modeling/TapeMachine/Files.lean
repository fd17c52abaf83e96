import TapeMachine.Fault
import TapeMachine.Text.Utf8

/-! Files by path. A path is taken from the current directory, or from the root if it starts with
a slash. -/

namespace TapeMachine

inductive Node where
  | directory
  | file (bytes : List UInt8)
  deriving DecidableEq, Repr

/-- Files and directories by the names that lead to them. Names from the root start with `/`,
and names from above the current directory with `..`. -/
structure Files where
  nodes : List (List String × Node) := []
  deriving DecidableEq, Repr

namespace Files

/-- The root, the current directory and those above it, which exist without being listed. -/
def isGiven (path : List String) : Bool := path = ["/"] || path.all (· = "..")

def node? (fs : Files) (path : List String) : Option Node :=
  if isGiven path then some .directory else fs.nodes.lookup path

def put (fs : Files) (path : List String) (n : Node) : Files :=
  if isGiven path then fs else ⟨(path, n) :: fs.nodes.filter (·.1 ≠ path)⟩

theorem node?_given {path : List String} (given : isGiven path = true) (fs : Files) :
    fs.node? path = some .directory := by
  simp [node?, given]

/-- The regular files. -/
def regular (fs : Files) : List (List String × List UInt8) :=
  fs.nodes.filterMap fun (path, n) =>
    match n with
    | .directory => none
    | .file bytes => some (path, bytes)

/-- The regular files in the current directory and below. -/
def localFiles (fs : Files) : List (List String × List UInt8) :=
  fs.regular.filter fun (path, _) => path.head? ≠ some "/" && path.head? ≠ some ".."

def notFound (path : String) : Cause :=
  ⟨.notFound, "[Errno 2] No such file or directory: " ++ Quoted.quoted path⟩

def notDirectory (path : String) : Cause :=
  ⟨.notDirectory, "[Errno 20] Not a directory: " ++ Quoted.quoted path⟩

def isDirectory (path : String) : Cause :=
  ⟨.isDirectory, "[Errno 21] Is a directory: " ++ Quoted.quoted path⟩

def nameTooLong (path : String) : Cause :=
  ⟨.system, "[Errno 36] File name too long: " ++ Quoted.quoted path⟩

/-- The parts of a path between its slashes. -/
def parts (path : String) : List String :=
  (path.toList.splitOnP (· = '/')).map String.ofList

/-- The names that lead one directory up. -/
def parent (here : List String) : List String :=
  if here = [] ∨ here.getLast? = some ".." then here ++ [".."]
  else if here = ["/"] then here
  else here.dropLast

/-- The names that lead to a part of a directory. -/
def child (here : List String) (part : String) : List String :=
  if part = "" ∨ part = "." then here
  else if part = ".." then parent here
  else here ++ [part]

/-- Looks up a part of a directory, which has to be one, also for the parts that stay there. -/
def enter (fs : Files) (path : String) (here : List String) (part : String) :
    Except Cause (List String) :=
  match fs.node? here with
  | none => .error (notFound path)
  | some (.file _) => .error (notDirectory path)
  | some .directory =>
    if 255 < (Utf8.encode part).length then .error (nameTooLong path) else .ok (child here part)

/-- Where a path starts, and its parts from there. -/
def start (path : String) : List String × List String :=
  match parts path with
  | "" :: rest => (["/"], rest)
  | ps => ([], ps)

/-- Whether a path can be one at all. -/
def checkPath (path : String) : Except Cause Unit :=
  if path.toList.contains '\x00' then .error ⟨.value, "embedded null byte"⟩
  else if path = "" then .error (notFound path)
  else if 4096 ≤ (Utf8.encode path).length then .error (nameTooLong path)
  else .ok ()

/-- The names that lead to what a path means, whether or not the last exists. -/
def resolve (fs : Files) (path : String) : Except Cause (List String) :=
  match checkPath path with
  | .error c => .error c
  | .ok () =>
    let (here, rest) := start path
    rest.foldlM (fs.enter path) here

/-- All the names that are met on the way along a path. -/
def stations (path : String) : List (List String) :=
  let (here, rest) := start path
  rest.scanl child here

def read (fs : Files) (path : String) : Except Cause (List UInt8) :=
  match fs.resolve path with
  | .error c => .error c
  | .ok here =>
    match fs.node? here with
    | none => .error (notFound path)
    | some .directory => .error (isDirectory path)
    | some (.file bytes) => .ok bytes

/-- The parts that are looked up to write a path. A path that ends with a slash can only mean a
directory: its last name is left aside, and the directory that would hold it stands for it. -/
def writtenParts (parts : List String) : List String :=
  if parts.getLast? = some "" then (parts.reverse.dropWhile (· = "")).tail.reverse ++ ["."]
  else parts

example : writtenParts ["a", "b", "", ""] = ["a", "."] ∧ writtenParts ["a", "b"] = ["a", "b"] := by
  decide

/-- The names under which a path can be written. -/
def writable (fs : Files) (path : String) : Except Cause (List String) :=
  match checkPath path with
  | .error c => .error c
  | .ok () =>
    let (here, rest) := start path
    match (writtenParts rest).foldlM (fs.enter path) here with
    | .error c => .error c
    | .ok here => if fs.node? here = some .directory then .error (isDirectory path) else .ok here

/-- The path of names. -/
def display : List String → String
  | "/" :: names => "/" ++ "/".intercalate names
  | names => "/".intercalate names

/-- Files and directories under the given paths, with the directories that lead to them. -/
def ofList (files : List (String × List UInt8)) (directories : List String) : Files :=
  let directory (fs : Files) (names : List String) : Files :=
    (List.range names.length).foldl (fun fs k => fs.put (names.take (k + 1)) .directory) fs
  let fs := directories.foldl (fun fs path => directory fs (parts path)) {}
  files.foldl
    (fun fs (path, bytes) => (directory fs (parts path).dropLast).put (parts path) (.file bytes)) fs

end Files
end TapeMachine
