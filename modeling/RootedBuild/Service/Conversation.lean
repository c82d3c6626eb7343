import RootedBuild.Service.Wire

/-!
A build's conversations with language services, one for each root. Every request takes one line of
what the service has said, in order; the last line may lack its break, and after it the service has
nothing more to say. A service that answers nothing and stays is taken to be done speaking: nobody
here waits.
-/
namespace RootedBuild.Service

/-- The first line of a stream with its break, and what follows. -/
def takeLine : List UInt8 → List UInt8 × List UInt8
  | [] => ([], [])
  | b :: rest =>
    if b == 10 then ([b], rest)
    else
      let (line, rest) := takeLine rest
      (b :: line, rest)

/-- The end of a silent service; how it ended is not told apart. -/
def closedOutput : String := "language service closed its output (*)"

def brokenPipe : String := "Broken pipe (os error 32)"

/-- Takes the next response off a stream. -/
def receive (unread : List UInt8) : Except String Response × List UInt8 :=
  match unread with
  | [] => (.error closedOutput, [])
  | unread =>
    let (line, rest) := takeLine unread
    (Response.ofLine line, rest)

/-- What a service does upon a request. -/
structure Emission where
  bytes : List UInt8 := []
  closes : Bool := false
  exits : Bool := false

/-- A service program: how it starts, and how it answers. -/
structure Host (β : Type) where
  start : β
  respond : β → Path → String → β × Emission

structure Conversation (β : Type) where
  root : Path
  received : List Request
  unread : List UInt8 := []
  speaking : Bool := true
  listening : Bool := true
  host : β

namespace Conversation

/-- What a service does upon a request while its output is open. -/
def answer (h : Host β) (c : Conversation β) (file : Path) (source : String) : Conversation β :=
  let (host, e) := h.respond c.host file source
  { c with
    host
    unread := c.unread ++ e.bytes
    speaking := !e.closes && !e.exits
    listening := !e.exits }

/-- Sends a request. A service that has exited takes none, and one that closed its output takes all
without doing anything more. -/
def send (h : Host β) (c : Conversation β) (file : Path) (source : String) :
    Option (Conversation β) :=
  if !c.listening then none
  else
    let c : Conversation β := { c with received := c.received ++ [.analyze file source] }
    some (if c.speaking then c.answer h file source else c)

def exchange (h : Host β) (c : Conversation β) (file : Path) (source : String) :
    Conversation β × Outcome AnalysisFault Analysis :=
  match c.send h file source with
  | none => (c, .failed ⟨file, brokenPipe⟩)
  | some c =>
    let (response, unread) := receive c.unread
    ({ c with unread }, Response.outcome c.root file response)

end Conversation

/-- A program that serves a build; only an installed one can be started. -/
structure Program where
  name : String
  installed : Bool

namespace Program

/-- Why a program that is not installed cannot be started from a directory. A name without a slash
is looked for where programs are kept, and dots lead from there to directories. Whatever else a path
leads to may not be run. -/
def absence (t : FileTree) (dir : Path) (name : String) : FileFault :=
  if name = "." || name = ".." then .forbidden
  else if !name.toList.contains '/' then
    if FileTree.longestName < name.utf8ByteSize then .nameTooLong else .missing
  else
    match { t with here := t.absolute dir }.lookUp ⟨name⟩ with
    | .error f => f
    | .ok _ => .forbidden

def nulInArgument : String := "nul byte found in provided data"

/-- Why a program cannot be started in a directory: the directory comes first. -/
def launchFault? (t : FileTree) (dir : Path) (p : Program) : Option String :=
  if p.name.toList.contains '\x00' || dir.text.toList.contains '\x00' then some nulInArgument
  else
    match t.lookUp dir with
    | .error f => some f.message
    | .ok (.file _) => some FileFault.throughFile.message
    | .ok .directory => if p.installed then none else some (absence t dir p.name).message

end Program

def startFault (program : Program) (dir : Path) (reason : String) : AnalysisFault :=
  ⟨dir, "Could not start language service '" ++ program.name ++ "': " ++ reason⟩

/-- One service for each root, told about its root when it starts. -/
def engine (program : Program) (h : Host β) : Engine (List (Conversation β)) Nat where
  create t facts options cs :=
    match program.launchFault? t facts.directory with
    | some reason => (cs, .failed (startFault program facts.directory reason))
    | none =>
      let c : Conversation β :=
        { root := facts.directory, received := [.init facts options], host := h.start }
      (cs ++ [c], .ok cs.length)
  analyze _ i file source cs :=
    match cs[i]? with
    | none => (cs, .failed ⟨file, brokenPipe⟩)
    | some c =>
      let (c, outcome) := c.exchange h file source
      (cs.set i c, outcome)

end RootedBuild.Service
