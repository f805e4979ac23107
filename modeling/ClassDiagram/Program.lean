import ClassDiagram.CommandLine.Command
import ClassDiagram.Effect
import ClassDiagram.Listing
import ClassDiagram.Model.Render
import ClassDiagram.Resolver.Basic
import ClassDiagram.Web.Exchange
/-!
# The program

A run of the program as a function of what it finds around it. A run writes as it goes, messages
first and its output last, and takes nothing back when it breaks down. It breaks down in good order
with a failure that it tells of, or it panics over something that it does not reckon with.
-/

namespace ClassDiagram

open CommandLine

/-- What a run finds around it, apart from servers. -/
structure Surroundings where
  environment : Variables
  /-- What the standard input holds. -/
  input : Except IoFault ByteArray
  /-- What a file holds. -/
  contents : String → Except IoFault ByteArray
  /-- How a place takes a text. -/
  writing : Place → String → Writing

/-- What is left of a text that is written to a place. -/
def Surroundings.effects (s : Surroundings) (place : Place) (text : String) : List Effect :=
  (s.writing place text).effects place text

/-- What the program does not reckon with. -/
inductive Panic where
  /-- A stream does not take a line. -/
  | unprinted (stream : Stream) (fault : IoFault)
  /-- URLs would be kept for longer than a cache can keep them. -/
  | lifetimeTooLong
  /-- The names of a listing are too long for a table. -/
  | columnTooWide
deriving DecidableEq, Repr

/-- The words of a panic. -/
def Panic.text : Panic → String
  | unprinted .output fault => "failed printing to stdout: " ++ fault.message
  | unprinted .messages fault => "failed printing to stderr: " ++ fault.message
  | lifetimeTooLong => "time_to_live is longer than 1000 years"
  | columnTooWide => "Formatting argument out of range"

/-- Why a run breaks down. -/
inductive Breakdown where
  | mishap (m : Mishap)
  /-- The file, or the standard input, cannot be read. -/
  | unread (path : Option String) (fault : IoFault)
  /-- The file, or the standard output, cannot be written. -/
  | unwritten (path : Option String) (fault : IoFault)
  | panic (p : Panic)
deriving DecidableEq, Repr

/-- The words of a breakdown. -/
def Breakdown.text : Breakdown → String
  | mishap m => "Error: " ++ m.chain
  | unread (some path) fault =>
    "Error: Failed to read input file " ++ path ++ ": " ++ fault.message
  | unread none fault => "Error: Failed to read from stdin: " ++ fault.message
  | unwritten (some path) fault =>
    "Error: Failed to write output file " ++ path ++ ": " ++ fault.message
  | unwritten none fault => "Error: Failed to write to stdout: " ++ fault.message
  | panic p => p.text

/-- What has come of a run so far: its effects, and the state of the servers. -/
structure Sideline (σ : Type) where
  effects : List Effect
  world : σ

/-- A piece of work of the program. -/
abbrev Work (σ α : Type) := ExceptT Breakdown (StateM (Sideline σ)) α

namespace Program

/-- The version of the program. -/
def version : String := "0.1.0"

variable {σ : Type}

/-- Goes on with a result, or breaks down. -/
def require {α : Type} : Except Breakdown α → Work σ α
  | .ok a => pure a
  | .error b => throw b

/-- Writes a line to a place. What is taken of it stays there, also if the run breaks down over the
rest. -/
def writeLine (s : Surroundings) (place : Place) (broken : IoFault → Breakdown) (line : String) :
    Work σ Unit := do
  let text := line ++ "\n"
  modify fun sideline => { sideline with effects := sideline.effects ++ s.effects place text }
  require ((s.writing place text).result.mapError broken)

/-- The breakdown over a stream that does not take a line. -/
def unprinted (stream : Stream) (fault : IoFault) : Breakdown := .panic (.unprinted stream fault)

/-- Prints a line on a stream. -/
def print (s : Surroundings) (stream : Stream) (line : String) : Work σ Unit :=
  writeLine s (.stream stream) (unprinted stream) line

/-- Tells a line if it is wanted. -/
def tell (s : Surroundings) (wanted : Bool) (line : String) : Work σ Unit :=
  if wanted then print s .messages line else pure ()

/-- The breakdown for a failure in the midst of a task. -/
def failed (task : Option Task) (failure : Failure) : Breakdown := .mishap ⟨task, failure⟩

/-- The file that a path names; a hyphen names none. -/
def file? (path : Option String) : Option String := path.filter (· != "-")

/-- The text of the model. -/
def modelText (s : Surroundings) (path : Option String) : Except Breakdown String :=
  match (file? path).elim s.input s.contents with
  | .error fault => .error (.unread (file? path) fault)
  | .ok bytes =>
    match String.fromUTF8? bytes with
    | some text => .ok text
    | none => .error (.unread (file? path) .invalidUtf8)

/-- The number of classes among the types that a model asks to draw. -/
def classRoots (l : Loaded) : Nat :=
  l.roots.countP fun h => (l.registry.get? h).any (·.kind.isDrawn)

/-- Reads and loads the model. -/
def loadModel (s : Surroundings) (i : Invocation) : Work σ Loaded := do
  let text ← require (modelText s i.command.input)
  tell s i.verbose ("Read " ++ toString text.utf8ByteSize ++ " bytes of input")
  let loaded ← require ((Model.loadText text).result.mapError (failed none))
  tell s i.verbose ("Loaded " ++ toString loaded.registry.size ++ " types, " ++
    toString (classRoots loaded) ++ " class roots")
  pure loaded

/-- The text of the fragment of a loaded model. -/
def fragmentText (l : Loaded) (choices : List DetailChoice) : Work σ String := do
  let drawing := l.drawing .empty (DetailChoice.detail choices)
  let fragment ← require ((drawing.fragment {}).result.mapError (failed (some .buildFragment)))
  pure fragment.text

/-- Where the output goes that a path names. -/
def destination (path : Option String) : Place :=
  (file? path).elim (.stream .output) .file

/-- Writes a line to where it goes. -/
def deliver (s : Surroundings) (path : Option String) (line : String) : Work σ Unit :=
  writeLine s (destination path) (.unwritten (file? path)) line

/-- The URL of the diagram of a fragment. -/
def diagramUrl (client : Web.Client σ) (settings : Settings) (style : Style) (fragment : String) :
    Work σ String := do
  match SharedCache.ofLifetime? settings.lifetime with
  | none => throw (.panic .lifetimeTooLong)
  | some cache =>
    let resolver : Resolver SharedCache := { cache, imageHost := settings.imageHost }
    let sideline ← get
    let (url, _, world) :=
      resolver.resolve (Web.drawingService settings client) 0 style fragment sideline.world
    set { sideline with world }
    require (url.result.mapError (failed (some .resolveUrl)))

/-- The text of a listing in the form that is asked for. -/
def listingText (l : Listing) (o : InspectOptions) : Except Breakdown String :=
  match l.render o.json with
  | some text => .ok text
  | none => .error (.panic .columnTooWide)

/-- Carries out a command. -/
def carryOut (s : Surroundings) (client : Web.Client σ) (i : Invocation) : Work σ Unit := do
  let loaded ← loadModel s i
  match i.command with
  | .fragment o => deliver s o.output (← fragmentText loaded o.detail)
  | .resolve o => do
    let fragment ← fragmentText loaded o.detail
    tell s i.verbose ("Fragment: " ++ fragment)
    let settings := (Settings.ofVariables s.environment).override o.endpoint o.imageHost
    print s .output (← diagramUrl client settings o.style fragment)
  | .inspect o => print s .output (← require (listingText loaded.listing o))

/-- What is told before any work. A log format that is not known is told of, and the run goes on. -/
def opening (s : Surroundings) (i : Invocation) : Work σ Unit := do
  let format := (s.environment "YUMLIFY_LOG_FORMAT").getD i.logFormat.text
  let warning := "Warning: Failed to initialize logging: Invalid log format: "
  tell s (LogFormat.ofText? format).isNone (warning ++ LogFormat.unknown format)
  tell s i.verbose ("yumlify v" ++ version)

/-- The end of a run that panics. That is told of as far as it can be. -/
def die (s : Surroundings) (p : Panic) (effects : List Effect) : Outcome where
  exitCode := 101
  effects := effects ++ s.effects (.stream .messages) (p.text ++ "\n")

/-- The end of a run. A failure is told of, and not to be able to is a panic. -/
def conclude (s : Surroundings) (effects : List Effect) : Except Breakdown Unit → Outcome
  | .ok () => { exitCode := 0, effects }
  | .error (.panic p) => die s p effects
  | .error b =>
    let text := b.text ++ "\n"
    let effects := effects ++ s.effects (.stream .messages) text
    match (s.writing (.stream .messages) text).result with
    | .ok () => { exitCode := 1, effects }
    | .error fault => die s (.unprinted .messages fault) effects

/-- How the program is called. -/
def usage : List String :=
  ["Usage: yumlify [OPTIONS] <COMMAND>",
    "",
    "Commands:",
    "  fragment  Print the fragment of a model",
    "  resolve   Print the URL of the diagram of a model",
    "  inspect   List the types declared in a model",
    "  help      Print this help"]

/-- What a run prints that carries out nothing, and where. -/
def notice : Stop → Stream × String
  | .help => (.output, "\n".intercalate usage ++ "\n")
  | .version => (.output, "yumlify " ++ version ++ "\n")
  | _ => (.messages, "\n".intercalate usage ++ "\n")

/-- The end of a run that carries out nothing, whether or not its notice is taken. -/
def stopped (s : Surroundings) (stop : Stop) : Outcome :=
  let (stream, text) := notice stop
  { exitCode := stop.exitCode, effects := s.effects (.stream stream) text }

/-- Runs the program on arguments, in a world of servers. -/
def run (s : Surroundings) (client : Web.Client σ) (arguments : List String) (world : σ) :
    Outcome × σ :=
  match Invocation.read arguments with
  | .error stop => (stopped s stop, world)
  | .ok i =>
    let work : Work σ Unit := do
      opening s i
      carryOut s client i
    let (result, sideline) := work.run { effects := [], world }
    (conclude s sideline.effects result, sideline.world)

end Program

end ClassDiagram
