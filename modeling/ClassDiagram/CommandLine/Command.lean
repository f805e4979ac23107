import ClassDiagram.CommandLine.Grammar
import ClassDiagram.Detail
import ClassDiagram.Logging
import ClassDiagram.Style
/-!
# Commands

What the command line can ask for: the fragment of a model, the URL of its diagram, or a listing of
its types.
-/

namespace ClassDiagram.CommandLine

/-- A choice of members to list. -/
inductive DetailChoice where
  | group (g : MemberGroup)
  /-- Every group. -/
  | all
deriving DecidableEq, Repr

namespace DetailChoice

/-- The canonical spelling. -/
def text : DetailChoice → String
  | group g => g.text
  | all => "all"

/-- Every choice. -/
def choices : List DetailChoice := MemberGroup.all.map group ++ [all]

/-- Adds what is chosen. -/
def add (d : Detail) : DetailChoice → Detail
  | group g => d.insert g
  | all => Detail.all

/-- The detail of all choices together. -/
def detail (choices : List DetailChoice) : Detail := choices.foldl add .none

end DetailChoice

/-- Asks for a fragment. -/
structure FragmentOptions where
  /-- The file of the model; without one, or for a hyphen, it is read from the standard input. -/
  input : Option String := none
  /-- The file for the fragment; without one, or for a hyphen, it goes to the standard output. -/
  output : Option String := none
  detail : List DetailChoice := []
deriving DecidableEq, Repr

/-- Asks for the URL of a diagram. -/
structure ResolveOptions where
  input : Option String := none
  detail : List DetailChoice := []
  palette : Option Palette := none
  direction : Option Direction := none
  scale : Option Scale := none
  endpoint : Option String := none
  imageHost : Option String := none
deriving DecidableEq, Repr

/-- The style that is asked for. -/
def ResolveOptions.style (o : ResolveOptions) : Style :=
  let d : Style := {}
  ⟨o.palette.getD d.palette, o.direction.getD d.direction, o.scale.getD d.scale⟩

/-- Asks for a listing. -/
structure InspectOptions where
  input : Option String := none
  /-- The listing is to be a document. -/
  json : Bool := false
deriving DecidableEq, Repr

/-- What is asked for. -/
inductive Command where
  | fragment (options : FragmentOptions)
  | resolve (options : ResolveOptions)
  | inspect (options : InspectOptions)
deriving DecidableEq, Repr

/-- The file that the model is read from. -/
def Command.input : Command → Option String
  | fragment o => o.input
  | resolve o => o.input
  | inspect o => o.input

/-- A command, and how to talk about the work on it. -/
structure Invocation where
  command : Command
  verbose : Bool := false
  logLevel : LogLevel := .warn
  logFormat : LogFormat := .compact
deriving DecidableEq, Repr

/-! ## Parameters -/

/-- A path, which is not empty. -/
def path? (value : String) : Option String := if value.isEmpty then none else some value

/-- The one of `all` that is spelt in this way. -/
def spelt? {β : Type} (all : List β) (text : β → String) (value : String) : Option β :=
  all.find? fun b => text b == value

/-- Asks for help. -/
def helpParameter {α : Type} : Parameter α :=
  { long := "help", short := some 'h', action := .stop .help }

/-- The parameters of a fragment. -/
def fragmentGrammar : Grammar FragmentOptions where
  parameters :=
    [{ long := "input", short := some 'i',
       action := .single (·.input.isSome) fun o v =>
        (path? v).map fun p => { o with input := some p } },
     { long := "output", short := some 'o',
       action := .single (·.output.isSome) fun o v =>
        (path? v).map fun p => { o with output := some p } },
     { long := "detail", short := some 'd',
       action := .repeated fun o v =>
        (spelt? DetailChoice.choices DetailChoice.text v).map fun c =>
          { o with detail := o.detail ++ [c] } },
     helpParameter]

/-- The parameters of a URL. -/
def resolveGrammar : Grammar ResolveOptions where
  parameters :=
    [{ long := "input", short := some 'i',
       action := .single (·.input.isSome) fun o v =>
        (path? v).map fun p => { o with input := some p } },
     { long := "detail", short := some 'd',
       action := .repeated fun o v =>
        (spelt? DetailChoice.choices DetailChoice.text v).map fun c =>
          { o with detail := o.detail ++ [c] } },
     { long := "palette",
       action := .single (·.palette.isSome) fun o v =>
        (spelt? [.plain, .boring, .scruffy] Palette.text v).map fun p =>
          { o with palette := some p } },
     { long := "direction",
       action := .single (·.direction.isSome) fun o v =>
        (spelt? [.leftToRight, .topToBottom, .rightToLeft] (·.code.toLower) v).map fun d =>
          { o with direction := some d } },
     { long := "scale",
       action := .single (·.scale.isSome) fun o v =>
        (spelt? Scale.all Scale.text v).map fun s => { o with scale := some s } },
     { long := "endpoint",
       action := .single (·.endpoint.isSome) fun o v => some { o with endpoint := some v } },
     { long := "image-host",
       action := .single (·.imageHost.isSome) fun o v => some { o with imageHost := some v } },
     helpParameter]

/-- The parameters of a listing. -/
def inspectGrammar : Grammar InspectOptions where
  parameters :=
    [{ long := "input", short := some 'i',
       action := .single (·.input.isSome) fun o v =>
        (path? v).map fun p => { o with input := some p } },
     { long := "json", action := .switch (·.json) fun o => { o with json := true } },
     helpParameter]

/-- What stands in front of a command. -/
structure Preamble where
  verbose : Bool := false
  logLevel : Option LogLevel := none
  logFormat : Option LogFormat := none
deriving DecidableEq, Repr

/-- The parameters in front of a command, and the names of the commands. -/
def preambleGrammar : Grammar Preamble where
  commands := ["fragment", "resolve", "inspect", "help"]
  parameters :=
    [{ long := "verbose", short := some 'v',
       action := .switch (·.verbose) fun o => { o with verbose := true } },
     { long := "log-level",
       action := .single (·.logLevel.isSome) fun o v =>
        (spelt? LogLevel.all LogLevel.text v).map fun l => { o with logLevel := some l } },
     { long := "log-format",
       action := .single (·.logFormat.isSome) fun o v =>
        (spelt? LogFormat.all LogFormat.text v).map fun f => { o with logFormat := some f } },
     helpParameter,
     { long := "version", short := some 'V', action := .stop .version }]

/-! ## Reading -/

/-- Reads the arguments of a command that has no commands in itself. -/
def Grammar.readAll {α : Type} (g : Grammar α) (draft : α) (arguments : List String) :
    Except Stop α := do
  match ← g.read { draft } arguments with
  | .complete reading => reading.settle
  | .command .. => .error .unknownCommand

/-- Help is asked for, for the whole or for one command. -/
def helpOn (topics : List String) : Stop :=
  match topics with
  | [] => .help
  | [topic] => if preambleGrammar.commands.contains topic then .help else .unknownCommand
  | _ => .unknownCommand

/-- Reads the arguments behind the name of a command. -/
def Command.read (name : String) (arguments : List String) : Except Stop Command :=
  match name with
  | "fragment" => return .fragment (← fragmentGrammar.readAll {} arguments)
  | "resolve" => return .resolve (← resolveGrammar.readAll {} arguments)
  | "inspect" => return .inspect (← inspectGrammar.readAll {} arguments)
  | _ => .error (helpOn arguments)

/-- Reads a command line. What stands behind the name of the command is read before the last value
in front of it is looked at. -/
def Invocation.read (arguments : List String) : Except Stop Invocation := do
  match ← preambleGrammar.read { draft := {} } arguments with
  | .complete reading =>
    let preamble ← reading.settle
    .error (if preamble = {} then .nothingGiven else .missingCommand)
  | .command name rest reading =>
    let command ← Command.read name rest
    let preamble ← reading.settle
    pure { command, verbose := preamble.verbose
           logLevel := preamble.logLevel.getD .warn
           logFormat := preamble.logFormat.getD .compact }

end ClassDiagram.CommandLine
