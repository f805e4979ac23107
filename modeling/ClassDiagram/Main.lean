import ClassDiagram.Program
/-!
# The command line

Reads what the program needs, runs it, and puts its effects where they belong. There is no way to
the network from here, so a request is never answered.
-/

namespace ClassDiagram

/-- The fault behind an error of the system. -/
def IoFault.ofError : IO.Error → IoFault
  | .noFileOrDirectory .. => .notFound
  | .inappropriateType .. => .isDirectory
  | e => .other (toString e)

/-- The variables that matter. -/
def variableNames : List String :=
  ["YUMLIFY_ENDPOINT", "YUMLIFY_IMAGE_HOST", "YUMLIFY_CACHE_TTL_SECS", "YUMLIFY_TIMEOUT_SECS",
    "YUMLIFY_LOG_FORMAT"]

/-- Does something, and tells the fault if it cannot be done. -/
def attempt {α : Type} (action : IO α) : IO (Except IoFault α) := do
  try return .ok (← action) catch e => return .error (.ofError e)

/-- Reads a stream to its end. -/
partial def readStream (stream : IO.FS.Stream) (read : ByteArray) : IO ByteArray := do
  let bytes ← stream.read 65536
  if bytes.isEmpty then return read else readStream stream (read ++ bytes)

/-- What a model is read from: a file, or else the standard input. -/
def readSource (path : Option String) : IO (Except IoFault ByteArray) :=
  match path with
  | some path => attempt (IO.FS.readBinFile path)
  | none => do attempt (readStream (← IO.getStdin) .empty)

/-- Finds what surrounds a run on these arguments. Every place is expected to take what it is
given. -/
def surroundings (arguments : List String) : IO Surroundings := do
  let found ← variableNames.mapM fun name => return (name, ← IO.getEnv name)
  let environment : Variables := fun name => (found.lookup name).join
  let writing (_ : Place) (_ : String) : Writing := .whole
  match CommandLine.Invocation.read arguments with
  | .error _ =>
    return { environment, input := .ok .empty, contents := fun _ => .error .notFound, writing }
  | .ok i =>
    let content ← readSource (Program.file? i.command.input)
    return { environment, input := content, contents := fun _ => content, writing }

/-- Gives the bytes of an effect to their place. -/
def Effect.perform (e : Effect) : IO Unit :=
  match e.place with
  | .stream .output => do
    let output ← IO.getStdout
    output.write e.bytes
    output.flush
  | .stream .messages => do (← IO.getStderr).write e.bytes
  | .file path => IO.FS.writeBinFile path e.bytes

/-- Performs the effects of a run, of which the first ones are done. Where a place does not take its
bytes, the run goes on from there in the knowledge of that. -/
partial def perform (s : Surroundings) (arguments : List String) (done : Nat) : IO UInt32 := do
  let client : Web.Client Unit :=
    { read := fun text => .ok (.web { text, target := text })
      send := fun _ _ world => (none, world) }
  let (outcome, _) := Program.run s client arguments ()
  match outcome.effects[done]? with
  | none => return outcome.exitCode.toUInt32
  | some e =>
    match ← attempt e.perform with
    | .ok () => perform s arguments (done + 1)
    | .error fault =>
      let writing (place : Place) (text : String) : Writing :=
        if place = e.place ∧ text.toUTF8 = e.bytes then .refused fault else s.writing place text
      perform { s with writing } arguments done

end ClassDiagram

/-- Runs the program on the arguments of the command line. -/
def main (arguments : List String) : IO UInt32 := do
  ClassDiagram.perform (← ClassDiagram.surroundings arguments) arguments 0
