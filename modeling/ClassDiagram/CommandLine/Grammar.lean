/-!
# Grammars of command lines

A command line is read from left to right. A grammar says which parameters there are, what each
does to the draft that is being filled in, and which words begin a command. The value of a
parameter is attached to its name or is the next argument; in the latter case it is looked at only
when the next parameter, or the end, is reached.
-/

namespace ClassDiagram.CommandLine

/-- Why a command line is not carried out. -/
inductive Stop where
  /-- Help is asked for. -/
  | help
  /-- The version is asked for. -/
  | version
  /-- Nothing at all is asked for, which is answered with help. -/
  | nothingGiven
  | missingCommand
  | unknownCommand
  | unknownArgument
  | repeatedArgument
  /-- A value is missing, empty, or none of those that may stand there. -/
  | invalidValue
  /-- A value is attached to a parameter that takes none. -/
  | unwantedValue
deriving DecidableEq, Repr

/-- The exit code: to get what was asked for is a success. -/
def Stop.exitCode : Stop → Nat
  | help | version => 0
  | _ => 2

/-- What a parameter does to a draft. -/
inductive Action (α : Type) where
  /-- It takes no value and is given at most once. -/
  | switch (isSet : α → Bool) (set : α → α)
  /-- It takes a value and is given at most once. -/
  | single (isSet : α → Bool) (set : α → String → Option α)
  /-- It takes a value and may be given again. -/
  | repeated (add : α → String → Option α)
  /-- It ends the reading. -/
  | stop (reason : Stop)

namespace Action

variable {α : Type}

/-- The parameter takes a value. -/
def takesValue : Action α → Bool
  | single .. | repeated _ => true
  | switch .. | stop _ => false

/-- The draft after the parameter was given without a value. -/
def mark (draft : α) : Action α → Except Stop α
  | switch isSet set => if isSet draft then .error .repeatedArgument else .ok (set draft)
  | stop reason => .error reason
  | single .. | repeated _ => .error .invalidValue

/-- The draft after the parameter was given with a value. -/
def take (draft : α) (value : String) : Action α → Except Stop α
  | single isSet set =>
    if isSet draft then .error .repeatedArgument
    else (set draft value).elim (.error .invalidValue) .ok
  | repeated add => (add draft value).elim (.error .invalidValue) .ok
  | switch .. | stop _ => .error .unwantedValue

end Action

/-- A named parameter. -/
structure Parameter (α : Type) where
  /-- The name behind two hyphens. -/
  long : String
  /-- The letter behind one hyphen. -/
  short : Option Char := none
  action : Action α

/-- Parameters, and the words that begin a command. -/
structure Grammar (α : Type) where
  parameters : List (Parameter α)
  commands : List String := []

/-- What an argument looks like. -/
inductive Token where
  /-- Two hyphens: no parameter comes after them. -/
  | escape
  | long (name : String) (value : Option String)
  | cluster (letters : List Char)
  | plain
deriving DecidableEq, Repr

/-- A text at the first sign of equality: what is before it, and what is behind it. -/
def splitValue (text : List Char) : String × Option String :=
  match text.span (· != '=') with
  | (name, []) => (String.ofList name, none)
  | (name, _ :: value) => (String.ofList name, some (String.ofList value))

/-- The look of an argument. A single hyphen is plain. -/
def Token.ofArgument (argument : String) : Token :=
  match argument.toList with
  | ['-', '-'] => escape
  | '-' :: '-' :: text => let (name, value) := splitValue text; long name value
  | '-' :: c :: text => cluster (c :: text)
  | _ => plain

/-- A parameter given without an attached value, and the value if it has come. -/
structure Pending (α : Type) where
  action : Action α
  value : Option String := none

/-- What was read: a draft, and a parameter whose value has yet to be looked at. -/
structure Reading (α : Type) where
  draft : α
  pending : Option (Pending α) := none

namespace Reading

variable {α : Type}

/-- The next argument is the value of a parameter unless it looks like a parameter. -/
def awaitsValue (r : Reading α) : Bool := r.pending.any fun p => p.value.isNone

/-- The draft after the pending value was looked at. -/
def settle (r : Reading α) : Except Stop α :=
  match r.pending with
  | none => .ok r.draft
  | some ⟨action, some value⟩ => action.take r.draft value
  | some ⟨_, none⟩ => .error .invalidValue

/-- Reads a value that was awaited. -/
def answer (r : Reading α) (value : String) : Reading α :=
  { r with pending := r.pending.map fun p => { p with value := some value } }

/-- Reads a parameter, with an attached value or without. -/
def give (r : Reading α) (action : Action α) (attached : Option String) :
    Except Stop (Reading α) :=
  match action.takesValue, attached with
  | false, some _ => .error .unwantedValue
  | false, none => return { draft := ← action.mark (← r.settle) }
  | true, some value => return { draft := ← action.take (← r.settle) value }
  | true, none => return { draft := ← r.settle, pending := some { action } }

end Reading

/-- Where a grammar's reading ends. -/
inductive Ending (α : Type) where
  /-- The arguments are used up. -/
  | complete (reading : Reading α)
  /-- A command begins; the arguments behind its name are left. -/
  | command (name : String) (rest : List String) (reading : Reading α)

namespace Grammar

variable {α : Type}

/-- The action of the parameter of a name. -/
def long? (g : Grammar α) (name : String) : Option (Action α) :=
  (g.parameters.find? fun p => p.long == name).map (·.action)

/-- The action of the parameter of a letter. -/
def short? (g : Grammar α) (c : Char) : Option (Action α) :=
  (g.parameters.find? fun p => p.short == some c).map (·.action)

/-- Reads letters behind one hyphen. What follows the letter of a parameter that takes a value is
the value, with a sign of equality in front or without. -/
def readCluster (g : Grammar α) (r : Reading α) : List Char → Except Stop (Reading α)
  | [] => .ok r
  | c :: rest =>
    match g.short? c with
    | none => .error .unknownArgument
    | some action =>
      if action.takesValue then
        match rest with
        | [] => r.give action none
        | '=' :: value => r.give action (some (String.ofList value))
        | value => r.give action (some (String.ofList value))
      else do g.readCluster (← r.give action none) rest

/-- Why an argument is refused that is neither a parameter nor a value. The name of a command is
unknown as such behind two hyphens only. -/
def stray (g : Grammar α) (argument : String) : Stop :=
  if g.commands.isEmpty || g.commands.contains argument then .unknownArgument else .unknownCommand

/-- Reads arguments up to their end or to a command. -/
def read (g : Grammar α) (r : Reading α) : List String → Except Stop (Ending α)
  | [] => .ok (.complete r)
  | argument :: rest =>
    if !r.awaitsValue && g.commands.contains argument then .ok (.command argument rest r)
    else
      match Token.ofArgument argument with
      | .escape => rest.head?.elim (.ok (.complete r)) fun next => .error (g.stray next)
      | .long name value =>
        match g.long? name with
        | none => .error .unknownArgument
        | some action => do g.read (← r.give action value) rest
      | .cluster letters => do g.read (← g.readCluster r letters) rest
      | .plain =>
        if r.awaitsValue then g.read (r.answer argument) rest else .error (g.stray argument)

end Grammar

end ClassDiagram.CommandLine
