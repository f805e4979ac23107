import ClassDiagram.Kind
import ClassDiagram.Ledger
/-!
# Traces

What the library reports of its own work. An event is reported inside the spans that are open at
that time. A traced computation is a result together with the events reported on the way to it; a
failure keeps the events that came before it.
-/

namespace ClassDiagram

/-- How much an event matters. -/
inductive Severity where
  | trace
  | debug
  | info
  | warn
deriving DecidableEq, Repr

/-- The canonical spelling. -/
def Severity.text : Severity → String
  | trace => "TRACE"
  | debug => "DEBUG"
  | info => "INFO"
  | warn => "WARN"

/-- Something that happened. Lengths of texts count UTF-8 bytes. -/
inductive Event where
  | typeRegistered (name : String) (kind : Kind) (handle : Handle)
  | modelLoaded (types roots : Nat)
  | rootSkipped (name : String) (kind : Kind)
  /-- An inheritance edge was not written again. -/
  | edgeKnown (child ancestor : Handle)
  | edgeWritten (edge : Edge)
  | fragmentBuilt (length edges ledger : Nat)
  | urlReused (url : String)
  | diagramRequested (style : String) (length : Nat)
  /-- The answer of the drawing service held no identifier. -/
  | identifierMissing (length : Nat)
  | serviceAnswered (length : Nat)
  | urlExpired (length : Nat)
  | urlsDropped (count : Nat)
deriving DecidableEq, Repr

namespace Event

/-- How much the event matters. -/
def severity : Event → Severity
  | typeRegistered .. | rootSkipped .. | edgeKnown .. | edgeWritten .. => .trace
  | urlExpired .. | urlsDropped .. => .trace
  | modelLoaded .. | fragmentBuilt .. | urlReused .. | serviceAnswered .. => .debug
  | diagramRequested .. => .info
  | identifierMissing .. => .warn

/-- The wording of the event. -/
def message : Event → String
  | typeRegistered .. => "Registered type"
  | modelLoaded .. => "Loaded type model"
  | rootSkipped .. => "Skipping non-class root"
  | edgeKnown .. => "Inheritance edge already written"
  | edgeWritten .. => "Writing edge"
  | fragmentBuilt .. => "Built fragment"
  | urlReused .. => "Diagram URL served from cache"
  | diagramRequested .. => "Requesting diagram"
  | identifierMissing .. => "Diagram service returned no identifier"
  | serviceAnswered .. => "Diagram service responded"
  | urlExpired .. => "Cached URL expired"
  | urlsDropped .. => "Dropped expired URLs"

/-- The fields of the event, each with its text. -/
def fields : Event → List (String × String)
  | typeRegistered name kind handle =>
    [("name", name), ("kind", kind.text), ("ty", handle.text)]
  | modelLoaded types roots => [("types", toString types), ("roots", toString roots)]
  | rootSkipped name kind => [("name", name), ("kind", kind.text)]
  | edgeKnown child ancestor => [("child", child.text), ("ancestor", ancestor.text)]
  | edgeWritten e =>
    [("source", e.source.text), ("target", e.target.text), ("edge", e.kind.token)]
  | fragmentBuilt length edges ledger =>
    [("length", toString length), ("edges", toString edges), ("ledger", toString ledger)]
  | urlReused url => [("url", url)]
  | diagramRequested style length => [("style", style), ("fragment_len", toString length)]
  | identifierMissing length | serviceAnswered length => [("body_len", toString length)]
  | urlExpired length => [("fragment_len", toString length)]
  | urlsDropped count => [("swept", toString count)]

end Event

/-- A stretch of work that events may lie in. -/
inductive Span where
  | loadModel (types : Nat)
  | buildFragment (types : Nat)
  | submitFragment (url : String) (length : Nat)
deriving DecidableEq, Repr

/-- The written form: a name, and the fields in the order of their names. -/
def Span.text : Span → String
  | loadModel n => "load_model\x7btype_count=" ++ toString n ++ "\x7d"
  | buildFragment n => "build_fragment\x7btype_count=" ++ toString n ++ "\x7d"
  | submitFragment url n =>
    "submit_fragment\x7bfragment_len=" ++ toString n ++ " url=" ++ url ++ "\x7d"

/-- An event, and the spans open around it, the outermost first. -/
structure Report where
  event : Event
  spans : List Span := []
deriving DecidableEq, Repr

/-- A result, and what was reported on the way to it. -/
structure Traced (ε α : Type) where
  result : Except ε α
  reports : List Report

namespace Traced

variable {ε α β : Type}

/-- A result with nothing to report. -/
def ofExcept (result : Except ε α) : Traced ε α := ⟨result, []⟩

/-- Goes on from a result. The reports of both steps stand in order; after a failure there is no
second step. -/
def andThen (x : Traced ε α) (f : α → Traced ε β) : Traced ε β :=
  match x.result with
  | .ok a => ⟨(f a).result, x.reports ++ (f a).reports⟩
  | .error e => ⟨.error e, x.reports⟩

instance : Monad (Traced ε) where
  pure a := ofExcept (.ok a)
  bind := andThen

/-- Fails. -/
def fail (e : ε) : Traced ε α := ofExcept (.error e)

/-- Reports an event. -/
def report (event : Event) : Traced ε Unit := ⟨.ok (), [⟨event, []⟩]⟩

/-- Reports events in order. -/
def reportAll (events : List Event) : Traced ε Unit := ⟨.ok (), events.map fun e => ⟨e, []⟩⟩

/-- Tells a failure in other terms. -/
def mapError {ε' : Type} (f : ε → ε') (x : Traced ε α) : Traced ε' α where
  result := x.result.mapError f
  reports := x.reports

/-- Opens a span around everything that is reported. -/
def within (span : Span) (x : Traced ε α) : Traced ε α where
  result := x.result
  reports := x.reports.map fun r => { r with spans := span :: r.spans }

instance : MonadLift (Except ε) (Traced ε) := ⟨ofExcept⟩

@[simp] theorem result_pure (a : α) : (pure a : Traced ε α).result = .ok a := rfl

@[simp] theorem reports_pure (a : α) : (pure a : Traced ε α).reports = [] := rfl

@[simp] theorem result_ofExcept (x : Except ε α) : (ofExcept x).result = x := rfl

@[simp] theorem reports_ofExcept (x : Except ε α) : (ofExcept x).reports = [] := rfl

@[simp] theorem result_report (e : Event) : (report e : Traced ε Unit).result = .ok () := rfl

@[simp] theorem result_reportAll (l : List Event) :
    (reportAll l : Traced ε Unit).result = .ok () := rfl

@[simp] theorem result_within (s : Span) (x : Traced ε α) : (x.within s).result = x.result := rfl

/-- Looking at the result only is compatible with going on. -/
@[simp] theorem result_bind (x : Traced ε α) (f : α → Traced ε β) :
    (x >>= f).result = x.result >>= fun a => (f a).result := by
  show (andThen x f).result = _
  unfold andThen
  cases h : x.result <;> rfl

instance : LawfulMonad (Traced ε) :=
  LawfulMonad.mk' (Traced ε)
    (fun x => by
      obtain ⟨r, t⟩ := x
      cases r <;> simp [Functor.map, andThen, ofExcept])
    (fun a f => by simp [bind, andThen, pure, ofExcept])
    (fun x f g => by
      obtain ⟨r, t⟩ := x
      cases r with
      | error e => simp [bind, andThen]
      | ok a => cases h : (f a).result <;> simp [bind, andThen, h])

end Traced

end ClassDiagram
