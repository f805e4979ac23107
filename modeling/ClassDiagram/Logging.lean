import ClassDiagram.Text.Keyword
/-!
# Log levels and log formats

The two vocabularies by which a user chooses what is logged and how it looks.
-/

namespace ClassDiagram

/-- How much has to matter to be logged. -/
inductive LogLevel where
  | trace
  | debug
  | info
  | warn
  | error
deriving DecidableEq, Repr

namespace LogLevel

/-- The canonical spelling. -/
def text : LogLevel → String
  | trace => "trace"
  | debug => "debug"
  | info => "info"
  | warn => "warn"
  | error => "error"

/-- Every level, the most talkative first. -/
def all : List LogLevel := [trace, debug, info, warn, error]

end LogLevel

/-- The look of a log. -/
inductive LogFormat where
  /-- One line for each event. -/
  | compact
  /-- Many lines for each event. -/
  | pretty
  /-- One document for each event. -/
  | json
deriving DecidableEq, Repr

namespace LogFormat

/-- The canonical spelling. -/
def text : LogFormat → String
  | compact => "compact"
  | pretty => "pretty"
  | json => "json"

/-- Every format. -/
def all : List LogFormat := [compact, pretty, json]

/-- Reads a format. -/
def ofText? (s : String) : Option LogFormat :=
  Text.keyword? (all.map fun f => (f.text, f)) s

/-- The words about a text that is no format. -/
def unknown (s : String) : String := "Unknown log format: " ++ s

end LogFormat

end ClassDiagram
