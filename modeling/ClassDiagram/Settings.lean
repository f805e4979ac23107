import ClassDiagram.Decimal.Natural
import ClassDiagram.Style
import ClassDiagram.Text.Blank
/-!
# Settings

Where the drawing service is and how long its answers are kept. The defaults are those of the
public service. Variables override them one by one; a variable that is blank, or that should be a
number and is none, is as good as absent.
-/

namespace ClassDiagram

/-- The settings of a resolver. Spans of time are in seconds. -/
structure Settings where
  /-- The URL in front of the path of a request. -/
  endpoint : String := "https://yuml.me/diagram"
  /-- What is put in front of an identifier to make the URL of a diagram. -/
  imageHost : String := "https://yuml.me/"
  /-- How long a URL is kept. -/
  lifetime : Nat := 30000
  /-- How long an answer is waited for. -/
  timeout : Nat := 30
deriving DecidableEq, Repr

/-- The values of variables by name. -/
abbrev Variables := String → Option String

namespace Settings

/-- The greatest span of time that a variable can name: 64 bits of seconds. -/
def longest : Nat := UInt64.size - 1

/-- A text, if it is not blank. -/
def nonblank? (s : String) : Option String := if (Text.trim s).isEmpty then none else some s

/-- A span of time, with blanks around it or without. -/
def seconds? (s : String) : Option Nat := Decimal.natural? longest (Text.trim s)

/-- The settings with what the variables override. -/
def ofVariables (vars : Variables) : Settings :=
  let d : Settings := {}
  { endpoint := ((vars "YUMLIFY_ENDPOINT").bind nonblank?).getD d.endpoint
    imageHost := ((vars "YUMLIFY_IMAGE_HOST").bind nonblank?).getD d.imageHost
    lifetime := ((vars "YUMLIFY_CACHE_TTL_SECS").bind seconds?).getD d.lifetime
    timeout := ((vars "YUMLIFY_TIMEOUT_SECS").bind seconds?).getD d.timeout }

/-- The settings with another endpoint and image host, where one is given. -/
def override (s : Settings) (endpoint imageHost : Option String) : Settings :=
  { s with endpoint := endpoint.getD s.endpoint, imageHost := imageHost.getD s.imageHost }

/-- The text without the slashes at its end. -/
def trimSlashes (s : String) : String :=
  String.ofList (s.toList.reverse.dropWhile (· == '/')).reverse

/-- The URL to which a fragment is sent that is to be drawn in a style. -/
def classUrl (s : Settings) (style : Style) : String :=
  trimSlashes s.endpoint ++ "/" ++ style.pathSegment ++ "/class/"

end Settings

end ClassDiagram
