/-!
# Faults on the way to the drawing service

Why no answer came back from a request. A fault has a text of its own; some have a further cause,
which is told only where the whole chain of causes is.
-/

namespace ClassDiagram.Web

/-- Why a request failed. -/
inductive HttpFault where
  /-- The text is no absolute URL, for a reason in words. -/
  | invalidUrl (reason : String)
  /-- The URL is absolute, but not one of the web. -/
  | foreignScheme (url : String)
  /-- The server refused the request, with this status and reason. -/
  | refused (status : Nat) (reason : String) (url : String)
  /-- No server answered. -/
  | unanswered (url : String)
deriving DecidableEq, Repr

namespace HttpFault

/-- The URL a fault names. -/
def forUrl (url : String) : String := " for url (" ++ url ++ ")"

/-- The wording of the fault. -/
def message : HttpFault → String
  | invalidUrl _ => "builder error"
  | foreignScheme url => "builder error" ++ forUrl url
  | refused status reason url =>
    (if status < 500 then "HTTP status client error (" else "HTTP status server error (") ++
      toString status ++ " " ++ reason ++ ")" ++ forUrl url
  | unanswered url => "error sending request" ++ forUrl url

/-- The wording of the further cause. -/
def cause? : HttpFault → Option String
  | invalidUrl reason => some reason
  | foreignScheme _ => some "URL scheme is not allowed"
  | refused .. => none
  | unanswered .. => none

end HttpFault

end ClassDiagram.Web
