import ClassDiagram.Resolver.Basic
import ClassDiagram.Settings
import ClassDiagram.Text.FormField
import ClassDiagram.Text.Utf8
/-!
# Asking the drawing service

A fragment is sent to the drawing service as the one field of a form, and the body of the response
is its answer. A response of a status that tells of an error is a refusal.

How URLs are read and how requests travel is the business of a client, of which nothing is assumed
here.
-/

namespace ClassDiagram.Web

/-- A URL of the web. -/
structure Url where
  /-- The written form. -/
  text : String
  /-- What is asked of the host: the path and the query. -/
  target : String
deriving DecidableEq, Repr

/-- What an absolute URL leads to. -/
inductive Address where
  | web (url : Url)
  /-- Something that is not reached over the web. -/
  | foreign (text : String)
deriving DecidableEq, Repr

/-- A request. -/
structure Request where
  method : String
  target : String
  contentType : String
  body : String
deriving DecidableEq, Repr

/-- A response. -/
structure Response where
  status : Nat
  reason : String
  body : ByteArray

/-- What requests go through in a world of states `σ`. -/
structure Client (σ : Type) where
  /-- Reads an absolute URL. A text that is none is refused in words. -/
  read : String → Except String Address
  /-- Sends a request. Nothing comes back when no server is there. -/
  send : Url → Request → σ → Option Response × σ

/-- The request that sends a fragment. -/
def fragmentRequest (url : Url) (fragment : String) : Request where
  method := "POST"
  target := url.target
  contentType := "application/x-www-form-urlencoded"
  body := "dsl_text=" ++ Text.formEncode fragment

/-- A response with this status has no body, whatever its server sends. -/
def isBodiless (status : Nat) : Bool := status == 204 || status == 304

/-- The answer that a response carries. -/
def Response.answer (url : Url) (r : Response) : Except HttpFault String :=
  if 400 ≤ r.status ∧ r.status < 600 then .error (.refused r.status r.reason url.text)
  else .ok (if isBodiless r.status then "" else Text.decodeLossy r.body)

/-- Sends a fragment to a URL in the form of a text. -/
def exchange {σ : Type} (client : Client σ) (target fragment : String) (world : σ) :
    Except HttpFault String × σ :=
  match client.read target with
  | .error reason => (.error (.invalidUrl reason), world)
  | .ok (.foreign text) => (.error (.foreignScheme text), world)
  | .ok (.web url) =>
    match client.send url (fragmentRequest url fragment) world with
    | (none, world) => (.error (.unanswered url.text), world)
    | (some response, world) => (response.answer url, world)

/-- The drawing service that the settings name. -/
def drawingService {σ : Type} (settings : Settings) (client : Client σ) : DrawingService σ :=
  fun style fragment world =>
    let target := settings.classUrl style
    let (answer, world) := exchange client target fragment world
    let traced : Traced Failure String :=
      Traced.within (.submitFragment target fragment.utf8ByteSize) do
        let body ← (answer.mapError Failure.http : Except Failure String)
        Traced.report (.serviceAnswered body.utf8ByteSize)
        pure body
    (traced, world)

end ClassDiagram.Web
