import ClassDiagram.Proofs.Model.Early
import ClassDiagram.Proofs.Model.RoundTrip
import ClassDiagram.Proofs.Program.Work
import ClassDiagram.Proofs.Resolver.Identifier
/-!
# Runs and the library

What a run leaves behind is told from the library functions for its input, together with the
requests that the run sent. To see these, its client puts them on record, which makes no difference
to the run.
-/

namespace ClassDiagram

open CommandLine

/-! ## Requests on record -/

namespace Web

/-- A request that was sent, and what came back. -/
structure Call where
  url : Url
  request : Request
  response : Option Response

/-- The request succeeded with the body. -/
def Call.Yields (c : Call) (body : String) : Prop :=
  ∃ r, c.response = some r ∧ r.answer c.url = .ok body

variable {σ : Type}

/-- The client, which puts down what it sends and what comes back. -/
def recorded (client : Client σ) : Client (List Call × σ) where
  read := client.read
  send url request := fun (calls, world) =>
    let (response, world) := client.send url request world
    (response, calls ++ [⟨url, request, response⟩], world)

end Web

namespace Program

variable {s : Surroundings} {arguments : List String} {i : Invocation}

/-! ## What a run leaves behind -/

/-- The run succeeds, and its output is the text in its place and nothing else. -/
def Writes (outcome : Outcome) (place : Place) (text : String) : Prop :=
  outcome.exitCode = 0 ∧ outcome.output = [⟨place, text.toUTF8⟩]

theorem destination_of_file?_eq_none {path : Option String} (h : file? path = none) :
    destination path = .stream .output := by
  rw [destination, h, Option.elim_none]

/-- A run that is to give the fragment of the same model prints the text, if the streams take it and
the messages. -/
def PrintsFragment (s : Surroundings) (path : Option String) (choices : List DetailChoice)
    (t : String) : Prop :=
  ∀ (σ : Type) (client : Web.Client σ) (world : σ) (arguments : List String) (i : Invocation)
    (o : FragmentOptions), Invocation.read arguments = .ok i → i.command = .fragment o →
    o.input = path → o.detail = choices → file? o.output = none →
      s.Hears → s.Takes (.stream .output) (t ++ "\n") →
        Writes (run s client arguments world).1 (.stream .output) (t ++ "\n")

theorem printsFragment {path : Option String} {choices : List DetailChoice} {t : String}
    (ht : rendered s path choices = .ok t) : PrintsFragment s path choices t := by
  rintro σ client world arguments i o hi ho rfl rfl hfile hhears htakes
  obtain ⟨x, effects, hx, heffects, hrun⟩ := run_fragment hi ho
  rw [hrun, destination_of_file?_eq_none hfile, hx.eq_of_hears hhears, Writes,
    ended_eq_ok (by simp) heffects]
  exact ⟨ht, htakes⟩

/-- What is left of a run and the requests that it sent are what the library makes of the input,
where `read` reads URLs. -/
structure Agrees (s : Surroundings) (read : String → Except String Web.Address) (i : Invocation)
    (outcome : Outcome) (sent : List Web.Call) : Prop where
  /-- A run that fails leaves no output, unless it was writing its fragment and was cut off. -/
  no_output : outcome.exitCode = 1 → outcome.output = [] ∨ ∃ o json t length,
    i.command = .fragment o ∧ s.Holds o.input json ∧
    (renderModel json (DetailChoice.detail o.detail)).result = .ok t ∧
    s.Cuts (destination o.output) (t ++ "\n") length ∧
    outcome.output = [⟨destination o.output, (t ++ "\n").toUTF8.extract 0 length⟩]
  rendered : ∀ o json t, i.command = .fragment o → s.Holds o.input json →
    Writes outcome (destination o.output) (t ++ "\n") →
      (renderModel json (DetailChoice.detail o.detail)).result = .ok t ∧
        s.Takes (destination o.output) (t ++ "\n")
  written : ∀ o json t, i.command = .fragment o → s.Holds o.input json →
    (renderModel json (DetailChoice.detail o.detail)).result = .ok t →
      s.Takes (destination o.output) (t ++ "\n") → s.Hears →
        Writes outcome (destination o.output) (t ++ "\n")
  offline : (∀ o, i.command ≠ .resolve o) → sent = []
  one_request : sent.length ≤ 1
  /-- A request is sent for a model that was loaded and rendered, and brings the fragment to the
  service that is named. -/
  request : ∀ o, i.command = .resolve o → ∀ c ∈ sent, ∃ json l t, s.Holds o.input json ∧
    (Model.loadText json).result = .ok l ∧
    (renderModel json (DetailChoice.detail o.detail)).result = .ok t ∧
    Web.formFields? c.request.body = some [("dsl_text", t)] ∧
    PrintsFragment s o.input o.detail t ∧
    read ((settingsOf s o).classUrl o.style) = .ok (.web c.url)
  /-- Where there is all that it takes, a request is sent. -/
  sends : ∀ o json t url, i.command = .resolve o → s.Holds o.input json →
    (renderModel json (DetailChoice.detail o.detail)).result = .ok t → s.Hears →
    SharedCache.ofLifetime? (settingsOf s o).lifetime ≠ none →
    read ((settingsOf s o).classUrl o.style) = .ok (.web url) → sent ≠ []
  url : ∀ o u, i.command = .resolve o →
    (Writes outcome (.stream .output) (u ++ "\n") ↔
      (∃ c ∈ sent, ∃ body, c.Yields body ∧ ∃ identifier, NamesIdentifier body identifier ∧
        u = (settingsOf s o).imageHost ++ identifier) ∧ s.Takes (.stream .output) (u ++ "\n"))

section

variable {effects : List Effect} (heffects : OnlyMessages effects) {x : Except Breakdown String}
  {read : String → Except String Web.Address}

include heffects

end

/-- A model of one class. -/
def dog : Model := { types := [{ name := "Dog" }] }

/-- The model is on the standard input, and everything takes what is written to it. -/
def kennel : Surroundings where
  environment _ := none
  input := .ok dog.write.toUTF8
  contents _ := .error .notFound
  writing _ _ := .whole

/-- The URL of the public service. -/
def publicUrl : Web.Url where
  text := "https://yuml.me/diagram/plain;dir:LR;scale:100/class/"
  target := "/diagram/plain;dir:LR;scale:100/class/"

/-- A client that knows the public service, which counts its drawings. -/
def sketcher : Web.Client Nat where
  read text := if text = publicUrl.text then .ok (.web publicUrl)
    else .error "relative URL without a base"
  send _ _ n := (some ⟨200, "OK", "4f2.svg".toUTF8⟩, n + 1)

end Program

end ClassDiagram
