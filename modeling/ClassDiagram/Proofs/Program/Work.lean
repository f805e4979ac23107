import ClassDiagram.Proofs.Program.Ending
import ClassDiagram.Proofs.Web.Form
/-!
# The work of a run

Most of what a run does is quiet: it comes to the same result in every world of servers, and has no
effects but messages. The result may be lost to a message that is not taken. So a run that is to
give a fragment or a listing comes to what it makes of its input. A run that is to give a URL is
quiet up to the one exchange with the drawing service, and what it comes to after that depends on
the answer alone.
-/

namespace ClassDiagram

open CommandLine

/-! ## Input -/

namespace Surroundings

/-- What the path names, or the standard input, holds the text. -/
def Holds (s : Surroundings) (path : Option String) (text : String) : Prop :=
  (Program.file? path).elim s.input s.contents = .ok text.toUTF8

theorem Holds.unique {s : Surroundings} {path : Option String} {text text' : String}
    (h : s.Holds path text) (h' : s.Holds path text') : text = text' :=
  String.toByteArray_inj.1 (Except.ok.inj (h.symm.trans h'))

end Surroundings

namespace Program

/-! ## Quiet work -/

section Quiet

variable {α β : Type} {s : Surroundings}

/-- The result `x` is `y`, or it is lost to a message that is not taken. -/
def Comes (s : Surroundings) (x y : Except Breakdown α) : Prop :=
  x = y ∨ ¬ s.Hears ∧ ∃ fault, x = .error (unprinted .messages fault)

theorem Comes.eq_of_hears {x y : Except Breakdown α} (h : Comes s x y) (hs : s.Hears) : x = y :=
  h.resolve_right fun hlost => hlost.1 hs

theorem Comes.ok {a : α} {y : Except Breakdown α} (h : Comes s (.ok a) y) : y = .ok a := by
  rcases h with h | ⟨-, fault, h⟩
  · exact h.symm
  · cases h

/-- The work comes to the result in every world. It leaves the world as it is, and has no effects
but messages. -/
def Quiet (s : Surroundings) (w : (σ : Type) → Work σ α) (y : Except Breakdown α) : Prop :=
  ∃ x effects, Comes s x y ∧ OnlyMessages effects ∧ ∀ (σ : Type) (side : Sideline σ),
    (w σ).run side = (x, { side with effects := side.effects ++ effects })

theorem run_require {σ : Type} (x : Except Breakdown α) (side : Sideline σ) :
    (require x).run side = (x, side) := by
  cases x <;> rfl

theorem quiet_require (x : Except Breakdown α) : Quiet s (fun _ => require x) x := by
  refine ⟨x, [], .inl rfl, by simp [OnlyMessages], fun σ side => ?_⟩
  rw [List.append_nil, run_require]

theorem quiet_pure (a : α) : Quiet s (fun _ => pure a) (pure a) := quiet_require (.ok a)

theorem run_writeLine {σ : Type} (place : Place) (broken : IoFault → Breakdown) (line : String)
    (side : Sideline σ) : (writeLine s place broken line).run side =
      ((s.writing place (line ++ "\n")).result.mapError broken,
        { side with effects := side.effects ++ s.effects place (line ++ "\n") }) := by
  simp only [writeLine]
  cases (s.writing place (line ++ "\n")).result <;> rfl

theorem quiet_tell (wanted : Bool) (line : String) :
    Quiet s (fun _ => tell s wanted line) (.ok ()) := by
  cases wanted with
  | false => exact quiet_pure ()
  | true =>
    refine ⟨_, _, ?_, onlyMessages_effects s (line ++ "\n"), fun σ side => run_writeLine _ _ _ side⟩
    cases hw : (s.writing (.stream .messages) (line ++ "\n")).result with
    | ok => exact .inl rfl
    | error fault =>
      refine .inr ⟨fun hs => ?_, fault, rfl⟩
      rw [s.result_eq_ok.2 (hs _)] at hw
      cases hw

variable {σ : Type}

theorem run_bind_ok {w : Work σ α} {s s' : Sideline σ} {a : α} (h : w.run s = (.ok a, s'))
    (f : α → Work σ β) : (w >>= f).run s = (f a).run s' := by
  rw [ExceptT.run_bind]
  simp [bind, StateT.bind, h]

theorem run_bind_error {w : Work σ α} {s s' : Sideline σ} {b : Breakdown}
    (h : w.run s = (.error b, s')) (f : α → Work σ β) : (w >>= f).run s = (.error b, s') := by
  rw [ExceptT.run_bind]
  simp [bind, StateT.bind, h]
  rfl

theorem Quiet.bind {w : (σ : Type) → Work σ α} {f : (σ : Type) → α → Work σ β}
    {y : Except Breakdown α} {z : α → Except Breakdown β} (hw : Quiet s w y)
    (hf : ∀ a, Quiet s (fun σ => f σ a) (z a)) : Quiet s (fun σ => w σ >>= f σ) (y >>= z) := by
  obtain ⟨x, effects, hx, heffects, hw⟩ := hw
  cases x with
  | error b =>
    refine ⟨.error b, effects, ?_, heffects, fun σ side => run_bind_error (hw σ side) _⟩
    refine hx.imp (fun h => ?_) (And.imp_right ?_)
    · rw [← h, Except.error_bind]
    · rintro ⟨fault, h⟩
      exact ⟨fault, congrArg _ (Except.error.inj h)⟩
  | ok a =>
    obtain ⟨x', effects', hx', heffects', hf⟩ := hf a
    refine ⟨x', effects ++ effects', ?_, heffects.append heffects', fun σ side => ?_⟩
    · rwa [hx.ok, Except.ok_bind]
    · rw [run_bind_ok (hw σ side)]
      simp [hf]

/-- What is told makes no difference to what work comes to. -/
theorem Quiet.tell {w : (σ : Type) → Work σ α} {y : Except Breakdown α} (hw : Quiet s w y)
    (wanted : Bool) (line : String) :
    Quiet s (fun σ => Program.tell s wanted line >>= fun _ => w σ) y :=
  (quiet_tell wanted line).bind fun _ => hw

end Quiet

/-! ## The parts of a run -/

variable (s : Surroundings)

/-- The model that is loaded from what a path names. -/
def loaded (path : Option String) : Except Breakdown Loaded := do
  let text ← modelText s path
  (Model.loadText text).result.mapError (failed none)

/-- The text of the fragment of a loaded model. -/
def fragmentOf (choices : List DetailChoice) (l : Loaded) : Except Breakdown String := do
  let drawing := l.drawing .empty (DetailChoice.detail choices)
  let fragment ← (drawing.fragment {}).result.mapError (failed (some .buildFragment))
  pure fragment.text

/-- The text of the fragment of the model that a path names. -/
def rendered (path : Option String) (choices : List DetailChoice) : Except Breakdown String :=
  loaded s path >>= fragmentOf choices

/-- The listing of the model that a path names. -/
def listed (o : InspectOptions) : Except Breakdown String := do
  let l ← loaded s o.input
  listingText l.listing o

theorem quiet_opening (i : Invocation) : Quiet s (fun _ => opening s i) (.ok ()) :=
  (quiet_tell _ _).bind fun _ => quiet_tell _ _

theorem quiet_loadModel (i : Invocation) :
    Quiet s (fun _ => loadModel s i) (loaded s i.command.input) := by
  refine (quiet_require _).bind fun text => Quiet.tell ?_ _ _
  have hload := (quiet_require (s := s) ((Model.loadText text).result.mapError (failed none))).bind
    fun l => (quiet_pure l).tell i.verbose ("Loaded " ++ toString l.registry.size ++ " types, " ++
      toString (classRoots l) ++ " class roots")
  rwa [bind_pure] at hload

/-- To load a model is quiet, the opening of the run included. -/
theorem quiet_begin (i : Invocation) : Quiet s (fun _ => opening s i >>= fun _ => loadModel s i)
    (loaded s i.command.input) :=
  (quiet_opening s i).bind fun _ => quiet_loadModel s i

theorem quiet_fragmentText (l : Loaded) (choices : List DetailChoice) :
    Quiet s (fun _ => fragmentText l choices) (fragmentOf choices l) :=
  (quiet_require _).bind fun fragment => quiet_pure fragment.text

theorem modelText_eq_ok {path : Option String} {text : String} :
    modelText s path = .ok text ↔ s.Holds path text := by
  unfold modelText Surroundings.Holds
  cases (file? path).elim s.input s.contents with
  | error fault => simp
  | ok bytes =>
    simp only [Except.ok.injEq, ← Text.fromUTF8?_eq_some]
    cases String.fromUTF8? bytes <;> simp

theorem rendered_eq_ok {path : Option String} {choices : List DetailChoice} {t : String} :
    rendered s path choices = .ok t ↔ ∃ json, s.Holds path json ∧
      (renderModel json (DetailChoice.detail choices)).result = .ok t := by
  simp only [rendered, loaded, fragmentOf, renderModel, Except.bind_eq_ok, modelText_eq_ok,
    Except.mapError_eq_ok, Traced.result_bind, Traced.result_pure, Except.pure_eq_ok,
    Except.ok.injEq]
  constructor
  · rintro ⟨l, ⟨json, hjson, hl⟩, f, hf, rfl⟩
    exact ⟨json, hjson, l, hl, f, hf, rfl⟩
  · rintro ⟨json, hjson, l, hl, f, hf, rfl⟩
    exact ⟨l, ⟨json, hjson, hl⟩, f, hf, rfl⟩

section

variable {σ : Type} (client : Web.Client σ) (world : σ)

end

/-- The settings that a run goes by. -/
def settingsOf (s : Surroundings) (o : ResolveOptions) : Settings :=
  (Settings.ofVariables s.environment).override o.endpoint o.imageHost

/-! ## Whole runs -/

variable {s} {arguments : List String} {i : Invocation}

theorem run_eq {σ : Type} {client : Web.Client σ} {world : σ}
    (hi : Invocation.read arguments = .ok i) {x : Except Breakdown Unit} {effects : List Effect}
    {world' : σ} (hwork : (opening s i >>= fun _ => carryOut s client i).run ⟨[], world⟩ =
      (x, ⟨effects, world'⟩)) :
    run s client arguments world = (conclude s effects x, world') := by
  rw [run, hi]
  simp only
  rw [hwork]

/-- A run that is quiet up to its line asks no server. -/
theorem run_of_quiet (hi : Invocation.read arguments = .ok i) {w : (σ : Type) → Work σ String}
    {y : Except Breakdown String} (hw : Quiet s w y) {place : Place} {broken : IoFault → Breakdown}
    (hwork : ∀ (σ : Type) (client : Web.Client σ),
      (opening s i >>= fun _ => carryOut s client i) = w σ >>= writeLine s place broken) :
    ∃ x effects, Comes s x y ∧ OnlyMessages effects ∧
      ∀ (σ : Type) (client : Web.Client σ) (world : σ),
        run s client arguments world = (ended s place broken effects x, world) := by
  obtain ⟨x, effects, hx, heffects, hw⟩ := hw
  refine ⟨x, effects, hx, heffects, fun σ client world => ?_⟩
  cases x with
  | error b =>
    refine run_eq hi ?_
    rw [hwork, run_bind_error (hw σ _), List.nil_append]
  | ok line =>
    refine run_eq hi ?_
    rw [hwork, run_bind_ok (hw σ _), run_writeLine, List.nil_append]

/-- A run that is to give a fragment asks no server. -/
theorem run_fragment (hi : Invocation.read arguments = .ok i) {o : FragmentOptions}
    (ho : i.command = .fragment o) : ∃ x effects, Comes s x (rendered s o.input o.detail) ∧
      OnlyMessages effects ∧ ∀ (σ : Type) (client : Web.Client σ) (world : σ),
        run s client arguments world =
          (ended s (destination o.output) (.unwritten (file? o.output)) effects x, world) := by
  have hw := (quiet_begin s i).bind fun l => quiet_fragmentText s l o.detail
  have hinput : i.command.input = o.input := by rw [ho, Command.input]
  rw [hinput] at hw
  refine run_of_quiet hi hw fun σ client => ?_
  simp only [carryOut, ho, bind_assoc]
  rfl

end Program

end ClassDiagram
