import ClassDiagram.Proofs.Detail
import ClassDiagram.Proofs.Program.Agreement
/-!
# Choices of members

What the choices on a command line have in common with the details of the library: both are sets of
groups, and a drawing shows which set it is. So command lines whose choices are of the same groups
lead to the same run, and their fragment is the one that the library gives for the groups.
-/

namespace ClassDiagram

/-! ## Giving choices -/

namespace CommandLine

section

variable {α : Type} {g : Grammar α} {flag name : String} {add : α → String → Option α}

/-- A parameter given again for every value. -/
def givenFor (flag : String) (values : List String) : List String :=
  values.flatMap fun v => [flag, v]

/-- A parameter that may be given again takes one value after the other. What is pending when the
next one comes is settled by it, so all but the last value are in the draft already. -/
theorem Grammar.read_givenFor (hcommands : g.commands = [])
    (hflag : Token.ofArgument flag = .long name none) (hname : g.long? name = some (.repeated add))
    {r : Reading α} {draft draft' : α} (hr : r.settle = .ok draft) {values : List String}
    (hplain : ∀ v ∈ values, Token.ofArgument v = .plain)
    (hadded : values.foldlM add draft = some draft') :
    ∃ r', g.read r (givenFor flag values) = .ok (.complete r') ∧ r'.settle = .ok draft' := by
  induction values generalizing r draft with
  | nil =>
    obtain rfl : draft = draft' := by simpa using hadded
    exact ⟨r, rfl, hr⟩
  | cons v values ih =>
    obtain ⟨next, hnext, hadded⟩ : ∃ next, add draft v = some next ∧
        values.foldlM add next = some draft' := by
      simpa [List.foldlM_cons, Option.bind_eq_some_iff] using hadded
    obtain ⟨hv, hplain⟩ := List.forall_mem_cons.1 hplain
    -- The value is looked at when the reading goes on.
    have hsettle : Reading.settle ⟨draft, some ⟨.repeated add, some v⟩⟩ = .ok next := by
      simp [Reading.settle, Action.take, hnext]
    obtain ⟨r', hread, hr'⟩ := ih hsettle hplain hadded
    refine ⟨r', ?_, hr'⟩
    have hgive : r.give (.repeated add) none = .ok ⟨draft, some ⟨.repeated add, none⟩⟩ := by
      simp [Reading.give, Action.takesValue, hr, pure, Except.pure]
    show g.read r (flag :: v :: givenFor flag values) = _
    rw [← hread]
    simp [Grammar.read, hcommands, hflag, hname, hgive, hv, Reading.awaitsValue, Reading.answer]

end

namespace DetailChoice

/-- The arguments that make the choices. -/
def arguments (choices : List DetailChoice) : List String := givenFor "--detail" (choices.map text)

theorem spelt?_text (c : DetailChoice) : spelt? DetailChoice.choices text c.text = some c := by
  rcases c with (- | - | - | -) | - <;> decide

theorem ofArgument_text (c : DetailChoice) : Token.ofArgument c.text = .plain := by
  rcases c with (- | - | - | -) | - <;> decide

end DetailChoice

/-- Every list of choices can be made for a fragment. -/
theorem Invocation.read_fragment (choices : List DetailChoice) :
    Invocation.read ("fragment" :: DetailChoice.arguments choices) =
      .ok { command := .fragment { detail := choices } } := by
  -- The draft has the choices in the order in which they are made.
  have hadded : ∀ o : FragmentOptions, (choices.map DetailChoice.text).foldlM
      (fun o v => (spelt? DetailChoice.choices DetailChoice.text v).map fun c =>
        { o with detail := o.detail ++ [c] }) o =
      some { o with detail := o.detail ++ choices } := by
    induction choices with
    | nil => simp
    | cons c choices ih =>
      intro o
      simp [DetailChoice.spelt?_text, ih]
  have hplain : ∀ v ∈ choices.map DetailChoice.text, Token.ofArgument v = .plain := by
    simp [DetailChoice.ofArgument_text]
  have hflag : Token.ofArgument "--detail" = .long "detail" none := by decide
  obtain ⟨r, hread, hr⟩ := Grammar.read_givenFor (g := fragmentGrammar) (r := { draft := {} }) rfl
    hflag rfl rfl hplain (hadded {})
  have hcommand : Command.read "fragment" (DetailChoice.arguments choices) =
      .ok (.fragment { detail := choices }) := by
    simp [Command.read, Grammar.readAll, DetailChoice.arguments, hread, hr]
  have hpreamble : preambleGrammar.read { draft := {} }
      ("fragment" :: DetailChoice.arguments choices) =
        .ok (.command "fragment" (DetailChoice.arguments choices) { draft := {} }) := by
    simp [Grammar.read, preambleGrammar, Reading.awaitsValue]
  simp only [Invocation.read, hpreamble, Except.ok_bind, hcommand]
  rfl

/-! ## Other choices in a command -/

/-- The choices that a command comes with. A listing has no use for any. -/
def Command.detail : Command → List DetailChoice
  | fragment o => o.detail
  | resolve o => o.detail
  | inspect _ => []

/-- The command with other choices. -/
def Command.withDetail (choices : List DetailChoice) : Command → Command
  | fragment o => fragment { o with detail := choices }
  | resolve o => resolve { o with detail := choices }
  | inspect o => inspect o

/-- The invocation with other choices. -/
def Invocation.withDetail (i : Invocation) (choices : List DetailChoice) : Invocation :=
  { i with command := i.command.withDetail choices }

end CommandLine

open CommandLine
open DetailChoice (Chosen)

variable {choices choices' : List DetailChoice}

namespace Program

/-! ## Runs -/

section

variable {σ : Type} {i : Invocation}

theorem fragmentText_congr (h : ∀ g, Chosen choices g ↔ Chosen choices' g) (l : Loaded) :
    (fragmentText l choices : Work σ String) = fragmentText l choices' := by
  unfold fragmentText
  rw [DetailChoice.detail_eq_detail_iff.2 h]

theorem carryOut_withDetail (s : Surroundings) (client : Web.Client σ)
    (h : ∀ g, Chosen i.command.detail g ↔ Chosen choices g) :
    carryOut s client (i.withDetail choices) = carryOut s client i := by
  obtain ⟨command, verbose, logLevel, logFormat⟩ := i
  cases command with
  | fragment o =>
    have htext : ∀ l, (fragmentText l o.detail : Work σ String) = fragmentText l choices :=
      fragmentText_congr h
    simp only [carryOut, htext]
    rfl
  | resolve o =>
    have htext : ∀ l, (fragmentText l o.detail : Work σ String) = fragmentText l choices :=
      fragmentText_congr h
    simp only [carryOut, htext]
    rfl
  | inspect o => rfl

/-- Command lines that differ in their choices only, and not in the groups that these are of, lead
to the same run. -/
theorem run_withDetail {arguments arguments' : List String} (s : Surroundings)
    (client : Web.Client σ) (world : σ) (hi : Invocation.read arguments = .ok i)
    (hi' : Invocation.read arguments' = .ok (i.withDetail choices))
    (h : ∀ g, Chosen i.command.detail g ↔ Chosen choices g) :
    run s client arguments' world = run s client arguments world := by
  rw [run, run, hi, hi']
  simp only [carryOut_withDetail s client h]
  rfl

end

/-! ## Texts -/

/-- The fragment of what was loaded has the text, whatever goes on beside the work. -/
def HasText (l : Loaded) (choices : List DetailChoice) (t : String) : Prop :=
  ∀ (σ : Type) (s : Sideline σ), (fragmentText l choices).run s = (.ok t, s)

variable {m : Model} {l : Loaded} {t t' : String}

theorem HasText.unique (h : HasText l choices t) (h' : HasText l choices t') : t = t' := by
  have hrun := (h Unit ⟨[], ()⟩).symm.trans (h' Unit ⟨[], ()⟩)
  exact Except.ok.inj (Prod.mk.inj hrun).1

theorem HasText.congr (h : ∀ g, Chosen choices g ↔ Chosen choices' g) (ht : HasText l choices t) :
    HasText l choices' t := by
  intro σ s
  rw [← fragmentText_congr h, ht]

/-- What was loaded always has a text, which is the one that is drawn for the model. -/
theorem exists_hasText (hl : m.load.result = .ok l) (choices : List DetailChoice) :
    ∃ t, HasText l choices t ∧ m.drawnText .empty (DetailChoice.detail choices) {} = .ok t := by
  obtain ⟨hclosed, hroots⟩ := Model.closed_of_load hl
  obtain ⟨f, hf⟩ := Drawing.exists_fragment_eq_ok
    (d := l.drawing .empty (DetailChoice.detail choices)) hclosed hroots {}
  refine ⟨f.text, fun σ s => ?_, Model.drawnText_of_load hl hf⟩
  rw [fragmentText, hf]
  rfl

theorem HasText.drawnText_eq (hl : m.load.result = .ok l) (h : HasText l choices t) :
    m.drawnText .empty (DetailChoice.detail choices) {} = .ok t := by
  obtain ⟨t', ht', hdrawn⟩ := exists_hasText hl choices
  rw [hdrawn, h.unique ht']

/-- The text of a model that can be loaded is rendered. -/
theorem exists_renderModel_eq_ok {json : String} (hl : (Model.loadText json).result = .ok l)
    (detail : Detail) : ∃ t, (renderModel json detail).result = .ok t := by
  obtain ⟨hclosed, hroots⟩ := Model.closed_of_loadText hl
  obtain ⟨f, hf⟩ :=
    Drawing.exists_fragment_eq_ok (d := l.drawing .empty detail) hclosed hroots {}
  exact ⟨f.text, by simp [renderModel, hl, hf]⟩

/-! ## A model that tells sets apart -/

/-- A model of two classes that have a member of every group between them. -/
def door : Model where
  types := [
    { name := "Front"
      properties := [{ name := "Dial", type := "Key" }]
      methods := [{ name := "Open" }] },
    { name := "Back"
      properties := [{ name := "Code", type := "Key", settable := false }]
      methods := [{ name := "Jam", visibility := "private" }] },
    { name := "Key" }]
  diagram := ["Front", "Back"]

/-- The letter by which the member of a group is told. -/
def initial : MemberGroup → Char
  | .publicProperties => 'D'
  | .privateProperties => 'C'
  | .publicMethods => 'O'
  | .privateMethods => 'J'

/-- The member of the group is in the text. Its letter is looked for among the bytes, which are at
hand without decoding. -/
def MentionedIn (t : String) (g : MemberGroup) : Prop := (initial g).toUInt8 ∈ t.toUTF8.data.toList

instance (t : String) (g : MemberGroup) : Decidable (MentionedIn t g) :=
  inferInstanceAs (Decidable (_ ∈ _))

/-- The groups of a detail can be told from the text that is drawn for it. -/
theorem door_shows (d : Detail) : ∃ t, door.drawnText .empty d {} = .ok t ∧
    ∀ g, MentionedIn t g ↔ d.contains g = true := by
  have hall : ∀ a b c e : Bool, (door.drawnText .empty ⟨a, b, c, e⟩ {}).toOption.map
      (fun t => MemberGroup.all.all fun g =>
        decide (MentionedIn t g) == Detail.contains ⟨a, b, c, e⟩ g) = some true := by
    decide +kernel
  obtain ⟨a, b, c, e⟩ := d
  obtain ⟨t, ht, hmarks⟩ := Except.map_toOption_eq_some.1 (hall a b c e)
  refine ⟨t, ht, fun g => ?_⟩
  rw [← beq_iff_eq.1 (List.all_eq_true.1 hmarks g g.mem_all), decide_eq_true_eq]

theorem door_loads : ∃ l, door.load.result = .ok l := by
  obtain ⟨t, ht, -⟩ := door_shows .none
  rw [Model.drawnText, Except.bind_eq_ok] at ht
  exact ht.imp fun l hl => hl.1

/-- Choices that have the same text wherever there is one are of the same groups. -/
theorem chosen_iff_of_hasText (h : ∀ (m : Model) (l : Loaded), m.load.result = .ok l →
    ∃ t, HasText l choices t ∧ HasText l choices' t) (g : MemberGroup) :
    Chosen choices g ↔ Chosen choices' g := by
  obtain ⟨l, hl⟩ := door_loads
  obtain ⟨t, ht, ht'⟩ := h door l hl
  have hshows : ∀ {choices}, HasText l choices t → (MentionedIn t g ↔ Chosen choices g) := by
    intro choices ht
    obtain ⟨u, hu, hmarks⟩ := door_shows (DetailChoice.detail choices)
    obtain rfl : u = t := Except.ok.inj (hu.symm.trans (ht.drawnText_eq hl))
    rw [hmarks, DetailChoice.contains_detail_iff]
  rw [← hshows ht, hshows ht']

/-! ## Sets of groups -/

/-- A run with the arguments prints the text, whatever its client is. -/
def Prints (s : Surroundings) (arguments : List String) (t : String) : Prop :=
  ∀ (σ : Type) (client : Web.Client σ) (world : σ),
    Writes (run s client arguments world).1 (.stream .output) (t ++ "\n")

/-- Details are sets of groups, in the library and on the command line, whether they are kept as
characteristic functions or in words: a detail has the groups that were put into it, by themselves
or with all others. Choices lead to the same text, for every model that loads, exactly if they are
of the same groups. Then a command line may have one or the other without a difference to the run,
and to streams that take everything the fragment is printed that the library gives for the
groups. -/
theorem choices_are_sets :
    (∀ groups : List MemberGroup, (DetailWord.ofList groups).detail = Detail.ofList groups ∧
      ∀ g, ((Detail.ofList groups).contains g = true ↔ g ∈ groups) ∧
        ((DetailWord.ofList groups).contains g = true ↔ g ∈ groups)) ∧
    (∀ choices : List DetailChoice,
      (DetailWord.ofChoices choices).detail = DetailChoice.detail choices ∧
      ∀ g, ((DetailChoice.detail choices).contains g = true ↔
          .group g ∈ choices ∨ .all ∈ choices) ∧
        ((DetailWord.ofChoices choices).contains g = true ↔
          .group g ∈ choices ∨ .all ∈ choices)) ∧
    (∀ choices choices' : List DetailChoice,
      (∀ g, Chosen choices g ↔ Chosen choices' g) ↔
        ∀ (m : Model) (l : Loaded), m.load.result = .ok l →
          ∃ t, HasText l choices t ∧ HasText l choices' t) ∧
    (∀ (choices : List DetailChoice) (i : Invocation) (arguments arguments' : List String),
      Invocation.read arguments = .ok i → Invocation.read arguments' = .ok (i.withDetail choices) →
        (∀ g, Chosen i.command.detail g ↔ Chosen choices g) →
          ∀ (s : Surroundings) (σ : Type) (client : Web.Client σ) (world : σ),
            run s client arguments' world = run s client arguments world) ∧
    ∀ (choices : List DetailChoice) (groups : List MemberGroup),
      (∀ g, Chosen choices g ↔ g ∈ groups) →
        ∀ (s : Surroundings) (json : String) (l : Loaded), s.HasStreams → s.Holds none json →
          (Model.loadText json).result = .ok l →
            ∃ t, (renderModel json (Detail.ofList groups)).result = .ok t ∧
              Prints s ("fragment" :: DetailChoice.arguments choices) t := by
  refine ⟨fun groups => ⟨DetailWord.detail_ofList groups, fun g =>
      ⟨Detail.contains_ofList_iff, DetailWord.contains_ofList_iff⟩⟩,
    fun choices => ⟨DetailWord.detail_ofChoices choices, fun g =>
      ⟨DetailChoice.contains_detail_iff, DetailWord.contains_ofChoices_iff⟩⟩,
    fun choices choices' => ⟨fun h m l hl => ?_, chosen_iff_of_hasText⟩,
    fun choices i arguments arguments' hi hi' h s σ client world =>
      run_withDetail s client world hi hi' h,
    fun choices groups h s json l hs hjson hl => ?_⟩
  · obtain ⟨t, ht, -⟩ := exists_hasText hl choices
    exact ⟨t, ht, ht.congr h⟩
  · obtain ⟨t, ht⟩ := exists_renderModel_eq_ok hl (Detail.ofList groups)
    have hrendered : rendered s none choices = .ok t := by
      rw [rendered_eq_ok, DetailChoice.detail_eq_ofList h]
      exact ⟨json, hjson, ht⟩
    exact ⟨t, ht, fun σ client world => printsFragment hrendered σ client world _ _
      { detail := choices } (Invocation.read_fragment choices) rfl rfl rfl rfl hs.hears (hs _ _)⟩

/-- The door is on the standard input. -/
def doorway : Surroundings := { kennel with input := .ok door.write.toUTF8 }

/-- All groups, chosen one by one in reverse, are drawn like the choice of all of them, and so is
that choice with others in front of it and behind it. -/
theorem door_is_drawn_in_full :
    (∃ l t, door.load.result = .ok l ∧ HasText l [.all] t ∧
      HasText l (MemberGroup.all.reverse.map .group) t) ∧
    run doorway sketcher ["fragment", "-d", "public-methods", "--detail=all", "-d=all"] 0 =
      run doorway sketcher ["fragment", "--detail", "all"] 0 ∧
    Prints doorway
      ("fragment" :: DetailChoice.arguments [.group .publicMethods, .all, .group .privateMethods])
      "[Front|+ Dial : Key|+ Open()],[Back|- Code : Key|- Jam()]" := by
  obtain ⟨-, -, htexts, hruns, hprints⟩ := choices_are_sets
  obtain ⟨l, hl⟩ := door_loads
  refine ⟨?_, ?_, ?_⟩
  · obtain ⟨t, ht, ht'⟩ := (htexts [.all] (MemberGroup.all.reverse.map .group)).1
      (fun g => by cases g <;> decide) door l hl
    exact ⟨l, t, hl, ht, ht'⟩
  · exact hruns [.group .publicMethods, .all, .all]
      { command := .fragment { detail := [.all] } } _ _ (by decide) (by decide)
      (fun g => by cases g <;> decide) doorway Nat sketcher 0
  · have hread : Model.read door.write = .ok door := by
      have hrecord : Model.record.read door.toJson.compactText = .ok door :=
        Json.Record.read_compactText door.record_readsAs
      rw [Model.write, Model.read, hrecord]
    have hload : (Model.loadText door.write).result = .ok l := by
      simp [Model.loadText, hread, hl]
    have hdrawn : door.drawnText .empty (Detail.ofList MemberGroup.all) {} =
        .ok "[Front|+ Dial : Key|+ Open()],[Back|- Code : Key|- Jam()]" := by
      decide +kernel
    obtain ⟨t, ht, hprinted⟩ := hprints [.group .publicMethods, .all, .group .privateMethods]
      MemberGroup.all (fun g => by cases g <;> decide) doorway door.write l (fun _ _ => rfl) rfl
      hload
    rw [Model.result_renderModel, hread] at ht
    obtain rfl : _ = t := Except.ok.inj (hdrawn.symm.trans ht)
    exact hprinted

end Program

end ClassDiagram
