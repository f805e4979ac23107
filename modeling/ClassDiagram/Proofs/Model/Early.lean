import ClassDiagram.Proofs.Model.Order
import ClassDiagram.Proofs.Opening
import ClassDiagram.Proofs.TypeExpression.Spelling
/-!
# Early mentions in drawings

A class that was mentioned too early has no base and no interfaces, and a drawing can tell: the
class is drawn with an edge to its base or with a mark of an interface in one order of the
declarations, and without either in the other.
-/

namespace ClassDiagram

/-! ## Display names -/

namespace TypeExpression

mutual

/-- The display name of a type. -/
def shown (naming : Naming) : TypeExpression → String
  | node n [] => naming.lookup n
  | node n (a :: as) => genericName (naming.lookup n) (a.shown naming :: shownAll naming as)

/-- The display names of types. -/
def shownAll (naming : Naming) : List TypeExpression → List String
  | [] => []
  | a :: as => a.shown naming :: shownAll naming as

end

theorem shownAll_eq (naming : Naming) (ts : List TypeExpression) :
    shownAll naming ts = ts.map (shown naming) := by
  induction ts with
  | nil => rfl
  | cons t ts ih => rw [shownAll, ih, List.map_cons]

end TypeExpression

namespace Model

open TypeExpression (term?)

variable {m m' : Model} {l : Loaded} {c e x : TypeExpression} {naming : Naming} {style : Style}
  {f : Fragment}

theorem Charted.eq_shown {r : Registry} (h : m.Charted m.types m.mentions r) {depth : Nat}
    {name : String} (he : e ∈ m.layout)
    (hname : r.nameWithin naming depth (m.place e) = .ok name) : name = e.shown naming := by
  induction depth generalizing e name with
  | zero => simp [Registry.nameWithin] at hname
  | succ depth ih =>
    obtain ⟨n, args⟩ := e
    obtain ⟨-, hargs⟩ := h.parts n args he
    simp only [Registry.nameWithin, Except.bind_eq_ok, Registry.describe_eq_ok] at hname
    obtain ⟨d, hd, hname⟩ := hname
    have hdescribe := (h.slots _ he).symm.trans hd
    cases args with
    | nil =>
      obtain ⟨rfl, -, hnone⟩ := of_describe?_declared hdescribe
      simp only [Description.isGeneric, hnone, List.isEmpty_nil, Bool.not_true, Bool.false_eq_true,
        if_false, Except.pure_eq_ok] at hname
      exact hname.symm
    | cons a as =>
      obtain ⟨rfl, -, hplaces⟩ := of_describe?_constructed hdescribe
      simp only [Description.isGeneric, hplaces, List.map_cons, List.isEmpty_cons, Bool.not_false,
        if_true, Except.bind_eq_ok, Except.pure_eq_ok] at hname
      obtain ⟨names, hnames, rfl⟩ := hname
      rw [← List.map_cons, Except.mapM_eq_ok, List.forall₂_map_left_iff] at hnames
      -- One level less is left for the arguments.
      have hshown : ∀ {ts : List TypeExpression} {ss : List String}, (∀ t ∈ ts, t ∈ m.layout) →
          List.Forall₂ (fun t s => r.nameWithin naming depth (m.place t) = .ok s) ts ss →
            ss = ts.map (TypeExpression.shown naming) := by
        intro ts ss hts hall
        induction hall with
        | nil => rfl
        | cons hs _ ihs =>
          obtain ⟨ht, hts⟩ := List.forall_mem_cons.1 hts
          rw [ih ht hs, ihs hts, List.map_cons]
      rw [hshown hargs hnames, TypeExpression.shown, TypeExpression.shownAll_eq, List.map_cons]

/-! ## Drawn texts -/

/-- The text that is drawn for a model. -/
def drawnText (m : Model) (naming : Naming) (detail : Detail) (style : Style) :
    Except Failure String := do
  let loaded ← m.load.result
  let fragment ← ((loaded.drawing naming detail).fragment style).result
  pure fragment.text

theorem drawnText_of_load {detail : Detail} (hl : m.load.result = .ok l)
    (hf : ((l.drawing naming detail).fragment style).result = .ok f) :
    m.drawnText naming detail style = .ok f.text := by
  rw [drawnText, hl, Except.ok_bind, hf]
  rfl

/-- Rendering the text of a model is reading it and drawing it in the default style,
without aliases. -/
theorem result_renderModel (json : String) (detail : Detail) :
    (renderModel json detail).result = (do
      let m ← Model.read json
      m.drawnText .empty detail {}) := by
  simp only [renderModel, loadText, drawnText, Traced.result_bind, Traced.result_liftM,
    Traced.result_pure, bind_assoc]
  rfl

theorem WellFormed.exists_fragment (hwf : m.WellFormed) (naming : Naming) (detail : Detail)
    (style : Style) :
    ∃ l f, m.load.result = .ok l ∧ ((l.drawing naming detail).fragment style).result = .ok f := by
  obtain ⟨l, hl⟩ := exists_load_iff.2 hwf
  obtain ⟨hclosed, hroots⟩ := closed_of_load hl
  obtain ⟨f, hf⟩ :=
    Drawing.exists_fragment_eq_ok (d := l.drawing naming detail) hclosed hroots style
  exact ⟨l, f, hl, hf⟩

/-! ## Drawings that begin with a constructed class -/

/-- The definition of the constructed type is a class. -/
def IsDrawn (m : Model) (c : TypeExpression) : Prop :=
  ∃ t, m.declaration? c.name = some t ∧ t.bare.kind.isDrawn

theorem Reordered.isDrawn (h : m.Reordered m') (hn : m.names.Nodup) :
    m'.IsDrawn c ↔ m.IsDrawn c := by
  simp only [IsDrawn, h.declaration? hn]

/-- What comes with the declaration of the definition is early. -/
theorem early_of_mem_mentions {t : TypeDeclaration} (ht : m.declaration? c.name = some t)
    (hc : c ∈ t.mentions m.names) : m.early c = true := by
  have hget : (m.types.take (m.names.idxOf c.name + 1))[m.names.idxOf c.name]? = some t := by
    rw [List.getElem?_take_of_lt (Nat.lt_succ_self _), getElem?_idxOf_names, ht]
  exact decide_eq_true (List.mem_flatMap.2 ⟨t, List.mem_of_getElem? hget, hc⟩)

section Beginnings

variable {rest : List TypeExpression} {t : TypeDeclaration} (hwf : m.WellFormed)
  (hfits : m.layout.length ≤ UInt32.size) (hdrawn : m.drawn = c :: rest) (hc : c ∈ m.mentions)
  (ht : m.declaration? c.name = some t) (hk : t.bare.kind.isDrawn)

include hwf hfits hdrawn hc ht hk

theorem drawnText_of_early (naming : Naming) (style : Style) (hearly : m.early c = true) :
    ∃ tail, m.drawnText naming .none style = .ok ("[" ++ c.shown naming ++ "]" ++ tail) ∧
      (tail = "" ∨ ∃ u, tail = "," ++ u) := by
  obtain ⟨l, f, hl, hf⟩ := hwf.exists_fragment naming .none style
  obtain ⟨hroom, hchart, -, hroots⟩ := charted_of_load hl (.inl hfits)
  rw [hdrawn] at hroots
  obtain ⟨n, a, as, rfl⟩ := exists_of_mem_mentions hc
  have hlayout : .node n (a :: as) ∈ m.layout := mem_layoutOf.2 (.inr hc)
  have hget := hchart.slots _ hlayout
  simp only [TypeExpression.name] at ht
  simp only [describe?, ht, Option.map_some, hearly, Bool.not_true, describeDeclared,
    Bool.false_eq_true, if_false] at hget
  obtain ⟨name, tail, hname, htext, htail⟩ :=
    Drawing.text_of_bare (d := l.drawing naming .none) hroots hget hk rfl rfl rfl rfl hf
  rw [hchart.eq_shown hlayout hname] at htext
  exact ⟨tail, htext ▸ drawnText_of_load hl hf, htail⟩

theorem drawnText_of_late (naming : Naming) (style : Style) (hearly : m.early c = false)
    {text : String} (htext : text ∈ t.base.toList ++ t.interfaces)
    (hterm : term? m.names text = some x) (hx : x ∈ m.drawn) :
    ∃ drawn, m.drawnText naming .none style = .ok drawn ∧
      ((∃ u, drawn = "[<<" ++ u) ∨ ∃ u, drawn = "[" ++ c.shown naming ++ "]^-" ++ u) := by
  obtain ⟨l, f, hl, hf⟩ := hwf.exists_fragment naming .none style
  obtain ⟨hroom, hchart, hin, hroots⟩ := charted_of_load hl (.inl hfits)
  have hxl : x ∈ m.layout := hin x hx
  have hrequested : m.place x ∈ l.roots := hroots ▸ List.mem_map_of_mem hx
  rw [hdrawn] at hroots
  obtain ⟨n, a, as, rfl⟩ := exists_of_mem_mentions hc
  have hlayout : .node n (a :: as) ∈ m.layout := mem_layoutOf.2 (.inr hc)
  have hget := hchart.slots _ hlayout
  have hdeclaration := ht
  simp only [TypeExpression.name] at ht
  simp only [describe?, ht, Option.map_some, hearly, Bool.not_false, describeDeclared,
    if_true] at hget
  -- The type is not its own base: it would come with the declaration of its definition.
  have hne : m.place x ≠ m.place (.node n (a :: as)) := by
    intro heq
    obtain rfl := hroom.place_inj hxl hlayout heq
    have hmem : .node n (a :: as) ∈ t.mentions m.names :=
      List.mem_flatMap.2
        ⟨text, List.mem_append_left _ htext, TypeExpression.self_mem_mentions hterm⟩
    rw [early_of_mem_mentions hdeclaration hmem] at hearly
    simp at hearly
  have hshows : (l.drawing naming .none).ShowsHeritage (m.place (.node n (a :: as)))
      (Registry.instanceOf (t.defined m.names m.place)
        ⟨m.place (.node n []), (a :: as).map m.place⟩) := by
    refine ⟨m.place x, hrequested, ?_⟩
    rcases List.mem_append.1 htext with hbase | hinterface
    · refine .inr ⟨hne, ?_⟩
      simp [Registry.instanceOf, TypeDeclaration.defined, Option.mem_toList.1 hbase, hterm]
    · refine .inl (List.mem_map_of_mem ?_)
      exact List.mem_filterMap.2 ⟨text, hinterface, hterm⟩
  refine ⟨f.text, drawnText_of_load hl hf, ?_⟩
  have hbegins :=
    Drawing.text_of_heritage (d := l.drawing naming .none) hroots hget hk rfl rfl hshows hf
  rcases hbegins with hmark | ⟨name, u, hname, hedge⟩
  · exact .inl hmark
  · exact .inr ⟨u, hchart.eq_shown hlayout hname ▸ hedge⟩

end Beginnings

/-! ## Telling two orders apart -/

/-- Whoever asks for other things to be drawn, all of which come with the declarations anyway, asks
for a model that loads, and has room if the first one had. -/
theorem WellFormed.withDiagram (hwf : m.WellFormed) {diagram : List String}
    (hterms : ∀ text ∈ diagram, (term? m.names text).isSome)
    (hmentions : ∀ text ∈ diagram, TypeExpression.mentions m.names text ⊆ m.mentionedBy m.types) :
    ({ m with diagram } : Model).WellFormed ∧
      ({ m with diagram } : Model).layout.length ≤ m.layout.length := by
  refine ⟨⟨hwf.kinds, hwf.names, hwf.types, hterms⟩, ?_⟩
  have hsub : ({ m with diagram } : Model).layout ⊆ m.layout := by
    intro e he
    rcases mem_layoutOf.1 he with hleaf | he
    · exact mem_layoutOf.2 (.inl hleaf)
    · refine mem_layoutOf.2 (.inr (List.mem_append_left _ ?_))
      rcases List.mem_append.1 he with he | he
      · exact he
      · obtain ⟨text, htext, he⟩ := List.mem_flatMap.1 he
        exact hmentions text htext he
  exact (nodup_layoutOf.subperm hsub).length_le

/-- No drawing begins in both ways, unless the name could be taken for a mark. -/
theorem text_ne {name tail text : String} (hname : name.toList.head? ≠ some '<')
    (htail : tail = "" ∨ ∃ u, tail = "," ++ u)
    (htext : (∃ u, text = "[<<" ++ u) ∨ ∃ u, text = "[" ++ name ++ "]^-" ++ u) :
    text ≠ "[" ++ name ++ "]" ++ tail := by
  intro heq
  rcases htext with ⟨u, rfl⟩ | ⟨u, rfl⟩
  · have hlist := congrArg String.toList heq
    simp only [String.toList_append] at hlist
    cases hchars : name.toList with
    | nil => simp [hchars] at hlist
    | cons c cs =>
      simp only [hchars, List.head?_cons, ne_eq, Option.some.injEq] at hname
      simp only [hchars, String.reduceToList, List.cons_append, List.nil_append, List.cons.injEq,
        true_and] at hlist
      exact hname hlist.1.symm
  · have hlist := congrArg String.toList heq
    simp only [String.toList_append, String.reduceToList, List.append_assoc,
      List.append_cancel_left_eq] at hlist
    rcases htail with rfl | ⟨u, rfl⟩ <;> simp at hlist

/-- What comes with a declaration has a text of its own that brings in nothing new. -/
theorem exists_text_of_mem_mentionedBy (hc : c ∈ m.mentionedBy m.types) :
    ∃ text, term? m.names text = some c ∧
      TypeExpression.mentions m.names text ⊆ m.mentionedBy m.types := by
  obtain ⟨t, ht, hc⟩ := List.mem_flatMap.1 hc
  obtain ⟨text, htext, hc⟩ := List.mem_flatMap.1 hc
  obtain ⟨own, hown, hsub⟩ := TypeExpression.exists_text_of_mem_mentions hc
  exact ⟨own, hown, fun e he => mentions_subset_mentionedBy ht htext (hsub he)⟩

/-- A constructed type can be asked for, and so can the base of its definition or one of its
interfaces. -/
theorem WellFormed.exists_diagram (hwf : m.WellFormed) (hc : c ∈ m.mentionedBy m.types)
    {t : TypeDeclaration} (ht : t ∈ m.types) (hheritage : t.base ≠ none ∨ t.interfaces ≠ []) :
    ∃ diagram ≠ [], ({ m with diagram } : Model).WellFormed ∧
      ({ m with diagram } : Model).layout.length ≤ m.layout.length ∧
        ∃ text ∈ t.base.toList ++ t.interfaces, ∃ x, term? m.names text = some x ∧
          ({ m with diagram } : Model).drawn = [c, x] := by
  obtain ⟨own, hown, hsub⟩ := exists_text_of_mem_mentionedBy hc
  obtain ⟨text, htext⟩ : ∃ text, text ∈ t.base.toList ++ t.interfaces := by
    apply List.exists_mem_of_ne_nil
    intro hnil
    obtain ⟨hbase, hinterfaces⟩ := List.append_eq_nil_iff.1 hnil
    exact hheritage.elim (fun hne => hne (by simpa using hbase)) fun hne => hne hinterfaces
  have hexpression : text ∈ t.expressions := List.mem_append_left _ htext
  obtain ⟨x, hx⟩ := Option.isSome_iff_exists.1 ((hwf.types t ht).expressions text hexpression)
  have hsub' := mentions_subset_mentionedBy ht hexpression
  have hterms : ∀ text' ∈ [own, text], (term? m.names text').isSome := by simp [hown, hx]
  obtain ⟨hwf', hlength⟩ := hwf.withDiagram hterms (by simpa using ⟨hsub, hsub'⟩)
  have hdrawn : [own, text].filterMap (term? m.names) = [c, x] := by simp [hown, hx]
  exact ⟨[own, text], by simp, hwf', hlength, text, htext, x, hx, hdrawn⟩

/-- If a class with a base or an interface is early in one model only, then the drawing of the class
and of that base or interface shows it. -/
theorem exists_drawings_ne (h : m.Reordered m') (hwf : m.WellFormed)
    (hfits : m.layout.length ≤ UInt32.size) (hheritage : m.HasHeritage c) (hclass : m.IsDrawn c)
    (hlate : m.early c = false) (hearly : m'.early c = true) :
    ∃ diagram ≠ [], ∃ naming text text',
      ({ m with diagram } : Model).drawnText naming .none {} = .ok text ∧
        ({ m' with diagram } : Model).drawnText naming .none {} = .ok text' ∧ text ≠ text' := by
  obtain ⟨t, ht, hsome⟩ := hheritage
  obtain ⟨t', ht', hk⟩ := hclass
  obtain rfl := Option.some.inj (ht.symm.trans ht')
  have hc := h.mem_mentionedBy.1 (mem_mentionedBy_of_early hearly)
  obtain ⟨diagram, hne, hM, hlength, text, htext, x, hx, hdrawn⟩ :=
    hwf.exists_diagram hc ((declaration?_eq_some hwf.names).1 ht).1 hsome
  -- Both models load with that, and they are each other's reordering still.
  have hreordered : ({ m with diagram } : Model).Reordered { m' with diagram } := ⟨h.types, rfl⟩
  have hM' := hM.perm hreordered.types hreordered.diagram
  have hroom := Nat.le_trans hlength hfits
  have hroom' := hreordered.length_layout ▸ hroom
  have hdrawn' := (hreordered.drawn hne).trans hdrawn
  have hmem : c ∈ ({ m with diagram } : Model).mentions := List.mem_append_left _ hc
  have hmem' := hreordered.mem_mentions.2 hmem
  have ht' := (hreordered.declaration? hM.names).trans ht
  -- An alias keeps the name of the class from looking like a mark.
  let naming := Naming.empty.insert c.name "T"
  have hname : (c.shown naming).toList.head? ≠ some '<' := by
    obtain ⟨n, a, as, rfl⟩ := exists_of_mem_mentions hmem
    simp [naming, TypeExpression.shown, TypeExpression.name, Naming.lookup, Naming.insert,
      genericName]
  obtain ⟨drawn, hdraws, hbegins⟩ :=
    drawnText_of_late hM hroom hdrawn hmem ht hk naming {} hlate htext hx (by simp [hdrawn])
  obtain ⟨tail, hdraws', htail⟩ :=
    drawnText_of_early hM' hroom' hdrawn' hmem' ht' hk naming {} hearly
  exact ⟨diagram, hne, naming, drawn, _, hdraws, hdraws', text_ne hname htail hbegins⟩

/-! ## The order of the declarations -/

/-- The order of the declarations decides which constructed types are mentioned too early, and that
is all that shows of it. A model loads in any order. Two orders give the same registry and the same
roots, up to the numbers of the slots, if and only if they agree on which of the types are early
whose definitions have a base or interfaces, and then every drawing has the same text. Where they do
not agree on a class, there is something to draw that has different texts. -/
theorem order_shows_in_early_mentions_only (h : m.Reordered m') (hne : m.diagram ≠ [])
    (hl : m.load.result = .ok l) :
    ∃ l', m'.load.result = .ok l' ∧ (l.registry.size ≤ UInt32.size →
      (l.SameUpToNumbers l' ↔ ∀ c ∈ m.mentions, m.HasHeritage c → m.early c = m'.early c) ∧
      (l.SameUpToNumbers l' → ∀ naming detail style, ∃ text,
        m.drawnText naming detail style = .ok text ∧
          m'.drawnText naming detail style = .ok text) ∧
      ∀ c ∈ m.mentions, m.HasHeritage c → m.IsDrawn c → m.early c ≠ m'.early c →
        ∃ diagram ≠ [], ∃ naming text text',
          ({ m with diagram } : Model).drawnText naming .none {} = .ok text ∧
            ({ m' with diagram } : Model).drawnText naming .none {} = .ok text' ∧
              text ≠ text') := by
  have hwf := exists_load_iff.1 ⟨l, hl⟩
  have hwf' := hwf.perm h.types h.diagram
  obtain ⟨l', hl'⟩ := exists_load_iff.2 hwf'
  refine ⟨l', hl', fun hsize => ?_⟩
  have hboth := LoadedBoth.of_load h hne hl hl' hsize
  refine ⟨⟨fun hsame c hc hheritage => ?_, hboth.sameUpToNumbers⟩, ?_, ?_⟩
  · exact hboth.early_eq hsame hwf hwf' hc hheritage
  · intro hsame naming detail style
    obtain ⟨f, f', hf, hf', htext⟩ := hboth.text_eq hsame naming detail style
    exact ⟨f.text, drawnText_of_load hl hf, htext ▸ drawnText_of_load hl' hf'⟩
  · intro c _ hheritage hclass hearly
    have hfits : m.layout.length ≤ UInt32.size := by
      rw [layout, ← hboth.chart.size]
      exact hsize
    -- The class is early in one of the models, whichever that is.
    cases hc : m.early c with
    | false =>
      have hc' : m'.early c = true := by simpa [hc] using hearly
      exact exists_drawings_ne h hwf hfits hheritage hclass hc hc'
    | true =>
      have hc' : m'.early c = false := by simpa [hc] using hearly
      obtain ⟨diagram, hsome, naming, text', text, hdraws', hdraws, htext⟩ :=
        exists_drawings_ne h.symm hwf' (h.length_layout ▸ hfits)
          ((h.hasHeritage hwf.names).2 hheritage) ((h.isDrawn hwf.names).2 hclass) hc' hc
      exact ⟨diagram, hsome, naming, text, text', hdraws, hdraws', htext.symm⟩

/-- A generic class that has a base, and a class that uses it. -/
def litter : Model where
  types := [
    { name := "Base" },
    { name := "List\x601", base := some "Base" },
    { name := "User", properties := [{ name := "Dogs", type := "List<Dog>" }] },
    { name := "Dog" }]
  diagram := ["List<Dog>", "Base"]

/-- The generic class comes before its use here too. -/
def litterShuffled : Model := { litter with types := [
    { name := "Dog" },
    { name := "List\x601", base := some "Base" },
    { name := "User", properties := [{ name := "Dogs", type := "List<Dog>" }] },
    { name := "Base" }] }

/-- The generic class comes after its use. -/
def litterReversed : Model := { litter with types := [
    { name := "Dog" },
    { name := "User", properties := [{ name := "Dogs", type := "List<Dog>" }] },
    { name := "List\x601", base := some "Base" },
    { name := "Base" }] }

theorem litter_loads : ∃ l, litter.load.result = .ok l ∧ l.registry.size = 5 :=
  Except.map_toOption_eq_some.1 (by decide +kernel)

/-- Where the use stays behind the generic class, the drawing stays the same. -/
theorem litter_shuffled : ∃ l l', litter.load.result = .ok l ∧
    litterShuffled.load.result = .ok l' ∧ l.SameUpToNumbers l' := by
  have hearly : ∀ c ∈ litter.mentions, litter.early c = litterShuffled.early c := by decide +kernel
  have hreordered : litter.Reordered litterShuffled := ⟨by decide, rfl⟩
  obtain ⟨l, hl, hsize⟩ := litter_loads
  obtain ⟨l', hl', hsame⟩ := order_shows_in_early_mentions_only hreordered (by decide) hl
  exact ⟨l, l', hl, hl', (hsame (by rw [hsize]; decide)).1.2 fun c hc _ => hearly c hc⟩

/-- Where the use comes first, the class that it constructs lacks its base. -/
theorem order_shows_in_litter : ¬ ∀ m m' : Model, m.Reordered m' → m.diagram ≠ [] →
    (∃ l, m.load.result = .ok l) → (∃ l', m'.load.result = .ok l') ∧ ∀ detail,
      m'.drawnText .empty detail {} = m.drawnText .empty detail {} := by
  intro hall
  obtain ⟨l, hl, -⟩ := litter_loads
  obtain ⟨-, hdraw⟩ := hall litter litterReversed ⟨by decide, rfl⟩ (by decide) ⟨l, hl⟩
  have htext := congrArg Except.toOption (hdraw .none)
  have hbehind : (litter.drawnText .empty .none {}).toOption =
      some "[List<Dog>]^-[Base],[Base]" := by decide +kernel
  have hfirst : (litterReversed.drawnText .empty .none {}).toOption =
      some "[List<Dog>],[Base]" := by decide +kernel
  rw [hbehind, hfirst] at htext
  exact absurd htext (by decide)

end Model

end ClassDiagram
