import ClassDiagram.Proofs.Model.Contents
import ClassDiagram.Proofs.Renaming
/-!
# Parts of loaded models

If one model has all that another one has, it is loaded into a registry in which the slots of the
other are found again, with other numbers. What is drawn of them does not depend on the numbers, nor
on what else there is. Conversely, where the slots of a model are found again, every type is in its
place, and the expressions of the model spell what they spell there.
-/

namespace ClassDiagram

open TypeExpression (term?)

/-- The slots of the first loaded model are slots of the second under other numbers, and the same is
to be drawn. -/
def Loaded.PartOf (l l' : Loaded) : Prop :=
  ∃ ρ : Handle → Handle,
    (∀ a b, l.registry.IsRegistered a → l.registry.IsRegistered b → ρ a = ρ b → a = b) ∧
    l.registry.size ≤ l'.registry.size ∧
    (∀ h, l.registry.IsRegistered h →
      l'.registry.get? (ρ h) = (l.registry.get? h).map (Description.rename ρ)) ∧
    l'.roots = l.roots.map ρ

/-- Of a part that is closed every drawing has the same text in the whole. -/
theorem Loaded.PartOf.text_eq {l l' : Loaded} (h : l.PartOf l') (hclosed : l.registry.Closed)
    (hregistered : ∀ a ∈ l.roots, l.registry.IsRegistered a) (naming : Naming) (detail : Detail)
    (style : Style) :
    ∃ f f', ((l.drawing naming detail).fragment style).result = .ok f ∧
      ((l'.drawing naming detail).fragment style).result = .ok f' ∧ f'.text = f.text := by
  obtain ⟨ρ, hinjective, hsize, hget, hroots⟩ := h
  have hR : l.registry.Renaming ρ l.registry.IsRegistered l'.registry := by
    refine ⟨hinjective, hget, fun h d _ hd a ha => hclosed.references h d hd a ha, hsize,
      fun n h hh => ?_⟩
    -- More depth than there is in the part makes no difference to a name in it.
    have hdepth : l'.registry.size + 1 =
        l.registry.size + 1 + (l'.registry.size - l.registry.size) := by
      omega
    rw [hdepth, Registry.nameWithin_add hclosed.grounded (Nat.lt_succ_of_lt hh)]
    rfl
  obtain ⟨f, hf⟩ :=
    Drawing.exists_fragment_eq_ok (d := l.drawing naming detail) hclosed hregistered style
  have hagree := Drawing.fragment_renamed (d := l.drawing naming detail) hR hregistered style
  have hrenamed : (l.drawing naming detail).renamed ρ l'.registry = l'.drawing naming detail := by
    simp [Drawing.renamed, Loaded.drawing, hroots]
  rw [hf, hrenamed] at hagree
  obtain ⟨f', hf', heq⟩ := hagree.exists_of_ok
  exact ⟨f, f', hf, hf', by rw [heq, Fragment.text_rename]⟩

/-- All expressions of the model: those of the declarations first, then those of what to draw. -/
def Model.expressions (m : Model) : List String :=
  m.types.flatMap TypeDeclaration.expressions ++ m.diagram

theorem Model.mem_expressions {m : Model} {t : TypeDeclaration} {text : String} (ht : t ∈ m.types)
    (htext : text ∈ t.expressions) : text ∈ m.expressions :=
  List.mem_append_left _ (List.mem_flatMap.2 ⟨t, ht, htext⟩)

/-- The definition of the constructed type has a base or interfaces. -/
def Model.HasHeritage (m : Model) (c : TypeExpression) : Prop :=
  ∃ t, m.declaration? c.name = some t ∧ (t.base ≠ none ∨ t.interfaces ≠ [])

/-- The second model has the declarations and the types of the first one, and their expressions
spell the same in both. -/
structure Model.Carried (m m' : Model) : Prop where
  declaration? : ∀ n ∈ m.names, m'.declaration? n = m.declaration? n
  terms : ∀ t ∈ m.types, ∀ text ∈ t.expressions, term? m'.names text = term? m.names text
  layout : ∀ e ∈ m.layout, e ∈ m'.layout

namespace Model

variable {m m' : Model} {l l' : Loaded} {c e : TypeExpression} {n : String}

/-! ## Mentions -/

theorem mentions_eq_flatMap :
    m.mentions = m.expressions.flatMap (TypeExpression.mentions m.names) := by
  rw [expressions, List.flatMap_append, List.flatMap_assoc]
  rfl

theorem mem_mentions_iff : c ∈ m.mentions ↔
    ∃ text ∈ m.expressions, ∃ t, term? m.names text = some t ∧ c ∈ t.constructions := by
  rw [mentions_eq_flatMap, List.mem_flatMap]
  refine exists_congr fun text => and_congr_right fun _ => ?_
  rw [TypeExpression.mentions]
  cases term? m.names text <;> simp

theorem exists_of_mem_mentions (hc : c ∈ m.mentions) : ∃ n a as, c = .node n (a :: as) := by
  obtain ⟨text, -, t, -, hc⟩ := mem_mentions_iff.1 hc
  exact TypeExpression.exists_of_mem_constructions hc

/-- What an expression of the model settles to is in the layout. -/
theorem mem_layout_of_term? {text : String} (htext : text ∈ m.expressions)
    (hterm : term? m.names text = some e) : e ∈ m.layout := by
  obtain ⟨e₀, -, he⟩ := TypeExpression.term?_eq_some.1 hterm
  rcases TypeExpression.cases_of_settle? he with hleaf | ⟨n, a, as, rfl⟩
  · exact mem_layoutOf.2 (.inl hleaf)
  · refine mem_layoutOf.2 (.inr (mem_mentions_iff.2 ⟨text, htext, _, hterm, ?_⟩))
    exact TypeExpression.self_mem_constructions n a as

/-! ## Descriptions -/

theorem declaration?_eq_some (hn : m.names.Nodup) {t : TypeDeclaration} :
    m.declaration? n = some t ↔ t ∈ m.types ∧ t.name = n := by
  constructor
  · intro ht
    exact ⟨List.mem_of_find?_eq_some ht, name_of_declaration? ht⟩
  · rintro ⟨hmem, rfl⟩
    obtain ⟨before, behind, hm⟩ := List.append_of_mem hmem
    exact (place_of_split hn hm).2.1

theorem map_placesOf {names : List String} {ρ : Handle → Handle}
    {place place' : TypeExpression → Handle} {texts : List String}
    (hρ : ∀ text ∈ texts, ∀ e, term? names text = some e → ρ (place e) = place' e) :
    (placesOf names place texts).map ρ = placesOf names place' texts := by
  rw [placesOf, placesOf, List.map_map]
  refine List.map_congr_left fun e he => ?_
  obtain ⟨text, htext, hterm⟩ := List.mem_filterMap.1 he
  exact hρ text htext e hterm

/-- What is said of a type depends on what its expressions spell. -/
theorem defined_congr {names names' : List String} {place : TypeExpression → Handle}
    {t : TypeDeclaration} (h : ∀ text ∈ t.expressions, term? names' text = term? names text) :
    t.defined names' place = t.defined names place := by
  have hplaces : ∀ texts ⊆ t.expressions, placesOf names' place texts =
      placesOf names place texts := by
    intro texts hsub
    rw [placesOf, placesOf, List.filterMap_congr fun text htext => h text (hsub htext)]
  have hbase : t.base.bind (term? names') = t.base.bind (term? names) :=
    Option.bind_congr fun text htext => h text (by simp [TypeDeclaration.expressions, htext])
  have hinterfaces := hplaces t.interfaces fun text htext => by
    simp [TypeDeclaration.expressions, htext]
  have hvalues := hplaces (t.properties.map PropertyDeclaration.type) fun text htext => by
    simp only [TypeDeclaration.expressions, List.mem_append]
    exact .inr htext
  simp only [TypeDeclaration.defined, hbase, hinterfaces, hvalues]

theorem rename_defined {names : List String} {ρ : Handle → Handle}
    {place place' : TypeExpression → Handle} {t : TypeDeclaration}
    (hρ : ∀ text ∈ t.expressions, ∀ e, term? names text = some e → ρ (place e) = place' e) :
    (t.defined names place).rename ρ = t.defined names place' := by
  have hbase : ((t.base.bind (term? names)).map place).map ρ =
      (t.base.bind (term? names)).map place' := by
    rw [Option.map_map]
    refine Option.map_congr fun e he => ?_
    obtain ⟨text, htext, hterm⟩ := Option.bind_eq_some_iff.1 he
    exact hρ text (by simp [TypeDeclaration.expressions, htext]) e hterm
  have hinterfaces : (placesOf names place t.interfaces).map ρ =
      placesOf names place' t.interfaces :=
    map_placesOf fun text htext => hρ text (by simp [TypeDeclaration.expressions, htext])
  have hvalues : (placesOf names place (t.properties.map PropertyDeclaration.type)).map ρ =
      placesOf names place' (t.properties.map PropertyDeclaration.type) := by
    refine map_placesOf fun text htext => hρ text ?_
    simp only [TypeDeclaration.expressions, List.mem_append]
    exact .inr htext
  have hproperties : ∀ (ps : List PropertyDeclaration) (hs : List Handle),
      (List.zipWith PropertyDeclaration.typed ps hs).map (Property.rename ρ) =
        List.zipWith PropertyDeclaration.typed ps (hs.map ρ) := by
    intro ps hs
    rw [List.map_zipWith, List.zipWith_map_right]
    rfl
  simp only [Description.rename, TypeDeclaration.defined, TypeDeclaration.bare, hbase, hinterfaces,
    hproperties, hvalues]
  rfl

/-- Without a base and interfaces, what is constructed does not depend on the changes made. -/
theorem instanceOf_describeDeclared {t : TypeDeclaration} (hbase : t.base = none)
    (hinterfaces : t.interfaces = []) (changed changed' : Bool) (c : Construction) :
    Registry.instanceOf (m.describeDeclared t changed) c =
      Registry.instanceOf (m.describeDeclared t changed') c := by
  have hbare : ∀ b, Registry.instanceOf (m.describeDeclared t b) c =
      Registry.instanceOf t.bare c := by
    intro b
    cases b with
    | false => rfl
    | true =>
      simp [Registry.instanceOf, describeDeclared, TypeDeclaration.defined, hbase, hinterfaces,
        placesOf, TypeDeclaration.bare]
  rw [hbare, hbare]

theorem mem_names_of_mem_layout (hn : .node n [] ∈ m.layout) : n ∈ m.names := by
  rcases mem_layoutOf.1 hn with ⟨n', hn', heq⟩ | hmem
  · exact (TypeExpression.node.inj heq).1 ▸ hn'
  · obtain ⟨n', a, as, heq⟩ := exists_of_mem_mentions hmem
    simp at heq

/-- The descriptions of a type in the two models differ in the places only, unless it is early in
one of them and it matters. -/
theorem Carried.describe? (h : m.Carried m') {ρ : Handle → Handle}
    (hρ : ∀ e ∈ m.layout, ρ (m.place e) = m'.place e) (hc : c ∈ m.layout)
    (hparts : ∀ n args, c = .node n args → .node n [] ∈ m.layout ∧ ∀ a ∈ args, a ∈ m.layout)
    (hearly : c ∈ m.mentions → m.HasHeritage c → m.early c = m'.early c) :
    m'.describe? m'.types c = (m.describe? m.types c).map (Description.rename ρ) := by
  have hdescribe : ∀ t ∈ m.types, ∀ b, m'.describeDeclared t b =
      (m.describeDeclared t b).rename ρ := by
    intro t ht b
    cases b with
    | false => rfl
    | true =>
      simp only [describeDeclared, if_true, defined_congr (h.terms t ht)]
      exact (rename_defined fun text htext e hterm =>
        hρ e (mem_layout_of_term? (mem_expressions ht htext) hterm)).symm
  obtain ⟨n, args⟩ := c
  obtain ⟨hleaf, hargs⟩ := hparts n args rfl
  have hsame := h.declaration? n (mem_names_of_mem_layout hleaf)
  cases args with
  | nil =>
    simp only [Model.describe?, hsame, Option.map_map]
    refine Option.map_congr fun t ht => ?_
    have hmem := List.mem_of_find?_eq_some ht
    have hmem' := List.mem_of_find?_eq_some (hsame.trans ht)
    simp [hmem, hmem', hdescribe t hmem]
  | cons a as =>
    simp only [Model.describe?, hsame, Option.map_map]
    refine Option.map_congr fun t ht => ?_
    have hmem := List.mem_of_find?_eq_some ht
    -- A constructed type refers to its definition and its arguments by their places.
    have hplaces : (a :: as).map m'.place = ((a :: as).map m.place).map ρ := by
      rw [List.map_map]
      exact List.map_congr_left fun e he => (hρ e (hargs e he)).symm
    rw [hdescribe t hmem, ← hρ _ hleaf, hplaces]
    by_cases hheritage : m.HasHeritage (.node n (a :: as))
    · have hmention : .node n (a :: as) ∈ m.mentions := by
        rcases mem_layoutOf.1 hc with ⟨n', -, heq⟩ | hmention
        · simp at heq
        · exact hmention
      rw [← hearly hmention hheritage]
      rfl
    · have hbase : t.base = none := by
        by_contra hbase
        exact hheritage ⟨t, ht, .inl hbase⟩
      have hinterfaces : t.interfaces = [] := by
        by_contra hinterfaces
        exact hheritage ⟨t, ht, .inr hinterfaces⟩
      have hsame := instanceOf_describeDeclared (m := m) hbase hinterfaces
        (!m'.early (.node n (a :: as))) (!m.early (.node n (a :: as)))
        ⟨m.place (.node n []), (a :: as).map m.place⟩
      exact congrArg (Description.rename ρ) hsame

/-! ## Moving from one model to the other -/

/-- The place in the second model of what the handle is the place of in the first one. -/
def move (m m' : Model) (h : Handle) : Handle :=
  match m.layout[h.slot]? with
  | some t => m'.place t
  | none => h

theorem move_place (hroom : m.HasRoom m.mentions) (he : e ∈ m.layout) :
    m.move m' (m.place e) = m'.place e := by
  have hslot : m.layout[(m.place e).slot]? = some e := by
    rw [hroom.slot_place he]
    exact List.getElem?_idxOf he
  rw [move, hslot]

/-- Every registered handle is the place of a type. -/
theorem exists_place (hroom : m.HasRoom m.mentions)
    (hchart : m.Charted m.types m.mentions l.registry) {h : Handle}
    (hh : l.registry.IsRegistered h) : ∃ e ∈ m.layout, h = m.place e := by
  have hlt : h.slot < m.layout.length := by
    rw [layout, ← hchart.size]
    exact hh
  have hmem : m.layout[h.slot] ∈ m.layout := List.getElem_mem hlt
  refine ⟨_, hmem, Handle.slot_injective ?_⟩
  rw [hroom.slot_place hmem]
  exact (nodup_layoutOf.idxOf_getElem _ hlt).symm

theorem isRegistered_place (hroom : m.HasRoom m.mentions)
    (hchart : m.Charted m.types m.mentions l.registry) (he : e ∈ m.layout) :
    l.registry.IsRegistered (m.place e) := by
  rw [Registry.IsRegistered, hroom.slot_place he, hchart.size]
  exact List.idxOf_lt_length_of_mem he

/-- A model that is carried into another one is loaded as a part of it, if the same types are early
where it matters. -/
theorem Carried.partOf (h : m.Carried m') (hroom : m.HasRoom m.mentions)
    (hroom' : m'.HasRoom m'.mentions) (hchart : m.Charted m.types m.mentions l.registry)
    (hchart' : m'.Charted m'.types m'.mentions l'.registry)
    (hroots : (∀ e ∈ m.drawn, e ∈ m.layout) ∧ l.roots = m.drawn.map m.place)
    (hroots' : l'.roots = m.drawn.map m'.place)
    (hearly : ∀ c ∈ m.mentions, m.HasHeritage c → m.early c = m'.early c) : l.PartOf l' := by
  refine ⟨m.move m', fun a b ha hb heq => ?_, ?_, fun h' hh => ?_, ?_⟩
  · obtain ⟨t, ht, rfl⟩ := exists_place hroom hchart ha
    obtain ⟨u, hu, rfl⟩ := exists_place hroom hchart hb
    rw [move_place hroom ht, move_place hroom hu] at heq
    rw [hroom'.place_inj (h.layout t ht) (h.layout u hu) heq]
  · rw [hchart.size, hchart'.size]
    exact (nodup_layoutOf.subperm h.layout).length_le
  · obtain ⟨c, hc, rfl⟩ := exists_place hroom hchart hh
    rw [move_place hroom hc, hchart.slots c hc, hchart'.slots c (h.layout c hc)]
    exact h.describe? (fun e he => move_place hroom he) hc
      (fun n args hargs => hchart.parts n args (hargs ▸ hc)) (hearly c)
  · rw [hroots', hroots.2, List.map_map]
    exact List.map_congr_left fun e he => (move_place hroom (hroots.1 e he)).symm

/-! ## What a description tells -/

theorem of_describe?_declared {done : List TypeDeclaration} {d : Description}
    (hd : m.describe? done (.node n []) = some d) :
    d.name = n ∧ d.definition = none ∧ d.arguments = [] := by
  obtain ⟨t, ht, rfl⟩ := Option.map_eq_some_iff.1 hd
  unfold describeDeclared
  split
  · exact ⟨name_of_declaration? ht, rfl, rfl⟩
  · exact ⟨name_of_declaration? ht, rfl, rfl⟩

theorem of_describe?_constructed {done : List TypeDeclaration} {d : Description}
    {a : TypeExpression} {as : List TypeExpression}
    (hd : m.describe? done (.node n (a :: as)) = some d) :
    d.name = n ∧ d.definition = some (m.place (.node n [])) ∧
      d.arguments = (a :: as).map m.place := by
  obtain ⟨t, ht, rfl⟩ := Option.map_eq_some_iff.1 hd
  refine ⟨?_, rfl, rfl⟩
  rw [← name_of_declaration? ht]
  unfold describeDeclared
  split <;> rfl

/-! ## Types in their other places -/

/-- Both models are loaded into registries with a handle for every slot, and the renaming takes the
slots of the first one to slots of the second one. -/
structure Relocated (m m' : Model) (l l' : Loaded) (ρ : Handle → Handle) : Prop where
  room : m.HasRoom m.mentions
  room' : m'.HasRoom m'.mentions
  chart : m.Charted m.types m.mentions l.registry
  chart' : m'.Charted m'.types m'.mentions l'.registry
  closed : l.registry.Closed
  get? : ∀ h, l.registry.IsRegistered h →
    l'.registry.get? (ρ h) = (l.registry.get? h).map (Description.rename ρ)

namespace Relocated

variable {ρ : Handle → Handle} (h : m.Relocated m' l l' ρ)

include h

/-- The place of a type goes to the place of some type of the other model, which is described by the
renamed description. -/
theorem exists_image (he : e ∈ m.layout) : ∃ d, l.registry.get? (m.place e) = some d ∧
    m.describe? m.types e = some d ∧ ∃ u ∈ m'.layout, ρ (m.place e) = m'.place u ∧
      m'.describe? m'.types u = some (d.rename ρ) := by
  have hreg := isRegistered_place h.room h.chart he
  obtain ⟨d, hd⟩ := Registry.isRegistered_iff.1 hreg
  have hd' := h.get? _ hreg
  rw [hd, Option.map_some] at hd'
  obtain ⟨u, hu, heq⟩ := exists_place h.room' h.chart' (Registry.isRegistered_of_get? hd')
  refine ⟨d, hd, (h.chart.slots e he).symm.trans hd, u, hu, heq, ?_⟩
  rw [← h.chart'.slots u hu, ← heq]
  exact hd'

/-- A declared type goes to its place by its name. -/
theorem place_declared (hn : .node n [] ∈ m.layout) :
    .node n [] ∈ m'.layout ∧ ρ (m.place (.node n [])) = m'.place (.node n []) := by
  obtain ⟨d, -, hd, u, hmem, heq, hu⟩ := h.exists_image hn
  obtain ⟨hname, hdefinition, -⟩ := of_describe?_declared hd
  obtain ⟨n', args⟩ := u
  cases args with
  | nil =>
    have hname' : d.name = n' := (of_describe?_declared hu).1
    obtain rfl : n' = n := hname'.symm.trans hname
    exact ⟨hmem, heq⟩
  | cons a as =>
    have hdefinition' := (of_describe?_constructed hu).2.1
    simp [Description.rename, hdefinition] at hdefinition'

/-- A constructed type goes to its place by its definition and its arguments. -/
theorem place_constructed {a : TypeExpression} {as : List TypeExpression}
    (he : .node n (a :: as) ∈ m.layout)
    (hargs : ∀ x ∈ a :: as, x ∈ m'.layout ∧ ρ (m.place x) = m'.place x) :
    .node n (a :: as) ∈ m'.layout ∧
      ρ (m.place (.node n (a :: as))) = m'.place (.node n (a :: as)) := by
  obtain ⟨d, -, hd, u, hu, heq, hu'⟩ := h.exists_image he
  obtain ⟨-, hdefinition, harguments⟩ := of_describe?_constructed hd
  obtain ⟨n', args'⟩ := u
  cases args' with
  | nil =>
    have hdefinition' := (of_describe?_declared hu').2.1
    simp [Description.rename, hdefinition] at hdefinition'
  | cons b bs =>
    obtain ⟨-, hdefinition', harguments'⟩ := of_describe?_constructed hu'
    obtain ⟨hleaf', hargs'⟩ := h.chart'.parts _ _ hu
    obtain ⟨hleaf, hplace⟩ := h.place_declared (h.chart.parts _ _ he).1
    simp only [Description.rename, hdefinition, harguments, Option.map_some, Option.some.injEq,
      hplace] at hdefinition'
    obtain ⟨rfl, -⟩ := TypeExpression.node.inj (h.room'.place_inj hleaf hleaf' hdefinition')
    have hmoved : ((a :: as).map m.place).map ρ = (a :: as).map m'.place := by
      rw [List.map_map]
      exact List.map_congr_left fun x hx => (hargs x hx).2
    rw [Description.rename, harguments, hmoved] at harguments'
    have hsame := h.room'.map_place_inj (fun x hx => (hargs x hx).1) hargs' harguments'
    obtain ⟨rfl, rfl⟩ := List.cons.inj hsame
    exact ⟨hu, heq⟩

/-- Every type goes to its place in the other model. -/
theorem place (he : e ∈ m.layout) : e ∈ m'.layout ∧ ρ (m.place e) = m'.place e := by
  -- The induction is on the slot: arguments lie below the types they are arguments of.
  suffices hbelow : ∀ k, ∀ e ∈ m.layout, (m.place e).slot < k →
      e ∈ m'.layout ∧ ρ (m.place e) = m'.place e from
    hbelow _ e he (Nat.lt_succ_self _)
  intro k
  induction k with
  | zero =>
    intro e _ hk
    omega
  | succ k ih =>
    intro e he hk
    obtain ⟨n, args⟩ := e
    cases args with
    | nil => exact h.place_declared he
    | cons a as =>
      refine h.place_constructed he fun x hx => ih x ((h.chart.parts _ _ he).2 x hx) ?_
      obtain ⟨d, hslot, hd, -⟩ := h.exists_image he
      have harguments := (of_describe?_constructed hd).2.2
      have hlt := h.closed.grounded _ d hslot (m.place x) (harguments ▸ List.mem_map_of_mem hx)
      omega

theorem eq_of_place (he : e ∈ m.layout) {e' : TypeExpression} (he' : e' ∈ m'.layout)
    (heq : ρ (m.place e) = m'.place e') : e' = e := by
  obtain ⟨hmem, hplace⟩ := h.place he
  exact h.room'.place_inj he' hmem (heq.symm.trans hplace)

/-- What a declaration says of its type is the same in both models, up to the renaming. -/
theorem defined {t : TypeDeclaration} (hn : m.names.Nodup) (hn' : m'.names.Nodup)
    (ht : t ∈ m.types) (ht' : t ∈ m'.types) :
    t.defined m'.names m'.place = (t.defined m.names m.place).rename ρ := by
  have hleaf : .node t.name [] ∈ m.layout :=
    mem_layoutOf.2 (.inl ⟨t.name, List.mem_map_of_mem ht, rfl⟩)
  obtain ⟨hleaf', hplace⟩ := h.place_declared hleaf
  have himage := h.get? _ (isRegistered_place h.room h.chart hleaf)
  rw [hplace, h.chart.slots _ hleaf, h.chart'.slots _ hleaf'] at himage
  have hdeclared := (declaration?_eq_some hn).2 ⟨ht, rfl⟩
  have hdeclared' := (declaration?_eq_some hn').2 ⟨ht', rfl⟩
  simpa only [describe?, describeDeclared, hdeclared, hdeclared', ht, ht', Option.map_some,
    decide_true, if_true, Option.some.injEq] using himage

end Relocated

/-! ## What a part tells -/

/-- All that a declared type refers to is what its expressions spell. -/
theorem references_defined {names : List String} {place : TypeExpression → Handle}
    {t : TypeDeclaration} :
    (t.defined names place).references = placesOf names place t.expressions := by
  have hvalues : ∀ (ps : List PropertyDeclaration) (hs : List Handle), hs.length ≤ ps.length →
      (List.zipWith PropertyDeclaration.typed ps hs).map Property.valueType = hs := by
    intro ps hs hlength
    rw [List.map_zipWith, ← List.map_uncurry_zip_eq_zipWith]
    exact List.map_snd_zip hlength
  have hlength : (placesOf names place (t.properties.map PropertyDeclaration.type)).length ≤
      t.properties.length := by
    rw [placesOf, List.length_map, ← List.length_map PropertyDeclaration.type]
    exact List.length_filterMap_le _ _
  have happend : ∀ texts texts', placesOf names place (texts ++ texts') =
      placesOf names place texts ++ placesOf names place texts' := by
    intro texts texts'
    rw [placesOf, List.filterMap_append, List.map_append, placesOf, placesOf]
  rw [TypeDeclaration.expressions, happend, happend, placesOf_toList]
  simp [Description.references, TypeDeclaration.defined, TypeDeclaration.bare,
    hvalues _ _ hlength]

/-- Texts that come to the same places spell the same. -/
theorem term?_eq_of_map_placesOf {names names' : List String} {ρ : Handle → Handle}
    {place place' : TypeExpression → Handle} {texts : List String}
    (hsome : ∀ text ∈ texts, (term? names text).isSome)
    (hsome' : ∀ text ∈ texts, (term? names' text).isSome)
    (hρ : ∀ text ∈ texts, ∀ e e', term? names text = some e → term? names' text = some e' →
      ρ (place e) = place' e' → e' = e)
    (heq : (placesOf names place texts).map ρ = placesOf names' place' texts) :
    ∀ text ∈ texts, term? names' text = term? names text := by
  induction texts with
  | nil => simp
  | cons text texts ih =>
    rw [List.forall_mem_cons] at hsome hsome' hρ ⊢
    obtain ⟨e, he⟩ := Option.isSome_iff_exists.1 hsome.1
    obtain ⟨e', he'⟩ := Option.isSome_iff_exists.1 hsome'.1
    rw [placesOf, placesOf, List.filterMap_cons_some he, List.filterMap_cons_some he'] at heq
    obtain ⟨hhead, htail⟩ := List.cons.inj heq
    exact ⟨by rw [he, he', hρ.1 e e' he he' hhead], ih hsome.2 hsome'.2 hρ.2 htail⟩

theorem WellFormed.isSome_term? (hwf : m.WellFormed) {text : String}
    (htext : text ∈ m.expressions) : (term? m.names text).isSome := by
  rcases List.mem_append.1 htext with htext | htext
  · obtain ⟨u, hu, htext⟩ := List.mem_flatMap.1 htext
    exact (hwf.types u hu).expressions text htext
  · exact hwf.diagram text htext

/-- What is loaded as a part of a model with the same declarations, and perhaps more, keeps its
meaning there: the expressions spell the same. -/
theorem term?_eq_of_partOf (hl : m.load.result = .ok l) (hl' : m'.load.result = .ok l')
    (hsize : l'.registry.size ≤ UInt32.size) (htypes : m.types ⊆ m'.types)
    (hdiagram : m'.diagram = m.diagram) (hne : m.diagram ≠ []) (hpart : l.PartOf l')
    {text : String} (htext : text ∈ m.expressions) : term? m'.names text = term? m.names text := by
  obtain ⟨ρ, -, hle, hget, hroots⟩ := hpart
  obtain ⟨hroom, hchart, hdrawn, hplaces⟩ := charted_of_load hl (.inr (Nat.le_trans hle hsize))
  obtain ⟨hroom', hchart', hdrawn', hplaces'⟩ := charted_of_load hl' (.inr hsize)
  have hwf := exists_load_iff.1 ⟨l, hl⟩
  have hwf' := exists_load_iff.1 ⟨l', hl'⟩
  have hmoved : m.Relocated m' l l' ρ :=
    ⟨hroom, hroom', hchart, hchart', (closed_of_load hl).1, hget⟩
  rcases List.mem_append.1 htext with htext | htext
  · obtain ⟨u, hu, htext⟩ := List.mem_flatMap.1 htext
    -- Of the descriptions only what they refer to matters.
    have hreferences := congrArg Description.references
      (hmoved.defined hwf.names hwf'.names hu (htypes hu))
    rw [Description.references_rename, references_defined, references_defined] at hreferences
    refine term?_eq_of_map_placesOf (hwf.types u hu).expressions
      (hwf'.types u (htypes hu)).expressions (fun text htext e e' he he' => ?_) hreferences.symm
      text htext
    exact hmoved.eq_of_place (mem_layout_of_term? (mem_expressions hu htext) he)
      (mem_layout_of_term? (mem_expressions (htypes hu) htext) he')
  · have hempty : ¬ m.diagram.isEmpty := by simpa using hne
    rw [hplaces, hplaces', drawn, drawn, hdiagram, if_neg hempty, if_neg hempty] at hroots
    rw [drawn, if_neg hempty] at hdrawn
    rw [drawn, hdiagram, if_neg hempty] at hdrawn'
    refine term?_eq_of_map_placesOf hwf.diagram (hdiagram ▸ hwf'.diagram)
      (fun text htext e e' he he' => ?_) hroots.symm text htext
    exact hmoved.eq_of_place (hdrawn e (List.mem_filterMap.2 ⟨text, htext, he⟩))
      (hdrawn' e' (List.mem_filterMap.2 ⟨text, htext, he'⟩))

end Model

end ClassDiagram
