import ClassDiagram.Proofs.Model.Denotation
/-!
# What a loaded registry says

A loaded registry says what the model says and nothing else: the declared types come first, each
described as it was declared, and behind them there is one slot for every choice of a definition and
arguments that occurs in the expressions of the model.
-/

namespace ClassDiagram

open TypeExpression (term?)

/-! ## Descriptions of declarations -/

/-- The property is described as it was declared, where `D` tells what texts denote. -/
structure PropertyDeclaration.DescribedBy (D : String → Handle → Prop) (p : PropertyDeclaration)
    (q : Property) : Prop where
  name : q.name = p.name
  valueType : D p.type q.valueType
  settable : q.settable = p.settable
  isStatic : q.isStatic = p.isStatic

/-- The method is described as it was declared. -/
structure MethodDeclaration.DescribedBy (m : MethodDeclaration) (x : Method) : Prop where
  name : x.name = m.name
  visibility : Visibility.ofText? m.visibility = some x.visibility
  isStatic : x.isStatic = m.isStatic
  special : x.special = m.accessor

/-- The type is described as it was declared, where `D` tells what texts denote. -/
structure TypeDeclaration.DescribedBy (D : String → Handle → Prop) (t : TypeDeclaration)
    (d : Description) : Prop where
  name : d.name = t.name
  kind : Kind.ofText? t.kind = some d.kind
  enumerable : d.enumerable = t.enumerable
  definition : d.definition = none
  arguments : d.arguments = []
  base : Option.Rel D t.base d.base
  interfaces : List.Forall₂ D t.interfaces d.interfaces
  properties : List.Forall₂ (PropertyDeclaration.DescribedBy D) t.properties d.properties
  methods : List.Forall₂ MethodDeclaration.DescribedBy t.methods d.methods

/-- The type is described like one that was constructed from the definition: without members, and
with the base and the interfaces of the definition or with none, depending on when. -/
structure Description.InstanceOf (d definition : Description) : Prop where
  name : d.name = definition.name
  kind : d.kind = definition.kind
  enumerable : d.enumerable = definition.enumerable
  properties : d.properties = []
  methods : d.methods = []
  heritage : d.base = definition.base ∧ d.interfaces = definition.interfaces ∨
    d.base = none ∧ d.interfaces = []

section Described

variable {D : String → Handle → Prop} {names : List String} {place : TypeExpression → Handle}

theorem forall₂_placesOf {texts : List String}
    (h : ∀ text ∈ texts, ∃ e, term? names text = some e ∧ D text (place e)) :
    List.Forall₂ D texts (placesOf names place texts) := by
  induction texts with
  | nil => exact .nil
  | cons text texts ih =>
    obtain ⟨⟨e, he, hD⟩, hrest⟩ := List.forall_mem_cons.1 h
    rw [placesOf, List.filterMap_cons_some he, List.map_cons]
    exact .cons hD (ih hrest)

theorem forall₂_typed {ps : List PropertyDeclaration} {hs : List Handle}
    (h : List.Forall₂ D (ps.map PropertyDeclaration.type) hs) :
    List.Forall₂ (PropertyDeclaration.DescribedBy D) ps
      (List.zipWith PropertyDeclaration.typed ps hs) := by
  induction ps generalizing hs with
  | nil => exact .nil
  | cons p ps ih =>
    cases h with
    | cons hp hrest => exact .cons ⟨rfl, hp, rfl, rfl⟩ (ih hrest)

theorem forall₂_method {owner : String} {ms : List MethodDeclaration}
    (h : ∀ m ∈ ms, (Visibility.ofText? m.visibility).isSome) :
    List.Forall₂ MethodDeclaration.DescribedBy ms
      (ms.filterMap fun m => (m.method owner).toOption) := by
  induction ms with
  | nil => exact .nil
  | cons m ms ih =>
    obtain ⟨hm, hrest⟩ := List.forall_mem_cons.1 h
    obtain ⟨visibility, hvisibility⟩ := Option.isSome_iff_exists.1 hm
    have hmethod : (m.method owner).toOption =
        some { name := m.name, visibility, isStatic := m.isStatic, special := m.accessor } := by
      simp [MethodDeclaration.method, hvisibility, Except.toOption]
    simp only [List.filterMap_cons, hmethod]
    exact .cons ⟨rfl, hvisibility, rfl, rfl⟩ (ih hrest)

theorem TypeDeclaration.describedBy_defined {t : TypeDeclaration}
    (hkind : (Kind.ofText? t.kind).isSome) (hwf : t.WellFormed names)
    (hD : ∀ text ∈ t.expressions, ∀ e, term? names text = some e → D text (place e)) :
    t.DescribedBy D (t.defined names place) := by
  obtain ⟨kind, hkind⟩ := Option.isSome_iff_exists.1 hkind
  have hspelled : ∀ text ∈ t.expressions, ∃ e, term? names text = some e ∧ D text (place e) := by
    intro text htext
    obtain ⟨e, he⟩ := Option.isSome_iff_exists.1 (hwf.expressions text htext)
    exact ⟨e, he, hD text htext e he⟩
  simp only [expressions, List.mem_append, or_imp, forall_and] at hspelled
  obtain ⟨⟨hbase, hinterfaces⟩, hproperties⟩ := hspelled
  refine ⟨rfl, by simp [defined, bare, hkind], rfl, rfl, rfl, ?_, forall₂_placesOf hinterfaces,
    forall₂_typed (forall₂_placesOf hproperties), forall₂_method hwf.visibilities⟩
  cases hb : t.base with
  | none => simp [defined, hb]
  | some text =>
    obtain ⟨e, he, hD⟩ := hbase text (by simp [hb])
    simpa [defined, hb, he] using Option.Rel.some hD

end Described

/-! ## Representation -/

/-- The loaded registry and what is to be drawn are what the model says. -/
structure Loaded.Represents (l : Loaded) (m : Model) : Prop where
  /-- Every expression can be read, and it and each of its parts with arguments denote exactly one
  handle. -/
  denotes : ∀ text ∈ m.expressions, ∃ e, TypeExpression.read text = .ok e ∧
    ∀ part ∈ e :: e.constructions, ∃! h, m.Denotes l.registry part h
  /-- The first slots describe the declared types, in order. -/
  declared : ∀ (i : Nat) (t : TypeDeclaration), m.types[i]? = some t →
    ∃ d, l.registry.slots[i]? = some d ∧ t.DescribedBy (m.DenotesIn l.registry) d
  /-- The slots behind them are those of the constructions that occur, and of no others. -/
  constructed : ∀ c, m.Occurs l.registry c ↔ ∃ k d, m.types.length ≤ k ∧
    l.registry.slots[k]? = some d ∧ d.definition = some c.definition ∧ d.arguments = c.arguments
  /-- No construction has two slots. -/
  once : ∀ j k d d', m.types.length ≤ j → m.types.length ≤ k → l.registry.slots[j]? = some d →
    l.registry.slots[k]? = some d' → d.definition = d'.definition →
      d.arguments = d'.arguments → j = k
  /-- What is constructed comes behind its arguments, and is described like its definition, which
  was declared. -/
  behind : ∀ k d, m.types.length ≤ k → l.registry.slots[k]? = some d →
    ∃ i o, d.definition = some (.ofNat i) ∧ i < m.types.length ∧ l.registry.slots[i]? = some o ∧
      d.InstanceOf o ∧ ∀ a ∈ d.arguments, a.slot < k
  /-- Unless something is asked for, all declared types are drawn, in order. -/
  drawnAll : m.diagram = [] → l.roots = (List.range m.types.length).map .ofNat
  /-- What is asked for is drawn, in order. -/
  drawnAsked : m.diagram ≠ [] → List.Forall₂ (m.DenotesIn l.registry) m.diagram l.roots

namespace Model.Placed

variable {m : Model} {l : Loaded} (hp : m.Placed l) {k : Nat} {n : String} {u : TypeExpression}
  {d : Description}

include hp

theorem slot_place_declared (hn : n ∈ m.names) :
    (m.place (.node n [])).slot = m.names.idxOf n := by
  have hleaf : TypeExpression.node n [] ∈ m.layoutOf [] := mem_layoutOf.2 (.inl ⟨n, hn, rfl⟩)
  have hdeclared := isPrefix_layoutOf (m := m) (List.nil_prefix (l := m.mentions))
  rw [hp.room.slot_place (hdeclared.subset hleaf), ← hdeclared.idxOf_eq_of_mem hleaf,
    layoutOf_nil hp.wellFormed.names,
    List.idxOf_map_of_injective fun a b h => (TypeExpression.node.inj h).1]

theorem le_slot_place (hu : u ∈ m.mentions) : m.types.length ≤ (m.place u).slot := by
  obtain ⟨n, a, as, rfl⟩ := exists_of_mem_mentions hu
  have hlayout := layoutOf_nil hp.wellFormed.names
  have hnot : .node n (a :: as) ∉ m.layoutOf [] := by simp [hlayout]
  obtain ⟨behind, hbehind⟩ := isPrefix_layoutOf (m := m) (List.nil_prefix (l := m.mentions))
  rw [hp.room.slot_place (mem_layoutOf.2 (.inr hu)), ← hbehind, List.idxOf_append_of_notMem hnot,
    hlayout]
  simp [names]

/-- Every slot is the place of a type, and a type that was not declared is a constructed one. -/
theorem exists_at (hd : l.registry.slots[k]? = some d) :
    ∃ u ∈ m.layout, (m.place u).slot = k ∧ m.describe? m.types u = some d ∧
      (m.types.length ≤ k → u ∈ m.mentions) := by
  have hk : (Handle.ofNat k).slot = k := by
    have hlt := (Array.getElem?_eq_some_iff.1 hd).1
    have hfits := hp.room.fits
    rw [← hp.chart.size] at hfits
    exact Handle.slot_ofNat_of_lt (Nat.lt_of_lt_of_le hlt hfits)
  have hget : l.registry.get? (.ofNat k) = some d := by
    rw [Registry.get?, hk, hd]
  obtain ⟨u, hu, heq, hdescribe⟩ := hp.exists_described hget
  rw [heq] at hk
  refine ⟨u, hu, hk, hdescribe, fun hle => ?_⟩
  rcases mem_layoutOf.1 hu with ⟨n, hn, rfl⟩ | hmention
  · have hlt := List.idxOf_lt_length_of_mem hn
    rw [hp.slot_place_declared hn] at hk
    simp only [names, List.length_map] at hlt hk
    omega
  · exact hmention

theorem describedBy {i : Nat} {t : TypeDeclaration} (ht : m.types[i]? = some t) :
    ∃ d, l.registry.slots[i]? = some d ∧ t.DescribedBy (m.DenotesIn l.registry) d := by
  have hmem : t ∈ m.types := List.mem_of_getElem? ht
  have hname : t.name ∈ m.names := List.mem_map_of_mem hmem
  have hslot : (m.place (.node t.name [])).slot = i := by
    have hi : m.names[i]? = some t.name := by simp [names, ht]
    obtain ⟨hlt, hget⟩ := List.getElem?_eq_some_iff.1 hi
    rw [hp.slot_place_declared hname, ← hget, hp.wellFormed.names.idxOf_getElem]
  obtain ⟨d, hd, hdescribe⟩ := hp.exists_description (mem_layoutOf.2 (.inl ⟨_, hname, rfl⟩))
  have hdeclaration := (declaration?_eq_some hp.wellFormed.names).2 ⟨hmem, rfl⟩
  simp only [describe?, hdeclaration, Option.map_some, describeDeclared, hmem, decide_true,
    if_true, Option.some.injEq] at hdescribe
  rw [Registry.get?, hslot] at hd
  refine ⟨d, hd, hdescribe ▸ ?_⟩
  refine TypeDeclaration.describedBy_defined (hp.wellFormed.kinds t hmem)
    (hp.wellFormed.types t hmem) fun text htext e he => ?_
  exact (hp.denotesIn_iff (mem_expressions hmem htext) he).2 rfl

theorem instanceOf (hd : l.registry.slots[k]? = some d) (hk : m.types.length ≤ k) :
    ∃ i o, d.definition = some (.ofNat i) ∧ i < m.types.length ∧ l.registry.slots[i]? = some o ∧
      d.InstanceOf o ∧ ∀ a ∈ d.arguments, a.slot < k := by
  obtain ⟨u, hu, hslot, hdescribe, hmention⟩ := hp.exists_at hd
  obtain ⟨n, a, as, rfl⟩ := exists_of_mem_mentions (hmention hk)
  have hn := mem_names_of_mem_layout (hp.chart.parts _ _ hu).1
  have hidx := List.idxOf_lt_length_of_mem hn
  obtain ⟨o, ho, hdefinition⟩ := hp.exists_description (hp.chart.parts _ _ hu).1
  have hget : l.registry.get? (m.place (.node n (a :: as))) = some d := by
    rwa [Registry.get?, hslot]
  have hgrounded := hp.closed.grounded _ d hget
  rw [hslot] at hgrounded
  rw [Registry.get?, hp.slot_place_declared hn] at ho
  refine ⟨m.names.idxOf n, o, ?_, by simpa [names] using hidx, ho, ?_, hgrounded⟩
  · rw [(of_describe?_constructed hdescribe).2.1, place_declared hp.wellFormed.names hn]
  · obtain ⟨t, ht, rfl⟩ := Option.map_eq_some_iff.1 hdescribe
    obtain ⟨t', ht', rfl⟩ := Option.map_eq_some_iff.1 hdefinition
    obtain rfl := Option.some.inj (ht.symm.trans ht')
    have hmem : t ∈ m.types := List.mem_of_find?_eq_some ht
    -- The definition was given all its changes, but maybe only after the type was constructed.
    cases hearly : m.early (.node n (a :: as)) with
    | true =>
      simp only [describeDeclared, hmem, decide_true, if_true, Bool.not_true, Bool.false_eq_true,
        if_false]
      exact ⟨rfl, rfl, rfl, rfl, rfl, .inr ⟨rfl, rfl⟩⟩
    | false =>
      simp only [describeDeclared, hmem, decide_true, if_true, Bool.not_false]
      exact ⟨rfl, rfl, rfl, rfl, rfl, .inl ⟨rfl, rfl⟩⟩

theorem existsUnique_denotes {e t : TypeExpression} (ht : e.settle? m.names = some t)
    (hmem : t ∈ m.layout) : ∃! h, m.Denotes l.registry e h :=
  ⟨m.place t, (hp.denotes_iff ht hmem).2 rfl, fun _ hh => (hp.denotes_iff ht hmem).1 hh⟩

theorem parts_denote {text : String} (htext : text ∈ m.expressions) :
    ∃ e, TypeExpression.read text = .ok e ∧
      ∀ part ∈ e :: e.constructions, ∃! h, m.Denotes l.registry part h := by
  obtain ⟨t, ht⟩ := Option.isSome_iff_exists.1 (hp.wellFormed.isSome_term? htext)
  obtain ⟨e, he, hsettle⟩ := TypeExpression.term?_eq_some.1 ht
  refine ⟨e, he, List.forall_mem_cons.2 ⟨?_, fun part hpart => ?_⟩⟩
  · exact hp.existsUnique_denotes hsettle (mem_layout_of_term? htext ht)
  · obtain ⟨u, hu, hsettled⟩ :=
      (TypeExpression.forall₂_constructions hsettle).flip.exists_of_mem_right hpart
    have hmention : u ∈ m.mentions := mem_mentions_iff.2 ⟨text, htext, t, ht, hu⟩
    exact hp.existsUnique_denotes hsettled (mem_layoutOf.2 (.inr hmention))

/-- The description of a slot behind the declared types tells the construction. -/
theorem construction_at (hd : l.registry.slots[k]? = some d) (hk : m.types.length ≤ k) :
    ∃ u ∈ m.mentions, (m.place u).slot = k ∧
      d.definition = some (m.constructionOf u).definition ∧
        d.arguments = (m.constructionOf u).arguments := by
  obtain ⟨u, -, hslot, hdescribe, hmention⟩ := hp.exists_at hd
  obtain ⟨n, a, as, rfl⟩ := exists_of_mem_mentions (hmention hk)
  obtain ⟨-, hdefinition, harguments⟩ := of_describe?_constructed hdescribe
  exact ⟨_, hmention hk, hslot, hdefinition, harguments⟩

theorem occurs_iff_slot {c : Construction} : m.Occurs l.registry c ↔
    ∃ k d, m.types.length ≤ k ∧ l.registry.slots[k]? = some d ∧
      d.definition = some c.definition ∧ d.arguments = c.arguments := by
  rw [hp.occurs_iff]
  constructor
  · rintro ⟨u, hu, rfl⟩
    obtain ⟨d, hd, hdescribe⟩ := hp.exists_description (mem_layoutOf.2 (.inr hu))
    refine ⟨_, d, hp.le_slot_place hu, hd, ?_⟩
    obtain ⟨n, a, as, rfl⟩ := exists_of_mem_mentions hu
    exact (of_describe?_constructed hdescribe).2
  · rintro ⟨k, d, hk, hd, hdefinition, harguments⟩
    obtain ⟨u, hu, -, hdefinition', harguments'⟩ := hp.construction_at hd hk
    rw [hdefinition', Option.some.injEq] at hdefinition
    rw [harguments'] at harguments
    obtain ⟨definition, arguments⟩ := c
    exact ⟨u, hu, Construction.mk.injEq .. ▸ ⟨hdefinition.symm, harguments.symm⟩⟩

theorem slot_unique {j : Nat} {d' : Description} (hj : m.types.length ≤ j)
    (hk : m.types.length ≤ k) (hd : l.registry.slots[j]? = some d)
    (hd' : l.registry.slots[k]? = some d') (hdefinition : d.definition = d'.definition)
    (harguments : d.arguments = d'.arguments) : j = k := by
  obtain ⟨u, hu, rfl, hdef, hargs⟩ := hp.construction_at hd hj
  obtain ⟨u', hu', rfl, hdef', hargs'⟩ := hp.construction_at hd' hk
  rw [hdef, hdef', Option.some.injEq] at hdefinition
  rw [hargs, hargs'] at harguments
  obtain ⟨n, args⟩ := u
  obtain ⟨n', args'⟩ := u'
  obtain ⟨hleaf, hparts⟩ := hp.chart.parts _ _ (mem_layoutOf.2 (.inr hu))
  have heq := hp.chart.eq_of_construction hp.room (mem_layoutOf.2 (.inr hu')) hleaf hparts
    (Construction.mk.injEq .. ▸ ⟨hdefinition.symm, harguments.symm⟩)
  rw [heq]

theorem roots_of_nil (hnil : m.diagram = []) :
    l.roots = (List.range m.types.length).map .ofNat := by
  rw [hp.roots, drawn, if_pos (by simp [hnil]), List.map_map]
  refine List.ext_getElem (by simp [names]) fun i hi _ => ?_
  have hlt : i < m.names.length := by simpa using hi
  simp only [List.getElem_map, Function.comp_apply, List.getElem_range,
    place_declared hp.wellFormed.names (List.getElem_mem hlt),
    hp.wellFormed.names.idxOf_getElem]

theorem roots_of_ne_nil (hne : m.diagram ≠ []) :
    List.Forall₂ (m.DenotesIn l.registry) m.diagram l.roots := by
  rw [hp.roots, drawn, if_neg (by simpa using hne)]
  refine forall₂_placesOf fun text htext => ?_
  obtain ⟨t, ht⟩ := Option.isSome_iff_exists.1 (hp.wellFormed.diagram text htext)
  exact ⟨t, ht, (hp.denotesIn_iff (List.mem_append_right _ htext) ht).2 rfl⟩

end Model.Placed

namespace Model

/-- A model with few enough slots for each of them to have a handle is loaded into a registry that
says what the model says: nothing is lost, doubled or made up. -/
theorem loaded_represents_model {m : Model} {l : Loaded} (hl : m.load.result = .ok l)
    (hsize : l.registry.size ≤ UInt32.size) : l.Represents m := by
  have hp := placed_of_load hl hsize
  exact {
    denotes := fun _ htext => hp.parts_denote htext
    declared := fun _ _ ht => hp.describedBy ht
    constructed := fun _ => hp.occurs_iff_slot
    once := fun _ _ _ _ hj hk hd hd' hdefinition harguments =>
      hp.slot_unique hj hk hd hd' hdefinition harguments
    behind := fun _ _ hk hd => hp.instanceOf hd hk
    drawnAll := fun hnil => hp.roots_of_nil hnil
    drawnAsked := fun hne => hp.roots_of_ne_nil hne }

/-- A generic class that is constructed three times, once inside of another construction, and a
generic interface. -/
def aviary : Model where
  types := [
    { name := "Owl", base := some "Bird", interfaces := ["IFlock<Owl>"],
      properties := [{ name := "Friends", type := "List<List<Owl>>", settable := false }],
      methods := [{ name := "Hoot", visibility := "private" }] },
    { name := "Bird", properties := [{ name := "Eggs", type := "List<Bird>", isStatic := true }] },
    { name := "List\x601", base := some "Bird", enumerable := true },
    { name := "IFlock", kind := "interface" }]
  diagram := ["List<Owl>", "Owl"]

/-- Four types are declared, and four are constructed. -/
theorem aviary_represented : ∃ l, aviary.load.result = .ok l ∧ l.registry.size = 8 ∧
    l.Represents aviary := by
  have hsize : aviary.load.result.toOption.map (fun l => l.registry.size) = some 8 := by
    decide +kernel
  obtain ⟨l, hl, hsize⟩ := Except.map_toOption_eq_some.1 hsize
  exact ⟨l, hl, hsize, loaded_represents_model hl (by rw [hsize]; decide)⟩

end Model

end ClassDiagram
