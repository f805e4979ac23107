import ClassDiagram.Proofs.Model.Early
import ClassDiagram.Proofs.Model.Representation
import ClassDiagram.Proofs.TypeExpression.Canonical
/-!
# Names of what expressions denote

Without aliases a type is called by the canonical spelling of any expression that denotes it, unless
a name in the expression ends in a number of parameters itself. Hence two such expressions denote
the same type only if they are the same.
-/

namespace ClassDiagram

/-! ## Display names of settled forms -/

theorem Naming.lookup_empty (name : String) : Naming.empty.lookup name = stripArity name := rfl

namespace TypeExpression

variable {names : List String}

mutual

/-- The display name of a settled form is the spelling of the expression that settled to it. -/
theorem shown_of_settle? : ∀ {e t : TypeExpression}, e.settle? names = some t → e.Plain →
    t.shown .empty = e.spelling
  | node n [], t, ht, he => by
    obtain ⟨-, rfl⟩ := settle?_nil.1 ht
    rw [shown, spelling, Naming.lookup_empty, stripArity_eq_self he.1]
  | node n (a :: as), t, ht, he => by
    obtain ⟨d, b, bs, hd, hb, hbs, rfl⟩ := settle?_cons.1 ht
    rw [shown, spelling_cons, Naming.lookup_empty, stripArity_of_genericAmong? he.1 hd,
      shown_of_settle? hb he.2.1, shownAll_of_settleAll? hbs he.2.2, List.map_cons]

theorem shownAll_of_settleAll? : ∀ {es ts : List TypeExpression},
    settleAll? names es = some ts → AllPlain es → shownAll .empty ts = es.map spelling
  | [], ts, hts, _ => by
    obtain rfl := Option.some.inj hts
    rfl
  | a :: as, ts, hts, he => by
    obtain ⟨b, bs, hb, hbs, rfl⟩ := settleAll?_cons.1 hts
    rw [shownAll, shown_of_settle? hb he.1, shownAll_of_settleAll? hbs he.2, List.map_cons]

end

end TypeExpression

/-! ## Resolved texts -/

/-- The text stands somewhere in the model, and the handle is what the loaded registry, or the list
of what to draw, has in its place. -/
inductive Loaded.Resolved (l : Loaded) (m : Model) : String → Handle → Prop
  | base {i : Nat} {t : TypeDeclaration} {d : Description} {text : String} {h : Handle} :
    m.types[i]? = some t → l.registry.slots[i]? = some d → t.base = some text → d.base = some h →
      Resolved l m text h
  | interface {i : Nat} {t : TypeDeclaration} {d : Description} {text : String} {h : Handle} :
    m.types[i]? = some t → l.registry.slots[i]? = some d →
      (text, h) ∈ t.interfaces.zip d.interfaces → Resolved l m text h
  | property {i : Nat} {t : TypeDeclaration} {d : Description} {p : PropertyDeclaration}
    {q : Property} : m.types[i]? = some t → l.registry.slots[i]? = some d →
      (p, q) ∈ t.properties.zip d.properties → Resolved l m p.type q.valueType
  | root {text : String} {h : Handle} : (text, h) ∈ m.diagram.zip l.roots → Resolved l m text h

theorem exists_mem_zip {α β : Type} {R : α → β → Prop} {l : List α} {l' : List β}
    (h : List.Forall₂ R l l') {a : α} (ha : a ∈ l) : ∃ b, (a, b) ∈ l.zip l' := by
  rw [← List.map_fst_zip (Nat.le_of_eq h.length_eq)] at ha
  obtain ⟨⟨a, b⟩, hmem, rfl⟩ := List.mem_map.1 ha
  exact ⟨b, hmem⟩

namespace Model.Placed

variable {m : Model} {l : Loaded} (hp : m.Placed l) {text : String} {h : Handle}
  {e : TypeExpression}

include hp

theorem exists_resolved (htext : text ∈ m.expressions) : ∃ h, l.Resolved m text h := by
  rcases List.mem_append.1 htext with htext | htext
  · obtain ⟨t, ht, htext⟩ := List.mem_flatMap.1 htext
    obtain ⟨i, hi⟩ := List.getElem?_of_mem ht
    obtain ⟨d, hd, hdescribed⟩ := hp.describedBy hi
    simp only [TypeDeclaration.expressions, List.mem_append, Option.mem_toList] at htext
    rcases htext with (hbase | hinterface) | hproperty
    · have hrel := hdescribed.base
      cases hdbase : d.base with
      | none => simp [hbase, hdbase] at hrel
      | some h => exact ⟨h, .base hi hd hbase hdbase⟩
    · obtain ⟨h, hh⟩ := exists_mem_zip hdescribed.interfaces hinterface
      exact ⟨h, .interface hi hd hh⟩
    · obtain ⟨p, hp', rfl⟩ := List.mem_map.1 hproperty
      obtain ⟨q, hq⟩ := exists_mem_zip hdescribed.properties hp'
      exact ⟨q.valueType, .property hi hd hq⟩
  · have hne : m.diagram ≠ [] := List.ne_nil_of_mem htext
    obtain ⟨h, hh⟩ := exists_mem_zip (hp.roots_of_ne_nil hne) htext
    exact ⟨h, .root hh⟩

/-- What is stored for a text is what the text denotes. -/
theorem denotesIn_of_resolved (hr : l.Resolved m text h) :
    text ∈ m.expressions ∧ m.DenotesIn l.registry text h := by
  have hdescribed : ∀ {i : Nat} {t : TypeDeclaration} {d : Description}, m.types[i]? = some t →
      l.registry.slots[i]? = some d → t ∈ m.types ∧ t.DescribedBy (m.DenotesIn l.registry) d := by
    intro i t d ht hd
    obtain ⟨d', hd', hdescribed⟩ := hp.describedBy ht
    obtain rfl := Option.some.inj (hd.symm.trans hd')
    exact ⟨List.mem_of_getElem? ht, hdescribed⟩
  cases hr with
  | base ht hd hbase hh =>
    obtain ⟨hmem, hdescribed⟩ := hdescribed ht hd
    have hrel := hdescribed.base
    rw [hbase, hh] at hrel
    cases hrel with
    | some hdenotes =>
      exact ⟨mem_expressions hmem (by simp [TypeDeclaration.expressions, hbase]), hdenotes⟩
  | interface ht hd hzip =>
    obtain ⟨hmem, hdescribed⟩ := hdescribed ht hd
    have htext := (List.of_mem_zip hzip).1
    exact ⟨mem_expressions hmem (by simp [TypeDeclaration.expressions, htext]),
      List.forall₂_zip hdescribed.interfaces hzip⟩
  | @property i t d p q ht hd hzip =>
    obtain ⟨hmem, hdescribed⟩ := hdescribed ht hd
    have htext : p.type ∈ t.properties.map PropertyDeclaration.type :=
      List.mem_map_of_mem (List.of_mem_zip hzip).1
    exact ⟨mem_expressions hmem (List.mem_append_right _ htext),
      (List.forall₂_zip hdescribed.properties hzip).valueType⟩
  | root hzip =>
    have htext := (List.of_mem_zip hzip).1
    exact ⟨List.mem_append_right _ htext,
      List.forall₂_zip (hp.roots_of_ne_nil (List.ne_nil_of_mem htext)) hzip⟩

/-- What is stored for a text is the place of what the text settles to. -/
theorem place_of_resolved (hr : l.Resolved m text h) (he : TypeExpression.read text = .ok e) :
    ∃ t ∈ m.layout, e.settle? m.names = some t ∧ h = m.place t := by
  obtain ⟨htext, hdenotes⟩ := hp.denotesIn_of_resolved hr
  obtain ⟨t, ht⟩ := Option.isSome_iff_exists.1 (hp.wellFormed.isSome_term? htext)
  obtain ⟨e', he', hsettle⟩ := TypeExpression.term?_eq_some.1 ht
  obtain rfl := Except.ok.inj (he.symm.trans he')
  exact ⟨t, mem_layout_of_term? htext ht, hsettle, (hp.denotesIn_iff htext ht).1 hdenotes⟩

theorem displayName_of_resolved (hr : l.Resolved m text h)
    (he : TypeExpression.read text = .ok e) (hplain : e.Plain) :
    l.registry.displayName .empty h = .ok e.spelling := by
  obtain ⟨t, ht, hsettle, rfl⟩ := hp.place_of_resolved hr he
  obtain ⟨name, hname⟩ := Registry.exists_displayName_eq_ok (n := .empty) hp.closed
    (isRegistered_place hp.room hp.chart ht)
  rw [hname, hp.chart.eq_shown ht hname, TypeExpression.shown_of_settle? hsettle hplain]

end Model.Placed

namespace Model

/-- A model with few enough slots for each of them to have a handle is loaded so that every
expression in it is resolved. The type that an expression is resolved to is called by the canonical
spelling, which is read as the expression again, if no name in it ends in a number of parameters. So
such expressions are resolved to the same type if and only if they are the same. -/
theorem display_names_read_back {m : Model} {l : Loaded} (hl : m.load.result = .ok l)
    (hsize : l.registry.size ≤ UInt32.size) :
    (∀ text ∈ m.expressions, ∃ h, l.Resolved m text h) ∧
    (∀ text h e, l.Resolved m text h → TypeExpression.read text = .ok e → e.Plain →
      l.registry.displayName .empty h = .ok e.spelling ∧
        TypeExpression.read e.spelling = .ok e) ∧
    ∀ text text' h h' e e', l.Resolved m text h → l.Resolved m text' h' →
      TypeExpression.read text = .ok e → TypeExpression.read text' = .ok e' → e.Plain → e'.Plain →
        (h = h' ↔ e = e') := by
  have hp := placed_of_load hl hsize
  have hread : ∀ {text e}, TypeExpression.read text = .ok e →
      TypeExpression.read e.spelling = .ok e := fun he =>
    TypeExpression.read_spelling (TypeExpression.read_eq_ok_iff.1 he).wellNamed
  refine ⟨fun text htext => hp.exists_resolved htext, fun text h e hr he hplain =>
    ⟨hp.displayName_of_resolved hr he hplain, hread he⟩, ?_⟩
  intro text text' h h' e e' hr hr' he he' hplain hplain'
  constructor
  · rintro rfl
    -- The one display name is the spelling of both.
    have hname := hp.displayName_of_resolved hr he hplain
    rw [hp.displayName_of_resolved hr' he' hplain'] at hname
    have hsame := hread he
    rw [← Except.ok.inj hname, hread he'] at hsame
    exact (Except.ok.inj hsame).symm
  · rintro rfl
    obtain ⟨t, -, hsettle, rfl⟩ := hp.place_of_resolved hr he
    obtain ⟨t', -, hsettle', rfl⟩ := hp.place_of_resolved hr' he'
    rw [Option.some.inj (hsettle.symm.trans hsettle')]

/-- Two generic types, one of them declared with its number of parameters, and expressions that are
not written canonically. -/
def library : Model where
  types := [
    { name := "Library", base := some "Map< Key ,List<List<Key>>>" },
    { name := "Key" },
    { name := "List" },
    { name := "Map\x602" }]
  diagram := ["List<Key>", "List < Key >"]

theorem library_names_read_back : ∃ l h, library.load.result = .ok l ∧
    l.Resolved library "Map< Key ,List<List<Key>>>" h ∧
    l.registry.displayName .empty h = .ok "Map<Key, List<List<Key>>>" ∧
    ∀ a b, l.Resolved library "List<Key>" a → l.Resolved library "List < Key >" b → a = b := by
  have hsize : library.load.result.toOption.map (fun l => l.registry.size) = some 7 := by
    decide +kernel
  obtain ⟨l, hl, hsize⟩ := Except.map_toOption_eq_some.1 hsize
  obtain ⟨hresolved, hnames, hsame⟩ := display_names_read_back hl (by rw [hsize]; decide)
  obtain ⟨h, hh⟩ := hresolved "Map< Key ,List<List<Key>>>" (by decide)
  have hkeys : (TypeExpression.node "List" [.node "Key" []]).Plain := by
    refine ⟨?_, ⟨?_, trivial⟩, trivial⟩ <;> decide
  have hname := hnames _ h
    (.node "Map" [.node "Key" [], .node "List" [.node "List" [.node "Key" []]]]) hh
    (by decide +kernel) ⟨by decide, ⟨by decide, trivial⟩, ⟨by decide, hkeys, trivial⟩, trivial⟩
  refine ⟨l, h, hl, hh, hname.1, fun a b ha hb => ?_⟩
  exact (hsame _ _ a b _ _ ha hb (by decide +kernel) (by decide +kernel) hkeys hkeys).2 rfl

end Model

end ClassDiagram
