import ClassDiagram.Proofs.Listing.Rows
import ClassDiagram.Proofs.TypeExpression.Canonical
/-!
# The full diagram

A model that asks for nothing draws every declared type. To ask for all of them by their names comes
to the same, in the result and in everything that is reported, as long as the names can be spelt in
an expression. It does not where a name cannot: an expression reads something else out of it, or
nothing at all.
-/

namespace ClassDiagram

/-! ## Names as expressions -/

theorem TypeExpression.read_name {name : String} (h : IsName name.toList) :
    read name = .ok (.node name []) :=
  read_spelling (e := .node name []) ⟨h, trivial⟩

/-- Only a name that can be spelt is read as itself. -/
theorem TypeExpression.isName_of_read {name : String} (h : read name = .ok (.node name [])) :
    IsName name.toList := by
  have hderives := read_eq_ok_iff.1 h
  generalize hl : name.toList = l at hderives
  generalize he : TypeExpression.node name [] = e at hderives
  cases hderives with
  | bare hbefore hname hbehind hstop =>
    obtain ⟨rfl, -⟩ := TypeExpression.node.inj he
    rw [String.toList_ofList] at hl
    rwa [← hl]
  | generic hbefore hname hgap hstop hall hbehind =>
    obtain ⟨-, rfl⟩ := TypeExpression.node.inj he
    cases hall

namespace Declared

variable {declared : Declared} {name : String} {h : Handle}

/-- A declared name is resolved to its type, and the registry is left alone. -/
theorem resolveText_name (hn : TypeExpression.IsName name.toList)
    (hlookup : declared.lookup name = some h) : declared.resolveText name = pure h := by
  rw [resolveText, TypeExpression.read_name hn]
  simp only [resolve, resolveName, hlookup]
  rfl

theorem mapM_resolveText_names {l : Declared} (hn : declared.names.Nodup)
    (hl : ∀ p ∈ l, p ∈ declared) (hnames : ∀ p ∈ l, TypeExpression.IsName p.1.toList) :
    (l.names.mapM fun text => declared.resolveText text) = pure (l.map Prod.snd) := by
  induction l with
  | nil => rfl
  | cons p l ih =>
    obtain ⟨hp, hl⟩ := List.forall_mem_cons.1 hl
    obtain ⟨hpname, hnames⟩ := List.forall_mem_cons.1 hnames
    have hfirst : declared.resolveText p.1 = pure p.2 :=
      resolveText_name hpname (lookup_of_mem hn hp)
    rw [names, List.map_cons, List.mapM_cons, hfirst, ← names, ih hl hnames]
    simp

end Declared

/-! ## Both diagrams -/

namespace Model

variable {m : Model}

/-- The model that asks for every declared type by its name. -/
def withFullDiagram (m : Model) : Model := { m with diagram := m.names }

/-- Where the declared names are all different and can be spelt, both diagrams are the handles of
the declared types. -/
theorem roots_withFullDiagram (hnil : m.diagram = []) {declared : Declared}
    (hdeclared : declared.names = m.names) (hn : m.names.Nodup)
    (hnames : ∀ n ∈ m.names, TypeExpression.IsName n.toList) :
    m.withFullDiagram.roots declared = m.roots declared := by
  have hspelt : ∀ p ∈ declared, TypeExpression.IsName p.1.toList := fun p hp =>
    hnames p.1 (hdeclared ▸ List.mem_map_of_mem hp)
  have hmapM := Declared.mapM_resolveText_names (hdeclared ▸ hn) (fun p hp => hp) hspelt
  have hroots : m.roots declared = pure (declared.map Prod.snd) := by simp [roots, hnil]
  rw [hroots, ← hmapM, hdeclared]
  unfold roots withFullDiagram
  by_cases hempty : m.names = []
  -- A model without types asks for nothing either way.
  · have hdeclared : declared = [] := List.map_eq_nil_iff.1 (hdeclared.trans hempty)
    simp [hempty, hdeclared]
  · simp [hempty]

theorem loading_withFullDiagram (hnil : m.diagram = [])
    (hnames : ∀ n ∈ m.names, TypeExpression.IsName n.toList) :
    m.withFullDiagram.loading = m.loading := by
  funext r
  refine Traced.bind_congr fun ⟨declared, s⟩ hdeclare => ?_
  have hwp := @TypeDeclaration.wp_declareAll r [] m.types List.nodup_nil
  obtain ⟨hdeclared, -, -, hn⟩ := Loading.wp_of_result hwp hdeclare
  have hnames' : Declared.names declared = m.names := by
    rw [hdeclared, List.nil_append, Declared.names, List.map_map, names]
    conv_rhs => rw [← List.zipIdx_map_fst r.size m.types, List.map_map]
    rfl
  show (TypeDeclaration.defineAll declared (m.types.zip (declared.map Prod.snd)) >>=
    fun _ => m.withFullDiagram.roots declared) s = (TypeDeclaration.defineAll declared
      (m.types.zip (declared.map Prod.snd)) >>= fun _ => m.roots declared) s
  rw [roots_withFullDiagram hnil hnames' hn hnames]

theorem load_withFullDiagram (hnil : m.diagram = [])
    (hnames : ∀ n ∈ m.names, TypeExpression.IsName n.toList) : m.withFullDiagram.load = m.load := by
  rw [load, load, loading_withFullDiagram hnil hnames]
  rfl

/-- If every name denotes the type that it is declared for, then every name can be spelt. -/
theorem isName_of_roots {l : Loaded} (hp : m.withFullDiagram.Placed l)
    (hroots : l.roots = (List.range m.types.length).map Handle.ofNat) :
    ∀ n ∈ m.names, TypeExpression.IsName n.toList := by
  intro n hn
  obtain ⟨t, ht, rfl⟩ := List.mem_map.1 hn
  obtain ⟨i, hi, rfl⟩ := List.getElem_of_mem ht
  have hne : m.withFullDiagram.diagram ≠ [] := List.ne_nil_of_mem hn
  have hdenotes := (List.forall₂_iff_get.1 (hp.roots_of_ne_nil hne)).2 i
    (by simpa [withFullDiagram, names] using hi) (by simpa [hroots] using hi)
  have hget : m.withFullDiagram.types[i]? = some m.types[i] := List.getElem?_eq_getElem hi
  have hread := (hp.denotesIn_declared_iff hget (List.mem_append_right _ hn)).1
    (by simpa [hroots, withFullDiagram, names] using hdenotes)
  exact TypeExpression.isName_of_read hread

/-- To ask for nothing is to ask for every declared type by its name, if every name can be spelt:
loading fails alike, or comes to the same registry and the same roots, and the reports are the same.
For a model that loads, the names have to be such that they can be spelt. -/
theorem default_diagram_is_full (hnil : m.diagram = []) :
    ((∀ n ∈ m.names, TypeExpression.IsName n.toList) → m.withFullDiagram.load = m.load) ∧
      ∀ l, m.load.result = .ok l → l.registry.size ≤ UInt32.size →
        (m.withFullDiagram.load.result = .ok l ↔
          ∀ n ∈ m.names, TypeExpression.IsName n.toList) := by
  refine ⟨load_withFullDiagram hnil, fun l hl hsize => ⟨fun hfull => ?_, fun hnames => ?_⟩⟩
  · exact isName_of_roots (placed_of_load hfull hsize)
      ((placed_of_load hl hsize).roots_of_nil hnil)
  · rw [load_withFullDiagram hnil hnames, hl]

/-- Names with a backtick, a digit and a no-break space in them, one of which is a generic type. -/
def bazaar : Model where
  types := [
    { name := "List`1", enumerable := true },
    { name := "0", base := some "`" },
    { name := "`", properties := [{ name := "Stalls", type := "List< List<a b> >" }] },
    { name := "a b", kind := "struct" }]

/-- A name that begins with a blank, and the name that is read out of it. -/
def overlap : Model where
  types := [{ name := " A" }, { name := "A" }]

/-- The names of the first model can be spelt. Of the second model one cannot, and the two diagrams
differ although both of them load. -/
theorem bazaar_and_overlap :
    bazaar.withFullDiagram.load = bazaar.load ∧ bazaar.load.result.isOk ∧
      ∃ l, overlap.load.result = .ok l ∧ l.registry.size ≤ UInt32.size ∧
        overlap.withFullDiagram.load.result.isOk ∧
          overlap.withFullDiagram.load.result ≠ .ok l := by
  have hsize : overlap.load.result.toOption.map (fun l => l.registry.size) = some 2 := by
    decide +kernel
  obtain ⟨l, hl, hsize⟩ := Except.map_toOption_eq_some.1 hsize
  have hfits : l.registry.size ≤ UInt32.size := by
    rw [hsize]
    decide
  refine ⟨(default_diagram_is_full rfl).1 (by decide +kernel), by decide +kernel, l, hl, hfits,
    by decide +kernel, fun hfull => ?_⟩
  have hnames := ((default_diagram_is_full rfl).2 l hl hfits).1 hfull
  exact absurd (hnames " A" List.mem_cons_self) (by decide)

end Model

end ClassDiagram
