import ClassDiagram.Proofs.Outline
/-!
# Skeletons

Which edges a drawing has is decided by little of what the registry says: the kinds, the bases, the
types of the properties, the arguments, and which types can be enumerated. Names of types and
members, other properties of members, methods, interfaces and definitions only show inside the
blocks, and so do aliases and detail. The style shows nowhere in the text.
-/

namespace ClassDiagram

/-- What of a description decides on edges. -/
structure Skeleton where
  kind : Kind
  base : Option Handle
  valueTypes : List Handle
  arguments : List Handle
  enumerable : Bool
deriving DecidableEq

def Description.skeleton (t : Description) : Skeleton where
  kind := t.kind
  base := t.base
  valueTypes := t.properties.map Property.valueType
  arguments := t.arguments
  enumerable := t.enumerable

namespace Registry

/-- What of a registry decides on edges, slot by slot. -/
def skeleton (r : Registry) : List Skeleton := r.slots.toList.map Description.skeleton

variable {r r' : Registry} {h : Handle}

theorem size_of_skeleton (hr : r.skeleton = r'.skeleton) : r.size = r'.size := by
  simpa [skeleton, size] using congrArg List.length hr

theorem get?_of_skeleton (hr : r.skeleton = r'.skeleton) (h : Handle) :
    (r.get? h).map Description.skeleton = (r'.get? h).map Description.skeleton := by
  have hslot := congrArg (·[h.slot]?) hr
  simpa [skeleton, get?] using hslot

/-- Two registries of one skeleton have the same slots occupied, with descriptions of one
skeleton. -/
theorem cases_of_skeleton (hr : r.skeleton = r'.skeleton) (h : Handle) :
    (r.get? h = none ∧ r'.get? h = none) ∨
      ∃ t t', r.get? h = some t ∧ r'.get? h = some t' ∧ t.skeleton = t'.skeleton := by
  have hmap := get?_of_skeleton hr h
  cases ht : r.get? h with
  | none =>
    rw [ht, Option.map_none, eq_comm, Option.map_eq_none_iff] at hmap
    exact .inl ⟨rfl, hmap⟩
  | some t =>
    rw [ht, Option.map_some, eq_comm, Option.map_eq_some_iff] at hmap
    obtain ⟨t', ht', heq⟩ := hmap
    exact .inr ⟨t, t', rfl, ht', heq.symm⟩

theorem climb_of_skeleton (hr : r.skeleton = r'.skeleton) (steps : Nat) (met : List Handle) :
    r.climb steps met h = r'.climb steps met h := by
  induction steps generalizing met h with
  | zero => rfl
  | succ steps ih =>
    rcases cases_of_skeleton hr h with ⟨hn, hn'⟩ | ⟨t, t', ht, ht', hskeleton⟩
    · simp [climb, describe, hn, hn']
    · have hbase : t.base = t'.base := congrArg Skeleton.base hskeleton
      simp only [climb, describe, ht, ht', Except.ok_bind, hbase]
      cases t'.base with
      | none => rfl
      | some base => simp only [ih]

theorem ancestors_of_skeleton (hr : r.skeleton = r'.skeleton) (h : Handle) :
    r.ancestors h = r'.ancestors h := by
  rw [ancestors, ancestors, climb_of_skeleton hr, size_of_skeleton hr]

theorem lineage_of_skeleton (hr : r.skeleton = r'.skeleton) (h : Handle) :
    r.lineage h = r'.lineage h := by
  rw [lineage, lineage, ancestors_of_skeleton hr]

end Registry

namespace Drawing

section

variable {d d' : Drawing} (hrequested : ∀ a, a ∈ d.requested ↔ a ∈ d'.requested)
  (hskeleton : d.registry.skeleton = d'.registry.skeleton) {h : Handle}

include hrequested hskeleton

/-! ## Parts -/

theorem acrossEdge?_of_skeleton (p : Property) : d.acrossEdge? h p = d'.acrossEdge? h p := by
  have helement : (d.registry.get? p.valueType).bind Description.element? =
      (d'.registry.get? p.valueType).bind Description.element? := by
    rcases Registry.cases_of_skeleton hskeleton p.valueType with ⟨hn, hn'⟩ | ⟨t, t', ht, ht', heq⟩
    · rw [hn, hn']
    · have harguments : t.arguments = t'.arguments := congrArg Skeleton.arguments heq
      have henumerable : t.enumerable = t'.enumerable := congrArg Skeleton.enumerable heq
      simp [ht, ht', Description.element?, harguments, henumerable]
  simp only [acrossEdge?, helement, hrequested]

theorem edgesAt_of_skeleton {first : Bool} {t t' : Description} (ht : t.skeleton = t'.skeleton) :
    d.edgesAt first h t = d'.edgesAt first h t' := by
  have hup : d.upwardEdges h = d'.upwardEdges h := by
    simp only [upwardEdges, edgesTo, hrequested, Registry.lineage_of_skeleton hskeleton]
  have hacross : t.properties.filterMap (d.acrossEdge? h) =
      t'.properties.filterMap (d'.acrossEdge? h) := by
    have hvalues : t.properties.map Property.valueType = t'.properties.map Property.valueType :=
      congrArg Skeleton.valueTypes ht
    -- Of a property, an edge only reads the type.
    have hread : ∀ e : Drawing, e.acrossEdge? h =
        (fun v => e.acrossEdge? h { name := "", valueType := v }) ∘ Property.valueType :=
      fun _ => rfl
    rw [funext (acrossEdge?_of_skeleton hrequested hskeleton), hread d', ← List.filterMap_map,
      ← List.filterMap_map, hvalues]
  rw [edgesAt, edgesAt, hup, hacross]

/-- The parts of a requested type depend on the skeleton, and on which types are requested. -/
theorem partsAt_of_skeleton (first : Bool) (h : Handle) :
    d.partsAt first h = d'.partsAt first h := by
  unfold partsAt
  rcases Registry.cases_of_skeleton hskeleton h with ⟨hn, hn'⟩ | ⟨t, t', ht, ht', heq⟩
  · rw [hn, hn']
  · have hkind : t.kind = t'.kind := congrArg Skeleton.kind heq
    simp only [ht, ht', hkind, edgesAt_of_skeleton hrequested hskeleton heq]

theorem partsAfter_of_skeleton (met l : List Handle) :
    d.partsAfter met l = d'.partsAfter met l := by
  induction l generalizing met with
  | nil => rfl
  | cons h l ih => simp only [partsAfter, partsAt_of_skeleton hrequested hskeleton, ih]

omit hrequested in
theorem parts_of_skeleton (hsame : d.requested = d'.requested) : d.parts = d'.parts := by
  have hmem : ∀ a, a ∈ d.requested ↔ a ∈ d'.requested := fun a => by rw [hsame]
  rw [parts_eq, parts_eq, partsAfter_of_skeleton hmem hskeleton, hsame]

end

/-- The edges of a drawing that succeeds are those of its parts, in order. -/
theorem edges_eq_of_fragment {d : Drawing} {style : Style} {f : Fragment}
    (hf : (d.fragment style).result = .ok f) : f.edges = d.parts.filterMap Part.edge? := by
  obtain ⟨-, hsegments, -⟩ := fragment_eq_ok.1 hf
  exact (texts_of_segments hsegments).2

/-- The style goes along with the outcome and decides on nothing. -/
theorem result_fragment (d : Drawing) (style style' : Style) :
    (d.fragment style').result =
      (d.fragment style).result.map fun f => { f with style := style' } := by
  simp only [fragment, Traced.result_within, Traced.result_bind, Traced.result_report,
    Traced.result_pure]
  cases (d.roots d.requested .empty).result <;> rfl

/-- Which edges are drawn, and in which order, never depends on presentation. If two drawings of the
same requested types succeed over registries of one skeleton, then they have the same edges,
whatever the types and their members are called, whatever else is said of the members, and whatever
aliases, details and styles are chosen. And a drawing has the same text in every style, or fails in
every style. -/
theorem edges_ignore_presentation :
    (∀ (d d' : Drawing) (style style' : Style) (f f' : Fragment),
      d.requested = d'.requested → d.registry.skeleton = d'.registry.skeleton →
      (d.fragment style).result = .ok f → (d'.fragment style').result = .ok f' →
        f.edges = f'.edges) ∧
    ∀ (d : Drawing) (style style' : Style),
      (d.fragment style').result.map Fragment.text =
        (d.fragment style).result.map Fragment.text := by
  constructor
  · intro d d' style style' f f' hrequested hskeleton hf hf'
    rw [edges_eq_of_fragment hf, edges_eq_of_fragment hf', parts_of_skeleton hskeleton hrequested]
  · intro d style style'
    rw [result_fragment d style style']
    cases (d.fragment style).result <;> rfl

/-- A dog, its base, its interface, and a list of its toys. One requested type is no class. -/
def toybox : Drawing where
  registry :=
    { slots := #[
        { name := "Animal", kind := .reference },
        { name := "Dog", kind := .reference, base := some (.ofNat 0), interfaces := [.ofNat 2],
          properties := [
            { name := "Friend", valueType := .ofNat 1 },
            { name := "Toys", valueType := .ofNat 4 }] },
        { name := "IPet", kind := .interface },
        { name := "Toy", kind := .reference },
        { name := "List\x601", kind := .reference, definition := some (.ofNat 5),
          arguments := [.ofNat 3], enumerable := true },
        { name := "List\x601", kind := .reference, enumerable := true }] }
  requested := [.ofNat 1, .ofNat 2, .ofNat 0, .ofNat 3]

/-- The same skeleton in disguise: most types are called alike, no interface is implemented, one
property is static and one cannot be set, and there is a method. -/
def masked : Drawing where
  registry :=
    { slots := #[
        { name := "X", kind := .reference },
        { name := "X", kind := .reference, base := some (.ofNat 0),
          properties := [
            { name := "A", valueType := .ofNat 1, isStatic := true },
            { name := "B", valueType := .ofNat 4, settable := false }],
          methods := [{ name := "Run", visibility := .pub }] },
        { name := "X", kind := .interface, interfaces := [.ofNat 0] },
        { name := "X", kind := .reference },
        { name := "Y", kind := .reference, arguments := [.ofNat 3], enumerable := true },
        { name := "Y", kind := .reference, enumerable := true }] }
  naming := .ofList [("Y", "Z")]
  requested := [.ofNat 1, .ofNat 2, .ofNat 0, .ofNat 3]
  detail := .all

/-- The texts have little in common, the edges are the same. -/
theorem toybox_masked :
    ∃ f f', (toybox.fragment {}).result = .ok f ∧
      (masked.fragment { palette := .scruffy }).result = .ok f' ∧
      f.text = "[<<IPet>>;Dog]^-[Animal],[<<IPet>>;Dog]->[<<IPet>>;Dog]," ++
        "[<<IPet>>;Dog]1-0..*[Toy],[Animal],[Toy]" ∧
      f'.text = "[X|- B : Z<X>|+ Run()]^-[X],[X|- B : Z<X>|+ Run()]->[X|- B : Z<X>|+ Run()]," ++
        "[X|- B : Z<X>|+ Run()]1-0..*[X],[X],[X]" ∧
      f.edges = f'.edges ∧
      (toybox.fragment { palette := .scruffy }).result.map Fragment.text = .ok f.text := by
  have htext : Fragment.text <$> (toybox.fragment {}).result =
      .ok ("[<<IPet>>;Dog]^-[Animal],[<<IPet>>;Dog]->[<<IPet>>;Dog]," ++
        "[<<IPet>>;Dog]1-0..*[Toy],[Animal],[Toy]") := by decide +kernel
  have htext' : Fragment.text <$> (masked.fragment { palette := .scruffy }).result =
      .ok ("[X|- B : Z<X>|+ Run()]^-[X],[X|- B : Z<X>|+ Run()]->[X|- B : Z<X>|+ Run()]," ++
        "[X|- B : Z<X>|+ Run()]1-0..*[X],[X],[X]") := by decide +kernel
  obtain ⟨f, hf, htext⟩ := Except.map_eq_ok.1 htext
  obtain ⟨f', hf', htext'⟩ := Except.map_eq_ok.1 htext'
  obtain ⟨hedges, hstyle⟩ := edges_ignore_presentation
  refine ⟨f, f', hf, hf', htext, htext', ?_, ?_⟩
  · exact hedges toybox masked _ _ f f' rfl rfl hf hf'
  · rw [hstyle toybox {}, hf]
    rfl

end Drawing

end ClassDiagram
