import ClassDiagram.Model.Render
import ClassDiagram.Proofs.Drawable
import ClassDiagram.Proofs.Model.Stages
/-!
# Loaded models can be drawn

Loading keeps the registry closed at every step, those of half-defined types and of the generic
types constructed in between included, so what is loaded can be drawn.
-/

namespace ClassDiagram

namespace Registry

variable {r : Registry} {c : Construction} {t : Description}

/-- Constructing from registered types ends with the construction found or with a new one. -/
theorem wp_construct {Q : Handle → Registry → Prop} {E : Failure → Prop}
    (hargs : ∀ a ∈ c.arguments, r.IsRegistered a) (ht : r.get? c.definition = some t)
    (hold : ∀ h, r.constructed? c = some h → Q h r)
    (hnew : r.constructed? c = none → Q r.nextHandle (r.withInstance t c)) :
    Loading.wp (fun registry => registry.construct c) Q E r := by
  unfold Loading.wp
  cases hc : r.constructed? c with
  | some h => simpa [construct_eq_ok.2 (.inl ⟨hc, rfl⟩)] using hold h hc
  | none => simpa [construct_eq_ok.2 (.inr ⟨hc, hargs, t, ht, rfl, rfl⟩)] using hnew hc

end Registry

/-! ## The account of closed registries -/

/-- The registry is closed, and every handle that was given out is good. -/
def closedAccount (declared : Declared) : Account declared where
  Holds _ r := r.Closed ∧ ∀ p ∈ declared, r.IsRegistered p.2
  Denotes _ r _ h := r.IsRegistered h
  denotes_declared := by
    intro ms r n h hr hh
    exact hr.2 (n, h) (Declared.mem_of_lookup hh)
  wp_construct := by
    intro ms r n h ts hs hr hh _ hargs
    obtain ⟨hclosed, hdeclared⟩ := hr
    have hreg : ∀ a ∈ hs, r.IsRegistered a := by
      intro a ha
      obtain ⟨_, -, hreg⟩ := hargs.exists_of_mem_right ha
      exact hreg
    -- The definition was declared, so it has a description by now, complete or not.
    obtain ⟨t, ht⟩ := Registry.isRegistered_iff.1 (hdeclared (n, h) (Declared.mem_of_lookup hh))
    refine Registry.wp_construct hreg ht (fun k hk => ?_) fun _ => ?_
    · exact ⟨⟨hclosed, hdeclared⟩, fun _ _ ha => ha, hclosed.constructed _ k hk⟩
    · refine ⟨⟨hclosed.withInstance hreg ht, fun p hp => ?_⟩, fun _ a ha => ?_, ?_⟩
      · exact (hdeclared p hp).push
      · exact Registry.IsRegistered.push ha
      · exact Registry.isRegistered_nextHandle

/-- The changes that define a type bring in no handle but those of its expressions. -/
theorem TypeDeclaration.DefinedBy.references {D : String → Handle → Prop} {t : TypeDeclaration}
    {edits : List Edit} (h : t.DefinedBy D edits) :
    ∀ e ∈ edits, ∀ a ∈ e.references, ∃ text, D text a := by
  obtain ⟨bases, interfaces, values, methods, hbases, hinterfaces, hvalues, -, rfl⟩ := h
  intro e he a ha
  simp only [List.mem_append, List.mem_map] at he
  rcases he with ((⟨b, hb, rfl⟩ | ⟨i, hi, rfl⟩) | ⟨q, hq, rfl⟩) | ⟨m, -, rfl⟩
  · obtain rfl := List.mem_singleton.1 ha
    obtain ⟨text, -, htext⟩ := hbases.exists_of_mem_right hb
    exact ⟨text, htext⟩
  · obtain rfl := List.mem_singleton.1 ha
    obtain ⟨text, -, htext⟩ := hinterfaces.exists_of_mem_right hi
    exact ⟨text, htext⟩
  · obtain rfl := List.mem_singleton.1 ha
    rw [← List.map_uncurry_zip_eq_zipWith] at hq
    obtain ⟨⟨p, v⟩, hpv, rfl⟩ := List.mem_map.1 hq
    obtain ⟨text, -, htext⟩ := hvalues.exists_of_mem_right (List.of_mem_zip hpv).2
    exact ⟨text, htext⟩
  · simp [Edit.references] at ha

/-- Before any type is defined no handle is stored at all. -/
theorem Model.closed_bare (m : Model) : m.bare.Closed := by
  -- No description refers to anything yet.
  have hslot : ∀ h d, m.bare.get? h = some d → d.references = [] := by
    intro h d hd
    simp only [Registry.get?, Model.bare, List.getElem?_toArray, List.getElem?_map,
      Option.map_eq_some_iff] at hd
    obtain ⟨t, -, rfl⟩ := hd
    rfl
  refine ⟨fun h d hd a ha => ?_, fun h d hd a ha => ?_, fun c h hc => ?_⟩
  · have hmem := Description.mem_references_of_mem_arguments ha
    rw [hslot h d hd] at hmem
    simp at hmem
  · rw [hslot h d hd] at ha
    simp at ha
  · simp [Registry.constructed?, Model.bare] at hc

theorem Model.isRegistered_bare (m : Model) : ∀ p ∈ m.declarations, m.bare.IsRegistered p.2 := by
  intro p hp
  obtain ⟨i, t, ht, rfl⟩ := Model.mem_declarations.1 hp
  have hi : i < m.types.length := (List.getElem?_eq_some_iff.1 ht).1
  simp only [Registry.IsRegistered, Registry.size, Model.bare, List.size_toArray, List.length_map,
    Handle.slot_ofNat]
  exact Nat.lt_of_le_of_lt (Nat.mod_le ..) hi

/-- Every stage of loading leaves a closed registry. -/
def closedLoadAccount (m : Model) : LoadAccount m where
  after _ := closedAccount m.declarations
  start _ _ := ⟨m.closed_bare, m.isRegistered_bare⟩
  define := by
    intro done t rest edits r hm hr hedits
    obtain ⟨hclosed, hdeclared⟩ := hr
    have hmem : (t.name, Handle.ofNat done.length) ∈ m.declarations :=
      Model.mem_declarations.2 ⟨done.length, t, by simp [hm], rfl⟩
    obtain ⟨d, hd⟩ := Registry.isRegistered_iff.1 (hdeclared _ hmem)
    refine ⟨_, Registry.edit_eq_ok.2 ⟨d, hd, rfl⟩, hclosed.replace hd fun e he a ha => ?_, ?_⟩
    · obtain ⟨text, _, -, hreg⟩ := hedits.references e he a ha
      exact hreg
    · intro p hp
      unfold Registry.IsRegistered
      rw [Registry.size_replace]
      exact hdeclared p hp

/-! ## Loading and drawing -/

namespace Model

variable {m : Model} {l : Loaded} {f : Failure}

theorem closed_of_load (hl : m.load.result = .ok l) :
    l.registry.Closed ∧ ∀ h ∈ l.roots, l.registry.IsRegistered h := by
  obtain ⟨-, hholds, hroots⟩ := (closedLoadAccount m).of_load hl
  refine ⟨hholds.1, fun h hh => ?_⟩
  obtain ⟨_, -, hreg⟩ := hroots.exists_of_mem_right hh
  exact hreg

theorem isOfModel_of_load (hf : m.load.result = .error f) : f.isOfModel :=
  ((closedLoadAccount m).of_load_error hf).1

/-- Loading succeeds on the well-formed models and on no others. -/
theorem exists_load_iff : (∃ l, m.load.result = .ok l) ↔ m.WellFormed := by
  constructor
  · rintro ⟨l, hl⟩
    exact ((closedLoadAccount m).of_load hl).1
  · intro hwf
    cases hl : m.load.result with
    | ok l => exact ⟨l, rfl⟩
    | error f => exact absurd hwf ((closedLoadAccount m).of_load_error hl).2

theorem isOfModel_of_loadText {json : String} (hf : (loadText json).result = .error f) :
    f.isOfModel := by
  simp only [loadText, Traced.result_bind, Traced.result_liftM, Except.bind_eq_error] at hf
  rcases hf with hf | ⟨m, -, hf⟩
  · unfold read at hf
    split at hf
    · simp at hf
    · obtain rfl := Except.error.inj hf
      rfl
  · exact isOfModel_of_load hf

theorem closed_of_loadText {json : String} (hl : (loadText json).result = .ok l) :
    l.registry.Closed ∧ ∀ h ∈ l.roots, l.registry.IsRegistered h := by
  simp only [loadText, Traced.result_bind, Traced.result_liftM, Except.bind_eq_ok] at hl
  obtain ⟨m, -, hl⟩ := hl
  exact closed_of_load hl

theorem isOfModel_of_renderModel {json : String} {detail : Detail}
    (hf : (renderModel json detail).result = .error f) : f.isOfModel := by
  simp only [renderModel, Traced.result_bind, Except.bind_eq_error] at hf
  rcases hf with hf | ⟨l, hl, hf | ⟨_, -, hf⟩⟩
  · exact isOfModel_of_loadText hf
  · obtain ⟨hclosed, hroots⟩ := closed_of_loadText hl
    obtain ⟨fragment, hfragment⟩ :=
      Drawing.exists_fragment_eq_ok (d := l.drawing .empty detail) hclosed hroots {}
    simp [hfragment] at hf
  · simp at hf

/-- A model that loads can be drawn. In what was loaded, every type is described, its chain of bases
and its display name come to an end on their own and are found, its members can be listed, and any
list of its types can be drawn, with all parts of its outline. So the text of a model is rendered
unless the model is at fault. -/
theorem loaded_is_drawable :
    (∀ (m : Model) (l : Loaded), m.load.result = .ok l →
      (∀ h ∈ l.roots, l.registry.IsRegistered h) ∧
      (∀ h, l.registry.IsRegistered h → ∀ (naming : Naming) (detail : Detail) (extra : Nat),
        (∃ d, l.registry.describe h = .ok d) ∧
        (∃ above, l.registry.ancestors h = .ok above ∧
          l.registry.climb (l.registry.size + 1 + extra) [h] h = .ok above) ∧
        (∃ name, l.registry.displayName naming h = .ok name ∧
          l.registry.nameWithin naming (l.registry.size + 1 + extra) h = .ok name) ∧
        (∃ list, l.registry.propertyList naming detail h = .ok list) ∧
        ∃ list, l.registry.methodList detail h = .ok list) ∧
      ∀ (requested : List Handle) (naming : Naming) (detail : Detail) (style : Style),
        (∀ h ∈ requested, l.registry.IsRegistered h) →
          let d : Drawing := ⟨l.registry, naming, requested, detail⟩
          ∃ f, (d.fragment style).result = .ok f ∧ f.style = style ∧
            d.parts.mapM (Part.segment d) = .ok f.segments) ∧
    ∀ (json : String) (detail : Detail) (f : Failure),
      (renderModel json detail).result = .error f →
        (∃ fault, f = .model fault) ∨ ∃ fault expression, f = .typeExpression fault expression := by
  constructor
  · intro m l hl
    obtain ⟨hclosed, hroots⟩ := closed_of_load hl
    refine ⟨hroots, fun h hh naming detail extra => ?_,
      fun requested naming detail style hreq => ?_⟩
    · obtain ⟨above, habove⟩ := Registry.exists_ancestors_eq_ok hclosed hh
      obtain ⟨name, hname⟩ := Registry.exists_displayName_eq_ok (n := naming) hclosed hh
      refine ⟨?_, ⟨above, habove, ?_⟩, ⟨name, hname, ?_⟩,
        Registry.exists_propertyList_eq_ok hclosed hh naming detail,
        Registry.exists_methodList_eq_ok hh detail⟩
      · obtain ⟨d, hd⟩ := Registry.isRegistered_iff.1 hh
        exact ⟨d, Registry.describe_eq_ok.2 hd⟩
      · rw [Registry.climb_eq_ancestors, habove]
      · rw [Registry.nameWithin_add hclosed.grounded (Nat.lt_succ_of_lt hh)]
        exact hname
    · obtain ⟨f, hf⟩ := Drawing.exists_fragment_eq_ok (d := ⟨l.registry, naming, requested, detail⟩)
        hclosed hreq style
      obtain ⟨-, hparts, hstyle⟩ := Drawing.fragment_eq_ok.1 hf
      exact ⟨f, hf, hstyle, hparts⟩
  · intro json detail f hf
    have hmodel := isOfModel_of_renderModel hf
    cases f with
    | model fault => exact .inl ⟨fault, rfl⟩
    | typeExpression fault expression => exact .inr ⟨fault, expression, rfl⟩
    | _ => simp [Failure.isOfModel] at hmodel

/-- Two classes that are each other's base, and a generic class whose base is constructed from it
and that is constructed from its own constructions. -/
def pack : Model where
  types := [
    { name := "Animal", base := some "Dog" },
    { name := "Dog", base := some "Animal", interfaces := ["IPack<Dog>"],
      properties := [{ name := "Friends", type := "List<List<Dog>>" }] },
    { name := "List\x601", base := some "List<Animal>", enumerable := true },
    { name := "IPack", kind := "interface" }]
  diagram := ["Dog", "List<List<Dog>>", "Animal"]

/-- All that was constructed can be drawn as well. -/
theorem pack_is_drawable : ∃ l, pack.load.result = .ok l ∧ l.registry.size = 8 ∧
    let d : Drawing := ⟨l.registry, .empty, (List.range 8).map .ofNat, .all⟩
    ∃ f, (d.fragment {}).result = .ok f ∧ f.style = {} ∧
      d.parts.mapM (Part.segment d) = .ok f.segments := by
  have hsize : pack.load.result.toOption.map (fun l => l.registry.size) = some 8 := by
    decide +kernel
  cases hl : pack.load.result with
  | error f => simp [hl, Except.toOption] at hsize
  | ok l =>
    have hsize : l.registry.size = 8 := by simpa [hl, Except.toOption] using hsize
    obtain ⟨-, -, hdraw⟩ := loaded_is_drawable.1 pack l hl
    refine ⟨l, rfl, hsize, hdraw _ _ _ _ fun h hh => ?_⟩
    rw [Registry.IsRegistered, hsize]
    revert h
    decide

end Model

end ClassDiagram
