import ClassDiagram.Proofs.Model.Part
import ClassDiagram.Proofs.TypeExpression.Resolution
/-!
# Accepted models

Which models load, told from their text alone, and how loading fails on all others. The stages that
follow on the declarations take every declared type to be in the table of the declared ones.
-/

namespace ClassDiagram.Model

open TypeExpression (ResolvesIn isSome_term?)

variable {m : Model}

/-- What makes sense was said of each declaration and of what to draw; it comes to the kinds, the
visibilities, the names and the expressions of the whole model. -/
theorem wellFormed_iff : m.WellFormed ↔
    (∀ t ∈ m.types, (Kind.ofText? t.kind).isSome) ∧
      (∀ t ∈ m.types, ∀ x ∈ t.methods, (Visibility.ofText? x.visibility).isSome) ∧
        m.names.Nodup ∧ ∀ text ∈ m.expressions, ResolvesIn m.names text := by
  constructor
  · intro hwf
    refine ⟨hwf.kinds, fun t ht => (hwf.types t ht).visibilities, hwf.names, fun text htext => ?_⟩
    exact isSome_term?.1 (hwf.isSome_term? htext)
  · rintro ⟨hkinds, hvisibilities, hnames, hexpressions⟩
    refine ⟨hkinds, hnames, fun t ht => ⟨fun text htext => ?_, hvisibilities t ht⟩,
      fun text htext => ?_⟩
    · exact isSome_term?.2 (hexpressions text (mem_expressions ht htext))
    · exact isSome_term?.2 (hexpressions text (List.mem_append_right _ htext))

/-- In the table of the declared types every declared name is found, with the handle that the table
lists for it. -/
theorem map_lookup_declarations (hn : m.names.Nodup) :
    m.types.map (fun t => m.declarations.lookup t.name) =
      m.declarations.map fun p => some p.2 := by
  rw [← names_declarations] at hn
  conv_lhs => rw [← List.zipIdx_map_fst 0 m.types]
  conv_rhs => rw [declarations]
  rw [List.map_map, List.map_map]
  refine List.map_congr_left fun p hp => Declared.lookup_of_mem hn ?_
  exact mem_declarations.2 ⟨p.2, p.1, List.mem_zipIdx_iff_getElem?.1 hp, rfl⟩

/-- Loading succeeds exactly on the models whose kinds and visibilities are known, whose names are
declared once each, and whose expressions can all be read and resolve node by node. It fails on all
others by their own fault. Once the types are declared, every declared name is in their table. -/
theorem load_accepts_what_resolves (m : Model) :
    ((∃ l, m.load.result = .ok l) ↔
      (∀ t ∈ m.types, (Kind.ofText? t.kind).isSome) ∧
        (∀ t ∈ m.types, ∀ x ∈ t.methods, (Visibility.ofText? x.visibility).isSome) ∧
          m.names.Nodup ∧ ∀ text ∈ m.expressions, ResolvesIn m.names text) ∧
    (∀ f, m.load.result = .error f →
      (∃ fault, f = .model fault) ∨ ∃ fault expression, f = .typeExpression fault expression) ∧
    ∀ declared r, (TypeDeclaration.declareAll [] m.types .empty).result = .ok (declared, r) →
      m.types.map (fun t => declared.lookup t.name) = declared.map fun p => some p.2 := by
  refine ⟨exists_load_iff.trans wellFormed_iff, fun f hf => ?_, fun declared r hdeclare => ?_⟩
  · have hmodel := isOfModel_of_load hf
    cases f with
    | model fault => exact .inl ⟨fault, rfl⟩
    | typeExpression fault expression => exact .inr ⟨fault, expression, rfl⟩
    | _ => simp [Failure.isOfModel] at hmodel
  · have hwp := @TypeDeclaration.wp_declareAll .empty [] m.types List.nodup_nil
    obtain ⟨hdeclared, -, -, hnames⟩ := Loading.wp_of_result hwp hdeclare
    obtain rfl : declared = m.declarations := hdeclared
    exact map_lookup_declarations hnames

/-- A generic type for two arguments, one of them constructed, which is declared after its use. -/
def atlas : Model where
  types := [
    { name := "Atlas", base := some "Map<Key, List<Key>>" },
    { name := "Key", kind := "interface",
      methods := [{ name := "Turn", visibility := "private" }] },
    { name := "List" },
    { name := "Map\x602" }]

/-- The generic type is asked for with a single argument. -/
def tornAtlas : Model := { atlas with diagram := ["Map<Key>"] }

/-- With two arguments the name is declared, and with one it is not. -/
theorem atlas_accepted : (∃ l, atlas.load.result = .ok l) ∧
    (∃ f, tornAtlas.load.result = .error f ∧
      ((∃ fault, f = .model fault) ∨ ∃ fault expression, f = .typeExpression fault expression)) ∧
    ∃ declared r, (TypeDeclaration.declareAll [] atlas.types .empty).result = .ok (declared, r) ∧
      atlas.types.map (fun t => declared.lookup t.name) = declared.map fun p => some p.2 := by
  obtain ⟨haccepts, -, htable⟩ := load_accepts_what_resolves atlas
  obtain ⟨hrefuses, hfault, -⟩ := load_accepts_what_resolves tornAtlas
  refine ⟨haccepts.2 (by decide +kernel), ?_, ?_⟩
  · cases hl : tornAtlas.load.result with
    | error f => exact ⟨f, rfl, hfault f hl⟩
    | ok l => exact absurd (hrefuses.1 ⟨l, hl⟩) (by decide +kernel)
  · have hdeclared : ((TypeDeclaration.declareAll [] atlas.types .empty).result.toOption.map
        fun _ => ()) = some () := by decide +kernel
    obtain ⟨⟨declared, r⟩, hdeclare, -⟩ := Except.map_toOption_eq_some.1 hdeclared
    exact ⟨declared, r, hdeclare, htable declared r hdeclare⟩

end ClassDiagram.Model
