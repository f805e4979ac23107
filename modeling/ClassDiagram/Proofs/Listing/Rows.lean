import ClassDiagram.Listing
import ClassDiagram.Proofs.Model.Representation
/-!
# Rows of a listing

A loaded model is listed with one row for each declared type, in the order of the declarations, and
no row for what was constructed. Every step of loading keeps what is listed of a registry, so this
holds with any number of slots. Which rows are marked is told by what the expressions denote.
-/

namespace ClassDiagram

/-! ## What loading keeps -/

section Kept

variable {P : Registry → Prop}
  (hconstruct : ∀ {r c h r'}, (r.construct c).result = .ok (h, r') → P r → P r')

/-- The registry is closed, and `P` holds of it. -/
def keptAccount (declared : Declared) : Account declared where
  Holds ms r := (closedAccount declared).Holds ms r ∧ P r
  Denotes := (closedAccount declared).Denotes
  denotes_declared hr hh := (closedAccount declared).denotes_declared hr.1 hh
  wp_construct := by
    intro ms r n h ts hs hr hh hts hargs
    refine Loading.wp_mono (Loading.wp_result ((closedAccount declared).wp_construct hr.1 hh hts
      hargs)) (fun k r' hk => ?_) fun _ hf => hf
    obtain ⟨⟨hholds, hkeeps, hself⟩, hresult⟩ := hk
    exact ⟨⟨hholds, hconstruct hresult hr.2⟩, hkeeps, hself⟩

/-- Every stage of loading leaves a closed registry that `P` holds of. -/
def keptLoadAccount {m : Model} (hbare : P m.bare)
    (hedit : ∀ {r h edits r'}, r.edit h edits = .ok r' → P r → P r') : LoadAccount m where
  after _ := keptAccount hconstruct m.declarations
  start hn hkinds := ⟨(closedLoadAccount m).start hn hkinds, hbare⟩
  define := by
    intro done t rest edits r hm hr hedits
    obtain ⟨r', hr', hholds⟩ := (closedLoadAccount m).define hm hr.1 hedits
    exact ⟨r', hr', hholds, hedit hr' hr.2⟩

end Kept

/-- What holds of the declared types and what constructing and editing keep holds of every loaded
registry. -/
theorem Model.kept_by_loading {P : Registry → Prop} {m : Model} {l : Loaded}
    (hl : m.load.result = .ok l) (hbare : P m.bare)
    (hconstruct : ∀ {r c h r'}, (r.construct c).result = .ok (h, r') → P r → P r')
    (hedit : ∀ {r h edits r'}, r.edit h edits = .ok r' → P r → P r') : P l.registry := by
  obtain ⟨-, hholds, -⟩ := (keptLoadAccount hconstruct hbare hedit).of_load hl
  exact hholds.2

/-! ## What is listed of a registry -/

namespace Registry

variable {r r' : Registry} {h : Handle} {c : Construction} {d t : Description} {edits : List Edit}

/-- What is listed of a slot: its number, the name and the kind, unless the type in it was
constructed. -/
def listed? : Description × Nat → Option (Nat × String × Kind)
  | (d, n) => if d.definition.isNone then some (n, d.name, d.kind) else none

/-- What is listed, in the order of the slots. -/
def listed (r : Registry) : List (Nat × String × Kind) := r.slots.toList.zipIdx.filterMap listed?

theorem listed_withInstance : (r.withInstance t c).listed = r.listed := by
  simp [listed, withInstance, push, instanceOf, listed?, List.zipIdx_append]

theorem listed_construct (hr : (r.construct c).result = .ok (h, r')) : r'.listed = r.listed := by
  obtain ⟨-, rfl⟩ | ⟨-, -, t, -, -, rfl⟩ := construct_eq_ok.1 hr
  · rfl
  · exact listed_withInstance

/-- Slots may change as long as the same is listed of them. -/
theorem listed_replace (hd : r.get? h = some d) (hsame : ∀ n, listed? (t, n) = listed? (d, n)) :
    (r.replace h t).listed = r.listed := by
  obtain ⟨hlt, rfl⟩ := Array.getElem?_eq_some_iff.1 hd
  have hmap : (r.replace h t).slots.toList.zipIdx.map listed? =
      r.slots.toList.zipIdx.map listed? := by
    refine List.ext_getElem? fun i => ?_
    by_cases hi : h.slot = i
    · subst hi
      simp [replace, hlt, hsame]
    · simp [replace, hi]
  have hlisted : ∀ l, List.filterMap listed? l = (l.map listed?).filterMap id := fun l => by
    rw [List.filterMap_map, Function.id_comp]
  rw [listed, hlisted, hmap, ← hlisted, listed]

/-- No edit changes what is listed. -/
theorem listed_edit (hr : r.edit h edits = .ok r') : r'.listed = r.listed := by
  obtain ⟨d, hd, rfl⟩ := edit_eq_ok.1 hr
  obtain ⟨hname, hkind, hdefinition, -⟩ := @Edit.fixed_applyAll edits d
  exact listed_replace hd fun n => by simp only [listed?, hname, hkind, hdefinition]

theorem mem_listed {n : Nat} : (∃ name kind, (n, name, kind) ∈ r.listed) ↔
    ∃ d, r.slots[n]? = some d ∧ d.definition = none := by
  simp only [listed, List.mem_filterMap, listed?, Prod.exists, List.mem_zipIdx_iff_getElem?,
    Array.getElem?_toList, Option.ite_none_right_eq_some, Option.some.injEq, Prod.mk.injEq,
    Option.isNone_iff_eq_none]
  constructor
  · rintro ⟨name, kind, d, n, hd, hnone, rfl, -⟩
    exact ⟨d, hd, hnone⟩
  · rintro ⟨d, hd, hnone⟩
    exact ⟨d.name, d.kind, d, n, hd, hnone, rfl, rfl, rfl⟩

end Registry

theorem Loaded.rows_eq (l : Loaded) : l.listing.rows = l.registry.listed.map fun (n, name, kind) =>
    { name, kind, isDrawn := l.roots.contains (.ofNat n) } := by
  simp only [listing, Registry.listed, Registry.toList]
  induction l.registry.slots.toList.zipIdx with
  | nil => rfl
  | cons p ps ih =>
    obtain ⟨d, n⟩ := p
    cases hd : d.definition <;> simp_all [Registry.listed?]

namespace Model

variable {m : Model} {l : Loaded}

/-- What is listed of a model: the declared types, in their order. -/
theorem listed_of_load (hl : m.load.result = .ok l) :
    l.registry.listed = m.types.zipIdx.map fun (t, i) => (i, t.name, t.bare.kind) := by
  refine m.kept_by_loading (P := fun r => r.listed = _) hl ?_ (fun hr hP => ?_) fun hr hP => ?_
  · have hbare : Registry.listed? ∘ Prod.map TypeDeclaration.bare id =
        some ∘ fun (t, i) => (i, t.name, t.bare.kind) := rfl
    rw [bare, Registry.listed, List.zipIdx_map, List.filterMap_map, hbare, List.filterMap_eq_map]
  · rw [Registry.listed_construct hr, hP]
  · rw [Registry.listed_edit hr, hP]

/-- The slots of the declared types are those without a definition. -/
theorem definition_eq_none_iff (hl : m.load.result = .ok l) {k : Nat} {d : Description}
    (hd : l.registry.slots[k]? = some d) : d.definition = none ↔ k < m.types.length := by
  have hmem := @Registry.mem_listed l.registry k
  rw [listed_of_load hl] at hmem
  simp only [hd, Option.some.injEq, exists_eq_left'] at hmem
  rw [← hmem]
  simp only [List.mem_map, Prod.mk.injEq, Prod.exists, List.mem_zipIdx_iff_getElem?]
  constructor
  · rintro ⟨_, _, t, _, ht, rfl, -⟩
    exact (List.getElem?_eq_some_iff.1 ht).1
  · intro hk
    exact ⟨_, _, _, k, List.getElem?_eq_getElem hk, rfl, rfl, rfl⟩

/-- One row for each declared type, in the order of the declarations. -/
theorem rows_of_load (hl : m.load.result = .ok l) :
    l.listing.rows = m.types.zipIdx.map fun (t, i) =>
      { name := t.name, kind := t.bare.kind, isDrawn := l.roots.contains (.ofNat i) } := by
  rw [l.rows_eq, listed_of_load hl, List.map_map]
  rfl

theorem names_of_load (hl : m.load.result = .ok l) : l.listing.rows.map (·.name) = m.names := by
  have hfst : m.types.zipIdx.map Prod.fst = m.types := by simp
  rw [rows_of_load hl, List.map_map, names, ← hfst, List.map_map]
  simp [Function.comp_def]

theorem forall_row_name_iff (hl : m.load.result = .ok l) {P : String → Prop} :
    (∀ r ∈ l.listing.rows, P r.name) ↔ ∀ t ∈ m.types, P t.name := by
  have hrows := List.forall_mem_map (f := (·.name)) (l := l.listing.rows) (P := P)
  rw [← hrows, names_of_load hl, names, List.forall_mem_map]

/-! ## What is marked -/

theorem name_mem {i : Nat} {t : TypeDeclaration} (ht : m.types[i]? = some t) : t.name ∈ m.names :=
  List.mem_map_of_mem (List.mem_of_getElem? ht)

namespace Placed

variable (hp : m.Placed l) {i : Nat} {t : TypeDeclaration} (ht : m.types[i]? = some t)

include hp ht

theorem place_at : m.place (.node t.name []) = .ofNat i := by
  have hi : m.names[i]? = some t.name := by simp [names, ht]
  obtain ⟨hlt, hget⟩ := List.getElem?_eq_some_iff.1 hi
  rw [place_declared hp.wellFormed.names (name_mem ht), ← hget,
    hp.wellFormed.names.idxOf_getElem]

/-- Nothing but its own name denotes a declared type. -/
theorem denotesIn_declared_iff {text : String} (htext : text ∈ m.expressions) :
    m.DenotesIn l.registry text (.ofNat i) ↔ TypeExpression.read text = .ok (.node t.name []) := by
  obtain ⟨u, hu⟩ := Option.isSome_iff_exists.1 (hp.wellFormed.isSome_term? htext)
  have hleaf : TypeExpression.node t.name [] ∈ m.layout :=
    mem_layoutOf.2 (.inl ⟨_, name_mem ht, rfl⟩)
  have hplace : m.place (.node t.name []) = m.place u ↔ .node t.name [] = u :=
    ⟨hp.room.place_inj hleaf (mem_layout_of_term? htext hu), congrArg m.place⟩
  have hname := @TypeExpression.term?_eq_name m.names text t.name
  rw [hu, Option.some.injEq, and_iff_right (name_mem ht)] at hname
  rw [hp.denotesIn_iff htext hu, ← hp.place_at ht, hplace, eq_comm, hname]

theorem mem_roots_iff : .ofNat i ∈ l.roots ↔
    m.diagram = [] ∨ ∃ text ∈ m.diagram, m.DenotesIn l.registry text (.ofNat i) := by
  by_cases hnil : m.diagram = []
  · have hi := (List.getElem?_eq_some_iff.1 ht).1
    rw [hp.roots_of_nil hnil]
    exact iff_of_true (List.mem_map_of_mem (List.mem_range.2 hi)) (.inl hnil)
  · have hroots := hp.roots_of_ne_nil hnil
    simp only [hnil, false_or]
    constructor
    · intro hmem
      exact hroots.exists_of_mem_right hmem
    · rintro ⟨text, htext, hi⟩
      obtain ⟨h, hmem, hh⟩ := hroots.flip.exists_of_mem_right htext
      obtain ⟨u, hu⟩ := Option.isSome_iff_exists.1 (hp.wellFormed.diagram text htext)
      have hexpression : text ∈ m.expressions := List.mem_append_right _ htext
      rw [(hp.denotesIn_iff hexpression hu).1 hi, ← (hp.denotesIn_iff hexpression hu).1 hh]
      exact hmem

end Placed

end Model

end ClassDiagram
