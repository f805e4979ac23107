import ClassDiagram.Proofs.Model.Stages
import Mathlib.Data.List.Basic
import Mathlib.Data.List.Induction
/-!
# Layouts

Where the types of a model go and what is said of them there. Declared types come first, and the
constructed ones follow in the order of their first mention, so the slots of a model can be told
from its text. A constructed type is described like the definition that it was constructed from,
except that it has no base and no interfaces if it was mentioned too early: before the definition
was given its own.
-/

/-! ## Lists without their repetitions -/

namespace List

variable {α β : Type} [DecidableEq α] [DecidableEq β]

theorem eraseDups_concat (l : List α) (a : α) :
    (l ++ [a]).eraseDups = if a ∈ l then l.eraseDups else l.eraseDups ++ [a] := by
  rw [eraseDups_append]
  by_cases ha : a ∈ l <;> simp [removeAll, eraseDups_cons, ha]

theorem nodup_eraseDups (l : List α) : l.eraseDups.Nodup := by
  induction l using List.reverseRecOn with
  | nil => exact nodup_nil
  | append_singleton l b ih =>
    rw [eraseDups_concat]
    by_cases hb : b ∈ l
    · rwa [if_pos hb]
    · rw [if_neg hb]
      exact ih.append (nodup_singleton b) (by simpa [mem_eraseDups] using hb)

theorem Nodup.eraseDups_eq {l : List α} (h : l.Nodup) : l.eraseDups = l := by
  induction l using List.reverseRecOn with
  | nil => rfl
  | append_singleton l b ih =>
    obtain ⟨hl, -, hb⟩ := nodup_append.1 h
    have hnot : b ∉ l := fun hmem => hb b hmem b mem_cons_self rfl
    rw [eraseDups_concat, if_neg hnot, ih hl]

theorem IsPrefix.eraseDups {l m : List α} (h : l <+: m) : l.eraseDups <+: m.eraseDups := by
  obtain ⟨rest, rfl⟩ := h
  rw [eraseDups_append]
  exact prefix_append ..

theorem idxOf_map_of_injective {f : α → β} (hf : Function.Injective f) (l : List α) (a : α) :
    (l.map f).idxOf (f a) = l.idxOf a := by
  induction l with
  | nil => rfl
  | cons b l ih =>
    by_cases hb : b = a
    · simp [hb]
    · rw [map_cons, idxOf_cons_ne _ hb, idxOf_cons_ne _ (hf.ne hb), ih]

omit [DecidableEq α] in
theorem getElem?_idxOf_map (l : List α) (f : α → β) (b : β) :
    l[(l.map f).idxOf b]? = l.find? (f · = b) := by
  induction l with
  | nil => rfl
  | cons a l ih =>
    by_cases ha : f a = b
    · simp [ha]
    · simp [ha, idxOf_cons_ne, ih]

end List

namespace ClassDiagram

open TypeExpression (term?)

/-- The places of what texts spell. -/
def placesOf (names : List String) (place : TypeExpression → Handle) (texts : List String) :
    List Handle :=
  (texts.filterMap (term? names)).map place

/-- The changes that define a type, everything that its expressions spell being in its place. -/
def TypeDeclaration.editsAt (names : List String) (place : TypeExpression → Handle)
    (t : TypeDeclaration) : List Edit :=
  (placesOf names place t.base.toList).map .setBase ++
    (placesOf names place t.interfaces).map .addInterface ++
    (List.zipWith PropertyDeclaration.typed t.properties
      (placesOf names place (t.properties.map PropertyDeclaration.type))).map .addProperty ++
    (t.methods.filterMap fun m => (m.method t.name).toOption).map .addMethod

/-- The description of a type with all its changes made. -/
def TypeDeclaration.defined (names : List String) (place : TypeExpression → Handle)
    (t : TypeDeclaration) : Description :=
  { t.bare with
    base := (t.base.bind (term? names)).map place
    interfaces := placesOf names place t.interfaces
    properties := List.zipWith PropertyDeclaration.typed t.properties
      (placesOf names place (t.properties.map PropertyDeclaration.type))
    methods := t.methods.filterMap fun m => (m.method t.name).toOption }

namespace Model

variable (m : Model)

/-- The types of the model after the constructed types `ms` were mentioned, by slot. -/
def layoutOf (ms : List TypeExpression) : List TypeExpression :=
  (m.names.map (TypeExpression.node · []) ++ ms).eraseDups

/-- The types of the model, by slot. -/
def layout : List TypeExpression := m.layoutOf m.mentions

/-- The place of a type. -/
def place (t : TypeExpression) : Handle := .ofNat (m.layout.idxOf t)

/-- The declaration of a name. -/
def declaration? (n : String) : Option TypeDeclaration := m.types.find? (·.name = n)

/-- The constructed type is mentioned in the declaration of its definition or before it. -/
def early (t : TypeExpression) : Bool :=
  t ∈ m.mentionedBy (m.types.take (m.names.idxOf t.name + 1))

/-- A declared type is described with all its changes made or with none of them. -/
def describeDeclared (t : TypeDeclaration) (changed : Bool) : Description :=
  if changed then t.defined m.names m.place else t.bare

/-- The description of a type when the declarations `done` were defined. -/
def describe? (done : List TypeDeclaration) : TypeExpression → Option Description
  | .node n [] => (m.declaration? n).map fun t => m.describeDeclared t (t ∈ done)
  | .node n (a :: as) => (m.declaration? n).map fun t =>
    Registry.instanceOf (m.describeDeclared t (!m.early (.node n (a :: as))))
      ⟨m.place (.node n []), (a :: as).map m.place⟩

end Model

/-! ## Changes -/

namespace Edit

variable {d : Description}

theorem applyAll_append (es fs : List Edit) :
    applyAll (es ++ fs) d = applyAll fs (applyAll es d) :=
  List.foldl_append

theorem applyAll_setBase (base : Option Handle) :
    applyAll (base.toList.map .setBase) d = { d with base := base.or d.base } := by
  cases base <;> rfl

/-- Changes of one sort add up: `add` says what a list of them comes to. -/
theorem applyAll_map {α : Type} (change : α → Edit) (add : Description → List α → Description)
    (hnil : ∀ d, add d [] = d) (hcons : ∀ d a l, add (apply d (change a)) l = add d (a :: l))
    (l : List α) : applyAll (l.map change) d = add d l := by
  induction l generalizing d with
  | nil => exact (hnil d).symm
  | cons a l ih => rw [List.map_cons, applyAll, List.foldl_cons, ← applyAll, ih, hcons]

theorem applyAll_addInterface (l : List Handle) :
    applyAll (l.map .addInterface) d = { d with interfaces := d.interfaces ++ l } :=
  applyAll_map .addInterface (fun d l => { d with interfaces := d.interfaces ++ l }) (by simp)
    (by simp [apply]) l

theorem applyAll_addProperty (l : List Property) :
    applyAll (l.map .addProperty) d = { d with properties := d.properties ++ l } :=
  applyAll_map .addProperty (fun d l => { d with properties := d.properties ++ l }) (by simp)
    (by simp [apply]) l

theorem applyAll_addMethod (l : List Method) :
    applyAll (l.map .addMethod) d = { d with methods := d.methods ++ l } :=
  applyAll_map .addMethod (fun d l => { d with methods := d.methods ++ l }) (by simp)
    (by simp [apply]) l

end Edit

theorem placesOf_toList (names : List String) (place : TypeExpression → Handle)
    (text : Option String) :
    placesOf names place text.toList = ((text.bind (term? names)).map place).toList := by
  cases text with
  | none => rfl
  | some text => cases hterm : term? names text <;> simp [placesOf, hterm]

theorem TypeDeclaration.applyAll_editsAt (names : List String) (place : TypeExpression → Handle)
    (t : TypeDeclaration) :
    Edit.applyAll (t.editsAt names place) t.bare = t.defined names place := by
  rw [editsAt, placesOf_toList]
  simp only [Edit.applyAll_append, Edit.applyAll_setBase, Edit.applyAll_addInterface,
    Edit.applyAll_addProperty, Edit.applyAll_addMethod]
  simp [defined, bare]

namespace Model

variable {m : Model}

/-! ## Layouts -/

variable {ms ms' : List TypeExpression} {t u : TypeExpression} {n : String}

theorem mem_layoutOf : t ∈ m.layoutOf ms ↔ (∃ n ∈ m.names, t = .node n []) ∨ t ∈ ms := by
  simp [layoutOf, List.mem_eraseDups, eq_comm]

theorem nodup_layoutOf : (m.layoutOf ms).Nodup := List.nodup_eraseDups _

theorem layoutOf_concat : m.layoutOf (ms ++ [t]) =
    if t ∈ m.layoutOf ms then m.layoutOf ms else m.layoutOf ms ++ [t] := by
  rw [layoutOf, ← List.append_assoc, List.eraseDups_concat]
  simp only [layoutOf, List.mem_eraseDups]

theorem isPrefix_layoutOf (h : ms <+: ms') : m.layoutOf ms <+: m.layoutOf ms' :=
  ((List.prefix_append_right_inj _).2 h).eraseDups

theorem layoutOf_nil (hn : m.names.Nodup) :
    m.layoutOf [] = m.names.map (TypeExpression.node · []) := by
  rw [layoutOf, List.append_nil]
  exact (hn.map fun a b h => (TypeExpression.node.inj h).1).eraseDups_eq

/-! ## Places -/

/-- A part of the layout of which every slot has a handle of its own. -/
structure HasRoom (m : Model) (ms : List TypeExpression) : Prop where
  isPrefix : ms <+: m.mentions
  fits : (m.layoutOf ms).length ≤ UInt32.size

theorem HasRoom.slot_place (h : m.HasRoom ms) (ht : t ∈ m.layoutOf ms) :
    (m.place t).slot = (m.layoutOf ms).idxOf t := by
  -- A type keeps its position when more types are mentioned, and the position fits a handle.
  have hidx := (isPrefix_layoutOf h.isPrefix).idxOf_eq_of_mem ht
  have hlt := List.idxOf_lt_length_of_mem ht
  rw [place, layout, ← hidx]
  exact Handle.slot_ofNat_of_lt (Nat.lt_of_lt_of_le hlt h.fits)

theorem HasRoom.place_inj (h : m.HasRoom ms) (ht : t ∈ m.layoutOf ms) (hu : u ∈ m.layoutOf ms)
    (hp : m.place t = m.place u) : t = u := by
  have hslot := congrArg Handle.slot hp
  rw [h.slot_place ht, h.slot_place hu] at hslot
  exact (List.idxOf_inj ht).1 hslot

theorem HasRoom.map_place_inj (h : m.HasRoom ms) {ts us : List TypeExpression}
    (ht : ∀ t ∈ ts, t ∈ m.layoutOf ms) (hu : ∀ u ∈ us, u ∈ m.layoutOf ms)
    (hp : ts.map m.place = us.map m.place) : ts = us := by
  induction ts generalizing us with
  | nil => simpa using hp.symm
  | cons t ts ih =>
    cases us with
    | nil => simp at hp
    | cons u us =>
      rw [List.forall_mem_cons] at ht hu
      simp only [List.map_cons, List.cons.injEq] at hp
      rw [h.place_inj ht.1 hu.1 hp.1, ih ht.2 hu.2 hp.2]

theorem place_declared (hn : m.names.Nodup) (hmem : n ∈ m.names) :
    m.place (.node n []) = .ofNat (m.names.idxOf n) := by
  have hleaf : TypeExpression.node n [] ∈ m.layoutOf [] := mem_layoutOf.2 (.inl ⟨n, hmem, rfl⟩)
  rw [place, layout, ← (isPrefix_layoutOf List.nil_prefix).idxOf_eq_of_mem hleaf, layoutOf_nil hn,
    List.idxOf_map_of_injective fun a b h => (TypeExpression.node.inj h).1]

/-! ## Declarations -/

theorem getElem?_idxOf_names (n : String) : m.types[m.names.idxOf n]? = m.declaration? n :=
  List.getElem?_idxOf_map m.types TypeDeclaration.name n

theorem name_of_declaration? {t : TypeDeclaration} (ht : m.declaration? n = some t) :
    t.name = n := by
  simpa using List.find?_some ht

end Model

/-- The changes that define a type are those that its declaration tells. -/
theorem TypeDeclaration.DefinedBy.eq_editsAt {names : List String} {place : TypeExpression → Handle}
    {D : String → Handle → Prop} {t : TypeDeclaration} {edits : List Edit} (h : t.DefinedBy D edits)
    (hD : ∀ text a, D text a → ∃ e, term? names text = some e ∧ a = place e) :
    edits = t.editsAt names place := by
  -- Handles that stand for texts are the places of what these spell.
  have hplaces : ∀ {texts : List String} {hs : List Handle}, List.Forall₂ D texts hs →
      hs = placesOf names place texts := by
    intro texts hs hall
    induction hall with
    | nil => rfl
    | cons ha _ ih =>
      obtain ⟨e, he, rfl⟩ := hD _ _ ha
      rw [placesOf, List.filterMap_cons_some he, List.map_cons, ← placesOf, ← ih]
  obtain ⟨bases, interfaces, values, methods, hbases, hinterfaces, hvalues, hmethods, rfl⟩ := h
  have hmap : t.methods.filterMap (fun m => (m.method t.name).toOption) = methods := by
    exact Except.filterMap_toOption_of_mapM hmethods
  rw [editsAt, hplaces hbases, hplaces hinterfaces, hplaces hvalues, hmap]

end ClassDiagram
