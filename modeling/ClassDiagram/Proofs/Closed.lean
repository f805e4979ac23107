import ClassDiagram.Naming
import ClassDiagram.Proofs.Steps
/-!
# Closed registries

A registry is closed if no handle that it stores dangles and the arguments of a constructed type
lie below it. Registering, constructing and editing keep a registry closed as long as they are
given registered handles. In a closed registry every type has a name.
-/

namespace ClassDiagram

/-- The handles of other types that occur in the description. -/
def Description.references (d : Description) : List Handle :=
  d.base.toList ++ d.interfaces ++ d.properties.map Property.valueType ++ d.definition.toList ++
    d.arguments

theorem Description.mem_references_of_base {d : Description} {a : Handle} (h : d.base = some a) :
    a ∈ d.references := by
  simp [references, h]

theorem Description.mem_references_of_mem_interfaces {d : Description} {a : Handle}
    (h : a ∈ d.interfaces) : a ∈ d.references := by
  simp [references, h]

theorem Description.mem_references_of_mem_properties {d : Description} {p : Property}
    (h : p ∈ d.properties) : p.valueType ∈ d.references := by
  simp only [references, List.mem_append, List.mem_map]
  exact .inl (.inl (.inr ⟨p, h, rfl⟩))

theorem Description.mem_references_of_mem_arguments {d : Description} {a : Handle}
    (h : a ∈ d.arguments) : a ∈ d.references :=
  List.mem_append_right _ h

/-- The handles that the change brings in. -/
def Edit.references : Edit → List Handle
  | setBase base => [base]
  | addInterface interface => [interface]
  | markEnumerable => []
  | addProperty property => [property.valueType]
  | addMethod _ => []

theorem Edit.references_apply {d : Description} {e : Edit} {a : Handle}
    (ha : a ∈ (Edit.apply d e).references) : a ∈ d.references ∨ a ∈ e.references := by
  cases e <;>
    simp only [apply, Description.references, references, List.map_append, List.mem_append,
      List.map_cons, List.map_nil, List.mem_singleton, Option.toList_some] at ha ⊢ <;>
    tauto

theorem Edit.references_applyAll {edits : List Edit} {d : Description} {a : Handle}
    (ha : a ∈ (Edit.applyAll edits d).references) :
    a ∈ d.references ∨ ∃ e ∈ edits, a ∈ e.references := by
  induction edits generalizing d with
  | nil => exact .inl ha
  | cons e edits ih =>
    rcases ih ha with hd | ⟨e', he', ha'⟩
    · rcases references_apply hd with hd | he
      · exact .inl hd
      · exact .inr ⟨e, List.mem_cons_self, he⟩
    · exact .inr ⟨e', List.mem_cons_of_mem e he', ha'⟩

namespace Registry

variable {r r' : Registry} {h : Handle} {d t : Description} {c : Construction}

/-- The arguments of every type lie below it. -/
def Grounded (r : Registry) : Prop := ∀ h d, r.get? h = some d → ∀ a ∈ d.arguments, a.slot < h.slot

theorem mem_toList_of_get? (hd : r.get? h = some d) : (h, d) ∈ r.toList := by
  refine List.mem_map.2 ⟨(d, h.slot), ?_, by simp⟩
  rw [List.mem_zipIdx_iff_getElem?]
  simpa [get?] using hd

/-- Whether arguments lie below the types they are arguments of is seen slot by slot. -/
theorem grounded_of_toList (hr : ∀ p ∈ r.toList, ∀ a ∈ p.2.arguments, a.slot < p.1.slot) :
    r.Grounded :=
  fun h d hd a ha => hr (h, d) (mem_toList_of_get? hd) a ha

/-- No stored handle dangles, and arguments lie below the types they are arguments of. -/
structure Closed (r : Registry) : Prop where
  grounded : r.Grounded
  references : ∀ h d, r.get? h = some d → ∀ a ∈ d.references, r.IsRegistered a
  constructed : ∀ c h, r.constructed? c = some h → r.IsRegistered h

/-! ## Operations -/

theorem closed_empty : empty.Closed where
  grounded h d hd := by simp [get?, empty] at hd
  references h d hd := by simp [get?, empty] at hd
  constructed c h hc := by simp [constructed?, empty] at hc

/-- The new type comes last, so whatever is registered lies below it. -/
theorem Grounded.push (hr : r.Grounded) (hd : ∀ a ∈ d.arguments, r.IsRegistered a) :
    (r.push d).Grounded := by
  intro h d' hd' a ha
  rw [get?_push] at hd'
  split at hd'
  · rename_i hh
    obtain rfl := Option.some.inj hd'
    exact hh ▸ hd a ha
  · exact hr h d' hd' a ha

theorem Grounded.withInstance (hr : r.Grounded) (hargs : ∀ a ∈ c.arguments, r.IsRegistered a) :
    (r.withInstance t c).Grounded := hr.push hargs

theorem Grounded.replace {edits : List Edit} (hr : r.Grounded) (hd : r.get? h = some d) :
    (r.replace h (Edit.applyAll edits d)).Grounded := by
  intro k d' hd' a ha
  rw [get?_replace (isRegistered_of_get? hd)] at hd'
  split at hd'
  · rename_i hk
    obtain rfl := Option.some.inj hd'
    rw [Edit.fixed_applyAll.2.2.2] at ha
    exact hk ▸ hr h d hd a ha
  · exact hr k d' hd' a ha

theorem Closed.push (hr : r.Closed) (hd : ∀ a ∈ d.references, r.IsRegistered a) :
    (r.push d).Closed where
  grounded := hr.grounded.push fun a ha => hd a (Description.mem_references_of_mem_arguments ha)
  references h d' hd' a ha := by
    rw [get?_push] at hd'
    split at hd'
    · obtain rfl := Option.some.inj hd'
      exact (hd a ha).push
    · exact (hr.references h d' hd' a ha).push
  constructed c h hc := (hr.constructed c h hc).push

theorem Closed.references_instanceOf (hr : r.Closed) (hargs : ∀ a ∈ c.arguments, r.IsRegistered a)
    (ht : r.get? c.definition = some t) : ∀ a ∈ (instanceOf t c).references, r.IsRegistered a := by
  intro a ha
  simp only [Description.references, instanceOf, List.map_nil, List.append_nil, List.mem_append,
    Option.toList_some, List.mem_singleton] at ha
  rcases ha with ((ha | ha) | rfl) | ha
  · exact hr.references _ t ht a (Description.mem_references_of_base (Option.mem_toList.1 ha))
  · exact hr.references _ t ht a (Description.mem_references_of_mem_interfaces ha)
  · exact isRegistered_of_get? ht
  · exact hargs a ha

theorem Closed.withInstance (hr : r.Closed) (hargs : ∀ a ∈ c.arguments, r.IsRegistered a)
    (ht : r.get? c.definition = some t) : (r.withInstance t c).Closed := by
  have hpush := hr.push (hr.references_instanceOf hargs ht)
  refine ⟨hpush.grounded, hpush.references, fun c' h hc => ?_⟩
  rw [constructed?_withInstance] at hc
  split at hc
  · obtain rfl := Option.some.inj hc
    exact isRegistered_nextHandle
  · exact (hr.constructed c' h hc).push

theorem Closed.replace {edits : List Edit} (hr : r.Closed) (hd : r.get? h = some d)
    (hedits : ∀ e ∈ edits, ∀ a ∈ e.references, r.IsRegistered a) :
    (r.replace h (Edit.applyAll edits d)).Closed where
  grounded := hr.grounded.replace hd
  references k d' hd' a ha := by
    rw [get?_replace (isRegistered_of_get? hd)] at hd'
    unfold IsRegistered
    rw [size_replace]
    split at hd'
    · obtain rfl := Option.some.inj hd'
      rcases Edit.references_applyAll ha with ha | ⟨e, he, ha⟩
      · exact hr.references h d hd a ha
      · exact hedits e he a ha
    · exact hr.references k d' hd' a ha
  constructed c k hc := by
    unfold IsRegistered
    rw [size_replace]
    exact hr.constructed c k hc

/-! ## Names -/

variable {n : Naming} {depth : Nat}

/-- What lies below a registered type is registered. -/
theorem Grounded.isRegistered (hr : r.Grounded) (hd : r.get? h = some d) {a : Handle}
    (ha : a ∈ d.arguments) : r.IsRegistered a :=
  Nat.lt_trans (hr h d hd a ha) (isRegistered_of_get? hd)

/-- Arguments go down, so a name that is looked for deep enough is found. -/
theorem exists_nameWithin_eq_ok (hr : r.Grounded) (hh : r.IsRegistered h)
    (hdepth : h.slot < depth) : ∃ s, r.nameWithin n depth h = .ok s := by
  induction depth generalizing h with
  | zero => omega
  | succ depth ih =>
    obtain ⟨d, hd⟩ := isRegistered_iff.1 hh
    -- Each argument lies below, so one level less is deep enough for it.
    have hargs : ∀ a ∈ d.arguments, ∃ s, r.nameWithin n depth a = .ok s := by
      intro a ha
      have hbelow := hr h d hd a ha
      exact ih (hr.isRegistered hd ha) (by omega)
    obtain ⟨names, hnames⟩ := Except.exists_mapM_eq_ok hargs
    simp only [nameWithin, describe_eq_ok.2 hd, Except.ok_bind, hnames]
    cases d.isGeneric <;> exact ⟨_, rfl⟩

theorem Grounded.exists_displayName_eq_ok (hr : r.Grounded) (hh : r.IsRegistered h) :
    ∃ s, r.displayName n h = .ok s :=
  exists_nameWithin_eq_ok hr hh (Nat.lt_succ_of_lt hh)

theorem exists_displayName_eq_ok (hr : r.Closed) (hh : r.IsRegistered h) :
    ∃ s, r.displayName n h = .ok s :=
  hr.grounded.exists_displayName_eq_ok hh

/-- The bound on the depth is no bound on the name. -/
theorem nameWithin_add (hr : r.Grounded) (hdepth : h.slot < depth) (extra : Nat) :
    r.nameWithin n (depth + extra) h = r.nameWithin n depth h := by
  induction depth generalizing h with
  | zero => omega
  | succ depth ih =>
    rw [Nat.add_right_comm]
    simp only [nameWithin]
    cases hd : r.describe h with
    | error e => rfl
    | ok d =>
      have hargs : d.arguments.mapM (r.nameWithin n (depth + extra)) =
          d.arguments.mapM (r.nameWithin n depth) := by
        refine Except.mapM_congr fun a ha => ih ?_
        have hbelow := hr h d (describe_eq_ok.1 hd) a ha
        omega
      simp only [Except.ok_bind, hargs]

end Registry

end ClassDiagram
