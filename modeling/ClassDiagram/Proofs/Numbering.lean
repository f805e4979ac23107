import ClassDiagram.Proofs.Failing
import ClassDiagram.Proofs.Renaming
import Mathlib.Logic.Equiv.Basic
/-!
# Slot numbers

The number of a slot means nothing to a drawing. If the types of a registry trade places, and every
stored handle follows, then the same is drawn: the text stays, and edges and failures tell the
handles that the types have now. Bases, interfaces and properties may lead in circles or nowhere.
-/

namespace ClassDiagram

namespace Registry

variable {r : Registry} {p : Equiv.Perm Handle} {h : Handle}

/-- The registry with its types at other places: the type of `h` goes to the slot of `p h`, and
every stored handle follows. -/
def renumber (r : Registry) (p : Equiv.Perm Handle) : Registry where
  slots := r.slots.mapIdx fun i d => ((r.get? (p.symm (.ofNat i))).getD d).rename p
  constructed := r.constructed.map fun (c, h) => (⟨p c.definition, c.arguments.map p⟩, p h)

@[simp] theorem size_renumber : (r.renumber p).size = r.size := by simp [renumber, size]

/-- Handles of registered types trade places among themselves. -/
theorem isRegistered_perm_iff (hp : ∀ h, ¬ r.IsRegistered h → p h = h) :
    r.IsRegistered (p h) ↔ r.IsRegistered h := by
  constructor
  · intro hreg
    by_contra hh
    exact hh (hp h hh ▸ hreg)
  · intro hh
    by_contra hreg
    -- Otherwise `p` would take two handles to one.
    have hfixed : p (p h) = p h := hp (p h) hreg
    exact hreg ((p.injective hfixed).symm ▸ hh)

theorem get?_renumber (hp : ∀ h, ¬ r.IsRegistered h → p h = h) :
    (r.renumber p).get? (p h) = (r.get? h).map (Description.rename p) := by
  have hmoved : (r.renumber p).get? (p h) =
      r.slots[(p h).slot]?.map fun d => ((r.get? h).getD d).rename p := by
    simp [get?, renumber]
  rw [hmoved]
  cases hd : r.get? h with
  | none =>
    -- An unregistered handle stays where it is, and so does the lack of a type.
    rw [hp h (get?_eq_none.1 hd)]
    simpa [get?] using hd
  | some d =>
    obtain ⟨t, ht⟩ := isRegistered_iff.1 ((isRegistered_perm_iff hp).2 (isRegistered_of_get? hd))
    rw [get?] at ht
    simp [ht]

/-- Moving types about is a renaming of the whole registry. -/
theorem renaming_renumber (hp : ∀ h, ¬ r.IsRegistered h → p h = h) :
    r.Renaming p (fun _ => True) (r.renumber p) where
  injective _ _ _ _ heq := p.injective heq
  get? _ _ := get?_renumber hp
  references _ _ _ _ _ _ := trivial
  size := Nat.le_of_eq size_renumber.symm
  names n h _ := by rw [size_renumber, displayName]

end Registry

namespace Drawing

/-- A drawing knows types by their handles only, and the numbers of handles do not matter. If the
registered types trade places, then the drawing of the same types succeeds as before with the same
text and with the same edges between the new handles, or fails as before at a handle that points at
no registered type. -/
theorem handles_are_opaque {d : Drawing} (hd : d.registry.Acyclic) {p : Equiv.Perm Handle}
    (hp : ∀ h, ¬ d.registry.IsRegistered h → p h = h) (style : Style) :
    (∀ f, (d.fragment style).result = .ok f →
      ∃ f', ((d.renamed p (d.registry.renumber p)).fragment style).result = .ok f' ∧
        f'.text = f.text ∧ f'.edges = f.edges.map (Edge.rename p)) ∧
    ∀ e, (d.fragment style).result = .error e →
      ∃ h, e = .unknownType h ∧
        ((d.renamed p (d.registry.renumber p)).fragment style).result =
          .error (.unknownType (p h)) := by
  have hagree := fragment_renamed (Registry.renaming_renumber hp) (fun _ _ => trivial) style
  constructor
  · intro f hf
    rw [hf] at hagree
    obtain ⟨f', hf', rfl⟩ := hagree.exists_of_ok
    exact ⟨_, hf', Fragment.text_rename p f, Fragment.edges_rename p f⟩
  · intro e he
    obtain ⟨h, rfl⟩ := fragment_failsOnly hd e he
    rw [he] at hagree
    obtain ⟨e', he', rfl⟩ := hagree.exists_of_error
    exact ⟨h, rfl, he'⟩

/-- Two classes that are each other's base, a list of one of them, and a stray that has a property
of no registered type. -/
def den : Registry where
  slots := #[
    { name := "Fox", kind := .reference, base := some (.ofNat 1),
      properties := [{ name := "Cubs", valueType := .ofNat 3 }] },
    { name := "Dog", kind := .reference, base := some (.ofNat 0) },
    { name := "List\x601", kind := .reference, enumerable := true },
    { name := "List\x601", kind := .reference, definition := some (.ofNat 2),
      arguments := [.ofNat 0], enumerable := true },
    { name := "Stray", kind := .reference,
      properties := [{ name := "Owner", valueType := .ofNat 9 }] }]
  constructed := [(⟨.ofNat 2, [.ofNat 0]⟩, .ofNat 3)]

/-- The fox and its list of cubs trade places, so that the list comes before its argument. -/
def swapped : Equiv.Perm Handle := Equiv.swap (.ofNat 0) (.ofNat 3)

/-- The pack is drawn alike at both places, and the stray is refused at both. -/
theorem den_is_opaque :
    den.Acyclic ∧ (∀ h, ¬ den.IsRegistered h → swapped h = h) ∧
      (∃ f, ((renamed ⟨den, .empty, [.ofNat 0, .ofNat 1], .none⟩ swapped
          (den.renumber swapped)).fragment {}).result = .ok f ∧
        f.text = "[Fox]^-[Dog],[Fox]1-0..*[Fox],[Dog]^-[Fox]" ∧
        f.edges = [⟨.ofNat 3, .ofNat 1, .inherits⟩, ⟨.ofNat 3, .ofNat 3, .aggregates⟩,
          ⟨.ofNat 1, .ofNat 3, .inherits⟩]) ∧
      ((renamed ⟨den, .empty, [.ofNat 0, .ofNat 4], .none⟩ swapped
          (den.renumber swapped)).fragment {}).result = .error (.unknownType (.ofNat 9)) := by
  have hacyclic : den.Acyclic := (Registry.grounded_of_toList (by decide)).acyclic
  have hfixed : ∀ h, ¬ den.IsRegistered h → swapped h = h := by
    intro h hh
    refine Equiv.swap_apply_of_ne_of_ne ?_ ?_ <;>
      · rintro rfl
        exact hh (by decide)
  obtain ⟨hdrawn, -⟩ := handles_are_opaque
    (d := ⟨den, .empty, [.ofNat 0, .ofNat 1], .none⟩) hacyclic hfixed {}
  obtain ⟨-, hrefused⟩ := handles_are_opaque
    (d := ⟨den, .empty, [.ofNat 0, .ofNat 4], .none⟩) hacyclic hfixed {}
  obtain ⟨f', hf', htext, hedges⟩ := hdrawn _ rfl
  obtain ⟨h, hh, hf⟩ := hrefused (.unknownType (.ofNat 9)) rfl
  obtain rfl := Failure.unknownType.inj hh
  refine ⟨hacyclic, hfixed, ⟨f', hf', htext.trans (by rfl), hedges.trans (by rfl)⟩, hf⟩

end Drawing

end ClassDiagram
