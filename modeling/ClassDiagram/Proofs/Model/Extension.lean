import ClassDiagram.Proofs.Model.Early
import ClassDiagram.Proofs.TypeExpression.Capture
/-!
# One more declaration

A declaration that is added behind the others leaves what was loaded before as a part of what is
loaded then, and every drawing as it was, unless its name captures an expression. The captured
expressions are those in which the name has arguments: so far they came to a type declared with the
number of its parameters, and now the type without it goes first.
-/

namespace ClassDiagram.Model

open TypeExpression (term? appliesIn)

/-- The model with one more declaration behind the others. -/
def declaring (m : Model) (t : TypeDeclaration) : Model := { m with types := m.types ++ [t] }

variable {m : Model} {t : TypeDeclaration} {l l' : Loaded} {c e : TypeExpression} {n : String}

theorem names_declaring : (m.declaring t).names = m.names ++ [t.name] := by
  simp [names, declaring]

theorem declaration?_declaring (hn : n ∈ m.names) :
    (m.declaring t).declaration? n = m.declaration? n := by
  obtain ⟨u, hu, rfl⟩ := List.mem_map.1 hn
  have hsome : (m.types.find? (·.name = u.name)).isSome := by
    exact List.find?_isSome.2 ⟨u, hu, by simp⟩
  rw [declaration?, declaring, List.find?_append, Option.or_of_isSome hsome, declaration?]

/-! ## Models without captured expressions -/

section Alike

variable (hterms : ∀ text ∈ m.expressions, term? (m.declaring t).names text = term? m.names text)

include hterms

theorem term?_declaring {u : TypeDeclaration} (hu : u ∈ m.types) {text : String}
    (htext : text ∈ u.expressions) : term? (m.declaring t).names text = term? m.names text :=
  hterms text (List.mem_append_left _ (List.mem_flatMap.2 ⟨u, hu, htext⟩))

theorem mentions_declaring {text : String} (htext : text ∈ m.expressions) :
    TypeExpression.mentions (m.declaring t).names text = TypeExpression.mentions m.names text := by
  rw [TypeExpression.mentions, TypeExpression.mentions, hterms text htext]

theorem mentionedBy_declaring {types : List TypeDeclaration} (htypes : types ⊆ m.types) :
    (m.declaring t).mentionedBy types = m.mentionedBy types := by
  refine List.flatMap_congr fun u hu => List.flatMap_congr fun text htext => ?_
  refine mentions_declaring hterms (List.mem_append_left _ ?_)
  exact List.mem_flatMap.2 ⟨u, htypes hu, htext⟩

theorem mem_mentions_declaring (he : e ∈ m.mentions) : e ∈ (m.declaring t).mentions := by
  rw [mentions, mentionedBy, declaring, List.flatMap_append, ← declaring, ← mentionedBy]
  rcases List.mem_append.1 he with he | he
  · rw [mentionedBy_declaring hterms (List.Subset.refl _)]
    exact List.mem_append_left _ (List.mem_append_left _ he)
  · obtain ⟨text, htext, he⟩ := List.mem_flatMap.1 he
    refine List.mem_append_right _ (List.mem_flatMap.2 ⟨text, htext, ?_⟩)
    rwa [mentions_declaring hterms (List.mem_append_right _ htext)]

theorem carried_declaring : m.Carried (m.declaring t) where
  declaration? _ hn := declaration?_declaring hn
  terms _ hu _ htext := term?_declaring hterms hu htext
  layout e he := by
    rcases mem_layoutOf.1 he with ⟨n, hn, rfl⟩ | he
    · exact mem_layoutOf.2 (.inl ⟨n, names_declaring ▸ List.mem_append_left _ hn, rfl⟩)
    · exact mem_layoutOf.2 (.inr (mem_mentions_declaring hterms he))

/-- The added declaration stands behind all definitions, so nothing gets early by it. -/
theorem early_declaring (hn : c.name ∈ m.names) : m.early c = (m.declaring t).early c := by
  have hidx : (m.declaring t).names.idxOf c.name = m.names.idxOf c.name := by
    rw [names_declaring, List.idxOf_append_of_mem hn]
  have hlt : m.names.idxOf c.name < m.types.length := by
    simpa [names] using List.idxOf_lt_length_of_mem hn
  have htake : (m.declaring t).types.take (m.names.idxOf c.name + 1) =
      m.types.take (m.names.idxOf c.name + 1) :=
    List.take_append_of_le_length hlt
  rw [early, early, hidx, htake, mentionedBy_declaring hterms (List.take_subset _ _)]

theorem drawn_declaring (hne : m.diagram ≠ []) : (m.declaring t).drawn = m.drawn := by
  have hempty : ¬ m.diagram.isEmpty := by simpa using hne
  have hdiagram : (m.declaring t).diagram = m.diagram := rfl
  rw [drawn, drawn, hdiagram, if_neg hempty, if_neg hempty]
  exact List.filterMap_congr fun text htext => hterms text (List.mem_append_right _ htext)

theorem partOf_declaring (hne : m.diagram ≠ []) (hl : m.load.result = .ok l)
    (hl' : (m.declaring t).load.result = .ok l') (hsize : l'.registry.size ≤ UInt32.size) :
    l.PartOf l' := by
  have hcarried := carried_declaring hterms
  obtain ⟨hroom', hchart', -, hroots'⟩ := charted_of_load hl' (.inr hsize)
  have hfits : m.layout.length ≤ UInt32.size :=
    Nat.le_trans (nodup_layoutOf.subperm hcarried.layout).length_le hroom'.fits
  obtain ⟨hroom, hchart, hroots⟩ := charted_of_load hl (.inl hfits)
  rw [drawn_declaring hterms hne] at hroots'
  refine hcarried.partOf hroom hroom' hchart hchart' hroots hroots' fun c hc _ => ?_
  obtain ⟨n, a, as, rfl⟩ := exists_of_mem_mentions hc
  obtain ⟨hleaf, -⟩ := hchart.parts n (a :: as) (mem_layoutOf.2 (.inr hc))
  exact early_declaring hterms (mem_names_of_mem_layout hleaf)

end Alike

/-! ## The added declaration -/

/-- Among the expressions of a model, a declaration that is added changes what those come to in
which its name has arguments, and no others. If and only if there are none, what was loaded before
is a part of what is loaded with it, and then all drawings have the text that they had. -/
theorem added_declaration_shows_in_captures_only (hne : m.diagram ≠ [])
    (hl : m.load.result = .ok l) (hnew : t.name ∉ m.names)
    (hl' : (m.declaring t).load.result = .ok l') :
    (∀ text ∈ m.expressions, term? (m.declaring t).names text = term? m.names text ↔
      appliesIn t.name text = false) ∧
    (l'.registry.size ≤ UInt32.size →
      (l.PartOf l' ↔ ∀ text ∈ m.expressions, appliesIn t.name text = false) ∧
      (l.PartOf l' → ∀ naming detail style, ∃ text,
        m.drawnText naming detail style = .ok text ∧
          (m.declaring t).drawnText naming detail style = .ok text)) := by
  have hwf := exists_load_iff.1 ⟨l, hl⟩
  have hcaptures : ∀ text ∈ m.expressions, term? (m.declaring t).names text = term? m.names text ↔
      appliesIn t.name text = false := by
    intro text htext
    rw [names_declaring]
    exact TypeExpression.term?_concat hnew (hwf.isSome_term? htext)
  refine ⟨hcaptures, fun hsize => ⟨⟨fun hpart text htext => ?_, fun hnone => ?_⟩, ?_⟩⟩
  · rw [← hcaptures text htext]
    have hsub : m.types ⊆ (m.declaring t).types := List.subset_append_left _ _
    exact term?_eq_of_partOf hl hl' hsize hsub rfl hne hpart htext
  · exact partOf_declaring (fun text htext => (hcaptures text htext).2 (hnone text htext)) hne
      hl hl' hsize
  intro hpart naming detail style
  obtain ⟨hclosed, hregistered⟩ := closed_of_load hl
  obtain ⟨f, f', hf, hf', htext⟩ := hpart.text_eq hclosed hregistered naming detail style
  exact ⟨f.text, drawnText_of_load hl hf, htext ▸ drawnText_of_load hl' hf'⟩

/-- A generic class of which the declaration tells the number of parameters, and a class that uses
it. -/
def pound : Model where
  types := [
    { name := "List\x601", enumerable := true },
    { name := "Dog" },
    { name := "User", properties := [{ name := "Dogs", type := "List<Dog>" }] }]
  diagram := ["User", "Dog"]

/-- A declaration with uses of its own: of a class that nothing used so far, and again of what is
used already. -/
def cat : TypeDeclaration :=
  { name := "Cat", base := some "List<User>",
    properties := [{ name := "Enemies", type := "List<Dog>" }] }

theorem pound_loads : ∃ l, pound.load.result = .ok l ∧ l.registry.size = 4 :=
  Except.map_toOption_eq_some.1 (by decide +kernel)

theorem pound_cat_loads :
    ∃ l, (pound.declaring cat).load.result = .ok l ∧ l.registry.size = 6 :=
  Except.map_toOption_eq_some.1 (by decide +kernel)

theorem pound_list_loads :
    ∃ l, (pound.declaring { name := "List" }).load.result = .ok l ∧ l.registry.size = 5 :=
  Except.map_toOption_eq_some.1 (by decide +kernel)

/-- A cat captures nothing and changes nothing. -/
theorem cat_stays_hidden : ∃ l l', pound.load.result = .ok l ∧ cat.name ∉ pound.names ∧
    (pound.declaring cat).load.result = .ok l' ∧ l'.registry.size ≤ UInt32.size ∧ l.PartOf l' ∧
      ∀ detail, ∃ text, pound.drawnText .empty detail {} = .ok text ∧
        (pound.declaring cat).drawnText .empty detail {} = .ok text := by
  obtain ⟨l, hl, -⟩ := pound_loads
  obtain ⟨l', hl', hsize⟩ := pound_cat_loads
  have hnew : cat.name ∉ pound.names := by decide
  have hnone : ∀ text ∈ pound.expressions, appliesIn cat.name text = false := by decide +kernel
  have hfits : l'.registry.size ≤ UInt32.size := by
    rw [hsize]
    decide
  obtain ⟨-, hsame⟩ := added_declaration_shows_in_captures_only (by decide) hl hnew hl'
  obtain ⟨hpart_iff, htext⟩ := hsame hfits
  have hpart := hpart_iff.2 hnone
  exact ⟨l, l', hl, hnew, hl', hfits, hpart, fun detail => htext hpart .empty detail {}⟩

/-- A list without a number of parameters captures the use. It cannot be enumerated. -/
theorem list_shows_in_pound : ¬ ∀ (m : Model) (t : TypeDeclaration), m.diagram ≠ [] →
    (∃ l, m.load.result = .ok l) → t.name ∉ m.names →
    (∃ l', (m.declaring t).load.result = .ok l') → ∀ detail,
      (m.declaring t).drawnText .empty detail {} = m.drawnText .empty detail {} := by
  intro hall
  have hbefore : (pound.drawnText .empty .none {}).toOption = some "[User]1-0..*[Dog],[Dog]" := by
    decide +kernel
  have hafter : ((pound.declaring { name := "List" }).drawnText .empty .none {}).toOption =
      some "[User],[Dog]" := by
    decide +kernel
  obtain ⟨l, hl, -⟩ := pound_loads
  obtain ⟨l', hl', -⟩ := pound_list_loads
  have hdraw := hall pound { name := "List" } (by decide) ⟨l, hl⟩ (by decide) ⟨l', hl'⟩ .none
  have htext := congrArg Except.toOption hdraw
  rw [hbefore, hafter] at htext
  exact absurd htext (by decide)

end ClassDiagram.Model
