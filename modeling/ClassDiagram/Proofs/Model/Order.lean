import ClassDiagram.Proofs.Model.Part
/-!
# The order of declarations

Two models that differ in the order of their declarations load alike, and what was loaded differs in
the numbers of the slots only, unless a constructed type is mentioned too early in one of the models
and not in the other. It is early if it is mentioned before its definition has a base and
interfaces, and it stays without them then.
-/

namespace ClassDiagram

open TypeExpression (term?)

/-- The second model is the first one with its declarations in another order. -/
structure Model.Reordered (m m' : Model) : Prop where
  types : m.types.Perm m'.types
  diagram : m'.diagram = m.diagram

/-- Two loaded models are the same but for the numbers of their slots. -/
def Loaded.SameUpToNumbers (l l' : Loaded) : Prop :=
  ∃ ρ : Handle → Handle,
    (∀ a b, l.registry.IsRegistered a → l.registry.IsRegistered b → ρ a = ρ b → a = b) ∧
    l'.registry.size = l.registry.size ∧
    (∀ h, l.registry.IsRegistered h →
      l'.registry.get? (ρ h) = (l.registry.get? h).map (Description.rename ρ)) ∧
    l'.roots = l.roots.map ρ

theorem Loaded.SameUpToNumbers.partOf {l l' : Loaded} (h : l.SameUpToNumbers l') : l.PartOf l' := by
  obtain ⟨ρ, hinjective, hsize, hget, hroots⟩ := h
  exact ⟨ρ, hinjective, Nat.le_of_eq hsize.symm, hget, hroots⟩

namespace Model

variable {m m' : Model} {l l' : Loaded} {c e : TypeExpression} {n : String}

/-! ## What does not depend on the order -/

namespace Reordered

variable (h : m.Reordered m')

include h

theorem symm : m'.Reordered m := ⟨h.types.symm, h.diagram.symm⟩

theorem mem_names : n ∈ m.names ↔ n ∈ m'.names := (h.types.map _).mem_iff

theorem term? : TypeExpression.term? m'.names = TypeExpression.term? m.names :=
  TypeExpression.term?_congr fun _ => h.mem_names.symm

theorem mentionedBy (types : List TypeDeclaration) :
    m'.mentionedBy types = m.mentionedBy types := by
  unfold Model.mentionedBy TypeDeclaration.mentions
  rw [TypeExpression.mentions_congr fun _ => h.mem_names.symm]

theorem mem_mentionedBy : e ∈ m'.mentionedBy m'.types ↔ e ∈ m.mentionedBy m.types := by
  rw [h.mentionedBy]
  simp only [Model.mentionedBy, List.mem_flatMap, h.types.mem_iff]

theorem mem_mentions : e ∈ m'.mentions ↔ e ∈ m.mentions := by
  rw [mentions, mentions, List.mem_append, List.mem_append, h.mem_mentionedBy, h.diagram,
    TypeExpression.mentions_congr fun _ => h.mem_names.symm]

theorem mem_layout : e ∈ m'.layout ↔ e ∈ m.layout := by
  simp only [layout, mem_layoutOf, h.mem_mentions, h.mem_names]

theorem length_layout : m'.layout.length = m.layout.length :=
  ((List.perm_ext_iff_of_nodup nodup_layoutOf nodup_layoutOf).2 fun _ => h.mem_layout).length_eq

theorem declaration? (hn : m.names.Nodup) : m'.declaration? n = m.declaration? n := by
  have hn' : m'.names.Nodup := (h.types.map _).nodup_iff.1 hn
  refine Option.ext fun t => ?_
  rw [declaration?_eq_some hn', declaration?_eq_some hn, h.types.mem_iff]

theorem carried (hn : m.names.Nodup) : m.Carried m' where
  declaration? _ _ := h.declaration? hn
  terms _ _ _ _ := by rw [h.term?]
  layout _ := h.mem_layout.2

theorem drawn (hne : m.diagram ≠ []) : m'.drawn = m.drawn := by
  have hempty : ¬ m.diagram.isEmpty := by simpa using hne
  simp only [Model.drawn, h.diagram, if_neg hempty, h.term?]

theorem hasHeritage (hn : m.names.Nodup) : m'.HasHeritage c ↔ m.HasHeritage c := by
  simp only [HasHeritage, h.declaration? hn]

end Reordered

theorem mem_mentionedBy_of_early (hc : m.early c) : c ∈ m.mentionedBy m.types := by
  have hmem : c ∈ m.mentionedBy (m.types.take (m.names.idxOf c.name + 1)) := of_decide_eq_true hc
  exact (isPrefix_mentionedBy (List.take_prefix ..)).subset hmem

/-! ## What a description tells -/

/-- Where there is a base or an interface, the description shows whether the changes were made. -/
theorem describeDeclared_bare_iff {t : TypeDeclaration} (hwf : t.WellFormed m.names)
    (hheritage : t.base ≠ none ∨ t.interfaces ≠ []) (changed : Bool) :
    (m.describeDeclared t changed).base = none ∧ (m.describeDeclared t changed).interfaces = [] ↔
      changed = false := by
  cases changed with
  | false => simp [describeDeclared, TypeDeclaration.bare]
  | true =>
    simp only [describeDeclared, if_true, TypeDeclaration.defined, reduceCtorEq, iff_false, not_and]
    intro hbase hinterfaces
    rcases hheritage with hsome | hne
    · obtain ⟨text, htext⟩ := Option.ne_none_iff_exists'.1 hsome
      have hterm := hwf.expressions text (by simp [TypeDeclaration.expressions, htext])
      obtain ⟨e, he⟩ := Option.isSome_iff_exists.1 hterm
      simp [htext, he] at hbase
    · obtain ⟨text, texts, htexts⟩ := List.exists_cons_of_ne_nil hne
      have hterm := hwf.expressions text (by simp [TypeDeclaration.expressions, htexts])
      obtain ⟨e, he⟩ := Option.isSome_iff_exists.1 hterm
      simp [placesOf, htexts, he] at hinterfaces

/-! ## Loading in two orders -/

/-- A model and its reordering, both loaded into registries with a handle for every slot. -/
structure LoadedBoth (m m' : Model) (l l' : Loaded) : Prop where
  reordered : m.Reordered m'
  names : m.names.Nodup
  room : m.HasRoom m.mentions
  room' : m'.HasRoom m'.mentions
  chart : m.Charted m.types m.mentions l.registry
  chart' : m'.Charted m'.types m'.mentions l'.registry
  closed : l.registry.Closed ∧ ∀ h ∈ l.roots, l.registry.IsRegistered h
  roots : (∀ e ∈ m.drawn, e ∈ m.layout) ∧ l.roots = m.drawn.map m.place
  roots' : l'.roots = m.drawn.map m'.place

theorem LoadedBoth.of_load (h : m.Reordered m') (hne : m.diagram ≠ [])
    (hl : m.load.result = .ok l) (hl' : m'.load.result = .ok l')
    (hsize : l.registry.size ≤ UInt32.size) : LoadedBoth m m' l l' := by
  obtain ⟨hroom, hchart, hdrawn, hroots⟩ := charted_of_load hl (.inr hsize)
  have hlayout : m'.layout.length ≤ UInt32.size := by
    rw [h.length_layout, layout, ← hchart.size]
    exact hsize
  obtain ⟨hroom', hchart', -, hroots'⟩ := charted_of_load hl' (.inl hlayout)
  rw [h.drawn hne] at hroots'
  exact ⟨h, (exists_load_iff.1 ⟨l, hl⟩).names, hroom, hroom', hchart, hchart', closed_of_load hl,
    ⟨hdrawn, hroots⟩, hroots'⟩

namespace LoadedBoth

variable (B : LoadedBoth m m' l l')

include B

/-- If the same types are early where it matters, then only the numbers of the slots differ. -/
theorem sameUpToNumbers
    (hearly : ∀ c ∈ m.mentions, m.HasHeritage c → m.early c = m'.early c) :
    l.SameUpToNumbers l' := by
  obtain ⟨ρ, hinjective, -, hget, hroots⟩ :=
    (B.reordered.carried B.names).partOf B.room B.room' B.chart B.chart' B.roots B.roots' hearly
  refine ⟨ρ, hinjective, ?_, hget, hroots⟩
  rw [B.chart.size, B.chart'.size]
  exact B.reordered.length_layout

theorem rename_place {ρ : Handle → Handle}
    (hget : ∀ h, l.registry.IsRegistered h →
      l'.registry.get? (ρ h) = (l.registry.get? h).map (Description.rename ρ))
    (he : e ∈ m.layout) : ρ (m.place e) = m'.place e :=
  (Relocated.place ⟨B.room, B.room', B.chart, B.chart', B.closed.1, hget⟩ he).2

/-- Conversely, if only the numbers of the slots differ, then the same types are early where it
matters. -/
theorem early_eq (hsame : l.SameUpToNumbers l') (hwf : m.WellFormed) (hwf' : m'.WellFormed)
    (hc : c ∈ m.mentions) (hheritage : m.HasHeritage c) : m.early c = m'.early c := by
  obtain ⟨ρ, -, -, hget, -⟩ := hsame
  obtain ⟨t, ht, hheritage⟩ := hheritage
  obtain ⟨n, a, as, rfl⟩ := exists_of_mem_mentions hc
  have hlayout : .node n (a :: as) ∈ m.layout := mem_layoutOf.2 (.inr hc)
  have hmem := ((declaration?_eq_some B.names).1 ht).1
  -- The type has its place in both registries, and its descriptions there are known.
  have himage := hget _ (isRegistered_place B.room B.chart hlayout)
  rw [B.rename_place hget hlayout, B.chart.slots _ hlayout,
    B.chart'.slots _ (B.reordered.mem_layout.2 hlayout)] at himage
  simp only [describe?, TypeExpression.name] at ht himage
  rw [B.reordered.declaration? B.names, ht] at himage
  simp only [Option.map_some, Option.some.injEq] at himage
  have hbases := congrArg Description.base himage
  have hinterfaces := congrArg Description.interfaces himage
  simp only [Registry.instanceOf, Description.rename] at hbases hinterfaces
  have hbare := describeDeclared_bare_iff (hwf.types t hmem) hheritage
    (!m.early (.node n (a :: as)))
  have hbare' := describeDeclared_bare_iff (hwf'.types t (B.reordered.types.mem_iff.1 hmem))
    hheritage (!m'.early (.node n (a :: as)))
  rw [hbases, hinterfaces, Option.map_eq_none_iff, List.map_eq_nil_iff, hbare] at hbare'
  simpa using hbare'

/-- Then all drawings have the same text. -/
theorem text_eq (hsame : l.SameUpToNumbers l') (naming : Naming) (detail : Detail) (style : Style) :
    ∃ f f', ((l.drawing naming detail).fragment style).result = .ok f ∧
      ((l'.drawing naming detail).fragment style).result = .ok f' ∧ f'.text = f.text :=
  hsame.partOf.text_eq B.closed.1 B.closed.2 naming detail style

end LoadedBoth

end Model

end ClassDiagram
