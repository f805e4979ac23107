import ClassDiagram.Proofs.Skeleton
/-!
# The order of the request

The place at which a class is requested for the first time carries its inheritance edges, and that
place changes with the order of the request. What is drawn altogether does not: over all places at
which the class is requested, one is the first, and the others are alike.
-/

namespace ClassDiagram

namespace Drawing

variable {d : Drawing} {met met' l l' : List Handle}

/-! ## Parts in another order -/

/-- Of the types met, only matters which they are. -/
theorem partsAfter_congr (hmet : ∀ a, a ∈ met ↔ a ∈ met') :
    d.partsAfter met l = d.partsAfter met' l := by
  induction l generalizing met met' with
  | nil => rfl
  | cons h l ih =>
    have hnext : ∀ a, a ∈ met ++ [h] ↔ a ∈ met' ++ [h] := fun a => by simp [hmet]
    simp only [partsAfter, hmet, ih hnext]

/-- The parts of requested types in another order are the same parts in another order. -/
theorem partsAfter_perm (hl : l.Perm l') : (d.partsAfter met l).Perm (d.partsAfter met l') := by
  induction hl generalizing met with
  | nil => exact .refl _
  | cons h _ ih => exact ih.append_left _
  | swap a b l =>
    by_cases hab : a = b
    · rw [hab]
    · -- Neither of the two comes first because of the other.
      have ha : a ∉ met ++ [b] ↔ a ∉ met := by simp [hab]
      have hb : b ∉ met ++ [a] ↔ b ∉ met := by simp [Ne.symm hab]
      have hrest : d.partsAfter (met ++ [b] ++ [a]) l = d.partsAfter (met ++ [a] ++ [b]) l :=
        partsAfter_congr fun c => by simp [or_comm]
      simp only [partsAfter, ha, hb, hrest]
      exact List.perm_append_comm_assoc _ _ _
  | trans _ _ ih ih' => exact ih.trans ih'

/-- The same drawing with the requested types in another order. -/
def reordered (d : Drawing) (l : List Handle) : Drawing := { d with requested := l }

section

variable (hl : d.requested.Perm l)

include hl

theorem parts_perm : d.parts.Perm (d.reordered l).parts := by
  have hskeleton : d.registry.skeleton = (d.reordered l).registry.skeleton := rfl
  have hparts : d.partsAfter [] l = (d.reordered l).partsAfter [] l :=
    partsAfter_of_skeleton (fun _ => hl.mem_iff) hskeleton [] l
  rw [parts_eq, parts_eq]
  exact hparts ▸ partsAfter_perm hl

/-! ## Blocks -/

theorem block_reordered (h : Handle) : (d.reordered l).block h = d.block h := by
  have hcontains : ∀ a, l.contains a = d.requested.contains a := by
    intro a
    rw [List.contains_eq_mem, List.contains_eq_mem]
    simp [hl.mem_iff]
  simp only [block, interfaceMarks, reordered, hcontains]

theorem segment_reordered : Part.segment (d.reordered l) = Part.segment d := by
  funext p
  cases p <;> simp only [Part.segment, block_reordered hl]

theorem known_reordered (h : Handle) : (d.reordered l).Known h ↔ d.Known h := by
  simp only [Known, reordered, hl.mem_iff]

/-! ## Fragments -/

/-- A drawing that succeeds does so in any order, with the same segments in another order. -/
theorem exists_fragment_reordered {style : Style} {f : Fragment}
    (hf : (d.fragment style).result = .ok f) :
    ∃ f', ((d.reordered l).fragment style).result = .ok f' ∧ f.segments.Perm f'.segments := by
  obtain ⟨hknown, hsegments, hstyle⟩ := fragment_eq_ok.1 hf
  obtain ⟨segments, hsegments', hperm⟩ := Except.exists_mapM_of_perm (parts_perm hl) hsegments
  refine ⟨⟨segments, style⟩, fragment_eq_ok.2 ⟨fun h hh => ?_, ?_, rfl⟩, hperm⟩
  · exact (known_reordered hl h).2 (hknown h (hl.mem_iff.2 hh))
  · rw [segment_reordered hl]
    exact hsegments'

end

/-- The order of the request changes only the order of the output. If the requested types are put in
another order, repetitions included, then the drawing succeeds or fails as before, its edges are the
same up to their order, and its text is made of the same segments in another order. -/
theorem request_order_is_output_order (hl : d.requested.Perm l) (style : Style) :
    ((∃ f, (d.fragment style).result = .ok f) ↔
      ∃ f', ((d.reordered l).fragment style).result = .ok f') ∧
    ∀ f f', (d.fragment style).result = .ok f →
      ((d.reordered l).fragment style).result = .ok f' →
        f.edges.Perm f'.edges ∧ f.segments.Perm f'.segments ∧
          f.text = ",".intercalate (f.segments.map Segment.text) ∧
          f'.text = ",".intercalate (f'.segments.map Segment.text) := by
  refine ⟨⟨?_, ?_⟩, ?_⟩
  · rintro ⟨f, hf⟩
    obtain ⟨f', hf', -⟩ := exists_fragment_reordered hl hf
    exact ⟨f', hf'⟩
  · rintro ⟨f', hf'⟩
    -- The other way round: the first order is a reordering of the second.
    have hback : (d.reordered l).requested.Perm d.requested := hl.symm
    obtain ⟨f, hf, -⟩ := exists_fragment_reordered hback hf'
    exact ⟨f, hf⟩
  · intro f f' hf hf'
    obtain ⟨f'', hf'', hperm⟩ := exists_fragment_reordered hl hf
    obtain rfl : f' = f'' := Except.ok.inj (hf'.symm.trans hf'')
    exact ⟨hperm.filterMap _, hperm, rfl, rfl⟩

/-- A dog that is requested twice, its base, its interface, and a house for dogs. -/
def yard : Drawing where
  registry :=
    { slots := #[
        { name := "Animal", kind := .reference },
        { name := "Dog", kind := .reference, base := some (.ofNat 0), interfaces := [.ofNat 2] },
        { name := "IPet", kind := .interface },
        { name := "House", kind := .reference,
          properties := [{ name := "Owner", valueType := .ofNat 1 }] }] }
  requested := [.ofNat 1, .ofNat 0, .ofNat 2, .ofNat 1, .ofNat 3]

/-- The same request from another corner of the yard. -/
def detour : List Handle := [.ofNat 3, .ofNat 1, .ofNat 1, .ofNat 0, .ofNat 2]

/-- The dog stands alone where it is requested again, behind its base in one order and before it in
the other. -/
theorem yard_reordered :
    ∃ f f', (yard.fragment {}).result = .ok f ∧
      ((yard.reordered detour).fragment {}).result = .ok f' ∧
      f.text = "[<<IPet>>;Dog]^-[Animal],[Animal],[<<IPet>>;Dog],[House]->[<<IPet>>;Dog]" ∧
      f'.text = "[House]->[<<IPet>>;Dog],[<<IPet>>;Dog]^-[Animal],[<<IPet>>;Dog],[Animal]" ∧
      f.edges.Perm f'.edges ∧ f.segments.Perm f'.segments := by
  have htext : Fragment.text <$> (yard.fragment {}).result =
      .ok "[<<IPet>>;Dog]^-[Animal],[Animal],[<<IPet>>;Dog],[House]->[<<IPet>>;Dog]" := by
    decide +kernel
  have htext' : Fragment.text <$> ((yard.reordered detour).fragment {}).result =
      .ok "[House]->[<<IPet>>;Dog],[<<IPet>>;Dog]^-[Animal],[<<IPet>>;Dog],[Animal]" := by
    decide +kernel
  obtain ⟨f, hf, htext⟩ := Except.map_eq_ok.1 htext
  obtain ⟨f', hf', htext'⟩ := Except.map_eq_ok.1 htext'
  have hdetour : yard.requested.Perm detour := by decide
  obtain ⟨-, hperm⟩ := request_order_is_output_order hdetour {}
  obtain ⟨hedges, hsegments, -⟩ := hperm f f' hf hf'
  exact ⟨f, f', hf, hf', htext, htext', hedges, hsegments⟩

end Drawing

end ClassDiagram
