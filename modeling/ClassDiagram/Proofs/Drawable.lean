import ClassDiagram.Proofs.Closed
import ClassDiagram.Proofs.Outline
/-!
# Drawable registries

Over a closed registry a drawing cannot fail: every walk it takes ends at a registered type, so
every class block and every edge can be written.
-/

namespace ClassDiagram

namespace Registry

variable {r : Registry} {h : Handle}

theorem exists_ancestors_eq_ok (hr : r.Closed) (hh : r.IsRegistered h) :
    ∃ l, r.ancestors h = .ok l := by
  apply exists_climb_eq_ok hh
  intro a d b hd hb
  exact hr.references a d hd b (Description.mem_references_of_base hb)

theorem exists_propertyList_eq_ok (hr : r.Closed) (hh : r.IsRegistered h) (n : Naming)
    (detail : Detail) : ∃ s, r.propertyList n detail h = .ok s := by
  obtain ⟨d, hd⟩ := isRegistered_iff.1 hh
  have hentries : ∀ p ∈ listedProperties d detail, ∃ e, r.propertyEntry n p = .ok e := by
    intro p hp
    have hvalue := Description.mem_references_of_mem_properties (List.mem_of_mem_filter hp)
    obtain ⟨name, hname⟩ := exists_displayName_eq_ok (n := n) hr (hr.references h d hd _ hvalue)
    exact ⟨⟨p.settable, p.name, " : " ++ name⟩, by simp [propertyEntry, hname]⟩
  obtain ⟨entries, hmap⟩ := Except.exists_mapM_eq_ok hentries
  unfold propertyList
  cases detail.wantsProperties with
  | false => exact ⟨_, rfl⟩
  | true =>
    simp only [describe_eq_ok.2 hd, Except.ok_bind, hmap]
    exact ⟨_, rfl⟩

theorem exists_methodList_eq_ok (hh : r.IsRegistered h) (detail : Detail) :
    ∃ s, r.methodList detail h = .ok s := by
  obtain ⟨d, hd⟩ := isRegistered_iff.1 hh
  unfold methodList
  cases detail.wantsMethods with
  | false => exact ⟨_, rfl⟩
  | true =>
    simp only [describe_eq_ok.2 hd, Except.ok_bind]
    exact ⟨_, rfl⟩

end Registry

/-- The types that the part shows. -/
def Part.handles : Part → List Handle
  | alone h => [h]
  | joined edge => [edge.source, edge.target]

namespace Drawing

variable {d : Drawing} {h a : Handle}

/-! ## Blocks -/

theorem exists_interfaceMarks_eq_ok (hr : d.registry.Closed) (hh : d.registry.IsRegistered h) :
    ∃ s, d.interfaceMarks h = .ok s := by
  obtain ⟨t, ht⟩ := Registry.isRegistered_iff.1 hh
  have hmarks : ∀ i ∈ t.interfaces.filter (d.requested.contains ·), ∃ s,
      (do return "<<" ++ (← d.registry.displayName d.naming i) ++ ">>;" : Except Failure String) =
        .ok s := by
    intro i hi
    have href := Description.mem_references_of_mem_interfaces (List.mem_of_mem_filter hi)
    obtain ⟨name, hname⟩ :=
      Registry.exists_displayName_eq_ok (n := d.naming) hr (hr.references h t ht i href)
    exact ⟨_, by rw [hname]; rfl⟩
  obtain ⟨marks, hmap⟩ := Except.exists_mapM_eq_ok hmarks
  refine ⟨String.join marks, ?_⟩
  simp only [interfaceMarks, Registry.describe_eq_ok.2 ht, Except.ok_bind, hmap]
  rfl

theorem exists_block_eq_ok (hr : d.registry.Closed) (hh : d.registry.IsRegistered h) :
    ∃ b, d.block h = .ok b := by
  obtain ⟨marks, hmarks⟩ := exists_interfaceMarks_eq_ok hr hh
  obtain ⟨name, hname⟩ := Registry.exists_displayName_eq_ok (n := d.naming) hr hh
  obtain ⟨properties, hproperties⟩ := Registry.exists_propertyList_eq_ok hr hh d.naming d.detail
  obtain ⟨methods, hmethods⟩ := Registry.exists_methodList_eq_ok hh d.detail
  simp only [block, hmarks, hname, hproperties, hmethods, Except.ok_bind]
  exact ⟨_, rfl⟩

theorem known_of_closed (hr : d.registry.Closed) (hh : d.registry.IsRegistered h) : d.Known h := by
  obtain ⟨t, ht⟩ := Registry.isRegistered_iff.1 hh
  obtain ⟨l, hl⟩ := Registry.exists_ancestors_eq_ok hr hh
  refine ⟨t, ht, fun _ => ⟨by simp [Registry.lineage, hl], fun p hp => .inr ?_⟩⟩
  exact hr.references h t ht _ (Description.mem_references_of_mem_properties hp)

/-! ## Parts -/

theorem handles_of_mem_edgesAt {first : Bool} {t : Description} {e : Edge}
    (he : e ∈ d.edgesAt first h t) : e.source = h ∧ e.target ∈ d.requested := by
  simp only [edgesAt, List.mem_append, List.mem_filterMap] at he
  rcases he with he | ⟨p, -, he⟩
  · split at he
    · simp only [upwardEdges, edgesTo, List.mem_map, List.mem_filter] at he
      obtain ⟨a, ⟨-, ha⟩, rfl⟩ := he
      exact ⟨rfl, by simpa using ha⟩
    · simp at he
  · unfold acrossEdge? at he
    split at he
    · obtain rfl := Option.some.inj he
      exact ⟨rfl, ‹_›⟩
    · split at he
      · split at he
        · obtain rfl := Option.some.inj he
          exact ⟨rfl, ‹_›⟩
        · simp at he
      · simp at he

/-- A drawing shows requested types only. -/
theorem handles_of_mem_parts {p : Part} (hp : p ∈ d.parts) : ∀ a ∈ p.handles, a ∈ d.requested := by
  simp only [parts, List.mem_flatMap, Prod.exists] at hp
  obtain ⟨h, i, hmem, hp⟩ := hp
  have hh : h ∈ d.requested := List.fst_mem_of_mem_zipIdx hmem
  unfold partsAt at hp
  split at hp
  · simp at hp
  · split at hp
    · split at hp
      · obtain rfl := List.mem_singleton.1 hp
        simpa [Part.handles] using hh
      · obtain ⟨e, he, rfl⟩ := List.mem_map.1 hp
        obtain ⟨hsource, htarget⟩ := handles_of_mem_edgesAt he
        simp [Part.handles, hsource, hh, htarget]
    · simp at hp

theorem exists_segment_eq_ok {p : Part} (hp : ∀ a ∈ p.handles, ∃ b, d.block a = .ok b) :
    ∃ s, p.segment d = .ok s := by
  cases p with
  | alone h =>
    obtain ⟨block, hblock⟩ := hp h (by simp [Part.handles])
    exact ⟨.alone block, by simp [Part.segment, hblock]⟩
  | joined edge =>
    obtain ⟨source, hsource⟩ := hp edge.source (by simp [Part.handles])
    obtain ⟨target, htarget⟩ := hp edge.target (by simp [Part.handles])
    exact ⟨.joined edge source target, by simp [Part.segment, hsource, htarget]⟩

/-- Registered types of a closed registry can be drawn. -/
theorem exists_fragment_eq_ok (hr : d.registry.Closed)
    (hreg : ∀ h ∈ d.requested, d.registry.IsRegistered h) (style : Style) :
    ∃ f, (d.fragment style).result = .ok f := by
  -- Every part shows requested types only, so its blocks can be written.
  have hsegments : ∀ p ∈ d.parts, ∃ s, p.segment d = .ok s := by
    intro p hp
    refine exists_segment_eq_ok fun a ha => exists_block_eq_ok hr (hreg a ?_)
    exact handles_of_mem_parts hp a ha
  obtain ⟨segments, hmap⟩ := Except.exists_mapM_eq_ok hsegments
  exact ⟨{ segments, style },
    fragment_eq_ok.2 ⟨fun h hh => known_of_closed hr (hreg h hh), hmap, rfl⟩⟩

end Drawing

end ClassDiagram
