import ClassDiagram.Proofs.Outline
/-!
# How a drawing begins

The text of a drawing begins with the block of the first class. Whether a requested interface is
implemented by that class shows in the block, and whether a requested type is above it shows in what
comes behind the block.
-/

namespace ClassDiagram.Drawing

variable {d : Drawing} {h : Handle} {rest : List Handle} {t : Description} {style : Style}
  {f : Fragment}

/-! ## The first part -/

theorem exists_parts_eq_cons (hreq : d.requested = h :: rest) (hget : d.registry.get? h = some t)
    (hk : t.kind.isDrawn) (hp : t.properties = []) :
    ∃ p ps, d.parts = p :: ps ∧
      if d.upwardEdges h = [] then p = .alone h else ∃ a, p = .joined ⟨h, a, .inherits⟩ := by
  have hedges : d.edgesAt true h t = d.upwardEdges h := by simp [edgesAt, hp]
  rw [parts_eq, hreq, partsAfter]
  simp only [List.not_mem_nil, not_false_eq_true, decide_true, partsAt, hget, hk, if_true, hedges]
  cases hup : d.upwardEdges h with
  | nil => exact ⟨_, _, rfl, by simp⟩
  | cons e es =>
    have he : e ∈ d.upwardEdges h := hup ▸ List.mem_cons_self
    obtain ⟨a, -, rfl⟩ := List.mem_map.1 he
    exact ⟨_, _, rfl, by simp⟩

theorem text_of_segments_cons {s : Segment} {ss : List Segment} (hf : f.segments = s :: ss) :
    ∃ tail, f.text = s.text ++ tail ∧ (tail = "" ∨ ∃ u, tail = "," ++ u) := by
  rw [Fragment.text, hf]
  cases ss with
  | nil => exact ⟨"", by simp, .inl rfl⟩
  | cons s' ss =>
    refine ⟨"," ++ ",".intercalate ((s' :: ss).map Segment.text), ?_, .inr ⟨_, rfl⟩⟩
    rw [List.map_cons, List.map_cons, String.intercalate_cons_cons, String.append_assoc]

/-- What comes behind the block of the first class tells whether anything above it is requested. -/
theorem exists_text_eq_block_append (hreq : d.requested = h :: rest)
    (hget : d.registry.get? h = some t) (hk : t.kind.isDrawn) (hp : t.properties = [])
    (hf : (d.fragment style).result = .ok f) :
    ∃ block tail, d.block h = .ok block ∧ f.text = block ++ tail ∧
      if d.upwardEdges h = [] then tail = "" ∨ ∃ u, tail = "," ++ u else ∃ u, tail = "^-" ++ u := by
  obtain ⟨-, hsegments, -⟩ := fragment_eq_ok.1 hf
  obtain ⟨p, ps, hparts, hfirst⟩ := exists_parts_eq_cons hreq hget hk hp
  rw [hparts, Except.mapM_eq_ok] at hsegments
  obtain ⟨s, ss, hs, -, hcons⟩ := List.forall₂_cons_left_iff.1 hsegments
  obtain ⟨tail, htext, htail⟩ := text_of_segments_cons hcons
  by_cases hup : d.upwardEdges h = []
  · simp only [hup, if_true] at hfirst ⊢
    subst hfirst
    simp only [Part.segment, Except.bind_eq_ok, Except.pure_eq_ok] at hs
    obtain ⟨block, hblock, rfl⟩ := hs
    exact ⟨block, tail, hblock, htext, htail⟩
  · simp only [hup, if_false] at hfirst ⊢
    obtain ⟨a, rfl⟩ := hfirst
    simp only [Part.segment, Except.bind_eq_ok, Except.pure_eq_ok] at hs
    obtain ⟨source, hsource, target, -, rfl⟩ := hs
    refine ⟨source, "^-" ++ (target ++ tail), hsource, ?_, _, rfl⟩
    rw [htext]
    simp only [Segment.text, EdgeKind.token, String.append_assoc]

/-! ## The block without members -/

theorem block_of_no_detail {b : String} (hd : d.detail = .none) (hb : d.block h = .ok b) :
    ∃ marks name, d.interfaceMarks h = .ok marks ∧ d.registry.displayName d.naming h = .ok name ∧
      b = "[" ++ marks ++ name ++ "]" := by
  have hproperties : d.registry.propertyList d.naming d.detail h = .ok "" := by
    rw [hd]
    rfl
  have hmethods : d.registry.methodList d.detail h = .ok "" := by
    rw [hd]
    rfl
  simp only [block, hproperties, hmethods, Except.bind_eq_ok, Except.pure_eq_ok,
    Except.ok.injEq] at hb
  obtain ⟨marks, hmarks, name, hname, _, rfl, _, rfl, rfl⟩ := hb
  exact ⟨marks, name, hmarks, hname, by simp [compartment]⟩

theorem interfaceMarks_eq_ok (hget : d.registry.get? h = some t) {marks : String}
    (hm : d.interfaceMarks h = .ok marks) :
    if ∃ i ∈ t.interfaces, i ∈ d.requested then ∃ u, marks = "<<" ++ u else marks = "" := by
  simp only [interfaceMarks, Registry.describe_eq_ok.2 hget, Except.ok_bind, Except.bind_eq_ok,
    Except.pure_eq_ok, Except.mapM_eq_ok] at hm
  obtain ⟨texts, htexts, rfl⟩ := hm
  cases hfilter : t.interfaces.filter (d.requested.contains ·) with
  | nil =>
    rw [hfilter, List.forall₂_nil_left_iff] at htexts
    rw [if_neg, htexts]
    · rfl
    · rintro ⟨i, hi, hreq⟩
      exact List.filter_eq_nil_iff.1 hfilter i hi (by simpa using hreq)
  | cons i is =>
    have hi := List.mem_filter.1 (hfilter ▸ List.mem_cons_self)
    rw [hfilter] at htexts
    obtain ⟨_, texts, ⟨name, -, rfl⟩, -, rfl⟩ := List.forall₂_cons_left_iff.1 htexts
    rw [if_pos ⟨i, hi.1, by simpa using hi.2⟩]
    exact ⟨name ++ ">>;" ++ String.join texts, by simp [String.append_assoc]⟩

/-! ## Classes without heritage and with some -/

/-- A type asked for is an interface of the first class, or it is the base. -/
def ShowsHeritage (d : Drawing) (h : Handle) (t : Description) : Prop :=
  ∃ a ∈ d.requested, a ∈ t.interfaces ∨ a ≠ h ∧ t.base = some a

theorem text_of_bare (hreq : d.requested = h :: rest) (hget : d.registry.get? h = some t)
    (hk : t.kind.isDrawn) (hp : t.properties = []) (hd : d.detail = .none)
    (hbase : t.base = none) (hinterfaces : t.interfaces = [])
    (hf : (d.fragment style).result = .ok f) :
    ∃ name tail, d.registry.displayName d.naming h = .ok name ∧
      f.text = "[" ++ name ++ "]" ++ tail ∧ (tail = "" ∨ ∃ u, tail = "," ++ u) := by
  obtain ⟨block, tail, hblock, htext, htail⟩ := exists_text_eq_block_append hreq hget hk hp hf
  obtain ⟨marks, name, hmarks, hname, rfl⟩ := block_of_no_detail hd hblock
  have hnone := interfaceMarks_eq_ok hget hmarks
  rw [if_neg (by simp [hinterfaces])] at hnone
  subst hnone
  have hup : d.upwardEdges h = [] := by
    have hancestors : d.registry.ancestors h = .ok [] :=
      Registry.climb_succ_eq_ok.2 ⟨t, hget, by simp [hbase]⟩
    simp [upwardEdges, edgesTo, Registry.lineage, hancestors]
  rw [if_pos hup] at htail
  exact ⟨name, tail, hname, by simpa using htext, htail⟩

theorem text_of_heritage (hreq : d.requested = h :: rest) (hget : d.registry.get? h = some t)
    (hk : t.kind.isDrawn) (hp : t.properties = []) (hd : d.detail = .none)
    (hheritage : d.ShowsHeritage h t) (hf : (d.fragment style).result = .ok f) :
    (∃ u, f.text = "[<<" ++ u) ∨ ∃ name u, d.registry.displayName d.naming h = .ok name ∧
      f.text = "[" ++ name ++ "]^-" ++ u := by
  obtain ⟨block, tail, hblock, htext, htail⟩ := exists_text_eq_block_append hreq hget hk hp hf
  obtain ⟨marks, name, hmarks, hname, rfl⟩ := block_of_no_detail hd hblock
  have hmark := interfaceMarks_eq_ok hget hmarks
  by_cases hinterface : ∃ i ∈ t.interfaces, i ∈ d.requested
  · rw [if_pos hinterface] at hmark
    obtain ⟨u, rfl⟩ := hmark
    refine .inl ⟨u ++ name ++ "]" ++ tail, ?_⟩
    rw [htext, show "[<<" = "[" ++ "<<" from rfl]
    simp only [String.append_assoc]
  · rw [if_neg hinterface] at hmark
    subst hmark
    have hup : d.upwardEdges h ≠ [] := by
      obtain ⟨a, ha, hi | ⟨hne, hbase⟩⟩ := hheritage
      · exact absurd ⟨a, hi, ha⟩ hinterface
      · obtain ⟨hknown, -, -⟩ := fragment_eq_ok.1 hf
        obtain ⟨t', ht', hknown⟩ := hknown h (hreq ▸ List.mem_cons_self)
        obtain rfl := Option.some.inj (hget.symm.trans ht')
        obtain ⟨hancestors, -⟩ := hknown hk
        obtain ⟨t', ht', hclimb⟩ := Registry.climb_succ_eq_ok.1 hancestors
        obtain rfl := Option.some.inj (hget.symm.trans ht')
        -- The base is the nearest of the types above.
        simp only [hbase, List.mem_singleton, if_neg hne] at hclimb
        obtain ⟨above, -, hlineage⟩ := hclimb
        simp [upwardEdges, edgesTo, hlineage, ha]
    rw [if_neg hup] at htail
    obtain ⟨u, rfl⟩ := htail
    refine .inr ⟨name, u, hname, ?_⟩
    rw [htext, show "]^-" = "]" ++ "^-" from rfl]
    simp only [String.append_assoc, String.empty_append]

end ClassDiagram.Drawing
