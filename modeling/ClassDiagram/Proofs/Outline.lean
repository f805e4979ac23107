import ClassDiagram.Drawing
import ClassDiagram.Proofs.Lineage
/-!
# Outlines

What a drawing shows, told without a ledger: the parts of the diagram are read off the list of
requested types alone, and an inheritance edge belongs to the first place at which its class is
requested. The main result is that a drawing that succeeds writes exactly the parts of its outline.
-/

namespace ClassDiagram

/-- A part of a diagram before it is written: a class that stands alone, or an edge. -/
inductive Part where
  | alone (h : Handle)
  | joined (edge : Edge)
deriving DecidableEq

namespace Part

/-- The edge of the part. -/
def edge? : Part → Option Edge
  | alone _ => none
  | joined edge => some edge

/-- The text of the part: a class block, or two with the mark of the edge between them. -/
def text (d : Drawing) : Part → Except Failure String
  | alone h => d.block h
  | joined edge => do
    let source ← d.block edge.source
    let target ← d.block edge.target
    pure (source ++ edge.kind.token ++ target)

/-- The part as a segment of a fragment. -/
def segment (d : Drawing) : Part → Except Failure Segment
  | alone h => do return .alone (← d.block h)
  | joined edge => do
    let source ← d.block edge.source
    let target ← d.block edge.target
    pure (.joined edge source target)

end Part

/-- The ancestors of a type, none if the walk to them fails. -/
def Registry.lineage (r : Registry) (h : Handle) : List Handle :=
  match r.ancestors h with
  | .ok l => l
  | .error _ => []

/-- The type of the elements of a type that can be enumerated: its first argument. -/
def Description.element? (t : Description) : Option Handle :=
  if t.enumerable then t.arguments.head? else none

namespace Drawing

variable (d : Drawing)

/-- The handle is that of a class. -/
def IsClass (h : Handle) : Prop := ∃ t, d.registry.get? h = some t ∧ t.kind.isDrawn

/-- The edges from a class to those types above it that are requested. -/
def edgesTo (child : Handle) (above : List Handle) : List Edge :=
  (above.filter (· ∈ d.requested)).map fun a => ⟨child, a, .inherits⟩

/-- The inheritance edges of a class: one to each requested ancestor, the nearest first. -/
def upwardEdges (h : Handle) : List Edge := d.edgesTo h (d.registry.lineage h)

/-- The edge of a property: to the type of its value if that is requested, or else to the type of
the elements of its value if there is one and it is requested. -/
def acrossEdge? (owner : Handle) (p : Property) : Option Edge :=
  if p.valueType ∈ d.requested then some ⟨owner, p.valueType, .associates⟩
  else
    match (d.registry.get? p.valueType).bind Description.element? with
    | some e => if e ∈ d.requested then some ⟨owner, e, .aggregates⟩ else none
    | none => none

/-- The edges of a class where it is requested for the first time, or again. -/
def edgesAt (first : Bool) (h : Handle) (t : Description) : List Edge :=
  (if first then d.upwardEdges h else []) ++ t.properties.filterMap (d.acrossEdge? h)

/-- The parts of a requested type where it is requested for the first time, or again. -/
def partsAt (first : Bool) (h : Handle) : List Part :=
  match d.registry.get? h with
  | none => []
  | some t =>
    if t.kind.isDrawn then
      match d.edgesAt first h t with
      | [] => [.alone h]
      | edges => edges.map .joined
    else []

/-- The parts of the diagram, in the order of the requested types. -/
def parts : List Part :=
  d.requested.zipIdx.flatMap fun (h, i) => d.partsAt (h ∉ d.requested.take i) h

/-- Everything that a drawing has to know of a requested type, class blocks apart, is there. -/
def Known (h : Handle) : Prop :=
  ∃ t, d.registry.get? h = some t ∧ (t.kind.isDrawn →
    d.registry.ancestors h = .ok (d.registry.lineage h) ∧
      ∀ p ∈ t.properties, p.valueType ∈ d.requested ∨ d.registry.IsRegistered p.valueType)

/-! ## Parts and segments -/

variable {d}

theorem text_of_segment {p : Part} {s : Segment} (h : p.segment d = .ok s) :
    p.text d = .ok s.text ∧ s.edge? = p.edge? := by
  cases p with
  | alone a =>
    simp only [Part.segment, Except.bind_eq_ok, Except.pure_eq_ok] at h
    obtain ⟨block, hblock, rfl⟩ := h
    exact ⟨hblock, rfl⟩
  | joined edge =>
    simp only [Part.segment, Except.bind_eq_ok, Except.pure_eq_ok] at h
    obtain ⟨source, hsource, target, htarget, rfl⟩ := h
    exact ⟨by simp [Part.text, hsource, htarget, Segment.text], rfl⟩

/-- What is written of parts: the texts of the segments, and the edges in their order. -/
theorem texts_of_segments {ps : List Part} {ss : List Segment}
    (h : ps.mapM (Part.segment d) = .ok ss) :
    ps.mapM (Part.text d) = .ok (ss.map Segment.text) ∧
      ss.filterMap Segment.edge? = ps.filterMap Part.edge? := by
  rw [Except.mapM_eq_ok] at h ⊢
  induction h with
  | nil => exact ⟨.nil, rfl⟩
  | cons hp _ ih =>
    obtain ⟨htext, hedge⟩ := text_of_segment hp
    exact ⟨.cons htext ih.1, by simp only [List.filterMap_cons, hedge, ih.2]⟩

@[simp] theorem result_joinedSegment (edge : Edge) :
    (d.joinedSegment edge).result = (Part.joined edge).segment d := by
  simp [joinedSegment, Part.segment]

/-! ## Edges for properties -/

theorem propertyEdge?_of_get? {owner : Handle} {p : Property} {t : Description}
    (hp : p.valueType ∉ d.requested) (ht : d.registry.get? p.valueType = some t) :
    d.propertyEdge? owner p = .ok (d.acrossEdge? owner p) := by
  simp only [propertyEdge?, acrossEdge?, if_neg hp, Registry.describe_eq_ok.2 ht, ht,
    Except.ok_bind, Option.bind_some, Description.element?]
  cases t.arguments with
  | nil => cases t.enumerable <;> rfl
  | cons element rest =>
    cases t.enumerable with
    | false => rfl
    | true => by_cases he : element ∈ d.requested <;> simp [he]

theorem propertyEdge?_eq_ok {owner : Handle} {p : Property} {x : Option Edge} :
    d.propertyEdge? owner p = .ok x ↔
      (p.valueType ∈ d.requested ∨ d.registry.IsRegistered p.valueType) ∧
        d.acrossEdge? owner p = x := by
  by_cases hp : p.valueType ∈ d.requested
  · simp [propertyEdge?, acrossEdge?, hp]
  · by_cases hr : d.registry.IsRegistered p.valueType
    · obtain ⟨t, ht⟩ := Registry.isRegistered_iff.1 hr
      simp [propertyEdge?_of_get? hp ht, hr]
    · simp [propertyEdge?, hp, hr, Registry.describe_of_not_isRegistered hr]

theorem associations_eq_ok {owner : Handle} {ps : List Property} {ss : List Segment} :
    (d.associations owner ps).result = .ok ss ↔
      (∀ p ∈ ps, p.valueType ∈ d.requested ∨ d.registry.IsRegistered p.valueType) ∧
        ((ps.filterMap (d.acrossEdge? owner)).map Part.joined).mapM (Part.segment d) = .ok ss := by
  induction ps generalizing ss with
  | nil => simp [associations]
  | cons p ps ih =>
    simp only [associations, Traced.result_bind, Traced.result_liftM, Except.bind_eq_ok,
      propertyEdge?_eq_ok, List.forall_mem_cons]
    constructor
    -- The run tells the edge, and the rest of the run the rest of the edges.
    · rintro ⟨x, ⟨hp, rfl⟩, hss⟩
      cases hx : d.acrossEdge? owner p with
      | none =>
        rw [hx] at hss
        simpa [hx, hp] using ih.1 hss
      | some edge =>
        rw [hx] at hss
        simp only [Traced.result_bind, Except.bind_eq_ok, result_joinedSegment] at hss
        obtain ⟨s, hs, rest, hrest, hss⟩ := hss
        obtain ⟨hps, hmap⟩ := ih.1 hrest
        refine ⟨⟨hp, hps⟩, ?_⟩
        simp [hx, hs, hmap] at hss ⊢
        exact hss
    · rintro ⟨⟨hp, hps⟩, hss⟩
      refine ⟨_, ⟨hp, rfl⟩, ?_⟩
      cases hx : d.acrossEdge? owner p with
      | none => exact ih.2 ⟨hps, by simpa [hx] using hss⟩
      | some edge =>
        simp only [List.filterMap_cons, hx, List.map_cons, List.mapM_cons, Except.bind_eq_ok] at hss
        obtain ⟨s, hs, rest, hrest, hss⟩ := hss
        have htail := ih.2 ⟨hps, hrest⟩
        simp only [Traced.result_bind, Except.bind_eq_ok, result_joinedSegment]
        exact ⟨s, hs, rest, htail, hss⟩

/-! ## Inheritance edges and the ledger -/

/-- The ledger with the edges of a list recorded in it. -/
def recordAll (l : Ledger) (edges : List Edge) : Ledger := edges.foldl Ledger.insert l

theorem contains_recordAll {l : Ledger} {edges : List Edge} {e : Edge} :
    (recordAll l edges).contains e ↔ e ∈ edges ∨ l.contains e := by
  induction edges generalizing l with
  | nil => simp [recordAll]
  | cons f edges ih =>
    rw [recordAll, List.foldl_cons, ← recordAll, ih]
    simp [or_assoc, or_left_comm]

theorem recordAll_of_contains {l : Ledger} {edges : List Edge} (h : ∀ e ∈ edges, l.contains e) :
    recordAll l edges = l := by
  induction edges with
  | nil => rfl
  | cons f edges ih =>
    rw [recordAll, List.foldl_cons, Ledger.insert_of_contains (h f List.mem_cons_self)]
    exact ih fun e he => h e (List.mem_cons_of_mem f he)

variable {child a : Handle} {ancestors rest : List Handle} {ledger : Ledger}

theorem edgesTo_cons_of_mem (ha : a ∈ d.requested) :
    d.edgesTo child (a :: rest) = ⟨child, a, .inherits⟩ :: d.edgesTo child rest := by
  simp [edgesTo, ha]

theorem edgesTo_cons_of_not_mem (ha : a ∉ d.requested) :
    d.edgesTo child (a :: rest) = d.edgesTo child rest := by
  simp [edgesTo, ha]

/-- A ledger that has one more edge still lacks those to the ancestors behind, since no ancestor
repeats. -/
theorem not_contains_insert (ha : a ∉ rest)
    (hnew : ∀ e ∈ d.edgesTo child rest, ¬ ledger.contains e) :
    ∀ e ∈ d.edgesTo child rest, ¬ (ledger.insert ⟨child, a, .inherits⟩).contains e := by
  intro e he
  obtain ⟨b, hb, rfl⟩ := List.mem_map.1 he
  have hne : b ≠ a := fun h => ha (h ▸ List.mem_of_mem_filter hb)
  simpa [hne] using hnew _ he

/-- Edges that the ledger does not have are all written, and recorded. -/
theorem result_inheritance_of_new (hn : ancestors.Nodup)
    (hnew : ∀ e ∈ d.edgesTo child ancestors, ¬ ledger.contains e) :
    (d.inheritance child ancestors ledger).result = (do
      let ss ← ((d.edgesTo child ancestors).map Part.joined).mapM (Part.segment d)
      pure (ss, recordAll ledger (d.edgesTo child ancestors))) := by
  induction ancestors generalizing ledger with
  | nil => rfl
  | cons a rest ih =>
    obtain ⟨ha, hn⟩ := List.nodup_cons.1 hn
    by_cases hr : a ∈ d.requested
    · rw [edgesTo_cons_of_mem hr] at hnew ⊢
      have hrest := not_contains_insert ha fun e he => hnew e (List.mem_cons_of_mem _ he)
      have hknown := hnew _ List.mem_cons_self
      simp [inheritance, hr, hknown, ih hn hrest, recordAll]
    · rw [edgesTo_cons_of_not_mem hr] at hnew ⊢
      simpa [inheritance, hr] using ih hn hnew

/-- Edges that the ledger has are not written again. -/
theorem result_inheritance_of_known
    (hknown : ∀ e ∈ d.edgesTo child ancestors, ledger.contains e) :
    (d.inheritance child ancestors ledger).result = .ok ([], ledger) := by
  induction ancestors with
  | nil => rfl
  | cons a rest ih =>
    by_cases hr : a ∈ d.requested
    · rw [edgesTo_cons_of_mem hr] at hknown
      simpa [inheritance, hr, hknown _ List.mem_cons_self] using
        ih fun e he => hknown e (List.mem_cons_of_mem _ he)
    · rw [edgesTo_cons_of_not_mem hr] at hknown
      simpa [inheritance, hr] using ih hknown

/-! ## One requested type -/

/-- The ledger has exactly the inheritance edges of the classes among those met so far. -/
def Tracks (d : Drawing) (met : List Handle) (ledger : Ledger) : Prop :=
  ∀ e, ledger.contains e ↔ e.source ∈ met ∧ d.IsClass e.source ∧ e ∈ d.upwardEdges e.source

/-- The ledger behind one more requested type. -/
def recorded (d : Drawing) (ledger : Ledger) (h : Handle) : Ledger :=
  match d.registry.get? h with
  | none => ledger
  | some t => if t.kind.isDrawn then recordAll ledger (d.upwardEdges h) else ledger

theorem tracks_empty : d.Tracks [] .empty := by
  intro e
  simp [Ledger.contains, Ledger.empty]

variable {met : List Handle} {h : Handle}

theorem source_of_mem_upwardEdges {e : Edge} (he : e ∈ d.upwardEdges h) : e.source = h := by
  obtain ⟨a, -, rfl⟩ := List.mem_map.1 he
  rfl

theorem isClass_iff {t : Description} (ht : d.registry.get? h = some t) :
    d.IsClass h ↔ t.kind.isDrawn := by
  simp [IsClass, ht]

/-- Going on to one more requested type keeps the account. -/
theorem tracks_recorded (ht : d.Tracks met ledger) :
    d.Tracks (met ++ [h]) (d.recorded ledger h) := by
  -- A type that is no class has no edges to track.
  have hother : ¬ d.IsClass h → d.Tracks (met ++ [h]) ledger := by
    intro hc e
    rw [ht e, List.mem_append, List.mem_singleton]
    constructor
    · rintro ⟨hm, he⟩
      exact ⟨.inl hm, he⟩
    · rintro ⟨hm | hm, he⟩
      · exact ⟨hm, he⟩
      · exact absurd (hm ▸ he.1) hc
  unfold recorded
  cases hg : d.registry.get? h with
  | none => exact hother (by simp [IsClass, hg])
  | some t =>
    by_cases hk : t.kind.isDrawn = true
    · intro e
      simp only [if_pos hk, contains_recordAll, ht e, List.mem_append, List.mem_singleton]
      constructor
      · rintro (he | ⟨hm, he⟩)
        · have hs := source_of_mem_upwardEdges he
          exact ⟨.inr hs, hs ▸ (isClass_iff hg).2 hk, hs.symm ▸ he⟩
        · exact ⟨.inl hm, he⟩
      · rintro ⟨hm | hm, he⟩
        · exact .inr ⟨hm, he⟩
        · exact .inl (hm ▸ he.2)
    · simpa only [if_neg hk] using hother fun hc => hk ((isClass_iff hg).1 hc)

/-- All edges of a class that was met were recorded then. -/
theorem Tracks.contains_of_mem (ht : d.Tracks met ledger) (hc : d.IsClass h) (hm : h ∈ met) :
    ∀ e ∈ d.upwardEdges h, ledger.contains e := by
  intro e he
  have hs := source_of_mem_upwardEdges he
  exact (ht e).2 ⟨hs ▸ hm, hs ▸ hc, hs.symm ▸ he⟩

/-- No edge of a type that was not met was recorded: its source would have been met. -/
theorem Tracks.not_contains_of_not_mem (ht : d.Tracks met ledger) (hm : h ∉ met) :
    ∀ e ∈ d.upwardEdges h, ¬ ledger.contains e := by
  intro e he hcon
  exact hm (source_of_mem_upwardEdges he ▸ ((ht e).1 hcon).1)

/-- The ledger suppresses exactly the edges of a class that was met before. -/
theorem result_inheritance (ht : d.Tracks met ledger) (hc : d.IsClass h) {l : List Handle}
    (hl : d.registry.ancestors h = .ok l) :
    (d.inheritance h l ledger).result = (do
      let edges := if h ∉ met then d.upwardEdges h else []
      let ss ← (edges.map Part.joined).mapM (Part.segment d)
      pure (ss, recordAll ledger (d.upwardEdges h))) := by
  have hup : d.edgesTo h l = d.upwardEdges h := by simp [upwardEdges, Registry.lineage, hl]
  by_cases hm : h ∈ met
  -- Met before: recording the edges again changes nothing.
  · have hknown := ht.contains_of_mem hc hm
    rw [result_inheritance_of_known (hup.symm ▸ hknown), recordAll_of_contains hknown]
    simp [hm]
    rfl
  · have hnew := ht.not_contains_of_not_mem hm
    rw [result_inheritance_of_new (Registry.nodup_ancestors hl).1 (hup.symm ▸ hnew), hup]
    simp [hm]

/-- The segments of a class are those of its edges, or its block alone if it has none. -/
theorem mapM_partsAt_eq_ok {first : Bool} {t : Description} {ss : List Segment}
    (hg : d.registry.get? h = some t) (hk : t.kind.isDrawn = true) :
    (d.partsAt first h).mapM (Part.segment d) = .ok ss ↔
      ∃ es, ((d.edgesAt first h t).map Part.joined).mapM (Part.segment d) = .ok es ∧
        match es with
        | [] => ∃ block, d.block h = .ok block ∧ ss = [.alone block]
        | _ :: _ => ss = es := by
  simp only [partsAt, hg, if_pos hk]
  cases d.edgesAt first h t with
  | nil =>
    simp only [List.map_nil, List.mapM_nil, Except.pure_eq_ok, exists_eq_left']
    simp only [List.mapM_cons, List.mapM_nil, Part.segment, Except.bind_eq_ok, Except.pure_eq_ok]
    constructor
    · rintro ⟨s, ⟨block, hblock, rfl⟩, _, rfl, rfl⟩
      exact ⟨block, hblock, rfl⟩
    · rintro ⟨block, hblock, rfl⟩
      exact ⟨_, ⟨block, hblock, rfl⟩, _, rfl, rfl⟩
  | cons e edges =>
    constructor
    · intro hss
      refine ⟨ss, hss, ?_⟩
      cases ss with
      | nil => simp [Except.mapM_eq_ok] at hss
      | cons s ss => rfl
    · rintro ⟨es, hes, hss⟩
      cases es with
      | nil => simp [Except.mapM_eq_ok] at hes
      | cons s es => exact hss ▸ hes

/-- The edges of a class come from its ancestors and its properties; the ledger decides on the
former. -/
theorem edges_eq_ok (ht : d.Tracks met ledger) {t : Description} (hg : d.registry.get? h = some t)
    (hk : t.kind.isDrawn = true) {es : List Segment} {next : Ledger} :
    (∃ l up, d.registry.ancestors h = .ok l ∧ (d.inheritance h l ledger).result = .ok (up, next) ∧
        ∃ across, (d.associations h t.properties).result = .ok across ∧ es = up ++ across) ↔
      d.Known h ∧ ((d.edgesAt (h ∉ met) h t).map Part.joined).mapM (Part.segment d) = .ok es ∧
        next = recordAll ledger (d.upwardEdges h) := by
  have hc := (isClass_iff hg).2 hk
  constructor
  · rintro ⟨l, up, hl, hup, across, hacross, rfl⟩
    rw [result_inheritance ht hc hl] at hup
    simp only [Except.bind_eq_ok, Except.pure_eq_ok, Prod.mk.injEq] at hup
    obtain ⟨ups, hups, rfl, rfl⟩ := hup
    obtain ⟨hps, hacross⟩ := associations_eq_ok.1 hacross
    have hlin : d.registry.lineage h = l := by simp [Registry.lineage, hl]
    refine ⟨⟨t, hg, fun _ => ⟨hlin ▸ hl, hps⟩⟩, ?_, rfl⟩
    by_cases hm : h ∈ met <;>
      simp_all [edgesAt, List.mapM_append]
  · rintro ⟨⟨t', ht', hknown⟩, hes, rfl⟩
    obtain rfl : t = t' := Option.some.inj (hg.symm.trans ht')
    obtain ⟨hl, hps⟩ := hknown hk
    simp only [edgesAt, List.map_append, List.mapM_append, Except.bind_eq_ok,
      Except.pure_eq_ok] at hes
    obtain ⟨up, hup, across, hacross, rfl⟩ := hes
    refine ⟨_, up, hl, ?_, across, associations_eq_ok.2 ⟨hps, hacross⟩, rfl⟩
    rw [result_inheritance ht hc hl]
    by_cases hm : h ∈ met <;> simp_all

/-- One requested type is written as its parts, and its inheritance edges are recorded. -/
theorem root_eq_ok (ht : d.Tracks met ledger) {ss : List Segment} {next : Ledger} :
    (d.root h ledger).result = .ok (ss, next) ↔
      d.Known h ∧ (d.partsAt (h ∉ met) h).mapM (Part.segment d) = .ok ss ∧
        next = d.recorded ledger h := by
  simp only [root, Traced.result_bind, Traced.result_liftM, Except.bind_eq_ok,
    Registry.describe_eq_ok]
  cases hg : d.registry.get? h with
  | none => simp [Known, hg]
  | some t =>
    simp only [Option.some.injEq, exists_eq_left']
    by_cases hk : t.kind.isDrawn = true
    · simp only [if_pos hk, mapM_partsAt_eq_ok hg hk, recorded, hg]
      constructor
      · intro hroot
        simp only [Traced.result_bind, Traced.result_liftM, Except.bind_eq_ok, Prod.exists] at hroot
        obtain ⟨l, hl, up, last, hup, across, hacross, hroot⟩ := hroot
        obtain ⟨hknown, hes, hlast⟩ :=
          (edges_eq_ok ht hg hk).1 ⟨l, up, hl, hup, across, hacross, rfl⟩
        -- Without edges the class is written alone; otherwise the edges are all that is written.
        generalize up ++ across = es at hroot hes
        cases es with
        | nil =>
          simp only [Traced.result_bind, Traced.result_liftM, Except.bind_eq_ok,
            Traced.result_pure, Except.ok.injEq, Prod.mk.injEq] at hroot
          obtain ⟨block, hblock, rfl, rfl⟩ := hroot
          exact ⟨hknown, ⟨[], hes, block, hblock, rfl⟩, hlast⟩
        | cons s es =>
          simp only [Traced.result_pure, Except.ok.injEq, Prod.mk.injEq] at hroot
          obtain ⟨rfl, rfl⟩ := hroot
          exact ⟨hknown, ⟨_, hes, rfl⟩, hlast⟩
      · rintro ⟨hknown, ⟨es, hes, hss⟩, hnext⟩
        obtain ⟨l, up, hl, hup, across, hacross, rfl⟩ :=
          (edges_eq_ok ht hg hk).2 ⟨hknown, hes, hnext⟩
        simp only [Traced.result_bind, Traced.result_liftM, Except.bind_eq_ok, Prod.exists]
        refine ⟨l, hl, up, next, hup, across, hacross, ?_⟩
        generalize up ++ across = es at hss
        cases es with
        | nil =>
          obtain ⟨block, hblock, rfl⟩ := hss
          simp [hblock]
        | cons s es => rw [hss, Traced.result_pure]
    · have hknown : d.Known h := ⟨t, hg, fun hk' => absurd hk' hk⟩
      simp only [if_neg hk, partsAt, recorded, hg, hknown, true_and, List.mapM_nil,
        Except.pure_eq_ok]
      simp [eq_comm]

/-! ## All requested types -/

/-- The parts of the types that are requested after those met. -/
def partsAfter (d : Drawing) (met : List Handle) : List Handle → List Part
  | [] => []
  | h :: rest => d.partsAt (h ∉ met) h ++ d.partsAfter (met ++ [h]) rest

theorem partsAfter_eq {rest : List Handle} :
    d.partsAfter met rest = (rest.zipIdx met.length).flatMap fun (h, i) =>
      d.partsAt (h ∉ (met ++ rest).take i) h := by
  induction rest generalizing met with
  | nil => rfl
  | cons h rest ih => simp [partsAfter, ih]

theorem parts_eq : d.parts = d.partsAfter [] d.requested := by
  rw [partsAfter_eq]
  rfl

/-- A run over requested types writes their parts. -/
theorem roots_eq_ok (ht : d.Tracks met ledger) {rest : List Handle} {ss : List Segment} :
    (∃ next, (d.roots rest ledger).result = .ok (ss, next)) ↔
      (∀ h ∈ rest, d.Known h) ∧ (d.partsAfter met rest).mapM (Part.segment d) = .ok ss := by
  induction rest generalizing met ledger ss with
  | nil => simp [roots, partsAfter]
  | cons h rest ih =>
    simp only [roots, partsAfter, Traced.result_bind, Traced.result_pure, Except.bind_eq_ok,
      Prod.exists, root_eq_ok ht, List.mapM_append, Except.pure_eq_ok, List.forall_mem_cons,
      Except.ok.injEq, Prod.mk.injEq]
    constructor
    · rintro ⟨next, here, _, ⟨hh, hhere, rfl⟩, there, _, hthere, rfl, rfl⟩
      obtain ⟨hrest, hmap⟩ := (ih (tracks_recorded ht)).1 ⟨_, hthere⟩
      exact ⟨⟨hh, hrest⟩, here, hhere, there, hmap, rfl⟩
    · rintro ⟨⟨hh, hrest⟩, here, hhere, there, hmap, rfl⟩
      obtain ⟨next, hthere⟩ := (ih (tracks_recorded ht)).2 ⟨hrest, hmap⟩
      exact ⟨next, here, _, ⟨hh, hhere, rfl⟩, there, next, hthere, rfl, rfl⟩

/-- A drawing succeeds if all that it has to know is there and every part can be written, and then
its fragment is made of the parts. -/
theorem fragment_eq_ok {style : Style} {f : Fragment} :
    (d.fragment style).result = .ok f ↔
      (∀ h ∈ d.requested, d.Known h) ∧ d.parts.mapM (Part.segment d) = .ok f.segments ∧
        f.style = style := by
  obtain ⟨segments, style'⟩ := f
  rw [parts_eq, ← and_assoc, ← roots_eq_ok tracks_empty]
  simp only [fragment, Traced.result_within, Traced.result_bind, Traced.result_report,
    Traced.result_pure, Except.bind_eq_ok, Except.ok.injEq, Prod.exists, Fragment.mk.injEq]
  constructor
  · rintro ⟨ss, next, hroots, _, -, rfl, rfl⟩
    exact ⟨⟨next, hroots⟩, rfl⟩
  · rintro ⟨⟨next, hroots⟩, rfl⟩
    exact ⟨_, next, hroots, (), trivial, rfl, rfl⟩

/-! ## What is written -/

theorem block_ne_empty {b : String} (hb : d.block h = .ok b) : b ≠ "" := by
  simp only [block, Except.bind_eq_ok, Except.pure_eq_ok] at hb
  obtain ⟨marks, -, name, -, properties, -, methods, -, rfl⟩ := hb
  simp [String.append_eq_empty_iff]

theorem text_ne_empty {p : Part} {t : String} (ht : p.text d = .ok t) : t ≠ "" := by
  cases p with
  | alone a => exact block_ne_empty ht
  | joined edge =>
    simp only [Part.text, Except.bind_eq_ok, Except.pure_eq_ok] at ht
    obtain ⟨source, hsource, target, -, rfl⟩ := ht
    simp [String.append_eq_empty_iff, block_ne_empty hsource]

theorem partsAt_eq_nil {first : Bool} : d.partsAt first h = [] ↔ ¬ d.IsClass h := by
  unfold partsAt
  cases hg : d.registry.get? h with
  | none => simp [IsClass, hg]
  | some t =>
    rw [isClass_iff hg]
    by_cases hk : t.kind.isDrawn = true
    · cases he : d.edgesAt first h t <;> simp [hk, he]
    · simp [hk]

theorem parts_eq_nil : d.parts = [] ↔ ∀ h ∈ d.requested, ¬ d.IsClass h := by
  simp only [parts, List.flatMap_eq_nil_iff, partsAt_eq_nil, Prod.forall]
  constructor
  · intro hall h hh
    obtain ⟨i, hi, rfl⟩ := List.getElem_of_mem hh
    exact hall _ i (by simp [List.mem_zipIdx_iff_getElem?])
  · intro hall h i hmem
    exact hall h (List.fst_mem_of_mem_zipIdx hmem)

theorem intercalate_eq_empty {sep : String} {l : List String} (hl : ∀ t ∈ l, t ≠ "") :
    sep.intercalate l = "" ↔ l = [] := by
  cases l with
  | nil => simp
  | cons t l =>
    have ht := hl t List.mem_cons_self
    cases l <;> simp [String.append_eq_empty_iff, ht]

/-- A drawing is faithful to its outline: its text is made of the texts of the parts with a comma
between two, its edges are those of the parts in the same order, and it is empty if and only if no
class is requested. -/
theorem fragment_follows_outline {style : Style} {f : Fragment}
    (hf : (d.fragment style).result = .ok f) :
    (∃ texts, d.parts.mapM (Part.text d) = .ok texts ∧ f.text = ",".intercalate texts) ∧
      f.edges = d.parts.filterMap Part.edge? ∧
      (f.text = "" ↔ ∀ h ∈ d.requested, ¬ d.IsClass h) ∧
      ∀ h ∈ d.requested, d.IsClass h → d.registry.ancestors h = .ok (d.registry.lineage h) := by
  obtain ⟨hknown, hsegments, -⟩ := fragment_eq_ok.1 hf
  obtain ⟨htexts, hedges⟩ := texts_of_segments hsegments
  refine ⟨⟨_, htexts, rfl⟩, hedges, ?_, ?_⟩
  · have hne : ∀ t ∈ f.segments.map Segment.text, t ≠ "" := by
      intro t ht
      obtain ⟨p, -, hp⟩ := Except.exists_of_mem_mapM htexts ht
      exact text_ne_empty hp
    rw [Fragment.text, intercalate_eq_empty hne, ← parts_eq_nil]
    have hlen := (Except.mapM_eq_ok.1 htexts).length_eq
    rw [← List.length_eq_zero_iff, ← List.length_eq_zero_iff, hlen]
  · rintro h hh ⟨t, ht, hk⟩
    obtain ⟨t', ht', hup⟩ := hknown h hh
    obtain rfl : t = t' := Option.some.inj (ht.symm.trans ht')
    exact (hup hk).1

/-- Two classes whose bases lead in a circle, an interface, and a list of toys. One class is
requested twice and has a property of its own type. -/
def kennel : Drawing where
  registry :=
    { slots := #[
        { name := "Animal", kind := .reference, base := some (.ofNat 1) },
        { name := "Dog", kind := .reference, base := some (.ofNat 0),
          properties := [
            { name := "Friend", valueType := .ofNat 1 },
            { name := "Toys", valueType := .ofNat 4 }] },
        { name := "IPet", kind := .interface },
        { name := "Toy", kind := .reference },
        { name := "List\x601", kind := .reference, definition := some (.ofNat 5),
          arguments := [.ofNat 3], enumerable := true },
        { name := "List\x601", kind := .reference, enumerable := true }] }
  requested := [.ofNat 1, .ofNat 2, .ofNat 0, .ofNat 1, .ofNat 3]

/-- The inheritance edge of the class that is requested twice is drawn once, its other edges are
drawn twice. -/
theorem kennel_follows_outline :
    ∃ f, (kennel.fragment {}).result = .ok f ∧
      f.text = "[Dog]^-[Animal],[Dog]->[Dog],[Dog]1-0..*[Toy],[Animal]^-[Dog]," ++
        "[Dog]->[Dog],[Dog]1-0..*[Toy],[Toy]" ∧
      f.edges = kennel.parts.filterMap Part.edge? ∧ f.text ≠ "" := by
  have hf : (kennel.fragment {}).result = .ok
      { segments := [
          .joined ⟨.ofNat 1, .ofNat 0, .inherits⟩ "[Dog]" "[Animal]",
          .joined ⟨.ofNat 1, .ofNat 1, .associates⟩ "[Dog]" "[Dog]",
          .joined ⟨.ofNat 1, .ofNat 3, .aggregates⟩ "[Dog]" "[Toy]",
          .joined ⟨.ofNat 0, .ofNat 1, .inherits⟩ "[Animal]" "[Dog]",
          .joined ⟨.ofNat 1, .ofNat 1, .associates⟩ "[Dog]" "[Dog]",
          .joined ⟨.ofNat 1, .ofNat 3, .aggregates⟩ "[Dog]" "[Toy]",
          .alone "[Toy]"]
        style := {} } := by rfl
  have hdog : kennel.IsClass (.ofNat 1) := ⟨_, rfl, rfl⟩
  obtain ⟨-, hedges, hempty, -⟩ := fragment_follows_outline hf
  exact ⟨_, hf, by rfl, hedges, fun h => hempty.1 h _ List.mem_cons_self hdog⟩

end Drawing

end ClassDiagram
