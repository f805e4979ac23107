import ClassDiagram.Proofs.Outline
/-!
# What a drawing reports

A drawing that succeeds reports every edge that it writes, every inheritance edge that it does not
write again and every requested type that is no class, and in the end what it has built. The reports
are told here without a ledger, like the outline of the drawing. The size of the ledger is carried
through the drawing as an invariant: it is the number of inheritance edges written so far.
-/

namespace ClassDiagram

namespace Traced

variable {ε α β : Type} {x : Traced ε α} {f : α → Traced ε β} {a : α} {b : β} {es : List Event}

/-- The events reported, in order. -/
def events (x : Traced ε α) : List Event := x.reports.map Report.event

/-- The computation succeeds with this result and has reported these events on the way to it. -/
def Tells (x : Traced ε α) (a : α) (es : List Event) : Prop := x.result = .ok a ∧ x.events = es

@[simp] theorem tells_pure {a' : α} : (pure a : Traced ε α).Tells a' es ↔ a = a' ∧ [] = es := by
  simp [Tells, events]

@[simp] theorem tells_report {e : Event} {u : Unit} :
    (report e : Traced ε Unit).Tells u es ↔ [e] = es := by
  simp [Tells, events, report]

@[simp] theorem tells_liftM {y : Except ε α} :
    (liftM y : Traced ε α).Tells a es ↔ y = .ok a ∧ [] = es := Iff.rfl

@[simp] theorem tells_bind : (x >>= f).Tells b es ↔
    ∃ a before, x.Tells a before ∧ ∃ after, (f a).Tells b after ∧ before ++ after = es := by
  obtain ⟨r, t⟩ := x
  cases r with
  | error e => simp [Tells, bind, andThen]
  | ok a =>
    simp [Tells, events, bind, andThen]

@[simp] theorem tells_within {s : Span} : (x.within s).Tells a es ↔ x.Tells a es := by
  simp [Tells, events, within, Function.comp_def]

end Traced

namespace Drawing

variable {d : Drawing}

instance {h : Handle} : Decidable (d.IsClass h) :=
  decidable_of_iff ((d.registry.get? h).any fun t => t.kind.isDrawn) (by
    cases hg : d.registry.get? h <;> simp [IsClass, hg])

variable (d)

/-! ## Reports without a ledger -/

/-- What a requested type has to report where it is requested for the first time, or again. -/
def eventsAt (first : Bool) (h : Handle) : List Event :=
  match d.registry.get? h with
  | none => []
  | some t =>
    if t.kind.isDrawn then
      (d.upwardEdges h).map (fun e =>
        if first then .edgeWritten e else .edgeKnown e.source e.target) ++
        (t.properties.filterMap (d.acrossEdge? h)).map .edgeWritten
    else [.rootSkipped t.name t.kind]

/-- What the requested types have to report, in their order. -/
def events : List Event :=
  d.requested.zipIdx.flatMap fun (h, i) => d.eventsAt (h ∉ d.requested.take i) h

/-- The report of a requested type that is no class. -/
def skipped? (h : Handle) : Option Event :=
  match d.registry.get? h with
  | none => none
  | some t => if t.kind.isDrawn then none else some (.rootSkipped t.name t.kind)

/-- The pairs of a class where it is requested again and a requested type above it. -/
def repeated : List (Handle × Handle) :=
  d.requested.zipIdx.flatMap fun (h, i) =>
    if h ∈ d.requested.take i ∧ d.IsClass h then
      ((d.registry.lineage h).filter (· ∈ d.requested)).map fun a => (h, a)
    else []

/-! ## Edges -/

variable {d} {child owner h : Handle} {ancestors met rest : List Handle} {ledger next : Ledger}
  {ss : List Segment} {es : List Event} {p : List Segment × Ledger}

theorem tells_joinedSegment {e : Edge} {s : Segment} :
    (d.joinedSegment e).Tells s es ↔ (Part.joined e).segment d = .ok s ∧ [.edgeWritten e] = es := by
  simp only [joinedSegment, Part.segment, Traced.tells_bind, Traced.tells_report,
    Traced.tells_liftM, Traced.tells_pure, Except.bind_eq_ok, Except.pure_eq_ok]
  constructor
  · rintro ⟨_, _, rfl, _, ⟨source, _, ⟨hsource, rfl⟩, _, ⟨target, _, ⟨htarget, rfl⟩, _,
      ⟨rfl, rfl⟩, rfl⟩, rfl⟩, rfl⟩
    exact ⟨⟨source, hsource, target, htarget, rfl⟩, rfl⟩
  · rintro ⟨⟨source, hsource, target, htarget, rfl⟩, rfl⟩
    exact ⟨(), _, rfl, _, ⟨source, _, ⟨hsource, rfl⟩, _, ⟨target, _, ⟨htarget, rfl⟩, _,
      ⟨rfl, rfl⟩, rfl⟩, rfl⟩, rfl⟩

/-- Edges that the ledger does not have are reported as written. -/
theorem tells_inheritance_of_new (hn : ancestors.Nodup)
    (hnew : ∀ e ∈ d.edgesTo child ancestors, ¬ ledger.contains e)
    (ht : (d.inheritance child ancestors ledger).Tells p es) :
    (d.edgesTo child ancestors).map .edgeWritten = es := by
  induction ancestors generalizing ledger p es with
  | nil => exact (Traced.tells_pure.1 ht).2
  | cons a rest ih =>
    obtain ⟨ha, hn⟩ := List.nodup_cons.1 hn
    by_cases hr : a ∈ d.requested
    · rw [edgesTo_cons_of_mem hr] at hnew ⊢
      have hrest := not_contains_insert ha fun e he => hnew e (List.mem_cons_of_mem _ he)
      have hfresh : ledger.contains ⟨child, a, .inherits⟩ = false := by
        simpa using hnew _ List.mem_cons_self
      simp only [inheritance, hr, hfresh, not_true_eq_false, if_false, Bool.false_eq_true,
        Traced.tells_bind, tells_joinedSegment, Traced.tells_pure] at ht
      obtain ⟨s, _, ⟨-, rfl⟩, _, ⟨_, after, hafter, _, ⟨-, rfl⟩, rfl⟩, rfl⟩ := ht
      rw [List.map_cons, ih hn hrest hafter, List.append_nil]
      rfl
    · rw [edgesTo_cons_of_not_mem hr] at hnew ⊢
      exact ih hn hnew (by simpa [inheritance, hr] using ht)

/-- Edges that the ledger has are reported as known. -/
theorem tells_inheritance_of_known (hknown : ∀ e ∈ d.edgesTo child ancestors, ledger.contains e)
    (ht : (d.inheritance child ancestors ledger).Tells p es) :
    (d.edgesTo child ancestors).map (fun e => .edgeKnown e.source e.target) = es := by
  induction ancestors generalizing es with
  | nil => exact (Traced.tells_pure.1 ht).2
  | cons a rest ih =>
    by_cases hr : a ∈ d.requested
    · rw [edgesTo_cons_of_mem hr] at hknown ⊢
      simp only [inheritance, hr, hknown _ List.mem_cons_self, not_true_eq_false, if_false, if_true,
        Traced.tells_bind, Traced.tells_report] at ht
      obtain ⟨_, _, rfl, after, hafter, rfl⟩ := ht
      rw [List.map_cons, ih (fun e he => hknown e (List.mem_cons_of_mem _ he)) hafter]
      rfl
    · rw [edgesTo_cons_of_not_mem hr] at hknown ⊢
      exact ih hknown (by simpa [inheritance, hr] using ht)

theorem tells_associations {ps : List Property} (ht : (d.associations owner ps).Tells ss es) :
    (ps.filterMap (d.acrossEdge? owner)).map .edgeWritten = es := by
  induction ps generalizing ss es with
  | nil => exact (Traced.tells_pure.1 ht).2
  | cons p ps ih =>
    simp only [associations, Traced.tells_bind, Traced.tells_liftM, propertyEdge?_eq_ok] at ht
    obtain ⟨x, _, ⟨⟨-, rfl⟩, rfl⟩, after, hafter, rfl⟩ := ht
    rw [List.filterMap_cons, List.nil_append]
    cases hx : d.acrossEdge? owner p with
    | none =>
      rw [hx] at hafter
      exact ih hafter
    | some e =>
      simp only [hx, Traced.tells_bind, tells_joinedSegment] at hafter
      obtain ⟨s, _, ⟨-, rfl⟩, _, ⟨rest, _, hrest, _, hpure, rfl⟩, rfl⟩ := hafter
      obtain ⟨-, rfl⟩ := Traced.tells_pure.1 hpure
      simp only [List.map_cons, ih hrest, List.append_nil, List.cons_append, List.nil_append]

/-- The edges of a class to its ancestors are reported as written where it is met for the first
time, and as known where it is met again. -/
theorem tells_inheritance (htracks : d.Tracks met ledger) (hc : d.IsClass h) {l : List Handle}
    (hl : d.registry.ancestors h = .ok l) (ht : (d.inheritance h l ledger).Tells p es) :
    (d.upwardEdges h).map (fun e =>
      if h ∉ met then .edgeWritten e else .edgeKnown e.source e.target) = es := by
  have hup : d.edgesTo h l = d.upwardEdges h := by simp [upwardEdges, Registry.lineage, hl]
  by_cases hm : h ∈ met
  · simpa only [hup, hm, not_true_eq_false, if_false] using
      tells_inheritance_of_known (hup.symm ▸ htracks.contains_of_mem hc hm) ht
  · simpa only [hup, hm, not_false_eq_true, if_true] using tells_inheritance_of_new
      (Registry.nodup_ancestors hl).1 (hup.symm ▸ htracks.not_contains_of_not_mem hm) ht

/-! ## Requested types -/

theorem tells_root (htracks : d.Tracks met ledger) (ht : (d.root h ledger).Tells p es) :
    d.eventsAt (h ∉ met) h = es := by
  simp only [root, Traced.tells_bind, Traced.tells_liftM, Registry.describe_eq_ok] at ht
  obtain ⟨t, _, ⟨hg, rfl⟩, after, ht, rfl⟩ := ht
  simp only [eventsAt, hg, List.nil_append]
  by_cases hk : t.kind.isDrawn = true
  · simp only [if_pos hk, Traced.tells_bind, Traced.tells_liftM] at ht ⊢
    obtain ⟨l, _, ⟨hl, rfl⟩, _, ⟨⟨up, last⟩, _, hup, _, ⟨across, _, hacross, final, hfinal,
      rfl⟩, rfl⟩, rfl⟩ := ht
    -- Whatever is made of the segments, nothing more is reported.
    have hquiet : final = [] := by
      split at hfinal
      · simp only [Traced.tells_bind, Traced.tells_liftM, Traced.tells_pure] at hfinal
        obtain ⟨_, _, ⟨-, rfl⟩, _, ⟨-, rfl⟩, rfl⟩ := hfinal
        rfl
      · exact (Traced.tells_pure.1 hfinal).2.symm
    rw [← tells_inheritance htracks ((isClass_iff hg).2 hk) hl hup, ← tells_associations hacross,
      hquiet, List.append_nil, List.nil_append]
    simp only [decide_eq_true_eq]
  · simp only [if_neg hk, Traced.tells_bind, Traced.tells_report, Traced.tells_pure] at ht ⊢
    obtain ⟨_, _, rfl, _, ⟨-, rfl⟩, rfl⟩ := ht
    rfl

/-- A run over requested types reports what each of them has to report. -/
theorem tells_roots (htracks : d.Tracks met ledger) (ht : (d.roots rest ledger).Tells p es) :
    ((rest.zipIdx met.length).flatMap fun (h, i) =>
      d.eventsAt (h ∉ (met ++ rest).take i) h) = es := by
  induction rest generalizing met ledger p es with
  | nil => exact (Traced.tells_pure.1 ht).2
  | cons h rest ih =>
    simp only [roots, Traced.tells_bind, Traced.tells_pure] at ht
    obtain ⟨⟨here, next⟩, _, hroot, _, ⟨_, _, hrest, _, ⟨-, rfl⟩, rfl⟩, rfl⟩ := ht
    obtain ⟨-, -, rfl⟩ := (root_eq_ok htracks).1 hroot.1
    have hih := ih (tracks_recorded htracks) hrest
    simp only [List.length_append, List.length_singleton, List.append_assoc,
      List.singleton_append] at hih
    rw [List.zipIdx_cons, List.flatMap_cons, hih, List.append_nil, ← tells_root htracks hroot]
    simp

/-! ## The size of the ledger -/

/-- The number of inheritance edges among the edges of segments. -/
def inheritanceCount (ss : List Segment) : Nat :=
  (ss.filterMap Segment.edge?).countP (·.kind == .inherits)

@[simp] theorem inheritanceCount_append (ss ts : List Segment) :
    inheritanceCount (ss ++ ts) = inheritanceCount ss + inheritanceCount ts := by
  simp [inheritanceCount]

theorem inheritanceCount_inherits {target : Handle} {s t : String} :
    inheritanceCount (.joined ⟨child, target, .inherits⟩ s t :: ss) = inheritanceCount ss + 1 := by
  simp [inheritanceCount, Segment.edge?]

theorem inheritanceCount_of_segments {edges : List Edge}
    (h : (edges.map Part.joined).mapM (Part.segment d) = .ok ss) :
    inheritanceCount ss = edges.countP (·.kind == .inherits) := by
  rw [inheritanceCount, (texts_of_segments h).2]
  simp [List.filterMap_map, Function.comp_def, Part.edge?]

theorem size_of_inheritance (h : (d.inheritance child ancestors ledger).result = .ok (ss, next)) :
    next.size = ledger.size + inheritanceCount ss := by
  induction ancestors generalizing ledger ss with
  | nil =>
    cases h
    rfl
  | cons a rest ih =>
    simp only [inheritance] at h
    split at h
    · exact ih h
    · split at h
      · simp only [Traced.result_bind, Traced.result_report, Except.ok_bind] at h
        exact ih h
      · rename_i hfresh
        simp only [Traced.result_bind, Traced.result_pure, result_joinedSegment, Part.segment,
          Except.bind_eq_ok, Except.pure_eq_ok, Except.ok.injEq, Prod.mk.injEq, Prod.exists] at h
        obtain ⟨_, ⟨source, -, target, -, rfl⟩, segments, _, hrest, rfl, rfl⟩ := h
        rw [ih hrest, Ledger.size_insert_of_not_contains (by simpa using hfresh),
          inheritanceCount_inherits]
        omega

theorem kind_of_acrossEdge? {q : Property} {e : Edge} (h : d.acrossEdge? owner q = some e) :
    e.kind ≠ .inherits := by
  unfold acrossEdge? at h
  split at h
  · cases h
    simp
  · split at h
    · split at h
      · cases h
        simp
      · cases h
    · cases h

theorem inheritanceCount_of_associations {ps : List Property}
    (h : (d.associations owner ps).result = .ok ss) : inheritanceCount ss = 0 := by
  rw [inheritanceCount_of_segments (associations_eq_ok.1 h).2, List.countP_eq_zero]
  intro e he
  obtain ⟨q, -, hq⟩ := List.mem_filterMap.1 he
  simpa using kind_of_acrossEdge? hq

theorem size_of_root (h : (d.root owner ledger).result = .ok (ss, next)) :
    next.size = ledger.size + inheritanceCount ss := by
  simp only [root, Traced.result_bind, Traced.result_liftM, Except.bind_eq_ok] at h
  obtain ⟨t, -, h⟩ := h
  split at h
  · simp only [Traced.result_bind, Traced.result_liftM, Except.bind_eq_ok, Prod.exists] at h
    obtain ⟨l, -, up, last, hup, across, hacross, h⟩ := h
    have hall : last.size = ledger.size + inheritanceCount (up ++ across) := by
      rw [size_of_inheritance hup, inheritanceCount_append,
        inheritanceCount_of_associations hacross, Nat.add_zero]
    split at h
    · rename_i hnil
      simp only [Traced.result_bind, Traced.result_liftM, Traced.result_pure, Except.bind_eq_ok,
        Except.ok.injEq, Prod.mk.injEq] at h
      obtain ⟨block, -, rfl, rfl⟩ := h
      rwa [hnil] at hall
    · cases h
      exact hall
  · simp only [Traced.result_bind, Traced.result_report, Traced.result_pure, Except.ok_bind,
      Except.ok.injEq, Prod.mk.injEq] at h
    obtain ⟨rfl, rfl⟩ := h
    rfl

/-- The ledger grows by one for each inheritance edge that is written. -/
theorem size_of_roots (h : (d.roots rest ledger).result = .ok (ss, next)) :
    next.size = ledger.size + inheritanceCount ss := by
  induction rest generalizing ledger ss with
  | nil =>
    cases h
    rfl
  | cons a rest ih =>
    simp only [roots, Traced.result_bind, Traced.result_pure, Except.bind_eq_ok, Except.ok.injEq,
      Prod.mk.injEq, Prod.exists] at h
    obtain ⟨here, mid, hroot, there, _, hrest, rfl, rfl⟩ := h
    rw [ih hrest, size_of_root hroot, inheritanceCount_append, Nat.add_assoc]

/-! ## Reading the reports -/

theorem filter_written_eventsAt {first : Bool} :
    (d.eventsAt first h).filter (·.message = "Writing edge") =
      ((d.partsAt first h).filterMap Part.edge?).map .edgeWritten := by
  unfold eventsAt
  cases hg : d.registry.get? h with
  | none => simp [partsAt, hg]
  | some t =>
    by_cases hk : t.kind.isDrawn = true
    · have hparts : (d.partsAt first h).filterMap Part.edge? = d.edgesAt first h t := by
        simp only [partsAt, hg, if_pos hk]
        cases d.edgesAt first h t <;> simp [Part.edge?, List.filterMap_map, Function.comp_def]
      rw [hparts, edgesAt]
      cases first <;> simp [hk, Event.message, List.filter_map, Function.comp_def]
    · simp [partsAt, hg, hk, Event.message]

theorem filter_skipped_eventsAt {first : Bool} :
    (d.eventsAt first h).filter (·.message = "Skipping non-class root") =
      (d.skipped? h).toList := by
  unfold eventsAt skipped?
  cases d.registry.get? h with
  | none => rfl
  | some t =>
    by_cases hk : t.kind.isDrawn = true
    · cases first <;> simp [hk, Event.message, List.filter_map, Function.comp_def]
    · simp [hk, Event.message]

theorem filter_known_eventsAt {first : Bool} :
    (d.eventsAt first h).filter (·.message = "Inheritance edge already written") =
      if ¬ first ∧ d.IsClass h then
        ((d.registry.lineage h).filter (· ∈ d.requested)).map (.edgeKnown h)
      else [] := by
  unfold eventsAt
  cases hg : d.registry.get? h with
  | none => simp [IsClass, hg]
  | some t =>
    simp only [isClass_iff hg]
    by_cases hk : t.kind.isDrawn = true
    · cases first <;> simp [hk, Event.message, List.filter_map, Function.comp_def, upwardEdges,
        edgesTo]
    · simp [hk, Event.message]

/-- A drawing that succeeds reports what its requested types have to report, and last the fragment
that it has built. -/
theorem tells_fragment {style : Style} {f : Fragment} (ht : (d.fragment style).Tells f es) :
    es = d.events ++
      [.fragmentBuilt f.text.utf8ByteSize f.edges.length (f.count .inherits)] := by
  simp only [fragment, Traced.tells_within, Traced.tells_bind, Traced.tells_report,
    Traced.tells_pure] at ht
  obtain ⟨⟨ss, next⟩, _, hroots, _, ⟨_, _, rfl, _, ⟨rfl, rfl⟩, rfl⟩, rfl⟩ := ht
  have hsize : next.size = Fragment.count ⟨ss, style⟩ .inherits := by
    rw [size_of_roots hroots.1]
    exact Nat.zero_add _
  rw [← tells_roots tracks_empty hroots, ← hsize]
  rfl

theorem isSome_skipped? (hr : d.registry.IsRegistered h) :
    (d.skipped? h).isSome ↔ ¬ d.IsClass h := by
  obtain ⟨t, hg⟩ := Registry.isRegistered_iff.1 hr
  rw [isClass_iff hg]
  by_cases hk : t.kind.isDrawn = true <;> simp [skipped?, hg, hk]

theorem filter_written_events :
    d.events.filter (·.message = "Writing edge") =
      (d.parts.filterMap Part.edge?).map .edgeWritten := by
  simp only [events, parts, List.filter_flatMap, List.filterMap_flatMap, List.map_flatMap,
    filter_written_eventsAt]

theorem filter_skipped_events :
    d.events.filter (·.message = "Skipping non-class root") =
      d.requested.filterMap d.skipped? := by
  have hfst : d.requested = d.requested.zipIdx.map Prod.fst := by simp
  simp only [events, List.filter_flatMap, filter_skipped_eventsAt, List.filterMap_eq_flatMap_toList]
  conv_rhs => rw [hfst]
  rw [List.flatMap_map]

theorem filter_known_events :
    d.events.filter (·.message = "Inheritance edge already written") =
      d.repeated.map fun p => .edgeKnown p.1 p.2 := by
  simp only [events, repeated, List.filter_flatMap, List.map_flatMap, filter_known_eventsAt]
  refine List.flatMap_congr fun p _ => ?_
  obtain ⟨h, i⟩ := p
  by_cases hc : h ∈ d.requested.take i ∧ d.IsClass h <;> simp [hc]

/-- The reports of a drawing that succeeds are a faithful account of it. The edges reported as
written are those of the fragment, in their order. A requested type that is no class is reported
each time it is requested. An inheritance edge is reported as known for each requested ancestor of a
class, each time the class is requested again. The last report tells the length of the text, the
number of edges and the number of inheritance edges among them. -/
theorem reports_are_faithful {style : Style} {f : Fragment}
    (hf : (d.fragment style).result = .ok f) :
    (d.fragment style).events.filter (·.message = "Writing edge") = f.edges.map .edgeWritten ∧
      (d.fragment style).events.filter (·.message = "Skipping non-class root") =
        d.requested.filterMap d.skipped? ∧
      (∀ h ∈ d.requested, (d.skipped? h).isSome ↔ ¬ d.IsClass h) ∧
      (d.fragment style).events.filter (·.message = "Inheritance edge already written") =
        d.repeated.map (fun p => .edgeKnown p.1 p.2) ∧
      (∀ h ∈ d.requested, d.IsClass h → d.registry.ancestors h = .ok (d.registry.lineage h)) ∧
      (d.fragment style).events.getLast? =
        some (.fragmentBuilt f.text.utf8ByteSize f.edges.length (f.count .inherits)) := by
  obtain ⟨hknown, hsegments, -⟩ := fragment_eq_ok.1 hf
  have hedges : f.edges = d.parts.filterMap Part.edge? := (texts_of_segments hsegments).2
  rw [tells_fragment ⟨hf, rfl⟩]
  refine ⟨?_, ?_, ?_, ?_, ?_, List.getLast?_concat⟩
  · rw [List.filter_append, filter_written_events, hedges]
    exact List.append_nil _
  · rw [List.filter_append, filter_skipped_events]
    exact List.append_nil _
  · intro h hh
    obtain ⟨t, hg, -⟩ := hknown h hh
    exact isSome_skipped? (Registry.isRegistered_of_get? hg)
  · rw [List.filter_append, filter_known_events]
    exact List.append_nil _
  · rintro h hh ⟨t, hg, hk⟩
    obtain ⟨t', ht', hup⟩ := hknown h hh
    obtain rfl : t = t' := Option.some.inj (hg.symm.trans ht')
    exact (hup hk).1

/-- The kennel has one class requested twice, below another one, and an interface. -/
theorem kennel_reports :
    ∃ f, (kennel.fragment {}).result = .ok f ∧
      (kennel.fragment {}).events.filter (·.message = "Writing edge") =
        f.edges.map .edgeWritten ∧ f.edges.length = 6 ∧
      (kennel.fragment {}).events.filter (·.message = "Skipping non-class root") =
        [.rootSkipped "IPet" .interface] ∧
      (kennel.fragment {}).events.filter (·.message = "Inheritance edge already written") =
        [.edgeKnown (.ofNat 1) (.ofNat 0)] ∧
      (kennel.fragment {}).events.getLast? = some (.fragmentBuilt 97 6 2) := by
  have hf : ∃ f, (kennel.fragment {}).result = .ok f ∧ f.edges.length = 6 ∧
      f.text.utf8ByteSize = 97 ∧ f.count .inherits = 2 :=
    ⟨_, by rfl, by rfl, by decide +kernel, by rfl⟩
  obtain ⟨f, hf, hedges, hlength, hcount⟩ := hf
  obtain ⟨hwritten, hskipped, -, hrepeated, -, hlast⟩ := reports_are_faithful hf
  rw [hedges, hlength, hcount] at hlast
  exact ⟨f, hf, hwritten, hedges, hskipped.trans (by rfl), hrepeated.trans (by rfl), hlast⟩

end Drawing

end ClassDiagram
