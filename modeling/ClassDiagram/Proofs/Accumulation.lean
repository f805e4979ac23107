import ClassDiagram.Proofs.Outline
/-!
# Drawing by accumulation

The way a drawing is carried out in memory. The text grows at its end, a comma goes in front of all
that is not the first, the edges are noted in a list of their own, and the ledger records an edge
before its text is made. No segments are kept. The main result is that this gives, with the same
reports and the same failures, what is read off the segments of the fragment.
-/

namespace ClassDiagram

namespace Traced

theorem map_within {ε α β : Type} (f : α → β) (s : Span) (x : Traced ε α) :
    f <$> x.within s = (f <$> x).within s := by
  obtain ⟨r, t⟩ := x
  cases r <;> simp [Functor.map, andThen, within, ofExcept]

end Traced

/-- What a drawing has accumulated: its text, the edges in the text, and the ledger. -/
structure Draft where
  text : String := ""
  written : List Edge := []
  ledger : Ledger := .empty

namespace Draft

/-- The edge is in the text. -/
def note (b : Draft) (e : Edge) : Draft := { b with written := b.written ++ [e] }

/-- The text goes on, behind a comma unless it is the first. -/
def push (b : Draft) (text : String) : Draft :=
  { b with text := (if b.text.isEmpty then b.text else b.text.push ',') ++ text }

/-- The edges of segments are in the text, and the ledger is another. -/
def noteAll (b : Draft) (ss : List Segment) (l : Ledger) : Draft :=
  { b with written := b.written ++ ss.filterMap Segment.edge?, ledger := l }

/-- What has been accumulated when these segments have been written. -/
def ofSegments (ss : List Segment) (l : Ledger) : Draft where
  text := ",".intercalate (ss.map Segment.text)
  written := ss.filterMap Segment.edge?
  ledger := l

@[simp] theorem ledger_note (b : Draft) (e : Edge) : (b.note e).ledger = b.ledger := rfl

@[simp] theorem note_with_ledger (b : Draft) (e : Edge) (l : Ledger) :
    { b with ledger := l }.note e = { b.note e with ledger := l } := rfl

@[simp] theorem noteAll_with_ledger (b : Draft) (ss : List Segment) (l l' : Ledger) :
    { b with ledger := l' }.noteAll ss l = b.noteAll ss l := rfl

@[simp] theorem ledger_noteAll (b : Draft) (ss : List Segment) (l : Ledger) :
    (b.noteAll ss l).ledger = l := rfl

@[simp] theorem noteAll_nil (b : Draft) : b.noteAll [] b.ledger = b := by simp [noteAll]

@[simp] theorem noteAll_cons_alone (b : Draft) (block : String) (ss : List Segment) (l : Ledger) :
    b.noteAll (.alone block :: ss) l = b.noteAll ss l := by
  simp [noteAll, List.filterMap_cons, Segment.edge?]

@[simp] theorem noteAll_cons_joined (b : Draft) (e : Edge) (source target : String)
    (ss : List Segment) (l : Ledger) :
    b.noteAll (.joined e source target :: ss) l = (b.note e).noteAll ss l := by
  simp [noteAll, note, Segment.edge?]

@[simp] theorem noteAll_noteAll (b : Draft) (ss ss' : List Segment) (l l' : Ledger) :
    (b.noteAll ss l).noteAll ss' l' = b.noteAll (ss ++ ss') l' := by
  simp [noteAll]

end Draft

/-- A drawing as it is handed out. -/
@[ext]
structure Written where
  text : String
  edges : List Edge
  style : Style
deriving DecidableEq, Repr

/-- A fragment without its segments. -/
def Fragment.written (f : Fragment) : Written := ⟨f.text, f.edges, f.style⟩

namespace Drawing

variable (d : Drawing)

/-- The text of an edge between two class blocks. -/
def edgeText (edge : Edge) : Traced Failure String := do
  Traced.report (.edgeWritten edge)
  let source ← d.block edge.source
  let target ← d.block edge.target
  pure (source ++ edge.kind.token ++ target)

/-- One more ancestor: the edge to it, if it is requested and the edge is new. -/
def addInheritance (child : Handle) (texts : List String) (b : Draft) (ancestor : Handle) :
    Traced Failure (List String × Draft) :=
  let edge : Edge := ⟨child, ancestor, .inherits⟩
  if ancestor ∉ d.requested then pure (texts, b)
  else
    let (new, ledger) := b.ledger.record edge
    if new then do
      let text ← d.edgeText edge
      pure (texts ++ [text], { b with ledger }.note edge)
    else do
      Traced.report (.edgeKnown child ancestor)
      pure (texts, { b with ledger })

/-- One more property: the edge for it, if there is one. -/
def addAssociation (owner : Handle) (texts : List String) (b : Draft) (p : Property) :
    Traced Failure (List String × Draft) := do
  match ← d.propertyEdge? owner p with
  | none => pure (texts, b)
  | some edge => do
    let text ← d.edgeText edge
    pure (texts ++ [text], b.note edge)

/-- One more requested type: its edges, or its block if it has none. -/
def addRoot (b : Draft) (h : Handle) : Traced Failure Draft := do
  let description ← d.registry.describe h
  if description.kind.isDrawn then do
    let ancestors ← d.registry.ancestors h
    let (up, b) ← ancestors.foldlM (fun s => d.addInheritance h s.1 s.2) ([], b)
    let (across, b) ←
      description.properties.foldlM (fun s => d.addAssociation h s.1 s.2) ([], b)
    match up ++ across with
    | [] => do
      let block ← d.block h
      pure (b.push block)
    | texts => pure (b.push (",".intercalate texts))
  else do
    Traced.report (.rootSkipped description.name description.kind)
    pure b

/-- The drawing, accumulated over the requested types. -/
def accumulate (style : Style) : Traced Failure Written :=
  Traced.within (.buildFragment d.requested.length) do
    let b ← d.requested.foldlM d.addRoot {}
    Traced.report (.fragmentBuilt b.text.utf8ByteSize b.written.length b.ledger.size)
    pure ⟨b.text, b.written, style⟩

/-! ## The edges of one class -/

variable {d} {b : Draft} {texts : List String}

/-- The ancestors of a class are gone through as the segments of its inheritance edges are made. An
edge that the ledger has is recorded in vain. -/
theorem foldlM_addInheritance {child : Handle} (ancestors : List Handle) :
    ancestors.foldlM (fun s => d.addInheritance child s.1 s.2) (texts, b) =
      (fun r => (texts ++ r.1.map Segment.text, b.noteAll r.1 r.2)) <$>
        d.inheritance child ancestors b.ledger := by
  induction ancestors generalizing texts b with
  | nil => simp [inheritance]
  | cons a rest ih =>
    rw [List.foldlM_cons]
    by_cases ha : a ∈ d.requested
    · by_cases hc : b.ledger.contains ⟨child, a, .inherits⟩ = true
      · simp [addInheritance, inheritance, Ledger.record, ha, hc, ih, Ledger.insert_of_contains]
      · simp [addInheritance, inheritance, Ledger.record, ha, hc, ih, edgeText, joinedSegment,
          Segment.text]
    · simp [addInheritance, inheritance, ha, ih]

/-- The properties of a class are gone through as the segments of their edges are made. -/
theorem foldlM_addAssociation {owner : Handle} (ps : List Property) :
    ps.foldlM (fun s => d.addAssociation owner s.1 s.2) (texts, b) =
      (fun ss => (texts ++ ss.map Segment.text, b.noteAll ss b.ledger)) <$>
        d.associations owner ps := by
  induction ps generalizing texts b with
  | nil => simp [associations]
  | cons p rest ih =>
    simp only [List.foldlM_cons, addAssociation, associations, bind_assoc, map_bind]
    refine bind_congr fun x => ?_
    cases x with
    | none => simp [ih]
    | some edge => simp [ih, edgeText, joinedSegment, Segment.text]

/-! ## The requested types -/

/-- No segment is empty, so that a text is empty only before the first. -/
def Solid (ss : List Segment) : Prop := ∀ s ∈ ss, s.text ≠ ""

variable {ss here : List Segment} {ledger next : Ledger} {met : List Handle} {h : Handle}

theorem text_ofSegments_eq_empty (hs : Solid ss) :
    (Draft.ofSegments ss ledger).text = "" ↔ ss = [] := by
  rw [Draft.ofSegments, intercalate_eq_empty (by simpa [Solid] using hs), List.map_eq_nil_iff]

theorem Solid.append (hs : Solid ss) (hh : Solid here) : Solid (ss ++ here) :=
  List.forall_mem_append.2 ⟨hs, hh⟩

theorem solid_of_mapM {ps : List Part} (h : ps.mapM (Part.segment d) = .ok ss) : Solid ss := by
  intro s hmem
  obtain ⟨p, -, hp⟩ := Except.exists_of_mem_mapM h hmem
  exact text_ne_empty (text_of_segment hp).1

/-- The texts of further segments go on where those before end. -/
theorem push_ofSegments (hs : Solid ss) (hh : here ≠ []) :
    ((Draft.ofSegments ss ledger).noteAll here next).push
        (",".intercalate (here.map Segment.text)) = Draft.ofSegments (ss ++ here) next := by
  have hempty : (Draft.ofSegments ss ledger).text = "" ↔ ss = [] := text_ofSegments_eq_empty hs
  by_cases hn : ss = []
  · simp [Draft.ofSegments, Draft.push, Draft.noteAll, hn]
  · have htext : ",".intercalate (ss.map Segment.text) ≠ "" := mt hempty.1 hn
    have hl : ss.map Segment.text ≠ [] := mt List.map_eq_nil_iff.1 hn
    have hm : here.map Segment.text ≠ [] := mt List.map_eq_nil_iff.1 hh
    have hjoin := String.intercalate_append_of_ne_nil (s := ",") hl hm
    simp [Draft.ofSegments, Draft.push, Draft.noteAll, htext, hjoin, String.push_eq_append]

/-- One requested type is added as its segments are made. -/
theorem addRoot_ofSegments (hs : Solid ss) (h : Handle) :
    d.addRoot (Draft.ofSegments ss ledger) h =
      (fun r => Draft.ofSegments (ss ++ r.1) r.2) <$> d.root h ledger := by
  simp only [addRoot, root, map_bind, foldlM_addInheritance, foldlM_addAssociation]
  refine bind_congr fun t => ?_
  by_cases hk : t.kind.isDrawn = true
  · simp only [if_pos hk, map_bind, bind_map_left]
    refine bind_congr fun ancestors => bind_congr fun up => bind_congr fun across => ?_
    simp only [List.nil_append, Draft.ledger_noteAll, Draft.noteAll_noteAll, ← List.map_append]
    cases up.1 ++ across with
    | nil =>
      have halone (block : String) : ((Draft.ofSegments ss ledger).noteAll [] up.2).push block =
          Draft.ofSegments (ss ++ [.alone block]) up.2 := by
        simpa [Segment.text] using push_ofSegments hs (List.cons_ne_nil (.alone block) [])
      simp [halone]
    | cons s es => simpa using congrArg pure (push_ofSegments hs (List.cons_ne_nil s es))
  · simp [hk]

/-- The run over requested types: from what the segments so far have left, it leaves what all
segments leave. -/
theorem foldlM_addRoot (ht : d.Tracks met ledger) (hs : Solid ss) {rest : List Handle} :
    rest.foldlM d.addRoot (Draft.ofSegments ss ledger) =
      (fun r => Draft.ofSegments (ss ++ r.1) r.2) <$> d.roots rest ledger := by
  induction rest generalizing met ss ledger with
  | nil => simp [roots]
  | cons h rest ih =>
    simp only [List.foldlM_cons, addRoot_ofSegments hs, roots, map_bind, bind_map_left]
    refine Traced.bind_congr fun r hroot => ?_
    obtain ⟨here, next⟩ := r
    obtain ⟨-, hhere, rfl⟩ := (root_eq_ok ht).1 hroot
    simp [ih (tracks_recorded ht) (hs.append (solid_of_mapM hhere))]

/-- Accumulation and segments agree: a drawing that is accumulated has the text and the edges of the
fragment, fails where the fragment fails, and reports the same on the way. -/
theorem accumulate_eq (d : Drawing) (style : Style) :
    d.accumulate style = Fragment.written <$> d.fragment style := by
  have hnone : Solid [] := by simp [Solid]
  have hrun : d.requested.foldlM d.addRoot {} =
      (fun r => Draft.ofSegments r.1 r.2) <$> d.roots d.requested .empty := by
    simpa [Draft.ofSegments] using foldlM_addRoot tracks_empty hnone
  simp only [accumulate, fragment, hrun, Traced.map_within, map_bind, bind_map_left]
  rfl

/-- A part that has a text has a segment. -/
theorem exists_segment_of_text {p : Part} {t : String} (ht : p.text d = .ok t) :
    ∃ s, p.segment d = .ok s := by
  cases p with
  | alone a => exact ⟨_, Except.map_eq_ok.2 ⟨t, ht, rfl⟩⟩
  | joined edge =>
    simp only [Part.text, Except.bind_eq_ok] at ht
    obtain ⟨source, hsource, target, htarget, -⟩ := ht
    exact ⟨.joined edge source target, by simp [Part.segment, hsource, htarget]⟩

/-- What is accumulated is the outline: it exists if all that the drawing has to know is there and
every part can be written, and then its text is made of the texts of the parts. -/
theorem accumulate_eq_ok {style : Style} {w : Written} :
    (d.accumulate style).result = .ok w ↔ (∀ h ∈ d.requested, d.Known h) ∧
      (∃ texts, d.parts.mapM (Part.text d) = .ok texts ∧ w.text = ",".intercalate texts) ∧
      w.edges = d.parts.filterMap Part.edge? ∧ w.style = style := by
  rw [accumulate_eq, Traced.result_map, Except.map_eq_ok]
  constructor
  · rintro ⟨f, hf, rfl⟩
    obtain ⟨hknown, hsegments, hstyle⟩ := fragment_eq_ok.1 hf
    obtain ⟨htexts, hedges⟩ := texts_of_segments hsegments
    exact ⟨hknown, ⟨_, htexts, rfl⟩, hedges, hstyle⟩
  · rintro ⟨hknown, ⟨texts, htexts, htext⟩, hedges, hstyle⟩
    obtain ⟨ss, hss⟩ := Except.exists_mapM_eq_ok fun p hp =>
      have ⟨_, ht⟩ := Except.exists_of_mem_of_mapM htexts hp
      exists_segment_of_text ht
    obtain ⟨htexts', hedges'⟩ := texts_of_segments hss
    obtain rfl := Except.ok.inj (htexts.symm.trans htexts')
    exact ⟨⟨ss, style⟩, fragment_eq_ok.2 ⟨hknown, hss, rfl⟩,
      Written.ext htext.symm (hedges'.trans hedges.symm) hstyle.symm⟩

end Drawing

end ClassDiagram
