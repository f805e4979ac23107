import ClassDiagram.Proofs.Fragment.Reader
import ClassDiagram.Proofs.Outline
/-!
# What is drawn can be read

As long as no name has a bracket in it, a class block has none but those at its two ends, whatever
else the names look like. So the reader finds in the text of a drawing the segments that were
written.
-/

namespace ClassDiagram

/-! ## Texts without brackets -/

@[simp] theorem unbracketed_append {a b : String} :
    Unbracketed (a ++ b) ↔ Unbracketed a ∧ Unbracketed b := by
  simp only [Unbracketed, String.toList_append, List.forall_mem_append]

theorem unbracketed_of_subset {a b : String} (hb : Unbracketed b) (h : a.toList ⊆ b.toList) :
    Unbracketed a := fun c hc => hb c (h hc)

theorem unbracketed_intercalate {sep : String} {l : List String} (hsep : Unbracketed sep)
    (hl : ∀ s ∈ l, Unbracketed s) : Unbracketed (sep.intercalate l) := by
  induction l with
  | nil => simp [Unbracketed]
  | cons a l ih =>
    obtain ⟨ha, hl⟩ := List.forall_mem_cons.1 hl
    cases l with
    | nil => simpa using ha
    | cons b l =>
      rw [String.intercalate_cons_cons, unbracketed_append, unbracketed_append]
      exact ⟨⟨ha, hsep⟩, ih hl⟩

theorem unbracketed_join {l : List String} (hl : ∀ s ∈ l, Unbracketed s) :
    Unbracketed (String.join l) := by
  intro c hc
  rw [String.toList_join] at hc
  obtain ⟨s, hs, hc⟩ := List.mem_flatMap.1 hc
  exact hl s hs c hc

theorem stripArity_subset (name : String) : (stripArity name).toList ⊆ name.toList := by
  simp only [stripArity]
  split
  · next _ _ _ head _ hdrop =>
    intro c hc
    have hmem : c ∈ name.toList.reverse.dropWhile Char.isDigit := by
      rw [hdrop]
      exact List.mem_cons_of_mem _ (by simpa using hc)
    exact List.mem_reverse.1 ((List.dropWhile_sublist _).subset hmem)
  · exact List.Subset.refl _

/-! ## Names and members -/

/-- There are no brackets in the names that the drawing may show. -/
structure Drawing.PlainNames (d : Drawing) : Prop where
  types : ∀ h t, d.registry.get? h = some t → Unbracketed t.name
  aliases : ∀ raw shown, d.naming.aliases.lookup raw = some shown → Unbracketed shown
  properties : ∀ h t, d.registry.get? h = some t →
    ∀ p ∈ t.properties, Unbracketed p.name
  methods : ∀ h t, d.registry.get? h = some t → ∀ m ∈ t.methods, Unbracketed m.name

theorem unbracketed_listText {entries : List MemberEntry}
    (he : ∀ e ∈ entries, Unbracketed e.name ∧ Unbracketed e.suffix) :
    Unbracketed (MemberEntry.listText entries) := by
  refine unbracketed_intercalate (by decide) fun s hs => ?_
  obtain ⟨e, hmem, rfl⟩ := List.mem_map.1 hs
  obtain ⟨hname, hsuffix⟩ := he e (List.mem_mergeSort.1 hmem)
  rw [MemberEntry.text, unbracketed_append, unbracketed_append]
  exact ⟨⟨by cases e.isPublic <;> decide, hname⟩, hsuffix⟩

namespace Drawing

variable {d : Drawing} {h : Handle} {s : String}

namespace PlainNames

variable (hd : d.PlainNames)

include hd

theorem lookup {name : String} (hname : Unbracketed name) :
    Unbracketed (d.naming.lookup name) := by
  have hstripped := unbracketed_of_subset hname (stripArity_subset name)
  unfold Naming.lookup
  split
  · exact hd.aliases _ _ ‹_›
  · cases hshown : d.naming.aliases.lookup (stripArity name) with
    | none => exact hstripped
    | some shown => exact hd.aliases _ _ hshown

theorem nameWithin {depth : Nat} (hs : d.registry.nameWithin d.naming depth h = .ok s) :
    Unbracketed s := by
  induction depth generalizing h s with
  | zero => simp [Registry.nameWithin] at hs
  | succ depth ih =>
    simp only [Registry.nameWithin, Except.bind_eq_ok, Registry.describe_eq_ok] at hs
    obtain ⟨t, ht, hs⟩ := hs
    have hname := hd.lookup (hd.types h t ht)
    split at hs
    · simp only [Except.bind_eq_ok, Except.pure_eq_ok] at hs
      obtain ⟨names, hnames, rfl⟩ := hs
      have harguments : Unbracketed (", ".intercalate names) := by
        refine unbracketed_intercalate (by decide) fun a ha => ?_
        obtain ⟨b, -, hb⟩ := Except.exists_of_mem_mapM hnames ha
        exact ih hb
      simp only [genericName, unbracketed_append]
      exact ⟨⟨⟨hname, by decide⟩, harguments⟩, by decide⟩
    · obtain rfl := Except.pure_eq_ok.1 hs
      exact hname

theorem interfaceMarks (hs : d.interfaceMarks h = .ok s) : Unbracketed s := by
  simp only [Drawing.interfaceMarks, Except.bind_eq_ok, Except.pure_eq_ok] at hs
  obtain ⟨t, -, marks, hmarks, rfl⟩ := hs
  refine unbracketed_join fun m hm => ?_
  obtain ⟨i, -, hi⟩ := Except.exists_of_mem_mapM hmarks hm
  simp only [Except.bind_eq_ok, Except.pure_eq_ok] at hi
  obtain ⟨name, hname, rfl⟩ := hi
  simp only [unbracketed_append]
  exact ⟨⟨by decide, hd.nameWithin hname⟩, by decide⟩

theorem propertyList (hs : d.registry.propertyList d.naming d.detail h = .ok s) :
    Unbracketed s := by
  unfold Registry.propertyList at hs
  split at hs
  · simp only [Except.bind_eq_ok, Registry.describe_eq_ok, Except.pure_eq_ok] at hs
    obtain ⟨t, ht, entries, hentries, rfl⟩ := hs
    refine unbracketed_listText fun e he => ?_
    obtain ⟨p, hp, hentry⟩ := Except.exists_of_mem_mapM hentries he
    simp only [Registry.propertyEntry, Except.bind_eq_ok, Except.pure_eq_ok] at hentry
    obtain ⟨type, htype, rfl⟩ := hentry
    refine ⟨hd.properties h t ht p (List.mem_of_mem_filter hp), ?_⟩
    exact unbracketed_append.2 ⟨by decide, hd.nameWithin htype⟩
  · obtain rfl := Except.ok.inj hs
    decide

theorem methodList (hs : d.registry.methodList d.detail h = .ok s) :
    Unbracketed s := by
  unfold Registry.methodList at hs
  split at hs
  · simp only [Except.bind_eq_ok, Registry.describe_eq_ok, Except.pure_eq_ok] at hs
    obtain ⟨t, ht, rfl⟩ := hs
    refine unbracketed_listText fun e he => ?_
    obtain ⟨m, hm, rfl⟩ := List.mem_map.1 he
    exact ⟨hd.methods h t ht m (List.mem_of_mem_filter hm), (by decide : Unbracketed "()")⟩
  · obtain rfl := Except.ok.inj hs
    decide

omit hd in
theorem compartment {list : String} (hl : Unbracketed list) :
    Unbracketed (Drawing.compartment list) := by
  unfold Drawing.compartment
  split
  · decide
  · exact unbracketed_append.2 ⟨by decide, hl⟩

/-- A class block is a block. -/
theorem isBlock {b : String} (hb : d.block h = .ok b) : IsBlock b := by
  simp only [Drawing.block, Except.bind_eq_ok, Except.pure_eq_ok] at hb
  obtain ⟨marks, hmarks, name, hname, properties, hproperties, methods, hmethods, rfl⟩ := hb
  refine ⟨marks ++ name ++ Drawing.compartment properties ++ Drawing.compartment methods, ?_, ?_⟩
  · simp only [unbracketed_append]
    exact ⟨⟨⟨hd.interfaceMarks hmarks, hd.nameWithin hname⟩,
      compartment (hd.propertyList hproperties)⟩, compartment (hd.methodList hmethods)⟩
  · simp only [String.append_assoc]

end PlainNames

end Drawing

/-! ## Segments -/

namespace ShownSegment

/-- The segment shows an edge. -/
def isJoined : ShownSegment → Bool
  | alone _ => false
  | joined .. => true

end ShownSegment

/-- What its text shows of a segment. -/
def Segment.shown : Segment → ShownSegment
  | alone b => .alone b
  | joined e b b' => .joined b e.kind b'

theorem Segment.text_shown (s : Segment) : s.shown.text = s.text := by
  cases s <;> rfl

theorem Fragment.text_eq_shown (f : Fragment) :
    f.text = ",".intercalate ((f.segments.map Segment.shown).map ShownSegment.text) := by
  simp only [Fragment.text, List.map_map, Function.comp_def, Segment.text_shown]

/-- The class that stands alone in the part. -/
def Part.alone? : Part → Option Handle
  | alone h => some h
  | joined _ => none

namespace Drawing

variable {d : Drawing}

theorem hasBlocks_of_segment (hd : d.PlainNames) {p : Part} {s : Segment}
    (hs : p.segment d = .ok s) : s.shown.HasBlocks := by
  cases p with
  | alone h =>
    simp only [Part.segment, Except.bind_eq_ok, Except.pure_eq_ok] at hs
    obtain ⟨b, hb, rfl⟩ := hs
    exact hd.isBlock hb
  | joined e =>
    simp only [Part.segment, Except.bind_eq_ok, Except.pure_eq_ok] at hs
    obtain ⟨b, hb, b', hb', rfl⟩ := hs
    exact ⟨hd.isBlock hb, hd.isBlock hb'⟩

/-- The segment shows the edge: it has the blocks of the two ends and the mark of the kind. -/
def ShowsEdge (d : Drawing) (e : Edge) (s : ShownSegment) : Prop :=
  ∃ b b', d.block e.source = .ok b ∧ d.block e.target = .ok b' ∧ s = .joined b e.kind b'

/-- The segment shows the class alone: it is its block. -/
def ShowsAlone (d : Drawing) (h : Handle) (s : ShownSegment) : Prop :=
  ∃ b, d.block h = .ok b ∧ s = .alone b

/-- Of the segments of parts, those of edges show the edges and the others the classes that stand
alone. -/
theorem shown_of_segments {ps : List Part} {ss : List Segment}
    (h : ps.mapM (Part.segment d) = .ok ss) :
    List.Forall₂ d.ShowsEdge (ss.filterMap Segment.edge?)
        ((ss.map Segment.shown).filter (·.isJoined)) ∧
      List.Forall₂ d.ShowsAlone (ps.filterMap Part.alone?)
        ((ss.map Segment.shown).filter (!·.isJoined)) := by
  rw [Except.mapM_eq_ok] at h
  induction h with
  | nil => exact ⟨.nil, .nil⟩
  | @cons p s ps ss hs _ ih =>
    obtain ⟨hedges, hloners⟩ := ih
    cases p with
    | alone h =>
      simp only [Part.segment, Except.bind_eq_ok, Except.pure_eq_ok] at hs
      obtain ⟨b, hb, rfl⟩ := hs
      exact ⟨hedges, .cons ⟨b, hb, rfl⟩ hloners⟩
    | joined e =>
      simp only [Part.segment, Except.bind_eq_ok, Except.pure_eq_ok] at hs
      obtain ⟨b, hb, b', hb', rfl⟩ := hs
      exact ⟨.cons ⟨b, b', hb, hb', rfl⟩ hedges, hloners⟩

/-! ## Classes that stand alone -/

/-- The type is a class that has no edge where it is requested for the first time, or again. -/
def isLoner (d : Drawing) (first : Bool) (h : Handle) : Bool :=
  match d.registry.get? h with
  | some t => t.kind.isDrawn && (d.edgesAt first h t).isEmpty
  | none => false

/-- The classes that have no edge where they are requested, in the order of the requested types. -/
def loners (d : Drawing) : List Handle :=
  (d.requested.zipIdx.filter fun (h, i) => d.isLoner (h ∉ d.requested.take i) h).map Prod.fst

theorem filterMap_alone?_partsAt {first : Bool} {h : Handle} :
    (d.partsAt first h).filterMap Part.alone? = if d.isLoner first h then [h] else [] := by
  unfold partsAt isLoner
  cases d.registry.get? h with
  | none => rfl
  | some t =>
    by_cases hk : t.kind.isDrawn = true
    · cases he : d.edgesAt first h t <;> simp [hk, he, Part.alone?]
    · simp [hk]

theorem filterMap_alone?_parts : d.parts.filterMap Part.alone? = d.loners := by
  simp only [parts, loners, List.filterMap_flatMap, filterMap_alone?_partsAt]
  generalize d.requested.zipIdx = l
  induction l with
  | nil => rfl
  | cons x l ih =>
    rw [List.flatMap_cons, List.filter_cons, ih]
    split <;> rfl

/-- The text of a drawing without brackets in names can be read back. The reader finds the edges of
the fragment in their order, each as its mark between the blocks of its two ends, and besides them
the blocks of the classes that have no edge where they are requested. -/
theorem text_is_read_back {style : Style} {f : Fragment} (hd : d.PlainNames)
    (hf : (d.fragment style).result = .ok f) :
    ∃ read, readSegments? f.text = some read ∧ (f.text = "" ↔ read = []) ∧
      List.Forall₂ d.ShowsEdge f.edges (read.filter (·.isJoined)) ∧
      List.Forall₂ d.ShowsAlone d.loners (read.filter (!·.isJoined)) := by
  obtain ⟨-, hsegments, -⟩ := fragment_eq_ok.1 hf
  have hblocks : ∀ s ∈ f.segments.map Segment.shown, s.HasBlocks := by
    intro _ hmem
    obtain ⟨s, hs, rfl⟩ := List.mem_map.1 hmem
    obtain ⟨p, -, hp⟩ := Except.exists_of_mem_mapM hsegments hs
    exact hasBlocks_of_segment hd hp
  have hread : readSegments? f.text = some (f.segments.map Segment.shown) := by
    rw [f.text_eq_shown]
    exact readSegments?_intercalate hblocks
  obtain ⟨hedges, hloners⟩ := shown_of_segments hsegments
  refine ⟨_, hread, ⟨fun hempty => ?_, fun hnil => ?_⟩, hedges, filterMap_alone?_parts ▸ hloners⟩
  · rw [hempty] at hread
    exact (Option.some.inj hread).symm
  · rw [f.text_eq_shown, hnil]
    rfl

/-- Types with names that look like pieces of a fragment. One is requested twice, and one has no
edge. -/
def curios : Drawing where
  registry :=
    { slots := #[
        { name := "Box,Lid", kind := .reference, base := some (.ofNat 1), interfaces := [.ofNat 3],
          properties := [{ name := "a|b", valueType := .ofNat 4 }],
          methods := [{ name := "1-0..*", visibility := .pub }] },
        { name := "Raw", kind := .reference },
        { name := "Toy;Top", kind := .reference,
          properties := [{ name := "^-", valueType := .ofNat 0, settable := false }] },
        { name := "I<J>", kind := .interface },
        { name := "Pair\x602", kind := .reference, definition := some (.ofNat 5),
          arguments := [.ofNat 2, .ofNat 1], enumerable := true },
        { name := "Pair\x602", kind := .reference, enumerable := true }] }
  naming := .ofList [("Raw", "x,->y")]
  requested := [.ofNat 0, .ofNat 3, .ofNat 1, .ofNat 0, .ofNat 2]
  detail := .all

/-- The class block of the box. -/
def boxBlock : String := "[<<I<J>>>;Box,Lid|+ a|b : Pair<Toy;Top, x,->y>|+ 1-0..*()]"

/-- The class block of the toy. -/
def toyBlock : String := "[Toy;Top|- ^- : Box,Lid]"

theorem plainNames_curios : curios.PlainNames := by
  have hslots : ∀ t ∈ curios.registry.slots.toList, Unbracketed t.name ∧
      (∀ p ∈ t.properties, Unbracketed p.name) ∧ ∀ m ∈ t.methods, Unbracketed m.name := by decide
  have hget : ∀ h t, curios.registry.get? h = some t → t ∈ curios.registry.slots.toList :=
    fun h t ht => Array.mem_toList_iff.2 (Array.mem_of_getElem? ht)
  refine ⟨fun h t ht => (hslots t (hget h t ht)).1, fun raw shown hshown => ?_,
    fun h t ht => (hslots t (hget h t ht)).2.1, fun h t ht => (hslots t (hget h t ht)).2.2⟩
  have haliases : curios.naming.aliases = [("Raw", "x,->y")] := rfl
  rw [haliases, List.lookup_cons] at hshown
  split at hshown
  · obtain rfl := Option.some.inj hshown
    decide
  · simp at hshown

/-- The names are not taken for pieces of the fragment. -/
theorem curios_are_read_back :
    curios.PlainNames ∧ ∃ f, (curios.fragment {}).result = .ok f ∧
      f.text = ",".intercalate [boxBlock ++ "^-" ++ "[x,->y]", boxBlock ++ "1-0..*" ++ toyBlock,
        "[x,->y]", boxBlock ++ "1-0..*" ++ toyBlock, toyBlock ++ "->" ++ boxBlock] ∧
      ∃ read, readSegments? f.text = some read ∧ read ≠ [] ∧
        List.Forall₂ curios.ShowsEdge f.edges (read.filter (·.isJoined)) ∧
        List.Forall₂ curios.ShowsAlone [.ofNat 1] (read.filter (!·.isJoined)) := by
  have hf : (curios.fragment {}).result = .ok
      { segments := [
          .joined ⟨.ofNat 0, .ofNat 1, .inherits⟩ boxBlock "[x,->y]",
          .joined ⟨.ofNat 0, .ofNat 2, .aggregates⟩ boxBlock toyBlock,
          .alone "[x,->y]",
          .joined ⟨.ofNat 0, .ofNat 2, .aggregates⟩ boxBlock toyBlock,
          .joined ⟨.ofNat 2, .ofNat 0, .associates⟩ toyBlock boxBlock]
        style := {} } := by decide +kernel
  have hloners : curios.loners = [.ofNat 1] := by decide
  obtain ⟨read, hread, hempty, hedges, halone⟩ := text_is_read_back plainNames_curios hf
  have hne : read ≠ [] := fun hnil => absurd (hempty.2 hnil) (by decide +kernel)
  exact ⟨plainNames_curios, _, hf, by decide +kernel, read, hread, hne, hedges, hloners ▸ halone⟩

end Drawing

end ClassDiagram
