import ClassDiagram.Proofs.Listing.Forms
/-!
# Totals of a listing

The totals of a listing are two numbers of different things: the rows are counted by the types that
are declared, but what is in the diagram is counted by what was asked for. A type that is asked for
again is counted again, and a constructed type is counted although it has no row. So the second
number is that of the marked rows only if each entry is the name of a declared type, and no entry
asks for what another asks for.
-/

namespace ClassDiagram

/-- The number of marked rows. -/
def Listing.marked (l : Listing) : Nat := l.rows.countP (·.isDrawn)

/-- The number of entries in what is asked for; unless something is, every declared type is. -/
def Model.requests (m : Model) : Nat :=
  if m.diagram = [] then m.types.length else m.diagram.length

section Counting

variable {α : Type} [DecidableEq α] {l s : List α}

theorem length_filter_mem_le (hl : l.Nodup) : (l.filter (· ∈ s)).length ≤ s.length := by
  have hsub : l.filter (· ∈ s) ⊆ s := fun a ha => by simpa using List.of_mem_filter ha
  exact ((hl.filter _).subperm hsub).length_le

/-- All of `s` is counted if it has no repetition and lies in `l`. -/
theorem length_filter_mem_eq_iff (hl : l.Nodup) :
    (l.filter (· ∈ s)).length = s.length ↔ s.Nodup ∧ s ⊆ l := by
  have hsub : l.filter (· ∈ s) ⊆ s := fun a ha => by simpa using List.of_mem_filter ha
  constructor
  · intro hlength
    have hperm := ((hl.filter _).subperm hsub).perm_of_length_le (Nat.le_of_eq hlength.symm)
    refine ⟨hperm.nodup_iff.1 (hl.filter _), fun a ha => ?_⟩
    exact List.mem_of_mem_filter (hperm.mem_iff.2 ha)
  · rintro ⟨hs, hsl⟩
    have hsup : s ⊆ l.filter (· ∈ s) := fun a ha => by simp [ha, hsl ha]
    exact Nat.le_antisymm (length_filter_mem_le hl) (hs.subperm hsup).length_le

end Counting

namespace Model

variable {m : Model} {l : Loaded}

/-- The declared types as expressions. -/
def leaves (m : Model) : List TypeExpression := m.names.map fun n => .node n []

theorem nodup_leaves (hn : m.names.Nodup) : m.leaves.Nodup :=
  hn.map fun _ _ h => (TypeExpression.node.inj h).1

theorem mem_layout_of_mem_drawn {t : TypeExpression} (ht : t ∈ m.drawn) : t ∈ m.layout := by
  unfold drawn at ht
  split at ht
  · obtain ⟨n, hn, rfl⟩ := List.mem_map.1 ht
    exact mem_layoutOf.2 (.inl ⟨n, hn, rfl⟩)
  · obtain ⟨text, htext, hterm⟩ := List.mem_filterMap.1 ht
    exact mem_layout_of_term? (List.mem_append_right _ htext) hterm

theorem drawn_of_nil (hnil : m.diagram = []) : m.drawn = m.leaves := by
  simp [drawn, leaves, hnil]

theorem drawn_of_ne_nil (hne : m.diagram ≠ []) :
    m.drawn = m.diagram.filterMap (TypeExpression.term? m.names) := by
  simp [drawn, hne]

/-- An entry that is a name denotes the declared type of that name. -/
theorem term?_of_name (hwf : m.WellFormed) {text n : String} (htext : text ∈ m.diagram)
    (hn : TypeExpression.read text = .ok (.node n [])) :
    n ∈ m.names ∧ TypeExpression.term? m.names text = some (.node n []) := by
  obtain ⟨u, hu⟩ := Option.isSome_iff_exists.1 (hwf.diagram text htext)
  obtain ⟨e, he, hsettle⟩ := TypeExpression.term?_eq_some.1 hu
  obtain rfl := Except.ok.inj (he.symm.trans hn)
  obtain ⟨hmem, -⟩ := TypeExpression.settle?_nil.1 hsettle
  exact ⟨hmem, TypeExpression.term?_eq_name.2 ⟨hmem, hn⟩⟩

theorem drawn_subset_leaves_iff (hwf : m.WellFormed) (hne : m.diagram ≠ []) :
    m.drawn ⊆ m.leaves ↔
      ∀ text ∈ m.diagram, ∃ n, TypeExpression.read text = .ok (.node n []) := by
  rw [drawn_of_ne_nil hne]
  constructor
  · intro hsub text htext
    obtain ⟨u, hu⟩ := Option.isSome_iff_exists.1 (hwf.diagram text htext)
    obtain ⟨n, -, rfl⟩ := List.mem_map.1 (hsub (List.mem_filterMap.2 ⟨_, htext, hu⟩))
    exact ⟨n, (TypeExpression.term?_eq_name.1 hu).2⟩
  · intro hnames u hu
    obtain ⟨text, htext, hterm⟩ := List.mem_filterMap.1 hu
    obtain ⟨n, hn⟩ := hnames text htext
    obtain ⟨hmem, hname⟩ := term?_of_name hwf htext hn
    obtain rfl := Option.some.inj (hname.symm.trans hterm)
    exact List.mem_map_of_mem hmem

/-- Where the entries are names, what is drawn is what they are read as. -/
theorem map_ok_drawn (hwf : m.WellFormed) (hne : m.diagram ≠ [])
    (hnames : ∀ text ∈ m.diagram, ∃ n, TypeExpression.read text = .ok (.node n [])) :
    m.drawn.map .ok = m.diagram.map TypeExpression.read := by
  rw [drawn_of_ne_nil hne, List.map_filterMap, ← List.filterMap_eq_map]
  refine List.filterMap_congr fun text htext => ?_
  obtain ⟨n, hn⟩ := hnames text htext
  rw [(term?_of_name hwf htext hn).2, Option.map_some, Function.comp_apply, hn]

/-- What is drawn are declared types, each of them once, if and only if nothing is asked for or else
different names are. -/
theorem nodup_drawn_iff (hwf : m.WellFormed) : m.drawn.Nodup ∧ m.drawn ⊆ m.leaves ↔
    m.diagram = [] ∨ (∀ text ∈ m.diagram, ∃ n, TypeExpression.read text = .ok (.node n [])) ∧
      (m.diagram.map TypeExpression.read).Nodup := by
  by_cases hnil : m.diagram = []
  · rw [drawn_of_nil hnil]
    exact iff_of_true ⟨nodup_leaves hwf.names, List.Subset.refl _⟩ (.inl hnil)
  · rw [drawn_subset_leaves_iff hwf hnil, or_iff_right hnil, and_comm]
    refine and_congr_right fun hnames => ?_
    rw [← map_ok_drawn hwf hnil hnames, List.nodup_map_iff fun _ _ => Except.ok.inj]

namespace Placed

variable (hp : m.Placed l)

include hp

theorem mem_roots_iff_mem_drawn {i : Nat} {t : TypeDeclaration} (ht : m.types[i]? = some t) :
    .ofNat i ∈ l.roots ↔ .node t.name [] ∈ m.drawn := by
  have hleaf : TypeExpression.node t.name [] ∈ m.layout :=
    mem_layoutOf.2 (.inl ⟨_, name_mem ht, rfl⟩)
  rw [hp.roots, ← hp.place_at ht, List.mem_map]
  constructor
  · rintro ⟨u, hu, heq⟩
    exact hp.room.place_inj (mem_layout_of_mem_drawn hu) hleaf heq ▸ hu
  · intro hmem
    exact ⟨_, hmem, rfl⟩

theorem requested_eq : l.listing.requested = m.requests := by
  unfold requests
  split
  · rename_i hnil
    rw [Loaded.listing, hp.roots_of_nil hnil, List.length_map, List.length_range]
  · rename_i hne
    exact (hp.roots_of_ne_nil hne).length_eq.symm

theorem marked_eq (hl : m.load.result = .ok l) :
    l.listing.marked = (m.leaves.filter (· ∈ m.drawn)).length := by
  have hfst : m.types = m.types.zipIdx.map Prod.fst := by simp
  rw [← List.countP_eq_length_filter, leaves, names, List.map_map, List.countP_map, hfst,
    List.countP_map, Listing.marked, rows_of_load hl, List.countP_map]
  refine List.countP_congr fun p ht => ?_
  simp only [Function.comp_apply, List.contains_iff_mem, decide_eq_true_eq]
  exact hp.mem_roots_iff_mem_drawn (List.mem_zipIdx_iff_getElem?.1 ht)

end Placed

/-- A table ends in the totals, if there is one, and these are the number of declared types and that
of the entries in what is asked for. No more rows are marked than either of them, and as many as the
latter if and only if each entry is a name and no name is asked for twice. The marks in the document
are those of the table. -/
theorem totals_count_requests (hl : m.load.result = .ok l)
    (hsize : l.registry.size ≤ UInt32.size) :
    ((∃ text, l.listing.render false = some text) ↔
        ∀ t ∈ m.types, t.name.utf8ByteSize ≤ Listing.widest) ∧
      (∀ text, l.listing.render false = some text ↔ ∃ lines,
        l.listing.rows.mapM (Listing.rowText l.listing.width) = some lines ∧
          text = String.join lines ++ "\nTotal: " ++ toString m.types.length ++ " types (" ++
            toString m.requests ++ " in diagram)") ∧
      (∃ text v rows, l.listing.render true = some text ∧ Json.Value.read text = .ok v ∧
        Listing.ofJson? v = some (m.types.length, rows) ∧
          rows.countP (·.isDrawn) = l.listing.marked) ∧
      l.listing.marked ≤ m.types.length ∧ l.listing.marked ≤ m.requests ∧
      (l.listing.marked = m.requests ↔ m.diagram = [] ∨
        (∀ text ∈ m.diagram, ∃ n, TypeExpression.read text = .ok (.node n [])) ∧
          (m.diagram.map TypeExpression.read).Nodup) := by
  have hp := placed_of_load hl hsize
  have hlength : l.listing.rows.length = m.types.length := by simp [rows_of_load hl]
  have hleaves := nodup_leaves hp.wellFormed.names
  have hrequests : m.requests = m.drawn.length := by
    rw [← hp.requested_eq, Loaded.listing, hp.roots, List.length_map]
  refine ⟨exists_table_iff hl, fun text => ?_,
    ⟨_, _, _, rfl, Json.Value.read_prettyText _, ?_, rfl⟩, ?_, ?_, ?_⟩
  · show l.listing.text = some text ↔ _
    rw [← hlength, ← hp.requested_eq, Listing.text, Option.bind_eq_bind, Option.bind_eq_some_iff]
    refine exists_congr fun lines => and_congr_right fun _ => ?_
    rw [Option.pure_def, Option.some_inj, eq_comm]
  · rw [← hlength]
    exact Listing.ofJson?_toJson _
  · rw [← hlength]
    exact List.countP_le_length
  · rw [hp.marked_eq hl, hrequests]
    exact length_filter_mem_le hleaves
  · rw [hp.marked_eq hl, hrequests, length_filter_mem_eq_iff hleaves]
    exact nodup_drawn_iff hp.wellFormed

/-- Three types are asked for, and fewer rows are marked. -/
theorem thicket_totals : ∃ l, thicket.load.result = .ok l ∧ l.registry.size ≤ UInt32.size ∧
    thicket.requests = 3 ∧ l.listing.marked ≤ thicket.requests ∧
      l.listing.marked ≠ thicket.requests := by
  have hsize : thicket.load.result.toOption.map (fun l => l.registry.size) = some 4 := by
    decide +kernel
  obtain ⟨l, hl, hsize⟩ := Except.map_toOption_eq_some.1 hsize
  have hfits : l.registry.size ≤ UInt32.size := by
    rw [hsize]
    decide
  obtain ⟨-, -, -, -, hle, hiff⟩ := totals_count_requests hl hfits
  refine ⟨l, hl, hfits, rfl, hle, fun heq => ?_⟩
  rcases hiff.1 heq with hnil | ⟨-, hnodup⟩
  · simp [thicket] at hnil
  · exact absurd hnodup (by decide +kernel)

/-- A type that is asked for twice. -/
def twice : Model where
  types := [{ name := "A" }]
  diagram := ["A", "A"]

/-- The totals have two types in the diagram, but one row is marked. -/
theorem twice_counted : ∃ l, twice.load.result = .ok l ∧
    l.listing.render false = some "* A  class\n\nTotal: 1 types (2 in diagram)" ∧
      l.listing.rows.countP (·.isDrawn) = 1 := by
  have hl : twice.load.result.toOption.map
      (fun l => (l.listing.render false, l.listing.rows.countP (·.isDrawn))) =
        some (some "* A  class\n\nTotal: 1 types (2 in diagram)", 1) := by
    decide +kernel
  obtain ⟨l, hl, hshown⟩ := Except.map_toOption_eq_some.1 hl
  obtain ⟨htext, hmarked⟩ := Prod.mk.inj hshown
  exact ⟨l, hl, htext, hmarked⟩

end Model

end ClassDiagram
