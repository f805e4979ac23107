import ClassDiagram.Drawing
import ClassDiagram.Proofs.Closed
/-!
# Renaming handles

A drawing does not depend on the numbers of the slots. If the slots of a registry are moved and
every handle that is stored in them follows, then what is drawn keeps its text, its edges have their
ends renamed, and a failure tells the renamed handle.
-/

namespace ClassDiagram

/-! ## Renamed data -/

def Property.rename (ρ : Handle → Handle) (p : Property) : Property :=
  { p with valueType := ρ p.valueType }

/-- The description with every handle renamed. -/
def Description.rename (ρ : Handle → Handle) (d : Description) : Description :=
  { d with
    base := d.base.map ρ
    interfaces := d.interfaces.map ρ
    properties := d.properties.map (Property.rename ρ)
    definition := d.definition.map ρ
    arguments := d.arguments.map ρ }

theorem Description.references_rename (ρ : Handle → Handle) (d : Description) :
    (d.rename ρ).references = d.references.map ρ := by
  simp [references, rename, Property.rename, Option.toList_map, Function.comp_def]

def Failure.rename (ρ : Handle → Handle) : Failure → Failure
  | unknownType h => unknownType (ρ h)
  | endlessName h => endlessName (ρ h)
  | f => f

def Edge.rename (ρ : Handle → Handle) (e : Edge) : Edge :=
  { e with source := ρ e.source, target := ρ e.target }

def Segment.rename (ρ : Handle → Handle) : Segment → Segment
  | alone block => alone block
  | joined edge source target => joined (edge.rename ρ) source target

def Fragment.rename (ρ : Handle → Handle) (f : Fragment) : Fragment :=
  { f with segments := f.segments.map (Segment.rename ρ) }

@[simp] theorem Segment.text_rename (ρ : Handle → Handle) (s : Segment) :
    (s.rename ρ).text = s.text := by
  cases s <;> rfl

/-- Renaming leaves the text as it is. -/
@[simp] theorem Fragment.text_rename (ρ : Handle → Handle) (f : Fragment) :
    (f.rename ρ).text = f.text := by
  simp [text, rename, Function.comp_def]

/-- Renaming reaches the ends of every edge. -/
@[simp] theorem Fragment.edges_rename (ρ : Handle → Handle) (f : Fragment) :
    (f.rename ρ).edges = f.edges.map (Edge.rename ρ) := by
  have hedge : ∀ s : Segment, (s.rename ρ).edge? = s.edge?.map (Edge.rename ρ) := by
    intro s
    cases s <;> rfl
  simp [edges, rename, List.filterMap_map, List.map_filterMap, hedge]

/-! ## Renamings -/

/-- Outcomes that agree up to a renaming of handles. -/
abbrev Agrees (ρ : Handle → Handle) {α β : Type} (R : α → β → Prop) :
    Except Failure α → Except Failure β → Prop :=
  Except.Agree (fun f g => g = f.rename ρ) R

/-- The renaming takes the part `S` of a registry into another registry. No handle leads out of
that part. -/
structure Registry.Renaming (ρ : Handle → Handle) (S : Handle → Prop) (r r' : Registry) : Prop where
  injective : ∀ a b, S a → S b → ρ a = ρ b → a = b
  get? : ∀ h, S h → r'.get? (ρ h) = (r.get? h).map (Description.rename ρ)
  references : ∀ h d, S h → r.get? h = some d → ∀ a ∈ d.references, S a
  size : r.size ≤ r'.size
  names : ∀ n h, S h → r.nameWithin n (r'.size + 1) h = r.displayName n h

namespace Registry.Renaming

variable {ρ : Handle → Handle} {S : Handle → Prop} {r r' : Registry} (hR : r.Renaming ρ S r')
  {h a : Handle} {l : List Handle}

include hR

theorem mem_map (hl : ∀ a ∈ l, S a) (ha : S a) : ρ a ∈ l.map ρ ↔ a ∈ l := by
  constructor
  · intro hmem
    obtain ⟨b, hb, heq⟩ := List.mem_map.1 hmem
    exact hR.injective b a (hl b hb) ha heq ▸ hb
  · exact List.mem_map_of_mem

theorem describe (hh : S h) :
    Agrees ρ (fun d e => r.get? h = some d ∧ e = d.rename ρ) (r.describe h)
      (r'.describe (ρ h)) := by
  unfold Registry.describe
  rw [hR.get? h hh]
  cases r.get? h with
  | none => exact .error rfl
  | some d => exact .ok ⟨rfl, rfl⟩

theorem climb (steps : Nat) (hl : ∀ a ∈ l, S a) (hh : S h) :
    Agrees ρ (fun above above' => above' = above.map ρ ∧ ∀ a ∈ above, S a)
      (r.climb steps l h) (r'.climb steps (l.map ρ) (ρ h)) := by
  induction steps generalizing l h with
  | zero => exact .ok ⟨rfl, by simp⟩
  | succ steps ih =>
    refine (hR.describe hh).bind ?_
    rintro d _ ⟨hd, rfl⟩
    cases hb : d.base with
    | none =>
      simp only [Description.rename, hb]
      exact .ok ⟨rfl, by simp⟩
    | some base =>
      have hbase : S base := hR.references h d hh hd base (Description.mem_references_of_base hb)
      simp only [Description.rename, hb, Option.map_some, hR.mem_map hl hbase]
      by_cases hmem : base ∈ l
      · simp only [if_pos hmem]
        exact .ok ⟨rfl, by simp⟩
      · simp only [if_neg hmem]
        have hrest := ih (List.forall_mem_cons.2 ⟨hbase, hl⟩) hbase
        rw [List.map_cons] at hrest
        refine hrest.bind ?_
        rintro above _ ⟨rfl, habove⟩
        exact .ok ⟨rfl, List.forall_mem_cons.2 ⟨hbase, habove⟩⟩

theorem ancestors (hh : S h) :
    Agrees ρ (fun above above' => above' = above.map ρ ∧ ∀ a ∈ above, S a)
      (r.ancestors h) (r'.ancestors (ρ h)) := by
  -- The walk needs no more steps in the larger registry.
  have hsteps : r'.size + 1 = r.size + 1 + (r'.size - r.size) := by
    have hsize := hR.size
    omega
  have hclimb := hR.climb (l := [h]) (r'.size + 1) (by simpa using hh) hh
  rw [hsteps, climb_eq_ancestors, ← hsteps] at hclimb
  exact hclimb

theorem nameWithin (n : Naming) (depth : Nat) (hh : S h) :
    Agrees ρ Eq (r.nameWithin n depth h) (r'.nameWithin n depth (ρ h)) := by
  induction depth generalizing h with
  | zero => exact .error rfl
  | succ depth ih =>
    refine (hR.describe hh).bind ?_
    rintro d _ ⟨hd, rfl⟩
    have hgeneric : (d.rename ρ).isGeneric = d.isGeneric := by
      simp [Description.isGeneric, Description.rename]
    rw [hgeneric]
    cases d.isGeneric with
    | false => exact .ok rfl
    | true =>
      -- Handles are compared nowhere in a name, so the arguments agree one by one.
      have hargs : List.Forall₂ (fun a b => Agrees ρ Eq (r.nameWithin n depth a)
          (r'.nameWithin n depth b)) d.arguments (d.arguments.map ρ) := by
        rw [List.forall₂_map_right_iff, List.forall₂_same]
        intro a ha
        exact ih (hR.references h d hh hd a (Description.mem_references_of_mem_arguments ha))
      refine (Except.Agree.mapM hargs).bind fun names names' hnames => ?_
      rw [List.forall₂_eq_eq_eq] at hnames
      exact .ok (hnames ▸ rfl)

theorem displayName (n : Naming) (hh : S h) :
    Agrees ρ Eq (r.displayName n h) (r'.displayName n (ρ h)) := by
  rw [← hR.names n h hh]
  exact hR.nameWithin n _ hh

theorem propertyList (n : Naming) (detail : Detail) (hh : S h) :
    Agrees ρ Eq (r.propertyList n detail h) (r'.propertyList n detail (ρ h)) := by
  unfold Registry.propertyList
  cases detail.wantsProperties with
  | false => exact .ok rfl
  | true =>
    refine (hR.describe hh).bind ?_
    rintro d _ ⟨hd, rfl⟩
    have hlisted : listedProperties (d.rename ρ) detail =
        (listedProperties d detail).map (Property.rename ρ) := by
      simp [listedProperties, Description.rename, List.filter_map, Function.comp_def,
        Property.rename]
    rw [hlisted]
    have hentries : List.Forall₂ (fun p q => Agrees ρ Eq (r.propertyEntry n p)
        (r'.propertyEntry n q)) (listedProperties d detail)
          ((listedProperties d detail).map (Property.rename ρ)) := by
      rw [List.forall₂_map_right_iff, List.forall₂_same]
      intro p hp
      have hvalue : S p.valueType := by
        have hmem := Description.mem_references_of_mem_properties (List.mem_of_mem_filter hp)
        exact hR.references h d hh hd _ hmem
      refine (hR.displayName n hvalue).bind fun type type' htype => ?_
      exact .ok (htype ▸ rfl)
    refine (Except.Agree.mapM hentries).bind fun es es' hes => ?_
    rw [List.forall₂_eq_eq_eq] at hes
    exact .ok (hes ▸ rfl)

theorem methodList (detail : Detail) (hh : S h) :
    Agrees ρ Eq (r.methodList detail h) (r'.methodList detail (ρ h)) := by
  unfold Registry.methodList
  cases detail.wantsMethods with
  | false => exact .ok rfl
  | true =>
    refine (hR.describe hh).bind ?_
    rintro d _ ⟨-, rfl⟩
    exact .ok rfl

end Registry.Renaming

/-! ## Renamed drawings -/

/-- The same drawing from a registry with renamed handles. -/
def Drawing.renamed (d : Drawing) (ρ : Handle → Handle) (r' : Registry) : Drawing :=
  { d with registry := r', requested := d.requested.map ρ }

namespace Drawing

variable {ρ : Handle → Handle} {S : Handle → Prop} {d : Drawing} {r' : Registry} {h : Handle}
  (hR : d.registry.Renaming ρ S r') (hreq : ∀ a ∈ d.requested, S a)

include hR hreq

theorem mem_requested_renamed (hh : S h) : ρ h ∈ (d.renamed ρ r').requested ↔ h ∈ d.requested :=
  hR.mem_map hreq hh

theorem interfaceMarks_renamed (hh : S h) :
    Agrees ρ Eq (d.interfaceMarks h) ((d.renamed ρ r').interfaceMarks (ρ h)) := by
  refine (hR.describe hh).bind ?_
  rintro t _ ⟨ht, rfl⟩
  have hS : ∀ i ∈ t.interfaces, S i := by
    intro i hi
    exact hR.references h t hh ht i (Description.mem_references_of_mem_interfaces hi)
  -- The renaming confuses no two types of the part, so the same interfaces are requested.
  have hfilter : (t.rename ρ).interfaces.filter ((d.renamed ρ r').requested.contains ·) =
      (t.interfaces.filter (d.requested.contains ·)).map ρ := by
    rw [Description.rename, List.filter_map]
    congr 1
    refine List.filter_congr fun i hi => ?_
    simpa using mem_requested_renamed hR hreq (hS i hi)
  rw [hfilter]
  refine Except.Agree.bind (R := List.Forall₂ Eq) (Except.Agree.mapM ?_)
    fun marks marks' hmarks => ?_
  · rw [List.forall₂_map_right_iff, List.forall₂_same]
    intro i hi
    refine (hR.displayName d.naming (hS i (List.mem_of_mem_filter hi))).bind fun s s' hs => ?_
    exact .ok (hs ▸ rfl)
  · rw [List.forall₂_eq_eq_eq] at hmarks
    exact .ok (hmarks ▸ rfl)

theorem block_renamed (hh : S h) :
    Agrees ρ Eq (d.block h) ((d.renamed ρ r').block (ρ h)) := by
  refine (interfaceMarks_renamed hR hreq hh).bind fun marks _ hmarks => ?_
  refine (hR.displayName d.naming hh).bind fun name _ hname => ?_
  refine (hR.propertyList d.naming d.detail hh).bind fun properties _ hproperties => ?_
  refine (hR.methodList d.detail hh).bind fun methods _ hmethods => ?_
  subst hmarks hname hproperties hmethods
  exact .ok rfl

/-! ## Renamed edges -/

omit hreq in
theorem rename_inj_edge {e f : Edge} (he : S e.source ∧ S e.target) (hf : S f.source ∧ S f.target) :
    e.rename ρ = f.rename ρ ↔ e = f := by
  obtain ⟨s, t, k⟩ := e
  obtain ⟨s', t', k'⟩ := f
  simp only [Edge.rename, Edge.mk.injEq]
  constructor
  · rintro ⟨hs, ht, hk⟩
    exact ⟨hR.injective s s' he.1 hf.1 hs, hR.injective t t' he.2 hf.2 ht, hk⟩
  · rintro ⟨rfl, rfl, rfl⟩
    exact ⟨rfl, rfl, rfl⟩

/-- The second ledger has an edge renamed if and only if the first one has the edge. -/
def Follows (ρ : Handle → Handle) (S : Handle → Prop) (l l' : Ledger) : Prop :=
  ∀ e, S e.source ∧ S e.target → l'.contains (e.rename ρ) = l.contains e

omit hreq in
theorem follows_insert {l l' : Ledger} {e : Edge} (hl : Follows ρ S l l')
    (he : S e.source ∧ S e.target) : Follows ρ S (l.insert e) (l'.insert (e.rename ρ)) := by
  intro f hf
  simp only [Ledger.contains_insert, hl f hf, rename_inj_edge hR hf he]

theorem joinedSegment_renamed {e : Edge} (he : S e.source ∧ S e.target) :
    Agrees ρ (fun s s' => s' = s.rename ρ) (d.joinedSegment e).result
      ((d.renamed ρ r').joinedSegment (e.rename ρ)).result := by
  simp only [joinedSegment, Traced.result_bind, Traced.result_report, Traced.result_liftM,
    Traced.result_pure, Except.ok_bind]
  refine (block_renamed hR hreq he.1).bind fun source _ hsource => ?_
  refine (block_renamed hR hreq he.2).bind fun target _ htarget => ?_
  subst hsource htarget
  exact .ok rfl

theorem inheritance_renamed {ancestors : List Handle} {l l' : Ledger} (hh : S h)
    (hancestors : ∀ a ∈ ancestors, S a) (hl : Follows ρ S l l') :
    Agrees ρ (fun p p' => p'.1 = p.1.map (Segment.rename ρ) ∧ Follows ρ S p.2 p'.2)
      (d.inheritance h ancestors l).result
      ((d.renamed ρ r').inheritance (ρ h) (ancestors.map ρ) l').result := by
  induction ancestors generalizing l l' with
  | nil => exact .ok ⟨rfl, hl⟩
  | cons a rest ih =>
    obtain ⟨ha, hrest⟩ := List.forall_mem_cons.1 hancestors
    have he : S h ∧ S a := ⟨hh, ha⟩
    -- Both ledgers have the edge, or neither.
    have hknown : l'.contains ⟨ρ h, ρ a, .inherits⟩ = l.contains ⟨h, a, .inherits⟩ :=
      hl ⟨h, a, .inherits⟩ he
    simp only [inheritance, List.map_cons, mem_requested_renamed hR hreq ha, hknown]
    by_cases hmem : a ∈ d.requested
    · simp only [hmem, not_true_eq_false, if_false]
      cases l.contains ⟨h, a, .inherits⟩ with
      | true => simpa using ih hrest hl
      | false =>
        simp only [Bool.false_eq_true, if_false, Traced.result_bind, Traced.result_pure]
        refine (joinedSegment_renamed hR hreq (e := ⟨h, a, .inherits⟩) he).bind ?_
        rintro s _ rfl
        refine (ih hrest (follows_insert hR hl (e := ⟨h, a, .inherits⟩) he)).bind ?_
        rintro ⟨ss, last⟩ ⟨_, last'⟩ ⟨rfl, hlast⟩
        exact .ok ⟨rfl, hlast⟩
    · simpa [hmem] using ih hrest hl

theorem propertyEdge?_renamed {p : Property} (hh : S h) (hp : S p.valueType) :
    Agrees ρ (fun x y => y = x.map (Edge.rename ρ) ∧ ∀ e ∈ x, S e.source ∧ S e.target)
      (d.propertyEdge? h p) ((d.renamed ρ r').propertyEdge? (ρ h) (p.rename ρ)) := by
  simp only [propertyEdge?, Property.rename, mem_requested_renamed hR hreq hp]
  by_cases hmem : p.valueType ∈ d.requested
  · simp only [if_pos hmem]
    exact .ok ⟨rfl, by simp [hh, hp]⟩
  · simp only [if_neg hmem]
    refine (hR.describe hp).bind ?_
    rintro t _ ⟨ht, rfl⟩
    cases hargs : t.arguments with
    | nil =>
      simp only [Description.rename, hargs]
      exact .ok ⟨rfl, by simp⟩
    | cons element rest =>
      have helement : S element :=
        hR.references _ t hp ht _ (Description.mem_references_of_mem_arguments (by simp [hargs]))
      simp only [Description.rename, hargs, List.map_cons, mem_requested_renamed hR hreq helement]
      by_cases hmany : t.enumerable ∧ element ∈ d.requested
      · simp only [if_pos hmany]
        exact .ok ⟨rfl, by simp [hh, helement]⟩
      · simp only [if_neg hmany]
        exact .ok ⟨rfl, by simp⟩

theorem associations_renamed {ps : List Property} (hh : S h) (hps : ∀ p ∈ ps, S p.valueType) :
    Agrees ρ (fun ss ss' => ss' = ss.map (Segment.rename ρ)) (d.associations h ps).result
      ((d.renamed ρ r').associations (ρ h) (ps.map (Property.rename ρ))).result := by
  induction ps with
  | nil => exact .ok rfl
  | cons p ps ih =>
    obtain ⟨hp, hps⟩ := List.forall_mem_cons.1 hps
    simp only [associations, List.map_cons, Traced.result_bind, Traced.result_liftM]
    refine (propertyEdge?_renamed hR hreq hh hp).bind ?_
    rintro x _ ⟨rfl, hx⟩
    cases x with
    | none => exact ih hps
    | some e =>
      simp only [Option.map_some, Traced.result_bind, Traced.result_pure]
      refine (joinedSegment_renamed hR hreq (hx e rfl)).bind ?_
      rintro s _ rfl
      refine (ih hps).bind ?_
      rintro ss _ rfl
      exact .ok rfl

theorem root_renamed {l l' : Ledger} (hh : S h) (hl : Follows ρ S l l') :
    Agrees ρ (fun p p' => p'.1 = p.1.map (Segment.rename ρ) ∧ Follows ρ S p.2 p'.2)
      (d.root h l).result ((d.renamed ρ r').root (ρ h) l').result := by
  simp only [root, Traced.result_bind, Traced.result_liftM]
  refine (hR.describe hh).bind ?_
  rintro t _ ⟨ht, rfl⟩
  have hkind : (t.rename ρ).kind = t.kind := rfl
  rw [hkind]
  by_cases hk : t.kind.isDrawn
  · simp only [if_pos hk, Traced.result_bind, Traced.result_liftM]
    refine (hR.ancestors hh).bind ?_
    rintro above _ ⟨rfl, habove⟩
    refine (inheritance_renamed hR hreq hh habove hl).bind ?_
    rintro ⟨up, last⟩ ⟨_, last'⟩ ⟨rfl, hlast⟩
    have hps : ∀ p ∈ t.properties, S p.valueType := by
      intro p hp
      exact hR.references h t hh ht _ (Description.mem_references_of_mem_properties hp)
    refine (associations_renamed hR hreq hh hps).bind ?_
    rintro across _ rfl
    rw [← List.map_append]
    cases up ++ across with
    | nil =>
      simp only [List.map_nil, Traced.result_bind, Traced.result_liftM, Traced.result_pure]
      refine (block_renamed hR hreq hh).bind ?_
      rintro block _ rfl
      exact .ok ⟨rfl, hlast⟩
    | cons s ss => exact .ok ⟨rfl, hlast⟩
  · simp only [if_neg hk, Traced.result_bind, Traced.result_report, Traced.result_pure,
      Except.ok_bind]
    exact .ok ⟨rfl, hl⟩

theorem roots_renamed {hs : List Handle} {l l' : Ledger} (hhs : ∀ a ∈ hs, S a)
    (hl : Follows ρ S l l') :
    Agrees ρ (fun p p' => p'.1 = p.1.map (Segment.rename ρ) ∧ Follows ρ S p.2 p'.2)
      (d.roots hs l).result ((d.renamed ρ r').roots (hs.map ρ) l').result := by
  induction hs generalizing l l' with
  | nil => exact .ok ⟨rfl, hl⟩
  | cons h hs ih =>
    obtain ⟨hh, hhs⟩ := List.forall_mem_cons.1 hhs
    simp only [roots, List.map_cons, Traced.result_bind, Traced.result_pure]
    refine (root_renamed hR hreq hh hl).bind ?_
    rintro ⟨here, next⟩ ⟨_, next'⟩ ⟨rfl, hnext⟩
    refine (ih hhs hnext).bind ?_
    rintro ⟨there, last⟩ ⟨_, last'⟩ ⟨rfl, hlast⟩
    exact .ok ⟨by simp, hlast⟩

/-- A drawing and its renaming agree: they fail alike, or the fragment is the same up to the names
of the handles. -/
theorem fragment_renamed (style : Style) :
    Agrees ρ (fun f f' => f' = f.rename ρ) (d.fragment style).result
      ((d.renamed ρ r').fragment style).result := by
  have hempty : Follows ρ S .empty .empty := fun _ _ => rfl
  simp only [fragment, Traced.result_within, Traced.result_bind, Traced.result_report,
    Traced.result_pure]
  refine (roots_renamed hR hreq hreq hempty).bind ?_
  rintro ⟨ss, last⟩ ⟨_, last'⟩ ⟨rfl, -⟩
  exact .ok rfl

end Drawing

end ClassDiagram
