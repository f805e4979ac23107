import ClassDiagram.Proofs.Failing
import ClassDiagram.Proofs.Skeleton
/-!
# Aliases

A table of aliases is as good as other names for the types. What a name is shown as reaches the text
by way of class blocks alone: as the title of a block, as the mark of an interface, and as the type
of a property, and in each of them at any depth of arguments. Main statement: a drawing with a table
is the drawing without one from a registry whose slots bear the names that the table shows.
-/

namespace ClassDiagram

/-! ## Registries under other names -/

/-- The description under another name. -/
def Description.called (g : String → String) (t : Description) : Description :=
  { t with name := g t.name }

namespace Registry

/-- The registry with another name in every slot. -/
def called (g : String → String) (r : Registry) : Registry :=
  { r with slots := r.slots.map (Description.called g) }

variable {g : String → String} {r : Registry} {n n' : Naming} {h : Handle} {detail : Detail}

@[simp] theorem size_called : (r.called g).size = r.size := by simp [size, called]

/-- Names are no part of a skeleton. -/
theorem skeleton_called : (r.called g).skeleton = r.skeleton := by
  simp [skeleton, called, Function.comp_def, Description.called, Description.skeleton]

theorem describe_called : (r.called g).describe h = (r.describe h).map (Description.called g) := by
  have hget : (r.called g).get? h = (r.get? h).map (Description.called g) := by
    simp [get?, called]
  unfold describe
  rw [hget]
  cases r.get? h <;> rfl

/-- The second table shows every name under `g` as the first one shows the name. -/
def ShownAlike (g : String → String) (n n' : Naming) (r : Registry) : Prop :=
  ∀ t ∈ r.slots, n'.lookup (g t.name) = n.lookup t.name

theorem ShownAlike.of_get? (hshown : r.ShownAlike g n n') {t : Description}
    (ht : r.get? h = some t) : n'.lookup (g t.name) = n.lookup t.name :=
  hshown t (Array.mem_of_getElem? ht)

/-! ## Names in blocks -/

section

variable (hshown : r.ShownAlike g n n')

include hshown

theorem nameWithin_called (depth : Nat) :
    (r.called g).nameWithin n' depth h = r.nameWithin n depth h := by
  induction depth generalizing h with
  | zero => rfl
  | succ depth ih =>
    rw [nameWithin, nameWithin, describe_called]
    cases ht : r.describe h with
    | error f => rfl
    | ok t =>
      have hname := hshown.of_get? (describe_eq_ok.1 ht)
      have harguments : (r.called g).nameWithin n' depth = r.nameWithin n depth :=
        funext fun _ => ih
      simp only [Except.map, Except.ok_bind, Description.called, Description.isGeneric, hname,
        harguments]
      rfl

theorem displayName_called : (r.called g).displayName n' h = r.displayName n h := by
  rw [displayName, displayName, size_called, nameWithin_called hshown]

theorem propertyList_called :
    (r.called g).propertyList n' detail h = r.propertyList n detail h := by
  have hentry : (r.called g).propertyEntry n' = r.propertyEntry n := by
    funext p
    rw [propertyEntry, propertyEntry, displayName_called hshown]
  simp only [propertyList, describe_called, hentry]
  cases r.describe h <;> rfl

omit hshown in
theorem methodList_called : (r.called g).methodList detail h = r.methodList detail h := by
  simp only [methodList, describe_called]
  cases r.describe h <;> rfl

end

end Registry

namespace Drawing

/-- The same drawing from another registry with another table. -/
def showing (d : Drawing) (g : String → String) (n' : Naming) : Drawing :=
  { d with registry := d.registry.called g, naming := n' }

variable {d d' : Drawing} {h : Handle}

/-- A block shows names of types, and no name that is not shown. -/
theorem block_showing {g : String → String} {n' : Naming}
    (hshown : d.registry.ShownAlike g d.naming n') : (d.showing g n').block h = d.block h := by
  have hname : ∀ i, (d.registry.called g).displayName n' i = d.registry.displayName d.naming i :=
    fun i => Registry.displayName_called hshown
  have hmarks : (d.showing g n').interfaceMarks h = d.interfaceMarks h := by
    simp only [interfaceMarks, showing, Registry.describe_called, hname]
    cases d.registry.describe h <;> rfl
  simp only [block, hmarks]
  simp only [showing, hname, Registry.propertyList_called hshown, Registry.methodList_called]

/-! ## Drawings of the same blocks -/

section

variable (hrequested : d.requested = d'.requested)
  (hskeleton : d.registry.skeleton = d'.registry.skeleton) (hblock : ∀ h, d.block h = d'.block h)

include hblock in
theorem joinedSegment_of_blocks (e : Edge) : d.joinedSegment e = d'.joinedSegment e := by
  simp only [joinedSegment, hblock]

include hrequested hblock in
theorem inheritance_of_blocks (above : List Handle) (ledger : Ledger) :
    d.inheritance h above ledger = d'.inheritance h above ledger := by
  induction above generalizing ledger with
  | nil => rfl
  | cons a rest ih =>
    simp only [inheritance, hrequested, joinedSegment_of_blocks hblock, ih]

include hrequested hskeleton in
theorem propertyEdge?_of_skeleton {p p' : Property} (hp : p.valueType = p'.valueType) :
    d.propertyEdge? h p = d'.propertyEdge? h p' := by
  simp only [propertyEdge?, hp, hrequested, Registry.describe]
  rcases Registry.cases_of_skeleton hskeleton p'.valueType with ⟨ht, ht'⟩ | ⟨t, t', ht, ht', heq⟩
  · simp only [ht, ht']
  · have harguments : t.arguments = t'.arguments := congrArg Skeleton.arguments heq
    have henumerable : t.enumerable = t'.enumerable := congrArg Skeleton.enumerable heq
    simp only [ht, ht', Except.ok_bind, harguments, henumerable]

include hrequested hskeleton hblock

theorem associations_of_blocks {ps ps' : List Property}
    (hps : ps.map Property.valueType = ps'.map Property.valueType) :
    d.associations h ps = d'.associations h ps' := by
  induction ps generalizing ps' with
  | nil =>
    obtain rfl := List.map_eq_nil_iff.1 hps.symm
    rfl
  | cons p ps ih =>
    obtain ⟨p', ps', rfl, hp, hps⟩ := List.map_eq_cons_iff.1 hps.symm
    simp only [associations, propertyEdge?_of_skeleton hrequested hskeleton hp.symm,
      joinedSegment_of_blocks hblock, ih hps.symm]

/-- What is reported of a type that is no class names the type, so only the results agree. -/
theorem root_of_blocks (ledger : Ledger) :
    (d.root h ledger).result = (d'.root h ledger).result := by
  simp only [root, Registry.describe, Traced.result_bind, Traced.result_liftM]
  rcases Registry.cases_of_skeleton hskeleton h with ⟨ht, ht'⟩ | ⟨t, t', ht, ht', heq⟩
  · simp only [ht, ht', Except.error_bind]
  · have hkind : t.kind = t'.kind := congrArg Skeleton.kind heq
    have hvalues : t.properties.map Property.valueType = t'.properties.map Property.valueType :=
      congrArg Skeleton.valueTypes heq
    simp only [ht, ht', Except.ok_bind, hkind]
    split
    · simp only [Registry.ancestors_of_skeleton hskeleton, inheritance_of_blocks hrequested hblock,
        associations_of_blocks hrequested hskeleton hblock hvalues, hblock]
    · simp only [Traced.result_bind, Traced.result_report, Traced.result_pure, Except.ok_bind]

theorem roots_of_blocks (l : List Handle) (ledger : Ledger) :
    (d.roots l ledger).result = (d'.roots l ledger).result := by
  induction l generalizing ledger with
  | nil => rfl
  | cons h l ih =>
    simp only [roots, Traced.result_bind, Traced.result_pure, ih,
      root_of_blocks hrequested hskeleton hblock]

/-- The outcome of a drawing is decided by the requested types, the skeleton and the blocks. -/
theorem fragment_of_blocks (style : Style) :
    (d.fragment style).result = (d'.fragment style).result := by
  simp only [fragment, Traced.result_within, Traced.result_bind, Traced.result_report,
    Traced.result_pure, roots_of_blocks hrequested hskeleton hblock, hrequested]

end

/-! ## Tables of aliases -/

/-- The names behind the shown ones make no difference. -/
theorem fragment_showing {g : String → String} {n' : Naming}
    (hshown : d.registry.ShownAlike g d.naming n') (style : Style) :
    ((d.showing g n').fragment style).result = (d.fragment style).result :=
  have hrequested : (d.showing g n').requested = d.requested := rfl
  fragment_of_blocks hrequested Registry.skeleton_called (fun _ => block_showing hshown) style

/-- Where the arguments of types do not lead back to the types, and no name is cut any further once
it is shown, a table of aliases does what other names of the types do: the drawing has the same text
and the same edges, or fails in the same way. -/
theorem aliasing_is_renaming {r : Registry} (hr : r.Acyclic) {aliases : List (String × String)}
    (hshown : ∀ t ∈ r.slots, stripArity ((Naming.ofList aliases).lookup t.name) =
      (Naming.ofList aliases).lookup t.name)
    (requested : List Handle) (detail : Detail) (style : Style) :
    let shown := (Naming.ofList aliases).lookup
    let aliased : Drawing := { registry := r, naming := .ofList aliases, requested, detail }
    let renamed : Drawing := { registry := r.called shown, naming := .empty, requested, detail }
    (aliased.fragment style).result = (renamed.fragment style).result ∧
      (aliased.fragment style).result.FailsOnly Failure.IsUnknownType := by
  intro shown aliased renamed
  have halike : r.ShownAlike shown (.ofList aliases) .empty := hshown
  have hrenamed : (renamed.fragment style).result = (aliased.fragment style).result :=
    fragment_showing (d := aliased) halike style
  exact ⟨hrenamed.symm, fragment_failsOnly hr⟩

/-- A shop with shelves full of toys. -/
def shop : Registry where
  slots := #[
    { name := "Shop", kind := .reference, interfaces := [.ofNat 1],
      properties := [{ name := "Shelves", valueType := .ofNat 6 }] },
    { name := "IShop", kind := .interface },
    { name := "String", kind := .reference },
    { name := "Toy", kind := .reference,
      properties := [{ name := "Label", valueType := .ofNat 2 }] },
    { name := "List\x601", kind := .reference, enumerable := true },
    { name := "List\x601", kind := .reference, definition := some (.ofNat 4),
      arguments := [.ofNat 3], enumerable := true },
    { name := "List\x601", kind := .reference, definition := some (.ofNat 4),
      arguments := [.ofNat 5], enumerable := true }]

/-- Of the two aliases for strings the later one counts, and of those for lists the one for the full
name. -/
def shopAliases : List (String × String) :=
  [("String", "text"), ("List\x601", "Row"), ("List", "Seq"), ("IShop", "Trade"),
    ("String", "str"), ("Toy", "Ball\x60s")]

def aliasedShop : Drawing where
  registry := shop
  naming := .ofList shopAliases
  requested := [.ofNat 0, .ofNat 1, .ofNat 5, .ofNat 3]
  detail := .all

/-- The aliases reach every place where a name is shown. -/
theorem shop_is_renamed : ∃ f, (aliasedShop.fragment {}).result = .ok f ∧
    ((aliasedShop.showing (Naming.ofList shopAliases).lookup .empty).fragment {}).result = .ok f ∧
    f.text = "[<<Trade>>;Shop|+ Shelves : Row<Row<Ball\x60s>>]1-0..*[Row<Ball\x60s>]," ++
      "[Row<Ball\x60s>],[Ball\x60s|+ Label : str]" := by
  have hr : shop.Acyclic := (Registry.grounded_of_toList (by decide)).acyclic
  have hshown : ∀ t ∈ shop.slots, stripArity ((Naming.ofList shopAliases).lookup t.name) =
      (Naming.ofList shopAliases).lookup t.name := by
    decide +kernel
  obtain ⟨heq, -⟩ := aliasing_is_renaming hr hshown aliasedShop.requested .all {}
  have htext : Fragment.text <$> (aliasedShop.fragment {}).result =
      .ok ("[<<Trade>>;Shop|+ Shelves : Row<Row<Ball\x60s>>]1-0..*[Row<Ball\x60s>]," ++
        "[Row<Ball\x60s>],[Ball\x60s|+ Label : str]") := by
    decide +kernel
  obtain ⟨f, hf, htext⟩ := Except.map_eq_ok.1 htext
  exact ⟨f, hf, heq.symm.trans hf, htext⟩

end Drawing

end ClassDiagram
