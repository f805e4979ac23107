import ClassDiagram.Proofs.Model.Drawable
import ClassDiagram.Proofs.Model.Layout
/-!
# Contents of loaded models

A loaded registry holds what the layout of the model says and nothing else. The invariant is carried
through every stage of loading; a constructed type is described for good when it is constructed.
-/

namespace ClassDiagram.Model

open TypeExpression (term?)

variable {m : Model} {done rest : List TypeDeclaration} {ms : List TypeExpression} {r r' : Registry}

/-- The registry holds what the layout says, the declarations `done` being defined and the
constructed types `ms` being mentioned. -/
structure Charted (m : Model) (done : List TypeDeclaration) (ms : List TypeExpression)
    (r : Registry) : Prop where
  size : r.size = (m.layoutOf ms).length
  parts : ∀ n args, .node n args ∈ m.layoutOf ms →
    .node n [] ∈ m.layoutOf ms ∧ ∀ a ∈ args, a ∈ m.layoutOf ms
  slots : ∀ t ∈ m.layoutOf ms, r.get? (m.place t) = m.describe? done t
  constructed : ∀ c h, r.constructed? c = some h ↔
    ∃ n a as, .node n (a :: as) ∈ m.layoutOf ms ∧
      c = ⟨m.place (.node n []), (a :: as).map m.place⟩ ∧ h = m.place (.node n (a :: as))

/-! ## Declared types -/

theorem charted_bare (hn : m.names.Nodup) (hroom : m.HasRoom []) : m.Charted [] [] m.bare := by
  have hlayout := layoutOf_nil hn
  have hleaf : ∀ t ∈ m.layoutOf [], ∃ n ∈ m.names, t = .node n [] := by
    intro t ht
    simpa using mem_layoutOf.1 ht
  refine ⟨?_, ?_, ?_, ?_⟩
  · simp [hlayout, Registry.size, bare, names]
  · intro n args hmem
    obtain ⟨n', -, heq⟩ := hleaf _ hmem
    obtain ⟨rfl, rfl⟩ := TypeExpression.node.inj heq
    exact ⟨hmem, by simp⟩
  · intro t ht
    obtain ⟨n, hmem, rfl⟩ := hleaf t ht
    have hslot : (m.place (.node n [])).slot = m.names.idxOf n := by
      rw [hroom.slot_place ht, hlayout,
        List.idxOf_map_of_injective fun a b h => (TypeExpression.node.inj h).1]
    simp only [Registry.get?, bare, List.getElem?_toArray, List.getElem?_map, hslot,
      getElem?_idxOf_names, describe?, describeDeclared]
    rfl
  · intro c h
    constructor
    · intro hc
      simp [Registry.constructed?, bare] at hc
    · rintro ⟨n, a, as, hmem, -⟩
      obtain ⟨n', -, heq⟩ := hleaf _ hmem
      simp at heq

/-! ## Constructed types -/

variable {n : String} {a : TypeExpression} {as : List TypeExpression}

theorem HasRoom.of_concat {t : TypeExpression} (h : m.HasRoom (ms ++ [t])) : m.HasRoom ms := by
  refine ⟨(List.prefix_append ms [t]).trans h.isPrefix, ?_⟩
  exact Nat.le_trans (isPrefix_layoutOf (List.prefix_append ms [t])).length_le h.fits

/-- A construction tells the constructed type. -/
theorem Charted.eq_of_construction (h : m.Charted done ms r) (hroom : m.HasRoom ms) {n' : String}
    {args args' : List TypeExpression} (hmem : .node n' args' ∈ m.layoutOf ms)
    (hn : .node n [] ∈ m.layoutOf ms) (hargs : ∀ t ∈ args, t ∈ m.layoutOf ms)
    (heq : (⟨m.place (.node n' []), args'.map m.place⟩ : Construction) =
      ⟨m.place (.node n []), args.map m.place⟩) :
    TypeExpression.node n' args' = .node n args := by
  obtain ⟨hdefinition, harguments⟩ := Construction.mk.inj heq
  obtain ⟨hn', hargs'⟩ := h.parts _ _ hmem
  obtain ⟨rfl, -⟩ := TypeExpression.node.inj (hroom.place_inj hn' hn hdefinition)
  rw [hroom.map_place_inj hargs' hargs harguments]

/-- What was constructed before is found again. -/
theorem Charted.construct_known (h : m.Charted done ms r)
    (hknown : .node n (a :: as) ∈ m.layoutOf ms) :
    r.constructed? ⟨m.place (.node n []), (a :: as).map m.place⟩ =
      some (m.place (.node n (a :: as))) ∧ m.Charted done (ms ++ [.node n (a :: as)]) r := by
  have hlayout : m.layoutOf (ms ++ [.node n (a :: as)]) = m.layoutOf ms := by
    rw [layoutOf_concat, if_pos hknown]
  refine ⟨(h.constructed _ _).2 ⟨n, a, as, hknown, rfl, rfl⟩, ?_⟩
  exact ⟨hlayout ▸ h.size, hlayout ▸ h.parts, hlayout ▸ h.slots, hlayout ▸ h.constructed⟩

/-- What is constructed for the first time goes to the next slot. -/
theorem Charted.construct_new (h : m.Charted done ms r)
    (hroom : m.HasRoom (ms ++ [.node n (a :: as)])) (hnew : .node n (a :: as) ∉ m.layoutOf ms)
    (hn : .node n [] ∈ m.layoutOf ms) (hargs : ∀ t ∈ a :: as, t ∈ m.layoutOf ms)
    (hlink : ∀ t, m.declaration? n = some t → (t ∈ done ↔ ¬ m.early (.node n (a :: as))))
    {d : Description} (hd : r.get? (m.place (.node n [])) = some d) :
    r.nextHandle = m.place (.node n (a :: as)) ∧
      m.Charted done (ms ++ [.node n (a :: as)])
        (r.withInstance d ⟨m.place (.node n []), (a :: as).map m.place⟩) := by
  have hold := hroom.of_concat
  have hlayout : m.layoutOf (ms ++ [.node n (a :: as)]) =
      m.layoutOf ms ++ [.node n (a :: as)] := by
    rw [layoutOf_concat, if_neg hnew]
  have hself : .node n (a :: as) ∈ m.layoutOf (ms ++ [.node n (a :: as)]) := by
    rw [hlayout]
    exact List.mem_append_right _ (List.mem_singleton.2 rfl)
  have hslot : (m.place (.node n (a :: as))).slot = r.size := by
    rw [hroom.slot_place hself, hlayout, List.idxOf_append_of_notMem hnew, h.size]
    simp
  have hnext : r.nextHandle = m.place (.node n (a :: as)) := by
    rw [Registry.nextHandle, ← hslot, Handle.ofNat_slot]
  -- The new slot is behind all others.
  have hbelow : ∀ t ∈ m.layoutOf ms, (m.place t).slot ≠ r.size := by
    intro t ht
    rw [hold.slot_place ht, h.size]
    exact Nat.ne_of_lt (List.idxOf_lt_length_of_mem ht)
  -- Handles tell terms apart, so a construction is found under its own term only.
  have hfound : ∀ c k, r.constructed? c = some k →
      c ≠ ⟨m.place (.node n []), (a :: as).map m.place⟩ := by
    rintro _ k hk heq
    obtain ⟨n', a', as', hmem, rfl, -⟩ := (h.constructed _ _).1 hk
    exact hnew (h.eq_of_construction hold hmem hn hargs heq ▸ hmem)
  refine ⟨hnext, ?_, ?_, ?_, ?_⟩
  · rw [Registry.size_withInstance, h.size, hlayout, List.length_append, List.length_singleton]
  · intro n' args' hmem
    rw [hlayout, List.mem_append, List.mem_singleton] at hmem
    simp only [hlayout, List.mem_append]
    rcases hmem with hmem | heq
    · obtain ⟨hn', hargs'⟩ := h.parts _ _ hmem
      exact ⟨.inl hn', fun t ht => .inl (hargs' t ht)⟩
    · obtain ⟨rfl, rfl⟩ := TypeExpression.node.inj heq
      exact ⟨.inl hn, fun t ht => .inl (hargs t ht)⟩
  · intro t ht
    rw [hlayout, List.mem_append, List.mem_singleton] at ht
    rw [Registry.get?_withInstance]
    rcases ht with ht | rfl
    · rw [if_neg (hbelow t ht)]
      exact h.slots t ht
    · have hdefinition := h.slots _ hn
      rw [hd] at hdefinition
      obtain ⟨t, ht, rfl⟩ := Option.map_eq_some_iff.1 hdefinition.symm
      rw [if_pos hslot, describe?, ht, Option.map_some]
      -- Whether the definition is defined by now is whether the type is early, once and for all.
      have hchanged : decide (t ∈ done) = !m.early (.node n (a :: as)) := by
        simp [hlink t ht]
      rw [hchanged]
  · intro c k
    rw [Registry.constructed?_withInstance]
    simp only [hlayout, List.mem_append, List.mem_singleton]
    constructor
    · intro hc
      split at hc
      · rename_i heq
        obtain rfl := Option.some.inj hc
        exact ⟨n, a, as, .inr rfl, heq, hnext⟩
      · obtain ⟨n', a', as', hmem, hc'⟩ := (h.constructed _ _).1 hc
        exact ⟨n', a', as', .inl hmem, hc'⟩
    · rintro ⟨n', a', as', hmem | heq, rfl, rfl⟩
      · have hc := (h.constructed _ _).2 ⟨n', a', as', hmem, rfl, rfl⟩
        rw [if_neg (hfound _ _ hc), hc]
      · obtain ⟨rfl, hargs'⟩ := TypeExpression.node.inj heq
        obtain ⟨rfl, rfl⟩ := List.cons.inj hargs'
        rw [if_pos rfl, hnext]

/-! ## Defined types -/

theorem place_of_split (hn : m.names.Nodup) {t : TypeDeclaration}
    (hm : m.types = done ++ t :: rest) :
    m.place (.node t.name []) = .ofNat done.length ∧ m.declaration? t.name = some t ∧ t ∉ done := by
  have hnames : m.names =
      done.map TypeDeclaration.name ++ t.name :: rest.map TypeDeclaration.name := by
    simp [names, hm]
  have hnew : t.name ∉ done.map TypeDeclaration.name := by
    intro hmem
    rw [hnames] at hn
    exact (List.nodup_append.1 hn).2.2 _ hmem _ List.mem_cons_self rfl
  have hidx : m.names.idxOf t.name = done.length := by
    rw [hnames, List.idxOf_append_of_notMem hnew, List.idxOf_cons_self]
    simp
  refine ⟨?_, ?_, fun hmem => hnew (List.mem_map_of_mem hmem)⟩
  · rw [place_declared hn (by simp [hnames]), hidx]
  · rw [← getElem?_idxOf_names, hidx, hm]
    simp

/-- Defining a type completes its description and touches no other. -/
theorem Charted.define (h : m.Charted done ms r) (hroom : m.HasRoom ms) (hn : m.names.Nodup)
    {t : TypeDeclaration} (hm : m.types = done ++ t :: rest)
    (he : r.edit (.ofNat done.length) (t.editsAt m.names m.place) = .ok r') :
    m.Charted (done ++ [t]) ms r' := by
  obtain ⟨hplace, hdeclaration, hnot⟩ := place_of_split hn hm
  obtain ⟨d, hd, rfl⟩ := Registry.edit_eq_ok.1 he
  have hleaf : .node t.name [] ∈ m.layoutOf ms := by
    refine mem_layoutOf.2 (.inl ⟨t.name, ?_, rfl⟩)
    simp [names, hm]
  -- Nothing was changed in the slot before.
  have hbare : d = t.bare := by
    have hslot := h.slots _ hleaf
    rw [hplace, hd, describe?, hdeclaration, Option.map_some] at hslot
    rw [Option.some.inj hslot, describeDeclared]
    simp [hnot]
  have hreg := Registry.isRegistered_of_get? hd
  refine ⟨by rw [Registry.size_replace, h.size], h.parts, fun u hu => ?_, h.constructed⟩
  rw [Registry.get?_replace hreg]
  split
  · rename_i hu'
    have hsame : u = .node t.name [] := hroom.place_inj hu hleaf (hu'.trans hplace.symm)
    rw [hsame, describe?, hdeclaration, Option.map_some, describeDeclared, hbare,
      TypeDeclaration.applyAll_editsAt]
    simp
  · rename_i hu'
    rw [h.slots u hu]
    obtain ⟨n, args⟩ := u
    cases args with
    | cons a as => rfl
    | nil =>
      simp only [describe?]
      cases hdecl : m.declaration? n with
      | none => rfl
      | some t' =>
        have hne : t' ≠ t := by
          rintro rfl
          have hname : t'.name = n := name_of_declaration? hdecl
          exact hu' (hname ▸ hplace)
        simp [hne]

/-! ## The account of the contents -/

/-- What the model mentions while it is loaded, up to the end of the stage that follows on the
declarations `done`. -/
def mentionsThrough (m : Model) (done : List TypeDeclaration) : List TypeExpression :=
  if done.length < m.types.length then m.mentionedBy (m.types.take (done.length + 1))
  else m.mentions

/-- Every slot so far has a handle of its own: there are few enough of them now, or in the end. -/
def Fits (m : Model) (done : List TypeDeclaration) (ms : List TypeExpression) (r : Registry) :
    Prop :=
  ms <+: m.mentionsThrough done ∧ (m.layout.length ≤ UInt32.size ∨ r.size ≤ UInt32.size)

theorem isPrefix_mentionedBy {types types' : List TypeDeclaration} (h : types <+: types') :
    m.mentionedBy types <+: m.mentionedBy types' := by
  obtain ⟨behind, rfl⟩ := h
  rw [mentionedBy, mentionedBy, List.flatMap_append]
  exact List.prefix_append ..

theorem isPrefix_mentionsThrough : m.mentionsThrough done <+: m.mentions := by
  unfold mentionsThrough
  split
  · exact (isPrefix_mentionedBy (List.take_prefix ..)).trans (List.prefix_append ..)
  · exact List.prefix_rfl

theorem Fits.hasRoom (h : m.Fits done ms r) (hr : r.size = (m.layoutOf ms).length) :
    m.HasRoom ms := by
  have hms := h.1.trans isPrefix_mentionsThrough
  refine ⟨hms, ?_⟩
  rcases h.2 with hend | hnow
  · exact Nat.le_trans (isPrefix_layoutOf hms).length_le hend
  · exact hr ▸ hnow

theorem Fits.of_concat {t : TypeExpression} (h : m.Fits done (ms ++ [t]) r')
    (hr : r.size ≤ r'.size) : m.Fits done ms r :=
  ⟨(List.prefix_append ms [t]).trans h.1, h.2.imp_right fun hnow => Nat.le_trans hr hnow⟩

/-- A constructed type is early if and only if its definition was not defined when it was mentioned
for the first time. -/
theorem not_early_iff (hm : m.types = done ++ rest)
    (hold : m.mentionedBy done ⊆ ms) (hms : ms ++ [.node n (a :: as)] <+: m.mentionsThrough done)
    (hnew : .node n (a :: as) ∉ ms) {t : TypeDeclaration} (ht : m.declaration? n = some t) :
    t ∈ done ↔ ¬ m.early (.node n (a :: as)) := by
  have hget : m.types[m.names.idxOf n]? = some t := (getElem?_idxOf_names n).trans ht
  have hearly : m.early (.node n (a :: as)) ↔
      .node n (a :: as) ∈ m.mentionedBy (m.types.take (m.names.idxOf n + 1)) :=
    decide_eq_true_iff
  rw [hearly]
  constructor
  · intro hmem hcon
    have hname : t.name = n := name_of_declaration? ht
    -- A definition among those done stands before the mention, which would then not be new.
    have hidx : m.names.idxOf n < done.length := by
      have hname' : n ∈ done.map TypeDeclaration.name := hname ▸ List.mem_map_of_mem hmem
      have hlt := List.idxOf_lt_length_of_mem hname'
      rw [List.length_map] at hlt
      rwa [names, hm, List.map_append, List.idxOf_append_of_mem hname']
    refine hnew (hold ((isPrefix_mentionedBy ?_).subset hcon))
    rw [hm, List.take_append_of_le_length (by omega)]
    exact List.take_prefix ..
  · intro hcon
    by_contra hmem
    -- A definition yet to come stands behind the mention.
    have hle : done.length ≤ m.names.idxOf n := by
      by_contra hlt
      rw [hm, List.getElem?_append_left (by omega)] at hget
      exact hmem (List.mem_of_getElem? hget)
    have hlt := (List.getElem?_eq_some_iff.1 hget).1
    rw [mentionsThrough, if_pos (by omega)] at hms
    have hself := hms.subset (List.mem_append_right _ (List.mem_singleton.2 rfl))
    exact hcon ((isPrefix_mentionedBy (List.take_prefix_take_left (by omega))).subset hself)

theorem Charted.construct (h : m.Charted done ms r) (hm : m.types = done ++ rest)
    (hold : m.mentionedBy done ⊆ ms) (hn : .node n [] ∈ m.layoutOf ms)
    (hargs : ∀ t ∈ a :: as, t ∈ m.layoutOf ms) {k : Handle}
    (hc : (r.construct ⟨m.place (.node n []), (a :: as).map m.place⟩).result = .ok (k, r'))
    (hfits : m.Fits done (ms ++ [.node n (a :: as)]) r') :
    k = m.place (.node n (a :: as)) ∧ m.Charted done (ms ++ [.node n (a :: as)]) r' := by
  rcases Registry.construct_eq_ok.1 hc with ⟨hfound, rfl⟩ | ⟨hnone, -, d, hd, rfl, rfl⟩
  · have hroom := (hfits.of_concat (Nat.le_refl _)).hasRoom h.size
    obtain ⟨n', a', as', hmem, heq, -⟩ := (h.constructed _ _).1 hfound
    obtain ⟨hknown, hcharted⟩ :=
      h.construct_known (h.eq_of_construction hroom hmem hn hargs heq.symm ▸ hmem)
    exact ⟨Option.some.inj (hfound.symm.trans hknown), hcharted⟩
  · have hnew : .node n (a :: as) ∉ m.layoutOf ms := by
      intro hmem
      rw [(h.construct_known hmem).1] at hnone
      simp at hnone
    have hroom : m.HasRoom (ms ++ [.node n (a :: as)]) := by
      refine hfits.hasRoom ?_
      rw [Registry.size_withInstance, h.size, layoutOf_concat, if_neg hnew, List.length_append,
        List.length_singleton]
    refine h.construct_new hroom hnew hn hargs (fun t ht => ?_) hd
    exact not_early_iff hm hold hfits.1 (fun hmem => hnew (mem_layoutOf.2 (.inr hmem))) ht

theorem size_le_of_construct {c : Construction} {k : Handle}
    (hc : (r.construct c).result = .ok (k, r')) : r.size ≤ r'.size := by
  rcases Registry.construct_eq_ok.1 hc with ⟨-, rfl⟩ | ⟨-, -, d, -, -, rfl⟩
  · exact Nat.le_refl _
  · rw [Registry.size_withInstance]
    exact Nat.le_succ _

theorem place_of_lookup (hn : m.names.Nodup) {h : Handle}
    (hh : m.declarations.lookup n = some h) (ms : List TypeExpression) :
    .node n [] ∈ m.layoutOf ms ∧ h = m.place (.node n []) := by
  obtain ⟨i, t, ht, heq⟩ := mem_declarations.1 (Declared.mem_of_lookup hh)
  obtain ⟨rfl, rfl⟩ := Prod.mk.inj heq
  have hmem : t.name ∈ m.names := List.mem_map_of_mem (List.mem_of_getElem? ht)
  refine ⟨mem_layoutOf.2 (.inl ⟨_, hmem, rfl⟩), ?_⟩
  have hidx : m.names[i]? = some t.name := by simp [names, ht]
  obtain ⟨hi, hget⟩ := List.getElem?_eq_some_iff.1 hidx
  rw [place_declared hn hmem, ← hget, hn.idxOf_getElem]

/-- Handles that stand for types are the places of these. -/
theorem eq_map_place {D : TypeExpression → Handle → Prop} {ts : List TypeExpression}
    {hs : List Handle} (h : List.Forall₂ D ts hs)
    (hD : ∀ t a, D t a → t ∈ m.layoutOf ms ∧ a = m.place t) :
    (∀ t ∈ ts, t ∈ m.layoutOf ms) ∧ hs = ts.map m.place := by
  induction h with
  | nil => exact ⟨by simp, rfl⟩
  | cons ha _ ih =>
    obtain ⟨hmem, rfl⟩ := hD _ _ ha
    exact ⟨List.forall_mem_cons.2 ⟨hmem, ih.1⟩, by rw [List.map_cons, ← ih.2]⟩

/-- The account of what a registry holds when the declarations `done` are defined. -/
def chartAccount (m : Model) (done : List TypeDeclaration) : Account m.declarations where
  Holds ms r := (closedAccount m.declarations).Holds ms r ∧ m.names.Nodup ∧
    (∃ rest, m.types = done ++ rest) ∧ m.mentionedBy done ⊆ ms ∧
      (m.Fits done ms r → m.Charted done ms r)
  Denotes ms r t h := r.IsRegistered h ∧
    (m.Fits done ms r → t ∈ m.layoutOf ms ∧ h = m.place t)
  denotes_declared := by
    intro ms r n h hr hh
    exact ⟨(closedAccount _).denotes_declared hr.1 hh, fun _ => place_of_lookup hr.2.1 hh ms⟩
  wp_construct := by
    intro ms r n h ts hs hr hh hne hdenotes
    obtain ⟨hclosed, hn, ⟨rest, hm⟩, hold, hcharted⟩ := hr
    have hconstruct := (closedAccount m.declarations).wp_construct hclosed hh hne
      (hdenotes.imp fun _ _ hd => hd.1)
    refine Loading.wp_mono (Loading.wp_result hconstruct) (fun k r' hk => ?_) fun _ hf => hf
    obtain ⟨⟨hclosed', hkeeps, hk⟩, hresult⟩ := hk
    have hsize := size_le_of_construct hresult
    have hchart : m.Fits done (ms ++ [.node n ts]) r' →
        k = m.place (.node n ts) ∧ m.Charted done (ms ++ [.node n ts]) r' := by
      intro hfits
      have hbefore := hfits.of_concat hsize
      obtain ⟨hleaf, rfl⟩ := place_of_lookup hn hh ms
      obtain ⟨hargs, rfl⟩ := eq_map_place hdenotes fun _ _ hd => hd.2 hbefore
      obtain ⟨a, as, rfl⟩ := List.exists_cons_of_ne_nil hne
      exact (hcharted hbefore).construct hm hold hleaf hargs hresult hfits
    have hsub : ms ⊆ ms ++ [.node n ts] := List.subset_append_left ..
    refine ⟨⟨hclosed', hn, ⟨rest, hm⟩, fun e he => hsub (hold he),
      fun hfits => (hchart hfits).2⟩, ?_, hk, ?_⟩
    · rintro t a ⟨hreg, hplace⟩
      refine ⟨hkeeps t a hreg, fun hfits => ?_⟩
      obtain ⟨hmem, heq⟩ := hplace (hfits.of_concat hsize)
      exact ⟨(isPrefix_layoutOf (List.prefix_append ..)).subset hmem, heq⟩
    · intro hfits
      exact ⟨mem_layoutOf.2 (.inr (by simp)), (hchart hfits).1⟩

/-- Every stage of loading leaves what the layout says. -/
def chartLoadAccount (m : Model) : LoadAccount m where
  after := m.chartAccount
  start := by
    intro hn hkinds
    refine ⟨(closedLoadAccount m).start hn hkinds, hn, ⟨m.types, rfl⟩, by simp [mentionedBy], ?_⟩
    intro hfits
    refine charted_bare hn (hfits.hasRoom ?_)
    rw [layoutOf_nil hn]
    simp [Registry.size, bare, names]
  define := by
    intro done t rest edits r hm hr hedits
    obtain ⟨hclosed, hn, -, hold, hcharted⟩ := hr
    obtain ⟨r', he, hclosed'⟩ := (closedLoadAccount m).define hm hclosed
      (hedits.imp fun _ _ ⟨e, hterm, hd⟩ => ⟨e, hterm, hd.1⟩)
    refine ⟨r', he, hclosed', hn, ⟨rest, by simp [hm]⟩, List.Subset.refl _, fun hfits => ?_⟩
    -- A definition adds no slot, and all that its expressions mention is there before it is made.
    have hsize : r'.size = r.size := by
      obtain ⟨d, -, rfl⟩ := Registry.edit_eq_ok.1 he
      exact Registry.size_replace
    have htake : m.types.take (done.length + 1) = done ++ [t] := by
      rw [hm, List.append_cons]
      exact List.take_left' (by simp)
    have hthrough : m.mentionsThrough done = m.mentionedBy (done ++ [t]) := by
      rw [mentionsThrough, if_pos (by simp [hm]), htake]
    have hbefore : m.Fits done (m.mentionedBy (done ++ [t])) r :=
      ⟨hthrough ▸ List.prefix_rfl, hsize ▸ hfits.2⟩
    have hchart := hcharted hbefore
    have hedits' : edits = t.editsAt m.names m.place := by
      refine hedits.eq_editsAt fun text h ⟨e, hterm, hd⟩ => ⟨e, ?_, (hd.2 hbefore).2⟩
      rwa [names_declarations] at hterm
    exact hchart.define (hbefore.hasRoom hchart.size) hn hm (hedits' ▸ he)

/-- A loaded registry holds what the layout of the model says, and what is drawn is in its place,
provided that there are handles enough. -/
theorem charted_of_load {l : Loaded} (hl : m.load.result = .ok l)
    (hroom : m.layout.length ≤ UInt32.size ∨ l.registry.size ≤ UInt32.size) :
    m.HasRoom m.mentions ∧ m.Charted m.types m.mentions l.registry ∧
      (∀ t ∈ m.drawn, t ∈ m.layout) ∧ l.roots = m.drawn.map m.place := by
  obtain ⟨-, ⟨-, -, -, -, hcharted⟩, hroots⟩ := m.chartLoadAccount.of_load hl
  have hthrough : m.mentionsThrough m.types = m.mentions := if_neg (Nat.lt_irrefl _)
  have hfits : m.Fits m.types m.mentions l.registry := ⟨hthrough ▸ List.prefix_rfl, hroom⟩
  have hchart := hcharted hfits
  exact ⟨hfits.hasRoom hchart.size, hchart, eq_map_place hroots fun _ _ hd => hd.2 hfits⟩

end ClassDiagram.Model
