import ClassDiagram.Proofs.Model.Account
import ClassDiagram.Proofs.Steps
/-!
# Stages of loading

Loading declares all types, then defines them one by one, then resolves what to draw. An account of
loading for each number of defined types is carried through all of it: at the end it holds of the
loaded registry, and loading fails on exactly the models that are not well-formed.
-/

namespace ClassDiagram

open TypeExpression (term?)

variable {ms ms' : List TypeExpression} {r r' : Registry}

/-- The property of a declaration, with the type of its values. -/
def PropertyDeclaration.typed (p : PropertyDeclaration) (valueType : Handle) : Property :=
  { name := p.name, valueType, settable := p.settable, isStatic := p.isStatic }

theorem Declared.property_eq (declared : Declared) (p : PropertyDeclaration) :
    declared.property p = p.typed <$> declared.resolveText p.type := by
  rw [← bind_pure_comp]
  rfl

theorem MethodDeclaration.method_eq_ok {owner : String} {m : MethodDeclaration} :
    (∃ x, m.method owner = .ok x) ↔ (Visibility.ofText? m.visibility).isSome := by
  unfold method
  cases Visibility.ofText? m.visibility <;> simp

theorem MethodDeclaration.isOfModel_of_method {owner : String} {m : MethodDeclaration} {f : Failure}
    (h : m.method owner = .error f) : f.isOfModel := by
  unfold method at h
  split at h
  · simp at h
  · obtain rfl := Except.error.inj h
    rfl

namespace TypeDeclaration

/-- The changes define the type, the handles of its expressions being those that `D` gives them. -/
def DefinedBy (D : String → Handle → Prop) (t : TypeDeclaration) (edits : List Edit) : Prop :=
  ∃ bases interfaces values methods,
    List.Forall₂ D t.base.toList bases ∧ List.Forall₂ D t.interfaces interfaces ∧
    List.Forall₂ D (t.properties.map PropertyDeclaration.type) values ∧
    t.methods.mapM (MethodDeclaration.method t.name) = .ok methods ∧
    edits = bases.map .setBase ++ interfaces.map .addInterface ++
      (List.zipWith PropertyDeclaration.typed t.properties values).map .addProperty ++
        methods.map .addMethod

theorem DefinedBy.imp {D D' : String → Handle → Prop} {t : TypeDeclaration} {edits : List Edit}
    (h : t.DefinedBy D edits) (hD : ∀ text a, D text a → D' text a) : t.DefinedBy D' edits := by
  obtain ⟨bases, interfaces, values, methods, hbases, hinterfaces, hvalues, hmethods, rfl⟩ := h
  exact ⟨bases, interfaces, values, methods, hbases.imp hD, hinterfaces.imp hD, hvalues.imp hD,
    hmethods, rfl⟩

/-! ## Defining a type -/

variable {declared : Declared} {A : Account declared}

theorem wp_base (t : TypeDeclaration) (hr : A.Holds ms r) :
    Loading.wp (t.base.mapM fun text => declared.resolveText text)
      (fun base r' =>
        A.Leads ms r (ms ++ t.base.toList.flatMap (TypeExpression.mentions declared.names)) r' ∧
        List.Forall₂
          (A.Reads (ms ++ t.base.toList.flatMap (TypeExpression.mentions declared.names)) r')
          t.base.toList base.toList)
      (fun f => f.isOfModel ∧ ∃ a ∈ t.base.toList, term? declared.names a = none) r := by
  rw [Loading.wp_optionMapM]
  cases t.base with
  | none => exact ⟨by simpa using Account.Leads.refl hr, .nil⟩
  | some text =>
    refine Loading.wp_mono (Account.wp_resolveText text hr) (fun h r' hh => ?_) fun f hf =>
      ⟨hf.1, text, by simp, hf.2⟩
    simp only [Option.toList_some, List.flatMap_cons, List.flatMap_nil, List.append_nil]
    exact ⟨hh.1, .cons hh.2 .nil⟩

/-- The visibilities are looked at last. They are known, or a model is at fault. -/
theorem wp_methods (t : TypeDeclaration) {Q : List Method → Registry → Prop} {E : Failure → Prop}
    (hknown : ∀ methods, t.methods.mapM (MethodDeclaration.method t.name) = .ok methods →
      (∀ m ∈ t.methods, (Visibility.ofText? m.visibility).isSome) → Q methods r)
    (hunknown : ∀ f, f.isOfModel → ¬ (∀ m ∈ t.methods, (Visibility.ofText? m.visibility).isSome) →
      E f) :
    Loading.wp (liftM (t.methods.mapM (MethodDeclaration.method t.name))) Q E r := by
  rw [Loading.wp_liftM]
  constructor
  · intro methods hmethods
    refine hknown methods hmethods fun m hm => ?_
    exact MethodDeclaration.method_eq_ok.1 (Except.exists_of_mem_of_mapM hmethods hm)
  · intro f hf
    obtain ⟨m, hm, hmethod⟩ := Except.exists_of_mapM_eq_error hf
    refine hunknown f (MethodDeclaration.isOfModel_of_method hmethod) fun hall => ?_
    obtain ⟨x, hx⟩ := (@MethodDeclaration.method_eq_ok t.name m).2 (hall m hm)
    simp [hx] at hmethod

/-- A declaration that makes sense gets its changes, and any other is at fault. -/
theorem wp_edits (t : TypeDeclaration) (hr : A.Holds ms r) :
    Loading.wp (t.edits declared)
      (fun edits r' => A.Leads ms r (ms ++ t.mentions declared.names) r' ∧
        t.DefinedBy (A.Reads (ms ++ t.mentions declared.names) r') edits ∧
        t.WellFormed declared.names)
      (fun f => f.isOfModel ∧ ¬ t.WellFormed declared.names) r := by
  -- Each loop fails on a text that does not settle, which is one of the expressions of the type.
  have hmissing : ∀ {l : List String}, l ⊆ t.expressions →
      (∃ a ∈ l, term? declared.names a = none) → ¬ t.WellFormed declared.names := by
    rintro l hl ⟨a, ha, hnone⟩ hwf
    have hsome := hwf.expressions a (hl ha)
    simp [hnone] at hsome
  unfold edits
  refine Loading.wp_seq (wp_base t hr) (fun base s hbase => ?_) fun f hf =>
    ⟨hf.1, hmissing (by simp [expressions]) hf.2⟩
  obtain ⟨hleads, hbase⟩ := hbase
  refine Loading.wp_seq (Account.wp_resolveTexts t.interfaces hleads.holds)
    (fun interfaces s' hs => ?_) fun f hf => ⟨hf.1, hmissing (by simp [expressions]) hf.2⟩
  obtain ⟨hleads', hinterfaces⟩ := hs
  have hproperties := Account.wp_resolveEach PropertyDeclaration.type PropertyDeclaration.typed
    t.properties hleads'.holds
  simp only [← Declared.property_eq] at hproperties
  refine Loading.wp_seq hproperties (fun properties s'' hs => ?_) fun f hf =>
    ⟨hf.1, hmissing (by simp [expressions]) hf.2⟩
  obtain ⟨values, hleads'', hvalues, rfl⟩ := hs
  -- All three loops together mention what the declaration mentions.
  have hmentions : ms ++ t.base.toList.flatMap (TypeExpression.mentions declared.names) ++
      t.interfaces.flatMap (TypeExpression.mentions declared.names) ++
        (t.properties.map PropertyDeclaration.type).flatMap
          (TypeExpression.mentions declared.names) = ms ++ t.mentions declared.names := by
    simp [mentions, expressions]
  rw [hmentions] at hleads'' hvalues
  rw [Loading.wp_bind]
  refine wp_methods t (fun methods hmethods hknown => ?_) fun f hf hn =>
    ⟨hf, fun hwf => hn hwf.visibilities⟩
  refine ⟨hleads.trans (hleads'.trans hleads''),
    ⟨base.toList, interfaces, values, methods,
      hbase.imp fun _ _ => (hleads'.trans hleads'').reads,
      hinterfaces.imp fun _ _ => hleads''.reads, hvalues, hmethods, by rw [Option.toList_map]⟩,
    ?_, hknown⟩
  intro text htext
  simp only [expressions, List.mem_append] at htext
  rcases htext with (htext | htext) | htext
  · exact Account.isSome_of_reads hbase text htext
  · exact Account.isSome_of_reads hinterfaces text htext
  · exact Account.isSome_of_reads hvalues text htext

/-- Defining a type: the account has to say only that the changes can be made. -/
theorem wp_define (t : TypeDeclaration) (h : Handle) (hr : A.Holds ms r) {P : Registry → Prop}
    (hedit : ∀ edits s, A.Holds (ms ++ t.mentions declared.names) s →
      t.DefinedBy (A.Reads (ms ++ t.mentions declared.names) s) edits →
        ∃ s', s.edit h edits = .ok s' ∧ P s') :
    Loading.wp (t.define declared h) (fun _ s => P s ∧ t.WellFormed declared.names)
      (fun f => f.isOfModel ∧ ¬ t.WellFormed declared.names) r := by
  unfold define
  refine Loading.wp_seq (wp_edits t hr) (fun edits s hs => ?_) fun _ hf => hf
  obtain ⟨hleads, hdefined, hwf⟩ := hs
  obtain ⟨s', hs', hP⟩ := hedit edits s hleads.holds hdefined
  rw [Loading.wp_bind, Loading.wp_get, Loading.wp_bind, Loading.wp_liftM]
  refine ⟨fun a ha => ?_, fun f hf => ?_⟩
  · obtain rfl : s' = a := by simpa [hs'] using ha
    exact ⟨hP, hwf⟩
  · simp [hs'] at hf

/-! ## Declaring types -/

theorem wp_declare (t : TypeDeclaration) :
    Loading.wp (t.declare declared)
      (fun h s => h = r.nextHandle ∧ s = r.push t.bare ∧
        (Kind.ofText? t.kind).isSome ∧ t.name ∉ declared.names)
      (fun f => f.isOfModel ∧ ((Kind.ofText? t.kind).isSome → t.name ∈ declared.names)) r := by
  unfold declare
  cases hkind : Kind.ofText? t.kind with
  | none => simp [Failure.isOfModel]
  | some kind =>
    by_cases hname : (declared.lookup t.name).isSome
    · have hmem := (Declared.lookup_isSome t.name).1 hname
      simp [hname, hmem, Failure.isOfModel]
    · have hmem := mt (Declared.lookup_isSome t.name).2 hname
      have hbare : t.bare = { name := t.name, kind, enumerable := t.enumerable } := by
        simp [bare, hkind]
      simp only [hname, hbare]
      exact ⟨rfl, rfl, rfl, hmem⟩

/-- Declared types get the next slots, in order. -/
theorem wp_declareAll (rest : List TypeDeclaration) (hn : declared.names.Nodup) :
    Loading.wp (declareAll declared rest)
      (fun all s =>
        all = declared ++ (rest.zipIdx r.size).map (fun (t, i) => (t.name, Handle.ofNat i)) ∧
        s = { r with slots := r.slots ++ (rest.map bare).toArray } ∧
        (∀ t ∈ rest, (Kind.ofText? t.kind).isSome) ∧
        (declared.names ++ rest.map name).Nodup)
      (fun f => f.isOfModel ∧ ((∀ t ∈ rest, (Kind.ofText? t.kind).isSome) →
        ¬ (declared.names ++ rest.map name).Nodup)) r := by
  induction rest generalizing declared r with
  | nil => simp [declareAll, hn]
  | cons t rest ih =>
    unfold declareAll
    refine Loading.wp_seq (wp_declare t) (fun h s hs => ?_) fun f hf =>
      ⟨hf.1, fun hkinds hnodup => ?_⟩
    · obtain ⟨rfl, rfl, hkind, hname⟩ := hs
      have hnames : Declared.names (declared ++ [(t.name, r.nextHandle)]) =
          declared.names ++ [t.name] := by simp [Declared.names]
      have hn' : (Declared.names (declared ++ [(t.name, r.nextHandle)])).Nodup := by
        rw [hnames]
        exact List.nodup_append_comm.1 (by simp [hn, hname])
      refine Loading.wp_mono (ih hn') (fun all s hs => ?_) fun f hf => ⟨hf.1, fun hkinds => ?_⟩
      · obtain ⟨rfl, rfl, hkinds, hnodup⟩ := hs
        rw [hnames] at hnodup
        refine ⟨?_, ?_, List.forall_mem_cons.2 ⟨hkind, hkinds⟩, by simpa using hnodup⟩
        · simp [Registry.nextHandle]
        · simp [Registry.push]
      · have hnot := hf.2 (List.forall_mem_cons.1 hkinds).2
        rw [hnames] at hnot
        simpa using hnot
    · have hmem := hf.2 (hkinds t List.mem_cons_self)
      exact (List.nodup_append.1 hnodup).2.2 _ hmem _ List.mem_cons_self rfl

end TypeDeclaration

/-! ## The whole of loading -/

/-- An account for every stage of loading a model. -/
structure LoadAccount (m : Model) where
  /-- The account once these types are defined. -/
  after : List TypeDeclaration → Account m.declarations
  start : m.names.Nodup → (∀ t ∈ m.types, (Kind.ofText? t.kind).isSome) →
    (after []).Holds [] m.bare
  define : ∀ {done t rest edits r}, m.types = done ++ t :: rest →
    (after done).Holds (m.mentionedBy (done ++ [t])) r →
      t.DefinedBy ((after done).Reads (m.mentionedBy (done ++ [t])) r) edits →
        ∃ r', r.edit (.ofNat done.length) edits = .ok r' ∧
          (after (done ++ [t])).Holds (m.mentionedBy (done ++ [t])) r'

namespace Model

variable {m : Model}

theorem names_declarations : m.declarations.names = m.names := by
  have hfst := congrArg (List.map TypeDeclaration.name) (List.zipIdx_map_fst 0 m.types)
  rw [List.map_map] at hfst
  simpa [declarations, Declared.names, names, Function.comp_def] using hfst

theorem zip_declarations : m.types.zip (m.declarations.map Prod.snd) =
    m.types.zipIdx.map fun (t, i) => (t, Handle.ofNat i) := by
  conv_lhs => rw [← List.zipIdx_map_fst 0 m.types]
  rw [declarations, List.map_map, List.zip_map']
  rfl

theorem mem_declarations {p : String × Handle} :
    p ∈ m.declarations ↔ ∃ i t, m.types[i]? = some t ∧ p = (t.name, .ofNat i) := by
  simp only [declarations, List.mem_map, Prod.exists, List.mem_zipIdx_iff_getElem?]
  constructor
  · rintro ⟨t, i, ht, rfl⟩
    exact ⟨i, t, ht, rfl⟩
  · rintro ⟨i, t, ht, rfl⟩
    exact ⟨t, i, ht, rfl⟩

end Model

theorem Declared.lookup_of_mem {declared : Declared} (hn : declared.names.Nodup) {n : String}
    {h : Handle} (hm : (n, h) ∈ declared) : declared.lookup n = some h := by
  obtain ⟨before, behind, rfl⟩ := List.append_of_mem hm
  refine List.lookup_eq_some_iff.2 ⟨before, behind, rfl, fun p hp => ?_⟩
  simp only [Declared.names, List.map_append, List.map_cons] at hn
  have hne := (List.nodup_append.1 hn).2.2 p.1 (List.mem_map_of_mem hp) n List.mem_cons_self
  simpa using hne.symm

namespace LoadAccount

variable {m : Model} (V : LoadAccount m)

theorem wp_defineAll (rest done : List TypeDeclaration) (hm : m.types = done ++ rest)
    (hr : (V.after done).Holds (m.mentionedBy done) r) :
    Loading.wp
      (TypeDeclaration.defineAll m.declarations
        ((rest.zipIdx done.length).map fun (t, i) => (t, Handle.ofNat i)))
      (fun _ s => (V.after m.types).Holds (m.mentionedBy m.types) s ∧
        ∀ t ∈ rest, t.WellFormed m.names)
      (fun f => f.isOfModel ∧ ¬ ∀ t ∈ rest, t.WellFormed m.names) r := by
  induction rest generalizing done r with
  | nil =>
    rw [List.append_nil] at hm
    rw [hm]
    exact ⟨hr, by simp⟩
  | cons t rest ih =>
    -- The type that is defined next follows on those that are done.
    have hmentioned : m.mentionedBy done ++ t.mentions m.declarations.names =
        m.mentionedBy (done ++ [t]) := by
      simp [Model.mentionedBy, Model.names_declarations]
    simp only [List.zipIdx_cons, List.map_cons, TypeDeclaration.defineAll]
    have hdefine := TypeDeclaration.wp_define t (.ofNat done.length) hr
      (P := (V.after (done ++ [t])).Holds (m.mentionedBy (done ++ [t])))
    rw [hmentioned, Model.names_declarations] at hdefine
    refine Loading.wp_seq (hdefine fun edits s hs hedits => V.define hm hs hedits)
      (fun _ s hs => ?_) fun f hf => ⟨hf.1, fun hall => hf.2 (List.forall_mem_cons.1 hall).1⟩
    obtain ⟨hholds, hwf⟩ := hs
    have hrest := ih (done ++ [t]) (by simp [hm]) hholds
    rw [List.length_append, List.length_singleton] at hrest
    refine Loading.wp_mono hrest (fun _ s' hs' => ?_) fun f hf =>
      ⟨hf.1, fun hall => hf.2 (List.forall_mem_cons.1 hall).2⟩
    exact ⟨hs'.1, List.forall_mem_cons.2 ⟨hwf, hs'.2⟩⟩

/-- What stands for texts stands for their settled forms. -/
theorem forall₂_filterMap {declared : Declared} {A : Account declared} {l : List String}
    {hs : List Handle} (h : List.Forall₂ (A.Reads ms r) l hs) :
    List.Forall₂ (A.Denotes ms r) (l.filterMap (term? declared.names)) hs := by
  induction h with
  | nil => exact .nil
  | cons hread _ ih =>
    obtain ⟨t, ht, hh⟩ := hread
    rw [List.filterMap_cons_some ht]
    exact .cons hh ih

theorem wp_roots (hn : m.names.Nodup) (hr : (V.after m.types).Holds (m.mentionedBy m.types) r) :
    Loading.wp (m.roots m.declarations)
      (fun roots s => (V.after m.types).Holds m.mentions s ∧
        List.Forall₂ ((V.after m.types).Denotes m.mentions s) m.drawn roots ∧
          ∀ text ∈ m.diagram, (term? m.names text).isSome)
      (fun f => f.isOfModel ∧ ¬ ∀ text ∈ m.diagram, (term? m.names text).isSome) r := by
  unfold Model.roots Model.mentions Model.drawn
  by_cases hd : m.diagram.isEmpty
  -- Nothing is asked for, so all declared types are drawn.
  · have hnil := List.isEmpty_iff.1 hd
    simp only [hnil, List.isEmpty_nil, if_true, List.flatMap_nil, List.append_nil]
    refine ⟨hr, ?_, by simp⟩
    rw [← Model.names_declarations, Declared.names, List.map_map, List.forall₂_map_left_iff,
      List.forall₂_map_right_iff, List.forall₂_same]
    intro p hp
    rw [← Model.names_declarations] at hn
    exact (V.after m.types).denotes_declared hr (Declared.lookup_of_mem hn hp)
  · simp only [hd]
    have htexts := Account.wp_resolveTexts m.diagram hr
    rw [Model.names_declarations] at htexts
    refine Loading.wp_mono htexts (fun roots s hs => ?_) fun f hf => ⟨hf.1, fun hall => ?_⟩
    · have hterms := forall₂_filterMap hs.2
      have hsome := Account.isSome_of_reads hs.2
      rw [Model.names_declarations] at hterms hsome
      exact ⟨hs.1.holds, hterms, hsome⟩
    · obtain ⟨a, ha, hnone⟩ := hf.2
      have hsome := hall a ha
      simp [hnone] at hsome

/-- Loading succeeds on well-formed models, and the account holds of what it leaves; it fails on all
other models, and they are at fault. -/
theorem wp_loading :
    Loading.wp m.loading
      (fun roots s => m.WellFormed ∧ (V.after m.types).Holds m.mentions s ∧
        List.Forall₂ ((V.after m.types).Denotes m.mentions s) m.drawn roots)
      (fun f => f.isOfModel ∧ ¬ m.WellFormed) .empty := by
  unfold Model.loading
  have hdeclare := @TypeDeclaration.wp_declareAll .empty [] m.types List.nodup_nil
  refine Loading.wp_seq hdeclare (fun declared s hs => ?_) fun f hf =>
    ⟨hf.1, fun hwf => hf.2 hwf.kinds hwf.names⟩
  obtain ⟨hdeclared, rfl, hkinds, hnames⟩ := hs
  obtain rfl : declared = m.declarations := hdeclared
  rw [Model.zip_declarations]
  have hbare : ({ Registry.empty with slots := Registry.empty.slots ++
      (m.types.map TypeDeclaration.bare).toArray } : Registry) = m.bare := by
    simp [Registry.empty, Model.bare]
  rw [hbare]
  have hn : m.names.Nodup := hnames
  refine Loading.wp_seq (V.wp_defineAll m.types [] rfl (V.start hn hkinds))
    (fun _ s hs => ?_) fun f hf => ⟨hf.1, fun hwf => hf.2 hwf.types⟩
  refine Loading.wp_mono (V.wp_roots hn hs.1) (fun roots s' hs' => ?_) fun f hf =>
    ⟨hf.1, fun hwf => hf.2 hwf.diagram⟩
  obtain ⟨hholds, hroots, hdiagram⟩ := hs'
  exact ⟨⟨hkinds, hn, hs.2, hdiagram⟩, hholds, hroots⟩

end LoadAccount

namespace Model

variable {m : Model} {l : Loaded} {f : Failure}

theorem load_eq_ok : m.load.result = .ok l ↔
    (m.loading .empty).result = .ok (l.roots, l.registry) := by
  obtain ⟨registry, roots⟩ := l
  simp only [load, Traced.result_within, Traced.result_bind, Traced.result_report,
    Traced.result_pure, Except.bind_eq_ok, Except.ok.injEq, Prod.exists, Loaded.mk.injEq]
  constructor
  · rintro ⟨_, _, hloading, _, -, rfl, rfl⟩
    exact hloading
  · intro hloading
    exact ⟨roots, registry, hloading, (), trivial, rfl, rfl⟩

theorem load_eq_error : m.load.result = .error f ↔ (m.loading .empty).result = .error f := by
  simp only [load, Traced.result_within, Traced.result_bind, Traced.result_report,
    Traced.result_pure, Except.ok_bind]
  cases (m.loading .empty).result <;> simp

end Model

namespace LoadAccount

variable {m : Model} (V : LoadAccount m) {l : Loaded} {f : Failure}

theorem of_load (hl : m.load.result = .ok l) : m.WellFormed ∧
    (V.after m.types).Holds m.mentions l.registry ∧
      List.Forall₂ ((V.after m.types).Denotes m.mentions l.registry) m.drawn l.roots :=
  Loading.wp_of_result V.wp_loading (Model.load_eq_ok.1 hl)

include V in
theorem of_load_error (hf : m.load.result = .error f) : f.isOfModel ∧ ¬ m.WellFormed := by
  have hwp := V.wp_loading
  rw [Loading.wp, Model.load_eq_error.1 hf] at hwp
  exact hwp

end LoadAccount

end ClassDiagram
