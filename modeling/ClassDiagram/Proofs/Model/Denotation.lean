import ClassDiagram.Proofs.Model.Part
import ClassDiagram.Proofs.TypeExpression.Resolution
/-!
# What expressions denote

An expression denotes a handle in a registry: a bare name that of the type declared under it, and a
name with arguments that of the slot which was constructed from the generic type and the handles of
the arguments. In a loaded registry this is the handle of the place of the settled form.
-/

namespace ClassDiagram

open TypeExpression (settleAll? genericAmong? term? settle?_nil settle?_cons settleAll?_cons
  term?_eq_some forall₂_constructions)

/-- The type in the slot was constructed from this definition and these arguments. -/
def Registry.ConstructedAs (r : Registry) (h : Handle) (c : Construction) : Prop :=
  ∃ d, r.get? h = some d ∧ d.definition = some c.definition ∧ d.arguments = c.arguments

namespace Model

/-- The handle is that of the type declared under the name. -/
def Declares (m : Model) (n : String) (h : Handle) : Prop :=
  ∃ i : Nat, m.names[i]? = some n ∧ h = .ofNat i

/-- The handle is that of the generic type declared under the name, or else under the name with a
backtick and the number of arguments. -/
def DeclaresGeneric (m : Model) (n : String) (arity : Nat) (h : Handle) : Prop :=
  m.Declares n h ∨ n ∉ m.names ∧ m.Declares (n ++ "`" ++ toString arity) h

mutual

/-- The expression denotes the handle. -/
def Denotes (m : Model) (r : Registry) : TypeExpression → Handle → Prop
  | .node n [], h => m.Declares n h
  | .node n (a :: as), h => ∃ c : Construction, m.DeclaresGeneric n (as.length + 1) c.definition ∧
    DenotesAll m r (a :: as) c.arguments ∧ r.ConstructedAs h c

/-- The expressions denote the handles. -/
def DenotesAll (m : Model) (r : Registry) : List TypeExpression → List Handle → Prop
  | [], [] => True
  | a :: as, h :: hs => Denotes m r a h ∧ DenotesAll m r as hs
  | _, _ => False

end

/-- The text is read as an expression that denotes the handle. -/
def DenotesIn (m : Model) (r : Registry) (text : String) (h : Handle) : Prop :=
  ∃ e, TypeExpression.read text = .ok e ∧ m.Denotes r e h

/-- A name with arguments asks for the construction. -/
def Builds (m : Model) (r : Registry) (n : String) (arguments : List TypeExpression)
    (c : Construction) : Prop :=
  m.DeclaresGeneric n arguments.length c.definition ∧ m.DenotesAll r arguments c.arguments

/-- Somewhere in an expression of the model, at any depth, a name with arguments asks for the
construction. -/
def Occurs (m : Model) (r : Registry) (c : Construction) : Prop :=
  ∃ text ∈ m.expressions, ∃ e, TypeExpression.read text = .ok e ∧
    ∃ n a as, .node n (a :: as) ∈ e.constructions ∧ m.Builds r n (a :: as) c

/-- The construction of a type, its definition and its arguments being in their places. -/
def constructionOf (m : Model) (t : TypeExpression) : Construction :=
  ⟨m.place (.node t.name []), t.arguments.map m.place⟩

/-- The model is loaded, and every type is in the place that the layout gives it. -/
structure Placed (m : Model) (l : Loaded) : Prop where
  wellFormed : m.WellFormed
  closed : l.registry.Closed
  room : m.HasRoom m.mentions
  chart : m.Charted m.types m.mentions l.registry
  roots : l.roots = m.drawn.map m.place

variable {m : Model} {l : Loaded} {n : String} {h : Handle} {c : Construction}

theorem denotes_cons {r : Registry} {a : TypeExpression} {as : List TypeExpression} :
    m.Denotes r (.node n (a :: as)) h ↔
      ∃ c, m.Builds r n (a :: as) c ∧ r.ConstructedAs h c := by
  simp only [Denotes, Builds, List.length_cons, and_assoc]

theorem placed_of_load (hl : m.load.result = .ok l) (hsize : l.registry.size ≤ UInt32.size) :
    m.Placed l := by
  obtain ⟨hroom, hchart, -, hroots⟩ := charted_of_load hl (.inr hsize)
  exact ⟨exists_load_iff.1 ⟨l, hl⟩, (closed_of_load hl).1, hroom, hchart, hroots⟩

/-! ## Declared names -/

theorem declares_iff (hn : m.names.Nodup) (hmem : n ∈ m.names) :
    m.Declares n h ↔ h = m.place (.node n []) := by
  rw [place_declared hn hmem]
  constructor
  · rintro ⟨i, hi, rfl⟩
    obtain ⟨hlt, rfl⟩ := List.getElem?_eq_some_iff.1 hi
    rw [hn.idxOf_getElem]
  · rintro rfl
    exact ⟨_, List.getElem?_idxOf hmem, rfl⟩

theorem declaresGeneric_iff (hn : m.names.Nodup) {arity : Nat} {d : String}
    (hd : genericAmong? m.names n arity = some d) :
    m.DeclaresGeneric n arity h ↔ h = m.place (.node d []) := by
  by_cases hname : n ∈ m.names
  · rw [genericAmong?, if_pos hname, Option.some.injEq] at hd
    subst hd
    simp only [DeclaresGeneric, declares_iff hn hname, hname, not_true_eq_false, false_and,
      or_false]
  · rw [genericAmong?, if_neg hname, Option.ite_none_right_eq_some, Option.some.injEq] at hd
    obtain ⟨harity, rfl⟩ := hd
    have hnot : ¬ m.Declares n h := by
      rintro ⟨i, hi, -⟩
      exact hname (List.mem_of_getElem? hi)
    simp only [DeclaresGeneric, hnot, hname, not_false_eq_true, true_and, false_or,
      declares_iff hn harity]

namespace Placed

/-! ## Constructed types -/

section Slots

variable (hp : m.Placed l) {t : TypeExpression}

include hp

/-- Every occupied slot is the place of the type that it describes. -/
theorem exists_described {d : Description} (hd : l.registry.get? h = some d) :
    ∃ u ∈ m.layout, h = m.place u ∧ m.describe? m.types u = some d := by
  obtain ⟨u, hu, rfl⟩ := exists_place hp.room hp.chart (Registry.isRegistered_of_get? hd)
  exact ⟨u, hu, rfl, (hp.chart.slots u hu).symm.trans hd⟩

theorem exists_description (ht : t ∈ m.layout) : ∃ d, l.registry.get? (m.place t) = some d ∧
    m.describe? m.types t = some d := by
  obtain ⟨d, hd⟩ := Registry.isRegistered_iff.1 (isRegistered_place hp.room hp.chart ht)
  exact ⟨d, hd, (hp.chart.slots t ht).symm.trans hd⟩

/-- The place of a constructed type is the one slot that was constructed like it. -/
theorem constructedAs_iff {a : TypeExpression} {as : List TypeExpression}
    (ht : .node n (a :: as) ∈ m.layout) :
    l.registry.ConstructedAs h (m.constructionOf (.node n (a :: as))) ↔
      h = m.place (.node n (a :: as)) := by
  obtain ⟨hleaf, hargs⟩ := hp.chart.parts _ _ ht
  constructor
  · rintro ⟨d, hd, hdefinition, harguments⟩
    obtain ⟨⟨n', args'⟩, hu, rfl, hdescribe⟩ := hp.exists_described hd
    cases args' with
    | nil => simp [(of_describe?_declared hdescribe).2.1] at hdefinition
    | cons b bs =>
      obtain ⟨-, hdefinition', harguments'⟩ := of_describe?_constructed hdescribe
      rw [hdefinition', Option.some.injEq] at hdefinition
      rw [harguments'] at harguments
      have heq := hp.chart.eq_of_construction hp.room hu hleaf hargs
        (Construction.mk.injEq .. ▸ ⟨hdefinition, harguments⟩)
      rw [heq]
  · rintro rfl
    obtain ⟨d, hd, hdescribe⟩ := hp.exists_description ht
    obtain ⟨-, hdefinition, harguments⟩ := of_describe?_constructed hdescribe
    exact ⟨d, hd, hdefinition, harguments⟩

end Slots

/-! ## Expressions -/

theorem builds_iff_of (hp : m.Placed l) {es ts : List TypeExpression} {d : String}
    (hd : genericAmong? m.names n es.length = some d)
    (hall : ∀ hs, m.DenotesAll l.registry es hs ↔ hs = ts.map m.place) :
    m.Builds l.registry n es c ↔ c = m.constructionOf (.node d ts) := by
  obtain ⟨definition, arguments⟩ := c
  rw [Builds, declaresGeneric_iff hp.wellFormed.names hd, hall, constructionOf,
    Construction.mk.injEq, TypeExpression.name, TypeExpression.arguments]

mutual

/-- An expression denotes the place of its settled form, and nothing else. -/
theorem denotes_iff (hp : m.Placed l) : ∀ {e t : TypeExpression} {h : Handle},
    e.settle? m.names = some t → t ∈ m.layout → (m.Denotes l.registry e h ↔ h = m.place t)
  | .node n [], t, h, ht, _ => by
    obtain ⟨hn, rfl⟩ := settle?_nil.1 ht
    rw [Denotes, declares_iff hp.wellFormed.names hn]
  | .node n (a :: as), t, h, ht, hmem => by
    obtain ⟨d, b, bs, hd, hb, hbs, rfl⟩ := settle?_cons.1 ht
    have hall := settleAll?_cons.2 ⟨b, bs, hb, hbs, rfl⟩
    obtain ⟨-, hargs⟩ := hp.chart.parts _ _ hmem
    have hbuilds : ∀ c, m.Builds l.registry n (a :: as) c ↔
        c = m.constructionOf (.node d (b :: bs)) :=
      fun c => builds_iff_of hp hd fun hs => denotesAll_iff hp hall hargs
    rw [denotes_cons, ← hp.constructedAs_iff hmem]
    simp only [hbuilds, exists_eq_left]

theorem denotesAll_iff (hp : m.Placed l) : ∀ {es ts : List TypeExpression} {hs : List Handle},
    settleAll? m.names es = some ts → (∀ t ∈ ts, t ∈ m.layout) →
      (m.DenotesAll l.registry es hs ↔ hs = ts.map m.place)
  | [], ts, hs, hts, _ => by
    obtain rfl := Option.some.inj hts
    cases hs <;> simp [DenotesAll]
  | a :: as, ts, hs, hts, hmem => by
    obtain ⟨b, bs, hb, hbs, rfl⟩ := settleAll?_cons.1 hts
    obtain ⟨hmem, hmems⟩ := List.forall_mem_cons.1 hmem
    cases hs with
    | nil => simp [DenotesAll]
    | cons h hs =>
      rw [DenotesAll, denotes_iff hp hb hmem, denotesAll_iff hp hbs hmems, List.map_cons,
        List.cons.injEq]

end

section Texts

variable (hp : m.Placed l) {text : String} {e t : TypeExpression}

include hp

theorem builds_iff {a : TypeExpression} {as : List TypeExpression}
    (ht : (TypeExpression.node n (a :: as)).settle? m.names = some t) (hmem : t ∈ m.layout) :
    m.Builds l.registry n (a :: as) c ↔ c = m.constructionOf t := by
  obtain ⟨d, b, bs, hd, hb, hbs, rfl⟩ := settle?_cons.1 ht
  have hall := settleAll?_cons.2 ⟨b, bs, hb, hbs, rfl⟩
  obtain ⟨-, hargs⟩ := hp.chart.parts _ _ hmem
  exact builds_iff_of hp hd fun hs => denotesAll_iff hp hall hargs

theorem denotesIn_iff (htext : text ∈ m.expressions) (ht : term? m.names text = some t) :
    m.DenotesIn l.registry text h ↔ h = m.place t := by
  obtain ⟨e, he, hsettle⟩ := term?_eq_some.1 ht
  have hdenotes := denotes_iff (h := h) hp hsettle (mem_layout_of_term? htext ht)
  simp only [DenotesIn, he, Except.ok.injEq, exists_eq_left', hdenotes]

/-- The constructions that occur are those of the constructed types that come with the model. -/
theorem occurs_iff : m.Occurs l.registry c ↔ ∃ t ∈ m.mentions, c = m.constructionOf t := by
  simp only [Occurs, mem_mentions_iff]
  constructor
  · rintro ⟨text, htext, e, he, n, a, as, hpart, hbuilds⟩
    obtain ⟨t, ht⟩ := Option.isSome_iff_exists.1 (hp.wellFormed.isSome_term? htext)
    obtain ⟨_, he', hsettle⟩ := term?_eq_some.1 ht
    obtain rfl := Except.ok.inj (he.symm.trans he')
    obtain ⟨u, hu, hsettled⟩ :=
      (forall₂_constructions hsettle).flip.exists_of_mem_right hpart
    have hmention : u ∈ m.mentions := mem_mentions_iff.2 ⟨text, htext, t, ht, hu⟩
    rw [hp.builds_iff hsettled (mem_layoutOf.2 (.inr hmention))] at hbuilds
    exact ⟨u, ⟨text, htext, t, ht, hu⟩, hbuilds⟩
  · rintro ⟨u, ⟨text, htext, t, ht, hu⟩, rfl⟩
    have hmention : u ∈ m.mentions := mem_mentions_iff.2 ⟨text, htext, t, ht, hu⟩
    obtain ⟨e, he, hsettle⟩ := term?_eq_some.1 ht
    obtain ⟨part, hpart, hsettled⟩ := (forall₂_constructions hsettle).exists_of_mem_right hu
    obtain ⟨n, a, as, rfl⟩ := TypeExpression.exists_of_mem_constructions hpart
    refine ⟨text, htext, e, he, n, a, as, hpart, ?_⟩
    rw [hp.builds_iff hsettled (mem_layoutOf.2 (.inr hmention))]

end Texts

end Placed

end Model

end ClassDiagram
