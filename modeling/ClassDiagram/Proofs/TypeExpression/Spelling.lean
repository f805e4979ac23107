import ClassDiagram.Proofs.TypeExpression.Reading
import ClassDiagram.Proofs.TypeExpression.Settled
/-!
# Spelling settled expressions

A settled expression names its types as they are declared, so its own text settles to it again.
Hence there is a text for every constructed type that comes with some other text.
-/

namespace ClassDiagram.TypeExpression

/-! ## Names that were read -/

theorem IsName.withArity {l : List Char} (h : IsName l) (arity : Nat) :
    IsName (l ++ '\x60' :: (toString arity).toList) := by
  obtain ⟨hne, hhead, hon⟩ := h
  obtain ⟨c, l, rfl⟩ := List.exists_cons_of_ne_nil hne
  refine ⟨by simp, by simpa using hhead, ?_⟩
  intro d hd
  rcases List.mem_append.1 hd with hd | hd
  · exact hon d hd
  · rcases List.mem_cons.1 hd with rfl | hd
    · decide
    · -- Digits end no name.
      have hdigit : d.isDigit := by
        rw [Nat.toString_eq_repr, Nat.toList_repr] at hd
        exact Nat.isDigit_of_mem_toDigits (by decide) (by decide) hd
      rw [Bool.eq_false_iff]
      intro hends
      simp only [endsName, Bool.or_eq_true, beq_iff_eq] at hends
      rcases hends with (((((rfl | rfl) | rfl) | rfl) | rfl) | rfl) | rfl <;>
        exact absurd hdigit (by decide)

mutual

theorem Derives.wellNamed {l : List Char} {e : TypeExpression} : Derives l e → WellNamed e
  | .bare _ hn _ _ => ⟨by rwa [String.toList_ofList], trivial⟩
  | .generic _ hn _ _ hall _ => ⟨by rwa [String.toList_ofList], hall.wellNamed⟩

theorem DerivesAll.wellNamed {l : List Char} {es : List TypeExpression} :
    DerivesAll l es → AllWellNamed es
  | .one he => ⟨he.wellNamed, trivial⟩
  | .more he hall => ⟨he.wellNamed, hall.wellNamed⟩

end

/-! ## Settled expressions -/

variable {names : List String}

/-- The expression can be written, and it is settled. -/
def Spelled (names : List String) (t : TypeExpression) : Prop :=
  WellNamed t ∧ t.settle? names = some t

/-- The expressions can be written, and they are settled. -/
def AllSpelled (names : List String) (ts : List TypeExpression) : Prop :=
  AllWellNamed ts ∧ settleAll? names ts = some ts

theorem spelled_cons {n : String} {a : TypeExpression} {as : List TypeExpression} :
    Spelled names (node n (a :: as)) ↔ IsName n.toList ∧
      genericAmong? names n (as.length + 1) = some n ∧ Spelled names a ∧ AllSpelled names as := by
  simp only [Spelled, AllSpelled, WellNamed, AllWellNamed, settle?, Option.bind_eq_bind,
    Option.bind_eq_some_iff, Option.pure_def, Option.some.injEq, node.injEq, List.cons.injEq]
  constructor
  · rintro ⟨⟨hn, ha, has⟩, d, hd, b, hb, bs, hbs, rfl, rfl, rfl⟩
    exact ⟨hn, hd, ⟨ha, hb⟩, has, hbs⟩
  · rintro ⟨hn, hd, ⟨ha, hb⟩, has, hbs⟩
    exact ⟨⟨hn, ha, has⟩, n, hd, a, hb, as, hbs, rfl, rfl, rfl⟩

theorem allSpelled_cons {a : TypeExpression} {as : List TypeExpression} :
    AllSpelled names (a :: as) ↔ Spelled names a ∧ AllSpelled names as := by
  simp only [Spelled, AllSpelled, AllWellNamed, settleAll?, Option.bind_eq_bind,
    Option.bind_eq_some_iff, Option.pure_def, Option.some.injEq, List.cons.injEq]
  constructor
  · rintro ⟨⟨ha, has⟩, b, hb, bs, hbs, rfl, rfl⟩
    exact ⟨⟨ha, hb⟩, has, hbs⟩
  · rintro ⟨⟨ha, hb⟩, has, hbs⟩
    exact ⟨⟨ha, has⟩, a, hb, as, hbs, rfl, rfl⟩

/-- The name under which a generic type is declared can be written if the name in use can. -/
theorem genericAmong?_eq_some {n d : String} {arity : Nat} (hn : IsName n.toList)
    (h : genericAmong? names n arity = some d) : IsName d.toList ∧ d ∈ names := by
  unfold genericAmong? at h
  split at h
  · obtain rfl := Option.some.inj h
    exact ⟨hn, ‹_›⟩
  · split at h
    · obtain rfl := Option.some.inj h
      refine ⟨?_, ‹_›⟩
      have harity := hn.withArity arity
      simpa [String.toList_append] using harity
    · simp at h

mutual

theorem spelled_of_settle? : ∀ {e t : TypeExpression}, WellNamed e → e.settle? names = some t →
    Spelled names t
  | node n [], t, he, h => by
    obtain ⟨-, rfl⟩ := settle?_nil.1 h
    exact ⟨he, h⟩
  | node n (a :: as), t, he, h => by
    obtain ⟨d, first, rest, hd, hfirst, hrest, rfl⟩ := settle?_cons.1 h
    obtain ⟨hn, hmem⟩ := genericAmong?_eq_some he.1 hd
    refine spelled_cons.2 ⟨hn, if_pos hmem, spelled_of_settle? he.2.1 hfirst, ?_⟩
    exact allSpelled_of_settleAll? he.2.2 hrest

theorem allSpelled_of_settleAll? : ∀ {es ts : List TypeExpression}, AllWellNamed es →
    settleAll? names es = some ts → AllSpelled names ts
  | [], ts, _, h => by
    obtain rfl := Option.some.inj h
    exact ⟨trivial, rfl⟩
  | a :: as, ts, he, h => by
    obtain ⟨first, rest, hfirst, hrest, rfl⟩ := settleAll?_cons.1 h
    exact allSpelled_cons.2
      ⟨spelled_of_settle? he.1 hfirst, allSpelled_of_settleAll? he.2 hrest⟩

end

/-! ## Parts -/

mutual

/-- The parts of a settled expression are settled, and their parts are parts of the whole. -/
theorem of_mem_constructions : ∀ {t c : TypeExpression}, Spelled names t → c ∈ t.constructions →
    Spelled names c ∧ c.constructions ⊆ t.constructions
  | node n [], c, _, hc => by simp [constructions] at hc
  | node n (a :: as), c, ht, hc => by
    obtain ⟨-, -, ha, has⟩ := spelled_cons.1 ht
    simp only [constructions, List.mem_append, List.mem_singleton] at hc
    simp only [constructions]
    rcases hc with (hc | hc) | rfl
    · obtain ⟨hspelled, hsub⟩ := of_mem_constructions ha hc
      exact ⟨hspelled, fun x hx => by simp [hsub hx]⟩
    · obtain ⟨hspelled, hsub⟩ := of_mem_constructionsAll has hc
      exact ⟨hspelled, fun x hx => by simp [hsub hx]⟩
    · exact ⟨ht, fun x hx => by simpa [constructions] using hx⟩

theorem of_mem_constructionsAll : ∀ {ts : List TypeExpression} {c : TypeExpression},
    AllSpelled names ts → c ∈ constructionsAll ts →
      Spelled names c ∧ c.constructions ⊆ constructionsAll ts
  | [], c, _, hc => by simp [constructionsAll] at hc
  | a :: as, c, ht, hc => by
    obtain ⟨ha, has⟩ := allSpelled_cons.1 ht
    simp only [constructionsAll, List.mem_append] at hc
    simp only [constructionsAll]
    rcases hc with hc | hc
    · obtain ⟨hspelled, hsub⟩ := of_mem_constructions ha hc
      exact ⟨hspelled, fun x hx => by simp [hsub hx]⟩
    · obtain ⟨hspelled, hsub⟩ := of_mem_constructionsAll has hc
      exact ⟨hspelled, fun x hx => by simp [hsub hx]⟩

end

/-! ## Texts -/

theorem Spelled.exists_text {t : TypeExpression} (h : Spelled names t) :
    ∃ text, term? names text = some t := by
  -- No blanks at all will do.
  have hproper : ∀ way, ((fun _ => {} : Layout) way).Proper := fun _ =>
    ⟨by simp [Blanks], by simp [Blanks], by simp [StopsName], by simp [Blanks]⟩
  have hderives := derives_render hproper [] t h.1
  refine ⟨String.ofList (render (fun _ => {}) [] t), ?_⟩
  rw [term?, read_eq_ok_iff.2 (by rwa [String.toList_ofList])]
  exact h.2

/-- Every constructed type that comes with a text has a text of its own, with which no other types
come. -/
theorem exists_text_of_mem_mentions {text : String} {c : TypeExpression}
    (h : c ∈ mentions names text) :
    ∃ text', term? names text' = some c ∧ mentions names text' ⊆ mentions names text := by
  unfold mentions at h
  cases hterm : term? names text with
  | none => simp [hterm] at h
  | some t =>
    have hspelled : Spelled names t := by
      unfold term? at hterm
      cases hread : read text with
      | error f => simp [hread] at hterm
      | ok e =>
        rw [hread] at hterm
        exact spelled_of_settle? (read_eq_ok_iff.1 hread).wellNamed hterm
    rw [hterm] at h
    obtain ⟨hc, hsub⟩ := of_mem_constructions hspelled h
    obtain ⟨text', htext'⟩ := hc.exists_text
    refine ⟨text', htext', ?_⟩
    simpa only [mentions, htext', hterm] using hsub

end ClassDiagram.TypeExpression
