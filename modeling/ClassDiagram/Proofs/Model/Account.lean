import ClassDiagram.Proofs.Loading
import ClassDiagram.Proofs.Model.WellFormed
/-!
# Accounts of loading

An account says what holds of a registry while a model is loaded, given the constructed types that
were mentioned so far, and which handles stand for which settled expressions. Whoever gives an
account says why constructing a type keeps it; that all of loading keeps it, and that loading fails
on models only that are not well-formed, is proved here once for every account.
-/

namespace ClassDiagram

open TypeExpression (settle? settleAll? genericAmong? term? constructions constructionsAll)

variable {declared : Declared} {ms ms' ms'' : List TypeExpression} {r r' r'' : Registry}

namespace Declared

/-- The declared names. -/
def names (declared : Declared) : List String := declared.map Prod.fst

theorem lookup_isSome (name : String) : (declared.lookup name).isSome ↔ name ∈ declared.names := by
  simp only [List.lookup_isSome_iff, names, List.mem_map, beq_iff_eq]
  exact exists_congr fun p => and_congr_right fun _ => eq_comm

theorem mem_of_lookup {n : String} {h : Handle} (hh : declared.lookup n = some h) :
    (n, h) ∈ declared := by
  obtain ⟨before, behind, hd, -⟩ := List.lookup_eq_some_iff.1 hh
  simp [hd]

/-- The type with the name is declared, or its name is not. -/
theorem wp_resolveName {name : String} {Q : Handle → Registry → Prop} {E : Failure → Prop}
    (hfound : ∀ h, declared.lookup name = some h → Q h r)
    (hmissing : name ∉ declared.names → E (.model (.unknownName name))) :
    Loading.wp (liftM (declared.resolveName name)) Q E r := by
  rw [Loading.wp_liftM, resolveName]
  have hname := @lookup_isSome declared name
  cases hlookup : declared.lookup name with
  | some h => simpa using hfound h hlookup
  | none => simpa [hlookup] using hmissing (by simp [← hname, hlookup])

theorem wp_resolveGeneric {name : String} {arity : Nat} {Q : Handle → Registry → Prop}
    {E : Failure → Prop}
    (hfound : ∀ n h, genericAmong? declared.names name arity = some n →
      declared.lookup n = some h → Q h r)
    (hmissing : genericAmong? declared.names name arity = none → ∀ fault, E (.model fault)) :
    Loading.wp (liftM (declared.resolveGeneric name arity)) Q E r := by
  have hname := @lookup_isSome declared name
  cases hlookup : declared.lookup name with
  | some h =>
    have hamong : genericAmong? declared.names name arity = some name := by
      rw [genericAmong?, if_pos (hname.1 (by simp [hlookup]))]
    simpa [Loading.wp_liftM, resolveGeneric, hlookup] using hfound name h hamong hlookup
  | none =>
    have hnot : name ∉ declared.names := fun hmem => by simp [hlookup, hmem] at hname
    simp only [resolveGeneric, hlookup]
    refine wp_resolveName (fun h hh => hfound _ h ?_ hh) fun hmem => hmissing ?_ _
    · rw [genericAmong?, if_neg hnot, if_pos ((lookup_isSome _).1 (by rw [hh]; rfl))]
    · rw [genericAmong?, if_neg hnot, if_neg hmem]

end Declared

/-- What holds while a model is loaded. Both parts may speak of the constructed types that were
mentioned so far. -/
structure Account (declared : Declared) where
  /-- It holds of the registry. -/
  Holds : List TypeExpression → Registry → Prop
  /-- The handle stands for the settled expression. -/
  Denotes : List TypeExpression → Registry → TypeExpression → Handle → Prop
  denotes_declared : ∀ {ms r n h}, Holds ms r → declared.lookup n = some h →
    Denotes ms r (.node n []) h
  wp_construct : ∀ {ms r n h ts hs}, Holds ms r → declared.lookup n = some h → ts ≠ [] →
    List.Forall₂ (Denotes ms r) ts hs →
      Loading.wp (fun registry => registry.construct ⟨h, hs⟩)
        (fun k r' => Holds (ms ++ [.node n ts]) r' ∧
          (∀ t a, Denotes ms r t a → Denotes (ms ++ [.node n ts]) r' t a) ∧
            Denotes (ms ++ [.node n ts]) r' (.node n ts) k)
        (fun _ => False) r

namespace Account

variable (A : Account declared)

/-- A later registry of which the account holds. What stood for an expression still does. -/
structure Leads (ms : List TypeExpression) (r : Registry) (ms' : List TypeExpression)
    (r' : Registry) : Prop where
  holds : A.Holds ms' r'
  keeps : ∀ t h, A.Denotes ms r t h → A.Denotes ms' r' t h

variable {A}

theorem Leads.refl (h : A.Holds ms r) : A.Leads ms r ms r := ⟨h, fun _ _ h => h⟩

theorem Leads.trans (h : A.Leads ms r ms' r') (h' : A.Leads ms' r' ms'' r'') :
    A.Leads ms r ms'' r'' :=
  ⟨h'.holds, fun t a ha => h'.keeps t a (h.keeps t a ha)⟩

/-! ## Expressions -/

mutual

/-- An expression is resolved if it settles, and then to a handle that stands for its settled
form. -/
theorem wp_resolve (A : Account declared) :
    ∀ (e : TypeExpression) {ms r}, A.Holds ms r →
      Loading.wp (declared.resolve e)
        (fun h r' => ∃ t, e.settle? declared.names = some t ∧
          A.Leads ms r (ms ++ t.constructions) r' ∧ A.Denotes (ms ++ t.constructions) r' t h)
        (fun f => f.isOfModel ∧ e.settle? declared.names = none) r
  | .node name [], ms, r, hr => by
    simp only [Declared.resolve]
    refine Declared.wp_resolveName (fun h hh => ?_) fun hname => ⟨rfl, by simp [settle?, hname]⟩
    have hname := (Declared.lookup_isSome name).1 (by rw [hh]; rfl)
    exact ⟨.node name [], by simp [settle?, hname], by simpa [constructions] using Leads.refl hr,
      by simpa [constructions] using A.denotes_declared hr hh⟩
  | .node name (a :: as), ms, r, hr => by
    rw [Declared.resolve, Loading.wp_bind]
    refine Declared.wp_resolveGeneric (fun n definition hn hdefinition => ?_) fun hnone _ =>
      ⟨rfl, by simp [settle?, hnone]⟩
    refine Loading.wp_seq (wp_resolve A a hr) (fun first s hfirst => ?_) fun f hf =>
      ⟨hf.1, by simp [settle?, hf.2]⟩
    obtain ⟨t, ht, hleads, hdenotes⟩ := hfirst
    refine Loading.wp_seq (wp_resolveAll A as hleads.holds) (fun rest s' hrest => ?_) fun f hf =>
      ⟨hf.1, by simp [settle?, hf.2]⟩
    obtain ⟨ts, hts, hleads', hdenotes'⟩ := hrest
    -- The first argument still stands for its expression after the others were resolved.
    have hall := List.Forall₂.cons (hleads'.keeps _ _ hdenotes) hdenotes'
    refine Loading.wp_mono (A.wp_construct hleads'.holds hdefinition (by simp) hall)
      (fun k s'' hk => ?_) fun _ hf => hf.elim
    obtain ⟨hholds, hkeeps, hself⟩ := hk
    refine ⟨.node n (t :: ts), by simp [settle?, hn, ht, hts], ?_, ?_⟩
    · simpa [constructions] using (hleads.trans hleads').trans ⟨hholds, hkeeps⟩
    · simpa [constructions] using hself

theorem wp_resolveAll (A : Account declared) :
    ∀ (es : List TypeExpression) {ms r}, A.Holds ms r →
      Loading.wp (declared.resolveAll es)
        (fun hs r' => ∃ ts, settleAll? declared.names es = some ts ∧
          A.Leads ms r (ms ++ constructionsAll ts) r' ∧
            List.Forall₂ (A.Denotes (ms ++ constructionsAll ts) r') ts hs)
        (fun f => f.isOfModel ∧ settleAll? declared.names es = none) r
  | [], ms, r, hr => by
    simp only [Declared.resolveAll, Loading.wp_pure]
    exact ⟨[], rfl, by simpa [constructionsAll] using Leads.refl hr, .nil⟩
  | a :: as, ms, r, hr => by
    rw [Declared.resolveAll]
    refine Loading.wp_seq (wp_resolve A a hr) (fun first s hfirst => ?_) fun f hf =>
      ⟨hf.1, by simp [settleAll?, hf.2]⟩
    obtain ⟨t, ht, hleads, hdenotes⟩ := hfirst
    refine Loading.wp_seq (wp_resolveAll A as hleads.holds) (fun rest s' hrest => ?_) fun f hf =>
      ⟨hf.1, by simp [settleAll?, hf.2]⟩
    obtain ⟨ts, hts, hleads', hdenotes'⟩ := hrest
    refine ⟨t :: ts, by simp [settleAll?, ht, hts], ?_, ?_⟩
    · simpa [constructionsAll] using hleads.trans hleads'
    · simpa [constructionsAll] using List.Forall₂.cons (hleads'.keeps _ _ hdenotes) hdenotes'

end

/-! ## Texts -/

variable (A) in
/-- The handle stands for what the text spells. -/
def Reads (ms : List TypeExpression) (r : Registry) (text : String) (h : Handle) : Prop :=
  ∃ t, term? declared.names text = some t ∧ A.Denotes ms r t h

theorem Leads.reads {text : String} {h : Handle} (hl : A.Leads ms r ms' r')
    (ht : A.Reads ms r text h) : A.Reads ms' r' text h := by
  obtain ⟨t, ht, hh⟩ := ht
  exact ⟨t, ht, hl.keeps t h hh⟩

theorem wp_resolveText (text : String) (hr : A.Holds ms r) :
    Loading.wp (declared.resolveText text)
      (fun h r' => A.Leads ms r (ms ++ TypeExpression.mentions declared.names text) r' ∧
        A.Reads (ms ++ TypeExpression.mentions declared.names text) r' text h)
      (fun f => f.isOfModel ∧ term? declared.names text = none) r := by
  unfold Declared.resolveText Reads TypeExpression.mentions term?
  cases TypeExpression.read text with
  | error fault => simp [Failure.isOfModel]
  | ok e =>
    refine Loading.wp_mono (wp_resolve A e hr) (fun h r' hh => ?_) fun _ hf => hf
    obtain ⟨t, ht, hleads, hdenotes⟩ := hh
    simp only [ht]
    exact ⟨hleads, t, rfl, hdenotes⟩

/-- A loop that resolves a text for each element of a list. -/
theorem wp_resolveEach {α β : Type} (text : α → String) (g : α → Handle → β) (l : List α)
    (hr : A.Holds ms r) :
    Loading.wp (l.mapM fun a => g a <$> declared.resolveText (text a))
      (fun bs r' => ∃ hs,
        A.Leads ms r (ms ++ (l.map text).flatMap (TypeExpression.mentions declared.names)) r' ∧
        List.Forall₂
          (A.Reads (ms ++ (l.map text).flatMap (TypeExpression.mentions declared.names)) r')
          (l.map text) hs ∧
        bs = List.zipWith g l hs)
      (fun f => f.isOfModel ∧ ∃ a ∈ l.map text, term? declared.names a = none) r := by
  refine Loading.wp_mapM
    (I := fun l bs r' => ∃ hs,
      A.Leads ms r (ms ++ (l.map text).flatMap (TypeExpression.mentions declared.names)) r' ∧
      List.Forall₂
        (A.Reads (ms ++ (l.map text).flatMap (TypeExpression.mentions declared.names)) r')
        (l.map text) hs ∧
      bs = List.zipWith g l hs)
    ⟨[], by simpa using Leads.refl hr, .nil, rfl⟩ ?_
  rintro pre a post bs s rfl ⟨hs, hleads, hreads, rfl⟩
  rw [Loading.wp_map]
  refine Loading.wp_mono (wp_resolveText (text a) hleads.holds) (fun h s' hh => ?_) fun f hf =>
    ⟨hf.1, text a, by simp, hf.2⟩
  obtain ⟨hleads', hread⟩ := hh
  -- One more text, and the constructed types that come with it.
  have hmentioned : ms ++ (pre.map text).flatMap (TypeExpression.mentions declared.names) ++
      TypeExpression.mentions declared.names (text a) =
        ms ++ ((pre ++ [a]).map text).flatMap (TypeExpression.mentions declared.names) := by simp
  rw [hmentioned] at hleads' hread
  refine ⟨hs ++ [h], hleads.trans hleads', ?_, ?_⟩
  · have hall := List.rel_append (hreads.imp fun _ _ => hleads'.reads) (.cons hread .nil)
    simpa only [List.map_append, List.map_cons, List.map_nil] using hall
  · have hlength : pre.length = hs.length := by simpa using hreads.length_eq
    rw [List.zipWith_append hlength]
    rfl

/-- A loop that resolves the texts of a list. -/
theorem wp_resolveTexts (l : List String) (hr : A.Holds ms r) :
    Loading.wp (l.mapM fun text => declared.resolveText text)
      (fun hs r' => A.Leads ms r (ms ++ l.flatMap (TypeExpression.mentions declared.names)) r' ∧
        List.Forall₂ (A.Reads (ms ++ l.flatMap (TypeExpression.mentions declared.names)) r') l hs)
      (fun f => f.isOfModel ∧ ∃ a ∈ l, term? declared.names a = none) r := by
  have heach := wp_resolveEach id (fun _ h => h) l hr
  simp only [id_map', List.map_id, id_eq] at heach
  refine Loading.wp_mono heach (fun hs s hhs => ?_) fun _ hf => hf
  obtain ⟨hs, hleads, hreads, rfl⟩ := hhs
  -- Nothing is put together with the handles here.
  have hzip : List.zipWith (fun _ h => h) l hs = hs := by
    rw [← List.map_uncurry_zip_eq_zipWith]
    exact List.map_snd_zip (Nat.le_of_eq hreads.length_eq.symm)
  rw [hzip]
  exact ⟨hleads, hreads⟩

theorem isSome_of_reads {l : List String} {hs : List Handle}
    (h : List.Forall₂ (A.Reads ms r) l hs) : ∀ a ∈ l, (term? declared.names a).isSome := by
  induction h with
  | nil => simp
  | cons hread _ ih =>
    obtain ⟨t, ht, -⟩ := hread
    exact List.forall_mem_cons.2 ⟨by rw [ht]; rfl, ih⟩

end Account

end ClassDiagram
