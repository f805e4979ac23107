import ClassDiagram.Proofs.Lineage
import Mathlib.Data.List.Chain
/-!
# Ascents

The types above a type, said without the walk to them: its base, the base of that, and so on, for
as long as no type comes again. Main statement: the walk fails with the first type on the way that
is not registered, and otherwise lists the longest ascent, whether the bases end, lead back to the
type, or lead into a circle above it.
-/

namespace ClassDiagram.Registry

variable {r : Registry} {h a b : Handle} {l m : List Handle}

/-- The base of a type, if the type is registered and has one. -/
def base? (r : Registry) (h : Handle) : Option Handle := (r.get? h).bind (·.base)

theorem base?_eq_some : r.base? a = some b ↔ ∃ d, r.get? a = some d ∧ d.base = some b :=
  Option.bind_eq_some_iff

theorem isRegistered_of_base? (hb : r.base? a = some b) : r.IsRegistered a := by
  obtain ⟨d, hd, -⟩ := base?_eq_some.1 hb
  exact isRegistered_of_get? hd

/-- From `h` on, each type in the list is the base of the one before it, and none comes twice. -/
structure Ascends (r : Registry) (h : Handle) (l : List Handle) : Prop where
  bases : (h :: l).IsChain fun a b => r.base? a = some b
  nodup : (h :: l).Nodup

instance : Decidable (r.Ascends h l) :=
  decidable_of_iff ((h :: l).IsChain (fun a b => r.base? a = some b) ∧ (h :: l).Nodup)
    ⟨fun ⟨hbases, hnodup⟩ => ⟨hbases, hnodup⟩, fun ⟨hbases, hnodup⟩ => ⟨hbases, hnodup⟩⟩

/-- No ascent from `h` is longer than this one. -/
def IsLongestAscent (r : Registry) (h : Handle) (l : List Handle) : Prop :=
  r.Ascends h l ∧ ∀ m, r.Ascends h m → m.length ≤ l.length

/-- The way up from `h` comes to `a`, which is not registered; no type came twice before, and all
those before `a` are registered. -/
def DanglesAt (r : Registry) (h a : Handle) : Prop :=
  ∃ l, r.Ascends h l ∧ l.getLastD h = a ∧ ¬ r.IsRegistered a ∧
    ∀ b ∈ h :: l, b ≠ a → r.IsRegistered b

/-! ## Sequences of bases -/

/-- There is one way up only: of two sequences of bases one begins with the other. -/
theorem prefix_or_prefix_of_bases (hl : (h :: l).IsChain fun a b => r.base? a = some b)
    (hm : (h :: m).IsChain fun a b => r.base? a = some b) : l <+: m ∨ m <+: l := by
  induction l generalizing h m with
  | nil => exact .inl List.nil_prefix
  | cons b l ih =>
    cases m with
    | nil => exact .inr List.nil_prefix
    | cons c m =>
      obtain ⟨hb, hl⟩ := List.isChain_cons_cons.1 hl
      obtain ⟨hc, hm⟩ := List.isChain_cons_cons.1 hm
      obtain rfl : b = c := Option.some.inj (hb.symm.trans hc)
      simpa only [List.prefix_cons_inj] using ih hl hm

/-- Every type in a sequence of bases but the last one has a base. -/
theorem base?_of_bases (hl : (h :: (l ++ b :: m)).IsChain fun a b => r.base? a = some b) :
    r.base? (l.getLastD h) = some b := by
  induction l generalizing h with
  | nil => exact (List.isChain_cons_cons.1 hl).1
  | cons c l ih =>
    rw [List.getLastD_cons]
    exact ih (List.isChain_cons_cons.1 hl).2

theorem isRegistered_of_bases (hl : (h :: l).IsChain fun a b => r.base? a = some b) :
    ∀ b ∈ h :: l, b ≠ l.getLastD h → r.IsRegistered b := by
  induction l generalizing h with
  | nil => simp
  | cons c l ih =>
    obtain ⟨hc, hl⟩ := List.isChain_cons_cons.1 hl
    intro b hb hne
    rw [List.getLastD_cons] at hne
    rcases List.mem_cons.1 hb with rfl | hb
    · exact isRegistered_of_base? hc
    · exact ih hl b hb hne

namespace Ascends

/-- An ascent that cannot be gone on with is longest, and the only one that cannot. -/
theorem isPrefix (hl : r.Ascends h l)
    (hstop : ∀ b, r.base? (l.getLastD h) = some b → b ∈ h :: l) (hm : r.Ascends h m) : m <+: l := by
  rcases prefix_or_prefix_of_bases hl.bases hm.bases with ⟨n, rfl⟩ | hprefix
  · cases n with
    | nil => simp
    | cons b n =>
      -- The other ascent goes on with a type that came before.
      have hb := hstop b (base?_of_bases hm.bases)
      have hnodup : (h :: l ++ b :: n).Nodup := hm.nodup
      exact absurd rfl ((List.nodup_append.1 hnodup).2.2 b hb b List.mem_cons_self)
  · exact hprefix

theorem isLongestAscent_iff (hl : r.Ascends h l)
    (hstop : ∀ b, r.base? (l.getLastD h) = some b → b ∈ h :: l) :
    r.IsLongestAscent h m ↔ m = l := by
  constructor
  · rintro ⟨hm, hlongest⟩
    exact (hl.isPrefix hstop hm).eq_of_length_le (hlongest l hl)
  · rintro rfl
    exact ⟨hl, fun n hn => (hl.isPrefix hstop hn).length_le⟩

/-- The way up dangles only where it ends, if at all. -/
theorem danglesAt_iff (hl : r.Ascends h l)
    (hstop : ∀ b, r.base? (l.getLastD h) = some b → b ∈ h :: l) :
    r.DanglesAt h a ↔ l.getLastD h = a ∧ ¬ r.IsRegistered a := by
  constructor
  · rintro ⟨m, hm, rfl, ha, -⟩
    obtain ⟨n, rfl⟩ := hl.isPrefix hstop hm
    cases n with
    | nil => exact ⟨by simp, ha⟩
    | cons b n => exact absurd (isRegistered_of_base? (base?_of_bases hl.bases)) ha
  · rintro ⟨rfl, ha⟩
    exact ⟨l, hl, rfl, ha, isRegistered_of_bases hl.bases⟩

/-- All types of an ascent but the last one are registered, so there are no more of them than
slots. -/
theorem length_le_size (hl : r.Ascends h l) : l.length ≤ r.size := by
  have hrest : ((h :: l).erase (l.getLastD h)).length ≤ r.size := by
    refine length_le_size_of_nodup (hl.nodup.erase _) fun b hb => ?_
    obtain ⟨hne, hb⟩ := hl.nodup.mem_erase_iff.1 hb
    exact isRegistered_of_bases hl.bases b hb hne
  rwa [List.length_erase_of_mem List.getLastD_mem_cons] at hrest

end Ascends

/-! ## The walk against the ascents -/

/-- The walk goes up an ascent that avoids what it has met. If its steps suffice it stops where the
next type was met before, where there is no base, or where the type is not registered. -/
theorem exists_ascent_of_climb (steps : Nat) (met : List Handle) (h : Handle) :
    ∃ l, (h :: l).IsChain (fun a b => r.base? a = some b) ∧ l.Nodup ∧ (∀ a ∈ l, a ∉ met) ∧
      (l.length < steps → (∀ b, r.base? (l.getLastD h) = some b → b ∈ met ∨ b ∈ l) ∧
        r.climb steps met h = if r.IsRegistered (l.getLastD h) then .ok l
          else .error (.unknownType (l.getLastD h))) := by
  induction steps generalizing met h with
  | zero => exact ⟨[], by simp⟩
  | succ steps ih =>
    by_cases hh : r.IsRegistered h
    · obtain ⟨d, hd⟩ := isRegistered_iff.1 hh
      have hdescribe : r.describe h = .ok d := describe_eq_ok.2 hd
      cases hb : d.base with
      | none =>
        refine ⟨[], by simp, by simp, by simp, fun _ => ⟨by simp [base?, hd, hb], ?_⟩⟩
        simp [climb, hdescribe, hb, hh, pure, Except.pure]
      | some base =>
        have hbase : r.base? h = some base := base?_eq_some.2 ⟨d, hd, hb⟩
        by_cases hmet : base ∈ met
        · refine ⟨[], by simp, by simp, by simp, fun _ => ⟨by simp [hbase, hmet], ?_⟩⟩
          simp [climb, hdescribe, hb, hmet, hh, pure, Except.pure]
        · obtain ⟨l, hl, hnodup, hnew, hend⟩ := ih (base :: met) base
          refine ⟨base :: l, List.isChain_cons_cons.2 ⟨hbase, hl⟩, ?_, ?_, fun hsteps => ?_⟩
          · exact List.nodup_cons.2 ⟨fun hmem => hnew base hmem List.mem_cons_self, hnodup⟩
          · simpa [hmet] using fun a ha hmem => hnew a ha (List.mem_cons_of_mem base hmem)
          · obtain ⟨hstop, hclimb⟩ := hend (Nat.lt_of_succ_lt_succ hsteps)
            rw [List.getLastD_cons]
            refine ⟨fun b hb => ?_, ?_⟩
            · -- What the rest of the walk has met besides is the base itself.
              rcases hstop b hb with hmem | hmem
              · rcases List.mem_cons.1 hmem with rfl | hmem
                · exact .inr List.mem_cons_self
                · exact .inl hmem
              · exact .inr (List.mem_cons_of_mem base hmem)
            · simp only [climb, hdescribe, Except.ok_bind, hb, if_neg hmet, hclimb]
              split <;> rfl
    · refine ⟨[], by simp, by simp, by simp, fun _ => ⟨fun b hb => ?_, ?_⟩⟩
      · exact absurd (isRegistered_of_base? hb) hh
      · simp [climb, describe_of_not_isRegistered hh, hh]

/-- The walk from a type goes up an ascent that cannot be gone on with. -/
theorem exists_ascent_of_ancestors (r : Registry) (h : Handle) :
    ∃ l, r.Ascends h l ∧ (∀ b, r.base? (l.getLastD h) = some b → b ∈ h :: l) ∧
      r.ancestors h = if r.IsRegistered (l.getLastD h) then .ok l
        else .error (.unknownType (l.getLastD h)) := by
  obtain ⟨l, hbases, hnodup, hnew, hend⟩ := exists_ascent_of_climb (r := r) (r.size + 1) [h] h
  have hl : r.Ascends h l :=
    ⟨hbases, List.nodup_cons.2 ⟨fun hmem => hnew h hmem List.mem_cons_self, hnodup⟩⟩
  obtain ⟨hstop, hclimb⟩ := hend (Nat.lt_succ_of_le hl.length_le_size)
  exact ⟨l, hl, by simpa using hstop, hclimb⟩

/-- The walk up from a type ends by itself. If the way up comes to a type that is not registered,
the walk fails with the first such type; otherwise it lists the longest ascent. -/
theorem ancestors_are_the_longest_ascent (r : Registry) (h : Handle) :
    (∀ extra, r.climb (r.size + 1 + extra) [h] h = r.ancestors h) ∧
      (∀ a, r.DanglesAt h a → r.ancestors h = .error (.unknownType a)) ∧
      ((∀ a, ¬ r.DanglesAt h a) →
        ∃ l, r.ancestors h = .ok l ∧ ∀ m, r.IsLongestAscent h m ↔ m = l) ∧
      ∀ l, r.ancestors h = .ok l → h ∉ l ∧ l.Nodup ∧ l.length + 1 ≤ r.size := by
  obtain ⟨l, hl, hstop, hwalk⟩ := exists_ascent_of_ancestors r h
  refine ⟨climb_eq_ancestors, fun a ha => ?_, fun hnone => ?_, fun m hm => ?_⟩
  · obtain ⟨rfl, hreg⟩ := (hl.danglesAt_iff hstop).1 ha
    rw [hwalk, if_neg hreg]
  · have htop : r.IsRegistered (l.getLastD h) := by
      by_contra hreg
      exact hnone _ ((hl.danglesAt_iff hstop).2 ⟨rfl, hreg⟩)
    exact ⟨l, by rw [hwalk, if_pos htop], fun m => hl.isLongestAscent_iff hstop⟩
  · -- The walk succeeded, so the last type is registered as well as all those before it.
    by_cases htop : r.IsRegistered (l.getLastD h)
    · obtain rfl : l = m := Except.ok.inj (by rw [← hm, hwalk, if_pos htop])
      obtain ⟨hnot, hnodup⟩ := List.nodup_cons.1 hl.nodup
      refine ⟨hnot, hnodup, length_le_size_of_nodup hl.nodup fun b hb => ?_⟩
      by_cases hlast : b = l.getLastD h
      · exact hlast ▸ htop
      · exact isRegistered_of_bases hl.bases b hb hlast
    · rw [hwalk, if_neg htop] at hm
      cases hm

/-- A type below a circle that does not lead back to it, and a type below one that is missing. -/
def roundabout : Registry where
  slots := #[
    { name := "Moth", kind := .reference, base := some (.ofNat 1) },
    { name := "Larva", kind := .reference, base := some (.ofNat 2) },
    { name := "Pupa", kind := .reference, base := some (.ofNat 1) },
    { name := "Newt", kind := .reference, base := some (.ofNat 4) },
    { name := "Eft", kind := .reference, base := some (.ofNat 9) }]

/-- The circle is walked round once, and the missing type is told. -/
theorem roundabout_ancestors :
    roundabout.ancestors (.ofNat 0) = .ok [.ofNat 1, .ofNat 2] ∧
      roundabout.ancestors (.ofNat 3) = .error (.unknownType (.ofNat 9)) := by
  have hround : roundabout.Ascends (.ofNat 0) [.ofNat 1, .ofNat 2] := by decide
  have hstop : ∀ b, roundabout.base? (.ofNat 2) = some b →
      b ∈ [Handle.ofNat 0, .ofNat 1, .ofNat 2] := by
    rintro b ⟨⟩
    decide
  have hsound : ∀ a, ¬ roundabout.DanglesAt (.ofNat 0) a := by
    intro a ha
    obtain ⟨rfl, hreg⟩ := (hround.danglesAt_iff hstop).1 ha
    exact hreg (by decide)
  have hdangles : roundabout.DanglesAt (.ofNat 3) (.ofNat 9) :=
    ⟨[.ofNat 4, .ofNat 9], by decide, by decide, by decide, by decide⟩
  constructor
  · obtain ⟨l, hl, honly⟩ := (ancestors_are_the_longest_ascent roundabout (.ofNat 0)).2.2.1 hsound
    obtain rfl := (honly _).1 ((hround.isLongestAscent_iff hstop).2 rfl)
    exact hl
  · exact (ancestors_are_the_longest_ascent roundabout (.ofNat 3)).2.1 _ hdangles

end ClassDiagram.Registry
