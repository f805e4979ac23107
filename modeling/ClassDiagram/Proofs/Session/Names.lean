import ClassDiagram.Proofs.Session.Erasure
/-!
# Names over sessions

A display name is made of the names of the arguments, and nothing in a registry stops the arguments
from leading back but the order in which types come about. The recursion without any bound on its
depth is told by a relation here. Over a session it comes to an end at every registered type, and
what it finds there is never changed by what is done later.
-/

namespace ClassDiagram

namespace Registry

variable {r r' : Registry} {h a : Handle} {d : Description} {n : Naming} {s s' : String}
  {session : List Step} {depth : Nat}

/-! ## Names without a bound -/

/-- The type is called so: by the shown form of its own name, behind which stand the names of its
arguments if there are any. -/
inductive Called (r : Registry) (n : Naming) : Handle → String → Prop
  | bare {h : Handle} {d : Description} :
    r.get? h = some d → d.arguments = [] → Called r n h (n.lookup d.name)
  | generic {h : Handle} {d : Description} {names : List String} :
    r.get? h = some d → d.arguments ≠ [] → List.Forall₂ (Called r n) d.arguments names →
      Called r n h (genericName (n.lookup d.name) names)

theorem nameWithin_succ_eq_ok : r.nameWithin n (depth + 1) h = .ok s ↔
    ∃ d, r.get? h = some d ∧
      if d.arguments = [] then s = n.lookup d.name
      else ∃ names, List.Forall₂ (fun a t => r.nameWithin n depth a = .ok t) d.arguments names ∧
        s = genericName (n.lookup d.name) names := by
  simp only [nameWithin, Except.bind_eq_ok, describe_eq_ok]
  refine exists_congr fun d => and_congr_right fun _ => ?_
  unfold Description.isGeneric
  cases d.arguments with
  | nil =>
    simp only [List.isEmpty_nil, Bool.not_true, Bool.false_eq_true, if_false, if_true,
      Except.pure_eq_ok, @eq_comm _ s]
  | cons a as =>
    simp only [List.isEmpty_cons, Bool.not_false, if_true, Except.bind_eq_ok, Except.mapM_eq_ok,
      Except.pure_eq_ok, reduceCtorEq, if_false, @eq_comm _ s]

/-- Whatever depth a name is found within, it is a name. -/
theorem called_of_nameWithin (hs : r.nameWithin n depth h = .ok s) : r.Called n h s := by
  induction depth generalizing h s with
  | zero => simp [nameWithin] at hs
  | succ depth ih =>
    obtain ⟨d, hd, hs⟩ := nameWithin_succ_eq_ok.1 hs
    split at hs
    · subst hs
      exact .bare hd ‹_›
    · obtain ⟨names, hnames, rfl⟩ := hs
      exact .generic hd ‹_› (hnames.imp fun _ _ => ih)

/-- Where arguments go down, a type is called by the name that is found for it, and by no other. -/
theorem called_iff (hr : r.Grounded) (hs : r.displayName n h = .ok s) :
    r.Called n h s' ↔ s' = s := by
  constructor
  · intro hcalled
    -- The bound on the depth is enough for the type, and so for each argument, which lies below.
    suffices hfound : ∀ depth h s', h.slot < depth → r.Called n h s' →
        r.nameWithin n depth h = .ok s' by
      obtain ⟨d, hd, -⟩ := nameWithin_succ_eq_ok.1 hs
      have hslot := Nat.lt_succ_of_lt (isRegistered_of_get? hd)
      exact Except.ok.inj ((hfound _ h s' hslot hcalled).symm.trans hs)
    intro depth
    induction depth with
    | zero => exact fun _ _ hslot => absurd hslot (Nat.not_lt_zero _)
    | succ depth ih =>
      rintro h _ hslot (⟨hd, hargs⟩ | ⟨hd, hargs, hnames⟩)
      · exact nameWithin_succ_eq_ok.2 ⟨_, hd, by rw [if_pos hargs]⟩
      · refine nameWithin_succ_eq_ok.2 ⟨_, hd, ?_⟩
        rw [if_neg hargs]
        refine ⟨_, List.forall₂_iff_get.2 ⟨hnames.length_eq, fun i hi hi' => ?_⟩, rfl⟩
        have hbelow := hr _ _ hd _ (List.get_mem _ ⟨i, hi⟩)
        exact ih _ _ (by omega) (hnames.get hi hi')
  · rintro rfl
    exact called_of_nameWithin hs

/-! ## Growth -/

/-- Types that come later are no arguments of those that were there, so these keep their names. -/
theorem Grows.nameWithin (hg : r.Grows r') (hr : r.Grounded) (hh : r.IsRegistered h) :
    r'.nameWithin n depth h = r.nameWithin n depth h := by
  induction depth generalizing h with
  | zero => rfl
  | succ depth ih =>
    obtain ⟨d, hd⟩ := isRegistered_iff.1 hh
    obtain ⟨d', hd', hname, -, -, harguments⟩ := hg.get? h d hd
    have hargs : d.arguments.mapM (r'.nameWithin n depth) =
        d.arguments.mapM (r.nameWithin n depth) :=
      Except.mapM_congr fun a ha => ih (hr.isRegistered hd ha)
    have hgeneric : d'.isGeneric = d.isGeneric := by rw [Description.isGeneric, harguments]; rfl
    simp only [Registry.nameWithin, describe_eq_ok.2 hd, describe_eq_ok.2 hd', Except.ok_bind,
      hname, harguments, hargs]
    rw [hgeneric]

theorem Grows.displayName (hg : r.Grows r') (hr : r.Grounded) (hh : r.IsRegistered h) :
    r'.displayName n h = r.displayName n h := by
  obtain ⟨extra, hsize⟩ := Nat.exists_eq_add_of_le hg.size
  have hdepth : r'.size + 1 = r.size + 1 + extra := by omega
  rw [Registry.displayName, hdepth, hg.nameWithin hr hh,
    nameWithin_add hr (Nat.lt_succ_of_lt hh)]
  rfl

/-! ## Sessions -/

/-- Seen slot by slot, arguments lie below the types they are arguments of. -/
theorem Grounded.slot_lt (hr : r.Grounded) {i : Nat} (hd : r.slots[i]? = some d)
    (ha : a ∈ d.arguments) : a.slot < i := by
  by_cases hi : i < UInt32.size
  · have hslot := Handle.slot_ofNat_of_lt hi
    have hget : r.get? (.ofNat i) = some d := by rw [get?, hslot, hd]
    exact hslot ▸ hr _ d hget a ha
  · exact Nat.lt_of_lt_of_le a.slot_lt (Nat.le_of_not_lt hi)

theorem grounded_performAll (hr : r.Grounded) (hknown : r.KnowsArguments session) :
    (r.performAll session).2.Grounded := by
  induction session generalizing r with
  | nil => exact hr
  | cons s rest ih =>
    obtain ⟨hs, hrest⟩ := hknown
    simp only [performAll, Step.attempt_perform] at hrest ⊢
    exact ih (grounded_after hr hs) hrest

/-- Every name ends and lasts. If in a session on a registry that was empty at first descriptions
are only registered with arguments that are registered already, then the arguments in a slot are the
handles of slots below it. So every registered type has a display name, whatever the aliases, and
the recursion that has no bound finds this one and no other. No step that comes later changes it,
whatever it edits, constructs or registers. -/
theorem names_end_and_last (hknown : empty.KnowsArguments session) :
    (∀ (i : Nat) d, (empty.performAll session).2.slots[i]? = some d →
      ∀ a ∈ d.arguments, a.slot < i) ∧
    ∀ n h, (empty.performAll session).2.IsRegistered h →
      ∃ s, (empty.performAll session).2.displayName n h = .ok s ∧
        (∀ s', (empty.performAll session).2.Called n h s' ↔ s' = s) ∧
        ∀ later, (empty.performAll (session ++ later)).2.displayName n h = .ok s := by
  have hr := grounded_performAll closed_empty.grounded hknown
  refine ⟨fun i d hd a ha => hr.slot_lt hd ha, fun n h hh => ?_⟩
  obtain ⟨s, hs⟩ := hr.exists_displayName_eq_ok (n := n) hh
  refine ⟨s, hs, fun s' => called_iff hr hs, fun later => ?_⟩
  have hgrows : (empty.performAll session).2.Grows (empty.performAll (session ++ later)).2 := by
    rw [performAll_eq, performAll_eq]
    exact grows_of_isPrefix empty (List.prefix_append session later)
  rw [hgrows.displayName hr hh, hs]

/-- Maps of rabbits, and a den registered with a map that is nested in another one. -/
def burrow : List Step :=
  [.register { name := "Map\x602", kind := .reference },
    .register { name := "Rabbit", kind := .reference, base := some (.ofNat 1) },
    .construct ⟨.ofNat 0, [.ofNat 1, .ofNat 1]⟩,
    .construct ⟨.ofNat 2, [.ofNat 2, .ofNat 1]⟩,
    .register
      { name := "Den", kind := .reference, definition := some (.ofNat 9),
        arguments := [.ofNat 3] }]

/-- The inner map is given the den as base and property, and then comes a type that is among its own
arguments. -/
def digging : List Step :=
  [.edit (.ofNat 2)
      [.setBase (.ofNat 4), .addProperty { name := "Exit", valueType := .ofNat 4 }],
    .construct ⟨.ofNat 4, [.ofNat 4]⟩,
    .register { name := "Rabbit", kind := .interface, arguments := [.ofNat 6] }]

/-- The den is called the same before and after. -/
theorem burrow_names_last :
    empty.KnowsArguments burrow ∧
      (∀ s, (empty.performAll burrow).2.Called (.ofList [("Rabbit", "Hare")]) (.ofNat 4) s ↔
        s = "Den<Map<Map<Hare, Hare>, Hare>>") ∧
      (empty.performAll (burrow ++ digging)).2.displayName (.ofList [("Rabbit", "Hare")])
        (.ofNat 4) = .ok "Den<Map<Map<Hare, Hare>, Hare>>" := by
  have hknown : empty.KnowsArguments burrow := by decide
  obtain ⟨-, hends⟩ := names_end_and_last hknown
  obtain ⟨s, hs, hcalled, hlasts⟩ := hends (.ofList [("Rabbit", "Hare")]) (.ofNat 4) (by decide)
  have hname : (empty.performAll burrow).2.displayName (.ofList [("Rabbit", "Hare")]) (.ofNat 4) =
      .ok "Den<Map<Map<Hare, Hare>, Hare>>" := by decide +kernel
  obtain rfl := Except.ok.inj (hs.symm.trans hname)
  exact ⟨hknown, hcalled, hlasts digging⟩

end Registry

end ClassDiagram
