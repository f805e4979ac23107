import ClassDiagram.Proofs.Session.Growth
/-!
# Constructions over sessions

The table of constructions and the slots go together: whatever the table says was constructed is
described in its slot by its definition and arguments. Descriptions that claim a definition without
having been constructed are not in the table, and edits touch neither. So over a whole session a
construction has one handle, and a handle has one construction.
-/

namespace ClassDiagram

theorem Construction.eq_iff {c c' : Construction} :
    c = c' ↔ c.definition = c'.definition ∧ c.arguments = c'.arguments := by
  cases c
  cases c'
  rw [mk.injEq]

namespace Registry

variable {r r' : Registry} {c c' : Construction} {h : Handle} {session : List Step}

/-- The type in the slot is described as what was constructed. -/
def DescribedAs (r : Registry) (h : Handle) (c : Construction) : Prop :=
  ∃ d, r.describe h = .ok d ∧ d.definition = some c.definition ∧ d.arguments = c.arguments

/-- What was constructed is described in its slot. -/
def Interned (r : Registry) : Prop :=
  ∀ c h, r.constructed? c = some h → r.DescribedAs h c

theorem DescribedAs.unique (h₁ : r.DescribedAs h c) (h₂ : r.DescribedAs h c') : c = c' := by
  obtain ⟨d, hd, hdefinition, harguments⟩ := h₁
  obtain ⟨d', hd', hdefinition', harguments'⟩ := h₂
  obtain rfl : d = d' := Except.ok.inj (hd.symm.trans hd')
  exact Construction.eq_iff.2
    ⟨Option.some.inj (hdefinition.symm.trans hdefinition'), harguments.symm.trans harguments'⟩

theorem Grows.describedAs (hg : r.Grows r') (hh : r.DescribedAs h c) : r'.DescribedAs h c := by
  obtain ⟨d, hd, hdefinition, harguments⟩ := hh
  obtain ⟨d', hd', -, -, hdefinition', harguments'⟩ := hg.get? h d (describe_eq_ok.1 hd)
  exact ⟨d', describe_eq_ok.2 hd', hdefinition'.trans hdefinition, harguments'.trans harguments⟩

/-! ## The invariant -/

theorem interned_empty : empty.Interned := by
  intro c h hc
  simp [constructed?, empty] at hc

/-- A step keeps the invariant as long as there is a handle for the slot that it adds. -/
theorem Change.interned (hstep : r.Change r') (hr : r.Interned) (hroom : r'.size ≤ UInt32.size) :
    r'.Interned := by
  have hgrows := hstep.grows
  cases hstep with
  | unchanged => exact hr
  | registered d => exact fun c h hc => hgrows.describedAs (hr c h hc)
  | edited hd edits => exact fun c h hc => hgrows.describedAs (hr c h hc)
  | @constructed c t hnew hargs ht =>
    intro c' h hc'
    rw [constructed?_withInstance] at hc'
    by_cases hc : c' = c
    · rw [if_pos hc] at hc'
      obtain rfl := Option.some.inj hc'
      subst hc
      -- The handle of the new slot does not come round to an old one.
      have hslot : r.nextHandle.slot = r.size := by
        rw [size_withInstance] at hroom
        exact Handle.slot_ofNat_of_lt hroom
      refine ⟨instanceOf t c', describe_eq_ok.2 ?_, rfl, rfl⟩
      rw [get?_withInstance, if_pos hslot]
    · rw [if_neg hc] at hc'
      exact hgrows.describedAs (hr c' h hc')

theorem interned_afterAll (hr : r.Interned) (hroom : (r.afterAll session).size ≤ UInt32.size) :
    (r.afterAll session).Interned := by
  induction session generalizing r with
  | nil => exact hr
  | cons s rest ih =>
    have hsize := (grows_afterAll (s.after r) rest).size
    exact ih ((r.change_after s).interned hr (Nat.le_trans hsize hroom)) hroom

/-! ## Calls -/

/-- A call that is given a handle leaves the construction behind. -/
theorem constructed?_after_construct (ha : (Step.construct c).answer r = .ok (.handle h)) :
    ((Step.construct c).after r).constructed? c = some h := by
  unfold Step.answer at ha
  unfold Step.after
  cases hrun : ((Step.construct c).run r).result with
  | error f => simp [hrun, Except.map] at ha
  | ok p =>
    obtain ⟨x, r'⟩ := p
    obtain rfl : x = .handle h := by simpa [hrun, Except.map] using ha
    obtain ⟨k, hmade, hk⟩ := result_run_construct.1 hrun
    obtain rfl := Answer.handle.inj hk
    rcases construct_eq_ok.1 hmade with ⟨hfound, rfl⟩ | ⟨-, -, t, -, rfl, rfl⟩
    · exact hfound
    · exact constructed?_withInstance.trans (if_pos rfl)

/-- What was constructed is found, and nothing changes. -/
theorem construct_again (hc : r.constructed? c = some h) :
    (Step.construct c).answer r = .ok (.handle h) ∧ (Step.construct c).after r = r := by
  have hmade : (r.construct c).result = .ok (h, r) := construct_eq_ok.2 (.inl ⟨hc, rfl⟩)
  have hrun := result_run_construct.2 ⟨h, hmade, rfl⟩
  unfold Step.answer Step.after
  rw [hrun]
  exact ⟨rfl, rfl⟩

/-- The step with the number `i` of a session on an empty registry constructs `c`, and is answered
with the handle `h`. -/
def Constructs (session : List Step) (i : Nat) (c : Construction) (h : Handle) : Prop :=
  session[i]? = some (.construct c) ∧ (empty.answers session)[i]? = some (.ok (.handle h))

variable {i : Nat}

theorem constructed?_of_constructs (hi : Constructs session i c h) {k : Nat} (hk : i < k) :
    (empty.afterAll (session.take k)).constructed? c = some h := by
  obtain ⟨hstep, hanswer⟩ := hi
  rw [getElem?_answers, hstep, Option.map_some, Option.some.injEq] at hanswer
  -- The step `i` leaves the construction behind, and the steps up to `k` keep it.
  have hgrows := grows_of_isPrefix empty (List.take_prefix_take_left (l := session) hk)
  refine hgrows.constructed c h ?_
  rw [afterAll_take_succ empty hstep]
  exact constructed?_after_construct hanswer

/-- Over a whole session on a registry that was empty at first, two calls that construct are given
the same handle if and only if they ask for the same definition with the same arguments. From such a
call on the handle is that of a type described by this definition and these arguments, whatever is
registered, constructed or edited. A later call that asks for the same again is given the handle
again, and leaves the registry as it is. -/
theorem constructions_are_interned (hroom : (empty.afterAll session).size ≤ UInt32.size) {j : Nat}
    {h' : Handle} (hi : Constructs session i c h) (hj : Constructs session j c' h') :
    (h = h' ↔ c.definition = c'.definition ∧ c.arguments = c'.arguments) ∧
      (∀ k, i < k → (empty.afterAll (session.take k)).DescribedAs h c) ∧
      ∀ k, i < k → session[k]? = some (.construct c) →
        (empty.answers session)[k]? = some (.ok (.handle h)) ∧
          empty.afterAll (session.take (k + 1)) = empty.afterAll (session.take k) := by
  -- There are handles enough all along, so the invariant holds of every registry on the way.
  have hinterned : ∀ k, (empty.afterAll (session.take k)).Interned := by
    intro k
    have hsize := (grows_of_isPrefix empty (List.take_prefix k session)).size
    exact interned_afterAll interned_empty (Nat.le_trans hsize hroom)
  have hdescribed : ∀ k, i < k → (empty.afterAll (session.take k)).DescribedAs h c :=
    fun k hk => hinterned k c h (constructed?_of_constructs hi hk)
  -- Behind both calls the table has both constructions.
  have hmade := constructed?_of_constructs hi (Nat.lt_succ_of_le (Nat.le_max_left i j))
  have hmade' := constructed?_of_constructs hj (Nat.lt_succ_of_le (Nat.le_max_right i j))
  refine ⟨?_, hdescribed, ?_⟩
  · rw [← Construction.eq_iff]
    constructor
    · rintro rfl
      exact (hinterned _ c h hmade).unique (hinterned _ c' h hmade')
    · rintro rfl
      exact Option.some.inj (hmade.symm.trans hmade')
  · intro k hk hstep
    obtain ⟨hanswer, hafter⟩ := construct_again (constructed?_of_constructs hi hk)
    rw [getElem?_answers, afterAll_take_succ empty hstep, hstep, Option.map_some, hanswer]
    exact ⟨rfl, hafter⟩

/-- A generic class and a class, constructions from them and from what they construct, a description
that claims to be one of these, and changes to the generic class before it is asked for again. -/
def shelterSession : List Step :=
  [.register { name := "List\x601", kind := .reference, enumerable := true },
    .register { name := "Dog", kind := .reference },
    .construct ⟨.ofNat 0, [.ofNat 1]⟩,
    .register
      { name := "Dogs", kind := .reference, definition := some (.ofNat 0),
        arguments := [.ofNat 1] },
    .construct ⟨.ofNat 0, [.ofNat 2]⟩,
    .construct ⟨.ofNat 2, [.ofNat 1]⟩,
    .edit (.ofNat 0) [.setBase (.ofNat 1), .addInterface (.ofNat 3)],
    .edit (.ofNat 2) [.addProperty { name := "First", valueType := .ofNat 1 }],
    .construct ⟨.ofNat 0, [.ofNat 1]⟩]

/-- The list of dogs is constructed once, and keeps the base that the generic class had then. -/
theorem shelterSession_interned :
    Constructs shelterSession 2 ⟨.ofNat 0, [.ofNat 1]⟩ (.ofNat 2) ∧
      Constructs shelterSession 4 ⟨.ofNat 0, [.ofNat 2]⟩ (.ofNat 4) ∧
      (empty.afterAll shelterSession).DescribedAs (.ofNat 2) ⟨.ofNat 0, [.ofNat 1]⟩ ∧
      (empty.answers shelterSession)[8]? = some (.ok (.handle (.ofNat 2))) ∧
      empty.afterAll shelterSession = empty.afterAll (shelterSession.take 8) := by
  have hlist : Constructs shelterSession 2 ⟨.ofNat 0, [.ofNat 1]⟩ (.ofNat 2) := ⟨rfl, rfl⟩
  have hlists : Constructs shelterSession 4 ⟨.ofNat 0, [.ofNat 2]⟩ (.ofNat 4) := ⟨rfl, rfl⟩
  have hroom : (empty.afterAll shelterSession).size ≤ UInt32.size := by decide
  obtain ⟨-, hdescribed, hagain⟩ := constructions_are_interned hroom hlist hlists
  obtain ⟨hanswer, hsame⟩ := hagain 8 (by decide) rfl
  exact ⟨hlist, hlists, hdescribed 9 (by decide), hanswer, hsame⟩

end Registry

end ClassDiagram
