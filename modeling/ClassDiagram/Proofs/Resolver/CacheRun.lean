import ClassDiagram.Proofs.Resolver.Run
/-!
# Runs of a cache

Calls that a cache in memory gets one after the other, with nothing in it at first. What it keeps is
told by the calls alone: a URL stays from the call that stored it up to the first later call that
drops or replaces it. Main statement, for the two extreme lifetimes: if nothing expires, a look
finds the URL that was stored last and the cache has an entry for each fragment; if all expires at
once, a look finds nothing, and an entry is left only for the last call that stored one.
-/

namespace ClassDiagram.UrlCache

/-- What can be asked of a cache. -/
inductive Call where
  | insert (fragment url : String)
  | get (fragment : String)
deriving DecidableEq

/-- A call, and the time at which it is made. -/
structure TimedCall where
  now : Nat
  call : Call
deriving DecidableEq

/-- The cache after one more call. -/
def next (c : UrlCache) (q : TimedCall) : UrlCache :=
  match q.call with
  | .insert fragment url => c.insert q.now fragment url
  | .get fragment => (c.get q.now fragment).2

/-- The cache after a run of calls, the first of which finds it empty. -/
def afterCalls (lifetime : Nat) (calls : List TimedCall) : UrlCache :=
  calls.foldl next { lifetime }

/-! ## One call -/

/-- The call leaves the entry in the cache. A call that stores drops all that is not fresh and
replaces what there is for its fragment; a look only drops what it is for, if that is not fresh. -/
def TimedCall.Spares (lifetime : Nat) (e : CachedUrl) (q : TimedCall) : Prop :=
  match q.call with
  | .insert fragment _ => fragment ≠ e.fragment ∧ q.now - e.stored < lifetime
  | .get fragment => fragment = e.fragment → q.now - e.stored < lifetime

/-- The call that stores the entry. -/
def storing (e : CachedUrl) : TimedCall := ⟨e.stored, .insert e.fragment e.url⟩

section

variable {c : UrlCache} {e : CachedUrl} {q : TimedCall} {now : Nat} {fragment url : String}

theorem isFresh_iff : c.isFresh now e = true ↔ now - e.stored < c.lifetime := by simp [isFresh]

theorem mem_insert : e ∈ (c.insert now fragment url).entries ↔
    e = ⟨fragment, now, url⟩ ∨ e ∈ c.entries ∧ fragment ≠ e.fragment ∧ c.isFresh now e := by
  simp only [insert, put, erase, sweep, filter, List.mem_cons, List.mem_filter]
  refine or_congr_right ⟨?_, ?_⟩
  · rintro ⟨⟨he, hfresh⟩, hne⟩
    exact ⟨he, by simpa using Ne.symm (bne_iff_ne.1 hne), hfresh⟩
  · rintro ⟨he, hne, hfresh⟩
    exact ⟨⟨he, hfresh⟩, by simpa using hne.symm⟩

/-- A look finds a URL exactly if there is a fresh entry with it. -/
theorem get_eq_some : (c.get now fragment).1 = some url ↔
    ∃ e ∈ c.entries, e.fragment = fragment ∧ c.isFresh now e ∧ e.url = url := by
  unfold get
  constructor
  · intro hget
    cases hfind : c.find? fragment with
    | none => simp [hfind] at hget
    | some e =>
      obtain ⟨he, hf⟩ := find?_eq_some_iff.1 hfind
      by_cases hfresh : c.isFresh now e <;> simp [hfind, hfresh] at hget
      exact ⟨e, he, hf, hfresh, hget⟩
  · rintro ⟨e, he, hf, hfresh, rfl⟩
    simp [find?_eq_some_iff.2 ⟨he, hf⟩, hfresh]

/-- A look drops the entry that it is for, if that is not fresh. -/
theorem mem_get : e ∈ (c.get now fragment).2.entries ↔
    e ∈ c.entries ∧ (fragment = e.fragment → c.isFresh now e) := by
  unfold get
  cases hfind : c.find? fragment with
  | none =>
    have hnone := find?_eq_none_iff.1 hfind
    exact ⟨fun he => ⟨he, fun hf => absurd hf.symm (hnone e he)⟩, And.left⟩
  | some e' =>
    obtain ⟨he', hf'⟩ := find?_eq_some_iff.1 hfind
    -- There is no other entry for the fragment.
    have hsame : e ∈ c.entries → fragment = e.fragment → e = e' := fun he hf =>
      List.inj_on_of_nodup_map c.nodup he he' (hf.symm.trans hf'.symm)
    by_cases hfresh : c.isFresh now e'
    · simp only [hfresh, if_true]
      exact ⟨fun he => ⟨he, fun hf => hsame he hf ▸ hfresh⟩, And.left⟩
    · have herase : e ∈ (c.erase fragment).entries ↔ e ∈ c.entries ∧ fragment ≠ e.fragment := by
        simp only [erase, filter, List.mem_filter, bne_iff_ne, ne_comm]
      simp only [hfresh, Bool.false_eq_true, if_false, herase]
      refine and_congr_right fun he => ⟨fun hne hf => absurd hf hne, fun hf heq => hfresh ?_⟩
      exact hsame he heq ▸ hf heq

/-- What one call leaves: the entries that it spares, and the one that it stores. -/
theorem mem_next : e ∈ (c.next q).entries ↔
    e ∈ c.entries ∧ q.Spares c.lifetime e ∨ q = storing e := by
  obtain ⟨now, call⟩ := q
  cases call with
  | insert fragment url =>
    obtain ⟨f, t, u⟩ := e
    simp only [next, mem_insert, isFresh_iff, TimedCall.Spares, storing, TimedCall.mk.injEq,
      Call.insert.injEq, CachedUrl.mk.injEq]
    tauto
  | get fragment => simp [next, mem_get, isFresh_iff, TimedCall.Spares, storing]

@[simp] theorem lifetime_next : (c.next q).lifetime = c.lifetime := by
  obtain ⟨now, call⟩ := q
  cases call with
  | insert fragment url => rfl
  | get fragment =>
    simp only [next, get]
    split
    · rfl
    · split <;> rfl

end

/-! ## Runs of calls -/

variable {lifetime : Nat} {calls : List TimedCall} {e : CachedUrl} {q : TimedCall}

theorem afterCalls_concat :
    afterCalls lifetime (calls ++ [q]) = (afterCalls lifetime calls).next q := by
  rw [afterCalls, List.foldl_append]
  rfl

@[simp] theorem lifetime_afterCalls : (afterCalls lifetime calls).lifetime = lifetime := by
  induction calls using List.reverseRecOn with
  | nil => rfl
  | append_singleton calls q ih => rw [afterCalls_concat, lifetime_next, ih]

/-- The entry was stored by a call of the run, and every later call spared it. -/
def KeptThrough (lifetime : Nat) (calls : List TimedCall) (e : CachedUrl) : Prop :=
  ∃ before behind, calls = before ++ storing e :: behind ∧ ∀ q ∈ behind, q.Spares lifetime e

theorem keptThrough_concat : KeptThrough lifetime (calls ++ [q]) e ↔
    KeptThrough lifetime calls e ∧ q.Spares lifetime e ∨ q = storing e := by
  constructor
  · rintro ⟨before, behind, hcalls, hspares⟩
    rcases List.eq_nil_or_concat behind with rfl | ⟨behind, p, rfl⟩
    · exact .inr (List.head_eq_of_cons_eq (List.append_inj' hcalls rfl).2)
    · rw [List.concat_eq_append, ← List.cons_append, ← List.append_assoc] at hcalls
      obtain ⟨rfl, hq⟩ := List.append_inj' hcalls rfl
      obtain rfl := List.head_eq_of_cons_eq hq
      exact .inl ⟨⟨before, behind, rfl, fun p hp => hspares p (by simp [hp])⟩,
        hspares q (by simp)⟩
  · rintro (⟨⟨before, behind, rfl, hspares⟩, hq⟩ | rfl)
    · refine ⟨before, behind ++ [q], by simp, fun p hp => ?_⟩
      rcases List.mem_append.1 hp with hp | hp
      · exact hspares p hp
      · exact List.mem_singleton.1 hp ▸ hq
    · exact ⟨calls, [], rfl, by simp⟩

/-- Whatever the lifetime and the clock, the cache has exactly what was stored and spared. -/
theorem mem_afterCalls :
    e ∈ (afterCalls lifetime calls).entries ↔ KeptThrough lifetime calls e := by
  induction calls using List.reverseRecOn with
  | nil => simp [afterCalls, KeptThrough]
  | append_singleton calls q ih =>
    rw [afterCalls_concat, mem_next, lifetime_afterCalls, ih, keptThrough_concat]

/-! ## What a run asks for -/

/-- The fragments for which a URL was stored, one for each time it was. -/
def inserted (calls : List TimedCall) : List String :=
  calls.filterMap fun q =>
    match q.call with
    | .insert fragment _ => some fragment
    | .get _ => none

/-- The URL is the one that was stored last for the fragment. -/
def StoredLast (calls : List TimedCall) (fragment url : String) : Prop :=
  ∃ before now behind, calls = before ++ ⟨now, .insert fragment url⟩ :: behind ∧
    ∀ q ∈ behind, ∀ other, q.call ≠ .insert fragment other

/-- There was no look for the fragment that was stored last since it was stored. -/
def Awaited (calls : List TimedCall) : Prop :=
  ∃ before now fragment url behind, calls = before ++ ⟨now, .insert fragment url⟩ :: behind ∧
    ∀ q ∈ behind, ∃ other, q.call = .get other ∧ other ≠ fragment

section

variable {fragment url : String} {now : Nat}

theorem mem_inserted :
    fragment ∈ inserted calls ↔ ∃ q ∈ calls, ∃ url, q.call = .insert fragment url := by
  simp only [inserted, List.mem_filterMap]
  refine exists_congr fun q => and_congr_right fun _ => ?_
  cases q.call <;> simp

/-- Where a URL was stored for a fragment, one of them was stored last. -/
theorem exists_storedLast (h : fragment ∈ inserted calls) :
    ∃ url, StoredLast calls fragment url := by
  induction calls using List.reverseRecOn with
  | nil => simp [inserted] at h
  | append_singleton calls q ih =>
    by_cases hq : ∃ url, q.call = .insert fragment url
    · obtain ⟨url, hq⟩ := hq
      exact ⟨url, calls, q.now, [], by rw [← hq], by simp⟩
    · have hq := not_exists.1 hq
      have hcalls : fragment ∈ inserted calls := by
        obtain ⟨p, hp, url, hpurl⟩ := mem_inserted.1 h
        rcases List.mem_append.1 hp with hp | hp
        · exact mem_inserted.2 ⟨p, hp, url, hpurl⟩
        · exact absurd (List.mem_singleton.1 hp ▸ hpurl) (hq url)
      obtain ⟨url, before, now, behind, rfl, hbehind⟩ := ih hcalls
      refine ⟨url, before, now, behind ++ [q], by simp, fun p hp other => ?_⟩
      rcases List.mem_append.1 hp with hp | hp
      · exact hbehind p hp other
      · exact List.mem_singleton.1 hp ▸ hq other

theorem StoredLast.mem_inserted (h : StoredLast calls fragment url) :
    fragment ∈ inserted calls := by
  obtain ⟨before, now, behind, rfl, -⟩ := h
  exact UrlCache.mem_inserted.2 ⟨⟨now, .insert fragment url⟩, by simp, url, rfl⟩

/-! ## Nothing expires -/

/-- What is stored at the time of one call is fresh at the time of any later one. -/
def NothingExpires (lifetime : Nat) (calls : List TimedCall) : Prop :=
  calls.Pairwise fun earlier later => later.now - earlier.now < lifetime

theorem allFresh_afterCalls (h : NothingExpires lifetime (calls ++ [q])) :
    (afterCalls lifetime calls).AllFresh q.now := by
  intro e he
  obtain ⟨before, behind, rfl, -⟩ := mem_afterCalls.1 he
  rw [isFresh_iff, lifetime_afterCalls]
  exact (List.pairwise_append.1 h).2.2 (storing e) (by simp) q List.mem_cons_self

/-- If nothing expires, the cache has the URL that was stored last for each fragment. -/
theorem exists_entry_iff (h : NothingExpires lifetime calls) :
    (∃ e ∈ (afterCalls lifetime calls).entries, e.fragment = fragment ∧ e.url = url) ↔
      StoredLast calls fragment url := by
  simp only [mem_afterCalls]
  constructor
  · rintro ⟨e, ⟨before, behind, hcalls, hspares⟩, rfl, rfl⟩
    refine ⟨before, e.stored, behind, hcalls, fun q hq other hcall => ?_⟩
    have hspared := hspares q hq
    simp [TimedCall.Spares, hcall] at hspared
  · rintro ⟨before, now, behind, rfl, hbehind⟩
    refine ⟨⟨fragment, now, url⟩, ⟨before, behind, rfl, fun q hq => ?_⟩, rfl, rfl⟩
    have hfresh : q.now - now < lifetime := by
      have hlater := (List.pairwise_append.1 h).2.1
      exact (List.pairwise_cons.1 hlater).1 q hq
    have hother := hbehind q hq
    unfold TimedCall.Spares
    split
    next f u hcall => exact ⟨fun hf => hother u (by rw [hcall, hf]), hfresh⟩
    next f hcall => exact fun _ => hfresh

theorem get_afterCalls (h : NothingExpires lifetime (calls ++ [⟨now, .get fragment⟩])) :
    ((afterCalls lifetime calls).get now fragment).1 = some url ↔
      StoredLast calls fragment url := by
  rw [get_eq_some, ← exists_entry_iff (List.pairwise_append.1 h).1]
  refine exists_congr fun e => and_congr_right fun he => and_congr_right fun _ => ?_
  exact and_iff_right (allFresh_afterCalls h e he)

/-- If nothing expires, the cache has one entry for each fragment for which a URL was stored. -/
theorem perm_inserted (h : NothingExpires lifetime calls) :
    ((afterCalls lifetime calls).entries.map CachedUrl.fragment).Perm (inserted calls).dedup := by
  refine (List.perm_ext_iff_of_nodup (afterCalls lifetime calls).nodup (List.nodup_dedup _)).2
    fun fragment => ?_
  rw [List.mem_dedup, List.mem_map]
  constructor
  · rintro ⟨e, he, rfl⟩
    exact ((exists_entry_iff h).1 ⟨e, he, rfl, rfl⟩).mem_inserted
  · intro hf
    obtain ⟨url, hurl⟩ := exists_storedLast hf
    obtain ⟨e, he, hf, -⟩ := (exists_entry_iff h).2 hurl
    exact ⟨e, he, hf⟩

/-! ## All expires at once -/

/-- With no lifetime, what spares an entry is a look for another fragment. -/
theorem spares_zero : q.Spares 0 e ↔ ∃ other, q.call = .get other ∧ other ≠ e.fragment := by
  unfold TimedCall.Spares
  cases q.call <;> simp

theorem exists_keptThrough_zero : (∃ e, KeptThrough 0 calls e) ↔ Awaited calls := by
  simp only [KeptThrough, spares_zero]
  constructor
  · rintro ⟨e, before, behind, hcalls, hbehind⟩
    exact ⟨before, e.stored, e.fragment, e.url, behind, hcalls, hbehind⟩
  · rintro ⟨before, now, fragment, url, behind, hcalls, hbehind⟩
    exact ⟨⟨fragment, now, url⟩, before, behind, hcalls, hbehind⟩

/-- With no lifetime, storing drops everything else, so entries never pile up. -/
theorem size_afterCalls_zero_le : (afterCalls 0 calls).size ≤ 1 := by
  induction calls using List.reverseRecOn with
  | nil => exact Nat.zero_le 1
  | append_singleton calls q ih =>
    have hnone : ∀ e : CachedUrl, (afterCalls 0 calls).isFresh q.now e = false := fun e => by
      simp [isFresh]
    rw [afterCalls_concat, next]
    cases q.call with
    | insert fragment url => simp [size, insert, put, erase, sweep, filter, hnone]
    | get fragment =>
      refine le_trans ?_ ih
      simp only [get, size]
      split
      · rfl
      · simp only [hnone, Bool.false_eq_true, if_false]
        exact List.length_filter_le _ _

end

/-! ## The two extremes -/

/-- In the run, every look finds what was stored last and nothing else, and at any time there are as
many entries as there are fragments for which a URL was stored. -/
structure KeepsAll (lifetime : Nat) (calls : List TimedCall) : Prop where
  found : ∀ before now fragment behind, calls = before ++ ⟨now, .get fragment⟩ :: behind →
    ∀ url, ((afterCalls lifetime before).get now fragment).1 = some url ↔
      StoredLast before fragment url
  missed : ∀ before now fragment behind, calls = before ++ ⟨now, .get fragment⟩ :: behind →
    (((afterCalls lifetime before).get now fragment).1 = none ↔ fragment ∉ inserted before)
  size : ∀ before, before <+: calls →
    (afterCalls lifetime before).size = (inserted before).dedup.length

/-- In the run, no look finds anything, and at any time there is an entry only for the last call
that stored one, up to the first look for it. -/
structure KeepsNothing (lifetime : Nat) (calls : List TimedCall) : Prop where
  missed : ∀ before now fragment behind, calls = before ++ ⟨now, .get fragment⟩ :: behind →
    ((afterCalls lifetime before).get now fragment).1 = none
  size_of_awaited : ∀ before, before <+: calls → Awaited before →
    (afterCalls lifetime before).size = 1
  size_of_not_awaited : ∀ before, before <+: calls → ¬ Awaited before →
    (afterCalls lifetime before).size = 0

/-- Every run of calls, at the two extreme lifetimes: one that nothing outlives, and none at all. -/
theorem runs_at_the_extremes (calls : List TimedCall) :
    (∀ lifetime, NothingExpires lifetime calls → KeepsAll lifetime calls) ∧
      KeepsNothing 0 calls := by
  constructor
  · intro lifetime h
    have hget : ∀ before now fragment behind, calls = before ++ ⟨now, .get fragment⟩ :: behind →
        ∀ url, ((afterCalls lifetime before).get now fragment).1 = some url ↔
          StoredLast before fragment url := by
      intro before now fragment behind hcalls url
      rw [hcalls, List.append_cons] at h
      exact get_afterCalls (List.pairwise_append.1 h).1
    refine ⟨hget, fun before now fragment behind hcalls => ?_, fun before hbefore => ?_⟩
    · rw [Option.eq_none_iff_forall_not_mem]
      simp only [Option.mem_def, hget before now fragment behind hcalls]
      exact ⟨fun hnone hf => (exists_storedLast hf).elim hnone,
        fun hf url hurl => hf hurl.mem_inserted⟩
    · have hperm := perm_inserted (h.sublist hbefore.sublist)
      rw [← hperm.length_eq, List.length_map, size]
  · refine ⟨fun before now fragment behind _ => ?_, fun before _ hawaited => ?_,
      fun before _ hawaited => ?_⟩
    · rw [Option.eq_none_iff_forall_not_mem]
      intro url hurl
      obtain ⟨e, -, -, hfresh, -⟩ := get_eq_some.1 hurl
      simp [isFresh] at hfresh
    · obtain ⟨e, he⟩ := exists_keptThrough_zero.2 hawaited
      exact Nat.le_antisymm size_afterCalls_zero_le (List.length_pos_of_mem (mem_afterCalls.2 he))
    · refine List.length_eq_zero_iff.2 (List.eq_nil_iff_forall_not_mem.2 fun e he => ?_)
      exact hawaited (exists_keptThrough_zero.1 ⟨e, mem_afterCalls.1 he⟩)

/-- Two fragments, the URL of one of which is replaced, and looks for them and for a third one. -/
def rounds : List TimedCall :=
  [⟨0, .insert "[A]" "a"⟩, ⟨3, .insert "[B]" "b"⟩, ⟨4, .get "[A]"⟩, ⟨7, .insert "[A]" "z"⟩,
    ⟨8, .get "[B]"⟩, ⟨9, .get "[A]"⟩, ⟨9, .get "[C]"⟩]

/-- With a minute to live the new URL is found, and two entries stay; with none the one entry that
is left is gone after the look for it. -/
theorem rounds_at_the_extremes :
    NothingExpires 60 rounds ∧ KeepsAll 60 rounds ∧ KeepsNothing 0 rounds ∧
      ((afterCalls 60 (rounds.take 5)).get 9 "[A]").1 = some "z" ∧
      ((afterCalls 60 (rounds.take 6)).get 9 "[C]").1 = none ∧
      (afterCalls 60 rounds).size = 2 ∧
      (afterCalls 0 (rounds.take 5)).size = 1 ∧ (afterCalls 0 (rounds.take 6)).size = 0 := by
  have hexpires : NothingExpires 60 rounds := by
    unfold NothingExpires
    decide
  obtain ⟨hkeeps, hdrops⟩ := runs_at_the_extremes rounds
  have hkeeps := hkeeps 60 hexpires
  have hlast : StoredLast (rounds.take 5) "[A]" "z" :=
    ⟨rounds.take 3, 7, [⟨8, .get "[B]"⟩], rfl, by simp⟩
  refine ⟨hexpires, hkeeps, hdrops, (hkeeps.found _ 9 "[A]" [⟨9, .get "[C]"⟩] rfl "z").2 hlast,
    (hkeeps.missed _ 9 "[C]" [] rfl).2 (by decide), hkeeps.size rounds List.prefix_rfl,
    hdrops.size_of_awaited _ (List.take_prefix 5 rounds) ?_,
    hdrops.size_of_not_awaited _ (List.take_prefix 6 rounds) ?_⟩
  · exact ⟨rounds.take 3, 7, "[A]", "z", [⟨8, .get "[B]"⟩], rfl, by simp⟩
  · intro hawaited
    obtain ⟨e, he⟩ := exists_keptThrough_zero.2 hawaited
    have hempty : (afterCalls 0 (rounds.take 6)).entries = [] := by decide
    have hmem := mem_afterCalls.2 he
    simp [hempty] at hmem

end ClassDiagram.UrlCache
