import ClassDiagram.Members
import ClassDiagram.Proofs.Bytes
import ClassDiagram.Proofs.Outcome
import Mathlib.Data.List.Sort
/-!
# What a member list lists

A member list selects from both groups at once and sorts what it has selected by group and name. The
result is told here group by group: the private members and then the public ones, each group in the
order of its names, members of one name in the order of their declaration. What the other group
shows has no influence on a group, so a list for more detail only has lines added.
-/

namespace ClassDiagram

/-! ## Lists in order -/

section Sorting

variable {α : Type} {le : α → α → Bool}

/-- Neither goes before the other. -/
def level (le : α → α → Bool) (a b : α) : Bool := le a b && le b a

/-- Two lists in order are the same if they hold the same on each level. -/
theorem eq_of_level (le : α → α → Bool) (hrefl : ∀ a, le a a) {l m : List α}
    (hl : l.Pairwise (le · ·)) (hm : m.Pairwise (le · ·))
    (h : ∀ a, l.filter (level le a) = m.filter (level le a)) : l = m := by
  have hlevel : ∀ a, level le a a = true := by simp [level, hrefl]
  induction l generalizing m with
  | nil =>
    cases m with
    | nil => rfl
    | cons b m => simpa [hlevel] using h b
  | cons a l ih =>
    cases m with
    | nil => simpa [hlevel] using h a
    | cons b m =>
      have ha : a ∈ b :: m := by
        have hmem : a ∈ (b :: m).filter (level le a) := by simp [← h a, hlevel]
        exact (List.mem_filter.1 hmem).1
      have hb : b ∈ a :: l := by
        have hmem : b ∈ (a :: l).filter (level le b) := by simp [h b, hlevel]
        exact (List.mem_filter.1 hmem).1
      have hba : le b a := by
        rcases List.mem_cons.1 ha with rfl | ha
        · exact hrefl _
        · exact List.rel_of_pairwise_cons hm ha
      have hab : le a b := by
        rcases List.mem_cons.1 hb with rfl | hb
        · exact hrefl _
        · exact List.rel_of_pairwise_cons hl hb
      have hheads : a :: l.filter (level le a) = b :: m.filter (level le a) := by
        simpa [List.filter_cons, level, hrefl, hab, hba] using h a
      obtain ⟨rfl, -⟩ := List.cons.inj hheads
      refine congrArg (a :: ·) (ih hl.of_cons hm.of_cons fun c => ?_)
      have hc := h c
      rw [List.filter_cons, List.filter_cons] at hc
      split at hc
      · exact (List.cons.inj hc).2
      · exact hc

/-- Sorting keeps what is on one level as it is. -/
theorem filter_mergeSort (htrans : ∀ a b c, le a b → le b c → le a c)
    (htotal : ∀ a b, le a b || le b a) {test : α → Bool}
    (htest : ∀ a b, test a → test b → le a b) (l : List α) :
    (l.mergeSort le).filter test = l.filter test := by
  have hpairwise : (l.filter test).Pairwise (le · ·) :=
    List.pairwise_of_forall_mem_list fun a ha b hb =>
      htest a b (List.mem_filter.1 ha).2 (List.mem_filter.1 hb).2
  have hsub : ((l.filter test).filter test).Sublist ((l.mergeSort le).filter test) :=
    (List.sublist_mergeSort htrans htotal hpairwise List.filter_sublist).filter test
  rw [List.filter_filter] at hsub
  simp only [Bool.and_self] at hsub
  exact (hsub.eq_of_length ((List.mergeSort_perm l le).filter _).length_eq.symm).symm

end Sorting

/-! ## Order by name -/

/-- The list holds what was declared, in the order of the bytes of the names; what has the same name
is as it was declared. -/
structure ByName {α : Type} (name : α → String) (declared listed : List α) : Prop where
  perm : listed.Perm declared
  ordered : listed.Pairwise fun a b => (name a).toUTF8.toList ≤ (name b).toUTF8.toList
  stable : ∀ n, listed.filter (name · == n) = declared.filter (name · == n)

section ByName

variable {α : Type} {name : α → String} {declared listed : List α}

/-- Whether the first name goes before the second or they are the same. -/
def nameLe (name : α → String) (a b : α) : Bool := decide (name a ≤ name b)

theorem byName_mergeSort (name : α → String) (declared : List α) :
    ByName name declared (declared.mergeSort (nameLe name)) := by
  have htrans : ∀ a b c, nameLe name a b → nameLe name b c → nameLe name a c := by
    simpa [nameLe] using fun a b c => le_trans
  have htotal : ∀ a b, nameLe name a b || nameLe name b a := by
    simpa [nameLe] using fun a b => le_total (name a) (name b)
  refine ⟨List.mergeSort_perm _ _, ?_, fun n => filter_mergeSort htrans htotal ?_ _⟩
  · refine (List.pairwise_mergeSort htrans htotal declared).imp fun hab => ?_
    exact Text.toUTF8_le_iff.2 (by simpa [nameLe] using hab)
  · intro a b ha hb
    simp_all [nameLe]

/-- The names alone do not depend on the order of the declaration. -/
theorem ByName.map_eq {declared' listed' : List α} (h : ByName name declared listed)
    (h' : ByName name declared' listed') (hperm : declared'.Perm declared) :
    listed'.map name = listed.map name := by
  have hordered : ∀ {declared listed : List α}, ByName name declared listed →
      (listed.map name).Pairwise (· ≤ ·) := fun h =>
    List.pairwise_map.2 (h.ordered.imp Text.toUTF8_le_iff.1)
  have hmap : (listed'.map name).Perm (listed.map name) :=
    ((h'.perm.trans hperm).trans h.perm.symm).map name
  exact hmap.eq_of_pairwise (fun a b _ _ => le_antisymm) (hordered h') (hordered h)

end ByName

/-! ## Groups -/

/-- The members of one kind that a type can have listed. -/
structure Members (α : Type) where
  /-- The members in the order of their declaration. -/
  declared : List α
  isPublic : α → Bool
  name : α → String
  /-- What is written behind the name. -/
  suffix : α → String

namespace Members

variable {α : Type} (m : Members α)

/-- The members of one group. -/
def group (isPublic : Bool) : List α := m.declared.filter (m.isPublic · == isPublic)

/-- The lines of both groups, the private one first, each if it is to be shown. -/
def lines (privates publics : List α) (showPrivate showPublic : Bool) : List String :=
  (if showPrivate then privates.map fun a => "- " ++ m.name a ++ m.suffix a else []) ++
    if showPublic then publics.map fun a => "+ " ++ m.name a ++ m.suffix a else []

/-- The lines list the members of the groups that are to be shown, each group by name. -/
def Lists (showPrivate showPublic : Bool) (listed : List String) : Prop :=
  ∃ privates publics,
    ByName m.name (m.group false) privates ∧ ByName m.name (m.group true) publics ∧
    listed = m.lines privates publics showPrivate showPublic

/-- The entry of a member. -/
def entry (a : α) : MemberEntry := ⟨m.isPublic a, m.name a, m.suffix a⟩

/-- The members of the groups that are shown, in the order of their declaration. -/
def shown (showPrivate showPublic : Bool) : List α :=
  m.declared.filter fun a => if m.isPublic a then showPublic else showPrivate

end Members

namespace MemberEntry

theorem le_iff {a b : MemberEntry} :
    a.le b ↔ a.isPublic < b.isPublic ∨ a.isPublic = b.isPublic ∧ a.name ≤ b.name := by
  obtain ⟨p, s, -⟩ := a
  obtain ⟨q, t, -⟩ := b
  cases p <;> cases q <;> simp [le]

theorem trans_le (a b c : MemberEntry) (hab : a.le b) (hbc : b.le c) : a.le c := by
  rw [le_iff] at *
  rcases hab with hab | ⟨hab, hnames⟩ <;> rcases hbc with hbc | ⟨hbc, hnames'⟩
  · exact .inl (hab.trans hbc)
  · exact .inl (hbc ▸ hab)
  · exact .inl (hab ▸ hbc)
  · exact .inr ⟨hab.trans hbc, hnames.trans hnames'⟩

theorem total_le (a b : MemberEntry) : a.le b || b.le a := by
  rw [Bool.or_eq_true, le_iff, le_iff]
  rcases lt_trichotomy a.isPublic b.isPublic with h | h | h
  · exact .inl (.inl h)
  · exact (le_total a.name b.name).imp (fun hab => .inr ⟨h, hab⟩) fun hba => .inr ⟨h.symm, hba⟩
  · exact .inr (.inl h)

theorem level_eq (a b : MemberEntry) :
    level le a b = (b.isPublic == a.isPublic && b.name == a.name) := by
  obtain ⟨p, s, -⟩ := a
  obtain ⟨q, t, -⟩ := b
  have hnames : (decide (s ≤ t) && decide (t ≤ s)) = (t == s) := by
    rw [Bool.eq_iff_iff, Bool.and_eq_true, decide_eq_true_iff, decide_eq_true_iff, beq_iff_eq,
      le_antisymm_iff, and_comm]
  cases p <;> cases q <;> simp [level, le, hnames]

end MemberEntry

namespace Members

variable {α : Type} {m : Members α} {b : Bool} {listed privates publics : List α}

theorem isPublic_of_mem (h : ByName m.name (m.group b) listed) {a : α} (ha : a ∈ listed) :
    m.isPublic a = b := by
  simpa using (List.mem_filter.1 (h.perm.mem_iff.1 ha)).2

/-- Within a group the entries are in order if the names are. -/
theorem pairwise_entry (h : ByName m.name (m.group b) listed) :
    listed.Pairwise fun a a' => (m.entry a).le (m.entry a') :=
  h.ordered.imp_of_mem fun ha ha' hnames => MemberEntry.le_iff.2 <| .inr
    ⟨(isPublic_of_mem h ha).trans (isPublic_of_mem h ha').symm, Text.toUTF8_le_iff.1 hnames⟩

/-- A group has what is on a level, or nothing of it. -/
theorem filter_level (h : ByName m.name (m.group b) listed) (e : MemberEntry) :
    listed.filter (fun a => m.isPublic a == e.isPublic && m.name a == e.name) =
      if e.isPublic = b then
        m.declared.filter fun a => m.isPublic a == e.isPublic && m.name a == e.name
      else [] := by
  split
  next hb =>
    have hlisted : listed.filter (fun a => m.isPublic a == e.isPublic && m.name a == e.name) =
        listed.filter (m.name · == e.name) :=
      List.filter_congr fun a ha => by simp [isPublic_of_mem h ha, hb]
    have hstable := h.stable e.name
    rw [group, List.filter_filter, ← hb] at hstable
    simp only [hlisted, hstable, Bool.and_comm]
  next hb =>
    rw [List.filter_eq_nil_iff]
    intro a ha
    simp [isPublic_of_mem h ha, Ne.symm hb]

theorem filter_shown (m : Members α) (showPrivate showPublic : Bool) (e : MemberEntry) :
    (m.shown showPrivate showPublic).filter
        (fun a => m.isPublic a == e.isPublic && m.name a == e.name) =
      if (if e.isPublic then showPublic else showPrivate) then
        m.declared.filter fun a => m.isPublic a == e.isPublic && m.name a == e.name
      else [] := by
  rw [shown, List.filter_filter]
  by_cases h : (if e.isPublic then showPublic else showPrivate) = true
  · rw [if_pos h]
    refine List.filter_congr fun a _ => ?_
    by_cases ha : m.isPublic a = e.isPublic <;> simp [ha, h]
  · rw [if_neg h, List.filter_eq_nil_iff]
    intro a _
    by_cases ha : m.isPublic a = e.isPublic <;> simp [ha, h]

/-- Sorting the entries of both groups together lists the one group behind the other. -/
theorem mergeSort_entries (hprivate : ByName m.name (m.group false) privates)
    (hpublic : ByName m.name (m.group true) publics) (showPrivate showPublic : Bool) :
    ((m.shown showPrivate showPublic).map m.entry).mergeSort MemberEntry.le =
      ((if showPrivate then privates else []) ++ if showPublic then publics else []).map
        m.entry := by
  refine eq_of_level MemberEntry.le (fun a => by simp [MemberEntry.le])
    (List.pairwise_mergeSort MemberEntry.trans_le MemberEntry.total_le _) ?_ fun e => ?_
  · refine List.pairwise_map.2 (List.pairwise_append.2 ⟨?_, ?_, fun a ha a' ha' => ?_⟩)
    · split
      · exact pairwise_entry hprivate
      · exact .nil
    · split
      · exact pairwise_entry hpublic
      · exact .nil
    · have hfalse : m.isPublic a = false := by
        split at ha
        · exact isPublic_of_mem hprivate ha
        · simp at ha
      have htrue : m.isPublic a' = true := by
        split at ha'
        · exact isPublic_of_mem hpublic ha'
        · simp at ha'
      simp [MemberEntry.le, entry, hfalse, htrue]
  · have hlevel : level MemberEntry.le e ∘ m.entry =
        fun a => m.isPublic a == e.isPublic && m.name a == e.name := by
      funext a
      simp [MemberEntry.level_eq, entry]
    rw [filter_mergeSort MemberEntry.trans_le MemberEntry.total_le fun a b ha hb => ?_]
    · rw [List.filter_map, List.filter_map, hlevel, List.filter_append]
      refine congrArg (List.map m.entry) ?_
      rw [filter_shown, apply_ite (List.filter _), apply_ite (List.filter _),
        filter_level hprivate, filter_level hpublic]
      cases e.isPublic <;> simp
    · simp only [MemberEntry.level_eq, Bool.and_eq_true, beq_iff_eq] at ha hb
      exact MemberEntry.le_iff.2 (.inr ⟨ha.1.trans hb.1.symm, (ha.2.trans hb.2.symm).le⟩)

theorem listText_entries (hprivate : ByName m.name (m.group false) privates)
    (hpublic : ByName m.name (m.group true) publics) (showPrivate showPublic : Bool) :
    MemberEntry.listText ((m.shown showPrivate showPublic).map m.entry) =
      ";".intercalate (m.lines privates publics showPrivate showPublic) := by
  have hprivates : privates.map (MemberEntry.text ∘ m.entry) =
      privates.map fun a => "- " ++ m.name a ++ m.suffix a :=
    List.map_congr_left fun a ha => by simp [MemberEntry.text, entry, isPublic_of_mem hprivate ha]
  have hpublics : publics.map (MemberEntry.text ∘ m.entry) =
      publics.map fun a => "+ " ++ m.name a ++ m.suffix a :=
    List.map_congr_left fun a ha => by simp [MemberEntry.text, entry, isPublic_of_mem hpublic ha]
  rw [MemberEntry.listText, mergeSort_entries hprivate hpublic, List.map_map, List.map_append,
    apply_ite (List.map _), apply_ite (List.map _), hprivates, hpublics]
  rfl

/-- The members of a group by name. -/
def sorted (m : Members α) (isPublic : Bool) : List α :=
  (m.group isPublic).mergeSort (nameLe m.name)

theorem byName_sorted (m : Members α) (isPublic : Bool) :
    ByName m.name (m.group isPublic) (m.sorted isPublic) :=
  byName_mergeSort m.name (m.group isPublic)

/-- The lines of the groups that are to be shown. -/
def listing (m : Members α) (showPrivate showPublic : Bool) : List String :=
  m.lines (m.sorted false) (m.sorted true) showPrivate showPublic

theorem lists_listing (m : Members α) (showPrivate showPublic : Bool) :
    m.Lists showPrivate showPublic (m.listing showPrivate showPublic) :=
  ⟨_, _, m.byName_sorted false, m.byName_sorted true, rfl⟩

/-- To show more only adds lines. -/
theorem listing_sublist (m : Members α) {p q p' q' : Bool} (hp : p = true → p' = true)
    (hq : q = true → q' = true) : (m.listing p q).Sublist (m.listing p' q') := by
  refine List.Sublist.append ?_ ?_
  · cases p <;> cases p' <;> simp_all
  · cases q <;> cases q' <;> simp_all

end Members

/-! ## The lists of a type -/

/-- The properties of a type. One that can be set from outside is public. -/
def propertyMembers (typeName : Handle → String) (d : Description) : Members Property where
  declared := d.properties.filter (!·.isStatic)
  isPublic p := p.settable
  name p := p.name
  suffix p := " : " ++ typeName p.valueType

/-- The methods of a type. -/
def methodMembers (d : Description) : Members Method where
  declared := d.methods.filter fun m => !m.isStatic && !m.special
  isPublic m := m.visibility == .pub
  name m := m.name
  suffix _ := "()"

namespace Registry

variable {r : Registry} {n : Naming} {h : Handle} {d : Description} {typeName : Handle → String}

theorem contains_ofProperty (detail : Detail) (isPublic : Bool) :
    detail.contains (.ofProperty isPublic) =
      if isPublic then detail.publicProperties else detail.privateProperties := by
  cases isPublic <;> rfl

theorem contains_ofMethod (detail : Detail) (isPublic : Bool) :
    detail.contains (.ofMethod isPublic) =
      if isPublic then detail.publicMethods else detail.privateMethods := by
  cases isPublic <;> rfl

theorem shown_propertyMembers (typeName : Handle → String) (d : Description) (detail : Detail) :
    (propertyMembers typeName d).shown detail.privateProperties detail.publicProperties =
      listedProperties d detail := by
  simp only [Members.shown, propertyMembers, listedProperties, List.filter_filter,
    contains_ofProperty, Bool.and_comm]
  rfl

theorem shown_methodMembers (d : Description) (detail : Detail) :
    (methodMembers d).shown detail.privateMethods detail.publicMethods =
      listedMethods d detail := by
  simp only [Members.shown, methodMembers, listedMethods, List.filter_filter, contains_ofMethod,
    Visibility.isPublic, Bool.and_comm]
  rfl

theorem propertyList_eq (hd : r.describe h = .ok d)
    (hnamed : ∀ p ∈ d.properties, p.isStatic = false →
      r.displayName n p.valueType = .ok (typeName p.valueType))
    (detail : Detail) :
    r.propertyList n detail h = .ok (";".intercalate ((propertyMembers typeName d).listing
      (detail.contains .privateProperties) (detail.contains .publicProperties))) := by
  have hlisted := Members.listText_entries ((propertyMembers typeName d).byName_sorted false)
    ((propertyMembers typeName d).byName_sorted true) detail.privateProperties
    detail.publicProperties
  rw [shown_propertyMembers] at hlisted
  refine Eq.trans ?_ (congrArg Except.ok hlisted)
  have hentries : (listedProperties d detail).mapM (r.propertyEntry n) =
      .ok ((listedProperties d detail).map (propertyMembers typeName d).entry) := by
    refine Except.mapM_eq_ok.2 (List.forall₂_map_right_iff.2 (List.forall₂_same.2 fun p hp => ?_))
    obtain ⟨hmem, hlisted⟩ := List.mem_filter.1 hp
    rw [Bool.and_eq_true, Bool.not_eq_true'] at hlisted
    simp [propertyEntry, hnamed p hmem hlisted.1, propertyMembers, Members.entry]
  rw [propertyList]
  split
  · simp [hd, hentries]
  next hnone =>
    have hempty : listedProperties d detail = [] := by
      rw [← shown_propertyMembers typeName]
      simp_all [Detail.wantsProperties, Members.shown]
    simp [hempty, MemberEntry.listText]

theorem methodList_eq (hd : r.describe h = .ok d) (detail : Detail) :
    r.methodList detail h = .ok (";".intercalate ((methodMembers d).listing
      (detail.contains .privateMethods) (detail.contains .publicMethods))) := by
  have hlisted := Members.listText_entries ((methodMembers d).byName_sorted false)
    ((methodMembers d).byName_sorted true) detail.privateMethods detail.publicMethods
  rw [shown_methodMembers] at hlisted
  refine Eq.trans ?_ (congrArg Except.ok hlisted)
  rw [methodList]
  split
  · simp [hd]
    rfl
  next hnone =>
    have hempty : listedMethods d detail = [] := by
      rw [← shown_methodMembers]
      simp_all [Detail.wantsMethods, Members.shown]
    simp [hempty, MemberEntry.listText]

/-- The order in which methods are declared does not show. -/
theorem listing_of_perm {d d' : Description} (hperm : d'.methods.Perm d.methods)
    (showPrivate showPublic : Bool) :
    (methodMembers d').listing showPrivate showPublic =
      (methodMembers d).listing showPrivate showPublic := by
  have hnames : ∀ b, ((methodMembers d').sorted b).map (·.name) =
      ((methodMembers d).sorted b).map (·.name) := fun b =>
    ((methodMembers d).byName_sorted b).map_eq ((methodMembers d').byName_sorted b)
      ((hperm.filter _).filter _)
  have hline : ∀ sign (l : List Method), (l.map fun m => sign ++ m.name ++ "()") =
      (l.map (·.name)).map fun s => sign ++ s ++ "()" := by
    simp
  simp only [Members.listing, Members.lines, methodMembers] at hnames ⊢
  simp only [hline, hnames]

/-- The member lists of a type whose property types have names, static properties apart: for every
detail the groups that it asks for, the private one first, each with every member that it declares,
in the order of the names. More detail only adds lines, and the order in which methods are declared
does not show. -/
theorem member_lists_are_groups_by_name (hd : r.describe h = .ok d)
    (hnamed : ∀ p ∈ d.properties, p.isStatic = false →
      r.displayName n p.valueType = .ok (typeName p.valueType)) :
    ∃ properties methods : Detail → List String,
      (∀ detail, r.propertyList n detail h = .ok (";".intercalate (properties detail)) ∧
        (propertyMembers typeName d).Lists (detail.contains .privateProperties)
          (detail.contains .publicProperties) (properties detail)) ∧
      (∀ detail, r.methodList detail h = .ok (";".intercalate (methods detail)) ∧
        (methodMembers d).Lists (detail.contains .privateMethods)
          (detail.contains .publicMethods) (methods detail)) ∧
      (∀ small large : Detail,
        (∀ g, small.contains g = true → large.contains g = true) →
          (properties small).Sublist (properties large) ∧
            (methods small).Sublist (methods large)) ∧
      ∀ (r' : Registry) (h' : Handle) (d' : Description), r'.describe h' = .ok d' →
        d'.methods.Perm d.methods → ∀ detail, r'.methodList detail h' = r.methodList detail h := by
  refine ⟨fun detail => (propertyMembers typeName d).listing (detail.contains .privateProperties)
      (detail.contains .publicProperties),
    fun detail => (methodMembers d).listing (detail.contains .privateMethods)
      (detail.contains .publicMethods),
    fun detail => ⟨propertyList_eq hd hnamed detail, Members.lists_listing _ _ _⟩,
    fun detail => ⟨methodList_eq hd detail, Members.lists_listing _ _ _⟩,
    fun small large hle => ⟨Members.listing_sublist _ (hle _) (hle _),
      Members.listing_sublist _ (hle _) (hle _)⟩, fun r' h' d' hd' hperm detail => ?_⟩
  rw [methodList_eq hd, methodList_eq hd', listing_of_perm hperm]

/-- A jar with two private properties of one name, and one property of a type that is missing. -/
def jar : Description where
  name := "Jar"
  kind := .reference
  properties := [
    { name := "Öl", valueType := .ofNat 1, settable := false },
    { name := "Zimt", valueType := .ofNat 1, settable := false },
    { name := "Mehl", valueType := .ofNat 0 },
    { name := "Zimt", valueType := .ofNat 0, settable := false },
    { name := "Salz", valueType := .ofNat 7, isStatic := true }]
  methods := [
    { name := "Open", visibility := .pub },
    { name := "Fill", visibility := .prot },
    { name := "Drop", visibility := .priv }]

/-- The jar, and a tin with the same methods in reverse. -/
def pantry : Registry where
  slots := #[jar, { name := "Tin", kind := .reference, methods := jar.methods.reverse }]

/-- The names of the two types. -/
def pantryName (h : Handle) : String := if h = .ofNat 0 then "Jar" else "Tin"

/-- The lists of the jar. Each is part of the one for all details, and the methods are the tin's. -/
theorem pantry_listed :
    ∃ properties : Detail → List String,
      (∀ detail, pantry.propertyList .empty detail (.ofNat 0) =
          .ok (";".intercalate (properties detail)) ∧
        (propertyMembers pantryName jar).Lists (detail.contains .privateProperties)
          (detail.contains .publicProperties) (properties detail)) ∧
      (∀ detail, (properties detail).Sublist (properties .all)) ∧
      ∀ detail, pantry.methodList detail (.ofNat 1) = pantry.methodList detail (.ofNat 0) := by
  have hnamed : ∀ p ∈ jar.properties, p.isStatic = false →
      pantry.displayName .empty p.valueType = .ok (pantryName p.valueType) := by
    decide +kernel
  have hjar : pantry.describe (.ofNat 0) = .ok jar := rfl
  obtain ⟨properties, methods, hproperties, -, hmore, horder⟩ :=
    member_lists_are_groups_by_name hjar hnamed
  refine ⟨properties, hproperties, fun detail => ?_, fun detail => ?_⟩
  · exact (hmore detail .all fun g _ => Detail.contains_all g).1
  · exact horder pantry (.ofNat 1) _ rfl (List.reverse_perm jar.methods) detail

end Registry

end ClassDiagram
