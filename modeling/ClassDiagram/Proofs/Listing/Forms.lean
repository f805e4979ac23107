import ClassDiagram.Proofs.Json.Document
import ClassDiagram.Proofs.Listing.Rows
/-!
# The two forms of a listing

A listing is written as a document or as a table. The document is read back as the same rows and
their number. The table has a line for each row, and the kinds begin at one column behind the names:
names are measured in bytes but padded in characters, and no name has more characters than bytes.
A name with more bytes than a text can be padded to leaves no table at all.
-/

namespace ClassDiagram

/-! ## Documents -/

/-- The kind with this canonical spelling. -/
def Kind.ofCanonical? (s : String) : Option Kind :=
  [reference, interface, value, enumeration, scalar].find? fun k => k.text = s

/-- The first member of an object with this name. -/
def Json.Value.member? (name : String) : Json.Value → Option Json.Value
  | .object members => members.lookup name
  | _ => none

/-- The row that a document tells of. -/
def Row.ofJson? (v : Json.Value) : Option Row :=
  match v.member? "name", v.member? "kind", v.member? "in_diagram" with
  | some (.text name), some (.text kind), some (.bool isDrawn) =>
    (Kind.ofCanonical? kind).map fun kind => { name, kind, isDrawn }
  | _, _, _ => none

namespace Listing

/-- The total and the rows that a document tells of. -/
def ofJson? (v : Json.Value) : Option (Nat × List Row) :=
  match v.member? "total", v.member? "types" with
  | some (.number total), some (.list items) =>
    (items.mapM Row.ofJson?).map fun rows => (total, rows)
  | _, _ => none

theorem ofJson?_rowJson (r : Row) : Row.ofJson? (rowJson r) = some r := by
  obtain ⟨name, kind, isDrawn⟩ := r
  cases kind <;> rfl

theorem ofJson?_toJson (l : Listing) : ofJson? l.toJson = some (l.rows.length, l.rows) := by
  have hrows : (l.rows.map rowJson).mapM Row.ofJson? = some l.rows := by
    induction l.rows with
    | nil => rfl
    | cons r rows ih => simp [ofJson?_rowJson, ih]
  show ((l.rows.map rowJson).mapM Row.ofJson?).map _ = _
  rw [hrows, Option.map_some]

/-! ## Tables -/

/-- The line of a row whose kind begins at the column: the mark, the name, spaces, and the kind. -/
def LineAt (column : Nat) (r : Row) (line : List Char) : Prop :=
  ∃ gap, 0 < gap ∧ 2 + r.name.length + gap = column ∧
    line = (if r.isDrawn then '*' else ' ') :: ' ' ::
      (r.name.toList ++ List.replicate gap ' ' ++ r.kind.text.toList)

theorem length_le_utf8ByteSize (s : String) : s.length ≤ s.utf8ByteSize := by
  suffices hlist : ∀ l : List Char, l.length ≤ (String.ofList l).utf8ByteSize by
    have hs := hlist s.toList
    rwa [String.ofList_toList, String.length_toList] at hs
  intro l
  induction l with
  | nil => exact Nat.zero_le _
  | cons c l ih =>
    have hc := c.utf8Size_pos
    rw [String.ofList_cons, String.utf8ByteSize_append, String.utf8ByteSize_singleton,
      List.length_cons]
    omega

theorem width_le_iff {l : Listing} {n : Nat} :
    l.width ≤ n ↔ ∀ r ∈ l.rows, r.name.utf8ByteSize ≤ n := by
  have hfold : ∀ (sizes : List Nat) (start : Nat),
      sizes.foldl max start ≤ n ↔ start ≤ n ∧ ∀ size ∈ sizes, size ≤ n := by
    intro sizes
    induction sizes with
    | nil => simp
    | cons size sizes ih =>
      intro start
      rw [List.foldl_cons, ih, Nat.max_le, List.forall_mem_cons, and_assoc]
  rw [width, hfold, List.forall_mem_map]
  exact and_iff_right (Nat.zero_le n)

theorem length_le_width {l : Listing} {r : Row} (hr : r ∈ l.rows) : r.name.length ≤ l.width :=
  Nat.le_trans (length_le_utf8ByteSize _) (width_le_iff.1 (Nat.le_refl _) r hr)

/-- The line of a row without the line feed, in a column of names of the given width. -/
def line (width : Nat) (r : Row) : List Char :=
  (if r.isDrawn then '*' else ' ') :: ' ' ::
    (r.name.toList ++ List.replicate (width - r.name.length + 2) ' ' ++ r.kind.text.toList)

theorem rowText_eq {width : Nat} {r : Row} : rowText width r =
    if width ≤ widest then some (String.ofList (line width r ++ ['\n'])) else none := by
  unfold rowText padded
  split
  · have hmark : (if r.isDrawn then "* " else "  ").toList =
        [if r.isDrawn then '*' else ' ', ' '] := by cases r.isDrawn <;> rfl
    refine congrArg some (String.toList_inj.1 ?_)
    simp [line, hmark, List.replicate_succ']
  · rfl

/-- Where names can be padded every row has its line, and elsewhere none has. -/
theorem mapM_rowText_eq_some {width : Nat} {rows : List Row} {lines : List String} :
    rows.mapM (rowText width) = some lines ↔ (rows = [] ∨ width ≤ widest) ∧
      lines = rows.map fun r => String.ofList (line width r ++ ['\n']) := by
  by_cases hw : width ≤ widest
  · have hrow : rowText width = fun r => pure (String.ofList (line width r ++ ['\n'])) := by
      funext r
      rw [rowText_eq, if_pos hw]
      rfl
    rw [hrow, List.mapM_pure]
    simp [hw, eq_comm]
  · cases rows with
    | nil => simp [eq_comm]
    | cons r rows => simp [rowText_eq, hw]

theorem lineAt_line {l : Listing} {r : Row} (hr : r ∈ l.rows) :
    LineAt (l.width + 4) r (line l.width r) := by
  have hwidth := length_le_width hr
  exact ⟨l.width - r.name.length + 2, by omega, by omega, rfl⟩

theorem lineFeed_notMem_line {width : Nat} {r : Row} (hname : '\n' ∉ r.name.toList) :
    '\n' ∉ line width r := by
  have hkind : '\n' ∉ r.kind.text.toList := by cases r.kind <;> decide
  have hmark : '\n' ≠ if r.isDrawn then '*' else ' ' := by cases r.isDrawn <;> decide
  simp [line, hname, hkind, hmark]

/-- The last line: how many types are listed, and how many are asked for. -/
def totals (l : Listing) : String :=
  "Total: " ++ toString l.rows.length ++ " types (" ++ toString l.requested ++ " in diagram)"

/-- There is a table just if all names can be padded. The lines of its rows and an empty one end in
a line feed. -/
theorem text_eq_some {l : Listing} {text : String} : l.text = some text ↔ l.width ≤ widest ∧
    text.toList = (l.rows.map (line l.width) ++ [[]]).flatMap (· ++ ['\n']) ++ l.totals.toList := by
  have hwidth : l.rows = [] ∨ l.width ≤ widest ↔ l.width ≤ widest := by
    refine or_iff_right_of_imp fun hnil => ?_
    simp [width, hnil]
  have hbreak : "\nTotal: ".toList = '\n' :: "Total: ".toList := by decide
  simp only [Listing.text, Option.bind_eq_bind, Option.bind_eq_some_iff, mapM_rowText_eq_some,
    hwidth, pure, Option.some.injEq, and_assoc, exists_and_left, exists_eq_left]
  refine and_congr_right fun _ => ?_
  rw [← String.toList_inj, eq_comm]
  simp only [totals, String.toList_append, String.toList_join, List.flatMap_append,
    List.flatMap_map, List.flatMap_singleton, String.toList_ofList, hbreak, List.append_assoc,
    List.cons_append, List.nil_append]

theorem exists_text_iff {l : Listing} :
    (∃ text, l.text = some text) ↔ ∀ r ∈ l.rows, r.name.utf8ByteSize ≤ widest := by
  simp only [text_eq_some, exists_and_left, ← width_le_iff, and_iff_left_iff_imp]
  exact fun _ => ⟨String.ofList _, String.toList_ofList⟩

theorem lineFeed_notMem_totals {l : Listing} : '\n' ∉ l.totals.toList := by
  have hdigits : ∀ n, '\n' ∉ Nat.toDigits 10 n := by
    intro n hn
    have hdigit := Nat.isDigit_of_mem_toDigits (by decide) (by decide) hn
    exact absurd hdigit (by decide)
  simp only [totals, String.toList_append, Nat.toString_eq_repr, Nat.toList_repr, List.mem_append,
    hdigits, not_or, not_false_eq_true, and_true]
  decide

theorem splitOn_of_notMem {line : List Char} (h : '\n' ∉ line) : line.splitOn '\n' = [line] := by
  refine List.splitOnP_eq_singleton fun c hc => ?_
  rw [beq_eq_false_iff_ne]
  rintro rfl
  exact h hc

/-- Lines that end in a line feed each are split off one by one. -/
theorem splitOn_lines {lines : List (List Char)} {rest : List Char}
    (h : ∀ line ∈ lines, '\n' ∉ line) :
    (lines.flatMap (· ++ ['\n']) ++ rest).splitOn '\n' = lines ++ rest.splitOn '\n' := by
  induction lines with
  | nil => rfl
  | cons line lines ih =>
    obtain ⟨hline, hlines⟩ := List.forall_mem_cons.1 h
    have hsplit : (line ++ '\n' :: (lines.flatMap (· ++ ['\n']) ++ rest)).splitOn '\n' =
        line.splitOn '\n' ++ (lines.flatMap (· ++ ['\n']) ++ rest).splitOn '\n' :=
      List.splitOnP_append_cons _ _ (by decide)
    rw [List.flatMap_cons, List.append_assoc, List.append_assoc, List.singleton_append, hsplit,
      splitOn_of_notMem hline, ih hlines, List.singleton_append, List.cons_append]

/-- The table has a line for each row, an empty line and the line of the totals. -/
theorem splitOn_text {l : Listing} {text : String} (htext : l.text = some text)
    (hnames : ∀ r ∈ l.rows, '\n' ∉ r.name.toList) :
    text.toList.splitOn '\n' = l.rows.map (line l.width) ++ [[], l.totals.toList] := by
  have hlines : ∀ x ∈ l.rows.map (line l.width) ++ [[]], '\n' ∉ x := by
    intro x hx
    rcases List.mem_append.1 hx with hx | hx
    · obtain ⟨r, hr, rfl⟩ := List.mem_map.1 hx
      exact lineFeed_notMem_line (hnames r hr)
    · obtain rfl := List.mem_singleton.1 hx
      exact List.not_mem_nil
  rw [(text_eq_some.1 htext).2, splitOn_lines hlines, splitOn_of_notMem lineFeed_notMem_totals,
    List.append_assoc, List.singleton_append]

end Listing

/-! ## Listings of loaded models -/

/-- What is listed are the types that the model declares, in both forms. -/
structure Loaded.Lists (l : Loaded) (m : Model) : Prop where
  /-- There is one row for each declared type. -/
  length : l.listing.rows.length = m.types.length
  /-- The rows are in the order of the declarations, with the names and the kinds declared. -/
  declared : ∀ (i : Nat) (t : TypeDeclaration), m.types[i]? = some t →
    ∃ r, l.listing.rows[i]? = some r ∧ r.name = t.name ∧ Kind.ofText? t.kind = some r.kind
  /-- The slots behind those of the declared types, and no others, are those of constructed types;
  they have no rows. -/
  constructed : ∀ (k : Nat) (d : Description), l.registry.slots[k]? = some d →
    (d.definition = none ↔ k < m.types.length)
  /-- With few enough slots for each of them to have a handle, a row is marked if nothing is asked
  for, or else if something that is asked for denotes the type. -/
  marked : l.registry.size ≤ UInt32.size → ∀ (i : Nat) (r : Row), l.listing.rows[i]? = some r →
    (r.isDrawn ↔ m.diagram = [] ∨ ∃ text ∈ m.diagram, m.DenotesIn l.registry text (.ofNat i))
  /-- What denotes a declared type is its own name, and nothing else. -/
  named : l.registry.size ≤ UInt32.size →
    ∀ (i : Nat) (t : TypeDeclaration), m.types[i]? = some t → ∀ text ∈ m.diagram,
      (m.DenotesIn l.registry text (.ofNat i) ↔
        TypeExpression.read text = .ok (.node t.name []))
  /-- The document tells of the same rows, and the total is their number. -/
  document : ∃ text v, l.listing.render true = some text ∧ Json.Value.read text = .ok v ∧
    Listing.ofJson? v = some (l.listing.rows.length, l.listing.rows)
  /-- There is a table just if no name has more bytes than a text can be padded to. -/
  tabulated : (∃ text, l.listing.render false = some text) ↔
    ∀ t ∈ m.types, t.name.utf8ByteSize ≤ Listing.widest
  /-- Unless there is a line break in a name, the table has a line for each row, with all kinds in
  one column behind the names, before an empty line and the totals. -/
  table : ∀ text, l.listing.render false = some text → (∀ t ∈ m.types, '\n' ∉ t.name.toList) →
    ∃ column lines, text.toList.splitOn '\n' = lines ++ [[], l.listing.totals.toList] ∧
      List.Forall₂ (Listing.LineAt column) l.listing.rows lines

namespace Model

theorem exists_table_iff {m : Model} {l : Loaded} (hl : m.load.result = .ok l) :
    (∃ text, l.listing.render false = some text) ↔
      ∀ t ∈ m.types, t.name.utf8ByteSize ≤ Listing.widest :=
  Listing.exists_text_iff.trans
    (forall_row_name_iff hl (P := fun name => name.utf8ByteSize ≤ Listing.widest))

/-- Every model that loads is listed with the types that it declares. -/
theorem loaded_is_listed {m : Model} {l : Loaded} (hl : m.load.result = .ok l) : l.Lists m := by
  have hwf := exists_load_iff.1 ⟨l, hl⟩
  have hrows := rows_of_load hl
  have hat : ∀ (i : Nat) (t : TypeDeclaration), m.types[i]? = some t → l.listing.rows[i]? =
      some { name := t.name, kind := t.bare.kind, isDrawn := l.roots.contains (.ofNat i) } := by
    intro i t ht
    simp [hrows, ht]
  have hlength : l.listing.rows.length = m.types.length := by simp [hrows]
  refine
    { length := hlength
      declared := ?_
      constructed := fun k d hd => definition_eq_none_iff hl hd
      marked := ?_
      named := ?_
      document := ⟨_, _, rfl, Json.Value.read_prettyText _, Listing.ofJson?_toJson _⟩
      tabulated := exists_table_iff hl
      table := ?_ }
  · intro i t ht
    obtain ⟨kind, hkind⟩ := Option.isSome_iff_exists.1 (hwf.kinds t (List.mem_of_getElem? ht))
    exact ⟨_, hat i t ht, rfl, by simp [TypeDeclaration.bare, hkind]⟩
  · intro hsize i r hr
    have hi : i < m.types.length := hlength ▸ (List.getElem?_eq_some_iff.1 hr).1
    have ht : m.types[i]? = some m.types[i] := List.getElem?_eq_getElem hi
    obtain rfl := Option.some.inj ((hat i _ ht).symm.trans hr)
    rw [← (placed_of_load hl hsize).mem_roots_iff ht, List.contains_iff_mem]
  · intro hsize i t ht text htext
    exact (placed_of_load hl hsize).denotesIn_declared_iff ht (List.mem_append_right _ htext)
  · intro text htext hnames
    refine ⟨l.listing.width + 4, _,
      Listing.splitOn_text htext ((forall_row_name_iff hl (P := ('\n' ∉ ·.toList))).2 hnames), ?_⟩
    rw [List.forall₂_map_right_iff, List.forall₂_same]
    exact fun r hr => Listing.lineAt_line hr

/-- A name in another script, a constructed type that is asked for, and a type that is asked for
twice. -/
def thicket : Model where
  types := [
    { name := "Жук", properties := [{ name := "Friends", type := "List<Жук>" }] },
    { name := "List\x601", kind := "Interface" },
    { name := "Ant", kind := "value" }]
  diagram := ["List<Жук>", " Жук", "Жук"]

/-- The first name has six bytes and three characters. -/
theorem thicket_is_listed : ∃ l, thicket.load.result = .ok l ∧ l.registry.size = 4 ∧
    l.listing.render false =
      some ("* Жук     class\n  List\x601  interface\n  Ant     struct\n\n" ++
        "Total: 3 types (3 in diagram)") ∧ l.Lists thicket := by
  have hl : thicket.load.result.toOption.map
      (fun l => (l.registry.size, l.listing.render false)) = some (4,
        some ("* Жук     class\n  List\x601  interface\n  Ant     struct\n\n" ++
          "Total: 3 types (3 in diagram)")) := by
    decide +kernel
  obtain ⟨l, hl, hshown⟩ := Except.map_toOption_eq_some.1 hl
  obtain ⟨hsize, htext⟩ := Prod.mk.inj hshown
  exact ⟨l, hl, hsize, htext, loaded_is_listed hl⟩

/-- A model of one type with a name of so many bytes. -/
def lengthy (length : Nat) : Model where
  types := [{ name := String.ofList (List.replicate length 'a') }]

theorem lengthy_loads (length : Nat) : ∃ l, (lengthy length).load.result = .ok l := by
  have hkind : (Kind.ofText? ({ name := "" } : TypeDeclaration).kind).isSome := by decide
  refine exists_load_iff.2 ⟨?_, List.nodup_singleton _, ?_, by simp [lengthy]⟩
  · simpa [lengthy] using hkind
  · intro t ht
    obtain rfl := List.mem_singleton.1 ht
    exact ⟨by simp [TypeDeclaration.expressions], by simp⟩

theorem lengthy_render_eq_none {length : Nat} {l : Loaded}
    (hl : (lengthy length).load.result = .ok l) (hlength : Listing.widest < length) :
    l.listing.render false = none := by
  refine Option.eq_none_iff_forall_ne_some.2 fun text htext => ?_
  have hsize : (String.ofList (List.replicate length 'a')).utf8ByteSize ≤ Listing.widest :=
    (exists_table_iff hl).1 ⟨text, htext⟩ _ (List.mem_singleton.2 rfl)
  have hbytes := Listing.length_le_utf8ByteSize (String.ofList (List.replicate length 'a'))
  rw [String.length_ofList, List.length_replicate] at hbytes
  omega

/-- A name of 65536 bytes is listed in the document, and leaves no table. -/
theorem lengthy_has_no_table : ∃ l, (lengthy 65536).load.result = .ok l ∧
    (l.listing.render true).isSome ∧ l.listing.render false = none := by
  obtain ⟨l, hl⟩ := lengthy_loads 65536
  exact ⟨l, hl, rfl, lengthy_render_eq_none hl (by decide)⟩

end Model

end ClassDiagram
