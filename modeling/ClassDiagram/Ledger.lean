import ClassDiagram.Handle
/-!
# Edges and the edge ledger

An edge joins two types in one of three ways. A ledger remembers which edges were recorded; it is
a set, and each edge is entered once.
-/

namespace ClassDiagram

/-- The way an edge joins two class blocks. -/
inductive EdgeKind where
  /-- The source derives from the target. -/
  | inherits
  /-- The source has a property of the target type. -/
  | associates
  /-- The source has a property that holds many of the target type. -/
  | aggregates
deriving DecidableEq, Repr

/-- The mark written between the two class blocks. -/
def EdgeKind.token : EdgeKind → String
  | .inherits => "^-"
  | .associates => "->"
  | .aggregates => "1-0..*"

/-- A directed edge. -/
structure Edge where
  source : Handle
  target : Handle
  kind : EdgeKind
deriving DecidableEq, Repr

/-- The recorded edges, the latest first. -/
structure Ledger where
  entries : List Edge
  /-- No edge is entered twice. -/
  nodup : entries.Nodup

namespace Ledger

/-- The ledger without entries. -/
def empty : Ledger := ⟨[], List.nodup_nil⟩

/-- The edge was recorded. -/
def contains (l : Ledger) (e : Edge) : Bool := decide (e ∈ l.entries)

/-- Records an edge; one that was recorded before changes nothing. -/
def insert (l : Ledger) (e : Edge) : Ledger :=
  if h : e ∈ l.entries then l else ⟨e :: l.entries, List.nodup_cons.2 ⟨h, l.nodup⟩⟩

/-- Records an edge, and tells whether it is new. -/
def record (l : Ledger) (e : Edge) : Bool × Ledger := (!l.contains e, l.insert e)

/-- The number of recorded edges. -/
def size (l : Ledger) : Nat := l.entries.length

/-- Nothing was recorded. -/
def isEmpty (l : Ledger) : Bool := l.entries.isEmpty

@[simp] theorem mem_entries_insert {l : Ledger} {e f : Edge} :
    f ∈ (l.insert e).entries ↔ f = e ∨ f ∈ l.entries := by
  unfold insert
  split
  · constructor
    · exact Or.inr
    · rintro (rfl | h)
      · assumption
      · exact h
  · simp

@[simp] theorem contains_insert (l : Ledger) (e f : Edge) :
    (l.insert e).contains f = (decide (f = e) || l.contains f) := by
  simp [contains, mem_entries_insert]

theorem insert_of_contains {l : Ledger} {e : Edge} (h : l.contains e) : l.insert e = l :=
  dif_pos (by simpa [contains] using h)

theorem size_insert_of_not_contains {l : Ledger} {e : Edge} (h : l.contains e = false) :
    (l.insert e).size = l.size + 1 := by
  have h : e ∉ l.entries := by simpa [contains] using h
  simp [size, insert, h]

end Ledger

end ClassDiagram
