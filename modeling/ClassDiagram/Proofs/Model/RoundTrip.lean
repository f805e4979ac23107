import ClassDiagram.Model.Json
import ClassDiagram.Proofs.Json.Record
/-!
# Models that are written and read again

A model is read back from its own text as it was: whatever its strings are made of, with a base or
without, and with lists of any length. The same holds of each kind of record that occurs in a model.
-/

namespace ClassDiagram

open Json.Record (scan_readsAs)
open Json.Scan (bool_readsAs list_map_readsAs string_readsAs string?_readsAs)

/-- The fields are met in the order of their declaration, each of them once. -/
theorem PropertyDeclaration.record_readsAs (p : PropertyDeclaration) :
    record.scan.ReadsAs p.toJson p := by
  refine scan_readsAs (d := ⟨some p.name, some p.type, some p.settable, some p.isStatic⟩) ?_ rfl
  refine .cons rfl rfl ((string_readsAs p.name).map _) ?_
  refine .cons rfl rfl ((string_readsAs p.type).map _) ?_
  refine .cons rfl rfl ((bool_readsAs p.settable).map _) ?_
  exact .cons rfl rfl ((bool_readsAs p.isStatic).map _) .nil

theorem MethodDeclaration.record_readsAs (m : MethodDeclaration) :
    record.scan.ReadsAs m.toJson m := by
  refine scan_readsAs (d := ⟨some m.name, some m.visibility, some m.isStatic, some m.accessor⟩)
    ?_ rfl
  refine .cons rfl rfl ((string_readsAs m.name).map _) ?_
  refine .cons rfl rfl ((string_readsAs m.visibility).map _) ?_
  refine .cons rfl rfl ((bool_readsAs m.isStatic).map _) ?_
  exact .cons rfl rfl ((bool_readsAs m.accessor).map _) .nil

theorem TypeDeclaration.record_readsAs (t : TypeDeclaration) :
    record.scan.ReadsAs t.toJson t := by
  refine scan_readsAs (d := ⟨some t.name, some t.kind, some t.base, some t.interfaces,
    some t.enumerable, some t.properties, some t.methods⟩) ?_ rfl
  refine .cons rfl rfl ((string_readsAs t.name).map _) ?_
  refine .cons rfl rfl ((string_readsAs t.kind).map _) ?_
  refine .cons rfl rfl ((string?_readsAs t.base).map _) ?_
  refine .cons rfl rfl ((list_map_readsAs string_readsAs t.interfaces).map _) ?_
  refine .cons rfl rfl ((bool_readsAs t.enumerable).map _) ?_
  refine .cons rfl rfl
    ((list_map_readsAs PropertyDeclaration.record_readsAs t.properties).map _) ?_
  exact .cons rfl rfl ((list_map_readsAs MethodDeclaration.record_readsAs t.methods).map _) .nil

namespace Model

theorem record_readsAs (m : Model) : record.scan.ReadsAs m.toJson m := by
  refine scan_readsAs (d := ⟨some m.types, some m.diagram⟩) ?_ rfl
  refine .cons rfl rfl ((list_map_readsAs TypeDeclaration.record_readsAs m.types).map _) ?_
  exact .cons rfl rfl ((list_map_readsAs string_readsAs m.diagram).map _) .nil

/-- Every model is read back from its text. -/
theorem written_model_is_read_back (m : Model) : read m.write = .ok m := by
  have hrecord : record.read m.toJson.compactText = .ok m :=
    Json.Record.read_compactText m.record_readsAs
  rw [write, read, hrecord]

end Model

end ClassDiagram
