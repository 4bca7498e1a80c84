import Prebake.Config.Reading
import Prebake.Output
import Prebake.Proofs.Json.Reader

/-!
# Outputs are no configurations

A closed record refuses an object that starts with a field of another name. The output for a registry with a route starts with
the route, which no configuration has.
-/

namespace Prebake

open Json

namespace Json

variable {α β σ : Type} {s rest blanks : List Char}

namespace Reader

/-- An object is refused with its first field if the field is refused. -/
theorem fields_eq_error {field : σ → String → Reader σ} {name : String} {more : List Char} {start : σ} {fault : Fault}
    (hblanks : ∀ b ∈ blanks, isBlank b) (hread : Text.read rest = .ok (name, more))
    (hfield : field start name more = .error fault) : fields field start (blanks ++ '"' :: rest) = .error fault := by
  have hloop : fieldLoop field ((blanks ++ '"' :: rest).length + 1) true start (blanks ++ '"' :: rest) = .error fault := by
    rw [fieldLoop]
    refine (bind_ok (separates_hasField.first hblanks rfl rest)).trans ?_
    exact (bind_ok (fieldName_cons hread)).trans (bind_error hfield)
  exact (bind_ok (a := blanks ++ '"' :: rest) rfl).trans (bind_error hloop)

end Reader

namespace Shape

/-- A closed record refuses an object whose first field it does not know. -/
theorem read_eq_error {shape : Shape σ} {name : String} {more : List Char} (hclosed : shape.closed = true)
    (hname : shape.fields.find? (·.name == name) = none) (hblanks : ∀ b ∈ blanks, Reader.isBlank b)
    (hread : Text.read rest = .ok (name, more)) (start : σ) (levels : Nat) :
    shape.read start (levels + 1) ('\x7b' :: (blanks ++ '"' :: rest)) = .error (.unknownField name shape.names) := by
  have hfield : ∀ seen state, shape.readField levels seen state name more = .error (.unknownField name shape.names) := by
    intro seen state
    rw [readField, hname]
    dsimp only
    rw [if_pos hclosed]
    rfl
  have hobject : shape.readObject start levels (blanks ++ '"' :: rest) = .error (.unknownField name shape.names) :=
    Reader.bind_error (Reader.fields_eq_error hblanks hread (hfield [] start))
  exact (Reader.bind_ok (Reader.peek_append (List.forall_mem_nil _) rfl)).trans hobject

end Shape

/-! ## Written objects -/

/-- A written object starts with a brace and its first name. -/
theorem write_object (layout : Layout) (name : String) (item : Json) (fields : List (String × Json)) :
    ∃ more, write layout (.object ((name, item) :: fields)) =
      '\x7b' :: (layout.inner.newline ++ (Text.write name ++ more)) := by
  rw [write, if_neg (by simp), writeFields]
  simp only [List.append_assoc]
  exact ⟨_, rfl⟩

end Json

namespace Output

variable {output : Output} {route : String}

/-- The output for a route starts with that route. -/
theorem toJson_eq (hroute : output.route? = some route) :
    ∃ fields, output.toJson = .object (("route", .string route) :: fields) := by
  rw [toJson, hroute]
  exact ⟨_, rfl⟩

/-- An output that tells its route starts with it. -/
theorem text_eq (hroute : output.route? = some route) (pretty : Bool) : ∃ blanks more : List Char,
    (∀ b ∈ blanks, Reader.isBlank b) ∧
      (output.text pretty).toList = '\x7b' :: (blanks ++ '"' :: ("route\"".toList ++ more)) := by
  obtain ⟨fields, hfields⟩ := toJson_eq hroute
  obtain ⟨layout, htext⟩ : ∃ layout, (output.text pretty).toList = write layout output.toJson := by
    cases pretty with
    | false => exact ⟨.compact, String.toList_ofList⟩
    | true => exact ⟨.lines 0, String.toList_ofList⟩
  obtain ⟨more, hwrite⟩ := write_object layout "route" (.string route) fields
  refine ⟨layout.inner.newline, more, layout.inner.isBlank_newline, ?_⟩
  rw [htext, hfields, hwrite]
  rfl

end Output

namespace Config

/-- No output that tells its route is taken for a configuration. -/
theorem parse_text {output : Output} {route : String} (hroute : output.route? = some route) (pretty : Bool) :
    parse (output.text pretty) = .error (.invalidConfig (.unknownField "route" shape.names)) := by
  obtain ⟨blanks, more, hblanks, htext⟩ := output.text_eq hroute pretty
  have hread : shape.read {} Reader.maxLevels (output.text pretty).toList = .error (.unknownField "route" shape.names) := by
    rw [htext]
    exact shape.read_eq_error rfl rfl hblanks rfl {} 126
  rw [parse, Reader.run, hread]
  rfl

end Config

end Prebake
