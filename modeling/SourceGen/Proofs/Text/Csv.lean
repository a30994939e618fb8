import SourceGen.Text.Csv
import Mathlib.Data.List.Forall2

/-! Fields that are written into a line are read from it as they were. -/

namespace SourceGen.Text

/-- A character between quotes. -/
def doubled (c : Char) : List Char :=
  if c = '"' then ['"', '"'] else [c]

/-- The ways to write a field: between quotes, where a quote is written twice, or as it is if there
is neither a comma nor a quote in it. -/
inductive IsWrittenField : List Char → List Char → Prop
  | quoted (field : List Char) : IsWrittenField field ('"' :: (field.flatMap doubled ++ ['"']))
  | bare {field : List Char} (hcomma : ',' ∉ field) (hquote : '"' ∉ field) :
      IsWrittenField field field

section Scanning

theorem fieldsFrom_comma (rest : List Char) :
    fieldsFrom false (',' :: rest) = [] :: fieldsFrom false rest := by
  simp [fieldsFrom]

theorem fieldsFrom_plain {c : Char} (rest : List Char) (hcomma : c ≠ ',') (hquote : c ≠ '"') :
    fieldsFrom false (c :: rest) = consField c (fieldsFrom false rest) := by
  rw [fieldsFrom] <;> simp_all

theorem fieldsFrom_opening (rest : List Char) :
    fieldsFrom false ('"' :: rest) = fieldsFrom true rest := by
  simp [fieldsFrom]

/-- A quote between quotes closes them, unless another one follows. -/
theorem fieldsFrom_closing {rest : List Char} (h : rest.head? ≠ some '"') :
    fieldsFrom true ('"' :: rest) = fieldsFrom false rest := by
  cases rest with
  | nil => simp [fieldsFrom]
  | cons c rest =>
    have hc : c ≠ '"' := by simpa using h
    simp [fieldsFrom, hc]

theorem fieldsFrom_doubled (c : Char) (rest : List Char) :
    fieldsFrom true (doubled c ++ rest) = consField c (fieldsFrom true rest) := by
  by_cases hc : c = '"'
  · simp [doubled, hc, fieldsFrom]
  · simp [doubled, hc, fieldsFrom]

end Scanning

/-- A written field is read as the front of the first field, unless a quote follows it. -/
theorem fieldsFrom_written {field written rest : List Char} (h : IsWrittenField field written)
    (hrest : rest.head? ≠ some '"') :
    fieldsFrom false (written ++ rest) = field.foldr consField (fieldsFrom false rest) := by
  cases h with
  | quoted =>
    rw [List.cons_append, fieldsFrom_opening, List.append_assoc, List.singleton_append]
    induction field with
    | nil => exact fieldsFrom_closing hrest
    | cons c field ih =>
      rw [List.flatMap_cons, List.append_assoc, fieldsFrom_doubled, ih, List.foldr_cons]
  | bare hcomma hquote =>
    induction field with
    | nil => rfl
    | cons c field ih =>
      obtain ⟨hc, hcomma⟩ := not_or.mp (mt List.mem_cons.mpr hcomma)
      obtain ⟨hq, hquote⟩ := not_or.mp (mt List.mem_cons.mpr hquote)
      rw [List.cons_append, fieldsFrom_plain _ (Ne.symm hc) (Ne.symm hq), ih hcomma hquote,
        List.foldr_cons]

theorem foldr_consField (front field : List Char) (fields : List (List Char)) :
    front.foldr consField (field :: fields) = (front ++ field) :: fields := by
  induction front with
  | nil => rfl
  | cons c front ih => rw [List.foldr_cons, ih, List.cons_append]; rfl

/-- Written fields with commas between them are read as they were. -/
theorem fieldsFrom_intercalate {fields written : List (List Char)} (hne : fields ≠ [])
    (h : List.Forall₂ IsWrittenField fields written) :
    fieldsFrom false ([','].intercalate written) = fields := by
  induction h with
  | nil => exact absurd rfl hne
  | @cons field text fields texts hfield hfields ih =>
    cases hfields with
    | nil =>
      have hlast : fieldsFrom false (text ++ []) = field.foldr consField (fieldsFrom false []) :=
        fieldsFrom_written hfield (by simp)
      rw [List.append_nil] at hlast
      rw [List.intercalate_singleton, hlast, fieldsFrom, foldr_consField, List.append_nil]
    | cons hnext hothers =>
      rw [List.intercalate_cons_cons, List.append_assoc, fieldsFrom_written hfield (by simp),
        List.singleton_append, fieldsFrom_comma, ih (List.cons_ne_nil _ _), foldr_consField,
        List.append_nil]

/-- The fields of a line are those that were written into it, whichever of them are between
quotes. -/
theorem csvFields_written {fields written : List String} (hne : fields ≠ [])
    (h : List.Forall₂ (fun field text => IsWrittenField field.toList text.toList) fields written) :
    csvFields (",".intercalate written) = fields := by
  have hchars : List.Forall₂ IsWrittenField (fields.map String.toList)
      (written.map String.toList) := by
    rw [List.forall₂_map_left_iff, List.forall₂_map_right_iff]
    exact h
  have hread := fieldsFrom_intercalate (by simpa using hne) hchars
  have hcomma : ",".toList = [','] := rfl
  rw [csvFields, String.toList_intercalate, hcomma, hread, List.map_map]
  simp

/-- A field with a comma and a quote at its end, one that is empty, and one without need of its
quotes. -/
theorem csvFields_written_quotes :
    ["a,\"", "", "b"] ≠ [] ∧ csvFields "\"a,\"\"\",,\"b\"" = ["a,\"", "", "b"] := by
  have hwritten : List.Forall₂ (fun field text => IsWrittenField field.toList text.toList)
      ["a,\"", "", "b"] ["\"a,\"\"\"", "", "\"b\""] :=
    .cons (.quoted _) (.cons (.bare (by simp) (by simp)) (.cons (.quoted _) .nil))
  exact ⟨by simp, csvFields_written (by simp) hwritten⟩

end SourceGen.Text
