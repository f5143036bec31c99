import ScriptBridge.Database.Result
import ScriptBridge.Proofs.NumberTexts

/-!
# Columns of stored rows have one type each

Stored values have types of their own, whatever was declared for their column. A result gives each of its
columns a type and brings every value of the column to it.

**Types of columns.** A declared type is taken as it is. Without one the rows are searched from the first
on, and `FirstType` says what is found: the type of the first value in the column that is not null, or that
of texts if there is none.

**Types of fields.** `FieldValue.OfType` says which fields a column of some type may hold. What is brought to
a type is of this type (`coerce_ofType`), and what is of a type already is left alone (`coerce_eq_self`). So
it makes no difference to do it again.
-/

namespace ScriptBridge

open Reading (IsWide)

/-- What stands in a row and a column. -/
def valueAt? {α : Type} (rows : List (List α)) (row column : Nat) : Option α :=
  (rows[row]?).bind (·[column]?)

/-! ## Fields -/

namespace FieldValue

/-- **What a column of a type holds** beside null. A text stands among numbers only if it is none, even
without the blanks around it. -/
inductive OfType : ColumnType → FieldValue → Prop where
  | integer (value : Int) : OfType .integer (.integer value)
  | noInteger (written : String) :
      (¬ ∃ n, Reading.IntegerText (Text.trim written.toList) n) → OfType .integer (.text written)
  | float (value : Double) : OfType .float (.float value)
  | noNumber (written : String) :
      ¬ Reading.NumberText (Text.trim written.toList) → OfType .float (.text written)
  | text (written : String) : OfType .text (.text written)

/-- A text is read, or it is no text of the numbers that are read. -/
theorem readAs_cases {α : Type} (read : List Char → Option α) (field : α → FieldValue)
    (written : String) :
    (∃ value, read (Text.trim written.toList) = some value
        ∧ readAs (fun cs => (read cs).map field) written = field value)
      ∨ (read (Text.trim written.toList) = none
        ∧ readAs (fun cs => (read cs).map field) written = .text written) := by
  unfold readAs
  cases hread : read (Text.trim written.toList) with
  | none => exact Or.inr ⟨rfl, by simp only [hread, Option.map_none, Option.getD_none]⟩
  | some value => exact Or.inl ⟨value, rfl, by simp only [hread, Option.map_some, Option.getD_some]⟩

theorem int64?_eq_none_iff {cs : List Char} :
    Reading.int64? cs = none ↔ ¬ ∃ n, Reading.IntegerText cs n := by
  rw [Option.eq_none_iff_forall_ne_some, not_exists]
  exact forall_congr' fun n => not_congr Reading.int64?_eq_some_iff

theorem double?_eq_none_iff {cs : List Char} :
    Reading.double? cs = none ↔ ¬ Reading.NumberText cs := by
  rw [← Reading.double?_isSome_iff, Option.not_isSome_iff_eq_none]

/-- **What is brought to a type is of this type**, unless it is null. -/
theorem coerce_ofType {field : FieldValue} (h : field ≠ .null) (type : ColumnType) :
    OfType type (field.coerce type) := by
  cases type with
  | integer =>
      cases field with
      | null => exact absurd rfl h
      | integer value => exact .integer value
      | float value => exact .integer _
      | text written =>
          show OfType .integer (readAs (fun cs => (Reading.int64? cs).map .integer) written)
          rcases readAs_cases Reading.int64? .integer written with ⟨n, _, hread⟩ | ⟨hnone, hread⟩
          · rw [hread]
            exact .integer n
          · rw [hread]
            exact .noInteger written (int64?_eq_none_iff.mp hnone)
  | float =>
      cases field with
      | null => exact absurd rfl h
      | integer value => exact .float _
      | float value => exact .float value
      | text written =>
          show OfType .float (readAs (fun cs => (Reading.double? cs).map .float) written)
          rcases readAs_cases Reading.double? .float written with ⟨x, _, hread⟩ | ⟨hnone, hread⟩
          · rw [hread]
            exact .float x
          · rw [hread]
            exact .noNumber written (double?_eq_none_iff.mp hnone)
  | text =>
      cases field with
      | null => exact absurd rfl h
      | integer value => exact .text _
      | float value => exact .text _
      | text written => exact .text written

/-- **What is of a type already is left alone.** -/
theorem coerce_eq_self {field : FieldValue} {type : ColumnType} (h : OfType type field) :
    field.coerce type = field := by
  cases h with
  | integer value => rfl
  | float value => rfl
  | text written => rfl
  | noInteger written hnone =>
      show readAs (fun cs => (Reading.int64? cs).map .integer) written = .text written
      rcases readAs_cases Reading.int64? .integer written with ⟨n, hread, _⟩ | ⟨_, htext⟩
      · exact absurd ⟨n, Reading.int64?_eq_some_iff.mp hread⟩ hnone
      · exact htext
  | noNumber written hnone =>
      show readAs (fun cs => (Reading.double? cs).map .float) written = .text written
      rcases readAs_cases Reading.double? .float written with ⟨x, hread, _⟩ | ⟨_, htext⟩
      · exact absurd (Reading.double?_isSome_iff.mp (Option.isSome_of_eq_some hread)) hnone
      · exact htext

theorem null_coerce (type : ColumnType) : FieldValue.null.coerce type = .null := by
  cases type <;> rfl

theorem coerce_eq_null_iff {field : FieldValue} {type : ColumnType} :
    field.coerce type = .null ↔ field = .null := by
  constructor
  · intro hnull
    by_contra h
    have htype := coerce_ofType h type
    rw [hnull] at htype
    cases htype
  · rintro rfl
    exact null_coerce type

theorem coerce_coerce (field : FieldValue) (type : ColumnType) :
    (field.coerce type).coerce type = field.coerce type := by
  by_cases h : field = .null
  · rw [h, null_coerce, null_coerce]
  · exact coerce_eq_self (coerce_ofType h type)

theorem isWide_toInt64 (x : Double) : IsWide x.toInt64 := by
  unfold IsWide Double.toInt64 Double.held
  split
  · decide
  · decide
  · decide
  · omega

/-- **An integer in a result has 64 bits**, if those that are stored do. -/
theorem isWide_coerce {field : FieldValue} {type : ColumnType} {n : Int}
    (hfield : ∀ m, field = .integer m → IsWide m) (h : field.coerce type = .integer n) : IsWide n := by
  have hne : field ≠ .null := by
    rintro rfl
    rw [null_coerce] at h
    cases h
  have htype := coerce_ofType hne type
  rw [h] at htype
  cases htype
  cases field with
  | null => exact absurd rfl hne
  | integer m =>
      obtain rfl := FieldValue.integer.inj h
      exact hfield m rfl
  | float x =>
      obtain rfl := FieldValue.integer.inj h
      exact isWide_toInt64 x
  | text written =>
      have hcoerce : readAs (fun cs => (Reading.int64? cs).map .integer) written = .integer n := h
      rcases readAs_cases Reading.int64? .integer written with ⟨m, hread, hinteger⟩ | ⟨_, htext⟩
      · rw [hinteger] at hcoerce
        obtain rfl := FieldValue.integer.inj hcoerce
        obtain ⟨_, _, _, _, _, hwide⟩ := Reading.int64?_eq_some_iff.mp hread
        exact hwide
      · rw [htext] at hcoerce
        cases hcoerce

end FieldValue

theorem StoredValue.field_eq_null_iff {value : StoredValue} : value.field = .null ↔ value = .null := by
  cases value <;> simp [StoredValue.field]

theorem StoredValue.field_eq_integer_iff {value : StoredValue} {n : Int} :
    value.field = .integer n ↔ value = .integer n := by
  cases value <;> simp [StoredValue.field]

/-! ## Columns -/

/-- **The type of the first value in a column that is not null**, or that of texts if there is none. -/
inductive FirstType (stored : List (List StoredValue)) (place : Nat) : ColumnType → Prop where
  | found {row : Nat} {value : StoredValue} {type : ColumnType} :
      valueAt? stored row place = some value → value.field.type? = some type →
      (∀ earlier < row, ∀ other, valueAt? stored earlier place = some other → other = .null) →
      FirstType stored place type
  | missing : (∀ row value, valueAt? stored row place = some value → value = .null) →
      FirstType stored place .text

namespace QueryResult

/-- A field without a type is null. -/
theorem type?_eq_none_iff {field : FieldValue} : field.type? = none ↔ field = .null := by
  cases field <;> simp [FieldValue.type?]

/-- The rows are searched for the types of their values. -/
theorem typeOfFields_map (stored : List (List StoredValue)) (place : Nat) :
    typeOfFields (stored.map (List.map StoredValue.field)) place =
      (stored.findSome? fun values => (values[place]?).bind fun value => value.field.type?).getD .text := by
  have hrow (values : List StoredValue) : ((values.map StoredValue.field)[place]?).bind FieldValue.type? =
      (values[place]?).bind fun value => value.field.type? := by
    rw [List.getElem?_map, Option.bind_map]
    rfl
  unfold typeOfFields
  rw [List.findSome?_map]
  simp only [Function.comp_def, hrow]

/-- What stands in a row without giving it a type is null. -/
theorem eq_null_of_untyped {values : List StoredValue} {value : StoredValue} {place : Nat}
    (h : ((values[place]?).bind fun value => value.field.type?) = none)
    (hvalue : values[place]? = some value) : value = .null := by
  rw [hvalue] at h
  exact StoredValue.field_eq_null_iff.mp (type?_eq_none_iff.mp h)

/-- **A search through the rows** stops at the first value that is not null. -/
theorem firstType_typeOfFields (stored : List (List StoredValue)) (place : Nat) :
    FirstType stored place (typeOfFields (stored.map (List.map StoredValue.field)) place) := by
  rw [typeOfFields_map]
  cases hsearch : stored.findSome? fun values =>
      (values[place]?).bind fun value => value.field.type? with
  | none =>
      refine .missing fun row value hvalue => ?_
      obtain ⟨values, hvalues, hplace⟩ := Option.bind_eq_some_iff.mp hvalue
      have huntyped := List.findSome?_eq_none_iff.mp hsearch values (List.mem_of_getElem? hvalues)
      exact eq_null_of_untyped huntyped hplace
  | some type =>
      obtain ⟨before, values, behind, rfl, htype, hbefore⟩ := List.findSome?_eq_some_iff.mp hsearch
      obtain ⟨value, hplace, hfound⟩ := Option.bind_eq_some_iff.mp htype
      have hfirst : valueAt? (before ++ values :: behind) before.length place = some value := by
        unfold valueAt?
        rw [List.getElem?_append_right (Nat.le_refl _), Nat.sub_self]
        exact hplace
      refine .found hfirst hfound fun earlier hearlier other hother => ?_
      obtain ⟨others, hothers, hplace⟩ := Option.bind_eq_some_iff.mp hother
      rw [List.getElem?_append_left hearlier] at hothers
      exact eq_null_of_untyped (hbefore others (List.mem_of_getElem? hothers)) hplace

/-- The column in a place has the declared name, and the declared type if there is one. -/
theorem getElem?_storedColumns (rows : List (List FieldValue)) (start place : Nat)
    (declared : List (String × Option String)) :
    (storedColumns rows start declared)[place]? = (declared[place]?).map fun column =>
      ⟨column.1, (column.2.map ColumnType.ofDeclaration).getD (typeOfFields rows (start + place))⟩ := by
  induction declared generalizing start place with
  | nil => rfl
  | cons column declared ih =>
      cases place with
      | zero => rfl
      | succ place =>
          have hplace : start + 1 + place = start + (place + 1) := by omega
          rw [storedColumns, List.getElem?_cons_succ, List.getElem?_cons_succ, ih, hplace]

theorem length_storedColumns (rows : List (List FieldValue)) (start : Nat)
    (declared : List (String × Option String)) :
    (storedColumns rows start declared).length = declared.length := by
  induction declared generalizing start with
  | nil => rfl
  | cons column declared ih => exact congrArg (· + 1) (ih (start + 1))

theorem rows_ofStored (declared : List (String × Option String)) (stored : List (List StoredValue)) :
    (ofStored declared stored).rows = stored.map fun values =>
      List.zipWith (fun field column => field.coerce column.type) (values.map StoredValue.field)
        (ofStored declared stored).columns := by
  show List.map _ (stored.map _) = _
  rw [List.map_map]
  rfl

/-- Every row of a result has the fields of the stored row, each brought to the type of its column. -/
theorem valueAt?_rows_ofStored (declared : List (String × Option String))
    (stored : List (List StoredValue)) (row place : Nat) :
    valueAt? (ofStored declared stored).rows row place =
      (valueAt? stored row place).bind fun value =>
        ((ofStored declared stored).columns[place]?).map fun column => value.field.coerce column.type := by
  rw [rows_ofStored]
  unfold valueAt?
  rw [List.getElem?_map]
  cases stored[row]? with
  | none => rfl
  | some values =>
      show (List.zipWith _ (values.map StoredValue.field) _)[place]? = (values[place]?).bind _
      rw [List.getElem?_zipWith, List.getElem?_map]
      cases values[place]? with
      | none => rfl
      | some value => cases (ofStored declared stored).columns[place]? <;> rfl

/--
**A result has the shape of what is stored, and its columns are typed uniformly.** Every row has as many
stored values as there are columns. Then:

* there are as many rows as are stored and as many fields in each, and the columns have the declared names;
* a column with a declared type has the type that the declaration stands for, and one without has the type
  of its first value that is not null, or that of texts;
* the field in a row and a column is made of the value that is stored there. It is null exactly if this
  value is, and otherwise of the type of its column. An integer among the fields has 64 bits, if those that
  are stored do;
* to bring a field to a type twice is the same as to do it once.
-/
theorem stored_results_are_typed_uniformly (declared : List (String × Option String))
    (stored : List (List StoredValue)) (harity : ∀ row ∈ stored, row.length = declared.length) :
    let result := ofStored declared stored
    result.rows.map List.length = stored.map List.length
      ∧ result.columns.map Column.name = declared.map (·.1)
      ∧ (∀ (place : Nat) (name : String) (type : Option String),
        declared[place]? = some (name, type) →
          ∃ column, result.columns[place]? = some column
            ∧ (∀ written, type = some written → column.type = ColumnType.ofDeclaration written)
            ∧ (type = none → FirstType stored place column.type))
      ∧ (∀ (row place : Nat) (value : StoredValue), valueAt? stored row place = some value →
        ∃ column field, result.columns[place]? = some column
          ∧ valueAt? result.rows row place = some field
          ∧ field = value.field.coerce column.type
          ∧ (field = .null ↔ value = .null)
          ∧ (value ≠ .null → FieldValue.OfType column.type field)
          ∧ ((∀ n, value = .integer n → IsWide n) → ∀ n, field = .integer n → IsWide n))
      ∧ ∀ (field : FieldValue) (type : ColumnType),
        (field.coerce type).coerce type = field.coerce type := by
  intro result
  have hcolumns : result.columns =
      storedColumns (stored.map (List.map StoredValue.field)) 0 declared := rfl
  have hlength : result.columns.length = declared.length := by
    rw [hcolumns, length_storedColumns]
  refine ⟨?_, ?_, fun place name type hdeclared => ?_, fun row place value hvalue => ?_,
    FieldValue.coerce_coerce⟩
  · rw [show result.rows = _ from rows_ofStored declared stored, List.map_map]
    refine List.map_congr_left fun row hrow => ?_
    show (List.zipWith _ _ _).length = row.length
    rw [List.length_zipWith, List.length_map, hlength, harity row hrow, Nat.min_self]
  · refine List.ext_getElem? fun place => ?_
    rw [hcolumns, List.getElem?_map, List.getElem?_map, getElem?_storedColumns, Option.map_map]
    rfl
  · have hcolumn := getElem?_storedColumns (stored.map (List.map StoredValue.field)) 0 place declared
    rw [hdeclared, Nat.zero_add] at hcolumn
    refine ⟨_, hcolumn, ?_, ?_⟩
    · rintro written rfl
      rfl
    · rintro rfl
      exact firstType_typeOfFields stored place
  · obtain ⟨values, hvalues, hplace⟩ := Option.bind_eq_some_iff.mp hvalue
    have hlt : place < result.columns.length := by
      rw [hlength, ← harity values (List.mem_of_getElem? hvalues)]
      exact (List.getElem?_eq_some_iff.mp hplace).1
    have hcolumn := List.getElem?_eq_getElem hlt
    have hfield := valueAt?_rows_ofStored declared stored row place
    rw [hvalue, show (ofStored declared stored).columns[place]? = _ from hcolumn] at hfield
    refine ⟨_, _, hcolumn, hfield, rfl, ?_, fun hne => ?_, fun hwide n hn => ?_⟩
    · rw [FieldValue.coerce_eq_null_iff, StoredValue.field_eq_null_iff]
    · exact FieldValue.coerce_ofType (mt StoredValue.field_eq_null_iff.mp hne) _
    · refine FieldValue.isWide_coerce (fun m hm => hwide m ?_) hn
      exact StoredValue.field_eq_integer_iff.mp hm

/-- The second column has the type of what stands in its second row, and a text that is no integer stays
among integers in either column. -/
theorem stored_results_are_typed_uniformly_mixed :
    let declared := [("id", some "bigint"), ("sum", none)]
    let stored : List (List StoredValue) :=
      [[.text (Utf8.encode " 12 "), .null], [.text (Utf8.encode "1.0"), .integer 3],
        [.null, .blob (Utf8.encode "4x")]]
    let result := ofStored declared stored
    (∀ row ∈ stored, row.length = declared.length)
      ∧ result.columns = [⟨"id", .integer⟩, ⟨"sum", .integer⟩]
      ∧ result.rows = [[.integer 12, .null], [.text "1.0", .integer 3], [.null, .text "4x"]]
      ∧ FirstType stored 1 .integer ∧ FieldValue.OfType .integer (.text "4x") := by
  intro declared stored result
  have harity : ∀ row ∈ stored, row.length = declared.length := by decide
  have hcolumns : result.columns = [⟨"id", .integer⟩, ⟨"sum", .integer⟩] := by decide +kernel
  have hrows : result.rows =
      [[.integer 12, .null], [.text "1.0", .integer 3], [.null, .text "4x"]] := by decide +kernel
  obtain ⟨_, _, htypes, hfields, _⟩ := stored_results_are_typed_uniformly declared stored harity
  obtain ⟨column, hcolumn, _, hfirst⟩ := htypes 1 "sum" none rfl
  obtain ⟨other, field, hother, hfield, _, _, htype, _⟩ := hfields 2 1 _ rfl
  rw [show (ofStored declared stored).columns = _ from hcolumns] at hcolumn hother
  rw [show (ofStored declared stored).rows = _ from hrows] at hfield
  obtain rfl := Option.some.inj hcolumn
  obtain rfl := Option.some.inj hother
  obtain rfl := Option.some.inj hfield
  exact ⟨harity, hcolumns, hrows, hfirst rfl, htype (by rintro ⟨⟩)⟩

end QueryResult

end ScriptBridge
