import SqlWire.Proofs.TypeReading

/-! The compact name of a column is a type name again, and names the same kinds. What a name
leaves out are the headings, null with them, and the digits of a timestamp. -/
namespace SqlWire.TypeNames
open SqlWire.TypeName SqlWire.TypeGrammar

/-! ## Kinds -/

mutual

/-- The kinds of a column and of all columns within it, with the precision and scale of the
decimals. -/
def kindTree : Column → Column
  | .plain _ kind => Column.ofKind kind
  | .decimal _ precision scale => Column.decimalOf precision scale
  | .timestamp _ _ => Column.ofKind .timestamp
  | .array _ element => Column.arrayOf (kindTree element)
  | .tuple _ fields => Column.tupleOf (kindTrees fields)

def kindTrees : List Column → List Column
  | [] => []
  | column :: columns => kindTree column :: kindTrees columns

end

private theorem kind_trees_eq_map (columns : List Column) :
    kindTrees columns = columns.map kindTree := by
  induction columns with
  | nil => rfl
  | cons column columns ih => rw [kindTrees, ih, List.map_cons]

/-! Each name by the names within it. -/

private theorem array_name (heading : Heading) (element : Column) :
    (Column.array heading element).typeName = "ARRAY(".toList ++ element.typeName ++ [')'] := rfl

private theorem tuple_name (heading : Heading) (fields : List Column) :
    (Column.tuple heading fields).typeName =
      "TUPLE(".toList ++ Text.joinWith [',', ' '] (fields.map Column.typeName) ++ [')'] := by
  have names : ∀ columns, Column.typeNames columns = columns.map Column.typeName := by
    intro columns
    induction columns with
    | nil => rfl
    | cons column columns ih => exact congrArg (column.typeName :: ·) ih
  rw [← names]
  rfl

mutual

private theorem kind_tree_name : (column : Column) → (kindTree column).typeName = column.typeName
  | .plain _ kind => by cases kind <;> rfl
  | .decimal .. => rfl
  | .timestamp .. => rfl
  | .array heading element => by
    rw [array_name heading, ← kind_tree_name element]
    rfl
  | .tuple heading fields => by
    rw [tuple_name heading, ← kind_trees_names fields]
    exact tuple_name {} (kindTrees fields)

private theorem kind_trees_names : (columns : List Column) →
    (kindTrees columns).map Column.typeName = columns.map Column.typeName
  | [] => rfl
  | column :: columns => by
    rw [kindTrees, List.map_cons, List.map_cons, kind_tree_name column, kind_trees_names columns]

end

private theorem kind_tree_depth :
    (column : Column) → (kindTree column).arrayDepth = column.arrayDepth
  | .plain .. | .decimal .. | .timestamp .. | .tuple .. => rfl
  | .array _ element => congrArg (1 + ·) (kind_tree_depth element)

private theorem kind_tree_base : (column : Column) → (kindTree column).baseKind = column.baseKind
  | .plain .. | .decimal .. | .timestamp .. | .tuple .. => rfl
  | .array _ element => kind_tree_base element

mutual

private theorem kind_tree_twice : (column : Column) → kindTree (kindTree column) = kindTree column
  | .plain .. | .decimal .. | .timestamp .. => rfl
  | .array _ element => congrArg Column.arrayOf (kind_tree_twice element)
  | .tuple _ fields => congrArg Column.tupleOf (kind_trees_twice fields)

private theorem kind_trees_twice : (columns : List Column) →
    kindTrees (kindTrees columns) = kindTrees columns
  | [] => rfl
  | column :: columns => by
    simp only [kindTrees, kind_tree_twice column, kind_trees_twice columns]

end

/-- The compact names of all but decimals, arrays and tuples are words. -/
def nameForm : Column → Form
  | .plain .. | .timestamp .. => .words
  | _ => .closed

section Headings
variable (column : Column)

private theorem kind_tree_heading (heading : Heading) :
    kindTree (column.withHeading heading) = kindTree column := by
  cases column <;> rfl

private theorem name_form_heading (heading : Heading) :
    nameForm (column.withHeading heading) = nameForm column := by
  cases column <;> rfl

private theorem type_name_heading (heading : Heading) :
    (column.withHeading heading).typeName = column.typeName := by
  rw [← kind_tree_name, kind_tree_heading, kind_tree_name]

end Headings

/-! ## Names -/

/-- The kinds that are named with arguments, or by a name that takes some. -/
def argumentKinds : List Kind := [.decimal, .array, .tuple]

/-- Only a name that takes arguments stands for a decimal, and no word for an array or a
tuple. -/
theorem scalar_kind (plain : ∀ name ∈ sizedNames, ∀ word rest, first = word ++ rest →
    ¬ Spells name word) (others : List Text) :
    (Kind.ofWireName? (Text.joinWith [' '] (first :: others))).getD .unknown ∉ argumentKinds := by
  have table : ∀ entry ∈ Kind.wireNames, entry.2 ∈ argumentKinds → entry.1 ∈ sizedNames := by
    decide
  rw [Kind.ofWireName?]
  cases found : Kind.wireNames.find? _ with
  | none => decide
  | some entry =>
    intro argument
    have listed := table entry (List.mem_of_find?_eq_some found) argument
    have same : Spells entry.1 (Text.joinWith [' '] (first :: others)) := by
      have folded := List.find?_some found
      exact (beq_iff_eq.mp folded).symm
    cases others with
    | nil => exact plain entry.1 listed first [] (List.append_nil first).symm same
    | cons next more =>
      have word := name_word (List.mem_append_right _ listed) same
      have blank := word.2 ' ' (by simp [Text.joinWith])
      revert blank
      decide +kernel

private theorem words_named (word : IsWord first)
    (plain : ∀ name ∈ sizedNames, ¬ Text.fold name <+: Text.fold first)
    (each : ∀ other ∈ others, Further other) :
    Core .words (first ++ wordsOf others) (Column.ofKind
      ((Kind.ofWireName? (Text.joinWith [' '] (first :: others.map Prod.snd))).getD .unknown)) := by
  refine .scalar word (fun name listed start rest parts spells => plain name listed ?_) each
  rw [parts, ← spells, Text.fold, Text.fold, List.map_append]
  exact List.prefix_append _ _

private theorem scalar_name (scalar : kind ∉ argumentKinds) :
    (Column.ofKind kind).typeName = kind.sqlName := by
  cases kind <;> first | rfl | exact absurd (by decide) scalar

/-- The kinds with a name of one word that takes no arguments. -/
def wordKinds : List Kind :=
  [.boolean, .smallInt, .integer, .bigInt, .real, .text, .bytea, .date, .timestamp, .timestampTz,
    .json, .nothing, .unknown]

/-! ## Types by their names -/

/-- The compact name of a column is a type of the grammar, of the same kinds. -/
def NamesItself (column : Column) : Prop :=
  Core (nameForm column) column.typeName (kindTree column)

/-- A column by its compact name. -/
def named (column : Column) : Member := alone (nameForm column) column.typeName (kindTree column)

/-- The name of a scalar kind is read as that kind. -/
theorem scalar_core (scalar : kind ∉ argumentKinds) :
    Core .words kind.sqlName (Column.ofKind kind) := by
  by_cases double : kind = .double
  · have second : Further ([' '], "PRECISION".toList) :=
      ⟨blank_layout, by decide, by decide +kernel, by decide⟩
    have first : IsWord "DOUBLE".toList := by decide +kernel
    have named := words_named first (by decide) (List.forall_mem_singleton.mpr second)
    subst double
    exact named
  · have words : kind ∈ wordKinds := by cases kind <;> revert scalar double <;> decide
    have table : ∀ kind ∈ wordKinds, IsWord kind.sqlName ∧
        (∀ name ∈ sizedNames, ¬ Text.fold name <+: Text.fold kind.sqlName) ∧
        (Kind.ofWireName? kind.sqlName).getD .unknown = kind := by decide +kernel
    obtain ⟨word, plain, same⟩ := table kind words
    have none : ∀ other ∈ ([] : List (Text × Text)), Further other := by simp
    have named := words_named word plain none
    simp only [List.map_nil, Text.joinWith, same, wordsOf, List.flatMap_nil,
      List.append_nil] at named
    exact named

private theorem scalar_names (scalar : kind ∉ argumentKinds) :
    NamesItself (Column.ofKind kind) := by
  have core := scalar_core scalar
  rw [← scalar_name scalar] at core
  exact core

private theorem timestamp_names : NamesItself (.timestamp heading digits) :=
  have names : NamesItself (Column.ofKind .timestamp) := scalar_names (by decide)
  names

private theorem heading_names (column : Column) (heading : Heading) (core : NamesItself column) :
    NamesItself (column.withHeading heading) := by
  rw [NamesItself, name_form_heading, type_name_heading, kind_tree_heading]
  exact core

private theorem array_names (core : NamesItself element) :
    NamesItself (Column.arrayOf element) := by
  have name : Spells "array".toList "ARRAY".toList := by decide
  have array := Core.array name layout_nil (named element) core
  rwa [named, alone_column, alone_text] at array

private theorem tuple_names (some : fields ≠ []) (each : ∀ column ∈ fields, NamesItself column) :
    NamesItself (Column.tupleOf fields) := by
  have name : Spells "tuple".toList "TUPLE".toList := by decide
  have members : fields.map named ≠ [] := by simpa using some
  have cores : ∀ member ∈ fields.map named, Core member.form member.core member.type := by
    intro member listed
    obtain ⟨column, among, rfl⟩ := List.mem_map.mp listed
    exact each column among
  have tuple := spread_tuple name layout_nil members cores
  simp only [List.map_map, Function.comp_def, named, alone_text, alone_column] at tuple
  rw [NamesItself, Column.tupleOf, tuple_name, kindTree, kind_trees_eq_map]
  exact tuple

private theorem argument_of_number (fits : n < 4294967296) : Argument (Numeral.ofNat n) n :=
  ⟨NumeralText.numeral_not_empty n, NumeralText.numeral_digits n, NumeralText.value_numeral n, fits⟩

private theorem decimal_names (precision : p < 4294967296) (scale : s < 4294967296) :
    NamesItself (Column.decimalOf p s) := by
  have arguments := DecimalArguments.scale layout_nil (argument_of_number precision) layout_nil
    layout_nil (argument_of_number scale) layout_nil
  have name : Spells "decimal".toList "DECIMAL".toList := by decide
  have decimal := Core.decimalOf (.inl name) layout_nil arguments
  simp only [List.nil_append, List.append_nil] at decimal
  exact decimal

private theorem decimal_arguments_fit (arguments : DecimalArguments inside (p, s)) :
    p < 4294967296 ∧ s < 4294967296 := by
  cases arguments with
  | precision before number behind => exact ⟨number.fits, by decide⟩
  | scale before number gap next places behind => exact ⟨number.fits, places.fits⟩

/-- The name of a type is a type of the grammar with the same kinds. -/
theorem core_names (core : Core form text type) : NamesItself type := by
  induction core with
  | @scalar first others word plain each => exact scalar_names (scalar_kind plain _)
  | decimal name => exact decimal_names (by decide) (by decide)
  | decimalOf name gap arguments =>
    obtain ⟨precision, scale⟩ := decimal_arguments_fit arguments
    exact decimal_names precision scale
  | timestamp name => exact scalar_names (by decide)
  | timestampOf name gap arguments => exact timestamp_names
  | nullable name gap member inner ih => exact heading_names _ _ (heading_names _ _ ih)
  | array name gap member inner ih => exact array_names (heading_names _ _ ih)
  | tuple name gap members some each ih =>
    apply tuple_names (by simpa using some)
    intro column listed
    obtain ⟨member, among, rfl⟩ := List.mem_map.mp listed
    exact heading_names _ _ (ih member among)

private theorem declaration_names (name declared : Text) :
    NamesItself (Column.ofDeclaration name declared) := by
  apply heading_names
  cases found : read? declared with
  | none => exact scalar_names (by decide)
  | some column =>
    obtain ⟨-, -, -, ⟨member, -, rfl, core⟩, -⟩ := read_iff.mp found
    exact heading_names _ _ (core_names core)

private theorem name_read_back (names : NamesItself column) :
    read? column.typeName = some (kindTree column) :=
  whole_read (core_whole names)

/-- Reading the compact name of a column again, declared by any text at all, gives the same kinds
and the same name. -/
theorem type_name_fixed (name other declared : Text) :
    let column := Column.ofDeclaration name declared
    let again := Column.ofDeclaration other column.typeName
    read? column.typeName = some (kindTree column) ∧
      kindTree again = kindTree column ∧ again.arrayDepth = column.arrayDepth ∧
      again.baseKind = column.baseKind ∧ again.typeName = column.typeName := by
  intro column again
  have read := name_read_back (declaration_names name declared)
  have same : kindTree again = kindTree column := by
    change kindTree (Column.declaredAs _ other _) = _
    rw [read, Column.declaredAs, kind_tree_heading]
    exact kind_tree_twice column
  refine ⟨read, same, ?_, ?_, ?_⟩
  · rw [← kind_tree_depth again, same, kind_tree_depth]
  · rw [← kind_tree_base again, same, kind_tree_base]
  · rw [← kind_tree_name again, same, kind_tree_name]

end SqlWire.TypeNames
