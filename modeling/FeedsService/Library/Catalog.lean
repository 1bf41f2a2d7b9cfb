import Mathlib.Data.List.Basic
import Mathlib.Data.Rat.Defs
import Mathlib.Logic.Function.Basic

/-!
# Tables, indexes and the statements that define them

A table is a schema and the rows that satisfy it; a row has one value for each column, in
the order of the columns.  Tables and indexes are found by name, and share one space of
names.  A statement is refused, or does what it says.

A number is what it is worth, whether it is stored as an integer or as a real.  Foreign keys
are not enforced, but a table that is renamed is renamed where others refer to it.
-/

namespace FeedsService.Library.Catalogs

inductive Value
  | null
  | number (x : ℚ)
  | text (s : String)
  | blob (bytes : List UInt8)
  deriving DecidableEq

/-- The value as an `INTEGER PRIMARY KEY`. -/
def Value.key : Value → Option ℤ
  | .number x => if x.den = 1 then some x.num else none
  | _ => none

abbrev Row := List Value

structure Schema where
  columns : List String
  primaryKey : List String
  /-- The primary key is an `INTEGER PRIMARY KEY AUTOINCREMENT`. -/
  autoincrement : Bool
  unique : List (List String)
  notNull : List String
  deriving DecidableEq

namespace Schema

variable (schema : Schema)

/-- What a row has in a column. -/
def value (row : Row) (column : String) : Value :=
  ((schema.columns.zip row).lookup column).getD .null

/-- The constraints on a row of its own. -/
structure Fits (row : Row) : Prop where
  length : row.length = schema.columns.length
  notNull : ∀ column ∈ schema.notNull, schema.value row column ≠ .null
  keyed : schema.autoincrement = true → ∀ column ∈ schema.primaryKey,
    (schema.value row column).key.isSome = true

instance (row : Row) : Decidable (schema.Fits row) :=
  decidable_of_iff (row.length = schema.columns.length ∧
      (∀ column ∈ schema.notNull, schema.value row column ≠ .null) ∧
      (schema.autoincrement = true → ∀ column ∈ schema.primaryKey,
        (schema.value row column).key.isSome = true))
    ⟨fun ⟨hlength, hnotNull, hkeyed⟩ => ⟨hlength, hnotNull, hkeyed⟩,
      fun ⟨hlength, hnotNull, hkeyed⟩ => ⟨hlength, hnotNull, hkeyed⟩⟩

/-- Two rows that one table cannot have. -/
def Clash (row other : Row) : Prop :=
  ∃ columns ∈ schema.primaryKey :: schema.unique, ∀ column ∈ columns,
    schema.value row column = schema.value other column ∧ schema.value row column ≠ .null

instance (row other : Row) : Decidable (schema.Clash row other) :=
  inferInstanceAs (Decidable (∃ columns ∈ schema.primaryKey :: schema.unique,
    ∀ column ∈ columns, schema.value row column = schema.value other column ∧
      schema.value row column ≠ .null))

/-- The row comes without a key, and is given one. -/
def Unkeyed (row : Row) : Prop :=
  schema.autoincrement = true ∧ ∃ column ∈ schema.primaryKey, schema.value row column = .null

instance (row : Row) : Decidable (schema.Unkeyed row) :=
  inferInstanceAs (Decidable (schema.autoincrement = true ∧
    ∃ column ∈ schema.primaryKey, schema.value row column = .null))

variable {schema}

/-- A row made of one value for each column. -/
theorem value_map (f : String → Value) {column : String} (hcolumn : column ∈ schema.columns) :
    schema.value (schema.columns.map f) column = f column := by
  have hzip : schema.columns.zip (schema.columns.map f) =
      schema.columns.map fun column => (column, f column) := List.map_prod_left_eq_zip.symm
  rw [value, hzip, List.lookup_graph f hcolumn, Option.getD_some]

theorem Fits.not_unkeyed {row : Row} (h : schema.Fits row) : ¬ schema.Unkeyed row := by
  intro ⟨hauto, column, hcolumn, hnull⟩
  have hsome := h.keyed hauto column hcolumn
  rw [hnull] at hsome
  cases hsome

end Schema

structure Table where
  schema : Schema
  rows : List Row
  fits : ∀ row ∈ rows, schema.Fits row
  distinct : rows.Pairwise fun row other => ¬ schema.Clash row other

namespace Table

def empty (schema : Schema) : Table :=
  ⟨schema, [], List.forall_mem_nil _, .nil⟩

variable (table : Table)

/-- What a row of the table has in a column. -/
abbrev value (row : Row) (column : String) : Value :=
  table.schema.value row column

/-- The key after the largest one. -/
def nextKey (column : String) : ℤ :=
  (table.rows.filterMap fun row => (table.value row column).key).foldl max 0 + 1

def keyed (row : Row) : Row :=
  if table.schema.Unkeyed row then
    (table.schema.columns.zip row).map fun (column, value) =>
      if column ∈ table.schema.primaryKey ∧ value = .null then
        .number (table.nextKey column)
      else
        value
  else
    row

/-- One row of an `INSERT`, which no constraint may refuse. -/
def insert (row : Row) : Option Table :=
  let row := table.keyed row
  if h : table.schema.Fits row ∧ ∀ other ∈ table.rows, ¬ table.schema.Clash other row then
    some
      { schema := table.schema
        rows := table.rows ++ [row]
        fits := by
          intro other hother
          rcases List.mem_append.mp hother with hbefore | hlast
          · exact table.fits other hbefore
          · obtain rfl := List.mem_singleton.mp hlast
            exact h.1
        distinct := by
          apply List.pairwise_append.mpr
          refine ⟨table.distinct, List.pairwise_singleton _ _, ?_⟩
          intro other hother last hlast
          obtain rfl := List.mem_singleton.mp hlast
          exact h.2 other hother }
  else
    none

variable {table}

theorem insert_eq_some {row : Row} {table' : Table} (hinsert : table.insert row = some table') :
    table'.schema = table.schema ∧ table'.rows = table.rows ++ [table.keyed row] := by
  rw [insert] at hinsert
  split at hinsert
  · cases hinsert
    exact ⟨rfl, rfl⟩
  · cases hinsert

/-- The rows of an `INSERT` that have keys come after those of the table, as they are. -/
theorem foldlM_insert_eq_some {rows : List Row} {table' : Table}
    (hkeyed : ∀ row ∈ rows, ¬ table.schema.Unkeyed row)
    (hinsert : rows.foldlM insert table = some table') :
    table'.schema = table.schema ∧ table'.rows = table.rows ++ rows := by
  induction rows generalizing table with
  | nil =>
      cases hinsert
      exact ⟨rfl, (List.append_nil _).symm⟩
  | cons row rows ih =>
      obtain ⟨first, hfirst, hrest⟩ := Option.bind_eq_some_iff.mp hinsert
      obtain ⟨hschema, hrows⟩ := insert_eq_some hfirst
      have hrow : table.keyed row = row := if_neg (hkeyed row List.mem_cons_self)
      have hkeyed' : ∀ row ∈ rows, ¬ first.schema.Unkeyed row := by
        intro row hrow
        rw [hschema]
        exact hkeyed row (List.mem_cons_of_mem _ hrow)
      obtain ⟨hschema', hrows'⟩ := ih hkeyed' hrest
      refine ⟨hschema'.trans hschema, ?_⟩
      rw [hrows', hrows, hrow, List.append_assoc, List.singleton_append]

end Table

/-- What a `SELECT` makes of a row, one for each column. -/
inductive Expr
  | column (name : String)
  | literal (value : Value)
  deriving DecidableEq

namespace Expr

def eval (schema : Schema) (row : Row) : Expr → Value
  | .column name => schema.value row name
  | .literal value => value

def ReadsFrom (schema : Schema) : Expr → Prop
  | .column name => name ∈ schema.columns
  | .literal _ => True

instance (schema : Schema) : ∀ expr : Expr, Decidable (expr.ReadsFrom schema)
  | .column name => inferInstanceAs (Decidable (name ∈ schema.columns))
  | .literal _ => isTrue trivial

end Expr

structure Index where
  table : String
  columns : List String
  deriving DecidableEq

/-- A `REFERENCES` clause. -/
structure Reference where
  columns : List String
  table : String
  tableColumns : List String
  deriving DecidableEq

/-- The clause once a table has another name. -/
def Reference.rename (name newName : String) (reference : Reference) : Reference :=
  if reference.table = name then { reference with table := newName } else reference

namespace Reference

variable {name newName target : String} {references : List Reference}

theorem table_rename_ne (hne : name ≠ newName) (reference : Reference) :
    (reference.rename name newName).table ≠ name := by
  rw [rename]
  split
  · exact hne.symm
  · assumption

/-- A name that is no new name is not brought in. -/
theorem table_rename_ne_of_ne {reference : Reference} (hreference : reference.table ≠ target)
    (hnewName : newName ≠ target) : (reference.rename name newName).table ≠ target := by
  rw [rename]
  split
  · exact hnewName
  · exact hreference

theorem map_rename_of_ne (hname : ∀ reference ∈ references, reference.table ≠ name) :
    references.map (rename name newName) = references :=
  (List.map_congr_left fun reference hreference => if_neg (hname reference hreference)).trans
    (List.map_id _)

end Reference

structure Catalog where
  tables : String → Option Table
  indexes : String → Option Index
  /-- What a table says it refers to. -/
  references : String → List Reference

namespace Catalog

variable (c : Catalog)

def Taken (name : String) : Prop :=
  (c.tables name).isSome = true ∨ (c.indexes name).isSome = true

instance (name : String) : Decidable (c.Taken name) :=
  inferInstanceAs (Decidable (_ ∨ _))

/-- What the tables refer to once a table has another name. -/
def renamedReferences (name newName : String) : String → List Reference :=
  fun tableName => (c.references tableName).map (Reference.rename name newName)

/-- `ALTER TABLE name RENAME TO newName`; the indexes of the table go with it, and the other
tables refer to it by its new name. -/
def renameTable (name newName : String) : Option Catalog :=
  match c.tables name with
  | none => none
  | some table =>
      if c.Taken newName then
        none
      else
        some
          { tables := Function.update (Function.update c.tables name none) newName (some table)
            indexes := fun indexName => (c.indexes indexName).map fun index =>
              if index.table = name then { index with table := newName } else index
            references := Function.update (Function.update (c.renamedReferences name newName)
              name []) newName (c.renamedReferences name newName name) }

/-- `DROP INDEX name` -/
def dropIndex (name : String) : Option Catalog :=
  match c.indexes name with
  | none => none
  | some _ => some { c with indexes := Function.update c.indexes name none }

/-- `CREATE INDEX name ON table (columns)` -/
def createIndex (name : String) (index : Index) : Option Catalog :=
  match c.tables index.table with
  | none => none
  | some table =>
      if ¬ c.Taken name ∧ ∀ column ∈ index.columns, column ∈ table.schema.columns then
        some { c with indexes := Function.update c.indexes name (some index) }
      else
        none

/-- `CREATE TABLE IF NOT EXISTS name schema` -/
def createTable (name : String) (schema : Schema) (references : List Reference) :
    Option Catalog :=
  match c.tables name with
  | some _ => some c
  | none =>
      match c.indexes name with
      | some _ => none
      | none =>
          some
            { c with
              tables := Function.update c.tables name (some (.empty schema))
              references := Function.update c.references name references }

/-- `INSERT INTO target SELECT exprs FROM source` -/
def insertSelect (target : String) (exprs : List Expr) (source : String) : Option Catalog :=
  match c.tables target, c.tables source with
  | some table, some selected =>
      if exprs.length = table.schema.columns.length ∧
          ∀ expr ∈ exprs, expr.ReadsFrom selected.schema then
        ((selected.rows.map fun row => exprs.map (Expr.eval selected.schema row)).foldlM
          Table.insert table).map fun table' =>
            { c with tables := Function.update c.tables target (some table') }
      else
        none
  | _, _ => none

variable {c} {c' : Catalog}

theorem renameTable_eq_some {name newName : String} (hne : name ≠ newName)
    (h : c.renameTable name newName = some c') :
    ∃ table, c.tables name = some table ∧ c.tables newName = none ∧
      c'.tables newName = some table ∧ c'.tables name = none ∧
      ∀ tableName, tableName ≠ name → tableName ≠ newName →
        c'.references tableName = (c.references tableName).map (.rename name newName) := by
  rw [renameTable] at h
  cases htable : c.tables name with
  | none =>
      rw [htable] at h
      cases h
  | some table =>
      rw [htable] at h
      dsimp only at h
      split at h
      · cases h
      · next hfree =>
          cases h
          refine ⟨table, rfl, ?_, Function.update_self _ _ _, ?_, ?_⟩
          · exact Option.not_isSome_iff_eq_none.mp fun hsome => hfree (.inl hsome)
          · exact (Function.update_of_ne hne _ _).trans (Function.update_self _ _ _)
          · intro tableName hname hnewName
            exact (Function.update_of_ne hnewName _ _).trans (Function.update_of_ne hname _ _)

theorem dropIndex_eq_some {name : String} (h : c.dropIndex name = some c') :
    c' = { c with indexes := Function.update c.indexes name none } := by
  rw [dropIndex] at h
  split at h
  · cases h
  · cases h
    rfl

theorem createIndex_eq_some {name : String} {index : Index}
    (h : c.createIndex name index = some c') :
    c' = { c with indexes := Function.update c.indexes name (some index) } := by
  rw [createIndex] at h
  split at h
  · cases h
  · split at h
    · cases h
      rfl
    · cases h

theorem createTable_eq_some {name : String} {schema : Schema} {references : List Reference}
    (hnone : c.tables name = none) (h : c.createTable name schema references = some c') :
    c' = { c with
      tables := Function.update c.tables name (some (.empty schema))
      references := Function.update c.references name references } := by
  rw [createTable, hnone] at h
  dsimp only at h
  split at h
  · cases h
  · cases h
    rfl

/-- The rows that were selected come after those of the table, each with its key. -/
theorem insertSelect_eq_some {target source : String} {exprs : List Expr}
    {table selected : Table} (htarget : c.tables target = some table)
    (hsource : c.tables source = some selected)
    (h : c.insertSelect target exprs source = some c') :
    ∃ table', c' = { c with tables := Function.update c.tables target (some table') } ∧
      (selected.rows.map fun row => exprs.map (Expr.eval selected.schema row)).foldlM
        Table.insert table = some table' := by
  rw [insertSelect, htarget, hsource] at h
  dsimp only at h
  split at h
  · obtain ⟨table', hinsert, rfl⟩ := Option.map_eq_some_iff.mp h
    exact ⟨table', rfl, hinsert⟩
  · cases h

/-- The tables and indexes that have none of these names, and are no indexes of such a table,
stay. -/
structure SameBut (names indexNames : List String) (c c' : Catalog) : Prop where
  tables : ∀ name ∉ names, c'.tables name = c.tables name
  indexes : ∀ name ∉ indexNames, ∀ index, c.indexes name = some index → index.table ∉ names →
    c'.indexes name = some index

variable {names indexNames : List String}

theorem SameBut.refl (c : Catalog) : SameBut names indexNames c c :=
  ⟨fun _ _ => rfl, fun _ _ _ hindex _ => hindex⟩

theorem SameBut.trans {c'' : Catalog} (h : SameBut names indexNames c c')
    (h' : SameBut names indexNames c' c'') : SameBut names indexNames c c'' where
  tables name hname := (h'.tables name hname).trans (h.tables name hname)
  indexes name hname index hindex htable :=
    h'.indexes name hname index (h.indexes name hname index hindex htable) htable

theorem SameBut.mono {names' indexNames' : List String} (h : SameBut names indexNames c c')
    (hnames : names ⊆ names') (hindexNames : indexNames ⊆ indexNames') :
    SameBut names' indexNames' c c' where
  tables name hname := h.tables name fun hmem => hname (hnames hmem)
  indexes name hname index hindex htable :=
    h.indexes name (fun hmem => hname (hindexNames hmem)) index hindex
      fun hmem => htable (hnames hmem)

theorem sameBut_update_tables {name : String} {table : Option Table}
    {references : String → List Reference} :
    SameBut [name] [] c
      { c with
        tables := Function.update c.tables name table
        references := references } where
  tables _ hname := Function.update_of_ne (List.ne_of_not_mem_cons hname) _ _
  indexes _ _ _ hindex _ := hindex

theorem sameBut_update_indexes {name : String} {index : Option Index} :
    SameBut [] [name] c { c with indexes := Function.update c.indexes name index } where
  tables _ _ := rfl
  indexes _ hname _ hindex _ :=
    (Function.update_of_ne (List.ne_of_not_mem_cons hname) _ _).trans hindex

theorem sameBut_renameTable {name newName : String} (h : c.renameTable name newName = some c') :
    SameBut [name, newName] [] c c' := by
  rw [renameTable] at h
  split at h
  · cases h
  · split at h
    · cases h
    · cases h
      constructor
      · intro other hother
        have hname : other ≠ name := List.ne_of_not_mem_cons hother
        have hnewName : other ≠ newName :=
          List.ne_of_not_mem_cons (List.not_mem_of_not_mem_cons hother)
        exact (Function.update_of_ne hnewName _ _).trans (Function.update_of_ne hname _ _)
      · intro other _ index hindex htable
        dsimp only
        rw [hindex, Option.map_some, if_neg (List.ne_of_not_mem_cons htable)]

theorem sameBut_createTable {name : String} {schema : Schema} {references : List Reference}
    (h : c.createTable name schema references = some c') : SameBut [name] [] c c' := by
  rw [createTable] at h
  split at h
  · cases h
    exact SameBut.refl c
  · split at h
    · cases h
    · cases h
      exact sameBut_update_tables

theorem sameBut_insertSelect {target source : String} {exprs : List Expr}
    (h : c.insertSelect target exprs source = some c') : SameBut [target] [] c c' := by
  rw [insertSelect] at h
  split at h
  · split at h
    · obtain ⟨table', -, rfl⟩ := Option.map_eq_some_iff.mp h
      exact sameBut_update_tables
    · cases h
  · cases h

end Catalog

inductive Statement
  | renameTable (name newName : String)
  | dropIndex (name : String)
  | createIndex (name : String) (index : Index)
  | createTable (name : String) (schema : Schema) (references : List Reference)
  | insertSelect (target : String) (exprs : List Expr) (source : String)

def Statement.exec (c : Catalog) : Statement → Option Catalog
  | .renameTable name newName => c.renameTable name newName
  | .dropIndex name => c.dropIndex name
  | .createIndex name index => c.createIndex name index
  | .createTable name schema references => c.createTable name schema references
  | .insertSelect target exprs source => c.insertSelect target exprs source

namespace Statement

/-- The tables that a statement makes, fills or renames. -/
def tables : Statement → List String
  | .renameTable name newName => [name, newName]
  | .createTable name _ _ => [name]
  | .insertSelect target _ _ => [target]
  | .dropIndex _ | .createIndex _ _ => []

def indexes : Statement → List String
  | .dropIndex name | .createIndex name _ => [name]
  | .renameTable _ _ | .createTable _ _ _ | .insertSelect _ _ _ => []

theorem sameBut_exec {c c' : Catalog} {sql : Statement} (h : sql.exec c = some c') :
    Catalog.SameBut sql.tables sql.indexes c c' := by
  cases sql with
  | renameTable name newName => exact Catalog.sameBut_renameTable h
  | dropIndex name => exact Catalog.dropIndex_eq_some h ▸ Catalog.sameBut_update_indexes
  | createIndex name index => exact Catalog.createIndex_eq_some h ▸ Catalog.sameBut_update_indexes
  | createTable name schema references => exact Catalog.sameBut_createTable h
  | insertSelect target exprs source => exact Catalog.sameBut_insertSelect h

end Statement

end FeedsService.Library.Catalogs
