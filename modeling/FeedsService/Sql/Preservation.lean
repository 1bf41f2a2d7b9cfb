import FeedsService.Sql.Migration
import Mathlib.Data.List.Forall2

/-!
# What `db_init` leaves of the rows

Each table has a description of its own: what it is called, what columns it has now, which of
them are new and what they hold in a row of an old table.  The operators are those that the
descriptions ask for.  A turn of the loop of `db_init` makes the table, brings it up to date
or leaves it alone, and changes nothing that another turn reads.
-/

namespace FeedsService.Sql

open FeedsService.Library FeedsService.Library.Transactions FeedsService.Library.Catalogs
open FeedsService.Library.Catalogs.Catalog

section Specs

/-- How rows come from an old table. -/
structure Migration where
  /-- The name under which the old table is kept. -/
  backup : String
  /-- The columns that the old table lacks. -/
  added : List String
  default : String → Value

structure TableSpec where
  name : String
  schema : Schema
  references : List Reference
  /-- The columns before the time in the two indexes, if the table has them. -/
  index : Option (List String)
  /-- The way from the old version, if there is one. -/
  migration : Option Migration
  wide : 2 < schema.columns.length
  renamed : ∀ m ∈ migration, name ≠ m.backup
  keyKept : ∀ m ∈ migration, ∀ column ∈ schema.primaryKey,
    column ∈ schema.columns ∧ column ∉ m.added
  fewer : ∀ m ∈ migration,
    (schema.columns.filter fun column => column ∉ m.added).length < schema.columns.length

/-- What the new table takes from the old one for a column. -/
def Migration.expr (m : Migration) (column : String) : Expr :=
  if column ∈ m.added then .literal (m.default column) else .column column

namespace TableSpec

variable (spec : TableSpec)

def operator : DBInitOperator where
  itemNum := spec.schema.columns.length
  tableName := spec.name
  idxParam := spec.index.getD []
  backupSql := spec.migration.map fun m => .renameTable spec.name m.backup
  createSql := .createTable spec.name spec.schema spec.references
  retriveSql := spec.migration.map fun m =>
    .insertSelect spec.name (spec.schema.columns.map m.expr) m.backup
  pCheck := checkTableValid
  pDelIdx := spec.index.map fun _ => deleteOldIndex
  pAddIdx := spec.index.map fun _ => createNewIndex

/-- The tables that a turn of the loop works on. -/
def names : List String :=
  spec.name :: (spec.migration.map Migration.backup).toList

def indexNames : List String :=
  [createdAtIndex spec.name, updatedAtIndex spec.name]

end TableSpec

/-- A table that an old version made with fewer columns. -/
def widened (name : String) (schema : Schema) (references : List Reference)
    (index : Option (List String)) (added : List String) (default : String → Value)
    (hwide : 2 < schema.columns.length)
    (hrenamed : name ≠ name ++ "_backup")
    (hkey : ∀ column ∈ schema.primaryKey, column ∈ schema.columns ∧ column ∉ added)
    (hfewer : (schema.columns.filter fun column => column ∉ added).length <
      schema.columns.length) : TableSpec where
  name := name
  schema := schema
  references := references
  index := index
  migration := some ⟨name ++ "_backup", added, default⟩
  wide := hwide
  renamed m hm := by
    cases hm
    exact hrenamed
  keyKept m hm := by
    cases hm
    exact hkey
  fewer m hm := by
    cases hm
    exact hfewer

def channelsSpec : TableSpec :=
  widened "channels" channelsSchema [] (some [])
    ["status", "iid", "tip_methods", "proof", "memo"]
    (fun
      | "status" => .number 0
      | _ => na)
    (by decide) (by decide) (by decide) (by decide)

def postsSpec : TableSpec :=
  widened "posts" postsSchema postsReferences (some ["channel_id"])
    ["iid", "hash_id", "proof", "origin_post_url", "memo", "thumbnails"]
    (fun
      | "thumbnails" => emptyBlob
      | _ => na)
    (by decide) (by decide) (by decide) (by decide)

def commentsSpec : TableSpec :=
  widened "comments" commentsSchema commentsReferences (some ["channel_id", "post_id"])
    ["iid", "hash_id", "proof", "memo", "thumbnails"]
    (fun
      | "thumbnails" => emptyBlob
      | _ => na)
    (by decide) (by decide) (by decide) (by decide)

def usersSpec (now : ℕ) : TableSpec :=
  widened "users" usersSchema [] none ["display_name", "update_at", "memo", "avatar"]
    (fun
      | "update_at" => .number now
      | "avatar" => emptyBlob
      | _ => na)
    (by decide) (by decide) (by decide) (by decide)

def subscriptionsSpec (now : ℕ) : TableSpec :=
  widened "subscriptions" subscriptionsSchema subscriptionsReferences none
    ["create_at", "proof", "memo"]
    (fun
      | "create_at" => .number now
      | _ => na)
    (by decide) (by decide) (by decide) (by decide)

def likesSpec : TableSpec :=
  widened "likes" likesSchema likesReferences none ["proof", "memo"] (fun _ => na)
    (by decide) (by decide) (by decide) (by decide)

/-- A table of which there is no old version. -/
def firstVersion (name : String) (schema : Schema) (references : List Reference)
    (hwide : 2 < schema.columns.length) : TableSpec where
  name := name
  schema := schema
  references := references
  index := none
  migration := none
  wide := hwide
  renamed _ hnone := nomatch hnone
  keyKept _ hnone := nomatch hnone
  fewer _ hnone := nomatch hnone

/-- The tables that may have been made by an old version. -/
def migratedSpecs (usersTime subscriptionsTime : ℕ) : List TableSpec :=
  [channelsSpec, postsSpec, commentsSpec, usersSpec usersTime,
    subscriptionsSpec subscriptionsTime, likesSpec]

def firstSpecs : List TableSpec :=
  [firstVersion "reported_comments" reportedCommentsSchema reportedCommentsReferences (by decide),
    firstVersion "tipping" tippingSchema [] (by decide),
    firstVersion "notification" notificationSchema [] (by decide)]

def tableSpecs (usersTime subscriptionsTime : ℕ) : List TableSpec :=
  migratedSpecs usersTime subscriptionsTime ++ firstSpecs

/-- The columns of the statements are in the order of the columns that they fill. -/
theorem operatorVec_eq (usersTime subscriptionsTime : ℕ) :
    operatorVec usersTime subscriptionsTime =
      (tableSpecs usersTime subscriptionsTime).map TableSpec.operator :=
  rfl

end Specs

section Turns

variable {faults : Faults} {spec : TableSpec} {c c' : Catalog}

theorem keeps_sqlExecution (sql : Option Statement) : Keeps (sqlExecution sql) := by
  apply keeps_attempt
  intro conn value conn' hresult
  obtain ⟨c, -, hsame⟩ := Option.map_eq_some_iff.mp hresult
  cases hsame
  rfl

theorem ensures_sqlExecution (sql : Option Statement) :
    Ensures faults (sqlExecution sql) fun c _ c' =>
      ∃ statement, sql = some statement ∧ statement.exec c = some c' := by
  apply ensures_attempt
  intro conn value conn' hresult
  obtain ⟨c, hexec, hsame⟩ := Option.map_eq_some_iff.mp hresult
  cases hsame
  obtain ⟨statement, hsql, hdone⟩ := Option.bind_eq_some_iff.mp hexec
  exact ⟨statement, hsql, hdone⟩

/-- No step fails. -/
def Steps (faults : Faults) : Prop :=
  ∀ number, faults number .step = false

/-- What a version says about a table. -/
def Checked (faults : Faults) (tableName : String) (itemNum : ℕ) (c : Catalog) :
    TableVersion → Prop
  | .missing => c.tables tableName = none
  | .newest => ∃ table, c.tables tableName = some table ∧
      itemNum ≤ table.schema.columns.length
  | .older => ∃ table, c.tables tableName = some table ∧
      (Steps faults → table.schema.columns.length ≠ itemNum)

theorem ensures_checkTableValid (tableName : String) {itemNum : ℕ} (hwide : 2 < itemNum) :
    Ensures faults (checkTableValid tableName itemNum) fun c version c' =>
      c' = c ∧ Checked faults tableName itemNum c version := by
  have hfind := @ensures_look Catalog _ faults [.prepare, .step] fun c => c.tables tableName
  have hprepare := @ensures_look Catalog _ faults [.prepare] fun _ => ()
  intro s version s' hrun
  rw [checkTableValid, run_bind] at hrun
  rcases hfound : (attempt [.prepare, .step] fun conn : Conn Catalog =>
    some (conn.tables.tables tableName, conn)).run faults s with ⟨result, s₁⟩
  rw [hfound] at hrun
  cases result with
  | none => cases hrun
  | some found =>
      obtain ⟨rfl, hsame⟩ := hfind s found s₁ hfound
      dsimp only at hrun
      cases htable : s.conn.tables.tables tableName with
      | none =>
          rw [htable] at hrun
          cases hrun
          exact ⟨hsame, htable⟩
      | some table =>
          rw [htable] at hrun
          have hlisted := ensures_bind hprepare (fun _ => ensures_bind
            (ensures_stepThrough table.schema.columns.length) fun listed => ensures_pure _)
            s₁ version s' hrun
          obtain ⟨_, _, ⟨-, rfl⟩, listed, _, ⟨hle, hall, rfl⟩, rfl, hsame'⟩ := hlisted
          refine ⟨hsame'.trans hsame, ?_⟩
          by_cases hlast : (if listed = 0 then 1 else listed - 1) + 1 = itemNum
          · rw [if_pos hlast]
            refine ⟨table, htable, ?_⟩
            split at hlast
            · omega
            · omega
          · rw [if_neg hlast]
            refine ⟨table, htable, fun hsteps hcolumns => hlast ?_⟩
            rw [hall hsteps, hcolumns]
            split
            · omega
            · omega

theorem createdAtIndex_ne (tableName : String) :
    createdAtIndex tableName ≠ updatedAtIndex tableName := by
  rw [createdAtIndex, updatedAtIndex, ne_eq, String.append_right_inj]
  decide

/-- The catalogs differ in what the table is called and its indexes only. -/
abbrev TableSpec.OnlyChanges (spec : TableSpec) : Catalog → Catalog → Prop :=
  SameBut spec.names spec.indexNames

theorem names_eq {m : Migration} (hm : spec.migration = some m) :
    spec.names = [spec.name, m.backup] := by
  rw [TableSpec.names, hm]
  rfl

theorem name_subset : [spec.name] ⊆ spec.names :=
  List.cons_subset_cons _ (List.nil_subset _)

theorem createdAtIndex_subset : [createdAtIndex spec.name] ⊆ spec.indexNames :=
  List.cons_subset_cons _ (List.nil_subset _)

theorem updatedAtIndex_subset : [updatedAtIndex spec.name] ⊆ spec.indexNames :=
  List.subset_cons_self _ _

/-- The table has its indexes. -/
def Indexed (spec : TableSpec) (c : Catalog) : Prop :=
  ∀ para, spec.index = some para →
    c.indexes (createdAtIndex spec.name) = some ⟨spec.name, para ++ ["created_at"]⟩ ∧
      c.indexes (updatedAtIndex spec.name) = some ⟨spec.name, para ++ ["updated_at"]⟩

/-- A row of the old table and what became of it. -/
structure Carries (schema : Schema) (m : Migration) (before after : Table) (row row' : Row) :
    Prop where
  key : ∀ column ∈ schema.primaryKey, after.value row' column = before.value row column
  old : ∀ column ∈ schema.columns, column ∉ m.added →
    after.value row' column = before.value row column
  added : ∀ column ∈ schema.columns, column ∈ m.added →
    after.value row' column = m.default column

/-- Each row of the old table is in the new one, once. -/
structure Migrates (schema : Schema) (m : Migration) (before after : Table) : Prop where
  current : after.schema = schema
  rows : List.Forall₂ (Carries schema m before after) before.rows after.rows

/-- Where keys are made up, the rows of the table have theirs. -/
def HasKeys (schema : Schema) (table : Table) : Prop :=
  ∀ row ∈ table.rows, schema.autoincrement = true →
    ∀ column ∈ schema.primaryKey, table.value row column ≠ .null

theorem ensures_deleteOldIndex (index : Option (List String)) :
    Ensures faults
      ((index.map fun _ => deleteOldIndex).elim (pure ()) fun delIdx => delIdx spec.name)
      fun c _ c' => c'.tables = c.tables ∧ c'.references = c.references ∧
        SameBut [] spec.indexNames c c' := by
  cases index with
  | none =>
      refine ensures_mono (ensures_pure ()) ?_
      intro c _ c' ⟨_, hsame⟩
      rw [hsame]
      exact ⟨rfl, rfl, SameBut.refl c⟩
  | some para =>
      refine ensures_mono (ensures_bind (ensures_sqlExecution _) fun _ =>
        ensures_sqlExecution _) ?_
      intro c _ c' ⟨_, c₁, ⟨_, hfirst, hdone⟩, _, hsecond, hdone'⟩
      cases hfirst
      cases hsecond
      have hc₁ := dropIndex_eq_some hdone
      have hc' := dropIndex_eq_some hdone'
      refine ⟨?_, ?_, ?_⟩
      · rw [hc', hc₁]
      · rw [hc', hc₁]
      · have hfirst : SameBut [] spec.indexNames c c₁ :=
          (Statement.sameBut_exec hdone).mono (List.Subset.refl _) createdAtIndex_subset
        have hsecond : SameBut [] spec.indexNames c₁ c' :=
          (Statement.sameBut_exec hdone').mono (List.Subset.refl _) updatedAtIndex_subset
        exact hfirst.trans hsecond

theorem ensures_createNewIndex (spec : TableSpec) :
    Ensures faults ((spec.index.map fun _ => createNewIndex).elim (pure ()) fun addIdx =>
      addIdx spec.name (spec.index.getD []))
      fun c _ c' => c'.tables = c.tables ∧ c'.references = c.references ∧ Indexed spec c' ∧
        SameBut [] spec.indexNames c c' := by
  cases hindex : spec.index with
  | none =>
      refine ensures_mono (ensures_pure ()) ?_
      intro c _ c' ⟨_, hsame⟩
      rw [hsame]
      refine ⟨rfl, rfl, ?_, SameBut.refl c⟩
      intro para hpara
      rw [hindex] at hpara
      cases hpara
  | some para =>
      refine ensures_mono (ensures_bind (ensures_sqlExecution _) fun _ =>
        ensures_sqlExecution _) ?_
      intro c _ c' ⟨_, c₁, ⟨_, hfirst, hdone⟩, _, hsecond, hdone'⟩
      cases hfirst
      cases hsecond
      have hc₁ := createIndex_eq_some hdone
      have hc' := createIndex_eq_some hdone'
      refine ⟨?_, ?_, ?_, ?_⟩
      · rw [hc', hc₁]
      · rw [hc', hc₁]
      · intro para' hpara
        rw [hindex] at hpara
        cases hpara
        rw [hc', hc₁]
        constructor
        · exact (Function.update_of_ne (createdAtIndex_ne _) _ _).trans
            (Function.update_self _ _ _)
        · exact Function.update_self _ _ _
      · have hfirst : SameBut [] spec.indexNames c c₁ :=
          (Statement.sameBut_exec hdone).mono (List.Subset.refl _) createdAtIndex_subset
        have hsecond : SameBut [] spec.indexNames c₁ c' :=
          (Statement.sameBut_exec hdone').mono (List.Subset.refl _) updatedAtIndex_subset
        exact hfirst.trans hsecond

/-- The statement that fills the new table puts each value into its own column. -/
theorem migrates_of_insert {m : Migration} {before after : Table}
    (hm : spec.migration = some m) (hkeys : HasKeys spec.schema before)
    (hinsert : (before.rows.map fun row => (spec.schema.columns.map m.expr).map
      (Expr.eval before.schema row)).foldlM Table.insert (.empty spec.schema) = some after) :
    Migrates spec.schema m before after := by
  let filled (row : Row) : Row :=
    spec.schema.columns.map fun column => (m.expr column).eval before.schema row
  have hmap : (fun row => (spec.schema.columns.map m.expr).map (Expr.eval before.schema row)) =
      filled := by
    funext row
    rw [List.map_map]
    rfl
  have hvalue : ∀ row, ∀ column ∈ spec.schema.columns,
      spec.schema.value (filled row) column = (m.expr column).eval before.schema row :=
    fun row column hcolumn => Schema.value_map _ hcolumn
  have hold : ∀ row, ∀ column ∈ spec.schema.columns, column ∉ m.added →
      spec.schema.value (filled row) column = before.value row column := by
    intro row column hcolumn hkept
    rw [hvalue row column hcolumn, Migration.expr, if_neg hkept]
    rfl
  have hkey : ∀ row, ∀ column ∈ spec.schema.primaryKey,
      spec.schema.value (filled row) column = before.value row column := by
    intro row column hcolumn
    obtain ⟨hmem, hkept⟩ := spec.keyKept m hm column hcolumn
    exact hold row column hmem hkept
  have hkeyed : ∀ row ∈ before.rows.map filled, ¬ spec.schema.Unkeyed row := by
    intro row hrow ⟨hauto, column, hcolumn, hnull⟩
    obtain ⟨row, hmem, rfl⟩ := List.mem_map.mp hrow
    rw [hkey row column hcolumn] at hnull
    exact hkeys row hmem hauto column hcolumn hnull
  rw [hmap] at hinsert
  obtain ⟨hschema, hrows⟩ := Table.foldlM_insert_eq_some hkeyed hinsert
  refine ⟨hschema, ?_⟩
  rw [hrows, show (Table.empty spec.schema).rows = [] from rfl, List.nil_append,
    List.forall₂_map_right_iff, List.forall₂_same]
  intro row _
  constructor
  · intro column hcolumn
    rw [Table.value, hschema]
    exact hkey row column hcolumn
  · intro column hcolumn hkept
    rw [Table.value, hschema]
    exact hold row column hcolumn hkept
  · intro column hcolumn hadded
    rw [Table.value, hschema]
    refine (hvalue row column hcolumn).trans ?_
    rw [Migration.expr, if_pos hadded]
    rfl

/-- A turn of the loop. -/
inductive Turn (faults : Faults) (spec : TableSpec) (c : Catalog) : Catalog → Prop
  | newest {table : Table} (htable : c.tables spec.name = some table)
      (hwide : spec.schema.columns.length ≤ table.schema.columns.length) : Turn faults spec c c
  | made {c' : Catalog} (hmissing : c.tables spec.name = none)
      (htable : c'.tables spec.name = some (.empty spec.schema))
      (hreferences : c'.references = Function.update c.references spec.name spec.references)
      (hindexed : Indexed spec c') (hsame : SameBut [spec.name] spec.indexNames c c') :
      Turn faults spec c c'
  | updated {c' : Catalog} {m : Migration} {before after : Table} (hm : spec.migration = some m)
      (hbefore : c.tables spec.name = some before) (hfree : c.tables m.backup = none)
      (hafter : c'.tables spec.name = some after)
      (hcolumns : Steps faults →
        before.schema.columns.length ≠ spec.schema.columns.length)
      (hmigrates : HasKeys spec.schema before → Migrates spec.schema m before after)
      (hreferences : c'.references spec.name = spec.references)
      (hrenamed : ∀ name ∉ spec.names,
        c'.references name = (c.references name).map (.rename spec.name m.backup))
      (hindexed : Indexed spec c') (hsame : spec.OnlyChanges c c') : Turn faults spec c c'

/-- A table that is missing is made, with its indexes. -/
theorem ensures_makeTable (spec : TableSpec) :
    Ensures faults (do
      sqlExecution (some (.createTable spec.name spec.schema spec.references))
      (spec.index.map fun _ => createNewIndex).elim (pure ()) fun addIdx =>
        addIdx spec.name (spec.index.getD []))
      fun c _ c' => c.tables spec.name = none →
        c'.tables = Function.update c.tables spec.name (some (.empty spec.schema)) ∧
          c'.references = Function.update c.references spec.name spec.references ∧
          Indexed spec c' ∧ SameBut [spec.name] spec.indexNames c c' := by
  refine ensures_mono (ensures_bind (ensures_sqlExecution _) fun _ =>
    ensures_createNewIndex spec) ?_
  intro c _ c' ⟨_, c₁, ⟨_, hsql, hdone⟩, htables, hreferences, hindexed, hsame⟩ hmissing
  cases hsql
  have hc₁ := createTable_eq_some hmissing hdone
  have hmade : SameBut [spec.name] spec.indexNames c c₁ :=
    (Statement.sameBut_exec hdone).mono (List.Subset.refl _) (List.nil_subset _)
  refine ⟨?_, ?_, hindexed, hmade.trans (hsame.mono (List.nil_subset _) (List.Subset.refl _))⟩
  · rw [htables, hc₁]
  · rw [hreferences, hc₁]

/-- A table that is older is renamed, made anew and filled. -/
theorem ensures_updateTable (spec : TableSpec) :
    Ensures faults (do
      sqlExecution spec.operator.backupSql
      spec.operator.pDelIdx.elim (pure ()) fun delIdx => delIdx spec.operator.tableName
      sqlExecution (some spec.operator.createSql)
      spec.operator.pAddIdx.elim (pure ()) fun addIdx =>
        addIdx spec.operator.tableName spec.operator.idxParam
      sqlExecution spec.operator.retriveSql)
      fun c _ c' => ∀ before, c.tables spec.name = some before →
        (Steps faults → before.schema.columns.length ≠ spec.schema.columns.length) →
          Turn faults spec c c' := by
  refine ensures_mono (ensures_bind (ensures_sqlExecution _) fun _ =>
    ensures_bind (ensures_deleteOldIndex spec.index) fun _ =>
    ensures_bind (ensures_sqlExecution _) fun _ =>
    ensures_bind (ensures_createNewIndex spec) fun _ => ensures_sqlExecution _) ?_
  intro c _ c' ⟨_, c₁, ⟨_, hbackup, hrenamed⟩, _, c₂, ⟨hdropped, hreferred, hdropping⟩, _, c₃,
    ⟨_, hcreate, hcreated⟩, _, c₄, ⟨htables, hreferences, hindexes, hindexing⟩, _, hretrive,
    hfilled⟩ before hbefore hcolumns
  obtain ⟨m, hm, rfl⟩ := Option.map_eq_some_iff.mp hbackup
  cases hcreate
  obtain ⟨m', hm', rfl⟩ := Option.map_eq_some_iff.mp hretrive
  cases hm.symm.trans hm'
  have hne : spec.name ≠ m.backup := spec.renamed m hm
  -- the old table is found under its other name
  obtain ⟨table, htable, hfree, hkept, hgone, hothers⟩ := renameTable_eq_some hne hrenamed
  obtain rfl : table = before := Option.some.inj (htable.symm.trans hbefore)
  have hmissing : c₂.tables spec.name = none := by
    rw [hdropped, hgone]
  have hc₃ := createTable_eq_some hmissing hcreated
  have htarget : c₄.tables spec.name = some (.empty spec.schema) := by
    rw [htables, hc₃]
    exact Function.update_self _ _ _
  have hsource : c₄.tables m.backup = some table := by
    rw [htables, hc₃]
    exact (Function.update_of_ne hne.symm _ _).trans (hdropped ▸ hkept)
  obtain ⟨after, hc', hinsert⟩ := insertSelect_eq_some htarget hsource hfilled
  have hsame : spec.OnlyChanges c c' := by
    have hfirst : spec.OnlyChanges c c₁ :=
      (Statement.sameBut_exec hrenamed).mono (names_eq hm ▸ List.Subset.refl _) (List.nil_subset _)
    have hsecond : spec.OnlyChanges c₁ c₂ := hdropping.mono (List.nil_subset _) (List.Subset.refl _)
    have hthird : spec.OnlyChanges c₂ c₃ :=
      (Statement.sameBut_exec hcreated).mono name_subset (List.nil_subset _)
    have hfourth : spec.OnlyChanges c₃ c₄ := hindexing.mono (List.nil_subset _) (List.Subset.refl _)
    have hfifth : spec.OnlyChanges c₄ c' :=
      (Statement.sameBut_exec hfilled).mono name_subset (List.nil_subset _)
    exact hfirst.trans (hsecond.trans (hthird.trans (hfourth.trans hfifth)))
  have hmade : c'.references = Function.update c₁.references spec.name spec.references := by
    rw [hc', hreferences, hc₃, hreferred]
  refine .updated hm hbefore hfree ?_ hcolumns
    (fun hkeys => migrates_of_insert hm hkeys hinsert) ?_ ?_ ?_ hsame
  · rw [hc']
    exact Function.update_self _ _ _
  · rw [hmade, Function.update_self]
  · intro name hname
    rw [names_eq hm, List.mem_cons, List.mem_singleton, not_or] at hname
    rw [hmade, Function.update_of_ne hname.1]
    exact hothers name hname.1 hname.2
  · rw [hc']
    exact hindexes

/-- What is done with the table, once its version is known. -/
theorem ensures_turn (spec : TableSpec) (version : TableVersion) :
    Ensures faults
      (match version with
        | .newest => return ()
        | .older => do
            sqlExecution spec.operator.backupSql
            spec.operator.pDelIdx.elim (pure ()) fun delIdx => delIdx spec.operator.tableName
            sqlExecution (some spec.operator.createSql)
            spec.operator.pAddIdx.elim (pure ()) fun addIdx =>
              addIdx spec.operator.tableName spec.operator.idxParam
            sqlExecution spec.operator.retriveSql
        | .missing => do
            sqlExecution (some spec.operator.createSql)
            spec.operator.pAddIdx.elim (pure ()) fun addIdx =>
              addIdx spec.operator.tableName spec.operator.idxParam)
      fun c _ c' => Checked faults spec.name spec.schema.columns.length c version →
        Turn faults spec c c' := by
  cases version with
  | newest =>
      refine ensures_mono (ensures_pure ()) ?_
      intro c _ c' hkept hchecked
      obtain ⟨_, hsame⟩ := hkept
      obtain ⟨table, htable, hwide⟩ := hchecked
      rw [hsame]
      exact .newest htable hwide
  | missing =>
      refine ensures_mono (ensures_makeTable spec) ?_
      intro c _ c' hmade hmissing
      obtain ⟨htables, hreferences, hindexed, hsame⟩ := hmade hmissing
      refine .made hmissing ?_ hreferences hindexed hsame
      rw [htables, Function.update_self]
  | older =>
      refine ensures_mono (ensures_updateTable spec) ?_
      intro c _ c' hupdated hchecked
      obtain ⟨table, htable, hcolumns⟩ := hchecked
      exact hupdated table htable hcolumns

theorem ensures_operateTable (spec : TableSpec) :
    Ensures faults (operateTable spec.operator) fun c _ c' => Turn faults spec c c' := by
  refine ensures_mono
    (ensures_bind (ensures_checkTableValid spec.name spec.wide) (ensures_turn spec)) ?_
  intro c _ c' hturn
  obtain ⟨version, _, ⟨rfl, hchecked⟩, hdone⟩ := hturn
  exact hdone hchecked

end Turns

section Outcomes

variable {faults : Faults} {spec other : TableSpec} {c c' : Catalog}

/-- What becomes of a table while `db_init` works on all of them. -/
inductive Outcome (faults : Faults) (spec : TableSpec) (c c' : Catalog) : Prop
  | kept {table : Table} (hbefore : c.tables spec.name = some table)
      (hwide : spec.schema.columns.length ≤ table.schema.columns.length)
      (hafter : c'.tables spec.name = some table) (hindexed : Indexed spec c → Indexed spec c')
  | made (hmissing : c.tables spec.name = none)
      (htable : c'.tables spec.name = some (.empty spec.schema)) (hindexed : Indexed spec c')
  | updated {m : Migration} {before after : Table} (hm : spec.migration = some m)
      (hbefore : c.tables spec.name = some before) (hafter : c'.tables spec.name = some after)
      (hcolumns : Steps faults →
        before.schema.columns.length ≠ spec.schema.columns.length)
      (hmigrates : HasKeys spec.schema before → Migrates spec.schema m before after)
      (hindexed : Indexed spec c')

/-- The table and its indexes are the same for both catalogs. -/
structure Unmoved (spec : TableSpec) (c c' : Catalog) : Prop where
  table : c'.tables spec.name = c.tables spec.name
  indexed : Indexed spec c → Indexed spec c'

theorem Unmoved.refl (c : Catalog) : Unmoved spec c c :=
  ⟨rfl, id⟩

theorem Unmoved.trans {c'' : Catalog} (h : Unmoved spec c c') (h' : Unmoved spec c' c'') :
    Unmoved spec c c'' :=
  ⟨h'.table.trans h.table, fun hindexed => h'.indexed (h.indexed hindexed)⟩

theorem Turn.outcome (h : Turn faults spec c c') : Outcome faults spec c c' := by
  cases h with
  | newest htable hwide => exact .kept htable hwide htable id
  | made hmissing htable _ hindexed _ => exact .made hmissing htable hindexed
  | updated hm hbefore _ hafter hcolumns hmigrates _ _ hindexed _ =>
      exact .updated hm hbefore hafter hcolumns hmigrates hindexed

theorem Turn.onlyChanges (h : Turn faults spec c c') : spec.OnlyChanges c c' := by
  cases h with
  | newest _ _ => exact SameBut.refl c
  | made _ _ _ _ hsame => exact hsame.mono name_subset (List.Subset.refl _)
  | updated _ _ _ _ _ _ _ _ _ hsame => exact hsame

theorem Outcome.before {c₁ : Catalog} (h : Outcome faults spec c₁ c') (hsame : Unmoved spec c c₁) :
    Outcome faults spec c c' := by
  cases h with
  | kept hbefore hwide hafter hindexed =>
      exact .kept (hsame.table ▸ hbefore) hwide hafter fun hfirst => hindexed (hsame.indexed hfirst)
  | made hmissing htable hindexed => exact .made (hsame.table ▸ hmissing) htable hindexed
  | updated hm hbefore hafter hcolumns hmigrates hindexed =>
      exact .updated hm (hsame.table ▸ hbefore) hafter hcolumns hmigrates hindexed

theorem Outcome.after {c₁ : Catalog} (h : Outcome faults spec c c₁) (hsame : Unmoved spec c₁ c') :
    Outcome faults spec c c' := by
  cases h with
  | kept hbefore hwide hafter hindexed =>
      exact .kept hbefore hwide (hsame.table.trans hafter) fun hfirst =>
        hsame.indexed (hindexed hfirst)
  | made hmissing htable hindexed =>
      exact .made hmissing (hsame.table.trans htable) (hsame.indexed hindexed)
  | updated hm hbefore hafter hcolumns hmigrates hindexed =>
      exact .updated hm hbefore (hsame.table.trans hafter) hcolumns hmigrates
        (hsame.indexed hindexed)

theorem Outcome.found (h : Outcome faults spec c c') :
    ∃ table, c'.tables spec.name = some table := by
  cases h with
  | kept _ _ hafter _ => exact ⟨_, hafter⟩
  | made _ htable _ => exact ⟨_, htable⟩
  | updated _ _ hafter _ _ _ => exact ⟨_, hafter⟩

/-- No turn for one of the tables reads or changes what is the other's. -/
def Apart (spec other : TableSpec) : Prop :=
  spec.name ∉ other.names ∧ createdAtIndex spec.name ∉ other.indexNames ∧
    updatedAtIndex spec.name ∉ other.indexNames

theorem Turn.unmoved (h : Turn faults other c c') (hapart : Apart spec other) :
    Unmoved spec c c' := by
  obtain ⟨hname, hcreated, hupdated⟩ := hapart
  refine ⟨h.onlyChanges.tables _ hname, fun hindexed para hpara => ?_⟩
  obtain ⟨hfirst, hsecond⟩ := hindexed para hpara
  exact ⟨h.onlyChanges.indexes _ hcreated _ hfirst hname,
    h.onlyChanges.indexes _ hupdated _ hsecond hname⟩

/-- The turns of `db_init`. -/
abbrev Turns (faults : Faults) : Catalog → List TableSpec → Catalog → Prop :=
  Runs.Run fun c spec c' => Turn faults spec c c'

variable {specs : List TableSpec}

theorem unmoved_of_turns (hturns : Turns faults c specs c')
    (hapart : ∀ other ∈ specs, Apart spec other) : Unmoved spec c c' := by
  induction hturns with
  | nil c => exact Unmoved.refl c
  | cons hturn _ ih =>
      have hfirst := hturn.unmoved (hapart _ List.mem_cons_self)
      exact hfirst.trans (ih fun other hother => hapart other (List.mem_cons_of_mem _ hother))

theorem outcome_of_turns (hturns : Turns faults c specs c')
    (hapart : specs.Pairwise fun spec other => Apart spec other ∧ Apart other spec) :
    ∀ spec ∈ specs, Outcome faults spec c c' := by
  induction hturns with
  | nil c => exact List.forall_mem_nil _
  | cons hturn hrest ih =>
      obtain ⟨hhead, htail⟩ := List.pairwise_cons.mp hapart
      intro spec hspec
      rcases List.mem_cons.mp hspec with rfl | hmem
      · exact hturn.outcome.after
          (unmoved_of_turns hrest fun other hother => (hhead other hother).1)
      · exact (ih htail spec hmem).before (hturn.unmoved (hhead spec hmem).2)

/-- A table is not the one that a turn renames, nor what it is renamed to. -/
theorem not_mem_names {m : Migration} {name : String} {table : Table}
    (hm : spec.migration = some m) (hfree : c.tables m.backup = none)
    (htable : c.tables name = some table) (hne : spec.name ≠ name) : name ∉ spec.names := by
  rw [names_eq hm, List.mem_cons, List.mem_singleton, not_or]
  refine ⟨hne.symm, ?_⟩
  rintro rfl
  cases hfree.symm.trans htable

/-- A table stays as it is unless there is an old version of it. -/
theorem Turn.table_kept {name : String} {table : Table} (h : Turn faults spec c c')
    (hname : spec.name = name → spec.migration = none) (htable : c.tables name = some table) :
    c'.tables name = some table := by
  by_cases hspec : spec.name = name
  · cases h with
    | newest _ _ => exact htable
    | made hmissing _ _ _ _ =>
        rw [← hspec, hmissing] at htable
        cases htable
    | updated hm _ _ _ _ _ _ _ _ _ =>
        rw [hname hspec] at hm
        cases hm
  · cases h with
    | newest _ _ => exact htable
    | made _ _ _ _ hsame =>
        exact (hsame.tables name (mt List.mem_singleton.mp (Ne.symm hspec))).trans htable
    | updated hm _ hfree _ _ _ _ _ _ hsame =>
        exact (hsame.tables name (not_mem_names hm hfree htable hspec)).trans htable

theorem table_kept_of_turns {name : String} {table : Table} (hturns : Turns faults c specs c')
    (hname : ∀ spec ∈ specs, spec.name = name → spec.migration = none)
    (htable : c.tables name = some table) : c'.tables name = some table := by
  induction hturns with
  | nil _ => exact htable
  | cons hturn _ ih =>
      apply ih fun spec hspec => hname spec (List.mem_cons_of_mem _ hspec)
      exact hturn.table_kept (hname _ List.mem_cons_self) htable

end Outcomes

section Versions

variable {faults : Faults} {spec : TableSpec} {c c' : Catalog} {table : Table}

/-- The table has the current schema and its indexes. -/
structure IsCurrent (spec : TableSpec) (c : Catalog) (table : Table) : Prop where
  found : c.tables spec.name = some table
  schema : table.schema = spec.schema
  indexed : Indexed spec c

/-- The table has the columns that the statement reads, the key of the current one, and the
indexes that are dropped. -/
structure IsOld (spec : TableSpec) (m : Migration) (c : Catalog) (table : Table) : Prop where
  found : c.tables spec.name = some table
  columns : table.schema.columns.Perm (spec.schema.columns.filter fun column => column ∉ m.added)
  primaryKey : table.schema.primaryKey = spec.schema.primaryKey
  autoincrement : table.schema.autoincrement = spec.schema.autoincrement
  indexed : spec.index.isSome = true →
    (c.indexes (createdAtIndex spec.name)).map Index.table = some spec.name ∧
      (c.indexes (updatedAtIndex spec.name)).map Index.table = some spec.name

/-- The table is missing, or was made by this version or by the one before. -/
def Known (spec : TableSpec) (c : Catalog) : Prop :=
  c.tables spec.name = none ∨
    (∃ table, IsCurrent spec c table) ∧ c.references spec.name = spec.references ∨
    ∃ m table, spec.migration = some m ∧ IsOld spec m c table

/-- A key is never missing from a table of the same key. -/
theorem hasKeys_of_same (hprimaryKey : table.schema.primaryKey = spec.schema.primaryKey)
    (hautoincrement : table.schema.autoincrement = spec.schema.autoincrement) :
    HasKeys spec.schema table := by
  intro row hrow hauto column hcolumn hnull
  have hunkeyed : table.schema.Unkeyed row :=
    ⟨hautoincrement.trans hauto, column, hprimaryKey ▸ hcolumn, hnull⟩
  exact (table.fits row hrow).not_unkeyed hunkeyed

/-- What `db_init` leaves of a table when it succeeds. -/
structure Preserves (faults : Faults) (spec : TableSpec) (c c' : Catalog) : Prop where
  current : ∃ table, IsCurrent spec c' table
  missing : c.tables spec.name = none → c'.tables spec.name = some (.empty spec.schema)
  old : ∀ m before after, spec.migration = some m → IsOld spec m c before →
    c'.tables spec.name = some after → Migrates spec.schema m before after
  /-- A step that fails while the columns are listed makes a table look old. -/
  same : ∀ before after, IsCurrent spec c before → c'.tables spec.name = some after →
    after = before ∨ ¬ Steps faults ∧
      ∃ m, spec.migration = some m ∧ Migrates spec.schema m before after

theorem IsOld.narrow {m : Migration} (h : IsOld spec m c table) (hm : spec.migration = some m) :
    table.schema.columns.length < spec.schema.columns.length :=
  calc
    _ = (spec.schema.columns.filter fun column => column ∉ m.added).length := h.columns.length_eq
    _ < spec.schema.columns.length := spec.fewer m hm

/-- A table that is found has its keys. -/
theorem Known.hasKeys (h : Known spec c) (hfound : c.tables spec.name = some table) :
    HasKeys spec.schema table := by
  rcases h with hmissing | ⟨⟨current, hcurrent⟩, -⟩ | ⟨m, old, -, hold⟩
  · cases hmissing.symm.trans hfound
  · obtain rfl : current = table := Option.some.inj (hcurrent.found.symm.trans hfound)
    have hschema := hcurrent.schema
    exact hasKeys_of_same (congrArg Schema.primaryKey hschema)
      (congrArg Schema.autoincrement hschema)
  · obtain rfl : old = table := Option.some.inj (hold.found.symm.trans hfound)
    exact hasKeys_of_same hold.primaryKey hold.autoincrement

/-- A table that is wide enough is current. -/
theorem Known.isCurrent (h : Known spec c) (hfound : c.tables spec.name = some table)
    (hwide : spec.schema.columns.length ≤ table.schema.columns.length) :
    IsCurrent spec c table := by
  rcases h with hmissing | ⟨⟨current, hcurrent⟩, -⟩ | ⟨m, old, hm, hold⟩
  · cases hmissing.symm.trans hfound
  · obtain rfl : current = table := Option.some.inj (hcurrent.found.symm.trans hfound)
    exact hcurrent
  · obtain rfl : old = table := Option.some.inj (hold.found.symm.trans hfound)
    exact absurd hwide (Nat.not_le_of_lt (hold.narrow hm))

theorem Outcome.preserves (h : Outcome faults spec c c') (hknown : Known spec c) :
    Preserves faults spec c c' := by
  cases h with
  | @kept table hbefore hwide hafter hindexed =>
      have hcurrent : IsCurrent spec c table := hknown.isCurrent hbefore hwide
      constructor
      · exact ⟨table, hafter, hcurrent.schema, hindexed hcurrent.indexed⟩
      · intro hmissing
        cases hmissing.symm.trans hbefore
      · intro m before after hm hold _
        obtain rfl : before = table := Option.some.inj (hold.found.symm.trans hbefore)
        exact absurd hwide (Nat.not_le_of_lt (hold.narrow hm))
      · intro before after hcurrent' hafter'
        cases hcurrent'.found.symm.trans hbefore
        exact .inl (Option.some.inj (hafter'.symm.trans hafter))
  | made hmissing htable hindexed =>
      constructor
      · exact ⟨_, htable, rfl, hindexed⟩
      · exact fun _ => htable
      · intro m before after _ hold _
        cases hmissing.symm.trans hold.found
      · intro before after hcurrent _
        cases hmissing.symm.trans hcurrent.found
  | @updated m before after hm hbefore hafter hcolumns hmigrates hindexed =>
      have hmigrated : Migrates spec.schema m before after := hmigrates (hknown.hasKeys hbefore)
      constructor
      · exact ⟨after, hafter, hmigrated.current, hindexed⟩
      · intro hmissing
        cases hmissing.symm.trans hbefore
      · intro m' before' after' hm' hold hafter'
        cases hm.symm.trans hm'
        cases hold.found.symm.trans hbefore
        cases hafter'.symm.trans hafter
        exact hmigrated
      · intro before' after' hcurrent hafter'
        cases hcurrent.found.symm.trans hbefore
        cases hafter'.symm.trans hafter
        refine .inr ⟨fun hsteps => hcolumns hsteps ?_, m, hm, hmigrated⟩
        rw [hcurrent.schema]

end Versions

section Runs

variable {faults : Faults} {c c' : Catalog}

theorem keeps_operateTable (spec : TableSpec) : Keeps (operateTable spec.operator) := by
  have hcheck : Keeps (checkTableValid spec.name spec.schema.columns.length) := by
    apply keeps_bind (keeps_look _ fun c : Catalog => c.tables spec.name)
    intro found
    cases found with
    | none => exact keeps_pure _
    | some table =>
        exact keeps_bind (keeps_look _ fun _ => ()) fun _ =>
          keeps_bind (keeps_stepThrough _) fun _ => keeps_pure _
  have hdelIdx : Keeps (spec.operator.pDelIdx.elim (pure ()) fun delIdx =>
      delIdx spec.operator.tableName) := by
    apply keeps_elim
    intro delIdx hdelIdx
    obtain ⟨_, -, rfl⟩ := Option.map_eq_some_iff.mp hdelIdx
    exact keeps_bind (keeps_sqlExecution _) fun _ => keeps_sqlExecution _
  have haddIdx : Keeps (spec.operator.pAddIdx.elim (pure ()) fun addIdx =>
      addIdx spec.operator.tableName spec.operator.idxParam) := by
    apply keeps_elim
    intro addIdx haddIdx
    obtain ⟨_, -, rfl⟩ := Option.map_eq_some_iff.mp haddIdx
    exact keeps_bind (keeps_sqlExecution _) fun _ => keeps_sqlExecution _
  apply keeps_bind hcheck
  intro version
  cases version with
  | newest => exact keeps_pure _
  | missing => exact keeps_bind (keeps_sqlExecution _) fun _ => haddIdx
  | older =>
      exact keeps_bind (keeps_sqlExecution _) fun _ =>
        keeps_bind hdelIdx fun _ =>
        keeps_bind (keeps_sqlExecution _) fun _ =>
        keeps_bind haddIdx fun _ => keeps_sqlExecution _

/-- `db_init` by the descriptions of its tables. -/
theorem dbInit_eq (usersTime subscriptionsTime : ℕ) :
    dbInit usersTime subscriptionsTime =
      transaction ((tableSpecs usersTime subscriptionsTime).forM fun spec =>
        operateTable spec.operator) := by
  rw [dbInit, operatorVec_eq]
  rfl

theorem restores_dbInit (usersTime subscriptionsTime : ℕ) (faults : Faults) (c : Catalog) :
    Restores (dbInit usersTime subscriptionsTime) faults c := by
  rw [dbInit_eq]
  exact restores_transaction (keeps_forM keeps_operateTable _) faults c

theorem ensures_dbInit (usersTime subscriptionsTime : ℕ) :
    Ensures faults (dbInit usersTime subscriptionsTime) fun c _ c' =>
      Turns faults c (tableSpecs usersTime subscriptionsTime) c' := by
  rw [dbInit_eq]
  exact ensures_transaction (ensures_forM ensures_operateTable _)

/-- The tables, the renamed tables and the indexes all have names of their own. -/
theorem tableSpecs_apart (usersTime subscriptionsTime : ℕ) :
    (tableSpecs usersTime subscriptionsTime).Pairwise fun spec other =>
      Apart spec other ∧ Apart other spec := by
  let named (spec : TableSpec) : String × List String := (spec.name, spec.names)
  let apart (a b : String × List String) : Prop :=
    a.1 ∉ b.2 ∧ createdAtIndex a.1 ∉ [createdAtIndex b.1, updatedAtIndex b.1] ∧
      updatedAtIndex a.1 ∉ [createdAtIndex b.1, updatedAtIndex b.1]
  have hnames : (tableSpecs usersTime subscriptionsTime).map named =
      (tableSpecs 0 0).map named := rfl
  have hapart : ((tableSpecs 0 0).map named).Pairwise fun a b => apart a b ∧ apart b a := by
    decide
  rw [← hnames] at hapart
  exact List.pairwise_map.mp hapart

/-- A second `db_init` finds nothing to do, whatever its calls that prepare a statement do. -/
theorem turns_unchanged {specs : List TableSpec} (hturns : Turns faults c specs c')
    (hsteps : Steps faults) (hdone : ∀ spec ∈ specs,
      (∃ table, IsCurrent spec c table) ∨
        spec.migration = none ∧ ∃ table, c.tables spec.name = some table) : c' = c := by
  induction hturns with
  | nil c => rfl
  | @cons c c₁ c' spec specs hturn _ ih =>
      have hsame : c₁ = c := by
        have hfound := hdone spec List.mem_cons_self
        cases hturn with
        | newest _ _ => rfl
        | made hmissing _ _ _ _ =>
            rcases hfound with ⟨table, hcurrent⟩ | ⟨-, table, htable⟩
            · cases hmissing.symm.trans hcurrent.found
            · cases hmissing.symm.trans htable
        | updated hm hbefore _ _ hcolumns _ _ _ _ _ =>
            rcases hfound with ⟨table, hcurrent⟩ | ⟨hnone, -⟩
            · cases hcurrent.found.symm.trans hbefore
              exact absurd (by rw [hcurrent.schema]) (hcolumns hsteps)
            · cases hnone.symm.trans hm
      subst hsame
      exact ih fun other hother => hdone other (List.mem_cons_of_mem _ hother)

theorem migration_firstSpecs : ∀ spec ∈ firstSpecs, spec.migration = none := by
  simp [firstSpecs, firstVersion]

/-- The descriptions at different times differ in the time that a new column holds only. -/
def shape (spec : TableSpec) : String × Schema × Option (List String) :=
  (spec.name, spec.schema, spec.index)

theorem exists_sameShape (usersTime subscriptionsTime : ℕ) {usersTime' subscriptionsTime' : ℕ}
    {spec : TableSpec} (hspec : spec ∈ migratedSpecs usersTime' subscriptionsTime') :
    ∃ other ∈ migratedSpecs usersTime subscriptionsTime, shape other = shape spec := by
  have hshapes : (migratedSpecs usersTime' subscriptionsTime').map shape =
      (migratedSpecs usersTime subscriptionsTime).map shape := rfl
  exact List.mem_map.mp (hshapes ▸ List.mem_map_of_mem hspec)

theorem IsCurrent.congr {spec other : TableSpec} {table : Table} (h : IsCurrent other c table)
    (hshape : shape other = shape spec) : IsCurrent spec c table := by
  obtain ⟨hname, hrest⟩ := Prod.mk.inj hshape
  obtain ⟨hschema, hindex⟩ := Prod.mk.inj hrest
  constructor
  · exact hname ▸ h.found
  · exact h.schema.trans hschema
  · intro para hpara
    rw [← hname]
    exact h.indexed para (hindex.trans hpara)

/-- Each of the tables that a migration is for is missing, current or old. -/
def KnownTables (usersTime subscriptionsTime : ℕ) (c : Catalog) : Prop :=
  ∀ spec ∈ migratedSpecs usersTime subscriptionsTime, Known spec c

/-- The rows are kept whichever calls fail, and a second `db_init` finds nothing to do. -/
theorem dbInit_preserves (usersTime subscriptionsTime : ℕ) (c : Catalog)
    (hknown : KnownTables usersTime subscriptionsTime c) :
    (∀ faults s, (dbInit usersTime subscriptionsTime).run faults (.on c) = (some (), s) →
      (∀ spec ∈ migratedSpecs usersTime subscriptionsTime,
        Preserves faults spec c s.conn.tables) ∧
      (∀ name, (∀ spec ∈ migratedSpecs usersTime subscriptionsTime, spec.name ≠ name) →
        ∀ table, c.tables name = some table → s.conn.tables.tables name = some table) ∧
      ∀ usersTime' subscriptionsTime' faults', Steps faults' →
        ((dbInit usersTime' subscriptionsTime').run faults' (.on s.conn.tables)).2.conn.tables =
          s.conn.tables) ∧
    ∀ faults, Restores (dbInit usersTime subscriptionsTime) faults c := by
  refine ⟨?_, fun faults => restores_dbInit usersTime subscriptionsTime faults c⟩
  intro faults s hrun
  have hturns : Turns faults c (tableSpecs usersTime subscriptionsTime) s.conn.tables :=
    ensures_dbInit usersTime subscriptionsTime (.on c) () s hrun
  have houtcome := outcome_of_turns hturns (tableSpecs_apart usersTime subscriptionsTime)
  have hpreserves : ∀ spec ∈ migratedSpecs usersTime subscriptionsTime,
      Preserves faults spec c s.conn.tables := by
    intro spec hspec
    exact (houtcome spec (List.mem_append_left _ hspec)).preserves (hknown spec hspec)
  refine ⟨hpreserves, ?_, ?_⟩
  · intro name hname table htable
    refine table_kept_of_turns hturns (fun spec hspec hsame => ?_) htable
    rcases List.mem_append.mp hspec with hmigrated | hfirst
    · exact absurd hsame (hname spec hmigrated)
    · exact migration_firstSpecs spec hfirst
  · intro usersTime' subscriptionsTime' faults' hsteps
    have hdone : ∀ spec ∈ tableSpecs usersTime' subscriptionsTime',
        (∃ table, IsCurrent spec s.conn.tables table) ∨
          spec.migration = none ∧ ∃ table, s.conn.tables.tables spec.name = some table := by
      intro spec hspec
      rcases List.mem_append.mp hspec with hmigrated | hfirst
      · obtain ⟨before, hbefore, hshape⟩ :=
          exists_sameShape usersTime subscriptionsTime hmigrated
        obtain ⟨table, hcurrent⟩ := (hpreserves before hbefore).current
        exact .inl ⟨table, hcurrent.congr hshape⟩
      · exact .inr ⟨migration_firstSpecs spec hfirst,
          (houtcome spec (List.mem_append_right _ hfirst)).found⟩
    rcases hsecond : (dbInit usersTime' subscriptionsTime').run faults' (.on s.conn.tables) with
      ⟨result, s'⟩
    cases result with
    | none =>
        have hrestores := restores_dbInit usersTime' subscriptionsTime' faults' s.conn.tables
        rw [Restores, hsecond] at hrestores
        dsimp only
        rw [hrestores rfl]
    | some _ =>
        have hturns' := ensures_dbInit usersTime' subscriptionsTime' _ _ _ hsecond
        exact turns_unchanged hturns' hsteps hdone

end Runs

end FeedsService.Sql
