import AsciiPoker.Server.Storage.Database

/-
  Which databases the migrations get through.

  A server that opens its database finds what other servers,
  older ones and interrupted ones left behind.  The second
  migration adds a column whose default is computed, which
  SQLite does to an empty table only and never twice; so it
  gets through as long as nobody has an account and the
  column is not there yet.

  Main declarations:
    * `LeftBehind`, `DatabaseFile.Shaped`
    * `Database.GetsThrough`, `DatabaseFile.Migratable`
    * `wp_migrate`, `LeftBehind.repository_of_leaves`,
      `LeftBehind.getsThrough_iff`
-/

namespace Poker

namespace Server

open Durable Database

variable {sqlite : Sqlite}
variable {file : DatabaseFile}
variable {table : UsersTable}

------------------------------------------------------------
-- What Is Found
------------------------------------------------------------

/-
  The files that a server may find: a new one, one that was
  made when 1 was the latest version, what a migration that
  ran before left, wherever it was interrupted, and any of
  these with other users.
-/
inductive LeftBehind
    (sqlite : Sqlite) : DatabaseFile → Prop
  | unmade
      (journalMode : String) :
      LeftBehind sqlite ⟨none, none, journalMode⟩
  | firstVersion
      (table : UsersTable)
      (journalMode : String)
      (hColumns : table.columns = usersColumns) :
      LeftBehind sqlite ⟨some [1], some table, journalMode⟩
  | migrated
      {file after : DatabaseFile}
      (hLeft : LeftBehind sqlite file)
      (hLeaves : migrate.Leaves sqlite file after) :
      LeftBehind sqlite after
  | used
      {file : DatabaseFile}
      {table other : UsersTable}
      (hLeft : LeftBehind sqlite file)
      (hUsers : file.users = some table)
      (hColumns : other.columns = table.columns) :
      LeftBehind sqlite { file with users := some other }

namespace DatabaseFile

/- The six stages that a file can be in. -/
inductive Shaped : DatabaseFile → Prop
  | unmade
      (journalMode : String) :
      Shaped ⟨none, none, journalMode⟩
  | numbered
      (journalMode : String) :
      Shaped ⟨some [], none, journalMode⟩
  | created
      (table : UsersTable)
      (journalMode : String)
      (hColumns : table.columns = usersColumns) :
      Shaped ⟨some [], some table, journalMode⟩
  | firstVersion
      (table : UsersTable)
      (journalMode : String)
      (hColumns : table.columns = usersColumns) :
      Shaped ⟨some [1], some table, journalMode⟩
  | extended
      (table : UsersTable)
      (journalMode : String)
      (hColumns : table.columns =
        usersColumns ++ [updatedAt]) :
      Shaped ⟨some [1], some table, journalMode⟩
  | latest
      (table : UsersTable)
      (journalMode : String)
      (hColumns : table.columns =
        usersColumns ++ [updatedAt]) :
      Shaped ⟨some [2], some table, journalMode⟩

/- Other users do not change the stage. -/
theorem Shaped.used
    {other : UsersTable}
    (hShaped : file.Shaped)
    (hUsers : file.users = some table)
    (hColumns : other.columns = table.columns) :
    Shaped { file with users := some other } := by
  cases hShaped with
  | unmade journalMode => cases hUsers
  | numbered journalMode => cases hUsers
  | created table journalMode hTable =>
      cases hUsers
      exact .created other journalMode (hColumns.trans hTable)
  | firstVersion table journalMode hTable =>
      cases hUsers
      exact .firstVersion other journalMode
        (hColumns.trans hTable)
  | extended table journalMode hTable =>
      cases hUsers
      exact .extended other journalMode (hColumns.trans hTable)
  | latest table journalMode hTable =>
      cases hUsers
      exact .latest other journalMode (hColumns.trans hTable)

/-
  The file has been migrated, or nobody has an account and
  the second migration has not added its column.
-/
def Migratable
    (file : DatabaseFile) : Prop :=
  file.version = 2 ∨
    file.rows = [] ∧ file.columnCount "updated_at" = 0

instance
    (file : DatabaseFile) :
    Decidable file.Migratable :=
  inferInstanceAs (Decidable (_ ∨ _))

end DatabaseFile

/-
  The migrations run without an exception and end with the
  latest version, the new column and the same users.
-/
def Database.GetsThrough
    (sqlite : Sqlite)
    (file : DatabaseFile) : Prop :=
  ∃ after, migrate.run sqlite file = (.ok (), after) ∧
    after.version = 2 ∧
    after.columnCount "updated_at" = 1 ∧
    after.rows = file.rows

------------------------------------------------------------
-- Reading and Writing the Version
------------------------------------------------------------

section Scripts

variable {Failed : DatabaseError → DatabaseFile → Prop}
variable {Safe : DatabaseFile → Prop}
variable {Done : Unit → DatabaseFile → Prop}
variable {versions : List Int}
variable {version : Int}

/- Nothing is left to do at the latest version. -/
theorem wp_migrateFrom_latest
    (hSafe : Safe file)
    (hDone : Done () file) :
    (migrateFrom 2).wp sqlite Failed Safe Done file := by
  rw [migrateFrom, if_neg (by decide)]
  exact Script.wp_pure hSafe hDone

variable (hSqlite : sqlite.Documented)

include hSqlite

theorem wp_readSchemaVersion
    {Done : Int → DatabaseFile → Prop}
    (hVersions : file.schemaVersion = some versions)
    (hSafe : Safe file)
    (hDone : Done file.version file) :
    readSchemaVersion.wp sqlite Failed Safe Done file := by
  have hVersion : file.version = versions.head?.getD 0 := by
    simp [DatabaseFile.version, hVersions]
  rw [hVersion] at hDone
  unfold readSchemaVersion
  apply Script.wp_bind
  apply Script.wp_perform hSafe
    (hSqlite.select_version file versions hVersions) hSafe
  exact Script.wp_pure hSafe hDone

/- The first version is inserted. -/
theorem wp_writeSchemaVersion_insert
    (hVersions : file.schemaVersion = some [])
    (hSafe : Safe file)
    (hAfter : Safe
      { file with schemaVersion := some [version] })
    (hDone : Done ()
      { file with schemaVersion := some [version] }) :
    (writeSchemaVersion version).wp sqlite Failed Safe Done
      file := by
  unfold writeSchemaVersion
  apply Script.wp_bind
  apply wp_readSchemaVersion hSqlite hVersions hSafe
  have hZero : file.version = 0 := by
    simp [DatabaseFile.version, hVersions]
  rw [if_pos hZero]
  exact Script.wp_perform hSafe
    (hSqlite.insert_version file [] version hVersions)
    hAfter hDone

/- Every other one is an update. -/
theorem wp_writeSchemaVersion_update
    {old : Int}
    (hVersions : file.schemaVersion = some [old])
    (hOld : old ≠ 0)
    (hSafe : Safe file)
    (hAfter : Safe
      { file with schemaVersion := some [version] })
    (hDone : Done ()
      { file with schemaVersion := some [version] }) :
    (writeSchemaVersion version).wp sqlite Failed Safe Done
      file := by
  unfold writeSchemaVersion
  apply Script.wp_bind
  apply wp_readSchemaVersion hSqlite hVersions hSafe
  have hOther : file.version ≠ 0 := by
    simpa [DatabaseFile.version, hVersions] using hOld
  rw [if_neg hOther]
  exact Script.wp_perform hSafe
    (hSqlite.update_version file [old] version hVersions)
    hAfter hDone

------------------------------------------------------------
-- From Each Stage On
------------------------------------------------------------

/- A table without rows is given the new column. -/
theorem wp_migrateFrom_empty
    (hVersions : file.schemaVersion = some [1])
    (hUsers : file.users = some table)
    (hColumns : table.columns = usersColumns)
    (hEmpty : table.rows = [])
    (hSafe : Safe file)
    (hMode : ∀ mode, Safe { file with journalMode := mode })
    (hAdded : ∀ mode, Safe { file with
      journalMode := mode
      users := some { table with
        columns := usersColumns ++ [updatedAt] } })
    (hLast : ∀ mode, Safe {
      schemaVersion := some [2]
      journalMode := mode
      users := some { table with
        columns := usersColumns ++ [updatedAt] } })
    (hDone : ∀ mode, Done () {
      schemaVersion := some [2]
      journalMode := mode
      users := some { table with
        columns := usersColumns ++ [updatedAt] } }) :
    (migrateFrom 1).wp sqlite Failed Safe Done file := by
  rw [migrateFrom, if_pos (by decide)]
  apply Script.wp_bind
  change Script.wp sqlite Failed Safe (applyMigration 2) _ file
  unfold applyMigration
  rw [if_neg (by decide), if_pos rfl]
  apply Script.wp_bind
  rcases hSqlite.journal_mode file with ⟨mode, hWal⟩
  apply Script.wp_perform hSafe hWal (hMode mode)
  have hNew : ∀ other ∈ table.columns,
      other.name ≠ updatedAt.name := by
    rw [hColumns]
    decide
  have hAdd := hSqlite.add_column
    { file with journalMode := mode } table updatedAt hUsers
    hNew hEmpty
  rw [hColumns] at hAdd
  apply Script.wp_perform (hMode mode) hAdd (hAdded mode)
  apply Script.wp_bind
  refine wp_writeSchemaVersion_update hSqlite ?_
    (show (1 : Int) ≠ 0 by decide) (hAdded mode)
    (hLast mode) ?_
  · exact hVersions
  · exact wp_migrateFrom_latest (hLast mode) (hDone mode)

/- With rows, or with the column, it fails. -/
theorem wp_migrateFrom_refused
    (hUsers : file.users = some table)
    (hRefused : table.rows ≠ [] ∨ updatedAt ∈ table.columns)
    (hSafe : Safe file)
    (hMode : ∀ mode, Safe { file with journalMode := mode })
    (hFailed : ∀ error mode, Failed error
      { file with journalMode := mode }) :
    (migrateFrom 1).wp sqlite Failed Safe Done file := by
  rw [migrateFrom, if_pos (by decide)]
  apply Script.wp_bind
  change Script.wp sqlite Failed Safe (applyMigration 2) _ file
  unfold applyMigration
  rw [if_neg (by decide), if_pos rfl]
  apply Script.wp_bind
  rcases hSqlite.journal_mode file with ⟨mode, hWal⟩
  apply Script.wp_perform hSafe hWal (hMode mode)
  have hError : ∃ error, sqlite (.addUsersColumn updatedAt)
      { file with journalMode := mode } = .error error := by
    rcases hRefused with hRows | hColumn
    · exact hSqlite.add_column_computed _ table updatedAt
        hUsers rfl hRows
    · exact hSqlite.add_column_duplicate _ table updatedAt
        updatedAt hUsers hColumn rfl
  rcases hError with ⟨error, hError⟩
  exact Script.wp_perform_error (hMode mode) hError
    (hFailed error mode)

/- The first migration creates the table if it is not there. -/
theorem wp_migrateFrom_first
    (hVersions : file.schemaVersion = some [])
    (hTable : file.users.getD (UsersTable.create usersColumns)
      = table)
    (hSafe : Safe file)
    (hCreated : Safe { file with users := some table })
    (hFirst : Safe { file with
      users := some table, schemaVersion := some [1] })
    (hRest : (migrateFrom 1).wp sqlite Failed Safe Done
      { file with
        users := some table, schemaVersion := some [1] }) :
    (migrateFrom 0).wp sqlite Failed Safe Done file := by
  rw [migrateFrom, if_pos (by decide)]
  apply Script.wp_bind
  change Script.wp sqlite Failed Safe (applyMigration 1) _ file
  unfold applyMigration
  rw [if_pos rfl]
  have hCreate := hSqlite.create_users file usersColumns
  rw [hTable] at hCreate
  apply Script.wp_perform hSafe hCreate hCreated
  apply Script.wp_bind
  exact wp_writeSchemaVersion_insert hSqlite hVersions
    hCreated hFirst hRest

end Scripts

------------------------------------------------------------
-- From What Is Found
------------------------------------------------------------

namespace DatabaseFile

/- A stage of the migration of `file`, with its users. -/
def KeptFrom
    (file after : DatabaseFile) : Prop :=
  after.Shaped ∧ after.rows = file.rows

/- How a migration of `file` ends well. -/
def UpgradedFrom
    (file after : DatabaseFile) : Prop :=
  file.Migratable ∧ after.version = 2 ∧
    after.columnCount "updated_at" = 1 ∧
    after.rows = file.rows

/- Without the column, all depends on the users. -/
theorem migratable_iff_of_not_upgraded
    (hVersion : file.version ≠ 2)
    (hColumn : file.columnCount "updated_at" = 0) :
    file.Migratable ↔ file.rows = [] := by
  simp [Migratable, hVersion, hColumn]

theorem countP_usersColumns :
    usersColumns.countP
      (fun column => column.name = "updated_at") = 0 := by
  decide

theorem countP_usersColumns_updatedAt :
    (usersColumns ++ [updatedAt]).countP
      (fun column => column.name = "updated_at") = 1 := by
  decide

end DatabaseFile

open DatabaseFile

/- From version 1 on, when the column is not there yet. -/
theorem wp_migrateFrom_firstVersion
    {now : DatabaseFile}
    (hSqlite : sqlite.Documented)
    (hVersions : now.schemaVersion = some [1])
    (hUsers : now.users = some table)
    (hColumns : table.columns = usersColumns)
    (hRows : now.rows = file.rows)
    (hAll : file.Migratable ↔ file.rows = []) :
    (migrateFrom 1).wp sqlite (fun _ _ => ¬ file.Migratable)
      file.KeptFrom (fun _ => file.UpgradedFrom) now := by
  rcases now with ⟨versions, users, mode⟩
  cases hVersions
  cases hUsers
  change table.rows = file.rows at hRows
  by_cases hEmpty : table.rows = []
  · apply wp_migrateFrom_empty hSqlite rfl rfl hColumns hEmpty
    · exact ⟨.firstVersion table mode hColumns, hRows⟩
    · intro mode
      exact ⟨.firstVersion table mode hColumns, hRows⟩
    · intro mode
      exact ⟨.extended _ mode rfl, hRows⟩
    · intro mode
      exact ⟨.latest _ mode rfl, hRows⟩
    · intro mode
      exact ⟨hAll.mpr (hRows ▸ hEmpty), rfl,
        countP_usersColumns_updatedAt, hRows⟩
  · apply wp_migrateFrom_refused hSqlite rfl (.inl hEmpty)
    · exact ⟨.firstVersion table mode hColumns, hRows⟩
    · intro mode
      exact ⟨.firstVersion table mode hColumns, hRows⟩
    · intro _ _ hMigratable
      exact hEmpty (hRows.trans (hAll.mp hMigratable))

/- From version 0 on, with or without the table. -/
theorem wp_migrateFrom_unversioned
    {now : DatabaseFile}
    (hSqlite : sqlite.Documented)
    (hVersions : now.schemaVersion = some [])
    (hTable : now.users.getD (UsersTable.create usersColumns)
      = table)
    (hColumns : table.columns = usersColumns)
    (hShaped : now.Shaped)
    (hRows : now.rows = file.rows)
    (hTableRows : table.rows = file.rows)
    (hAll : file.Migratable ↔ file.rows = []) :
    (migrateFrom 0).wp sqlite (fun _ _ => ¬ file.Migratable)
      file.KeptFrom (fun _ => file.UpgradedFrom) now := by
  apply wp_migrateFrom_first hSqlite hVersions hTable
    ⟨hShaped, hRows⟩
  · rw [hVersions]
    exact ⟨.created table now.journalMode hColumns, hTableRows⟩
  · exact ⟨.firstVersion table now.journalMode hColumns,
      hTableRows⟩
  · exact wp_migrateFrom_firstVersion hSqlite rfl rfl hColumns
      hTableRows hAll

/-
  The migrations of a file at any stage: they can be cut off
  at a stage with the same users, end well only if the file
  is migratable, and fail only if it is not.
-/
theorem wp_migrate
    (hSqlite : sqlite.Documented)
    (hShaped : file.Shaped) :
    migrate.wp sqlite (fun _ _ => ¬ file.Migratable)
      file.KeptFrom (fun _ => file.UpgradedFrom) file := by
  have hSafe : file.KeptFrom file := ⟨hShaped, rfl⟩
  unfold migrate
  apply Script.wp_bind
  have hCreate := hSqlite.create_schemaVersion file
  cases hShaped with
  | unmade mode =>
      have hNow : KeptFrom ⟨none, none, mode⟩
          ⟨some [], none, mode⟩ := ⟨.numbered mode, rfl⟩
      apply Script.wp_perform hSafe hCreate hNow
      apply Script.wp_bind
      apply wp_readSchemaVersion hSqlite rfl hNow
      exact wp_migrateFrom_unversioned hSqlite rfl rfl rfl
        hNow.1 rfl rfl
        (migratable_iff_of_not_upgraded
          (show (0 : Int) ≠ 2 by decide) rfl)
  | numbered mode =>
      apply Script.wp_perform hSafe hCreate hSafe
      apply Script.wp_bind
      apply wp_readSchemaVersion hSqlite rfl hSafe
      exact wp_migrateFrom_unversioned hSqlite rfl rfl rfl
        hSafe.1 rfl rfl
        (migratable_iff_of_not_upgraded
          (show (0 : Int) ≠ 2 by decide) rfl)
  | created table mode hColumns =>
      apply Script.wp_perform hSafe hCreate hSafe
      apply Script.wp_bind
      apply wp_readSchemaVersion hSqlite rfl hSafe
      refine wp_migrateFrom_unversioned hSqlite rfl rfl hColumns
        hSafe.1 rfl rfl
        (migratable_iff_of_not_upgraded ?_ ?_)
      · exact show (0 : Int) ≠ 2 by decide
      · simp only [columnCount, hColumns]
        exact countP_usersColumns
  | firstVersion table mode hColumns =>
      apply Script.wp_perform hSafe hCreate hSafe
      apply Script.wp_bind
      apply wp_readSchemaVersion hSqlite rfl hSafe
      refine wp_migrateFrom_firstVersion hSqlite rfl rfl
        hColumns rfl (migratable_iff_of_not_upgraded ?_ ?_)
      · exact show (1 : Int) ≠ 2 by decide
      · simp only [columnCount, hColumns]
        exact countP_usersColumns
  | extended table mode hColumns =>
      apply Script.wp_perform hSafe hCreate hSafe
      apply Script.wp_bind
      apply wp_readSchemaVersion hSqlite rfl hSafe
      have hAdded : updatedAt ∈ table.columns := by
        rw [hColumns]
        exact List.mem_append_right _
          (List.mem_singleton_self updatedAt)
      apply wp_migrateFrom_refused hSqlite rfl (.inr hAdded)
        hSafe
      · intro mode
        exact ⟨.extended table mode hColumns, rfl⟩
      · rintro _ _ (hVersion | ⟨_, hNone⟩)
        · exact absurd hVersion
            (show (1 : Int) ≠ 2 by decide)
        · simp only [columnCount, hColumns,
            countP_usersColumns_updatedAt] at hNone
          cases hNone
  | latest table mode hColumns =>
      apply Script.wp_perform hSafe hCreate hSafe
      apply Script.wp_bind
      apply wp_readSchemaVersion hSqlite rfl hSafe
      refine wp_migrateFrom_latest hSafe ⟨.inl rfl, rfl, ?_,
        rfl⟩
      simp only [columnCount, hColumns]
      exact countP_usersColumns_updatedAt

/- Whatever is found is at one of the stages. -/
theorem LeftBehind.shaped
    (hSqlite : sqlite.Documented)
    (hLeft : LeftBehind sqlite file) :
    file.Shaped := by
  induction hLeft with
  | unmade mode => exact .unmade mode
  | firstVersion table mode hColumns =>
      exact .firstVersion table mode hColumns
  | migrated _ hLeaves ih =>
      exact (Script.wp_leaves (wp_migrate hSqlite ih)
        hLeaves).1
  | used _ hUsers hColumns ih => exact ih.used hUsers hColumns

/- No migration, cut off or not, changes an account. -/
theorem LeftBehind.repository_of_leaves
    {after : DatabaseFile}
    (hSqlite : sqlite.Documented)
    (hLeft : LeftBehind sqlite file)
    (hLeaves : migrate.Leaves sqlite file after) :
    after.repository = file.repository := by
  have hKept := Script.wp_leaves
    (wp_migrate hSqlite (hLeft.shaped hSqlite)) hLeaves
  unfold repository
  rw [hKept.2]

/-
  The migrations get through whatever is found there if and
  only if it is the latest version already, or nobody has an
  account and the second migration has not got further than
  its first statement.
-/
theorem LeftBehind.getsThrough_iff
    (hSqlite : sqlite.Documented)
    (hLeft : LeftBehind sqlite file) :
    GetsThrough sqlite file ↔ file.Migratable := by
  have hRun := Script.wp_run
    (wp_migrate hSqlite (hLeft.shaped hSqlite))
  constructor
  · rintro ⟨after, hMigrate, _⟩
    rw [hMigrate] at hRun
    exact hRun.1
  · intro hMigratable
    unfold GetsThrough
    split at hRun
    · rename_i after hMigrate
      exact ⟨after, hMigrate, hRun.2⟩
    · exact absurd hMigratable hRun

------------------------------------------------------------
-- One User at the First Version
------------------------------------------------------------

/- A table with an account, as version 1 created it. -/
def oneUser : UsersTable where
  columns := usersColumns
  rows := [⟨1, "Alice", "salt$hash", 1000⟩]
  ids_nodup := by decide
  usernames_nodup := List.nodup_singleton _
  chips_nonneg := by decide

/-
  A new file is migrated, also when that was cut off at
  first, and so is a file that Alice has used since then.
-/
theorem newFile_getsThrough :
    GetsThrough documentedSqlite ⟨none, none, "delete"⟩ ∧
      GetsThrough documentedSqlite ⟨some [], none, "delete"⟩ ∧
      ∃ file, LeftBehind documentedSqlite file ∧
        file.version = 2 ∧ file.rows = oneUser.rows ∧
        GetsThrough documentedSqlite file := by
  have hNew : LeftBehind documentedSqlite
      ⟨none, none, "delete"⟩ := .unmade "delete"
  have hThrough : GetsThrough documentedSqlite
      ⟨none, none, "delete"⟩ :=
    (LeftBehind.getsThrough_iff documentedSqlite_documented
      hNew).mpr (.inr ⟨rfl, rfl⟩)
  have hCut : LeftBehind documentedSqlite
      ⟨some [], none, "delete"⟩ :=
    .migrated hNew (.later rfl (.here _ _))
  refine ⟨hThrough,
    (LeftBehind.getsThrough_iff documentedSqlite_documented
      hCut).mpr (.inr ⟨rfl, rfl⟩), ?_⟩
  rcases hThrough with ⟨after, hRun, hVersion, hColumn, _⟩
  have hAfter : LeftBehind documentedSqlite after :=
    .migrated hNew (Script.leaves_of_run hRun)
  unfold columnCount at hColumn
  split at hColumn
  · cases hColumn
  rename_i table hUsers
  have hUsed : LeftBehind documentedSqlite
      { after with
        users := some { oneUser with
          columns := table.columns } } :=
    .used hAfter hUsers rfl
  exact ⟨_, hUsed, hVersion, rfl,
    (LeftBehind.getsThrough_iff documentedSqlite_documented
      hUsed).mpr (.inl hVersion)⟩

/- With an account in it, the first version is not. -/
theorem oneUser_stuck :
    ¬ ∀ sqlite file, Sqlite.Documented sqlite →
      LeftBehind sqlite file → GetsThrough sqlite file := by
  intro hAll
  rcases hAll documentedSqlite
      ⟨some [1], some oneUser, "delete"⟩
      documentedSqlite_documented
      (.firstVersion oneUser "delete" rfl) with
    ⟨after, hMigrate, _⟩
  have hStuck : (migrate.run documentedSqlite
      ⟨some [1], some oneUser, "delete"⟩).1.isOk = false := by
    decide +kernel
  rw [hMigrate] at hStuck
  cases hStuck

end Server

end Poker
