import AsciiPoker.Library.Durable
import AsciiPoker.Server.Storage.UserRepository

/-
  The database and its migrations (`database.cpp`).

  The file is what SQLite keeps between two runs of the
  server: the rows of `schema_version` and the table
  `users`.  A row of `users` has its two times left out.
  SQLite itself is an engine; `Documented` is what its
  documentation says of the statements that the migrations
  are made of.

  Main declarations:
    * `DatabaseFile`, `Statement`, `Sqlite`,
      `Sqlite.Documented`
    * `Database.readSchemaVersion`,
      `Database.writeSchemaVersion`,
      `Database.applyMigration`, `Database.migrate`
    * `documentedSqlite`
-/

namespace Poker

namespace Server

open Durable

------------------------------------------------------------
-- The File
------------------------------------------------------------

/- A row of `users`. -/
structure UserRow where
  id : Int
  username : String
  passwordHash : String
  chips : Int
  deriving DecidableEq, Repr

/- What a column holds where nothing is given. -/
inductive DefaultValue
  | constant (value : String)
  | expression (text : String)
  deriving DecidableEq, Repr

structure Column where
  name : String
  declaration : String
  defaultValue : Option DefaultValue
  deriving DecidableEq, Repr

/- The default is an expression in parentheses. -/
def Column.isComputed
    (column : Column) : Bool :=
  match column.defaultValue with
  | some (.expression _) => true
  | _ => false

/- The table `users`, under the constraints of its columns. -/
structure UsersTable where
  columns : List Column
  rows : List UserRow
  ids_nodup : (rows.map UserRow.id).Nodup
  usernames_nodup :
    (rows.map fun row => noCase row.username).Nodup
  chips_nonneg : ∀ row ∈ rows, 0 ≤ row.chips
  deriving DecidableEq, Repr

/- A table without rows. -/
def UsersTable.create
    (columns : List Column) : UsersTable where
  columns := columns
  rows := []
  ids_nodup := List.nodup_nil
  usernames_nodup := List.nodup_nil
  chips_nonneg := by
    intro row hRow
    cases hRow

/- A table that is not there has not been created yet. -/
structure DatabaseFile where
  schemaVersion : Option (List Int) := none
  users : Option UsersTable := none
  journalMode : String := "delete"
  deriving DecidableEq, Repr

namespace DatabaseFile

variable (file : DatabaseFile)

/- The version that the file says it has; 0 for none. -/
def version : Int :=
  ((file.schemaVersion.getD []).head?).getD 0

/- The rows of all users. -/
def rows : List UserRow :=
  match file.users with
  | none => []
  | some table => table.rows

/- The accounts as `UserRepository` reads them. -/
def repository : UserRepository where
  users := file.rows.map fun row =>
    ⟨row.username, row.passwordHash, UInt32.ofInt row.chips⟩

/- How many columns of `users` have this name. -/
def columnCount
    (name : String) : Nat :=
  match file.users with
  | none => 0
  | some table =>
      table.columns.countP fun column => column.name = name

end DatabaseFile

------------------------------------------------------------
-- Statements
------------------------------------------------------------

/-
  The statements of `database.cpp`:
  `CREATE TABLE IF NOT EXISTS schema_version`,
  `SELECT version FROM schema_version LIMIT 1`,
  `INSERT INTO schema_version(version) VALUES (?)`,
  `UPDATE schema_version SET version = ?`,
  `CREATE TABLE IF NOT EXISTS users`,
  `PRAGMA journal_mode=WAL` and
  `ALTER TABLE users ADD COLUMN ?`.
-/
inductive Statement
  | createSchemaVersion
  | selectVersion
  | insertVersion (version : Int)
  | updateVersion (version : Int)
  | createUsers (columns : List Column)
  | journalModeWal
  | addUsersColumn (column : Column)
  deriving DecidableEq, Repr

/- A query replies with the row that it finds. -/
abbrev Statement.Reply : Statement → Type
| .selectVersion => Option Int
| _ => Unit

/- The message of a `DatabaseError`. -/
structure DatabaseError where
  what : String
  deriving DecidableEq, Repr

/- SQLite: every statement commits on its own. -/
abbrev Sqlite : Type :=
  Engine DatabaseFile Statement Statement.Reply DatabaseError

/- What SQLite's documentation says of these statements. -/
structure Sqlite.Documented
    (sqlite : Sqlite) : Prop where
  create_schemaVersion : ∀ file : DatabaseFile,
    sqlite .createSchemaVersion file = .ok ((),
      { file with
        schemaVersion := some (file.schemaVersion.getD []) })
  select_version : ∀ (file : DatabaseFile) (rows : List Int),
    file.schemaVersion = some rows →
      sqlite .selectVersion file = .ok (rows.head?, file)
  insert_version : ∀ (file : DatabaseFile) (rows : List Int)
      (version : Int),
    file.schemaVersion = some rows →
      sqlite (.insertVersion version) file = .ok ((),
        { file with schemaVersion := some (rows ++ [version]) })
  update_version : ∀ (file : DatabaseFile) (rows : List Int)
      (version : Int),
    file.schemaVersion = some rows →
      sqlite (.updateVersion version) file = .ok ((),
        { file with
          schemaVersion := some (rows.map fun _ => version) })
  create_users : ∀ (file : DatabaseFile)
      (columns : List Column),
    sqlite (.createUsers columns) file = .ok ((),
      { file with
        users := some
          (file.users.getD (UsersTable.create columns)) })
  journal_mode : ∀ file : DatabaseFile,
    ∃ mode, sqlite .journalModeWal file =
      .ok ((), { file with journalMode := mode })
  add_column : ∀ (file : DatabaseFile) (table : UsersTable)
      (column : Column),
    file.users = some table →
      (∀ other ∈ table.columns, other.name ≠ column.name) →
      table.rows = [] →
      sqlite (.addUsersColumn column) file = .ok ((),
        { file with
          users := some { table with
            columns := table.columns ++ [column] } })
  add_column_duplicate : ∀ (file : DatabaseFile)
      (table : UsersTable) (column other : Column),
    file.users = some table →
      other ∈ table.columns → other.name = column.name →
      ∃ error, sqlite (.addUsersColumn column) file =
        .error error
  add_column_computed : ∀ (file : DatabaseFile)
      (table : UsersTable) (column : Column),
    file.users = some table →
      column.isComputed = true →
      table.rows ≠ [] →
      ∃ error, sqlite (.addUsersColumn column) file =
        .error error

/-
  An engine that does so.  A constant default is as good as
  a value in every row, and the other columns are kept.
-/
def documentedSqlite : Sqlite
| .createSchemaVersion, file => .ok ((),
    { file with
      schemaVersion := some (file.schemaVersion.getD []) })
| .selectVersion, file =>
    match file.schemaVersion with
    | none => .error ⟨"no such table: schema_version"⟩
    | some rows => .ok (rows.head?, file)
| .insertVersion version, file =>
    match file.schemaVersion with
    | none => .error ⟨"no such table: schema_version"⟩
    | some rows => .ok ((),
        { file with schemaVersion := some (rows ++ [version]) })
| .updateVersion version, file =>
    match file.schemaVersion with
    | none => .error ⟨"no such table: schema_version"⟩
    | some rows => .ok ((),
        { file with
          schemaVersion := some (rows.map fun _ => version) })
| .createUsers columns, file => .ok ((),
    { file with
      users := some
        (file.users.getD (UsersTable.create columns)) })
| .journalModeWal, file =>
    .ok ((), { file with journalMode := "wal" })
| .addUsersColumn column, file =>
    match file.users with
    | none => .error ⟨"no such table: users"⟩
    | some table =>
        if ∃ other ∈ table.columns,
            other.name = column.name then
          .error ⟨"duplicate column name: " ++ column.name⟩
        else if column.isComputed ∧ table.rows ≠ [] then
          .error ⟨"Cannot add a column with non-constant default"⟩
        else
          .ok ((),
            { file with
              users := some { table with
                columns := table.columns ++ [column] } })

theorem documentedSqlite_documented :
    Sqlite.Documented documentedSqlite where
  create_schemaVersion _ := rfl
  select_version file rows hRows := by
    simp [documentedSqlite, hRows]
  insert_version file rows version hRows := by
    simp [documentedSqlite, hRows]
  update_version file rows version hRows := by
    simp [documentedSqlite, hRows]
  create_users _ _ := rfl
  journal_mode _ := ⟨_, rfl⟩
  add_column file table column hUsers hNew hEmpty := by
    have hNone : ¬ ∃ other ∈ table.columns,
        other.name = column.name := by
      rintro ⟨other, hOther, hName⟩
      exact hNew other hOther hName
    simp [documentedSqlite, hUsers, hNone, hEmpty]
  add_column_duplicate file table column other hUsers hOther
      hName := by
    have hSome : ∃ other ∈ table.columns,
        other.name = column.name := ⟨other, hOther, hName⟩
    refine ⟨⟨"duplicate column name: " ++ column.name⟩, ?_⟩
    simp only [documentedSqlite, hUsers, if_pos hSome]
  add_column_computed file table column hUsers hComputed
      hRows := by
    simp only [documentedSqlite, hUsers]
    split
    · exact ⟨_, rfl⟩
    · rw [if_pos ⟨hComputed, hRows⟩]
      exact ⟨_, rfl⟩

------------------------------------------------------------
-- Migrations
------------------------------------------------------------

namespace Database

/- `Database`'s calls of SQLite. -/
abbrev Sql : Type → Type :=
  Script Statement Statement.Reply DatabaseError

/- `CREATE TABLE IF NOT EXISTS users (…)`. -/
def usersColumns : List Column :=
  [⟨"id", "INTEGER PRIMARY KEY AUTOINCREMENT", none⟩,
    ⟨"username", "TEXT NOT NULL COLLATE NOCASE UNIQUE", none⟩,
    ⟨"password_hash", "TEXT NOT NULL", none⟩,
    ⟨"chips", "INTEGER NOT NULL CHECK (chips >= 0)",
      some (.constant "1000")⟩,
    ⟨"created_at", "TEXT NOT NULL",
      some (.expression "(datetime('now'))")⟩]

/- `updated_at TEXT NOT NULL DEFAULT (datetime('now'))`. -/
def updatedAt : Column :=
  ⟨"updated_at", "TEXT NOT NULL",
    some (.expression "(datetime('now'))")⟩

def kLatestSchemaVersion : Int := 2

/- `exec`, and the query, which is prepared and stepped. -/
def exec
    (statement : Statement) : Sql statement.Reply :=
  Script.perform statement

/- `read_schema_version`. -/
def readSchemaVersion : Sql Int := do
  let row : Option Int ← exec .selectVersion
  pure (row.getD 0)

/- `write_schema_version`. -/
def writeSchemaVersion
    (version : Int) : Sql Unit := do
  let current ← readSchemaVersion
  if current = 0 then
    exec (.insertVersion version)
  else
    exec (.updateVersion version)

/- `apply_migration`. -/
def applyMigration
    (version : Int) : Sql Unit :=
  if version = 1 then
    exec (.createUsers usersColumns)
  else if version = 2 then do
    exec .journalModeWal
    exec (.addUsersColumn updatedAt)
  else
    pure ()

/- The loop of `migrate`. -/
def migrateFrom
    (version : Int) : Sql Unit :=
  if version < kLatestSchemaVersion then do
    applyMigration (version + 1)
    writeSchemaVersion (version + 1)
    migrateFrom (version + 1)
  else
    pure ()
  termination_by (kLatestSchemaVersion - version).toNat
  decreasing_by omega

/- `migrate`. -/
def migrate : Sql Unit := do
  exec .createSchemaVersion
  let version ← readSchemaVersion
  migrateFrom version

end Database

end Server

end Poker
