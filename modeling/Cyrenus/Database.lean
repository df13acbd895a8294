import Cyrenus.Lib.CString
import Mathlib.Data.List.Nodup

/-!
# Sessions and keys in the database

The tables `sessions` and `api_keys`, and the statements `database.c` runs on them. A statement that
reads goes through the rows in the order they were inserted; a statement that writes is told whether
the database carries it out. The numbers of the keys come from an AUTOINCREMENT column: each is
greater than all numbers given before, which `ApiKeyTable` carries as a field.
-/

namespace Cyrenus

open CStr (strncpy)

/-! ## The tables -/

/-- A row of `sessions`. -/
structure SessionRecord where
  userId : CStr
  sessionId : CStr
  token : CStr
  expiresAt : ℤ
  deriving DecidableEq, Repr

/-- A row of `api_keys`. -/
structure ApiKeyRow where
  id : ℤ
  name : CStr
  keyHash : CStr
  keyPrefix : CStr
  permissions : CStr
  lastUsedAt : Option ℤ
  expiresAt : Option ℤ
  deriving DecidableEq, Repr

/-- The table `api_keys`: its rows, and the greatest number given so far. -/
structure ApiKeyTable where
  rows : List ApiKeyRow
  lastId : ℤ
  id_le : ∀ row ∈ rows, row.id ≤ lastId
  nodup : (rows.map ApiKeyRow.id).Nodup

/-- The table without rows. -/
def ApiKeyTable.empty : ApiKeyTable := ⟨[], 0, nofun, List.nodup_nil⟩

/-- The part of the database that requests are checked against. -/
structure Database where
  sessions : List SessionRecord
  apiKeys : ApiKeyTable

/-- The database when its schema has just been created. -/
def Database.empty : Database := ⟨[], .empty⟩

/-! ## Sessions -/

/-- `database_insert_session`: whether the row was inserted, and the database after it. No two rows
have the same `session_id`. -/
def databaseInsertSession (insertOk : Bool) (session : SessionRecord) (db : Database) :
    Bool × Database :=
  if insertOk ∧ ∀ row ∈ db.sessions, row.sessionId ≠ session.sessionId then
    (true, { db with sessions := db.sessions ++ [session] })
  else (false, db)

/-- `database_get_session`: the first row with a token that has not expired. -/
def databaseGetSession (now : ℤ) (token : CStr) (db : Database) : Option SessionRecord :=
  db.sessions.find? fun row => row.token = token && row.expiresAt > now

theorem databaseGetSession_some {now : ℤ} {token : CStr} {db : Database} {row : SessionRecord}
    (h : databaseGetSession now token db = some row) :
    row ∈ db.sessions ∧ row.token = token ∧ now < row.expiresAt := by
  have hp := List.find?_some h
  simp only [Bool.and_eq_true, decide_eq_true_eq] at hp
  exact ⟨List.mem_of_find?_eq_some h, hp⟩

theorem databaseGetSession_isSome {now : ℤ} {token : CStr} {db : Database} :
    (databaseGetSession now token db).isSome = true ↔
      ∃ row ∈ db.sessions, row.token = token ∧ now < row.expiresAt := by
  simp [databaseGetSession, List.find?_isSome]

/-! ## Keys -/

/-- `struct api_key_record`, as far as `database_create_api_key` stores it. An expiry that is not
positive stands for none. -/
structure ApiKeyRecord where
  name : CStr
  keyHash : CStr
  keyPrefix : CStr
  permissions : CStr
  expiresAt : ℤ

/-- The row that a record is stored as. -/
def ApiKeyRecord.row (key : ApiKeyRecord) (id : ℤ) : ApiKeyRow where
  id := id
  name := key.name
  keyHash := key.keyHash
  keyPrefix := key.keyPrefix
  permissions := key.permissions
  lastUsedAt := none
  expiresAt := if key.expiresAt > 0 then some key.expiresAt else none

namespace ApiKeyTable

/-- Insert a record under the next number. -/
def insert (t : ApiKeyTable) (key : ApiKeyRecord) : ApiKeyTable where
  rows := t.rows ++ [key.row (t.lastId + 1)]
  lastId := t.lastId + 1
  id_le := by
    intro row hrow
    rcases List.mem_append.1 hrow with h | h
    · have := t.id_le row h
      omega
    · rw [List.mem_singleton.1 h]
      exact Int.le_refl _
  nodup := by
    rw [List.map_append, List.nodup_append]
    refine ⟨t.nodup, List.nodup_singleton _, ?_⟩
    rintro id hid _ hnew rfl
    obtain ⟨row, hrow, rfl⟩ := List.mem_map.1 hid
    have hle := t.id_le row hrow
    have heq : row.id = t.lastId + 1 := List.mem_singleton.1 hnew
    omega

/-- Delete the row with a number. -/
def delete (t : ApiKeyTable) (id : ℤ) : ApiKeyTable where
  rows := t.rows.filter fun row => row.id ≠ id
  lastId := t.lastId
  id_le := fun row hrow => t.id_le row (List.mem_of_mem_filter hrow)
  nodup := t.nodup.sublist (List.filter_sublist.map _)

/-- Note the last use of the key with a number. -/
def touch (t : ApiKeyTable) (now id : ℤ) : ApiKeyTable where
  rows := t.rows.map fun row => if row.id = id then { row with lastUsedAt := some now } else row
  lastId := t.lastId
  id_le := by
    intro row hrow
    obtain ⟨old, hold, rfl⟩ := List.mem_map.1 hrow
    split <;> exact t.id_le old hold
  nodup := by
    rw [List.map_map]
    have hid : ApiKeyRow.id ∘ (fun row => if row.id = id then
        { row with lastUsedAt := some now } else row) = ApiKeyRow.id := by
      funext row
      simp only [Function.comp_apply]
      split <;> rfl
    rw [hid]
    exact t.nodup

end ApiKeyTable

/-- What `sqlite3_column_int` makes of a number of 64 bits, and what an `int` argument is. -/
def columnInt (n : ℤ) : ℤ := (BitVec.ofInt 32 n).toInt

/-- `database_create_api_key`. -/
def databaseCreateApiKey (insertOk : Bool) (key : ApiKeyRecord) (db : Database) :
    Bool × Database :=
  if insertOk then (true, { db with apiKeys := db.apiKeys.insert key }) else (false, db)

/-- `database_delete_api_key`. -/
def databaseDeleteApiKey (deleteOk : Bool) (id : ℤ) (db : Database) : Database :=
  if deleteOk then { db with apiKeys := db.apiKeys.delete id } else db

/-- A row satisfies the condition of `database_validate_api_key`. -/
def ApiKeyRow.isValid (row : ApiKeyRow) (now : ℤ) (keyHash : CStr) : Bool :=
  row.keyHash = keyHash && match row.expiresAt with
    | none => true
    | some expiresAt => expiresAt > now

/-- `database_validate_api_key`: the first row with a hash that has not expired. -/
def databaseValidateApiKey (now : ℤ) (keyHash : CStr) (db : Database) : Option ApiKeyRow :=
  db.apiKeys.rows.find? fun row => row.isValid now keyHash

/-- `database_update_api_key_last_used`. -/
def databaseUpdateApiKeyLastUsed (updateOk : Bool) (now id : ℤ) (db : Database) : Database :=
  if updateOk then { db with apiKeys := db.apiKeys.touch now id } else db

theorem ApiKeyRow.isValid_iff {row : ApiKeyRow} {now : ℤ} {keyHash : CStr} :
    row.isValid now keyHash = true ↔
      row.keyHash = keyHash ∧ ∀ e, row.expiresAt = some e → now < e := by
  rw [isValid, Bool.and_eq_true, decide_eq_true_eq]
  cases row.expiresAt <;> simp

theorem databaseValidateApiKey_some {now : ℤ} {keyHash : CStr} {db : Database} {row : ApiKeyRow}
    (h : databaseValidateApiKey now keyHash db = some row) :
    row ∈ db.apiKeys.rows ∧ row.keyHash = keyHash ∧ ∀ e, row.expiresAt = some e → now < e := by
  have hvalid := List.find?_some h
  exact ⟨List.mem_of_find?_eq_some h, ApiKeyRow.isValid_iff.1 hvalid⟩

theorem databaseValidateApiKey_isSome {now : ℤ} {keyHash : CStr} {db : Database} :
    (databaseValidateApiKey now keyHash db).isSome = true ↔
      ∃ row ∈ db.apiKeys.rows, row.keyHash = keyHash ∧ ∀ e, row.expiresAt = some e → now < e := by
  simp only [databaseValidateApiKey, List.find?_isSome, ApiKeyRow.isValid_iff]

end Cyrenus
