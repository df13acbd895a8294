import Cyrenus.Api.Context
import Cyrenus.Database

/-!
# The key requests

`api_keys_create` stores a new key with the permissions and the expiry that the body asks for, and
`api_keys_delete` deletes the key with the number in the body.
-/

namespace Cyrenus

open CStr (strncpy)

/-! ## Creating a key -/

/-- The characters of a key. -/
def keyCharset : CStr := "abcdefghijklmnopqrstuvwxyzABCDEFGHIJKLMNOPQRSTUVWXYZ0123456789".toList

/-- `generate_api_key` for a buffer of 64 bytes: the prefix and 57 characters that `rand` draws. -/
def generateApiKey (rand : ℕ → ℕ) : CStr :=
  "cyr_k_".toList ++ (List.range 57).map fun i => keyCharset.getD (rand i % 62) 'a'

/-- `hash_api_key`, when the calls it makes succeed. -/
def hashApiKey (libs : Libs) (key : CStr) : CStr := libs.sha256 key

/-- `expires_at`: the time of creation and the days asked for, whose seconds are a product of
`int`s, or zero for a key that does not expire. -/
def keyExpiresAt (now : ℤ) (root : Json) : ℤ :=
  match root.get? "expires_in_days" with
  | none => 0
  | some jExpires =>
    let days := jExpires.getInt
    if days.toInt > 0 then now + (days * 86400).toInt else 0

/-- A text of the body, or its default; a null pointer when the member is `null`. -/
def keyText (libs : Libs) (root : Json) (name : String) (default : CStr) : Option CStr :=
  match root.get? name with
  | none => some default
  | some j => j.getString libs.toText

/-- The record of a new key. The copy of the prefix writes ten bytes into a field of eight, so what
is stored as the prefix runs on into the permissions, which are written afterwards. -/
def newKey (libs : Libs) (a : Answers) (root : Json) (name perms : CStr) : ApiKeyRecord where
  name := strncpy 63 name
  keyHash := strncpy 127 (hashApiKey libs (generateApiKey a.rand))
  keyPrefix := strncpy 8 (generateApiKey a.rand) ++ strncpy 63 perms
  permissions := strncpy 63 perms
  expiresAt := keyExpiresAt a.times.created root

/-- The response that returns a key. -/
def keyResponse (key : CStr) : Response :=
  ⟨200, "\x7b \"api_key\": \"" ++ String.ofList key ++
    "\", \"message\": \"Save this key securely. It will not be shown again.\" \x7d"⟩

/-- `api_keys_create`, on the value that the body was parsed to. -/
def keysCreate (libs : Libs) (a : Answers) (db : Database) : Body → Reply × Database
  | none => (.text 400 "", db)
  | some root =>
    match keyText libs root "name" "API Key".toList,
      keyText libs root "permissions" "read,write".toList with
    | some name, some perms =>
      match databaseCreateApiKey a.dbOk (newKey libs a root name perms) db with
      | (true, db) => (.queued (keyResponse (generateApiKey a.rand)), db)
      | (false, db) => (.text 500 "", db)
    | _, _ => (.nullRead, db)

/-- `api_keys_create`. -/
def apiKeysCreate (libs : Libs) (a : Answers) (data : Option CStr) (db : Database) :
    Reply × Database :=
  withParsed libs data db (keysCreate libs a db)

/-! ## Deleting a key -/

/-- The number of the key that a body names. -/
def deletedKeyId (root : Json) : Option ℤ := (root.get? "id").map fun jId => jId.getInt.toInt

/-- `api_keys_delete`, on the value that the body was parsed to. -/
def keysDelete (a : Answers) (db : Database) : Body → Reply × Database
  | none => (.text 400 "", db)
  | some root =>
    (.text 200 "\x7b\"status\":\"deleted\"\x7d",
      match deletedKeyId root with
      | some id => databaseDeleteApiKey a.dbOk id db
      | none => db)

/-- `api_keys_delete`. -/
def apiKeysDelete (libs : Libs) (a : Answers) (data : Option CStr) (db : Database) :
    Reply × Database :=
  withParsed libs data db (keysDelete a db)

/-! ## What the requests do -/

theorem keyText_eq_none {libs : Libs} {root : Json} {name : String} {default : CStr} :
    keyText libs root name default = none ↔ root.get? name = some .null := by
  rw [keyText]
  cases root.get? name <;> simp

/-- **What creating a key does to the database**: it stores one row and returns its key, or it
stores nothing. -/
theorem apiKeysCreate_cases (libs : Libs) (a : Answers) (data : Option CStr) (db : Database) :
    (∃ text root name perms, data = some text ∧ libs.parse text = some root ∧
      keyText libs root "permissions" "read,write".toList = some perms ∧
      apiKeysCreate libs a data db = (.queued (keyResponse (generateApiKey a.rand)),
        { db with apiKeys := db.apiKeys.insert (newKey libs a root name perms) })) ∨
    (apiKeysCreate libs a data db).2 = db := by
  cases data with
  | none => exact .inr rfl
  | some text =>
    rw [apiKeysCreate, withParsed]
    cases hroot : libs.parse text with
    | none => exact .inr rfl
    | some root =>
      simp only [keysCreate]
      split
      · rename_i name perms hname hperms
        cases hok : a.dbOk with
        | true => exact .inl ⟨text, root, name, perms, rfl, hroot, hperms, rfl⟩
        | false => exact .inr rfl
      · exact .inr rfl

/-- Deleting a key leaves the sessions alone. -/
theorem apiKeysDelete_sessions (libs : Libs) (a : Answers) (data : Option CStr) (db : Database) :
    (apiKeysDelete libs a data db).2.sessions = db.sessions := by
  cases data with
  | none => rfl
  | some text =>
    rw [apiKeysDelete, withParsed]
    cases libs.parse text with
    | none => rfl
    | some root =>
      simp only [keysDelete, databaseDeleteApiKey]
      split
      · split <;> rfl
      · rfl

theorem keysCreate_nullRead_iff {libs : Libs} {a : Answers} {db : Database} {body : Body} :
    (keysCreate libs a db body).1 = .nullRead ↔
      ∃ root, body = some root ∧
        (root.get? "name" = some .null ∨ root.get? "permissions" = some .null) := by
  cases body with
  | none => simp [keysCreate, Reply.text]
  | some root =>
    simp only [Option.some.injEq, exists_eq_left', ← @keyText_eq_none libs root "name"
      "API Key".toList, ← @keyText_eq_none libs root "permissions" "read,write".toList, keysCreate]
    cases keyText libs root "name" "API Key".toList with
    | none => simp
    | some name =>
      cases keyText libs root "permissions" "read,write".toList with
      | none => simp
      | some perms => cases a.dbOk <;> simp [databaseCreateApiKey, Reply.text]

end Cyrenus
