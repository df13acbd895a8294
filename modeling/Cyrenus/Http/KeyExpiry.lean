import Cyrenus.Http.Server
import Cyrenus.Lib.Trace

/-!
# How long a key lives

A key is created with a number of days, whose seconds `api_keys_create` multiplies out in 32 bits,
and is checked by `database_validate_api_key` until it is deleted. `storedKey_run` shows that its
row lasts through every run of requests that does not delete it, with the expiry it was given.
`keysLive_iff` says for which numbers of days that expiry is the right one.
-/

namespace Cyrenus

open Trace (final trace)
open CStr (strncpy)

/-! ## The expiry of a key -/

/-- The days that a body asks for. -/
def expiryDays (root : Json) : Option ℤ :=
  (root.get? "expires_in_days").map fun j => j.getInt.toInt

/-- Up to 24855 days the seconds fit into 32 bits. -/
theorem seconds_of_le {days : U32} (hpos : 0 < days.toInt) (hle : days.toInt ≤ 24855) :
    (days * 86400).toInt = 86400 * days.toInt := by
  have hfactor : (86400 : U32).toInt = 86400 := rfl
  rw [BitVec.toInt_mul, hfactor, Int.bmod_eq_of_le_mul_two (by omega) (by omega), Int.mul_comm]

/-- From 24856 days on they are too few. -/
theorem seconds_of_lt {days : U32} (hlt : 24855 < days.toInt) :
    (days * 86400).toInt < 86400 * days.toInt := by
  have hbound : (days * 86400).toInt < 2 ^ 31 := BitVec.toInt_lt
  omega

/-- A key for which no days are asked does not expire. -/
theorem keyExpiresAt_of_not_pos {now : ℤ} {root : Json}
    (hdays : ∀ d, expiryDays root = some d → d ≤ 0) : keyExpiresAt now root = 0 := by
  rw [keyExpiresAt]
  split
  · rfl
  · rename_i j hj
    rw [if_neg (Int.not_lt.2 (hdays _ (by rw [expiryDays, hj]; rfl)))]

/-- Any other expires when the seconds of its days have passed. -/
theorem keyExpiresAt_of_pos (now : ℤ) {d : ℤ} {root : Json} (hdays : expiryDays root = some d)
    (hpos : 0 < d) :
    ∃ days : U32, days.toInt = d ∧ keyExpiresAt now root = now + (days * 86400).toInt := by
  obtain ⟨j, hj, rfl⟩ := Option.map_eq_some_iff.1 hdays
  refine ⟨j.getInt, rfl, ?_⟩
  simp only [keyExpiresAt, hj]
  exact if_pos hpos

/-! ## The row of a key -/

/-- A table has a row with a number, a digest and an expiry. -/
def StoredKey (id : ℤ) (keyHash : CStr) (expiresAt : Option ℤ) (t : ApiKeyTable) : Prop :=
  ∃ row ∈ t.rows, row.id = id ∧ row.keyHash = keyHash ∧ row.expiresAt = expiresAt

namespace StoredKey

variable {id : ℤ} {keyHash : CStr} {expiresAt : Option ℤ} {t : ApiKeyTable}

/-- The row of a new key. -/
theorem of_insert (t : ApiKeyTable) (key : ApiKeyRecord) :
    StoredKey (t.lastId + 1) key.keyHash (key.row (t.lastId + 1)).expiresAt (t.insert key) :=
  ⟨_, List.mem_append_right _ (List.mem_singleton.2 rfl), rfl, rfl, rfl⟩

theorem insert (h : StoredKey id keyHash expiresAt t) (key : ApiKeyRecord) :
    StoredKey id keyHash expiresAt (t.insert key) := by
  obtain ⟨row, hrow, hkey⟩ := h
  exact ⟨row, List.mem_append_left _ hrow, hkey⟩

theorem delete (h : StoredKey id keyHash expiresAt t) {id' : ℤ} (hne : id' ≠ id) :
    StoredKey id keyHash expiresAt (t.delete id') := by
  obtain ⟨row, hrow, rfl, hkey⟩ := h
  exact ⟨row, List.mem_filter.2 ⟨hrow, decide_eq_true hne.symm⟩, rfl, hkey⟩

theorem touch (h : StoredKey id keyHash expiresAt t) (now id' : ℤ) :
    StoredKey id keyHash expiresAt (t.touch now id') := by
  obtain ⟨row, hrow, hid, hhash, hexp⟩ := h
  refine ⟨_, List.mem_map_of_mem hrow, ?_⟩
  split
  · exact ⟨hid, hhash, hexp⟩
  · exact ⟨hid, hhash, hexp⟩

/-- No other row has its number. -/
theorem expiresAt_eq (h : StoredKey id keyHash expiresAt t) {row : ApiKeyRow}
    (hrow : row ∈ t.rows) (hid : row.id = id) : row.expiresAt = expiresAt := by
  obtain ⟨stored, hstored, hid', -, rfl⟩ := h
  rw [List.inj_on_of_nodup_map t.nodup hrow hstored (hid.trans hid'.symm)]

end StoredKey

/-! ## A run -/

/-- The body of a request names a key to be deleted, and the database deletes it. -/
def DeletesNumber (libs : Libs) (a : Answers) (data : Option CStr) (id : ℤ) : Prop :=
  a.dbOk = true ∧ ∃ text root, data = some text ∧ libs.parse text = some root ∧
    deletedKeyId root = some id

/-- A request has deleted a key. -/
structure DeletesKey (libs : Libs) (eo : Exchange × Outcome) (id : ℤ) : Prop where
  handler : eo.2.handler = some .keysDelete
  body : ∃ ctx, eo.1.request.receive = some ctx ∧ DeletesNumber libs eo.1.answers ctx.body id

/-- Deleting keeps the row of every other key. -/
theorem apiKeysDelete_storedKey {libs : Libs} {a : Answers} {data : Option CStr} {db : Database}
    {id : ℤ} {keyHash : CStr} {expiresAt : Option ℤ}
    (h : StoredKey id keyHash expiresAt db.apiKeys) (hother : ¬ DeletesNumber libs a data id) :
    StoredKey id keyHash expiresAt (apiKeysDelete libs a data db).2.apiKeys := by
  cases data with
  | none => exact h
  | some text =>
    rw [apiKeysDelete, withParsed]
    cases hroot : libs.parse text with
    | none => exact h
    | some root =>
      simp only [keysDelete, databaseDeleteApiKey]
      split
      · rename_i id' hid'
        split
        · rename_i hok
          refine h.delete ?_
          rintro rfl
          exact hother ⟨hok, text, root, rfl, hroot, hid'⟩
        · exact h
      · exact h

/-- A handler keeps the row of a key that it does not delete. -/
theorem runHandler_storedKey {libs : Libs} {a : Answers} {report : Handler → Option Response}
    {req : HttpRequest} {data : Option CStr} {srv : Server} {h : Handler} {id : ℤ} {keyHash : CStr}
    {expiresAt : Option ℤ} (hkey : StoredKey id keyHash expiresAt srv.db.apiKeys)
    (hother : h = .keysDelete → ¬ DeletesNumber libs a data id) :
    StoredKey id keyHash expiresAt (runHandler libs a report req data srv h).2.db.apiKeys := by
  by_cases hlogin : h = .login
  · subst hlogin
    obtain ⟨_, -, -, he⟩ | ⟨he, -⟩ := apiAuthLogin_cases libs a srv.daemon.config data srv.db
    · rw [runHandler, he]
      exact hkey
    · rw [runHandler, he]
      exact hkey
  by_cases hcreate : h = .keysCreate
  · subst hcreate
    obtain ⟨_, _, _, _, -, -, -, he⟩ | he := apiKeysCreate_cases libs a data srv.db
    · rw [runHandler, he]
      exact hkey.insert _
    · rw [runHandler, he]
      exact hkey
  by_cases hdelete : h = .keysDelete
  · subst hdelete
    exact apiKeysDelete_storedKey hkey (hother rfl)
  rw [runHandler_db hlogin hcreate hdelete]
  exact hkey

/-- **A request keeps the row of a key that it does not delete.** -/
theorem httpStep_storedKey {libs : Libs} {e : Exchange} {srv : Server} {id : ℤ} {keyHash : CStr}
    {expiresAt : Option ℤ} (hkey : StoredKey id keyHash expiresAt srv.db.apiKeys)
    (hother : ¬ DeletesKey libs (e, (httpStep libs e srv).1) id) :
    StoredKey id keyHash expiresAt (httpStep libs e srv).2.db.apiKeys := by
  have hcase := handleRequest_handled libs e.answers e.report e.request srv
  rw [httpStep] at hother ⊢
  generalize handleRequest libs e.answers e.report e.request srv = r at hcase hother
  cases hcase with
  | tooLarge | unauthorized => exact hkey
  | @anyone ctx h hctx hpub =>
    refine runHandler_storedKey hkey ?_
    rintro rfl hdel
    exact hother ⟨rfl, ctx, hctx, hdel⟩
  | @authenticated ctx hctx =>
    have htouched : StoredKey id keyHash expiresAt
        (authenticate libs e.answers e.request srv.db).2.apiKeys := by
      obtain he | ⟨now, id', he⟩ := authenticate_cases libs e.answers e.request srv.db
      · rw [he]
        exact hkey
      · rw [he]
        exact hkey.touch now id'
    generalize protectedRoute e.request.url e.request.method = route at hother
    cases route with
    | handler h =>
      refine runHandler_storedKey htouched ?_
      rintro rfl hdel
      exact hother ⟨rfl, ctx, hctx, hdel⟩
    | notFound | overrun => exact htouched

/-- **A run keeps the row of a key that none of its requests deletes.** -/
theorem storedKey_run {libs : Libs} {srv : Server} {es : List Exchange} {id : ℤ} {keyHash : CStr}
    {expiresAt : Option ℤ} (hkey : StoredKey id keyHash expiresAt srv.db.apiKeys)
    (hother : ∀ eo ∈ trace (httpStep libs) srv es, ¬ DeletesKey libs eo id) :
    StoredKey id keyHash expiresAt (final (httpStep libs) srv es).db.apiKeys := by
  induction es generalizing srv with
  | nil => exact hkey
  | cons e es ih =>
    rw [Trace.trace_cons, List.forall_mem_cons] at hother
    exact ih (httpStep_storedKey hkey hother.1) hother.2

/-! ## The life of a key -/

/-- A body makes `api_keys_create` store a key. -/
structure CreatesKey (libs : Libs) (a : Answers) (data : Option CStr) (root : Json) : Prop where
  body : ∃ text, data = some text ∧ libs.parse text = some root
  name : root.get? "name" ≠ some .null
  permissions : root.get? "permissions" ≠ some .null
  stored : a.dbOk = true

/-- The digest of the key that is created. -/
def keyDigest (libs : Libs) (a : Answers) : CStr := hashApiKey libs (generateApiKey a.rand)

/-- The key that is created is stored under the next number. -/
theorem CreatesKey.storedKey {libs : Libs} {a : Answers} {data : Option CStr} {root : Json}
    (h : CreatesKey libs a data root) (db : Database) :
    ∃ name perms, (apiKeysCreate libs a data db).2.apiKeys =
      db.apiKeys.insert (newKey libs a root name perms) := by
  obtain ⟨text, rfl, hroot⟩ := h.body
  obtain ⟨name, hname⟩ := Option.ne_none_iff_exists'.1
    (mt keyText_eq_none.1 h.name : keyText libs root "name" "API Key".toList ≠ none)
  obtain ⟨perms, hperms⟩ := Option.ne_none_iff_exists'.1
    (mt keyText_eq_none.1 h.permissions :
      keyText libs root "permissions" "read,write".toList ≠ none)
  refine ⟨name, perms, ?_⟩
  simp only [apiKeysCreate, withParsed, hroot, keysCreate, hname, hperms, h.stored,
    databaseCreateApiKey, if_true]

/-- What is asked of a key in one state, at one time: it is accepted up to the end of the days asked
for and not after it, or for ever when none are. When a digest is stored more than once, a key that
is not accepted is one whose row is not the one found. -/
structure KeyLife (libs : Libs) (a : Answers) (root : Json) (id : ℤ) (db : Database) (t : ℤ) :
    Prop where
  endless : (∀ d, expiryDays root = some d → d ≤ 0) →
    (databaseValidateApiKey t (keyDigest libs a) db).isSome = true
  before : ∀ d, expiryDays root = some d → 0 < d → t < a.times.created + 86400 * d →
    (databaseValidateApiKey t (keyDigest libs a) db).isSome = true
  after : ∀ d, expiryDays root = some d → 0 < d → a.times.created + 86400 * d ≤ t →
    ∀ row, databaseValidateApiKey t (keyDigest libs a) db = some row → row.id ≠ id

/-- The key that a request creates lives as it should in every state that requests lead to until one
deletes it. -/
def KeysLive (libs : Libs) (a : Answers) (data : Option CStr) (root : Json) : Prop :=
  ∀ (db : Database) (srv : Server), srv.db = (apiKeysCreate libs a data db).2 →
    ∀ es : List Exchange,
      (∀ eo ∈ trace (httpStep libs) srv es, ¬ DeletesKey libs eo (db.apiKeys.lastId + 1)) →
      ∀ t, KeyLife libs a root (db.apiKeys.lastId + 1) (final (httpStep libs) srv es).db t

/-- A stored key with the right expiry lives as it should. -/
theorem StoredKey.keyLife {libs : Libs} {a : Answers} {root : Json} {id : ℤ} {db : Database}
    (hnow : 0 ≤ a.times.created) (hdays : ∀ d, expiryDays root = some d → d ≤ 24855)
    (hkey : StoredKey id (keyDigest libs a)
      (if keyExpiresAt a.times.created root > 0 then some (keyExpiresAt a.times.created root)
        else none) db.apiKeys) (t : ℤ) : KeyLife libs a root id db t := by
  have hexp : ∀ d, expiryDays root = some d → 0 < d →
      keyExpiresAt a.times.created root = a.times.created + 86400 * d := by
    intro d hd hpos
    obtain ⟨days, rfl, he⟩ := keyExpiresAt_of_pos a.times.created hd hpos
    rw [he, seconds_of_le hpos (hdays _ hd)]
  have hstored := hkey
  obtain ⟨row, hrow, -, hhash, hrowExp⟩ := hkey
  constructor
  · intro hnone
    rw [keyExpiresAt_of_not_pos hnone, if_neg (by decide)] at hrowExp
    exact databaseValidateApiKey_isSome.2 ⟨row, hrow, hhash, by rw [hrowExp]; nofun⟩
  · intro d hd hpos hlt
    refine databaseValidateApiKey_isSome.2 ⟨row, hrow, hhash, fun e he => ?_⟩
    rw [hexp d hd hpos, if_pos (by omega)] at hrowExp
    rw [hrowExp] at he
    cases he
    exact hlt
  · rintro d hd hpos hle found hfound hid
    obtain ⟨hmem, -, hvalid⟩ := databaseValidateApiKey_some hfound
    have hfoundExp := hstored.expiresAt_eq hmem hid
    rw [hexp d hd hpos, if_pos (by omega)] at hfoundExp
    exact absurd (hvalid _ hfoundExp) (by omega)

/-- **When a key lives as it should**: when it is created with at most 24855 days, or none. Of more
days the seconds do not fit into 32 bits; the key then expires too early, or never. -/
theorem keysLive_iff (libs : Libs) (hdigest : ∀ s, (libs.sha256 s).length = 64) (a : Answers)
    (data : Option CStr) (root : Json) (hcreates : CreatesKey libs a data root)
    (hnow : 0 ≤ a.times.created) :
    KeysLive libs a data root ↔ ∀ d, expiryDays root = some d → d ≤ 24855 := by
  have hhash : strncpy 127 (keyDigest libs a) = keyDigest libs a :=
    List.take_of_length_le (by rw [keyDigest, hashApiKey, hdigest]; decide)
  constructor
  · intro hlive d hd
    by_contra hlarge
    obtain ⟨name, perms, htable⟩ := hcreates.storedKey .empty
    obtain ⟨days, rfl, hexp⟩ :=
      keyExpiresAt_of_pos a.times.created hd (by omega)
    have hshort := seconds_of_lt (Int.not_le.1 hlarge)
    -- the key is the only one, and no request follows
    have hlife := hlive .empty { Server.initial with db := (apiKeysCreate libs a data .empty).2 }
      rfl [] fun _ hmem => absurd hmem List.not_mem_nil
    simp only [Trace.final_nil] at hlife
    have hrows : (apiKeysCreate libs a data .empty).2.apiKeys.rows =
        [(newKey libs a root name perms).row 1] := by
      rw [htable]
      rfl
    by_cases hpos : keyExpiresAt a.times.created root > 0
    · obtain ⟨row, hrow, -, hvalid⟩ := databaseValidateApiKey_isSome.1
        ((hlife (keyExpiresAt a.times.created root)).before _ hd (by omega) (by omega))
      rw [hrows, List.mem_singleton] at hrow
      subst hrow
      exact absurd (hvalid _ (if_pos hpos)) (Int.lt_irrefl _)
    · have haccepted : (databaseValidateApiKey (a.times.created + 86400 * days.toInt)
          (keyDigest libs a) (apiKeysCreate libs a data .empty).2).isSome = true := by
        refine databaseValidateApiKey_isSome.2 ⟨_, hrows ▸ List.mem_singleton.2 rfl, hhash, ?_⟩
        intro e he
        rw [ApiKeyRecord.row, newKey, if_neg hpos] at he
        cases he
      obtain ⟨row, hfound⟩ := Option.isSome_iff_exists.1 haccepted
      refine (hlife _).after _ hd (by omega) (Int.le_refl _) row hfound ?_
      have hrow := (databaseValidateApiKey_some hfound).1
      rw [hrows, List.mem_singleton] at hrow
      subst hrow
      rfl
  · intro hdays db srv hsrv es hother t
    obtain ⟨name, perms, htable⟩ := hcreates.storedKey db
    have hnew := StoredKey.of_insert db.apiKeys (newKey libs a root name perms)
    rw [← htable, ← hsrv] at hnew
    have hkey := storedKey_run hnew hother
    rw [newKey, ← keyDigest, hhash] at hkey
    exact hkey.keyLife hnow hdays t

/-- The body of a request for a key that expires after some days. -/
def keyRequest (days : ℤ) : Json := .object [("expires_in_days".toList, .int days)]

/-- Its text. -/
def keyRequestText (days : ℤ) : CStr :=
  "\x7b\"expires_in_days\":".toList ++ CStr.ofInt days ++ "\x7d".toList

/-- The libraries, where such a body is parsed and the first key of all is hashed. -/
def keyLibs (days : ℤ) : Libs where
  parse := fun text => if text = keyRequestText days then some (keyRequest days) else none
  toText := fun _ => []
  sha256 := fun s =>
    if s = "cyr_k_".toList ++ List.replicate 57 'a' then
      "338d9d95557e05c8bbdf224dbe1e2e0b3dac72ace822c56a91ea1aad39a31ae3".toList
    else List.replicate 64 '0'

theorem keyLibs_digest (days : ℤ) (s : CStr) : ((keyLibs days).sha256 s).length = 64 := by
  simp only [keyLibs]
  split <;> rfl

theorem createsKey_keyRequest (days : ℤ) :
    CreatesKey (keyLibs days) (.still 1700000000) (some (keyRequestText days))
      (keyRequest days) where
  body := ⟨_, rfl, if_pos rfl⟩
  name := nofun
  permissions := nofun
  stored := rfl

/-- A key for 24856 days is accepted for ever. -/
theorem keysLive_fails :
    ¬ ∀ (libs : Libs), (∀ s, (libs.sha256 s).length = 64) → ∀ (a : Answers) (data : Option CStr)
      (root : Json), CreatesKey libs a data root → 0 ≤ a.times.created →
      KeysLive libs a data root := by
  intro h
  have hlive := h (keyLibs 24856) (keyLibs_digest _) (.still 1700000000) _ (keyRequest 24856)
    (createsKey_keyRequest _) (by decide)
  have hlife := hlive .empty { Server.initial with db :=
    (apiKeysCreate (keyLibs 24856) (.still 1700000000) (some (keyRequestText 24856)) .empty).2 }
    rfl []
    (fun _ hmem => absurd hmem List.not_mem_nil) 3847558400
  exact hlife.after 24856 rfl (by decide) (by decide) _ rfl rfl

theorem keysLive_iff_year :
    KeysLive (keyLibs 365) (.still 1700000000) (some (keyRequestText 365)) (keyRequest 365) ↔
      ∀ d, expiryDays (keyRequest 365) = some d → d ≤ 24855 :=
  keysLive_iff (keyLibs 365) (keyLibs_digest 365) (.still 1700000000) _ (keyRequest 365)
    (createsKey_keyRequest 365) (by decide)

end Cyrenus
