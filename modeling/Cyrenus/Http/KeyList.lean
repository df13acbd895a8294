import Cyrenus.Http.KeyAccess
import Cyrenus.Lib.Buffer
import Mathlib.Data.List.GetD
import Mathlib.Data.List.Perm.Basic

/-!
# The list of the keys

`database_list_api_keys` copies the rows into an array that is not cleared, and `api_keys_list`
reads the texts of its records. No copy writes the last byte of a field, and the fields stand behind
each other in memory: a text that fills its field goes on with the next one unless that byte was
zero. The list has an entry for each key that has been created and not deleted since, and
`keysListed` says in what memory an entry shows the texts of its key. The prefix, which is cut from
a longer column, always fills its field; a name that does goes on with the digest of the key.
-/

namespace Cyrenus

open Trace (final trace)
open Numbered (Present)
open CStr (strncpy ofBytes)

/-! ## Records in memory -/

/-- `struct api_key_record`, as it lies in memory. -/
structure ApiKeyBuffers where
  id : ℤ
  name : Buffer 64
  keyHash : Buffer 128
  keyPrefix : Buffer 8
  permissions : Buffer 64
  lastUsedAt : ℤ
  expiresAt : ℤ
  createdAt : ℤ

/-- An entry of the list. -/
structure ApiKeyEntry where
  id : ℤ
  name : CStr
  keyPrefix : CStr
  permissions : CStr
  lastUsedAt : ℤ
  expiresAt : ℤ
  createdAt : ℤ
  deriving DecidableEq, Repr

/-- The entry as it is sent. -/
def ApiKeyEntry.json (entry : ApiKeyEntry) : Json :=
  .object [("id".toList, .int entry.id), ("name".toList, .string entry.name),
    ("prefix".toList, .string entry.keyPrefix), ("permissions".toList, .string entry.permissions),
    ("last_used_at".toList, .int entry.lastUsedAt), ("expires_at".toList, .int entry.expiresAt),
    ("created_at".toList, .int entry.createdAt)]

namespace ApiKeyBuffers

/-- The part of `database_list_api_keys` that copies a row into a record. -/
def fill (row : ApiKeyRow) (createdAt : ℤ) (rec : ApiKeyBuffers) : ApiKeyBuffers where
  id := columnInt row.id
  name := rec.name.strncpy 63 (by decide) row.name
  keyHash := rec.keyHash.strncpy 127 (by decide) row.keyHash
  keyPrefix := rec.keyPrefix.strncpy 7 (by decide) row.keyPrefix
  permissions := rec.permissions.strncpy 63 (by decide) row.permissions
  lastUsedAt := row.lastUsedAt.getD 0
  expiresAt := row.expiresAt.getD 0
  createdAt := createdAt

/-- What is read as the permissions, when some bytes are in memory behind them. -/
def permissionsText (rec : ApiKeyBuffers) (beyond : List Char) : CStr :=
  ofBytes (rec.permissions.bytes ++ beyond)

/-- What is read as the prefix. -/
def prefixText (rec : ApiKeyBuffers) (beyond : List Char) : CStr :=
  ofBytes (rec.keyPrefix.bytes ++ (rec.permissions.bytes ++ beyond))

/-- What is read as the name. -/
def nameText (rec : ApiKeyBuffers) (beyond : List Char) : CStr :=
  ofBytes (rec.name.bytes ++ (rec.keyHash.bytes ++ (rec.keyPrefix.bytes ++
    (rec.permissions.bytes ++ beyond))))

/-- The part of `api_keys_list` that makes an entry of a record. -/
def entry (rec : ApiKeyBuffers) (beyond : List Char) : ApiKeyEntry where
  id := rec.id
  name := rec.nameText beyond
  keyPrefix := rec.prefixText beyond
  permissions := rec.permissionsText beyond
  lastUsedAt := rec.lastUsedAt
  expiresAt := rec.expiresAt
  createdAt := rec.createdAt

end ApiKeyBuffers

/-! ## The list -/

/-- What the surroundings of the listing answer: whether the statement can be prepared and the
memory be allocated, when the row with a number was created, in which order the rows are returned
(the last ones first, and in some order those of the same time), what the array holds before it is
written, and what is in memory behind the texts of each record. -/
structure KeyReads where
  listOk : Bool
  createdAt : ℤ → ℤ
  order : List ApiKeyRow → List ApiKeyRow
  perm : ∀ rows, (order rows).Perm rows
  sorted : ∀ rows, (order rows).Pairwise fun row row' => createdAt row'.id ≤ createdAt row.id
  heap : ℕ → ApiKeyBuffers
  beyond : ℕ → List Char

/-- `database_list_api_keys`. -/
def databaseListApiKeys (r : KeyReads) (db : Database) : Option (List ApiKeyBuffers) :=
  if r.listOk then
    some ((r.order db.apiKeys.rows).mapIdx fun i row => (r.heap i).fill row (r.createdAt row.id))
  else none

/-- The entries that `api_keys_list` makes of the records. -/
def keyEntries (r : KeyReads) (keys : List ApiKeyBuffers) : List ApiKeyEntry :=
  keys.mapIdx fun i rec => rec.entry (r.beyond i)

/-- `api_keys_list`. -/
def apiKeysList (libs : Libs) (r : KeyReads) (db : Database) : Response :=
  match databaseListApiKeys r db with
  | none => ⟨500, "\x7b\"error\":\"Database error\"\x7d"⟩
  | some keys =>
    ⟨200, String.ofList (libs.toText (.array ((keyEntries r keys).map ApiKeyEntry.json)))⟩

/-- An entry is made of the row in its place. -/
theorem getElem?_keyEntries {r : KeyReads} {db : Database} {list : List ApiKeyBuffers}
    (hlist : databaseListApiKeys r db = some list) (i : ℕ) :
    (keyEntries r list)[i]? = (r.order db.apiKeys.rows)[i]?.map fun row =>
      ((r.heap i).fill row (r.createdAt row.id)).entry (r.beyond i) := by
  rw [databaseListApiKeys, Option.ite_none_right_eq_some] at hlist
  cases hlist.2
  rw [keyEntries, List.getElem?_mapIdx, List.getElem?_mapIdx, Option.map_map]
  rfl

theorem length_keyEntries {r : KeyReads} {db : Database} {list : List ApiKeyBuffers}
    (hlist : databaseListApiKeys r db = some list) :
    (keyEntries r list).length = (r.order db.apiKeys.rows).length := by
  rw [databaseListApiKeys, Option.ite_none_right_eq_some] at hlist
  cases hlist.2
  rw [keyEntries, List.length_mapIdx, List.length_mapIdx]

/-! ## Entries and records -/

/-- An entry shows a record under its number: its texts, of the prefix the first seven bytes, its
expiry, zero for none, and when it was created. -/
structure ApiKeyEntry.Shows (entry : ApiKeyEntry) (createdAt : ℤ → ℤ) (n : ℤ) (key : ApiKeyRecord) :
    Prop where
  id : entry.id = columnInt n
  name : entry.name = key.name
  keyPrefix : entry.keyPrefix = strncpy 7 key.keyPrefix
  permissions : entry.permissions = key.permissions
  expiresAt : entry.expiresAt = max key.expiresAt 0
  createdAt : entry.createdAt = createdAt n

/-- The texts of a record are C strings, which are not cut when they are copied into their fields;
but the prefix is. -/
structure ApiKeyRecord.IsText (key : ApiKeyRecord) : Prop where
  name : '\x00' ∉ key.name
  keyHash : '\x00' ∉ key.keyHash
  keyPrefix : '\x00' ∉ key.keyPrefix
  permissions : '\x00' ∉ key.permissions
  length_name : key.name.length ≤ 63
  length_keyHash : key.keyHash.length < 127
  length_keyPrefix : 7 ≤ key.keyPrefix.length
  length_permissions : key.permissions.length ≤ 63

/-- A record in memory ends the texts of a key that fill their fields. -/
structure ApiKeyBuffers.EndsTexts (rec : ApiKeyBuffers) (key : ApiKeyRecord) : Prop where
  name : 63 ≤ key.name.length → rec.name.bytes[63]? = some '\x00'
  keyPrefix : rec.keyPrefix.bytes[7]? = some '\x00'
  permissions : 63 ≤ key.permissions.length → rec.permissions.bytes[63]? = some '\x00'

variable {key : ApiKeyRecord} {row : ApiKeyRow} {n : ℤ} {rec : ApiKeyBuffers}
  {createdAt : ℤ → ℤ} {beyond : List Char}

/-- **When an entry shows its key**: when the memory ends every text that fills its field. -/
theorem ApiKeyRecord.IsText.shows_iff (h : key.IsText) (hrow : row.unused = key.row n) :
    ((rec.fill row (createdAt row.id)).entry beyond).Shows createdAt n key ↔
      rec.EndsTexts key := by
  obtain ⟨id, name, keyHash, keyPrefix, permissions, lastUsedAt, expiresAt⟩ := row
  simp only [ApiKeyRow.unused, ApiKeyRecord.row, ApiKeyRow.mk.injEq] at hrow
  obtain ⟨rfl, rfl, rfl, rfl, rfl, -, rfl⟩ := hrow
  have hname := fun rest => Buffer.ofBytes_strncpy_eq_iff h.name rec.name rest
  have hfirst := fun rest => Buffer.ofBytes_strncpy_eq_iff h.keyPrefix rec.keyPrefix rest
  have hperms := fun rest => Buffer.ofBytes_strncpy_eq_iff h.permissions rec.permissions rest
  rw [strncpy, List.take_of_length_le h.length_name] at hname
  rw [strncpy, List.take_of_length_le h.length_permissions] at hperms
  constructor
  · intro hshows
    exact ⟨(hname _).1 hshows.name, (hfirst _).1 hshows.keyPrefix h.length_keyPrefix,
      (hperms _).1 hshows.permissions⟩
  · intro hends
    refine ⟨rfl, (hname _).2 hends.name, (hfirst _).2 fun _ => hends.keyPrefix,
      (hperms _).2 hends.permissions, ?_, rfl⟩
    change (if key.expiresAt > 0 then some key.expiresAt else none).getD 0 = max key.expiresAt 0
    split
    · rw [Option.getD_some]
      omega
    · rw [Option.getD_none]
      omega

/-- **A name that fills its field** goes on, after a byte that is not zero, with the digest of the
key. -/
theorem ApiKeyRecord.IsText.name_entry (h : key.IsText) (hrow : row.unused = key.row n)
    (hlen : key.name.length = 63) {c : Char} (hlast : rec.name.bytes[63]? = some c)
    (hc : c ≠ '\x00') (at' : ℤ) :
    ((rec.fill row at').entry beyond).name = key.name ++ c :: key.keyHash := by
  obtain ⟨id, name, keyHash, keyPrefix, permissions, lastUsedAt, expiresAt⟩ := row
  simp only [ApiKeyRow.unused, ApiKeyRecord.row, ApiKeyRow.mk.injEq] at hrow
  obtain ⟨rfl, rfl, rfl, rfl, rfl, -, rfl⟩ := hrow
  obtain ⟨hlt, hget⟩ := List.getElem?_eq_some_iff.1 hlast
  have hdrop : rec.name.bytes.drop 63 = [c] := by
    rw [List.drop_eq_getElem_cons hlt, hget,
      List.drop_eq_nil_of_le (Nat.le_of_eq rec.name.length_bytes)]
  rw [ApiKeyBuffers.entry, ApiKeyBuffers.nameText, ApiKeyBuffers.fill,
    Buffer.ofBytes_strncpy_of_le (by decide) (Nat.le_of_eq hlen.symm) h.name, strncpy,
    List.take_of_length_le h.length_name, hdrop, List.singleton_append, ofBytes,
    List.takeWhile_cons_of_pos (by simpa using hc), ← ofBytes,
    Buffer.ofBytes_strncpy (by decide) h.length_keyHash h.keyHash]

/-! ## The records that are created -/

/-- `json_object_get_string` gives C strings, and a digest is written as 64 characters. -/
structure Libs.GivesStrings (libs : Libs) : Prop where
  getString : ∀ text root name s, libs.parse text = some root →
    (root.get? name).bind (Json.getString libs.toText) = some s → '\x00' ∉ s
  sha256 : ∀ s, '\x00' ∉ libs.sha256 s
  length_sha256 : ∀ s, (libs.sha256 s).length = 64

/-- The texts of a body are C strings, and so is what stands for them. -/
theorem Libs.GivesStrings.keyText {libs : Libs} (hlibs : libs.GivesStrings) {text : CStr}
    {root : Json} {name : String} {default s : CStr} (hroot : libs.parse text = some root)
    (hdefault : '\x00' ∉ default) (h : keyText libs root name default = some s) : '\x00' ∉ s := by
  rw [Cyrenus.keyText] at h
  cases hmember : root.get? name with
  | none =>
    rw [hmember] at h
    cases h
    exact hdefault
  | some j =>
    rw [hmember] at h
    exact hlibs.getString text root name s hroot (by rw [hmember]; exact h)

/-- A key has no zero in it. -/
theorem zero_notMem_generateApiKey (rand : ℕ → ℕ) : '\x00' ∉ generateApiKey rand := by
  have hcharset : ∀ i, keyCharset.getD i 'a' ≠ '\x00' := by
    intro i
    rcases Nat.lt_or_ge i keyCharset.length with hi | hi
    · rw [List.getD_eq_getElem _ _ hi]
      have hall : keyCharset.all (· ≠ '\x00') = true := by decide
      exact of_decide_eq_true (List.all_eq_true.1 hall _ (List.getElem_mem hi))
    · rw [List.getD_eq_default _ _ hi]
      decide
  rw [generateApiKey, List.mem_append, not_or]
  refine ⟨by decide, fun hmem => ?_⟩
  obtain ⟨i, -, hi⟩ := List.mem_map.1 hmem
  exact hcharset _ hi

/-- The length of a key. -/
theorem length_generateApiKey (rand : ℕ → ℕ) : (generateApiKey rand).length = 63 := by
  rw [generateApiKey, List.length_append, List.length_map, List.length_range]
  rfl

/-- The texts of a new key. -/
theorem newKey_isText {libs : Libs} (hlibs : libs.GivesStrings) (a : Answers) (root : Json)
    {name perms : CStr} (hname : '\x00' ∉ name) (hperms : '\x00' ∉ perms) :
    (newKey libs a root name perms).IsText where
  name := fun hmem => hname (List.mem_of_mem_take hmem)
  keyHash := fun hmem => hlibs.sha256 _ (List.mem_of_mem_take hmem)
  keyPrefix := by
    rw [newKey, List.mem_append, not_or]
    exact ⟨fun hmem => zero_notMem_generateApiKey _ (List.mem_of_mem_take hmem),
      fun hmem => hperms (List.mem_of_mem_take hmem)⟩
  permissions := fun hmem => hperms (List.mem_of_mem_take hmem)
  length_name := List.length_take_le ..
  length_keyHash := by
    have hlen := List.length_take_le' 127 (hashApiKey libs (generateApiKey a.rand))
    rw [hashApiKey, hlibs.length_sha256] at hlen
    exact Nat.lt_of_le_of_lt hlen (by decide)
  length_keyPrefix := by
    rw [newKey, List.length_append, strncpy, List.length_take, length_generateApiKey]
    omega
  length_permissions := List.length_take_le ..

/-- Every record that is inserted has such texts. -/
theorem isText_of_keyOp {libs : Libs} (hlibs : libs.GivesStrings) {eo : Exchange × Outcome}
    (h : keyOp libs eo = some (.insert key)) : key.IsText := by
  obtain ⟨hd, -, hop⟩ := Option.bind_eq_some_iff.1 h
  unfold handlerKeyOp at hop
  split at hop
  · split at hop
    · obtain ⟨root', hcreated, hinsert⟩ := Option.map_eq_some_iff.1 hop
      cases hinsert
      obtain ⟨root, hroot, hcreated⟩ := Option.bind_eq_some_iff.1 hcreated
      obtain ⟨text, -, hparse⟩ := Option.bind_eq_some_iff.1 hroot
      simp only [createdKey, Option.bind_eq_bind, Option.bind_eq_some_iff] at hcreated
      obtain ⟨name, hname, perms, hperms, hnew⟩ := hcreated
      cases hnew
      exact newKey_isText hlibs _ _ (hlibs.keyText hparse (by decide) hname)
        (hlibs.keyText hparse (by decide) hperms)
    · cases hop
  · split at hop
    · obtain ⟨id, -, hdelete⟩ := Option.map_eq_some_iff.1 hop
      cases hdelete
    · cases hop
  · cases hop

/-- So does every key that is present after a run. -/
theorem isText_of_present {libs : Libs} (hlibs : libs.GivesStrings) {srv : Server}
    {es : List Exchange} (h : Present (keyOps libs srv es) n key) : key.IsText := by
  obtain ⟨pre, post, hops, -, -⟩ := h
  have hmem : Numbered.Op.insert key ∈ keyOps libs srv es := by
    rw [hops]
    exact List.mem_append_right _ (List.mem_cons_self ..)
  obtain ⟨eo, -, heo⟩ := List.mem_filterMap.1 hmem
  exact isText_of_keyOp hlibs heo

/-! ## The list after a run -/

/-- The entries list these numbered records, the last ones first: each once, and with its texts
where the memory ends them. A name that is not ended shows the digest of its key. -/
structure ListsKeys (r : KeyReads) (entries : List ApiKeyEntry) (keys : List (ℤ × ApiKeyRecord)) :
    Prop where
  length : entries.length = keys.length
  nodup : (keys.map Prod.fst).Nodup
  sorted : keys.Pairwise fun k k' => r.createdAt k'.1 ≤ r.createdAt k.1
  shows_iff : ∀ i entry n key, entries[i]? = some entry → keys[i]? = some (n, key) →
    (entry.Shows r.createdAt n key ↔ (r.heap i).EndsTexts key)
  digest : ∀ i entry n key c, entries[i]? = some entry → keys[i]? = some (n, key) →
    key.name.length = 63 → (r.heap i).name.bytes[63]? = some c → c ≠ '\x00' →
    entry.name = key.name ++ c :: key.keyHash

/-- The rows in the order in which they are returned are those of the records in some order. -/
theorem KeepsKeys.exists_ordered {t : ApiKeyTable} {m : Numbered.Rows ApiKeyRecord}
    (h : KeepsKeys t m) (r : KeyReads) :
    ∃ keys : List (ℤ × ApiKeyRecord), keys.Perm m.rows ∧
      List.Forall₂ (fun row k => row.unused = k.2.row k.1) (r.order t.rows) keys := by
  have hrows := h.rows
  rw [← List.forall₂_eq_eq_eq, List.forall₂_map_left_iff, List.forall₂_map_right_iff] at hrows
  obtain ⟨keys, hordered, hperm⟩ := List.perm_comp_forall₂ (r.perm t.rows) hrows
  exact ⟨keys, hperm, hordered⟩

/-- The list of a table that holds some records. -/
theorem KeepsKeys.listsKeys {db : Database} {m : Numbered.Rows ApiKeyRecord}
    (h : KeepsKeys db.apiKeys m) (htext : ∀ k ∈ m.rows, k.2.IsText) {r : KeyReads}
    {list : List ApiKeyBuffers} (hlist : databaseListApiKeys r db = some list) :
    ∃ keys, keys.Perm m.rows ∧ ListsKeys r (keyEntries r list) keys := by
  obtain ⟨keys, hperm, hordered⟩ := h.exists_ordered r
  have hids : (r.order db.apiKeys.rows).map ApiKeyRow.id = keys.map Prod.fst := by
    rw [← List.forall₂_eq_eq_eq, List.forall₂_map_left_iff, List.forall₂_map_right_iff]
    exact hordered.imp fun row k hrow => congrArg ApiKeyRow.id hrow
  -- The row that an entry is made of is that of its record, but for the note of its use.
  have hrows : ∀ {i entry n key}, (keyEntries r list)[i]? = some entry → keys[i]? = some (n, key) →
      ∃ row, key.IsText ∧ row.unused = key.row n ∧
        entry = ((r.heap i).fill row (r.createdAt row.id)).entry (r.beyond i) := by
    intro i entry n key hentry hkey
    rw [getElem?_keyEntries hlist, Option.map_eq_some_iff] at hentry
    obtain ⟨row, hrow, rfl⟩ := hentry
    obtain ⟨hi, rfl⟩ := List.getElem?_eq_some_iff.1 hrow
    obtain ⟨hi', hget⟩ := List.getElem?_eq_some_iff.1 hkey
    have hrel := hordered.get hi hi'
    rw [List.get_eq_getElem, List.get_eq_getElem, hget] at hrel
    exact ⟨_, htext _ (hperm.mem_iff.1 (List.mem_of_getElem? hkey)), hrel, rfl⟩
  refine ⟨keys, hperm, ?_, ?_, ?_, ?_, ?_⟩
  · rw [length_keyEntries hlist, hordered.length_eq]
  · rw [← hids]
    exact ((r.perm _).map _).nodup_iff.2 db.apiKeys.nodup
  · have hsorted := r.sorted db.apiKeys.rows
    rw [← List.pairwise_map (f := ApiKeyRow.id) (R := fun m n => r.createdAt n ≤ r.createdAt m),
      hids, List.pairwise_map] at hsorted
    exact hsorted
  · intro i entry n key hentry hkey
    obtain ⟨row, htext, hrow, rfl⟩ := hrows hentry hkey
    exact htext.shows_iff hrow
  · intro i entry n key c hentry hkey hlen hlast hc
    obtain ⟨row, htext, hrow, rfl⟩ := hrows hentry hkey
    exact htext.name_entry hrow hlen hlast hc _

/-- **The list of the keys.** A request for the list, after any run from a server without keys and
the check of its own credentials, is answered with one entry for each key that a request of the run
has created and none has deleted since, and no other entry, the last ones first; and an entry shows
its key exactly when the memory that it was copied into ends the texts that fill their fields. -/
theorem keysListed {libs : Libs} (hlibs : libs.GivesStrings) (srv : Server)
    (hnew : srv.db.apiKeys = .empty) (es : List Exchange) (a : Answers) (req : HttpRequest)
    (r : KeyReads) (hok : r.listOk = true) :
    let db := (authenticate libs a req (final (httpStep libs) srv es).db).2
    ∃ list keys, databaseListApiKeys r db = some list ∧
      apiKeysList libs r db =
        ⟨200, String.ofList (libs.toText (.array ((keyEntries r list).map ApiKeyEntry.json)))⟩ ∧
      (∀ n key, (n, key) ∈ keys ↔ Present (keyOps libs srv es) n key) ∧
      ListsKeys r (keyEntries r list) keys := by
  intro db
  have hkeeps : KeepsKeys db.apiKeys (Numbered.after (keyOps libs srv es)) :=
    (keepsKeys_run libs hnew es).authenticated a req
  obtain ⟨list, hlist⟩ : ∃ list, databaseListApiKeys r db = some list := ⟨_, if_pos hok⟩
  obtain ⟨keys, hperm, hlists⟩ := hkeeps.listsKeys
    (fun k hk => isText_of_present hlibs (Numbered.mem_after_iff.1 hk)) hlist
  exact ⟨list, keys, hlist, by rw [apiKeysList, hlist],
    fun n key => hperm.mem_iff.trans Numbered.mem_after_iff, hlists⟩

/-- Memory of one byte, again and again, in which a single key is listed. -/
def uniformReads (c : Char) : KeyReads where
  listOk := true
  createdAt _ := 1700000000
  order rows := rows
  perm rows := .refl rows
  sorted _ := List.pairwise_of_forall fun _ _ => Int.le_refl _
  heap _ := ⟨0, .filled 64 c, .filled 128 c, .filled 8 c, .filled 64 c, 0, 0, 0⟩
  beyond _ := []

theorem keyLibs_givesStrings (days : ℤ) : (keyLibs days).GivesStrings where
  getString text root name s hroot hs := by
    simp only [keyLibs, Option.ite_none_right_eq_some, Option.some.injEq] at hroot
    obtain ⟨-, rfl⟩ := hroot
    obtain ⟨j, hj, hs⟩ := Option.bind_eq_some_iff.1 hs
    simp only [keyRequest, Json.get?, Option.map_eq_some_iff] at hj
    obtain ⟨member, hmember, rfl⟩ := hj
    rw [List.mem_singleton.1 (List.mem_of_find?_eq_some hmember)] at hs
    cases hs
    exact List.not_mem_nil
  sha256 s := by
    simp only [keyLibs]
    split <;> decide
  length_sha256 := keyLibs_digest days

/-- The request for the list, with the token "t". -/
def listRequest : HttpRequest where
  url := "/api/v1/keys".toList
  method := "GET".toList
  authorization := some "t".toList
  apiKey := none
  chunks := []
  chunks_ne := noChunks_ne

/-- The key that a request has created is listed; what was in memory shows in its prefix. -/
theorem keysListed_year :
    let db := (authenticate (keyLibs 365) (.still 1700000000) listRequest
      (final (httpStep (keyLibs 365)) sessionServer [createsYearKey]).db).2
    let r := uniformReads 'x'
    (∃ list keys, databaseListApiKeys r db = some list ∧
      apiKeysList (keyLibs 365) r db = ⟨200, String.ofList ((keyLibs 365).toText
        (.array ((keyEntries r list).map ApiKeyEntry.json)))⟩ ∧
      (∀ n key, (n, key) ∈ keys ↔
        Present (keyOps (keyLibs 365) sessionServer [createsYearKey]) n key) ∧
      ListsKeys r (keyEntries r list) keys) ∧
    (databaseListApiKeys r db).map (keyEntries r) = some [⟨1, "API Key".toList,
      "cyr_k_axread,write".toList, "read,write".toList, 0, 1731536000, 1700000000⟩] :=
  ⟨keysListed (keyLibs_givesStrings 365) sessionServer rfl [createsYearKey] (.still 1700000000)
    listRequest (uniformReads 'x') rfl, by decide +kernel⟩

end Cyrenus
