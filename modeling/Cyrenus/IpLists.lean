import Cyrenus.Address
import Cyrenus.Lib.Trace

/-!
# Lists of addresses

The table `ip_lists` and the two statements that `database.c` runs on it. An entry is for an address
with a prefix length, and has an expiry or none; an address is listed when an entry of the list
covers it and is in force (`Listed`). The query asks for less: it looks for the very address, and an
entry without expiry is stored as one that expires at 0, though the query would find a NULL.
`databaseCheckIpInList_exact_iff` says when it still finds what is listed, and `ipList_exact_iff`
when it does so for all addresses at all times.
-/

namespace Cyrenus

open Trace

/-! ## The table -/

/-- `struct ip_list_record`, as far as `database_insert_ip_list` stores it. An expiry of 0 stands for
none. -/
structure IpListRecord where
  ipAddress : CStr
  cidrRange : U8
  listType : CStr
  reason : CStr
  expiresAt : ℤ
  deriving DecidableEq, Repr

/-- A row of `ip_lists`. -/
structure IpListRow where
  ipAddress : CStr
  cidrRange : ℤ
  listType : CStr
  reason : CStr
  expiresAt : Option ℤ
  deriving DecidableEq, Repr

/-- The row that a record is stored as. -/
def IpListRecord.row (entry : IpListRecord) : IpListRow where
  ipAddress := entry.ipAddress
  cidrRange := entry.cidrRange.toNat
  listType := entry.listType
  reason := entry.reason
  expiresAt := some entry.expiresAt

/-- The lists that the schema allows. -/
def isListType (listType : CStr) : Bool :=
  listType = "whitelist".toList || listType = "blacklist".toList

/-- `database_insert_ip_list`: whether the row was inserted, and the table after it. -/
def databaseInsertIpList (insertOk : Bool) (entry : IpListRecord) (rows : List IpListRow) :
    Bool × List IpListRow :=
  if insertOk ∧ isListType entry.listType then (true, rows ++ [entry.row]) else (false, rows)

/-- A row satisfies the condition of `database_check_ip_in_list`. -/
def IpListRow.isFound (row : IpListRow) (now : ℤ) (ip listType : CStr) : Bool :=
  row.ipAddress = ip && row.listType = listType && match row.expiresAt with
    | none => true
    | some expiresAt => expiresAt > now

/-- `database_check_ip_in_list`: what it stores in `found`. -/
def databaseCheckIpInList (now : ℤ) (ip listType : CStr) (rows : List IpListRow) : Bool :=
  rows.any fun row => row.isFound now ip listType

/-- A record is found under its own address until it expires. -/
theorem IpListRecord.isFound_row_iff {entry : IpListRecord} {now : ℤ} {ip listType : CStr} :
    entry.row.isFound now ip listType = true ↔
      entry.listType = listType ∧ entry.ipAddress = ip ∧ now < entry.expiresAt := by
  rw [IpListRow.isFound, Bool.and_eq_true, Bool.and_eq_true, decide_eq_true_eq, decide_eq_true_eq]
  simp only [row, decide_eq_true_eq, gt_iff_lt]
  constructor
  · rintro ⟨⟨hip, htype⟩, hexpires⟩
    exact ⟨htype, hip, hexpires⟩
  · rintro ⟨htype, hip, hexpires⟩
    exact ⟨⟨hip, htype⟩, hexpires⟩

/-! ## Runs -/

/-- A call of `database_insert_ip_list`, and whether the database carries it out. -/
structure IpListInsert where
  entry : IpListRecord
  insertOk : Bool

/-- One call of a run. -/
def ipListStep (call : IpListInsert) : List IpListRow → Bool × List IpListRow :=
  databaseInsertIpList call.insertOk call.entry

/-- The table after a run of calls. -/
def ipLists (calls : List IpListInsert) : List IpListRow := final ipListStep [] calls

/-- The entries of the calls that succeeded, in their order. -/
def insertedEntries (calls : List IpListInsert) : List IpListRecord :=
  ((trace ipListStep [] calls).filter (·.2)).map (·.1.entry)

/-- The rows are those of the entries that have been inserted. -/
theorem ipLists_eq (calls : List IpListInsert) :
    ipLists calls = (insertedEntries calls).map IpListRecord.row := by
  induction calls using List.reverseRecOn with
  | nil => rfl
  | append_singleton calls call ih =>
    rw [ipLists] at ih ⊢
    rw [insertedEntries, trace_concat, final_concat, List.filter_append, List.map_append,
      ← insertedEntries, List.map_append, ← ih]
    simp only [ipListStep, databaseInsertIpList]
    split <;> simp

/-- The query finds the entries of a list for the very address that expire later. -/
theorem databaseCheckIpInList_iff {calls : List IpListInsert} {ip listType : CStr} {now : ℤ} :
    databaseCheckIpInList now ip listType (ipLists calls) = true ↔
      ∃ entry ∈ insertedEntries calls,
        entry.listType = listType ∧ entry.ipAddress = ip ∧ now < entry.expiresAt := by
  simp only [databaseCheckIpInList, ipLists_eq, List.any_map, List.any_eq_true,
    Function.comp_apply, IpListRecord.isFound_row_iff]

/-! ## What a list is for -/

/-- An address as a number, its first byte the highest. -/
def Quad.value (q : Quad) : ℕ :=
  256 * (256 * (256 * q.a.toNat + q.b.toNat) + q.c.toNat) + q.d.toNat

/-- Two addresses have the same first bits; an address has no more than 32. -/
def Quad.SamePrefix (bits : ℕ) (q q' : Quad) : Prop :=
  q.value / 2 ^ (32 - bits) = q'.value / 2 ^ (32 - bits)

/-- An entry covers the addresses that start like its own, as far as its prefix goes. -/
def IpListRecord.Covers (entry : IpListRecord) (ip : Quad) : Prop :=
  ∃ base, inetPton entry.ipAddress = some base ∧ base.SamePrefix entry.cidrRange.toNat ip

/-- An entry is in force until it expires, and always if it does not. -/
def IpListRecord.InForce (entry : IpListRecord) (t : ℤ) : Prop :=
  entry.expiresAt = 0 ∨ t < entry.expiresAt

/-- An address is on a list at a time. -/
def Listed (entries : List IpListRecord) (ip : Quad) (listType : CStr) (t : ℤ) : Prop :=
  ∃ entry ∈ entries, entry.listType = listType ∧ entry.Covers ip ∧ entry.InForce t

/-- An entry covers its own address, however long its prefix is. -/
theorem IpListRecord.covers_self {entry : IpListRecord} {ip : Quad}
    (h : entry.ipAddress = ip.dotted) : entry.Covers ip :=
  ⟨ip, by rw [h, inetPton_dotted], rfl⟩

/-- What the query finds is listed. -/
theorem listed_of_found {entries : List IpListRecord} {ip : Quad} {listType : CStr} {t : ℤ}
    (h : ∃ entry ∈ entries,
      entry.listType = listType ∧ entry.ipAddress = ip.dotted ∧ t < entry.expiresAt) :
    Listed entries ip listType t := by
  obtain ⟨entry, hmem, htype, hip, hexpires⟩ := h
  exact ⟨entry, hmem, htype, IpListRecord.covers_self hip, .inr hexpires⟩

/-- An entry that is in force for an address, though the query does not find it there: it has no
expiry, or it covers the address by its prefix only. -/
def IpListRecord.Overlooked (entry : IpListRecord) (ip : Quad) (t : ℤ) : Prop :=
  entry.Covers ip ∧ (entry.expiresAt = 0 ∨ (t < entry.expiresAt ∧ entry.ipAddress ≠ ip.dotted))

/-- **The address lists.** After any run of calls, the query finds an address on a list exactly if
it is on it, if and only if each entry of the list that the query overlooks there stands beside one
for the very address that expires later. -/
theorem databaseCheckIpInList_exact_iff (calls : List IpListInsert) (ip : Quad) (listType : CStr)
    (t : ℤ) :
    (databaseCheckIpInList t ip.dotted listType (ipLists calls) = true ↔
        Listed (insertedEntries calls) ip listType t) ↔
      ∀ entry ∈ insertedEntries calls, entry.listType = listType → entry.Overlooked ip t →
        ∃ other ∈ insertedEntries calls,
          other.listType = listType ∧ other.ipAddress = ip.dotted ∧ t < other.expiresAt := by
  rw [databaseCheckIpInList_iff]
  constructor
  · rintro hexact entry hmem htype ⟨hcovers, hkind⟩
    refine hexact.2 ⟨entry, hmem, htype, hcovers, ?_⟩
    exact hkind.imp_right And.left
  · intro hother
    refine ⟨listed_of_found, ?_⟩
    rintro ⟨entry, hmem, htype, hcovers, hzero | hlater⟩
    · exact hother entry hmem htype ⟨hcovers, .inl hzero⟩
    · rcases Classical.em (entry.ipAddress = ip.dotted) with hip | hip
      · exact ⟨entry, hmem, htype, hip, hlater⟩
      · exact hother entry hmem htype ⟨hcovers, .inr ⟨hlater, hip⟩⟩

/-- No entry of a history lasts longer than some time. -/
theorem exists_last_expiry (entries : List IpListRecord) :
    ∃ t, ∀ entry ∈ entries, entry.expiresAt ≤ t := by
  induction entries with
  | nil => exact ⟨0, nofun⟩
  | cons entry entries ih =>
    obtain ⟨t, ht⟩ := ih
    refine ⟨max entry.expiresAt t, List.forall_mem_cons.2 ⟨Int.le_max_left .., ?_⟩⟩
    exact fun other hmem => Int.le_trans (ht other hmem) (Int.le_max_right ..)

/-- A list is exact for all addresses at all times if its entries have an expiry, and each address
that one of them covers has an entry of its own that lasts as long. -/
theorem ipList_exact_iff (calls : List IpListInsert) (listType : CStr) :
    (∀ ip t, databaseCheckIpInList t (Quad.dotted ip) listType (ipLists calls) = true ↔
        Listed (insertedEntries calls) ip listType t) ↔
      ∀ entry ∈ insertedEntries calls, entry.listType = listType → ∀ ip, entry.Covers ip →
        entry.expiresAt ≠ 0 ∧ ∃ other ∈ insertedEntries calls,
          other.listType = listType ∧ other.ipAddress = ip.dotted ∧
            entry.expiresAt ≤ other.expiresAt := by
  simp only [databaseCheckIpInList_iff]
  constructor
  · intro hexact entry hmem htype ip hcovers
    constructor
    · -- An entry without expiry is in force when all others have expired.
      intro hzero
      obtain ⟨t, ht⟩ := exists_last_expiry (insertedEntries calls)
      obtain ⟨other, hother, -, -, hlater⟩ :=
        (hexact ip t).2 ⟨entry, hmem, htype, hcovers, .inl hzero⟩
      exact absurd (ht other hother) (Int.not_le.2 hlater)
    · have hbefore : entry.expiresAt - 1 < entry.expiresAt := by omega
      obtain ⟨other, hother, htype', hip, hlater⟩ :=
        (hexact ip (entry.expiresAt - 1)).2 ⟨entry, hmem, htype, hcovers, .inr hbefore⟩
      exact ⟨other, hother, htype', hip, by omega⟩
  · intro hentries ip t
    refine ⟨listed_of_found, ?_⟩
    rintro ⟨entry, hmem, htype, hcovers, hforce⟩
    obtain ⟨hne, other, hother, htype', hip, hle⟩ := hentries entry hmem htype ip hcovers
    have hlater : t < entry.expiresAt := hforce.resolve_left hne
    exact ⟨other, hother, htype', hip, Int.lt_of_lt_of_le hlater hle⟩

/-- An address that is blocked for good. -/
def blockedHost : IpListInsert :=
  ⟨⟨"10.0.0.1".toList, 32, "blacklist".toList, "scanner".toList, 0⟩, true⟩

/-- A network that is blocked until 1800000000. -/
def blockedNet : IpListInsert :=
  ⟨⟨"10.0.0.0".toList, 24, "blacklist".toList, "botnet".toList, 1800000000⟩, true⟩

/-- Neither the address nor one of the network is found at 1700000000. -/
theorem blocked_not_found :
    ¬ (databaseCheckIpInList 1700000000 (Quad.dotted ⟨10, 0, 0, 1⟩) "blacklist".toList
          (ipLists [blockedHost]) = true ↔
        Listed (insertedEntries [blockedHost]) ⟨10, 0, 0, 1⟩ "blacklist".toList 1700000000) ∧
      ¬ (databaseCheckIpInList 1700000000 (Quad.dotted ⟨10, 0, 0, 7⟩) "blacklist".toList
          (ipLists [blockedNet]) = true ↔
        Listed (insertedEntries [blockedNet]) ⟨10, 0, 0, 7⟩ "blacklist".toList 1700000000) := by
  have hhost : insertedEntries [blockedHost] = [blockedHost.entry] := by decide +kernel
  have hnet : insertedEntries [blockedNet] = [blockedNet.entry] := by decide +kernel
  constructor
  · intro hexact
    have hlisted : Listed [blockedHost.entry] ⟨10, 0, 0, 1⟩ "blacklist".toList 1700000000 :=
      ⟨_, List.mem_singleton_self _, rfl, ⟨⟨10, 0, 0, 1⟩, by decide +kernel, rfl⟩, .inl rfl⟩
    rw [hhost] at hexact
    exact absurd (hexact.2 hlisted) (by decide +kernel)
  · intro hexact
    have hlisted : Listed [blockedNet.entry] ⟨10, 0, 0, 7⟩ "blacklist".toList 1700000000 :=
      ⟨_, List.mem_singleton_self _, rfl, ⟨⟨10, 0, 0, 0⟩, by decide +kernel, rfl⟩,
        .inr (by decide)⟩
    rw [hnet] at hexact
    exact absurd (hexact.2 hlisted) (by decide +kernel)

end Cyrenus
