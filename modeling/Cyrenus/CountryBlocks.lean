import Cyrenus.Http.Server
import Cyrenus.Lib.SetHistory
import Cyrenus.Xdp.Checks

/-!
# The block list of countries

What the requests on countries are for: a set of codes that one of them adds to and the other
removes from, and `check_geoip` drops the packets from the countries in it. Both handlers and the
program write a code as a word, the program as the number of its two bytes (`CountryCode.packed`),
the handlers as `CountryCode.key`, where a byte from 0x80 on is a negative character. That word is
the number of another code unless the second byte is below 0x80 or the first is 0xFF
(`CountryCode.key_eq`). The requests therefore block and unblock what they are asked to
exactly as long as all codes are of that kind (`checkGeoip_blocks_iff`).
-/

namespace Cyrenus

open SetChange Trace

/-! ## Codes -/

/-- The two bytes of a country code. -/
structure CountryCode where
  first : U8
  second : U8
  deriving DecidableEq, Repr

namespace CountryCode

/-- The code that a text is, if it has two bytes. -/
def ofText : CStr → Option CountryCode
  | [first, second] => some ⟨BitVec.ofNat 8 first.toNat, BitVec.ofNat 8 second.toNat⟩
  | _ => none

/-- The number of a code, under which the addresses of its country are listed. -/
def packed (code : CountryCode) : U16 :=
  BitVec.ofNat 16 (256 * code.first.toNat + code.second.toNat)

/-- The word that the handlers make of a code. -/
def key (code : CountryCode) : U16 :=
  code.first.signExtend 16 <<< 8 ||| code.second.signExtend 16

/-- The code whose number the handlers store for a code. -/
def stored (code : CountryCode) : CountryCode :=
  if code.second.msb then ⟨0xFF, code.second⟩ else code

theorem toNat_packed (code : CountryCode) :
    code.packed.toNat = 256 * code.first.toNat + code.second.toNat := by
  have hfirst := code.first.isLt
  have hsecond := code.second.isLt
  rw [packed, BitVec.toNat_ofNat, Nat.mod_eq_of_lt (by omega)]

theorem packed_injective : Function.Injective packed := by
  intro code code' h
  have hnat := congrArg BitVec.toNat h
  rw [toNat_packed, toNat_packed] at hnat
  have hsecond := code.second.isLt
  have hsecond' := code'.second.isLt
  obtain ⟨first, second⟩ := code
  obtain ⟨first', second'⟩ := code'
  rw [mk.injEq, ← BitVec.toNat_inj, ← BitVec.toNat_inj]
  simp only at hnat hsecond hsecond' ⊢
  omega

/-- The number of a code is that of its bytes in network order. -/
theorem packed_eq_be16 (code : CountryCode) : code.packed = be16 code.first code.second := by
  have hfirst := code.first.isLt
  have hsecond := code.second.isLt
  apply BitVec.eq_of_toNat_eq
  rw [toNat_packed, be16, BitVec.toNat_or, BitVec.toNat_shiftLeft, BitVec.toNat_setWidth,
    BitVec.toNat_setWidth, Nat.shiftLeft_eq, Nat.mod_eq_of_lt (show _ < 2 ^ 16 by omega),
    Nat.mod_eq_of_lt (show _ < 2 ^ 16 by omega), Nat.mod_eq_of_lt (show _ < 2 ^ 16 by omega),
    ← Nat.shiftLeft_eq, ← Nat.shiftLeft_add_eq_or_of_lt hsecond, Nat.shiftLeft_eq]
  omega

/-- The word that the handlers make of a code is the number of the code that is stored. -/
theorem key_eq (code : CountryCode) : code.key = code.stored.packed := by
  rw [packed_eq_be16]
  apply BitVec.eq_of_getLsbD_eq
  intro i hi
  simp only [key, be16, stored, BitVec.getLsbD_or, BitVec.getLsbD_shiftLeft,
    BitVec.getLsbD_signExtend, BitVec.getLsbD_setWidth]
  rcases Nat.lt_or_ge i 8 with h8 | h8
  · cases code.second.msb <;> simp [h8, hi]
  · have hsecond : BitVec.getLsbD code.second i = false := BitVec.getLsbD_of_ge _ _ h8
    have hlt : i - 8 < 8 := by omega
    -- The sign of the second byte covers the first.
    cases code.second.msb with
    | false => simp [hi, hlt, Nat.not_lt.2 h8, hsecond]
    | true =>
      have hones : BitVec.getLsbD (0xFF : U8) (i - 8) = true := by
        rw [show (0xFF : U8) = BitVec.allOnes 8 from rfl, BitVec.getLsbD_allOnes,
          decide_eq_true hlt]
      rw [if_pos rfl, hones]
      simp [hi, Nat.not_lt.2 h8, show i - 8 < 16 by omega]

/-- A code is stored as itself if its second byte is not negative, or its first is 0xFF. -/
theorem stored_eq_self_iff {code : CountryCode} :
    code.stored = code ↔ code.second < 0x80 ∨ code.first = 0xFF := by
  have hneg : code.second.msb = false ↔ code.second < 0x80 := by
    rw [BitVec.msb_eq_false_iff_two_mul_lt, BitVec.lt_def,
      show BitVec.toNat (0x80 : U8) = 128 from rfl]
    omega
  rw [← hneg, stored]
  cases code.second.msb with
  | false => simp
  | true =>
    obtain ⟨first, second⟩ := code
    simp [eq_comm]

end CountryCode

/-! ## The map of blocked countries -/

/-- The map blocks the countries of a set of codes and no others. -/
structure Blocks (blocked : Table U16 U8) (codes : Set CountryCode) : Prop where
  of_mem : ∀ code ∈ codes, blocked code.packed = some 1
  of_not_mem : ∀ code ∉ codes, blocked code.packed = none

namespace Blocks

variable {blocked : Table U16 U8} {codes : Set CountryCode}

theorem empty : Blocks Table.empty ∅ := ⟨nofun, fun _ _ => rfl⟩

/-- A code is in the map if it is in the set. -/
theorem mem_of_isSome (h : Blocks blocked codes) {code : CountryCode}
    (hsome : (blocked code.packed).isSome) : code ∈ codes := by
  by_contra hcode
  rw [h.of_not_mem code hcode] at hsome
  cases hsome

theorem set (h : Blocks blocked codes) (code : CountryCode) :
    Blocks (blocked.set code.packed 1) (insert code codes) where
  of_mem := by
    intro other hmem
    rcases eq_or_ne other code with rfl | hne
    · exact Table.set_same ..
    · rw [Table.set_other (CountryCode.packed_injective.ne hne)]
      exact h.of_mem other (Set.mem_of_mem_insert_of_ne hmem hne)
  of_not_mem := by
    intro other hmem
    rw [Set.mem_insert_iff, not_or] at hmem
    rw [Table.set_other (CountryCode.packed_injective.ne hmem.1)]
    exact h.of_not_mem other hmem.2

theorem erase (h : Blocks blocked codes) (code : CountryCode) :
    Blocks (blocked.erase code.packed) (codes \ {code}) where
  of_mem := by
    rintro other ⟨hmem, hne⟩
    rw [Table.erase_other (CountryCode.packed_injective.ne hne)]
    exact h.of_mem other hmem
  of_not_mem := by
    intro other hmem
    rcases eq_or_ne other code with rfl | hne
    · exact Table.erase_same ..
    · rw [Table.erase_other (CountryCode.packed_injective.ne hne)]
      exact h.of_not_mem other fun hother => hmem ⟨hother, hne⟩

end Blocks

/-- The maps with a list of the countries that addresses are in, and the map of blocked ones. -/
def UserMaps.withCountries (user : UserMaps) (country : U32 → Option CountryCode)
    (blocked : Table U16 U8) : UserMaps :=
  { user with
    geoipMap := fun srcIp => (country srcIp).map CountryCode.packed
    blockedCountries := blocked }

/-- The packets that `check_geoip` drops are those from the countries of the set. -/
theorem Blocks.checkGeoip_drop_iff {blocked : Table U16 U8} {codes : Set CountryCode}
    (h : Blocks blocked codes) {user : UserMaps} {country : U32 → Option CountryCode} {srcIp : U32}
    {st : Maps} :
    (checkGeoip (user.withCountries country blocked) srcIp st).1 = .drop ↔
      ∃ code, country srcIp = some code ∧ code ∈ codes := by
  simp only [checkGeoip, UserMaps.withCountries]
  cases country srcIp with
  | none => simp
  | some code =>
    simp only [Option.map_some, Option.some.injEq, exists_eq_left']
    rcases Classical.em (code ∈ codes) with hcode | hcode
    · simp [h.of_mem code hcode, hcode]
    · simp [h.of_not_mem code hcode, hcode]

/-! ## Requests -/

/-- A request that changes the block list, with the answers of its surroundings. -/
inductive CountryRequest where
  | post (a : Answers) (data : Option CStr)
  | delete (a : Answers) (id : CStr)

/-- One request of a run. -/
def countryStep (libs : Libs) : CountryRequest → Table U16 U8 → Reply × Table U16 U8
  | .post a data => apiGeoipAddRule libs a data
  | .delete a id => apiGeoipDeleteRule a id

/-- The map of blocked countries after a run of requests. -/
def countryMap (libs : Libs) (requests : List CountryRequest) : Table U16 U8 :=
  final (countryStep libs) Table.empty requests

/-- The code that a body asks to block. -/
def postedCode (libs : Libs) (data : Option CStr) : Option CountryCode :=
  (((data.bind libs.parse).bind (Json.get? "country_code")).bind
    (Json.getString libs.toText)).bind CountryCode.ofText

/-- What a request asks for. -/
def CountryRequest.asked (libs : Libs) : CountryRequest → Option (SetChange CountryCode)
  | .post _ data => (postedCode libs data).map .add
  | .delete _ id => (CountryCode.ofText id).map .remove

/-- A request was answered with success. -/
def Reply.isOk : Reply → Bool
  | .queued r => r.status = 200
  | _ => false

/-- What an accepted request asked for. -/
def acceptedChange (libs : Libs) (io : CountryRequest × Reply) : Option (SetChange CountryCode) :=
  if io.2.isOk then io.1.asked libs else none

/-- What the accepted requests of a run asked for, in their order. -/
def countryChanges (libs : Libs) (requests : List CountryRequest) :
    List (SetChange CountryCode) :=
  (trace (countryStep libs) Table.empty requests).filterMap (acceptedChange libs)

/-- What a change does to the map. -/
def carryOut : SetChange CountryCode → Table U16 U8 → Table U16 U8
  | .add code, blocked => blocked.set code.key 1
  | .remove code, blocked => blocked.erase code.key

/-- What a request with a reply does to the map: accepted, it carries out what it asks for and
removes only what is there; otherwise it changes nothing. -/
def Honours (libs : Libs) (request : CountryRequest) (blocked : Table U16 U8)
    (result : Reply × Table U16 U8) : Prop :=
  (∃ change, acceptedChange libs (request, result.1) = some change ∧
    result.2 = carryOut change blocked ∧
    ∀ code, change = .remove code → (blocked code.key).isSome) ∨
  (acceptedChange libs (request, result.1) = none ∧ result.2 = blocked)

variable {libs : Libs} {request : CountryRequest} {blocked : Table U16 U8}

theorem Honours.refused {reply : Reply} (h : reply.isOk = false) :
    Honours libs request blocked (reply, blocked) := by
  refine .inr ⟨?_, rfl⟩
  simp [acceptedChange, h]

theorem Honours.accepted {reply : Reply} {change : SetChange CountryCode} (h : reply.isOk = true)
    (hasked : request.asked libs = some change)
    (hthere : ∀ code, change = .remove code → (blocked code.key).isSome) :
    Honours libs request blocked (reply, carryOut change blocked) := by
  refine .inl ⟨change, ?_, rfl, hthere⟩
  simp [acceptedChange, h, hasked]

/-- Blocking a code, when that is what the request asks for. -/
theorem honours_blockCountry {a : Answers} {code : CStr}
    (hasked : request.asked libs = (CountryCode.ofText code).map .add) :
    Honours libs request blocked (blockCountry a blocked code) := by
  unfold blockCountry
  split
  · split
    · exact .accepted rfl hasked nofun
    · exact .refused rfl
  · exact .refused rfl

theorem honours_post (a : Answers) (data : Option CStr) :
    Honours libs (.post a data) blocked (apiGeoipAddRule libs a data blocked) := by
  cases hdata : data with
  | none => exact .refused rfl
  | some text =>
    simp only [apiGeoipAddRule, withParsed]
    cases hroot : libs.parse text with
    | none => exact .refused rfl
    | some root =>
      simp only [geoipAddRule]
      cases hmember : root.get? "country_code" with
      | none => exact .refused rfl
      | some countryCode =>
        simp only
        cases hcode : countryCode.getString libs.toText with
        | none => exact .refused rfl
        | some code =>
          apply honours_blockCountry
          simp only [CountryRequest.asked, postedCode, Option.bind_some, hroot, hmember, hcode]

theorem honours_delete (a : Answers) (id : CStr) :
    Honours libs (.delete a id) blocked (apiGeoipDeleteRule a id blocked) := by
  unfold apiGeoipDeleteRule
  split
  · next first second =>
    simp only
    split
    · next hok =>
      have hasked : (CountryRequest.delete a [first, second]).asked libs =
          some (.remove ⟨BitVec.ofNat 8 first.toNat, BitVec.ofNat 8 second.toNat⟩) := rfl
      refine Honours.accepted rfl hasked fun code hcode => ?_
      cases hcode
      exact hok.2
    · exact .refused rfl
  · exact .refused rfl

theorem honours_countryStep (blocked : Table U16 U8) :
    Honours libs request blocked (countryStep libs request blocked) := by
  cases request with
  | post a data => exact honours_post a data
  | delete a id => exact honours_delete a id

/-! ## Runs -/

theorem countryMap_concat (libs : Libs) (requests : List CountryRequest)
    (request : CountryRequest) :
    countryMap libs (requests ++ [request]) =
      (countryStep libs request (countryMap libs requests)).2 := final_concat ..

theorem countryChanges_concat (libs : Libs) (requests : List CountryRequest)
    (request : CountryRequest) :
    countryChanges libs (requests ++ [request]) =
      countryChanges libs requests ++ (acceptedChange libs
        (request, (countryStep libs request (countryMap libs requests)).1)).toList := by
  rw [countryChanges, trace_concat, List.filterMap_append, ← countryMap, ← countryChanges]
  cases h : acceptedChange libs (request, (countryStep libs request (countryMap libs requests)).1)
    <;> simp [h]

/-- Carrying out a change blocks or unblocks the code that is stored. -/
theorem Blocks.carryOut {blocked : Table U16 U8} {changes : List (SetChange CountryCode)}
    (h : Blocks blocked (standing changes)) (change : SetChange CountryCode) :
    Blocks (carryOut change blocked)
      (standing (changes ++ [change.map CountryCode.stored])) := by
  cases change with
  | add code =>
    rw [SetChange.map, standing_concat_add, Cyrenus.carryOut, CountryCode.key_eq]
    exact h.set code.stored
  | remove code =>
    rw [SetChange.map, standing_concat_remove, Cyrenus.carryOut, CountryCode.key_eq]
    exact h.erase code.stored

/-- After a run, the map blocks what stands of the codes that have been stored, and only such codes
have been removed. -/
theorem blocks_countryMap (libs : Libs) (requests : List CountryRequest) :
    Blocks (countryMap libs requests)
        (standing ((countryChanges libs requests).map (SetChange.map CountryCode.stored))) ∧
      RemovesKept CountryCode.stored (countryChanges libs requests) := by
  induction requests using List.reverseRecOn with
  | nil =>
    refine ⟨?_, fun pre a hpre => ?_⟩
    · rw [show countryChanges libs [] = [] from rfl, List.map_nil, standing_nil]
      exact .empty
    · simp [countryChanges] at hpre
  | append_singleton requests request ih =>
    obtain ⟨hblocks, hkept⟩ := ih
    rw [countryMap_concat, countryChanges_concat]
    rcases honours_countryStep (countryMap libs requests) with
      ⟨change, hchange, hmap, hthere⟩ | ⟨hnone, hmap⟩
    · rw [hchange, hmap, Option.toList_some, List.map_append, List.map_singleton]
      refine ⟨hblocks.carryOut change, fun pre code hpre => ?_⟩
      rcases concat_prefix_concat.1 hpre with ⟨rfl, hremove⟩ | hpre
      · have hsome := hthere code hremove.symm
        rw [CountryCode.key_eq] at hsome
        exact hblocks.mem_of_isSome hsome
      · exact hkept pre code hpre
    · rw [hnone, hmap, Option.toList_none, List.append_nil]
      exact ⟨hblocks, hkept⟩

/-- `check_geoip` drops the packets from the countries that were posted and not deleted
afterwards. -/
def DropsStanding (blocked : Table U16 U8) (changes : List (SetChange CountryCode)) : Prop :=
  ∀ (user : UserMaps) (country : U32 → Option CountryCode) (srcIp : U32) (st : Maps),
    (checkGeoip (user.withCountries country blocked) srcIp st).1 = .drop ↔
      ∃ code, country srcIp = some code ∧ code ∈ standing changes

/-- That is so if the set the map blocks is the set that stands. -/
theorem Blocks.dropsStanding_iff {blocked : Table U16 U8} {codes : Set CountryCode}
    (h : Blocks blocked codes) {changes : List (SetChange CountryCode)} :
    DropsStanding blocked changes ↔ codes = standing changes := by
  constructor
  · intro hdrops
    ext code
    have hcode := hdrops .initial (fun _ => some code) 0 .initial
    rw [h.checkGeoip_drop_iff] at hcode
    simpa using hcode
  · rintro rfl user country srcIp st
    exact h.checkGeoip_drop_iff

/-- The accepted requests of the runs that a run starts with. -/
theorem countryChanges_prefix_iff {libs : Libs} {requests : List CountryRequest}
    {changes : List (SetChange CountryCode)} :
    changes <+: countryChanges libs requests ↔
      ∃ pre, pre <+: requests ∧ changes = countryChanges libs pre := by
  rw [countryChanges, List.prefix_filterMap_iff]
  constructor
  · rintro ⟨tr, htr, rfl⟩
    obtain ⟨pre, hpre, rfl⟩ := prefix_trace_iff.1 htr
    exact ⟨pre, hpre, rfl⟩
  · rintro ⟨pre, hpre, rfl⟩
    exact ⟨_, prefix_trace_iff.2 ⟨pre, hpre, rfl⟩, rfl⟩

/-- **The block list.** `check_geoip` drops the packets of the countries that were posted and not
deleted afterwards, after all stages of a run of requests, exactly if each accepted request is on a
code whose second byte is below 0x80 or whose first is 0xFF. -/
theorem checkGeoip_blocks_iff (libs : Libs) (requests : List CountryRequest) :
    (∀ pre, pre <+: requests → DropsStanding (countryMap libs pre) (countryChanges libs pre)) ↔
      ∀ change ∈ countryChanges libs requests,
        change.elem.second < 0x80 ∨ change.elem.first = 0xFF := by
  have hrun pre : DropsStanding (countryMap libs pre) (countryChanges libs pre) ↔
      standing ((countryChanges libs pre).map (SetChange.map CountryCode.stored)) =
        standing (countryChanges libs pre) := (blocks_countryMap libs pre).1.dropsStanding_iff
  calc (∀ pre, pre <+: requests → DropsStanding (countryMap libs pre) (countryChanges libs pre))
    _ ↔ ∀ changes, changes <+: countryChanges libs requests →
          standing (changes.map (SetChange.map CountryCode.stored)) = standing changes := by
      simp only [hrun, countryChanges_prefix_iff]
      constructor
      · rintro h _ ⟨pre, hpre, rfl⟩
        exact h pre hpre
      · exact fun h pre hpre => h _ ⟨pre, hpre, rfl⟩
    _ ↔ OwnNames CountryCode.stored (countryChanges libs requests) :=
      standing_map_eq_iff (blocks_countryMap libs requests).2
    _ ↔ _ := by simp only [OwnNames, CountryCode.stored_eq_self_iff]

/-- The body of a request to block a code that is one letter of two bytes. -/
def letterBody : CStr := "\x7b\"country_code\":\"".toList ++ ['\xc3', '\xa9'] ++ "\"\x7d".toList

/-- The libraries, where they are asked for that body. -/
def letterLibs : Libs where
  parse := fun text =>
    if text = letterBody then
      some (.object [("country_code".toList, .string ['\xc3', '\xa9'])])
    else none
  toText := fun _ => []
  sha256 := fun _ => []

/-- The request to block this code is accepted, and its packets pass. -/
theorem letter_code_passes :
    countryChanges letterLibs [.post (.still 1700000000) (some letterBody)] =
        [.add ⟨0xC3, 0xA9⟩] ∧
      ¬ DropsStanding (countryMap letterLibs [.post (.still 1700000000) (some letterBody)])
        (countryChanges letterLibs [.post (.still 1700000000) (some letterBody)]) := by
  have hchanges : countryChanges letterLibs [.post (.still 1700000000) (some letterBody)] =
      [.add ⟨0xC3, 0xA9⟩] := by decide +kernel
  refine ⟨hchanges, fun hdrops => ?_⟩
  have hpass : (checkGeoip (UserMaps.initial.withCountries (fun _ => some ⟨0xC3, 0xA9⟩)
      (countryMap letterLibs [.post (.still 1700000000) (some letterBody)])) 0 .initial).1 ≠
        .drop := by decide +kernel
  refine hpass ((hdrops .initial (fun _ => some ⟨0xC3, 0xA9⟩) 0 .initial).2 ⟨_, rfl, ?_⟩)
  rw [hchanges]
  exact ⟨[], [], rfl, List.not_mem_nil⟩

end Cyrenus
