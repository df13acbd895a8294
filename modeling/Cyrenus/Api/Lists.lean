import Cyrenus.Api.Context

/-!
# The country and address list requests

`api_geoip_add_rule` and `api_geoip_delete_rule` block and unblock a country in the map of blocked
countries. The requests on the address lists, `api_iplists_add` and `api_iplists_delete`, answer
without storing anything.
-/

namespace Cyrenus

/-! ## Countries -/

/-- The key of a country code: its two characters, which are signed bytes. -/
def countryKey (first second : Char) : U16 :=
  (BitVec.ofNat 8 first.toNat).signExtend 16 <<< 8 ||| (BitVec.ofNat 8 second.toNat).signExtend 16

/-- Block the country with a code. -/
def blockCountry (a : Answers) (blocked : Table U16 U8) : CStr → Reply × Table U16 U8
  | [first, second] =>
    if a.mapUpdateOk then
      (.text 200 "\x7b\"status\":\"blocked\"\x7d", blocked.set (countryKey first second) 1)
    else (.text 500 "\x7b\"error\":\"Failed to update BPF map\"\x7d", blocked)
  | _ => (.text 400 "\x7b\"error\":\"Invalid country code\"\x7d", blocked)

/-- `api_geoip_add_rule`, on the value that the body was parsed to. -/
def geoipAddRule (libs : Libs) (a : Answers) (blocked : Table U16 U8) :
    Body → Reply × Table U16 U8
  | none => (.text 400 "\x7b\"error\":\"Invalid JSON\"\x7d", blocked)
  | some root =>
    match root.get? "country_code" with
    | none => (.text 400 "\x7b\"error\":\"Missing country_code\"\x7d", blocked)
    | some countryCode =>
      match countryCode.getString libs.toText with
      | none => (.nullRead, blocked)
      | some code => blockCountry a blocked code

/-- `api_geoip_add_rule`. -/
def apiGeoipAddRule (libs : Libs) (a : Answers) (data : Option CStr) (blocked : Table U16 U8) :
    Reply × Table U16 U8 :=
  withParsed libs data blocked (geoipAddRule libs a blocked)

/-- `api_geoip_delete_rule`. A key that is not in the map cannot be deleted. -/
def apiGeoipDeleteRule (a : Answers) (idStr : CStr) (blocked : Table U16 U8) :
    Reply × Table U16 U8 :=
  match idStr with
  | [first, second] =>
    let key := countryKey first second
    if a.mapDeleteOk ∧ (blocked key).isSome then
      (.text 200 "\x7b\"status\":\"unblocked\"\x7d", blocked.erase key)
    else (.text 404 "\x7b\"error\":\"Rule not found\"\x7d", blocked)
  | _ => (.text 400 "\x7b\"error\":\"Invalid ID\"\x7d", blocked)

theorem blockCountry_ne_nullRead (a : Answers) (blocked : Table U16 U8) (code : CStr) :
    (blockCountry a blocked code).1 ≠ .nullRead := by
  unfold blockCountry
  split
  · split <;> nofun
  · nofun

theorem geoipAddRule_nullRead_iff {libs : Libs} {a : Answers} {blocked : Table U16 U8}
    {body : Body} :
    (geoipAddRule libs a blocked body).1 = .nullRead ↔
      ∃ root, body = some root ∧ root.get? "country_code" = some .null := by
  cases body with
  | none => simp [geoipAddRule, Reply.text]
  | some root =>
    simp only [Option.some.injEq, exists_eq_left', geoipAddRule]
    cases root.get? "country_code" with
    | none => simp [Reply.text]
    | some j =>
      rw [Option.some.injEq, ← @Json.getString_eq_none libs.toText]
      cases hcode : j.getString libs.toText with
      | none => simp [hcode]
      | some code => simp [hcode, blockCountry_ne_nullRead]

/-! ## Address lists -/

/-- `api_iplists_add`. -/
def apiIplistsAdd (libs : Libs) (data : Option CStr) : Reply :=
  (withParsed libs data () fun
    | none => (.refused, ())
    | some _ => (.text 200 "\x7b\"status\":\"IP added to list\"\x7d", ())).1

/-- `api_iplists_delete`. -/
def apiIplistsDelete : Reply := .text 200 "\x7b\"status\":\"IP removed from list\"\x7d"

end Cyrenus
