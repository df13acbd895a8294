import Cyrenus.Http.Server
import Cyrenus.Lib.Buffer
import Cyrenus.Lib.Shell

/-!
# The deploy route

The name of the policy to deploy is the text before the first "/deploy" of the URL. The router finds
it in a copy of at most 255 bytes, in a buffer that holds whatever was on the stack, and
`api_security_policy_deploy` puts it between single quotes in a command for the shell.
`extractsName_iff` says for which names the copy is long enough, and `deployTokens_iff` which of
them the shell reads as they are meant.
-/

namespace Cyrenus

open CStr (strncpy ofBytes)

/-! ## The text before "/deploy" -/

/-- "/deploy" follows the text before it. -/
theorem eq_append_of_beforeDeploy {s t : CStr} (h : beforeDeploy s = some t) :
    ∃ rest, s = t ++ "/deploy".toList ++ rest := by
  induction s generalizing t with
  | nil => cases h
  | cons c s ih =>
    rw [beforeDeploy] at h
    split at h
    · rename_i hpre
      obtain ⟨rest, hrest⟩ := List.isPrefixOf_iff_prefix.1 hpre
      cases h
      exact ⟨rest, hrest.symm⟩
    · obtain ⟨t', ht', rfl⟩ := Option.map_eq_some_iff.1 h
      obtain ⟨rest, rfl⟩ := ih ht'
      exact ⟨rest, rfl⟩

/-- What follows a text of which a part is long enough does not matter. -/
theorem isPrefixOf_append_congr {p s : CStr} (h : p.length ≤ s.length) (rest : CStr) :
    p.isPrefixOf (s ++ rest) = p.isPrefixOf s := by
  rw [Bool.eq_iff_iff, List.isPrefixOf_iff_prefix, List.isPrefixOf_iff_prefix]
  exact ⟨fun hp => List.prefix_of_prefix_length_le hp (List.prefix_append ..) h,
    fun hp => hp.trans (List.prefix_append ..)⟩

/-- **What follows the first "/deploy"** has no part in where it is found. -/
theorem beforeDeploy_congr {t rest : CStr}
    (h : beforeDeploy (t ++ "/deploy".toList ++ rest) = some t) (rest' : CStr) :
    beforeDeploy (t ++ "/deploy".toList ++ rest') = some t := by
  induction t with
  | nil => rfl
  | cons c t ih =>
    have hlen : "/deploy".toList.length ≤ (c :: (t ++ "/deploy".toList)).length := by simp
    simp only [List.cons_append, beforeDeploy] at h ⊢
    rw [← List.cons_append, isPrefixOf_append_congr hlen] at h ⊢
    split at h
    · cases h
    · rw [if_neg ‹_›]
      obtain ⟨t', ht', heq⟩ := Option.map_eq_some_iff.1 h
      cases heq
      rw [ih ht']
      rfl

/-- It is found at the same place in a longer text. -/
theorem beforeDeploy_append {s t : CStr} (h : beforeDeploy s = some t) (rest : CStr) :
    beforeDeploy (s ++ rest) = some t := by
  obtain ⟨r, rfl⟩ := eq_append_of_beforeDeploy h
  rw [List.append_assoc]
  exact beforeDeploy_congr h _

/-- **It is found in the start of a text** when that is long enough, and not otherwise. -/
theorem beforeDeploy_take {s t : CStr} (h : beforeDeploy s = some t) (n : ℕ) :
    beforeDeploy (s.take n) = if t.length + 7 ≤ n then some t else none := by
  split
  · rename_i hle
    obtain ⟨rest, rfl⟩ := eq_append_of_beforeDeploy h
    have hlen : (t ++ "/deploy".toList).length ≤ n := by
      rw [List.length_append]
      exact hle
    rw [List.take_append, List.take_of_length_le hlen]
    exact beforeDeploy_congr h _
  · rename_i hlt
    rw [Option.eq_none_iff_forall_ne_some]
    intro t' ht'
    have happ := beforeDeploy_append ht' (s.drop n)
    rw [List.take_append_drop, h] at happ
    cases happ
    obtain ⟨rest, hrest⟩ := eq_append_of_beforeDeploy ht'
    have hlen := congrArg List.length hrest
    simp only [List.length_append, List.length_take] at hlen
    have h7 : "/deploy".toList.length = 7 := rfl
    omega

/-! ## The copy -/

/-- The buffer `name` of `handle_request` after the copy, which leaves its last byte as it was. -/
def copiedName (policyName : CStr) (name : Buffer 256) : Buffer 256 :=
  name.strncpy 255 (Nat.le_succ 255) policyName

/-- The index that `handle_request` computes: that of "/deploy" in the string that starts with the
buffer and, when no byte of it is zero, goes on with what is in memory behind it. There is none when
`strstr` returns a null pointer. -/
def deployIndex (policyName : CStr) (name : Buffer 256) (beyond : List Char) : Option ℕ :=
  (beforeDeploy (ofBytes ((copiedName policyName name).bytes ++ beyond))).map List.length

/-- The name that the handler is called with: the string in the buffer when a zero has been written
at that index. There is none without an index, or when it lies outside of the buffer. -/
def extractedName (policyName : CStr) (name : Buffer 256) (beyond : List Char) : Option CStr :=
  (deployIndex policyName name beyond).bind fun i =>
    if i < 256 then some (ofBytes ((copiedName policyName name).bytes.set i '\x00')) else none

/-- **A name that is not too long** is extracted, whatever was on the stack. -/
theorem extractedName_of_le {policyName t : CStr} (hzero : '\x00' ∉ policyName)
    (h : beforeDeploy policyName = some t) (hle : t.length ≤ 248) (name : Buffer 256)
    (beyond : List Char) : extractedName policyName name beyond = some t := by
  obtain ⟨rest, hrest⟩ :=
    Buffer.bytes_strncpy (by decide : 255 ≤ 256) policyName name
  have hcopy : (copiedName policyName name).bytes = policyName.take 255 ++ rest := hrest
  have htake : beforeDeploy (policyName.take 255) = some t := by
    rw [beforeDeploy_take h, if_pos (by omega)]
  have hindex : deployIndex policyName name beyond = some t.length := by
    rw [deployIndex, hcopy, List.append_assoc,
      CStr.ofBytes_append (fun hmem => hzero (List.mem_of_mem_take hmem)),
      beforeDeploy_append htake, Option.map_some]
  obtain ⟨after, hafter⟩ := eq_append_of_beforeDeploy htake
  have ht : '\x00' ∉ t := by
    intro hmem
    refine hzero (List.mem_of_mem_take (i := 255) ?_)
    rw [hafter]
    simp [hmem]
  rw [extractedName, hindex, Option.bind_some, if_pos (by omega), hcopy, hafter, List.append_assoc,
    List.append_assoc, List.set_append_right _ _ (Nat.le_refl _), Nat.sub_self]
  exact congrArg some (CStr.ofBytes_append_zero ht _)

/-- **A longer name** is not found when the stack held zeros. -/
theorem deployIndex_of_lt {policyName t : CStr} (hzero : '\x00' ∉ policyName)
    (h : beforeDeploy policyName = some t) (hlt : 248 < t.length) :
    deployIndex policyName (.filled 256 '\x00') [] = none := by
  obtain ⟨after, hafter⟩ := eq_append_of_beforeDeploy h
  have hlen : 255 ≤ policyName.length := by
    rw [hafter, List.length_append, List.length_append]
    have h7 : "/deploy".toList.length = 7 := rfl
    omega
  have hbytes : (copiedName policyName (.filled 256 '\x00')).bytes =
      policyName.take 255 ++ '\x00' :: [] := by
    simp only [copiedName, Buffer.strncpy, Buffer.filled, Nat.sub_eq_zero_of_le hlen,
      List.replicate_zero, List.append_nil, List.drop_replicate]
    rfl
  rw [deployIndex, List.append_nil, hbytes,
    CStr.ofBytes_append_zero (fun hmem => hzero (List.mem_of_mem_take hmem)), beforeDeploy_take h,
    if_neg (by omega), Option.map_none]

/-! ## The route -/

/-- The routes below `/api/v1/security/policy/`. -/
theorem protectedRoute_policy (policyName method : CStr) :
    protectedRoute ("/api/v1/security/policy/".toList ++ policyName) method =
      policyRoute policyName method := rfl

/-- The name of a policy to deploy is extracted from a URL, whatever was on the stack, and the
handler is called with it. -/
structure ExtractsName (url t : CStr) : Prop where
  name : ∀ (name : Buffer 256) (beyond : List Char),
    extractedName (url.drop 24) name beyond = some t
  route : ∀ method, protectedRoute url method =
    if method = "POST".toList then .handler (.policyDeploy t) else .notFound

/-- **When the name is extracted** from a URL with "/deploy" behind `/api/v1/security/policy/`. -/
theorem extractsName_iff {url t : CStr} (hurl : startsWith url "/api/v1/security/policy/" = true)
    (hzero : '\x00' ∉ url) (ht : beforeDeploy (url.drop 24) = some t) :
    ExtractsName url t ↔ t.length ≤ 248 := by
  obtain ⟨policyName, rfl⟩ := eq_append_of_startsWith hurl
  have hdrop : ("/api/v1/security/policy/".toList ++ policyName).drop 24 = policyName := rfl
  have hname : '\x00' ∉ policyName := fun hmem => hzero (List.mem_append_right _ hmem)
  rw [hdrop] at ht
  constructor
  · intro h
    refine Nat.le_of_not_lt fun hlt => ?_
    have hsome := h.name (.filled 256 '\x00') []
    rw [hdrop, extractedName, deployIndex_of_lt hname ht hlt] at hsome
    cases hsome
  · intro hle
    refine ⟨extractedName_of_le hname ht hle, fun method => ?_⟩
    rw [protectedRoute_policy, policyRoute, ht, beforeDeploy_take ht, if_pos (by omega)]

/-- The name "ssh" is extracted. -/
theorem extractsName_ssh :
    ExtractsName "/api/v1/security/policy/ssh/deploy".toList "ssh".toList :=
  (extractsName_iff rfl (by decide) rfl).2 (by decide)

/-- A name of 249 characters is not. -/
theorem not_extractsName_long : ¬ ∀ url t : CStr,
    startsWith url "/api/v1/security/policy/" = true → '\x00' ∉ url →
      beforeDeploy (url.drop 24) = some t → ExtractsName url t := by
  intro h
  have hname : '\x00' ∉ List.replicate 249 'a' ++ "/deploy".toList := by decide +kernel
  have ht : beforeDeploy (List.replicate 249 'a' ++ "/deploy".toList) =
      some (List.replicate 249 'a') := by decide +kernel
  have hsome : extractedName (List.replicate 249 'a' ++ "/deploy".toList) (.filled 256 '\x00') [] =
      some (List.replicate 249 'a') :=
    (h ("/api/v1/security/policy/".toList ++ (List.replicate 249 'a' ++ "/deploy".toList)) _ rfl
      (by decide +kernel) ht).name _ _
  have hlt : 248 < (List.replicate 249 'a').length := by
    rw [List.length_replicate]
    decide
  rw [extractedName, deployIndex_of_lt hname ht hlt] at hsome
  cases hsome

/-- The router of the model marks the names that are not found. -/
theorem policyRoute_eq_overrun_iff {policyName t : CStr} (hzero : '\x00' ∉ policyName)
    (ht : beforeDeploy policyName = some t) (method : CStr) :
    policyRoute policyName method = .overrun ↔
      ∃ (name : Buffer 256) (beyond : List Char), extractedName policyName name beyond = none := by
  rw [policyRoute, ht, beforeDeploy_take ht]
  by_cases hle : t.length ≤ 248
  · rw [if_pos (by omega)]
    refine iff_of_false (fun h => ?_) ?_
    · simp only at h
      split at h <;> cases h
    · rintro ⟨name, beyond, hnone⟩
      rw [extractedName_of_le hzero ht hle] at hnone
      cases hnone
  · rw [if_neg (by omega)]
    refine iff_of_true rfl ⟨.filled 256 '\x00', [], ?_⟩
    rw [extractedName, deployIndex_of_lt hzero ht (Nat.lt_of_not_le hle)]
    rfl

/-! ## The command -/

/-- What the command is meant to be for the shell. -/
def intendedTokens (policyName : CStr) : List Shell.Token :=
  [.word "sudo".toList, .word "cp".toList, .word (policyDir ++ policyName ++ ".yaml".toList),
    .word (deployedDir ++ policyName ++ ".yaml".toList), .andIf, .word "sudo".toList,
    .word "systemctl".toList, .word "restart".toList, .word "tetragon".toList]

/-- A name that is extracted fits into the buffer. -/
theorem length_of_extractedName {policyName t : CStr} {name : Buffer 256} {beyond : List Char}
    (h : extractedName policyName name beyond = some t) : t.length ≤ 255 := by
  obtain ⟨i, -, hi⟩ := Option.bind_eq_some_iff.1 h
  split at hi
  · rename_i hlt
    cases hi
    have hle : i < (copiedName policyName name).bytes.length := by rwa [Buffer.length_bytes]
    have hzero := CStr.length_ofBytes_le (List.getElem?_set_self hle (a := '\x00'))
    omega
  · cases hi

/-- Nothing of the command is cut off for such a name. -/
theorem deployCommand_eq {policyName : CStr} (hlen : policyName.length ≤ 255) :
    deployCommand policyName = "sudo cp '".toList ++ (policyDir ++ policyName ++ ".yaml".toList) ++
      "' '".toList ++ (deployedDir ++ policyName ++ ".yaml".toList) ++
      "' && sudo systemctl restart tetragon".toList := by
  have hdir : policyDir.length = 53 := by decide
  have hdeployed : deployedDir.length = 23 := by decide
  rw [deployCommand, policyPath, policyPath, strncpy, strncpy, strncpy,
    List.take_of_length_le (i := 511), List.take_of_length_le (i := 511), List.take_of_length_le]
  all_goals
    simp only [List.length_append, hdir, hdeployed]
    simp
    omega

/-- **A name without a quote** is read by the shell as it is meant. -/
theorem deployTokens_of_notMem {policyName : CStr} (hlen : policyName.length ≤ 255)
    (hquote : '\'' ∉ policyName) :
    Shell.tokens (deployCommand policyName) = some (intendedTokens policyName) := by
  have hsrc : '\'' ∉ policyDir ++ policyName ++ ".yaml".toList := by
    simp only [List.mem_append, hquote, or_false]
    decide
  have hdst : '\'' ∉ deployedDir ++ policyName ++ ".yaml".toList := by
    simp only [List.mem_append, hquote, or_false]
    decide
  have hcp : Shell.run ([], .plain none) "sudo cp '".toList =
      some ([.word "sudo".toList, .word "cp".toList], .quoted []) := rfl
  rw [deployCommand_eq hlen, Shell.tokens, Shell.run_append, Shell.run_append, Shell.run_append,
    Shell.run_append, hcp, Option.bind_some, Shell.run_quoted hsrc, Option.bind_some,
    List.nil_append]
  have hnext (src : CStr) : Shell.run ([.word "sudo".toList, .word "cp".toList], .quoted src)
      "' '".toList = some ([.word "sudo".toList, .word "cp".toList, .word src], .quoted []) := rfl
  rw [hnext, Option.bind_some, Shell.run_quoted hdst, Option.bind_some, List.nil_append]
  rfl

/-- **When the command is read as it is meant**: when the name, extracted from a URL whatever was on
the stack, has no quote in it. -/
theorem deployTokens_iff {url policyName : CStr} {name : Buffer 256} {beyond : List Char}
    (hname : extractedName (url.drop 24) name beyond = some policyName) :
    Shell.tokens (deployCommand policyName) = some (intendedTokens policyName) ↔
      '\'' ∉ policyName := by
  constructor
  · intro htokens hmem
    refine Shell.unquoted_of_tokens htokens (.word (policyDir ++ policyName ++ ".yaml".toList))
      ?_ ?_
    · simp [intendedTokens]
    · simp [hmem]
  · exact deployTokens_of_notMem (length_of_extractedName hname)

/-- The command for the policy "ssh". -/
theorem deployTokens_ssh : Shell.tokens (deployCommand "ssh".toList) =
    some (intendedTokens "ssh".toList) :=
  have hname : extractedName ("/api/v1/security/policy/ssh/deploy".toList.drop 24)
      (.filled 256 '\x00') [] = some "ssh".toList := by decide +kernel
  (deployTokens_iff hname).2 (by decide)

/-- A name with quotes in it makes the shell run another command. -/
theorem deployTokens_reboot :
    extractedName ("/api/v1/security/policy/x'&&reboot&&'/deploy".toList.drop 24)
        (.filled 256 '\x00') [] = some "x'&&reboot&&'".toList ∧
      Shell.tokens (deployCommand "x'&&reboot&&'".toList) =
        some [.word "sudo".toList, .word "cp".toList, .word (policyDir ++ "x".toList), .andIf,
          .word "reboot".toList, .andIf, .word ".yaml".toList,
          .word (deployedDir ++ "x".toList), .andIf, .word "reboot".toList, .andIf,
          .word ".yaml".toList, .andIf, .word "sudo".toList, .word "systemctl".toList,
          .word "restart".toList, .word "tetragon".toList] ∧
      Shell.tokens (deployCommand "x'&&reboot&&'".toList) ≠
        some (intendedTokens "x'&&reboot&&'".toList) := by
  decide +kernel

end Cyrenus
