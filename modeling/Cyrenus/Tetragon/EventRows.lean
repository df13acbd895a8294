import Cyrenus.Tetragon.Events

/-!
# The rows of the events

`tetragon_store_event` hands the fields of an event to `db_insert_security_event`, which binds them
to the columns of a row. `tetragonStoreEvent_storedFrom` says what every column then holds. Both
addresses are formatted into one buffer, so they are those of the event only when that makes no
difference (`storedAddresses_iff`).
-/

namespace Cyrenus

/-- The dotted form of an address, none when it is zero. -/
def dottedQuad (ip : U32) : Option CStr := if ip = 0 then none else some (inetNtop ip)

/-- **The addresses are those of the event** when one is missing or both are the same, and not
otherwise, in whichever order they are formatted. -/
theorem storedAddresses_iff (srcLast : Bool) (srcIp dstIp : U32) :
    storedAddresses srcLast srcIp dstIp = (dottedQuad srcIp, dottedQuad dstIp) ↔
      srcIp = 0 ∨ dstIp = 0 ∨ srcIp = dstIp := by
  rw [storedAddresses, dottedQuad, dottedQuad]
  by_cases hsrc : srcIp = 0
  · by_cases hdst : dstIp = 0
    · simp [hsrc, hdst]
    · simp only [hsrc, hdst, if_true, if_false, ne_eq, not_true_eq_false, and_false, or_self,
        true_or]
  · by_cases hdst : dstIp = 0
    · simp [hdst]
    · simp only [hsrc, hdst, if_false, false_or, ne_eq, not_false_eq_true, and_true, Prod.mk.injEq,
        Option.some.injEq, inetNtop_injective.eq_iff]
      cases srcLast <;> simp [eq_comm]

/-- A row holds the fields of an event: numbers as signed ones of the same size, texts as they are,
"unknown" for a process without a name, and null for a port, a file or an operation that the event
does not have. -/
structure StoredFrom (event : SecurityEvent) (row : SecurityEventRow) : Prop where
  timestamp : row.timestamp = event.timestamp.toInt
  eventType : row.eventType = event.eventType
  severity : row.severity = event.severity.toNat
  processName : row.processName =
    some (if event.processName = [] then "unknown".toList else event.processName)
  pid : row.pid = event.pid.toInt
  ppid : row.ppid = event.ppid.toInt
  uid : row.uid = event.uid.toInt
  command : row.command = some event.command
  binaryPath : row.binaryPath = some event.binaryPath
  parentBinary : row.parentBinary = some event.parentBinary
  action : row.action = some event.action
  policyName : row.policyName = some event.policyName
  addresses : event.srcIp = 0 ∨ event.dstIp = 0 ∨ event.srcIp = event.dstIp →
    row.srcIp = dottedQuad event.srcIp ∧ row.dstIp = dottedQuad event.dstIp
  dstPort : row.dstPort = if event.dstPort = 0 then none else some (event.dstPort.toNat : ℤ)
  filePath : row.filePath = nonempty event.filePath
  fileOperation : row.fileOperation = nonempty event.fileOperation
  metadata : row.metadata = event.metadataJson

/-- A small number of more bits is not negative. -/
theorem toInt_setWidth_of_lt {n m : ℕ} (hlt : n < m) (w : BitVec n) :
    (w.setWidth m).toInt = w.toNat := by
  have hw : w.toNat < 2 ^ n := w.isLt
  have hpow : 2 * 2 ^ n ≤ 2 ^ m := by
    rw [← Nat.pow_succ']
    exact Nat.pow_le_pow_right (by decide) hlt
  rw [BitVec.toInt_eq_toNat_of_lt, BitVec.toNat_setWidth_of_le (Nat.le_of_lt hlt)]
  rw [BitVec.toNat_setWidth_of_le (Nat.le_of_lt hlt)]
  omega

/-- What is inserted for an event. -/
theorem storedArgs_row (srcLast : Bool) (event : SecurityEvent) (id createdAt : ℤ) :
    StoredFrom event ((storedArgs srcLast event).row id createdAt) := by
  have hport : (event.dstPort.setWidth 32).toInt = event.dstPort.toNat :=
    toInt_setWidth_of_lt (by decide) _
  refine ⟨rfl, rfl, toInt_setWidth_of_lt (by decide) _, rfl, rfl, rfl, rfl, rfl, rfl, rfl, rfl, rfl,
    fun haddr => ?_, ?_, rfl, rfl, rfl⟩
  · have hstored := (storedAddresses_iff srcLast _ _).2 haddr
    exact ⟨congrArg Prod.fst hstored, congrArg Prod.snd hstored⟩
  · simp only [SecurityEventArgs.row, storedArgs, hport]
    by_cases hzero : event.dstPort = 0
    · simp [hzero]
    · have hpos : event.dstPort.toNat ≠ 0 := fun h => hzero (BitVec.eq_of_toNat_eq h)
      rw [if_pos (by omega), if_neg hzero]

/-- **What is stored of an event**: a row is added that holds its fields. -/
theorem tetragonStoreEvent_storedFrom {a : LineAnswers} (hinsert : a.insertOk = true)
    (event : SecurityEvent) (t : SecurityEventTable) :
    ∃ row, (tetragonStoreEvent a event t).rows = t.rows ++ [row] ∧ StoredFrom event row := by
  rw [tetragonStoreEvent, dbInsertSecurityEvent, if_pos hinsert]
  exact ⟨_, rfl, storedArgs_row _ _ _ _⟩

/-- The event of a process that has no name and no address. -/
def execEvent : SecurityEvent :=
  { SecurityEvent.zero with eventType := EVENT_TYPE_PROCESS_EXEC, binaryPath := "/bin/ls".toList }

/-- The insert into an empty table succeeds: the one row has the path `/bin/ls`, the name `unknown`,
and null for the addresses, the port and the file. -/
theorem tetragonStoreEvent_storedFrom_exec :
    ∃ row, (tetragonStoreEvent ⟨1700000000, true, 1700000000, true⟩ execEvent ⟨[], 0⟩).rows =
      [] ++ [row] ∧ StoredFrom execEvent row :=
  tetragonStoreEvent_storedFrom (a := ⟨1700000000, true, 1700000000, true⟩) rfl execEvent ⟨[], 0⟩

/-- Four of its columns are not what stands in its fields. -/
theorem not_stored_exec :
    ∃ row, (tetragonStoreEvent ⟨1700000000, true, 1700000000, true⟩ execEvent ⟨[], 0⟩).rows =
      [row] ∧ row.processName ≠ some execEvent.processName ∧
      row.dstPort ≠ some (execEvent.dstPort.toNat : ℤ) ∧ row.filePath ≠ some execEvent.filePath ∧
      row.fileOperation ≠ some execEvent.fileOperation :=
  ⟨_, rfl, by decide, by decide, by decide, by decide⟩

end Cyrenus
