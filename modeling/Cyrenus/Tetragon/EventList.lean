import Cyrenus.Database
import Cyrenus.Lib.Buffer
import Cyrenus.Tetragon.EventRows

/-!
# The list of events

`database_list_security_events` allocates an array of records and copies the columns of each row
that the query selects into one of them. The array is not cleared: a column that is null is not
copied, and no copy writes the last byte of a field. `listingFaithful_iff` says when what is read
from the records is nevertheless what is in the table.
-/

namespace Cyrenus

/-! ## Columns and fields -/

/-- Copy a column into a field, if it is not null. -/
def copyColumn {size : ℕ} (column : Option CStr) (field : Buffer size) : Buffer size :=
  match column with
  | none => field
  | some s => field.strncpy (size - 1) (Nat.sub_le ..) s

/-- What a field of some size is to hold of a column: nothing when it is null. -/
def cutColumn (size : ℕ) (column : Option CStr) : CStr := CStr.strncpy (size - 1) (column.getD [])

/-- A column that is not null and leaves more than one byte of a field free. -/
def FitsField (size : ℕ) (column : Option CStr) : Prop :=
  ∃ s, column = some s ∧ s.length + 1 < size

instance (size : ℕ) (column : Option CStr) : Decidable (FitsField size column) :=
  match column with
  | none => isFalse (by rintro ⟨s, hs, -⟩; cases hs)
  | some s => decidable_of_iff (s.length + 1 < size)
    ⟨fun h => ⟨s, rfl, h⟩, fun ⟨_, hs, h⟩ => Option.some.inj hs ▸ h⟩

/-- A column that fits is read from its field. -/
theorem text_copyColumn {size : ℕ} {column : Option CStr}
    (hzero : ∀ s, column = some s → '\x00' ∉ s) (hfits : FitsField size column)
    (field : Buffer size) :
    (copyColumn column field).text = some (cutColumn size column) := by
  obtain ⟨s, rfl, hlen⟩ := hfits
  have hcut : cutColumn size (some s) = s :=
    List.take_of_length_le (by rw [Option.getD_some]; omega)
  rw [hcut, copyColumn, Buffer.text_strncpy _ (by omega) (hzero s rfl)]

/-- A column that does not fit makes no string of a field without a zero. -/
theorem fitsField_of_text {size : ℕ} {column : Option CStr}
    (hzero : ∀ s, column = some s → '\x00' ∉ s) {s : CStr}
    (htext : (copyColumn column (.filled size 'x')).text = some s) :
    FitsField size column := by
  cases column with
  | none =>
    rw [copyColumn, Buffer.text, if_neg (by simp [Buffer.filled])] at htext
    cases htext
  | some t =>
    refine ⟨t, rfl, Nat.lt_of_not_le fun hle => ?_⟩
    rw [copyColumn, Buffer.text_strncpy_filled _ (by omega) (hzero t rfl) (by decide)]
      at htext
    cases htext

/-! ## Records -/

/-- `struct security_event_record`, as it lies in memory. -/
structure SecurityEventBuffers where
  id : ℤ
  timestamp : ℤ
  eventType : Buffer 64
  severity : ℤ
  processName : Buffer 256
  pid : ℤ
  ppid : ℤ
  uid : ℤ
  command : Buffer 2048
  binaryPath : Buffer 4096
  parentBinary : Buffer 4096
  action : Buffer 32
  policyName : Buffer 128
  srcIp : Buffer 46
  dstIp : Buffer 46
  dstPort : ℤ
  filePath : Buffer 4096
  fileOperation : Buffer 32
  metadata : Buffer 8192
  createdAt : ℤ

/-- A record as it is read. -/
structure SecurityEventRecord where
  id : ℤ
  timestamp : ℤ
  eventType : CStr
  severity : ℤ
  processName : CStr
  pid : ℤ
  ppid : ℤ
  uid : ℤ
  command : CStr
  binaryPath : CStr
  parentBinary : CStr
  action : CStr
  policyName : CStr
  srcIp : CStr
  dstIp : CStr
  dstPort : ℤ
  filePath : CStr
  fileOperation : CStr
  metadata : CStr
  createdAt : ℤ
  deriving DecidableEq, Repr

/-- What the strings of a record are read as; none when one of them does not end in its field. -/
def SecurityEventBuffers.read (rec : SecurityEventBuffers) : Option SecurityEventRecord := do
  let eventType ← rec.eventType.text
  let processName ← rec.processName.text
  let command ← rec.command.text
  let binaryPath ← rec.binaryPath.text
  let parentBinary ← rec.parentBinary.text
  let action ← rec.action.text
  let policyName ← rec.policyName.text
  let srcIp ← rec.srcIp.text
  let dstIp ← rec.dstIp.text
  let filePath ← rec.filePath.text
  let fileOperation ← rec.fileOperation.text
  let metadata ← rec.metadata.text
  return ⟨rec.id, rec.timestamp, eventType, rec.severity, processName, rec.pid, rec.ppid, rec.uid,
    command, binaryPath, parentBinary, action, policyName, srcIp, dstIp, rec.dstPort, filePath,
    fileOperation, metadata, rec.createdAt⟩

/-- The part of `database_list_security_events` that copies a row into a record. -/
def SecurityEventBuffers.fill (row : SecurityEventRow) (rec : SecurityEventBuffers) :
    SecurityEventBuffers where
  id := row.id
  timestamp := row.timestamp
  eventType := copyColumn (some row.eventType) rec.eventType
  severity := columnInt row.severity
  processName := copyColumn row.processName rec.processName
  pid := columnInt row.pid
  ppid := columnInt row.ppid
  uid := columnInt row.uid
  command := copyColumn row.command rec.command
  binaryPath := copyColumn row.binaryPath rec.binaryPath
  parentBinary := copyColumn row.parentBinary rec.parentBinary
  action := copyColumn row.action rec.action
  policyName := copyColumn row.policyName rec.policyName
  srcIp := copyColumn row.srcIp rec.srcIp
  dstIp := copyColumn row.dstIp rec.dstIp
  dstPort := columnInt (row.dstPort.getD 0)
  filePath := copyColumn row.filePath rec.filePath
  fileOperation := copyColumn row.fileOperation rec.fileOperation
  metadata := copyColumn row.metadata rec.metadata
  createdAt := row.createdAt

/-- The record that a row is to be listed as: each column cut to the size of its field minus one,
and nothing for one that is null. -/
def SecurityEventRow.record (row : SecurityEventRow) : SecurityEventRecord where
  id := row.id
  timestamp := row.timestamp
  eventType := cutColumn 64 (some row.eventType)
  severity := columnInt row.severity
  processName := cutColumn 256 row.processName
  pid := columnInt row.pid
  ppid := columnInt row.ppid
  uid := columnInt row.uid
  command := cutColumn 2048 row.command
  binaryPath := cutColumn 4096 row.binaryPath
  parentBinary := cutColumn 4096 row.parentBinary
  action := cutColumn 32 row.action
  policyName := cutColumn 128 row.policyName
  srcIp := cutColumn 46 row.srcIp
  dstIp := cutColumn 46 row.dstIp
  dstPort := columnInt (row.dstPort.getD 0)
  filePath := cutColumn 4096 row.filePath
  fileOperation := cutColumn 32 row.fileOperation
  metadata := cutColumn 8192 row.metadata
  createdAt := row.createdAt

/-- A record of bytes that are not zero. -/
def SecurityEventBuffers.filled : SecurityEventBuffers :=
  ⟨0, 0, .filled 64 'x', 0, .filled 256 'x', 0, 0, 0, .filled 2048 'x', .filled 4096 'x',
    .filled 4096 'x', .filled 32 'x', .filled 128 'x', .filled 46 'x', .filled 46 'x', 0,
    .filled 4096 'x', .filled 32 'x', .filled 8192 'x', 0⟩

/-- The text columns of a row, each with the size of its field. -/
def SecurityEventRow.columns (row : SecurityEventRow) : List (ℕ × Option CStr) :=
  [(64, some row.eventType), (256, row.processName), (2048, row.command), (4096, row.binaryPath),
    (4096, row.parentBinary), (32, row.action), (128, row.policyName), (46, row.srcIp),
    (46, row.dstIp), (4096, row.filePath), (32, row.fileOperation), (8192, row.metadata)]

/-- The texts of a row are C strings. -/
def SecurityEventRow.IsText (row : SecurityEventRow) : Prop :=
  ∀ c ∈ row.columns, ∀ s, c.2 = some s → '\x00' ∉ s

instance (row : SecurityEventRow) : Decidable row.IsText :=
  inferInstanceAs (Decidable (∀ c ∈ row.columns, ∀ s ∈ c.2, '\x00' ∉ s))

/-- All text columns of a row fit. -/
def SecurityEventRow.Fits (row : SecurityEventRow) : Prop :=
  ∀ c ∈ row.columns, FitsField c.1 c.2

instance (row : SecurityEventRow) : Decidable row.Fits :=
  inferInstanceAs (Decidable (∀ c ∈ row.columns, FitsField c.1 c.2))

variable {row : SecurityEventRow}

/-- **A row that fits** is read as it is to be listed, whatever the record held before. -/
theorem SecurityEventRow.Fits.read (hfits : row.Fits) (htext : row.IsText)
    (rec : SecurityEventBuffers) : (rec.fill row).read = some row.record := by
  have hcopy : ∀ c ∈ row.columns, ∀ field : Buffer c.1,
      (copyColumn c.2 field).text = some (cutColumn c.1 c.2) :=
    fun c hc => text_copyColumn (htext c hc) (hfits c hc)
  simp only [columns, List.forall_mem_cons] at hcopy
  obtain ⟨hevent, hprocess, hcommand, hbinary, hparent, haction, hpolicy, hsrc, hdst, hpath,
    hoperation, hmeta, -⟩ := hcopy
  simp only [SecurityEventBuffers.read, SecurityEventBuffers.fill, hevent, hprocess, hcommand,
    hbinary, hparent, haction, hpolicy, hsrc, hdst, hpath, hoperation, hmeta]
  rfl

/-- **A row that does not fit** is not read as a record of bytes that were not zero. -/
theorem SecurityEventRow.fits_of_read (htext : row.IsText) {r : SecurityEventRecord}
    (hread : (SecurityEventBuffers.filled.fill row).read = some r) : row.Fits := by
  have hfits : ∀ c ∈ row.columns, ∀ s, (copyColumn c.2 (.filled c.1 'x')).text = some s →
      FitsField c.1 c.2 := fun c hc s => fitsField_of_text (htext c hc)
  simp only [SecurityEventBuffers.read, SecurityEventBuffers.fill, SecurityEventBuffers.filled,
    Option.bind_eq_bind, Option.bind_eq_some_iff] at hread
  obtain ⟨_, hevent, _, hprocess, _, hcommand, _, hbinary, _, hparent, _, haction, _, hpolicy, _,
    hsrc, _, hdst, _, hpath, _, hoperation, _, hmeta, -⟩ := hread
  simp only [columns, List.forall_mem_cons] at hfits
  obtain ⟨fevent, fprocess, fcommand, fbinary, fparent, faction, fpolicy, fsrc, fdst, fpath,
    foperation, fmeta, -⟩ := hfits
  simp only [Fits, columns, List.forall_mem_cons]
  exact ⟨fevent _ hevent, fprocess _ hprocess, fcommand _ hcommand, fbinary _ hbinary,
    fparent _ hparent, faction _ haction, fpolicy _ hpolicy, fsrc _ hsrc, fdst _ hdst,
    fpath _ hpath, foperation _ hoperation, fmeta _ hmeta, nofun⟩

/-! ## The query -/

/-- The arguments of `database_list_security_events`. -/
structure EventQuery where
  severityMin : ℤ
  eventType : Option CStr
  fromTime : ℤ
  toTime : ℤ
  limit : ℤ
  offset : ℤ
  deriving DecidableEq, Repr

/-- How the database orders the rows that a query selects: by time, the last ones first, and in some
order those of the same time. -/
structure RowOrder where
  order : List SecurityEventRow → List SecurityEventRow
  perm : ∀ rows, (order rows).Perm rows
  sorted : ∀ rows, (order rows).Pairwise fun row row' => row'.timestamp ≤ row.timestamp

/-- Rows of the same time in the order in which they were inserted. -/
def RowOrder.stable : RowOrder where
  order rows := rows.mergeSort fun row row' => row'.timestamp ≤ row.timestamp
  perm rows := List.mergeSort_perm ..
  sorted rows := by
    have hsorted := @List.pairwise_mergeSort SecurityEventRow
      (fun row row' => row'.timestamp ≤ row.timestamp)
      (fun a b c hab hbc => by simp only [decide_eq_true_eq] at *; omega)
      (fun a b => by simp only [Bool.or_eq_true, decide_eq_true_eq]; omega) rows
    simpa using hsorted

/-- The condition of the query. -/
def EventQuery.selects (q : EventQuery) (row : SecurityEventRow) : Bool :=
  (q.severityMin ≤ 0 || q.severityMin ≤ row.severity) &&
    (match q.eventType with | none => true | some eventType => row.eventType = eventType) &&
    (q.fromTime ≤ 0 || q.fromTime ≤ row.timestamp) && (q.toTime ≤ 0 || row.timestamp ≤ q.toTime)

/-- The rows that the query yields. -/
def EventQuery.rows (q : EventQuery) (o : RowOrder) (t : SecurityEventTable) :
    List SecurityEventRow :=
  ((o.order (t.rows.filter q.selects)).drop q.offset.toNat).take q.limit.toNat

/-- `database_list_security_events`, when the array has some contents before; none when it fails,
which it does when the memory for a negative number of records is asked for. -/
def databaseListSecurityEvents (o : RowOrder) (listOk : Bool) (heap : ℕ → SecurityEventBuffers)
    (q : EventQuery) (t : SecurityEventTable) : Option (List SecurityEventBuffers) :=
  if listOk ∧ 0 ≤ q.limit then some ((q.rows o t).mapIdx fun idx row => (heap idx).fill row)
  else none

/-- The records do not depend on what the array held before, and are those of the rows. -/
structure ListingFaithful (o : RowOrder) (listOk : Bool) (q : EventQuery) (t : SecurityEventTable) :
    Prop where
  independent : ∀ heap heap' : ℕ → SecurityEventBuffers,
    (databaseListSecurityEvents o listOk heap q t).map (List.map SecurityEventBuffers.read) =
      (databaseListSecurityEvents o listOk heap' q t).map (List.map SecurityEventBuffers.read)
  records : ∀ heap list, databaseListSecurityEvents o listOk heap q t = some list →
    list.map SecurityEventBuffers.read = (q.rows o t).map fun row => some row.record

variable {o : RowOrder} {listOk : Bool} {q : EventQuery} {t : SecurityEventTable}

/-- The query yields rows of the table. -/
theorem EventQuery.mem_of_mem_rows (hrow : row ∈ q.rows o t) : row ∈ t.rows := by
  have hsel := (o.perm _).mem_iff.1 (List.mem_of_mem_drop (List.mem_of_mem_take hrow))
  exact (List.mem_filter.1 hsel).1

/-- A row is yielded when it is the only one. -/
theorem EventQuery.mem_rows_singleton (hsel : q.selects row = true) (hlimit : 1 ≤ q.limit)
    (hoffset : q.offset ≤ 0) {lastId : ℤ} : row ∈ q.rows o ⟨[row], lastId⟩ := by
  rw [EventQuery.rows, List.filter_cons_of_pos hsel, List.filter_nil,
    List.perm_singleton.1 (o.perm [row]), Int.toNat_of_nonpos hoffset, List.drop_zero,
    List.take_of_length_le]
  · exact List.mem_singleton.2 rfl
  · rw [List.length_singleton]
    omega

/-- Rows that fit are read as they are to be listed. -/
theorem map_read_fill {rows : List SecurityEventRow} (hfits : ∀ row ∈ rows, row.Fits)
    (htext : ∀ row ∈ rows, row.IsText) (heap : ℕ → SecurityEventBuffers) :
    (rows.mapIdx fun idx row => (heap idx).fill row).map SecurityEventBuffers.read =
      rows.map fun row => some row.record := by
  refine List.ext_getElem (by simp) fun i hi hi' => ?_
  rw [List.getElem_map, List.getElem_mapIdx, List.getElem_map]
  exact (hfits _ (List.getElem_mem _)).read (htext _ (List.getElem_mem _)) _

/-- Rows that do not fit are not. -/
theorem ListingFaithful.fits (h : ListingFaithful o true q t) (hlimit : 0 ≤ q.limit)
    (hrow : row ∈ q.rows o t) (htext : row.IsText) : row.Fits := by
  have hrecords := h.records (fun _ => .filled) _ (if_pos ⟨rfl, hlimit⟩)
  obtain ⟨i, hi, rfl⟩ := List.getElem_of_mem hrow
  have hread := congrArg (·[i]?) hrecords
  simp only [List.getElem?_map, List.getElem?_mapIdx, List.getElem?_eq_getElem hi,
    Option.map_some, Option.some.injEq] at hread
  exact SecurityEventRow.fits_of_read htext hread

/-- **When the list depends on the table only**: when every text column of the rows that are listed
fits. -/
theorem listingFaithful_iff (htext : ∀ row ∈ t.rows, row.IsText) :
    ListingFaithful o listOk q t ↔
      (listOk = true → 0 ≤ q.limit → ∀ row ∈ q.rows o t, row.Fits) := by
  have htext' : ∀ row ∈ q.rows o t, row.IsText := fun row hrow =>
    htext row (EventQuery.mem_of_mem_rows hrow)
  constructor
  · rintro h rfl hlimit row hrow
    exact h.fits hlimit hrow (htext' row hrow)
  · intro hfits
    by_cases hlist : listOk = true ∧ 0 ≤ q.limit
    · have hread := map_read_fill (hfits hlist.1 hlist.2) htext'
      refine ⟨fun heap heap' => ?_, fun heap list hlist' => ?_⟩
      · rw [databaseListSecurityEvents, databaseListSecurityEvents, if_pos hlist, if_pos hlist,
          Option.map_some, Option.map_some, hread, hread]
      · rw [databaseListSecurityEvents, if_pos hlist] at hlist'
        cases hlist'
        exact hread heap
    · refine ⟨fun heap heap' => ?_, fun heap list hlist' => ?_⟩
      · rw [databaseListSecurityEvents, databaseListSecurityEvents, if_neg hlist, if_neg hlist]
      · rw [databaseListSecurityEvents, if_neg hlist] at hlist'
        cases hlist'

/-- A row with a value in every column. -/
def fullRow : SecurityEventRow :=
  ⟨1, 1700000000, EVENT_TYPE_PROCESS_EXEC, 1, some "sh".toList, 7, 1, 0, some "-c id".toList,
    some "/bin/sh".toList, some "/sbin/init".toList, some [], some [], some "10.0.0.1".toList,
    some "10.0.0.2".toList, none, some "/etc/passwd".toList, some "read".toList, some "x".toList,
    1700000000⟩

/-- It is listed as it is stored. -/
theorem listingFaithful_fullRow :
    ListingFaithful .stable true ⟨0, none, 0, 0, 100, 0⟩ ⟨[fullRow], 1⟩ := by
  have htext : ∀ row ∈ [fullRow], row.IsText := by decide
  refine (listingFaithful_iff htext).2 fun _ _ row hrow => ?_
  rw [List.mem_singleton.1 (EventQuery.mem_of_mem_rows hrow)]
  decide

/-- The event of a process without an address is not. -/
theorem not_listingFaithful_exec :
    ¬ ListingFaithful .stable true ⟨0, none, 0, 0, 100, 0⟩
      (tetragonStoreEvent ⟨1700000000, true, 1700000000, true⟩ execEvent ⟨[], 0⟩) := by
  intro h
  have hrow : (storedArgs true execEvent).row 1 1700000000 ∈ EventQuery.rows
      ⟨0, none, 0, 0, 100, 0⟩ .stable ⟨[(storedArgs true execEvent).row 1 1700000000], 1⟩ :=
    EventQuery.mem_rows_singleton rfl (by decide) (by decide)
  exact absurd (h.fits (by decide) hrow (by decide)) (by decide)

end Cyrenus
