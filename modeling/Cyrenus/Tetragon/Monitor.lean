import Cyrenus.Lib.CString
import Cyrenus.Lib.Lines
import Cyrenus.Lib.Trace

/-!
# The monitor of the Tetragon log

`tetragon_event_monitor_thread` opens the log, goes to its end, and whenever the log has been
written to calls `fgets` until the end of the file, handing each result without its newline to
`tetragon_process_json_line`. What it has read is not kept from one call to the next. So the
strings it hands over are the pieces that bounded line reads cut each write into
(`passed_eq_pieces`), and these are the lines of the log exactly when every write ends with a
newline and every line fits the buffer (`passed_eq_lines_iff`).
-/

namespace Cyrenus

open Lines (takeLine takeLine_append pieces pieces_nil content complete)

/-- The size of the buffer that a line is read into. -/
def LINE_SIZE : ℕ := 8192

/-- The zero byte, which ends a C string. -/
def NUL : Char := '\x00'

/-- The log as it is opened: its bytes and the position of the next one to be read. -/
structure LogFile where
  bytes : CStr
  pos : ℕ
  pos_le : pos ≤ bytes.length

namespace LogFile

/-- `fopen` and `fseek` to the end. -/
def openAtEnd (bytes : CStr) : LogFile := ⟨bytes, bytes.length, Nat.le_refl _⟩

/-- The bytes from the position on. -/
def unread (fp : LogFile) : CStr := fp.bytes.drop fp.pos

/-- Another program appends to the log. -/
def append (fp : LogFile) (s : CStr) : LogFile :=
  ⟨fp.bytes ++ s, fp.pos, by have := fp.pos_le; rw [List.length_append]; omega⟩

/-- What a read into a buffer takes: the next line, or the part of it that leaves room for the
terminating zero. -/
def nextLine (size : ℕ) (fp : LogFile) : CStr := (takeLine '\n' (size - 1) fp.unread).1

/-- Move the position over what a read takes. -/
def advance (size : ℕ) (fp : LogFile) : LogFile where
  bytes := fp.bytes
  pos := fp.pos + (fp.nextLine size).length
  pos_le := by
    have hread := congrArg List.length (takeLine_append '\n' (size - 1) fp.unread)
    rw [List.length_append, unread, List.length_drop] at hread
    have := fp.pos_le
    rw [nextLine, unread]
    omega

/-- `fgets`: a null pointer at the end of the file. -/
def fgets (size : ℕ) (fp : LogFile) : Option (CStr × LogFile) :=
  if fp.unread = [] then none else some (fp.nextLine size, fp.advance size)

@[simp] theorem unread_openAtEnd (bytes : CStr) : (openAtEnd bytes).unread = [] :=
  List.drop_length

@[simp] theorem unread_append (fp : LogFile) (s : CStr) :
    (fp.append s).unread = fp.unread ++ s := List.drop_append_of_le_length fp.pos_le

/-- What is left to read after a read is what the read leaves. -/
@[simp] theorem unread_advance (size : ℕ) (fp : LogFile) :
    (fp.advance size).unread = (takeLine '\n' (size - 1) fp.unread).2 := by
  have hread := takeLine_append '\n' (size - 1) fp.unread
  calc (fp.advance size).unread = fp.unread.drop (fp.nextLine size).length :=
        List.drop_drop.symm
    _ = (fp.nextLine size ++ (takeLine '\n' (size - 1) fp.unread).2).drop
          (fp.nextLine size).length := by rw [nextLine, hread]
    _ = _ := List.drop_left

theorem fgets_of_unread_nil {fp : LogFile} (h : fp.unread = []) (size : ℕ) :
    fp.fgets size = none := if_pos h

theorem fgets_of_unread_ne_nil {fp : LogFile} (h : fp.unread ≠ []) (size : ℕ) :
    fp.fgets size = some (fp.nextLine size, fp.advance size) := if_neg h

/-- A read into a buffer of two bytes or more leaves less to read. -/
theorem unread_lt_of_fgets {n : ℕ} {fp fp' : LogFile} {line : CStr}
    (h : fp.fgets (n + 2) = some (line, fp')) : fp'.unread.length < fp.unread.length := by
  by_cases hnil : fp.unread = []
  · rw [fgets_of_unread_nil hnil] at h
    cases h
  · rw [fgets_of_unread_ne_nil hnil] at h
    cases h
    obtain ⟨c, s, hs⟩ := List.exists_cons_of_ne_nil hnil
    rw [unread_advance, hs, List.length_cons]
    exact Nat.lt_succ_of_le (Lines.length_takeLine_rest_le n c s)

end LogFile

/-- `line[strcspn (line, "\n")] = 0`: the string the buffer then holds. -/
def cutNewline (line : CStr) : CStr := line.takeWhile fun c => c ≠ '\n' ∧ c ≠ NUL

/-- The inner loop of `tetragon_event_monitor_thread`: the strings it passes to
`tetragon_process_json_line`, and the log after it. -/
def readNewLines (fp : LogFile) : List CStr × LogFile :=
  match h : fp.fgets LINE_SIZE with
  | none => ([], fp)
  | some (line, fp') =>
    have := LogFile.unread_lt_of_fgets h
    (cutNewline line :: (readNewLines fp').1, (readNewLines fp').2)
termination_by fp.unread.length

/-- One turn of the monitor: the log has been appended to, and is read to its end. -/
def monitorStep (s : CStr) (fp : LogFile) : List CStr × LogFile := readNewLines (fp.append s)

/-- The strings passed to `tetragon_process_json_line` when a log that held `old` is appended to. -/
def passed (old : CStr) (appends : List CStr) : List CStr :=
  (Trace.trace monitorStep (LogFile.openAtEnd old) appends).flatMap Prod.snd

/-! ## The strings passed -/

/-- In a string without zero bytes only the newline is cut off. -/
theorem cutNewline_eq {line : CStr} (h : NUL ∉ line) : cutNewline line = content '\n' line := by
  induction line with
  | nil => rfl
  | cons c line ih =>
    obtain ⟨hc, hline⟩ := not_or.1 (mt List.mem_cons.2 h)
    by_cases hnl : c = '\n'
    · simp [cutNewline, content, hnl]
    · simpa [cutNewline, content, hnl, Ne.symm hc] using ih hline

theorem readNewLines_of_unread_nil {fp : LogFile} (h : fp.unread = []) :
    readNewLines fp = ([], fp) := by
  rw [readNewLines]
  split
  · rfl
  · next heq => rw [LogFile.fgets_of_unread_nil h] at heq; cases heq

theorem readNewLines_of_unread_ne_nil {fp : LogFile} (h : fp.unread ≠ []) :
    readNewLines fp = (cutNewline (fp.nextLine LINE_SIZE) ::
      (readNewLines (fp.advance LINE_SIZE)).1, (readNewLines (fp.advance LINE_SIZE)).2) := by
  rw [readNewLines]
  split
  · next heq => rw [LogFile.fgets_of_unread_ne_nil h] at heq; cases heq
  · next heq => rw [LogFile.fgets_of_unread_ne_nil h] at heq; cases heq; rfl

/-- The loop passes the pieces of what is unread, and reads to the end. -/
theorem readNewLines_spec (fp : LogFile) :
    (readNewLines fp).1 = (pieces '\n' 8190 fp.unread).map cutNewline ∧
      (readNewLines fp).2.unread = [] := by
  by_cases hnil : fp.unread = []
  · rw [readNewLines_of_unread_nil hnil]
    exact ⟨by simp [hnil], hnil⟩
  · have hlt := LogFile.unread_lt_of_fgets (LogFile.fgets_of_unread_ne_nil hnil LINE_SIZE)
    have ih := readNewLines_spec (fp.advance LINE_SIZE)
    rw [readNewLines_of_unread_ne_nil hnil, Lines.pieces_of_ne_nil 8190 hnil, List.map_cons]
    exact ⟨congrArg _ (ih.1.trans (by rw [LogFile.unread_advance]; rfl)), ih.2⟩
termination_by fp.unread.length
decreasing_by exact hlt

/-- Over a run, the strings passed are the pieces of each append: what a turn leaves is nothing, so
the next one reads the bytes of its own append only. -/
theorem passed_eq_pieces (old : CStr) (appends : List CStr) :
    passed old appends = (appends.flatMap (pieces '\n' 8190)).map cutNewline := by
  have hrun : ∀ fp : LogFile, fp.unread = [] →
      (Trace.trace monitorStep fp appends).flatMap Prod.snd =
        (appends.flatMap (pieces '\n' 8190)).map cutNewline := by
    induction appends with
    | nil => intro fp hfp; rfl
    | cons s appends ih =>
      intro fp hfp
      obtain ⟨hpieces, hnil⟩ := readNewLines_spec (fp.append s)
      rw [LogFile.unread_append, hfp, List.nil_append] at hpieces
      rw [Trace.trace_cons, List.flatMap_cons, List.flatMap_cons, List.map_append]
      exact congrArg₂ _ hpieces (ih _ hnil)
  exact hrun _ (LogFile.unread_openAtEnd old)

/-- Without zero bytes they are the pieces without their newlines. -/
theorem passed_eq_map_content (old : CStr) {appends : List CStr}
    (hnul : ∀ s ∈ appends, NUL ∉ s) :
    passed old appends = (appends.flatMap (pieces '\n' 8190)).map (content '\n') := by
  rw [passed_eq_pieces]
  refine List.map_congr_left fun p hp => cutNewline_eq fun hmem => ?_
  obtain ⟨s, hs, hp⟩ := List.mem_flatMap.1 hp
  refine hnul s hs ?_
  rw [← Lines.flatten_pieces '\n' 8190 s]
  exact List.mem_flatten_of_mem hp hmem

/-- **The monitor passes the lines of the log** if and only if every append ends with a newline, or
is empty, and every line leaves room in the buffer for its newline and the terminating zero. -/
theorem passed_eq_lines_iff (old : CStr) (appends : List CStr) (hnul : ∀ s ∈ appends, NUL ∉ s) :
    passed old appends = complete '\n' appends.flatten ↔
      (∀ s ∈ appends, s = [] ∨ s.getLast? = some '\n') ∧
        ∀ line ∈ complete '\n' appends.flatten, line.length + 2 ≤ LINE_SIZE := by
  rw [passed_eq_map_content old hnul, Lines.map_content_pieces_iff 8190 appends]
  exact and_congr Iff.rfl (forall₂_congr fun line _ => Nat.add_le_add_iff_right.symm)

/-- Two lines in two appends, each passed whole. -/
theorem passed_eq_lines_iff_two :
    let appends := ["a\n".toList, "bc\n".toList]
    passed [] appends = ["a".toList, "bc".toList] ∧
      (passed [] appends = complete '\n' appends.flatten ↔
        (∀ s ∈ appends, s = [] ∨ s.getLast? = some '\n') ∧
          ∀ line ∈ complete '\n' appends.flatten, line.length + 2 ≤ LINE_SIZE) := by
  have hiff := passed_eq_lines_iff [] ["a\n".toList, "bc\n".toList] (by decide)
  exact ⟨hiff.2 (by decide), hiff⟩

/-- A line that arrives in two appends is passed as two strings. -/
theorem passed_eq_lines_fails :
    ¬ ∀ (old : CStr) (appends : List CStr), (∀ s ∈ appends, NUL ∉ s) →
      passed old appends = complete '\n' appends.flatten := by
  intro h
  have hnul : ∀ s ∈ ["\x7b".toList, "\x7d\n".toList], NUL ∉ s := by decide
  have hlines := (passed_eq_map_content [] hnul).symm.trans (h [] _ hnul)
  have hframed : "\x7b".toList = [] ∨ "\x7b".toList.getLast? = some '\n' :=
    ((Lines.map_content_pieces_iff 8190 _).1 hlines).1 _ (by simp)
  exact absurd hframed (by decide)

end Cyrenus
