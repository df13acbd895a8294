import Cyrenus.Api.Json
import Cyrenus.Api.Rules

/-!
# What the handlers are given

A handler reads the body of its request, which is a null pointer when no byte of it arrived, and
asks its surroundings: json-c and the hash function, which always answer alike (`Libs`), and the
clock, the random numbers, the database, the kernel and the shell, whose answers are those of one
request (`Answers`). It queues a response, refuses the request, or makes a function read or write
where it must not (`Reply`).
-/

namespace Cyrenus

/-- What comes of a request. -/
inductive Reply where
  /-- A response is queued. -/
  | queued (r : Response)
  /-- The handler returns `MHD_NO`, and the connection is closed. -/
  | refused
  /-- A null pointer is read as a string. -/
  | nullRead
  /-- A buffer is read beyond its end. -/
  | overrun
  /-- A null pointer is printed to a file, or a file is read into memory that is not there. -/
  | crashed
  deriving DecidableEq, Repr

namespace Reply

theorem queued_ne_nullRead (r : Response) : queued r ≠ nullRead := nofun

theorem nullRead_ne_queued (r : Response) : nullRead ≠ queued r := nofun

end Reply

/-- A handler that has no response has read a null pointer. -/
def Reply.ofOption : Option Response → Reply
  | some r => .queued r
  | none => .nullRead

/-- A handler of files that has no response has crashed. -/
def Reply.made : Option Response → Reply
  | some r => .queued r
  | none => .crashed

theorem Reply.made_ne_nullRead (r : Option Response) : made r ≠ nullRead := by
  cases r <;> exact nofun

/-- The reply with a status and a text. -/
def Reply.text (status : ℕ) (content : String) : Reply := .queued ⟨status, content⟩

/-- The functions of the libraries: `json_tokener_parse` on a text, how json-c writes a value that
is not a string, and the SHA-256 digest of a text in hexadecimal. -/
structure Libs where
  parse : CStr → Body
  toText : Json → CStr
  sha256 : CStr → CStr

/-- What `time (NULL)` returns while one request is processed, one reading for each place that calls
it: the query for a session, the check of its expiry, the query for a key, the note of its last use,
and the creation of a session or a key. -/
structure Times where
  session : ℤ
  check : ℤ
  apiKey : ℤ
  lastUsed : ℤ
  login : ℤ
  created : ℤ

/-- A clock that stands still while the request is processed. -/
def Times.still (t : ℤ) : Times := ⟨t, t, t, t, t, t⟩

/-- The files that the requests write: what stands under each path. -/
abbrev Files := Table CStr CStr

/-- The answers of one request's surroundings: the clock, the identifiers of a new session, the
values of `rand`, whether the database carries out the statement that notes a key's last use and the
one that the handler runs, whether the kernel updates or deletes a map element, what the variables
of `api_rules_delete` hold at first, whether a file can be opened for writing or removed, and what
`system` returns and does to the files. -/
structure Answers where
  times : Times
  userId : CStr
  sessionId : CStr
  rand : ℕ → ℕ
  touchOk : Bool
  dbOk : Bool
  mapUpdateOk : Bool
  mapDeleteOk : Bool
  stack : RuleId
  fopenOk : Bool
  unlinkOk : CStr → Bool
  system : CStr → Files → ℤ × Files

/-- Parse the body and go on with what it was parsed to; a body without a byte is a null pointer. -/
def withParsed {σ : Type} (libs : Libs) (data : Option CStr) (s : σ) (k : Body → Reply × σ) :
    Reply × σ :=
  match data with
  | none => (.nullRead, s)
  | some text => k (libs.parse text)

/-- A null pointer is read when there is no body, or when what follows reads one. -/
theorem withParsed_nullRead_iff {σ : Type} {libs : Libs} {data : Option CStr} {s : σ}
    {k : Body → Reply × σ} :
    (withParsed libs data s k).1 = .nullRead ↔
      data = none ∨ ∃ text, data = some text ∧ (k (libs.parse text)).1 = .nullRead := by
  cases data <;> simp [withParsed]

end Cyrenus
