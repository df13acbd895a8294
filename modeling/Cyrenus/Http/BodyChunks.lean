import Cyrenus.Http.NullPointers
import Cyrenus.Lib.Buffer

/-!
# The body of a request

`handle_request` gets the body in chunks, in whatever way the library has split it. For each of them
it enlarges a block of memory by `realloc`, copies the chunk behind what is there and writes a zero
after it. `upload_eq` says what has been collected at the end, and `bodyChunks` that the
split has no part in it nor in what comes of the request.
-/

namespace Cyrenus

/-! ## Memory -/

/-- `struct connection_context` as it lies in memory: the block that `data` points to, if it is not
null, and the number of bytes of the body in it. -/
structure UploadContext where
  data : Option (List Char)
  size : ℕ
  deriving DecidableEq, Repr

/-- `realloc`, which succeeds: the bytes of the old block, and what was in memory behind them. -/
def realloc (fresh : ℕ → Char) (block : Option (List Char)) (n : ℕ) : List Char :=
  (List.range n).map fun i => ((block.getD [])[i]?).getD (fresh i)

/-- `memcpy` into a block. -/
def memcpy (block : List Char) (offset : ℕ) (src : List Char) : List Char :=
  block.take offset ++ src ++ block.drop (offset + src.length)

/-- `handle_request` on one chunk, when new memory holds some bytes. -/
def UploadContext.receive (ctx : UploadContext) (chunk : List Char) (fresh : ℕ → Char) :
    Option UploadContext :=
  if ctx.size + chunk.length > MAX_PAYLOAD_SIZE then none
  else
    let newData := realloc fresh ctx.data (ctx.size + chunk.length + 1)
    let data := memcpy newData ctx.size chunk
    some ⟨some (data.set (ctx.size + chunk.length) '\x00'), ctx.size + chunk.length⟩

/-- The context when all chunks have arrived, each with what new memory held. -/
def upload (deliveries : List (List Char × (ℕ → Char))) : Option UploadContext :=
  deliveries.foldlM (fun ctx d => ctx.receive d.1 d.2) ⟨none, 0⟩

theorem length_realloc (fresh : ℕ → Char) (block : Option (List Char)) (n : ℕ) :
    (realloc fresh block n).length = n := by
  rw [realloc, List.length_map, List.length_range]

/-- What was in the old block is in the new one. -/
theorem take_realloc {fresh : ℕ → Char} {block : Option (List Char)} {k n : ℕ} (hn : k ≤ n)
    (hk : k ≤ (block.getD []).length) :
    (realloc fresh block n).take k = (block.getD []).take k := by
  refine List.ext_getElem ?_ fun i hi hi' => ?_
  · rw [List.length_take, List.length_take, length_realloc]
    omega
  · rw [List.length_take] at hi'
    rw [List.getElem_take, List.getElem_take]
    simp only [realloc, List.getElem_map, List.getElem_range]
    rw [List.getElem?_eq_getElem (by omega), Option.getD_some]

/-- A copy to the end of a block, and a zero after it. -/
theorem memcpy_set {block src : List Char} {offset : ℕ}
    (hlen : block.length = offset + src.length + 1) :
    (memcpy block offset src).set (offset + src.length) '\x00' =
      block.take offset ++ src ++ ['\x00'] := by
  have hdrop : (block.drop (offset + src.length)).length = 1 := by
    rw [List.length_drop]
    omega
  obtain ⟨last, hlast⟩ := List.length_eq_one_iff.1 hdrop
  have hcopied : (block.take offset ++ src).length = offset + src.length := by
    rw [List.length_append, List.length_take]
    omega
  rw [memcpy, hlast, List.set_append_right _ _ (Nat.le_of_eq hcopied), hcopied, Nat.sub_self]
  rfl

/-! ## Refinement -/

/-- The block behind a context: its bytes and a zero. -/
def ConnectionContext.block (ctx : ConnectionContext) : UploadContext :=
  ⟨ctx.data.map (· ++ ['\x00']), ctx.size⟩

/-- The size of a context is that of its bytes. -/
def ConnectionContext.Sized (ctx : ConnectionContext) : Prop :=
  ctx.size = (ctx.data.getD []).length

theorem ConnectionContext.Sized.receive {ctx ctx' : ConnectionContext} (h : ctx.Sized)
    {chunk : List Char} (hctx : ctx.receive chunk = some ctx') : ctx'.Sized := by
  rw [ConnectionContext.receive] at hctx
  split at hctx
  · cases hctx
  · cases hctx
    rw [ConnectionContext.Sized, Option.getD_some, List.length_append, ← h]

/-- **One chunk** does to the block what it does to the bytes, whatever new memory held. -/
theorem block_receive {ctx : ConnectionContext} (h : ctx.Sized) (chunk : List Char)
    (fresh : ℕ → Char) :
    ctx.block.receive chunk fresh = (ctx.receive chunk).map ConnectionContext.block := by
  have hkept : (realloc fresh ctx.block.data (ctx.size + chunk.length + 1)).take ctx.size =
      ctx.data.getD [] := by
    have hblock : (ctx.block.data.getD []).take ctx.size = ctx.data.getD [] ∧
        ctx.size ≤ (ctx.block.data.getD []).length := by
      rw [h, ConnectionContext.block]
      cases ctx.data <;> simp
    rw [take_realloc (by omega) hblock.2, hblock.1]
  rw [UploadContext.receive, ConnectionContext.receive]
  by_cases hbig : ctx.size + chunk.length > MAX_PAYLOAD_SIZE
  · rw [if_pos hbig]
    exact if_pos hbig
  · rw [if_neg hbig]
    have hset : (memcpy (realloc fresh ctx.block.data (ctx.size + chunk.length + 1)) ctx.size
        chunk).set (ctx.size + chunk.length) '\x00' = ctx.data.getD [] ++ chunk ++ ['\x00'] := by
      rw [memcpy_set (length_realloc ..), hkept]
    exact (if_neg hbig).trans (congrArg (fun data => some (UploadContext.mk (some data) _)) hset)

/-- The context when all chunks have arrived. -/
theorem upload_eq_receive (deliveries : List (List Char × (ℕ → Char))) (ctx : ConnectionContext)
    (h : ctx.Sized) :
    deliveries.foldlM (fun ctx d => ctx.receive d.1 d.2) ctx.block =
      ((deliveries.map Prod.fst).foldlM ConnectionContext.receive ctx).map
        ConnectionContext.block := by
  induction deliveries generalizing ctx with
  | nil => rfl
  | cons d deliveries ih =>
    rw [List.foldlM_cons, List.map_cons, List.foldlM_cons, block_receive h, Option.bind_eq_bind,
      Option.bind_eq_bind]
    cases hctx : ctx.receive d.1 with
    | none => rfl
    | some ctx' => exact ih _ (h.receive hctx)

/-! ## Requests -/

/-- The chunks of a request are delivered, each with what new memory held. -/
def Delivers (deliveries : List (List Char × (ℕ → Char))) (req : HttpRequest) : Prop :=
  deliveries.map Prod.fst = req.chunks

/-- What has been collected of a body: its bytes and a zero, or a null pointer when it is empty. -/
def collected (body : List Char) : UploadContext :=
  ⟨if body = [] then none else some (body ++ ['\x00']), body.length⟩

/-- A body without a byte has no chunks. -/
theorem flatten_eq_nil_iff (req : HttpRequest) : req.chunks.flatten = [] ↔ req.chunks = [] := by
  rw [List.flatten_eq_nil_iff]
  constructor
  · intro h
    exact List.eq_nil_iff_forall_not_mem.2 fun chunk hmem => req.chunks_ne chunk hmem (h chunk hmem)
  · rintro h
    rw [h]
    nofun

theorem length_body (req : HttpRequest) : req.chunks.flatten.length = req.bodySize :=
  List.length_flatten

/-- The context of a request that is not too large. -/
theorem receive_collected {req : HttpRequest} (hle : req.chunks.flatten.length ≤ MAX_PAYLOAD_SIZE) :
    ∃ ctx, req.receive = some ctx ∧ ctx.block = collected req.chunks.flatten := by
  have hreceive := req.receive_eq
  rw [length_body] at hle
  rw [if_pos hle] at hreceive
  refine ⟨_, hreceive, ?_⟩
  rw [collected, ConnectionContext.block, length_body]
  simp only [flatten_eq_nil_iff]
  split <;> rfl

/-- The context of one that is too large. -/
theorem receive_eq_none {req : HttpRequest} (hlt : MAX_PAYLOAD_SIZE < req.chunks.flatten.length) :
    req.receive = none := by
  rw [req.receive_eq, ← length_body, if_neg (Nat.not_le.2 hlt)]

/-- **What is collected** is what the context has, however the body is split and whatever new memory
held. -/
theorem upload_eq {req : HttpRequest} {deliveries : List (List Char × (ℕ → Char))}
    (hdel : Delivers deliveries req) :
    upload deliveries = req.receive.map ConnectionContext.block := by
  have hrun := upload_eq_receive deliveries ⟨none, 0⟩ rfl
  rw [hdel] at hrun
  exact hrun

/-- The handlers read the string that starts with the block. -/
theorem body_eq_block (ctx : ConnectionContext) : ctx.body = ctx.block.data.map CStr.ofBytes := by
  rw [ConnectionContext.body, ConnectionContext.block, Option.map_map]
  cases ctx.data with
  | none => rfl
  | some bytes => exact congrArg some (CStr.ofBytes_concat_zero bytes).symm

/-- A request with other chunks. -/
def HttpRequest.split (req : HttpRequest) (chunks : List (List Char))
    (hne : ∀ chunk ∈ chunks, chunk ≠ []) : HttpRequest :=
  { req with chunks := chunks, chunks_ne := hne }

/-- What comes of a request depends on its body, not on its chunks. -/
theorem handleRequest_split (libs : Libs) (a : Answers) (report : Handler → Option Response)
    (req : HttpRequest) (srv : Server) {chunks : List (List Char)}
    (hne : ∀ chunk ∈ chunks, chunk ≠ []) (hbody : chunks.flatten = req.chunks.flatten) :
    handleRequest libs a report (req.split chunks hne) srv =
      handleRequest libs a report req srv := by
  have hreceive : (req.split chunks hne).receive = req.receive := by
    have hflatten : (req.split chunks hne).chunks.flatten = req.chunks.flatten := hbody
    simp only [HttpRequest.receive_eq, ← length_body, ← flatten_eq_nil_iff, hflatten]
  have hrun : ∀ data srv r, runRoute libs a report (req.split chunks hne) data srv r =
      runRoute libs a report req data srv r := by
    intro data srv r
    cases r with
    | handler h => cases h <;> rfl
    | notFound => rfl
    | overrun => rfl
  simp only [handleRequest, hreceive, hrun]
  rfl

/-- What has been collected is the bytes of the body and a zero exactly if there are any. -/
theorem collected_eq_iff (body : List Char) :
    collected body = ⟨some (body ++ ['\x00']), body.length⟩ ↔ body ≠ [] := by
  rw [collected]
  split <;> simp [*]

/-- **The body of a request** reaches the handlers as its bytes and a zero, with its length, when it
has at most a mebibyte, and as a null pointer when it is empty; a longer one is refused. Neither
depends on the chunks. -/
theorem bodyChunks (libs : Libs) (a : Answers) (report : Handler → Option Response)
    (req : HttpRequest) (srv : Server) {deliveries : List (List Char × (ℕ → Char))}
    (hdel : Delivers deliveries req) :
    (req.chunks.flatten.length ≤ 1024 * 1024 →
      upload deliveries = some (collected req.chunks.flatten) ∧ ∃ ctx, req.receive = some ctx ∧
        ctx.body = (collected req.chunks.flatten).data.map CStr.ofBytes) ∧
      (req.chunks.flatten.length ≤ 1024 * 1024 →
        (upload deliveries =
            some ⟨some (req.chunks.flatten ++ ['\x00']), req.chunks.flatten.length⟩ ↔
          req.chunks.flatten ≠ [])) ∧
      (1024 * 1024 < req.chunks.flatten.length → upload deliveries = none ∧
        handleRequest libs a report req srv = (⟨none, .refused⟩, srv)) ∧
      ∀ chunks hne, chunks.flatten = req.chunks.flatten →
        handleRequest libs a report (req.split chunks hne) srv =
          handleRequest libs a report req srv := by
  refine ⟨fun hle => ?_, fun hle => ?_, fun hlt => ?_, fun chunks hne hbody =>
    handleRequest_split libs a report req srv hne hbody⟩
  · obtain ⟨ctx, hctx, hblock⟩ := receive_collected hle
    rw [upload_eq hdel, hctx, Option.map_some, hblock]
    exact ⟨rfl, ctx, rfl, by rw [body_eq_block, hblock]⟩
  · obtain ⟨ctx, hctx, hblock⟩ := receive_collected hle
    rw [upload_eq hdel, hctx, Option.map_some, hblock, Option.some.injEq]
    exact collected_eq_iff _
  · have hnone := receive_eq_none hlt
    rw [upload_eq hdel, handleRequest, hnone]
    exact ⟨rfl, rfl⟩

/-- A request with a body in two chunks. -/
def splitRequest : HttpRequest where
  url := "/api/v1/auth/login".toList
  method := "POST".toList
  authorization := none
  apiKey := none
  chunks := ["\x7b".toList, "\x7d".toList]
  chunks_ne := by decide

/-- Its body is collected. -/
theorem bodyChunks_splitRequest :
    upload [("\x7b".toList, fun _ => 'x'), ("\x7d".toList, fun _ => 'y')] =
      some ⟨some "\x7b\x7d\x00".toList, 2⟩ := by
  have hdel : Delivers [("\x7b".toList, fun _ => 'x'), ("\x7d".toList, fun _ => 'y')]
      splitRequest := rfl
  exact ((bodyChunks ⟨fun _ => none, fun _ => [], fun _ => []⟩ (.still 1700000000)
    (fun _ => some ⟨200, ""⟩) splitRequest .initial hdel).1 (by decide)).1

/-- An empty body is collected as a null pointer, and not as a zero. -/
theorem upload_nil : upload [] = some ⟨none, 0⟩ ∧ upload [] ≠ some ⟨some ([] ++ ['\x00']), 0⟩ := by
  decide

end Cyrenus
