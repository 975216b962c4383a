import TvmGraphRuntime.OpExecs

/-!
# Running the graph

`GraphRuntime::Run` invokes every installed closure in node order. A kernel call
(`callPacked`) reads every argument view, lets the kernel compute, and writes the bytes the
kernel returns for each argument it writes, at most the view's size, in argument order. The
closure of `__nop` does nothing.

The copies between the runtime's views and the caller's tensors are the backend's
`TVMArrayCopyFromTo`, which requires the two byte sizes to agree, and
`TVMArrayCopyFromBytes`, which requires the byte count to be the view's size.

`GraphRuntime::DebugRun` interleaves with each closure a copy of `data_entry_[i]` into the
caller's tensor that debug buffer `i` points to, and `DebugGetNodeOutput(index)` runs the
closures up to node `index` and copies `data_entry_[index]` out. The debug buffers are
`DLTensor*`s the caller handed over and kept past the call, so they are pointers here too:
indices into the caller's tensors (`host`), and one tensor registered twice is written by both
slots. `DebugRun` leaves the pool `Run` leaves (`run_of_debugRun`) and keeps the layout of the
caller's tensors (`debugStep_layout`). Its printing (`PrintNode`, `PrintDlTensor`) and
`CheckNanOrInf` with `CHECK_NONE` change no state and are left out here.
-/

namespace TvmGraphRuntime

/-- The memory of the pool buffers, one byte list per buffer. -/
abbrev Pool := List (List UInt8)

/-- The write of one argument after a kernel returns: the bytes it returned for the argument,
at most as many as the view holds, or nothing. -/
def writeArg (mem : Pool) : DLTensor × Option (List UInt8) → Result Pool
  | (_, none) => pure mem
  | (t, some bytes) => writeView mem t (bytes.take t.size)

/-- A kernel call: every argument is read, then each argument the kernel writes receives the
bytes it returns for it, in argument order. -/
def callPacked (pf : PackedFunc) (args : List DLTensor) (mem : Pool) : Result Pool := do
  let contents ← args.mapM (readView mem)
  (args.zip (pf.call args contents)).foldlM writeArg mem

/-- Invoking a closure. -/
def OpExec.exec : OpExec → Pool → Result Pool
  | .nop, mem => pure mem
  | .call pf frame, mem => callPacked pf frame.args mem

/-- `if (op_execs_[i]) op_execs_[i]();` -/
def execSlot (mem : Pool) : Option OpExec → Result Pool
  | none => pure mem
  | some op => op.exec mem

namespace GraphRuntime

/-- The body of the loop of `Run`: slot `i`. -/
def runSlot (rt : GraphRuntime) (mem : Pool) (i : Nat) : Result Pool := do
  execSlot mem (← vecAt rt.opExecs i "op_execs_")

/-- `GraphRuntime::Run`. -/
def run (rt : GraphRuntime) (mem : Pool) : Result Pool :=
  (List.range rt.opExecs.length).foldlM rt.runSlot mem

end GraphRuntime

/-! ### What a kernel call writes -/

/-- A read sees its view's buffer only. -/
theorem readView_congr {mem mem' : Pool} {t : DLTensor} (h : mem'[t.data]? = mem[t.data]?) :
    readView mem' t = readView mem t := by
  unfold readView; rw [h]

/-- A read depends on the view's buffer and byte size only. -/
theorem readView_eq_of_size {mem : Pool} {t t' : DLTensor} (hd : t'.data = t.data)
    (hs : t'.size = t.size) : readView mem t' = readView mem t := by
  unfold readView; rw [hd, hs]

theorem lengths_of_writeView {mem mem' : Pool} {t : DLTensor} {bytes : List UInt8}
    (h : writeView mem t bytes = .ok mem') : mem'.map List.length = mem.map List.length :=
  List.ext_getElem? (length_of_writeView h)

theorem getElem?_of_writeArg {mem mem' : Pool} {w : DLTensor × Option (List UInt8)}
    (h : writeArg mem w = .ok mem') {s : Nat} (hs : w.2.isSome → w.1.data ≠ s) :
    mem'[s]? = mem[s]? := by
  rcases w with ⟨t, _ | bytes⟩
  · exact congrArg (·[s]?) (pure_eq_ok.mp h).symm
  · exact getElem?_of_writeView h (Ne.symm (hs rfl))

theorem lengths_of_writeArg {mem mem' : Pool} {w : DLTensor × Option (List UInt8)}
    (h : writeArg mem w = .ok mem') : mem'.map List.length = mem.map List.length := by
  rcases w with ⟨t, _ | bytes⟩
  · rw [(pure_eq_ok.mp h).symm]
  · exact lengths_of_writeView h

section WriteArgs

variable {ws : List (DLTensor × Option (List UInt8))} {mem mem' : Pool}

/-- The writes of a kernel call leave alone every buffer none of the written arguments
points at. -/
theorem getElem?_of_writeArgs (h : ws.foldlM writeArg mem = .ok mem') {s : Nat}
    (hs : ∀ w ∈ ws, w.2.isSome → w.1.data ≠ s) : mem'[s]? = mem[s]? :=
  foldlM_invariant (fun m => m[s]? = mem[s]?) rfl
    (fun w hw _ _ hb hstep => (getElem?_of_writeArg hstep (hs w hw)).trans hb) h

/-- The writes of a kernel call keep every buffer's length. -/
theorem lengths_of_writeArgs (h : ws.foldlM writeArg mem = .ok mem') :
    mem'.map List.length = mem.map List.length :=
  foldlM_invariant (fun m => m.map List.length = mem.map List.length) rfl
    (fun _ _ _ _ hb hstep => (lengths_of_writeArg hstep).trans hb) h

end WriteArgs

theorem callPacked_eq_ok {pf : PackedFunc} {args : List DLTensor} {mem mem' : Pool}
    (h : callPacked pf args mem = .ok mem') :
    ∃ contents, args.mapM (readView mem) = .ok contents ∧
      (args.zip (pf.call args contents)).foldlM writeArg mem = .ok mem' := by
  simpa [callPacked, bind_eq_ok] using h

/-- The writes of a kernel call leave every buffer no argument it writes points at. -/
theorem getElem?_of_callPacked {pf : PackedFunc} {args : List DLTensor} {mem mem' : Pool}
    (h : callPacked pf args mem = .ok mem') {s : Nat}
    (hs : ∀ j (hj : j < args.length) cs b, (pf.call args cs)[j]? = some (some b) →
      args[j].data ≠ s) : mem'[s]? = mem[s]? := by
  obtain ⟨contents, -, hw⟩ := callPacked_eq_ok h
  refine getElem?_of_writeArgs hw fun w hw hsome => ?_
  obtain ⟨j, hj, rfl⟩ := List.getElem_of_mem hw
  simp only [List.getElem_zip] at hsome ⊢
  obtain ⟨b, hb⟩ := Option.isSome_iff_exists.mp hsome
  exact hs j (by simp at hj; omega) contents b (by rw [List.getElem?_eq_getElem (by simp at hj; omega), hb])

/-! ### Kernel calls on views that fit -/

/-- A view fits `mem`: its buffer exists and holds at least the view's bytes. -/
def ViewFits (mem : Pool) (t : DLTensor) : Prop := ∃ buf, mem[t.data]? = some buf ∧ t.size ≤ buf.length

theorem ViewFits.of_lengths {mem mem' : Pool} {t : DLTensor} (h : ViewFits mem t)
    (hl : mem'.map List.length = mem.map List.length) : ViewFits mem' t := by
  obtain ⟨buf, hbuf, hle⟩ := h
  have := congrArg (·[t.data]?) hl
  simp only [List.getElem?_map, hbuf, Option.map_some'] at this
  obtain ⟨buf', hbuf', hlen⟩ := Option.map_eq_some'.mp this
  exact ⟨buf', hbuf', hlen ▸ hle⟩

theorem readView_of_fits {mem : Pool} {t : DLTensor} (h : ViewFits mem t) :
    ∃ bytes, readView mem t = .ok bytes := by
  obtain ⟨buf, hbuf, hle⟩ := h
  exact ⟨_, readView_eq_ok.mpr ⟨buf, hbuf, hle, rfl⟩⟩

/-- Reading a list of views depends on their buffers and byte sizes only. -/
theorem mapM_readView_congr {mem : Pool} {ts ts' : List DLTensor}
    (hd : ts.map DLTensor.data = ts'.map DLTensor.data)
    (hs : ts.map DLTensor.size = ts'.map DLTensor.size) :
    ts.mapM (readView mem) = ts'.mapM (readView mem) := by
  induction ts generalizing ts' with
  | nil => cases ts' <;> simp_all
  | cons t ts ih =>
    cases ts' with
    | nil => simp at hd
    | cons t' ts' =>
      simp only [List.map_cons, List.cons.injEq] at hd hs
      rw [List.mapM_cons, List.mapM_cons, readView_eq_of_size hd.1 hs.1, ih hd.2 hs.2]

theorem mapM_readView_of_fits {mem : Pool} {ts : List DLTensor} (h : ∀ t ∈ ts, ViewFits mem t) :
    ∃ cs, ts.mapM (readView mem) = .ok cs := by
  induction ts with
  | nil => exact ⟨[], rfl⟩
  | cons t ts ih =>
    obtain ⟨b, hb⟩ := readView_of_fits (h t (List.mem_cons_self _ _))
    obtain ⟨cs, hcs⟩ := ih fun t ht => h t (List.mem_cons_of_mem _ ht)
    exact ⟨b :: cs, by rw [List.mapM_cons, hb, ok_bind, hcs, ok_bind]; rfl⟩

/-- Arguments a kernel does not write leave the memory as it was. -/
theorem foldlM_writeArg_none {mem : Pool} {ws : List (DLTensor × Option (List UInt8))}
    (h : ∀ w ∈ ws, w.2 = none) : ws.foldlM writeArg mem = .ok mem := by
  induction ws with
  | nil => rfl
  | cons w ws ih =>
    obtain ⟨t, o⟩ := w
    obtain rfl : o = none := h _ (List.mem_cons_self _ _)
    exact ih fun w hw => h w (List.mem_cons_of_mem _ hw)

theorem writeArg_congr {mem : Pool} {t t' : DLTensor} (hd : t.data = t'.data)
    (hs : t.size = t'.size) (o : Option (List UInt8)) : writeArg mem (t, o) = writeArg mem (t', o) := by
  cases o with
  | none => rfl
  | some bytes => simp only [writeArg, writeView, hd, hs]

theorem foldlM_writeArg_congr {args args' : List DLTensor}
    (hd : args.map DLTensor.data = args'.map DLTensor.data)
    (hs : args.map DLTensor.size = args'.map DLTensor.size)
    (ws : List (Option (List UInt8))) (mem : Pool) :
    (args.zip ws).foldlM writeArg mem = (args'.zip ws).foldlM writeArg mem := by
  induction args generalizing args' ws mem with
  | nil => cases args' <;> simp_all
  | cons t ts ih =>
    cases args' with
    | nil => simp at hd
    | cons t' ts' =>
      simp only [List.map_cons, List.cons.injEq] at hd hs
      cases ws with
      | nil => rfl
      | cons o ws =>
        simp only [List.zip_cons_cons, List.foldlM_cons, writeArg_congr hd.1 hs.1, ih hd.2 hs.2]

/-- A kernel call depends on its arguments' buffers and byte sizes only, besides the kernel's
answer. -/
theorem callPacked_congr {pf pf' : PackedFunc} {args args' : List DLTensor}
    (hd : args.map DLTensor.data = args'.map DLTensor.data)
    (hs : args.map DLTensor.size = args'.map DLTensor.size)
    (hpf : ∀ cs, pf.call args cs = pf'.call args' cs) (mem : Pool) :
    callPacked pf args mem = callPacked pf' args' mem := by
  unfold callPacked
  simp only [mapM_readView_congr hd hs, hpf, foldlM_writeArg_congr hd hs]

/-- Whole byte strings written into views that fit, on pairwise distinct buffers: every view
reads back its bytes, and every other buffer is left as it was. -/
theorem foldlM_writeArg_distinct {ts : List DLTensor} {bs : List (List UInt8)} {mem : Pool}
    (hlen : bs.map List.length = ts.map DLTensor.size) (hfit : ∀ t ∈ ts, ViewFits mem t)
    (hnd : (ts.map DLTensor.data).Nodup) :
    ∃ mem', (ts.zip (bs.map some)).foldlM writeArg mem = .ok mem' ∧
      mem'.map List.length = mem.map List.length ∧
      (∀ k (hk : k < ts.length) (hk' : k < bs.length), readView mem' ts[k] = .ok bs[k]) ∧
      ∀ s, s ∉ ts.map DLTensor.data → mem'[s]? = mem[s]? := by
  induction ts generalizing bs mem with
  | nil => exact ⟨mem, by simp [pure, Except.pure], rfl, by simp, fun _ _ => rfl⟩
  | cons t ts ih =>
    cases bs with
    | nil => simp at hlen
    | cons b bs =>
      simp only [List.map_cons, List.cons.injEq] at hlen
      simp only [List.map_cons, List.nodup_cons] at hnd
      obtain ⟨buf, hbuf, hle⟩ := hfit t (List.mem_cons_self _ _)
      have hw : writeView mem t b = .ok (mem.set t.data (b ++ buf.drop b.length)) :=
        writeView_eq_ok.mpr ⟨buf, hbuf, by omega, rfl⟩
      have hl₁ := lengths_of_writeView hw
      obtain ⟨mem', hfold, hl', hread, hframe⟩ :=
        ih hlen.2 (fun t' ht' => (hfit t' (List.mem_cons_of_mem _ ht')).of_lengths hl₁) hnd.2
      refine ⟨mem', ?_, hl'.trans hl₁, fun k hk hk' => ?_, fun s hs => ?_⟩
      · rw [List.map_cons, List.zip_cons_cons, List.foldlM_cons]
        simp only [writeArg, List.take_of_length_le (Nat.le_of_eq hlen.1), hw, ok_bind, hfold]
      · cases k with
        | zero =>
          simp only [List.getElem_cons_zero]
          rw [readView_congr (hframe _ hnd.1)]
          exact readView_of_writeView hw hlen.1
        | succ k => simpa using hread k (by simpa using hk) (by simpa using hk')
      · simp only [List.map_cons, List.mem_cons, not_or] at hs
        rw [hframe s hs.2]
        exact getElem?_of_writeView hw hs.1

/-! ### Copies between views and the caller's tensors -/

/-- `TVMArrayCopyFromTo` from a view into a caller's tensor. Modelled from the spec: the
backend's `copy(src, dst)`, which requires the byte sizes of the two tensors to agree. -/
def copyToHost (mem : Pool) (src : DLTensor) (dst : HostTensor) : Result HostTensor :=
  if hsz : src.size = getDataSize dst.shape dst.dtype then
    match h : readView mem src with
    | .ok bytes => pure ⟨dst.shape, dst.dtype, bytes, (length_of_readView h).trans hsz⟩
    | .error e => throw e
  else throw (.check "TVMArrayCopyFromTo: The size must exactly match")

/-- `TVMArrayCopyFromTo` from a caller's tensor into a view. Modelled from the spec as
`copyToHost`. -/
def copyFromHost (mem : Pool) (src : HostTensor) (dst : DLTensor) : Result Pool := do
  check (getDataSize src.shape src.dtype == dst.size)
    "TVMArrayCopyFromTo: The size must exactly match"
  writeView mem dst src.bytes

/-- `TVMArrayCopyFromBytes(dst, data, nbytes)`. Modelled from the spec: the backend's
host-to-device copy of `nbytes` bytes, which must be the view's size. -/
def copyFromBytes (mem : Pool) (dst : DLTensor) (data : List UInt8) (nbytes : Nat) :
    Result Pool := do
  check (nbytes == dst.size) "TVMArrayCopyFromBytes: size mismatch"
  writeView mem dst (data.take nbytes)

theorem copyToHost_eq_ok {mem : Pool} {src : DLTensor} {dst t : HostTensor}
    (h : copyToHost mem src dst = .ok t) : readView mem src = .ok t.bytes := by
  unfold copyToHost at h
  split_ifs at h with hsz
  split at h
  · rename_i bytes hread
    rw [hread, ← (pure_eq_ok.mp h)]
  · exact absurd h throw_ne_ok

theorem copyFromHost_eq_ok {mem mem' : Pool} {src : HostTensor} {dst : DLTensor}
    (h : copyFromHost mem src dst = .ok mem') :
    src.bytes.length = dst.size ∧ writeView mem dst src.bytes = .ok mem' := by
  simp only [copyFromHost, bind_eq_ok, check_eq_ok, beq_iff_eq] at h
  obtain ⟨⟨⟩, hsz, hw⟩ := h
  exact ⟨src.bytes_length.trans hsz, hw⟩

/-! ### Debug runs -/

/-- `*ptr` for a pointer the caller handed over: the caller's tensor it points to. A pointer to
none of the caller's tensors is undefined behaviour. -/
def deref (host : List HostTensor) (ptr : Nat) : Result HostTensor :=
  match host[ptr]? with
  | some t => pure t
  | none => throw (.undefined "a pointer to no tensor of the caller")

theorem deref_eq_ok {host : List HostTensor} {ptr : Nat} {t : HostTensor} :
    deref host ptr = .ok t ↔ host[ptr]? = some t := by
  unfold deref
  cases h : host[ptr]? <;> simp

/-- The shape and type of a caller's tensor: all that a copy into it reads of it. -/
def HostTensor.layout (t : HostTensor) : List Int × DLDataType := (t.shape, t.dtype)

/-- A copy into a caller's tensor keeps its layout. -/
theorem layout_of_copyToHost {mem : Pool} {src : DLTensor} {dst t : HostTensor}
    (h : copyToHost mem src dst = .ok t) : t.layout = dst.layout := by
  unfold copyToHost at h
  split_ifs at h
  split at h
  · rw [← pure_eq_ok.mp h]
    rfl
  · exact absurd h throw_ne_ok

/-- A copy reads nothing of the destination but its layout. -/
theorem copyToHost_of_layout {mem : Pool} {src : DLTensor} {dst dst' : HostTensor}
    (h : dst.layout = dst'.layout) : copyToHost mem src dst = copyToHost mem src dst' := by
  obtain ⟨shape, dtype, _, _⟩ := dst
  obtain ⟨shape', dtype', _, _⟩ := dst'
  obtain ⟨rfl, rfl⟩ := Prod.mk.inj h
  rfl

/-- Setting an element of a list to the value it holds. -/
theorem set_eq_self_of_getElem? {α : Type} {l : List α} {i : Nat} {a : α} (h : l[i]? = some a) :
    l.set i a = l := by
  have hi : i < l.length := (List.getElem?_eq_some_iff.mp h).1
  apply List.ext_getElem?
  intro j
  rw [List.getElem?_set]
  split_ifs with hij
  · subst hij
    simp [hi, h]
  · rfl

namespace GraphRuntime

/-- The body of the loop of `DebugRun`: run slot `i`, then copy `data_entry_[i]` into the
caller's tensor that `debug_buffers_[i]` points to. -/
def debugStep (rt : GraphRuntime) (buffers : List Nat) (st : Pool × List HostTensor) (i : Nat) :
    Result (Pool × List HostTensor) := do
  let (mem, host) := st
  let mem ← rt.runSlot mem i
  let _ ← vecAt rt.nodes i "nodes_"
  let src ← vecAt rt.dataEntry i "data_entry_"
  let ptr ← vecAt buffers i "debug_buffers_"
  let out ← copyToHost mem src (← deref host ptr)
  pure (mem, host.set ptr out)

/-- `GraphRuntime::DebugRun`, on the pool and the caller's tensors `host`: each debug buffer is
a pointer to one of them. -/
def debugRun (rt : GraphRuntime) (mem : Pool) (host : List HostTensor) (buffers : List Nat) :
    Result (Pool × List HostTensor) :=
  (List.range rt.opExecs.length).foldlM (rt.debugStep buffers) (mem, host)

variable {rt : GraphRuntime} {buffers : List Nat}

/-- One step of `DebugRun`: slot `i`, then the copy of data entry `i` into the caller's tensor
that debug buffer `i` points to. -/
theorem debugStep_eq_ok {mem : Pool} {host : List HostTensor} {i : Nat}
    {st : Pool × List HostTensor} (h : rt.debugStep buffers (mem, host) i = .ok st) :
    ∃ mem₁ src ptr dst out, rt.runSlot mem i = .ok mem₁ ∧ i < rt.nodes.length ∧
      rt.dataEntry[i]? = some src ∧ buffers[i]? = some ptr ∧ host[ptr]? = some dst ∧
      copyToHost mem₁ src dst = .ok out ∧ st = (mem₁, host.set ptr out) := by
  simp only [debugStep, bind_eq_ok, pure_eq_ok, vecAt_eq_ok, deref_eq_ok] at h
  obtain ⟨mem₁, hslot, _, hnode, src, hsrc, ptr, hptr, dst, hdst, out, hout, rfl⟩ := h
  exact ⟨mem₁, src, ptr, dst, out, hslot, (List.getElem?_eq_some_iff.mp hnode).1, hsrc, hptr,
    hdst, hout, rfl⟩

/-- A debug step keeps the layout of every caller's tensor. -/
theorem debugStep_layout {st st' : Pool × List HostTensor} {i : Nat}
    (h : rt.debugStep buffers st i = .ok st') :
    st'.2.map HostTensor.layout = st.2.map HostTensor.layout := by
  obtain ⟨_, _, ptr, _, out, -, -, -, -, hdst, hout, rfl⟩ := debugStep_eq_ok h
  rw [List.map_set, layout_of_copyToHost hout]
  exact set_eq_self_of_getElem? (by simp [hdst])

/-- The debug steps over any slots leave the pool the plain steps leave. -/
theorem foldlM_debugStep_runSlot (is : List Nat) :
    ∀ {st st' : Pool × List HostTensor}, is.foldlM (rt.debugStep buffers) st = .ok st' →
      is.foldlM rt.runSlot st.1 = .ok st'.1 := by
  induction is with
  | nil => intro st st' h; rw [← pure_eq_ok.mp h]; rfl
  | cons i is ih =>
    intro st st' h
    rw [List.foldlM_cons, bind_eq_ok] at h
    obtain ⟨st₁, hstep, hrest⟩ := h
    obtain ⟨mem₁, _, _, _, _, hslot, -, -, -, -, -, rfl⟩ := debugStep_eq_ok hstep
    rw [List.foldlM_cons, hslot, ok_bind]
    exact ih hrest

/-- `DebugRun` leaves the pool `Run` leaves. -/
theorem run_of_debugRun {mem : Pool} {host : List HostTensor} {st : Pool × List HostTensor}
    (h : rt.debugRun mem host buffers = .ok st) : rt.run mem = .ok st.1 :=
  foldlM_debugStep_runSlot _ h

/-- The debug steps over any slots keep the layout of every caller's tensor. -/
theorem foldlM_debugStep_layout {is : List Nat} {st st' : Pool × List HostTensor}
    (h : is.foldlM (rt.debugStep buffers) st = .ok st') :
    st'.2.map HostTensor.layout = st.2.map HostTensor.layout :=
  foldlM_invariant (fun s : Pool × List HostTensor =>
      s.2.map HostTensor.layout = st.2.map HostTensor.layout) rfl
    (fun _ _ _ _ hl hstep => (debugStep_layout hstep).trans hl) h

/-- A graph whose node 1 has two outputs: node 2's first entry is entry 3. Every entry is a
`uint8` tensor of 40 bytes, on its own storage id. -/
def debugDoc : JSONValue := .obj [
  ("nodes", .arr [.obj [("op", .str "null"), ("name", .str "x"), ("inputs", .arr [])],
    .obj [("op", .str "tvm_op"), ("name", .str "split"), ("inputs", .arr [.arr [.num 0, .num 0]]),
      ("attrs", .obj [("func_name", .str "split"), ("num_inputs", .str "1"),
        ("num_outputs", .str "2"), ("flatten_data", .str "0")])],
    .obj [("op", .str "tvm_op"), ("name", .str "id"), ("inputs", .arr [.arr [.num 1, .num 0]]),
      ("attrs", .obj [("func_name", .str "id"), ("num_inputs", .str "1"),
        ("num_outputs", .str "1"), ("flatten_data", .str "0")])]]),
  ("arg_nodes", .arr [.num 0]), ("node_row_ptr", .arr [.num 0, .num 1, .num 3, .num 4]),
  ("heads", .arr [.arr [.num 2, .num 0]]),
  ("attrs", .obj [("dltype", .arr [.str "list_str",
      .arr [.str "uint8", .str "uint8", .str "uint8", .str "uint8"]]),
    ("storage_id", .arr [.str "list_int", .arr [.num 0, .num 1, .num 2, .num 3]]),
    ("shape", .arr [.str "list_shape", .arr [.arr [.num 40], .arr [.num 40], .arr [.num 40],
      .arr [.num 40]]])])]

/-- `split` writes its input plus one and plus two; `id` copies its input. -/
def debugModule : Module := ⟨fun name =>
  if name = "split" then
    some ⟨fun _ cs => [none, some ((cs.getD 0 []).map (· + 1)), some ((cs.getD 0 []).map (· + 2))]⟩
  else if name = "id" then some ⟨fun _ cs => [none, some (cs.getD 0 [])]⟩
  else none⟩

/-- The pool of `debugDoc` with every byte of the input `5`. -/
def debugPool : Pool :=
  [List.replicate 40 5, List.replicate 40 0, List.replicate 40 0, List.replicate 40 0]

/-- A tensor of the caller's shaped like every entry of `debugDoc`, with every byte `b`. -/
def debugTensor (b : UInt8) : HostTensor := ⟨[40], ⟨1, 8, 1⟩, List.replicate 40 b, rfl⟩

/-- A one-byte `uint8` tensor of the caller's. -/
def byteTensor (b : UInt8) : HostTensor := ⟨[1], ⟨1, 8, 1⟩, [b], rfl⟩

/-- `GraphRuntime::GetNodeIndex(name)`, of a build with `TVM_GRAPH_RUNTIME_DEBUG`: the first
node carrying the name, as an `int`; that none does is fatal. -/
def getNodeIndex (rt : GraphRuntime) (name : String) : Result Int :=
  match (List.range rt.nodes.length).find? fun nid => (rt.nodes.getD nid .empty).name == name with
  | some nid => pure (narrowToInt nid)
  | none => throw (.check ("cannot find " ++ name ++ " among nodex"))

/-- The loop of `DebugGetNodeOutput`: slots `0 .. index`, stopping after `index`. -/
def runUpTo (rt : GraphRuntime) (index : Int) (mem : Pool) : Result Pool :=
  (List.range rt.opExecs.length).foldlM (fun mem (i : Nat) =>
    if (i : Int) ≤ index then rt.runSlot mem i else pure mem) mem

/-- `GraphRuntime::DebugGetNodeOutput(index, data_out)`: the entry copied out is
`data_entry_[index]`. -/
def debugGetNodeOutput (rt : GraphRuntime) (mem : Pool) (index : Int) (dataOut : HostTensor) :
    Result (Pool × HostTensor) := do
  check (sizeT index < rt.nodes.length) "static_cast<size_t>(index) < nodes_.size()"
  let mem ← rt.runUpTo index mem
  let src ← vecAt rt.dataEntry (sizeT index % 2 ^ 32) "data_entry_"
  pure (mem, ← copyToHost mem src dataOut)

end GraphRuntime

end TvmGraphRuntime
