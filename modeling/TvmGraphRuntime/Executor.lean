import TvmGraphRuntime.Params

/-!
# The public operations

The operations `GraphRuntime::GetFunction` exposes, on the executor after `Init` and a
`Store`: the pool memory, the caller's tensors and the debug buffers, the only state they
change. The tensors of `set_input`, `get_input` and `get_output` are read or written within the
call and are passed by value; `set_debug_buffer` keeps the caller's `DLTensor*` past the call,
and `DebugRun` writes through it, so a debug buffer is a pointer into the caller's tensors.

`set_input` and `get_input` take an index or a name; a name is resolved by `GetInputIndex`,
an unknown one making `set_input` do nothing and `get_input` fail its check. `get_output`
copies out the entry of a head, `get_input_names` and `get_output_names` list names, each
followed by `;`. `run` is `Run`, or `DebugRun` for an executor created in debug mode.
`GetOutput`'s printing and `DumpGraphRuntime` change no state and are left out.

`GraphRuntime.exec` runs a sequence of calls, stopping at the first that fails.
-/

namespace TvmGraphRuntime

/-- The memory the public operations read and write: the pool, the caller's tensors that debug
buffers may point to, and the debug buffers, each a pointer to one of them. -/
structure Store where
  pool : Pool
  host : List HostTensor
  debugBuffers : List Nat

/-- The first argument of `set_input` and `get_input`: an index, or a name. -/
inductive InputKey where
  | index (i : Int)
  | name (s : String)

/-- A call of one of the public operations, with its arguments. -/
inductive Call where
  | setInput (key : InputKey) (dataIn : HostTensor)
  | getInput (key : InputKey) (dataOut : HostTensor)
  | getOutput (index : Int) (dataOut : HostTensor)
  | getInputNames
  | getOutputNames
  | setDebugBuffer (buffer : Nat)
  | run
  | loadParams (blob : List UInt8)

/-- What a call hands back to the caller. -/
inductive Reply where
  | unit
  | tensor (t : HostTensor)
  | str (s : String)

namespace Graph

variable (g : Graph)

/-- `GraphRuntime::GetInputNames`: for each input slot, `nodes_[eid].name` and `;`, where
`eid = entry_id(input_nodes_[index], 0)`. -/
def getInputNames : Result String :=
  g.inputNodes.foldlM (fun names nid => do
    let eid ← g.entryId nid 0
    pure (names ++ (← vecAt g.nodes eid "nodes_").name ++ ";")) ""

/-- A well-formed graph whose second input slot is node 2, after a node with two outputs: its
entry is entry 3, and `GetInputNames` lists the name of node 3. -/
def twoOutputGraph : Graph where
  nodes := [⟨"null", "a", none, [], []⟩, ⟨"tvm_op", "f", some ⟨"f", 1, 2, 0⟩, [⟨0, 0, 0⟩], []⟩,
    ⟨"null", "b", none, [], []⟩, ⟨"tvm_op", "g", some ⟨"g", 1, 1, 0⟩, [⟨2, 0, 0⟩], []⟩]
  inputNodes := [0, 2]
  nodeRowPtr := [0, 1, 3, 4, 5]
  outputs := [⟨3, 0, 0⟩]
  attrs := ⟨[0, 1, 2, 3, 4], ["float32", "float32", "float32", "float32", "float32"],
    [[1], [1], [1], [1], [1]]⟩

/-- In `twoOutputGraph` the input slots are nodes `a` and `b`, but `GetInputNames` lists
`a;g;`, and the name `g` resolves to no input slot. -/
theorem getInputNames_twoOutputGraph :
    twoOutputGraph.WellFormed ∧
      twoOutputGraph.inputNodes.map (fun nid => (twoOutputGraph.nodes.getD nid .empty).name) =
        ["a", "b"] ∧
      twoOutputGraph.getInputNames = .ok "a;g;" ∧
      twoOutputGraph.getInputIndex (utf8Bytes "g") = .ok (-1) := by
  decide

/-- `GraphRuntime::GetOutputNames`: for each head, `nodes_[entry_id(outputs_[index])].name`
and `;`. -/
def getOutputNames : Result String :=
  g.outputs.foldlM (fun names e => do
    let eid ← g.entryId e.nodeId e.index
    pure (names ++ (← vecAt g.nodes eid "nodes_").name ++ ";")) ""

end Graph

namespace GraphRuntime

variable (rt : GraphRuntime)

/-- `GraphRuntime::SetInput(index, data_in)`. -/
def setInput (mem : Pool) (index : Int) (dataIn : HostTensor) : Result Pool := do
  check (sizeT index < rt.inputNodes.length) "static_cast<size_t>(index) < input_nodes_.size()"
  copyFromHost mem dataIn (← rt.slotView (sizeT index))

/-- `GraphRuntime::GetInput(index, data_out)`. -/
def getInput (mem : Pool) (index : Int) (dataOut : HostTensor) : Result HostTensor := do
  check (sizeT index < rt.inputNodes.length) "static_cast<size_t>(index) < input_nodes_.size()"
  copyToHost mem (← rt.slotView (sizeT index)) dataOut

/-- `GraphRuntime::GetOutput(index, data_out)`. -/
def getOutput (mem : Pool) (index : Int) (dataOut : HostTensor) : Result HostTensor := do
  check (sizeT index < rt.outputs.length) "static_cast<size_t>(index) < outputs_.size()"
  let e ← vecAt rt.outputs (sizeT index) "outputs_"
  let eid ← rt.entryId e.nodeId e.index
  copyToHost mem (← vecAt rt.dataEntry eid "data_entry_") dataOut

/-- A call through the function `GetFunction` returns for its name. -/
def call (kTVMNDArrayListMagic kTVMNDArrayMagic : Nat) (st : Store) : Call → Result (Store × Reply)
  | .setInput (.name s) dataIn => do
    let inIdx ← rt.getInputIndex (utf8Bytes s)
    if 0 ≤ inIdx then pure ({ st with pool := ← rt.setInput st.pool inIdx dataIn }, .unit)
    else pure (st, .unit)
  | .setInput (.index i) dataIn => do
    pure ({ st with pool := ← rt.setInput st.pool i dataIn }, .unit)
  | .getInput (.name s) dataOut => do
    let inIdx ← rt.getInputIndex (utf8Bytes s)
    check (0 ≤ inIdx) "in_idx >= 0"
    pure (st, .tensor (← rt.getInput st.pool inIdx dataOut))
  | .getInput (.index i) dataOut => do pure (st, .tensor (← rt.getInput st.pool i dataOut))
  | .getOutput i dataOut => do pure (st, .tensor (← rt.getOutput st.pool i dataOut))
  | .getInputNames => do pure (st, .str (← rt.getInputNames))
  | .getOutputNames => do pure (st, .str (← rt.getOutputNames))
  | .setDebugBuffer buffer => pure ({ st with debugBuffers := st.debugBuffers ++ [buffer] }, .unit)
  | .run =>
    if rt.debug then do
      let (pool, host) ← rt.debugRun st.pool st.host st.debugBuffers
      pure ({ st with pool, host }, .unit)
    else do pure ({ st with pool := ← rt.run st.pool }, .unit)
  | .loadParams blob => do
    pure ({ st with pool := ← rt.loadParams kTVMNDArrayListMagic kTVMNDArrayMagic st.pool blob },
      .unit)

/-- The function `GetFunction` returns for `debug_get_output`, in a build with
`TVM_GRAPH_RUNTIME_DEBUG`: a node given by its name is found by `GetNodeIndex`. -/
def debugGetOutput (mem : Pool) (key : InputKey) (dataOut : HostTensor) :
    Result (Pool × HostTensor) :=
  match key with
  | .name s => do rt.debugGetNodeOutput mem (← rt.getNodeIndex s) dataOut
  | .index i => rt.debugGetNodeOutput mem i dataOut

/-- A sequence of calls, stopping at the first that fails: the final store and the replies. -/
def exec (kTVMNDArrayListMagic kTVMNDArrayMagic : Nat) :
    Store → List Call → Result (Store × List Reply)
  | st, [] => pure (st, [])
  | st, c :: cs => do
    let (st, r) ← rt.call kTVMNDArrayListMagic kTVMNDArrayMagic st c
    let (st, rs) ← exec kTVMNDArrayListMagic kTVMNDArrayMagic st cs
    pure (st, r :: rs)

/-! ### Reaching an input slot -/

variable {rt}

theorem setInput_eq_ok {mem mem' : Pool} {index : Int} {dataIn : HostTensor}
    (h : rt.setInput mem index dataIn = .ok mem') :
    ∃ v, rt.slotView (sizeT index) = .ok v ∧ dataIn.bytes.length = v.size ∧
      rt.storeSlot mem (sizeT index, dataIn.bytes) = .ok mem' := by
  simp only [setInput, bind_eq_ok, check_eq_ok] at h
  obtain ⟨⟨⟩, -, v, hv, hcopy⟩ := h
  obtain ⟨hlen, hw⟩ := copyFromHost_eq_ok hcopy
  exact ⟨v, hv, hlen, by simp [storeSlot, hv, hw]⟩

theorem getInput_eq_ok {mem : Pool} {index : Int} {dataOut t : HostTensor}
    (h : rt.getInput mem index dataOut = .ok t) :
    ∃ v, rt.slotView (sizeT index) = .ok v ∧ readView mem v = .ok t.bytes := by
  simp only [getInput, bind_eq_ok, check_eq_ok] at h
  obtain ⟨⟨⟩, -, v, hv, hcopy⟩ := h
  exact ⟨v, hv, copyToHost_eq_ok hcopy⟩

end GraphRuntime

end TvmGraphRuntime
