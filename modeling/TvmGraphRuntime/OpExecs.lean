import TvmGraphRuntime.Storage
import TvmGraphRuntime.Load

/-!
# Binding kernels, and the runtime after `Init`

`GraphRuntime::SetupOpExecs` builds, for every node that is not an input placeholder, the
views of its input entries followed by the views of its output entries, and hands them to
`GraphRuntime::CreateTVMOp`. That packs them into the frame the closure keeps
(`OpArgs`): when `flatten_data` is set every view is rewritten to one dimension whose extent
is `std::accumulate` of its shape (`accumulateShape`). A `__nop` function gets a closure that
does nothing; any other name is looked up in the code module, and a missing one is fatal.

A kernel (`PackedFunc`) is opaque: given the argument views and the bytes they hold, it says
which arguments it writes and with what (`Run.lean` performs the call). The argument value
cells and type codes of the frame are the pointers to these views and the constant
`kArrayHandle`, so the model passes the views themselves.

`GraphRuntime` is the executor after `Init`: the loaded graph, the code module, the pool
buffers, the entry views, the closures and the debug flag.
-/

namespace TvmGraphRuntime

/-- A compiled kernel: from the argument views and their bytes, the bytes it writes into each
argument (`none` for an argument it does not write). -/
structure PackedFunc where
  call : List DLTensor → List (List UInt8) → List (Option (List UInt8))

/-- The code module the kernels are looked up in: `module_.GetFunction(name, false)`. -/
structure Module where
  getFunction : String → Option PackedFunc

/-- The frame of a closure (`OpArgs`): the argument views and the flattened extents. -/
structure OpArgs where
  args : List DLTensor
  shapeData : List Int

/-- An executor slot: the empty closure of `__nop`, or a kernel call on its frame. -/
inductive OpExec where
  | nop
  | call (pf : PackedFunc) (frame : OpArgs)

/-- One step of the accumulation: `std::multiplies<int64_t>()` of the `int` accumulator and an
extent, narrowed back to `int`. -/
def accumulateStep (acc d : Int) : Result Int :=
  if -2 ^ 63 ≤ acc * d ∧ acc * d < 2 ^ 63 then pure (narrowToInt (acc * d))
  else throw (.undefined "signed overflow in std::multiplies<int64_t>")

/-- `std::accumulate(t->shape, t->shape + t->ndim, 1, std::multiplies<int64_t>())`. The
accumulator has the type of the literal `1`, which is `int`: each product is taken in
`int64_t`, where overflow is undefined, and narrowed back to `int`. -/
def accumulateShape (shape : List Int) : Result Int :=
  shape.foldlM accumulateStep 1

/-- The frame `CreateTVMOp` packs: with `flatten_data` every view becomes one-dimensional,
its extent the accumulated product of its shape. -/
def packArgs (param : TVMOpParam) (args : List DLTensor) : Result OpArgs :=
  if param.flattenData ≠ 0 then do
    let shapeData ← args.mapM fun t => accumulateShape t.shape
    pure ⟨(args.zip shapeData).map fun (t, n) => { t with shape := [n] }, shapeData⟩
  else pure ⟨args, []⟩

/-- `GraphRuntime::CreateTVMOp`. The number of inputs is passed but not used. -/
def createTVMOp (module : Module) (param : TVMOpParam) (args : List DLTensor)
    (_numInputs : Nat) : Result OpExec := do
  let frame ← packArgs param args
  if param.funcName = "__nop" then pure .nop
  else match module.getFunction param.funcName with
    | some pf => pure (.call pf frame)
    | none => throw (.check ("no such function in module: " ++ param.funcName))

/-- The frame a closure holds, none for `__nop`. -/
def OpExec.frame? : OpExec → Option OpArgs
  | .nop => none
  | .call _ frame => some frame

/-- `inode.param`: the attributes read for the node, indeterminate when none were. -/
def Node.paramOf (inode : Node) : Result TVMOpParam :=
  match inode.param with
  | some p => pure p
  | none => throw (.undefined "indeterminate TVMOpParam")

/-- The views of a node's input entries followed by those of its output entries. -/
def argsOf (g : Graph) (dataEntry : List DLTensor) (nid : Nat) (inode : Node) :
    Result (List DLTensor) := do
  let ins ← inode.inputs.mapM fun e => do
    vecAt dataEntry (← g.entryId e.nodeId e.index) "data_entry_"
  let param ← inode.paramOf
  let outs ← (List.range param.numOutputs).mapM fun index => do
    vecAt dataEntry (← g.entryId nid index) "data_entry_"
  pure (ins ++ outs)

/-- The body of the loop of `SetupOpExecs`: the slot of node `nid`. -/
def setupOpExec (module : Module) (g : Graph) (dataEntry : List DLTensor) (nid : Nat) :
    Result (Option OpExec) := do
  let inode ← vecAt g.nodes nid "nodes_"
  if inode.opType = "null" then pure none
  else do
    let args ← argsOf g dataEntry nid inode
    check (inode.opType == "tvm_op") "Can only take tvm_op as op"
    let param ← inode.paramOf
    pure (some (← createTVMOp module param args inode.inputs.length))

/-- `GraphRuntime::SetupOpExecs`: one slot per node. -/
def setupOpExecs (module : Module) (g : Graph) (dataEntry : List DLTensor) :
    Result (List (Option OpExec)) :=
  (List.range g.nodes.length).mapM (setupOpExec module g dataEntry)

/-! ### Flattening -/

private theorem foldlM_accumulateStep {shape : List Int} {acc : Int}
    (h : ∀ j ≤ shape.length, -2 ^ 31 ≤ acc * (shape.take j).prod ∧
      acc * (shape.take j).prod < 2 ^ 31) :
    shape.foldlM accumulateStep acc = .ok (acc * shape.prod) := by
  induction shape generalizing acc with
  | nil => simp [pure, Except.pure]
  | cons d ds ih =>
    have h1 := h 1 (by simp)
    simp only [List.take_succ_cons, List.take_zero, List.prod_cons, List.prod_nil,
      mul_one] at h1
    rw [List.foldlM_cons, accumulateStep, if_pos ⟨by omega, by omega⟩,
      narrowToInt_of_lt h1.1 h1.2]
    have := @ih (acc * d) fun j hj => by
      simpa [mul_assoc] using h (j + 1) (by simpa using hj)
    simpa [mul_assoc] using this

/-- When every prefix product of a shape fits in an `int`, `std::accumulate` computes the
exact number of elements. -/
theorem accumulateShape_eq_prod {shape : List Int}
    (h : ∀ j ≤ shape.length, -2 ^ 31 ≤ (shape.take j).prod ∧ (shape.take j).prod < 2 ^ 31) :
    accumulateShape shape = .ok shape.prod := by
  simpa using @foldlM_accumulateStep shape 1 (by simpa using h)

/-- The frame keeps every argument's data pointer. -/
theorem data_of_packArgs {p : TVMOpParam} {args : List DLTensor} {frame : OpArgs}
    (h : packArgs p args = .ok frame) : frame.args.map DLTensor.data = args.map DLTensor.data := by
  unfold packArgs at h
  split_ifs at h with hf
  · simp only [bind_eq_ok, pure_eq_ok] at h
    obtain ⟨ns, hns, rfl⟩ := h
    have hlen := (mapM_eq_ok.mp hns).length_eq
    rw [List.map_map]
    change (args.zip ns).map (DLTensor.data ∘ Prod.fst) = _
    rw [← List.map_map, List.map_fst_zip _ _ (by omega)]
  · rw [← pure_eq_ok.mp h]

/-- With `flatten_data` unset the frame holds the views themselves. -/
theorem packArgs_of_flattenData_eq_zero {p : TVMOpParam} (h0 : p.flattenData = 0)
    (args : List DLTensor) : packArgs p args = .ok ⟨args, []⟩ := by
  simp [packArgs, h0, pure, Except.pure]

/-- With `flatten_data` set and every accumulation exact, the frame holds the views made
one-dimensional with their element counts. -/
theorem packArgs_of_exact {p : TVMOpParam} {args : List DLTensor} (hne : p.flattenData ≠ 0)
    (hex : ∀ t ∈ args, accumulateShape t.shape = .ok t.shape.prod) :
    packArgs p args = .ok ⟨args.map fun t => { t with shape := [t.shape.prod] },
      args.map fun t => t.shape.prod⟩ := by
  have hm : args.mapM (fun t => accumulateShape t.shape) = .ok (args.map fun t => t.shape.prod) :=
    mapM_eq_ok.mpr (List.forall₂_map_right_iff.mpr (List.forall₂_same.mpr hex))
  have hzip : ∀ l : List DLTensor, (l.zip (l.map fun t => t.shape.prod)).map
      (fun (t, n) => ({ t with shape := [n] } : DLTensor)) =
        l.map fun t => { t with shape := [t.shape.prod] } := by
    intro l; induction l <;> simp_all
  simp only [packArgs, if_pos hne, hm, bind, Except.bind, hzip]
  rfl

/-- With every accumulation exact, the frame keeps every argument's byte size. -/
theorem size_of_packArgs {p : TVMOpParam} {args : List DLTensor} {frame : OpArgs}
    (h : packArgs p args = .ok frame)
    (hex : p.flattenData ≠ 0 → ∀ t ∈ args, accumulateShape t.shape = .ok t.shape.prod) :
    frame.args.map DLTensor.size = args.map DLTensor.size := by
  by_cases hf : p.flattenData = 0
  · rw [packArgs_of_flattenData_eq_zero hf] at h
    cases h
    rfl
  · rw [packArgs_of_exact hf (hex hf)] at h
    cases h
    simp [Function.comp_def, DLTensor.size_flatten]

/-! ### The slot of each node -/

@[simp] theorem Node.paramOf_eq_ok {inode : Node} {p : TVMOpParam} :
    inode.paramOf = .ok p ↔ inode.param = some p := by
  unfold Node.paramOf
  cases inode.param <;> simp

theorem argsOf_eq_ok {g : Graph} {entries : List DLTensor} {nid : Nat} {inode : Node}
    {args : List DLTensor} (h : argsOf g entries nid inode = .ok args) :
    ∃ p ins outs, inode.param = some p ∧ args = ins ++ outs ∧
      List.Forall₂ (fun e t => ∃ eid, g.entryId e.nodeId e.index = .ok eid ∧ entries[eid]? = some t)
        inode.inputs ins ∧
      List.Forall₂ (fun k t => ∃ eid, g.entryId nid k = .ok eid ∧ entries[eid]? = some t)
        (List.range p.numOutputs) outs := by
  simp only [argsOf, bind_eq_ok, pure_eq_ok, Node.paramOf_eq_ok] at h
  obtain ⟨ins, hins, p, hp, outs, houts, rfl⟩ := h
  refine ⟨p, ins, outs, hp, rfl, ?_, ?_⟩
  · exact (mapM_eq_ok.mp hins).imp fun e t h => by simpa [bind_eq_ok, vecAt_eq_ok] using h
  · exact (mapM_eq_ok.mp houts).imp fun k t h => by simpa [bind_eq_ok, vecAt_eq_ok] using h

theorem createTVMOp_eq_ok {m : Module} {p : TVMOpParam} {args : List DLTensor} {k : Nat}
    {op : OpExec} (h : createTVMOp m p args k = .ok op) :
    ∃ frame, packArgs p args = .ok frame ∧
      (p.funcName = "__nop" ∧ op = .nop ∨
        p.funcName ≠ "__nop" ∧ ∃ pf, m.getFunction p.funcName = some pf ∧ op = .call pf frame) := by
  simp only [createTVMOp, bind_eq_ok] at h
  obtain ⟨frame, hframe, h⟩ := h
  refine ⟨frame, hframe, ?_⟩
  split_ifs at h with hnop
  · exact .inl ⟨hnop, (pure_eq_ok.mp h).symm⟩
  · refine .inr ⟨hnop, ?_⟩
    cases hf : m.getFunction p.funcName with
    | none => simp [hf] at h
    | some pf => exact ⟨pf, rfl, (pure_eq_ok.mp (by simpa [hf] using h)).symm⟩

theorem setupOpExec_eq_ok {m : Module} {g : Graph} {entries : List DLTensor} {nid : Nat}
    {op : Option OpExec} (h : setupOpExec m g entries nid = .ok op) :
    ∃ inode, g.nodes[nid]? = some inode ∧
      (inode.opType = "null" ∧ op = none ∨
        inode.opType = "tvm_op" ∧ ∃ p args e, inode.param = some p ∧
          argsOf g entries nid inode = .ok args ∧ createTVMOp m p args inode.inputs.length = .ok e ∧
          op = some e) := by
  simp only [setupOpExec, bind_eq_ok, vecAt_eq_ok] at h
  obtain ⟨inode, hnode, h⟩ := h
  refine ⟨inode, hnode, ?_⟩
  split_ifs at h with hnull
  · exact .inl ⟨hnull, (pure_eq_ok.mp h).symm⟩
  · simp only [bind_eq_ok, check_eq_ok, pure_eq_ok, Node.paramOf_eq_ok] at h
    obtain ⟨args, hargs, ⟨⟩, htvm, p, hp, e, he, rfl⟩ := h
    exact .inr ⟨by simpa using htvm, p, args, e, hp, hargs, he, rfl⟩


/-- Argument `j` of a frame past the node's inputs points where an output entry of the node
does. -/
theorem data_of_frame_output {g : Graph} {entries : List DLTensor} {nid : Nat} {inode : Node}
    {args : List DLTensor} {p : TVMOpParam} {frame : OpArgs}
    (hargs : argsOf g entries nid inode = .ok args) (hp : inode.param = some p)
    (hframe : packArgs p args = .ok frame) {j : Nat} (hj : j < frame.args.length)
    (hjin : inode.inputs.length ≤ j) :
    ∃ eo t, j - inode.inputs.length < p.numOutputs ∧
      g.entryId nid (j - inode.inputs.length) = .ok eo ∧ entries[eo]? = some t ∧
      frame.args[j].data = t.data := by
  obtain ⟨p', ins, outs, hp', rfl, hins, houts⟩ := argsOf_eq_ok hargs
  obtain rfl : p = p' := Option.some.inj (hp.symm.trans hp')
  have hdata := data_of_packArgs hframe
  have hinlen : ins.length = inode.inputs.length := hins.length_eq.symm
  have houtlen : outs.length = p.numOutputs := by simpa using houts.length_eq.symm
  have hjlen : j < ins.length + outs.length := by
    have := congrArg List.length hdata
    simp only [List.length_map, List.length_append] at this
    omega
  have hk : j - inode.inputs.length < p.numOutputs := by omega
  have hget := houts.get (by simpa using hk) (by omega)
  simp only [List.get_eq_getElem, List.getElem_range] at hget
  obtain ⟨eo, heo, ht⟩ := hget
  refine ⟨eo, _, hk, heo, ht, ?_⟩
  have := congrArg (·[j]?) hdata
  simp only [List.getElem?_map, List.getElem?_eq_getElem hj,
    List.getElem?_eq_getElem (show j < (ins ++ outs).length by simpa using hjlen),
    Option.map_some', Option.some.injEq] at this
  rw [this, List.getElem_append_right (by omega)]
  simp [hinlen]

/-- The views `SetupOpExecs` hands node `nid` of a well-formed graph: those of its input
entries, then those of its own `num_outputs` entries. -/
def slotArgs (g : Graph) (entries : List DLTensor) (nid : Nat) (p : TVMOpParam) :
    List DLTensor :=
  (g.nodes.getD nid .empty).inputs.map (fun e => entries.getD (g.offset e.nodeId + e.index) default) ++
    (List.range p.numOutputs).map fun k => entries.getD (g.offset nid + k) default

theorem entryView_eq {g : Graph} (hg : g.WellFormed) {entries : List DLTensor}
    (hlen : entries.length = g.totalEntries) {e : NodeEntry} (hv : g.ValidEntry e) :
    (do vecAt entries (← g.entryId e.nodeId e.index) "data_entry_") =
      Except.ok (ε := Fault) (entries.getD (g.offset e.nodeId + e.index) default) := by
  have hlt := Graph.offset_add_lt_total hv
  rw [Graph.entryId_eq hg hv]
  simp [bind, Except.bind, vecAt_of_lt _ (hlen ▸ hlt), List.getD_eq_getElem?_getD,
    List.getElem?_eq_getElem (hlen ▸ hlt)]

theorem argsOf_wellFormed {g : Graph} (hg : g.WellFormed) {entries : List DLTensor}
    (hlen : entries.length = g.totalEntries) {nid : Nat} (hnid : nid < g.nodes.length)
    {p : TVMOpParam} (hp : g.nodes[nid].param = some p) :
    argsOf g entries nid g.nodes[nid] = .ok (slotArgs g entries nid p) := by
  have hins : g.nodes[nid].inputs.mapM (fun e => do
      vecAt entries (← g.entryId e.nodeId e.index) "data_entry_") =
      .ok (g.nodes[nid].inputs.map fun e => entries.getD (g.offset e.nodeId + e.index) default) :=
    mapM_eq_ok.mpr (List.forall₂_map_right_iff.mpr (List.forall₂_same.mpr fun e he =>
      entryView_eq hg hlen (hg.inputs_valid nid hnid e he).2))
  have houts : (List.range p.numOutputs).mapM (fun k => do
      vecAt entries (← g.entryId nid k) "data_entry_") =
      .ok ((List.range p.numOutputs).map fun k => entries.getD (g.offset nid + k) default) := by
    refine mapM_eq_ok.mpr (List.forall₂_map_right_iff.mpr (List.forall₂_same.mpr fun k hk => ?_))
    have hv : g.ValidEntry ⟨nid, k, 0⟩ := by
      simp only [Graph.ValidEntry, Graph.numOutputsOf_of_lt hnid, Node.numOutputs, hp]
      simpa using hk
    exact entryView_eq hg hlen hv
  rw [argsOf, hins, ok_bind, Node.paramOf, hp, pure_bind, houts, ok_bind]
  simp [slotArgs, List.getD_eq_getElem?_getD, List.getElem?_eq_getElem hnid, pure, Except.pure]
/-- What `SetupOpExecs` installs for node `nid` of a well-formed graph: nothing for an input
placeholder; for a `tvm_op` node, `__nop`'s empty closure, or the node's kernel on the frame
packed from `slotArgs`. -/
def SlotSpec (m : Module) (g : Graph) (entries : List DLTensor) (nid : Nat) :
    Option OpExec → Prop
  | none => (g.nodes.getD nid .empty).opType = "null"
  | some .nop => (g.nodes.getD nid .empty).opType = "tvm_op" ∧
      ∃ p, (g.nodes.getD nid .empty).param = some p ∧ p.funcName = "__nop"
  | some (.call pf frame) => (g.nodes.getD nid .empty).opType = "tvm_op" ∧
      ∃ p, (g.nodes.getD nid .empty).param = some p ∧ p.funcName ≠ "__nop" ∧
        m.getFunction p.funcName = some pf ∧ packArgs p (slotArgs g entries nid p) = .ok frame

/-- `SetupOpExecs` on a well-formed graph: one slot per node, each as `SlotSpec` says. -/
theorem setupOpExecs_wellFormed {m : Module} {g : Graph} (hg : g.WellFormed)
    {entries : List DLTensor} (hlen : entries.length = g.totalEntries)
    {ops : List (Option OpExec)} (h : setupOpExecs m g entries = .ok ops) :
    ops.length = g.nodes.length ∧
      ∀ nid (hnid : nid < ops.length), SlotSpec m g entries nid ops[nid] := by
  obtain ⟨hops, hslot⟩ := mapM_range_eq_ok h
  refine ⟨hops, fun nid hnid' => ?_⟩
  have hnid : nid < g.nodes.length := hops ▸ hnid'
  obtain ⟨inode, hnode, hcase⟩ := setupOpExec_eq_ok (hslot nid hnid')
  obtain rfl : g.nodes[nid] = inode := by simpa [List.getElem?_eq_getElem hnid] using hnode
  have hget : g.nodes.getD nid .empty = g.nodes[nid] := by
    simp [List.getD_eq_getElem?_getD, List.getElem?_eq_getElem hnid]
  rcases hcase with ⟨hnull, hop⟩ | ⟨htvm, p, args, e, hp, hargs, he, hop⟩
  · rw [hop]; exact (hget ▸ hnull : (g.nodes.getD nid .empty).opType = "null")
  · rw [argsOf_wellFormed hg hlen hnid hp] at hargs
    cases hargs
    obtain ⟨frame, hframe, ⟨hnop, rfl⟩ | ⟨hnop, pf, hpf, rfl⟩⟩ := createTVMOp_eq_ok he
    · rw [hop]; exact ⟨hget ▸ htvm, p, hget ▸ hp, hnop⟩
    · rw [hop]; exact ⟨hget ▸ htvm, p, hget ▸ hp, hnop, hpf, hframe⟩

/-- The executor after `Init`. -/
structure GraphRuntime extends Graph where
  module : Module
  storagePool : List DLTensor
  dataEntry : List DLTensor
  opExecs : List (Option OpExec)
  debug : Bool

/-- `GraphRuntime::Init`: load the graph, set up the storage, bind the kernels. -/
def GraphRuntime.init (string2TVMType : String → Option DLDataType) (graphJson : JSONValue)
    (module : Module) (debug : Bool) : Result GraphRuntime := do
  let g ← Graph.load graphJson
  let (storagePool, dataEntry) ← setupStorage string2TVMType g
  let opExecs ← setupOpExecs module g dataEntry
  pure { g with module, storagePool, dataEntry, opExecs, debug }

/-- `Init` is the loader, then `SetupStorage`, then `SetupOpExecs`. -/
theorem GraphRuntime.init_eq_ok {f : String → Option DLDataType} {doc : JSONValue}
    {m : Module} {d : Bool} {rt : GraphRuntime} (h : GraphRuntime.init f doc m d = .ok rt) :
    Graph.load doc = .ok rt.toGraph ∧
      setupStorage f rt.toGraph = .ok (rt.storagePool, rt.dataEntry) ∧
      setupOpExecs m rt.toGraph rt.dataEntry = .ok rt.opExecs ∧ rt.module = m ∧ rt.debug = d := by
  simp only [GraphRuntime.init, bind_eq_ok, pure_eq_ok] at h
  obtain ⟨g, hg, ⟨pool, entries⟩, hs, ops, hops, rfl⟩ := h
  exact ⟨hg, hs, hops, rfl, rfl⟩

/-! ### The runtime after `Init` -/

namespace GraphRuntime

variable {f : String → Option DLDataType} {doc : JSONValue} {m : Module} {d : Bool}
  {rt : GraphRuntime}

/-- After `Init`, every view points at pool buffer `storage_id[e]` of its entry, an `int` no
smaller than 0. -/
theorem data_of_dataEntry (hinit : init f doc m d = .ok rt) {e : Nat} {t : DLTensor}
    (he : rt.dataEntry[e]? = some t) :
    ∃ s, rt.attrs.storageId[e]? = some s ∧ 0 ≤ s ∧ s < 2 ^ 31 ∧ t.data = s.toNat := by
  obtain ⟨hload, hsetup, -⟩ := init_eq_ok hinit
  obtain ⟨vtype, hv⟩ := setupStorage_types hsetup
  obtain ⟨n, -, hent, hb⟩ := setupStorage_dataEntry hsetup hv
  have hlen : rt.dataEntry.length = n := by simp [hent]
  have hen : e < n := hlen ▸ (List.getElem?_eq_some_iff.mp he).1
  obtain ⟨hsid, hsh, -, -⟩ := hb e hen
  have hs : rt.attrs.storageId[e]? = some (rt.attrs.storageId.getD e 0) := by
    simp [List.getD_eq_getElem?_getD, List.getElem?_eq_getElem hsid]
  have h0 := (setupStorage_checks hsetup hv e hsh).1
  have hrange := Graph.intIds_load hload _ (List.getElem?_mem hs)
  refine ⟨_, hs, h0, hrange.2, ?_⟩
  have : t = planView rt.attrs vtype e := by
    simpa [hent, List.getElem?_map, List.getElem?_range hen] using he.symm
  rw [this, planView, sizeT_of_nonneg h0 (by omega)]

/-- An installed kernel call belongs to a `tvm_op` node other than `__nop`: its frame packs
the node's arguments. -/
theorem opExecs_call (hinit : init f doc m d = .ok rt) {nid : Nat} {pf : PackedFunc}
    {frame : OpArgs} (h : rt.opExecs[nid]? = some (some (.call pf frame))) :
    ∃ p args, (rt.nodes.getD nid .empty).opType = "tvm_op" ∧
      (rt.nodes.getD nid .empty).param = some p ∧ p.funcName ≠ "__nop" ∧
      argsOf rt.toGraph rt.dataEntry nid (rt.nodes.getD nid .empty) = .ok args ∧
      packArgs p args = .ok frame := by
  obtain ⟨-, -, hops, -⟩ := init_eq_ok hinit
  obtain ⟨hlen, hslot⟩ := mapM_range_eq_ok hops
  have hnid' : nid < rt.opExecs.length := (List.getElem?_eq_some_iff.mp h).1
  obtain ⟨inode, hnode, hcase⟩ := setupOpExec_eq_ok (hslot nid hnid')
  have hget : rt.nodes.getD nid .empty = inode := by
    simp [List.getD_eq_getElem?_getD, hnode]
  have hop : rt.opExecs[nid] = some (.call pf frame) := by
    simpa [List.getElem?_eq_getElem hnid'] using h
  rcases hcase with ⟨-, hnone⟩ | ⟨htvm, p, args, e, hp, hargs, he, hsome⟩
  · simp [hop] at hnone
  · obtain ⟨frame', hframe, ⟨-, rfl⟩ | ⟨hnop, pf', -, rfl⟩⟩ := createTVMOp_eq_ok he
    · simp [hop] at hsome
    · simp only [hop, Option.some.injEq, OpExec.call.injEq] at hsome
      obtain ⟨rfl, rfl⟩ := hsome
      exact ⟨p, args, hget ▸ htvm, hget ▸ hp, hnop, hget ▸ hargs, hframe⟩

end GraphRuntime

/-- A graph whose kernel `f` has `flatten_data` set and an output of `2^31` bytes. -/
def flattenDoc : JSONValue := .obj [
  ("nodes", .arr [.obj [("op", .str "null"), ("name", .str "x"), ("inputs", .arr [])],
    .obj [("op", .str "tvm_op"), ("name", .str "f"), ("inputs", .arr [.arr [.num 0, .num 0]]),
      ("attrs", .obj [("func_name", .str "f"), ("num_inputs", .str "1"),
        ("num_outputs", .str "1"), ("flatten_data", .str "1")])]]),
  ("arg_nodes", .arr [.num 0]), ("node_row_ptr", .arr [.num 0, .num 1, .num 2]),
  ("heads", .arr [.arr [.num 1, .num 0]]),
  ("attrs", .obj [("dltype", .arr [.str "list_str", .arr [.str "uint8", .str "uint8"]]),
    ("storage_id", .arr [.str "list_int", .arr [.num 0, .num 1]]),
    ("shape", .arr [.str "list_shape", .arr [.arr [.num 1], .arr [.num (2 ^ 31)]]])])]

/-- `String2TVMType` on the one type `flattenDoc` uses. -/
def uint8Type (s : String) : Option DLDataType := if s = "uint8" then some ⟨1, 8, 1⟩ else none

/-- A module holding a kernel `f` that writes nothing. -/
def flattenModule : Module := ⟨fun name => if name = "f" then some ⟨fun _ _ => []⟩ else none⟩

/-- `Init` accepts `flattenDoc`, and the closure of `f` hands its output to the kernel with
the one extent `-2^31`, the `int` the accumulation narrows `2^31` to. -/
theorem createTVMOp_flattenDoc :
    ((GraphRuntime.init uint8Type flattenDoc flattenModule false).map fun rt =>
      (rt.attrs.shape, ((rt.opExecs.getD 1 none).bind OpExec.frame?).map OpArgs.args)) =
      .ok ([[1], [2 ^ 31]],
        some [⟨0, [1], ⟨1, 8, 1⟩⟩, ⟨1, [-2 ^ 31], ⟨1, 8, 1⟩⟩]) := by
  decide

end TvmGraphRuntime
