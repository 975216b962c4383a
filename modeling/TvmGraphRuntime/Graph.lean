import TvmGraphRuntime.Tensor

/-!
# The graph model

The fields `GraphRuntime::Load` fills: the nodes, the argument nodes (the input slots),
`node_row_ptr`, the heads (the outputs) and the storage plan `attrs`. Unsigned 32-bit fields
of the source are natural numbers here, and `entryId` adds modulo `2^32` as `entry_id` does.

A node's attributes are `none` until an `attr`/`attrs` object was read for it: the
source leaves `TVMOpParam`'s integers default-initialised, so reading them is a use of an
indeterminate value.

`Graph.WellFormed` collects the invariants of the graph model that the compiler establishes
and the loader never checks: `node_row_ptr` is the prefix sum of the output counts, every
node input names an earlier node's existing output, every input slot and head names an
existing entry, and the three arrays of the storage plan have one element per entry. Under
them `entryId` is the offset of a node plus the output index (`entryId_eq`), and the entry
count is the last element of `node_row_ptr` (`numNodeEntries_eq`).
-/

namespace TvmGraphRuntime

/-- `NodeEntry`: one output of one node. -/
structure NodeEntry where
  nodeId : Nat
  index : Nat
  version : Nat
  deriving DecidableEq, Repr

/-- `TVMOpParam`: the attributes of a `tvm_op` node. -/
structure TVMOpParam where
  funcName : String
  numInputs : Nat
  numOutputs : Nat
  flattenData : Nat
  deriving DecidableEq, Repr

/-- `Node`: operator type, name, attributes, inputs and control dependencies. -/
structure Node where
  opType : String
  name : String
  param : Option TVMOpParam
  inputs : List NodeEntry
  controlDeps : List Nat
  deriving DecidableEq, Repr

/-- A default-constructed node, before `Node::Load` reads its keys. -/
def Node.empty : Node := ⟨"", "", none, [], []⟩

/-- `GraphAttr`: the storage plan, indexed by entry id. -/
structure GraphAttr where
  storageId : List Int
  dltype : List String
  shape : List (List Int)
  deriving DecidableEq, Repr

/-- The loaded graph: `nodes_`, `input_nodes_`, `node_row_ptr_`, `outputs_` and `attrs_`. -/
structure Graph where
  nodes : List Node
  inputNodes : List Nat
  nodeRowPtr : List Nat
  outputs : List NodeEntry
  attrs : GraphAttr
  deriving DecidableEq, Repr

namespace Graph

/-- `entry_id(nid, index)`: `node_row_ptr_[nid] + index` in `uint32_t`. -/
def entryId (g : Graph) (nid index : Nat) : Result Nat := do
  let row ← vecAt g.nodeRowPtr nid "node_row_ptr_"
  pure ((row + index) % 2 ^ 32)

/-- `num_node_entries()`: `node_row_ptr_.back()`. -/
def numNodeEntries (g : Graph) : Result Nat :=
  match g.nodeRowPtr.getLast? with
  | some n => pure n
  | none => throw (.outOfRange "node_row_ptr_.back()")

end Graph

/-! ### The invariants of the graph model -/

/-- The number of entries a node has in the plan: `num_outputs` of its attributes, and one
for a node without attributes (an input placeholder). -/
def Node.numOutputs (n : Node) : Nat := (n.param.map TVMOpParam.numOutputs).getD 1

/-- `node_row_ptr` as the plan has it: entry `i` is the number of outputs before node `i`. -/
def rowPtrOf (nodes : List Node) : List Nat :=
  (List.range (nodes.length + 1)).map fun i => ((nodes.take i).map Node.numOutputs).sum

namespace Graph

/-- The output count of node `nid`, zero past the last node. -/
def numOutputsOf (g : Graph) (nid : Nat) : Nat := (g.nodes[nid]?.map Node.numOutputs).getD 0

/-- The first entry id of node `nid`. -/
def offset (g : Graph) (nid : Nat) : Nat := ((g.nodes.take nid).map Node.numOutputs).sum

/-- The number of entries: the sum of the output counts. -/
def totalEntries (g : Graph) : Nat := (g.nodes.map Node.numOutputs).sum

/-- A node entry that names an existing output of an existing node. -/
def ValidEntry (g : Graph) (e : NodeEntry) : Prop := e.index < g.numOutputsOf e.nodeId

instance (g : Graph) (e : NodeEntry) : Decidable (g.ValidEntry e) :=
  inferInstanceAs (Decidable (_ < _))

/-- The invariants of the graph model, which the compiler establishes and the loader trusts. -/
structure WellFormed (g : Graph) : Prop where
  nodeRowPtr_eq : g.nodeRowPtr = rowPtrOf g.nodes
  totalEntries_lt : g.totalEntries < 2 ^ 32
  inputs_valid : ∀ nid (h : nid < g.nodes.length), ∀ e ∈ g.nodes[nid].inputs,
    e.nodeId < nid ∧ g.ValidEntry e
  inputNodes_valid : ∀ nid ∈ g.inputNodes, g.ValidEntry ⟨nid, 0, 0⟩
  outputs_valid : ∀ e ∈ g.outputs, g.ValidEntry e
  storageId_length : g.attrs.storageId.length = g.totalEntries
  dltype_length : g.attrs.dltype.length = g.totalEntries
  shape_length : g.attrs.shape.length = g.totalEntries

theorem wellFormed_iff (g : Graph) : g.WellFormed ↔
    (g.nodeRowPtr = rowPtrOf g.nodes ∧ g.totalEntries < 2 ^ 32) ∧
      ((∀ nid (h : nid < g.nodes.length), ∀ e ∈ g.nodes[nid].inputs,
        e.nodeId < nid ∧ g.ValidEntry e) ∧ (∀ nid ∈ g.inputNodes, g.ValidEntry ⟨nid, 0, 0⟩)) ∧
      ((∀ e ∈ g.outputs, g.ValidEntry e) ∧ g.attrs.storageId.length = g.totalEntries) ∧
      (g.attrs.dltype.length = g.totalEntries ∧ g.attrs.shape.length = g.totalEntries) :=
  ⟨fun ⟨a, b, c, d, e, f, i, j⟩ => ⟨⟨a, b⟩, ⟨c, d⟩, ⟨e, f⟩, ⟨i, j⟩⟩,
    fun ⟨⟨a, b⟩, ⟨c, d⟩, ⟨e, f⟩, ⟨i, j⟩⟩ => ⟨a, b, c, d, e, f, i, j⟩⟩

instance (g : Graph) : Decidable g.WellFormed := decidable_of_iff _ (wellFormed_iff g).symm

/-! ### Entry ids in a well-formed graph -/

theorem numOutputsOf_of_lt {g : Graph} {nid : Nat} (h : nid < g.nodes.length) :
    g.numOutputsOf nid = g.nodes[nid].numOutputs := by
  simp [numOutputsOf, List.getElem?_eq_getElem h]

theorem lt_length_of_valid {g : Graph} {e : NodeEntry} (h : g.ValidEntry e) :
    e.nodeId < g.nodes.length := by
  by_contra hn
  simp [ValidEntry, numOutputsOf, List.getElem?_eq_none (Nat.le_of_not_lt hn)] at h

/-- The offsets grow by the output count of each node. -/
theorem offset_succ (g : Graph) (nid : Nat) :
    g.offset (nid + 1) = g.offset nid + g.numOutputsOf nid := by
  simp only [offset, numOutputsOf, List.take_succ, List.map_append, List.sum_append]
  cases g.nodes[nid]? <;> simp

theorem offset_mono (g : Graph) {a b : Nat} (h : a ≤ b) : g.offset a ≤ g.offset b := by
  induction b, h using Nat.le_induction with
  | base => exact Nat.le_refl _
  | succ b _ ih => rw [offset_succ]; omega

/-- Past the last node the offset is the number of entries. -/
theorem offset_length (g : Graph) : g.offset g.nodes.length = g.totalEntries := by
  simp [offset, totalEntries]

/-- `node_row_ptr_[nid]` is the offset of node `nid`. -/
theorem getElem?_rowPtrOf {g : Graph} {nid : Nat} (h : nid ≤ g.nodes.length) :
    (rowPtrOf g.nodes)[nid]? = some (g.offset nid) := by
  simp [rowPtrOf, offset, List.getElem?_map, List.getElem?_range (Nat.lt_succ_of_le h)]

/-- Every entry of a valid node entry lies below the number of entries. -/
theorem offset_add_lt_total {g : Graph} {e : NodeEntry} (h : g.ValidEntry e) :
    g.offset e.nodeId + e.index < g.totalEntries := by
  have h1 := g.offset_succ e.nodeId
  have h2 := g.offset_mono (show e.nodeId + 1 ≤ g.nodes.length from lt_length_of_valid h)
  rw [offset_length] at h2
  unfold ValidEntry at h
  omega

variable {g : Graph} (hg : g.WellFormed)
include hg

/-- In a well-formed graph `entry_id` of a valid entry is its node's offset plus its index. -/
theorem entryId_eq {e : NodeEntry} (h : g.ValidEntry e) :
    g.entryId e.nodeId e.index = .ok (g.offset e.nodeId + e.index) := by
  have hlt := offset_add_lt_total h
  have hrow : g.nodeRowPtr[e.nodeId]? = some (g.offset e.nodeId) := by
    rw [hg.nodeRowPtr_eq]
    exact getElem?_rowPtrOf (Nat.le_of_lt (lt_length_of_valid h))
  simp only [entryId, vecAt, hrow, bind, Except.bind, pure, Except.pure]
  rw [Nat.mod_eq_of_lt (by have := hg.totalEntries_lt; omega)]

theorem numNodeEntries_eq : g.numNodeEntries = .ok g.totalEntries := by
  have hlast : g.nodeRowPtr.getLast? = some g.totalEntries := by
    rw [List.getLast?_eq_getElem?, hg.nodeRowPtr_eq, ← offset_length]
    simpa [rowPtrOf] using getElem?_rowPtrOf (g := g) (Nat.le_refl _)
  simp [numNodeEntries, hlast, pure, Except.pure]

end Graph

end TvmGraphRuntime
