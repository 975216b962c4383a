import TvmGraphRuntime.Graph
import TvmGraphRuntime.Json

/-!
# Loading the graph text

`NodeEntry::Load`, `Node::LoadAttrs`, `Node::Load`, `GraphAttr::Load` and
`GraphRuntime::Load`. Each of the four object loaders walks the fields of an object in order,
reads the value of every key it knows into its field, and or-s a bit into a mask; after the
walk one check compares the mask with the bits of the required keys. The walks are folds of
a one-field step (`Node.loadAttrField`, `Node.loadField`, `GraphAttr.loadField`,
`Graph.loadField`) over the object's fields, so that a property of a whole walk is an
induction over the fields with one lemma per step.

A repeated key is read again and its field overwritten. `Read(&vector)` clears the vector
first; `Read(&attrs_)` calls `GraphAttr::Load` on the member itself and
`Node::LoadAttrs` assigns into the node's `param`, but both require every field they assign,
so on success the last object read determines them.
-/

namespace TvmGraphRuntime

open JSONReader

/-- `NodeEntry::Load`: `[node_id, index]` or `[node_id, index, version]`. -/
def NodeEntry.load (v : JSONValue) : Result NodeEntry := do
  let items ← beginArray v
  let (a, items) ← nextArrayItem items "invalid json format"
  let nodeId ← readUInt32 a
  let (b, items) ← nextArrayItem items "invalid json format"
  let index ← readUInt32 b
  match items with
  | [] => pure ⟨nodeId, index, 0⟩
  | c :: rest =>
    let version ← readUInt32 c
    check rest.isEmpty "invalid json format"
    pure ⟨nodeId, index, version⟩

/-- The body of the loop of `Node::LoadAttrs`: every value is read as a string; the four
attributes set their field and their bit, other keys are read and ignored. -/
def Node.loadAttrField (acc : TVMOpParam × Nat) (kv : String × JSONValue) :
    Result (TVMOpParam × Nat) := do
  let value ← readString kv.2
  let (param, bitmask) := acc
  if kv.1 = "func_name" then pure ({ param with funcName := value }, bitmask ||| 1)
  else if kv.1 = "num_inputs" then pure ({ param with numInputs := strtoul value }, bitmask ||| 2)
  else if kv.1 = "num_outputs" then
    pure ({ param with numOutputs := strtoul value }, bitmask ||| 4)
  else if kv.1 = "flatten_data" then
    pure ({ param with flattenData := strtoul value }, bitmask ||| 8)
  else pure (param, bitmask)

/-- `Node::LoadAttrs`: the four attributes must all be present. The fields of a node loaded
without attributes are indeterminate; every one of them is assigned before it can be used,
so the model starts the walk from zeros. -/
def Node.loadAttrs (param : Option TVMOpParam) (v : JSONValue) : Result TVMOpParam := do
  let fields ← beginObject v
  let (param, bitmask) ← fields.foldlM Node.loadAttrField (param.getD ⟨"", 0, 0, 0⟩, 0)
  check (bitmask == 1 ||| 2 ||| 4 ||| 8) "invalid format"
  pure param

/-- The body of the loop of `Node::Load`. -/
def Node.loadField (acc : Node × Nat) (kv : String × JSONValue) : Result (Node × Nat) := do
  let (node, bitmask) := acc
  let (key, v) := kv
  if key = "op" then pure ({ node with opType := ← readString v }, bitmask ||| 1)
  else if key = "name" then pure ({ node with name := ← readString v }, bitmask ||| 2)
  else if key = "inputs" then
    pure ({ node with inputs := ← readArray NodeEntry.load v }, bitmask ||| 4)
  else if key = "attr" ∨ key = "attrs" then
    pure ({ node with param := some (← Node.loadAttrs node.param v) }, bitmask)
  else if key = "control_deps" then
    pure ({ node with controlDeps := ← readArray readUInt32 v }, bitmask)
  else throw (.check ("do not support key " ++ key))

/-- `Node::Load`: `op`, `name` and `inputs` are required. -/
def Node.load (v : JSONValue) : Result Node := do
  let fields ← beginObject v
  let (node, bitmask) ← fields.foldlM Node.loadField (Node.empty, 0)
  check (bitmask == 1 ||| 2 ||| 4) "invalid format"
  pure node

/-- One tagged attribute `[tag, value]` of `GraphAttr::Load`: the tag must be `tag`, and the
array must end after the value. -/
def GraphAttr.loadTagged {α : Type} (tag : String) (read : JSONValue → Result α)
    (v : JSONValue) : Result α := do
  let items ← beginArray v
  let (t, items) ← nextArrayItem items "reader->NextArrayItem()"
  let type ← readString t
  check (type == tag) ("type == " ++ tag)
  let (x, items) ← nextArrayItem items "reader->NextArrayItem()"
  let value ← read x
  check items.isEmpty "!reader->NextArrayItem()"
  pure value

/-- An attribute `GraphAttr::Load` does not use: skipped when tagged `list_int` or
`size_t`, fatal otherwise. -/
def GraphAttr.skip (key : String) (v : JSONValue) : Result Unit := do
  let items ← beginArray v
  let (t, items) ← nextArrayItem items "reader->NextArrayItem()"
  let type ← readString t
  let items ←
    if type = "list_int" then do
      let (x, items) ← nextArrayItem items "reader->NextArrayItem()"
      let _ ← readArray readInt x
      pure items
    else if type = "size_t" then do
      let (x, items) ← nextArrayItem items "reader->NextArrayItem()"
      let _ ← readSizeT x
      pure items
    else throw (.check ("cannot skip graph attr " ++ key))
  check items.isEmpty "!reader->NextArrayItem()"

/-- The body of the loop of `GraphAttr::Load`. -/
def GraphAttr.loadField (acc : GraphAttr × Nat) (kv : String × JSONValue) :
    Result (GraphAttr × Nat) := do
  let (attrs, bitmask) := acc
  let (key, v) := kv
  if key = "dltype" then
    pure ({ attrs with dltype := ← GraphAttr.loadTagged "list_str" (readArray readString) v },
      bitmask ||| 1)
  else if key = "storage_id" then
    pure ({ attrs with storageId := ← GraphAttr.loadTagged "list_int" (readArray readInt) v },
      bitmask ||| 2)
  else if key = "shape" then
    pure ({ attrs with
      shape := ← GraphAttr.loadTagged "list_shape" (readArray (readArray readInt64)) v },
      bitmask ||| 4)
  else do
    GraphAttr.skip key v
    pure (attrs, bitmask)

/-- `GraphAttr::Load`, on the attributes read so far: `dltype`, `storage_id` and `shape` are
required. -/
def GraphAttr.load (attrs : GraphAttr) (v : JSONValue) : Result GraphAttr := do
  let fields ← beginObject v
  let (attrs, bitmask) ← fields.foldlM GraphAttr.loadField (attrs, 0)
  check (bitmask == 1 ||| 2 ||| 4) "invalid format"
  pure attrs

/-- The members `Load` fills, before it runs. -/
def Graph.empty : Graph := ⟨[], [], [], [], ⟨[], [], []⟩⟩

/-- The body of the loop of `GraphRuntime::Load`. -/
def Graph.loadField (acc : Graph × Nat) (kv : String × JSONValue) : Result (Graph × Nat) := do
  let (g, bitmask) := acc
  let (key, v) := kv
  if key = "nodes" then pure ({ g with nodes := ← readArray Node.load v }, bitmask ||| 1)
  else if key = "arg_nodes" then
    pure ({ g with inputNodes := ← readArray readUInt32 v }, bitmask ||| 2)
  else if key = "node_row_ptr" then
    pure ({ g with nodeRowPtr := ← readArray readUInt32 v }, bitmask ||| 4)
  else if key = "heads" then pure ({ g with outputs := ← readArray NodeEntry.load v }, bitmask ||| 8)
  else if key = "attrs" then pure ({ g with attrs := ← GraphAttr.load g.attrs v }, bitmask ||| 16)
  else throw (.check ("key " ++ key ++ " is not supported"))

/-- `GraphRuntime::Load`: the five keys are required. -/
def Graph.load (v : JSONValue) : Result Graph := do
  let fields ← beginObject v
  let (g, bitmask) ← fields.foldlM Graph.loadField (Graph.empty, 0)
  check (bitmask == 1 ||| 2 ||| 4 ||| 8 ||| 16) "invalid format"
  pure g

/-! ### Storage ids are `int`s -/

theorem readInt_range {v : JSONValue} {n : Int} (h : readInt v = .ok n) :
    -2 ^ 31 ≤ n ∧ n < 2 ^ 31 := by
  unfold readInt readSigned at h
  split at h
  · split_ifs at h with hr
    exact (pure_eq_ok.mp h) ▸ hr
  · exact absurd h throw_ne_ok

/-- Every item of an array read was read by the item reader. -/
theorem readArray_eq_ok {α : Type} {read : JSONValue → Result α} {v : JSONValue} {xs : List α}
    (h : readArray read v = .ok xs) : ∀ x ∈ xs, ∃ y, read y = .ok x := by
  simp only [readArray, bind_eq_ok] at h
  obtain ⟨items, -, h⟩ := h
  intro x hx
  obtain ⟨y, -, hy⟩ := exists_of_mem_mapM h hx
  exact ⟨y, hy⟩

theorem GraphAttr.loadTagged_eq_ok {α : Type} {tag : String} {read : JSONValue → Result α}
    {v : JSONValue} {x : α} (h : GraphAttr.loadTagged tag read v = .ok x) :
    ∃ y, read y = .ok x := by
  simp only [GraphAttr.loadTagged, bind_eq_ok, check_eq_ok, pure_eq_ok] at h
  obtain ⟨-, -, -, -, -, -, ⟨⟩, -, item, -, x', hx, ⟨⟩, -, rfl⟩ := h
  exact ⟨item.1, hx⟩

/-- Every storage id of the plan is an `int`. -/
def GraphAttr.IntIds (attrs : GraphAttr) : Prop := ∀ s ∈ attrs.storageId, -2 ^ 31 ≤ s ∧ s < 2 ^ 31

theorem GraphAttr.intIds_loadField {acc acc' : GraphAttr × Nat} {kv : String × JSONValue}
    (h : GraphAttr.loadField acc kv = .ok acc') (hacc : acc.1.IntIds) : acc'.1.IntIds := by
  obtain ⟨attrs, bitmask⟩ := acc
  obtain ⟨key, v⟩ := kv
  simp only [GraphAttr.loadField] at h
  split_ifs at h with h1 h2 h3 <;> simp only [bind_eq_ok, pure_eq_ok] at h
  · obtain ⟨x, -, rfl⟩ := h
    exact hacc
  · obtain ⟨ids, hids, rfl⟩ := h
    obtain ⟨y, hy⟩ := GraphAttr.loadTagged_eq_ok hids
    intro s hs
    obtain ⟨z, hz⟩ := readArray_eq_ok hy s hs
    exact readInt_range hz
  · obtain ⟨x, -, rfl⟩ := h
    exact hacc
  · obtain ⟨u, -, rfl⟩ := h
    exact hacc

theorem GraphAttr.intIds_load {attrs attrs' : GraphAttr} {v : JSONValue}
    (h : GraphAttr.load attrs v = .ok attrs') (h0 : attrs.IntIds) : attrs'.IntIds := by
  simp only [GraphAttr.load, bind_eq_ok, check_eq_ok, pure_eq_ok] at h
  obtain ⟨fields, -, ⟨attrs'', bitmask⟩, hfold, -, -, rfl⟩ := h
  exact foldlM_invariant (fun acc : GraphAttr × Nat => acc.1.IntIds) h0
    (fun _ _ _ _ hb hstep => GraphAttr.intIds_loadField hstep hb) hfold

/-- The storage ids `Load` reads are `int`s. -/
theorem Graph.intIds_load {v : JSONValue} {g : Graph} (h : Graph.load v = .ok g) :
    g.attrs.IntIds := by
  simp only [Graph.load, bind_eq_ok, check_eq_ok, pure_eq_ok] at h
  obtain ⟨fields, -, ⟨g', bitmask⟩, hfold, -, -, rfl⟩ := h
  refine foldlM_invariant (fun acc : Graph × Nat => acc.1.attrs.IntIds)
    (by simp [GraphAttr.IntIds, Graph.empty]) (fun _ _ acc acc' hb hstep => ?_) hfold
  obtain ⟨g, bitmask⟩ := acc
  obtain ⟨key, v⟩ := ‹String × JSONValue›
  simp only [Graph.loadField] at hstep
  split_ifs at hstep <;> simp only [bind_eq_ok, pure_eq_ok] at hstep
  all_goals first
    | (obtain ⟨x, -, rfl⟩ := hstep; exact hb)
    | (obtain ⟨x, hx, rfl⟩ := hstep; exact GraphAttr.intIds_load hx hb)

end TvmGraphRuntime
