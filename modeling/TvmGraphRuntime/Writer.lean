import TvmGraphRuntime.LoadSpec

/-!
# Writing the graph text

`Load` reads the graph text the compiler writes. `Graph.toJSON` states that format for a
loaded graph, laid out as the writer lays it out (the writer lives outside this repository):
each node an object of `op`, `name`, `inputs` and `control_deps`, and for a `tvm_op` its
`attrs`, the four attributes as strings with the counts in decimal; each node entry
`[node_id, index, version]`; the three graph attributes tagged `list_str`, `list_int` and
`list_shape`.

* `strtoul_toString`: `strtoul` reads the decimal text of a `uint32_t` back;
* one pair of lemmas per level (`entryOk_toJSON` and `decodeEntry_toJSON`, up to
  `graphOk_toJSON` and `decodeGraph_toJSON`): the text of a value is accepted at its level iff
  its numbers fit their fields (`Writable`), and then decodes to the value;
* **`load_toJSON_iff`**: `Load` reads the text of a graph back as that graph iff the graph is
  `Writable`; a count past `uint32_t` is read back modulo `2^32`, any other number out of
  range is rejected.
-/

namespace TvmGraphRuntime

/-! ### Decimal counts -/

/-- A decimal digit's character: a digit, no blank and no sign, of code `'0' + d`. -/
theorem digitChar_spec {d : Nat} (h : d < 10) :
    (Nat.digitChar d).isDigit ∧ ¬ isSpace (Nat.digitChar d) ∧ Nat.digitChar d ≠ '-' ∧
      Nat.digitChar d ≠ '+' ∧ (Nat.digitChar d).toNat = '0'.toNat + d := by
  interval_cases d <;> decide

theorem mem_toDigitsCore : ∀ {fuel n : Nat} {ds : List Char} {c : Char},
    c ∈ Nat.toDigitsCore 10 fuel n ds → c ∈ ds ∨ ∃ d < 10, c = Nat.digitChar d
  | 0, _, _, _, h => .inl h
  | fuel + 1, n, ds, c, h => by
    unfold Nat.toDigitsCore at h
    dsimp only at h
    have hcons : c ∈ Nat.digitChar (n % 10) :: ds → c ∈ ds ∨ ∃ d < 10, c = Nat.digitChar d :=
      fun h => (List.mem_cons.mp h).symm.imp_right fun h => ⟨n % 10, Nat.mod_lt n (by decide), h⟩
    split_ifs at h
    · exact hcons h
    · exact (mem_toDigitsCore h).elim hcons .inr

/-- The digit loop of `strtoul` over the digits `Nat.toDigitsCore` prints before `ds` reads
on from the printed number. -/
theorem foldl_toDigitsCore : ∀ (fuel n : Nat) (ds : List Char), n < fuel →
    (Nat.toDigitsCore 10 fuel n ds).foldl (fun acc c => acc * 10 + (c.toNat - '0'.toNat)) 0 =
      ds.foldl (fun acc c => acc * 10 + (c.toNat - '0'.toNat)) n
  | 0, n, _, h => absurd h (Nat.not_lt_zero n)
  | fuel + 1, n, ds, h => by
    have hd := (digitChar_spec (Nat.mod_lt n (by decide : 10 > 0))).2.2.2.2
    unfold Nat.toDigitsCore
    dsimp only
    split_ifs with h0
    · rw [List.foldl_cons, hd]
      congr 1
      omega
    · rw [foldl_toDigitsCore fuel (n / 10) _ (by omega), List.foldl_cons, hd]
      congr 1
      omega

/-- `strtoul` reads back the decimal text of a `uint32_t`. -/
theorem strtoul_toString {n : Nat} (h : n < 2 ^ 32) : strtoul (toString n) = n := by
  have hval : (Nat.toDigits 10 n).foldl (fun acc c => acc * 10 + (c.toNat - '0'.toNat)) 0 = n :=
    foldl_toDigitsCore (n + 1) n [] (Nat.lt_succ_self n)
  have hdig : ∀ c ∈ Nat.toDigits 10 n, c.isDigit ∧ ¬ isSpace c ∧ c ≠ '-' ∧ c ≠ '+' := by
    intro c hc
    obtain ⟨d, hd, rfl⟩ := (mem_toDigitsCore hc).resolve_left (List.not_mem_nil c)
    exact (digitChar_spec hd).imp_right fun h => ⟨h.1, h.2.1, h.2.2.1⟩
  have hlist : (toString n).toList = Nat.toDigits 10 n := rfl
  unfold strtoul
  rw [hlist, List.dropWhile_eq_self_iff.mpr fun hl => (hdig _ (List.get_mem _ _ _)).2.1]
  generalize Nat.toDigits 10 n = cs at hval hdig
  rcases cs with _ | ⟨c, r⟩
  · subst hval
    rfl
  obtain ⟨-, -, h1, h2⟩ := hdig c (List.mem_cons_self c r)
  -- the first character is no sign, so the sign match keeps every character
  dsimp only
  delta strtoul.match_1
  simp only [h1, h2, dite_false, Bool.false_eq_true, if_false,
    List.takeWhile_eq_self_iff.mpr fun x hx => (hdig x hx).1, hval, if_pos (by omega : n < 2 ^ 64),
    Nat.mod_eq_of_lt h]

/-! ### The writer -/

/-- A node entry: `[node_id, index, version]`. -/
def NodeEntry.toJSON (e : NodeEntry) : JSONValue :=
  .arr [.num e.nodeId, .num e.index, .num e.version]

/-- The attributes of a `tvm_op`, each a string, the counts in decimal. -/
def TVMOpParam.toJSON (p : TVMOpParam) : JSONValue :=
  .obj [("func_name", .str p.funcName), ("num_inputs", .str (toString p.numInputs)),
    ("num_outputs", .str (toString p.numOutputs)), ("flatten_data", .str (toString p.flattenData))]

/-- A node: `op`, `name`, `inputs`, `control_deps`, and `attrs` when it has attributes. -/
def Node.toJSON (n : Node) : JSONValue :=
  .obj ([("op", .str n.opType), ("name", .str n.name),
    ("inputs", .arr (n.inputs.map NodeEntry.toJSON)),
    ("control_deps", .arr (n.controlDeps.map fun (i : Nat) => .num i))] ++
    n.param.toList.map fun p => ("attrs", p.toJSON))

/-- The three graph attributes, each tagged with its type. -/
def GraphAttr.toJSON (a : GraphAttr) : JSONValue :=
  .obj [("dltype", .arr [.str "list_str", .arr (a.dltype.map .str)]),
    ("storage_id", .arr [.str "list_int", .arr (a.storageId.map .num)]),
    ("shape", .arr [.str "list_shape", .arr (a.shape.map fun s => .arr (s.map .num))])]

/-- The graph text. -/
def Graph.toJSON (g : Graph) : JSONValue :=
  .obj [("nodes", .arr (g.nodes.map Node.toJSON)),
    ("arg_nodes", .arr (g.inputNodes.map fun (i : Nat) => .num i)),
    ("node_row_ptr", .arr (g.nodeRowPtr.map fun (i : Nat) => .num i)),
    ("heads", .arr (g.outputs.map NodeEntry.toJSON)), ("attrs", g.attrs.toJSON)]

/-! ### What the text can carry -/

/-- A node entry whose three fields are `uint32_t`s. -/
def NodeEntry.Writable (e : NodeEntry) : Prop :=
  e.nodeId < 2 ^ 32 ∧ e.index < 2 ^ 32 ∧ e.version < 2 ^ 32

/-- A node whose entries, control dependencies and counts are `uint32_t`s. -/
def Node.Writable (n : Node) : Prop :=
  (∀ e ∈ n.inputs, e.Writable) ∧ (∀ i ∈ n.controlDeps, i < 2 ^ 32) ∧
    ∀ p ∈ n.param, p.numInputs < 2 ^ 32 ∧ p.numOutputs < 2 ^ 32 ∧ p.flattenData < 2 ^ 32

/-- A graph whose numbers fit the fields `Load` reads them into: node ids, indices and counts
`uint32_t`s, storage ids `int`s and extents `int64_t`s. -/
def Graph.Writable (g : Graph) : Prop :=
  (∀ n ∈ g.nodes, n.Writable) ∧ (∀ i ∈ g.inputNodes, i < 2 ^ 32) ∧
    (∀ i ∈ g.nodeRowPtr, i < 2 ^ 32) ∧ (∀ e ∈ g.outputs, e.Writable) ∧
    (∀ s ∈ g.attrs.storageId, -2 ^ 31 ≤ s ∧ s < 2 ^ 31) ∧
    ∀ s ∈ g.attrs.shape, ∀ d ∈ s, -2 ^ 63 ≤ d ∧ d < 2 ^ 63

instance (e : NodeEntry) : Decidable e.Writable := inferInstanceAs (Decidable (_ ∧ _))

instance (n : Node) : Decidable n.Writable := inferInstanceAs (Decidable (_ ∧ _))

instance (g : Graph) : Decidable g.Writable := inferInstanceAs (Decidable (_ ∧ _))

/-! ### Reading it back, level by level -/

theorem unsignedOk_num (n : Nat) : unsignedOk 32 (.num n) ↔ n < 2 ^ 32 := by
  simp [unsignedOk]

theorem decodeUnsigned_num {n : Nat} (h : n < 2 ^ 32) : decodeUnsigned 32 (.num n) = n := by
  simp only [decodeUnsigned]
  omega

theorem arrayOk_map {α : Type} (f : α → JSONValue) (ok : JSONValue → Bool) (l : List α) :
    arrayOk ok (.arr (l.map f)) ↔ ∀ a ∈ l, ok (f a) := by
  simp [arrayOk, List.all_eq_true]

theorem decodeArray_map {α : Type} {f : α → JSONValue} {d : JSONValue → α} {l : List α}
    (h : ∀ a ∈ l, d (f a) = a) : decodeArray d (.arr (l.map f)) = l := by
  rw [decodeArray, List.map_map]
  exact (List.map_congr_left fun a ha => h a ha).trans (List.map_id l)

theorem entryOk_toJSON (e : NodeEntry) : entryOk e.toJSON ↔ e.Writable := by
  simp [entryOk, NodeEntry.toJSON, unsignedOk, NodeEntry.Writable]

theorem decodeEntry_toJSON {e : NodeEntry} (h : e.Writable) : decodeEntry e.toJSON = e := by
  simp [decodeEntry, NodeEntry.toJSON, decodeUnsigned_num h.1, decodeUnsigned_num h.2.1,
    decodeUnsigned_num h.2.2]

theorem paramOk_toJSON (p : TVMOpParam) : paramOk p.toJSON := by
  simp [paramOk, TVMOpParam.toJSON, stringOk, paramKeys, hasKey]

theorem decodeParam_toJSON {p : TVMOpParam}
    (h : p.numInputs < 2 ^ 32 ∧ p.numOutputs < 2 ^ 32 ∧ p.flattenData < 2 ^ 32) :
    decodeParam p.toJSON = p := by
  simp [decodeParam, TVMOpParam.toJSON, paramOf, lastOf, decodeString, strtoul_toString h.1,
    strtoul_toString h.2.1, strtoul_toString h.2.2]

/-- A node's text is accepted iff its entries and control dependencies are `uint32_t`s; its
counts, strings in the text, are checked when they are read. -/
theorem nodeOk_toJSON (n : Node) :
    nodeOk n.toJSON ↔ (∀ e ∈ n.inputs, e.Writable) ∧ ∀ i ∈ n.controlDeps, i < 2 ^ 32 := by
  rcases hp : n.param with _ | p <;>
    simp only [nodeOk, Node.toJSON, hp, Option.toList_none, Option.toList_some, List.map_cons,
      List.map_nil, List.append_nil, List.cons_append, List.nil_append, nodeFieldOk, stringOk,
      Bool.if_false_right, List.all_cons, ↓reduceIte, String.reduceEq, or_self, or_true,
      decide_True, Bool.true_and, List.all_nil, Bool.and_true, paramOk_toJSON, nodeKeys, hasKey,
      List.any_cons, beq_self_eq_true, String.reduceBEq, List.any_nil, Bool.or_self, Bool.or_false,
      Bool.or_true, Bool.and_self, Bool.and_eq_true, arrayOk_map, entryOk_toJSON, unsignedOk_num,
      Nat.reducePow]

theorem decodeNode_toJSON {n : Node} (h : n.Writable) : decodeNode n.toJSON = n := by
  have hin := decodeArray_map fun e he => decodeEntry_toJSON (h.1 e he)
  have hdeps := decodeArray_map (d := decodeUnsigned 32) fun i hi => decodeUnsigned_num (h.2.1 i hi)
  obtain ⟨opType, name, param, inputs, deps⟩ := n
  rcases param with _ | p
  · simp [decodeNode, Node.toJSON, nodeOf, lastOf, decodeString, hin, hdeps, Node.empty]
  · simp [decodeNode, Node.toJSON, nodeOf, lastOf, decodeString, hin, hdeps, Node.empty,
      decodeParam_toJSON (h.2.2 p rfl)]

theorem graphAttrOk_toJSON (a : GraphAttr) :
    graphAttrOk a.toJSON ↔ (∀ s ∈ a.storageId, -2 ^ 31 ≤ s ∧ s < 2 ^ 31) ∧
      ∀ s ∈ a.shape, ∀ d ∈ s, -2 ^ 63 ≤ d ∧ d < 2 ^ 63 := by
  simp only [graphAttrOk, GraphAttr.toJSON, graphAttrFieldOk, taggedOk, stringOk, decodeString,
    List.all_cons, List.all_nil, ↓reduceIte, String.reduceEq, beq_self_eq_true, Bool.and_self,
    Bool.true_and, Bool.and_true, graphAttrKeys, hasKey, List.any_cons, String.reduceBEq,
    List.any_nil, Bool.or_self, Bool.or_false, Bool.or_true, Bool.and_eq_true, arrayOk_map,
    implies_true, signedOk, Nat.add_one_sub_one, Int.reducePow, Int.reduceNeg, decide_eq_true_eq,
    true_and]

theorem decodeGraphAttr_toJSON (a : GraphAttr) : decodeGraphAttr a.toJSON = a := by
  have h₁ := decodeArray_map (l := a.dltype) (f := .str) (d := decodeString) fun _ _ => rfl
  have h₂ := decodeArray_map (l := a.storageId) (f := .num) (d := decodeSigned) fun _ _ => rfl
  have h₃ := decodeArray_map (l := a.shape) (f := fun s => .arr (s.map .num))
    (d := decodeArray decodeSigned) fun s _ => decodeArray_map fun _ _ => rfl
  simp [decodeGraphAttr, GraphAttr.toJSON, graphAttrOf, lastOf, decodeTagged, h₁, h₂, h₃]

/-- The text of a graph is a graph document iff its numbers fit, the counts of its nodes
apart. -/
theorem graphOk_toJSON (g : Graph) :
    graphOk g.toJSON ↔ (∀ n ∈ g.nodes, (∀ e ∈ n.inputs, e.Writable) ∧
      ∀ i ∈ n.controlDeps, i < 2 ^ 32) ∧ (∀ i ∈ g.inputNodes, i < 2 ^ 32) ∧
      (∀ i ∈ g.nodeRowPtr, i < 2 ^ 32) ∧ (∀ e ∈ g.outputs, e.Writable) ∧
      (∀ s ∈ g.attrs.storageId, -2 ^ 31 ≤ s ∧ s < 2 ^ 31) ∧
      ∀ s ∈ g.attrs.shape, ∀ d ∈ s, -2 ^ 63 ≤ d ∧ d < 2 ^ 63 := by
  simp only [graphOk, Graph.toJSON, graphFieldOk, Bool.if_false_right, List.all_cons, ↓reduceIte,
    String.reduceEq, decide_True, Bool.true_and, List.all_nil, Bool.and_true, graphKeys, hasKey,
    List.any_cons, beq_self_eq_true, String.reduceBEq, List.any_nil, Bool.or_self, Bool.or_false,
    Bool.or_true, Bool.and_self, Bool.and_eq_true, arrayOk_map, nodeOk_toJSON, Nat.reducePow,
    unsignedOk_num, entryOk_toJSON, graphAttrOk_toJSON, Int.reducePow, Int.reduceNeg]

theorem decodeGraph_toJSON {g : Graph} (h : g.Writable) : decodeGraph g.toJSON = g := by
  obtain ⟨hn, hi, hr, ho, -, -⟩ := h
  have h₁ := decodeArray_map fun n hn' => decodeNode_toJSON (hn n hn')
  have h₂ := decodeArray_map (d := decodeUnsigned 32) fun i hi' => decodeUnsigned_num (hi i hi')
  have h₃ := decodeArray_map (d := decodeUnsigned 32) fun i hr' => decodeUnsigned_num (hr i hr')
  have h₄ := decodeArray_map fun e he => decodeEntry_toJSON (ho e he)
  simp [decodeGraph, Graph.toJSON, graphOf, lastOf, h₁, h₂, h₃, h₄, decodeGraphAttr_toJSON]

/-- `strtoul` stores into a `uint32_t`. -/
theorem strtoul_lt (s : String) : strtoul s < 2 ^ 32 := by
  unfold strtoul
  dsimp only
  exact Nat.mod_lt _ (by norm_num)

/-- A node whose text decodes to it has counts that are `uint32_t`s: `strtoul` gives no
other. -/
theorem counts_of_decodeNode {n : Node} (h : decodeNode n.toJSON = n) :
    ∀ p ∈ n.param, p.numInputs < 2 ^ 32 ∧ p.numOutputs < 2 ^ 32 ∧ p.flattenData < 2 ^ 32 := by
  intro p hp
  have hparam := congrArg Node.param h
  rw [Option.mem_def] at hp
  simp [decodeNode, Node.toJSON, hp, nodeOf, lastOf, decodeParam, TVMOpParam.toJSON, paramOf,
    decodeString] at hparam
  rw [← hparam]
  exact ⟨strtoul_lt _, strtoul_lt _, strtoul_lt _⟩

theorem eq_of_map_eq_self {α : Type} {f : α → α} : ∀ {l : List α}, l.map f = l → ∀ a ∈ l, f a = a
  | [], _, a, ha => absurd ha (List.not_mem_nil a)
  | b :: l, h, a, ha => by
    obtain ⟨hb, hl⟩ := List.cons.inj h
    rcases List.mem_cons.mp ha with rfl | ha
    · exact hb
    · exact eq_of_map_eq_self hl a ha

/-- **`Load` reads the written text back exactly for the graphs it can carry.** The text of a
graph is loaded as that graph iff the graph's numbers fit the fields they are read into. -/
theorem load_toJSON_iff (g : Graph) : Graph.load g.toJSON = .ok g ↔ g.Writable := by
  rw [load_decodes, graphOk_toJSON]
  constructor
  · rintro ⟨⟨hn, hrest⟩, hdec⟩
    have hnodes := congrArg Graph.nodes hdec
    simp [decodeGraph, Graph.toJSON, graphOf, lastOf, decodeArray] at hnodes
    exact ⟨fun n hn' => ⟨(hn n hn').1, (hn n hn').2,
      counts_of_decodeNode (eq_of_map_eq_self hnodes.symm n hn')⟩, hrest⟩
  · intro h
    exact ⟨⟨fun n hn => ⟨(h.1 n hn).1, (h.1 n hn).2.1⟩, h.2⟩, (decodeGraph_toJSON h).symm⟩

end TvmGraphRuntime
