import TvmGraphRuntime.Run

/-!
# One run computes the dataflow semantics

The storage plan lets entries share pool buffers, and `Run` writes them in place. This file
states what the plan must satisfy for that to be invisible, and proves that one `Run` then
computes the graph's dataflow semantics.

* the abstract model: `dataflow`, the bytes of every entry when the nodes run in order on
  their own values, with no storage at all; a placeholder keeps its entry's bytes, `__nop`
  passes on a prefix of its input, and a kernel node computes `F nid` of its inputs;
* liveness (`Graph.LiveAt`, `Graph.RespectsLiveness`): an entry is live from its birth (the
  start of the run for a placeholder, its node's step otherwise) until its last reader, or the
  end for a head; two distinct entries with one storage id are never live at one step, except
  for a kernel's output that reuses an input the kernel reads last;
* `DataflowPlan`: the conditions of the theorem, as fields;
* `HoldsDataflow`, the invariant: before step `t` the pool holds the dataflow bytes of every
  entry written so far and still to be read. Each slot keeps it (`runSlot_dataflow`), hence
  the whole loop does (`foldlM_runSlot_dataflow`);
* **`run_dataflow`**: `Run` completes, and every head holds its dataflow bytes.
-/

namespace TvmGraphRuntime

namespace Graph

variable (g : Graph)

/-- The entry id of a node entry in a well-formed graph: `node_row_ptr[node_id] + index`. -/
def entryOf (e : NodeEntry) : Nat := g.offset e.nodeId + e.index

/-- Node `r` reads output `k` of node `nid`. -/
def Reads (r nid k : Nat) : Prop := ∃ e ∈ (g.nodes.getD r .empty).inputs, e.nodeId = nid ∧ e.index = k

/-- Output `k` of node `nid` is a head. -/
def IsHead (nid k : Nat) : Prop := ∃ e ∈ g.outputs, e.nodeId = nid ∧ e.index = k

/-- The step from which the outputs of node `nid` are live: the start of the run for an input
placeholder, the node's own step otherwise. -/
def birth (nid : Nat) : Nat := if (g.nodes.getD nid .empty).opType = "null" then 0 else nid

/-- Output `k` of node `nid` is still to be read from step `t` on: by a node at `t` or later,
or as a head. -/
def Needed (nid k t : Nat) : Prop := g.IsHead nid k ∨ ∃ r < g.nodes.length, t ≤ r ∧ g.Reads r nid k

/-- Output `k` of node `nid` is live at step `t`: from its birth until its last reader, or until
the end for a head; an output nobody reads is live at its birth only. -/
def LiveAt (nid k t : Nat) : Prop := g.birth nid ≤ t ∧ (t = g.birth nid ∨ g.Needed nid k t)

/-- Kernel node `b` writes its outputs over output `i` of node `a`, which `b` reads last. -/
def ReusesInput (a i b : Nat) : Prop :=
  (g.nodes.getD b .empty).opType ≠ "null" ∧ g.Reads b a i ∧ ¬ g.Needed a i (b + 1)

/-- Outputs `(a, i)` and `(b, j)` may share a storage id: at every step where both are live,
one of them is an output reusing the other. -/
def MayShare (a i b j : Nat) : Prop :=
  ∀ t ≤ g.nodes.length, g.LiveAt a i t → g.LiveAt b j t →
    (t = g.birth b ∧ g.ReusesInput a i b) ∨ (t = g.birth a ∧ g.ReusesInput b j a)

/-- Outputs `(a, i)` and `(b, j)` are distinct entries with one storage id. -/
def Shares (a i b j : Nat) : Prop :=
  (a, i) ≠ (b, j) ∧
    g.attrs.storageId.getD (g.offset a + i) 0 = g.attrs.storageId.getD (g.offset b + j) 0

/-- The storage plan respects liveness: any two distinct entries with one storage id may share
it. -/
def RespectsLiveness : Prop :=
  ∀ a < g.nodes.length, ∀ i < g.numOutputsOf a, ∀ b < g.nodes.length, ∀ j < g.numOutputsOf b,
    g.Shares a i b j → g.MayShare a i b j

instance (r nid k : Nat) : Decidable (g.Reads r nid k) := inferInstanceAs (Decidable (∃ e ∈ _, _))

instance (nid k : Nat) : Decidable (g.IsHead nid k) := inferInstanceAs (Decidable (∃ e ∈ _, _))

instance (nid k t : Nat) : Decidable (g.Needed nid k t) :=
  inferInstanceAs (Decidable (_ ∨ ∃ r < _, _))

instance (nid k t : Nat) : Decidable (g.LiveAt nid k t) := inferInstanceAs (Decidable (_ ∧ _))

instance (a i b : Nat) : Decidable (g.ReusesInput a i b) :=
  inferInstanceAs (Decidable (_ ∧ _ ∧ _))

instance (a i b j : Nat) : Decidable (g.MayShare a i b j) :=
  inferInstanceAs (Decidable (∀ t ≤ _, _))

instance (a i b j : Nat) : Decidable (g.Shares a i b j) := inferInstanceAs (Decidable (_ ∧ _))

instance : Decidable g.RespectsLiveness := inferInstanceAs (Decidable (∀ a < _, _))

end Graph

namespace GraphRuntime

variable (rt : GraphRuntime)

/-- The view of entry `e`. -/
def view (e : Nat) : DLTensor := rt.dataEntry.getD e default

/-- Pool memory as the allocator gives it: one buffer per pool tensor, of its byte size. -/
def Fits (mem : Pool) : Prop := mem.map List.length = rt.storagePool.map DLTensor.size

instance (mem : Pool) : Decidable (rt.Fits mem) := inferInstanceAs (Decidable (_ = _))

/-- Every `__nop` node has an input, and each of its outputs carries the storage id of the
first one and is no larger. -/
def NopsAlias : Prop :=
  ∀ nid < rt.nodes.length, ∀ p ∈ (rt.nodes.getD nid .empty).param, p.funcName = "__nop" →
    ∃ e ∈ (rt.nodes.getD nid .empty).inputs.head?, ∀ k < p.numOutputs,
      rt.attrs.storageId.getD (rt.offset nid + k) 0 = rt.attrs.storageId.getD (rt.entryOf e) 0 ∧
        (rt.view (rt.offset nid + k)).size ≤ (rt.view (rt.entryOf e)).size

/-- Every argument of a kernel with `flatten_data` set has each prefix product of its shape in
the range of `int`. -/
def FlattenExact : Prop :=
  ∀ nid < rt.nodes.length, ∀ p ∈ (rt.nodes.getD nid .empty).param, p.flattenData ≠ 0 →
    ∀ t ∈ slotArgs rt.toGraph rt.dataEntry nid p, ∀ j ≤ t.shape.length,
      -2 ^ 31 ≤ (t.shape.take j).prod ∧ (t.shape.take j).prod < 2 ^ 31

instance : Decidable rt.NopsAlias := inferInstanceAs (Decidable (∀ nid < _, _))

instance : Decidable rt.FlattenExact := inferInstanceAs (Decidable (∀ nid < _, _))

/-- The kernel installed for node `nid` computes `F nid`: from the bytes of the node's inputs,
the bytes of each of its outputs, as many as the output's view holds; it writes no input
argument. -/
structure KernelsCompute (F : Nat → List (List UInt8) → List (List UInt8)) : Prop where
  call : ∀ nid pf frame, rt.opExecs[nid]? = some (some (.call pf frame)) → ∀ cs,
    pf.call frame.args cs = List.replicate (rt.nodes.getD nid .empty).inputs.length none ++
      (F nid (cs.take (rt.nodes.getD nid .empty).inputs.length)).map some
  sizes : ∀ nid pf frame, rt.opExecs[nid]? = some (some (.call pf frame)) → ∀ ins,
    (F nid ins).map List.length =
      (List.range (rt.numOutputsOf nid)).map fun k => (rt.view (rt.offset nid + k)).size

/-- The conditions under which one `Run` computes the dataflow semantics. -/
structure DataflowPlan (F : Nat → List (List UInt8) → List (List UInt8)) : Prop where
  wellFormed : rt.WellFormed
  sizes : ∀ t ∈ rt.dataEntry, t.size < 2 ^ 64 - 6
  flatten : rt.FlattenExact
  liveness : rt.RespectsLiveness
  nops : rt.NopsAlias
  kernels : rt.KernelsCompute F

section Semantics

variable (F : Nat → List (List UInt8) → List (List UInt8))

/-- One node of the dataflow semantics: the bytes of entry `e` after node `nid`, from `V`
before it. A placeholder changes nothing; `__nop` gives each of its outputs the prefix of its
first input that fits it; a kernel node gives its outputs `F nid` of its inputs' bytes. -/
def dataflowStep (V : Nat → List UInt8) (nid e : Nat) : List UInt8 :=
  let node := rt.nodes.getD nid .empty
  if node.opType = "null" ∨ e < rt.offset nid ∨ rt.offset nid + rt.numOutputsOf nid ≤ e then V e
  else if node.param.map TVMOpParam.funcName = some "__nop" then
    (V (rt.entryOf (node.inputs.headD ⟨0, 0, 0⟩))).take (rt.view e).size
  else (F nid (node.inputs.map fun i => V (rt.entryOf i))).getD (e - rt.offset nid) []

/-- The dataflow semantics: the bytes of every entry after all nodes, in order, from `V`. -/
def dataflow (V : Nat → List UInt8) : Nat → List UInt8 :=
  (List.range rt.nodes.length).foldl (rt.dataflowStep F) V

end Semantics

/-- The bytes each entry's view holds in `mem`. -/
def contentsOf (mem : Pool) (e : Nat) : List UInt8 := (readView mem (rt.view e)).toOption.getD []

/-- Before step `t`, `mem` holds the dataflow bytes `V` of every entry already written (a
placeholder's, or one of a node before `t`) and still to be read. -/
def HoldsDataflow (mem : Pool) (V : Nat → List UInt8) (t : Nat) : Prop :=
  ∀ a < rt.nodes.length, ∀ i < rt.numOutputsOf a,
    ((rt.nodes.getD a .empty).opType = "null" ∨ a < t) → rt.Needed a i t →
      readView mem (rt.view (rt.offset a + i)) = .ok (V (rt.offset a + i))

end GraphRuntime

/-! ### Entries and liveness in a well-formed graph -/

namespace Graph

theorem input_lt {g : Graph} (hg : g.WellFormed) {t : Nat} (ht : t < g.nodes.length)
    {e : NodeEntry} (he : e ∈ (g.nodes.getD t .empty).inputs) : e.nodeId < t ∧ g.ValidEntry e :=
  hg.inputs_valid t ht e (by simpa [List.getD_eq_getElem?_getD, List.getElem?_eq_getElem ht] using he)

/-- An output of another node lies outside the entries of node `t`. -/
theorem entry_lt_or_ge (g : Graph) {a t i : Nat} (hi : i < g.numOutputsOf a) (hat : a ≠ t) :
    g.offset a + i < g.offset t ∨ g.offset t + g.numOutputsOf t ≤ g.offset a + i := by
  rcases Nat.lt_or_gt_of_ne hat with h | h
  · have h₁ := g.offset_succ a
    have h₂ := g.offset_mono (show a + 1 ≤ t from h)
    omega
  · have h₁ := g.offset_succ t
    have h₂ := g.offset_mono (show t + 1 ≤ a from h)
    omega

theorem numOutputsOf_of_param {g : Graph} {t : Nat} (ht : t < g.nodes.length) {p : TVMOpParam}
    (hp : (g.nodes.getD t .empty).param = some p) : g.numOutputsOf t = p.numOutputs := by
  rw [numOutputsOf_of_lt ht, ← List.getD_eq_getElem _ Node.empty ht, Node.numOutputs, hp]
  rfl

theorem Needed.of_succ {g : Graph} {a i t : Nat} (h : g.Needed a i (t + 1)) : g.Needed a i t :=
  h.imp_right fun ⟨r, hr, htr, hread⟩ => ⟨r, hr, by omega, hread⟩

section Liveness

variable {g : Graph} (hg : g.WellFormed) (hlive : g.RespectsLiveness)

include hg in
theorem not_reads_self {t : Nat} (ht : t < g.nodes.length) (k : Nat) : ¬ g.Reads t t k :=
  fun ⟨_, he, hid, _⟩ => absurd (hid ▸ (input_lt hg ht he).1) (lt_irrefl t)

include hlive

/-- An output of a kernel node and an entry still to be read after the node have distinct
storage ids. -/
theorem storage_ne_of_needed {t k a i : Nat} (ht : t < g.nodes.length)
    (hnull : (g.nodes.getD t .empty).opType ≠ "null") (hk : k < g.numOutputsOf t)
    (ha : a < g.nodes.length) (hi : i < g.numOutputsOf a) (hat : a ≠ t)
    (havail : (g.nodes.getD a .empty).opType = "null" ∨ a < t) (hneed : g.Needed a i (t + 1)) :
    g.attrs.storageId.getD (g.offset a + i) 0 ≠ g.attrs.storageId.getD (g.offset t + k) 0 := by
  intro hs
  have hbt : g.birth t = t := if_neg hnull
  have hba : g.birth a ≤ t := by
    rcases havail with h | h
    · rw [birth, if_pos h]; exact Nat.zero_le _
    · unfold birth; split_ifs <;> omega
  rcases hlive a ha i hi t ht k hk ⟨fun h => hat (Prod.mk.inj h).1, hs⟩ t (le_of_lt ht)
      ⟨hba, .inr hneed.of_succ⟩ ⟨hbt.le, .inl hbt.symm⟩ with ⟨-, -, -, hdead⟩ | ⟨hta, hkernel, -⟩
  · exact hdead hneed
  · unfold birth at hta
    split_ifs at hta with hanull
    · exact hkernel hanull
    · exact hat hta.symm

include hg in
/-- Distinct outputs of a kernel node have distinct storage ids. -/
theorem storage_ne_of_outputs {t k k' : Nat} (ht : t < g.nodes.length)
    (hnull : (g.nodes.getD t .empty).opType ≠ "null") (hk : k < g.numOutputsOf t)
    (hk' : k' < g.numOutputsOf t) (hkk : k ≠ k') :
    g.attrs.storageId.getD (g.offset t + k) 0 ≠ g.attrs.storageId.getD (g.offset t + k') 0 := by
  intro hs
  have hbt : g.birth t = t := if_neg hnull
  have hlive_t : ∀ j, g.LiveAt t j t := fun _ => ⟨hbt.le, .inl hbt.symm⟩
  rcases hlive t ht k hk t ht k' hk' ⟨fun h => hkk (Prod.mk.inj h).2, hs⟩ t (le_of_lt ht)
      (hlive_t k) (hlive_t k') with ⟨-, -, hread, -⟩ | ⟨-, -, hread, -⟩
  · exact not_reads_self hg ht k hread
  · exact not_reads_self hg ht k' hread

end Liveness

end Graph

namespace GraphRuntime

/-! ### The dataflow step of each kind of node -/

section Steps

variable {rt : GraphRuntime} (F : Nat → List (List UInt8) → List (List UInt8))
  {V : Nat → List UInt8} {t : Nat}

theorem dataflowStep_of_null (h : (rt.nodes.getD t .empty).opType = "null") :
    rt.dataflowStep F V t = V :=
  funext fun _ => if_pos (.inl h)

theorem dataflowStep_of_outside {e : Nat}
    (h : e < rt.offset t ∨ rt.offset t + rt.numOutputsOf t ≤ e) : rt.dataflowStep F V t e = V e :=
  if_pos (.inr h)

theorem dataflowStep_of_nop {p : TVMOpParam} (hnull : (rt.nodes.getD t .empty).opType ≠ "null")
    (hp : (rt.nodes.getD t .empty).param = some p) (hnop : p.funcName = "__nop") {k : Nat}
    (hk : k < rt.numOutputsOf t) :
    rt.dataflowStep F V t (rt.offset t + k) =
      (V (rt.entryOf ((rt.nodes.getD t .empty).inputs.headD ⟨0, 0, 0⟩))).take
        (rt.view (rt.offset t + k)).size := by
  have hin : ¬ (rt.offset t + k < rt.offset t ∨ rt.offset t + rt.numOutputsOf t ≤ rt.offset t + k) := by
    omega
  simp only [dataflowStep, hnull, hin, hp, hnop, false_or, if_false, Option.map_some', if_true]

theorem dataflowStep_of_kernel {p : TVMOpParam} (hnull : (rt.nodes.getD t .empty).opType ≠ "null")
    (hp : (rt.nodes.getD t .empty).param = some p) (hnop : p.funcName ≠ "__nop") {k : Nat}
    (hk : k < rt.numOutputsOf t) :
    rt.dataflowStep F V t (rt.offset t + k) =
      (F t ((rt.nodes.getD t .empty).inputs.map fun i => V (rt.entryOf i))).getD k [] := by
  have hin : ¬ (rt.offset t + k < rt.offset t ∨ rt.offset t + rt.numOutputsOf t ≤ rt.offset t + k) := by
    omega
  simp only [dataflowStep, hnull, hin, hp, hnop, false_or, if_false, Option.map_some',
    Option.some.injEq, Nat.add_sub_cancel_left]

end Steps

/-! ### The plan after `Init` -/

section Plan

variable {f : String → Option DLDataType} {doc : JSONValue} {m : Module} {d : Bool}
  {rt : GraphRuntime} (hinit : init f doc m d = .ok rt) (hg : rt.WellFormed)
include hinit hg

theorem dataEntry_length : rt.dataEntry.length = rt.totalEntries :=
  length_of_setupStorage hg (init_eq_ok hinit).2.1

theorem opExecs_length : rt.opExecs.length = rt.nodes.length :=
  (setupOpExecs_wellFormed hg (dataEntry_length hinit hg) (init_eq_ok hinit).2.2.1).1

/-- What `SetupOpExecs` installed in slot `t`. -/
theorem slotSpec {t : Nat} (ht : t < rt.nodes.length) :
    ∃ op, rt.opExecs[t]? = some op ∧ SlotSpec rt.module rt.toGraph rt.dataEntry t op := by
  obtain ⟨-, -, hops, rfl, -⟩ := init_eq_ok hinit
  obtain ⟨hlen, hslot⟩ := setupOpExecs_wellFormed hg (dataEntry_length hinit hg) hops
  exact ⟨_, List.getElem?_eq_getElem (hlen ▸ ht), hslot t (hlen ▸ ht)⟩

/-- The view of an entry points at the pool buffer of its storage id, which is not negative. -/
theorem view_data {e : Nat} (he : e < rt.totalEntries) :
    0 ≤ rt.attrs.storageId.getD e 0 ∧ (rt.view e).data = (rt.attrs.storageId.getD e 0).toNat := by
  have hlt : e < rt.dataEntry.length := (dataEntry_length hinit hg).symm ▸ he
  obtain ⟨s, hs, h0, -, hd⟩ := data_of_dataEntry hinit (List.getElem?_eq_getElem hlt)
  have hsid : rt.attrs.storageId.getD e 0 = s := by simp [List.getD_eq_getElem?_getD, hs]
  rw [hsid]
  exact ⟨h0, by simp [view, List.getD_eq_getElem?_getD, List.getElem?_eq_getElem hlt, hd]⟩

theorem view_data_eq {e₁ e₂ : Nat} (h₁ : e₁ < rt.totalEntries) (h₂ : e₂ < rt.totalEntries)
    (hs : rt.attrs.storageId.getD e₁ 0 = rt.attrs.storageId.getD e₂ 0) :
    (rt.view e₁).data = (rt.view e₂).data := by
  rw [(view_data hinit hg h₁).2, (view_data hinit hg h₂).2, hs]

theorem view_data_ne {e₁ e₂ : Nat} (h₁ : e₁ < rt.totalEntries) (h₂ : e₂ < rt.totalEntries)
    (hs : rt.attrs.storageId.getD e₁ 0 ≠ rt.attrs.storageId.getD e₂ 0) :
    (rt.view e₁).data ≠ (rt.view e₂).data := by
  obtain ⟨h0₁, hd₁⟩ := view_data hinit hg h₁
  obtain ⟨h0₂, hd₂⟩ := view_data hinit hg h₂
  rw [hd₁, hd₂]
  omega

/-- With every byte size below `2^64 - 6`, every view fits pool memory as the allocator gives
it. -/
theorem view_fits (hsize : ∀ t ∈ rt.dataEntry, t.size < 2 ^ 64 - 6) {mem : Pool}
    (hmem : rt.Fits mem) {e : Nat} (he : e < rt.totalEntries) : ViewFits mem (rt.view e) := by
  obtain ⟨-, hsetup, -⟩ := init_eq_ok hinit
  obtain ⟨vtype, hv⟩ := setupStorage_types hsetup
  have hlt : e < rt.dataEntry.length := (dataEntry_length hinit hg).symm ▸ he
  have hview : rt.view e = rt.dataEntry[e] := by
    simp [view, List.getD_eq_getElem?_getD, List.getElem?_eq_getElem hlt]
  obtain ⟨p, hp, hpd, hle⟩ := size_le_of_setupStorage hsetup
    (by rw [Graph.numNodeEntries_eq hg, hg.shape_length]) hsize _ (hview ▸ List.getElem_mem hlt)
  obtain ⟨s, hs, rfl⟩ := List.getElem_of_mem hp
  have hds : rt.storagePool[s].data = s := by simp [(setupStorage_pool hsetup hv).1]
  have hbuf := congrArg (·[s]?) hmem
  simp only [List.getElem?_map, List.getElem?_eq_getElem hs, Option.map_some'] at hbuf
  obtain ⟨buf, hbuf, hlen⟩ := Option.map_eq_some'.mp hbuf
  exact ⟨buf, by rw [← hpd, hds]; exact hbuf, by omega⟩

end Plan

/-- Under `FlattenExact`, the frame of a kernel has the buffers and byte sizes of the node's
arguments. -/
theorem frame_eq {rt : GraphRuntime} (hflat : rt.FlattenExact) {t : Nat}
    (ht : t < rt.nodes.length) {p : TVMOpParam} (hp : (rt.nodes.getD t .empty).param = some p)
    {frame : OpArgs} (hframe : packArgs p (slotArgs rt.toGraph rt.dataEntry t p) = .ok frame) :
    frame.args.map DLTensor.data = (slotArgs rt.toGraph rt.dataEntry t p).map DLTensor.data ∧
      frame.args.map DLTensor.size = (slotArgs rt.toGraph rt.dataEntry t p).map DLTensor.size :=
  ⟨data_of_packArgs hframe, size_of_packArgs hframe fun hf u hu =>
    accumulateShape_eq_prod (hflat t ht p hp hf u hu)⟩

/-! ### One slot, then the whole loop -/

/-- A placeholder's slot, empty, keeps the invariant. -/
theorem holdsDataflow_of_null {rt : GraphRuntime} (F : Nat → List (List UInt8) → List (List UInt8)) {mem : Pool} {V : Nat → List UInt8} {t : Nat}
    (hnull : (rt.nodes.getD t .empty).opType = "null") (hV : rt.HoldsDataflow mem V t) :
    rt.HoldsDataflow mem (rt.dataflowStep F V t) (t + 1) := by
  rw [dataflowStep_of_null F hnull]
  intro a ha i hi havail hneed
  refine hV a ha i hi ?_ hneed.of_succ
  by_cases hat : a = t
  · exact .inl (hat ▸ hnull)
  · exact havail.imp_right fun h => by omega

section Run

variable {f : String → Option DLDataType} {doc : JSONValue} {m : Module} {d : Bool}
  {rt : GraphRuntime} {F : Nat → List (List UInt8) → List (List UInt8)}
  (hinit : init f doc m d = .ok rt) (H : rt.DataflowPlan F)
include hinit H

theorem holdsDataflow_start {mem : Pool} (hmem : rt.Fits mem) :
    rt.HoldsDataflow mem (rt.contentsOf mem) 0 := by
  intro a ha i hi havail _
  obtain ⟨bytes, hb⟩ := readView_of_fits (view_fits hinit H.wellFormed H.sizes hmem
    (Graph.offset_add_lt_total (e := ⟨a, i, 0⟩) hi))
  change readView mem (rt.view (rt.offset a + i)) = .ok bytes at hb
  simp only [contentsOf, hb]
  rfl

/-- The slot of a `__nop` node, which does nothing, keeps the invariant: its outputs are
prefixes of its input's buffer. -/
theorem holdsDataflow_of_nop {mem : Pool} {V : Nat → List UInt8} {t : Nat}
    (ht : t < rt.nodes.length) (hnull : (rt.nodes.getD t .empty).opType ≠ "null") {p : TVMOpParam}
    (hp : (rt.nodes.getD t .empty).param = some p) (hnop : p.funcName = "__nop")
    (hV : rt.HoldsDataflow mem V t) : rt.HoldsDataflow mem (rt.dataflowStep F V t) (t + 1) := by
  have hg := H.wellFormed
  intro a ha i hi havail hneed
  by_cases hat : a = t
  · subst hat
    obtain ⟨e, he, halias⟩ := H.nops a ha p hp hnop
    obtain ⟨hs, hsz⟩ := halias i (Graph.numOutputsOf_of_param ha hp ▸ hi)
    have hein : e ∈ (rt.nodes.getD a .empty).inputs := List.mem_of_mem_head? he
    obtain ⟨hlt, hvalid⟩ := Graph.input_lt hg ha hein
    have hread := hV e.nodeId (Graph.lt_length_of_valid hvalid) e.index hvalid (.inr hlt)
      (.inr ⟨a, ha, le_refl _, e, hein, rfl, rfl⟩)
    obtain ⟨buf, hbuf, hle, hbytes⟩ := readView_eq_ok.mp hread
    have hd : (rt.view (rt.offset a + i)).data = (rt.view (rt.entryOf e)).data :=
      view_data_eq hinit hg (Graph.offset_add_lt_total (e := ⟨a, i, 0⟩) hi)
        (Graph.offset_add_lt_total hvalid) hs
    rw [dataflowStep_of_nop F hnull hp hnop hi, List.headD_eq_head?, he, Option.getD_some]
    refine readView_eq_ok.mpr ⟨buf, hd ▸ hbuf, le_trans hsz hle, ?_⟩
    rw [Graph.entryOf, hbytes, List.take_take]
    exact congrArg (List.take · buf) (min_eq_left hsz)
  · rw [dataflowStep_of_outside F (rt.entry_lt_or_ge hi hat)]
    exact hV a ha i hi (havail.imp_right fun h => by omega) hneed.of_succ

/-- The slot of a kernel node keeps the invariant: the call reads the node's inputs, which
hold their dataflow bytes, and writes each output whole, into a buffer that no other entry
still to be read uses. -/
theorem callPacked_dataflow {mem : Pool} (hmem : rt.Fits mem) {V : Nat → List UInt8} {t : Nat}
    (ht : t < rt.nodes.length) {pf : PackedFunc} {frame : OpArgs}
    (hop : rt.opExecs[t]? = some (some (.call pf frame)))
    (hspec : SlotSpec rt.module rt.toGraph rt.dataEntry t (some (.call pf frame)))
    (hV : rt.HoldsDataflow mem V t) :
    ∃ mem', callPacked pf frame.args mem = .ok mem' ∧ rt.Fits mem' ∧
      rt.HoldsDataflow mem' (rt.dataflowStep F V t) (t + 1) := by
  have hg := H.wellFormed
  obtain ⟨htvm, p, hp, hnop, -, hframe⟩ := hspec
  have hnull : (rt.nodes.getD t .empty).opType ≠ "null" := by rw [htvm]; decide
  have hno := Graph.numOutputsOf_of_param ht hp
  have hout : ∀ k < p.numOutputs, rt.offset t + k < rt.totalEntries := fun k hk =>
    Graph.offset_add_lt_total (e := ⟨t, k, 0⟩) (show k < rt.numOutputsOf t by omega)
  set ins := (rt.nodes.getD t .empty).inputs
  set insViews := ins.map fun e => rt.view (rt.entryOf e)
  set outs := (List.range p.numOutputs).map fun k => rt.view (rt.offset t + k)
  set vals := ins.map fun e => V (rt.entryOf e)
  -- the call, on the node's own views, of the function the kernel computes
  let kernel : PackedFunc :=
    ⟨fun _ cs => List.replicate ins.length none ++ (F t (cs.take ins.length)).map some⟩
  obtain ⟨hd, hs⟩ := frame_eq H.flatten ht hp hframe
  rw [@callPacked_congr pf kernel _ (insViews ++ outs) hd hs (H.kernels.call t pf frame hop) mem]
  -- it reads the inputs' dataflow bytes
  have hreadIns : insViews.mapM (readView mem) = .ok vals :=
    mapM_eq_ok.mpr (List.forall₂_map_left_iff.mpr (List.forall₂_map_right_iff.mpr
      (List.forall₂_same.mpr fun e he => by
        obtain ⟨hlt, hvalid⟩ := Graph.input_lt hg ht he
        exact hV e.nodeId (Graph.lt_length_of_valid hvalid) e.index hvalid (.inr hlt)
          (.inr ⟨t, ht, le_refl _, e, he, rfl, rfl⟩))))
  obtain ⟨cs, hcs⟩ := mapM_readView_of_fits fun o (ho : o ∈ outs) => by
    obtain ⟨k, hk, rfl⟩ := List.mem_map.mp ho
    exact view_fits hinit hg H.sizes hmem (hout k (List.mem_range.mp hk))
  -- and writes every output whole, on distinct buffers
  have hlen : (F t vals).map List.length = outs.map DLTensor.size := by
    rw [H.kernels.sizes t pf frame hop vals, hno, List.map_map]
    rfl
  have hnodup : (outs.map DLTensor.data).Nodup := by
    rw [List.map_map]
    refine List.Nodup.map_on (fun k hk k' hk' heq => ?_) (List.nodup_range _)
    by_contra hkk
    have hk := List.mem_range.mp hk
    have hk' := List.mem_range.mp hk'
    exact view_data_ne hinit hg (hout k hk) (hout k' hk')
      (Graph.storage_ne_of_outputs hg H.liveness ht hnull (hno ▸ hk) (hno ▸ hk') hkk) heq
  obtain ⟨mem', hw, hl, hreadOut, hframeOut⟩ := foldlM_writeArg_distinct hlen
    (fun o ho => by
      obtain ⟨k, hk, rfl⟩ := List.mem_map.mp ho
      exact view_fits hinit hg H.sizes hmem (hout k (List.mem_range.mp hk))) hnodup
  have hcall : callPacked kernel (insViews ++ outs) mem = .ok mem' := by
    unfold callPacked
    rw [List.mapM_append, hreadIns, ok_bind, hcs, ok_bind, pure_bind]
    show ((insViews ++ outs).zip (List.replicate ins.length none ++
      (F t ((vals ++ cs).take ins.length)).map some)).foldlM writeArg mem = .ok mem'
    rw [List.take_left' (by simp [vals]), List.zip_append (by simp [insViews]),
      List.foldlM_append, foldlM_writeArg_none fun w hw => List.eq_of_mem_replicate
        (List.of_mem_zip hw).2, ok_bind]
    exact hw
  refine ⟨mem', hcall, hl.trans hmem, fun a ha i hi havail hneed => ?_⟩
  by_cases hat : a = t
  · subst hat
    have hb : i < (F a vals).length := by
      have := congrArg List.length hlen
      simp only [List.length_map, List.length_range, outs] at this
      omega
    have hread := hreadOut i (by simpa [outs, hno] using hi) hb
    simp only [outs, List.getElem_map, List.getElem_range] at hread
    rw [dataflowStep_of_kernel F hnull hp hnop hi, hread, List.getD_eq_getElem?_getD,
      List.getElem?_eq_getElem hb, Option.getD_some]
  · rw [dataflowStep_of_outside F (rt.entry_lt_or_ge hi hat)]
    have havail' : (rt.nodes.getD a .empty).opType = "null" ∨ a < t :=
      havail.imp_right fun h => by omega
    rw [readView_congr (hframeOut _ fun hin => ?_)]
    · exact hV a ha i hi havail' hneed.of_succ
    · rw [List.map_map] at hin
      obtain ⟨k, hk, heq⟩ := List.mem_map.mp hin
      have hk := List.mem_range.mp hk
      exact view_data_ne hinit hg (hout k hk) (Graph.offset_add_lt_total (e := ⟨a, i, 0⟩) hi)
        (Ne.symm (Graph.storage_ne_of_needed H.liveness ht hnull (hno ▸ hk) ha hi hat havail'
          hneed)) heq

/-- One slot of `Run` keeps the invariant, and moves the dataflow semantics one node on. -/
theorem runSlot_dataflow {mem : Pool} (hmem : rt.Fits mem) {V : Nat → List UInt8} {t : Nat}
    (ht : t < rt.nodes.length) (hV : rt.HoldsDataflow mem V t) :
    ∃ mem', rt.runSlot mem t = .ok mem' ∧ rt.Fits mem' ∧
      rt.HoldsDataflow mem' (rt.dataflowStep F V t) (t + 1) := by
  obtain ⟨op, hop, hspec⟩ := slotSpec hinit H.wellFormed ht
  rw [runSlot, vecAt_eq_ok.mpr hop, ok_bind]
  rcases op with _ | _ | ⟨pf, frame⟩
  · exact ⟨mem, rfl, hmem, holdsDataflow_of_null F hspec hV⟩
  · obtain ⟨htvm, p, hp, hnop⟩ := hspec
    exact ⟨mem, rfl, hmem, holdsDataflow_of_nop hinit H ht (by rw [htvm]; decide) hp hnop hV⟩
  · exact callPacked_dataflow hinit H hmem ht hop hspec hV

/-- The first `n` slots of `Run` complete and compute the first `n` nodes of the dataflow
semantics. -/
theorem foldlM_runSlot_dataflow {mem : Pool} (hmem : rt.Fits mem) {n : Nat}
    (hn : n ≤ rt.nodes.length) :
    ∃ mem', (List.range n).foldlM rt.runSlot mem = .ok mem' ∧ rt.Fits mem' ∧
      rt.HoldsDataflow mem' ((List.range n).foldl (rt.dataflowStep F) (rt.contentsOf mem)) n := by
  induction n with
  | zero => exact ⟨mem, rfl, hmem, holdsDataflow_start hinit H hmem⟩
  | succ n ih =>
    obtain ⟨mem₁, h₁, hfit₁, hV₁⟩ := ih (by omega)
    obtain ⟨mem₂, h₂, hfit₂, hV₂⟩ := runSlot_dataflow hinit H hfit₁ (by omega) hV₁
    refine ⟨mem₂, by rw [foldlM_range_succ, h₁, ok_bind, h₂], hfit₂, ?_⟩
    rw [List.range_succ, List.foldl_append]
    exact hV₂

end Run

/-- After `Init`, under the conditions of `DataflowPlan` and on pool memory as allocated, one
`Run` completes, and every head holds the bytes the dataflow semantics gives it. -/
theorem run_dataflow {f : String → Option DLDataType} {doc : JSONValue} {m : Module} {d : Bool}
    {rt : GraphRuntime} {F : Nat → List (List UInt8) → List (List UInt8)}
    (hinit : init f doc m d = .ok rt) (H : rt.DataflowPlan F) {mem : Pool} (hmem : rt.Fits mem) :
    ∃ mem', rt.run mem = .ok mem' ∧ ∀ e ∈ rt.outputs,
      readView mem' (rt.view (rt.entryOf e)) = .ok (rt.dataflow F (rt.contentsOf mem) (rt.entryOf e)) := by
  obtain ⟨mem', hrun, -, hV⟩ := foldlM_runSlot_dataflow hinit H hmem (le_refl _)
  refine ⟨mem', by rw [run, opExecs_length hinit H.wellFormed]; exact hrun, fun e he => ?_⟩
  have hv := H.wellFormed.outputs_valid e he
  exact hV e.nodeId (Graph.lt_length_of_valid hv) e.index hv (.inr (Graph.lt_length_of_valid hv))
    (.inl ⟨e, he, rfl, rfl⟩)

end GraphRuntime

/-! ### A plan with an in-place kernel, and one whose output does not fit -/

/-- `inc` overwrites its input in place: `x` and the output of `inc` share storage id 0, which
`x` no longer needs once `inc` has read it; `dbl` reads the output of `inc`. -/
def inPlaceDoc : JSONValue := .obj [
  ("nodes", .arr [.obj [("op", .str "null"), ("name", .str "x"), ("inputs", .arr [])],
    .obj [("op", .str "tvm_op"), ("name", .str "inc"), ("inputs", .arr [.arr [.num 0, .num 0]]),
      ("attrs", .obj [("func_name", .str "inc"), ("num_inputs", .str "1"),
        ("num_outputs", .str "1"), ("flatten_data", .str "0")])],
    .obj [("op", .str "tvm_op"), ("name", .str "dbl"), ("inputs", .arr [.arr [.num 1, .num 0]]),
      ("attrs", .obj [("func_name", .str "dbl"), ("num_inputs", .str "1"),
        ("num_outputs", .str "1"), ("flatten_data", .str "1")])]]),
  ("arg_nodes", .arr [.num 0]), ("node_row_ptr", .arr [.num 0, .num 1, .num 2, .num 3]),
  ("heads", .arr [.arr [.num 2, .num 0]]),
  ("attrs", .obj [("dltype", .arr [.str "list_str", .arr [.str "uint8", .str "uint8", .str "uint8"]]),
    ("storage_id", .arr [.str "list_int", .arr [.num 0, .num 0, .num 1]]),
    ("shape", .arr [.str "list_shape", .arr [.arr [.num 1], .arr [.num 1], .arr [.num 1]]])])]

/-- A kernel that writes its first input's first byte plus one into its output. -/
def incFunc : PackedFunc := ⟨fun _ cs => [none, some [(cs.getD 0 []).headD 0 + 1]]⟩

/-- What `incFunc` computes, for every node. -/
def incKernel (_ : Nat) (ins : List (List UInt8)) : List (List UInt8) := [[(ins.getD 0 []).headD 0 + 1]]

/-- The runtime `Init` builds from `inPlaceDoc`, with `incFunc` for every kernel name. -/
def inPlaceRuntime : GraphRuntime :=
  match GraphRuntime.init uint8Type inPlaceDoc ⟨fun _ => some incFunc⟩ false with
  | .ok rt => rt
  | .error _ => ⟨Graph.empty, ⟨fun _ => none⟩, [], [], [], false⟩

theorem inPlaceRuntime_init :
    GraphRuntime.init uint8Type inPlaceDoc ⟨fun _ => some incFunc⟩ false = .ok inPlaceRuntime :=
  rfl

theorem inPlaceRuntime_dataflowPlan : inPlaceRuntime.DataflowPlan incKernel := by
  have hg : inPlaceRuntime.WellFormed := by decide
  have hkernel : ∀ nid < inPlaceRuntime.nodes.length,
      ((inPlaceRuntime.nodes.getD nid .empty).param.isSome →
        (inPlaceRuntime.nodes.getD nid .empty).inputs.length = 1 ∧
        (List.range (inPlaceRuntime.numOutputsOf nid)).map
          (fun k => (inPlaceRuntime.view (inPlaceRuntime.offset nid + k)).size) = [1]) := by
    decide
  have hslot : ∀ nid pf frame, inPlaceRuntime.opExecs[nid]? = some (some (.call pf frame)) →
      pf = incFunc ∧ (inPlaceRuntime.nodes.getD nid .empty).inputs.length = 1 ∧
        (List.range (inPlaceRuntime.numOutputsOf nid)).map
          (fun k => (inPlaceRuntime.view (inPlaceRuntime.offset nid + k)).size) = [1] := by
    intro nid pf frame h
    have ht : nid < inPlaceRuntime.nodes.length := by
      rw [← GraphRuntime.opExecs_length inPlaceRuntime_init hg]
      exact (List.getElem?_eq_some_iff.mp h).1
    obtain ⟨op, hop, hspec⟩ := GraphRuntime.slotSpec inPlaceRuntime_init hg ht
    rw [h] at hop
    cases hop
    obtain ⟨-, p, hp, -, hpf, -⟩ := hspec
    rw [(GraphRuntime.init_eq_ok inPlaceRuntime_init).2.2.2.1] at hpf
    exact ⟨(Option.some.inj hpf).symm, hkernel nid ht (by rw [hp]; rfl)⟩
  refine ⟨hg, by decide, by decide, by decide, by decide, fun nid pf frame h cs => ?_,
    fun nid pf frame h ins => ?_⟩
  · obtain ⟨rfl, hin, -⟩ := hslot nid pf frame h
    rw [hin]
    cases cs <;> rfl
  · rw [(hslot nid pf frame h).2.2]
    rfl

/-- One `Run` of `inPlaceRuntime` from `x = 5` computes the dataflow semantics. -/
theorem run_dataflow_inPlace :
    ∃ mem', inPlaceRuntime.run [[5, 0, 0, 0], [0, 0, 0, 0]] = .ok mem' ∧
      ∀ e ∈ inPlaceRuntime.outputs, readView mem' (inPlaceRuntime.view (inPlaceRuntime.entryOf e)) =
        .ok (inPlaceRuntime.dataflow incKernel
          (inPlaceRuntime.contentsOf [[5, 0, 0, 0], [0, 0, 0, 0]]) (inPlaceRuntime.entryOf e)) :=
  GraphRuntime.run_dataflow inPlaceRuntime_init inPlaceRuntime_dataflowPlan (by decide)

/-- A graph whose kernel `f` has an output of shape `[-1]`: the view has `2^64 - 1` bytes, and
its pool buffer none. -/
def negOutputDoc : JSONValue := .obj [
  ("nodes", .arr [.obj [("op", .str "null"), ("name", .str "x"), ("inputs", .arr [])],
    .obj [("op", .str "tvm_op"), ("name", .str "f"), ("inputs", .arr [.arr [.num 0, .num 0]]),
      ("attrs", .obj [("func_name", .str "f"), ("num_inputs", .str "1"),
        ("num_outputs", .str "1"), ("flatten_data", .str "0")])]]),
  ("arg_nodes", .arr [.num 0]), ("node_row_ptr", .arr [.num 0, .num 1, .num 2]),
  ("heads", .arr [.arr [.num 1, .num 0]]),
  ("attrs", .obj [("dltype", .arr [.str "list_str", .arr [.str "uint8", .str "uint8"]]),
    ("storage_id", .arr [.str "list_int", .arr [.num 0, .num 1]]),
    ("shape", .arr [.str "list_shape", .arr [.arr [.num 1], .arr [.num (-1)]]])])]

/-- On `negOutputDoc` the graph is well formed, the plan respects liveness, there is no `__nop`,
and the pool memory is as allocated; the kernel computes its output from its input, but `Run`
reads the output's view, of `2^64 - 1` bytes, past the end of its empty buffer. -/
theorem run_negOutputDoc :
    ((GraphRuntime.init uint8Type negOutputDoc ⟨fun _ => some incFunc⟩ false).map fun rt =>
      (decide rt.WellFormed, decide rt.RespectsLiveness, decide rt.NopsAlias,
        decide (rt.Fits [[5, 0, 0, 0], []]), rt.dataEntry.map DLTensor.size)) =
      .ok (true, true, true, true, [1, 2 ^ 64 - 1]) ∧
    ((GraphRuntime.init uint8Type negOutputDoc ⟨fun _ => some incFunc⟩ false).bind fun rt =>
      rt.run [[5, 0, 0, 0], []]) = .error (.undefined "read past the end of a pool buffer") := by
  decide

end TvmGraphRuntime
