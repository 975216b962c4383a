import TvmGraphRuntime.Dataflow
import TvmGraphRuntime.Print

/-!
# Inference through the public operations

A caller drives the executor through the functions `GetFunction` returns: `set_input` for the
inputs, `run`, then `get_output` for a head. Under the plan of `run_dataflow`, with every arg
node a placeholder, this sequence computes the graph's function: the tensor `get_output(k)`
copies out holds the dataflow value of head `k`, from the bytes `set_input` stored into the
input slots and, at every other placeholder, the bytes the pool held.

* `dataflow_congr`: the dataflow semantics reads its start values at the placeholder entries
  only, once every `__nop` has an input;
* `Graph.storage_ne_of_null`: under a plan that respects liveness, distinct placeholder
  entries have distinct storage ids, since every placeholder is live at the start of a run and
  none reuses another;
* `setInput_placeholders`, `exec_setInputs`: a `set_input` writes its slot's entry and no other
  placeholder's, so after the calls the placeholders hold `setInputs` of what they held;
* **`exec_infers_dataflow`**: `set_input`s, `run` and `get_output(k)` succeed, and the last
  copies out the dataflow value of head `k` from those placeholder values.

Around it:

* **`run_congr_placeholders`**: `Run` reads the placeholders only; from two pools whose
  placeholders agree it leaves the same heads, whatever the other buffers held;
* `WriteStable`, `exec_pool_lengths`: every call changes the pool by view writes only, so a
  run of calls keeps the pool's shape, and a pool as allocated stays so (`Fits.of_exec`);
* **`exec_run_dataflow`**: from every store that successful calls reach from a pool as
  allocated, `run` succeeds and leaves each head holding the dataflow value of what the
  placeholders then hold;
* **`debugGetNodeOutput_dataflow`**: `DebugGetNodeOutput(index)` runs the nodes up to `index`
  and copies out data entry `index` (not node `index`'s output) as the dataflow semantics of
  those nodes gives it.
-/

namespace TvmGraphRuntime

namespace GraphRuntime

variable (rt : GraphRuntime)

/-- The entry of input slot `i`: output 0 of node `input_nodes_[i]`. -/
def slotEntry (i : Nat) : Nat := rt.offset (rt.inputNodes.getD i 0)

/-- The entry values after `set_input(i, x)` for each `(i, x)` in order, from `V`: the entry
of slot `static_cast<size_t>(i)` holds the bytes of `x`. -/
def setInputs (V : Nat → List UInt8) (xs : List (Int × HostTensor)) : Nat → List UInt8 :=
  xs.foldl (fun V x => Function.update V (rt.slotEntry (sizeT x.1)) x.2.bytes) V

/-- `V` and `V'` agree at every placeholder entry. -/
def AgreeOnPlaceholders (V V' : Nat → List UInt8) : Prop :=
  ∀ a < rt.nodes.length, (rt.nodes.getD a .empty).opType = "null" →
    ∀ i < rt.numOutputsOf a, V (rt.offset a + i) = V' (rt.offset a + i)

variable {rt}

theorem AgreeOnPlaceholders.trans {V₁ V₂ V₃ : Nat → List UInt8}
    (h₁ : rt.AgreeOnPlaceholders V₁ V₂) (h₂ : rt.AgreeOnPlaceholders V₂ V₃) :
    rt.AgreeOnPlaceholders V₁ V₃ :=
  fun a ha hnull i hi => (h₁ a ha hnull i hi).trans (h₂ a ha hnull i hi)

theorem AgreeOnPlaceholders.update {V V' : Nat → List UInt8} (h : rt.AgreeOnPlaceholders V V')
    (e : Nat) (b : List UInt8) :
    rt.AgreeOnPlaceholders (Function.update V e b) (Function.update V' e b) := by
  intro a ha hnull i hi
  by_cases he : rt.offset a + i = e
  · rw [he, Function.update_same, Function.update_same]
  · rw [Function.update_noteq he, Function.update_noteq he]
    exact h a ha hnull i hi

/-! ### The semantics reads the placeholders only -/

section Semantics

variable (F : Nat → List (List UInt8) → List (List UInt8))

/-- After the first `t` nodes, two start values that agree at the placeholders agree at every
placeholder entry and at every entry of a node before `t`. -/
theorem foldl_dataflowStep_congr (hg : rt.WellFormed) (hnops : rt.NopsAlias)
    {V V' : Nat → List UInt8} (h : rt.AgreeOnPlaceholders V V') {t : Nat} :
    ∀ a < rt.nodes.length, ((rt.nodes.getD a .empty).opType = "null" ∨ a < t) →
      ∀ i < rt.numOutputsOf a,
        (List.range t).foldl (rt.dataflowStep F) V (rt.offset a + i) =
          (List.range t).foldl (rt.dataflowStep F) V' (rt.offset a + i) := by
  induction t with
  | zero => exact fun a ha hav => h a ha (hav.resolve_right (Nat.not_lt_zero a))
  | succ t ih =>
    intro a ha hav i hi
    simp only [List.range_succ, List.foldl_append, List.foldl_cons, List.foldl_nil]
    set W := (List.range t).foldl (rt.dataflowStep F) V
    set W' := (List.range t).foldl (rt.dataflowStep F) V'
    by_cases hat : a = t
    · subst hat
      -- the inputs of node `a` come from earlier nodes, on which `W` and `W'` agree
      have hin : ∀ e ∈ (rt.nodes.getD a .empty).inputs, W (rt.entryOf e) = W' (rt.entryOf e) :=
        fun e he => have hlt := Graph.input_lt hg ha he
          ih e.nodeId (Graph.lt_length_of_valid hlt.2) (.inr hlt.1) e.index hlt.2
      unfold dataflowStep
      by_cases hnull : (rt.nodes.getD a .empty).opType = "null"
      · simp only [hnull, true_or, if_true]
        exact ih a ha (.inl hnull) i hi
      have hrange : ¬ (rt.offset a + i < rt.offset a ∨
          rt.offset a + rt.numOutputsOf a ≤ rt.offset a + i) := by
        omega
      simp only [hnull, hrange, or_self, if_false]
      split_ifs with hnop
      · obtain ⟨p, hp, hname⟩ := Option.map_eq_some'.mp hnop
        obtain ⟨e, he, -⟩ := hnops a ha p hp hname
        obtain ⟨rest, hrest⟩ : ∃ rest, (rt.nodes.getD a .empty).inputs = e :: rest :=
          List.head?_eq_some_iff.mp he
        rw [hrest, List.headD_cons, hin e (hrest ▸ List.mem_cons_self e rest)]
      · rw [List.map_congr_left hin]
    · rw [dataflowStep_of_outside F (rt.entry_lt_or_ge hi hat),
        dataflowStep_of_outside F (rt.entry_lt_or_ge hi hat)]
      exact ih a ha (hav.imp_right fun h => by omega) i hi

/-- The dataflow semantics reads its start values at the placeholder entries only. -/
theorem dataflow_congr (hg : rt.WellFormed) (hnops : rt.NopsAlias) {V V' : Nat → List UInt8}
    (h : rt.AgreeOnPlaceholders V V') {e : NodeEntry} (he : rt.ValidEntry e) :
    rt.dataflow F V (rt.entryOf e) = rt.dataflow F V' (rt.entryOf e) :=
  have hlt := Graph.lt_length_of_valid he
  foldl_dataflowStep_congr F hg hnops h e.nodeId hlt (.inr hlt) e.index he

end Semantics

/-- **`Run` reads the placeholders only.** From two pools as allocated whose placeholder
entries hold the same bytes, `Run` completes on both and leaves the same bytes at every head:
what the other buffers held, from an earlier run or from allocation, reaches no output. -/
theorem run_congr_placeholders {f : String → Option DLDataType} {doc : JSONValue} {m : Module}
    {d : Bool} {F : Nat → List (List UInt8) → List (List UInt8)}
    (hinit : init f doc m d = .ok rt) (H : rt.DataflowPlan F) {mem₁ mem₂ : Pool}
    (hmem₁ : rt.Fits mem₁) (hmem₂ : rt.Fits mem₂)
    (h : rt.AgreeOnPlaceholders (rt.contentsOf mem₁) (rt.contentsOf mem₂)) :
    ∃ mem₁' mem₂', rt.run mem₁ = .ok mem₁' ∧ rt.run mem₂ = .ok mem₂' ∧ ∀ e ∈ rt.outputs,
      readView mem₁' (rt.view (rt.entryOf e)) = readView mem₂' (rt.view (rt.entryOf e)) := by
  obtain ⟨mem₁', hrun₁, hout₁⟩ := run_dataflow hinit H hmem₁
  obtain ⟨mem₂', hrun₂, hout₂⟩ := run_dataflow hinit H hmem₂
  refine ⟨mem₁', mem₂', hrun₁, hrun₂, fun e he => ?_⟩
  rw [hout₁ e he, hout₂ e he,
    dataflow_congr F H.wellFormed H.nops h (H.wellFormed.outputs_valid e he)]

end GraphRuntime

/-- Under a plan that respects liveness, distinct placeholder entries have distinct storage
ids: every placeholder is live at the start of a run, and no placeholder reuses another. -/
theorem Graph.storage_ne_of_null {g : Graph} (hlive : g.RespectsLiveness) {a i b j : Nat}
    (ha : a < g.nodes.length) (hi : i < g.numOutputsOf a) (hb : b < g.nodes.length)
    (hj : j < g.numOutputsOf b) (hna : (g.nodes.getD a .empty).opType = "null")
    (hnb : (g.nodes.getD b .empty).opType = "null") (hne : (a, i) ≠ (b, j)) :
    g.attrs.storageId.getD (g.offset a + i) 0 ≠ g.attrs.storageId.getD (g.offset b + j) 0 := by
  intro hs
  have hba : g.birth a = 0 := if_pos hna
  have hbb : g.birth b = 0 := if_pos hnb
  rcases hlive a ha i hi b hb j hj ⟨hne, hs⟩ 0 (Nat.zero_le _) ⟨hba.le, .inl hba.symm⟩
      ⟨hbb.le, .inl hbb.symm⟩ with ⟨-, hre⟩ | ⟨-, hre⟩
  · exact hre.1 hnb
  · exact hre.1 hna

namespace GraphRuntime

/-! ### Runs of calls -/

/-- Two runs of calls, one after the other, are a run of the joined calls. -/
theorem exec_append_of_ok {rt : GraphRuntime} {k₁ k₂ : Nat} {cs₁ cs₂ : List Call}
    {st₁ st₂ : Store} {rs₂ : List Reply} (h₂ : rt.exec k₁ k₂ st₁ cs₂ = .ok (st₂, rs₂)) :
    ∀ {st : Store} {rs₁ : List Reply}, rt.exec k₁ k₂ st cs₁ = .ok (st₁, rs₁) →
      rt.exec k₁ k₂ st (cs₁ ++ cs₂) = .ok (st₂, rs₁ ++ rs₂) := by
  induction cs₁ with
  | nil =>
    intro st rs₁ h₁
    obtain ⟨rfl, rfl⟩ := Prod.mk.inj (Except.ok.inj h₁)
    exact h₂
  | cons c cs₁ ih =>
    intro st rs₁ h₁
    obtain ⟨⟨st', r⟩, hcall, h₁⟩ := bind_eq_ok.mp h₁
    obtain ⟨⟨st'', rs'⟩, hrest, hpair⟩ := bind_eq_ok.mp h₁
    obtain ⟨rfl, rfl⟩ := Prod.mk.inj (pure_eq_ok.mp hpair)
    rw [List.cons_append, exec, hcall, ok_bind]
    dsimp only
    rw [ih hrest, ok_bind]
    rfl

/-! ### The pool changes by view writes only -/

/-- A property of the pool that every write of a view keeps. -/
def WriteStable (P : Pool → Prop) : Prop :=
  ∀ ⦃mem mem' : Pool⦄ ⦃t : DLTensor⦄ ⦃bytes : List UInt8⦄, P mem →
    writeView mem t bytes = .ok mem' → P mem'

/-- The lengths of the pool's buffers are such a property. -/
theorem writeStable_lengths (L : List Nat) : WriteStable fun mem => mem.map List.length = L :=
  fun _ _ _ _ hm hw => (lengths_of_writeView hw).trans hm

section WriteStable

variable {P : Pool → Prop} (hP : WriteStable P) {rt : GraphRuntime} {k₁ k₂ : Nat}
include hP

theorem WriteStable.callPacked {pf : PackedFunc} {args : List DLTensor} {mem mem' : Pool}
    (hm : P mem) (h : TvmGraphRuntime.callPacked pf args mem = .ok mem') : P mem' := by
  obtain ⟨_, -, hw⟩ := callPacked_eq_ok h
  refine foldlM_invariant P hm (fun w _ m m' hm hstep => ?_) hw
  rcases w with ⟨t, _ | bytes⟩
  · exact (pure_eq_ok.mp hstep) ▸ hm
  · exact hP hm hstep

theorem WriteStable.runSlot {mem mem' : Pool} {i : Nat} (hm : P mem)
    (h : rt.runSlot mem i = .ok mem') : P mem' := by
  obtain ⟨op, -, hexec⟩ := bind_eq_ok.mp h
  rcases op with _ | _ | ⟨pf, frame⟩
  · exact (pure_eq_ok.mp hexec) ▸ hm
  · exact (pure_eq_ok.mp hexec) ▸ hm
  · exact hP.callPacked hm hexec

theorem WriteStable.run {mem mem' : Pool} (hm : P mem) (h : rt.run mem = .ok mem') : P mem' :=
  foldlM_invariant P hm (fun _ _ _ _ hm hstep => hP.runSlot hm hstep) h

theorem WriteStable.storeSlot {mem mem' : Pool} {st : Nat × List UInt8} (hm : P mem)
    (h : rt.storeSlot mem st = .ok mem') : P mem' := by
  obtain ⟨v, -, hw⟩ := bind_eq_ok.mp h
  exact hP hm hw

/-- A call keeps every property that view writes keep. -/
theorem WriteStable.call {st st' : Store} {c : Call} {r : Reply} (hm : P st.pool)
    (h : rt.call k₁ k₂ st c = .ok (st', r)) : P st'.pool := by
  have hset : ∀ {i : Int} {x : HostTensor} {pool' : Pool}, rt.setInput st.pool i x = .ok pool' →
      P pool' := fun hs => by
    obtain ⟨v, -, -, hst⟩ := setInput_eq_ok hs
    exact hP.storeSlot hm hst
  cases c with
  | setInput key x =>
    cases key with
    | index i =>
      simp only [GraphRuntime.call, bind_eq_ok, pure_eq_ok, Prod.mk.injEq] at h
      obtain ⟨pool', hs, rfl, rfl⟩ := h
      exact hset hs
    | name s =>
      simp only [GraphRuntime.call, bind_eq_ok] at h
      obtain ⟨idx, -, h⟩ := h
      split_ifs at h <;> simp only [bind_eq_ok, pure_eq_ok, Prod.mk.injEq] at h
      · obtain ⟨pool', hs, rfl, rfl⟩ := h
        exact hset hs
      · obtain ⟨rfl, rfl⟩ := h
        exact hm
  | getInput key x =>
    cases key with
    | index i =>
      simp only [GraphRuntime.call, bind_eq_ok, pure_eq_ok, Prod.mk.injEq] at h
      obtain ⟨t, -, rfl, rfl⟩ := h
      exact hm
    | name s =>
      simp only [GraphRuntime.call, bind_eq_ok, check_eq_ok, pure_eq_ok, Prod.mk.injEq] at h
      obtain ⟨idx, -, ⟨⟩, -, t, -, rfl, rfl⟩ := h
      exact hm
  | getOutput | getInputNames | getOutputNames =>
    simp only [GraphRuntime.call, bind_eq_ok, pure_eq_ok, Prod.mk.injEq] at h
    obtain ⟨_, -, rfl, rfl⟩ := h
    exact hm
  | setDebugBuffer b =>
    simp only [GraphRuntime.call, pure_eq_ok, Prod.mk.injEq] at h
    obtain ⟨rfl, rfl⟩ := h
    exact hm
  | run =>
    simp only [GraphRuntime.call] at h
    split_ifs at h <;> simp only [bind_eq_ok, pure_eq_ok, Prod.mk.injEq] at h
    · obtain ⟨⟨pool', host'⟩, hrun, rfl, rfl⟩ := h
      exact hP.run hm (run_of_debugRun hrun)
    · obtain ⟨pool', hrun, rfl, rfl⟩ := h
      exact hP.run hm hrun
  | loadParams blob =>
    simp only [GraphRuntime.call, bind_eq_ok, pure_eq_ok, Prod.mk.injEq] at h
    obtain ⟨pool', hload, rfl, rfl⟩ := h
    obtain ⟨stores, -, happly, -⟩ := loadParams_eq_ok hload
    exact foldlM_invariant P hm (fun _ _ _ _ hm hstep => hP.storeSlot hm hstep) happly

/-- A run of successful calls keeps every property that view writes keep. -/
theorem WriteStable.exec {cs : List Call} : ∀ {st st' : Store} {rs : List Reply}, P st.pool →
    rt.exec k₁ k₂ st cs = .ok (st', rs) → P st'.pool := by
  induction cs with
  | nil =>
    intro st st' rs hm h
    obtain ⟨rfl, -⟩ := Prod.mk.inj (pure_eq_ok.mp h)
    exact hm
  | cons c cs ih =>
    intro st st' rs hm h
    obtain ⟨⟨st₁, r⟩, hcall, h⟩ := bind_eq_ok.mp h
    obtain ⟨⟨st₂, rs'⟩, hrest, hpair⟩ := bind_eq_ok.mp h
    obtain ⟨rfl, -⟩ := Prod.mk.inj (pure_eq_ok.mp hpair)
    exact ih (hP.call hm hcall) hrest

end WriteStable

/-- **No call changes the shape of the pool.** After a run of successful calls, the pool has
as many buffers as before, each of the same length: every call changes the pool by writes of
views only. -/
theorem exec_pool_lengths {rt : GraphRuntime} {k₁ k₂ : Nat} {st st' : Store} {cs : List Call}
    {rs : List Reply} (h : rt.exec k₁ k₂ st cs = .ok (st', rs)) :
    st'.pool.map List.length = st.pool.map List.length :=
  (writeStable_lengths _).exec rfl h

/-- So a pool as allocated stays as allocated, and `exec_infers_dataflow` applies after any
run of successful calls. -/
theorem Fits.of_exec {rt : GraphRuntime} {k₁ k₂ : Nat} {st st' : Store} {cs : List Call}
    {rs : List Reply} (hmem : rt.Fits st.pool) (h : rt.exec k₁ k₂ st cs = .ok (st', rs)) :
    rt.Fits st'.pool :=
  (exec_pool_lengths h).trans hmem

/-- A copy out of a view that reads, into a tensor of the view's size, hands back the bytes
read. -/
theorem copyToHost_of_readView {mem : Pool} {src : DLTensor} {bytes : List UInt8}
    (h : readView mem src = .ok bytes) {dst : HostTensor} (hsz : dst.size = src.size) :
    ∃ t, copyToHost mem src dst = .ok t ∧ t.bytes = bytes := by
  unfold copyToHost
  rw [dif_pos (show src.size = getDataSize dst.shape dst.dtype from hsz.symm)]
  split
  · rename_i bytes' h'
    exact ⟨_, rfl, Except.ok.inj (h'.symm.trans h)⟩
  · rename_i e h'
    exact absurd (h'.symm.trans h) (fun h => nomatch h)

section Inputs

variable {f : String → Option DLDataType} {doc : JSONValue} {m : Module} {d : Bool}
  {rt : GraphRuntime} {F : Nat → List (List UInt8) → List (List UInt8)}
  (hinit : init f doc m d = .ok rt) (H : rt.DataflowPlan F)
  (hargs : ∀ nid ∈ rt.inputNodes, (rt.nodes.getD nid .empty).opType = "null")

include H hargs in
/-- The entry of an input slot is output 0 of a placeholder node. -/
theorem slotEntry_spec {i : Nat} (hi : i < rt.inputNodes.length) :
    rt.inputNodes.getD i 0 < rt.nodes.length ∧ 0 < rt.numOutputsOf (rt.inputNodes.getD i 0) ∧
      (rt.nodes.getD (rt.inputNodes.getD i 0) .empty).opType = "null" := by
  rw [List.getD_eq_getElem _ _ hi]
  have hv := H.wellFormed.inputNodes_valid _ (List.getElem_mem hi)
  exact ⟨Graph.lt_length_of_valid hv, hv, hargs _ (List.getElem_mem hi)⟩

include hinit H in
/-- The view `SetInput` reaches for slot `i` is the view of the slot's entry. -/
theorem slotView_eq_view {i : Nat} (hi : i < rt.inputNodes.length) :
    rt.slotView i = .ok (rt.view (rt.slotEntry i)) := by
  have hv := H.wellFormed.inputNodes_valid _ (List.getElem_mem hi)
  have h := entryView_eq H.wellFormed (dataEntry_length hinit H.wellFormed) hv
  simp only [slotView, vecAt_of_lt _ hi, ok_bind]
  rw [slotEntry, List.getD_eq_getElem _ _ hi]
  exact h

include hinit H hargs in
/-- A `set_input` of a tensor of its slot's size succeeds, keeps every buffer's length, writes
the tensor's bytes into the slot's entry and leaves every other placeholder entry: distinct
placeholders lie on distinct buffers. -/
theorem setInput_placeholders {mem : Pool} (hmem : rt.Fits mem) {index : Int}
    (hi : sizeT index < rt.inputNodes.length) {x : HostTensor}
    (hx : x.size = (rt.view (rt.slotEntry (sizeT index))).size) :
    ∃ mem', rt.setInput mem index x = .ok mem' ∧ rt.Fits mem' ∧
      rt.AgreeOnPlaceholders (rt.contentsOf mem')
        (Function.update (rt.contentsOf mem) (rt.slotEntry (sizeT index)) x.bytes) := by
  have hg := H.wellFormed
  obtain ⟨hn, h0, hnull⟩ := slotEntry_spec H hargs hi
  have hlt : rt.slotEntry (sizeT index) < rt.totalEntries :=
    Graph.offset_add_lt_total (e := ⟨rt.inputNodes.getD (sizeT index) 0, 0, 0⟩) h0
  obtain ⟨buf, hbuf, hle⟩ := view_fits hinit hg H.sizes hmem hlt
  have hlen : x.bytes.length = (rt.view (rt.slotEntry (sizeT index))).size :=
    x.bytes_length.trans hx
  have hw : writeView mem (rt.view (rt.slotEntry (sizeT index))) x.bytes =
      .ok (mem.set (rt.view (rt.slotEntry (sizeT index))).data
        (x.bytes ++ buf.drop x.bytes.length)) :=
    writeView_eq_ok.mpr ⟨buf, hbuf, hlen ▸ hle, rfl⟩
  have hsz : getDataSize x.shape x.dtype = (rt.view (rt.slotEntry (sizeT index))).size := hx
  refine ⟨_, ?_, (lengths_of_writeView hw).trans hmem, fun a ha hna i hi' => ?_⟩
  · simp only [setInput, check, hi, decide_True, if_true, pure_bind,
      slotView_eq_view hinit H hi, ok_bind, copyFromHost, hsz, beq_self_eq_true, hw]
  by_cases he : rt.offset a + i = rt.slotEntry (sizeT index)
  · rw [he, Function.update_same, contentsOf, readView_of_writeView hw hlen]
    rfl
  · rw [Function.update_noteq he]
    have hne : (a, i) ≠ (rt.inputNodes.getD (sizeT index) 0, 0) := fun h =>
      he (by rw [(Prod.mk.inj h).1, (Prod.mk.inj h).2]; rfl)
    have hd := view_data_ne hinit hg (Graph.offset_add_lt_total (e := ⟨a, i, 0⟩) hi') hlt
      (Graph.storage_ne_of_null H.liveness ha hi' hn h0 hna hnull hne)
    rw [contentsOf, contentsOf, readView_congr (getElem?_of_writeView hw hd)]

include hinit H hargs in
/-- `set_input(i, x)` for each `(i, x)` in order, each tensor of its slot's size: the calls
succeed, keep every buffer's length, and leave the placeholders holding `setInputs`. -/
theorem exec_setInputs (k₁ k₂ : Nat) (xs : List (Int × HostTensor))
    (hxs : ∀ x ∈ xs, sizeT x.1 < rt.inputNodes.length ∧
      x.2.size = (rt.view (rt.slotEntry (sizeT x.1))).size) :
    ∀ (st : Store) {V : Nat → List UInt8}, rt.Fits st.pool →
      rt.AgreeOnPlaceholders (rt.contentsOf st.pool) V →
      ∃ st', rt.exec k₁ k₂ st (xs.map fun x => .setInput (.index x.1) x.2) =
          .ok (st', List.replicate xs.length .unit) ∧ rt.Fits st'.pool ∧
        rt.AgreeOnPlaceholders (rt.contentsOf st'.pool) (rt.setInputs V xs) := by
  induction xs with
  | nil => exact fun st _ hmem hV => ⟨st, rfl, hmem, hV⟩
  | cons x xs ih =>
    intro st V hmem hV
    obtain ⟨hi, hx⟩ := hxs x (List.mem_cons_self x xs)
    obtain ⟨mem₁, hset, hmem₁, hV₁⟩ := setInput_placeholders hinit H hargs hmem hi hx
    obtain ⟨st', hexec, hmem', hV'⟩ := ih (fun y hy => hxs y (List.mem_cons_of_mem x hy))
      { st with pool := mem₁ } hmem₁ (hV₁.trans (hV.update _ _))
    refine ⟨st', ?_, hmem', hV'⟩
    simp only [List.map_cons, exec, call, hset, ok_bind, pure_bind, hexec]
    rfl

include hinit H in
/-- `get_output(k)`, for a head in range, copies out the view of the head's entry. -/
theorem getOutput_eq {k : Int} (hk : sizeT k < rt.outputs.length) (mem : Pool)
    (out : HostTensor) :
    rt.getOutput mem k out = copyToHost mem (rt.view (rt.entryOf rt.outputs[sizeT k])) out := by
  have hg := H.wellFormed
  have hv := hg.outputs_valid _ (List.getElem_mem hk)
  have hsrc := entryView_eq hg (dataEntry_length hinit hg) hv
  rw [Graph.entryId_eq hg hv, ok_bind] at hsrc
  simp only [getOutput, check, hk, decide_True, if_true, pure_bind, vecAt_of_lt _ hk, ok_bind,
    Graph.entryId_eq hg hv, hsrc]
  rfl

end Inputs

/-- **Inference through the public operations.** After `Init` in normal mode, under the plan
of `run_dataflow` and with every arg node a placeholder: from a pool as allocated, the calls
`set_input(i, x)` for each `(i, x)` of `xs` (each tensor of its slot's size), `run` and
`get_output(k)` (into a tensor of the head's size) succeed, and `get_output` copies out the
dataflow value of head `k` from the pool's placeholder contents, with each slot's entry
holding the last tensor set into it. -/
theorem exec_infers_dataflow {f : String → Option DLDataType} {doc : JSONValue} {m : Module}
    {rt : GraphRuntime} {F : Nat → List (List UInt8) → List (List UInt8)}
    (hinit : init f doc m false = .ok rt) (H : rt.DataflowPlan F)
    (hargs : ∀ nid ∈ rt.inputNodes, (rt.nodes.getD nid .empty).opType = "null")
    (k₁ k₂ : Nat) {st : Store} (hmem : rt.Fits st.pool) (xs : List (Int × HostTensor))
    (hxs : ∀ x ∈ xs, sizeT x.1 < rt.inputNodes.length ∧
      x.2.size = (rt.view (rt.slotEntry (sizeT x.1))).size)
    {k : Int} (hk : sizeT k < rt.outputs.length) (out : HostTensor)
    (hout : out.size = (rt.view (rt.entryOf rt.outputs[sizeT k])).size) :
    ∃ st' t, rt.exec k₁ k₂ st
        (xs.map (fun x => .setInput (.index x.1) x.2) ++ [.run, .getOutput k out]) =
        .ok (st', List.replicate xs.length .unit ++ [.unit, .tensor t]) ∧
      t.bytes = rt.dataflow F (rt.setInputs (rt.contentsOf st.pool) xs)
        (rt.entryOf rt.outputs[sizeT k]) := by
  have hg := H.wellFormed
  obtain ⟨st₁, hsets, hmem₁, hV₁⟩ :=
    exec_setInputs hinit H hargs k₁ k₂ xs hxs st hmem fun _ _ _ _ _ => rfl
  obtain ⟨mem', hrun, hheads⟩ := run_dataflow hinit H hmem₁
  have hhead := List.getElem_mem hk
  obtain ⟨t, hcopy, ht⟩ := copyToHost_of_readView (hheads _ hhead) hout
  have hget : rt.getOutput mem' k out = .ok t := (getOutput_eq hinit H hk _ _).trans hcopy
  have hdebug : rt.debug = false := (init_eq_ok hinit).2.2.2.2
  refine ⟨{ st₁ with pool := mem' }, t, exec_append_of_ok ?_ hsets, ?_⟩
  · simp only [exec, call, hdebug, Bool.false_eq_true, if_false, hrun, hget, ok_bind, pure_bind]
    rfl
  · rw [ht, dataflow_congr F hg H.nops hV₁ (hg.outputs_valid _ hhead)]

/-! ### `DebugGetNodeOutput` -/

/-- The loop of `DebugGetNodeOutput` over the first `L` slots runs those up to `index`. -/
theorem foldlM_runUpTo (rt : GraphRuntime) (index : Nat) (mem : Pool) : ∀ L : Nat,
    (List.range L).foldlM (fun mem (i : Nat) =>
        if (i : Int) ≤ index then rt.runSlot mem i else pure mem) mem =
      (List.range (min L (index + 1))).foldlM rt.runSlot mem
  | 0 => rfl
  | L + 1 => by
    rw [foldlM_range_succ, foldlM_runUpTo rt index mem L]
    by_cases hL : L ≤ index
    · simp only [Nat.cast_le, hL, if_true, Nat.min_eq_left (Nat.succ_le_succ hL),
        Nat.min_eq_left (Nat.le_succ_of_le hL), foldlM_range_succ]
    · simp only [Nat.cast_le, hL, if_false, bind_pure, Nat.min_eq_right (by omega : index + 1 ≤ L),
        Nat.min_eq_right (by omega : index + 1 ≤ L + 1)]

theorem runUpTo_eq {rt : GraphRuntime} {index : Nat} (h : index < rt.opExecs.length)
    (mem : Pool) : rt.runUpTo index mem = (List.range (index + 1)).foldlM rt.runSlot mem := by
  rw [runUpTo, foldlM_runUpTo, Nat.min_eq_right h]

/-- **`DebugGetNodeOutput(index)` copies out entry `index` after the nodes up to `index`.**
After `Init`, under the plan of `run_dataflow`, from a pool as allocated: for an `int` index
of a node, whose data entry `index` (the source's `eid = index`) is an output of a node run
by then and still needed after it, the call succeeds and copies out that entry's value in the
dataflow semantics of nodes `0 .. index`. -/
theorem debugGetNodeOutput_dataflow {f : String → Option DLDataType} {doc : JSONValue}
    {m : Module} {d : Bool} {rt : GraphRuntime} {F : Nat → List (List UInt8) → List (List UInt8)}
    (hinit : init f doc m d = .ok rt) (H : rt.DataflowPlan F) {mem : Pool} (hmem : rt.Fits mem)
    {index : Nat} (hn : index < rt.nodes.length) (hint : index < 2 ^ 31) {a i : Nat}
    (ha : a < rt.nodes.length) (hi : i < rt.numOutputsOf a) (he : rt.offset a + i = index)
    (hdone : (rt.nodes.getD a .empty).opType = "null" ∨ a ≤ index)
    (hneed : rt.Needed a i (index + 1)) {dataOut : HostTensor}
    (hout : dataOut.size = (rt.view index).size) :
    ∃ mem' t, rt.debugGetNodeOutput mem index dataOut = .ok (mem', t) ∧
      t.bytes = (List.range (index + 1)).foldl (rt.dataflowStep F) (rt.contentsOf mem) index := by
  have hg := H.wellFormed
  obtain ⟨mem', hrun, -, hV⟩ := foldlM_runSlot_dataflow hinit H hmem (n := index + 1) hn
  have hread := hV a ha i hi (hdone.imp_right Nat.lt_succ_of_le) hneed
  rw [he] at hread
  obtain ⟨t, hcopy, ht⟩ := copyToHost_of_readView hread hout
  have hlt : index < rt.dataEntry.length := by
    rw [dataEntry_length hinit hg, ← he]
    exact Graph.offset_add_lt_total (e := ⟨a, i, 0⟩) hi
  have hsrc : vecAt rt.dataEntry index "data_entry_" = .ok (rt.view index) := by
    rw [vecAt_of_lt _ hlt, view, List.getD_eq_getElem _ _ hlt]
  have hsize : sizeT index = index := by
    rw [sizeT_of_nonneg (Int.ofNat_nonneg _) (by omega), Int.toNat_ofNat]
  refine ⟨mem', t, ?_, ht⟩
  simp only [debugGetNodeOutput, check, hsize, hn, decide_True, if_true, pure_bind,
    runUpTo_eq ((opExecs_length hinit hg).symm ▸ hn), hrun, ok_bind,
    Nat.mod_eq_of_lt (by omega : index < 2 ^ 32), hsrc, hcopy]
  rfl


end GraphRuntime

/-- On `inPlaceRuntime`, from the pool with `x = 5`: `set_input(0, [3])`, `run` and
`get_output(0)` copy out the dataflow value of the head from `x = 3`. -/
theorem exec_infers_dataflow_inPlace :
    ∃ st' t, inPlaceRuntime.exec 0 0 ⟨[[5, 0, 0, 0], [0, 0, 0, 0]], [], []⟩
        ([((0 : Int), GraphRuntime.byteTensor 3)].map (fun x => .setInput (.index x.1) x.2) ++
          [.run, .getOutput 0 (GraphRuntime.byteTensor 0)]) =
        .ok (st', List.replicate 1 .unit ++ [.unit, .tensor t]) ∧
      t.bytes = inPlaceRuntime.dataflow incKernel
        (inPlaceRuntime.setInputs (inPlaceRuntime.contentsOf [[5, 0, 0, 0], [0, 0, 0, 0]])
          [(0, GraphRuntime.byteTensor 3)])
        (inPlaceRuntime.entryOf (inPlaceRuntime.outputs.get ⟨0, by decide⟩)) :=
  GraphRuntime.exec_infers_dataflow inPlaceRuntime_init inPlaceRuntime_dataflowPlan
    (by decide) 0 0 (by decide) _ (by decide) (by decide) _ (by decide)

/-- On `inPlaceRuntime`, two pools with `x = 5` whose buffer for the output of `dbl` differs:
`Run` leaves the same head. -/
theorem run_congr_placeholders_inPlace :
    ∃ mem₁' mem₂', inPlaceRuntime.run [[5, 0, 0, 0], [0, 0, 0, 0]] = .ok mem₁' ∧
      inPlaceRuntime.run [[5, 0, 0, 0], [9, 9, 9, 9]] = .ok mem₂' ∧ ∀ e ∈ inPlaceRuntime.outputs,
        readView mem₁' (inPlaceRuntime.view (inPlaceRuntime.entryOf e)) =
          readView mem₂' (inPlaceRuntime.view (inPlaceRuntime.entryOf e)) :=
  GraphRuntime.run_congr_placeholders inPlaceRuntime_init inPlaceRuntime_dataflowPlan
    (by decide) (by decide) (by unfold GraphRuntime.AgreeOnPlaceholders; decide)

example : inPlaceRuntime.dataflow incKernel
    (inPlaceRuntime.setInputs (inPlaceRuntime.contentsOf [[5, 0, 0, 0], [0, 0, 0, 0]])
      [(0, GraphRuntime.byteTensor 3)])
    (inPlaceRuntime.entryOf (inPlaceRuntime.outputs.get ⟨0, by decide⟩)) = [5] := by
  decide

/-- On `inPlaceRuntime` from `x = 5`, `DebugGetNodeOutput(1)` copies out entry 1, the output of
`inc`, which `dbl` reads afterwards. -/
theorem debugGetNodeOutput_dataflow_inPlace :
    ∃ mem' t, inPlaceRuntime.debugGetNodeOutput [[5, 0, 0, 0], [0, 0, 0, 0]] (1 : Nat)
        (GraphRuntime.byteTensor 0) = .ok (mem', t) ∧
      t.bytes = (List.range (1 + 1)).foldl (inPlaceRuntime.dataflowStep incKernel)
        (inPlaceRuntime.contentsOf [[5, 0, 0, 0], [0, 0, 0, 0]]) 1 :=
  GraphRuntime.debugGetNodeOutput_dataflow inPlaceRuntime_init inPlaceRuntime_dataflowPlan
    (by decide) (by decide) (by decide) (a := 1) (i := 0) (by decide) (by decide) rfl
    (by decide) (by decide) (by decide)

example : (List.range 2).foldl (inPlaceRuntime.dataflowStep incKernel)
    (inPlaceRuntime.contentsOf [[5, 0, 0, 0], [0, 0, 0, 0]]) 1 = [6] := by
  decide

end TvmGraphRuntime
