import TvmGraphRuntime.Executor

/-!
# Input slots as independent cells

`set_input`, `get_input` and the records of `load_params` all reach input slot `i` through
`data_entry_[entry_id(input_nodes_[i], 0)]` (`GraphRuntime.slotView`). Over any sequence of
successful calls the slots behave as an array of independent cells:

* the abstract model: each call stores zero or more tensors into slots, in order
  (`slotStores`), and a slot holds the last tensor stored into it (`slotsAfter`); a name
  stands for the first input slot whose node carries it (`Graph.firstSlot`), which is what
  `GetInputIndex` returns (`getInputIndex_eq_firstSlot`);
* `SlotsIsolated`: the storage conditions under which the pool implements the model —
  distinct slots on distinct storage ids, no kernel output on a slot's storage id, and
  kernels that write only their output arguments;
* `HoldsSlots`: the pool holds the abstract slots, preserved by every call
  (`holdsSlots_call`) and so by every run of calls (`holdsSlots_exec`);
* **`getInput_eq_slotsAfter`**: every `get_input` copies out the slot's abstract content.
-/

namespace TvmGraphRuntime

/-- The abstract input slots: the content of each. -/
abbrev Slots := Nat → List UInt8

/-- Stores applied in order: each replaces its slot's content. -/
def applyStores (A : Slots) (stores : List (Nat × List UInt8)) : Slots :=
  stores.foldl (fun A st => Function.update A st.1 st.2) A

namespace GraphRuntime

section Model

variable (rt : GraphRuntime) (kTVMNDArrayListMagic kTVMNDArrayMagic : Nat)

/-- The slot a `set_input` or `get_input` key names: the index, or the first input slot whose
node carries the name, `-1` when none does. -/
def keySlot : InputKey → Int
  | .index i => i
  | .name s => rt.firstSlot (utf8Bytes s)

/-- The stores a call makes into input slots, in order: `set_input` stores its tensor into the
slot its key names (a name no slot carries stores nothing), `load_params` the data of each
record into the first slot carrying the record's name. -/
def slotStores : Call → Result (List (Nat × List UInt8))
  | .setInput (.index i) dataIn => pure [(sizeT i, dataIn.bytes)]
  | .setInput (.name s) dataIn =>
    let i := rt.firstSlot (utf8Bytes s)
    pure (if 0 ≤ i then [(sizeT i, dataIn.bytes)] else [])
  | .loadParams blob => rt.paramStores kTVMNDArrayListMagic kTVMNDArrayMagic blob
  | _ => pure []

/-- The abstract slots after the calls `cs`, from `A`. -/
def slotsAfter (A : Slots) (cs : List Call) : Slots :=
  cs.foldl (fun A c =>
    applyStores A ((rt.slotStores kTVMNDArrayListMagic kTVMNDArrayMagic c).toOption.getD [])) A

/-- The slots a pool holds: the bytes of each slot's view, empty where none can be read. -/
def slotsOf (pool : Pool) : Slots :=
  fun i => ((rt.slotView i).bind (readView pool)).toOption.getD []

/-- The pool holds the abstract slots `A`: every slot view that can be read reads its slot's
content. -/
def HoldsSlots (pool : Pool) (A : Slots) : Prop :=
  ∀ i v b, rt.slotView i = .ok v → readView pool v = .ok b → b = A i

end Model

/-- The storage conditions for independent slots: the slots' entries have pairwise distinct
storage ids; no output entry of a kernel node (a `tvm_op` node other than `__nop`) shares a
storage id with a slot's entry; every installed kernel writes only its output arguments. -/
structure SlotsIsolated (rt : GraphRuntime) : Prop where
  distinct : ∀ i j, i ≠ j → ∀ ei ej, rt.entryId (rt.inputNodes.getD i 0) 0 = .ok ei →
    rt.entryId (rt.inputNodes.getD j 0) 0 = .ok ej → i < rt.inputNodes.length →
    j < rt.inputNodes.length → ∀ s, rt.attrs.storageId[ei]? = some s →
    rt.attrs.storageId[ej]? ≠ some s
  outputs : ∀ nid p, (rt.nodes.getD nid .empty).opType = "tvm_op" →
    (rt.nodes.getD nid .empty).param = some p → p.funcName ≠ "__nop" →
    ∀ k < p.numOutputs, ∀ eo, rt.entryId nid k = .ok eo →
    ∀ i < rt.inputNodes.length, ∀ ei, rt.entryId (rt.inputNodes.getD i 0) 0 = .ok ei →
    ∀ s, rt.attrs.storageId[ei]? = some s → rt.attrs.storageId[eo]? ≠ some s
  kernels : ∀ nid pf frame, rt.opExecs[nid]? = some (some (.call pf frame)) →
    ∀ cs j b, j < (rt.nodes.getD nid .empty).inputs.length →
    (pf.call frame.args cs)[j]? ≠ some (some b)

/-! ### The pool implements the slots -/

theorem slotView_eq_ok {rt : GraphRuntime} {i : Nat} {v : DLTensor}
    (h : rt.slotView i = .ok v) : i < rt.inputNodes.length ∧
      ∃ ei, rt.entryId (rt.inputNodes.getD i 0) 0 = .ok ei ∧ rt.dataEntry[ei]? = some v := by
  simp only [slotView, bind_eq_ok, vecAt_eq_ok] at h
  obtain ⟨nid, hnid, ei, hei, hv⟩ := h
  exact ⟨(List.getElem?_eq_some_iff.mp hnid).1, ei,
    by simpa [List.getD_eq_getElem?_getD, hnid] using hei, hv⟩

/-- A pool change that leaves every slot's buffer keeps the slots held. -/
theorem holdsSlots_of_frame {rt : GraphRuntime} {pool pool' : Pool} {A : Slots} (hheld : rt.HoldsSlots pool A)
    (hframe : ∀ i v, rt.slotView i = .ok v → pool'[v.data]? = pool[v.data]?) :
    rt.HoldsSlots pool' A :=
  fun i v b hv hb => hheld i v b hv (by rwa [← readView_congr (hframe i v hv)])

section Isolated

variable {f : String → Option DLDataType} {doc : JSONValue} {m : Module} {d : Bool}
  {rt : GraphRuntime} (hinit : init f doc m d = .ok rt) (H : rt.SlotsIsolated)
include hinit H

/-- Distinct slots view distinct pool buffers. -/
theorem slot_data_ne {i j : Nat} {v w : DLTensor} (hv : rt.slotView i = .ok v)
    (hw : rt.slotView j = .ok w) (hij : i ≠ j) : v.data ≠ w.data := by
  obtain ⟨hi, ei, hei, hev⟩ := slotView_eq_ok hv
  obtain ⟨hj, ej, hej, hew⟩ := slotView_eq_ok hw
  obtain ⟨si, hsi, hi0, -, hvd⟩ := data_of_dataEntry hinit hev
  obtain ⟨sj, hsj, hj0, -, hwd⟩ := data_of_dataEntry hinit hew
  have hne : sj ≠ si := fun heq => H.distinct i j hij ei ej hei hej hi hj si hsi (heq ▸ hsj)
  rw [hvd, hwd]
  omega

/-- No slot of `Run` writes a slot's buffer. -/
theorem runSlot_slot {mem mem' : Pool} {nid : Nat} (h : rt.runSlot mem nid = .ok mem') {i : Nat}
    {v : DLTensor} (hv : rt.slotView i = .ok v) : mem'[v.data]? = mem[v.data]? := by
  simp only [runSlot, bind_eq_ok, vecAt_eq_ok] at h
  obtain ⟨op, hop, hexec⟩ := h
  rcases op with _ | _ | ⟨pf, frame⟩
  · rw [← pure_eq_ok.mp hexec]
  · rw [← pure_eq_ok.mp hexec]
  · obtain ⟨p, args, htvm, hp, hnop, hargs, hframe⟩ := opExecs_call hinit hop
    refine getElem?_of_callPacked hexec fun j hj cs b hb => ?_
    have hjin : (rt.nodes.getD nid .empty).inputs.length ≤ j :=
      Nat.le_of_not_lt fun hlt => H.kernels nid pf frame hop cs j b hlt hb
    obtain ⟨eo, t, hk, heo, het, hdata⟩ := data_of_frame_output hargs hp hframe hj hjin
    obtain ⟨hi, ei, hei, hev⟩ := slotView_eq_ok hv
    obtain ⟨so, hso, ho0, -, htd⟩ := data_of_dataEntry hinit het
    obtain ⟨si, hsi, hi0, -, hvd⟩ := data_of_dataEntry hinit hev
    have hne : so ≠ si := fun heq =>
      H.outputs nid p htvm hp hnop _ hk eo heo i hi ei hei si hsi (heq ▸ hso)
    rw [hdata, htd, hvd]
    omega

/-- `Run` leaves every slot's buffer. -/
theorem run_slot {mem mem' : Pool} (h : rt.run mem = .ok mem') {i : Nat} {v : DLTensor}
    (hv : rt.slotView i = .ok v) : mem'[v.data]? = mem[v.data]? :=
  foldlM_invariant (fun m : Pool => m[v.data]? = mem[v.data]?) rfl
    (fun _ _ _ _ hm hstep => (runSlot_slot hinit H hstep hv).trans hm) h

/-- A store into a slot, of as many bytes as its view holds, updates that slot alone. -/
theorem holdsSlots_storeSlot {pool pool' : Pool} {A : Slots} (hheld : rt.HoldsSlots pool A)
    {i : Nat} {b : List UInt8} (hst : rt.storeSlot pool (i, b) = .ok pool')
    (hlen : ∀ v, rt.slotView i = .ok v → b.length = v.size) :
    rt.HoldsSlots pool' (Function.update A i b) := by
  simp only [storeSlot, bind_eq_ok] at hst
  obtain ⟨v, hv, hw⟩ := hst
  intro j w b' hw' hb'
  by_cases hji : j = i
  · subst hji
    obtain rfl : v = w := by simpa [hv] using hw'
    rw [readView_of_writeView hw (hlen v hv)] at hb'
    simpa using hb'.symm
  · have hne := slot_data_ne hinit H hw' hv hji
    rw [readView_congr (getElem?_of_writeView hw hne)] at hb'
    rw [Function.update_noteq hji]
    exact hheld j w b' hw' hb'

/-- A list of stores, each of its view's size, updates the slots in order. -/
theorem holdsSlots_stores {stores : List (Nat × List UInt8)} :
    ∀ {pool pool' : Pool} {A : Slots}, rt.HoldsSlots pool A →
      stores.foldlM rt.storeSlot pool = .ok pool' →
      (∀ st ∈ stores, ∀ v, rt.slotView st.1 = .ok v → st.2.length = v.size) →
      rt.HoldsSlots pool' (applyStores A stores) := by
  induction stores with
  | nil =>
    intro pool pool' A hheld h _
    rwa [← pure_eq_ok.mp h]
  | cons st rest ih =>
    intro pool pool' A hheld h hlen
    rw [List.foldlM_cons, bind_eq_ok] at h
    obtain ⟨pool₁, hst, hrest⟩ := h
    exact ih (holdsSlots_storeSlot hinit H hheld hst (hlen st (by simp)))
      hrest fun st' hst' => hlen st' (by simp [hst'])

variable {kTVMNDArrayListMagic kTVMNDArrayMagic : Nat}

/-- One call keeps the slots held, updated by the stores it makes; a `get_input` replies with
its slot's content. -/
theorem holdsSlots_call {st st' : Store} {c : Call} {r : Reply} {A : Slots}
    (hheld : rt.HoldsSlots st.pool A)
    (h : rt.call kTVMNDArrayListMagic kTVMNDArrayMagic st c = .ok (st', r)) :
    ∃ stores, rt.slotStores kTVMNDArrayListMagic kTVMNDArrayMagic c = .ok stores ∧
      rt.HoldsSlots st'.pool (applyStores A stores) ∧
      ∀ key dataOut, c = .getInput key dataOut →
        ∃ t, r = .tensor t ∧ t.bytes = A (sizeT (rt.keySlot key)) := by
  -- a `set_input` of slot `sizeT i`
  have hset : ∀ {i : Int} {x : HostTensor} {pool' : Pool}, rt.setInput st.pool i x = .ok pool' →
      rt.HoldsSlots pool' (applyStores A [(sizeT i, x.bytes)]) := fun hs => by
    obtain ⟨v, hv, hlen, hst⟩ := setInput_eq_ok hs
    exact holdsSlots_storeSlot hinit H hheld hst fun w hw => by
      obtain rfl : v = w := by simpa [hv] using hw
      exact hlen
  -- a `get_input` of slot `sizeT i`
  have hget : ∀ {i : Int} {x t : HostTensor}, rt.getInput st.pool i x = .ok t →
      t.bytes = A (sizeT i) := fun hg => by
    obtain ⟨v, hv, hb⟩ := getInput_eq_ok hg
    exact hheld _ v _ hv hb
  cases c with
  | setInput key x =>
    cases key with
    | index i =>
      simp only [call, bind_eq_ok, pure_eq_ok, Prod.mk.injEq] at h
      obtain ⟨pool', hs, rfl, rfl⟩ := h
      exact ⟨_, rfl, hset hs, fun _ _ h => nomatch h⟩
    | name s =>
      simp only [call, bind_eq_ok] at h
      obtain ⟨idx, hidx, h⟩ := h
      obtain rfl := getInputIndex_eq_firstSlot hidx
      split_ifs at h with h0 <;> simp only [bind_eq_ok, pure_eq_ok, Prod.mk.injEq] at h
      · obtain ⟨pool', hs, rfl, rfl⟩ := h
        exact ⟨_, by simp only [slotStores, if_pos h0]; rfl, hset hs, fun _ _ h => nomatch h⟩
      · obtain ⟨rfl, rfl⟩ := h
        exact ⟨[], by simp only [slotStores, if_neg h0]; rfl, hheld, fun _ _ h => nomatch h⟩
  | getInput key x =>
    cases key with
    | index i =>
      simp only [call, bind_eq_ok, pure_eq_ok, Prod.mk.injEq] at h
      obtain ⟨t, hg, rfl, rfl⟩ := h
      exact ⟨[], rfl, hheld, by
        rintro _ _ ⟨rfl, rfl⟩
        exact ⟨t, rfl, hget hg⟩⟩
    | name s =>
      simp only [call, bind_eq_ok, check_eq_ok, pure_eq_ok, Prod.mk.injEq] at h
      obtain ⟨idx, hidx, ⟨⟩, -, t, hg, rfl, rfl⟩ := h
      obtain rfl := getInputIndex_eq_firstSlot hidx
      exact ⟨[], rfl, hheld, by
        rintro _ _ ⟨rfl, rfl⟩
        exact ⟨t, rfl, hget hg⟩⟩
  | getOutput | getInputNames | getOutputNames =>
    simp only [call, bind_eq_ok, pure_eq_ok, Prod.mk.injEq] at h
    obtain ⟨_, -, rfl, rfl⟩ := h
    exact ⟨[], rfl, hheld, fun _ _ h => nomatch h⟩
  | setDebugBuffer b =>
    simp only [call, pure_eq_ok, Prod.mk.injEq] at h
    obtain ⟨rfl, rfl⟩ := h
    exact ⟨[], rfl, hheld, fun _ _ h => nomatch h⟩
  | run =>
    simp only [call] at h
    split_ifs at h <;> simp only [bind_eq_ok, pure_eq_ok, Prod.mk.injEq] at h
    · obtain ⟨⟨pool', host'⟩, hrun, rfl, rfl⟩ := h
      exact ⟨[], rfl, holdsSlots_of_frame hheld fun i v hv =>
        run_slot hinit H (run_of_debugRun hrun) hv, fun _ _ h => nomatch h⟩
    · obtain ⟨pool', hrun, rfl, rfl⟩ := h
      exact ⟨[], rfl, holdsSlots_of_frame hheld fun i v hv => run_slot hinit H hrun hv,
        fun _ _ h => nomatch h⟩
  | loadParams blob =>
    simp only [call, bind_eq_ok, pure_eq_ok, Prod.mk.injEq] at h
    obtain ⟨pool', hload, rfl, rfl⟩ := h
    obtain ⟨stores, hstores, happly, hlen⟩ := loadParams_eq_ok hload
    exact ⟨stores, hstores, holdsSlots_stores hinit H hheld happly hlen, fun _ _ h => nomatch h⟩

/-- A run of successful calls keeps the slots held, updated by every store in order, and each
`get_input` replies with its slot's content at that point. -/
theorem holdsSlots_exec {cs : List Call} : ∀ {st st' : Store} {rs : List Reply} {A : Slots},
    rt.HoldsSlots st.pool A →
    rt.exec kTVMNDArrayListMagic kTVMNDArrayMagic st cs = .ok (st', rs) →
    rt.HoldsSlots st'.pool (rt.slotsAfter kTVMNDArrayListMagic kTVMNDArrayMagic A cs) ∧
    ∀ p (hp : p < cs.length) key dataOut, cs[p] = .getInput key dataOut →
      ∃ t, rs[p]? = some (.tensor t) ∧ t.bytes =
        rt.slotsAfter kTVMNDArrayListMagic kTVMNDArrayMagic A (cs.take p) (sizeT (rt.keySlot key)) := by
  induction cs with
  | nil =>
    intro st st' rs A hheld h
    simp only [exec, pure_eq_ok, Prod.mk.injEq] at h
    obtain ⟨rfl, rfl⟩ := h
    exact ⟨hheld, fun p hp => absurd hp (Nat.not_lt_zero p)⟩
  | cons c cs ih =>
    intro st st' rs A hheld h
    simp only [exec, bind_eq_ok, pure_eq_ok, Prod.mk.injEq] at h
    obtain ⟨⟨st₁, r⟩, hcall, ⟨st₂, rs'⟩, hrest, rfl, rfl⟩ := h
    obtain ⟨stores, hstores, hheld₁, hget⟩ := holdsSlots_call hinit H hheld hcall
    have hafter : ∀ cs', rt.slotsAfter kTVMNDArrayListMagic kTVMNDArrayMagic A (c :: cs') =
        rt.slotsAfter kTVMNDArrayListMagic kTVMNDArrayMagic (applyStores A stores) cs' := by
      intro cs'; simp [slotsAfter, hstores, Except.toOption]
    obtain ⟨hheld₂, hget'⟩ := ih hheld₁ hrest
    refine ⟨(hafter cs).symm ▸ hheld₂, fun p hp key dataOut hc => ?_⟩
    cases p with
    | zero =>
      obtain ⟨t, rfl, ht⟩ := hget key dataOut hc
      exact ⟨t, List.getElem?_cons_zero, ht⟩
    | succ p =>
      obtain ⟨t, hr, ht⟩ := hget' p (Nat.lt_of_succ_lt_succ hp) key dataOut hc
      exact ⟨t, List.getElem?_cons_succ.trans hr, by rw [List.take_succ_cons, hafter]; exact ht⟩

end Isolated

/-- Over every sequence of successful calls, every `get_input`, by index or by name, copies
out the bytes last stored into its slot by a `set_input` or a `load_params` record, or the
slot's content before the first call if nothing was stored there. -/
theorem getInput_eq_slotsAfter {f : String → Option DLDataType} {doc : JSONValue} {m : Module}
    {d : Bool} {rt : GraphRuntime} (hinit : init f doc m d = .ok rt) (H : rt.SlotsIsolated)
    {kTVMNDArrayListMagic kTVMNDArrayMagic : Nat} {st st' : Store} {cs : List Call}
    {rs : List Reply} (hexec : rt.exec kTVMNDArrayListMagic kTVMNDArrayMagic st cs = .ok (st', rs)) :
    ∀ p (hp : p < cs.length) key dataOut, cs[p] = .getInput key dataOut →
      ∃ t, rs[p]? = some (.tensor t) ∧
        t.bytes = rt.slotsAfter kTVMNDArrayListMagic kTVMNDArrayMagic (rt.slotsOf st.pool)
          (cs.take p) (sizeT (rt.keySlot key)) := by
  refine (holdsSlots_exec hinit H (fun i v b hv hb => ?_) hexec).2
  simp [slotsOf, hv, hb, Except.bind, Except.toOption]

end GraphRuntime

/-- The runtime `Init` builds from `paramsDoc`. -/
def paramsRuntime : GraphRuntime :=
  match GraphRuntime.init float32Type paramsDoc ⟨fun _ => none⟩ false with
  | .ok rt => rt
  | .error _ => ⟨Graph.empty, ⟨fun _ => none⟩, [], [], [], false⟩

/-- The two input slots of `paramsDoc` are on storage ids 0 and 1, and it has no kernel. -/
theorem paramsRuntime_slotsIsolated : paramsRuntime.SlotsIsolated where
  distinct := by
    intro i j hij ei ej hei hej hi hj s hs
    have hin : paramsRuntime.inputNodes.length = 2 := by decide
    have hent : ∀ i < 2, paramsRuntime.entryId (paramsRuntime.inputNodes.getD i 0) 0 = .ok i := by
      decide
    have hsid : paramsRuntime.attrs.storageId = [0, 1] := by decide
    rw [hent i (hin ▸ hi), Except.ok.injEq] at hei
    rw [hent j (hin ▸ hj), Except.ok.injEq] at hej
    subst hei hej
    rw [hsid] at hs ⊢
    rw [hin] at hi hj
    interval_cases i <;> interval_cases j <;> simp at hij hs ⊢ <;> omega
  outputs := by
    intro nid p htvm
    have hnodes : paramsRuntime.nodes = [⟨"null", "x", none, [], []⟩, ⟨"null", "z", none, [], []⟩] := by
      decide
    rw [hnodes] at htvm
    rcases nid with _ | _ | nid <;> simp [Node.empty] at htvm
  kernels := by
    intro nid pf frame h
    have hops : paramsRuntime.opExecs.map Option.isNone = [true, true] := by decide
    have := congrArg (·[nid]?) hops
    simp [h] at this
    rcases nid with _ | _ | nid <;> simp at this

/-- On `paramsDoc`, after `set_input(0, [1, 2, 3, 4])` and `run`, `get_input("x")` copies out
`[1, 2, 3, 4]`, what the slot model holds for slot 0. -/
theorem getInput_eq_slotsAfter_paramsRuntime :
    GraphRuntime.init float32Type paramsDoc ⟨fun _ => none⟩ false = .ok paramsRuntime ∧
      paramsRuntime.SlotsIsolated ∧
      ∃ st' rs, paramsRuntime.exec 0 0 ⟨[[0, 0, 0, 0], []], [], []⟩
          [.setInput (.index 0) ⟨[1], .float32, [1, 2, 3, 4], rfl⟩, .run,
            .getInput (.name "x") ⟨[1], .float32, [0, 0, 0, 0], rfl⟩] = .ok (st', rs) ∧
        ∃ t, rs[2]? = some (.tensor t) ∧
          t.bytes = paramsRuntime.slotsAfter 0 0 (paramsRuntime.slotsOf [[0, 0, 0, 0], []])
            ([.setInput (.index 0) ⟨[1], .float32, [1, 2, 3, 4], rfl⟩, .run,
              .getInput (.name "x") ⟨[1], .float32, [0, 0, 0, 0], rfl⟩].take 2)
            (sizeT (paramsRuntime.keySlot (.name "x"))) := by
  have hinit : GraphRuntime.init float32Type paramsDoc ⟨fun _ => none⟩ false =
      .ok paramsRuntime := rfl
  have hexec : paramsRuntime.exec 0 0 ⟨[[0, 0, 0, 0], []], [], []⟩
      [.setInput (.index 0) ⟨[1], .float32, [1, 2, 3, 4], rfl⟩, .run,
        .getInput (.name "x") ⟨[1], .float32, [0, 0, 0, 0], rfl⟩] =
      .ok (⟨[[1, 2, 3, 4], []], [], []⟩, [.unit, .unit, .tensor ⟨[1], .float32, [1, 2, 3, 4], rfl⟩]) :=
    rfl
  exact ⟨hinit, paramsRuntime_slotsIsolated, _, _, hexec,
    GraphRuntime.getInput_eq_slotsAfter hinit paramsRuntime_slotsIsolated hexec 2 (by decide) _ _ rfl⟩

end TvmGraphRuntime
