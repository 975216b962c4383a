import TvmGraphRuntime.Inference
import TvmGraphRuntime.Rerun

/-!
# A session of calls refines its functional model

To its caller the executor is a function of its inputs. `set_input` sets an input, `run`
computes the heads from the inputs, `get_output` hands back a head as the last `run` left it,
and `get_input` an input as last set. `Session` is that view of the executor: the bytes of
every placeholder entry and of every head, with no pool, no shared buffer and no kernel. This
module proves that the executor implements it, call after call, from any pool as allocated.

`run_dataflow` alone does not give this, since the pool is shared across calls. A kernel that
writes a placeholder's buffer in place changes what `get_input` and the next `run` see, and a
head on an input slot's buffer changes with the next `set_input`. Two decidable conditions on
the plan exclude both: no kernel output shares a storage id with a placeholder
(`Graph.KeepsInputs`, as in the rerun law), and no head shares one with an input slot
(`Graph.HeadsApart`).

* `runSlot_placeholder`: no slot of `Run` writes a placeholder's buffer;
* `Sim`: the pool is as allocated, and holds the session's placeholder values and heads;
* `Sim.setInput`, `Sim.getInput`, `Sim.run`, `Sim.getOutput`: each operation, from a pool that
  simulates a session, succeeds, answers as the session does and keeps the simulation;
* **`exec_refines_session`**: by induction, so does every run of such calls.
-/

namespace TvmGraphRuntime

/-- The caller's view of the executor: the value of every placeholder entry, and of every head
entry as the last `run` computed it. -/
structure Session where
  inputs : Nat → List UInt8
  heads : Nat → List UInt8

/-- The bytes a reply hands back: those of a tensor, or none. -/
def Reply.bytes : Reply → Option (List UInt8)
  | .tensor t => some t.bytes
  | _ => none

namespace Graph

variable (g : Graph)

/-- No head shares a storage id with the entry of an input slot. -/
def HeadsApart : Prop :=
  ∀ e ∈ g.outputs, ∀ i < g.inputNodes.length,
    g.attrs.storageId.getD (g.entryOf e) 0 ≠
      g.attrs.storageId.getD (g.offset (g.inputNodes.getD i 0)) 0

instance : Decidable g.HeadsApart := inferInstanceAs (Decidable (∀ e ∈ g.outputs, _))

end Graph

namespace GraphRuntime

variable (rt : GraphRuntime)

/-- The calls a session is made of: an input set or read by index, `run`, and an output read
by index, each index in range and each tensor of its view's size. -/
def SessionCall : Call → Prop
  | .setInput (.index i) x =>
    sizeT i < rt.inputNodes.length ∧ x.size = (rt.view (rt.slotEntry (sizeT i))).size
  | .getInput (.index i) out =>
    sizeT i < rt.inputNodes.length ∧ out.size = (rt.view (rt.slotEntry (sizeT i))).size
  | .run => True
  | .getOutput k out => sizeT k < rt.outputs.length ∧
    out.size = (rt.view (rt.entryOf (rt.outputs.getD (sizeT k) ⟨0, 0, 0⟩))).size
  | _ => False

instance : (c : Call) → Decidable (rt.SessionCall c)
  | .setInput (.index _) _ => inferInstanceAs (Decidable (_ ∧ _))
  | .getInput (.index _) _ => inferInstanceAs (Decidable (_ ∧ _))
  | .run => instDecidableTrue
  | .getOutput _ _ => inferInstanceAs (Decidable (_ ∧ _))
  | .setInput (.name _) _ => instDecidableFalse
  | .getInput (.name _) _ => instDecidableFalse
  | .getInputNames => instDecidableFalse
  | .getOutputNames => instDecidableFalse
  | .setDebugBuffer _ => instDecidableFalse
  | .loadParams _ => instDecidableFalse

end GraphRuntime

namespace Session

variable (rt : GraphRuntime) (F : Nat → List (List UInt8) → List (List UInt8))

/-- One call of the session, with the kernels computing `F`: the session after it, and the
bytes it hands back. -/
def call (s : Session) : Call → Session × Option (List UInt8)
  | .setInput (.index i) x =>
    ({ s with inputs := Function.update s.inputs (rt.slotEntry (sizeT i)) x.bytes }, none)
  | .getInput (.index i) _ => (s, some (s.inputs (rt.slotEntry (sizeT i))))
  | .run => ({ s with heads := rt.dataflow F s.inputs }, none)
  | .getOutput k _ => (s, some (s.heads (rt.entryOf (rt.outputs.getD (sizeT k) ⟨0, 0, 0⟩))))
  | _ => (s, none)

/-- The calls one after the other. -/
def exec : Session → List Call → Session × List (Option (List UInt8))
  | s, [] => (s, [])
  | s, c :: cs =>
    let (s, r) := s.call rt F c
    let (s, rs) := exec s cs
    (s, r :: rs)

end Session

namespace GraphRuntime

variable (rt : GraphRuntime)

/-- The pool simulates the session: it is as allocated, each placeholder entry holds the
session's value and each head the session's head. -/
structure Sim (mem : Pool) (s : Session) : Prop where
  fits : rt.Fits mem
  inputs : rt.AgreeOnPlaceholders (rt.contentsOf mem) s.inputs
  heads : ∀ e ∈ rt.outputs, rt.contentsOf mem (rt.entryOf e) = s.heads (rt.entryOf e)

variable {rt}

/-- A pool as allocated simulates the session that reads its own contents. -/
theorem Sim.start {mem : Pool} (hmem : rt.Fits mem) :
    rt.Sim mem ⟨rt.contentsOf mem, rt.contentsOf mem⟩ :=
  ⟨hmem, fun _ _ _ _ _ => rfl, fun _ _ => rfl⟩

/-! ### `Run` keeps the placeholders -/

section Placeholders

variable {f : String → Option DLDataType} {doc : JSONValue} {m : Module} {d : Bool}
  {F : Nat → List (List UInt8) → List (List UInt8)}
  (hinit : init f doc m d = .ok rt) (H : rt.DataflowPlan F) (hkeep : rt.KeepsInputs)

include hinit H

/-- In a pool as allocated, the view of every entry reads, and reads its contents. -/
theorem readView_view_eq {mem : Pool} (hmem : rt.Fits mem) {e : Nat} (he : e < rt.totalEntries) :
    readView mem (rt.view e) = .ok (rt.contentsOf mem e) := by
  obtain ⟨bytes, hb⟩ := readView_of_fits (view_fits hinit H.wellFormed H.sizes hmem he)
  rw [contentsOf, hb]
  rfl

include hkeep

/-- No slot of `Run` writes the buffer of a placeholder's entry: a kernel hands back nothing for
its inputs, and none of its outputs shares a placeholder's storage id. -/
theorem runSlot_placeholder {mem mem' : Pool} {t : Nat} (h : rt.runSlot mem t = .ok mem')
    {a : Nat} (ha : a < rt.nodes.length) (hnull : (rt.nodes.getD a .empty).opType = "null")
    {i : Nat} (hi : i < rt.numOutputsOf a) :
    mem'[(rt.view (rt.offset a + i)).data]? = mem[(rt.view (rt.offset a + i)).data]? := by
  have hg := H.wellFormed
  simp only [runSlot, bind_eq_ok, vecAt_eq_ok] at h
  obtain ⟨op, hop, hexec⟩ := h
  rcases op with _ | _ | ⟨pf, frame⟩
  · rw [← pure_eq_ok.mp hexec]
  · rw [← pure_eq_ok.mp hexec]
  obtain ⟨p, args, htvm, hp, hnop, hargs, hframe⟩ := opExecs_call hinit hop
  have ht : t < rt.nodes.length := opExecs_length hinit hg ▸ (List.getElem?_eq_some_iff.mp hop).1
  refine getElem?_of_callPacked hexec fun j hj cs b hb => ?_
  have hjin : (rt.nodes.getD t .empty).inputs.length ≤ j := Nat.le_of_not_lt fun hlt => by
    rw [H.kernels.call t pf frame hop cs, List.getElem?_append_left (by simpa using hlt),
      List.getElem?_replicate_of_lt hlt] at hb
    exact nomatch hb
  obtain ⟨eo, v, hk, heo, hv, hdata⟩ := data_of_frame_output hargs hp hframe hj hjin
  rw [← Graph.numOutputsOf_of_param ht hp] at hk
  rw [Graph.entryId_eq hg (e := ⟨t, _, 0⟩) hk, Except.ok.injEq] at heo
  have hview : rt.view eo = v := by simp [view, List.getD_eq_getElem?_getD, hv]
  rw [hdata, ← hview, ← heo]
  exact view_data_ne hinit hg (Graph.offset_add_lt_total (e := ⟨t, _, 0⟩) hk)
    (Graph.offset_add_lt_total (e := ⟨a, i, 0⟩) hi)
    (Ne.symm (hkeep a ha hnull i hi t ht ⟨by rw [htvm]; decide, by rw [hp]; simpa using hnop⟩ _ hk))

/-- `Run` leaves every placeholder entry's contents. -/
theorem run_placeholders {mem mem' : Pool} (h : rt.run mem = .ok mem') :
    rt.AgreeOnPlaceholders (rt.contentsOf mem') (rt.contentsOf mem) := fun a ha hnull i hi => by
  have hbuf := foldlM_invariant
    (fun m : Pool => m[(rt.view (rt.offset a + i)).data]? = mem[(rt.view (rt.offset a + i)).data]?)
    rfl (fun _ _ _ _ hm hstep => (runSlot_placeholder hinit H hkeep hstep ha hnull hi).trans hm) h
  rw [contentsOf, contentsOf, readView_congr hbuf]

end Placeholders

/-! ### One call -/

section Refinement

variable {f : String → Option DLDataType} {doc : JSONValue} {m : Module}
  {F : Nat → List (List UInt8) → List (List UInt8)}
  (hinit : init f doc m false = .ok rt) (H : rt.DataflowPlan F)
  (hargs : ∀ nid ∈ rt.inputNodes, (rt.nodes.getD nid .empty).opType = "null")
  (hkeep : rt.KeepsInputs) (hapart : rt.HeadsApart)

include H hargs in
/-- The entry of an input slot is an entry of the plan. -/
theorem slotEntry_lt_total {i : Nat} (hi : i < rt.inputNodes.length) :
    rt.slotEntry i < rt.totalEntries :=
  Graph.offset_add_lt_total (e := ⟨rt.inputNodes.getD i 0, 0, 0⟩) (slotEntry_spec H hargs hi).2.1

include hinit H hargs hapart in
/-- `set_input(i, x)` moves the pool with the session: the slot's entry takes the tensor's
bytes, and no head moves. -/
theorem Sim.setInput {mem : Pool} {s : Session} (hsim : rt.Sim mem s) {i : Int}
    (hi : sizeT i < rt.inputNodes.length) {x : HostTensor}
    (hx : x.size = (rt.view (rt.slotEntry (sizeT i))).size) :
    ∃ mem', rt.setInput mem i x = .ok mem' ∧
      rt.Sim mem'
        { s with inputs := Function.update s.inputs (rt.slotEntry (sizeT i)) x.bytes } := by
  obtain ⟨mem', hset, hfit, hagree⟩ := setInput_placeholders hinit H hargs hsim.fits hi hx
  refine ⟨mem', hset, hfit, hagree.trans (hsim.inputs.update _ _), fun e he => ?_⟩
  obtain ⟨-, -, -, hst⟩ := setInput_eq_ok hset
  simp only [storeSlot, slotView_eq_view hinit H hi, ok_bind] at hst
  have hne : (rt.view (rt.entryOf e)).data ≠ _ := view_data_ne hinit H.wellFormed
    (Graph.offset_add_lt_total (H.wellFormed.outputs_valid e he))
    (slotEntry_lt_total H hargs hi) (hapart e he _ hi)
  rw [contentsOf, readView_congr (getElem?_of_writeView hst hne)]
  exact hsim.heads e he

include hinit H hargs in
/-- `get_input(i)` copies out the session's value of the slot's entry. -/
theorem Sim.getInput {mem : Pool} {s : Session} (hsim : rt.Sim mem s) {i : Int}
    (hi : sizeT i < rt.inputNodes.length) {out : HostTensor}
    (hout : out.size = (rt.view (rt.slotEntry (sizeT i))).size) :
    ∃ t, rt.getInput mem i out = .ok t ∧ t.bytes = s.inputs (rt.slotEntry (sizeT i)) := by
  obtain ⟨hn, h0, hnull⟩ := slotEntry_spec H hargs hi
  obtain ⟨t, hcopy, ht⟩ := copyToHost_of_readView
    (readView_view_eq hinit H hsim.fits (slotEntry_lt_total H hargs hi)) hout
  refine ⟨t, ?_, ht.trans (hsim.inputs _ hn hnull 0 h0)⟩
  simp only [GraphRuntime.getInput, check, hi, decide_True, if_true, pure_bind,
    slotView_eq_view hinit H hi, ok_bind, hcopy]

include hinit H hkeep in
/-- `run` moves the pool with the session: the heads take the dataflow values of the session's
inputs, and the placeholders stay. -/
theorem Sim.run {mem : Pool} {s : Session} (hsim : rt.Sim mem s) :
    ∃ mem', rt.run mem = .ok mem' ∧ rt.Sim mem' { s with heads := rt.dataflow F s.inputs } := by
  obtain ⟨mem', hrun, hheads⟩ := run_dataflow hinit H hsim.fits
  refine ⟨mem', hrun, (writeStable_lengths _).run hsim.fits hrun,
    (run_placeholders hinit H hkeep hrun).trans hsim.inputs, fun e he => ?_⟩
  rw [contentsOf, hheads e he]
  exact dataflow_congr F H.wellFormed H.nops hsim.inputs (H.wellFormed.outputs_valid e he)

include hinit H in
/-- `get_output(k)` copies out the session's value of head `k`. -/
theorem Sim.getOutput {mem : Pool} {s : Session} (hsim : rt.Sim mem s) {k : Int}
    (hk : sizeT k < rt.outputs.length) {out : HostTensor}
    (hout : out.size = (rt.view (rt.entryOf (rt.outputs.getD (sizeT k) ⟨0, 0, 0⟩))).size) :
    ∃ t, rt.getOutput mem k out = .ok t ∧
      t.bytes = s.heads (rt.entryOf (rt.outputs.getD (sizeT k) ⟨0, 0, 0⟩)) := by
  rw [List.getD_eq_getElem _ _ hk] at hout ⊢
  have hhead := List.getElem_mem hk
  obtain ⟨t, hcopy, ht⟩ := copyToHost_of_readView (readView_view_eq hinit H hsim.fits
    (Graph.offset_add_lt_total (H.wellFormed.outputs_valid _ hhead))) hout
  exact ⟨t, (getOutput_eq hinit H hk _ _).trans hcopy, ht.trans (hsim.heads _ hhead)⟩

include hinit H hargs hkeep hapart

/-- **One call.** From a pool that simulates the session, a call of a session succeeds, hands
back the bytes the session's answer carries, and leaves a pool that simulates the session after
the call. -/
theorem Sim.call (k₁ k₂ : Nat) {st : Store} {s : Session} (hsim : rt.Sim st.pool s) :
    ∀ c, rt.SessionCall c → ∃ st' r, rt.call k₁ k₂ st c = .ok (st', r) ∧
      r.bytes = (s.call rt F c).2 ∧ rt.Sim st'.pool (s.call rt F c).1
  | .setInput (.index i) x, ⟨hi, hx⟩ => by
    obtain ⟨mem', hset, hsim'⟩ := hsim.setInput hinit H hargs hapart hi hx
    exact ⟨{ st with pool := mem' }, .unit, by simp only [GraphRuntime.call, hset, ok_bind]; rfl,
      rfl, hsim'⟩
  | .getInput (.index i) out, ⟨hi, hout⟩ => by
    obtain ⟨t, hget, ht⟩ := hsim.getInput hinit H hargs hi hout
    exact ⟨st, .tensor t, by simp only [GraphRuntime.call, hget, ok_bind]; rfl, congrArg some ht,
      hsim⟩
  | .run, _ => by
    obtain ⟨mem', hrun, hsim'⟩ := hsim.run hinit H hkeep
    have hdebug : rt.debug = false := (init_eq_ok hinit).2.2.2.2
    exact ⟨{ st with pool := mem' }, .unit,
      by simp only [GraphRuntime.call, hdebug, Bool.false_eq_true, if_false, hrun, ok_bind]; rfl,
      rfl, hsim'⟩
  | .getOutput k out, ⟨hk, hout⟩ => by
    obtain ⟨t, hget, ht⟩ := hsim.getOutput hinit H hk hout
    exact ⟨st, .tensor t, by simp only [GraphRuntime.call, hget, ok_bind]; rfl, congrArg some ht,
      hsim⟩
  | .setInput (.name _) _, h | .getInput (.name _) _, h | .getInputNames, h
  | .getOutputNames, h | .setDebugBuffer _, h | .loadParams _, h => False.elim h

/-- **The executor refines the session.** After `Init` in normal mode, under the plan of
`run_dataflow`, with every arg node a placeholder, no kernel output on a placeholder's buffer
and no head on an input slot's: from a pool that simulates a session, every list of session
calls succeeds, hands back at each call the bytes the session hands back, and leaves a pool
that simulates the session after the calls. -/
theorem exec_refines_session (k₁ k₂ : Nat) {cs : List Call} (hcs : ∀ c ∈ cs, rt.SessionCall c)
    {st : Store} {s : Session} (hsim : rt.Sim st.pool s) :
    ∃ st' rs, rt.exec k₁ k₂ st cs = .ok (st', rs) ∧ rs.map Reply.bytes = (s.exec rt F cs).2 ∧
      rt.Sim st'.pool (s.exec rt F cs).1 := by
  induction cs generalizing st s with
  | nil => exact ⟨st, [], rfl, rfl, hsim⟩
  | cons c cs ih =>
    obtain ⟨st₁, r, hc, hr, hsim₁⟩ :=
      hsim.call hinit H hargs hkeep hapart k₁ k₂ c (hcs c (List.mem_cons_self c cs))
    obtain ⟨st', rs, hexec, hrs, hsim'⟩ :=
      ih (fun c' hc' => hcs c' (List.mem_cons_of_mem c hc')) hsim₁
    refine ⟨st', r :: rs, ?_, ?_, hsim'⟩
    · simp only [exec, hc, hexec, ok_bind]
      rfl
    · rw [List.map_cons, hr, hrs]
      rfl

end Refinement

end GraphRuntime

/-! ### A session on a graph that reuses a buffer -/

/-- `rerunRuntime 2` follows the plan of `run_dataflow`: `c` takes over the buffer of `a`'s
output only after `b` has read it. -/
theorem rerunRuntime_two_dataflowPlan : (rerunRuntime 2).DataflowPlan (rerunKernels 2 2) := by
  refine ⟨by decide, by decide, by decide, by decide, by decide,
    ⟨rerunRuntime_two_plan.kernels.call, fun nid pf frame hop _ => ?_⟩⟩
  rw [rerunRuntime_two_opExecs] at hop
  rcases nid with _ | _ | _ | _ | nid
  · exact nomatch hop
  · rfl
  · rfl
  · rfl
  · exact nomatch hop

/-- `set_input(0, [5])`, `run`, `get_output(0)`, `get_input(0)`. -/
def setRunGetCalls : List Call :=
  [.setInput (.index 0) (GraphRuntime.byteTensor 5), .run,
    .getOutput 0 (GraphRuntime.byteTensor 0), .getInput (.index 0) (GraphRuntime.byteTensor 0)]

/-- On `rerunRuntime 2`, from a pool as allocated, the calls of `setRunGetCalls` answer as the
session does. -/
theorem exec_refines_session_rerun :
    ∃ st' rs, (rerunRuntime 2).exec 0 0 ⟨[[0, 0, 0, 0], [0, 0, 0, 0], [0, 0, 0, 0]], [], []⟩
        setRunGetCalls = .ok (st', rs) ∧
      rs.map Reply.bytes = (Session.exec (rerunRuntime 2) (rerunKernels 2 2)
        ⟨(rerunRuntime 2).contentsOf [[0, 0, 0, 0], [0, 0, 0, 0], [0, 0, 0, 0]],
          (rerunRuntime 2).contentsOf [[0, 0, 0, 0], [0, 0, 0, 0], [0, 0, 0, 0]]⟩
        setRunGetCalls).2 ∧
      (rerunRuntime 2).Sim st'.pool (Session.exec (rerunRuntime 2) (rerunKernels 2 2)
        ⟨(rerunRuntime 2).contentsOf [[0, 0, 0, 0], [0, 0, 0, 0], [0, 0, 0, 0]],
          (rerunRuntime 2).contentsOf [[0, 0, 0, 0], [0, 0, 0, 0], [0, 0, 0, 0]]⟩
        setRunGetCalls).1 :=
  GraphRuntime.exec_refines_session
    (rfl : GraphRuntime.init uint8Type (rerunDoc 2) rerunModule false = .ok (rerunRuntime 2))
    rerunRuntime_two_dataflowPlan (by decide) (by decide) (by decide) 0 0 (by decide)
    (GraphRuntime.Sim.start (by decide))

/-- What the session answers: `b` copies the second byte `a` wrote, and the input stays `5`. -/
example : (Session.exec (rerunRuntime 2) (rerunKernels 2 2)
    ⟨(rerunRuntime 2).contentsOf [[0, 0, 0, 0], [0, 0, 0, 0], [0, 0, 0, 0]],
      (rerunRuntime 2).contentsOf [[0, 0, 0, 0], [0, 0, 0, 0], [0, 0, 0, 0]]⟩
    setRunGetCalls).2 = [none, none, some [7], some [5]] := by decide

/-- In `inPlaceRuntime`, `inc` writes over its input's buffer: the plan computes the dataflow
semantics once, but does not keep its inputs across calls. -/
example : ¬ inPlaceRuntime.KeepsInputs := by decide

end TvmGraphRuntime
