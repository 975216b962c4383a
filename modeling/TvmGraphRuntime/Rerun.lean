import TvmGraphRuntime.Dataflow

/-!
# Running twice

`Run` writes only through kernel calls, and a kernel writes only its output arguments. When no
kernel output shares a pool buffer with a placeholder's entry, every byte a run reads was
written earlier in the same run or lies in a placeholder's buffer, which no run changes; a
second run then repeats the writes of the first.

* `byteAt`: one byte of the pool; pools with the same bytes are equal (`pool_ext`);
* `Covers ws`: the bytes the writes `ws` of a kernel call put. The writes leave every other
  byte alone (`byteAt_of_writeArgs`), and from two pools that agree on some bytes they give
  pools that agree on those and on the written ones (`writeArgs_agree`);
* `WrittenBefore t`: the bytes the kernel slots before `t` write;
* `RerunPlan F`: the graph is well formed, no kernel output shares a storage id with a
  placeholder's entry (`Graph.KeepsInputs`), every `__nop` aliases its input, and every kernel
  computes `F` from its inputs' bytes and overwrites each of its output arguments whole;
  nothing is asked of liveness;
* `run_frame`, `run_agree`: a run changes no byte its kernels do not write, and two runs from
  pools with the same placeholder bytes write the same bytes;
* **`run_run`**: when every flattened extent is exact, `Run` after `Run` is `Run`; the graph
  `rerunDoc 2` is an instance;
* `run_run_rerunDoc`: on `rerunDoc (2^32 + 1)` the narrowing of `flatten_data` breaks the law.
  A flattened kernel overwrites only the narrowed prefix of its output, and the next reader
  sees, past that prefix, the bytes a later node wrote into the buffer during the previous
  run.
-/

namespace TvmGraphRuntime

/-! ### Bytes of the pool -/

/-- Byte `i` of pool buffer `s`. -/
def byteAt (mem : Pool) (s i : Nat) : Option UInt8 := mem[s]?.bind fun buf => buf[i]?

/-- Pools with as many buffers, holding the same bytes, are equal. -/
theorem pool_ext {mem mem' : Pool} (hl : mem'.length = mem.length)
    (h : ∀ s i, byteAt mem' s i = byteAt mem s i) : mem' = mem :=
  List.ext_getElem hl fun s h₁ h₂ => List.ext_getElem? fun i => by
    simpa [byteAt, List.getElem?_eq_getElem h₁, List.getElem?_eq_getElem h₂] using h s i

/-- A read sees the view's bytes only. -/
theorem readView_agree {mem mem' : Pool} {t : DLTensor}
    (hl : mem'.map List.length = mem.map List.length)
    (h : ∀ j < t.size, byteAt mem' t.data j = byteAt mem t.data j) :
    readView mem' t = readView mem t := by
  have hs := congrArg (·[t.data]?) hl
  simp only [List.getElem?_map] at hs
  unfold readView
  cases h₁ : mem'[t.data]? with
  | none => cases h₂ : mem[t.data]? <;> simp_all
  | some buf' =>
    cases h₂ : mem[t.data]? with
    | none => simp [h₁, h₂] at hs
    | some buf =>
      simp only [h₁, h₂, Option.map_some', Option.some.injEq] at hs
      have htake : buf'.take t.size = buf.take t.size := List.ext_getElem? fun j => by
        rw [List.getElem?_take, List.getElem?_take]
        split_ifs with hj
        · simpa [byteAt, h₁, h₂] using h j hj
        · rfl
      simp only [hs, htake]

/-- A write puts its bytes at the start of the view's buffer and leaves every other byte. -/
theorem byteAt_of_writeView {mem mem' : Pool} {t : DLTensor} {bytes : List UInt8}
    (h : writeView mem t bytes = .ok mem') (s i : Nat) :
    byteAt mem' s i = if s = t.data ∧ i < bytes.length then bytes[i]? else byteAt mem s i := by
  obtain ⟨buf, hbuf, hle, rfl⟩ := writeView_eq_ok.mp h
  unfold byteAt
  rw [List.getElem?_set]
  by_cases hs : s = t.data
  · subst hs
    have hlt : t.data < mem.length := (List.getElem?_eq_some_iff.mp hbuf).1
    simp only [if_pos hlt, hbuf, Option.some_bind, true_and, if_true]
    split_ifs with hi
    · exact List.getElem?_append_left hi
    · rw [List.getElem?_append_right (Nat.le_of_not_lt hi), List.getElem?_drop]
      congr 1
      omega
  · simp [hs, Ne.symm hs]

theorem getElem?_of_lengths {mem mem' : Pool} (hl : mem'.map List.length = mem.map List.length)
    {s : Nat} {buf : List UInt8} (h : mem[s]? = some buf) :
    ∃ buf', mem'[s]? = some buf' ∧ buf'.length = buf.length := by
  have := congrArg (·[s]?) hl
  simp only [List.getElem?_map, h, Option.map_some'] at this
  exact Option.map_eq_some'.mp this

theorem writeView_of_lengths {mem mem' m₁ : Pool} {t : DLTensor} {bytes : List UInt8}
    (hl : mem'.map List.length = mem.map List.length) (h : writeView mem t bytes = .ok m₁) :
    ∃ m₁', writeView mem' t bytes = .ok m₁' := by
  obtain ⟨buf, hbuf, hle, -⟩ := writeView_eq_ok.mp h
  obtain ⟨buf', hbuf', hlen⟩ := getElem?_of_lengths hl hbuf
  exact ⟨_, writeView_eq_ok.mpr ⟨buf', hbuf', hlen ▸ hle, rfl⟩⟩

/-! ### The writes of a kernel call -/

/-- The writes `ws` of a kernel call put a byte at position `i` of buffer `s`. -/
def Covers (ws : List (DLTensor × Option (List UInt8))) (s i : Nat) : Prop :=
  ∃ t b, (t, some b) ∈ ws ∧ t.data = s ∧ i < b.length ∧ i < t.size

theorem byteAt_of_writeArg {mem mem' : Pool} {w : DLTensor × Option (List UInt8)}
    (h : writeArg mem w = .ok mem') {s i : Nat} (hn : ¬ Covers [w] s i) :
    byteAt mem' s i = byteAt mem s i := by
  rcases w with ⟨t, _ | b⟩
  · rw [(pure_eq_ok.mp h).symm]
  · rw [byteAt_of_writeView h, if_neg]
    rintro ⟨rfl, hi⟩
    simp only [List.length_take, lt_min_iff] at hi
    exact hn ⟨t, b, List.mem_singleton_self _, rfl, hi.2, hi.1⟩

/-- Two pools with buffers of the same lengths, after the same write: they agree on what they
agreed on before, and on the written bytes. -/
theorem writeArg_agree {P : Nat → Nat → Prop} {w : DLTensor × Option (List UInt8)}
    {mem mem' m₁ : Pool} (hl : mem'.map List.length = mem.map List.length)
    (hP : ∀ s i, P s i → byteAt mem' s i = byteAt mem s i) (h : writeArg mem w = .ok m₁) :
    ∃ m₁', writeArg mem' w = .ok m₁' ∧ m₁'.map List.length = m₁.map List.length ∧
      ∀ s i, P s i ∨ Covers [w] s i → byteAt m₁' s i = byteAt m₁ s i := by
  rcases w with ⟨t, _ | b⟩
  · obtain rfl := pure_eq_ok.mp h
    refine ⟨mem', rfl, hl, fun s i hi => hi.elim (hP s i) ?_⟩
    rintro ⟨_, _, hm, -⟩
    simp at hm
  · obtain ⟨m₁', h'⟩ := writeView_of_lengths hl h
    refine ⟨m₁', h', (lengths_of_writeView h').trans (hl.trans (lengths_of_writeView h).symm),
      fun s i hi => ?_⟩
    rw [byteAt_of_writeView h, byteAt_of_writeView h']
    split_ifs with hw
    · rfl
    · refine hP s i (hi.resolve_right ?_)
      rintro ⟨_, _, hm, rfl, hb, ht⟩
      simp only [List.mem_singleton, Prod.mk.injEq, Option.some.injEq] at hm
      obtain ⟨rfl, rfl⟩ := hm
      exact hw ⟨rfl, by simp [hb, ht]⟩

section WriteArgs

variable {ws : List (DLTensor × Option (List UInt8))}

theorem Covers.of_singleton {w : DLTensor × Option (List UInt8)} (hw : w ∈ ws) {s i : Nat}
    (h : Covers [w] s i) : Covers ws s i := by
  obtain ⟨t, b, hm, h⟩ := h
  exact ⟨t, b, List.mem_singleton.mp hm ▸ hw, h⟩

/-- The writes of a kernel call leave every byte they do not cover. -/
theorem byteAt_of_writeArgs {mem mem' : Pool} (h : ws.foldlM writeArg mem = .ok mem') {s i : Nat}
    (hn : ¬ Covers ws s i) : byteAt mem' s i = byteAt mem s i :=
  foldlM_invariant (fun m => byteAt m s i = byteAt mem s i) rfl
    (fun _ hw _ _ hb hstep => (byteAt_of_writeArg hstep fun hc => hn (hc.of_singleton hw)).trans hb) h

/-- Two pools with buffers of the same lengths, after the same writes: they agree on what they
agreed on before, and on every written byte. -/
theorem writeArgs_agree {P : Nat → Nat → Prop} {mem mem' m₁ : Pool}
    (hl : mem'.map List.length = mem.map List.length)
    (hP : ∀ s i, P s i → byteAt mem' s i = byteAt mem s i) (h : ws.foldlM writeArg mem = .ok m₁) :
    ∃ m₁', ws.foldlM writeArg mem' = .ok m₁' ∧ m₁'.map List.length = m₁.map List.length ∧
      ∀ s i, P s i ∨ Covers ws s i → byteAt m₁' s i = byteAt m₁ s i := by
  induction ws generalizing P mem mem' with
  | nil =>
    obtain rfl := pure_eq_ok.mp h
    refine ⟨mem', rfl, hl, fun s i hi => hi.elim (hP s i) ?_⟩
    rintro ⟨_, _, hm, -⟩
    simp at hm
  | cons w ws ih =>
    rw [List.foldlM_cons, bind_eq_ok] at h
    obtain ⟨m₂, h₂, h⟩ := h
    obtain ⟨m₂', h₂', hl₂, hP₂⟩ := writeArg_agree hl hP h₂
    obtain ⟨m₁', h₁', hl₁, hP₁⟩ := ih hl₂ hP₂ h
    refine ⟨m₁', by rw [List.foldlM_cons, h₂', ok_bind, h₁'], hl₁, fun s i hi => hP₁ s i ?_⟩
    rcases hi with hi | ⟨t, b, hm, hc⟩
    · exact .inl (.inl hi)
    · rcases List.mem_cons.mp hm with rfl | hm
      · exact .inl (.inr ⟨t, b, List.mem_singleton_self _, hc⟩)
      · exact .inr ⟨t, b, hm, hc⟩

end WriteArgs

/-! ### A kernel call of `n` inputs -/

theorem lengths_of_callPacked {pf : PackedFunc} {args : List DLTensor} {mem mem' : Pool}
    (h : callPacked pf args mem = .ok mem') : mem'.map List.length = mem.map List.length := by
  obtain ⟨_, -, hw⟩ := callPacked_eq_ok h
  exact lengths_of_writeArgs hw

/-- Reading views depends on their bytes only. -/
theorem mapM_readView_agree {mem mem' : Pool} {ts : List DLTensor}
    (hl : mem'.map List.length = mem.map List.length)
    (h : ∀ a ∈ ts, ∀ j < a.size, byteAt mem' a.data j = byteAt mem a.data j) :
    ts.mapM (readView mem') = ts.mapM (readView mem) := by
  induction ts with
  | nil => rfl
  | cons t ts ih =>
    rw [List.mapM_cons, List.mapM_cons, readView_agree hl (h t (List.mem_cons_self _ _)),
      ih fun a ha => h a (List.mem_cons_of_mem _ ha)]

/-- Every element of a successful `mapM` has a result. -/
theorem ok_of_mem_mapM {α β : Type} {f : α → Result β} {l : List α} {bs : List β}
    (h : l.mapM f = .ok bs) {a : α} (ha : a ∈ l) : ∃ b, f a = .ok b := by
  have h₂ := mapM_eq_ok.mp h
  clear h
  induction h₂ with
  | nil => simp at ha
  | cons hb _ ih =>
    rcases List.mem_cons.mp ha with rfl | ha
    · exact ⟨_, hb⟩
    · exact ih ha

theorem mapM_take_eq_ok {α β : Type} {f : α → Result β} {l : List α} {bs : List β}
    (h : l.mapM f = .ok bs) (n : Nat) : (l.take n).mapM f = .ok (bs.take n) :=
  mapM_eq_ok.mpr (List.forall₂_take n (mapM_eq_ok.mp h))

section Kernel

variable {pf : PackedFunc} {args : List DLTensor} {n : Nat}
  {G : List (List UInt8) → List (List UInt8)} (hn : n ≤ args.length)
  (hpf : ∀ cs, pf.call args cs = List.replicate n none ++ (G (cs.take n)).map some)
include hn hpf

/-- The writes of a kernel that returns nothing for its `n` inputs. -/
theorem zip_call (cs : List (List UInt8)) :
    args.zip (pf.call args cs) =
      (args.take n).zip (List.replicate n none) ++ (args.drop n).zip ((G (cs.take n)).map some) := by
  rw [hpf]
  conv_lhs => rw [← List.take_append_drop n args]
  exact List.zip_append (by simp [hn])

/-- Only output arguments are written. -/
theorem output_of_covers {cs : List (List UInt8)} {s i : Nat}
    (h : Covers (args.zip (pf.call args cs)) s i) : ∃ o ∈ args.drop n, o.data = s ∧ i < o.size := by
  obtain ⟨t, b, hm, hd, -, ht⟩ := h
  rw [zip_call hn hpf] at hm
  rcases List.mem_append.mp hm with hm | hm
  · exact absurd (List.eq_of_mem_replicate (List.of_mem_zip hm).2) (by simp)
  · exact ⟨t, (List.of_mem_zip hm).1, hd, ht⟩

/-- A kernel that returns as many bytes as each output argument holds writes them whole. -/
theorem covers_of_output (hG : ∀ ins, (G ins).map List.length = (args.drop n).map DLTensor.size)
    (cs : List (List UInt8)) {s i : Nat} (h : ∃ o ∈ args.drop n, o.data = s ∧ i < o.size) :
    Covers (args.zip (pf.call args cs)) s i := by
  obtain ⟨o, ho, hd, hi⟩ := h
  obtain ⟨k, hk, rfl⟩ := List.getElem_of_mem ho
  have hsize := congrArg (·[k]?) (hG (cs.take n))
  have hk' : k < (G (cs.take n)).length := by
    have hlen := congrArg List.length (hG (cs.take n))
    simp only [List.length_map] at hlen
    omega
  simp only [List.getElem?_map, List.getElem?_eq_getElem hk, List.getElem?_eq_getElem hk',
    Option.map_some', Option.some.injEq] at hsize
  refine ⟨(args.drop n)[k], (G (cs.take n))[k], ?_, hd, hsize ▸ hi, hi⟩
  rw [zip_call hn hpf]
  refine List.mem_append_right _ ?_
  have hmem := List.getElem_mem (l := (args.drop n).zip ((G (cs.take n)).map some))
    (n := k) (by simp only [List.length_zip, List.length_map]; omega)
  simpa using hmem

/-- A kernel call changes no byte outside its output arguments. -/
theorem byteAt_of_callPacked {mem mem' : Pool} (h : callPacked pf args mem = .ok mem') {s i : Nat}
    (hs : ¬ ∃ o ∈ args.drop n, o.data = s ∧ i < o.size) : byteAt mem' s i = byteAt mem s i := by
  obtain ⟨cs, -, hw⟩ := callPacked_eq_ok h
  exact byteAt_of_writeArgs hw fun hc => hs (output_of_covers hn hpf hc)

/-- A kernel call on two pools with buffers of the same lengths and the same input bytes:
it completes on the second when it does on the first, and the two results agree on what the
pools agreed on and on every output argument, written whole in both. -/
theorem callPacked_agree (hG : ∀ ins, (G ins).map List.length = (args.drop n).map DLTensor.size)
    {P : Nat → Nat → Prop} {mem mem' m₁ : Pool} (hl : mem'.map List.length = mem.map List.length)
    (hins : ∀ a ∈ args.take n, ∀ j < a.size, byteAt mem' a.data j = byteAt mem a.data j)
    (hP : ∀ s i, P s i → byteAt mem' s i = byteAt mem s i) (h : callPacked pf args mem = .ok m₁) :
    ∃ m₁', callPacked pf args mem' = .ok m₁' ∧ m₁'.map List.length = m₁.map List.length ∧
      ∀ s i, P s i ∨ (∃ o ∈ args.drop n, o.data = s ∧ i < o.size) →
        byteAt m₁' s i = byteAt m₁ s i := by
  obtain ⟨cs, hcs, hw⟩ := callPacked_eq_ok h
  obtain ⟨cs', hcs'⟩ := mapM_readView_of_fits fun a ha => by
    obtain ⟨b, hb⟩ := ok_of_mem_mapM hcs ha
    obtain ⟨buf, hbuf, hle, -⟩ := readView_eq_ok.mp hb
    exact ViewFits.of_lengths ⟨buf, hbuf, hle⟩ hl
  have htake : cs'.take n = cs.take n := by
    have h₁ := mapM_take_eq_ok hcs' n
    rw [mapM_readView_agree hl hins, mapM_take_eq_ok hcs n] at h₁
    exact (Except.ok.inj h₁).symm
  have hcall : pf.call args cs' = pf.call args cs := by rw [hpf, hpf, htake]
  obtain ⟨m₁', hw', hl', hagree⟩ := writeArgs_agree hl hP hw
  refine ⟨m₁', ?_, hl', fun s i hi => hagree s i (hi.imp_right (covers_of_output hn hpf hG cs))⟩
  simp only [callPacked, hcs', ok_bind, hcall, hw']

end Kernel

/-- Two lists with the same images: an element of one has the image of an element of the
other. -/
theorem exists_mem_of_map_eq {α β γ : Type} {l : List α} {l' : List β} {f : α → γ} {g : β → γ}
    (h : l.map f = l'.map g) {a : α} (ha : a ∈ l) : ∃ b ∈ l', g b = f a :=
  List.mem_map.mp (h ▸ List.mem_map_of_mem f ha)

/-! ### The plan of the rerun law -/

namespace Graph

variable (g : Graph)

/-- Node `nid` calls a kernel: it is a `tvm_op` other than `__nop`. -/
def IsKernel (nid : Nat) : Prop :=
  (g.nodes.getD nid .empty).opType ≠ "null" ∧
    (g.nodes.getD nid .empty).param.map TVMOpParam.funcName ≠ some "__nop"

/-- No output of a kernel node shares a storage id with output `i` of node `a`. -/
def KernelsAvoid (a i : Nat) : Prop :=
  ∀ b < g.nodes.length, g.IsKernel b → ∀ k < g.numOutputsOf b,
    g.attrs.storageId.getD (g.offset a + i) 0 ≠ g.attrs.storageId.getD (g.offset b + k) 0

/-- No output of a kernel node shares a storage id with the entry of a placeholder. -/
def KeepsInputs : Prop :=
  ∀ a < g.nodes.length, (g.nodes.getD a .empty).opType = "null" → ∀ i < g.numOutputsOf a,
    g.KernelsAvoid a i

instance (nid : Nat) : Decidable (g.IsKernel nid) := inferInstanceAs (Decidable (_ ∧ _))

instance (a i : Nat) : Decidable (g.KernelsAvoid a i) := inferInstanceAs (Decidable (∀ b < _, _))

instance : Decidable g.KeepsInputs := inferInstanceAs (Decidable (∀ a < _, _))

end Graph

namespace GraphRuntime

variable (rt : GraphRuntime)

/-- The kernel installed for node `nid` computes `F nid` from the bytes of its input arguments,
returns for each output argument as many bytes as the argument holds, and writes no input
argument. Unlike `KernelsCompute`, the sizes are those of the arguments the kernel receives,
flattened or not. -/
structure KernelsOverwrite (F : Nat → List (List UInt8) → List (List UInt8)) : Prop where
  call : ∀ nid pf frame, rt.opExecs[nid]? = some (some (.call pf frame)) → ∀ cs,
    pf.call frame.args cs = List.replicate (rt.nodes.getD nid .empty).inputs.length none ++
      (F nid (cs.take (rt.nodes.getD nid .empty).inputs.length)).map some
  sizes : ∀ nid pf frame, rt.opExecs[nid]? = some (some (.call pf frame)) → ∀ ins,
    (F nid ins).map List.length =
      (frame.args.drop (rt.nodes.getD nid .empty).inputs.length).map DLTensor.size

/-- The conditions of the rerun law. Nothing is asked of liveness. -/
structure RerunPlan (F : Nat → List (List UInt8) → List (List UInt8)) : Prop where
  wellFormed : rt.WellFormed
  keepsInputs : rt.KeepsInputs
  nops : rt.NopsAlias
  kernels : rt.KernelsOverwrite F

/-- Slot `n` is a kernel call, and the view of one of node `n`'s outputs covers byte `i` of
buffer `s`. -/
def WritesAt (n s i : Nat) : Prop :=
  (∃ pf frame, rt.opExecs[n]? = some (some (.call pf frame))) ∧
    ∃ k < rt.numOutputsOf n,
      (rt.view (rt.offset n + k)).data = s ∧ i < (rt.view (rt.offset n + k)).size

/-- A kernel slot before `t` writes byte `i` of buffer `s`. -/
def WrittenBefore (t s i : Nat) : Prop := ∃ n < t, rt.WritesAt n s i

/-- Two pools hold the same bytes in the view of every placeholder's entry. -/
def SamePlaceholders (mem mem' : Pool) : Prop :=
  ∀ a < rt.nodes.length, (rt.nodes.getD a .empty).opType = "null" → ∀ i < rt.numOutputsOf a,
    ∀ j < (rt.view (rt.offset a + i)).size,
      byteAt mem' (rt.view (rt.offset a + i)).data j = byteAt mem (rt.view (rt.offset a + i)).data j

/-! ### One slot -/

section Rerun

variable {f : String → Option DLDataType} {doc : JSONValue} {m : Module} {d : Bool}
  {rt : GraphRuntime} {F : Nat → List (List UInt8) → List (List UInt8)}
  (hinit : init f doc m d = .ok rt) (H : rt.RerunPlan F) (hflat : rt.FlattenExact)
include hinit H

/-- No kernel writes the buffer of a placeholder's entry. -/
theorem not_writtenBefore_of_null {a : Nat} (ha : a < rt.nodes.length)
    (hnull : (rt.nodes.getD a .empty).opType = "null") {i : Nat} (hi : i < rt.numOutputsOf a)
    (t j : Nat) : ¬ rt.WrittenBefore t (rt.view (rt.offset a + i)).data j := by
  rintro ⟨b, -, ⟨pf, frame, hop⟩, k, hk, hd, -⟩
  have hb : b < rt.nodes.length := by
    rw [← opExecs_length hinit H.wellFormed]
    exact (List.getElem?_eq_some_iff.mp hop).1
  obtain ⟨op, hop', hspec⟩ := slotSpec hinit H.wellFormed hb
  obtain rfl := Option.some.inj (hop'.symm.trans hop)
  obtain ⟨htvm, p, hp, hnop, -⟩ := hspec
  exact view_data_ne hinit H.wellFormed (Graph.offset_add_lt_total (e := ⟨b, k, 0⟩) hk)
    (Graph.offset_add_lt_total (e := ⟨a, i, 0⟩) hi)
    (Ne.symm (H.keepsInputs a ha hnull i hi b hb ⟨by rw [htvm]; decide,
      by rw [hp]; simpa using hnop⟩ k hk)) hd

include hflat

/-- The kernel call in slot `t` takes the node's views, its inputs' and then its outputs',
with their buffers and byte sizes. -/
theorem frame_views {t : Nat} (ht : t < rt.nodes.length) {pf : PackedFunc} {frame : OpArgs}
    (hop : rt.opExecs[t]? = some (some (.call pf frame))) :
    (rt.nodes.getD t .empty).inputs.length ≤ frame.args.length ∧
      (∀ a ∈ frame.args.take (rt.nodes.getD t .empty).inputs.length,
        ∃ e ∈ (rt.nodes.getD t .empty).inputs,
          (rt.view (rt.entryOf e)).data = a.data ∧ (rt.view (rt.entryOf e)).size = a.size) ∧
      ∀ s i, (∃ o ∈ frame.args.drop (rt.nodes.getD t .empty).inputs.length,
        o.data = s ∧ i < o.size) ↔ rt.WritesAt t s i := by
  obtain ⟨op, hop', hspec⟩ := slotSpec hinit H.wellFormed ht
  obtain rfl := Option.some.inj (hop'.symm.trans hop)
  obtain ⟨-, p, hp, -, -, hframe⟩ := hspec
  obtain ⟨hd, hs⟩ := frame_eq hflat ht hp hframe
  have hno := Graph.numOutputsOf_of_param ht hp
  set ins := (rt.nodes.getD t .empty).inputs
  have hpair : frame.args.map (fun o => (o.data, o.size)) =
      (ins.map fun e => rt.view (rt.entryOf e)).map (fun o => (o.data, o.size)) ++
        ((List.range p.numOutputs).map fun k => rt.view (rt.offset t + k)).map
          (fun o => (o.data, o.size)) := by
    rw [← List.map_append, ← List.zip_map', ← List.zip_map', hd, hs]
    rfl
  have hlen : ins.length ≤ frame.args.length := by
    have := congrArg List.length hpair
    simp only [List.length_map, List.length_append] at this
    omega
  have hin := congrArg (List.take ins.length) hpair
  have hout := congrArg (List.drop ins.length) hpair
  rw [← List.map_take, List.take_left' (by simp)] at hin
  rw [← List.map_drop, List.drop_left' (by simp)] at hout
  refine ⟨hlen, fun a ha => ?_, fun s i => ⟨fun ⟨o, ho, hos⟩ => ?_, fun ⟨hop', k, hk, hks⟩ => ?_⟩⟩
  · obtain ⟨v, hv, hva⟩ := exists_mem_of_map_eq hin ha
    obtain ⟨e, he, rfl⟩ := List.mem_map.mp hv
    exact ⟨e, he, Prod.mk.inj hva⟩
  · obtain ⟨v, hv, hvo⟩ := exists_mem_of_map_eq hout ho
    obtain ⟨k, hk, rfl⟩ := List.mem_map.mp hv
    obtain ⟨hvd, hvs⟩ := Prod.mk.inj hvo
    exact ⟨⟨pf, frame, hop⟩, k, hno ▸ List.mem_range.mp hk, hvd ▸ hos.1, hvs ▸ hos.2⟩
  · obtain ⟨o, ho, hov⟩ := exists_mem_of_map_eq hout.symm
      (List.mem_map_of_mem _ (List.mem_range.mpr (hno ▸ hk)))
    obtain ⟨hod, hos⟩ := Prod.mk.inj hov
    exact ⟨o, ho, hod ▸ hks.1, hos ▸ hks.2⟩

/-- One slot changes no byte it does not write, and keeps every buffer's length. -/
theorem runSlot_frame {t : Nat} (ht : t < rt.nodes.length) {mem mem₁ : Pool}
    (h : rt.runSlot mem t = .ok mem₁) :
    mem₁.map List.length = mem.map List.length ∧
      ∀ s i, ¬ rt.WritesAt t s i → byteAt mem₁ s i = byteAt mem s i := by
  obtain ⟨op, hop, -⟩ := slotSpec hinit H.wellFormed ht
  rw [runSlot, vecAt_eq_ok.mpr hop, ok_bind] at h
  rcases op with _ | _ | ⟨pf, frame⟩
  · obtain rfl := pure_eq_ok.mp h
    exact ⟨rfl, fun _ _ _ => rfl⟩
  · obtain rfl := pure_eq_ok.mp h
    exact ⟨rfl, fun _ _ _ => rfl⟩
  · obtain ⟨hn, -, hout⟩ := frame_views hinit H hflat ht hop
    exact ⟨lengths_of_callPacked h, fun s i hs => byteAt_of_callPacked hn
      (H.kernels.call t pf frame hop) h fun ho => hs ((hout s i).mp ho)⟩

/-- One slot on two pools with buffers of the same lengths that hold the same bytes in the
node's input views: it completes on the second when it does on the first, and the results
agree on what the pools agreed on and on every byte the slot writes. -/
theorem runSlot_agree {t : Nat} (ht : t < rt.nodes.length) {P : Nat → Nat → Prop}
    {mem mem' mem₁ : Pool} (hl : mem'.map List.length = mem.map List.length)
    (hP : ∀ s i, P s i → byteAt mem' s i = byteAt mem s i)
    (hins : ∀ e ∈ (rt.nodes.getD t .empty).inputs, ∀ j < (rt.view (rt.entryOf e)).size,
      byteAt mem' (rt.view (rt.entryOf e)).data j = byteAt mem (rt.view (rt.entryOf e)).data j)
    (h : rt.runSlot mem t = .ok mem₁) :
    ∃ mem₁', rt.runSlot mem' t = .ok mem₁' ∧
      ∀ s i, P s i ∨ rt.WritesAt t s i → byteAt mem₁' s i = byteAt mem₁ s i := by
  obtain ⟨op, hop, -⟩ := slotSpec hinit H.wellFormed ht
  rw [runSlot, vecAt_eq_ok.mpr hop, ok_bind] at h ⊢
  have hnone : ∀ {o : Option OpExec}, (∀ pf frame, o ≠ some (.call pf frame)) →
      rt.opExecs[t]? = some o → ∀ s i, ¬ rt.WritesAt t s i := by
    rintro o ho hop s i ⟨⟨pf, frame, hop'⟩, -⟩
    exact ho pf frame (Option.some.inj (hop.symm.trans hop'))
  rcases op with _ | _ | ⟨pf, frame⟩
  · obtain rfl := pure_eq_ok.mp h
    exact ⟨mem', rfl, fun s i hi =>
      hP s i (hi.resolve_right (hnone (by simp) hop s i))⟩
  · obtain rfl := pure_eq_ok.mp h
    exact ⟨mem', rfl, fun s i hi =>
      hP s i (hi.resolve_right (hnone (by simp) hop s i))⟩
  · obtain ⟨hn, hfin, hout⟩ := frame_views hinit H hflat ht hop
    obtain ⟨mem₁', h', -, hagree⟩ := callPacked_agree hn (H.kernels.call t pf frame hop)
      (H.kernels.sizes t pf frame hop) hl (fun a ha j hj => by
        obtain ⟨e, he, hd, hs⟩ := hfin a ha
        rw [← hd]
        exact hins e he j (hs ▸ hj)) hP h
    exact ⟨mem₁', h', fun s i hi => hagree s i (hi.imp_right (hout s i).mpr)⟩

/-! ### The whole loop -/

/-- The first `t` slots change no byte they do not write. -/
theorem foldlM_runSlot_frame {t : Nat} (ht : t ≤ rt.nodes.length) {mem mem₁ : Pool}
    (h : (List.range t).foldlM rt.runSlot mem = .ok mem₁) :
    mem₁.map List.length = mem.map List.length ∧
      ∀ s i, ¬ rt.WrittenBefore t s i → byteAt mem₁ s i = byteAt mem s i := by
  induction t generalizing mem₁ with
  | zero =>
    obtain rfl := pure_eq_ok.mp h
    exact ⟨rfl, fun _ _ _ => rfl⟩
  | succ t ih =>
    rw [foldlM_range_succ, bind_eq_ok] at h
    obtain ⟨mem₂, h₂, h₁⟩ := h
    obtain ⟨hl₂, hb₂⟩ := ih (by omega) h₂
    obtain ⟨hl₁, hb₁⟩ := runSlot_frame hinit H hflat (by omega) h₁
    exact ⟨hl₁.trans hl₂, fun s i hs => (hb₁ s i fun hw => hs ⟨t, by omega, hw⟩).trans
      (hb₂ s i fun ⟨n, hn, hw⟩ => hs ⟨n, by omega, hw⟩)⟩

omit hflat in
/-- Before step `t`, two runs from pools with the same placeholder bytes that agree on the
bytes written so far hold the same bytes in the view of every output of a node before `t`: a
placeholder's, which no kernel writes; a kernel's, written so far; a `__nop`'s, a prefix of its
input's. -/
theorem view_agree {t : Nat} (ht : t ≤ rt.nodes.length) {mem mem' cur cur' : Pool}
    (hsame : rt.SamePlaceholders mem mem')
    (hcur : ∀ s i, ¬ rt.WrittenBefore t s i → byteAt cur s i = byteAt mem s i)
    (hcur' : ∀ s i, ¬ rt.WrittenBefore t s i → byteAt cur' s i = byteAt mem' s i)
    (hW : ∀ s i, rt.WrittenBefore t s i → byteAt cur' s i = byteAt cur s i) {a : Nat}
    (ha : a < t) {i : Nat} (hi : i < rt.numOutputsOf a) {j : Nat}
    (hj : j < (rt.view (rt.offset a + i)).size) :
    byteAt cur' (rt.view (rt.offset a + i)).data j = byteAt cur (rt.view (rt.offset a + i)).data j := by
  induction a using Nat.strong_induction_on generalizing i j with
  | _ a ih =>
  have han : a < rt.nodes.length := by omega
  obtain ⟨op, hop, hspec⟩ := slotSpec hinit H.wellFormed han
  rcases op with _ | _ | ⟨pf, frame⟩
  · have hn := not_writtenBefore_of_null hinit H han hspec hi t j
    rw [hcur' _ _ hn, hcur _ _ hn]
    exact hsame a han hspec i hi j hj
  · obtain ⟨-, p, hp, hnop⟩ := hspec
    obtain ⟨e, he, halias⟩ := H.nops a han p hp hnop
    obtain ⟨hs, hsz⟩ := halias i (Graph.numOutputsOf_of_param han hp ▸ hi)
    obtain ⟨hlt, hvalid⟩ := Graph.input_lt H.wellFormed han (List.mem_of_mem_head? he)
    rw [view_data_eq hinit H.wellFormed (Graph.offset_add_lt_total (e := ⟨a, i, 0⟩) hi)
      (Graph.offset_add_lt_total hvalid) hs]
    exact ih e.nodeId hlt (by omega) hvalid (lt_of_lt_of_le hj hsz)
  · exact hW _ _ ⟨a, ha, ⟨⟨pf, frame, hop⟩, i, hi, rfl, hj⟩⟩

/-- The first `t` slots on two pools with buffers of the same lengths and the same placeholder
bytes: they complete on the second when they do on the first, and write the same bytes. -/
theorem foldlM_runSlot_agree {mem mem' : Pool} (hl : mem'.map List.length = mem.map List.length)
    (hsame : rt.SamePlaceholders mem mem') {t : Nat} (ht : t ≤ rt.nodes.length) {mem₁ : Pool}
    (h : (List.range t).foldlM rt.runSlot mem = .ok mem₁) :
    ∃ mem₁', (List.range t).foldlM rt.runSlot mem' = .ok mem₁' ∧
      ∀ s i, rt.WrittenBefore t s i → byteAt mem₁' s i = byteAt mem₁ s i := by
  induction t generalizing mem₁ with
  | zero => exact ⟨mem', rfl, fun _ _ ⟨_, hn, _⟩ => absurd hn (Nat.not_lt_zero _)⟩
  | succ t ih =>
    rw [foldlM_range_succ, bind_eq_ok] at h
    obtain ⟨mem₂, h₂, h₁⟩ := h
    obtain ⟨mem₂', h₂', hW⟩ := ih (by omega) h₂
    obtain ⟨hl₂, hb₂⟩ := foldlM_runSlot_frame hinit H hflat (by omega) h₂
    obtain ⟨hl₂', hb₂'⟩ := foldlM_runSlot_frame hinit H hflat (by omega) h₂'
    obtain ⟨mem₁', h₁', hagree⟩ := runSlot_agree hinit H hflat (by omega)
      (hl₂'.trans (hl.trans hl₂.symm)) hW (fun e he j hj => by
        obtain ⟨hlt, hvalid⟩ := Graph.input_lt H.wellFormed (by omega) he
        exact view_agree hinit H (by omega) hsame hb₂ hb₂' hW hlt hvalid hj) h₁
    refine ⟨mem₁', by rw [foldlM_range_succ, h₂', ok_bind, h₁'], fun s i ⟨n, hn, hw⟩ => ?_⟩
    rcases Nat.lt_succ_iff_lt_or_eq.mp hn with hn | rfl
    · exact hagree s i (.inl ⟨n, hn, hw⟩)
    · exact hagree s i (.inr hw)

/-- `Run` changes no byte its kernels do not write, and keeps every buffer's length. -/
theorem run_frame {mem mem₁ : Pool} (h : rt.run mem = .ok mem₁) :
    mem₁.map List.length = mem.map List.length ∧
      ∀ s i, ¬ rt.WrittenBefore rt.nodes.length s i → byteAt mem₁ s i = byteAt mem s i := by
  rw [run, opExecs_length hinit H.wellFormed] at h
  exact foldlM_runSlot_frame hinit H hflat le_rfl h

/-- Two runs from pools with buffers of the same lengths and the same placeholder bytes: the
second completes when the first does, and they write the same bytes. -/
theorem run_agree {mem mem' mem₁ : Pool} (hl : mem'.map List.length = mem.map List.length)
    (hsame : rt.SamePlaceholders mem mem') (h : rt.run mem = .ok mem₁) :
    ∃ mem₁', rt.run mem' = .ok mem₁' ∧
      ∀ s i, rt.WrittenBefore rt.nodes.length s i → byteAt mem₁' s i = byteAt mem₁ s i := by
  rw [run, opExecs_length hinit H.wellFormed] at h ⊢
  exact foldlM_runSlot_agree hinit H hflat hl hsame le_rfl h

/-- The rerun law: with every flattened extent exact, a second `Run` changes nothing. -/
theorem run_run (mem : Pool) : rt.run mem >>= rt.run = rt.run mem := by
  cases h : rt.run mem with
  | error e => rfl
  | ok mem₁ =>
    obtain ⟨hl, hframe⟩ := run_frame hinit H hflat h
    -- the first run leaves the placeholders' bytes
    have hsame : rt.SamePlaceholders mem mem₁ := fun a ha hnull i hi j _ =>
      hframe _ _ (not_writtenBefore_of_null hinit H ha hnull hi _ j)
    obtain ⟨mem₂, h₂, hW⟩ := run_agree hinit H hflat hl hsame h
    obtain ⟨hl₂, hframe₂⟩ := run_frame hinit H hflat h₂
    rw [ok_bind, h₂]
    refine congrArg Except.ok (pool_ext (by simpa using congrArg List.length hl₂) fun s i => ?_)
    by_cases hw : rt.WrittenBefore rt.nodes.length s i
    · exact hW s i hw
    · exact hframe₂ s i hw

end Rerun

end GraphRuntime

/-! ### A graph run twice -/

/-- A placeholder `x` of one byte; kernel `a`, with `flatten_data` set, reads `x` and writes
an entry of extent `n` in buffer 1; kernel `b` reads that entry into a one-byte head in
buffer 2; kernel `c` reads `x` and writes another entry of extent `n` in buffer 1. -/
def rerunDoc (n : Int) : JSONValue := .obj [
  ("nodes", .arr [.obj [("op", .str "null"), ("name", .str "x"), ("inputs", .arr [])],
    .obj [("op", .str "tvm_op"), ("name", .str "a"), ("inputs", .arr [.arr [.num 0, .num 0]]),
      ("attrs", .obj [("func_name", .str "a"), ("num_inputs", .str "1"),
        ("num_outputs", .str "1"), ("flatten_data", .str "1")])],
    .obj [("op", .str "tvm_op"), ("name", .str "b"), ("inputs", .arr [.arr [.num 1, .num 0]]),
      ("attrs", .obj [("func_name", .str "b"), ("num_inputs", .str "1"),
        ("num_outputs", .str "1"), ("flatten_data", .str "0")])],
    .obj [("op", .str "tvm_op"), ("name", .str "c"), ("inputs", .arr [.arr [.num 0, .num 0]]),
      ("attrs", .obj [("func_name", .str "c"), ("num_inputs", .str "1"),
        ("num_outputs", .str "1"), ("flatten_data", .str "0")])]]),
  ("arg_nodes", .arr [.num 0]), ("node_row_ptr", .arr [.num 0, .num 1, .num 2, .num 3, .num 4]),
  ("heads", .arr [.arr [.num 2, .num 0]]),
  ("attrs", .obj [("dltype", .arr [.str "list_str",
      .arr [.str "uint8", .str "uint8", .str "uint8", .str "uint8"]]),
    ("storage_id", .arr [.str "list_int", .arr [.num 0, .num 1, .num 2, .num 1]]),
    ("shape", .arr [.str "list_shape",
      .arr [.arr [.num 1], .arr [.num n], .arr [.num 1], .arr [.num n]]])])]

/-- A kernel that fills its output argument with `b`, as many bytes as the argument holds. -/
def fillKernel (b : UInt8) : PackedFunc :=
  ⟨fun args _ => [none, some (List.replicate (args.getD 1 default).size b)]⟩

/-- A kernel that copies the second byte of its input into its one-byte output. -/
def secondByteKernel : PackedFunc := ⟨fun _ cs => [none, some [(cs.getD 0 []).getD 1 0]]⟩

/-- The kernels of `rerunDoc`: `a` fills with `7`, `b` copies a byte, `c` fills with `9`. -/
def rerunModule : Module := ⟨fun name =>
  if name = "a" then some (fillKernel 7) else if name = "b" then some secondByteKernel
  else if name = "c" then some (fillKernel 9) else none⟩

/-- The runtime `Init` builds from `rerunDoc n`. -/
def rerunRuntime (n : Int) : GraphRuntime :=
  match GraphRuntime.init uint8Type (rerunDoc n) rerunModule false with
  | .ok rt => rt
  | .error _ => ⟨Graph.empty, ⟨fun _ => none⟩, [], [], [], false⟩

/-- What the kernels of `rerunModule` compute, for outputs of `sa` and `sc` bytes. -/
def rerunKernels (sa sc : Nat) : Nat → List (List UInt8) → List (List UInt8)
  | 1, _ => [List.replicate sa 7]
  | 2, ins => [[(ins.getD 0 []).getD 1 0]]
  | _, _ => [List.replicate sc 9]

/-- A one-dimensional `uint8` view of `n` bytes in buffer `s`. -/
def byteView (s n : Nat) : DLTensor := ⟨s, [n], ⟨1, 8, 1⟩⟩

theorem byteView_size (s : Nat) {n : Nat} (h : n < 2 ^ 64) : (byteView s n).size = n := by
  simp only [byteView, DLTensor.size, getDataSize, shapeProduct, List.foldl, sizeT,
    DLDataType.elemBytes]
  norm_num
  omega

/-- The kernels of `rerunModule`, bound to frames of two byte views, compute `rerunKernels`. -/
theorem kernelsOverwrite_rerun {rt : GraphRuntime} {u v w z u' y : DLTensor} {sd : List Int}
    (hops : rt.opExecs = [none, some (.call (fillKernel 7) ⟨[u, v], sd⟩),
      some (.call secondByteKernel ⟨[w, z], []⟩), some (.call (fillKernel 9) ⟨[u', y], []⟩)])
    (hins : ∀ nid, 0 < nid → nid < 4 → (rt.nodes.getD nid .empty).inputs.length = 1)
    (hz : z.size = 1) : rt.KernelsOverwrite (rerunKernels v.size y.size) := by
  constructor
  · intro nid pf frame hop cs
    rw [hops] at hop
    rcases nid with _ | _ | _ | _ | nid <;>
      simp only [List.getElem?_cons_zero, List.getElem?_cons_succ, List.getElem?_nil,
        Option.some.injEq, OpExec.call.injEq, reduceCtorEq] at hop <;>
      obtain ⟨rfl, rfl⟩ := hop <;> rw [hins _ (by omega) (by omega)]
    · rfl
    · cases cs <;> rfl
    · rfl
  · intro nid pf frame hop ins
    rw [hops] at hop
    rcases nid with _ | _ | _ | _ | nid <;>
      simp only [List.getElem?_cons_zero, List.getElem?_cons_succ, List.getElem?_nil,
        Option.some.injEq, OpExec.call.injEq, reduceCtorEq] at hop <;>
      obtain ⟨rfl, rfl⟩ := hop <;> rw [hins _ (by omega) (by omega)] <;> simp [rerunKernels, hz]

theorem rerunRuntime_two_opExecs : (rerunRuntime 2).opExecs = [none,
    some (.call (fillKernel 7) ⟨[byteView 0 1, byteView 1 2], [1, 2]⟩),
    some (.call secondByteKernel ⟨[byteView 1 2, byteView 2 1], []⟩),
    some (.call (fillKernel 9) ⟨[byteView 0 1, byteView 1 2], []⟩)] := rfl

theorem rerunRuntime_two_plan : (rerunRuntime 2).RerunPlan (rerunKernels 2 2) :=
  ⟨by decide, by decide, by decide, kernelsOverwrite_rerun rerunRuntime_two_opExecs
    (fun nid _ _ => by interval_cases nid <;> rfl) rfl⟩

theorem run_run_rerunDoc_two :
    (rerunRuntime 2).run [[5, 0, 0, 0], [0, 0, 0, 0], [0, 0, 0, 0]] >>= (rerunRuntime 2).run =
      (rerunRuntime 2).run [[5, 0, 0, 0], [0, 0, 0, 0], [0, 0, 0, 0]] :=
  @GraphRuntime.run_run uint8Type (rerunDoc 2) rerunModule false _ _ rfl rerunRuntime_two_plan
    (by decide) _

/-! ### Narrowed extents break the law

With extent `2^32 + 1`, the `int` accumulator of `flatten_data` narrows `a`'s output to one
byte. `a` overwrites that byte only; `b` reads the whole entry, whose second byte `c` wrote
during the previous run. The computation below is symbolic: the pool buffer holds
`2^32 + 4` bytes. -/

/-- A kernel call with one input and one output that returns `out` for its output. -/
theorem callPacked_unary {pf : PackedFunc} {t₀ t₁ : DLTensor} {mem : Pool} {b₀ b₁ : List UInt8}
    (h₀ : mem[t₀.data]? = some b₀) (hs₀ : t₀.size ≤ b₀.length)
    (h₁ : mem[t₁.data]? = some b₁) (hs₁ : t₁.size ≤ b₁.length) {out : List UInt8}
    (hpf : pf.call [t₀, t₁] [b₀.take t₀.size, b₁.take t₁.size] = [none, some out])
    (hout : out.length = t₁.size) :
    callPacked pf [t₀, t₁] mem = .ok (mem.set t₁.data (out ++ b₁.drop t₁.size)) := by
  have r₀ : readView mem t₀ = .ok (b₀.take t₀.size) := readView_eq_ok.mpr ⟨b₀, h₀, hs₀, rfl⟩
  have r₁ : readView mem t₁ = .ok (b₁.take t₁.size) := readView_eq_ok.mpr ⟨b₁, h₁, hs₁, rfl⟩
  have w : writeView mem t₁ out = .ok (mem.set t₁.data (out ++ b₁.drop t₁.size)) :=
    writeView_eq_ok.mpr ⟨b₁, h₁, by omega, by rw [hout]⟩
  simp only [callPacked, List.mapM_cons, List.mapM_nil, r₀, r₁, ok_bind, pure_bind, hpf,
    List.zip_cons_cons, List.zip_nil_left, List.foldlM_cons, List.foldlM_nil, writeArg,
    List.take_of_length_le (le_of_eq hout), w]
  rfl

theorem rerunRuntime_big_opExecs : (rerunRuntime (2 ^ 32 + 1)).opExecs = [none,
    some (.call (fillKernel 7) ⟨[byteView 0 1, byteView 1 1], [1, 1]⟩),
    some (.call secondByteKernel ⟨[byteView 1 (2 ^ 32 + 1), byteView 2 1], []⟩),
    some (.call (fillKernel 9) ⟨[byteView 0 1, byteView 1 (2 ^ 32 + 1)], []⟩)] := rfl

theorem run_rerunRuntime_big (mem : Pool) : (rerunRuntime (2 ^ 32 + 1)).run mem =
    (callPacked (fillKernel 7) [byteView 0 1, byteView 1 1] mem >>= fun m₁ =>
      callPacked secondByteKernel [byteView 1 (2 ^ 32 + 1), byteView 2 1] m₁ >>= fun m₂ =>
        callPacked (fillKernel 9) [byteView 0 1, byteView 1 (2 ^ 32 + 1)] m₂) := by
  simp only [GraphRuntime.run, GraphRuntime.runSlot, rerunRuntime_big_opExecs, List.length_cons,
    List.length_nil, List.range_succ, List.range_zero, List.nil_append, List.singleton_append,
    List.foldlM_append, List.foldlM_cons, List.foldlM_nil, vecAt, List.getElem?_cons_zero,
    List.getElem?_cons_succ, execSlot, OpExec.exec]
  simp

/-- One run of the narrowing graph on any pool whose buffers are long enough: buffer 1 ends
with `c`'s bytes over the rest of what it held, and the head receives the second byte that
buffer 1 held before the run. -/
theorem run_rerunRuntime_big_eq {b₀ b₁ b₂ : List UInt8} (h₀ : 1 ≤ b₀.length)
    (h₁ : 2 ^ 32 + 1 ≤ b₁.length) (h₂ : 1 ≤ b₂.length) :
    (rerunRuntime (2 ^ 32 + 1)).run [b₀, b₁, b₂] =
      .ok [b₀, List.replicate (2 ^ 32 + 1) 9 ++ b₁.drop (2 ^ 32 + 1), b₁.getD 1 0 :: b₂.drop 1] := by
  have s₁ : ∀ s, (byteView s 1).size = 1 := fun s => byteView_size s (by norm_num)
  have sN : ∀ s, (byteView s (2 ^ 32 + 1)).size = 2 ^ 32 + 1 :=
    fun s => byteView_size s (by norm_num)
  have hA : callPacked (fillKernel 7) [byteView 0 1, byteView 1 1] [b₀, b₁, b₂] =
      .ok [b₀, 7 :: b₁.drop 1, b₂] :=
    @callPacked_unary (fillKernel 7) (byteView 0 1) (byteView 1 1) _ b₀ b₁ rfl
      (by rw [s₁]; exact h₀) rfl (by rw [s₁]; omega) [7] rfl rfl
  have hB : callPacked secondByteKernel [byteView 1 (2 ^ 32 + 1), byteView 2 1]
      [b₀, 7 :: b₁.drop 1, b₂] =
      .ok [b₀, 7 :: b₁.drop 1, ((7 :: b₁.drop 1).take (2 ^ 32 + 1)).getD 1 0 :: b₂.drop 1] :=
    @callPacked_unary secondByteKernel (byteView 1 (2 ^ 32 + 1)) (byteView 2 1) _
      (7 :: b₁.drop 1) b₂ rfl (by rw [sN]; simp; omega) rfl (by rw [s₁]; exact h₂) _ rfl rfl
  have hC : callPacked (fillKernel 9) [byteView 0 1, byteView 1 (2 ^ 32 + 1)]
      [b₀, 7 :: b₁.drop 1, ((7 :: b₁.drop 1).take (2 ^ 32 + 1)).getD 1 0 :: b₂.drop 1] =
      .ok [b₀, List.replicate (2 ^ 32 + 1) 9 ++ (7 :: b₁.drop 1).drop (2 ^ 32 + 1),
        ((7 :: b₁.drop 1).take (2 ^ 32 + 1)).getD 1 0 :: b₂.drop 1] :=
    @callPacked_unary (fillKernel 9) (byteView 0 1) (byteView 1 (2 ^ 32 + 1)) _ b₀
      (7 :: b₁.drop 1) rfl (by rw [s₁]; exact h₀) rfl (by rw [sN]; simp; omega)
      (List.replicate (2 ^ 32 + 1) 9) rfl ((List.length_replicate _ _).trans (sN 1).symm)
  rw [run_rerunRuntime_big, hA, ok_bind, hB, ok_bind, hC, List.drop_succ_cons, List.drop_drop,
    List.take_succ_cons, List.getD_cons_succ, Nat.add_comm 1, List.getD_eq_getElem?_getD,
    List.getElem?_take_of_lt (by norm_num), List.getElem?_drop, ← List.getD_eq_getElem?_getD]

/-- The pool of the narrowing graph, as the allocator sizes it: `x` holds `5`, the rest zeros. -/
def rerunPool : Pool := [[5, 0, 0, 0], List.replicate (2 ^ 32 + 4) 0, [0, 0, 0, 0]]

theorem run_run_rerunDoc :
    GraphRuntime.init uint8Type (rerunDoc (2 ^ 32 + 1)) rerunModule false =
        .ok (rerunRuntime (2 ^ 32 + 1)) ∧
      (rerunRuntime (2 ^ 32 + 1)).RerunPlan (rerunKernels 1 (2 ^ 32 + 1)) ∧
      ¬ (rerunRuntime (2 ^ 32 + 1)).FlattenExact ∧ (rerunRuntime (2 ^ 32 + 1)).Fits rerunPool ∧
      (rerunRuntime (2 ^ 32 + 1)).run rerunPool =
        .ok [[5, 0, 0, 0], List.replicate (2 ^ 32 + 1) 9 ++ [0, 0, 0], [0, 0, 0, 0]] ∧
      (rerunRuntime (2 ^ 32 + 1)).run
          [[5, 0, 0, 0], List.replicate (2 ^ 32 + 1) 9 ++ [0, 0, 0], [0, 0, 0, 0]] =
        .ok [[5, 0, 0, 0], List.replicate (2 ^ 32 + 1) 9 ++ [0, 0, 0], [9, 0, 0, 0]] := by
  -- the facts about the long buffer, each proved without building it
  have l₀ : 1 ≤ [(5 : UInt8), 0, 0, 0].length := by decide
  have l₂ : 1 ≤ [(0 : UInt8), 0, 0, 0].length := by decide
  have hr : (List.replicate (2 ^ 32 + 1) (9 : UInt8)).length = 2 ^ 32 + 1 :=
    List.length_replicate _ _
  have l₁ : 2 ^ 32 + 1 ≤ (List.replicate (2 ^ 32 + 4) (0 : UInt8)).length := by
    rw [List.length_replicate]; norm_num
  have l₁' : 2 ^ 32 + 1 ≤ (List.replicate (2 ^ 32 + 1) (9 : UInt8) ++ [0, 0, 0]).length := by
    rw [List.length_append, hr]; norm_num
  have hd : (List.replicate (2 ^ 32 + 4) (0 : UInt8)).drop (2 ^ 32 + 1) = [0, 0, 0] := by
    rw [List.drop_replicate]
    rfl
  have hg : (List.replicate (2 ^ 32 + 4) (0 : UInt8)).getD 1 0 = 0 := by
    rw [List.getD_eq_getElem?_getD, List.getElem?_replicate, if_pos (by norm_num)]
    rfl
  have hg' : (List.replicate (2 ^ 32 + 1) (9 : UInt8) ++ [0, 0, 0]).getD 1 0 = 9 := by
    rw [List.getD_eq_getElem?_getD, List.getElem?_append_left (hr ▸ by norm_num),
      List.getElem?_replicate, if_pos (by norm_num)]
    rfl
  refine ⟨rfl, ⟨by decide, by decide, by decide, kernelsOverwrite_rerun rerunRuntime_big_opExecs
    (fun nid _ _ => by interval_cases nid <;> rfl) rfl⟩, by decide, ?_, ?_, ?_⟩
  · rw [GraphRuntime.Fits, show (rerunRuntime (2 ^ 32 + 1)).storagePool.map DLTensor.size =
      [4, 2 ^ 32 + 4, 4] by decide]
    simp only [rerunPool, List.map_cons, List.map_nil, List.length_replicate]
    rfl
  · rw [rerunPool, run_rerunRuntime_big_eq l₀ l₁ l₂, hd, hg]
    rfl
  · rw [run_rerunRuntime_big_eq l₀ l₁' l₂, List.drop_left' hr, hg']
    rfl

end TvmGraphRuntime
