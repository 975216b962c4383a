import TvmGraphRuntime.Executor

/-!
# Vector accesses in bounds

The runtime indexes its vectors (`node_row_ptr_`, `nodes_`, `data_entry_`, the storage plan,
`vtype`, `storage_pool_`, `input_nodes_`, `outputs_`, `op_execs_`) without checking the index,
and an index past the end is `Fault.outOfRange`. `InBounds r` says that `r` is no such fault:
the operation completed, or stopped at a failed check or at other undefined behaviour before
any access out of range.

* `InBounds` goes through `bind`, `mapM` and `foldlM`, so that the lemma of each operation
  follows the operation's own structure;
* **`inBounds_init`**: on a graph that satisfies the invariants of the graph model, `Init`
  indexes nothing out of range (the loader indexes no vector at all);
* **`inBounds_exec`**: after such an `Init` in normal mode, no sequence of calls other than
  the two name listings indexes anything out of range, provided no input slot's view has
  `2^64 - 1` bytes: `LoadDLTensor` allocates `data_byte_size + 1` bytes, which then wraps to an
  empty vector, and takes `&bytes[0]`.

`DebugRun` indexes `data_entry_` and the caller's debug buffers by node index and checks
neither, and the two listings index `nodes_` by an entry id; they are left out.
-/

namespace TvmGraphRuntime

/-- `r` is not an access past the end of a vector. -/
def InBounds {α : Type} (r : Result α) : Prop := ∀ what, r ≠ .error (.outOfRange what)

section Combinators

variable {α β : Type}

theorem inBounds_ok (a : α) : InBounds (.ok a : Result α) := fun _ h => by cases h

theorem inBounds_pure (a : α) : InBounds (pure a : Result α) := inBounds_ok a

theorem inBounds_throw {e : Fault} (h : ∀ what, e ≠ .outOfRange what) :
    InBounds (throw e : Result α) := fun what he => h what (Except.error.inj he)

theorem inBounds_check (c : Bool) (msg : String) : InBounds (check c msg) := by
  unfold check
  split
  · exact inBounds_pure _
  · exact inBounds_throw (by simp)

theorem InBounds.bind {x : Result α} {f : α → Result β} (hx : InBounds x)
    (hf : ∀ a, x = .ok a → InBounds (f a)) : InBounds (x >>= f) := by
  cases x with
  | error e => exact fun what h => hx what (congrArg Except.error (Except.error.inj h))
  | ok a => exact hf a rfl

theorem inBounds_vecAt {xs : List α} {i : Nat} (h : i < xs.length) (what : String) :
    InBounds (vecAt xs i what) := by
  rw [vecAt_of_lt what h]
  exact inBounds_ok _

theorem inBounds_mapM {f : α → Result β} {l : List α} (h : ∀ a ∈ l, InBounds (f a)) :
    InBounds (l.mapM f) := by
  induction l with
  | nil => exact inBounds_pure _
  | cons a l ih =>
    rw [List.mapM_cons]
    exact (h a (List.mem_cons_self _ _)).bind fun _ _ =>
      (ih fun a ha => h a (List.mem_cons_of_mem _ ha)).bind fun _ _ => inBounds_pure _

theorem inBounds_foldlM {f : β → α → Result β} {l : List α}
    (h : ∀ a ∈ l, ∀ b, InBounds (f b a)) (b : β) : InBounds (l.foldlM f b) := by
  induction l generalizing b with
  | nil => exact inBounds_pure _
  | cons a l ih =>
    rw [List.foldlM_cons]
    exact (h a (List.mem_cons_self _ _) b).bind fun b' _ =>
      ih (fun a ha => h a (List.mem_cons_of_mem _ ha)) b'

end Combinators

/-! ### Operations that index no vector -/

theorem inBounds_readView (mem : Pool) (t : DLTensor) : InBounds (readView mem t) := by
  unfold readView
  split
  · exact inBounds_throw (by simp)
  · split_ifs
    · exact inBounds_pure _
    · exact inBounds_throw (by simp)

theorem inBounds_writeView (mem : Pool) (t : DLTensor) (bytes : List UInt8) :
    InBounds (writeView mem t bytes) := by
  unfold writeView
  split
  · exact inBounds_throw (by simp)
  · split_ifs
    · exact inBounds_pure _
    · exact inBounds_throw (by simp)

theorem inBounds_callPacked (pf : PackedFunc) (args : List DLTensor) (mem : Pool) :
    InBounds (callPacked pf args mem) :=
  (inBounds_mapM fun t _ => inBounds_readView mem t).bind fun _ _ =>
    inBounds_foldlM (fun w _ mem => by
      rcases w with ⟨t, _ | bytes⟩
      · exact inBounds_pure _
      · exact inBounds_writeView _ _ _) mem

theorem inBounds_execSlot (mem : Pool) (op : Option OpExec) : InBounds (execSlot mem op) := by
  rcases op with _ | _ | ⟨pf, frame⟩
  · exact inBounds_pure _
  · exact inBounds_pure _
  · exact inBounds_callPacked pf frame.args mem

theorem inBounds_copyToHost (mem : Pool) (src : DLTensor) (dst : HostTensor) :
    InBounds (copyToHost mem src dst) := by
  unfold copyToHost
  split_ifs
  · split
    · exact inBounds_pure _
    · rename_i e h
      exact inBounds_throw fun what he => inBounds_readView mem src what (he ▸ h)
  · exact inBounds_throw (by simp)

theorem inBounds_copyFromHost (mem : Pool) (src : HostTensor) (dst : DLTensor) :
    InBounds (copyFromHost mem src dst) :=
  (inBounds_check _ _).bind fun _ _ => inBounds_writeView _ _ _

theorem inBounds_copyFromBytes (mem : Pool) (dst : DLTensor) (data : List UInt8) (n : Nat) :
    InBounds (copyFromBytes mem dst data n) :=
  (inBounds_check _ _).bind fun _ _ => inBounds_writeView _ _ _

theorem inBounds_readValue (bytes : List UInt8) (n : Nat) : InBounds (readValue bytes n) := by
  unfold readValue
  split_ifs
  · exact inBounds_pure _
  · exact inBounds_throw (by simp)

theorem inBounds_readShapeBytes (ndim : Int) (s : Stream) : InBounds (readShapeBytes ndim s) := by
  unfold readShapeBytes
  split_ifs
  · exact (inBounds_check _ _).bind fun _ _ => inBounds_pure _
  · exact inBounds_pure _

theorem inBounds_parseHead (k : Nat) (s : Stream) (dst : DLTensor) :
    InBounds (parseHead k s dst) :=
  (inBounds_check _ _).bind fun _ _ => (inBounds_check _ _).bind fun _ _ =>
  (inBounds_readValue _ _).bind fun _ _ => (inBounds_check _ _).bind fun _ _ =>
  (inBounds_check _ _).bind fun _ _ => (inBounds_check _ _).bind fun _ _ =>
  (inBounds_check _ _).bind fun _ _ => (inBounds_readValue _ _).bind fun _ _ =>
  (inBounds_check _ _).bind fun _ _ => (inBounds_readShapeBytes _ _).bind fun ⟨_, _⟩ _ =>
  (inBounds_check _ _).bind fun _ _ => (inBounds_readValue _ _).bind fun _ _ =>
  (inBounds_check _ _).bind fun _ _ => (inBounds_check _ _).bind fun _ _ => inBounds_pure _

theorem inBounds_paramsHeader (k : Nat) (blob : List UInt8) : InBounds (paramsHeader k blob) := by
  unfold paramsHeader
  split
  · refine (inBounds_check _ _).bind fun _ _ => ?_
    split
    · split
      · exact (inBounds_readValue _ _).bind fun _ _ => (inBounds_check _ _).bind fun _ _ =>
          inBounds_pure _
      · exact inBounds_throw (by simp)
    · exact inBounds_throw (by simp)
  · exact inBounds_throw (by simp)

/-- The only vector `LoadDLTensor` indexes is its buffer of `data_byte_size + 1` bytes, at 0:
in range unless the view has `2^64 - 1` bytes. -/
theorem inBounds_parseData (s : Stream) {dst : DLTensor} (hdst : dst.size ≠ 2 ^ 64 - 1) :
    InBounds (parseData s dst) :=
  (inBounds_check _ _).bind fun _ _ => (inBounds_readValue _ _).bind fun n _ =>
  (inBounds_check _ _).bind fun _ hn => by
    have hn : n = dst.size := by simpa [expectedBytes_eq_size] using hn
    have hlt : dst.size < 2 ^ 64 := Nat.mod_lt _ (by norm_num)
    exact (inBounds_vecAt (by simp; omega) _).bind fun _ _ =>
      (inBounds_check _ _).bind fun _ _ => inBounds_pure _

theorem inBounds_loadDLTensor (k : Nat) (s : Stream) (mem : Pool) {dst : DLTensor}
    (hdst : dst.size ≠ 2 ^ 64 - 1) : InBounds (loadDLTensor k s mem dst) :=
  ((inBounds_parseHead k s dst).bind fun _ _ => inBounds_parseData _ hdst).bind
    fun ⟨_, _, _⟩ _ => (inBounds_copyFromBytes _ _ _ _).bind fun _ _ => inBounds_pure _

/-! ### `Init` on a well-formed graph -/

theorem inBounds_vtypeOf (f : String → Option DLDataType) (dltype : List String) :
    InBounds (vtypeOf f dltype) :=
  inBounds_mapM fun s _ => by
    split
    · exact inBounds_pure _
    · exact inBounds_throw (by simp)

theorem inBounds_poolEntryStep {attrs : GraphAttr} {vtype : List DLDataType} (peb : List Nat)
    {i : Nat} (h₁ : i < attrs.storageId.length) (h₂ : i < attrs.shape.length)
    (h₃ : i < vtype.length) : InBounds (poolEntryStep attrs vtype peb i) :=
  (inBounds_vecAt h₁ _).bind fun _ _ => (inBounds_vecAt h₂ _).bind fun _ _ =>
  (inBounds_check _ _).bind fun _ _ => (inBounds_vecAt h₃ _).bind fun _ _ =>
  (inBounds_check _ _).bind fun _ _ => inBounds_pure _

theorem inBounds_TVMArrayAlloc (i : Nat) (n : Int) : InBounds (TVMArrayAlloc i n) := by
  unfold TVMArrayAlloc
  split_ifs
  · exact inBounds_pure _
  · exact inBounds_throw (by simp)

theorem inBounds_dataEntryAt {attrs : GraphAttr} {vtype : List DLDataType} (pool : List DLTensor)
    {i : Nat} (h₁ : i < attrs.storageId.length) (h₂ : i < attrs.shape.length)
    (h₃ : i < vtype.length) : InBounds (dataEntryAt attrs vtype pool i) :=
  (inBounds_vecAt h₁ _).bind fun _ _ => (inBounds_check _ _).bind fun _ hc =>
  (inBounds_vecAt (by simpa using hc) _).bind fun _ _ => (inBounds_vecAt h₂ _).bind fun _ _ =>
  (inBounds_vecAt h₃ _).bind fun _ _ => inBounds_pure _

theorem inBounds_setupStorage (f : String → Option DLDataType) {g : Graph} (hg : g.WellFormed) :
    InBounds (setupStorage f g) := by
  unfold setupStorage
  refine (inBounds_vtypeOf f _).bind fun vtype hv => ?_
  have hvt : vtype.length = g.totalEntries :=
    ((mapM_eq_ok.mp hv).length_eq).symm.trans hg.dltype_length
  have hsid := hg.storageId_length
  have hsh := hg.shape_length
  rw [Graph.numNodeEntries_eq hg, ok_bind]
  refine (inBounds_foldlM (fun i hi peb => ?_) _).bind fun peb _ => ?_
  · have := List.mem_range.mp hi
    exact inBounds_poolEntryStep peb (by omega) (by omega) (by omega)
  refine (inBounds_mapM fun s _ => inBounds_TVMArrayAlloc _ _).bind fun pool _ => ?_
  refine (inBounds_mapM fun i hi => ?_).bind fun _ _ => inBounds_pure _
  have := List.mem_range.mp hi
  exact inBounds_dataEntryAt pool (by omega) (by omega) (by omega)

theorem inBounds_paramOf (inode : Node) : InBounds inode.paramOf := by
  unfold Node.paramOf
  split
  · exact inBounds_pure _
  · exact inBounds_throw (by simp)

theorem inBounds_accumulateShape (shape : List Int) : InBounds (accumulateShape shape) :=
  inBounds_foldlM (fun d _ acc => by
    unfold accumulateStep
    split_ifs
    · exact inBounds_pure _
    · exact inBounds_throw (by simp)) 1

theorem inBounds_createTVMOp (m : Module) (p : TVMOpParam) (args : List DLTensor) (k : Nat) :
    InBounds (createTVMOp m p args k) := by
  refine InBounds.bind ?_ fun _ _ => ?_
  · unfold packArgs
    split_ifs
    · exact (inBounds_mapM fun t _ => inBounds_accumulateShape _).bind fun _ _ => inBounds_pure _
    · exact inBounds_pure _
  · split_ifs
    · exact inBounds_pure _
    · split
      · exact inBounds_pure _
      · exact inBounds_throw (by simp)

section WellFormed

variable {g : Graph} (hg : g.WellFormed) {entries : List DLTensor}
  (hlen : entries.length = g.totalEntries)
include hg hlen

theorem inBounds_entryView {e : NodeEntry} (hv : g.ValidEntry e) :
    InBounds (do vecAt entries (← g.entryId e.nodeId e.index) "data_entry_") := by
  rw [entryView_eq hg hlen hv]
  exact inBounds_ok _

theorem inBounds_argsOf {nid : Nat} (hnid : nid < g.nodes.length) :
    InBounds (argsOf g entries nid g.nodes[nid]) :=
  (inBounds_mapM fun e he => inBounds_entryView hg hlen (hg.inputs_valid nid hnid e he).2).bind
    fun _ _ => (inBounds_paramOf _).bind fun p hp =>
    (inBounds_mapM fun k hk => inBounds_entryView hg hlen (e := ⟨nid, k, 0⟩) (by
      simp only [Graph.ValidEntry, Graph.numOutputsOf_of_lt hnid, Node.numOutputs,
        Node.paramOf_eq_ok.mp hp]
      simpa using hk)).bind fun _ _ => inBounds_pure _

theorem inBounds_setupOpExecs (m : Module) : InBounds (setupOpExecs m g entries) :=
  inBounds_mapM fun nid hnid => by
    have hnid := List.mem_range.mp hnid
    unfold setupOpExec
    rw [vecAt_of_lt _ hnid, ok_bind]
    split_ifs
    · exact inBounds_pure _
    · exact (inBounds_argsOf hg hlen hnid).bind fun _ _ => (inBounds_check _ _).bind fun _ _ =>
        (inBounds_paramOf _).bind fun _ _ => (inBounds_createTVMOp _ _ _ _).bind fun _ _ =>
        inBounds_pure _

end WellFormed

/-- On a graph that satisfies the invariants of the graph model, `Init` indexes no vector out
of range. -/
theorem inBounds_init (f : String → Option DLDataType) {doc : JSONValue} (m : Module) (d : Bool)
    {g : Graph} (hload : Graph.load doc = .ok g) (hg : g.WellFormed) :
    InBounds (GraphRuntime.init f doc m d) := by
  unfold GraphRuntime.init
  rw [hload, ok_bind]
  exact (inBounds_setupStorage f hg).bind fun ⟨_, _⟩ hs =>
    (inBounds_setupOpExecs hg (length_of_setupStorage hg hs) m).bind fun _ _ => inBounds_pure _

/-! ### The public operations -/

/-- `get_input_names` and `get_output_names`, the calls that list names. -/
def Call.listsNames : Call → Bool
  | .getInputNames | .getOutputNames => true
  | _ => false

/-- `GetInputIndex` gives `-1` or the position of an input slot. -/
theorem getInputIndexFrom_range {g : Graph} {name : List UInt8} {k : Nat} {l : List Nat}
    {i : Int} (h : getInputIndexFrom g name k l = .ok i) : i = -1 ∨ k ≤ i ∧ i < k + l.length := by
  induction l generalizing k with
  | nil => exact .inl (pure_eq_ok.mp h).symm
  | cons nid rest ih =>
    simp only [getInputIndexFrom, bind_eq_ok] at h
    obtain ⟨node, -, h⟩ := h
    split_ifs at h
    · obtain rfl := pure_eq_ok.mp h
      exact .inr ⟨le_refl _, by simp⟩
    · rcases ih h with h | ⟨h₁, h₂⟩
      · exact .inl h
      · exact .inr ⟨by omega, by simp at h₂ ⊢; omega⟩

theorem inBounds_getInputIndexFrom {g : Graph} (name : List UInt8) {l : List Nat}
    (hl : ∀ nid ∈ l, nid < g.nodes.length) (k : Nat) : InBounds (getInputIndexFrom g name k l) := by
  induction l generalizing k with
  | nil => exact inBounds_pure _
  | cons nid rest ih =>
    rw [getInputIndexFrom]
    refine (inBounds_vecAt (hl nid (List.mem_cons_self _ _)) _).bind fun _ _ => ?_
    split_ifs
    · exact inBounds_pure _
    · exact ih (fun nid h => hl nid (List.mem_cons_of_mem _ h)) _

namespace GraphRuntime

theorem inBounds_run (rt : GraphRuntime) (mem : Pool) : InBounds (rt.run mem) :=
  inBounds_foldlM (fun _ hi mem => (inBounds_vecAt (List.mem_range.mp hi) _).bind fun op _ =>
    inBounds_execSlot mem op) mem

section Calls

variable {rt : GraphRuntime} (hg : rt.WellFormed)

include hg in
theorem inBounds_getInputIndex (name : List UInt8) : InBounds (rt.getInputIndex name) :=
  inBounds_getInputIndexFrom name (fun nid h => Graph.lt_length_of_valid (hg.inputNodes_valid nid h)) 0

/-- A resolved name is the position of an input slot. -/
theorem lt_of_getInputIndex {name : List UInt8} {i : Int} (h : rt.getInputIndex name = .ok i)
    (h0 : 0 ≤ i) : i.toNat < rt.inputNodes.length := by
  rcases getInputIndexFrom_range h with rfl | ⟨-, h⟩
  · omega
  · omega

include hg in
theorem inBounds_entryId {e : NodeEntry} (hv : rt.ValidEntry e) :
    InBounds (rt.entryId e.nodeId e.index) := by
  rw [Graph.entryId_eq hg hv]
  exact inBounds_ok _

include hg in
theorem inBounds_recordSlot (name : List UInt8) : InBounds (rt.recordSlot name) :=
  (inBounds_getInputIndex hg name).bind fun i hi => (inBounds_check _ _).bind fun _ h0 => by
    have hlt := lt_of_getInputIndex hi (by simpa using h0)
    exact (inBounds_vecAt hlt _).bind fun nid hnid =>
      (inBounds_entryId hg (e := ⟨nid, 0, 0⟩)
        (hg.inputNodes_valid _ (List.getElem?_mem (vecAt_eq_ok.mp hnid)))).bind fun _ _ =>
      (inBounds_check _ _).bind fun _ hc => (inBounds_vecAt (by simpa using hc) _).bind
        fun _ _ => inBounds_pure _

variable (hsize : ∀ i v, rt.slotView i = .ok v → v.size ≠ 2 ^ 64 - 1)

include hg hsize in
theorem inBounds_loadParams (k₁ k₂ : Nat) (mem : Pool) (blob : List UInt8) :
    InBounds (rt.loadParams k₁ k₂ mem blob) :=
  (inBounds_paramsHeader _ _).bind fun ⟨_, _⟩ _ =>
    (inBounds_foldlM (fun name _ _ => (inBounds_recordSlot hg name).bind fun ⟨_, _⟩ h =>
      inBounds_loadDLTensor _ _ _ (hsize _ _ (recordSlot_eq_ok h).2)) _).bind
    fun ⟨_, _⟩ _ => inBounds_pure _

variable (hlen : rt.dataEntry.length = rt.totalEntries)
include hg hlen

theorem inBounds_slotView {i : Nat} (hi : i < rt.inputNodes.length) : InBounds (rt.slotView i) :=
  (inBounds_vecAt hi _).bind fun _ h =>
    (inBounds_entryView hg hlen (hg.inputNodes_valid _ (List.getElem?_mem (vecAt_eq_ok.mp h))) :)

theorem inBounds_setInput (mem : Pool) (index : Int) (dataIn : HostTensor) :
    InBounds (rt.setInput mem index dataIn) :=
  (inBounds_check _ _).bind fun _ hc => (inBounds_slotView hg hlen (by simpa using hc)).bind
    fun _ _ => inBounds_copyFromHost _ _ _

theorem inBounds_getInput (mem : Pool) (index : Int) (dataOut : HostTensor) :
    InBounds (rt.getInput mem index dataOut) :=
  (inBounds_check _ _).bind fun _ hc => (inBounds_slotView hg hlen (by simpa using hc)).bind
    fun _ _ => inBounds_copyToHost _ _ _

theorem inBounds_getOutput (mem : Pool) (index : Int) (dataOut : HostTensor) :
    InBounds (rt.getOutput mem index dataOut) :=
  (inBounds_check _ _).bind fun _ hc => (inBounds_vecAt (by simpa using hc) _).bind fun e he => by
    have hv := hg.outputs_valid e (List.getElem?_mem (vecAt_eq_ok.mp he))
    rw [Graph.entryId_eq hg hv, ok_bind]
    exact (inBounds_vecAt (hlen ▸ Graph.offset_add_lt_total hv) _).bind fun _ _ =>
      inBounds_copyToHost _ _ _

include hsize

theorem inBounds_call (k₁ k₂ : Nat) (hdebug : rt.debug = false) (st : Store) (c : Call)
    (hc : c.listsNames = false) : InBounds (rt.call k₁ k₂ st c) := by
  cases c with
  | setInput key dataIn =>
    cases key with
    | index i => exact (inBounds_setInput hg hlen _ _ _).bind fun _ _ => inBounds_pure _
    | name s =>
      refine (inBounds_getInputIndex hg _).bind fun _ _ => ?_
      split_ifs
      · exact (inBounds_setInput hg hlen _ _ _).bind fun _ _ => inBounds_pure _
      · exact inBounds_pure _
  | getInput key dataOut =>
    cases key with
    | index i => exact (inBounds_getInput hg hlen _ _ _).bind fun _ _ => inBounds_pure _
    | name s =>
      exact (inBounds_getInputIndex hg _).bind fun _ _ => (inBounds_check _ _).bind fun _ _ =>
        (inBounds_getInput hg hlen _ _ _).bind fun _ _ => inBounds_pure _
  | getOutput i dataOut => exact (inBounds_getOutput hg hlen _ _ _).bind fun _ _ => inBounds_pure _
  | getInputNames => cases hc
  | getOutputNames => cases hc
  | setDebugBuffer buffer => exact inBounds_pure _
  | run =>
    show InBounds (if rt.debug then _ else _)
    rw [if_neg (by simp [hdebug])]
    exact (inBounds_run _ _).bind fun _ _ => inBounds_pure _
  | loadParams blob =>
    exact (inBounds_loadParams hg hsize _ _ _ _).bind fun _ _ => inBounds_pure _

/-- No sequence of calls other than the name listings indexes a vector out of range. -/
theorem inBounds_exec (k₁ k₂ : Nat) (hdebug : rt.debug = false) (st : Store) (cs : List Call)
    (hcs : ∀ c ∈ cs, c.listsNames = false) : InBounds (rt.exec k₁ k₂ st cs) := by
  induction cs generalizing st with
  | nil => exact inBounds_pure _
  | cons c cs ih =>
    exact (inBounds_call hg hsize hlen k₁ k₂ hdebug st c (hcs c (List.mem_cons_self _ _))).bind
      fun ⟨st', _⟩ _ => (ih st' fun c h => hcs c (List.mem_cons_of_mem _ h)).bind
      fun ⟨_, _⟩ _ => inBounds_pure _

end Calls

end GraphRuntime

/-! ### The whole life of an executor -/

/-- On a graph text the loader accepts and whose graph satisfies the invariants of the graph
model, `Init` indexes no vector out of range; after it, in normal mode and with no input
slot's view of `2^64 - 1` bytes, no sequence of calls other than the name listings does
either, whatever the arguments. -/
theorem init_exec_inBounds {f : String → Option DLDataType} {doc : JSONValue} {m : Module}
    {g : Graph} (hload : Graph.load doc = .ok g) (hg : g.WellFormed) :
    (∀ d, InBounds (GraphRuntime.init f doc m d)) ∧
      ∀ rt, GraphRuntime.init f doc m false = .ok rt →
        (∀ i v, rt.slotView i = .ok v → v.size ≠ 2 ^ 64 - 1) →
        ∀ k₁ k₂ st cs, (∀ c ∈ cs, c.listsNames = false) → InBounds (rt.exec k₁ k₂ st cs) := by
  refine ⟨fun d => inBounds_init f m d hload hg, fun rt hinit hsize k₁ k₂ st cs hcs => ?_⟩
  obtain ⟨hload', hsetup, -, -, hdebug⟩ := GraphRuntime.init_eq_ok hinit
  obtain rfl : g = rt.toGraph := Except.ok.inj (hload.symm.trans hload')
  exact GraphRuntime.inBounds_exec hg hsize (length_of_setupStorage hg hsetup) k₁ k₂ hdebug st
    cs hcs

/-- The graph `paramsDoc` describes. -/
def paramsGraph : Graph :=
  match Graph.load paramsDoc with
  | .ok g => g
  | .error _ => Graph.empty

theorem init_exec_inBounds_paramsDoc :
    Graph.load paramsDoc = .ok paramsGraph ∧ paramsGraph.WellFormed ∧
      InBounds (GraphRuntime.init float32Type paramsDoc ⟨fun _ => none⟩ true) :=
  ⟨rfl, by decide,
    (@init_exec_inBounds float32Type paramsDoc ⟨fun _ => none⟩ paramsGraph rfl (by decide)).1 true⟩

/-! ### Accesses out of range -/

/-- A graph text with one input slot and no node: the loader checks no index, so `Init`
accepts it. -/
def danglingInputDoc : JSONValue := .obj [("nodes", .arr []), ("arg_nodes", .arr [.num 0]),
  ("node_row_ptr", .arr [.num 0]), ("heads", .arr []),
  ("attrs", .obj [("dltype", .arr [.str "list_str", .arr []]),
    ("storage_id", .arr [.str "list_int", .arr []]),
    ("shape", .arr [.str "list_shape", .arr []])])]

/-- A graph with one `uint8` input `x` of shape `[-1]`: its view has `2^64 - 1` bytes. -/
def negShapeDoc : JSONValue := .obj [
  ("nodes", .arr [.obj [("op", .str "null"), ("name", .str "x"), ("inputs", .arr [])]]),
  ("arg_nodes", .arr [.num 0]), ("node_row_ptr", .arr [.num 0, .num 1]),
  ("heads", .arr [.arr [.num 0, .num 0]]),
  ("attrs", .obj [("dltype", .arr [.str "list_str", .arr [.str "uint8"]]),
    ("storage_id", .arr [.str "list_int", .arr [.num 0]]),
    ("shape", .arr [.str "list_shape", .arr [.arr [.num (-1)]]])])]

/-- A parameter blob with one record, for `x`, of type `uint8` and shape `[-1]`, announcing
`2^64 - 1` data bytes. -/
def negShapeBlob : List UInt8 :=
  encodeLE 8 0xF7E58D4F05049CB7 ++ encodeLE 8 0 ++ encodeLE 8 1 ++ encodeLE 8 1 ++ [120] ++
    encodeLE 8 1 ++ encodeLE 8 0xDD5E40F096B4A13F ++ encodeLE 8 0 ++ encodeLE 8 1 ++
    encodeLE 4 1 ++ [1, 8, 1, 0] ++ encodeLE 8 (2 ^ 64 - 1) ++ encodeLE 8 (2 ^ 64 - 1)

/-- Accesses out of range after an `Init` that succeeds, one for each condition of
`init_exec_inBounds`: on `danglingInputDoc`, not well formed, `get_input(0)` passes its check
and reads `data_entry_[0]` of an empty vector; in debug mode, `run` on the well-formed
`debugDoc` with no debug buffer reads `debug_buffers_[0]`; on the well-formed
`twoOutputGraph`, `GetOutputNames` reads `nodes_[4]`; on the well-formed `negShapeDoc`,
`load_params` takes `&bytes[0]` of an empty vector. -/
theorem outOfRange_of_unchecked :
    ((Graph.load danglingInputDoc).map fun g => decide g.WellFormed) = .ok false ∧
      ((GraphRuntime.init float32Type danglingInputDoc ⟨fun _ => none⟩ false).bind fun rt =>
        (rt.exec 0 0 ⟨[], [], []⟩ [.getInput (.index 0) ⟨[], .float32, [0, 0, 0, 0], rfl⟩]).map
          fun r => r.1.pool) = .error (.outOfRange "data_entry_") ∧
    ((Graph.load GraphRuntime.debugDoc).map fun g => decide g.WellFormed) = .ok true ∧
      ((GraphRuntime.init uint8Type GraphRuntime.debugDoc GraphRuntime.debugModule true).bind fun rt =>
        (rt.exec 0 0 ⟨GraphRuntime.debugPool, [], []⟩ [.run]).map
          fun r => r.1.pool) = .error (.outOfRange "debug_buffers_") ∧
    Graph.twoOutputGraph.WellFormed ∧
      Graph.twoOutputGraph.getOutputNames = .error (.outOfRange "nodes_") ∧
    ((Graph.load negShapeDoc).map fun g => decide g.WellFormed) = .ok true ∧
      ((GraphRuntime.init uint8Type negShapeDoc ⟨fun _ => none⟩ false).bind fun rt =>
        (rt.exec 0xF7E58D4F05049CB7 0xDD5E40F096B4A13F ⟨[[]], [], []⟩ [.loadParams negShapeBlob]).map
          fun r => r.1.pool) = .error (.outOfRange "bytes") := by
  decide

end TvmGraphRuntime
