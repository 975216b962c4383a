import TvmGraphRuntime.Graph

/-!
# Storage setup

`GraphRuntime::SetupStorage`, in its three loops:

* `poolEntryStep`, the body of the first loop: the byte size of entry `i` is
  `bits / 8` times the `size_t` product of its extents, and `pool_entry_bytes[sid]` grows to
  the largest size among the entries of storage id `sid`;
* `poolShape` and `TVMArrayAlloc`, the second loop: pool buffer `s` is a one-dimensional
  `float32` array of `(pool_entry_bytes[s] + 3) / 4` elements, the sum taken in `size_t` and
  cast to `int64_t` before the division;
* `dataEntryAt`, the third loop: the view of entry `i` is its pool buffer with the entry's
  shape and type.

`String2TVMType` and the device allocator are outside this file: the first is a parameter of
the model, the second is modelled from the spec's `allocate(shape, dtype, device)`.
-/

namespace TvmGraphRuntime

/-- `TVMArrayAlloc(shape, 1, kDLFloat, 32, 1, ...)`, the `i`-th allocation. Modelled from the
spec: the tensor backend's `allocate(shape, dtype, device)`; a negative extent cannot be
allocated, and the allocation of buffer `i` is the buffer the view `data = i` points at. -/
def TVMArrayAlloc (i : Nat) (n : Int) : Result DLTensor :=
  if 0 ≤ n then pure ⟨i, [n], .float32⟩ else throw (.check "TVMArrayAlloc: negative shape")

/-- The extent of pool buffer `s`: `static_cast<int64_t>(pool_entry_bytes[s] + 3) / 4`. -/
def poolShape (bytes : Nat) : Int := (int64OfSizeT ((bytes + 3) % 2 ^ 64)).tdiv 4

section SetupStorage

variable (string2TVMType : String → Option DLDataType)

/-- `String2TVMType` of every `dltype`. -/
def vtypeOf (dltype : List String) : Result (List DLDataType) :=
  dltype.mapM fun s => match string2TVMType s with
    | some t => pure t
    | none => throw (.check ("unknown type " ++ s))

/-- `pool_entry_bytes.resize(sid + 1, 0)` when `sid` is past its end, then
`pool_entry_bytes[sid] = std::max(pool_entry_bytes[sid], bytes)`. -/
def raiseAt (poolEntryBytes : List Nat) (sid bytes : Nat) : List Nat :=
  let poolEntryBytes :=
    if poolEntryBytes.length ≤ sid then
      poolEntryBytes ++ List.replicate (sid + 1 - poolEntryBytes.length) 0
    else poolEntryBytes
  poolEntryBytes.set sid (max (poolEntryBytes.getD sid 0) bytes)

/-- The body of the first loop: entry `i` raises `pool_entry_bytes` at its storage id. -/
def poolEntryStep (attrs : GraphAttr) (vtype : List DLDataType) (poolEntryBytes : List Nat)
    (i : Nat) : Result (List Nat) := do
  let storageId ← vecAt attrs.storageId i "attrs_.storage_id"
  let size := shapeProduct (← vecAt attrs.shape i "attrs_.shape")
  check (0 ≤ storageId) "Do not support runtime shape op"
  let t ← vecAt vtype i "vtype"
  let bits := t.bits.toNat * t.lanes.toNat
  check (bits % 8 == 0) "bits % 8U == 0U"
  let bytes := bits / 8 * size % 2 ^ 64
  pure (raiseAt poolEntryBytes (sizeT storageId) bytes)

/-- The body of the third loop: the view of entry `i`. -/
def dataEntryAt (attrs : GraphAttr) (vtype : List DLDataType) (storagePool : List DLTensor)
    (i : Nat) : Result DLTensor := do
  let storageId ← vecAt attrs.storageId i "attrs_.storage_id"
  check (sizeT storageId < storagePool.length)
    "static_cast<size_t>(storage_id) < storage_pool_.size()"
  let pool ← vecAt storagePool (sizeT storageId) "storage_pool_"
  let shape ← vecAt attrs.shape i "attrs_.shape"
  let dtype ← vecAt vtype i "vtype"
  pure { pool with shape, dtype }

/-- `GraphRuntime::SetupStorage`: the pool buffers and the view of every entry. -/
def setupStorage (g : Graph) : Result (List DLTensor × List DLTensor) := do
  let vtype ← vtypeOf string2TVMType g.attrs.dltype
  let n ← g.numNodeEntries
  let poolEntryBytes ←
    (List.range g.attrs.shape.length).foldlM (poolEntryStep g.attrs vtype) []
  let storagePool ← (List.range poolEntryBytes.length).mapM fun s =>
    TVMArrayAlloc s (poolShape (poolEntryBytes.getD s 0))
  let dataEntry ← (List.range n).mapM (dataEntryAt g.attrs vtype storagePool)
  pure (storagePool, dataEntry)

end SetupStorage

/-! ### The first loop -/

theorem length_raiseAt (peb : List Nat) (sid bytes : Nat) :
    (raiseAt peb sid bytes).length = max peb.length (sid + 1) := by
  unfold raiseAt
  split_ifs with h <;> simp only [List.length_set, List.length_append, List.length_replicate] <;> omega

private theorem getD_append_replicate_zero (peb : List Nat) (m s : Nat) :
    (peb ++ List.replicate m 0).getD s 0 = peb.getD s 0 := by
  simp only [List.getD_eq_getElem?_getD]
  by_cases h : s < peb.length
  · simp [List.getElem?_append_left h]
  · simp [List.getElem?_append_right (Nat.le_of_not_lt h), List.getElem?_replicate,
      List.getElem?_eq_none (Nat.le_of_not_lt h)]
    split <;> rfl

theorem getD_raiseAt (peb : List Nat) (sid bytes s : Nat) :
    (raiseAt peb sid bytes).getD s 0 =
      if s = sid then max (peb.getD s 0) bytes else peb.getD s 0 := by
  -- the resized vector reads as `peb` everywhere and holds index `sid`
  obtain ⟨l, hl, hget, hdef⟩ : ∃ l : List Nat, sid < l.length ∧
      (∀ t, l.getD t 0 = peb.getD t 0) ∧
      raiseAt peb sid bytes = l.set sid (max (l.getD sid 0) bytes) := by
    unfold raiseAt
    split_ifs with h
    · exact ⟨_, by rw [List.length_append, List.length_replicate]; omega,
        getD_append_replicate_zero peb _, rfl⟩
    · exact ⟨_, by omega, fun _ => rfl, rfl⟩
  rw [hdef]
  split_ifs with hs
  · subst hs
    rw [hget, List.getD_eq_getElem?_getD, List.getElem?_set_self hl]
    rfl
  · rw [List.getD_eq_getElem?_getD, List.getElem?_set_ne (Ne.symm hs),
      ← List.getD_eq_getElem?_getD, hget]

theorem poolEntryStep_eq_ok {attrs : GraphAttr} {vtype : List DLDataType} {peb peb' : List Nat}
    {i : Nat} (h : poolEntryStep attrs vtype peb i = .ok peb') :
    ∃ sid shape t, attrs.storageId[i]? = some sid ∧ attrs.shape[i]? = some shape ∧
      vtype[i]? = some t ∧ 0 ≤ sid ∧ t.bits.toNat * t.lanes.toNat % 8 = 0 ∧
      peb' = raiseAt peb (sizeT sid) (getDataSize shape t) := by
  simp only [poolEntryStep, bind_eq_ok, vecAt_eq_ok, check_eq_ok, pure_eq_ok] at h
  obtain ⟨sid, hsid, shape, hshape, ⟨⟩, h0, t, ht, ⟨⟩, hbits, rfl⟩ := h
  simp at h0 hbits
  refine ⟨sid, shape, t, hsid, hshape, ht, h0, hbits, ?_⟩
  rw [getDataSize, DLDataType.elemBytes_of_dvd hbits, Nat.mul_comm]

/-- The number of pool buffers a plan asks for: one more than the largest storage id. -/
def poolCount (storageId : List Int) : Nat := (storageId.map fun s => sizeT s + 1).foldl max 0

/-- `pool_entry_bytes[s]` after the first `k` steps of the first loop: the largest
`GetDataSize` among the first `k` entries of storage id `s`, `0` when there is none. -/
def maxDataSize (attrs : GraphAttr) (vtype : List DLDataType) (k s : Nat) : Nat :=
  ((List.range k).map fun i =>
    if sizeT (attrs.storageId.getD i 0) = s then
      getDataSize (attrs.shape.getD i []) (vtype.getD i .float32) else 0).foldl max 0

theorem maxDataSize_succ (attrs : GraphAttr) (vtype : List DLDataType) (k s : Nat) :
    maxDataSize attrs vtype (k + 1) s = max (maxDataSize attrs vtype k s)
      (if sizeT (attrs.storageId.getD k 0) = s then
        getDataSize (attrs.shape.getD k []) (vtype.getD k .float32) else 0) := by
  rw [maxDataSize, maxDataSize, List.range_succ, List.map_append, List.foldl_append]
  rfl

/-- The first loop of `SetupStorage`, after `k` steps: one buffer per storage id met so far,
each as large as the largest entry of its id; every entry met has a non-negative storage id
and a type whose bit width is a multiple of 8. -/
theorem poolEntryBytes_spec {attrs : GraphAttr} {vtype : List DLDataType} {k : Nat}
    {peb : List Nat} (h : (List.range k).foldlM (poolEntryStep attrs vtype) [] = .ok peb) :
    peb.length = poolCount (attrs.storageId.take k) ∧
      (∀ s, peb.getD s 0 = maxDataSize attrs vtype k s) ∧
      ∀ i < k, ∃ sid t, attrs.storageId[i]? = some sid ∧ vtype[i]? = some t ∧ 0 ≤ sid ∧
        t.bits.toNat * t.lanes.toNat % 8 = 0 := by
  induction k generalizing peb with
  | zero =>
    simp only [List.range_zero, List.foldlM_nil, pure_eq_ok] at h
    subst h
    exact ⟨rfl, fun _ => rfl, fun i hi => absurd hi (Nat.not_lt_zero i)⟩
  | succ k ih =>
    rw [foldlM_range_succ, bind_eq_ok] at h
    obtain ⟨peb₀, h₀, hstep⟩ := h
    obtain ⟨hlen, hget, hents⟩ := ih h₀
    obtain ⟨sid, shape, t, hsid, hshape, ht, h0, hbits, rfl⟩ := poolEntryStep_eq_ok hstep
    have hgs : attrs.storageId.getD k 0 = sid := by
      simp only [List.getD_eq_getElem?_getD, hsid, Option.getD_some]
    have hgsh : attrs.shape.getD k [] = shape := by
      simp only [List.getD_eq_getElem?_getD, hshape, Option.getD_some]
    have hgt : vtype.getD k .float32 = t := by
      simp only [List.getD_eq_getElem?_getD, ht, Option.getD_some]
    refine ⟨?_, fun s => ?_, fun i hi => ?_⟩
    · simp only [length_raiseAt, hlen, poolCount, List.take_succ, hsid, Option.toList_some,
        List.map_append, List.map_cons, List.map_nil, List.foldl_append, List.foldl_cons,
        List.foldl_nil]
    · rw [getD_raiseAt, maxDataSize_succ, hgs, hgsh, hgt, hget]
      split_ifs with h1 h2 h2 <;> first | rfl | omega
    · rcases Nat.lt_succ_iff_lt_or_eq.mp hi with hi | rfl
      · exact hents i hi
      · exact ⟨sid, t, hsid, ht, h0, hbits⟩

theorem le_maxDataSize {attrs : GraphAttr} {vtype : List DLDataType} {k i s : Nat} (hi : i < k)
    (hs : sizeT (attrs.storageId.getD i 0) = s) :
    getDataSize (attrs.shape.getD i []) (vtype.getD i .float32) ≤ maxDataSize attrs vtype k s := by
  induction k with
  | zero => omega
  | succ k ih =>
    rw [maxDataSize_succ]
    rcases Nat.lt_succ_iff_lt_or_eq.mp hi with hi | rfl
    · exact le_trans (ih hi) (le_max_left _ _)
    · exact le_max_of_le_right (by rw [if_pos hs])

theorem maxDataSize_lt {attrs : GraphAttr} {vtype : List DLDataType} {k s B : Nat} (hB : 0 < B)
    (h : ∀ i < k, getDataSize (attrs.shape.getD i []) (vtype.getD i .float32) < B) :
    maxDataSize attrs vtype k s < B := by
  induction k with
  | zero => simpa [maxDataSize] using hB
  | succ k ih =>
    rw [maxDataSize_succ]
    refine max_lt (ih fun i hi => h i (by omega)) ?_
    split_ifs
    · exact h k (by omega)
    · exact hB

/-! ### The second and third loops -/

theorem vtypeOf_eq_ok {f : String → Option DLDataType} {dltype : List String}
    {vtype : List DLDataType} (h : vtypeOf f dltype = .ok vtype) :
    dltype.map f = vtype.map some := by
  induction dltype generalizing vtype with
  | nil =>
    simp only [vtypeOf, List.mapM_nil, pure_eq_ok] at h
    simp [← h]
  | cons s l ih =>
    simp only [vtypeOf, List.mapM_cons, bind_eq_ok, pure_eq_ok] at h
    obtain ⟨t, ht, ts, hts, rfl⟩ := h
    have hs : f s = some t := by cases hf : f s <;> simp_all
    simp [hs, ih hts]

theorem vtype_unique {f : String → Option DLDataType} {dltype : List String}
    {vtype vtype' : List DLDataType} (h : dltype.map f = vtype.map some)
    (h' : dltype.map f = vtype'.map some) : vtype = vtype' :=
  List.map_injective_iff.mpr (Option.some_injective _) (h.symm.trans h')

/-- The type of entry `i`, from a resolved `dltype` list. -/
theorem getD_of_map_eq_map_some {f : String → Option DLDataType} {dltype : List String}
    {vtype : List DLDataType} (hv : dltype.map f = vtype.map some) {i : Nat}
    (hi : i < dltype.length) : f (dltype.getD i "") = some (vtype.getD i .float32) := by
  have hlen : dltype.length = vtype.length := by simpa using congrArg List.length hv
  have := congrArg (·[i]?) hv
  simpa [List.getD_eq_getElem?_getD, List.getElem?_eq_getElem hi,
    List.getElem?_eq_getElem (hlen ▸ hi)] using this

theorem TVMArrayAlloc_eq_ok {i : Nat} {n : Int} {t : DLTensor} (h : TVMArrayAlloc i n = .ok t) :
    0 ≤ n ∧ t = ⟨i, [n], .float32⟩ := by
  unfold TVMArrayAlloc at h
  split_ifs at h with hn
  exact ⟨hn, (pure_eq_ok.mp h).symm⟩

/-- A pool buffer the allocator accepted, for a byte count below `2^64 - 6`: its extent is
`(M + 3) / 4`, the least multiple of 4 at least `M`, divided by 4. -/
theorem poolShape_eq {M : Nat} (h0 : 0 ≤ poolShape M) (hM : M < 2 ^ 64 - 6) :
    poolShape M = ((M + 3) / 4 : Nat) := by
  unfold poolShape int64OfSizeT at *
  rw [Nat.mod_eq_of_lt (by omega)] at *
  split_ifs at * with h
  · rw [Int.tdiv_eq_ediv (by omega) (by omega)]
    omega
  · exfalso
    have hneg : ((M + 3 : Nat) - 2 ^ 64 : Int) = -((2 ^ 64 - (M + 3) : Nat) : Int) := by omega
    rw [hneg, Int.neg_tdiv, Int.tdiv_eq_ediv (by omega) (by omega)] at h0
    omega

/-- The byte size of a pool buffer of extent `k < 2^62`: `4 k`. -/
theorem size_poolBuffer (s k : Nat) (hk : k < 2 ^ 62) :
    DLTensor.size ⟨s, [(k : Int)], .float32⟩ = 4 * k := by
  have h4 : DLDataType.float32.elemBytes = 4 := rfl
  simp only [DLTensor.size, getDataSize, shapeProduct, List.foldl, h4, sizeT]
  omega

theorem dataEntryAt_eq_ok {attrs : GraphAttr} {vtype : List DLDataType}
    {pool : List DLTensor} {i : Nat} {t : DLTensor}
    (h : dataEntryAt attrs vtype pool i = .ok t) :
    ∃ sid p shape dtype, attrs.storageId[i]? = some sid ∧ pool[sizeT sid]? = some p ∧
      attrs.shape[i]? = some shape ∧ vtype[i]? = some dtype ∧ t = { p with shape, dtype } := by
  simp only [dataEntryAt, bind_eq_ok, vecAt_eq_ok, check_eq_ok, pure_eq_ok] at h
  obtain ⟨sid, hsid, ⟨⟩, -, p, hp, shape, hshape, dtype, hdtype, rfl⟩ := h
  exact ⟨sid, p, shape, dtype, hsid, hp, hshape, hdtype, rfl⟩

/-- `SetupStorage` is its three loops. -/
theorem setupStorage_eq_ok {f : String → Option DLDataType} {g : Graph}
    {pool entries : List DLTensor} (h : setupStorage f g = .ok (pool, entries)) :
    ∃ vtype n peb, vtypeOf f g.attrs.dltype = .ok vtype ∧ g.numNodeEntries = .ok n ∧
      (List.range g.attrs.shape.length).foldlM (poolEntryStep g.attrs vtype) [] = .ok peb ∧
      (List.range peb.length).mapM (fun s => TVMArrayAlloc s (poolShape (peb.getD s 0))) =
        .ok pool ∧
      (List.range n).mapM (dataEntryAt g.attrs vtype pool) = .ok entries := by
  simp only [setupStorage, bind_eq_ok, pure_eq_ok, Prod.mk.injEq] at h
  obtain ⟨vtype, hv, n, hn, peb, hpeb, pool', hpool, entries', hent, rfl, rfl⟩ := h
  exact ⟨vtype, n, peb, hv, hn, hpeb, hpool, hent⟩

/-- The view the plan gives entry `i`: pool buffer `storage_id[i]`, with the entry's shape and
its type in `vtype`. -/
def planView (attrs : GraphAttr) (vtype : List DLDataType) (i : Nat) : DLTensor :=
  ⟨sizeT (attrs.storageId.getD i 0), attrs.shape.getD i [], vtype.getD i .float32⟩

section SetupStorageSpec

variable {f : String → Option DLDataType} {g : Graph} {pool entries : List DLTensor}
  {vtype : List DLDataType}

/-- A completed `SetupStorage` resolved every `dltype`. -/
theorem setupStorage_types (h : setupStorage f g = .ok (pool, entries)) :
    ∃ vtype : List DLDataType, g.attrs.dltype.map f = vtype.map some := by
  obtain ⟨vtype, -, -, hv, -⟩ := setupStorage_eq_ok h
  exact ⟨vtype, vtypeOf_eq_ok hv⟩

variable (h : setupStorage f g = .ok (pool, entries)) (hv : g.attrs.dltype.map f = vtype.map some)
include h hv

/-- The entries the first loop of `SetupStorage` meets have non-negative storage ids and types
whose bit widths are multiples of 8. -/
theorem setupStorage_checks : ∀ i < g.attrs.shape.length, 0 ≤ g.attrs.storageId.getD i 0 ∧
    (vtype.getD i .float32).bits.toNat * (vtype.getD i .float32).lanes.toNat % 8 = 0 := by
  obtain ⟨vtype', n, peb, hv', -, hpeb, -, -⟩ := setupStorage_eq_ok h
  obtain rfl := vtype_unique hv (vtypeOf_eq_ok hv')
  intro i hi
  obtain ⟨sid, t, hsid, ht, h0, hbits⟩ := (poolEntryBytes_spec hpeb).2.2 i hi
  simpa [List.getD_eq_getElem?_getD, hsid, ht] using And.intro h0 hbits

/-- The pool buffers `SetupStorage` allocates: buffer `s` is one-dimensional `float32`, of
the extent `poolShape` gives for the largest entry of storage id `s`. -/
theorem setupStorage_pool :
    pool = (List.range (poolCount (g.attrs.storageId.take g.attrs.shape.length))).map
        (fun s => ⟨s, [poolShape (maxDataSize g.attrs vtype g.attrs.shape.length s)], .float32⟩) ∧
      ∀ s < pool.length, 0 ≤ poolShape (maxDataSize g.attrs vtype g.attrs.shape.length s) := by
  obtain ⟨vtype', n, peb, hv', -, hpeb, hpool, -⟩ := setupStorage_eq_ok h
  obtain rfl := vtype_unique hv (vtypeOf_eq_ok hv')
  obtain ⟨hlen, hget, -⟩ := poolEntryBytes_spec hpeb
  obtain ⟨hplen, hp⟩ := mapM_range_eq_ok hpool
  refine ⟨?_, fun s hs => ?_⟩
  · rw [← hlen]
    exact eq_map_of_mapM_range hpool fun s _ t ht => by
      rw [(TVMArrayAlloc_eq_ok ht).2, hget]
  · rw [← hget]
    exact (TVMArrayAlloc_eq_ok (hp s hs)).1

/-- The views `SetupStorage` assigns: entry `i` gets `planView`, and its storage id names an
allocated buffer. -/
theorem setupStorage_dataEntry :
    ∃ n, g.numNodeEntries = .ok n ∧ entries = (List.range n).map (planView g.attrs vtype) ∧
      ∀ i < n, i < g.attrs.storageId.length ∧ i < g.attrs.shape.length ∧ i < vtype.length ∧
        sizeT (g.attrs.storageId.getD i 0) < pool.length := by
  obtain ⟨vtype', n, peb, hv', hn, -, hpool, hent⟩ := setupStorage_eq_ok h
  obtain rfl := vtype_unique hv (vtypeOf_eq_ok hv')
  have hdata : ∀ s (hs : s < pool.length), pool[s].data = s := by
    obtain ⟨hplen, hp⟩ := mapM_range_eq_ok hpool
    intro s hs
    rw [(TVMArrayAlloc_eq_ok (hp s hs)).2]
  obtain ⟨hlen, hents⟩ := mapM_range_eq_ok hent
  refine ⟨n, hn, eq_map_of_mapM_range hent fun i _ t ht => ?_, fun i hi => ?_⟩
  · obtain ⟨sid, p, shape, dtype, hsid, hp, hshape, hdtype, rfl⟩ := dataEntryAt_eq_ok ht
    obtain ⟨hs, rfl⟩ := List.getElem?_eq_some_iff.mp hp
    simp [planView, List.getD_eq_getElem?_getD, hsid, hshape, hdtype, hdata]
  · obtain ⟨sid, p, shape, dtype, hsid, hp, hshape, hdtype, -⟩ :=
      dataEntryAt_eq_ok (hents i (by omega))
    refine ⟨(List.getElem?_eq_some_iff.mp hsid).1, (List.getElem?_eq_some_iff.mp hshape).1,
      (List.getElem?_eq_some_iff.mp hdtype).1, ?_⟩
    simpa [List.getD_eq_getElem?_getD, hsid] using (List.getElem?_eq_some_iff.mp hp).1

end SetupStorageSpec

/-- After `SetupStorage`, when every view's byte size is below `2^64 - 6`, every view lies
inside its pool buffer. -/
theorem size_le_of_setupStorage {f : String → Option DLDataType} {g : Graph}
    {pool entries : List DLTensor} (h : setupStorage f g = .ok (pool, entries))
    (hn : g.numNodeEntries = .ok g.attrs.shape.length) (hsz : ∀ e ∈ entries, e.size < 2 ^ 64 - 6) :
    ∀ e ∈ entries, ∃ p ∈ pool, p.data = e.data ∧ e.size ≤ p.size := by
  obtain ⟨vtype, hv⟩ := setupStorage_types h
  obtain ⟨n, hn', rfl, hb⟩ := setupStorage_dataEntry h hv
  obtain ⟨hpool, h0⟩ := setupStorage_pool h hv
  obtain rfl : n = g.attrs.shape.length := by simpa [hn] using hn'.symm
  have hlt : ∀ i < g.attrs.shape.length,
      getDataSize (g.attrs.shape.getD i []) (vtype.getD i .float32) < 2 ^ 64 - 6 :=
    fun i hi => hsz _ (List.mem_map.mpr ⟨i, List.mem_range.mpr hi, rfl⟩)
  intro e he
  obtain ⟨i, hi, rfl⟩ := List.mem_map.mp he
  have hi := List.mem_range.mp hi
  set s := sizeT (g.attrs.storageId.getD i 0)
  set M := maxDataSize g.attrs vtype g.attrs.shape.length s
  have hs : s < pool.length := (hb i hi).2.2.2
  have hM : M < 2 ^ 64 - 6 := maxDataSize_lt (by norm_num) hlt
  have hshape := poolShape_eq (h0 s hs) hM
  refine ⟨pool[s], List.getElem_mem hs, by simp [hpool, planView, s], ?_⟩
  simp only [hpool, List.getElem_map, List.getElem_range, hshape]
  rw [size_poolBuffer _ _ (by omega)]
  have : getDataSize (g.attrs.shape.getD i []) (vtype.getD i .float32) ≤ M :=
    le_maxDataSize hi rfl
  simp only [planView, DLTensor.size]
  omega

/-- On a well-formed graph `SetupStorage` gives one view per entry. -/
theorem length_of_setupStorage {f : String → Option DLDataType} {g : Graph} (hg : g.WellFormed)
    {pool entries : List DLTensor} (hs : setupStorage f g = .ok (pool, entries)) :
    entries.length = g.totalEntries := by
  obtain ⟨vtype, hv⟩ := setupStorage_types hs
  obtain ⟨n, hn, rfl, -⟩ := setupStorage_dataEntry hs hv
  simpa [Graph.numNodeEntries_eq hg] using hn.symm

/-! ### Pool sizes against exact byte sizes -/

/-- The exact byte size of an entry: `bits * lanes / 8` times the product of its extents. -/
def exactBytes (t : DLDataType) (shape : List Int) : Int :=
  ((t.bits.toNat * t.lanes.toNat / 8 : Nat) : Int) * shape.prod

/-- The exact byte size is `GetDataSize` when the extents are non-negative, the bit width is a
multiple of 8 and nothing wraps. -/
theorem getDataSize_eq_exactBytes {shape : List Int} {t : DLDataType}
    (hdims : ∀ d ∈ shape, 0 ≤ d) (hbits : t.bits.toNat * t.lanes.toNat % 8 = 0)
    (hlt : exactBytes t shape < 2 ^ 64) : (getDataSize shape t : Int) = exactBytes t shape := by
  have hp : 0 ≤ shape.prod := List.prod_nonneg hdims
  unfold getDataSize exactBytes at *
  rw [DLDataType.elemBytes_of_dvd hbits]
  rcases Nat.eq_zero_or_pos (t.bits.toNat * t.lanes.toNat / 8) with hb | hb
  · simp [hb]
  · have hprod : shape.prod < 2 ^ 64 :=
      lt_of_le_of_lt (le_mul_of_one_le_left hp (by exact_mod_cast hb)) hlt
    push_cast [shapeProduct_of_lt hp hprod]
    rw [Int.emod_eq_of_lt (by positivity) (by rwa [mul_comm])]
    ring

/-- `M_s`: the largest exact byte size among the entries of storage id `s`, their types taken
from `types`; `0` when there is none. -/
def maxExactBytes (types : List DLDataType) (attrs : GraphAttr) (s : Nat) : Int :=
  ((List.range attrs.storageId.length).map fun i =>
    if sizeT (attrs.storageId.getD i 0) = s then
      exactBytes (types.getD i .float32) (attrs.shape.getD i []) else 0).foldl max 0

private theorem maxDataSize_eq_maxExact {attrs : GraphAttr} {vtype : List DLDataType}
    {k s : Nat} (h : ∀ i < k, (getDataSize (attrs.shape.getD i []) (vtype.getD i .float32) : Int) =
      exactBytes (vtype.getD i .float32) (attrs.shape.getD i [])) :
    (maxDataSize attrs vtype k s : Int) = ((List.range k).map fun i =>
      if sizeT (attrs.storageId.getD i 0) = s then
        exactBytes (vtype.getD i .float32) (attrs.shape.getD i []) else 0).foldl max 0 := by
  induction k with
  | zero => simp [maxDataSize]
  | succ k ih =>
    rw [maxDataSize_succ, List.range_succ, List.map_append, List.foldl_append,
      ← ih fun i hi => h i (by omega)]
    simp only [List.map_cons, List.map_nil, List.foldl_cons, List.foldl_nil, Nat.cast_max]
    split_ifs
    · rw [h k (by omega)]
    · simp

/-- `SetupStorage` on a plan whose three arrays have one element per entry, whose extents are
non-negative and whose entries' exact byte sizes are below `2^64 - 6`: one pool buffer per
storage id up to the largest, buffer `s` holding `(M_s + 3) / 4` floats, the least multiple of
4 bytes at least `M_s`; entry `i` viewing buffer `storage_id[i]` with its own shape and type,
inside the buffer. -/
theorem setupStorage_pool_sizes {f : String → Option DLDataType} {g : Graph}
    {pool entries : List DLTensor} {n : Nat} (h : setupStorage f g = .ok (pool, entries))
    (hn : g.numNodeEntries = .ok n) (hsid : g.attrs.storageId.length = n)
    (hdl : g.attrs.dltype.length = n) (hsh : g.attrs.shape.length = n)
    (hdims : ∀ shape ∈ g.attrs.shape, ∀ d ∈ shape, 0 ≤ d)
    (hexact : ∀ i < n, ∀ t, f (g.attrs.dltype.getD i "") = some t →
      exactBytes t (g.attrs.shape.getD i []) < 2 ^ 64 - 6) :
    ∃ types, g.attrs.dltype.map f = types.map some ∧
      pool = (List.range (poolCount g.attrs.storageId)).map
        (fun s => ⟨s, [(maxExactBytes types g.attrs s + 3) / 4], .float32⟩) ∧
      entries = (List.range n).map (planView g.attrs types) ∧
      ∀ e ∈ entries, ∃ p ∈ pool, p.data = e.data ∧ e.size ≤ p.size := by
  obtain ⟨vtype, hv⟩ := setupStorage_types h
  obtain ⟨n', hn', hent, -⟩ := setupStorage_dataEntry h hv
  obtain rfl : n = n' := by simpa [hn] using hn'
  obtain ⟨hpool, h0⟩ := setupStorage_pool h hv
  have hchk := setupStorage_checks h hv
  -- every entry's `GetDataSize` is its exact size, below `2^64 - 6`
  have hexact' : ∀ i < n,
      exactBytes (vtype.getD i .float32) (g.attrs.shape.getD i []) < 2 ^ 64 - 6 :=
    fun i hi => hexact i hi _ (getD_of_map_eq_map_some hv (hdl ▸ hi))
  have hsize : ∀ i < n, (getDataSize (g.attrs.shape.getD i []) (vtype.getD i .float32) : Int) =
      exactBytes (vtype.getD i .float32) (g.attrs.shape.getD i []) := by
    intro i hi
    refine getDataSize_eq_exactBytes (hdims _ ?_) (hchk i (hsh ▸ hi)).2
      (by have := hexact' i hi; omega)
    simp [List.getD_eq_getElem?_getD, List.getElem?_eq_getElem (hsh ▸ hi)]
  have hlt : ∀ i < n, getDataSize (g.attrs.shape.getD i []) (vtype.getD i .float32) < 2 ^ 64 - 6 :=
    fun i hi => by have := hsize i hi; have := hexact' i hi; omega
  refine ⟨vtype, hv, ?_, hent, size_le_of_setupStorage h (hsh ▸ hn) ?_⟩
  · have hpool' : pool = (List.range (poolCount g.attrs.storageId)).map
        (fun s => ⟨s, [poolShape (maxDataSize g.attrs vtype n s)], .float32⟩) := by
      rw [hpool, hsh, List.take_of_length_le (Nat.le_of_eq hsid)]
    rw [hpool']
    refine List.map_congr_left fun s hs => ?_
    have hs' : s < pool.length := by simpa [hpool'] using hs
    have hM : maxDataSize g.attrs vtype n s < 2 ^ 64 - 6 := maxDataSize_lt (by norm_num) hlt
    have heq : (maxDataSize g.attrs vtype n s : Int) = maxExactBytes vtype g.attrs s := by
      rw [maxExactBytes, hsid]
      exact maxDataSize_eq_maxExact hsize
    rw [poolShape_eq (hsh ▸ h0 s hs') hM]
    simp only [DLTensor.mk.injEq, List.cons.injEq, and_true, true_and]
    omega
  · rw [hent]
    intro e he
    obtain ⟨i, hi, rfl⟩ := List.mem_map.mp he
    exact hlt i (List.mem_range.mp hi)

/-- Two `float32` inputs, of 16 and 64 bytes, sharing storage id 0. -/
def sharedGraph : Graph :=
  ⟨[⟨"null", "a", none, [], []⟩, ⟨"null", "b", none, [], []⟩], [0, 1], [0, 1, 2], [],
    ⟨[0, 0], ["float32", "float32"], [[4], [16]]⟩⟩

/-- On `sharedGraph` one buffer of 16 floats holds both views. -/
theorem setupStorage_pool_sizes_sharedGraph :
    setupStorage (fun s => if s = "float32" then some .float32 else none) sharedGraph =
        .ok ([⟨0, [16], .float32⟩], [⟨0, [4], .float32⟩, ⟨0, [16], .float32⟩]) ∧
      ∃ types, sharedGraph.attrs.dltype.map
          (fun s => if s = "float32" then some .float32 else none) = types.map some ∧
        ([⟨0, [16], .float32⟩] : List DLTensor) =
          (List.range (poolCount sharedGraph.attrs.storageId)).map
            (fun s => ⟨s, [(maxExactBytes types sharedGraph.attrs s + 3) / 4], .float32⟩) ∧
        [⟨0, [4], .float32⟩, ⟨0, [16], .float32⟩] =
          (List.range 2).map (planView sharedGraph.attrs types) ∧
        ∀ e ∈ [⟨0, [4], .float32⟩, ⟨0, [16], .float32⟩], ∃ p ∈ [⟨0, [16], .float32⟩],
          DLTensor.data p = DLTensor.data e ∧ e.size ≤ p.size := by
  have h : setupStorage (fun s => if s = "float32" then some .float32 else none) sharedGraph =
      .ok ([⟨0, [16], .float32⟩], [⟨0, [4], .float32⟩, ⟨0, [16], .float32⟩]) := by decide
  refine ⟨h, setupStorage_pool_sizes (n := 2) h (by decide) rfl rfl rfl (by decide) ?_⟩
  intro i hi t ht
  interval_cases i <;> simp [sharedGraph] at ht <;> subst ht <;> decide

/-- A one-entry graph whose `uint8` entry has `2^32 * 2^32` elements. -/
def wideGraph : Graph :=
  ⟨[⟨"null", "x", none, [], []⟩], [0], [0, 1], [⟨0, 0, 0⟩], ⟨[0], ["uint8"], [[2 ^ 32, 2 ^ 32]]⟩⟩

/-- `SetupStorage` completes on `wideGraph`, giving pool buffer 0 no element, where the least
multiple of 4 bytes at least the `2^64` bytes of its entry would be `2^62` floats. -/
theorem setupStorage_wideGraph :
    setupStorage (fun s => if s = "uint8" then some ⟨1, 8, 1⟩ else none) wideGraph =
        .ok ([⟨0, [0], .float32⟩], [⟨0, [2 ^ 32, 2 ^ 32], ⟨1, 8, 1⟩⟩]) ∧
      maxExactBytes [⟨1, 8, 1⟩] wideGraph.attrs 0 = 2 ^ 64 ∧
      (maxExactBytes [⟨1, 8, 1⟩] wideGraph.attrs 0 + 3) / 4 = 2 ^ 62 := by
  decide

end TvmGraphRuntime
