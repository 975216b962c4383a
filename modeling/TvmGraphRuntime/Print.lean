import TvmGraphRuntime.Executor

/-!
# Printing and checking a tensor's data

`GraphRuntime::PrintDlTensor` and `GraphRuntime::CheckNanOrInf`, the two debugging helpers
that read a caller's tensor: `GetOutput` prints `data_out` after its copy, and `DebugRun`
prints every debug buffer after its copy and checks it with `CHECK_NONE`. Both compute the
byte size of the tensor as `GetDataSize` does, and read the data as an array of `float`s:
float `i` is the four bytes from `4 * i` (`readFloat32`), and reading one that does not lie
within the data is undefined behaviour.

Both loops bound a float index by the byte size, not by the number of floats:

* `PrintDlTensor` reads the floats `0 .. min 10 size - 1`. **`printDlTensor_eq_ok`**: it stays
  within the data iff the tensor has no bytes or at least 40.
* `CheckNanOrInf` with a flag other than `CHECK_NONE` reads the floats `0 .. size - 1` until
  one is a NaN or an infinity. **`checkNanOrInf_ok_iff`**: it stays within the data iff the
  flag is `CHECK_NONE`, the tensor has no bytes, or one of its whole floats is a NaN or an
  infinity.
* `getOutputPrinted` and `debugRunPrinted` are `GetOutput` and `DebugRun` with these calls.
  **`getOutputPrinted_eq_ok`** and **`debugRunPrinted_eq_ok`**: they do what `getOutput` and
  `debugRun` do, as long as `PrintDlTensor` stays within every caller's tensor it prints.
* **`debugRun_debugDoc`**: with debug buffers of 40 bytes, within which every print stays,
  `DebugRun` completes on a graph with a two-output node, and after node 2 copies entry 2,
  not node 2's output `entry_id(2, 0) = 3`.
-/

namespace TvmGraphRuntime

/-! ### Reading a float -/

/-- `CHECK_NONE`: `CheckNanOrInf` returns at once. -/
def checkNone : Int := 0

/-- `CHECK_NAN`. -/
def checkNan : Int := 1

/-- `CHECK_INF`. -/
def checkInf : Int := 2

/-- The bits of a `float` stored in four bytes, the least significant first. -/
def float32Bits (bytes : List UInt8) : Nat :=
  bytes.foldr (fun b acc => b.toNat + 256 * acc) 0

/-- Float `i` of the data: the four bytes from `4 * i`. -/
def floatAt (data : List UInt8) (i : Nat) : Nat := float32Bits ((data.drop (4 * i)).take 4)

/-- `((float *)data)[i]`: undefined past the end of the data. -/
def readFloat32 (data : List UInt8) (i : Nat) : Result Nat :=
  if 4 * (i + 1) ≤ data.length then pure (floatAt data i)
  else throw (.undefined "read past the end of a tensor's data")

/-- `std::isnan` of a `float`: every exponent bit set and a fraction other than zero. -/
def isNaN32 (bits : Nat) : Bool := bits / 2 ^ 23 % 2 ^ 8 == 2 ^ 8 - 1 && bits % 2 ^ 23 != 0

/-- `std::isinf` of a `float`: every exponent bit set and a zero fraction. -/
def isInf32 (bits : Nat) : Bool := bits / 2 ^ 23 % 2 ^ 8 == 2 ^ 8 - 1 && bits % 2 ^ 23 == 0

theorem readFloat32_eq_ok {data : List UInt8} {i v : Nat} :
    readFloat32 data i = .ok v ↔ 4 * (i + 1) ≤ data.length ∧ v = floatAt data i := by
  unfold readFloat32
  by_cases h : 4 * (i + 1) ≤ data.length
  · simp only [h, if_true, pure_eq_ok, true_and]
    exact eq_comm
  · simp [h]

/-- The floats `0 .. k - 1` lie within the data iff its first `4 * k` bytes do. -/
theorem mapM_readFloat32 (data : List UInt8) (k : Nat) (vs : List Nat) :
    (List.range k).mapM (readFloat32 data) = .ok vs ↔
      4 * k ≤ data.length ∧ vs = (List.range k).map (floatAt data) := by
  rw [mapM_eq_ok_iff (fun _ _ => readFloat32_eq_ok)]
  simp only [List.mem_range]
  constructor
  · rintro ⟨h, rfl⟩
    refine ⟨?_, rfl⟩
    rcases k with _ | k
    · omega
    · exact h k (by omega)
  · rintro ⟨h, rfl⟩
    exact ⟨fun i hi => by omega, rfl⟩

/-- The byte size of a caller's tensor, `GetDataSize` of its descriptor. -/
def HostTensor.size (t : HostTensor) : Nat := getDataSize t.shape t.dtype

/-! ### `PrintDlTensor` -/

/-- What `PrintDlTensor` prints: `ndim`, the extents, the type, and the floats it reads. -/
structure Printout where
  ndim : Nat
  shape : List Int
  dtype : DLDataType
  values : List Nat
  deriving DecidableEq, Repr

/-- `GraphRuntime::PrintDlTensor(data)`: `size` is the product `GetDataSize` computes, and the
loop `for (i = 0; i < 10 && i < size; ++i)` reads float `i`. -/
def printDlTensor (t : HostTensor) : Result Printout := do
  let size := getDataSize t.shape t.dtype
  let values ← (List.range (min 10 size)).mapM (readFloat32 t.bytes)
  pure ⟨t.shape.length, t.shape, t.dtype, values⟩

/-- `PrintDlTensor` stays within the tensor's data iff the tensor has no bytes or at least 40;
it then prints its first `min 10 size` floats. -/
theorem printDlTensor_eq_ok (t : HostTensor) (p : Printout) :
    printDlTensor t = .ok p ↔ (t.size = 0 ∨ 40 ≤ t.size) ∧
      p = ⟨t.shape.length, t.shape, t.dtype, (List.range (min 10 t.size)).map (floatAt t.bytes)⟩ := by
  have hlen : t.bytes.length = t.size := t.bytes_length
  simp only [printDlTensor, bind_eq_ok, pure_eq_ok, mapM_readFloat32, hlen, HostTensor.size]
  constructor
  · rintro ⟨_, ⟨h, rfl⟩, rfl⟩
    exact ⟨by omega, rfl⟩
  · rintro ⟨h, rfl⟩
    exact ⟨_, ⟨by omega, rfl⟩, rfl⟩

/-! ### `CheckNanOrInf` -/

/-- What `CheckNanOrInf` reports: the index and the bits of the NaN or infinity it found. -/
inductive Finding where
  | nan (index val : Nat)
  | inf (index val : Nat)
  deriving DecidableEq, Repr

/-- One test of the loop of `CheckNanOrInf`: when `enabled`, read float `i` and report it if
`test` holds of it. -/
def testFloat (enabled : Bool) (test : Nat → Bool) (found : Nat → Finding) (data : List UInt8)
    (i : Nat) : Result (Option Finding) :=
  if enabled then do
    let v ← readFloat32 data i
    pure (if test v then some (found v) else none)
  else pure none

/-- The loop of `CheckNanOrInf` over the indices `is`: the NaN test, then the infinity test,
each enabled by `check_flag && CHECK_NAN` or `check_flag && CHECK_INF` (a logical and); the
first finding ends the loop. -/
def checkFloats (data : List UInt8) (checkFlag : Int) : List Nat → Result (Option Finding)
  | [] => pure none
  | i :: is => do
    match ← testFloat (checkFlag != 0 && checkNan != 0) isNaN32 (.nan i) data i with
    | some f => pure (some f)
    | none =>
      match ← testFloat (checkFlag != 0 && checkInf != 0) isInf32 (.inf i) data i with
      | some f => pure (some f)
      | none => checkFloats data checkFlag is

/-- `GraphRuntime::CheckNanOrInf(data, check_flag)`: nothing with `CHECK_NONE`, else the loop
over `i < size`, `size` the product `GetDataSize` computes. -/
def checkNanOrInf (t : HostTensor) (checkFlag : Int) : Result (Option Finding) :=
  if checkFlag = checkNone then pure none
  else checkFloats t.bytes checkFlag (List.range (getDataSize t.shape t.dtype))

/-- Float `i` of the data is a NaN or an infinity. -/
def nanOrInfAt (data : List UInt8) (i : Nat) : Bool :=
  isNaN32 (floatAt data i) || isInf32 (floatAt data i)

section Loop

variable {data : List UInt8} {checkFlag : Int}

/-- One index of the loop: float `i` must lie within the data, and the loop goes on unless
it is a NaN or an infinity. -/
theorem checkFloats_cons_ok (hflag : checkFlag ≠ 0) (i : Nat) (is : List Nat) :
    (∃ r, checkFloats data checkFlag (i :: is) = .ok r) ↔
      4 * (i + 1) ≤ data.length ∧ (nanOrInfAt data i ∨ ∃ r, checkFloats data checkFlag is = .ok r) := by
  have hnan : (checkFlag != 0 && checkNan != 0) = true := by simp [hflag, checkNan]
  have hinf : (checkFlag != 0 && checkInf != 0) = true := by simp [hflag, checkInf]
  by_cases hi : 4 * (i + 1) ≤ data.length
  · have hread : readFloat32 data i = .ok (floatAt data i) := readFloat32_eq_ok.mpr ⟨hi, rfl⟩
    simp only [checkFloats, testFloat, hnan, hinf, if_true, hread, ok_bind, nanOrInfAt, hi,
      true_and]
    cases isNaN32 (floatAt data i) <;> cases isInf32 (floatAt data i) <;>
      simp only [Bool.false_eq_true, ↓reduceIte, pure_bind, pure_eq_ok, exists_eq', Bool.or_self,
        Bool.or_true, Bool.or_false, true_or, false_or]
  · have hread : ∀ v, readFloat32 data i ≠ .ok v := fun v h => hi (readFloat32_eq_ok.mp h).1
    simp only [checkFloats, testFloat, hnan, if_true, bind_eq_ok, hread, false_and, exists_false,
      hi]

/-- The loop over the indices `a .. a + m - 1` stays within the data iff it has no index, its
last float lies within the data, or one of its floats within the data is a NaN or an
infinity. -/
theorem checkFloats_range'_ok (hflag : checkFlag ≠ 0) (a m : Nat) :
    (∃ r, checkFloats data checkFlag (List.range' a m) = .ok r) ↔
      m = 0 ∨ 4 * (a + m) ≤ data.length ∨
        ∃ i, a ≤ i ∧ i < a + m ∧ 4 * (i + 1) ≤ data.length ∧ nanOrInfAt data i := by
  induction m generalizing a with
  | zero => exact iff_of_true ⟨none, rfl⟩ (.inl rfl)
  | succ m ih =>
    rw [List.range'_succ, checkFloats_cons_ok hflag, ih]
    constructor
    · rintro ⟨ha, hnan | rfl | hlast | ⟨i, hai, him, hi, hnan⟩⟩
      · exact .inr (.inr ⟨a, le_rfl, by omega, ha, hnan⟩)
      · exact .inr (.inl (by omega))
      · exact .inr (.inl (by omega))
      · exact .inr (.inr ⟨i, by omega, by omega, hi, hnan⟩)
    · rintro (h | hlast | ⟨i, hai, him, hi, hnan⟩)
      · omega
      · exact ⟨by omega, .inr (.inr (.inl (by omega)))⟩
      · refine ⟨by omega, ?_⟩
        rcases Nat.eq_or_lt_of_le hai with rfl | hlt
        · exact .inl hnan
        · exact .inr (.inr (.inr ⟨i, hlt, by omega, hi, hnan⟩))

end Loop

/-- `CheckNanOrInf` stays within the tensor's data iff the flag is `CHECK_NONE`, the tensor has
no bytes, or one of its whole floats is a NaN or an infinity. -/
theorem checkNanOrInf_ok_iff (t : HostTensor) (checkFlag : Int) :
    (∃ r, checkNanOrInf t checkFlag = .ok r) ↔
      checkFlag = checkNone ∨ t.size = 0 ∨ ∃ i, 4 * (i + 1) ≤ t.size ∧ nanOrInfAt t.bytes i := by
  have hlen : t.bytes.length = t.size := t.bytes_length
  unfold checkNanOrInf
  by_cases hflag : checkFlag = checkNone
  · exact iff_of_true ⟨none, by rw [if_pos hflag]; rfl⟩ (.inl hflag)
  · have hflag' : checkFlag ≠ 0 := hflag
    rw [if_neg hflag, List.range_eq_range', checkFloats_range'_ok hflag', hlen,
      show getDataSize t.shape t.dtype = t.size from rfl]
    simp only [hflag, false_or, Nat.zero_add, zero_le, true_and]
    constructor
    · rintro (h | h | ⟨i, -, hi, hnan⟩)
      · exact .inl h
      · exact .inl (by omega)
      · exact .inr ⟨i, hi, hnan⟩
    · rintro (h | ⟨i, hi, hnan⟩)
      · exact .inl h
      · exact .inr (.inr ⟨i, by omega, hi, hnan⟩)

/-! ### The calls of `GetOutput` and `DebugRun` -/

/-- The byte size of a caller's tensor is a function of its layout. -/
theorem map_size_eq (l : List HostTensor) :
    l.map HostTensor.size = (l.map HostTensor.layout).map fun p => getDataSize p.1 p.2 := by
  rw [List.map_map]
  rfl

theorem size_of_copyToHost {mem : Pool} {src : DLTensor} {dst t : HostTensor}
    (h : copyToHost mem src dst = .ok t) : t.size = dst.size :=
  congrArg (fun p : List Int × DLDataType => getDataSize p.1 p.2) (layout_of_copyToHost h)

namespace GraphRuntime

variable (rt : GraphRuntime)

/-- `GraphRuntime::GetOutput(index, data_out)` to its end: the copy, then
`PrintDlTensor(data_out)`. Its `printf`s and `DumpGraphRuntime` read no tensor data. -/
def getOutputPrinted (mem : Pool) (index : Int) (dataOut : HostTensor) :
    Result (HostTensor × Printout) := do
  let out ← rt.getOutput mem index dataOut
  pure (out, ← printDlTensor out)

/-- The body of the loop of `DebugRun` to its end: `debugStep`, then
`PrintDlTensor(debug_buffers_[i])` and `CheckNanOrInf(debug_buffers_[i], CHECK_NONE)`. -/
def debugStepPrinted (buffers : List Nat) (st : Pool × List HostTensor) (i : Nat) :
    Result (Pool × List HostTensor) := do
  let st ← rt.debugStep buffers st i
  let buffer ← deref st.2 (← vecAt buffers i "debug_buffers_")
  let _ ← printDlTensor buffer
  let _ ← checkNanOrInf buffer checkNone
  pure st

/-- `GraphRuntime::DebugRun` with the calls of its loop that read the debug buffers. -/
def debugRunPrinted (mem : Pool) (host : List HostTensor) (buffers : List Nat) :
    Result (Pool × List HostTensor) :=
  (List.range rt.opExecs.length).foldlM (rt.debugStepPrinted buffers) (mem, host)

variable {rt} {buffers : List Nat}

theorem size_of_getOutput {mem : Pool} {index : Int} {dataOut out : HostTensor}
    (h : rt.getOutput mem index dataOut = .ok out) : out.size = dataOut.size := by
  simp only [getOutput, bind_eq_ok] at h
  obtain ⟨_, -, _, -, _, -, _, -, h⟩ := h
  exact size_of_copyToHost h

/-- `GetOutput` with its print succeeds iff the copy does and `PrintDlTensor` stays within
`data_out`: iff `data_out` has no bytes or at least 40. -/
theorem getOutputPrinted_eq_ok (mem : Pool) (index : Int) (dataOut out : HostTensor)
    (p : Printout) :
    rt.getOutputPrinted mem index dataOut = .ok (out, p) ↔
      rt.getOutput mem index dataOut = .ok out ∧ (dataOut.size = 0 ∨ 40 ≤ dataOut.size) ∧
        p = ⟨out.shape.length, out.shape, out.dtype,
          (List.range (min 10 out.size)).map (floatAt out.bytes)⟩ := by
  simp only [getOutputPrinted, bind_eq_ok, pure_eq_ok, Prod.mk.injEq]
  constructor
  · rintro ⟨out, hout, p, hp, rfl, rfl⟩
    rw [printDlTensor_eq_ok] at hp
    exact ⟨hout, size_of_getOutput hout ▸ hp.1, hp.2⟩
  · rintro ⟨hout, hsize, rfl⟩
    rw [← size_of_getOutput hout] at hsize
    exact ⟨out, hout, _, (printDlTensor_eq_ok out _).mpr ⟨hsize, rfl⟩, rfl, rfl⟩

/-- A debug step keeps the byte size of every caller's tensor, and debug buffer `i` points to
one of them. -/
theorem debugStep_sizes {st st' : Pool × List HostTensor} {i : Nat}
    (h : rt.debugStep buffers st i = .ok st') :
    st'.2.map HostTensor.size = st.2.map HostTensor.size ∧
      ∃ ptr b, buffers[i]? = some ptr ∧ st'.2[ptr]? = some b := by
  refine ⟨by rw [map_size_eq, map_size_eq, debugStep_layout h], ?_⟩
  obtain ⟨_, _, ptr, _, out, -, -, -, hptr, hdst, -, rfl⟩ := debugStep_eq_ok h
  exact ⟨ptr, out, hptr, List.getElem?_set_self (List.getElem?_eq_some_iff.mp hdst).1⟩

/-- `PrintDlTensor` stays within the caller's tensor that debug buffer `i` points to, if there
is one. -/
def PrintsWithin (buffers : List Nat) (host : List HostTensor) (i : Nat) : Prop :=
  ∀ ptr b, buffers[i]? = some ptr → host[ptr]? = some b → b.size = 0 ∨ 40 ≤ b.size

theorem printsWithin_of_sizes {host host' : List HostTensor} {i : Nat}
    (h : host'.map HostTensor.size = host.map HostTensor.size) :
    PrintsWithin buffers host' i ↔ PrintsWithin buffers host i := by
  refine forall_congr' fun ptr => ?_
  have hptr := congrArg (·[ptr]?) h
  simp only [List.getElem?_map] at hptr
  cases h₁ : host'[ptr]? <;> cases h₂ : host[ptr]? <;> simp_all

/-- A debug step with its print succeeds iff the step does and `PrintDlTensor` stays within
the caller's tensor that debug buffer `i` points to. -/
theorem debugStepPrinted_eq_ok (st st' : Pool × List HostTensor) (i : Nat) :
    rt.debugStepPrinted buffers st i = .ok st' ↔
      rt.debugStep buffers st i = .ok st' ∧ PrintsWithin buffers st.2 i := by
  simp only [debugStepPrinted, bind_eq_ok, pure_eq_ok, vecAt_eq_ok, deref_eq_ok]
  constructor
  · rintro ⟨s, hs, ptr, hptr, b, hb, p, hp, _, -, rfl⟩
    refine ⟨hs, (printsWithin_of_sizes (debugStep_sizes hs).1).mp fun ptr' b' hptr' hb' => ?_⟩
    obtain rfl : ptr = ptr' := Option.some.inj (hptr.symm.trans hptr')
    obtain rfl : b = b' := Option.some.inj (hb.symm.trans hb')
    exact ((printDlTensor_eq_ok b p).mp hp).1
  · rintro ⟨hs, hprints⟩
    obtain ⟨hsizes, ptr, b, hptr, hb⟩ := debugStep_sizes hs
    have hb' := (printsWithin_of_sizes hsizes).mpr hprints ptr b hptr hb
    exact ⟨_, hs, ptr, hptr, b, hb, _, (printDlTensor_eq_ok b _).mpr ⟨hb', rfl⟩, none, if_pos rfl,
      rfl⟩

theorem foldlM_debugStepPrinted (is : List Nat) (st st' : Pool × List HostTensor) :
    is.foldlM (rt.debugStepPrinted buffers) st = .ok st' ↔
      is.foldlM (rt.debugStep buffers) st = .ok st' ∧ ∀ i ∈ is, PrintsWithin buffers st.2 i := by
  induction is generalizing st with
  | nil => simp
  | cons i is ih =>
    simp only [List.foldlM_cons, bind_eq_ok, debugStepPrinted_eq_ok, ih, List.mem_cons,
      forall_eq_or_imp]
    constructor
    · rintro ⟨s, ⟨hs, hi⟩, hrest, hall⟩
      have hsizes := (debugStep_sizes hs).1
      exact ⟨⟨s, hs, hrest⟩, hi, fun j hj => (printsWithin_of_sizes hsizes).mp (hall j hj)⟩
    · rintro ⟨⟨s, hs, hrest⟩, hi, hall⟩
      have hsizes := (debugStep_sizes hs).1
      exact ⟨s, ⟨hs, hi⟩, hrest, fun j hj => (printsWithin_of_sizes hsizes).mpr (hall j hj)⟩

/-- `DebugRun` with its prints does what `debugRun` does iff `PrintDlTensor` stays within every
tensor it prints: iff each caller's tensor that one of the first `op_execs_.size()` debug
buffers points to has no bytes or at least 40. -/
theorem debugRunPrinted_eq_ok (mem : Pool) (host : List HostTensor) (buffers : List Nat)
    (st : Pool × List HostTensor) :
    rt.debugRunPrinted mem host buffers = .ok st ↔
      rt.debugRun mem host buffers = .ok st ∧ ∀ i < rt.opExecs.length, ∀ ptr b,
        buffers[i]? = some ptr → host[ptr]? = some b → b.size = 0 ∨ 40 ≤ b.size := by
  simp only [debugRunPrinted, debugRun, foldlM_debugStepPrinted, List.mem_range, PrintsWithin]

end GraphRuntime

/-- On `debugDoc`, with input `5` and three debug buffers, each pointing to a tensor of the
caller's of 40 bytes shaped like its node's first entry, `DebugRun` with its prints completes
and leaves the pool as `Run` does, where entry 3, node 2's output, holds `6`; but the tensor of
debug buffer 2 receives entry 2, which holds `7`. -/
theorem debugRun_debugDoc :
    ((GraphRuntime.init uint8Type GraphRuntime.debugDoc GraphRuntime.debugModule true).bind
      fun rt => do
        let (mem, host) ← rt.debugRunPrinted GraphRuntime.debugPool
          [GraphRuntime.debugTensor 0, GraphRuntime.debugTensor 0, GraphRuntime.debugTensor 0]
          [0, 1, 2]
        let runMem ← rt.run GraphRuntime.debugPool
        pure (host.map HostTensor.bytes, mem, runMem)) =
      .ok ([List.replicate 40 5, List.replicate 40 6, List.replicate 40 7],
        [List.replicate 40 5, List.replicate 40 6, List.replicate 40 7, List.replicate 40 6],
        [List.replicate 40 5, List.replicate 40 6, List.replicate 40 7, List.replicate 40 6]) := by
  decide

/-- A `float32` scalar of the caller's, holding `1.0`. -/
def float32Scalar : HostTensor := ⟨[], .float32, [0, 0, 128, 63], rfl⟩

/-- A graph whose one node is a `float32` scalar placeholder, which is also its output. -/
def scalarDoc : JSONValue := .obj [
  ("nodes", .arr [.obj [("op", .str "null"), ("name", .str "x"), ("inputs", .arr [])]]),
  ("arg_nodes", .arr [.num 0]), ("node_row_ptr", .arr [.num 0, .num 1]),
  ("heads", .arr [.arr [.num 0, .num 0]]),
  ("attrs", .obj [("dltype", .arr [.str "list_str", .arr [.str "float32"]]),
    ("storage_id", .arr [.str "list_int", .arr [.num 0]]),
    ("shape", .arr [.str "list_shape", .arr [.arr []]])])]

/-- On `scalarDoc`, `GetOutput` copies the scalar `1.0` into a `float32` scalar of the caller's,
and then `PrintDlTensor` reads float 1 of it, past its four bytes; `CheckNanOrInf` with
`CHECK_NAN` reads float 1 of it too. -/
theorem getOutputPrinted_scalarDoc :
    ((GraphRuntime.init float32Type scalarDoc ⟨fun _ => none⟩ false).bind fun rt =>
      HostTensor.bytes <$> rt.getOutput [[0, 0, 128, 63]] 0 float32Scalar) = .ok [0, 0, 128, 63] ∧
    ((GraphRuntime.init float32Type scalarDoc ⟨fun _ => none⟩ false).bind fun rt =>
      Prod.snd <$> rt.getOutputPrinted [[0, 0, 128, 63]] 0 float32Scalar) =
        .error (.undefined "read past the end of a tensor's data") ∧
    checkNanOrInf float32Scalar checkNan = .error (.undefined "read past the end of a tensor's data") := by
  decide

end TvmGraphRuntime
