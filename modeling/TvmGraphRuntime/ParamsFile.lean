import TvmGraphRuntime.InputSlots

/-!
# The parameter file

`LoadParams` reads the file TVM's `save_param_dict` writes: the list magic, a reserved word,
the names as dmlc writes a `std::vector<std::string>`, their count, and then one record per
name, each the magic of a tensor, a reserved word, the context, `ndim`, the `dtype`, the
extents, `data_byte_size` and the data. `encodeParams` writes that file; it is the format the
reader expects, stated here, since the writer lives outside this repository.

* `readPOD_encodeLE`, `readString_encodeString`, `readStrings_encodeStrings`: each typed read
  gives back what was written, and leaves the rest of the stream;
* `parseDLTensor_encodeTensor`: the record of a tensor that `LoadDLTensor` can store into its
  view (`Loadable`) parses to the tensor's bytes;
* **`exec_loadParams_encodeParams`**: `load_params` of the file written for a list of named
  tensors acts as `set_input` by name of each tensor in turn: the two calls end with the same
  store, or fail alike.

The conditions are those under which the reader accepts a record: the tensor has its slot's
`ndim`, `dtype` and shape, each extent is an `int64_t` and `ndim` an `int`, and its byte count
is neither `0` (a read of no bytes fails the `CHECK`) nor `2^64 - 1` (the vector of
`data_byte_size + 1` bytes would be empty).
-/

namespace TvmGraphRuntime

/-! ### Little-endian fields -/

theorem length_encodeLE (n v : Nat) : (encodeLE n v).length = n := by
  simp [encodeLE]

theorem encodeLE_succ (n v : Nat) :
    encodeLE (n + 1) v = UInt8.ofNat (v % 256) :: encodeLE n (v / 256) := by
  simp only [encodeLE, List.range_succ_eq_map, List.map_cons, List.map_map, pow_zero,
    Nat.div_one]
  refine congrArg _ (List.map_congr_left fun i _ => ?_)
  simp only [Function.comp, pow_succ', Nat.div_div_eq_div_mul]

theorem decodeLE_cons (b : UInt8) (bs : List UInt8) :
    decodeLE (b :: bs) = b.toNat + 256 * decodeLE bs := rfl

/-- A value that fits its field is read back. -/
theorem decodeLE_encodeLE : ∀ (n v : Nat), v < 256 ^ n → decodeLE (encodeLE n v) = v
  | 0, v, h => by
    obtain rfl : v = 0 := by simpa using h
    rfl
  | n + 1, v, h => by
    have hv : v / 256 < 256 ^ n := Nat.div_lt_of_lt_mul (by rwa [← pow_succ'])
    rw [encodeLE_succ, decodeLE_cons, decodeLE_encodeLE n _ hv,
      UInt8.toNat_ofNat_of_lt (Nat.mod_lt _ (by decide))]
    exact Nat.mod_add_div v 256

/-- `strm->Read(ptr, n)` of a stream that starts with `n` bytes reads them. -/
theorem read_append {bytes : List UInt8} {n : Nat} (h : bytes.length = n) (s : Stream) :
    Stream.read (bytes ++ s) n = (bytes, s) := by
  subst h
  simp [Stream.read]

theorem readPOD_encodeLE {n v : Nat} (h : v < 256 ^ n) (s : Stream) :
    readPOD n (encodeLE n v ++ s) = some (v, s) := by
  simp only [readPOD, read_append (length_encodeLE n v), length_encodeLE, if_true,
    decodeLE_encodeLE n v h]

theorem readValue_encodeLE {n v : Nat} (h : v < 256 ^ n) : readValue (encodeLE n v) n = .ok v := by
  simp only [readValue, length_encodeLE, if_true, decodeLE_encodeLE n v h]
  rfl

/-! ### Strings -/

/-- A `std::string` as dmlc writes it: its `uint64_t` length, then its bytes. -/
def encodeString (s : List UInt8) : List UInt8 := encodeLE 8 s.length ++ s

/-- A `std::vector<std::string>` as dmlc writes it: the `uint64_t` count, then the strings. -/
def encodeStrings (names : List (List UInt8)) : List UInt8 :=
  encodeLE 8 names.length ++ names.flatMap encodeString

theorem readString_encodeString {b : List UInt8} (h : b.length < 2 ^ 64) (s : Stream) :
    readString (encodeString b ++ s) = some (b, s) := by
  simp only [readString, encodeString, List.append_assoc,
    readPOD_encodeLE (show b.length < 256 ^ 8 from lt_of_lt_of_eq h (by norm_num)),
    Option.bind_eq_bind, Option.some_bind, read_append rfl, if_true]

/-- The loop of `readStrings` ignores its index: over any list of indices as long as the
names, it reads the names. -/
theorem foldlM_readString_encodeStrings {names : List (List UInt8)}
    (h : ∀ b ∈ names, b.length < 2 ^ 64) (s : Stream) :
    ∀ (l : List Nat) (acc : List (List UInt8)), l.length = names.length →
      l.foldlM (fun (acc : List (List UInt8) × Stream) _ => do
        let (name, s) ← readString acc.2
        pure (acc.1 ++ [name], s)) (acc, names.flatMap encodeString ++ s) =
        some (acc ++ names, s) := by
  induction names with
  | nil =>
    intro l acc hl
    rw [List.length_eq_zero.mp hl, List.append_nil]
    rfl
  | cons b names ih =>
    intro l acc hl
    obtain ⟨i, l, rfl⟩ := List.exists_cons_of_length_eq_add_one hl
    rw [List.foldlM_cons, List.flatMap_cons, List.append_assoc,
      readString_encodeString (h b (List.mem_cons_self b names))]
    simpa using ih (fun b hb => h b (List.mem_cons_of_mem _ hb)) l (acc ++ [b])
      (Nat.succ.inj hl)

theorem readStrings_encodeStrings {names : List (List UInt8)} (hn : names.length < 2 ^ 64)
    (h : ∀ b ∈ names, b.length < 2 ^ 64) (s : Stream) :
    readStrings (encodeStrings names ++ s) = some (names, s) := by
  simp only [readStrings, encodeStrings, List.append_assoc,
    readPOD_encodeLE (show names.length < 256 ^ 8 from lt_of_lt_of_eq hn (by norm_num))]
  exact foldlM_readString_encodeStrings h s _ [] (List.length_range _)

/-! ### Tensor records -/

/-- The four bytes of a `DLDataType`: code, bits, and the two bytes of lanes. -/
def encodeDType (t : DLDataType) : List UInt8 :=
  encodeLE 4 (t.code.toNat + 256 * t.bits.toNat + 65536 * t.lanes.toNat)

/-- The extents of a shape, each `int64_t` written as its `uint64_t`. -/
def encodeShape (shape : List Int) : List UInt8 := shape.flatMap fun d => encodeLE 8 (sizeT d)

/-- The record of a tensor: the tensor magic, a reserved word, the context (`kDLCPU` and device
`0`, two `int`s), `ndim`, the `dtype`, the extents, `data_byte_size` and the data. -/
def encodeTensor (kTVMNDArrayMagic : Nat) (t : HostTensor) : List UInt8 :=
  encodeLE 8 kTVMNDArrayMagic ++ encodeLE 8 0 ++ encodeLE 8 1 ++ encodeLE 4 t.shape.length ++
    encodeDType t.dtype ++ encodeShape t.shape ++ encodeLE 8 t.bytes.length ++ t.bytes

/-- `LoadDLTensor` accepts the record of `x` into the view `v`: the two agree on `dtype` and
shape, `ndim` is an `int`, each extent an `int64_t`, and `data_byte_size` is neither `0` nor
`2^64 - 1`. -/
structure Loadable (x : HostTensor) (v : DLTensor) : Prop where
  shape : x.shape = v.shape
  dtype : x.dtype = v.dtype
  ndim_lt : x.shape.length < 2 ^ 31
  extents : ∀ d ∈ x.shape, -2 ^ 63 ≤ d ∧ d < 2 ^ 63
  bytes_pos : 0 < x.bytes.length
  bytes_lt : x.bytes.length + 1 < 2 ^ 64

instance (x : HostTensor) (v : DLTensor) : Decidable (Loadable x v) :=
  decidable_of_iff (x.shape = v.shape ∧ x.dtype = v.dtype ∧ x.shape.length < 2 ^ 31 ∧
      (∀ d ∈ x.shape, -2 ^ 63 ≤ d ∧ d < 2 ^ 63) ∧ 0 < x.bytes.length ∧
      x.bytes.length + 1 < 2 ^ 64)
    ⟨fun ⟨h₁, h₂, h₃, h₄, h₅, h₆⟩ => ⟨h₁, h₂, h₃, h₄, h₅, h₆⟩,
      fun ⟨h₁, h₂, h₃, h₄, h₅, h₆⟩ => ⟨h₁, h₂, h₃, h₄, h₅, h₆⟩⟩

theorem dtypeOfBytes_encodeDType (t : DLDataType) :
    dtypeOfBytes (t.code.toNat + 256 * t.bits.toNat + 65536 * t.lanes.toNat) = t := by
  obtain ⟨c, b, l⟩ := t
  have hc := c.toNat_lt_size
  have hb := b.toNat_lt_size
  have hl := l.toNat_lt_size
  simp only [UInt8.size, UInt16.size] at hc hb hl
  simp only [dtypeOfBytes, DLDataType.mk.injEq]
  refine ⟨UInt8.toNat.inj ?_, UInt8.toNat.inj ?_, UInt16.toNat.inj ?_⟩
  · rw [UInt8.toNat_ofNat_of_lt (by simp only [UInt8.size]; omega)]; omega
  · rw [UInt8.toNat_ofNat_of_lt (by simp only [UInt8.size]; omega)]; omega
  · rw [UInt16.toNat_ofNat_of_lt (by simp only [UInt16.size]; omega)]; omega

theorem int32OfUInt32_of_lt {v : Nat} (h : v < 2 ^ 31) : int32OfUInt32 v = v := if_pos h

theorem dtype_lt (t : DLDataType) :
    t.code.toNat + 256 * t.bits.toNat + 65536 * t.lanes.toNat < 256 ^ 4 := by
  have hc := t.code.toNat_lt_size
  have hb := t.bits.toNat_lt_size
  have hl := t.lanes.toNat_lt_size
  simp only [UInt8.size, UInt16.size] at hc hb hl
  omega

theorem int64OfUInt64_sizeT {d : Int} (h : -2 ^ 63 ≤ d ∧ d < 2 ^ 63) :
    int64OfUInt64 (sizeT d) = d := by
  unfold int64OfUInt64 sizeT
  split_ifs <;> omega

theorem length_encodeShape (shape : List Int) : (encodeShape shape).length = 8 * shape.length := by
  induction shape with
  | nil => rfl
  | cons d ds ih =>
    simp only [encodeShape, List.flatMap_cons, List.length_append, length_encodeLE] at ih ⊢
    rw [ih, List.length_cons]; ring

theorem drop_encodeShape (shape : List Int) :
    ∀ i, (encodeShape shape).drop (8 * i) = encodeShape (shape.drop i) := by
  induction shape with
  | nil => intro i; simp [encodeShape]
  | cons d ds ih =>
    rintro (_ | i)
    · rfl
    · rw [encodeShape, List.flatMap_cons, Nat.mul_succ, Nat.add_comm, ← List.drop_drop,
        List.drop_left' (length_encodeLE 8 _)]
      exact ih i

/-- The extents read back from their bytes. -/
theorem shapeOfBytes_encodeShape {shape : List Int}
    (h : ∀ d ∈ shape, -2 ^ 63 ≤ d ∧ d < 2 ^ 63) :
    shapeOfBytes (encodeShape shape) shape.length = shape := by
  refine List.ext_getElem (by simp [shapeOfBytes]) fun i hi hi' => ?_
  have hdrop : (encodeShape shape).drop (8 * i) =
      encodeLE 8 (sizeT shape[i]) ++ encodeShape (shape.drop (i + 1)) := by
    rw [drop_encodeShape, List.drop_eq_getElem_cons hi']
    rfl
  simp only [shapeOfBytes, List.getElem_map, List.getElem_range, hdrop,
    List.take_left' (length_encodeLE 8 _), length_encodeLE, Nat.sub_self, List.replicate_zero,
    List.append_nil, decodeLE_encodeLE 8 _ (sizeT_lt _),
    int64OfUInt64_sizeT (h _ (List.getElem_mem _))]

theorem readShapeBytes_encodeShape (shape : List Int) (s : Stream) :
    readShapeBytes shape.length (encodeShape shape ++ s) = .ok (encodeShape shape, s) := by
  unfold readShapeBytes
  split_ifs with h
  · have hpos : shape.length ≠ 0 := by exact_mod_cast h
    simp only [Int.toNat_ofNat, read_append (length_encodeShape shape), length_encodeShape]
    simp only [check, bne_iff_ne, ne_eq, mul_eq_zero, OfNat.ofNat_ne_zero, hpos, or_self,
      not_false_eq_true, decide_True, if_true, ok_bind]
    rfl
  · obtain rfl : shape = [] := List.length_eq_zero.mp (by exact_mod_cast not_not.mp h)
    rfl

section Record

variable {k : Nat} {x : HostTensor} {v : DLTensor}

theorem parseHead_encodeTensor (hk : k < 2 ^ 64) (hx : Loadable x v) (s : Stream) :
    parseHead k (encodeTensor k x ++ s) v = .ok (encodeLE 8 x.bytes.length ++ (x.bytes ++ s)) := by
  have hndim : x.shape.length < 256 ^ 4 := lt_trans hx.ndim_lt (by norm_num)
  have hk' : k < 256 ^ 8 := lt_of_lt_of_eq hk (by norm_num)
  simp only [parseHead, encodeTensor, encodeDType, List.append_assoc,
    read_append (length_encodeLE _ _), length_encodeLE, Nat.reduceBNe, readValue_encodeLE hk',
    readValue_encodeLE hndim, readValue_encodeLE (dtype_lt x.dtype), int32OfUInt32_of_lt hx.ndim_lt,
    Nat.cast_nonneg, decide_True, readShapeBytes_encodeShape, Int.toNat_ofNat,
    shapeOfBytes_encodeShape hx.extents, dtypeOfBytes_encodeDType, DLTensor.ndim, ← hx.shape,
    ← hx.dtype, beq_self_eq_true, check, if_true, ok_bind, pure_bind]
  rfl

theorem parseData_encodeTensor (hx : Loadable x v) (s : Stream) :
    parseData (encodeLE 8 x.bytes.length ++ (x.bytes ++ s)) v =
      .ok (x.bytes, x.bytes.length, s) := by
  have hsize : expectedBytes v = x.bytes.length := by
    rw [expectedBytes_eq_size, x.bytes_length, DLTensor.size, hx.shape, hx.dtype]
  have hlen : x.bytes.length < 256 ^ 8 := by have := hx.bytes_lt; norm_num at this ⊢; omega
  have hne : (x.bytes.length != 0) = true := bne_iff_ne.mpr (Nat.pos_iff_ne_zero.mp hx.bytes_pos)
  simp only [parseData, hsize, read_append (length_encodeLE _ _), length_encodeLE, Nat.reduceBNe,
    readValue_encodeLE hlen, beq_self_eq_true, Nat.mod_eq_of_lt hx.bytes_lt, vecAt,
    List.getElem?_replicate, Nat.zero_lt_succ, if_true, read_append rfl, hne, Nat.sub_self,
    List.replicate_zero, List.append_nil, check, ok_bind, pure_bind]
  rfl

theorem parseDLTensor_encodeTensor (hk : k < 2 ^ 64) (hx : Loadable x v) (s : Stream) :
    parseDLTensor k (encodeTensor k x ++ s) v = .ok (x.bytes, x.bytes.length, s) := by
  rw [parseDLTensor, parseHead_encodeTensor hk hx, ok_bind, parseData_encodeTensor hx]

theorem Loadable.size_eq (hx : Loadable x v) : x.bytes.length = v.size := by
  rw [x.bytes_length, DLTensor.size, hx.shape, hx.dtype]

/-- `LoadDLTensor` of the record of `x` writes `x`'s bytes into the view. -/
theorem loadDLTensor_encodeTensor (hk : k < 2 ^ 64) (hx : Loadable x v) (mem : Pool)
    (s : Stream) :
    loadDLTensor k (encodeTensor k x ++ s) mem v = (·, s) <$> writeView mem v x.bytes := by
  simp only [loadDLTensor, parseDLTensor_encodeTensor hk hx, ok_bind, copyFromBytes,
    ← hx.size_eq, beq_self_eq_true, check, if_true, pure_bind, List.take_length, bind_pure_comp]

end Record

/-! ### The file -/

/-- The parameter file of a list of named tensors: the list magic, a reserved word, the names,
their count, and the record of each tensor. -/
def encodeParams (kTVMNDArrayListMagic kTVMNDArrayMagic : Nat)
    (params : List (String × HostTensor)) : List UInt8 :=
  encodeLE 8 kTVMNDArrayListMagic ++ encodeLE 8 0 ++ encodeStrings (params.map (utf8Bytes ·.1)) ++
    encodeLE 8 params.length ++ params.flatMap (encodeTensor kTVMNDArrayMagic ·.2)

theorem paramsHeader_encodeParams {k₁ k₂ : Nat} (hk₁ : k₁ < 2 ^ 64)
    {params : List (String × HostTensor)} (hcount : params.length < 2 ^ 64)
    (hnames : ∀ p ∈ params, (utf8Bytes p.1).length < 2 ^ 64) :
    paramsHeader k₁ (encodeParams k₁ k₂ params) =
      .ok (params.map (utf8Bytes ·.1), params.flatMap (encodeTensor k₂ ·.2)) := by
  have h64 : (2 : Nat) ^ 64 = 256 ^ 8 := by norm_num
  have hstr := @readStrings_encodeStrings (params.map (utf8Bytes ·.1))
    (by rwa [List.length_map]) (by simpa only [List.forall_mem_map] using hnames)
  rw [h64] at hk₁ hcount
  simp only [paramsHeader, encodeParams, List.append_assoc, readPOD_encodeLE hk₁,
    readPOD_encodeLE (show 0 < 256 ^ 8 by norm_num), hstr,
    read_append (length_encodeLE _ _), readValue_encodeLE hcount, List.length_map,
    beq_self_eq_true, check, if_true, ok_bind, pure_bind]
  rfl

/-! ### `load_params` against `set_input` -/

namespace GraphRuntime

/-- What both paths do with a list of named tensors: each tensor written, in turn, into the
view of the input slot its name resolves to. -/
def storeParams (rt : GraphRuntime) (mem : Pool) (params : List (String × HostTensor)) :
    Result Pool :=
  params.foldlM (fun mem p => do writeView mem (← rt.recordSlot (utf8Bytes p.1)).2 p.2.bytes) mem

/-- The name of `p` resolves to an input slot whose view `LoadDLTensor` stores `p`'s tensor
into. -/
def Accepts (rt : GraphRuntime) (p : String × HostTensor) : Prop :=
  (utf8Bytes p.1).length < 2 ^ 64 ∧
    ∃ i v, rt.recordSlot (utf8Bytes p.1) = .ok (i, v) ∧ Loadable p.2 v

variable {rt : GraphRuntime} {k₁ k₂ : Nat}

theorem storeParams_cons {mem : Pool} {p : String × HostTensor}
    {params : List (String × HostTensor)} {i : Nat} {v : DLTensor} (hslot : rt.recordSlot (utf8Bytes p.1) = .ok (i, v)) :
    rt.storeParams mem (p :: params) = writeView mem v p.2.bytes >>= (rt.storeParams · params) := by
  simp only [storeParams, List.foldlM_cons, hslot, ok_bind]

/-- The record loop of `LoadParams` over the records of `params` is `storeParams`, and leaves
the rest of the stream. -/
theorem foldlM_loadRecord_encodeTensor (hk₂ : k₂ < 2 ^ 64) {params : List (String × HostTensor)}
    (hparams : ∀ p ∈ params, ∃ i v, rt.recordSlot (utf8Bytes p.1) = .ok (i, v) ∧ Loadable p.2 v)
    (mem : Pool) (s : Stream) :
    (params.map (utf8Bytes ·.1)).foldlM (rt.loadRecord k₂)
        (mem, params.flatMap (encodeTensor k₂ ·.2) ++ s) =
      (·, s) <$> rt.storeParams mem params := by
  induction params generalizing mem with
  | nil => rfl
  | cons p params ih =>
    obtain ⟨i, v, hslot, hx⟩ := hparams p (List.mem_cons_self p params)
    rw [storeParams_cons hslot, List.map_cons, List.foldlM_cons, List.flatMap_cons,
      List.append_assoc, loadRecord, hslot, ok_bind]
    dsimp only
    rw [loadDLTensor_encodeTensor hk₂ hx, bind_map_left, map_bind]
    exact congrArg _ (funext fun mem => ih (fun q hq => hparams q (List.mem_cons_of_mem p hq)) mem)

/-- `set_input` by the name of an accepted parameter writes its tensor into its slot's view. -/
theorem call_setInput_name (hslots : rt.inputNodes.length < 2 ^ 64) {st : Store}
    {p : String × HostTensor} {i : Nat} {v : DLTensor}
    (hslot : rt.recordSlot (utf8Bytes p.1) = .ok (i, v)) (hx : Loadable p.2 v) :
    rt.call k₁ k₂ st (.setInput (.name p.1) p.2) =
      (fun pool => ({ st with pool }, Reply.unit)) <$> writeView st.pool v p.2.bytes := by
  obtain ⟨hidx, hview⟩ := recordSlot_eq_ok hslot
  have hi := (slotView_eq_ok hview).1
  have hsize : getDataSize p.2.shape p.2.dtype = v.size := p.2.bytes_length ▸ hx.size_eq
  simp only [call, hidx, ok_bind, Nat.cast_nonneg, if_true, setInput,
    sizeT_of_nonneg (Nat.cast_nonneg i) (by omega), Int.toNat_ofNat, hi, decide_True, check,
    pure_bind, hview, copyFromHost, hsize, beq_self_eq_true, bind_pure_comp]

/-- `set_input` by name of each accepted parameter in turn is `storeParams`. -/
theorem exec_setInput_names (hslots : rt.inputNodes.length < 2 ^ 64)
    {params : List (String × HostTensor)} (hparams : ∀ p ∈ params, rt.Accepts p) (st : Store) :
    rt.exec k₁ k₂ st (params.map fun p => .setInput (.name p.1) p.2) =
      (fun pool => ({ st with pool }, List.replicate params.length Reply.unit)) <$>
        rt.storeParams st.pool params := by
  induction params generalizing st with
  | nil => rfl
  | cons p params ih =>
    obtain ⟨-, i, v, hslot, hx⟩ := hparams p (List.mem_cons_self p params)
    rw [storeParams_cons hslot, List.map_cons, exec, call_setInput_name hslots hslot hx,
      bind_map_left, map_bind]
    refine congrArg _ (funext fun pool => ?_)
    dsimp only
    rw [ih (fun q hq => hparams q (List.mem_cons_of_mem p hq)), bind_map_left, bind_pure_comp]
    rfl

/-- **`load_params` of a written file is `set_input` by name of each tensor.** For a list of
named tensors each of which `LoadDLTensor` accepts into the view of the slot its name resolves
to, `load_params` of the file written for the list and the `set_input` calls by name end with
the same store, or fail alike. -/
theorem exec_loadParams_encodeParams (hk₁ : k₁ < 2 ^ 64) (hk₂ : k₂ < 2 ^ 64)
    (hslots : rt.inputNodes.length < 2 ^ 64) (st : Store) {params : List (String × HostTensor)}
    (hcount : params.length < 2 ^ 64) (hparams : ∀ p ∈ params, rt.Accepts p) :
    Prod.fst <$> rt.exec k₁ k₂ st [.loadParams (encodeParams k₁ k₂ params)] =
      Prod.fst <$> rt.exec k₁ k₂ st (params.map fun p => .setInput (.name p.1) p.2) := by
  have hloop := foldlM_loadRecord_encodeTensor hk₂ (fun p hp => (hparams p hp).2) st.pool []
  rw [List.append_nil] at hloop
  rw [exec_setInput_names hslots hparams, exec, call, loadParams,
    paramsHeader_encodeParams hk₁ hcount fun p hp => (hparams p hp).1, ok_bind]
  dsimp only
  rw [hloop]
  simp only [bind_map_left, bind_assoc, pure_bind, exec, map_bind, map_pure, Functor.map_map,
    bind_pure_comp]

end GraphRuntime

/-- On `paramsRuntime`, the file holding `x = [1, 2, 3, 4]` under the magic numbers of the TVM
headers: `load_params` of it and `set_input("x", ...)` end with the same store. -/
theorem exec_loadParams_encodeParams_paramsRuntime :
    Prod.fst <$> paramsRuntime.exec 0xF7E58D4F05049CB7 0xDD5E40F096B4A13F ⟨[[0, 0, 0, 0], []], [], []⟩
        [.loadParams (encodeParams 0xF7E58D4F05049CB7 0xDD5E40F096B4A13F
          [("x", ⟨[1], .float32, [1, 2, 3, 4], rfl⟩)])] =
      Prod.fst <$> paramsRuntime.exec 0xF7E58D4F05049CB7 0xDD5E40F096B4A13F
        ⟨[[0, 0, 0, 0], []], [], []⟩
        ([("x", ⟨[1], .float32, [1, 2, 3, 4], rfl⟩)].map fun p => .setInput (.name p.1) p.2) :=
  GraphRuntime.exec_loadParams_encodeParams (by decide) (by decide) (by decide) _ (by decide)
    (List.forall_mem_singleton.mpr ⟨by decide, 0, ⟨0, [1], .float32⟩, by decide, by decide⟩)

example : (Store.pool ∘ Prod.fst) <$> paramsRuntime.exec 0xF7E58D4F05049CB7 0xDD5E40F096B4A13F
    ⟨[[0, 0, 0, 0], []], [], []⟩ [.loadParams (encodeParams 0xF7E58D4F05049CB7 0xDD5E40F096B4A13F
      [("x", ⟨[1], .float32, [1, 2, 3, 4], rfl⟩)])] = .ok [[1, 2, 3, 4], []] := by
  decide

end TvmGraphRuntime
