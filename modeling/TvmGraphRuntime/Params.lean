import TvmGraphRuntime.Run

/-!
# Loading parameters

`GraphRuntime::LoadParams` and `GraphRuntime::LoadDLTensor` over a
`dmlc::MemoryStringStream`, modelled as the bytes not yet read. Three kinds of read appear
in the source, and the model keeps them apart:

* dmlc's typed reads (`strm->Read(&header)`, `strm->Read(&names)`) succeed only when every
  byte was there (`readPOD`, `readStrings`);
* `strm->Read(ptr, n)` returns how many bytes it copied, at most `n`
  (`Stream.read`), and `CHECK(strm->Read(ptr, n))` only asks that this is not zero;
* a local filled by a short read is partly indeterminate, and its use is undefined
  (`readValue`); a `std::vector` filled by a short read keeps its zero-initialised tail.

Multibyte fields are little-endian. The two magic numbers are declared outside this file and
are parameters here.

A record names its input slot as `set_input` does, through `GetInputIndex`, whose result is
the first input slot whose node carries the name, `-1` when none does
(**`getInputIndex_eq_firstSlot`**); `paramStores` lists the stores of `LoadParams` with that
resolution (`loadParams_eq_ok`).
-/

namespace TvmGraphRuntime

/-- The stream over the parameter blob: the bytes not read yet. -/
abbrev Stream := List UInt8

/-- `strm->Read(ptr, n)`: the bytes copied, as many as remain up to `n`. -/
def Stream.read (s : Stream) (n : Nat) : List UInt8 × Stream := (s.take n, s.drop n)

/-- The little-endian value of a byte string. -/
def decodeLE (bytes : List UInt8) : Nat := bytes.foldr (fun b acc => b.toNat + 256 * acc) 0

/-- dmlc's typed read of an `n`-byte integer: it fails unless all `n` bytes were read. -/
def readPOD (n : Nat) (s : Stream) : Option (Nat × Stream) :=
  let (bytes, s) := s.read n
  if bytes.length = n then some (decodeLE bytes, s) else none

/-- dmlc's typed read of a `std::string`: a `uint64_t` length, then that many bytes. -/
def readString (s : Stream) : Option (List UInt8 × Stream) := do
  let (len, s) ← readPOD 8 s
  let (bytes, s) := s.read len
  if bytes.length = len then some (bytes, s) else none

/-- dmlc's typed read of a `std::vector<std::string>`: a `uint64_t` count, then the strings. -/
def readStrings (s : Stream) : Option (List (List UInt8) × Stream) := do
  let (count, s) ← readPOD 8 s
  (List.range count).foldlM (fun (acc : List (List UInt8) × Stream) _ => do
    let (name, s) ← readString acc.2
    pure (acc.1 ++ [name], s)) ([], s)

/-- The value of a local that a `strm->Read(&x, n)` filled with `bytes`: a short read leaves
part of it indeterminate, and the source then uses it. -/
def readValue (bytes : List UInt8) (n : Nat) : Result Nat :=
  if bytes.length = n then pure (decodeLE bytes) else throw (.undefined "indeterminate value")

/-- A two's-complement `int32_t` from its unsigned value. -/
def int32OfUInt32 (v : Nat) : Int := if v < 2 ^ 31 then v else v - 2 ^ 32

/-- A two's-complement `int64_t` from its unsigned value. -/
def int64OfUInt64 (v : Nat) : Int := if v < 2 ^ 63 then v else v - 2 ^ 64

/-- `DLDataType` from its four bytes: code, bits, and the two bytes of lanes. -/
def dtypeOfBytes (v : Nat) : DLDataType :=
  ⟨UInt8.ofNat (v % 256), UInt8.ofNat (v / 256 % 256), UInt16.ofNat (v / 65536)⟩

/-- The `ndim` extents of `std::vector<int64_t> shape(ndim)` after reading `bytes` into it: a
short read leaves the zeros the vector was created with. -/
def shapeOfBytes (bytes : List UInt8) (ndim : Nat) : List Int :=
  (List.range ndim).map fun i =>
    int64OfUInt64 (decodeLE (((bytes.drop (8 * i)).take 8) ++
      List.replicate (8 - ((bytes.drop (8 * i)).take 8).length) 0))

/-- The bytes of the `std::string` holding `s`: its UTF-8 encoding. -/
def utf8Bytes (s : String) : List UInt8 := s.data.flatMap String.utf8EncodeChar

/-- `name == bytes` on `std::string`s: a node name against a name given as bytes. -/
def nameMatches (name : String) (bytes : List UInt8) : Bool := utf8Bytes name == bytes

/-- `GetInputIndex`: the first input slot whose node carries the name, `-1` when none does. -/
def getInputIndexFrom (g : Graph) (name : List UInt8) : Nat → List Nat → Result Int
  | _, [] => pure (-1)
  | i, nid :: rest => do
    let node ← vecAt g.nodes nid "nodes_"
    if nameMatches node.name name then pure i else getInputIndexFrom g name (i + 1) rest

/-- `GraphRuntime::GetInputIndex`. -/
def Graph.getInputIndex (g : Graph) (name : List UInt8) : Result Int :=
  getInputIndexFrom g name 0 g.inputNodes

/-- Node `nid` carries the name; a node index past `nodes_` carries none. -/
def Graph.carries (g : Graph) (name : List UInt8) (nid : Nat) : Bool :=
  match g.nodes[nid]? with
  | some node => nameMatches node.name name
  | none => false

/-- The input slot a name stands for: the first input whose node carries it, `-1` when none
does. -/
def Graph.firstSlot (g : Graph) (name : List UInt8) : Int :=
  (g.inputNodes.findIdx? (g.carries name)).elim (-1) Nat.cast

/-- The loop of `GetInputIndex` from slot `k` returns the first slot from `k` whose node
carries the name, `-1` when none does. -/
theorem getInputIndexFrom_eq_ok {g : Graph} {name : List UInt8} {k : Nat} {l : List Nat}
    {i : Int} (h : getInputIndexFrom g name k l = .ok i) :
    i = (l.findIdx? (g.carries name) k).elim (-1) Nat.cast := by
  induction l generalizing k with
  | nil => exact (pure_eq_ok.mp h).symm
  | cons nid rest ih =>
    simp only [getInputIndexFrom, bind_eq_ok, vecAt_eq_ok] at h
    obtain ⟨node, hnode, h⟩ := h
    have hcarries : g.carries name nid = nameMatches node.name name := by
      rw [Graph.carries, hnode]
    rw [List.findIdx?_cons, hcarries]
    split_ifs at h ⊢
    · exact (pure_eq_ok.mp h).symm
    · exact ih h

/-- **`GetInputIndex` resolves a name to its first slot**: whatever it returns is the first
input slot whose node carries the name, `-1` when none does. -/
theorem getInputIndex_eq_firstSlot {g : Graph} {name : List UInt8} {i : Int}
    (h : g.getInputIndex name = .ok i) : i = g.firstSlot name :=
  getInputIndexFrom_eq_ok h

/-- The view of input slot `i`: `data_entry_[entry_id(input_nodes_[i], 0)]`, as `SetInput` and
`GetInput` reach it. -/
def GraphRuntime.slotView (rt : GraphRuntime) (i : Nat) : Result DLTensor := do
  let eid ← rt.entryId (← vecAt rt.inputNodes i "input_nodes_") 0
  vecAt rt.dataEntry eid "data_entry_"

section LoadParams

variable (kTVMNDArrayListMagic kTVMNDArrayMagic : Nat)

/-- The element count check of `LoadDLTensor`: `(bits * lanes + 7) / 8` times the extents of
`dst`, in `size_t`. -/
def expectedBytes (dst : DLTensor) : Nat :=
  dst.shape.foldl (fun size d => size * sizeT d % 2 ^ 64) dst.dtype.elemBytes

/-- The shape bytes of a record: `8 * ndim` of them, none read when `ndim` is 0. -/
def readShapeBytes (ndim : Int) (s : Stream) : Result (List UInt8 × Stream) :=
  if ndim ≠ 0 then do
    let (bytes, s) := s.read (8 * ndim.toNat)
    check (bytes.length != 0) "Invalid DLTensor file format"
    pure (bytes, s)
  else pure ([], s)

/-- The head of a tensor record checked against the planned view `dst`: magic, reserved word,
context, `ndim`, `dtype` and the shape. Gives the rest of the stream. -/
def parseHead (s : Stream) (dst : DLTensor) : Result Stream := do
  let (header, s) := s.read 8
  check (header.length != 0) "Invalid DLTensor file format"
  let (reserved, s) := s.read 8
  check (reserved.length != 0) "Invalid DLTensor file format"
  check ((← readValue header 8) == kTVMNDArrayMagic) "Invalid DLTensor file format"
  let (ctx, s) := s.read 8
  check (ctx.length != 0) "Invalid DLTensor file format"
  let (ndimBytes, s) := s.read 4
  check (ndimBytes.length != 0) "Invalid DLTensor file format"
  let (dtypeBytes, s) := s.read 4
  check (dtypeBytes.length != 0) "Invalid DLTensor file format"
  let ndim := int32OfUInt32 (← readValue ndimBytes 4)
  check (0 ≤ ndim) "cannot create std::vector larger than max_size()"
  let (shapeBytes, s) ← readShapeBytes ndim s
  let shape := shapeOfBytes shapeBytes ndim.toNat
  check (ndim == dst.ndim) "param dimension mismatch"
  check (dtypeOfBytes (← readValue dtypeBytes 4) == dst.dtype) "param type mismatch"
  check (shape == dst.shape) "param shape mismatch"
  pure s

/-- The data of a tensor record: `data_byte_size`, which must be the view's byte count, then
the data bytes, zero-padded to that count as the vector they are read into starts zeroed.
Gives the bytes, the count and the rest of the stream. -/
def parseData (s : Stream) (dst : DLTensor) : Result (List UInt8 × Nat × Stream) := do
  let size := expectedBytes dst
  let (sizeBytes, s) := s.read 8
  check (sizeBytes.length != 0) "Invalid DLTensor file format"
  let dataByteSize ← readValue sizeBytes 8
  check (dataByteSize == size) "Invalid DLTensor file format"
  -- `std::vector<uint8_t> bytes(data_byte_size + 1)` and `&bytes[0]`
  let _ ← vecAt (List.replicate ((dataByteSize + 1) % 2 ^ 64) (0 : UInt8)) 0 "bytes"
  let (data, s) := s.read dataByteSize
  check (data.length != 0) "Invalid DLTensor file format"
  pure (data ++ List.replicate (dataByteSize - data.length) 0, dataByteSize, s)

/-- `LoadDLTensor` up to its copy. -/
def parseDLTensor (s : Stream) (dst : DLTensor) : Result (List UInt8 × Nat × Stream) := do
  parseData (← parseHead kTVMNDArrayMagic s dst) dst

/-- `GraphRuntime::LoadDLTensor(strm, dst)`: the parse, then `TVMArrayCopyFromBytes`. -/
def loadDLTensor (s : Stream) (mem : Pool) (dst : DLTensor) : Result (Pool × Stream) := do
  let (bytes, dataByteSize, s) ← parseDLTensor kTVMNDArrayMagic s dst
  let mem ← copyFromBytes mem dst bytes dataByteSize
  pure (mem, s)

/-- The input slot, and its view, the name of a record resolves to in `LoadParams`. -/
def GraphRuntime.recordSlot (rt : GraphRuntime) (name : List UInt8) :
    Result (Nat × DLTensor) := do
  let inIdx ← rt.getInputIndex name
  check (0 ≤ inIdx) "Found param for non-existent input"
  let eid ← rt.entryId (← vecAt rt.inputNodes inIdx.toNat "input_nodes_") 0
  check (eid < rt.dataEntry.length) "eid < data_entry_.size()"
  pure (inIdx.toNat, ← vecAt rt.dataEntry eid "data_entry_")

/-- One iteration of the record loop of `LoadParams`: the record for `name`. -/
def GraphRuntime.loadRecord (rt : GraphRuntime) (st : Pool × Stream) (name : List UInt8) :
    Result (Pool × Stream) := do
  let (_, dst) ← rt.recordSlot name
  loadDLTensor kTVMNDArrayMagic st.2 st.1 dst

/-- The list header of `LoadParams`: the names, once the count after them matches, and the
rest of the stream. -/
def paramsHeader (blob : List UInt8) : Result (List (List UInt8) × Stream) := do
  let some (header, s) := readPOD 8 blob | throw (.check "Invalid parameters file format")
  check (header == kTVMNDArrayListMagic) "Invalid parameters file format"
  let some (_, s) := readPOD 8 s | throw (.check "Invalid parameters file format")
  let some (names, s) := readStrings s | throw (.check "Invalid parameters file format")
  let (szBytes, s) := s.read 8
  check ((← readValue szBytes 8) == names.length) "Invalid parameters file format"
  pure (names, s)

/-- `GraphRuntime::LoadParams(strm)`. -/
def GraphRuntime.loadParams (rt : GraphRuntime) (mem : Pool) (blob : List UInt8) :
    Result Pool := do
  let (names, s) ← paramsHeader kTVMNDArrayListMagic blob
  let (mem, _) ← names.foldlM (rt.loadRecord kTVMNDArrayMagic) (mem, s)
  pure mem

end LoadParams

/-! ### What `LoadParams` stores -/

section Stores

variable (kTVMNDArrayListMagic kTVMNDArrayMagic : Nat)

/-- One record of `LoadParams` without its copy: the first slot whose node carries its name,
and the bytes the copy stores there. -/
def GraphRuntime.recordStore (rt : GraphRuntime) (st : List (Nat × List UInt8) × Stream)
    (name : List UInt8) : Result (List (Nat × List UInt8) × Stream) := do
  let slot := rt.firstSlot name
  check (0 ≤ slot) "Found param for non-existent input"
  let (bytes, n, s) ← parseDLTensor kTVMNDArrayMagic st.2 (← rt.slotView slot.toNat)
  pure (st.1 ++ [(slot.toNat, bytes.take n)], s)

/-- What `LoadParams` stores into the input slots, in order: for each record, its slot and
the bytes copied there. -/
def GraphRuntime.paramStores (rt : GraphRuntime) (blob : List UInt8) :
    Result (List (Nat × List UInt8)) := do
  let (names, s) ← paramsHeader kTVMNDArrayListMagic blob
  let (stores, _) ← names.foldlM (rt.recordStore kTVMNDArrayMagic) ([], s)
  pure stores

end Stores

/-- A store into input slot `i`: the write of the slot's view. -/
def GraphRuntime.storeSlot (rt : GraphRuntime) (mem : Pool) (st : Nat × List UInt8) :
    Result Pool := do
  writeView mem (← rt.slotView st.1) st.2

section LoadParamsSpec

/-- A parsed data part carries `size` bytes. -/
theorem parseData_eq_ok {s s' : Stream} {dst : DLTensor} {bytes : List UInt8} {n : Nat}
    (h : parseData s dst = .ok (bytes, n, s')) : n = expectedBytes dst ∧ bytes.length = n := by
  simp only [parseData, bind_eq_ok, check_eq_ok, pure_eq_ok, Prod.mk.injEq] at h
  obtain ⟨⟨⟩, -, n', -, ⟨⟩, hn, -, -, ⟨⟩, -, rfl, rfl, -⟩ := h
  have hn : n' = expectedBytes dst := by simpa using hn
  refine ⟨hn, ?_⟩
  have : (s.read 8).2.read n' |>.1.length ≤ n' := by simp [Stream.read]
  simp; omega
/-- `LoadDLTensor`'s `size` is `GetDataSize` of the view. -/
theorem expectedBytes_eq_size (dst : DLTensor) : expectedBytes dst = dst.size := by
  have h1 := foldl_mul_sizeT dst.shape _ dst.dtype.elemBytes_lt
  have h2 := shapeProduct_eq dst.shape
  apply Int.ofNat.inj
  simp only [expectedBytes, DLTensor.size, getDataSize, Int.ofNat_eq_coe, Nat.cast_mul,
    Int.natCast_mod, Nat.cast_pow] at h1 ⊢
  rw [h1, h2, mul_comm]
  simp [Int.mul_emod]

theorem recordSlot_eq_ok {rt : GraphRuntime} {name : List UInt8} {i : Nat} {dst : DLTensor}
    (h : rt.recordSlot name = .ok (i, dst)) :
    rt.getInputIndex name = .ok i ∧ rt.slotView i = .ok dst := by
  simp only [GraphRuntime.recordSlot, bind_eq_ok, check_eq_ok, pure_eq_ok] at h
  obtain ⟨idx, hidx, ⟨⟩, h0, nid, hnid, eid, heid, ⟨⟩, -, dst', hdst, hpair⟩ := h
  simp only [Prod.mk.injEq] at hpair
  obtain ⟨rfl, rfl⟩ := hpair
  have h0 : 0 ≤ idx := by simpa using h0
  refine ⟨by rw [hidx, Int.toNat_of_nonneg h0], ?_⟩
  simp [GraphRuntime.slotView, bind_eq_ok, hnid, heid, hdst]

/-- A parsed record carries exactly as many bytes as its view holds. -/
theorem parseDLTensor_eq_ok {k : Nat} {s s' : Stream} {dst : DLTensor} {bytes : List UInt8}
    {n : Nat} (h : parseDLTensor k s dst = .ok (bytes, n, s')) :
    n = dst.size ∧ bytes.length = n := by
  unfold parseDLTensor at h
  obtain ⟨s₁, -, h⟩ := bind_eq_ok.mp h
  obtain ⟨hn, hlen⟩ := parseData_eq_ok h
  exact ⟨hn.trans (expectedBytes_eq_size dst), hlen⟩

variable {rt : GraphRuntime} {k : Nat}

private theorem foldlM_loadRecord {names : List (List UInt8)} :
    ∀ {mem mem' : Pool} {s s' : Stream} (acc : List (Nat × List UInt8)),
      names.foldlM (rt.loadRecord k) (mem, s) = .ok (mem', s') →
      ∃ stores, names.foldlM (rt.recordStore k) (acc, s) = .ok (acc ++ stores, s') ∧
        stores.foldlM rt.storeSlot mem = .ok mem' ∧
        ∀ st ∈ stores, ∀ v, rt.slotView st.1 = .ok v → st.2.length = v.size := by
  induction names with
  | nil =>
    intro mem mem' s s' acc h
    simp only [List.foldlM_nil, pure_eq_ok, Prod.mk.injEq] at h
    obtain ⟨rfl, rfl⟩ := h
    exact ⟨[], by simp [pure, Except.pure], rfl, by simp⟩
  | cons name rest ih =>
    intro mem mem' s s' acc h
    rw [List.foldlM_cons, bind_eq_ok] at h
    obtain ⟨⟨mem₁, s₁⟩, hrec, hrest⟩ := h
    simp only [GraphRuntime.loadRecord, loadDLTensor, bind_eq_ok, pure_eq_ok] at hrec
    obtain ⟨⟨slot, dst⟩, hslot, ⟨bytes, n, s₂⟩, hparse, mem₂, hcopy, hpair⟩ := hrec
    simp only [Prod.mk.injEq] at hpair
    obtain ⟨rfl, rfl⟩ := hpair
    obtain ⟨hidx, hview⟩ := recordSlot_eq_ok hslot
    have hfirst : rt.firstSlot name = slot := (getInputIndex_eq_firstSlot hidx).symm
    simp only [copyFromBytes, bind_eq_ok, check_eq_ok, beq_iff_eq] at hcopy
    obtain ⟨⟨⟩, hn, hwrite⟩ := hcopy
    obtain ⟨-, hlen⟩ := parseDLTensor_eq_ok hparse
    obtain ⟨stores, hfold, happly, hsizes⟩ := ih (acc ++ [(slot, bytes.take n)]) hrest
    refine ⟨(slot, bytes.take n) :: stores, ?_, ?_, ?_⟩
    · simpa [GraphRuntime.recordStore, hfirst, hview, hparse, bind_eq_ok] using hfold
    · rw [List.foldlM_cons, bind_eq_ok]
      exact ⟨mem₂, by simp [GraphRuntime.storeSlot, hview, hwrite], happly⟩
    · rintro st (_ | ⟨_, hst⟩) v hv
      · obtain rfl : dst = v := by simpa [hview] using hv
        simp [hlen, hn]
      · exact hsizes st hst v hv
/-- A successful `LoadParams` is the stores `paramStores` lists, each the write of a slot's
view with as many bytes as the view holds. -/
theorem loadParams_eq_ok {k₁ : Nat} {mem mem' : Pool} {blob : List UInt8}
    (h : rt.loadParams k₁ k mem blob = .ok mem') :
    ∃ stores, rt.paramStores k₁ k blob = .ok stores ∧ stores.foldlM rt.storeSlot mem = .ok mem' ∧
      ∀ st ∈ stores, ∀ v, rt.slotView st.1 = .ok v → st.2.length = v.size := by
  simp only [GraphRuntime.loadParams, bind_eq_ok, pure_eq_ok] at h
  obtain ⟨⟨names, s⟩, hhead, ⟨mem₁, s₁⟩, hloop, rfl⟩ := h
  obtain ⟨stores, hfold, happly, hsizes⟩ := foldlM_loadRecord [] hloop
  exact ⟨stores, by simp [GraphRuntime.paramStores, hhead, hfold, bind_eq_ok], happly, hsizes⟩

end LoadParamsSpec

/-- The little-endian bytes of `v` in a field of `n` bytes. -/
def encodeLE (n v : Nat) : List UInt8 := (List.range n).map fun i => UInt8.ofNat (v / 256 ^ i % 256)

/-- A graph with two `float32` inputs: `x` of shape `[1]` and `z` of shape `[0]`. -/
def paramsDoc : JSONValue := .obj [
  ("nodes", .arr [.obj [("op", .str "null"), ("name", .str "x"), ("inputs", .arr [])],
    .obj [("op", .str "null"), ("name", .str "z"), ("inputs", .arr [])]]),
  ("arg_nodes", .arr [.num 0, .num 1]), ("node_row_ptr", .arr [.num 0, .num 1, .num 2]),
  ("heads", .arr [.arr [.num 0, .num 0]]),
  ("attrs", .obj [("dltype", .arr [.str "list_str", .arr [.str "float32", .str "float32"]]),
    ("storage_id", .arr [.str "list_int", .arr [.num 0, .num 1]]),
    ("shape", .arr [.str "list_shape", .arr [.arr [.num 1], .arr [.num 0]]])])]

/-- `String2TVMType` on `float32`. -/
def float32Type (s : String) : Option DLDataType := if s = "float32" then some .float32 else none

/-- The parameter blob of one record named `name`, of shape `[extent]`, with `dataByteSize`
announced and `data` following, under the magic numbers of the TVM headers. -/
def paramsBlob (name : UInt8) (extent dataByteSize : Nat) (data : List UInt8) : List UInt8 :=
  encodeLE 8 0xF7E58D4F05049CB7 ++ encodeLE 8 0 ++ encodeLE 8 1 ++ encodeLE 8 1 ++ [name] ++
    encodeLE 8 1 ++ encodeLE 8 0xDD5E40F096B4A13F ++ encodeLE 8 0 ++ encodeLE 8 1 ++
    encodeLE 4 1 ++ [2, 32, 1, 0] ++ encodeLE 8 extent ++ encodeLE 8 dataByteSize ++ data

/-- On `paramsDoc`, a blob whose record for `x` announces 4 data bytes and ends after the first
is accepted, the missing bytes stored as zeros; a complete blob whose record for `z` has 0
data bytes, as its shape `[0]` requires, is rejected. -/
theorem loadParams_paramsDoc :
    ((GraphRuntime.init float32Type paramsDoc ⟨fun _ => none⟩ false).bind fun rt =>
      rt.loadParams 0xF7E58D4F05049CB7 0xDD5E40F096B4A13F [[9, 9, 9, 9], []]
        (paramsBlob 120 1 4 [171])) = .ok [[171, 0, 0, 0], []] ∧
    ((GraphRuntime.init float32Type paramsDoc ⟨fun _ => none⟩ false).bind fun rt =>
      rt.loadParams 0xF7E58D4F05049CB7 0xDD5E40F096B4A13F [[9, 9, 9, 9], []]
        (paramsBlob 122 0 0 [])) = .error (.check "Invalid DLTensor file format") := by
  decide

end TvmGraphRuntime
