import TvmGraphRuntime.Basic

/-!
# Tensor views, their byte sizes and the pool memory

A `DLTensor` of the runtime is a view: the pool buffer its data pointer points at (every
view the runtime builds starts at offset 0 of a pool buffer, so the buffer's index is the
whole pointer), a shape and an element type. `getDataSize` is `GraphRuntime::GetDataSize`,
the byte size of a view computed in `size_t`: the extents are multiplied modulo `2^64` and
the product is scaled by the bytes per element.

The memory the runtime owns is the list of its pool buffers' bytes. `readView` and
`writeView` are how a kernel or a copy touches a view: the first `getDataSize` bytes of the
pool buffer, and an access past the buffer's end is undefined behaviour. Tensors of the
caller (`HostTensor`) live in memory of their own and carry their bytes, as many as their
descriptor says.
-/

namespace TvmGraphRuntime

/-- `DLDataType`: type code, bits per lane and lanes, at the widths of the source. -/
structure DLDataType where
  code : UInt8
  bits : UInt8
  lanes : UInt16
  deriving DecidableEq, Repr

/-- The `float32` element type the pool buffers are allocated with (`kDLFloat`, 32 bits). -/
def DLDataType.float32 : DLDataType := ⟨2, 32, 1⟩

/-- Bytes per element, `(bits * lanes + 7) / 8`. -/
def DLDataType.elemBytes (t : DLDataType) : Nat := (t.bits.toNat * t.lanes.toNat + 7) / 8

theorem DLDataType.elemBytes_lt (t : DLDataType) : t.elemBytes < 2 ^ 64 := by
  have : t.bits.toNat * t.lanes.toNat < 256 * 65536 :=
    Nat.mul_lt_mul'' t.bits.toNat_lt_size t.lanes.toNat_lt_size
  unfold DLDataType.elemBytes
  omega

theorem DLDataType.elemBytes_of_dvd {t : DLDataType} (h : t.bits.toNat * t.lanes.toNat % 8 = 0) :
    t.elemBytes = t.bits.toNat * t.lanes.toNat / 8 := by
  unfold DLDataType.elemBytes; omega

/-- A tensor view of the runtime: the pool buffer it points into, its shape and its type. -/
structure DLTensor where
  data : Nat
  shape : List Int
  dtype : DLDataType
  deriving DecidableEq, Repr

instance : Inhabited DLTensor := ⟨⟨0, [], .float32⟩⟩

/-- `ndim` of a view: the length of its shape. -/
def DLTensor.ndim (t : DLTensor) : Nat := t.shape.length

/-- The `size_t` product of the extents: each `int64_t` extent converted to `size_t`. -/
def shapeProduct (shape : List Int) : Nat :=
  shape.foldl (fun size d => size * sizeT d % 2 ^ 64) 1

/-- `GetDataSize`: the product of the extents times the bytes per element, in `size_t`. -/
def getDataSize (shape : List Int) (dtype : DLDataType) : Nat :=
  shapeProduct shape * dtype.elemBytes % 2 ^ 64

/-- The byte size of a view. -/
def DLTensor.size (t : DLTensor) : Nat := getDataSize t.shape t.dtype

/-- A tensor of the caller's: its descriptor and exactly as many bytes as it describes. -/
structure HostTensor where
  shape : List Int
  dtype : DLDataType
  bytes : List UInt8
  bytes_length : bytes.length = getDataSize shape dtype

/-! ### The product of the extents -/

/-- Multiplying extents into a `size_t` accumulator gives the exact product modulo `2^64`. -/
theorem foldl_mul_sizeT (shape : List Int) (acc : Nat) (h : acc < 2 ^ 64) :
    ((shape.foldl (fun size d => size * sizeT d % 2 ^ 64) acc : Nat) : Int) =
      (acc * shape.prod) % 2 ^ 64 := by
  induction shape generalizing acc with
  | nil => rw [List.foldl_nil, List.prod_nil, mul_one]; omega
  | cons d ds ih =>
    rw [List.foldl_cons, ih _ (Nat.mod_lt _ (by decide)), List.prod_cons]
    have hd : ((sizeT d : Nat) : Int) = d % 2 ^ 64 := by
      unfold sizeT; omega
    push_cast [hd]
    simp only [Int.mul_emod, dvd_refl, Int.emod_emod_of_dvd, ← mul_assoc]

/-- The `size_t` product is the exact product of the extents modulo `2^64`. -/
theorem shapeProduct_eq (shape : List Int) :
    (shapeProduct shape : Int) = shape.prod % 2 ^ 64 := by
  simpa using foldl_mul_sizeT shape 1 (by decide)

theorem shapeProduct_lt (shape : List Int) : shapeProduct shape < 2 ^ 64 := by
  have h := shapeProduct_eq shape
  omega

/-- Extents that are non-negative with a product below `2^64` multiply without wrapping. -/
theorem shapeProduct_of_lt {shape : List Int} (h0 : 0 ≤ shape.prod) (h : shape.prod < 2 ^ 64) :
    (shapeProduct shape : Int) = shape.prod := by
  rw [shapeProduct_eq, Int.emod_eq_of_lt h0 h]

theorem shapeProduct_eq_sizeT (shape : List Int) : shapeProduct shape = sizeT shape.prod := by
  have := shapeProduct_eq shape
  unfold sizeT
  omega

/-- A view made one-dimensional with its element count keeps its byte size. -/
theorem DLTensor.size_flatten (t : DLTensor) :
    ({ t with shape := [t.shape.prod] } : DLTensor).size = t.size := by
  simp only [DLTensor.size, getDataSize, shapeProduct_eq_sizeT, List.prod_cons, List.prod_nil,
    mul_one]

/-! ### Pool memory -/

/-- The bytes of a view: the first `size` bytes of its pool buffer. -/
def readView (mem : List (List UInt8)) (t : DLTensor) : Result (List UInt8) :=
  match mem[t.data]? with
  | none => throw (.undefined "dangling data pointer")
  | some buf =>
    if t.size ≤ buf.length then pure (buf.take t.size)
    else throw (.undefined "read past the end of a pool buffer")

/-- Writing `bytes` at the start of a view's pool buffer. -/
def writeView (mem : List (List UInt8)) (t : DLTensor) (bytes : List UInt8) :
    Result (List (List UInt8)) :=
  match mem[t.data]? with
  | none => throw (.undefined "dangling data pointer")
  | some buf =>
    if bytes.length ≤ buf.length then pure (mem.set t.data (bytes ++ buf.drop bytes.length))
    else throw (.undefined "write past the end of a pool buffer")

theorem readView_eq_ok {mem : List (List UInt8)} {t : DLTensor} {bytes : List UInt8} :
    readView mem t = .ok bytes ↔
      ∃ buf, mem[t.data]? = some buf ∧ t.size ≤ buf.length ∧ bytes = buf.take t.size := by
  unfold readView
  cases mem[t.data]? with
  | none => exact iff_of_false throw_ne_ok fun ⟨_, h, _⟩ => nomatch h
  | some buf =>
    by_cases h : t.size ≤ buf.length <;>
      simp only [h, ↓reduceIte, pure_eq_ok, throw_ne_ok, @eq_comm _ bytes, Option.some.injEq,
        exists_eq_left', false_and, true_and, false_iff, not_false_eq_true]

theorem writeView_eq_ok {mem mem' : List (List UInt8)} {t : DLTensor} {bytes : List UInt8} :
    writeView mem t bytes = .ok mem' ↔
      ∃ buf, mem[t.data]? = some buf ∧ bytes.length ≤ buf.length ∧
        mem' = mem.set t.data (bytes ++ buf.drop bytes.length) := by
  unfold writeView
  cases mem[t.data]? with
  | none => exact iff_of_false throw_ne_ok fun ⟨_, h, _⟩ => nomatch h
  | some buf =>
    by_cases h : bytes.length ≤ buf.length <;>
      simp only [h, ↓reduceIte, pure_eq_ok, throw_ne_ok, @eq_comm _ mem', Option.some.injEq,
        exists_eq_left', false_and, true_and, false_iff, not_false_eq_true]

/-- A read returns as many bytes as the view holds. -/
theorem length_of_readView {mem : List (List UInt8)} {t : DLTensor} {bytes : List UInt8}
    (h : readView mem t = .ok bytes) : bytes.length = t.size := by
  obtain ⟨buf, -, hle, rfl⟩ := readView_eq_ok.mp h
  simpa using hle

/-- A write keeps the length of every buffer. -/
theorem length_of_writeView {mem mem' : List (List UInt8)} {t : DLTensor} {bytes : List UInt8}
    (h : writeView mem t bytes = .ok mem') (i : Nat) :
    (mem'.map List.length)[i]? = (mem.map List.length)[i]? := by
  obtain ⟨buf, hbuf, hle, rfl⟩ := writeView_eq_ok.mp h
  simp only [List.map_set, List.getElem?_map, List.getElem?_set, List.length_map]
  split_ifs with hi hlt
  · subst hi
    simp [hbuf, hle]
  · subst hi
    simp [List.getElem?_eq_none (Nat.le_of_not_lt hlt)]
  · rfl

/-- A write leaves every other buffer as it was. -/
theorem getElem?_of_writeView {mem mem' : List (List UInt8)} {t : DLTensor}
    {bytes : List UInt8} (h : writeView mem t bytes = .ok mem') {i : Nat} (hi : i ≠ t.data) :
    mem'[i]? = mem[i]? := by
  obtain ⟨buf, -, -, rfl⟩ := writeView_eq_ok.mp h
  simp [List.getElem?_set, Ne.symm hi]

/-- After a write of a view's full size, reading the view gives the bytes written. -/
theorem readView_of_writeView {mem mem' : List (List UInt8)} {t : DLTensor}
    {bytes : List UInt8} (h : writeView mem t bytes = .ok mem') (hlen : bytes.length = t.size) :
    readView mem' t = .ok bytes := by
  obtain ⟨buf, hbuf, hle, rfl⟩ := writeView_eq_ok.mp h
  have hlt : t.data < mem.length := (List.getElem?_eq_some_iff.mp hbuf).1
  rw [readView_eq_ok]
  refine ⟨_, List.getElem?_set_self hlt, by simp; omega, ?_⟩
  simp [← hlen]

end TvmGraphRuntime
