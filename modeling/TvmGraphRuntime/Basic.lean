import Mathlib

/-!
# Faults, vector indexing and machine arithmetic

Every operation of the graph runtime either finishes or stops, and the model keeps the ways
it can stop apart, since several properties of the runtime are about which of them is
reached:

* `Fault.check`: a failed `CHECK`, `CHECK_*`, `TVM_CCALL` or `LOG(FATAL)`, the fatal error
  the runtime reports;
* `Fault.outOfRange`: an index past the end of a `std::vector` (`v[i]`, `v.back()`), which
  the source never checks and which is undefined behaviour;
* `Fault.undefined`: any other undefined behaviour, such as a use of an indeterminate value
  or an access past the end of a tensor's buffer.

`Result` is the monad every operation of the model runs in. `vecAt` is `v[i]` and `check` is
`CHECK(c) << msg`. The integer helpers are the fixed-width conversions of the source:
`size_t` arithmetic is modulo `2^64`, `static_cast<int64_t>` of a `size_t` wraps past
`2^63`, and narrowing an `int64_t` to `int` keeps the low 32 bits as a signed value.
-/

namespace TvmGraphRuntime

/-- How an operation of the runtime stops early. -/
inductive Fault where
  /-- A failed check: the runtime reports the message and aborts the operation. -/
  | check (msg : String)
  /-- A `std::vector` read or write past its end. -/
  | outOfRange (what : String)
  /-- Other undefined behaviour of the source. -/
  | undefined (what : String)
  deriving DecidableEq, Repr

instance Except.decEq {ε α : Type} [DecidableEq ε] [DecidableEq α] : DecidableEq (Except ε α)
  | .ok a, .ok b => decidable_of_iff (a = b) (by simp)
  | .error a, .error b => decidable_of_iff (a = b) (by simp)
  | .ok _, .error _ => isFalse (by simp)
  | .error _, .ok _ => isFalse (by simp)

/-- The monad of the runtime's operations. -/
abbrev Result := Except Fault

/-- `CHECK(c) << msg`. -/
def check (c : Bool) (msg : String) : Result Unit :=
  if c then pure () else throw (.check msg)

/-- `v[i]` on a `std::vector`: the element in range, undefined behaviour past the end. -/
def vecAt {α : Type} (xs : List α) (i : Nat) (what : String) : Result α :=
  match xs[i]? with
  | some a => pure a
  | none => throw (.outOfRange what)

/-! ### Peeling results apart -/

theorem bind_eq_ok {α β : Type} {x : Result α} {f : α → Result β} {b : β} :
    x >>= f = .ok b ↔ ∃ a, x = .ok a ∧ f a = .ok b := by
  cases x with
  | error e => exact iff_of_false (fun h => nomatch h) fun ⟨_, h, _⟩ => nomatch h
  | ok a => exact ⟨fun h => ⟨a, rfl, h⟩, fun ⟨_, h, hf⟩ => Except.ok.inj h ▸ hf⟩

@[simp] theorem ok_bind {α β : Type} (a : α) (f : α → Result β) :
    (Except.ok a : Result α) >>= f = f a := rfl

@[simp] theorem pure_eq_ok {α : Type} {a b : α} : (pure a : Result α) = .ok b ↔ a = b := by
  simp [pure, Except.pure]

@[simp] theorem throw_ne_ok {α : Type} {e : Fault} {a : α} : (throw e : Result α) ≠ .ok a := by
  simp [throw, throwThe, MonadExceptOf.throw, Except.error]

@[simp] theorem check_eq_ok {c : Bool} {msg : String} {u : Unit} :
    check c msg = .ok u ↔ c = true := by
  cases c <;> simp [check]

theorem vecAt_eq_ok {α : Type} {xs : List α} {i : Nat} {what : String} {a : α} :
    vecAt xs i what = .ok a ↔ xs[i]? = some a := by
  unfold vecAt
  cases h : xs[i]? <;> simp

theorem vecAt_of_lt {α : Type} {xs : List α} {i : Nat} (what : String) (h : i < xs.length) :
    vecAt xs i what = .ok xs[i] := by
  simp [vecAt_eq_ok, h]

theorem vecAt_eq_outOfRange {α : Type} {xs : List α} {i : Nat} {what : String}
    (h : xs.length ≤ i) : vecAt xs i what = throw (.outOfRange what) := by
  simp [vecAt, List.getElem?_eq_none h]

theorem mapM_eq_ok {α β : Type} {f : α → Result β} {l : List α} {bs : List β} :
    l.mapM f = .ok bs ↔ List.Forall₂ (fun a b => f a = .ok b) l bs := by
  induction l generalizing bs with
  | nil =>
    rw [List.mapM_nil]
    cases bs with
    | nil => exact iff_of_true rfl .nil
    | cons b bs => exact iff_of_false (fun h => nomatch h) fun h => nomatch h
  | cons a l ih =>
    rw [List.mapM_cons]
    cases bs with
    | nil =>
      simp only [bind_eq_ok, pure_eq_ok]
      exact iff_of_false (fun ⟨_, _, _, _, h⟩ => nomatch h) fun h => nomatch h
    | cons b bs =>
      simp only [bind_eq_ok, pure_eq_ok, List.cons.injEq, List.forall₂_cons, ← ih]
      constructor
      · rintro ⟨b, hb, bs, hbs, rfl, rfl⟩; exact ⟨hb, hbs⟩
      · rintro ⟨hb, hbs⟩; exact ⟨b, hb, bs, hbs, rfl, rfl⟩

/-- A `mapM` whose function succeeds exactly where `P` holds, with `g`, succeeds exactly on the
lists within `P`, with the map of `g`. -/
theorem mapM_eq_ok_iff {α β : Type} {f : α → Result β} {P : α → Prop} {g : α → β}
    (hf : ∀ a b, f a = .ok b ↔ P a ∧ b = g a) (l : List α) (bs : List β) :
    l.mapM f = .ok bs ↔ (∀ a ∈ l, P a) ∧ bs = l.map g := by
  induction l generalizing bs with
  | nil =>
    simp only [List.mapM_nil, pure_eq_ok, List.not_mem_nil, false_implies, implies_true,
      true_and, List.map_nil]
    exact eq_comm
  | cons a l ih =>
    simp only [List.mapM_cons, bind_eq_ok, pure_eq_ok, hf, ih, List.mem_cons, forall_eq_or_imp,
      List.map_cons]
    constructor
    · rintro ⟨_, ⟨ha, rfl⟩, _, ⟨hl, rfl⟩, rfl⟩
      exact ⟨⟨ha, hl⟩, rfl⟩
    · rintro ⟨⟨ha, hl⟩, rfl⟩
      exact ⟨_, ⟨ha, rfl⟩, _, ⟨hl, rfl⟩, rfl⟩

/-- Every result of a successful `mapM` comes from an element. -/
theorem exists_of_mem_mapM {α β : Type} {f : α → Result β} {l : List α} {bs : List β}
    (h : l.mapM f = .ok bs) {b : β} (hb : b ∈ bs) : ∃ a ∈ l, f a = .ok b := by
  have h₂ := mapM_eq_ok.mp h
  clear h
  induction h₂ with
  | nil => simp at hb
  | cons ha _ ih =>
    rcases List.mem_cons.mp hb with rfl | hb
    · exact ⟨_, List.mem_cons_self _ _, ha⟩
    · obtain ⟨a, hmem, hfa⟩ := ih hb
      exact ⟨a, List.mem_cons_of_mem _ hmem, hfa⟩

/-- A successful `mapM` over `List.range n`: one result per index. -/
theorem mapM_range_eq_ok {β : Type} {f : Nat → Result β} {n : Nat} {bs : List β}
    (h : (List.range n).mapM f = .ok bs) :
    bs.length = n ∧ ∀ i (hi : i < bs.length), f i = .ok bs[i] := by
  have h2 := mapM_eq_ok.mp h
  have hlen : bs.length = n := by simpa using h2.length_eq.symm
  refine ⟨hlen, fun i hi => ?_⟩
  have := (List.forall₂_iff_get.mp h2).2 i (by simpa [hlen] using hi) hi
  simpa using this

/-- A successful `mapM` over `List.range n` whose every result is determined by its index. -/
theorem eq_map_of_mapM_range {β : Type} {f : Nat → Result β} {g : Nat → β} {n : Nat}
    {bs : List β} (h : (List.range n).mapM f = .ok bs)
    (hg : ∀ i < n, ∀ b, f i = .ok b → b = g i) : bs = (List.range n).map g := by
  obtain ⟨hlen, hf⟩ := mapM_range_eq_ok h
  apply List.ext_getElem (by simp [hlen])
  intro i h₁ _
  simpa using hg i (hlen ▸ h₁) _ (hf i h₁)

/-- The last step of a fold over `List.range (n + 1)`. -/
theorem foldlM_range_succ {β : Type} (f : β → Nat → Result β) (n : Nat) (b : β) :
    (List.range (n + 1)).foldlM f b = (List.range n).foldlM f b >>= fun b => f b n := by
  rw [List.range_succ, List.foldlM_append]
  simp

/-- A property that every step keeps holds after a successful fold. -/
theorem foldlM_invariant {α β : Type} {f : β → α → Result β} (P : β → Prop) {l : List α}
    {init r : β} (h0 : P init) (hstep : ∀ a ∈ l, ∀ b b', P b → f b a = .ok b' → P b')
    (h : l.foldlM f init = .ok r) : P r := by
  induction l generalizing init with
  | nil => simp [pure, Except.pure] at h; exact h ▸ h0
  | cons a l ih =>
    rw [List.foldlM_cons, bind_eq_ok] at h
    obtain ⟨b, hb, hr⟩ := h
    exact ih (hstep a (by simp) _ _ h0 hb) (fun a ha => hstep a (by simp [ha])) hr

/-! ### Fixed-width integers -/

/-- `static_cast<size_t>` of a signed value: its residue modulo `2^64`. -/
def sizeT (x : Int) : Nat := (x % 2 ^ 64).toNat

/-- `static_cast<int64_t>` of a `size_t`: values from `2^63` on wrap to negatives. -/
def int64OfSizeT (n : Nat) : Int := if n < 2 ^ 63 then n else n - 2 ^ 64

/-- Narrowing an `int64_t` to `int`: the low 32 bits read as a signed value. -/
def narrowToInt (x : Int) : Int := x.bmod (2 ^ 32)

theorem sizeT_lt (x : Int) : sizeT x < 2 ^ 64 := by
  unfold sizeT
  omega

theorem sizeT_of_nonneg {x : Int} (h0 : 0 ≤ x) (h : x < 2 ^ 64) : sizeT x = x.toNat := by
  unfold sizeT
  rw [Int.emod_eq_of_lt h0 h]

theorem int64OfSizeT_of_lt {n : Nat} (h : n < 2 ^ 63) : int64OfSizeT n = n := if_pos h

theorem narrowToInt_of_lt {x : Int} (h0 : -2 ^ 31 ≤ x) (h : x < 2 ^ 31) : narrowToInt x = x := by
  unfold narrowToInt
  rw [Int.bmod_def]
  split <;> omega

end TvmGraphRuntime
