import TvmGraphRuntime.Load

/-!
# What the loader accepts, and what it reads

The graph text's format, stated without the loaders' bitmasks and loops:

* a validator per level (`entryOk`, `paramOk`, `nodeOk`, `graphAttrOk`, `graphOk`): every
  field of an object has a known key and a value of the right shape, and every required key
  occurs;
* a decoder per level (`decodeEntry`, `decodeParam`, `decodeNode`, `decodeGraphAttr`,
  `decodeGraph`): every field is read from the last occurrence of its key (`lastOf`).

`Decodes r ok d` says that the reader `r` accepts exactly what `ok` accepts and returns what
`d` decodes. Each of the four loaders is a fold of a one-field step over an object's fields,
or-ing one bit per required key into a mask; `foldlM_fields` turns such a fold into the
validation of every field and a pure update, and `mask_eq_full` says that the final mask is
full iff every required key occurred. Each level's update overlays the field it reads on the
record (`paramOf`, `nodeOf`, `graphAttrOf`, `graphOf`, with `fieldOf`), and `foldl_overlay`
says that the walk ends with the overlay of every key's last occurrence. **`load_decodes`**:
`Load` accepts exactly the documents `graphOk` accepts and reads `decodeGraph` of them.
-/

namespace TvmGraphRuntime

open JSONReader

/-! ### Readers and what they decode -/

theorem map_eq_ok {α β : Type} {f : α → β} {x : Result α} {b : β} :
    f <$> x = .ok b ↔ ∃ a, x = .ok a ∧ f a = b := by
  cases x <;> simp [Functor.map, Except.map]

/-- The reader `r` accepts exactly what `ok` accepts, and returns what `d` decodes. -/
def Decodes {α : Type} (r : JSONValue → Result α) (ok : JSONValue → Bool) (d : JSONValue → α) :
    Prop :=
  ∀ v a, r v = .ok a ↔ ok v ∧ a = d v

/-- A JSON string. -/
def stringOk : JSONValue → Bool
  | .str _ => true
  | _ => false

def decodeString : JSONValue → String
  | .str s => s
  | _ => ""

/-- An integer literal whose magnitude fits `w` bits, which `istream >>` stores into an
unsigned field modulo `2^w`. -/
def unsignedOk (w : Nat) : JSONValue → Bool
  | .num n => n.natAbs < 2 ^ w
  | _ => false

def decodeUnsigned (w : Nat) : JSONValue → Nat
  | .num n => (n % 2 ^ w).toNat
  | _ => 0

/-- An integer literal in the range of a signed `w`-bit field. -/
def signedOk (w : Nat) : JSONValue → Bool
  | .num n => -2 ^ (w - 1) ≤ n && n < 2 ^ (w - 1)
  | _ => false

def decodeSigned : JSONValue → Int
  | .num n => n
  | _ => 0

/-- An array whose every item `ok` accepts. -/
def arrayOk (ok : JSONValue → Bool) : JSONValue → Bool
  | .arr items => items.all ok
  | _ => false

def decodeArray {α : Type} (d : JSONValue → α) : JSONValue → List α
  | .arr items => items.map d
  | _ => []

theorem decodes_readString : Decodes readString stringOk decodeString := by
  intro v a
  cases v <;> simp [readString, stringOk, decodeString, pure, Except.pure, throw,
    throwThe, MonadExceptOf.throw, eq_comm]

theorem decodes_readUnsigned (w : Nat) : Decodes (readUnsigned w) (unsignedOk w) (decodeUnsigned w) := by
  intro v a
  cases v <;> simp [readUnsigned, unsignedOk, decodeUnsigned, pure, Except.pure, throw,
    throwThe, MonadExceptOf.throw]
  split_ifs <;> simp_all [eq_comm]

theorem decodes_readSigned (w : Nat) : Decodes (readSigned w) (signedOk w) decodeSigned := by
  intro v a
  cases v <;> simp [readSigned, signedOk, decodeSigned, pure, Except.pure, throw,
    throwThe, MonadExceptOf.throw]
  split_ifs <;> simp_all [eq_comm]

theorem Decodes.mapM {α : Type} {r : JSONValue → Result α} {ok : JSONValue → Bool}
    {d : JSONValue → α} (h : Decodes r ok d) (items : List JSONValue) (as : List α) :
    items.mapM r = .ok as ↔ items.all ok ∧ as = items.map d := by
  induction items generalizing as with
  | nil =>
    simp only [List.mapM_nil, pure_eq_ok, List.all_nil, List.map_nil, true_and]
    exact eq_comm
  | cons v items ih =>
    simp only [List.mapM_cons, bind_eq_ok, pure_eq_ok, h v, ih, List.all_cons, Bool.and_eq_true,
      List.map_cons]
    constructor
    · rintro ⟨a, ⟨hv, rfl⟩, as', ⟨hall, rfl⟩, rfl⟩
      exact ⟨⟨hv, hall⟩, rfl⟩
    · rintro ⟨⟨hv, hall⟩, rfl⟩
      exact ⟨_, ⟨hv, rfl⟩, _, ⟨hall, rfl⟩, rfl⟩

theorem Decodes.array {α : Type} {r : JSONValue → Result α} {ok : JSONValue → Bool}
    {d : JSONValue → α} (h : Decodes r ok d) : Decodes (readArray r) (arrayOk ok) (decodeArray d) := by
  intro v as
  cases v with
  | arr items => simpa [readArray, beginArray, arrayOk, decodeArray] using h.mapM items as
  | _ => simp only [readArray, beginArray, bind_eq_ok, throw_ne_ok, false_and, exists_false,
    arrayOk, Bool.false_eq_true]

/-- A read followed by a pure update. -/
theorem Decodes.bind_pure {α β : Type} {r : JSONValue → Result α} {ok : JSONValue → Bool}
    {d : JSONValue → α} (h : Decodes r ok d) (f : α → β) (v : JSONValue) (b : β) :
    (r v >>= fun a => pure (f a)) = .ok b ↔ ok v ∧ b = f (d v) := by
  simp only [bind_eq_ok, h v, pure_eq_ok]
  constructor
  · rintro ⟨_, ⟨hv, rfl⟩, rfl⟩
    exact ⟨hv, rfl⟩
  · rintro ⟨hv, rfl⟩
    exact ⟨_, ⟨hv, rfl⟩, rfl⟩
/-- A node entry: two or three `uint32_t`s. -/
def entryOk : JSONValue → Bool
  | .arr items => (items.length == 2 || items.length == 3) && items.all (unsignedOk 32)
  | _ => false

/-- A node entry's `node_id`, `index` and `version`, `0` when it is missing. -/
def decodeEntry : JSONValue → NodeEntry
  | .arr (a :: b :: rest) =>
    ⟨decodeUnsigned 32 a, decodeUnsigned 32 b, (rest.head?.map (decodeUnsigned 32)).getD 0⟩
  | _ => ⟨0, 0, 0⟩

theorem decodes_entry : Decodes NodeEntry.load entryOk decodeEntry := by
  intro v e
  have hu : ∀ v n, readUInt32 v = .ok n ↔ unsignedOk 32 v ∧ n = decodeUnsigned 32 v :=
    decodes_readUnsigned 32
  cases v with
  | arr items =>
    rcases items with _ | ⟨a, _ | ⟨b, _ | ⟨c, _ | ⟨x, rest⟩⟩⟩⟩ <;>
      simp only [NodeEntry.load, beginArray, nextArrayItem, pure_bind, bind_eq_ok, hu, pure_eq_ok,
        check_eq_ok, throw_ne_ok, List.isEmpty_nil, List.isEmpty_cons, Bool.false_eq_true,
        true_and, false_and, and_false, exists_false, exists_const, and_assoc, exists_and_left,
        exists_eq_left, entryOk, List.length_cons, List.length_nil, Nat.zero_add, Nat.reduceAdd,
        List.all_cons, List.all_nil, Bool.and_true, Bool.and_eq_true, Bool.or_eq_true, beq_iff_eq,
        Nat.reduceEqDiff, or_self, or_true, or_false, decodeEntry, List.head?_nil, List.head?_cons,
        Option.map_none', Option.map_some', Option.getD_none, Option.getD_some, @eq_comm _ e]
  | _ => simp only [NodeEntry.load, beginArray, bind_eq_ok, throw_ne_ok, false_and, exists_false,
    entryOk, Bool.false_eq_true]

/-! ### The loops over an object's fields -/

/-- A loop over an object's fields whose step accepts each field on its own, or-s the
field's bit into the mask and applies a pure update: it succeeds iff every field is accepted,
and ends with all the updates and all the bits. -/
theorem foldlM_fields {σ : Type} {step : σ × Nat → String × JSONValue → Result (σ × Nat)}
    {ok : String → JSONValue → Bool} {upd : σ → String × JSONValue → σ} {bit : String → Nat}
    (hstep : ∀ s m kv r, step (s, m) kv = .ok r ↔ ok kv.1 kv.2 ∧ r = (upd s kv, m ||| bit kv.1))
    (fields : List (String × JSONValue)) (s : σ) (m : Nat) (r : σ × Nat) :
    fields.foldlM step (s, m) = .ok r ↔
      fields.all (fun kv => ok kv.1 kv.2) ∧
        r = (fields.foldl upd s, fields.foldl (fun m kv => m ||| bit kv.1) m) := by
  induction fields generalizing s m with
  | nil =>
    simp only [List.foldlM_nil, pure_eq_ok, List.all_nil, List.foldl_nil, true_and]
    exact eq_comm
  | cons kv fields ih =>
    simp only [List.foldlM_cons, bind_eq_ok, List.all_cons, Bool.and_eq_true, List.foldl_cons]
    constructor
    · rintro ⟨⟨s', m'⟩, h₁, h₂⟩
      obtain ⟨hok, hr⟩ := (hstep s m kv _).mp h₁
      obtain ⟨rfl, rfl⟩ := Prod.mk.inj hr
      exact ⟨⟨hok, ((ih _ _).mp h₂).1⟩, ((ih _ _).mp h₂).2⟩
    · rintro ⟨⟨hok, hall⟩, rfl⟩
      exact ⟨_, (hstep s m kv _).mpr ⟨hok, rfl⟩, (ih _ _).mpr ⟨hall, rfl⟩⟩

/-- The value of the last field whose key `p` accepts. -/
def lastOf (p : String → Bool) (fields : List (String × JSONValue)) : Option JSONValue :=
  (fields.reverse.find? fun kv => p kv.1).map Prod.snd

/-- One field, looked up by a key predicate. -/
def fieldOf (kv : String × JSONValue) (p : String → Bool) : Option JSONValue :=
  if p kv.1 then some kv.2 else none

theorem lastOf_cons (kv : String × JSONValue) (fields : List (String × JSONValue))
    (p : String → Bool) : lastOf p (kv :: fields) = (lastOf p fields).or (fieldOf kv p) := by
  unfold lastOf fieldOf
  rw [List.reverse_cons, List.find?_append]
  cases h : fields.reverse.find? (fun kv => p kv.1) <;> by_cases hp : p kv.1 <;> simp [h, hp]

/-- A loop whose every step overlays the field it reads on the state ends with the overlay
of the last occurrence of every key. -/
theorem foldl_overlay {σ : Type} (ofGet : ((String → Bool) → Option JSONValue) → σ → σ)
    (hnone : ∀ s, ofGet (fun _ => none) s = s)
    (hcomp : ∀ g₁ g₂ s, ofGet g₂ (ofGet g₁ s) = ofGet (fun p => (g₂ p).or (g₁ p)) s)
    (fields : List (String × JSONValue)) (s : σ) :
    fields.foldl (fun s kv => ofGet (fieldOf kv) s) s = ofGet (lastOf · fields) s := by
  induction fields generalizing s with
  | nil => exact hnone s |>.symm
  | cons kv fields ih =>
    rw [List.foldl_cons, ih, hcomp]
    congr 1
    funext p
    rw [lastOf_cons]

/-- Overlaying two lookups on a field. -/
theorem getD_map_or {α : Type} (d : JSONValue → α) (o₁ o₂ : Option JSONValue) (x : α) :
    (o₂.map d).getD ((o₁.map d).getD x) = ((o₂.or o₁).map d).getD x := by
  cases o₂ <;> rfl

/-- A key occurs among the fields. -/
def hasKey (fields : List (String × JSONValue)) (key : String) : Bool :=
  fields.any fun kv => kv.1 == key

/-- The bit a loader or-s in for `key`: `2^i` for the `i`-th of the required keys, none
for another key. -/
def keyBit : List String → String → Nat
  | [], _ => 0
  | r :: rs, key => if key = r then 1 else 2 * keyBit rs key

theorem testBit_keyBit {req : List String} (hnd : req.Nodup) (key : String) (j : Nat) :
    (keyBit req key).testBit j = (req[j]? == some key) := by
  induction req generalizing j with
  | nil => simp [keyBit]
  | cons r rs ih =>
    rw [List.nodup_cons] at hnd
    by_cases hk : key = r
    · subst hk
      rcases j with _ | j
      · simp [keyBit]
      · have : rs[j]? ≠ some key := fun h => hnd.1 (List.getElem?_mem h)
        simp [keyBit, Nat.testBit_succ, this]
    · rcases j with _ | j
      · simp [keyBit, hk, Nat.testBit_zero, Ne.symm hk]
      · simp [keyBit, hk, Nat.testBit_succ, ih hnd.2]

/-- A key that is not required sets no bit. -/
theorem keyBit_of_not_mem {req : List String} {key : String} (h : key ∉ req) :
    keyBit req key = 0 := by
  induction req with
  | nil => rfl
  | cons r rs ih =>
    rw [List.mem_cons, not_or] at h
    simp [keyBit, h.1, ih h.2]

theorem testBit_foldl_or {α : Type} (f : α → Nat) (l : List α) (m j : Nat) :
    (l.foldl (fun m a => m ||| f a) m).testBit j = (m.testBit j || l.any fun a => (f a).testBit j) := by
  induction l generalizing m with
  | nil => simp
  | cons a l ih => simp [ih, Nat.testBit_or, Bool.or_assoc]

/-- The mask of a loop is full iff every required key occurs. -/
theorem mask_eq_full {req : List String} (hnd : req.Nodup) (fields : List (String × JSONValue)) :
    (fields.foldl (fun m kv => m ||| keyBit req kv.1) 0 == 2 ^ req.length - 1) =
      req.all (hasKey fields) := by
  rw [Bool.eq_iff_iff, beq_iff_eq, List.all_eq_true]
  constructor
  · intro h key hkey
    obtain ⟨j, hj, rfl⟩ := List.getElem_of_mem hkey
    have := congrArg (Nat.testBit · j) h
    simp only [testBit_foldl_or, testBit_keyBit hnd, Nat.testBit_two_pow_sub_one, hj,
      decide_True, Nat.zero_testBit, Bool.false_or, List.any_eq_true] at this
    obtain ⟨kv, hkv, heq⟩ := this
    simp only [beq_iff_eq, List.getElem?_eq_getElem hj, Option.some.injEq] at heq
    exact List.any_eq_true.mpr ⟨kv, hkv, by simp [heq]⟩
  · intro h
    refine Nat.eq_of_testBit_eq fun j => ?_
    simp only [testBit_foldl_or, testBit_keyBit hnd, Nat.testBit_two_pow_sub_one,
      Nat.zero_testBit, Bool.false_or]
    by_cases hj : j < req.length
    · obtain ⟨kv, hkv, heq⟩ := List.any_eq_true.mp (h _ (List.getElem_mem hj))
      simp only [hj, decide_True, List.any_eq_true]
      exact ⟨kv, hkv, by simpa [List.getElem?_eq_getElem hj] using (beq_iff_eq.mp heq).symm⟩
    · simp [hj, List.getElem?_eq_none (Nat.le_of_not_lt hj)]

/-- The shape of the four object loaders after `BeginObject`: walk the fields from `s₀` with
an empty mask, then check that the mask is `full`. -/
def loadFields {σ : Type} (step : σ × Nat → String × JSONValue → Result (σ × Nat)) (s₀ : σ)
    (full : Nat) (msg : String) (fields : List (String × JSONValue)) : Result σ := do
  let (s, bitmask) ← fields.foldlM step (s₀, 0)
  check (bitmask == full) msg
  pure s

/-- An object loader succeeds iff every field is accepted and every required key occurs; it
returns the updates of all fields. -/
theorem loadFields_eq_ok {σ : Type} {step : σ × Nat → String × JSONValue → Result (σ × Nat)}
    {ok : String → JSONValue → Bool} {upd : σ → String × JSONValue → σ} {req : List String}
    (hnd : req.Nodup)
    (hstep : ∀ s m kv r, step (s, m) kv = .ok r ↔ ok kv.1 kv.2 ∧ r = (upd s kv, m ||| keyBit req kv.1))
    (s₀ : σ) (msg : String) (fields : List (String × JSONValue)) (r : σ) :
    loadFields step s₀ (2 ^ req.length - 1) msg fields = .ok r ↔
      (fields.all (fun kv => ok kv.1 kv.2) && req.all (hasKey fields)) ∧ r = fields.foldl upd s₀ := by
  simp only [loadFields, bind_eq_ok, check_eq_ok, pure_eq_ok, foldlM_fields hstep,
    Bool.and_eq_true]
  constructor
  · rintro ⟨_, ⟨hall, rfl⟩, u, hmask, rfl⟩
    exact ⟨⟨hall, mask_eq_full hnd fields ▸ hmask⟩, rfl⟩
  · rintro ⟨⟨hall, hkeys⟩, rfl⟩
    exact ⟨_, ⟨hall, rfl⟩, (), (mask_eq_full hnd fields).trans hkeys, rfl⟩

theorem lastOf_isSome (key : String) (fields : List (String × JSONValue)) :
    (lastOf (· == key) fields).isSome = hasKey fields key := by
  rw [Bool.eq_iff_iff]
  simp only [lastOf, Option.isSome_map', List.find?_isSome, List.mem_reverse, hasKey,
    List.any_eq_true]

/-- A field whose key occurs does not depend on the default. -/
theorem getD_lastOf {α : Type} {fields : List (String × JSONValue)} {key : String}
    (h : hasKey fields key) {d : JSONValue → α} (a b : α) :
    ((lastOf (· == key) fields).map d).getD a = ((lastOf (· == key) fields).map d).getD b := by
  obtain ⟨x, hx⟩ := Option.isSome_iff_exists.mp ((lastOf_isSome key fields).trans h)
  simp [hx]

/-! ### `Node::LoadAttrs` -/

/-- The keys `Node::LoadAttrs` requires, in the order of their bits. -/
def paramKeys : List String := ["func_name", "num_inputs", "num_outputs", "flatten_data"]

/-- A node's `attrs`: an object of strings holding the four attributes; other keys are
allowed. -/
def paramOk : JSONValue → Bool
  | .obj fields => fields.all (fun kv => stringOk kv.2) && paramKeys.all (hasKey fields)
  | _ => false

/-- The attributes that the fields `get` finds set, over `p`; the counts through `strtoul`. -/
def paramOf (get : (String → Bool) → Option JSONValue) (p : TVMOpParam) : TVMOpParam :=
  ⟨((get (· == "func_name")).map decodeString).getD p.funcName,
    ((get (· == "num_inputs")).map (strtoul ∘ decodeString)).getD p.numInputs,
    ((get (· == "num_outputs")).map (strtoul ∘ decodeString)).getD p.numOutputs,
    ((get (· == "flatten_data")).map (strtoul ∘ decodeString)).getD p.flattenData⟩

/-- The four attributes from their last occurrences. -/
def decodeParam : JSONValue → TVMOpParam
  | .obj fields => paramOf (lastOf · fields) ⟨"", 0, 0, 0⟩
  | _ => ⟨"", 0, 0, 0⟩

theorem paramOf_none (p : TVMOpParam) : paramOf (fun _ => none) p = p := rfl

theorem paramOf_comp (g₁ g₂ : (String → Bool) → Option JSONValue) (p : TVMOpParam) :
    paramOf g₂ (paramOf g₁ p) = paramOf (fun k => (g₂ k).or (g₁ k)) p := by
  simp only [paramOf, getD_map_or]

/-- With all four keys present, the attributes do not depend on what they held before. -/
theorem paramOf_lastOf {fields : List (String × JSONValue)} (hkeys : paramKeys.all (hasKey fields))
    (p q : TVMOpParam) : paramOf (lastOf · fields) p = paramOf (lastOf · fields) q := by
  have hk : ∀ k ∈ paramKeys, hasKey fields k := List.all_eq_true.mp hkeys
  simp only [paramOf]
  congr 1 <;> exact getD_lastOf (hk _ (by simp [paramKeys])) _ _

theorem Node.loadAttrField_eq_ok (p : TVMOpParam) (m : Nat) (kv : String × JSONValue)
    (r : TVMOpParam × Nat) :
    Node.loadAttrField (p, m) kv = .ok r ↔
      stringOk kv.2 ∧ r = (paramOf (fieldOf kv) p, m ||| keyBit paramKeys kv.1) := by
  obtain ⟨key, v⟩ := kv
  by_cases h₁ : key = "func_name"
  · subst h₁; exact decodes_readString.bind_pure _ v r
  by_cases h₂ : key = "num_inputs"
  · subst h₂; exact decodes_readString.bind_pure _ v r
  by_cases h₃ : key = "num_outputs"
  · subst h₃; exact decodes_readString.bind_pure _ v r
  by_cases h₄ : key = "flatten_data"
  · subst h₄; exact decodes_readString.bind_pure _ v r
  have hbit := keyBit_of_not_mem (show key ∉ paramKeys by simp [paramKeys, h₁, h₂, h₃, h₄])
  simpa [Node.loadAttrField, paramOf, fieldOf, hbit, h₁, h₂, h₃, h₄] using
    decodes_readString.bind_pure (fun _ => (p, m)) v r

theorem decodes_loadAttrs (p : Option TVMOpParam) :
    Decodes (Node.loadAttrs p) paramOk decodeParam := by
  intro v q
  cases v with
  | obj fields =>
    have hload : Node.loadAttrs p (.obj fields) = loadFields Node.loadAttrField
        (p.getD ⟨"", 0, 0, 0⟩) (2 ^ paramKeys.length - 1) "invalid format" fields := rfl
    rw [hload, @loadFields_eq_ok _ _ (fun _ v => stringOk v) _ _ (by decide) Node.loadAttrField_eq_ok,
      foldl_overlay paramOf paramOf_none paramOf_comp]
    constructor
    · rintro ⟨hok, rfl⟩
      exact ⟨hok, paramOf_lastOf (Bool.and_eq_true _ _ ▸ hok).2 _ _⟩
    · rintro ⟨hok, rfl⟩
      exact ⟨hok, paramOf_lastOf (Bool.and_eq_true _ _ ▸ hok).2 _ _⟩
  | _ => simp only [Node.loadAttrs, beginObject, bind_eq_ok, throw_ne_ok, false_and, exists_false,
    paramOk, Bool.false_eq_true]

/-! ### `Node::Load` -/

/-- The keys `Node::Load` requires, in the order of their bits. -/
def nodeKeys : List String := ["op", "name", "inputs"]

/-- The fields `Node::Load` knows, and the shape of each one's value. -/
def nodeFieldOk (key : String) (v : JSONValue) : Bool :=
  if key = "op" then stringOk v
  else if key = "name" then stringOk v
  else if key = "inputs" then arrayOk entryOk v
  else if key = "attr" ∨ key = "attrs" then paramOk v
  else if key = "control_deps" then arrayOk (unsignedOk 32) v
  else false

/-- A node: an object of known fields, with `op`, `name` and `inputs`. -/
def nodeOk : JSONValue → Bool
  | .obj fields => fields.all (fun kv => nodeFieldOk kv.1 kv.2) && nodeKeys.all (hasKey fields)
  | _ => false

/-- The members of a node that the fields `get` finds set, over `n`; `attr` and `attrs`
are one key. -/
def nodeOf (get : (String → Bool) → Option JSONValue) (n : Node) : Node where
  opType := ((get (· == "op")).map decodeString).getD n.opType
  name := ((get (· == "name")).map decodeString).getD n.name
  param := ((get fun k => k == "attr" || k == "attrs").map (some ∘ decodeParam)).getD n.param
  inputs := ((get (· == "inputs")).map (decodeArray decodeEntry)).getD n.inputs
  controlDeps := ((get (· == "control_deps")).map (decodeArray (decodeUnsigned 32))).getD
    n.controlDeps

/-- A node's members from their last occurrences, those without one as `Node.empty` has
them. -/
def decodeNode : JSONValue → Node
  | .obj fields => nodeOf (lastOf · fields) Node.empty
  | _ => Node.empty

theorem nodeOf_none (n : Node) : nodeOf (fun _ => none) n = n := rfl

theorem nodeOf_comp (g₁ g₂ : (String → Bool) → Option JSONValue) (n : Node) :
    nodeOf g₂ (nodeOf g₁ n) = nodeOf (fun k => (g₂ k).or (g₁ k)) n := by
  simp only [nodeOf, getD_map_or]

theorem decodes_readUInt32 : Decodes readUInt32 (unsignedOk 32) (decodeUnsigned 32) :=
  decodes_readUnsigned 32

theorem Node.loadField_eq_ok (n : Node) (m : Nat) (kv : String × JSONValue) (r : Node × Nat) :
    Node.loadField (n, m) kv = .ok r ↔
      nodeFieldOk kv.1 kv.2 ∧ r = (nodeOf (fieldOf kv) n, m ||| keyBit nodeKeys kv.1) := by
  obtain ⟨key, v⟩ := kv
  by_cases h₁ : key = "op"
  · subst h₁; exact decodes_readString.bind_pure _ v r
  by_cases h₂ : key = "name"
  · subst h₂; exact decodes_readString.bind_pure _ v r
  by_cases h₃ : key = "inputs"
  · subst h₃; exact decodes_entry.array.bind_pure _ v r
  by_cases h₄ : key = "attr"
  · subst h₄; rw [show keyBit nodeKeys "attr" = 0 from rfl, Nat.or_zero]
    exact (decodes_loadAttrs n.param).bind_pure _ v r
  by_cases h₅ : key = "attrs"
  · subst h₅; rw [show keyBit nodeKeys "attrs" = 0 from rfl, Nat.or_zero]
    exact (decodes_loadAttrs n.param).bind_pure _ v r
  by_cases h₆ : key = "control_deps"
  · subst h₆; rw [show keyBit nodeKeys "control_deps" = 0 from rfl, Nat.or_zero]
    exact decodes_readUInt32.array.bind_pure _ v r
  simp [Node.loadField, nodeFieldOk, h₁, h₂, h₃, h₄, h₅, h₆]

theorem decodes_nodeLoad : Decodes Node.load nodeOk decodeNode := by
  intro v a
  cases v with
  | obj fields =>
    have hload : Node.load (.obj fields) = loadFields Node.loadField Node.empty
        (2 ^ nodeKeys.length - 1) "invalid format" fields := rfl
    rw [hload, @loadFields_eq_ok _ _ nodeFieldOk _ _ (by decide) Node.loadField_eq_ok,
      foldl_overlay nodeOf nodeOf_none nodeOf_comp]
    rfl
  | _ => simp only [Node.load, beginObject, bind_eq_ok, throw_ne_ok, false_and, exists_false,
    nodeOk, Bool.false_eq_true]

/-! ### `GraphAttr::Load` -/

/-- An attribute `[tag, value]` whose tag is the string `tag` and whose value `ok` accepts. -/
def taggedOk (tag : String) (ok : JSONValue → Bool) : JSONValue → Bool
  | .arr [t, x] => stringOk t && decodeString t == tag && ok x
  | _ => false

def decodeTagged {α : Type} (d : JSONValue → List α) : JSONValue → List α
  | .arr [_, x] => d x
  | _ => []

theorem decodes_loadTagged {α : Type} {read : JSONValue → Result (List α)} {ok : JSONValue → Bool}
    {d : JSONValue → List α} (h : Decodes read ok d) (tag : String) :
    Decodes (GraphAttr.loadTagged tag read) (taggedOk tag ok) (decodeTagged d) := by
  intro v a
  have hr : ∀ v a, read v = .ok a ↔ ok v ∧ a = d v := h
  have hs : ∀ v s, readString v = .ok s ↔ stringOk v ∧ s = decodeString v := decodes_readString
  cases v with
  | arr items =>
    rcases items with _ | ⟨t, _ | ⟨x, _ | ⟨y, rest⟩⟩⟩ <;>
      simp only [GraphAttr.loadTagged, beginArray, nextArrayItem, pure_bind, bind_eq_ok, hs, hr,
        pure_eq_ok, check_eq_ok, throw_ne_ok, List.isEmpty_nil, List.isEmpty_cons, beq_iff_eq,
        Bool.false_eq_true, Bool.and_eq_true, true_and, false_and, and_false, exists_false,
        exists_const, and_assoc, exists_and_left, exists_eq_left, taggedOk, decodeTagged,
        @eq_comm _ a]
  | _ => simp only [GraphAttr.loadTagged, beginArray, bind_eq_ok, throw_ne_ok, false_and,
    exists_false, taggedOk, Bool.false_eq_true]

/-- The attributes `GraphAttr::Load` skips: a `list_int` of `int`s or a `size_t`. -/
def skipOk (v : JSONValue) : Bool :=
  taggedOk "list_int" (arrayOk (signedOk 32)) v || taggedOk "size_t" (unsignedOk 64) v

theorem decodes_readInt : Decodes readInt (signedOk 32) decodeSigned := decodes_readSigned 32

theorem decodes_readSizeT : Decodes readSizeT (unsignedOk 64) (decodeUnsigned 64) :=
  decodes_readUnsigned 64

theorem decodes_readInt64 : Decodes readInt64 (signedOk 64) decodeSigned := decodes_readSigned 64

theorem decodes_skip (key : String) : Decodes (GraphAttr.skip key) skipOk fun _ => () := by
  intro v u
  have hi : ∀ v a, readArray readInt v = .ok a ↔ _ := decodes_readInt.array
  have hz : ∀ v a, readSizeT v = .ok a ↔ _ := decodes_readSizeT
  have hs : ∀ v s, readString v = .ok s ↔ stringOk v ∧ s = decodeString v := decodes_readString
  cases v with
  | arr items =>
    rcases items with _ | ⟨t, _ | ⟨x, _ | ⟨y, rest⟩⟩⟩ <;>
      simp only [GraphAttr.skip, beginArray, nextArrayItem, pure_bind, bind_eq_ok, hs, throw_ne_ok,
        List.isEmpty_nil, List.isEmpty_cons, and_assoc, exists_and_left, exists_eq_left, false_and,
        exists_false, skipOk, taggedOk, Bool.or_false, Bool.or_eq_true, Bool.and_eq_true,
        beq_iff_eq, Bool.false_eq_true, and_true] <;>
      split_ifs <;>
      simp only [bind_eq_ok, throw_ne_ok, check_eq_ok, hi, hz, exists_eq_right, String.reduceEq,
        Bool.false_eq_true, true_and, and_true, false_and, and_false, exists_false, false_or,
        or_false, or_self, *]
  | _ => simp only [GraphAttr.skip, beginArray, bind_eq_ok, throw_ne_ok, false_and, exists_false,
    skipOk, taggedOk, Bool.or_false, Bool.false_eq_true]

/-- The keys `GraphAttr::Load` requires, in the order of their bits. -/
def graphAttrKeys : List String := ["dltype", "storage_id", "shape"]

/-- The fields of `attrs`: the three it reads, tagged and typed; any other key is skipped. -/
def graphAttrFieldOk (key : String) (v : JSONValue) : Bool :=
  if key = "dltype" then taggedOk "list_str" (arrayOk stringOk) v
  else if key = "storage_id" then taggedOk "list_int" (arrayOk (signedOk 32)) v
  else if key = "shape" then taggedOk "list_shape" (arrayOk (arrayOk (signedOk 64))) v
  else skipOk v

/-- The graph's `attrs`: an object of known or skippable fields, with the three it reads. -/
def graphAttrOk : JSONValue → Bool
  | .obj fields =>
    fields.all (fun kv => graphAttrFieldOk kv.1 kv.2) && graphAttrKeys.all (hasKey fields)
  | _ => false

/-- The attributes that the fields `get` finds set, over `a`. -/
def graphAttrOf (get : (String → Bool) → Option JSONValue) (a : GraphAttr) : GraphAttr where
  storageId := ((get (· == "storage_id")).map (decodeTagged (decodeArray decodeSigned))).getD
    a.storageId
  dltype := ((get (· == "dltype")).map (decodeTagged (decodeArray decodeString))).getD a.dltype
  shape := ((get (· == "shape")).map (decodeTagged (decodeArray (decodeArray decodeSigned)))).getD
    a.shape

/-- The three attributes from their last occurrences. -/
def decodeGraphAttr : JSONValue → GraphAttr
  | .obj fields => graphAttrOf (lastOf · fields) ⟨[], [], []⟩
  | _ => ⟨[], [], []⟩

theorem graphAttrOf_none (a : GraphAttr) : graphAttrOf (fun _ => none) a = a := rfl

theorem graphAttrOf_comp (g₁ g₂ : (String → Bool) → Option JSONValue) (a : GraphAttr) :
    graphAttrOf g₂ (graphAttrOf g₁ a) = graphAttrOf (fun k => (g₂ k).or (g₁ k)) a := by
  simp only [graphAttrOf, getD_map_or]

/-- With the three keys present, the attributes do not depend on those read before. -/
theorem graphAttrOf_lastOf {fields : List (String × JSONValue)}
    (hkeys : graphAttrKeys.all (hasKey fields)) (a b : GraphAttr) :
    graphAttrOf (lastOf · fields) a = graphAttrOf (lastOf · fields) b := by
  have hk : ∀ k ∈ graphAttrKeys, hasKey fields k := List.all_eq_true.mp hkeys
  simp only [graphAttrOf]
  congr 1 <;> exact getD_lastOf (hk _ (by simp [graphAttrKeys])) _ _

theorem GraphAttr.loadField_eq_ok (a : GraphAttr) (m : Nat) (kv : String × JSONValue)
    (r : GraphAttr × Nat) :
    GraphAttr.loadField (a, m) kv = .ok r ↔
      graphAttrFieldOk kv.1 kv.2 ∧ r = (graphAttrOf (fieldOf kv) a, m ||| keyBit graphAttrKeys kv.1) := by
  obtain ⟨key, v⟩ := kv
  by_cases h₁ : key = "dltype"
  · subst h₁; exact (decodes_loadTagged decodes_readString.array _).bind_pure _ v r
  by_cases h₂ : key = "storage_id"
  · subst h₂; exact (decodes_loadTagged decodes_readInt.array _).bind_pure _ v r
  by_cases h₃ : key = "shape"
  · subst h₃; exact (decodes_loadTagged decodes_readInt64.array.array _).bind_pure _ v r
  have hbit := keyBit_of_not_mem (show key ∉ graphAttrKeys by simp [graphAttrKeys, h₁, h₂, h₃])
  simpa [GraphAttr.loadField, graphAttrFieldOk, graphAttrOf, fieldOf, hbit, h₁, h₂, h₃] using (decodes_skip key).bind_pure (fun _ => (a, m)) v r

theorem decodes_graphAttrLoad (attrs : GraphAttr) :
    Decodes (GraphAttr.load attrs) graphAttrOk decodeGraphAttr := by
  intro v a
  cases v with
  | obj fields =>
    have hload : GraphAttr.load attrs (.obj fields) = loadFields GraphAttr.loadField attrs
        (2 ^ graphAttrKeys.length - 1) "invalid format" fields := rfl
    rw [hload, @loadFields_eq_ok _ _ graphAttrFieldOk _ _ (by decide) GraphAttr.loadField_eq_ok,
      foldl_overlay graphAttrOf graphAttrOf_none graphAttrOf_comp]
    constructor
    · rintro ⟨hok, rfl⟩
      exact ⟨hok, graphAttrOf_lastOf (Bool.and_eq_true _ _ ▸ hok).2 _ _⟩
    · rintro ⟨hok, rfl⟩
      exact ⟨hok, graphAttrOf_lastOf (Bool.and_eq_true _ _ ▸ hok).2 _ _⟩
  | _ => simp only [GraphAttr.load, beginObject, bind_eq_ok, throw_ne_ok, false_and, exists_false,
    graphAttrOk, Bool.false_eq_true]

/-! ### `GraphRuntime::Load` -/

/-- The keys `Load` requires, in the order of their bits. -/
def graphKeys : List String := ["nodes", "arg_nodes", "node_row_ptr", "heads", "attrs"]

/-- The five fields of the graph and the shape of each one's value. -/
def graphFieldOk (key : String) (v : JSONValue) : Bool :=
  if key = "nodes" then arrayOk nodeOk v
  else if key = "arg_nodes" then arrayOk (unsignedOk 32) v
  else if key = "node_row_ptr" then arrayOk (unsignedOk 32) v
  else if key = "heads" then arrayOk entryOk v
  else if key = "attrs" then graphAttrOk v
  else false

/-- A graph document: an object of the five fields, every one present. -/
def graphOk : JSONValue → Bool
  | .obj fields => fields.all (fun kv => graphFieldOk kv.1 kv.2) && graphKeys.all (hasKey fields)
  | _ => false

/-- The members that the fields `get` finds set, over `g`. -/
def graphOf (get : (String → Bool) → Option JSONValue) (g : Graph) : Graph where
  nodes := ((get (· == "nodes")).map (decodeArray decodeNode)).getD g.nodes
  inputNodes := ((get (· == "arg_nodes")).map (decodeArray (decodeUnsigned 32))).getD g.inputNodes
  nodeRowPtr := ((get (· == "node_row_ptr")).map (decodeArray (decodeUnsigned 32))).getD
    g.nodeRowPtr
  outputs := ((get (· == "heads")).map (decodeArray decodeEntry)).getD g.outputs
  attrs := ((get (· == "attrs")).map decodeGraphAttr).getD g.attrs

/-- The graph's members from their last occurrences. -/
def decodeGraph : JSONValue → Graph
  | .obj fields => graphOf (lastOf · fields) Graph.empty
  | _ => Graph.empty

theorem graphOf_none (g : Graph) : graphOf (fun _ => none) g = g := rfl

theorem graphOf_comp (g₁ g₂ : (String → Bool) → Option JSONValue) (g : Graph) :
    graphOf g₂ (graphOf g₁ g) = graphOf (fun k => (g₂ k).or (g₁ k)) g := by
  simp only [graphOf, getD_map_or]

theorem Graph.loadField_eq_ok (g : Graph) (m : Nat) (kv : String × JSONValue) (r : Graph × Nat) :
    Graph.loadField (g, m) kv = .ok r ↔
      graphFieldOk kv.1 kv.2 ∧ r = (graphOf (fieldOf kv) g, m ||| keyBit graphKeys kv.1) := by
  obtain ⟨key, v⟩ := kv
  by_cases h₁ : key = "nodes"
  · subst h₁; exact decodes_nodeLoad.array.bind_pure _ v r
  by_cases h₂ : key = "arg_nodes"
  · subst h₂; exact decodes_readUInt32.array.bind_pure _ v r
  by_cases h₃ : key = "node_row_ptr"
  · subst h₃; exact decodes_readUInt32.array.bind_pure _ v r
  by_cases h₄ : key = "heads"
  · subst h₄; exact decodes_entry.array.bind_pure _ v r
  by_cases h₅ : key = "attrs"
  · subst h₅; exact (decodes_graphAttrLoad g.attrs).bind_pure _ v r
  simp [Graph.loadField, graphFieldOk, h₁, h₂, h₃, h₄, h₅]

/-- `Load` accepts exactly the documents `graphOk` accepts, and reads `decodeGraph` of them. -/
theorem load_decodes : Decodes Graph.load graphOk decodeGraph := by
  intro v g
  cases v with
  | obj fields =>
    have hload : Graph.load (.obj fields) = loadFields Graph.loadField Graph.empty
        (2 ^ graphKeys.length - 1) "invalid format" fields := rfl
    rw [hload, @loadFields_eq_ok _ _ graphFieldOk _ _ (by decide) Graph.loadField_eq_ok,
      foldl_overlay graphOf graphOf_none graphOf_comp]
    rfl
  | _ => simp only [Graph.load, beginObject, bind_eq_ok, throw_ne_ok, false_and, exists_false,
    graphOk, Bool.false_eq_true]

/-- The three attributes, all empty. -/
def emptyAttrsDoc : JSONValue :=
  .obj [("dltype", .arr [.str "list_str", .arr []]), ("storage_id", .arr [.str "list_int", .arr []]),
    ("shape", .arr [.str "list_shape", .arr []])]

/-- A graph with the five keys whose `arg_nodes` is a string, and one whose only head is
`[-1, 0]`. -/
def argNodesDoc (argNodes heads : JSONValue) : JSONValue :=
  .obj [("nodes", .arr []), ("arg_nodes", argNodes), ("node_row_ptr", .arr []), ("heads", heads),
    ("attrs", emptyAttrsDoc)]

/-- `Load` rejects a document whose `arg_nodes` is not an array, and reads the node entry
`[-1, 0]` as the output `(2^32 - 1, 0)`. -/
theorem load_argNodesDoc :
    (Graph.load (argNodesDoc (.str "x") (.arr []))).isOk = false ∧
      Graph.load (argNodesDoc (.arr []) (.arr [.arr [.num (-1), .num 0]])) =
        .ok ⟨[], [], [], [⟨2 ^ 32 - 1, 0, 0⟩], ⟨[], [], []⟩⟩ :=
  ⟨by decide, rfl⟩

end TvmGraphRuntime
