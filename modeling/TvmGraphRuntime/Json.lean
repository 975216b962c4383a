import TvmGraphRuntime.Basic

/-!
# JSON documents and the reader the loader uses

The graph text is read with `dmlc::JSONReader`. The model takes the document after
tokenising: a `JSONValue` whose objects keep their keys in order, repeats included, since
the loader's loops see every occurrence of a key. Integer literals are `num`; a number with
a fraction or an exponent is `real`, which none of the loader's reads accepts.

The reader's typed reads are modelled as the C++ stream extraction they perform: a string
is read from a JSON string only; an unsigned field accepts an integer literal whose magnitude
fits the type, a minus sign wrapping it modulo `2^w` as `istream >> unsigned` does; a signed
field accepts the literals in its range. An array read (`Read(&vector)`) reads every item;
`BeginObject`/`NextObjectItem` walk an object's fields and `BeginArray`/`NextArrayItem` an
array's items. Every failure of the reader is fatal, like a failed check.
-/

namespace TvmGraphRuntime

/-- A JSON document. -/
inductive JSONValue where
  | null
  | bool (b : Bool)
  | num (n : Int)
  | real (text : String)
  | str (s : String)
  | arr (items : List JSONValue)
  | obj (fields : List (String × JSONValue))
  deriving Repr

namespace JSONReader

/-- `BeginObject` followed by the `NextObjectItem` loop: the fields of an object. -/
def beginObject : JSONValue → Result (List (String × JSONValue))
  | .obj fields => pure fields
  | _ => throw (.check "json: expect object")

/-- `BeginArray` followed by the `NextArrayItem` loop: the items of an array. -/
def beginArray : JSONValue → Result (List JSONValue)
  | .arr items => pure items
  | _ => throw (.check "json: expect array")

/-- `CHECK(reader->NextArrayItem()) << msg`: the next item, which must exist. -/
def nextArrayItem (items : List JSONValue) (msg : String) :
    Result (JSONValue × List JSONValue) :=
  match items with
  | item :: rest => pure (item, rest)
  | [] => throw (.check msg)

/-- `Read(&s)` of a `std::string`. -/
def readString : JSONValue → Result String
  | .str s => pure s
  | _ => throw (.check "json: expect string")

/-- `Read(&x)` of an unsigned `w`-bit integer: `istream >> x`. -/
def readUnsigned (w : Nat) : JSONValue → Result Nat
  | .num n => if n.natAbs < 2 ^ w then pure (n % 2 ^ w).toNat
    else throw (.check "json: expect number")
  | _ => throw (.check "json: expect number")

/-- `Read(&x)` of a signed `w`-bit integer. -/
def readSigned (w : Nat) : JSONValue → Result Int
  | .num n => if -2 ^ (w - 1) ≤ n ∧ n < 2 ^ (w - 1) then pure n
    else throw (.check "json: expect number")
  | _ => throw (.check "json: expect number")

/-- `Read(&v)` of a `std::vector`: the vector is cleared and every item is read. -/
def readArray {α : Type} (read : JSONValue → Result α) (v : JSONValue) : Result (List α) := do
  let items ← beginArray v
  items.mapM read

/-- `Read(&x)` of a `uint32_t`. -/
def readUInt32 : JSONValue → Result Nat := readUnsigned 32

/-- `Read(&x)` of an `int`. -/
def readInt : JSONValue → Result Int := readSigned 32

/-- `Read(&x)` of an `int64_t`. -/
def readInt64 : JSONValue → Result Int := readSigned 64

/-- `Read(&x)` of a `size_t`. -/
def readSizeT : JSONValue → Result Nat := readUnsigned 64

end JSONReader

/-- C's `isspace` on the characters of the basic set. -/
def isSpace (c : Char) : Bool :=
  c = ' ' || c = '\t' || c = '\n' || c = '\r' || c.toNat = 11 || c.toNat = 12

/-- `strtoul(s, nullptr, 10)` stored into a `uint32_t`: leading blanks and a sign are skipped,
the decimal digits that follow are the value (zero when there are none), a value past
`ULONG_MAX` saturates, a minus sign negates modulo `2^64`, and the store keeps the low 32 bits. -/
def strtoul (s : String) : Nat :=
  let cs := s.toList.dropWhile isSpace
  let (neg, cs) := match cs with
    | '-' :: r => (true, r)
    | '+' :: r => (false, r)
    | r => (false, r)
  let n := (cs.takeWhile Char.isDigit).foldl (fun acc c => acc * 10 + (c.toNat - '0'.toNat)) 0
  let n := if n < 2 ^ 64 then (if neg then (2 ^ 64 - n) % 2 ^ 64 else n) else 2 ^ 64 - 1
  n % 2 ^ 32

end TvmGraphRuntime
