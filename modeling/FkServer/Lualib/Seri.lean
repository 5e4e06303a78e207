import FkServer.Library.LittleEndian
import FkServer.Lualib.WriteBlock

/-!
`lua-seri.c`: the values that services send each other, packed into bytes and unpacked again. The
packer writes to anything that can be pushed to: to the blocks of the source, or plainly to bytes.
A `double` is its eight bytes, and the bytes of a number are those of a little-endian machine.
-/
namespace FkServer.Seri

/-! ### Values -/

/-- The values that Lua compares by what they hold; `string` is one with its bytes. -/
inductive Scalar
  | boolean (b : Bool)
  | integer (n : BitVec 64)
  | real (n : BitVec 64)
  | lightuserdata (p : BitVec 64)
  | string (str : Bytes)
deriving DecidableEq

/-- A value. A table is the values at its keys from 1 to its length, which may be nil, and the
other pairs in the order of `lua_next`; with a `__pairs` it is the pairs that its iterator gives.
Tables as keys are different keys. Functions, threads and full userdata are `other`. -/
inductive Value
  | nil
  | scalar (s : Scalar)
  | table (array : List Value) (hash : List (Value × Value))
  | other

def typeNil : Nat := 0
def typeBoolean : Nat := 1
def typeNumber : Nat := 2
def typeUserdata : Nat := 3
def typeShortString : Nat := 4
def typeLongString : Nat := 5
def typeTable : Nat := 6

def numberZero : Nat := 0
def numberByte : Nat := 1
def numberWord : Nat := 2
def numberDword : Nat := 4
def numberQword : Nat := 6
def numberReal : Nat := 8

def maxCookie : Nat := 32
def maxDepth : Nat := 32

/-- `COMBINE_TYPE` as a byte. -/
def combineType (t v : Nat) : UInt8 := .ofNat (t ||| v <<< 3)

/-! ### Packing -/

section Pack

variable {W : Type} (push : W → Bytes → W)

def wbNil (wb : W) : W := push wb [.ofNat typeNil]

def wbBoolean (wb : W) (boolean : Bool) : W :=
  push wb [combineType typeBoolean (if boolean then 1 else 0)]

/-- `v != (int32_t)v` is the second comparison. -/
def wbInteger (wb : W) (v : BitVec 64) : W :=
  let wbSized := fun (cookie n x : Nat) =>
    push (push wb [combineType typeNumber cookie]) (LittleEndian.bytes n x)
  if v = 0 then
    push wb [combineType typeNumber numberZero]
  else if v ≠ (v.truncate 32).signExtend 64 then
    wbSized numberQword 8 v.toNat
  else if v.toInt < 0 then
    wbSized numberDword 4 (v.truncate 32).toNat
  else if v.toInt < 0x100 then
    wbSized numberByte 1 v.toNat
  else if v.toInt < 0x10000 then
    wbSized numberWord 2 v.toNat
  else
    wbSized numberDword 4 (v.truncate 32).toNat

def wbReal (wb : W) (v : BitVec 64) : W :=
  push (push wb [combineType typeNumber numberReal]) (LittleEndian.bytes 8 v.toNat)

def wbPointer (wb : W) (v : BitVec 64) : W :=
  push (push wb [.ofNat typeUserdata]) (LittleEndian.bytes 8 v.toNat)

def wbString (wb : W) (str : Bytes) : W :=
  let len := str.length
  if len < maxCookie then
    let wb := push wb [combineType typeShortString len]
    if 0 < len then push wb str else wb
  else
    let wb :=
      if len < 0x10000 then
        push (push wb [combineType typeLongString 2]) (LittleEndian.bytes 2 len)
      else
        push (push wb [combineType typeLongString 4]) (LittleEndian.bytes 4 len)
    push wb str

def wbScalar (wb : W) : Scalar → W
  | .boolean b => wbBoolean push wb b
  | .integer n => wbInteger push wb n
  | .real n => wbReal push wb n
  | .lightuserdata p => wbPointer push wb p
  | .string str => wbString push wb str

/-- The head of `wb_table_array`. -/
def wbArraySize (wb : W) (arraySize : Nat) : W :=
  if maxCookie - 1 ≤ arraySize then
    wbInteger push (push wb [combineType typeTable (maxCookie - 1)]) (.ofNat 64 arraySize)
  else
    push wb [combineType typeTable arraySize]

mutual

/-- `pack_one`; `none` is a Lua error. -/
def packOne (depth : Nat) : Value → W → Option W
  | .nil, wb => if maxDepth < depth then none else some (wbNil push wb)
  | .scalar s, wb => if maxDepth < depth then none else some (wbScalar push wb s)
  | .table array hash, wb =>
      if maxDepth < depth then none
      else (packArray (depth + 1) array (wbArraySize push wb array.length)).bind
        (packHash (depth + 1) hash)
  | .other, _ => none

/-- The loop of `wb_table_array`. -/
def packArray (depth : Nat) : List Value → W → Option W
  | [], wb => some wb
  | v :: array, wb => (packOne depth v wb).bind (packArray depth array)

/-- `wb_table_hash` and the loop of `wb_table_metapairs`. -/
def packHash (depth : Nat) : List (Value × Value) → W → Option W
  | [], wb => some (wbNil push wb)
  | (k, v) :: hash, wb =>
      (packOne depth k wb).bind fun wb => (packOne depth v wb).bind (packHash depth hash)

end

/-- `pack_from` -/
def packFrom (values : List Value) (wb : W) : Option W := packArray push 0 values wb

end Pack

def luaseriPack (values : List Value) : Option Bytes :=
  (packFrom WriteBlock.push values .init).bind fun wb => seri wb.blocks wb.len

/-! ### Tables -/

/-- Whether the bits of a double are those of a NaN. -/
def isNan (n : BitVec 64) : Bool :=
  decide (n.toNat / 2 ^ 52 % 2 ^ 11 = 2 ^ 11 - 1 ∧ n.toNat % 2 ^ 52 ≠ 0)

/-- `luaV_flttointns`: the integer that a double is, if it is one. -/
def floatInteger (n : BitVec 64) : Option (BitVec 64) :=
  let exponent := n.toNat / 2 ^ 52 % 2 ^ 11
  let mantissa := if exponent = 0 then n.toNat % 2 ^ 52 else 2 ^ 52 + n.toNat % 2 ^ 52
  -- the double is `mantissa * 2 ^ (max exponent 1) / 2 ^ 1075`
  let scaled := mantissa * 2 ^ max exponent 1
  let size : Int := (scaled / 2 ^ 1075 : Nat)
  let x := if n.toNat / 2 ^ 63 = 1 then -size else size
  if exponent = 2 ^ 11 - 1 ∨ scaled % 2 ^ 1075 ≠ 0 ∨ x < -2 ^ 63 ∨ 2 ^ 63 ≤ x then none
  else some (.ofInt 64 x)

/-- What `luaH_newkey` makes of a key; it raises an error for a NaN. -/
def Scalar.normal : Scalar → Option Scalar
  | .real n =>
      match floatInteger n with
      | some i => some (.integer i)
      | none => if isNan n then none else some (.real n)
  | s => some s

def Value.isNil : Value → Bool
  | .nil => true
  | _ => false

def Value.isKey (key : Scalar) : Value → Bool
  | .scalar s => decide (s = key)
  | _ => false

/-- What `lua_rawset` does to the pairs behind the array. -/
def setHash (hash : List (Value × Value)) (key : Scalar) (value : Value) : List (Value × Value) :=
  if value.isNil then hash.filter fun pair => !pair.1.isKey key
  else if hash.any fun pair => pair.1.isKey key then
    hash.map fun pair => if pair.1.isKey key then (pair.1, value) else pair
  else hash ++ [(.scalar key, value)]

/-- `lua_rawset` -/
def rawset (array : List Value) (hash : List (Value × Value)) (key value : Value) :
    Option (List Value × List (Value × Value)) :=
  match key with
  | .nil => none
  | .scalar s =>
      s.normal.map fun s =>
        match s with
        | .integer i =>
            if 1 ≤ i.toInt ∧ i.toInt ≤ array.length then
              (array.set (i.toInt.toNat - 1) value, hash)
            else (array, setHash hash s value)
        | s => (array, setHash hash s value)
  | key => some (array, if value.isNil then hash else hash ++ [(key, value)])

/-! ### Unpacking -/

/-- `rb_read` -/
def rbRead (rb : Bytes) (sz : Nat) : Option (Bytes × Bytes) :=
  if rb.length < sz then none else some (rb.take sz, rb.drop sz)

def readNumber (rb : Bytes) (sz : Nat) : Option (Nat × Bytes) :=
  (rbRead rb sz).map fun r => (LittleEndian.number r.1, r.2)

def getInteger (rb : Bytes) (cookie : Nat) : Option (BitVec 64 × Bytes) :=
  if cookie = numberZero then some (0, rb)
  else if cookie = numberByte then (readNumber rb 1).map fun r => (.ofNat 64 r.1, r.2)
  else if cookie = numberWord then (readNumber rb 2).map fun r => (.ofNat 64 r.1, r.2)
  else if cookie = numberDword then
    (readNumber rb 4).map fun r => ((BitVec.ofNat 32 r.1).signExtend 64, r.2)
  else if cookie = numberQword then (readNumber rb 8).map fun r => (.ofNat 64 r.1, r.2)
  else none

/-- `get_buffer`: of a length that is negative as an `int` no string can be made. -/
def getBuffer (rb : Bytes) (len : Nat) : Option (Value × Bytes) :=
  if 2 ^ 31 ≤ len then none else (rbRead rb len).map fun r => (.scalar (.string r.1), r.2)

section Unpack

variable (one : Bytes → Option (Value × Bytes))

/-- The first loop of `unpack_table`. -/
def readArray : Nat → Bytes → Option (List Value × Bytes)
  | 0, rb => some ([], rb)
  | n + 1, rb => (one rb).bind fun r => (readArray n r.2).map fun r' => (r.1 :: r'.1, r'.2)

/-- The second loop of `unpack_table`. -/
def readPairs : Nat → List Value → List (Value × Value) → Bytes → Option (Value × Bytes)
  | 0, _, _, _ => none
  | loop + 1, array, hash, rb =>
      (one rb).bind fun key =>
        if key.1.isNil then some (.table array hash, key.2)
        else (one key.2).bind fun value =>
          (rawset array hash key.1 value.1).bind fun t => readPairs loop t.1 t.2 value.2

/-- `array_size` of `unpack_table`, an `int`; a loop to a negative number does nothing. -/
def readArraySize (rb : Bytes) (cookie : Nat) : Option (Nat × Bytes) :=
  if cookie = maxCookie - 1 then
    (rbRead rb 1).bind fun r =>
      let type := LittleEndian.number r.1
      if type % 8 ≠ typeNumber ∨ type / 8 = numberReal then none
      else (getInteger r.2 (type / 8)).map fun r => ((r.1.truncate 32).toInt.toNat, r.2)
  else
    some (cookie, rb)

/-- `unpack_table`. The array is what the bytes put into it; a later `lua_rawlen` of the table may see
it otherwise. -/
def unpackTable (loop : Nat) (rb : Bytes) (cookie : Nat) : Option (Value × Bytes) :=
  (readArraySize rb cookie).bind fun size =>
    (readArray one size.1 size.2).bind fun r => readPairs one loop r.1 [] r.2

/-- `push_value` -/
def pushValue (loop : Nat) (rb : Bytes) (type cookie : Nat) : Option (Value × Bytes) :=
  if type = typeNil then some (.nil, rb)
  else if type = typeBoolean then some (.scalar (.boolean (cookie ≠ 0)), rb)
  else if type = typeNumber then
    if cookie = numberReal then
      (readNumber rb 8).map fun r => (.scalar (.real (.ofNat 64 r.1)), r.2)
    else
      (getInteger rb cookie).map fun r => (.scalar (.integer r.1), r.2)
  else if type = typeUserdata then
    (readNumber rb 8).map fun r => (.scalar (.lightuserdata (.ofNat 64 r.1)), r.2)
  else if type = typeShortString then getBuffer rb cookie
  else if type = typeLongString then
    if cookie = 2 then (readNumber rb 2).bind fun r => getBuffer r.2 r.1
    else if cookie = 4 then (readNumber rb 4).bind fun r => getBuffer r.2 r.1
    else none
  else if type = typeTable then unpackTable one loop rb cookie
  else none

end Unpack

/-- `unpack_one`; every value takes a byte at least, so that the length of what is left is enough
fuel. -/
def unpackOne : Nat → Bytes → Option (Value × Bytes)
  | 0, _ => none
  | fuel + 1, rb =>
      (rbRead rb 1).bind fun r =>
        let type := LittleEndian.number r.1
        pushValue (unpackOne fuel) fuel r.2 (type % 8) (type / 8)

/-- The loop of `luaseri_unpack`, to the end of the bytes. -/
def unpackAll (one : Bytes → Option (Value × Bytes)) : Nat → Bytes → Option (List Value)
  | _, [] => some []
  | 0, _ => none
  | fuel + 1, rb => (one rb).bind fun r => (unpackAll one fuel r.2).map (r.1 :: ·)

/-- The length of the buffer is taken as an `int`, and with a negative one nothing is read. -/
def luaseriUnpack (buffer : Bytes) : Option (List Value) :=
  let rb := buffer.take (BitVec.ofNat 32 buffer.length).toInt.toNat
  unpackAll (unpackOne rb.length) rb.length rb

end FkServer.Seri
