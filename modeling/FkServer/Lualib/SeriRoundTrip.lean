import FkServer.Lualib.Seri
import Mathlib.Tactic.NormNum

/-!
What a service gets of the values it is sent. The packer writes the same to the blocks of the
source and plainly to bytes, and reading them back makes a copy of each value, built as Lua builds
a table: first the array, then one pair after another.
-/
namespace FkServer.Seri

/-! ### One packer for blocks and bytes -/

section Map

variable {W W' : Type} {push : W → Bytes → W} {push' : W' → Bytes → W'} {f : W → W'}

theorem wbInteger_map (hom : ∀ wb buf, f (push wb buf) = push' (f wb) buf) (wb : W)
    (v : BitVec 64) : wbInteger push' (f wb) v = f (wbInteger push wb v) := by
  simp only [wbInteger, ← hom]
  split_ifs <;> rfl

theorem wbScalar_map (hom : ∀ wb buf, f (push wb buf) = push' (f wb) buf) (wb : W) (s : Scalar) :
    wbScalar push' (f wb) s = f (wbScalar push wb s) := by
  cases s with
  | boolean => exact (hom _ _).symm
  | integer n => exact wbInteger_map hom wb n
  | real | lightuserdata => simp only [wbScalar, wbReal, wbPointer, ← hom]
  | string str =>
      simp only [wbScalar, wbString, ← hom]
      split_ifs <;> simp only [← hom]

theorem wbArraySize_map (hom : ∀ wb buf, f (push wb buf) = push' (f wb) buf) (wb : W) (n : Nat) :
    wbArraySize push' (f wb) n = f (wbArraySize push wb n) := by
  simp only [wbArraySize, ← hom, wbInteger_map hom]
  split_ifs <;> rfl

mutual

theorem packOne_map (hom : ∀ wb buf, f (push wb buf) = push' (f wb) buf) (depth : Nat) :
    ∀ (v : Value) (wb : W), packOne push' depth v (f wb) = (packOne push depth v wb).map f
  | .nil, wb => by
      simp only [packOne, wbNil, ← hom]
      split_ifs <;> rfl
  | .scalar s, wb => by
      simp only [packOne, wbScalar_map hom]
      split_ifs <;> rfl
  | .table array hash, wb => by
      simp only [packOne, wbArraySize_map hom, packArray_map hom]
      split_ifs
      · rfl
      · cases packArray push (depth + 1) array (wbArraySize push wb array.length) with
        | none => rfl
        | some wb => exact packHash_map hom (depth + 1) hash wb
  | .other, _ => by
      simp only [packOne]
      rfl

theorem packArray_map (hom : ∀ wb buf, f (push wb buf) = push' (f wb) buf) (depth : Nat) :
    ∀ (array : List Value) (wb : W),
      packArray push' depth array (f wb) = (packArray push depth array wb).map f
  | [], wb => by
      simp only [packArray]
      rfl
  | v :: array, wb => by
      simp only [packArray, packOne_map hom depth v wb]
      cases packOne push depth v wb with
      | none => rfl
      | some wb => exact packArray_map hom depth array wb

theorem packHash_map (hom : ∀ wb buf, f (push wb buf) = push' (f wb) buf) (depth : Nat) :
    ∀ (hash : List (Value × Value)) (wb : W),
      packHash push' depth hash (f wb) = (packHash push depth hash wb).map f
  | [], wb => by
      simp only [packHash, wbNil, ← hom]
      rfl
  | (k, v) :: hash, wb => by
      simp only [packHash, packOne_map hom depth k wb]
      cases packOne push depth k wb with
      | none => rfl
      | some wb =>
          simp only [Option.map_some, Option.bind_some, packOne_map hom depth v wb]
          cases packOne push depth v wb with
          | none => rfl
          | some wb => exact packHash_map hom depth hash wb

end

end Map

/-- Packing to plain bytes. -/
def pack (values : List Value) : Option Bytes := packFrom (· ++ ·) values []

/-- The blocks hold what is written to plain bytes. -/
theorem luaseriPack_eq (values : List Value) : luaseriPack values = pack values := by
  have same : packArray (· ++ ·) 0 values WriteBlock.init.bytes =
      (packArray WriteBlock.push 0 values .init).map WriteBlock.bytes :=
    packArray_map WriteBlock.bytes_push 0 values .init
  rw [pack, packFrom, luaseriPack, packFrom, show ([] : Bytes) = WriteBlock.init.bytes from rfl, same]
  cases packArray WriteBlock.push 0 values .init with
  | none => rfl
  | some wb => exact wb.seri_blocks

/-- What is packed comes behind what was there. -/
theorem packOne_append (depth : Nat) (v : Value) (wb : Bytes) :
    packOne (· ++ ·) depth v wb = (packOne (· ++ ·) depth v []).map (wb ++ ·) := by
  have same : packOne (· ++ ·) depth v (wb ++ []) =
      (packOne (· ++ ·) depth v []).map (wb ++ ·) :=
    packOne_map (fun w buf => (List.append_assoc wb w buf).symm) depth v []
  rwa [List.append_nil] at same

theorem packArray_append (depth : Nat) (array : List Value) (wb : Bytes) :
    packArray (· ++ ·) depth array wb = (packArray (· ++ ·) depth array []).map (wb ++ ·) := by
  have same : packArray (· ++ ·) depth array (wb ++ []) =
      (packArray (· ++ ·) depth array []).map (wb ++ ·) :=
    packArray_map (fun w buf => (List.append_assoc wb w buf).symm) depth array []
  rwa [List.append_nil] at same

theorem packHash_append (depth : Nat) (hash : List (Value × Value)) (wb : Bytes) :
    packHash (· ++ ·) depth hash wb = (packHash (· ++ ·) depth hash []).map (wb ++ ·) := by
  have same : packHash (· ++ ·) depth hash (wb ++ []) =
      (packHash (· ++ ·) depth hash []).map (wb ++ ·) :=
    packHash_map (fun w buf => (List.append_assoc wb w buf).symm) depth hash []
  rwa [List.append_nil] at same

/-! ### Reading back what was written -/

/-- The two parts of a type byte. -/
theorem combineType_parts {t v : Nat} (ht : t < 8) (hv : v < 32) :
    (combineType t v).toNat % 8 = t ∧ (combineType t v).toNat / 8 = v := by
  have all : ∀ t < 8, ∀ v < 32,
      (combineType t v).toNat % 8 = t ∧ (combineType t v).toNat / 8 = v := by decide
  exact all t ht v hv

theorem rbRead_append (buf rest : Bytes) : rbRead (buf ++ rest) buf.length = some (buf, rest) := by
  unfold rbRead
  rw [if_neg (by rw [List.length_append]; omega), List.take_left, List.drop_left]

theorem readNumber_bytes (n x : Nat) (rest : Bytes) :
    readNumber (LittleEndian.bytes n x ++ rest) n = some (x % 256 ^ n, rest) := by
  have read := rbRead_append (LittleEndian.bytes n x) rest
  rw [LittleEndian.length_bytes] at read
  rw [readNumber, read, Option.map_some, LittleEndian.number_bytes]

/-- The next byte says what to read. -/
theorem unpackOne_cons (fuel : Nat) (b : UInt8) (rest : Bytes) :
    unpackOne (fuel + 1) (b :: rest) =
      pushValue (unpackOne fuel) fuel rest (b.toNat % 8) (b.toNat / 8) := by
  have read := rbRead_append [b] rest
  rw [unpackOne, show rbRead (b :: rest) 1 = some ([b], rest) from read]
  rfl

theorem toInt_of_lt {v : BitVec 64} {n : Nat} (nonneg : ¬ v.toInt < 0) (lt : v.toInt < n) :
    v.toNat < n := by
  rw [BitVec.toInt_eq_toNat_cond] at nonneg lt
  split at lt <;> omega

/-- What is written of an integer, and that it is read again. -/
theorem wbInteger_read (v : BitVec 64) : ∃ cookie payload, cookie < 32 ∧ cookie ≠ numberReal ∧
    (∀ wb, wbInteger (· ++ ·) wb v = wb ++ combineType typeNumber cookie :: payload) ∧
      ∀ rest, getInteger (payload ++ rest) cookie = some (v, rest) := by
  by_cases zero : v = 0
  · refine ⟨numberZero, [], by decide, by decide, fun wb => ?_, fun rest => ?_⟩
    · rw [wbInteger, if_pos zero]
    · rw [getInteger, if_pos rfl, zero]
      rfl
  have whole : BitVec.ofNat 64 v.toNat = v := by simp
  by_cases long : v ≠ (v.truncate 32).signExtend 64
  · refine ⟨numberQword, LittleEndian.bytes 8 v.toNat, by decide, by decide, fun wb => ?_,
      fun rest => ?_⟩
    · simp only [wbInteger, if_neg zero, if_pos long]
      rw [List.append_assoc]
      rfl
    · have fits : v.toNat % 256 ^ 8 = v.toNat := Nat.mod_eq_of_lt v.isLt
      rw [getInteger, if_neg (by decide), if_neg (by decide), if_neg (by decide),
        if_neg (by decide), if_pos rfl, readNumber_bytes, fits]
      exact congrArg (fun n => some (n, rest)) whole
  have short : (v.truncate 32).signExtend 64 = v := (not_not.1 long).symm
  have dword : ∀ rest, getInteger (LittleEndian.bytes 4 (v.truncate 32).toNat ++ rest) numberDword =
      some (v, rest) := by
    intro rest
    have fits : (v.truncate 32).toNat % 256 ^ 4 = (v.truncate 32).toNat :=
      Nat.mod_eq_of_lt (v.truncate 32).isLt
    have low : BitVec.ofNat 32 (v.truncate 32).toNat = v.truncate 32 :=
      (BitVec.ofNat_toNat 32 _).trans (BitVec.setWidth_eq _)
    rw [getInteger, if_neg (by decide), if_neg (by decide), if_neg (by decide), if_pos rfl,
      readNumber_bytes, fits, Option.map_some, low, short]
  by_cases neg : v.toInt < 0
  · refine ⟨numberDword, LittleEndian.bytes 4 (v.truncate 32).toNat, by decide, by decide,
      fun wb => ?_, dword⟩
    simp only [wbInteger, if_neg zero, if_neg long, if_pos neg]
    rw [List.append_assoc]
    rfl
  by_cases byte : v.toInt < 0x100
  · refine ⟨numberByte, LittleEndian.bytes 1 v.toNat, by decide, by decide, fun wb => ?_,
      fun rest => ?_⟩
    · simp only [wbInteger, if_neg zero, if_neg long, if_neg neg, if_pos byte]
      rw [List.append_assoc]
      rfl
    · have fits : v.toNat % 256 ^ 1 = v.toNat :=
        Nat.mod_eq_of_lt (toInt_of_lt (n := 256) neg byte)
      rw [getInteger, if_neg (by decide), if_pos rfl, readNumber_bytes, fits, Option.map_some, whole]
  by_cases word : v.toInt < 0x10000
  · refine ⟨numberWord, LittleEndian.bytes 2 v.toNat, by decide, by decide, fun wb => ?_,
      fun rest => ?_⟩
    · simp only [wbInteger, if_neg zero, if_neg long, if_neg neg, if_neg byte, if_pos word]
      rw [List.append_assoc]
      rfl
    · have fits : v.toNat % 256 ^ 2 = v.toNat :=
        Nat.mod_eq_of_lt (toInt_of_lt (n := 65536) neg word)
      rw [getInteger, if_neg (by decide), if_neg (by decide), if_pos rfl, readNumber_bytes, fits,
        Option.map_some, whole]
  · refine ⟨numberDword, LittleEndian.bytes 4 (v.truncate 32).toNat, by decide, by decide,
      fun wb => ?_, dword⟩
    simp only [wbInteger, if_neg zero, if_neg long, if_neg neg, if_neg byte, if_neg word]
    rw [List.append_assoc]
    rfl

theorem getBuffer_append (str rest : Bytes) (small : str.length < 2 ^ 31) :
    getBuffer (str ++ rest) str.length = some (.scalar (.string str), rest) := by
  rw [getBuffer, if_neg (by omega), rbRead_append]
  rfl

/-- Strings are shorter than an `int` counts. -/
def Scalar.Small : Scalar → Prop
  | .string str => str.length < 2 ^ 31
  | _ => True

/-- What is written of a scalar is read as the scalar, whatever follows. -/
theorem wbScalar_read {s : Scalar} (small : s.Small) : ∃ tag payload,
    (∀ wb, wbScalar (· ++ ·) wb s = wb ++ tag :: payload) ∧
      ∀ one loop rest, pushValue one loop (payload ++ rest) (tag.toNat % 8) (tag.toNat / 8) =
        some (.scalar s, rest) := by
  cases s with
  | boolean b =>
      refine ⟨combineType typeBoolean (if b then 1 else 0), [], fun wb => rfl,
        fun one loop rest => ?_⟩
      cases b <;> rfl
  | integer n =>
      obtain ⟨cookie, payload, lt, not_real, written, read⟩ := wbInteger_read n
      refine ⟨combineType typeNumber cookie, payload, written, fun one loop rest => ?_⟩
      obtain ⟨type, value⟩ := combineType_parts (t := typeNumber) (by decide) lt
      rw [type, value, pushValue, if_neg (by decide), if_neg (by decide), if_pos rfl,
        if_neg not_real, read]
      rfl
  | real n =>
      refine ⟨combineType typeNumber numberReal, LittleEndian.bytes 8 n.toNat, fun wb => ?_,
        fun one loop rest => ?_⟩
      · rw [wbScalar, wbReal, List.append_assoc]
        rfl
      · have fits : n.toNat % 256 ^ 8 = n.toNat := Nat.mod_eq_of_lt n.isLt
        have whole : BitVec.ofNat 64 n.toNat = n := by simp
        obtain ⟨type, value⟩ := combineType_parts (t := typeNumber) (v := numberReal) (by decide)
          (by decide)
        rw [type, value, pushValue, if_neg (by decide), if_neg (by decide), if_pos rfl, if_pos rfl,
          readNumber_bytes, fits, Option.map_some, whole]
  | lightuserdata n =>
      refine ⟨.ofNat typeUserdata, LittleEndian.bytes 8 n.toNat, fun wb => ?_,
        fun one loop rest => ?_⟩
      · rw [wbScalar, wbPointer, List.append_assoc]
        rfl
      · have fits : n.toNat % 256 ^ 8 = n.toNat := Nat.mod_eq_of_lt n.isLt
        have whole : BitVec.ofNat 64 n.toNat = n := by simp
        have tag : (UInt8.ofNat typeUserdata).toNat = typeUserdata := rfl
        rw [tag, pushValue, if_neg (by decide), if_neg (by decide), if_neg (by decide),
          if_pos (by decide), readNumber_bytes, fits, Option.map_some, whole]
  | string str =>
      have small : str.length < 2 ^ 31 := small
      by_cases short : str.length < maxCookie
      · refine ⟨combineType typeShortString str.length, str, fun wb => ?_, fun one loop rest => ?_⟩
        · simp only [wbScalar, wbString, if_pos short]
          by_cases some_bytes : 0 < str.length
          · rw [if_pos some_bytes, List.append_assoc]
            rfl
          · have empty : str = [] := List.eq_nil_of_length_eq_zero (by omega)
            rw [if_neg some_bytes, empty]
        · obtain ⟨type, value⟩ := combineType_parts (t := typeShortString) (by decide) short
          rw [type, value, pushValue, if_neg (by decide), if_neg (by decide), if_neg (by decide),
            if_neg (by decide), if_pos rfl, getBuffer_append str rest small]
      by_cases word : str.length < 0x10000
      · refine ⟨combineType typeLongString 2, LittleEndian.bytes 2 str.length ++ str, fun wb => ?_,
          fun one loop rest => ?_⟩
        · simp only [wbScalar, wbString, if_neg short, if_pos word]
          rw [List.append_assoc, List.append_assoc]
          rfl
        · obtain ⟨type, value⟩ := combineType_parts (t := typeLongString) (v := 2) (by decide)
            (by decide)
          have fits : str.length % 256 ^ 2 = str.length := Nat.mod_eq_of_lt word
          rw [type, value, pushValue, if_neg (by decide), if_neg (by decide), if_neg (by decide),
            if_neg (by decide), if_neg (by decide), if_pos rfl, if_pos rfl, List.append_assoc,
            readNumber_bytes, fits]
          exact getBuffer_append str rest small
      · refine ⟨combineType typeLongString 4, LittleEndian.bytes 4 str.length ++ str, fun wb => ?_,
          fun one loop rest => ?_⟩
        · simp only [wbScalar, wbString, if_neg short, if_neg word]
          rw [List.append_assoc, List.append_assoc]
          rfl
        · obtain ⟨type, value⟩ := combineType_parts (t := typeLongString) (v := 4) (by decide)
            (by decide)
          have fits : str.length % 256 ^ 4 = str.length :=
            Nat.mod_eq_of_lt (small.trans (by decide))
          rw [type, value, pushValue, if_neg (by decide), if_neg (by decide), if_neg (by decide),
            if_neg (by decide), if_neg (by decide), if_pos rfl, if_neg (by decide), if_pos rfl,
            List.append_assoc, readNumber_bytes, fits]
          exact getBuffer_append str rest small

/-- The number of array values is read again. -/
theorem wbArraySize_read {n : Nat} (small : n < 2 ^ 31) : ∃ cookie payload, cookie < 32 ∧
    (∀ wb, wbArraySize (· ++ ·) wb n = wb ++ combineType typeTable cookie :: payload) ∧
      ∀ rest, readArraySize (payload ++ rest) cookie = some (n, rest) := by
  by_cases long : maxCookie - 1 ≤ n
  · obtain ⟨cookie, payload, lt, not_real, written, read⟩ := wbInteger_read (.ofNat 64 n)
    refine ⟨maxCookie - 1, combineType typeNumber cookie :: payload, by decide, fun wb => ?_,
      fun rest => ?_⟩
    · rw [wbArraySize, if_pos long, written, List.append_assoc]
      rfl
    · obtain ⟨type, value⟩ := combineType_parts (t := typeNumber) (by decide) lt
      have read_tag : rbRead (combineType typeNumber cookie :: payload ++ rest) 1 =
          some ([combineType typeNumber cookie], payload ++ rest) :=
        rbRead_append [combineType typeNumber cookie] (payload ++ rest)
      have tag : LittleEndian.number [combineType typeNumber cookie] =
          (combineType typeNumber cookie).toNat := rfl
      have int : ((BitVec.ofNat 64 n).truncate 32).toInt.toNat = n := by
        rw [BitVec.toInt_eq_toNat_cond]
        simp only [BitVec.truncate_eq_setWidth, BitVec.toNat_setWidth, BitVec.toNat_ofNat]
        split <;> omega
      rw [readArraySize, if_pos rfl, read_tag, Option.bind_some]
      dsimp only
      rw [tag, type, value, if_neg (by simp [not_real]), read, Option.map_some, int]
  · have short : n < 32 := by
      have : maxCookie = 32 := rfl
      omega
    refine ⟨n, [], short, fun wb => ?_, fun rest => ?_⟩
    · rw [wbArraySize, if_neg long]
    · have other : n ≠ maxCookie - 1 := fun same => long same.ge
      rw [readArraySize, if_neg other]
      rfl

/-! ### Copies -/

mutual

/-- What a service gets of a value: tables are built again, a pair after the other. -/
def copyOne : Value → Option Value
  | .nil => some .nil
  | .scalar s => some (.scalar s)
  | .table array hash => (copyArray array).bind fun array => copyHash array [] hash
  | .other => none

def copyArray : List Value → Option (List Value)
  | [] => some []
  | v :: array => (copyOne v).bind fun v => (copyArray array).map (v :: ·)

def copyHash (array : List Value) (done : List (Value × Value)) :
    List (Value × Value) → Option Value
  | [] => some (.table array done)
  | (k, v) :: hash =>
      (copyOne k).bind fun k => (copyOne v).bind fun v =>
        (rawset array done k v).bind fun t => copyHash t.1 t.2 hash

end

mutual

/-- A value that Lua can hold: no pair has the key nil, and strings and arrays are not longer than
an `int` counts. -/
def Value.Held : Value → Prop
  | .scalar s => s.Small
  | .table array hash => array.length < 2 ^ 31 ∧ HeldAll array ∧ HeldPairs hash
  | _ => True

def HeldAll : List Value → Prop
  | [] => True
  | v :: array => v.Held ∧ HeldAll array

def HeldPairs : List (Value × Value) → Prop
  | [] => True
  | (k, v) :: hash => (k.isNil = false ∧ k.Held ∧ v.Held) ∧ HeldPairs hash

end

theorem copyOne_isNil {v v' : Value} (copied : copyOne v = some v') : v'.isNil = v.isNil := by
  cases v with
  | nil | scalar =>
      rw [copyOne] at copied
      cases copied
      rfl
  | other =>
      rw [copyOne] at copied
      cases copied
  | table array hash =>
      have tables : ∀ (hash : List (Value × Value)) (array : List Value)
          (done : List (Value × Value)), copyHash array done hash = some v' → v'.isNil = false := by
        intro hash
        induction hash with
        | nil =>
            intro array done copied
            rw [copyHash] at copied
            cases copied
            rfl
        | cons pair hash ih =>
            intro array done copied
            obtain ⟨k, v⟩ := pair
            rw [copyHash] at copied
            obtain ⟨k', -, copied⟩ := Option.bind_eq_some_iff.1 copied
            obtain ⟨v', -, copied⟩ := Option.bind_eq_some_iff.1 copied
            obtain ⟨t, -, copied⟩ := Option.bind_eq_some_iff.1 copied
            exact ih _ _ copied
      rw [copyOne] at copied
      obtain ⟨array', -, copied⟩ := Option.bind_eq_some_iff.1 copied
      exact tables hash array' [] copied

/-! ### The parts of what is packed -/

theorem packArray_cons {v : Value} {array : List Value} {depth : Nat} {bytes : Bytes}
    (packed : packArray (· ++ ·) depth (v :: array) [] = some bytes) :
    ∃ one others, packOne (· ++ ·) depth v [] = some one ∧
      packArray (· ++ ·) depth array [] = some others ∧ bytes = one ++ others := by
  rw [packArray] at packed
  obtain ⟨one, first, packed⟩ := Option.bind_eq_some_iff.1 packed
  rw [packArray_append] at packed
  obtain ⟨others, rest, rfl⟩ := Option.map_eq_some_iff.1 packed
  exact ⟨one, others, first, rest, rfl⟩

theorem packHash_cons {k v : Value} {hash : List (Value × Value)} {depth : Nat} {bytes : Bytes}
    (packed : packHash (· ++ ·) depth ((k, v) :: hash) [] = some bytes) :
    ∃ key value others, packOne (· ++ ·) depth k [] = some key ∧
      packOne (· ++ ·) depth v [] = some value ∧
      packHash (· ++ ·) depth hash [] = some others ∧ bytes = key ++ (value ++ others) := by
  rw [packHash] at packed
  obtain ⟨key, first, packed⟩ := Option.bind_eq_some_iff.1 packed
  obtain ⟨both, next, packed⟩ := Option.bind_eq_some_iff.1 packed
  rw [packOne_append] at next
  obtain ⟨value, second, rfl⟩ := Option.map_eq_some_iff.1 next
  rw [packHash_append] at packed
  obtain ⟨others, rest, rfl⟩ := Option.map_eq_some_iff.1 packed
  exact ⟨key, value, others, first, second, rest, List.append_assoc _ _ _⟩

theorem packOne_table {array : List Value} {hash : List (Value × Value)} {depth : Nat}
    {bytes : Bytes} (small : array.length < 2 ^ 31)
    (packed : packOne (· ++ ·) depth (.table array hash) [] = some bytes) :
    ∃ cookie size values pairs, cookie < 32 ∧
      packArray (· ++ ·) (depth + 1) array [] = some values ∧
      packHash (· ++ ·) (depth + 1) hash [] = some pairs ∧
      bytes = combineType typeTable cookie :: (size ++ (values ++ pairs)) ∧
      ∀ rest, readArraySize (size ++ rest) cookie = some (array.length, rest) := by
  obtain ⟨cookie, size, lt, written, read⟩ := wbArraySize_read small
  rw [packOne] at packed
  split at packed
  · cases packed
  rw [written, packArray_append] at packed
  obtain ⟨wb, begun, packed⟩ := Option.bind_eq_some_iff.1 packed
  obtain ⟨values, first, rfl⟩ := Option.map_eq_some_iff.1 begun
  rw [packHash_append] at packed
  obtain ⟨pairs, second, rfl⟩ := Option.map_eq_some_iff.1 packed
  refine ⟨cookie, size, values, pairs, lt, first, second, ?_, read⟩
  rw [List.nil_append, List.append_assoc, List.cons_append]

/-- Every value takes a byte. -/
theorem packOne_pos {v : Value} {depth : Nat} {bytes : Bytes} (held : v.Held)
    (packed : packOne (· ++ ·) depth v [] = some bytes) : 0 < bytes.length := by
  cases v with
  | nil =>
      rw [packOne] at packed
      split at packed
      · cases packed
      · cases packed
        exact Nat.one_pos
  | scalar s =>
      obtain ⟨tag, payload, written, -⟩ := wbScalar_read (s := s) (by rwa [Value.Held] at held)
      rw [packOne, written] at packed
      split at packed
      · cases packed
      · cases packed
        exact Nat.succ_pos _
  | other =>
      rw [packOne] at packed
      cases packed
  | table array hash =>
      rw [Value.Held] at held
      obtain ⟨cookie, size, values, pairs, -, -, -, rfl, -⟩ := packOne_table held.1 packed
      exact Nat.succ_pos _

mutual

/-- A value is read back as its copy, whatever follows. -/
theorem unpackOne_packOne : ∀ {v : Value} {depth : Nat} {bytes : Bytes}, v.Held →
    packOne (· ++ ·) depth v [] = some bytes → ∀ (fuel : Nat), bytes.length ≤ fuel →
    ∀ rest, unpackOne fuel (bytes ++ rest) = (copyOne v).map fun v => (v, rest)
  | .nil, depth, bytes, held, packed, fuel, enough, rest => by
      have more := packOne_pos held packed
      obtain ⟨fuel, rfl⟩ : ∃ n, fuel = n + 1 := ⟨fuel - 1, by omega⟩
      rw [packOne] at packed
      split at packed
      · cases packed
      · cases packed
        exact unpackOne_cons fuel _ rest
  | .scalar s, depth, bytes, held, packed, fuel, enough, rest => by
      have more := packOne_pos held packed
      obtain ⟨fuel, rfl⟩ : ∃ n, fuel = n + 1 := ⟨fuel - 1, by omega⟩
      obtain ⟨tag, payload, written, read⟩ := wbScalar_read (s := s) (by rwa [Value.Held] at held)
      rw [packOne, written] at packed
      split at packed
      · cases packed
      · cases packed
        rw [copyOne]
        exact (unpackOne_cons fuel tag _).trans (read _ _ rest)
  | .other, depth, bytes, held, packed, fuel, enough, rest => by
      rw [packOne] at packed
      cases packed
  | .table array hash, depth, bytes, held, packed, fuel, enough, rest => by
      rw [Value.Held] at held
      obtain ⟨small, held_array, held_hash⟩ := held
      obtain ⟨cookie, size, values, pairs, lt, first, second, rfl, read⟩ :=
        packOne_table small packed
      simp only [List.length_cons, List.length_append] at enough
      obtain ⟨fuel, rfl⟩ : ∃ n, fuel = n + 1 := ⟨fuel - 1, by omega⟩
      obtain ⟨type, value⟩ := combineType_parts (t := typeTable) (by decide) lt
      have read_values := readArray_packArray held_array first fuel (by omega)
        (pairs ++ rest)
      rw [List.cons_append, unpackOne_cons, type, value, pushValue, if_neg (by decide),
        if_neg (by decide), if_neg (by decide), if_neg (by decide), if_neg (by decide),
        if_neg (by decide), if_pos rfl, unpackTable, List.append_assoc, read, Option.bind_some,
        List.append_assoc]
      dsimp only
      rw [read_values, copyOne]
      cases copyArray array with
      | none => rfl
      | some array =>
          exact readPairs_packHash held_hash second (by omega) (by omega) array [] rest

theorem readArray_packArray : ∀ {array : List Value} {depth : Nat} {bytes : Bytes}, HeldAll array →
    packArray (· ++ ·) depth array [] = some bytes → ∀ (fuel : Nat), bytes.length ≤ fuel →
    ∀ rest, readArray (unpackOne fuel) array.length (bytes ++ rest) =
      (copyArray array).map fun array => (array, rest)
  | [], depth, bytes, held, packed, fuel, enough, rest => by
      rw [packArray] at packed
      cases packed
      rfl
  | v :: array, depth, bytes, held, packed, fuel, enough, rest => by
      rw [HeldAll] at held
      obtain ⟨one, others, first, second, rfl⟩ := packArray_cons packed
      rw [List.length_append] at enough
      have read := unpackOne_packOne held.1 first fuel (by omega) (others ++ rest)
      have later := readArray_packArray held.2 second fuel (by omega) rest
      rw [List.length_cons, readArray, List.append_assoc, read, copyArray]
      cases copyOne v with
      | none => rfl
      | some v =>
          simp only [Option.map_some, Option.bind_some]
          rw [later]
          cases copyArray array <;> rfl

theorem readPairs_packHash : ∀ {hash : List (Value × Value)} {depth : Nat} {bytes : Bytes},
    HeldPairs hash → packHash (· ++ ·) depth hash [] = some bytes → ∀ {fuel loop : Nat},
    bytes.length ≤ fuel → bytes.length ≤ loop → ∀ array done rest,
      readPairs (unpackOne fuel) loop array done (bytes ++ rest) =
        (copyHash array done hash).map fun v => (v, rest)
  | [], depth, bytes, held, packed, fuel, loop, enough, turns, array, done, rest => by
      rw [packHash] at packed
      cases packed
      obtain ⟨fuel, rfl⟩ : ∃ n, fuel = n + 1 := ⟨fuel - 1, (Nat.sub_add_cancel enough).symm⟩
      obtain ⟨loop, rfl⟩ : ∃ n, loop = n + 1 := ⟨loop - 1, (Nat.sub_add_cancel turns).symm⟩
      have last : unpackOne (fuel + 1) (wbNil (· ++ ·) [] ++ rest) = some (.nil, rest) :=
        unpackOne_cons fuel _ rest
      rw [readPairs, last]
      rfl
  | (k, v) :: hash, depth, bytes, held, packed, fuel, loop, enough, turns, array, done, rest => by
      rw [HeldPairs] at held
      obtain ⟨⟨key_some, held_key, held_value⟩, held_hash⟩ := held
      obtain ⟨key, value, others, first, second, third, rfl⟩ := packHash_cons packed
      have more := packOne_pos held_key first
      simp only [List.length_append] at enough turns
      obtain ⟨loop, rfl⟩ : ∃ n, loop = n + 1 := ⟨loop - 1, by omega⟩
      have read_key := unpackOne_packOne held_key first fuel (by omega)
        (value ++ (others ++ rest))
      have read_value := unpackOne_packOne held_value second fuel (by omega)
        (others ++ rest)
      rw [readPairs, List.append_assoc, List.append_assoc, read_key, copyHash]
      cases copied : copyOne k with
      | none => rfl
      | some k' =>
          simp only [Option.map_some, Option.bind_some, copyOne_isNil copied, key_some]
          rw [if_neg Bool.false_ne_true, read_value]
          cases copyOne v with
          | none => rfl
          | some v' =>
              simp only [Option.map_some, Option.bind_some]
              cases rawset array done k' v' with
              | none => rfl
              | some t =>
                  exact readPairs_packHash held_hash third (by omega) (by omega) t.1 t.2 rest

end

theorem unpackAll_cons (one : Bytes → Option (Value × Bytes)) (loop : Nat) {bytes : Bytes}
    (some_left : 0 < bytes.length) : unpackAll one (loop + 1) bytes =
      (one bytes).bind fun r => (unpackAll one loop r.2).map (r.1 :: ·) := by
  obtain ⟨b, rest, rfl⟩ := List.exists_cons_of_length_pos some_left
  rfl

theorem luaseriUnpack_of_fits {buffer : Bytes} (fits : buffer.length < 2 ^ 31) :
    luaseriUnpack buffer = unpackAll (unpackOne buffer.length) buffer.length buffer := by
  have len : (BitVec.ofNat 32 buffer.length).toInt = buffer.length := by
    rw [BitVec.toInt_ofNat']
    exact Int.bmod_eq_of_le (by omega) (by omega)
  rw [luaseriUnpack, len, Int.toNat_natCast, List.take_length]

/-- The values of a message are copied one after another. -/
theorem luaseriUnpack_pack {values : List Value} {bytes : Bytes} (held : HeldAll values)
    (packed : pack values = some bytes) (small : bytes.length < 2 ^ 31) :
    luaseriUnpack bytes = copyArray values := by
  have all : ∀ (values : List Value) (bytes : Bytes) (fuel loop : Nat), HeldAll values →
      packArray (· ++ ·) 0 values [] = some bytes → bytes.length ≤ fuel → bytes.length ≤ loop →
      unpackAll (unpackOne fuel) loop bytes = copyArray values := by
    intro values
    induction values with
    | nil =>
        intro bytes fuel loop _ packed _ _
        rw [packArray] at packed
        cases packed
        cases loop <;> rfl
    | cons v values ih =>
        intro bytes fuel loop held packed enough turns
        rw [HeldAll] at held
        obtain ⟨one, others, first, second, rfl⟩ := packArray_cons packed
        have more := packOne_pos held.1 first
        rw [List.length_append] at enough turns
        obtain ⟨loop, rfl⟩ : ∃ n, loop = n + 1 := ⟨loop - 1, by omega⟩
        have read := unpackOne_packOne held.1 first fuel (by omega) others
        have later := ih others fuel loop held.2 second (by omega) (by omega)
        rw [unpackAll_cons _ _ (by rw [List.length_append]; omega), read, copyArray]
        cases copyOne v with
        | none => rfl
        | some v =>
            simp only [Option.map_some, Option.bind_some]
            rw [later]
  rw [luaseriUnpack_of_fits small]
  exact all values bytes bytes.length bytes.length held packed le_rfl le_rfl

/-! ### Tables as Lua holds them -/

/-- A key that a table keeps behind its array of length `n`. -/
def KeyOf (n : Nat) : Value → Prop
  | .nil => False
  | .scalar s => s.normal = some s ∧ ∀ i, s = .integer i → ¬ (1 ≤ i.toInt ∧ i.toInt ≤ n)
  | _ => True

/-- The pairs of a table behind an array of length `n`. -/
structure Keys (n : Nat) (hash : List (Value × Value)) : Prop where
  key : ∀ pair ∈ hash, KeyOf n pair.1
  value : ∀ pair ∈ hash, pair.2.isNil = false
  distinct : hash.Pairwise fun p q => ∀ s, p.1 = .scalar s → q.1 ≠ .scalar s

mutual

/-- A value that can be sent, as it is in Lua. -/
def Value.Proper : Value → Prop
  | .nil => True
  | .scalar s => s.Small
  | .table array hash => array.length < 2 ^ 31 ∧ Keys array.length hash ∧ ProperAll array ∧
      ProperPairs hash
  | .other => False

def ProperAll : List Value → Prop
  | [] => True
  | v :: array => v.Proper ∧ ProperAll array

def ProperPairs : List (Value × Value) → Prop
  | [] => True
  | (k, v) :: hash => (k.Proper ∧ v.Proper) ∧ ProperPairs hash

end

theorem properAll_iff {array : List Value} : ProperAll array ↔ ∀ v ∈ array, v.Proper := by
  induction array with
  | nil => simp [ProperAll]
  | cons v array ih => simp [ProperAll, ih]

theorem properPairs_iff {hash : List (Value × Value)} :
    ProperPairs hash ↔ ∀ pair ∈ hash, pair.1.Proper ∧ pair.2.Proper := by
  induction hash with
  | nil => simp [ProperPairs]
  | cons pair hash ih =>
      obtain ⟨k, v⟩ := pair
      simp [ProperPairs, ih]

theorem KeyOf.isNil {n : Nat} {k : Value} (h : KeyOf n k) : k.isNil = false := by
  cases k with
  | nil => exact h.elim
  | _ => rfl

mutual

theorem Value.Proper.held : ∀ {v : Value}, v.Proper → v.Held
  | .nil, _ => by rw [Value.Held.eq_def]; trivial
  | .scalar s, proper => by
      rw [Value.Proper] at proper
      rwa [Value.Held]
  | .table array hash, proper => by
      rw [Value.Proper] at proper
      obtain ⟨small, keys, all, pairs⟩ := proper
      rw [Value.Held]
      exact ⟨small, ProperAll.held all, ProperPairs.held keys.key pairs⟩
  | .other, proper => by
      rw [Value.Proper] at proper
      exact proper.elim

theorem ProperAll.held : ∀ {array : List Value}, ProperAll array → HeldAll array
  | [], _ => by rw [HeldAll]; trivial
  | v :: array, proper => by
      rw [ProperAll] at proper
      rw [HeldAll]
      exact ⟨Value.Proper.held proper.1, ProperAll.held proper.2⟩

theorem ProperPairs.held : ∀ {hash : List (Value × Value)} {n : Nat},
    (∀ pair ∈ hash, KeyOf n pair.1) → ProperPairs hash → HeldPairs hash
  | [], _, _, _ => by rw [HeldPairs]; trivial
  | (k, v) :: hash, n, keys, proper => by
      rw [ProperPairs] at proper
      rw [HeldPairs]
      exact ⟨⟨(keys _ (.head _)).isNil, Value.Proper.held proper.1.1, Value.Proper.held proper.1.2⟩,
        ProperPairs.held (fun pair mem => keys pair (.tail _ mem)) proper.2⟩

end

/-- A new key comes last. -/
theorem rawset_new {array : List Value} {done : List (Value × Value)} {k v : Value}
    (key : KeyOf array.length k) (some_value : v.isNil = false)
    (fresh : ∀ pair ∈ done, ∀ s, pair.1 = .scalar s → k ≠ .scalar s) :
    rawset array done k v = some (array, done ++ [(k, v)]) := by
  cases k with
  | nil => exact key.elim
  | table | other =>
      rw [rawset.eq_def]
      simp [some_value]
  | scalar s =>
      have absent : (done.any fun pair => pair.1.isKey s) = false := by
        rw [List.any_eq_false]
        intro pair mem
        obtain ⟨k, v⟩ := pair
        cases k with
        | scalar t =>
            have other := fresh _ mem t rfl
            simpa [Value.isKey, eq_comm] using other
        | _ => simp [Value.isKey]
      have set : setHash done s v = done ++ [(.scalar s, v)] := by
        unfold setHash
        rw [some_value, if_neg Bool.false_ne_true, absent, if_neg Bool.false_ne_true]
      rw [rawset, key.1]
      cases s with
      | integer i => simp [key.2 i rfl, set]
      | _ => simp [set]

mutual

/-- The copy of a proper value is the value. -/
theorem copyOne_proper : ∀ {v : Value}, v.Proper → copyOne v = some v
  | .nil, _ => by rw [copyOne]
  | .scalar _, _ => by rw [copyOne]
  | .table array hash, proper => by
      rw [Value.Proper] at proper
      obtain ⟨-, keys, all, pairs⟩ := proper
      rw [copyOne, copyArray_proper all, Option.bind_some,
        copyHash_proper pairs [] keys.key keys.value (by simpa using keys.distinct)]
      rfl
  | .other, proper => by
      rw [Value.Proper] at proper
      exact proper.elim

theorem copyArray_proper : ∀ {array : List Value}, ProperAll array → copyArray array = some array
  | [], _ => by rw [copyArray]
  | v :: array, proper => by
      rw [ProperAll] at proper
      rw [copyArray, copyOne_proper proper.1, Option.bind_some, copyArray_proper proper.2]
      rfl

theorem copyHash_proper : ∀ {hash : List (Value × Value)}, ProperPairs hash →
    ∀ {array : List Value} (done : List (Value × Value)),
      (∀ pair ∈ hash, KeyOf array.length pair.1) → (∀ pair ∈ hash, pair.2.isNil = false) →
      (done ++ hash).Pairwise (fun p q => ∀ s, p.1 = .scalar s → q.1 ≠ .scalar s) →
      copyHash array done hash = some (.table array (done ++ hash))
  | [], _, array, done, _, _, _ => by rw [copyHash, List.append_nil]
  | (k, v) :: hash, proper, array, done, keys, values, distinct => by
      rw [ProperPairs] at proper
      have fresh : ∀ pair ∈ done, ∀ s, pair.1 = .scalar s → k ≠ .scalar s := fun pair mem =>
        (List.pairwise_append.1 distinct).2.2 pair mem (k, v) (.head _)
      have rest := copyHash_proper proper.2 (done ++ [(k, v)])
        (fun pair mem => keys pair (.tail _ mem)) (fun pair mem => values pair (.tail _ mem))
        (by rwa [List.append_assoc])
      rw [copyHash, copyOne_proper proper.1.1, Option.bind_some, copyOne_proper proper.1.2,
        Option.bind_some, rawset_new (keys _ (.head _)) (values _ (.head _)) fresh, Option.bind_some,
        rest, List.append_assoc]
      rfl

end

/-! ### What can be packed -/

mutual

/-- How deep tables with something in them are nested. -/
def Value.height : Value → Nat
  | .table array hash => max (heightAll array) (heightPairs hash)
  | _ => 0

def heightAll : List Value → Nat
  | [] => 0
  | v :: array => max (v.height + 1) (heightAll array)

def heightPairs : List (Value × Value) → Nat
  | [] => 0
  | (k, v) :: hash => max (max (k.height + 1) (v.height + 1)) (heightPairs hash)

end

mutual

/-- The only error of the packer with proper values is that of the depth. -/
theorem packOne_isSome {W : Type} (push : W → Bytes → W) : ∀ {v : Value}, v.Proper →
    ∀ (depth : Nat) (wb : W), (packOne push depth v wb).isSome ↔ depth + v.height ≤ maxDepth
  | .nil, _, depth, wb | .scalar _, _, depth, wb => by
      rw [packOne, Value.height.eq_def]
      split <;> simp <;> omega
  | .other, proper, _, _ => by
      rw [Value.Proper] at proper
      exact proper.elim
  | .table array hash, proper, depth, wb => by
      rw [Value.Proper] at proper
      obtain ⟨-, -, all, pairs⟩ := proper
      rw [packOne, Value.height]
      split
      · simp
        omega
      · have first := packArray_isSome push all (depth + 1) (by omega)
          (wbArraySize push wb array.length)
        cases packed : packArray push (depth + 1) array (wbArraySize push wb array.length) with
        | none =>
            rw [packed] at first
            have deep : ¬ depth + 1 + heightAll array ≤ maxDepth + 1 := fun le =>
              Bool.noConfusion (first.2 le)
            simp
            omega
        | some wb =>
            rw [packed] at first
            have fits := first.1 rfl
            rw [Option.bind_some, packHash_isSome push pairs (depth + 1) (by omega) wb]
            omega

theorem packArray_isSome {W : Type} (push : W → Bytes → W) : ∀ {array : List Value},
    ProperAll array → ∀ depth, depth ≤ maxDepth + 1 → ∀ wb : W,
      (packArray push depth array wb).isSome ↔ depth + heightAll array ≤ maxDepth + 1
  | [], _, depth, room, wb => by
      rw [packArray, heightAll]
      simpa using room
  | v :: array, proper, depth, room, wb => by
      rw [ProperAll] at proper
      have first := packOne_isSome push proper.1 depth wb
      rw [packArray, heightAll]
      cases packed : packOne push depth v wb with
      | none =>
          rw [packed] at first
          have deep : ¬ depth + v.height ≤ maxDepth := fun le => Bool.noConfusion (first.2 le)
          simp
          omega
      | some wb =>
          rw [packed] at first
          have fits := first.1 rfl
          rw [Option.bind_some, packArray_isSome push proper.2 depth room wb]
          omega

theorem packHash_isSome {W : Type} (push : W → Bytes → W) : ∀ {hash : List (Value × Value)},
    ProperPairs hash → ∀ depth, depth ≤ maxDepth + 1 → ∀ wb : W,
      (packHash push depth hash wb).isSome ↔ depth + heightPairs hash ≤ maxDepth + 1
  | [], _, depth, room, wb => by
      rw [packHash, heightPairs]
      simpa using room
  | (k, v) :: hash, proper, depth, room, wb => by
      rw [ProperPairs] at proper
      have first := packOne_isSome push proper.1.1 depth wb
      rw [packHash, heightPairs]
      cases packed : packOne push depth k wb with
      | none =>
          rw [packed] at first
          have deep : ¬ depth + k.height ≤ maxDepth := fun le => Bool.noConfusion (first.2 le)
          simp
          omega
      | some wb =>
          rw [packed] at first
          have fits := first.1 rfl
          have second := packOne_isSome push proper.1.2 depth wb
          rw [Option.bind_some]
          cases packed : packOne push depth v wb with
          | none =>
              rw [packed] at second
              have deep : ¬ depth + v.height ≤ maxDepth := fun le => Bool.noConfusion (second.2 le)
              simp
              omega
          | some wb =>
              rw [packed] at second
              have fits' := second.1 rfl
              rw [Option.bind_some, packHash_isSome push proper.2 depth room wb]
              omega

end

theorem heightAll_le {array : List Value} {n : Nat} :
    heightAll array ≤ n + 1 ↔ ∀ v ∈ array, v.height ≤ n := by
  induction array with
  | nil => simp [heightAll]
  | cons v array ih => simp [heightAll, ih]

/-- Values that Lua holds are packed unless they are nested too deep, in whichever blocks, and
unpacking gives the same values again, if their number of bytes is an `int`. -/
theorem unpack_pack {values : List Value} (proper : ProperAll values)
    (small : ∀ bytes, luaseriPack values = some bytes → bytes.length < 2 ^ 31) :
    (luaseriPack values).bind luaseriUnpack =
      if ∀ v ∈ values, v.height ≤ maxDepth then some values else none := by
  have some_packed := packArray_isSome (· ++ ·) proper 0 (Nat.zero_le _) []
  rw [Nat.zero_add, heightAll_le] at some_packed
  rw [luaseriPack_eq, pack, packFrom] at small ⊢
  cases packed : packArray (· ++ ·) 0 values [] with
  | none =>
      rw [packed] at some_packed
      rw [if_neg fun fits => Bool.noConfusion (some_packed.2 fits)]
      rfl
  | some bytes =>
      rw [packed] at some_packed
      rw [if_pos (some_packed.1 rfl), Option.bind_some,
        luaseriUnpack_pack proper.held packed (small bytes packed), copyArray_proper proper]

/-- `300, {true, k = 7}` -/
def smallMessage : List Value :=
  [.scalar (.integer 300),
    .table [.scalar (.boolean true)] [(.scalar (.string [107]), .scalar (.integer 7))]]

theorem small_message_read :
    (luaseriPack smallMessage).bind luaseriUnpack = some smallMessage := by
  have keys : Keys 1 [(.scalar (.string [107]), .scalar (.integer 7))] := by
    refine ⟨fun pair mem => ?_, fun pair mem => ?_, List.pairwise_singleton _ _⟩
    · cases List.mem_singleton.1 mem
      exact ⟨rfl, nofun⟩
    · cases List.mem_singleton.1 mem
      rfl
  have proper : ProperAll smallMessage := by
    simp only [smallMessage, ProperAll, ProperPairs, Value.Proper, Scalar.Small, and_true, true_and]
    exact ⟨by decide, keys, by decide⟩
  have small : ∀ bytes, luaseriPack smallMessage = some bytes → bytes.length < 2 ^ 31 := by
    intro bytes packed
    rw [luaseriPack_eq] at packed
    cases packed
    decide
  exact (unpack_pack proper small).trans (if_pos (by decide))

end FkServer.Seri
