import Mathlib.Data.List.Basic
import Mathlib.Data.List.TakeWhile
import Mathlib.Logic.Basic
import Mathlib.Data.String.Basic

/-!
Lua's patterns: the matcher behind `string.match`, for a pattern that is anchored at the start.
A text is the list of its bytes, each as the character of its number, in the C locale. A
pattern can be malformed, which shows only where the matcher gets to the part that is.
-/
namespace LuaPattern

abbrev Bytes := List Char

/-- The bytes of a text. -/
def bytes (s : String) : Bytes := s.toUTF8.data.toList.map fun b => Char.ofNat b.toNat

/-! ### Single characters -/

def isUpper (c : Char) : Bool := 'A' ≤ c && c ≤ 'Z'
def isLower (c : Char) : Bool := 'a' ≤ c && c ≤ 'z'
def isAlpha (c : Char) : Bool := isUpper c || isLower c
def isDigit (c : Char) : Bool := '0' ≤ c && c ≤ '9'
def isAlnum (c : Char) : Bool := isAlpha c || isDigit c
def isCntrl (c : Char) : Bool := c.toNat < 32 || c.toNat == 127
def isGraph (c : Char) : Bool := 32 < c.toNat && c.toNat < 127
def isSpace (c : Char) : Bool := c.toNat == 32 || (9 ≤ c.toNat && c.toNat ≤ 13)
def isXdigit (c : Char) : Bool := isDigit c || ('A' ≤ c && c ≤ 'F') || ('a' ≤ c && c ≤ 'f')

def toLower (c : Char) : Char := if isUpper c then Char.ofNat (c.toNat + 32) else c

/-- The test of a class of characters, by its lower case letter. -/
def classTest : Char → Option (Char → Bool)
  | 'a' => some isAlpha
  | 'c' => some isCntrl
  | 'd' => some isDigit
  | 'g' => some isGraph
  | 'l' => some isLower
  | 'p' => some fun c => isGraph c && !isAlnum c
  | 's' => some isSpace
  | 'u' => some isUpper
  | 'w' => some isAlnum
  | 'x' => some isXdigit
  | 'z' => some fun c => c.toNat == 0
  | _ => none

/-- `match_class` -/
def matchClass (c cl : Char) : Bool :=
  match classTest (toLower cl) with
  | some test => if isLower cl then test c else !test c
  | none => cl == c

/-- The loop of `matchbracketclass` over what stands between the brackets. -/
def bracketHas (c : Char) : Bytes → Bool
  | '%' :: x :: rest => matchClass c x || bracketHas c rest
  | a :: '-' :: b :: rest => (a ≤ c && c ≤ b) || bracketHas c rest
  | a :: rest => a == c || bracketHas c rest
  | [] => false

/-- The loop of `classend` in a set: what stands before the bracket that closes it, of which the
first item may be a bracket itself, and what comes after. -/
def setEnd : Bytes → Option (Bytes × Bytes)
  | [] => none
  | ['%'] => none
  | '%' :: x :: rest =>
      if rest.head? = some ']' then some (['%', x], rest.tail)
      else (setEnd rest).map fun out => ('%' :: x :: out.1, out.2)
  | x :: rest =>
      if rest.head? = some ']' then some ([x], rest.tail)
      else (setEnd rest).map fun out => (x :: out.1, out.2)

/-- A set, after the bracket that opens it. -/
def bracketClass : Bytes → Option ((Char → Bool) × Bytes)
  | '^' :: p => (setEnd p).map fun out => (fun c => !bracketHas c out.1, out.2)
  | p => (setEnd p).map fun out => (fun c => bracketHas c out.1, out.2)

/-- `singlematch` and `classend`: the test for one character, and what comes after it. -/
def single : Bytes → Option ((Char → Bool) × Bytes)
  | ['%'] => none
  | '%' :: x :: rest => some (fun c => matchClass c x, rest)
  | '[' :: rest => bracketClass rest
  | '.' :: rest => some (fun _ => true, rest)
  | x :: rest => some (fun c => x == c, rest)
  | [] => none

/-! ### Items of a pattern -/

inductive Suffix
  | optional
  | star
  | plus
  | minus

/-- What a pattern begins with. -/
inductive Item
  | finish
  | openCapture (position : Bool) (rest : Bytes)
  | closeCapture (rest : Bytes)
  | endAnchor
  | balance (b e : Char) (rest : Bytes)
  | frontier (test : Char → Bool) (rest : Bytes)
  | back (digit : Char) (rest : Bytes)
  | one (test : Char → Bool) (rest : Bytes)
  | repeated (test : Char → Bool) (suffix : Suffix) (rest : Bytes)
  | malformed

/-- A single character with the suffix after it. -/
def suffixed (test : Char → Bool) : Bytes → Item
  | '?' :: rest => .repeated test .optional rest
  | '*' :: rest => .repeated test .star rest
  | '+' :: rest => .repeated test .plus rest
  | '-' :: rest => .repeated test .minus rest
  | rest => .one test rest

/-- The `dflt` case of `match`. -/
def singleItem (p : Bytes) : Item :=
  match single p with
  | some (test, rest) => suffixed test rest
  | none => .malformed

/-- The items that begin with an escape. -/
def escaped : Bytes → Item
  | 'b' :: b :: e :: rest => .balance b e rest
  | 'b' :: _ => .malformed
  | 'f' :: '[' :: rest =>
      match bracketClass rest with
      | some (test, rest) => .frontier test rest
      | none => .malformed
  | 'f' :: _ => .malformed
  | x :: rest => if isDigit x then .back x rest else singleItem ('%' :: x :: rest)
  | [] => .malformed

def item : Bytes → Item
  | [] => .finish
  | '(' :: ')' :: rest => .openCapture true rest
  | '(' :: rest => .openCapture false rest
  | ')' :: rest => .closeCapture rest
  | ['$'] => .endAnchor
  | '%' :: rest => escaped rest
  | p => singleItem p

/-! ### Captures -/

/-- A capture that is open, one of a place, or one of `len` characters. -/
inductive Capture
  | unfinished (init : Nat)
  | position (init : Nat)
  | closed (init len : Nat)

def Capture.isUnfinished : Capture → Bool
  | .unfinished _ => true
  | _ => false

/-- `capture_to_close`: the last capture that is open is closed at `i`. -/
def closeLast (i : Nat) : List Capture → Option (List Capture)
  | [] => none
  | capture :: rest =>
      match closeLast i rest with
      | some rest => some (capture :: rest)
      | none =>
          match capture with
          | .unfinished init => some (.closed init (i - init) :: rest)
          | _ => none

/-- `check_capture`: where the text of a capture that is closed begins, and its length; a
capture of a place has none. -/
def checkCapture (digit : Char) (captures : List Capture) : Option (Option (Nat × Nat)) :=
  if digit = '0' then none
  else
    match captures[digit.toNat - '1'.toNat]? with
    | some (.closed init len) => some (some (init, len))
    | some (.position _) => some none
    | _ => none

def maxCaptures : Nat := 32

/-! ### The matcher -/

inductive Outcome
  | fail
  | found (i : Nat) (captures : List Capture)
  | error

section Matcher
variable (src : Bytes)

def has (test : Char → Bool) (i : Nat) : Bool :=
  match src[i]? with
  | some c => test c
  | none => false

/-- The loop of `matchbalance`, from where `open_` of `b` are not closed. -/
def balanced (b e : Char) : Bytes → Nat → Nat → Option Nat
  | [], _, _ => none
  | c :: rest, i, open_ =>
      if c = e then if open_ = 1 then some (i + 1) else balanced b e rest (i + 1) (open_ - 1)
      else if c = b then balanced b e rest (i + 1) (open_ + 1)
      else balanced b e rest (i + 1) open_

/-- `matchbalance` -/
def matchBalance (b e : Char) (i : Nat) : Option Nat :=
  if src[i]? = some b then balanced b e (src.drop (i + 1)) (i + 1) 1 else none

/-- `max_expand`, with `n` characters to try first. -/
def maxExpand (next : Nat → Outcome) (i : Nat) : Nat → Outcome
  | 0 => next i
  | n + 1 =>
      match next (i + (n + 1)) with
      | .fail => maxExpand next i n
      | out => out

/-- `min_expand`, with at most `n` characters left. -/
def minExpand (next : Nat → Outcome) (test : Char → Bool) : Nat → Nat → Outcome
  | 0, i => next i
  | n + 1, i =>
      match next i with
      | .fail => if has src test i then minExpand next test n (i + 1) else .fail
      | out => out

/-- `match`, where `depth` more calls can be nested. `fuel` is for the characters of the
pattern, which never come back. -/
def doMatch : Nat → Nat → Nat → Bytes → List Capture → Outcome
  | 0, _, _, _, _ => .error
  | fuel + 1, depth, i, p, captures =>
      let call (i : Nat) (p : Bytes) (captures : List Capture) : Outcome :=
        if depth = 0 then .error else doMatch fuel (depth - 1) i p captures
      match item p with
      | .finish => .found i captures
      | .openCapture position rest =>
          if maxCaptures ≤ captures.length then .error
          else call i rest (captures ++ [if position then .position i else .unfinished i])
      | .closeCapture rest =>
          match closeLast i captures with
          | some captures => call i rest captures
          | none => .error
      | .endAnchor => if i = src.length then .found i captures else .fail
      | .balance b e rest =>
          match matchBalance src b e i with
          | some j => doMatch fuel depth j rest captures
          | none => .fail
      | .frontier test rest =>
          let previous := if i = 0 then Char.ofNat 0 else (src[i - 1]?).getD (Char.ofNat 0)
          if !test previous && test ((src[i]?).getD (Char.ofNat 0)) then
            doMatch fuel depth i rest captures
          else
            .fail
      | .back digit rest =>
          match checkCapture digit captures with
          | none => .error
          | some none => .fail
          | some (some (init, len)) =>
              if len ≤ src.length - i ∧ (src.drop init).take len = (src.drop i).take len then
                doMatch fuel depth (i + len) rest captures
              else
                .fail
      | .one test rest =>
          if has src test i then doMatch fuel depth (i + 1) rest captures else .fail
      | .repeated test suffix rest =>
          match suffix with
          | .optional =>
              if has src test i then
                match call (i + 1) rest captures with
                | .fail => doMatch fuel depth i rest captures
                | out => out
              else
                doMatch fuel depth i rest captures
          | .star =>
              if has src test i then
                maxExpand (fun j => call j rest captures) i ((src.drop i).takeWhile test).length
              else
                doMatch fuel depth i rest captures
          | .plus =>
              if has src test i then
                maxExpand (fun j => call j rest captures) (i + 1)
                  ((src.drop (i + 1)).takeWhile test).length
              else
                .fail
          | .minus =>
              if has src test i then
                minExpand src (fun j => call j rest captures) test (src.length - i) i
              else
                doMatch fuel depth i rest captures
      | .malformed => .error

end Matcher

def maxCalls : Nat := 200

/-- Whether the pattern matches at the start of the text, `none` where Lua raises an error. -/
def matchesStart (src p : Bytes) : Option Bool :=
  match doMatch src (p.length + 1) (maxCalls - 1) 0 p [] with
  | .fail => some false
  | .found _ captures => if captures.any Capture.isUnfinished then none else some true
  | .error => none

/-- `s:match("^"..p.."$")`, where only the truth of the result matters. -/
def whole (s p : String) : Option Bool := matchesStart (bytes s) (bytes p ++ ['$'])


variable {src p rest : Bytes} {test : Char → Bool} {suffix : Suffix} {captures : List Capture}
  {fuel depth i : Nat}

theorem toNat_byte {n : Nat} (small : n < 256) : (Char.ofNat n).toNat = n := by
  rw [Char.ofNat, dif_pos (Or.inl (by omega))]
  rfl

theorem bytes_injective {s s' : String} (same : bytes s = bytes s') : s = s' := by
  have byte : Function.Injective fun b : UInt8 => Char.ofNat b.toNat := by
    intro b b' equal
    have numbers := congrArg Char.toNat equal
    dsimp only at numbers
    rw [toNat_byte b.toNat_lt, toNat_byte b'.toNat_lt] at numbers
    exact UInt8.toNat_inj.1 numbers
  have lists := List.map_injective_iff.2 byte same
  exact String.toByteArray_inj.1 (ByteArray.ext (Array.toList_inj.1 lists))

/-! ### The fuel is enough -/

/-- What an item leaves of its pattern. -/
def Item.rest? : Item → Option Bytes
  | .openCapture _ rest | .closeCapture rest | .balance _ _ rest | .frontier _ rest
  | .back _ rest | .one _ rest | .repeated _ _ rest => some rest
  | .finish | .endAnchor | .malformed => none

theorem setEnd_shorter {out : Bytes × Bytes} (found : setEnd p = some out) :
    out.2.length < p.length := by
  fun_induction setEnd p generalizing out with
  | case1 => cases found
  | case2 => cases found
  | case3 x rest close =>
      cases found
      simp only [List.length_cons, List.length_tail]
      omega
  | case4 x rest more ih =>
      obtain ⟨out', here, rfl⟩ := Option.map_eq_some_iff.1 found
      have := ih here
      simp only [List.length_cons]
      omega
  | case5 x rest _ _ close =>
      cases found
      simp only [List.length_cons, List.length_tail]
      omega
  | case6 x rest _ _ more ih =>
      obtain ⟨out', here, rfl⟩ := Option.map_eq_some_iff.1 found
      have := ih here
      simp only [List.length_cons]
      omega

theorem bracketClass_shorter {out : (Char → Bool) × Bytes} (found : bracketClass p = some out) :
    out.2.length < p.length := by
  rw [bracketClass.eq_def] at found
  split at found
  · obtain ⟨out', here, rfl⟩ := Option.map_eq_some_iff.1 found
    have := setEnd_shorter here
    simp only [List.length_cons]
    omega
  · obtain ⟨out', here, rfl⟩ := Option.map_eq_some_iff.1 found
    exact setEnd_shorter here

theorem single_shorter {out : (Char → Bool) × Bytes} (found : single p = some out) :
    out.2.length < p.length := by
  rw [single.eq_def] at found
  split at found
  · cases found
  · cases found
    simp only [List.length_cons]
    omega
  · have := bracketClass_shorter found
    simp only [List.length_cons]
    omega
  · cases found
    simp
  · cases found
    simp
  · cases found

theorem suffixed_shorter (left : (suffixed test p).rest? = some rest) : rest.length ≤ p.length := by
  rw [suffixed.eq_def] at left
  split at left
  all_goals
    cases left
    simp

theorem singleItem_shorter (left : (singleItem p).rest? = some rest) : rest.length < p.length := by
  rw [singleItem] at left
  split at left
  · rename_i found
    exact Nat.lt_of_le_of_lt (suffixed_shorter left) (single_shorter found)
  · cases left

theorem escaped_shorter (left : (escaped p).rest? = some rest) : rest.length ≤ p.length := by
  rw [escaped.eq_def] at left
  split at left
  · cases left
    simp only [List.length_cons]
    omega
  · cases left
  · split at left
    · rename_i found
      have := bracketClass_shorter found
      cases left
      simp at this ⊢
      omega
    · cases left
  · cases left
  · split at left
    · cases left
      simp
    · have := singleItem_shorter left
      simp at this ⊢
      omega
  · cases left

theorem item_shorter (left : (item p).rest? = some rest) : rest.length < p.length := by
  rw [item.eq_def] at left
  split at left
  · cases left
  · cases left
    simp only [List.length_cons]
    omega
  · cases left
    simp
  · cases left
    simp
  · cases left
  · have := escaped_shorter left
    simp only [List.length_cons]
    omega
  · exact singleItem_shorter left

theorem doMatch_fuel {fuel' : Nat} (enough : p.length < fuel) (enough' : p.length < fuel') :
    doMatch src fuel depth i p captures = doMatch src fuel' depth i p captures := by
  induction fuel generalizing fuel' depth i p captures with
  | zero => cases enough
  | succ fuel ih =>
      cases fuel' with
      | zero => cases enough'
      | succ fuel' =>
          have step : ∀ rest, (item p).rest? = some rest → ∀ depth i captures,
              doMatch src fuel depth i rest captures = doMatch src fuel' depth i rest captures := by
            intro rest left depth i captures
            have shorter := item_shorter left
            exact ih (by omega) (by omega)
          rw [doMatch, doMatch]
          cases here : item p with
          | finish | endAnchor | malformed => rfl
          | openCapture _ rest | closeCapture rest | balance _ _ rest | frontier _ rest | back _ rest
          | one _ rest =>
              simp only [step rest (by rw [here]; rfl)]
          | repeated _ suffix rest =>
              cases suffix <;> simp only [step rest (by rw [here]; rfl)]

/-! ### Patterns without special characters -/

/-- A character that stands for itself wherever it is. -/
def Plain (c : Char) : Prop := c ∉ ['(', ')', '%', '[', '.', '$', '*', '+', '?', '-']

instance (c : Char) : Decidable (Plain c) := inferInstanceAs (Decidable (c ∉ _))

theorem single_plain {c : Char} (plain : Plain c) :
    single (c :: rest) = some (fun x => c == x, rest) := by
  rw [single.eq_def]
  split
  all_goals simp_all [Plain]

theorem suffixed_plain (plain : ∀ c ∈ p.head?, Plain c ∨ c = '$') :
    suffixed test p = .one test p := by
  rw [suffixed.eq_def]
  split
  all_goals simp_all [Plain]

theorem item_plain {c : Char} (plain : Plain c) (next : ∀ c ∈ rest.head?, Plain c ∨ c = '$') :
    item (c :: rest) = .one (fun x => c == x) rest := by
  have default : item (c :: rest) = singleItem (c :: rest) := by
    rw [item.eq_def]
    split
    all_goals simp_all [Plain]
  rw [default, singleItem, single_plain plain]
  exact suffixed_plain next

theorem doMatch_end : doMatch src (fuel + 1) depth i ['$'] captures =
    if i = src.length then .found i captures else .fail := rfl

/-- A word is found where it stands and nothing comes after. -/
theorem doMatch_plain {w : Bytes} (plain : ∀ c ∈ w, Plain c) (enough : w.length < fuel)
    (inside : i ≤ src.length) :
    doMatch src fuel depth i (w ++ ['$']) captures =
      if src.drop i = w then .found src.length captures else .fail := by
  induction w generalizing fuel i with
  | nil =>
      obtain ⟨fuel, rfl⟩ := Nat.exists_eq_add_of_lt enough
      rw [List.nil_append, List.length_nil, Nat.zero_add, doMatch_end]
      by_cases last : i = src.length
      · rw [if_pos last, if_pos (List.drop_eq_nil_iff.2 (by omega)), last]
      · rw [if_neg last, if_neg fun none => last ?_]
        have := List.drop_eq_nil_iff.1 none
        omega
  | cons c w ih =>
      obtain ⟨fuel, rfl⟩ := Nat.exists_eq_add_of_lt enough
      have next : ∀ x ∈ (w ++ ['$']).head?, Plain x ∨ x = '$' := by
        intro x first
        have mem := List.mem_of_mem_head? first
        rw [List.mem_append, List.mem_singleton] at mem
        exact mem.imp_left fun mem => plain x (List.mem_cons_of_mem c mem)
      rw [List.cons_append, doMatch, item_plain (plain c List.mem_cons_self) next]
      dsimp only
      rcases Nat.lt_or_eq_of_le inside with less | rfl
      · have later := @ih ((c :: w).length + fuel) (i + 1)
          (fun x mem => plain x (List.mem_cons_of_mem c mem)) (by simp; omega) less
        simp only [has, List.getElem?_eq_getElem less, List.drop_eq_getElem_cons less,
          List.cons.injEq, later]
        by_cases same : c = src[i]
        · simp [same]
        · rw [if_neg (by simpa using same), if_neg fun h => same h.1.symm]
      · simp [has]

/-- A word matches nothing but itself. -/
theorem whole_plain {s w : String} (plain : ∀ c ∈ bytes w, Plain c) :
    whole s w = some (decide (s = w)) := by
  rw [whole, matchesStart, doMatch_plain plain (by rw [List.length_append]; omega) (Nat.zero_le _),
    List.drop_zero]
  by_cases same : s = w
  · simp [same]
  · rw [if_neg fun equal => same (bytes_injective equal)]
    simp [same]

/-! ### Repeated classes -/

/-- Of the runs from `i` on only one to the end of the text is left. -/
theorem maxExpand_end {call : Nat → Outcome} {n : Nat} (inside : i + n ≤ src.length)
    (last : ∀ j, call j = if j = src.length then .found j captures else .fail) :
    maxExpand call i n = if i + n = src.length then .found src.length captures else .fail := by
  induction n with
  | zero =>
      rw [maxExpand, last, Nat.add_zero]
      by_cases here : i = src.length
      · rw [if_pos here, if_pos here, here]
      · rw [if_neg here, if_neg here]
  | succ n ih =>
      rw [maxExpand, last]
      by_cases here : i + (n + 1) = src.length
      · rw [if_pos here, if_pos here, here]
      · rw [if_neg here, if_neg here]
        exact (ih (by omega)).trans (if_neg (by omega))

example : whole "club" "club" = some true ∧ whole "105" "%d+" = some true ∧
    whole "-5" "%d+" = some false ∧ whole "-5" "-?%d+" = some true ∧ whole "a-b" "a-b" = some false ∧
    whole "aab" "a-b" = some true ∧ whole "x" "[" = none := by
  decide

end LuaPattern
