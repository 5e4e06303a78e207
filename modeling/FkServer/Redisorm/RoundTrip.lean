import FkServer.Redisorm.Codec

/-!
Records through `redisopt` and Redis and back. A record comes back as it was where every part
of its key and every key in it is found under the declared model and under no model that grew
beside it. Models that are declared too narrowly, or under texts that grown models match,
give their values back as texts.
-/
namespace FkServer.Redisorm

open PlainRedis

variable {F T : Type} {lua : Runtime F T} {t : Tree F T} {key : String} {model : List String}
  {k v : Lua F T}

/-- A value, a hash by its entries, or a set by its members. -/
inductive Record (F T : Type)
  | value (v : Lua F T)
  | hash (entries : List (Lua F T × Lua F T))
  | set (members : List (Lua F T))

/-- The values of a kind that is no container's. -/
def MetaType.Has (kind : MetaType) (v : Lua F T) : Prop :=
  match kind, v with
  | .number, .number _ | .string, .text _ | .bool, .bool _ | .json, .table _ => True
  | _, _ => False

/-- A kind of value is declared for what a record has under `k`: a text is one the model
matches, and a number may be any. -/
def Declares (model : List String) (k : Lua F T) (kind : MetaType) : Prop :=
  ∃ m ∈ declaredSons model, declaredMeta (model ++ [m]) = some kind ∧
    match k with
    | .text s => LuaPattern.whole s m = some true
    | .number _ => True
    | _ => False

/-- A record of the kind declared for the model. A set of numbers need not have its members
declared. -/
def Conforms (model : List String) : Record F T → Prop
  | .value v => ∃ kind, declaredMeta model = some kind ∧ kind.Has v
  | .hash entries => entries ≠ [] ∧ (entries.map Prod.fst).Nodup ∧
      (declaredMeta model = some .hash ∨
        declaredMeta model = some .numberHash ∧ ∀ entry ∈ entries, ∃ x, entry.1 = .number x) ∧
      ∀ entry ∈ entries, ∃ kind, Declares model entry.1 kind ∧ kind.Has entry.2
  | .set members => members ≠ [] ∧ members.Nodup ∧ declaredMeta model = some .set ∧
      ∀ v ∈ members, (∃ kind, Declares model v kind ∧ kind.Has v) ∨
        (declaredSons model = [] ∧ ∃ x, v = .number x)

/-- An order in which Redis lists the fields of a hash. -/
structure Lists (h : Hash) (fields : List (String × String)) : Prop where
  nodup : (fields.map Prod.fst).Nodup
  mem : ∀ f v, (f, v) ∈ fields ↔ h.lookup f = some v

/-- An order in which Redis lists the members of a set. -/
structure ListsSet (m : Finset String) (members : List String) : Prop where
  nodup : members.Nodup
  mem : ∀ s, s ∈ members ↔ s ∈ m

/-- A value that its text gives back. -/
def Readable (lua : Runtime F T) : Lua F T → Prop
  | .number x => readNumber lua (x.show lua) = some x
  | .table t => ∃ s, lua.jsonEncode t = some s ∧ lua.jsonDecode s = some (some (.table t))
  | _ => True

/-- What a record has under `k` is found under the model that declares its kind. -/
def FoundAs (lua : Runtime F T) (t : Tree F T) (model : List String) (k v : Lua F T) : Prop :=
  Clear lua t model k ∧ ∃ m ∈ declaredSons model, LuaPattern.whole (tostring lua k) m = some true ∧
    ∃ kind, declaredMeta (model ++ [m]) = some kind ∧ kind.Has v

/-- The records that come back. -/
def Fits (lua : Runtime F T) (t : Tree F T) (model : List String) : Record F T → Prop
  | .value v => ∃ s, v = .text s
  | .hash entries => ∀ entry ∈ entries, FoundAs lua t model entry.1 entry.2 ∧ Readable lua entry.2 ∧
      if declaredMeta model = some .hash then ∃ s, entry.1 = .text s else Readable lua entry.1
  | .set members => ∀ v ∈ members, FoundAs lua t model v v ∧ Readable lua v

/-! ### Integers -/

theorem readDigits_toDigits (n : Nat) : readDigits (Nat.toDigits 10 n) = some n := by
  have digits : (Nat.toDigits 10 n).all Char.isDigit = true :=
    List.all_eq_true.2 fun _ mem => Nat.isDigit_of_mem_toDigits (by decide) (by decide) mem
  rw [readDigits, if_pos ⟨Nat.toDigits_ne_nil, digits⟩, Nat.ofDigitChars_ten_toDigits]

theorem readSigned_toString (n : Int) : readSigned (toString n).toList = some n := by
  rw [Int.toString_eq_repr]
  cases n with
  | ofNat n =>
      have digits : (Int.ofNat n).repr.toList = Nat.toDigits 10 n := Nat.toList_repr
      rw [digits, readSigned.eq_def]
      split
      · rename_i minus
        have digit : Char.isDigit '-' = true :=
          Nat.isDigit_of_mem_toDigits (by decide) (by decide) (minus ▸ List.mem_cons_self)
        cases digit
      · rw [readDigits_toDigits]
        rfl
  | negSucc n =>
      have digits : (Int.negSucc n).repr.toList = '-' :: Nat.toDigits 10 (n + 1) := by
        simp [Int.repr]
      rw [digits, readSigned, readDigits_toDigits]
      rfl

/-- Every integer of Lua is read back. -/
theorem readable_int {n : Int} (low : -2 ^ 63 ≤ n) (high : n < 2 ^ 63) :
    Readable lua (.number (.int n)) := by
  have inside : (decide (-2 ^ 63 ≤ n) && decide (n < 2 ^ 63)) = true := by
    simp only [Bool.and_eq_true, decide_eq_true_eq]
    exact ⟨low, high⟩
  rw [Readable, Number.show, readNumber, readInt, readSigned_toString, Option.filter_some,
    if_pos inside]

/-! ### Elements -/

/-- A text or a number. -/
def IsKey : Lua F T → Prop
  | .text _ | .number _ => True
  | _ => False

theorem Clear.as_text (key : IsKey k) (clear : Clear lua t model k) :
    Clear lua t model (.text (tostring lua k)) := by
  cases k with
  | text s => exact clear
  | number x =>
      refine ⟨clear.own, .inr ?_⟩
      rcases clear.free with own | free
      · obtain ⟨_, _, other⟩ := List.mem_map.1 own
        cases other
      · exact free
  | bool | table => cases key

/-- What is sent for a value. -/
def encoded (lua : Runtime F T) : Lua F T → Lua F T
  | .bool false => .text "false"
  | .bool true => .text "true"
  | .table t => .text ((lua.jsonEncode t).getD "")
  | v => v

theorem MetaType.Has.cases {kind : MetaType} (has : kind.Has v) :
    (kind = .number ∧ ∃ x, v = .number x) ∨ (kind = .string ∧ ∃ s, v = .text s) ∨
      (kind = .bool ∧ ∃ b, v = .bool b) ∨ (kind = .json ∧ ∃ t, v = .table t) := by
  cases kind <;> cases v <;> simp [MetaType.Has] at has ⊢

theorem encode_eq {kind : MetaType} (has : kind.Has v) (readable : Readable lua v) :
    kind.encode lua v = some (some (encoded lua v)) := by
  rcases has.cases with ⟨rfl, x, rfl⟩ | ⟨rfl, s, rfl⟩ | ⟨rfl, b, rfl⟩ | ⟨rfl, t, rfl⟩
  · rfl
  · rfl
  · cases b <;> rfl
  · obtain ⟨s, wrote, _⟩ := readable
    rw [MetaType.encode, encoded, wrote, Option.map_some, Option.getD_some]

theorem decode_eq {kind : MetaType} (has : kind.Has v) (readable : Readable lua v) :
    kind.decode lua (.text (tostring lua (encoded lua v))) = some (some v) := by
  rcases has.cases with ⟨rfl, x, rfl⟩ | ⟨rfl, s, rfl⟩ | ⟨rfl, b, rfl⟩ | ⟨rfl, t, rfl⟩
  · have read : readNumber lua (x.show lua) = some x := readable
    rw [MetaType.decode, encoded, tostring, tonumber, read, Option.map_some]
    all_goals simp
  · rfl
  · cases b <;> rfl
  · obtain ⟨s, wrote, read⟩ := readable
    simp [MetaType.decode, encoded, tostring, wrote, read]

/-- No value is sent as a table or as false. -/
theorem encoded_sent (lua : Runtime F T) (v : Lua F T) :
    (∀ t, encoded lua v ≠ .table t) ∧ orElse (some (encoded lua v)) v = encoded lua v := by
  cases v with
  | bool b => cases b <;> simp [encoded, orElse]
  | text | number | table => simp [encoded, orElse]

theorem encoded_key (key : IsKey v) : encoded lua v = v := by
  cases v with
  | text | number => rfl
  | bool | table => cases key

theorem orElse_key (key : IsKey v) (other : Lua F T) : orElse (some v) other = v := by
  cases v with
  | text | number => rfl
  | bool | table => cases key

theorem Declares.isKey {kind : MetaType} (declares : Declares model k kind) : IsKey k := by
  obtain ⟨_, _, _, form⟩ := declares
  cases k with
  | text | number => trivial
  | bool | table => cases form

/-- A member is known by its text. -/
theorem FoundAs.member_eq {v' : Lua F T} (found : FoundAs lua t model v v)
    (found' : FoundAs lua t model v' v') (readable : Readable lua v) (readable' : Readable lua v')
    (key : IsKey v) (key' : IsKey v') (same : tostring lua v = tostring lua v') : v = v' := by
  obtain ⟨_, m, mem, here, kind, declared_, has⟩ := found
  obtain ⟨_, m', mem', here', kind', declared', has'⟩ := found'
  have models : m = m' := by
    by_contra other
    have apart := declaredSons_apart mem mem' other here
    rw [same, here'] at apart
    cases apart
  subst models
  obtain rfl : kind = kind' := Option.some.inj (declared_.symm.trans declared')
  have read := decode_eq has readable
  have read' := decode_eq has' readable'
  rw [encoded_key key, same] at read
  rw [encoded_key key', read] at read'
  exact Option.some.inj (Option.some.inj read')

/-- The fields of Redis for an entry. -/
def sentField (lua : Runtime F T) (entry : Lua F T × Lua F T) : String × String :=
  (tostring lua entry.1, tostring lua (encoded lua entry.2))

/-- In a record that fits, the text of a key gives the key back. -/
theorem entryKey_of_fits {entries : List (Lua F T × Lua F T)}
    (conforms : Conforms model (.hash entries)) (fits : Fits lua t model (.hash entries)) :
    ∃ kind, (kind = .hash ∨ kind = .numberHash) ∧ declaredMeta model = some kind ∧
      ∀ entry ∈ entries, entryKey lua kind (.text (tostring lua entry.1)) = some entry.1 := by
  obtain ⟨_, _, hash | ⟨number_hash, numbers⟩, _⟩ := conforms
  · refine ⟨.hash, .inl rfl, hash, fun entry mem => ?_⟩
    obtain ⟨_, _, form⟩ := fits entry mem
    rw [if_pos hash] at form
    obtain ⟨text, same⟩ := form
    rw [same]
    rfl
  · refine ⟨.numberHash, .inr rfl, number_hash, fun entry mem => ?_⟩
    obtain ⟨_, _, form⟩ := fits entry mem
    rw [if_neg (by simp [number_hash])] at form
    obtain ⟨x, same⟩ := numbers entry mem
    rw [same] at form ⊢
    have read : readNumber lua (x.show lua) = some x := form
    simp [entryKey, tostring, tonumber, read]

theorem sentField_nodup {kind : MetaType} {entries : List (Lua F T × Lua F T)}
    (nodup : (entries.map Prod.fst).Nodup)
    (keyed : ∀ entry ∈ entries, entryKey lua kind (.text (tostring lua entry.1)) = some entry.1) :
    ((entries.map (sentField lua)).map Prod.fst).Nodup := by
  rw [List.map_map]
  apply List.Nodup.map_on ?_ (List.Nodup.of_map _ nodup)
  intro entry mem entry' mem' same
  have texts : tostring lua entry.1 = tostring lua entry'.1 := same
  have keys := keyed entry mem
  rw [texts, keyed entry' mem'] at keys
  exact List.inj_on_of_nodup_map nodup mem mem' (Option.some.inj keys).symm

/-! ### Through the codecs -/

variable [DecidableEq F] [DecidableEq T] {pairs : Path F T → List (Lua F T) → List (Lua F T)}
  {u : Tree F T} {n' : At F T}

/-- The record is written where nothing was, when the tree is `t`. When it is read the tree has
come to be `u`, and what is read is the record, in every order of `pairs` and of what Redis lists.
A set is a table with the members as keys. -/
def RoundTrips (lua : Runtime F T) (t u : Tree F T) (key : String) (record : Record F T) : Prop :=
  ∀ pairs, Enumerates pairs → ∀ pairs', Enumerates pairs' → ∀ (s : Store) (now : Int),
    s.data key = none →
    match record with
    | .value v =>
        ∃ text, ((s.exec now (.stringSet false key (tostring lua v))).1.exec now (.get key)).2 =
          .text text ∧ .text text = v
    | .hash entries =>
        ∃ t' s', hmset lua pairs t s now key entries = some (t', s') ∧
          ((∃ n, Reaches lua t' u n) →
            ∃ h, (s'.exec now (.hgetall key)).2 = .hash h ∧ ∀ fields, Lists h fields →
              decodeFields lua pairs' u key fields = some fun k => entries.lookup k)
    | .set members =>
        (∃ n, Reaches lua t u n) →
          ∃ m, ((s.exec now (.sadd key (members.map (tostring lua)))).1.exec now
              (.smembers key)).2 = .set m ∧ ∀ listed, ListsSet m listed →
            decodeSet lua pairs' u key listed =
              some fun v => if v ∈ members then some (.bool true) else none

theorem throughSon_found (codec : MetaType → Lua F T → Option (Option (Lua F T)))
    (grown : Grown lua t) (order : Enumerates pairs) (clear : Clear lua t model k) (key : IsKey k)
    {m : String} {kind : MetaType} (mem : m ∈ declaredSons model)
    (found : LuaPattern.whole (tostring lua k) m = some true)
    (declared_ : declaredMeta (model ++ [m]) = some kind) (x : Lua F T) :
    throughSon lua pairs codec t (.node (place model)) k x = (codec kind x).map fun x => (x, t) := by
  have some_key : k ≠ .bool false := by
    rintro rfl
    cases key
  have codec_ : t.metas (place (model ++ [m])) = some kind := by
    rw [grown.metas, declared_metas, declared_]
  rw [throughSon, index_declared grown order mem found clear some_key]
  dsimp only
  rw [Tree.rawMeta, codec_]

section Found
variable (grown : Grown lua t) (order : Enumerates pairs)
include grown order

theorem encodeEntries_eq {entries : List (Lua F T × Lua F T)} (fits : ∀ entry ∈ entries,
    IsKey entry.1 ∧ FoundAs lua t model entry.1 entry.2 ∧ Readable lua entry.2) :
    encodeEntries lua pairs (.node (place model)) entries t =
      some (entries.map fun entry => (entry.1, encoded lua entry.2), t) := by
  induction entries with
  | nil => rfl
  | cons entry rest ih =>
      obtain ⟨key, ⟨clear, m, mem, found, kind, declared_, has⟩, readable⟩ :=
        fits entry List.mem_cons_self
      have step := throughSon_found (fun kind => kind.encode lua) grown order clear key mem found
        declared_ entry.2
      rw [encode_eq has readable, Option.map_some] at step
      rw [encodeEntries, step]
      dsimp only
      rw [ih fun entry mem => fits entry (List.mem_cons_of_mem _ mem), Option.map_some, List.map_cons,
        (encoded_sent lua entry.2).2]

/-- The fields that Redis lists are decoded to the entries they were sent for. -/
theorem decodeEntries_eq {kind : MetaType} {entries : List (Lua F T × Lua F T)}
    (nodup : (entries.map Prod.fst).Nodup) (fits : ∀ entry ∈ entries,
      IsKey entry.1 ∧ FoundAs lua t model entry.1 entry.2 ∧ Readable lua entry.2)
    (keyed : ∀ entry ∈ entries, entryKey lua kind (.text (tostring lua entry.1)) = some entry.1)
    {fields : List (String × String)} (sent : ∀ field ∈ fields, ∃ entry ∈ entries,
      field = sentField lua entry) :
    ∃ out, decodeEntries lua pairs kind (.node (place model))
        (fields.map fun field => (.text field.1, .text field.2)) t = some out ∧
      (∀ o ∈ out, ∃ entry ∈ entries, o = (entry.1, some entry.2)) ∧
      ∀ entry ∈ entries, sentField lua entry ∈ fields → (entry.1, some entry.2) ∈ out := by
  induction fields with
  | nil => exact ⟨[], rfl, by simp, by simp⟩
  | cons field rest ih =>
      obtain ⟨out, later, from_entries, all⟩ :=
        ih fun field mem => sent field (List.mem_cons_of_mem _ mem)
      obtain ⟨entry, mem, rfl⟩ := sent field List.mem_cons_self
      obtain ⟨key, ⟨clear, m, son, found, kind', declared_, has⟩, readable⟩ := fits entry mem
      have step := throughSon_found (k := .text (tostring lua entry.1)) (fun kind => kind.decode lua)
        grown order (clear.as_text key) trivial son found declared_
        (.text (tostring lua (encoded lua entry.2)))
      rw [decode_eq has readable, Option.map_some] at step
      refine ⟨(entry.1, some entry.2) :: out, ?_, ?_, ?_⟩
      · rw [List.map_cons, decodeEntries, sentField, step]
        dsimp only
        rw [later, Option.map_some, keyed entry mem]
      · intro o inside
        rcases List.mem_cons.1 inside with rfl | inside
        · exact ⟨entry, mem, rfl⟩
        · exact from_entries o inside
      · intro entry' mem' inside
        rcases List.mem_cons.1 inside with same | inside
        · have texts : tostring lua entry'.1 = tostring lua entry.1 := congrArg Prod.fst same
          have keys : entry'.1 = entry.1 := by
            have here := keyed entry' mem'
            rw [texts, keyed entry mem] at here
            exact (Option.some.inj here).symm
          rw [List.inj_on_of_nodup_map nodup mem' mem keys]
          exact List.mem_cons_self
        · exact List.mem_cons_of_mem _ (all entry' mem' inside)

/-- The members that Redis lists are decoded to the members they were sent for. -/
theorem decodeMembers_eq {members : List (Lua F T)}
    (fits : ∀ v ∈ members, IsKey v ∧ FoundAs lua t model v v ∧ Readable lua v)
    {listed : List String} (sent : ∀ text ∈ listed, ∃ v ∈ members, text = tostring lua v) :
    ∃ out, decodeMembers lua pairs (.node (place model)) (listed.map .text) t = some out ∧
      (∀ o ∈ out, o.1 ∈ members ∧ o.2 = some (.bool true)) ∧
      ∀ v ∈ members, tostring lua v ∈ listed → v ∈ out.map Prod.fst := by
  induction listed with
  | nil => exact ⟨[], rfl, by simp, by simp⟩
  | cons text rest ih =>
      obtain ⟨out, later, from_members, all⟩ :=
        ih fun text mem => sent text (List.mem_cons_of_mem _ mem)
      obtain ⟨v, mem, rfl⟩ := sent text List.mem_cons_self
      obtain ⟨key, ⟨clear, m, son, found, kind, declared_, has⟩, readable⟩ := fits v mem
      have step := throughSon_found (k := .text (tostring lua v)) (fun kind => kind.decode lua)
        grown order (clear.as_text key) trivial son found declared_ (.text (tostring lua v))
      have decoded := decode_eq has readable
      rw [encoded_key key] at decoded
      rw [decoded, Option.map_some] at step
      refine ⟨(v, some (.bool true)) :: out, ?_, ?_, ?_⟩
      · rw [List.map_cons, decodeMembers, step]
        dsimp only
        rw [later, Option.map_some, orElse_key key]
      · intro o inside
        rcases List.mem_cons.1 inside with rfl | inside
        · exact ⟨mem, rfl⟩
        · exact from_members o inside
      · intro v' mem' inside
        rcases List.mem_cons.1 inside with same | inside
        · obtain ⟨key', found', readable'⟩ := fits v' mem'
          have equal := found'.member_eq ⟨clear, m, son, found, kind, declared_, has⟩ readable' readable
            key' key same
          rw [equal]
          exact List.mem_cons_self
        · exact List.mem_cons_of_mem _ (all v' mem' inside)

end Found

theorem assignAll_apply {out : List (Lua F T × Option (Lua F T))} {ret f : LuaTable F T}
    (agree : ∀ o ∈ out, o.2 = f o.1) (k : Lua F T) :
    assignAll out ret k = if k ∈ out.map Prod.fst then f k else ret k := by
  induction out generalizing ret with
  | nil => rfl
  | cons o rest ih =>
      have step : assignAll (o :: rest) ret = assignAll rest (Function.update ret o.1 o.2) := rfl
      rw [step, ih fun o mem => agree o (List.mem_cons_of_mem _ mem), List.map_cons]
      by_cases later : k ∈ rest.map Prod.fst
      · simp [later]
      · by_cases here : k = o.1
        · subst here
          simp [later, agree o List.mem_cons_self]
        · simp [later, here]

/-- Entries that come from a record make the record's table. -/
theorem assignAll_entries {entries : List (Lua F T × Lua F T)}
    (nodup : (entries.map Prod.fst).Nodup) {out : List (Lua F T × Option (Lua F T))}
    (from_entries : ∀ o ∈ out, ∃ entry ∈ entries, o = (entry.1, some entry.2))
    (all : ∀ entry ∈ entries, (entry.1, some entry.2) ∈ out) :
    assignAll out (fun _ => none) = fun k => entries.lookup k := by
  funext k
  rw [assignAll_apply (f := fun k => entries.lookup k) ?_ k]
  · split
    · rfl
    · rename_i missing
      refine (List.lookup_eq_none_iff.2 fun entry mem => ?_).symm
      rw [bne_iff_ne]
      rintro rfl
      exact missing (List.mem_map.2 ⟨_, all entry mem, rfl⟩)
  · intro o mem
    obtain ⟨entry, inside, rfl⟩ := from_entries o mem
    exact ((lookup_eq_some nodup).2 inside).symm

theorem dictArgs_sent (lua : Runtime F T) (entries : List (Lua F T × Lua F T)) :
    dictArgs lua (entries.map fun entry => (entry.1, encoded lua entry.2)) =
      (entries.map (sentField lua)).flatMap fun field => [field.1, field.2] := by
  rw [dictArgs]
  split
  · rename_i t found
    obtain ⟨_, _, split, _⟩ := List.lookup_eq_some_iff.1 found
    have mem : (Lua.number (.int 1), Lua.table t) ∈
        entries.map fun entry => (entry.1, encoded lua entry.2) := by
      rw [split]
      simp
    obtain ⟨entry, _, same⟩ := List.mem_map.1 mem
    exact absurd (congrArg Prod.snd same) ((encoded_sent lua entry.2).1 t)
  · rw [List.flatMap_map, List.flatMap_map]
    rfl

section Runs
variable (named : Instantiates key model) (grown' : Grown lua u) (way' : ClearWay lua u key model)
include named grown' way'

theorem hash_round_trips {entries : List (Lua F T × Lua F T)} (grown : Grown lua t)
    (way : ClearWay lua t key model) (conforms : Conforms model (.hash entries))
    (fits : Fits lua t model (.hash entries)) (fits' : Fits lua u model (.hash entries)) :
    RoundTrips lua t u key (.hash entries) := by
  intro pairs order pairs' order' s now absent
  obtain ⟨kind, container, declared_, keyed⟩ := entryKey_of_fits conforms fits
  obtain ⟨some_entry, nodup, _, declares⟩ := conforms
  have each : ∀ {t : Tree F T}, Fits lua t model (.hash entries) → ∀ entry ∈ entries,
      IsKey entry.1 ∧ FoundAs lua t model entry.1 entry.2 ∧ Readable lua entry.2 := by
    intro t fits entry mem
    obtain ⟨kind, declares, _⟩ := declares entry mem
    obtain ⟨found, readable, _⟩ := fits entry mem
    exact ⟨declares.isKey, found, readable⟩
  obtain ⟨s', h, wrote, listed, fields_of⟩ :=
    Store.hgetall_hmset now absent (by simpa using some_entry) (sentField_nodup nodup keyed)
  refine ⟨t, s', ?_, fun _ => ⟨h, congrArg Prod.snd listed, fun fields lists => ?_⟩⟩
  · rw [hmset, metaEncode, metaMatcher_declared grown order declared_ named way]
    dsimp only
    rw [grown.rawMeta_declared declared_]
    rcases container with rfl | rfl
    all_goals
      dsimp only
      rw [encodeEntries_eq grown order (each fits)]
      dsimp only
      rw [dictArgs_sent, wrote]
  · have sent : ∀ field ∈ fields, ∃ entry ∈ entries, field = sentField lua entry := by
      intro field mem
      obtain ⟨entry, mem, same⟩ := List.mem_map.1 ((fields_of _ _).1 ((lists.mem _ _).1 mem))
      exact ⟨entry, mem, same.symm⟩
    obtain ⟨out, decoded, from_entries, all⟩ := decodeEntries_eq grown' order' nodup (each fits') keyed sent
    have whole := assignAll_entries nodup from_entries fun entry mem =>
      all entry mem ((lists.mem _ _).2 ((fields_of _ _).2 (List.mem_map_of_mem mem)))
    rw [decodeFields, metaDecode, metaMatcher_declared grown' order' declared_ named way']
    dsimp only
    rw [grown'.rawMeta_declared declared_]
    rcases container with rfl | rfl
    all_goals
      dsimp only
      rw [decoded, Option.map_some, whole]

theorem set_round_trips {members : List (Lua F T)} (conforms : Conforms model (.set members))
    (fits : Fits lua u model (.set members)) : RoundTrips lua t u key (.set members) := by
  intro _ _ pairs order s now absent _
  obtain ⟨some_member, _, declared_, declares⟩ := conforms
  have each : ∀ v ∈ members, IsKey v ∧ FoundAs lua u model v v ∧ Readable lua v := by
    intro v mem
    refine ⟨?_, fits v mem⟩
    rcases declares v mem with ⟨kind, declares, _⟩ | ⟨_, x, rfl⟩
    · exact declares.isKey
    · trivial
  refine ⟨_, Store.smembers_sadd absent (by simpa using some_member), fun listed lists => ?_⟩
  have member_of : ∀ text, text ∈ listed ↔ ∃ v ∈ members, tostring lua v = text := by
    intro text
    rw [lists.mem, List.mem_toFinset, List.mem_map]
  have sent : ∀ text ∈ listed, ∃ v ∈ members, text = tostring lua v := by
    intro text mem
    obtain ⟨v, inside, same⟩ := (member_of text).1 mem
    exact ⟨v, inside, same.symm⟩
  obtain ⟨out, decoded, from_members, all⟩ := decodeMembers_eq grown' order each sent
  have values : (listed.zipIdx.map fun member =>
      ((.number (.int (member.2 + 1)), .text member.1) : Lua F T × Lua F T)).map Prod.snd =
        listed.map .text := by
    have firsts := congrArg (List.map (Lua.text : String → Lua F T)) (List.zipIdx_map_fst 0 listed)
    rwa [List.map_map] at firsts ⊢
  rw [decodeSet, metaDecode, metaMatcher_declared grown' order declared_ named way']
  dsimp only
  rw [grown'.rawMeta_declared declared_]
  dsimp only
  rw [values, decoded, Option.map_some, Option.some.injEq]
  funext v
  rw [assignAll_apply (f := fun _ => some (.bool true)) (fun o mem => (from_members o mem).2)]
  by_cases mem : v ∈ members
  · rw [if_pos mem, if_pos (all v mem ((member_of _).2 ⟨v, mem, rfl⟩))]
  · rw [if_neg mem, if_neg]
    intro inside
    obtain ⟨o, here, rfl⟩ := List.mem_map.1 inside
    exact mem (from_members o here).1

/-- A record comes back if what is found on the way to it and in it is what is declared. -/
theorem record_round_trips {record : Record F T} (grown : Grown lua t)
    (way : ClearWay lua t key model) (conforms : Conforms model record)
    (fits : Fits lua t model record) (fits' : Fits lua u model record) :
    RoundTrips lua t u key record := by
  cases record with
  | value v =>
      obtain ⟨text, rfl⟩ := fits
      exact fun _ _ _ _ s now _ => ⟨text, Store.get_set s now key text, rfl⟩
  | hash entries => exact hash_round_trips named grown' way' grown way conforms fits fits'
  | set members => exact set_round_trips named grown' way' conforms fits'

end Runs

/-- After any lookups, in any order of `pairs`, a record comes back as it was written: where its
key instantiates the model and, when it is written and when it is read, nothing that grew on the
way catches a part of the key and the record fits. -/
theorem records_round_trip {record : Record F T} (named : Instantiates key model)
    (conforms : Conforms model record) (reached : Reaches lua declared t n)
    (way : ClearWay lua t key model) (fits : Fits lua t model record)
    (reached' : Reaches lua declared u n') (way' : ClearWay lua u key model)
    (fits' : Fits lua u model record) : RoundTrips lua t u key record :=
  record_round_trips named (grown_of_reaches reached') way' (grown_of_reaches reached) way conforms
    fits fits'

/-! ### A key of two digits -/

/-- Lua without floats and tables. -/
def noFloats : Runtime Empty Empty where
  showFloat := Empty.elim
  readOther _ := none
  showTable := Empty.elim
  expandTable := Empty.elim
  jsonEncode := Empty.elim
  jsonDecode _ := none

/-- The sons in the order they came. -/
def asMade (_ : Path Empty Empty) (list : List (Lua Empty Empty)) : List (Lua Empty Empty) := list

/-- Nothing has grown yet. -/
theorem clear_declared {p : List String} {s : Lua Empty Empty}
    (own : tostring noFloats s ≠ "__son" ∧ tostring noFloats s ≠ "__parent" ∧
      (tostring noFloats s = "meta" → declaredMeta p = none)) :
    Clear noFloats declared p s where
  own := own
  free := by
    right
    intro g mem other
    rw [declared_sons] at mem
    exact absurd mem other

/-- Five of something under 10. -/
def tenth : List (Lua Empty Empty × Lua Empty Empty) := [(.number (.int 10), .number (.int 5))]

def moneyOf : List String := ["club", "money", "%d+"]

def commissionOf : List String := ["club", "partner", "commission", "%d+"]

/-- What is declared for the two, and the keys of one of each. -/
theorem money_declared :
    (declaredMeta moneyOf = some .numberHash ∧ declaredSons moneyOf = ["%d+"] ∧
      declaredMeta (moneyOf ++ ["%d+"]) = some .number) ∧
    (declaredMeta commissionOf = some .numberHash ∧ declaredSons commissionOf = ["%d"] ∧
      declaredMeta (commissionOf ++ ["%d"]) = some .number) ∧
    segments "club:money:7" = ["club", "money", "7"] ∧
    segments "club:partner:commission:1" = ["club", "partner", "commission", "1"] := by
  decide +kernel

theorem tenth_conforms {p : List String} {m : String} (number_hash : declaredMeta p = some .numberHash)
    (mem : m ∈ declaredSons p) (number : declaredMeta (p ++ [m]) = some .number) :
    Conforms p (.hash tenth) := by
  refine ⟨by decide, by decide, .inr ⟨number_hash, ?_⟩, ?_⟩
  · intro entry mem
    rw [List.mem_singleton.1 mem]
    exact ⟨_, rfl⟩
  · intro entry inside
    rw [List.mem_singleton.1 inside]
    exact ⟨.number, ⟨m, mem, number, trivial⟩, trivial⟩

theorem money_round_trips : RoundTrips noFloats declared declared "club:money:7" (.hash tenth) := by
  obtain ⟨⟨number_hash, sons, number⟩, -, parts, -⟩ := money_declared
  have named : Instantiates "club:money:7" moneyOf := by
    rw [Instantiates, parts]
    exact .cons (by decide) (.cons (by decide) (.cons (by decide) .nil))
  have way : ClearWay noFloats declared "club:money:7" moneyOf := by
    intro i s here
    apply clear_declared
    rw [parts] at here
    have mem := List.mem_of_getElem? here
    have words : ∀ s ∈ ["club", "money", "7"], s ≠ "__son" ∧ s ≠ "__parent" ∧ s ≠ "meta" := by
      decide
    exact ⟨(words s mem).1, (words s mem).2.1, fun same => absurd same (words s mem).2.2⟩
  have fits : Fits noFloats declared moneyOf (.hash tenth) := by
    intro entry mem
    rw [List.mem_singleton.1 mem]
    refine ⟨⟨clear_declared (by decide), "%d+", by simp [sons], by decide, .number, number, trivial⟩,
      readable_int (by decide) (by decide), ?_⟩
    rw [if_neg (by simp [number_hash])]
    exact readable_int (by decide) (by decide)
  have conforms := tenth_conforms number_hash (m := "%d+") (by simp [sons]) number
  exact records_round_trip named conforms .start way fits .start way fits

/-- The commission of partner 10 is written as a number and read back as a text, since the
model below a club's commissions matches one digit only. -/
theorem commission_lost :
    Instantiates "club:partner:commission:1" commissionOf ∧
      Conforms commissionOf (.hash tenth) ∧
      ¬ ∀ u, RoundTrips noFloats declared u "club:partner:commission:1" (.hash tenth) := by
  obtain ⟨-, ⟨number_hash, sons, number⟩, -, parts⟩ := money_declared
  have named : Instantiates "club:partner:commission:1" commissionOf := by
    rw [Instantiates, parts]
    exact .cons (by decide) (.cons (by decide) (.cons (by decide) (.cons (by decide) .nil)))
  refine ⟨named, tenth_conforms number_hash (by simp [sons]) number, fun trips => ?_⟩
  have args : ((metaEncode noFloats asMade declared "club:partner:commission:1" tenth).map fun out =>
      dictArgs noFloats out.1) = some ["10", "5"] := by
    decide +kernel
  have read : ((metaEncode noFloats asMade declared "club:partner:commission:1" tenth).bind fun out =>
      (decodeFields noFloats asMade out.2 "club:partner:commission:1" [("10", "5")]).map fun f =>
        f (.number (.int 10))) = some (some (.text "5")) := by
    decide +kernel
  cases encoded_ : metaEncode noFloats asMade declared "club:partner:commission:1" tenth with
  | none =>
      rw [encoded_] at args
      cases args
  | some out =>
      obtain ⟨entries, t⟩ := out
      have order : Enumerates asMade := fun _ list => .refl list
      obtain ⟨t', s', wrote, back⟩ :=
        trips t asMade order asMade order ⟨fun _ => none, fun _ => none⟩ 0 rfl
      rw [hmset] at wrote
      rw [encoded_] at wrote args read
      have sent : dictArgs noFloats entries = ["10", "5"] := Option.some.inj args
      have some_field : [("10", "5")] ≠ [] := by simp
      have distinct : ([("10", "5")].map Prod.fst).Nodup := by simp
      have absent : (⟨fun _ => none, fun _ => none⟩ : Store).data "club:partner:commission:1" = none :=
        rfl
      obtain ⟨s₁, h₁, wrote₁, listed₁, fields_of⟩ :=
        Store.hgetall_hmset 0 absent some_field distinct
      dsimp only at wrote
      rw [sent] at wrote
      simp only [List.flatMap_cons, List.flatMap_nil, List.append_nil] at wrote₁
      rw [wrote₁] at wrote
      cases wrote
      obtain ⟨h, listed, back⟩ := back ⟨_, .start⟩
      rw [listed₁] at listed
      cases listed
      have lost := back [("10", "5")] ⟨by simp, fun f v => (fields_of f v).symm⟩
      rw [Option.bind_some, lost] at read
      cases read

end FkServer.Redisorm
