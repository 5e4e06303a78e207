import FkServer.Library.PathTree
import FkServer.Redisorm.Meta

/-!
`redismetadata.lua`: the models that are declared, in the order of the file. The tree they make
is the one every lookup starts from.
-/
namespace FkServer.Redisorm

section Statements

/-- `tree.a.b = "kind"` -/
def one (path : List String) (kind : MetaType) : List (List String × MetaType) := [(path, kind)]

/-- `tree.a.b = {field = "kind", …}`: a son for every field. -/
def fields (path : List String) (table : List (String × MetaType)) :
    List (List String × MetaType) :=
  table.map fun field => (path ++ [field.1], field.2)

def statements : List (List (List String × MetaType)) :=
  [one ["player", "all"] .set,
  one ["player", "all", "%d+"] .number,
  one ["player", "info", "%d+"] .hash,
  fields ["player", "info", "%d+"]
    [("guid", .number), ("account", .string), ("nickname", .string), ("bank", .number),
      ("is_android", .number), ("level", .number), ("login_time", .number),
      ("logout_time", .number), ("login_award_day", .number),
      ("login_award_receive_day", .number), ("header_icon", .number), ("platform_id", .number),
      ("is_collapse", .number), ("sex", .number), ("icon", .string), ("app_id", .string),
      ("is_guest", .number), ("vip", .number), ("is_locked", .number), ("tickets", .number),
      ("user_type", .number), ("status", .number), ("role", .number), ("gps_latitude", .number),
      ("gps_longitude", .number)],
  one ["player", "money", "%d+"] .numberHash,
  one ["player", "money", "%d+", "%d+"] .number,
  one ["player", "winlose", "%d+"] .numberHash,
  one ["player", "winlose", "%d+", "%d+"] .number,
  one ["player", "club", "%d+", "%d+"] .set,
  one ["player", "club", "%d+", "%d+", "%d+"] .number,
  one ["player", "auth_id", "%s+"] .string,
  one ["player", "account", "%s+"] .number,
  one ["player", "phone_uuid", "%d+"] .string,
  one ["player", "online", "count"] .number,
  one ["player", "online", "count", "%s+", "%d+", "%d+"] .number,
  one ["player", "online", "count", "%s+", "%d+", "%d+", "%d+"] .number,
  one ["player", "online", "all"] .set,
  one ["player", "online", "%d+"] .number,
  one ["player", "online", "guid", "%d+"] .hash,
  fields ["player", "online", "guid", "%d+"]
    [("gate", .number), ("server", .number), ("first_game_type", .number),
      ("second_game_type", .number), ("room_id", .number), ("table_id", .number),
      ("chair_id", .number), ("table", .number), ("chair", .number), ("game", .number),
      ("global_table", .number)],
  one ["player", "request", "%d+"] .set,
  one ["player", "request", "%d+", "%d+"] .number,
  one ["player", "mail", "%d+"] .set,
  one ["player", "mail", "%d+", "%d+"] .number,
  one ["club", "all"] .set,
  one ["club", "all", "%d+"] .number,
  one ["club", "info", "%d+"] .hash,
  fields ["club", "info", "%d+"]
    [("id", .number), ("level", .number), ("status", .number), ("online_count", .number),
      ("owner", .number), ("type", .number), ("parent", .number), ("agentlevel", .number)],
  one ["club", "game", "%d+"] .set,
  one ["club", "game", "%d+", "%d+"] .number,
  one ["club", "member", "%d+"] .set,
  one ["club", "member", "%d+", "%d+"] .number,
  one ["club", "member", "count", "%d+"] .number,
  one ["club", "member", "partner", "%d+"] .numberHash,
  one ["club", "member", "partner", "%d+", "%d+"] .number,
  one ["club", "member", "online", "count", "%d+"] .number,
  one ["club", "member", "online", "guid", "%d+"] .set,
  one ["club", "member", "online", "guid", "%d+", "%d+"] .number,
  one ["club", "money", "%d+"] .numberHash,
  one ["club", "money", "%d+", "%d+"] .number,
  one ["club", "money_type", "%d+"] .number,
  one ["club", "partner", "member", "%d+", "%d+"] .set,
  one ["club", "partner", "member", "%d+", "%d+", "%d+"] .number,
  one ["club", "partner", "commission", "%d+"] .numberHash,
  one ["club", "partner", "commission", "%d+", "%d"] .number,
  one ["club", "partner", "commision", "conf", "%d+"] .numberHash,
  one ["club", "partner", "commision", "conf", "%d+", "%d+"] .json,
  one ["club", "role", "%d+"] .numberHash,
  one ["club", "role", "%d+", "%d+"] .number,
  one ["club", "template", "%d+"] .set,
  one ["club", "template", "%d+", "%d+"] .number,
  one ["club", "block", "group", "id"] .number,
  one ["club", "block", "groups", "%d+"] .set,
  one ["club", "block", "groups", "%d+", "%d+"] .number,
  one ["club", "block", "player", "group", "%d+", "%d+"] .set,
  one ["club", "block", "player", "group", "%d+", "%d+", "%d+"] .number,
  one ["club", "block", "group", "player", "%d+", "%d+"] .set,
  one ["club", "block", "group", "player", "%d+", "%d+", "%d+"] .number,
  one ["club", "block", "tgroup", "id"] .number,
  one ["club", "block", "team", "group", "all", "%d+"] .set,
  one ["club", "block", "team", "group", "all", "%d+", "%d+"] .number,
  one ["club", "block", "team", "group", "%d+", "%d+"] .set,
  one ["club", "block", "team", "group", "%d+", "%d+", "%d+"] .number,
  one ["club", "block", "group", "team", "%d+", "%d+"] .set,
  one ["club", "block", "group", "team", "%d+", "%d+", "%d+"] .number,
  one ["club", "blacklist", "gaming", "%d+"] .set,
  one ["club", "blacklist", "gaming", "%d+", "%d+"] .number,
  one ["club", "request", "%d+"] .set,
  one ["club", "request", "%d+", "%d+"] .number,
  one ["club", "conf", "%d+"] .hash,
  fields ["club", "conf", "%d+"]
    [("block_partner_player", .bool), ("credit_block_play", .bool), ("credit_block_score", .bool),
      ("block_partner_player_branch", .bool), ("block_partner_player_2_layer", .bool),
      ("admin_analysis", .bool), ("auto_cash_commission", .json),
      ("allow_search_record_no_limit", .bool), ("limit_online_player_num", .bool),
      ("limit_table_num", .bool)],
  one ["club", "table", "%d+"] .set,
  one ["club", "table", "%d+", "%d+"] .number,
  one ["club", "team", "%d+"] .set,
  one ["club", "team", "%d+", "%d+"] .number,
  one ["club", "commission", "template", "default", "%d+", "%d+"] .numberHash,
  one ["club", "commission", "template", "default", "%d+", "%d+", "%d+"] .json,
  one ["club", "commission", "template", "%d+", "%d+"] .numberHash,
  one ["club", "commission", "template", "%d+", "%d+", "%d+"] .json,
  one ["club", "partner", "conf", "%d+", "%d+"] .hash,
  fields ["club", "partner", "conf", "%d+", "%d+"]
    [("credit", .number), ("status", .number), ("commission", .json)],
  one ["club", "agentlevel", "%d+"] .numberHash,
  one ["club", "agentlevel", "%d+", "%d+"] .number,
  one ["club", "notice", "%d+"] .set,
  one ["club", "notice", "%d+", "%d+"] .number,
  one ["club", "team", "exchange", "time", "%d+"] .hash,
  one ["club", "team", "exchange", "time", "%d+", "%d+"] .number,
  one ["conf", "%d+"] .hash,
  fields ["conf", "%d+"]
    [("commission", .number), ("commission_rate", .number), ("visual", .bool),
      ("club_id", .number), ("template_id", .number), ("team_commission_rate", .number),
      ("partner_id", .number)],
  one ["request", "all"] .set,
  one ["request", "all", "%d+"] .number,
  one ["request", "global", "id"] .number,
  one ["request", "%d+"] .hash,
  fields ["request", "%d+"]
    [("club_id", .number), ("id", .number), ("type", .string), ("who", .number),
      ("whoee", .number)],
  one ["table", "all"] .set,
  one ["table", "all", "%d+"] .number,
  one ["table", "info", "%d+"] .hash,
  fields ["table", "info", "%d+"]
    [("club_id", .number), ("table_id", .number), ("game_type", .number), ("rule", .json),
      ("owner", .number), ("real_table_id", .number), ("room_id", .number),
      ("create_time", .number), ("template", .number)],
  one ["template", "all"] .set,
  one ["template", "all", "%d+"] .number,
  one ["template", "%d+"] .hash,
  fields ["template", "%d+"]
    [("template_id", .number), ("game_type", .number), ("rule", .json), ("description", .string),
      ("game_id", .number), ("club_id", .number), ("advanced_rule", .json)],
  one ["mail", "all"] .set,
  one ["mail", "%d+"] .hash,
  fields ["mail", "%d+"]
    [("email_id", .string), ("sender", .number), ("reciever", .number), ("expire", .number),
      ("content", .json), ("status", .number), ("create_time", .number)],
  one ["money", "all"] .set,
  one ["money", "all", "%d+"] .number,
  one ["money", "global"] .number,
  one ["money", "info", "%d+"] .hash,
  fields ["money", "info", "%d+"]
    [("id", .number), ("club", .number), ("type", .number)],
  one ["notice", "all"] .set,
  one ["notice", "all", "%d+"] .string,
  one ["notice", "info", "%S+"] .hash,
  fields ["notice", "info", "%S+"]
    [("id", .string), ("club_id", .number), ("club", .number), ("type", .number),
      ("where", .number), ("content", .string), ("expiration", .number), ("create_time", .number),
      ("status", .number), ("start_time", .number), ("end_time", .number),
      ("play_count", .number), ("interval", .number)],
  one ["runtime_conf", "private_fee", "-?%d+"] .number,
  one ["runtime_conf", "global", "h5_login"] .number,
  one ["runtime_conf", "channel_game", "%S+"] .set,
  one ["runtime_conf", "channel_game", "%S+", "%d+"] .number,
  one ["runtime_conf", "promoter_game", "%S+"] .set,
  one ["runtime_conf", "promoter_game", "%S+", "%d+"] .number,
  one ["runtime_conf", "club_game", "%S+"] .set,
  one ["runtime_conf", "club_game", "%S+", "%d+"] .number,
  one ["runtime_conf", "game_maintain_switch", "%d+"] .bool,
  one ["runtime_conf", "global", "maintain_switch"] .bool,
  one ["club", "team", "template", "%d+", "%d+"] .set,
  one ["club", "team", "template", "%d+", "%d+", "%d+"] .number,
  one ["game", "all"] .set,
  one ["game", "all", "%d+"] .number,
  one ["game", "level", "%d+"] .set,
  one ["game", "level", "%d+", "%d+"] .number,
  one ["verify", "ip_accounts", "%s+"] .set,
  one ["verify", "ip_accounts", "%s+", "%d+"] .number,
  one ["verify", "imei_accounts", "%s+"] .set,
  one ["verify", "imei_accounts", "%s+", "%d+"] .number,
  one ["verify", "password_error_counts", "%d+"] .hash,
  one ["verify", "password_error_counts", "%d+", "%s+"] .number,
  one ["verify", "account_lock_imei", "%d+"] .set,
  one ["verify", "ip_auth_accounts", "%d+"] .hash,
  fields ["verify", "ip_auth_accounts", "%d+"]
    [("limit", .number), ("curcount", .number), ("limitstart", .number)],
  one ["verify", "imei_error_count", "%s+"] .number]

end Statements

/-- The nodes that the statements make; a node in passing has no codec. -/
def tree : PathTree String (Option MetaType) :=
  statements.flatten.foldl (fun t declared => t.insert none declared.1 (some declared.2))
    (.node none [])

/-- The models declared below a node. -/
def declaredSons (p : List String) : List String :=
  ((tree.find p).map fun n => n.sons.map Prod.fst).getD []

/-- The codec declared for a model. -/
def declaredMeta (p : List String) : Option MetaType := (tree.valueAt p).join

/-- The texts of a path, if it is one of texts. -/
def texts {F T : Type} : Path F T → Option (List String)
  | [] => some []
  | .text s :: p => (texts p).map (s :: ·)
  | _ :: _ => none

/-- The tree before anything is looked up. -/
def declared {F T : Type} : Tree F T where
  sons p := ((texts p).map fun q => (declaredSons q).map .text).getD []
  metas p := (texts p).bind declaredMeta

/-! ### Models side by side -/

def isPlain (m : String) : Bool := (LuaPattern.bytes m).all fun c => decide (LuaPattern.Plain c)

theorem whole_of_isPlain {s m : String} (plain : isPlain m = true) :
    LuaPattern.whole s m = some (decide (s = m)) := by
  apply LuaPattern.whole_plain
  intro c mem
  simpa using List.all_eq_true.1 plain c mem

/-- Of two models one is a word, and none matches the other. -/
def apart (m m' : String) : Bool :=
  (isPlain m || isPlain m') && LuaPattern.whole m' m == some false

theorem tree_apart :
    (tree.entries.map Prod.fst).all (fun p => (declaredSons p).all fun m =>
      (declaredSons p).all fun m' => decide (m = m') || apart m m') = true := by
  decide +kernel

theorem tree_proper : tree.Proper := by
  have from_proper : ∀ (list : List (List String × MetaType))
      (t : PathTree String (Option MetaType)), t.Proper →
        (list.foldl (fun t declared => t.insert none declared.1 (some declared.2)) t).Proper := by
    intro list
    induction list with
    | nil => exact fun _ proper => proper
    | cons declared rest ih => exact fun t proper => ih _ (PathTree.proper_insert proper _ _)
  exact from_proper _ _ (PathTree.proper_blank none)

theorem find_of_declaredSons {p : List String} {m : String} (mem : m ∈ declaredSons p) :
    p ∈ tree.entries.map Prod.fst := by
  rw [declaredSons] at mem
  cases found : tree.find p with
  | none =>
      rw [found] at mem
      cases mem
  | some n =>
      refine List.mem_map.2 ⟨(p, n.value), (PathTree.mem_entries tree_proper).2 ?_, rfl⟩
      rw [PathTree.valueAt, found, Option.map_some]

variable {p : List String} {m m' s : String}

theorem apart_of_ne (mem : m ∈ declaredSons p) (mem' : m' ∈ declaredSons p) (ne : m ≠ m') :
    apart m m' = true := by
  have all := List.all_eq_true.1 tree_apart p (find_of_declaredSons mem)
  have here := List.all_eq_true.1 (List.all_eq_true.1 all m mem) m' mem'
  simpa [ne] using here

/-- No text is matched by two models side by side. -/
theorem declaredSons_apart (mem : m ∈ declaredSons p) (mem' : m' ∈ declaredSons p) (ne : m ≠ m')
    (found : LuaPattern.whole s m = some true) : LuaPattern.whole s m' = some false := by
  have one := apart_of_ne mem mem' ne
  have other := apart_of_ne mem' mem ne.symm
  simp only [apart, Bool.and_eq_true, Bool.or_eq_true, beq_iff_eq] at one other
  rcases one.1 with plain | plain
  · rw [whole_of_isPlain plain, Option.some.injEq, decide_eq_true_eq] at found
    rw [found]
    exact other.2
  · rw [whole_of_isPlain plain, Option.some.injEq, decide_eq_false_iff_not]
    rintro rfl
    rw [one.2] at found
    cases found

section Declared
variable {F T : Type}

/-- The place of a declared model. -/
def place (p : List String) : Path F T := p.map .text

theorem texts_place (p : List String) : texts (place p : Path F T) = some p := by
  induction p with
  | nil => rfl
  | cons m p ih =>
      have later : texts (p.map .text : Path F T) = some p := ih
      rw [place, List.map_cons, texts, later, Option.map_some]

@[simp] theorem declared_sons (p : List String) :
    (declared : Tree F T).sons (place p) = (declaredSons p).map .text := by
  simp only [declared, texts_place, Option.map_some, Option.getD_some]

@[simp] theorem declared_metas (p : List String) :
    (declared : Tree F T).metas (place p) = declaredMeta p := by
  simp only [declared, texts_place, Option.bind_some]

theorem place_append (p : List String) (m : String) :
    (place p : Path F T) ++ [.text m] = place (p ++ [m]) := by
  rw [place, place, List.map_append, List.map_singleton]

/-- A declared model is a son of the one before it. -/
theorem mem_declaredSons_of_find (found : (tree.find (p ++ [m])).isSome) : m ∈ declaredSons p := by
  rw [PathTree.find_append] at found
  cases here : tree.find p with
  | none =>
      rw [here] at found
      cases found
  | some n =>
      rw [here, Option.bind_some] at found
      change ((PathTree.son m n.sons).bind (PathTree.find [])).isSome = true at found
      obtain ⟨son, inside⟩ := Option.isSome_iff_exists.1 (Option.isSome_of_isSome_bind found)
      have mem := (PathTree.son_eq_some (tree_proper p n here)).1 inside
      rw [declaredSons, here, Option.map_some, Option.getD_some]
      exact List.mem_map_of_mem mem

theorem find_of_declaredMeta {kind : MetaType} (kind_of : declaredMeta p = some kind) :
    (tree.find p).isSome := by
  rw [declaredMeta, PathTree.valueAt] at kind_of
  cases found : tree.find p with
  | none =>
      rw [found] at kind_of
      cases kind_of
  | some n => rfl

end Declared

end FkServer.Redisorm
