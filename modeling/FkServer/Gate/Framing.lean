import FkServer.Library.Cutter
import Mathlib.Data.List.Forall2
import Mathlib.Algebra.Group.Nat.Defs

/-!
Raw TCP frames of the gate: `netmsgrawopt.lua` packs and unpacks messages, `gateserver.lua` reads
them from the socket buffer of `lua-socket.c`. A coroutine reads one message after another and is
suspended while the buffer does not hold enough.
-/
namespace FkServer.Framing

abbrev Bytes := List UInt8

/-- `string.pack("<H", n)` -/
def packH (n : Nat) : Bytes := [.ofNat n, .ofNat (n / 2 ^ 8)]

/-- `string.pack("<I4", n)` -/
def packI4 (n : Nat) : Bytes :=
  [.ofNat n, .ofNat (n / 2 ^ 8), .ofNat (n / 2 ^ 16), .ofNat (n / 2 ^ 24)]

def unpackH (lo hi : UInt8) : Nat := lo.toNat + 2 ^ 8 * hi.toNat

def unpackI4 (b₀ b₁ b₂ b₃ : UInt8) : Nat :=
  b₀.toNat + 2 ^ 8 * b₁.toNat + 2 ^ 16 * b₂.toNat + 2 ^ 24 * b₃.toNat

/-- What `NETMSG.pack` gets; the numbers fit their fields. -/
structure NetMsg where
  msgid : Nat
  msgstr : Bytes
  guid : Option Nat
  msgid_lt : msgid < 2 ^ 16
  msgstr_lt : msgstr.length + 6 < 2 ^ 16
  guid_lt : ∀ g ∈ guid, g < 2 ^ 32

def NetMsg.pack (m : NetMsg) : Bytes :=
  match m.guid with
  | some guid => packH (m.msgstr.length + 6) ++ packH m.msgid ++ packI4 guid ++ m.msgstr
  | none => packH (m.msgstr.length + 6) ++ packH m.msgid ++ m.msgstr

/-- `NETMSG.unpack`; a string that is too short is an error. -/
def unpack (hasGuid : Bool) : Bytes → Option (Nat × Bytes × Option Nat)
  | lo :: hi :: str =>
      if hasGuid then
        match str with
        | b₀ :: b₁ :: b₂ :: b₃ :: _ => some (unpackH lo hi, str, some (unpackI4 b₀ b₁ b₂ b₃))
        | _ => none
      else some (unpackH lo hi, str, none)
  | _ => none

/-! ### The buffer -/

/-- `struct socket_buffer`, with the blocks of its nodes. -/
structure Buffer where
  nodes : List Bytes
  offset : Nat
  size : Int

/-- What a pop gives. -/
inductive Popped
  | nil
  | bytes (s : Bytes) (rest : Buffer)
  /-- A Lua error, from a negative length. -/
  | raised
  /-- A read through a null pointer. -/
  | crash

namespace Buffer

def new : Buffer := ⟨[], 0, 0⟩

def push (b : Buffer) (msg : Bytes) : Buffer :=
  { b with nodes := b.nodes ++ [msg], size := b.size + msg.length }

/-- The loop of `pop_lstring`. -/
def gather : List Bytes → Nat → Nat → Bytes → Option (Bytes × List Bytes × Nat)
  -- the assertion
  | [], _, _, _ => none
  | current :: nodes, offset, sz, acc =>
      let bytes := current.length - offset
      if sz ≤ bytes then
        some (acc ++ (current.drop offset).take sz,
          if bytes = sz then (nodes, 0) else (current :: nodes, offset + sz))
      else gather nodes 0 (sz - bytes) (acc ++ current.drop offset)

def popLstring (b : Buffer) (sz : Int) : Popped :=
  match b.nodes with
  | [] => .crash
  | current :: nodes =>
      let bytes : Int := current.length - b.offset
      if sz < bytes then
        if sz < 0 then .raised
        else .bytes ((current.drop b.offset).take sz.toNat)
          { b with offset := b.offset + sz.toNat, size := b.size - sz }
      else if sz = bytes then
        .bytes (current.drop b.offset) { nodes := nodes, offset := 0, size := b.size - sz }
      else
        match gather b.nodes b.offset sz.toNat [] with
        | none => .crash
        | some (s, nodes, offset) => .bytes s ⟨nodes, offset, b.size - sz⟩

/-- `lpopbuffer` -/
def pop (b : Buffer) (sz : Int) : Popped :=
  if b.size < sz ∨ sz = 0 then .nil else b.popLstring sz

end Buffer

/-! ### The reader -/

/-- Where the coroutine of a connection is. -/
inductive Reader
  /-- About to call `read_msg`. -/
  | running
  /-- Suspended in `read(fd, 2)`. -/
  | header
  /-- Suspended in `read(fd, len - 2)`. -/
  | body (sz : Int)
  /-- Ended by a Lua error, without closing the connection. -/
  | dead
  /-- The process is gone. -/
  | crashed
  /-- The connection has been closed after a message that was refused. -/
  | closed
deriving DecidableEq

structure Connection where
  buffer : Buffer
  reader : Reader
  dispatched : List Bytes

namespace Connection

variable (decodes : Bytes → Bool) (c : Connection)

/-- Whether `request_handler` ends without an error; without a message id it does not. -/
def accepts (msg : Bytes) : Bool := decide (2 ≤ msg.length) && decodes msg

/-- `dispatch_msg` -/
def dispatchMsg (msg : Bytes) : Connection :=
  { c with
    dispatched := c.dispatched ++ [msg]
    reader := if accepts decodes msg then .running else .closed }

/-- The second half of `read_msg`. -/
def readBody (len : Nat) : Connection :=
  match c.buffer.pop (len - 2) with
  | .nil => { c with reader := .body (len - 2) }
  | .bytes msg rest => dispatchMsg decodes { c with buffer := rest } msg
  | .raised => { c with reader := .dead }
  | .crash => { c with reader := .crashed }

/-- `read_msg` from the beginning. -/
def readMsg : Connection :=
  match c.buffer.pop 2 with
  | .bytes [lo, hi] rest => readBody decodes { c with buffer := rest } (unpackH lo hi)
  | .crash => { c with reader := .crashed }
  | _ => { c with reader := .header }

/-- `dispatch_queue`, which forks itself after each message. -/
def dispatchQueue : Nat → Connection → Connection
  | 0, c => c
  | fuel + 1, c => if c.reader = .running then dispatchQueue fuel (readMsg decodes c) else c

/-- The reader goes on after `suspend` and pops again, or else takes all there is. -/
def wakeup : Connection :=
  match c.reader with
  | .header =>
      match c.buffer.pop 2 with
      | .bytes [lo, hi] rest => readBody decodes { c with buffer := rest } (unpackH lo hi)
      | .crash => { c with reader := .crashed }
      -- `unpack` of `nil` is an error
      | _ => { c with buffer := .new, reader := .closed }
  | .body sz =>
      match c.buffer.pop sz with
      | .bytes msg rest => dispatchMsg decodes { c with buffer := rest } msg
      | .crash => { c with reader := .crashed }
      -- `msg or ""`
      | _ => dispatchMsg decodes { c with buffer := .new } []
  | _ => c

/-- `c.read_required` -/
def readRequired : Option Int :=
  match c.reader with
  | .header => some 2
  | .body sz => some sz
  | _ => none

/-- `data`: a chunk arrives from the socket. -/
def data (msg : Bytes) : Connection :=
  if c.reader = .closed ∨ c.reader = .crashed then c
  else
    let pushed := { c with buffer := c.buffer.push msg }
    if c.readRequired.any fun required => decide (required ≤ pushed.buffer.size) then
      dispatchQueue decodes (pushed.buffer.size.toNat + 1) (wakeup decodes pushed)
    else pushed

/-- A new connection; its reader waits for the first header. -/
def opened : Connection := dispatchQueue decodes 1 ⟨.new, .running, []⟩

def received (chunks : List Bytes) : Connection := chunks.foldl (data decodes) (opened decodes)

end Connection

/-! ### The buffer is a list of bytes -/

namespace Buffer

def contents (b : Buffer) : Bytes := b.nodes.flatten.drop b.offset

/-- The offset is inside the first node. -/
def Within (nodes : List Bytes) (offset : Nat) : Prop := offset ≤ (nodes.head?.getD []).length

structure Sound (b : Buffer) : Prop where
  size : b.size = b.contents.length
  within : Within b.nodes b.offset

theorem new_sound : new.Sound := ⟨rfl, Nat.le_refl 0⟩

variable {b : Buffer} {nodes : List Bytes} {offset : Nat}

theorem Within.le (h : Within nodes offset) : offset ≤ nodes.flatten.length := by
  cases nodes with
  | nil => exact h
  | cons current nodes =>
      have inside : offset ≤ current.length := h
      rw [List.flatten_cons, List.length_append]
      omega

theorem Sound.push (h : b.Sound) (msg : Bytes) :
    (b.push msg).Sound ∧ (b.push msg).contents = b.contents ++ msg := by
  have contents : (b.push msg).contents = b.contents ++ msg := by
    simp [Buffer.contents, Buffer.push, List.drop_append_of_le_length h.within.le]
  refine ⟨⟨?_, ?_⟩, contents⟩
  · rw [contents, List.length_append, Buffer.push, h.size]
    rfl
  · have inside := h.within
    cases nodes : b.nodes with
    | nil =>
        rw [Within, nodes] at inside
        simp [Within, Buffer.push, nodes] at inside ⊢
        omega
    | cons current rest =>
        rw [Within, nodes] at inside
        simpa [Within, Buffer.push, nodes] using inside

theorem gather_spec (nodes : List Bytes) (offset sz : Nat) (acc : Bytes)
    (within : Within nodes offset) (some_ : 0 < sz)
    (enough : sz ≤ (nodes.flatten.drop offset).length) :
    ∃ nodes' offset', gather nodes offset sz acc =
        some (acc ++ (nodes.flatten.drop offset).take sz, nodes', offset') ∧
      Within nodes' offset' ∧
      nodes'.flatten.drop offset' = (nodes.flatten.drop offset).drop sz := by
  induction nodes generalizing offset sz acc with
  | nil =>
      simp at enough
      omega
  | cons current nodes ih =>
      have inside : offset ≤ current.length := within
      have all : (current :: nodes).flatten.drop offset = current.drop offset ++ nodes.flatten := by
        rw [List.flatten_cons, List.drop_append_of_le_length inside]
      have length : (current.drop offset).length = current.length - offset := List.length_drop
      rw [all] at enough ⊢
      rw [gather]
      split
      · rename_i here
        have took : (current.drop offset ++ nodes.flatten).take sz = (current.drop offset).take sz :=
          List.take_append_of_le_length (by omega)
        rw [took, List.drop_append_of_le_length (by omega)]
        split
        · rename_i last
          refine ⟨_, _, rfl, Nat.zero_le _, ?_⟩
          rw [List.drop_zero, List.drop_eq_nil_of_le (by omega), List.nil_append]
        · refine ⟨_, _, rfl, ?_, ?_⟩
          · show offset + sz ≤ current.length
            omega
          · rw [List.flatten_cons, List.drop_append_of_le_length (by omega), List.drop_drop]
      · rename_i beyond
        have rest : sz - (current.length - offset) ≤ (nodes.flatten.drop 0).length := by
          rw [List.length_append] at enough
          rw [List.drop_zero]
          omega
        obtain ⟨nodes', offset', gathered, within', left⟩ := ih 0 (sz - (current.length - offset))
          (acc ++ current.drop offset) (Nat.zero_le _) (by omega) rest
        have whole : (current.drop offset).take sz = current.drop offset :=
          List.take_of_length_le (by omega)
        have gone : (current.drop offset).drop sz = [] := List.drop_eq_nil_of_le (by omega)
        refine ⟨nodes', offset', ?_, within', ?_⟩
        · rw [gathered, List.drop_zero, List.take_append, whole, length, List.append_assoc]
        · rw [left, List.drop_zero, List.drop_append, gone, length, List.nil_append]

/-- A pop of some bytes that are there takes them off the front. -/
theorem Sound.pop (h : b.Sound) {sz : Nat} (some_ : 0 < sz) (enough : sz ≤ b.contents.length) :
    ∃ rest : Buffer, b.pop sz = .bytes (b.contents.take sz) rest ∧ rest.Sound ∧
      rest.contents = b.contents.drop sz := by
  have size := h.size
  have refused : ¬ (b.size < (sz : Int) ∨ (sz : Int) = 0) := by omega
  rw [Buffer.pop, if_neg refused, popLstring]
  cases nodes : b.nodes with
  | nil =>
      simp [contents, nodes] at enough
      omega
  | cons current rest =>
      have inside : b.offset ≤ current.length := by simpa [Within, nodes] using h.within
      have all : b.contents = current.drop b.offset ++ rest.flatten := by
        rw [contents, nodes, List.flatten_cons, List.drop_append_of_le_length inside]
      have length : (current.drop b.offset).length = current.length - b.offset := List.length_drop
      have left : b.contents.length = current.length - b.offset + rest.flatten.length := by
        rw [all, List.length_append, length]
      dsimp only
      split
      · rename_i less
        rw [if_neg (by omega)]
        have took : b.contents.take sz = (current.drop b.offset).take sz := by
          rw [all, List.take_append_of_le_length (by omega)]
        have dropped : ((current :: rest).flatten).drop (b.offset + sz) = b.contents.drop sz := by
          rw [contents, nodes, List.drop_drop]
        refine ⟨_, by rw [took]; rfl, ⟨?_, ?_⟩, ?_⟩
        · simp only [contents, Int.toNat_natCast, nodes] at dropped ⊢
          rw [dropped, List.length_drop, size, contents, nodes]
          simp only [contents, nodes] at enough
          omega
        · show b.offset + (sz : Int).toNat ≤ current.length
          omega
        · simp only [contents, Int.toNat_natCast, nodes] at dropped ⊢
          exact dropped
      · split
        · rename_i same
          have took : b.contents.take sz = current.drop b.offset := by
            rw [all, List.take_left' (by omega)]
          have dropped : rest.flatten = b.contents.drop sz := by
            rw [all, List.drop_left' (by omega)]
          refine ⟨_, by rw [took], ⟨?_, Nat.zero_le _⟩, by simpa [contents] using dropped⟩
          simp only [contents, List.drop_zero]
          omega
        · rename_i more
          have within : Within (current :: rest) b.offset := inside
          have enough' : sz ≤ ((current :: rest).flatten.drop b.offset).length := by
            rw [← nodes]
            exact enough
          obtain ⟨nodes', offset', gathered, within', left⟩ :=
            gather_spec (current :: rest) b.offset sz [] within some_ enough'
          rw [Int.toNat_natCast, gathered]
          rw [← nodes] at left ⊢
          refine ⟨_, rfl, ⟨?_, within'⟩, left⟩
          show b.size - sz = _
          rw [contents, left, List.length_drop, size, contents]
          rw [contents] at enough
          omega

theorem Sound.pop_nil (h : b.Sound) {sz : Int} (less : (b.contents.length : Int) < sz ∨ sz = 0) :
    b.pop sz = .nil := by
  rw [Buffer.pop, if_pos (by rw [h.size]; exact less)]

/-- A negative length gives nothing. -/
theorem pop_neg {sz : Int} (h : b.Sound) (neg : sz < 0) : b.pop sz = .raised ∨ b.pop sz = .crash := by
  have size := h.size
  have inside := h.within
  rw [Buffer.pop, if_neg (by omega), popLstring]
  cases nodes : b.nodes with
  | nil => exact .inr rfl
  | cons current rest =>
      have within : b.offset ≤ current.length := by simpa [Within, nodes] using inside
      dsimp only
      rw [if_pos (by omega), if_pos neg]
      exact .inl rfl

end Buffer

/-! ### What a stream should give -/

/-- A frame is its header and as many bytes as the header declares beyond itself. -/
def cutFrame : Bytes → Option (Bytes × Bytes)
  | lo :: hi :: rest =>
      if unpackH lo hi - 2 ≤ rest.length then
        some (rest.take (unpackH lo hi - 2), rest.drop (unpackH lo hi - 2))
      else none
  | _ => none

theorem cutFrame_some {s m r : Bytes} (cut : cutFrame s = some (m, r)) : ∃ lo hi rest,
    s = lo :: hi :: rest ∧ unpackH lo hi - 2 ≤ rest.length ∧
      m = rest.take (unpackH lo hi - 2) ∧ r = rest.drop (unpackH lo hi - 2) := by
  match s, cut with
  | lo :: hi :: rest, cut =>
      rw [cutFrame] at cut
      split at cut
      · rename_i here
        cases cut
        exact ⟨lo, hi, rest, rfl, here, rfl, rfl⟩
      · cases cut
  | [], cut | [_], cut => cases cut

def frames : Cutter UInt8 Bytes where
  cut := cutFrame
  shorter := by
    intro s m r cut
    obtain ⟨lo, hi, rest, rfl, -, -, rfl⟩ := cutFrame_some cut
    simp only [List.length_drop, List.length_cons]
    omega
  stable := by
    intro s m r t cut
    obtain ⟨lo, hi, rest, rfl, here, rfl, rfl⟩ := cutFrame_some cut
    rw [List.cons_append, List.cons_append, cutFrame, if_pos (by rw [List.length_append]; omega),
      List.take_append_of_le_length here, List.drop_append_of_le_length here]

/-- A header at the front declares at least one byte after itself. -/
def Declares (s : Bytes) : Prop := ∀ lo hi rest, s = lo :: hi :: rest → 3 ≤ unpackH lo hi

/-- No header that is reached, up to the first message refused, declares less than 3 bytes. -/
def Sized (decodes : Bytes → Bool) (s : Bytes) : Prop :=
  ∀ r, frames.Leaves (Connection.accepts decodes) s r → Declares r

theorem Sized.rest {decodes : Bytes → Bool} {s r m : Bytes} (sized : Sized decodes s) (cut : frames.cut s = some (m, r))
    (accepted : Connection.accepts decodes m = true) : Sized decodes r :=
  fun r' leaves => sized r' (.next cut accepted leaves)

theorem Sized.declares {decodes : Bytes → Bool} {s : Bytes} (sized : Sized decodes s) : Declares s := sized s (.refl s)

namespace Connection

variable (decodes : Bytes → Bool) {c : Connection}

/-- The reader waits for the rest of a frame, of which these bytes have come. -/
def Waits (c : Connection) (begun : Bytes) : Prop :=
  match c.reader with
  | .header => c.buffer.contents = begun
  | .body sz => ∃ lo hi, begun = lo :: hi :: c.buffer.contents ∧ sz = unpackH lo hi - 2
  | _ => False

/-- The messages dispatched, and where the reader is: at the rest of the stream, or done with a
connection that has been closed. -/
def Ends (c : Connection) (done : List Bytes × Option Bytes) : Prop :=
  c.dispatched = done.1 ∧
    match done.2 with
    | none => c.reader = .closed
    | some begun => c.Waits begun

/-- However the stream is cut into chunks, its frames are dispatched, and nothing else happens. -/
def Delivers (s : Bytes) : Prop :=
  ∀ chunks : List Bytes, chunks.flatten = s →
    (received decodes chunks).Ends (frames.split (accepts decodes) s)

/-- However the frames of some messages are cut into chunks, they are read back. -/
def ReadsBack (msgs : List NetMsg) : Prop :=
  ∀ chunks : List Bytes, chunks.flatten = (msgs.map NetMsg.pack).flatten →
    List.Forall₂ (fun msg read => unpack msg.guid.isSome read =
      some (msg.msgid, msg.msgstr, msg.guid)) msgs (received decodes chunks).dispatched

/-- `read_msg` on the beginning of a stream. -/
theorem readMsg_cases (sound : c.buffer.Sound) (declares : Declares c.buffer.contents) :
    frames.cut c.buffer.contents = none ∧ (readMsg decodes c).buffer.Sound ∧
        (readMsg decodes c).dispatched = c.dispatched ∧
        (readMsg decodes c).Waits c.buffer.contents ∨
      ∃ msg rest, frames.cut c.buffer.contents = some (msg, rest.contents) ∧ rest.Sound ∧
        readMsg decodes c = dispatchMsg decodes { c with buffer := rest } msg := by
  match bytes : c.buffer.contents with
  | [] | [_] =>
      refine .inl ⟨rfl, ?_⟩
      have nil : c.buffer.pop 2 = .nil := sound.pop_nil (.inl (by rw [bytes]; simp))
      rw [readMsg, nil]
      exact ⟨sound, rfl, bytes⟩
  | lo :: hi :: str =>
      have long := declares lo hi str bytes
      obtain ⟨rest, popped, sound', left⟩ := sound.pop (show 0 < 2 by omega) (by rw [bytes]; simp)
      have header : c.buffer.pop 2 = .bytes [lo, hi] rest := by
        rw [bytes] at popped
        exact popped
      have left' : rest.contents = str := by
        rw [left, bytes]
        rfl
      rw [readMsg, header]
      dsimp only
      rw [readBody]
      by_cases enough : unpackH lo hi - 2 ≤ str.length
      · obtain ⟨rest', popped', sound'', left''⟩ := sound'.pop
          (show 0 < unpackH lo hi - 2 by omega) (by rw [left']; exact enough)
        have body : rest.pop ((unpackH lo hi : Int) - 2) =
            .bytes (str.take (unpackH lo hi - 2)) rest' := by
          rw [← left', ← popped']
          congr 1
          omega
        refine .inr ⟨_, rest', ?_, sound'', by dsimp only; rw [body]⟩
        show cutFrame (lo :: hi :: str) = _
        rw [cutFrame, if_pos enough, left'', left']
      · have nil : rest.pop ((unpackH lo hi : Int) - 2) = .nil :=
          sound'.pop_nil (.inl (by rw [left']; omega))
        refine .inl ⟨?_, ?_⟩
        · show cutFrame (lo :: hi :: str) = _
          rw [cutFrame, if_neg enough]
        · dsimp only
          rw [nil]
          exact ⟨sound', rfl, lo, hi, by rw [left'], rfl⟩

theorem dispatchQueue_stopped (stopped : c.reader ≠ .running) (fuel : Nat) :
    dispatchQueue decodes fuel c = c := by
  cases fuel with
  | zero => rfl
  | succ fuel => rw [dispatchQueue, if_neg stopped]

theorem waits_header {begun : Bytes} (at_ : c.reader = .header)
    (bytes : c.buffer.contents = begun) : c.Waits begun := by
  rw [Waits, at_]
  exact bytes

theorem waits_body {begun : Bytes} {lo hi : UInt8} (at_ : c.reader = .body (unpackH lo hi - 2))
    (bytes : begun = lo :: hi :: c.buffer.contents) : c.Waits begun := by
  rw [Waits, at_]
  exact ⟨lo, hi, bytes, rfl⟩

theorem Waits.stopped {begun : Bytes} (waits : c.Waits begun) : c.reader ≠ .running := by
  intro running
  rw [Waits, running] at waits
  exact waits

/-- The reader takes all frames that are there, with as much fuel as there are bytes. -/
theorem dispatchQueue_ends (fuel : Nat) (running : c.reader = .running)
    (sound : c.buffer.Sound) (enough : c.buffer.contents.length < fuel)
    (sized : Sized decodes c.buffer.contents) :
    (dispatchQueue decodes fuel c).buffer.Sound ∧
      (dispatchQueue decodes fuel c).Ends
        (c.dispatched ++ (frames.split (accepts decodes) c.buffer.contents).1,
          (frames.split (accepts decodes) c.buffer.contents).2) := by
  induction fuel generalizing c with
  | zero => omega
  | succ fuel ih =>
      rw [dispatchQueue, if_pos running]
      cases readMsg_cases decodes sound sized.declares with
      | inl short =>
          obtain ⟨cut, sound', same, waits⟩ := short
          rw [dispatchQueue_stopped decodes waits.stopped, Cutter.split_none cut, List.append_nil]
          exact ⟨sound', same, waits⟩
      | inr read =>
          obtain ⟨msg, rest, cut, sound', read⟩ := read
          have shorter := frames.shorter cut
          rw [read, Cutter.split_some cut]
          by_cases accepted : accepts decodes msg = true
          · rw [if_pos accepted]
            have next := ih (c := dispatchMsg decodes { c with buffer := rest } msg)
              (if_pos accepted) sound' (by show rest.contents.length < fuel; omega)
              (sized.rest cut accepted)
            obtain ⟨sound'', ends⟩ := next
            refine ⟨sound'', ?_⟩
            rw [show (dispatchMsg decodes { c with buffer := rest } msg).dispatched =
              c.dispatched ++ [msg] from rfl, List.append_assoc] at ends
            exact ends
          · rw [if_neg accepted]
            have closed : (dispatchMsg decodes { c with buffer := rest } msg).reader = .closed :=
              if_neg accepted
            rw [dispatchQueue_stopped decodes (by rw [closed]; exact nofun)]
            exact ⟨sound', rfl, closed⟩

/-- A reader that waits for a header reads on as if it had not been suspended. -/
theorem wakeup_header (waits : c.reader = .header) (sound : c.buffer.Sound)
    (enough : 2 ≤ c.buffer.contents.length) :
    wakeup decodes c = readMsg decodes { c with reader := .running } := by
  obtain ⟨rest, popped, -, -⟩ := sound.pop (show 0 < 2 by omega) enough
  have two : (c.buffer.contents.take 2).length = 2 := by
    rw [List.length_take]
    omega
  obtain ⟨lo, hi, header⟩ := List.length_eq_two.1 two
  have popped' : c.buffer.pop 2 = .bytes [lo, hi] rest := by
    rw [header] at popped
    exact popped
  rw [wakeup, waits, readMsg]
  dsimp only
  rw [popped']
  dsimp only
  rw [readBody, readBody]
  dsimp only
  split
  · rfl
  · rfl
  · rfl
  · rfl

/-- A chunk for a reader that waits for a header. -/
theorem data_header {begun : Bytes} (chunk : Bytes) (at_ : c.reader = .header)
    (sound : c.buffer.Sound) (all : c.buffer.contents = begun)
    (sized : Sized decodes (begun ++ chunk)) :
    (data decodes c chunk).buffer.Sound ∧ (data decodes c chunk).Ends
      (c.dispatched ++ (frames.split (accepts decodes) (begun ++ chunk)).1,
        (frames.split (accepts decodes) (begun ++ chunk)).2) := by
  obtain ⟨pushed, bytes⟩ := sound.push chunk
  have size := pushed.size
  rw [all] at bytes
  rw [bytes] at size
  rw [data, if_neg (by simp [at_])]
  dsimp only
  by_cases enough : 2 ≤ (begun ++ chunk).length
  · rw [if_pos (by simp [readRequired, at_, size]; simp at enough; omega)]
    rw [wakeup_header decodes (c := { c with buffer := c.buffer.push chunk }) at_ pushed
      (by rw [bytes]; exact enough)]
    have goes := dispatchQueue_ends decodes (c := { c with
      buffer := c.buffer.push chunk
      reader := .running }) ((c.buffer.push chunk).size.toNat + 2) rfl pushed
      (by dsimp only; rw [bytes, size]; omega) (by dsimp only; rw [bytes]; exact sized)
    dsimp only at goes
    rw [bytes] at goes
    exact goes
  · rw [if_neg (by simp [readRequired, at_, size]; simp at enough; omega)]
    have cut : frames.cut (begun ++ chunk) = none := by
      match begun ++ chunk, enough with
      | [], _ | [_], _ => rfl
      | _ :: _ :: _, enough => simp at enough
    rw [Cutter.split_none cut, List.append_nil]
    exact ⟨pushed, rfl, waits_header at_ bytes⟩

/-- A chunk for a reader that waits for the rest of a frame. -/
theorem data_body {lo hi : UInt8} {str : Bytes} (chunk : Bytes)
    (at_ : c.reader = .body (unpackH lo hi - 2)) (sound : c.buffer.Sound)
    (all : c.buffer.contents = str) (sized : Sized decodes (lo :: hi :: (str ++ chunk))) :
    (data decodes c chunk).buffer.Sound ∧ (data decodes c chunk).Ends
      (c.dispatched ++ (frames.split (accepts decodes) (lo :: hi :: (str ++ chunk))).1,
        (frames.split (accepts decodes) (lo :: hi :: (str ++ chunk))).2) := by
  obtain ⟨pushed, bytes⟩ := sound.push chunk
  have size := pushed.size
  have long := sized.declares lo hi _ rfl
  rw [all] at bytes
  rw [bytes] at size
  rw [data, if_neg (by simp [at_])]
  dsimp only
  by_cases enough : unpackH lo hi - 2 ≤ (str ++ chunk).length
  · rw [if_pos (by simp [readRequired, at_, size]; simp at enough; omega)]
    obtain ⟨rest, popped, sound', left⟩ := pushed.pop (show 0 < unpackH lo hi - 2 by omega)
      (by rw [bytes]; exact enough)
    rw [bytes] at popped left
    have cut : frames.cut (lo :: hi :: (str ++ chunk)) =
        some ((str ++ chunk).take (unpackH lo hi - 2), rest.contents) := by
      rw [left]
      exact if_pos enough
    have woken : wakeup decodes { c with buffer := c.buffer.push chunk } =
        dispatchMsg decodes { c with buffer := rest } ((str ++ chunk).take (unpackH lo hi - 2)) := by
      rw [wakeup]
      dsimp only
      rw [at_]
      dsimp only
      rw [show (unpackH lo hi : Int) - 2 = (unpackH lo hi - 2 : Nat) by omega, popped]
    have shorter := frames.shorter cut
    rw [woken, Cutter.split_some cut]
    by_cases accepted : accepts decodes ((str ++ chunk).take (unpackH lo hi - 2)) = true
    · rw [if_pos accepted]
      have goes := dispatchQueue_ends decodes
        (c := dispatchMsg decodes { c with buffer := rest }
          ((str ++ chunk).take (unpackH lo hi - 2)))
        ((c.buffer.push chunk).size.toNat + 1) (if_pos accepted) sound'
        (by
          show rest.contents.length < _
          rw [size, left]
          simp
          omega)
        (sized.rest cut accepted)
      refine ⟨goes.1, ?_⟩
      have ends := goes.2
      rw [show (dispatchMsg decodes { c with buffer := rest }
        ((str ++ chunk).take (unpackH lo hi - 2))).dispatched =
          c.dispatched ++ [(str ++ chunk).take (unpackH lo hi - 2)] from rfl,
        List.append_assoc] at ends
      exact ends
    · rw [if_neg accepted]
      have closed : (dispatchMsg decodes { c with buffer := rest }
          ((str ++ chunk).take (unpackH lo hi - 2))).reader = .closed := if_neg accepted
      rw [dispatchQueue_stopped decodes (by rw [closed]; exact nofun)]
      exact ⟨sound', rfl, closed⟩
  · rw [if_neg (by simp [readRequired, at_, size]; simp at enough; omega)]
    have cut : frames.cut (lo :: hi :: (str ++ chunk)) = none := if_neg enough
    rw [Cutter.split_none cut, List.append_nil]
    exact ⟨pushed, rfl, waits_body at_ (by rw [bytes])⟩

/-- What a chunk changes. -/
theorem data_ends {s : Bytes} (chunk : Bytes) (sound : c.buffer.Sound)
    (ends : c.Ends (frames.split (accepts decodes) s)) (sized : Sized decodes (s ++ chunk)) :
    (data decodes c chunk).buffer.Sound ∧
      (data decodes c chunk).Ends (frames.split (accepts decodes) (s ++ chunk)) := by
  obtain ⟨same, ends⟩ := ends
  rw [Cutter.split_append, Cutter.more]
  cases left : (frames.split (accepts decodes) s).2 with
  | none =>
      rw [left] at ends
      rw [data, if_pos (.inl ends)]
      exact ⟨sound, same, by rw [left]; exact ends⟩
  | some begun =>
      rw [left] at ends
      have waits : c.Waits begun := ends
      have sized' : Sized decodes (begun ++ chunk) := fun r leaves =>
        sized r (((Cutter.leaves_split left).append chunk).trans leaves)
      rw [← same]
      cases at_ : c.reader with
      | header =>
          rw [Waits, at_] at waits
          exact data_header decodes chunk at_ sound waits sized'
      | body sz =>
          rw [Waits, at_] at waits
          obtain ⟨lo, hi, bytes, size⟩ := waits
          rw [bytes] at sized' ⊢
          exact data_body decodes chunk (size ▸ at_) sound rfl sized'
      | running | dead | crashed | closed =>
          rw [Waits, at_] at waits
          cases waits

theorem opened_ends : (opened decodes).buffer.Sound ∧
    (opened decodes).Ends (frames.split (accepts decodes) []) :=
  dispatchQueue_ends decodes (c := ⟨.new, .running, []⟩) 1 rfl Buffer.new_sound Nat.zero_lt_one
    fun r leaves => by
      cases leaves with
      | refl => exact nofun
      | next cut => cases cut

theorem received_ends (s : Bytes) (chunks : List Bytes) (sound : c.buffer.Sound)
    (ends : c.Ends (frames.split (accepts decodes) s))
    (sized : Sized decodes (s ++ chunks.flatten)) :
    (chunks.foldl (data decodes) c).Ends
      (frames.split (accepts decodes) (s ++ chunks.flatten)) := by
  induction chunks generalizing c s with
  | nil =>
      rw [List.flatten_nil, List.append_nil]
      exact ends
  | cons chunk chunks ih =>
      rw [List.flatten_cons, ← List.append_assoc] at sized ⊢
      have before : Sized decodes (s ++ chunk) := fun r leaves lo hi rest at_ =>
        sized (r ++ chunks.flatten) (leaves.append chunks.flatten) lo hi (rest ++ chunks.flatten)
          (by rw [at_]; rfl)
      obtain ⟨sound', ends'⟩ := data_ends decodes chunk sound ends before
      exact ih (s ++ chunk) sound' ends' sized

theorem delivers_of_sized {s : Bytes} (sized : Sized decodes s) : Delivers decodes s := by
  intro chunks all
  obtain ⟨sound, ends⟩ := opened_ends decodes
  have goes := received_ends decodes [] chunks sound ends
  rw [List.nil_append, all] at goes
  exact goes sized

/-! ### Headers that declare too little -/

/-- After a header that declares less than 3 bytes nothing is dispatched. -/
theorem readMsg_short {lo hi : UInt8} {rest : Bytes} (sound : c.buffer.Sound)
    (bytes : c.buffer.contents = lo :: hi :: rest) (short : unpackH lo hi < 3) :
    (readMsg decodes c).dispatched = c.dispatched ∧ (readMsg decodes c).reader ≠ .running := by
  obtain ⟨left, popped, sound', -⟩ := sound.pop (show 0 < 2 by omega) (by rw [bytes]; simp)
  have header : c.buffer.pop 2 = .bytes [lo, hi] left := by
    rw [bytes] at popped
    exact popped
  rw [readMsg, header]
  dsimp only
  rw [readBody]
  dsimp only
  by_cases two : unpackH lo hi = 2
  · have nil : left.pop ((unpackH lo hi : Int) - 2) = .nil := sound'.pop_nil (.inr (by omega))
    rw [nil]
    exact ⟨rfl, nofun⟩
  · cases Buffer.pop_neg sound' (show (unpackH lo hi : Int) - 2 < 0 by omega) with
    | inl raised =>
        rw [raised]
        exact ⟨rfl, nofun⟩
    | inr crash =>
        rw [crash]
        exact ⟨rfl, nofun⟩

/-- A stream with a frame at its front has a message. -/
theorem split_pos {s m r : Bytes} (cut : frames.cut s = some (m, r)) :
    0 < (frames.split (accepts decodes) s).1.length := by
  rw [Cutter.split_some cut]
  split
  · simp
  · simp

/-- A stream that begins with such a header loses a message. -/
theorem dispatchQueue_starved (short : ¬ Declares c.buffer.contents) (fuel : Nat)
    (sound : c.buffer.Sound) (running : c.reader = .running) :
    (dispatchQueue decodes fuel c).dispatched.length <
      c.dispatched.length + (frames.split (accepts decodes) c.buffer.contents).1.length := by
  simp only [Declares, not_forall] at short
  obtain ⟨lo, hi, rest, bytes, short⟩ := short
  have cut : frames.cut c.buffer.contents =
      some (rest.take (unpackH lo hi - 2), rest.drop (unpackH lo hi - 2)) := by
    rw [bytes]
    exact if_pos (by omega)
  have one := split_pos decodes cut
  cases fuel with
  | zero =>
      rw [dispatchQueue]
      omega
  | succ fuel =>
      obtain ⟨same, stopped⟩ := readMsg_short decodes sound bytes (by omega)
      rw [dispatchQueue, if_pos running, dispatchQueue_stopped decodes stopped, same]
      omega

/-- So does a stream that comes to such a header later. -/
theorem dispatchQueue_short {s r : Bytes} (leaves : frames.Leaves (accepts decodes) s r)
    (short : ¬ Declares r) (fuel : Nat) (sound : c.buffer.Sound) (bytes : c.buffer.contents = s)
    (running : c.reader = .running) :
    (dispatchQueue decodes fuel c).dispatched.length <
      c.dispatched.length + (frames.split (accepts decodes) s).1.length := by
  induction leaves generalizing c fuel with
  | refl => exact bytes ▸ dispatchQueue_starved decodes (bytes ▸ short) fuel sound running
  | @next s r r' m cut accepted _ ih =>
      by_cases declares : Declares c.buffer.contents
      · cases fuel with
        | zero =>
            have one := split_pos decodes cut
            rw [dispatchQueue]
            omega
        | succ fuel =>
            rw [dispatchQueue, if_pos running]
            cases readMsg_cases decodes sound declares with
            | inl none =>
                rw [bytes, cut] at none
                cases none.1
            | inr read =>
                obtain ⟨msg, rest, cut', sound', read⟩ := read
                rw [bytes, cut] at cut'
                cases cut'
                have next := ih (c := dispatchMsg decodes { c with buffer := rest } m) short fuel
                  sound' rfl (if_pos accepted)
                have one : (dispatchMsg decodes { c with buffer := rest } m).dispatched.length =
                    c.dispatched.length + 1 := List.length_append
                rw [read, Cutter.split_some cut, if_pos accepted, List.length_cons]
                omega
      · exact bytes ▸ dispatchQueue_starved decodes declares fuel sound running

/-- A first chunk that holds a header is read like any buffer. -/
theorem received_once {s : Bytes} (enough : 2 ≤ s.length) :
    received decodes [s] =
      dispatchQueue decodes (s.length + 2) ⟨Buffer.new.push s, .running, []⟩ := by
  obtain ⟨pushed, bytes⟩ := Buffer.new_sound.push s
  have size : (Buffer.new.push s).size = s.length := by
    rw [pushed.size, bytes]
    rfl
  have opened : opened decodes = ⟨.new, .header, []⟩ := rfl
  rw [received, List.foldl_cons, List.foldl_nil, opened, data, if_neg (by simp)]
  dsimp only
  rw [if_pos (by simp [readRequired, size]; omega),
    wakeup_header decodes rfl pushed (by rw [bytes]; exact enough), size]
  rfl

theorem sized_of_delivers {s : Bytes} (delivers : Delivers decodes s) : Sized decodes s := by
  intro r leaves
  by_contra short
  obtain ⟨sound, bytes⟩ := Buffer.new_sound.push s
  have loses := dispatchQueue_short decodes leaves short (s.length + 2) (c :=
    ⟨Buffer.new.push s, .running, []⟩) sound bytes rfl
  have enough : 2 ≤ s.length := by
    cases leaves with
    | refl =>
        simp only [Declares, not_forall] at short
        obtain ⟨lo, hi, rest, at_, -⟩ := short
        rw [at_]
        simp
    | next cut =>
        obtain ⟨lo, hi, rest, at_, -⟩ := cutFrame_some cut
        rw [at_]
        simp
  have same := (delivers [s] (List.flatten_singleton ..)).1
  rw [received_once decodes enough] at same
  rw [same] at loses
  simp at loses

/-! ### What `pack` sends -/

theorem unpackH_packH {n : Nat} (small : n < 2 ^ 16) :
    unpackH (.ofNat n) (.ofNat (n / 2 ^ 8)) = n := by
  rw [unpackH, UInt8.toNat_ofNat', UInt8.toNat_ofNat']
  omega

/-- The header of a packed message declares 4 bytes more than the payload after itself. -/
theorem pack_header (m : NetMsg) : ∃ lo hi str, m.pack = lo :: hi :: str ∧
    unpackH lo hi = m.msgstr.length + 6 := by
  have header := unpackH_packH m.msgstr_lt
  rw [NetMsg.pack]
  split
  · exact ⟨_, _, _, rfl, header⟩
  · exact ⟨_, _, _, rfl, header⟩

/-- What is unpacked is all but the first two bytes, with or without a guid. -/
theorem unpack_length {hasGuid : Bool} {read str : Bytes} {msgid : Nat} {guid : Option Nat}
    (h : unpack hasGuid read = some (msgid, str, guid)) : read.length = str.length + 2 := by
  match read, h with
  | lo :: hi :: rest, h =>
      unfold unpack at h
      dsimp only at h
      split at h
      · split at h
        · cases h
          rfl
        · cases h
      · cases h
        rfl
  | [], h | [_], h => cases h

theorem readBody_prefix (len : Nat) (c : Connection) :
    c.dispatched <+: (readBody decodes c len).dispatched := by
  rw [readBody]
  split
  · exact List.prefix_refl _
  · exact List.prefix_append _ _
  · exact List.prefix_refl _
  · exact List.prefix_refl _

/-- What has been dispatched stays. -/
theorem dispatchQueue_prefix (fuel : Nat) (c : Connection) :
    c.dispatched <+: (dispatchQueue decodes fuel c).dispatched := by
  induction fuel generalizing c with
  | zero => exact List.prefix_refl _
  | succ fuel ih =>
      rw [dispatchQueue]
      split
      · refine List.IsPrefix.trans ?_ (ih (readMsg decodes c))
        rw [readMsg]
        split
        · rename_i lo hi rest popped
          exact readBody_prefix decodes (unpackH lo hi) { c with buffer := rest }
        · exact List.prefix_refl _
        · exact List.prefix_refl _
      · exact List.prefix_refl _

/-- The first message is never read back: what is read of it is 4 bytes longer than the payload,
what is unpacked 2 bytes. -/
theorem not_readsBack (m : NetMsg) (msgs : List NetMsg) : ¬ ReadsBack decodes (m :: msgs) := by
  intro back
  obtain ⟨lo, hi, str, packed, header⟩ := pack_header m
  have stream : ((m :: msgs).map NetMsg.pack).flatten =
      lo :: hi :: (str ++ (msgs.map NetMsg.pack).flatten) := by
    rw [List.map_cons, List.flatten_cons, packed]
    rfl
  have read := back [_] (List.flatten_singleton ..)
  rw [stream, received_once decodes (by simp), dispatchQueue, if_pos rfl] at read
  obtain ⟨sound, bytes⟩ := Buffer.new_sound.push (lo :: hi :: (str ++ (msgs.map NetMsg.pack).flatten))
  have declares : Declares (Buffer.new.push
      (lo :: hi :: (str ++ (msgs.map NetMsg.pack).flatten))).contents := by
    intro lo' hi' rest at_
    rw [bytes] at at_
    cases at_
    omega
  cases readMsg_cases decodes (c := ⟨Buffer.new.push _, .running, []⟩) sound declares with
  | inl short =>
      obtain ⟨-, -, none, waits⟩ := short
      rw [dispatchQueue_stopped decodes waits.stopped, none] at read
      cases read
  | inr first =>
      obtain ⟨msg, rest, cut, -, first⟩ := first
      obtain ⟨more, all⟩ := dispatchQueue_prefix decodes
        ((lo :: hi :: (str ++ (msgs.map NetMsg.pack).flatten)).length + 1)
        (dispatchMsg decodes ⟨rest, .running, []⟩ msg)
      rw [first, ← all] at read
      cases read with
      | cons unpacked _ =>
          have length := unpack_length unpacked
          rw [show frames.cut = cutFrame from rfl, bytes] at cut
          obtain ⟨lo', hi', rest', at_, enough, msg', -⟩ := cutFrame_some cut
          cases at_
          rw [msg', List.length_take] at length
          omega

theorem readsBack_nil : ReadsBack decodes [] := by
  intro chunks all
  have sized : Sized decodes [] := by
    intro r leaves
    cases leaves with
    | refl => exact nofun
    | next cut => cases cut
  have none := (delivers_of_sized decodes sized chunks all).1
  rw [none, Cutter.split_none rfl]
  exact .nil

/-- Packed messages are never read back, unless there are none; a stream is dispatched frame by
frame, in any chunks, exactly if no header declares less than 3 bytes. -/
theorem framing (decodes : Bytes → Bool) :
    (∀ msgs, ReadsBack decodes msgs ↔ msgs = []) ∧
      ∀ s, Delivers decodes s ↔ Sized decodes s := by
  refine ⟨fun msgs => ⟨fun back => ?_, fun none => ?_⟩, fun s => ?_⟩
  · cases msgs with
    | nil => rfl
    | cons m msgs => exact absurd back (not_readsBack decodes m msgs)
  · exact none ▸ readsBack_nil decodes
  · exact ⟨sized_of_delivers decodes, delivers_of_sized decodes⟩

/-- The message 1 without payload, and the header of an empty frame. -/
theorem framing_fails :
    ¬ ReadsBack (fun _ => true) [⟨1, [], none, by decide, by decide, nofun⟩] ∧
      ¬ Delivers (fun _ => true) [2, 0] := by
  refine ⟨not_readsBack _ _ _, fun delivers => ?_⟩
  have dispatched := (delivers [[2, 0]] rfl).1
  have cut : frames.cut [2, 0] = some ([], []) := rfl
  rw [Cutter.split_some cut] at dispatched
  cases dispatched

end Connection

end FkServer.Framing
