import FkServer.Skynet.SchedulerInvariant

/-!
What holds in every run of the process: no queue has two owners, messages are neither lost nor
doubled nor overtaken, and nothing that has been freed is touched.
-/
namespace FkServer.Skynet

namespace Next

theorem launch_le (n : Next) (x : Nat) : n.share .launch x ≤ n.share .queue x := by
  cases n <;> simp [share]

end Next

namespace Task

variable {Data : Type}

attribute [local simp] share

/-- Whoever has to end a launch has the queue, once there is one. -/
theorem launch_le (t : Task Data) (x : Nat) :
    t.share .launch x ≤ t.share .build x + t.share .queue x := by
  cases t with
  | next n => exact Nat.le_trans (n.launch_le x) (Nat.le_add_left ..)
  | release c live dead => exact Nat.le_trans (live.launch_le x) (Nat.le_add_left ..)
  | delete c k => exact Nat.le_trans (k.launch_le x) (Nat.le_add_left ..)
  | retire handle k => cases k <;> simp [Next.share]
  | mqRelease q k | drop q k =>
      have le := k.launch_le x
      simp only [share]
      omega
  | _ => simp

theorem build_le (t : Task Data) (x : Nat) : t.share .build x ≤ t.share .ref x := by
  cases t <;> simp [Next.share]

end Task

/-! ### The steps of the tasks -/

namespace Process

variable {Data : Type} {fresh : Nat → Message Data} {s s' : Process Data} {i : Nat} {ok : Bool}
variable {t t' : Task Data}

theorem held_build_le (s : Process Data) (x : Nat) : s.held x .build ≤ s.held x .ref :=
  Shares.total_le fun t => t.build_le x

/-- Nobody else has to end the launch of a context whose queue one has. -/
theorem Inv.launch_ended (h : Inv s) {q : Nat} (at_i : s.tasks[i]? = some t)
    (queue : t.share .queue q = 1) (none : t.share .launch q = 0) : s.held q .launch = 0 := by
  let s' := s.goTo i (.next .done)
  have launch := held_set s' at_i rfl q .launch
  have build := held_set s' at_i rfl q .build
  have queue' := held_set s' at_i rfl q .queue
  have rest : s'.held q .launch ≤ s'.held q .build + s'.held q .queue := by
    simp only [held, ← Shares.total_add]
    exact Shares.total_le fun t => t.launch_le q
  have zero : ∀ k, (Task.next .done : Task Data).share k q = 0 := fun k => by cases k <;> rfl
  have here := h.local_ q
  have one := here.queue_le
  have some : 0 < s.global.count q + s.held q .queue := by
    have mine := share_le_held at_i .queue q
    omega
  have created := (here.created_of_queue some).1
  have building := here.build
  rw [created] at building
  have bound := Bool.toNat_le (decide (q < s.count))
  simp only [zero, Bool.toNat_true] at launch build queue' building
  omega

/-- A task goes on and changes one context. -/
theorem Inv.update (h : Inv s) (c : Nat) (context : Context Data) (at_i : s.tasks[i]? = some t)
    (t' : Task Data) (global : List Nat)
    (later : (s.contexts c).Later context)
    (others : ∀ k x, x ≠ c → k ≠ .queue → t'.share k x = t.share k x)
    (queue : ∀ x, x ≠ c →
      global.count x + t'.share .queue x = s.global.count x + t.share .queue x)
    (here : ∀ held' : Kind → Nat, (∀ k, held' k + t.share k c = s.held c k + t'.share k c) →
      Local context (decide (c < s.count)) (s.slot c) (global.count c) held')
    (valid : t'.Valid (Function.update s.contexts c context)) :
    Inv ({ s.setContext c context with global := global }.goTo i t') := by
  have later' : ∀ x, (s.contexts x).Later (Function.update s.contexts c context x) := by
    intro x
    by_cases at_c : x = c
    · rw [at_c, Function.update_self]
      exact later
    · rw [Function.update_of_ne at_c]
      exact .refl _
  have slots : ∀ x, ({ s.setContext c context with global := global }.goTo i t').slot x =
      s.slot x := fun x => congrArg (fun handle => decide (s.table handle = some x)) (later' x).handle
  refine h.advance c at_i rfl rfl later'
    (fun _ _ => id) (fun x other => ⟨Function.update_of_ne other .., slots x, queue x other,
      fun k isQueue => others k x other isQueue⟩) ?_ valid
  rw [slots]
  show Local (Function.update s.contexts c context c) _ _ _ _
  rw [Function.update_self]
  exact here _ (held_set _ at_i rfl c)

/-- A task goes on with a reference to a context that it has found. -/
theorem Inv.grabbed (h : Inv s) {handle c : Nat} (found : s.find handle = some c)
    (at_i : s.tasks[i]? = some t) (t' : Task Data) (valid : t'.Valid (s.grab c).contexts)
    (ref : ∀ x, t'.share .ref x = t.share .ref x + one c x)
    (same : ∀ k x, k ≠ .ref → t'.share k x = t.share k x) : Inv ((s.grab c).goTo i t') := by
  obtain ⟨known, -, slot⟩ := h.found found
  refine h.update c { s.contexts c with ref := (s.contexts c).ref + 1 } at_i t' s.global
    ⟨rfl, id, id, id, id⟩ (fun k x other _ => ?_) (fun x _ => by rw [same .queue x nofun]) (fun held' sums => ?_) valid
  · by_cases isRef : k = .ref
    · rw [isRef, ref, one_of_ne (Ne.symm other), Nat.add_zero]
    · exact same k x isRef
  · have local_ := h.local_ c
    rw [decide_eq_true known, slot] at local_ ⊢
    refine local_.grab ?_ fun k other => ?_
    · have sum := sums .ref
      rw [ref, one_self] at sum
      omega
    · have sum := sums k
      rw [same k c other] at sum
      omega

theorem Inv.runNext (h : Inv s) {n : Next} (at_i : s.tasks[i]? = some (.next n))
    (move : s.runNext i n = some s') : Inv s' := by
  cases n with
  | done => cases move
  | fetch weight =>
      simp only [Process.runNext] at move
      split at move <;> cases move
      · exact h
      · rename_i q global front
        refine h.quiet at_i (.next (.take weight q)) global trivial (fun k x _ => ?_) fun x => ?_
        · cases k <;> first | rfl | contradiction
        · rw [front, count_cons_one]
          rfl
  | take weight q =>
      simp only [Process.runNext] at move
      split at move <;> cases move
      · refine h.quiet at_i (.mqRelease q (.fetch weight)) s.global trivial (fun k x _ => ?_)
          fun x => rfl
        cases k <;> rfl
      · rename_i c found
        have mine := share_le_held at_i .queue q
        have here : (Task.next (.take weight q) : Task Data).share .queue q = 1 := one_self q
        obtain ⟨known, created, -, told⟩ := h.has_queue (q := q) (by omega)
        obtain ⟨known', handle, slot⟩ := h.found found
        have same : q = c := h.handles q known c known' (told.symm.trans handle.symm)
        subst same
        have ready := (h.local_ q).launch slot (h.launch_ended at_i here rfl)
        refine h.grabbed found at_i (.pop weight q q 0 1) ⟨rfl, ?_⟩ (fun x => ?_) fun k x _ => ?_
        · show (Function.update s.contexts q _ q).init = true
          rw [Function.update_self]
          exact ready
        · exact (Nat.zero_add _).symm
        · cases k <;> first | rfl | contradiction
  | setInit c =>
      cases move
      refine h.update c { s.contexts c with init := true } at_i (.next (.pushNew c true)) s.global
        ⟨rfl, fun _ => rfl, id, id, id⟩ (fun k x other _ => ?_) (fun x _ => rfl)
        (fun held' sums => ?_) trivial
      · cases k <;> first | rfl | exact (one_of_ne (Ne.symm other)).symm
      · have ready : Local { s.contexts c with init := true } (decide (c < s.count)) (s.slot c)
            (s.global.count c) (s.held c) := { h.local_ c with launch := fun _ _ => rfl }
        refine ready.launched (fun _ => rfl) (fun k other => ?_) ?_
        · have sum := sums k
          cases k <;> first | exact Nat.add_right_cancel sum | contradiction
        · have sum := sums .launch
          exact Nat.le_of_add_right_le (Nat.le_of_eq sum)
  | pushNew c ret =>
      cases move
      refine h.quiet at_i (.next (if ret then .logNew c else .done)) (s.global ++ [c]) trivial
        (fun k x _ => ?_) fun x => ?_
      · cases ret <;> cases k <;> first | rfl | contradiction
      · rw [count_append_one]
        cases ret <;> rfl
  | logNew c =>
      cases move
      exact h.quiet at_i (.next .done) s.global trivial (fun k x _ => by cases k <;> rfl) fun _ => rfl
  | retireNew c =>
      cases move
      refine h.quiet at_i (.retire (s.contexts c).handle (.releaseNew c)) s.global rfl
        (fun k x _ => ?_) fun x => rfl
      cases k <;> rfl
  | releaseNew c =>
      cases move
      refine h.quiet at_i (.mqRelease c .done) s.global trivial (fun k x _ => ?_) fun x => rfl
      cases k <;> rfl

theorem Inv.released (h : Inv s) {c : Nat} {live dead : Next}
    (at_i : s.tasks[i]? = some (.release c live dead)) : Inv (s.release i c live dead) := by
  have valid : dead = live ∨ live = .setInit c ∧ dead = .pushNew c false :=
    h.valid _ (List.mem_of_getElem? at_i)
  have same : ∀ x, dead.share .queue x = live.share .queue x := by
    obtain rfl | ⟨rfl, rfl⟩ := valid <;> exact fun x => rfl
  rw [Process.release]
  split
  · rename_i last
    refine h.update c { s.contexts c with ref := (s.contexts c).ref - 1 } at_i (.delete c dead)
      s.global ⟨rfl, id, id, id, id⟩ (fun k x other isQueue => ?_)
      (fun x _ => congrArg (s.global.count x + ·) (same x)) (fun held' sums => ?_) trivial
    · have zero := one_of_ne (Ne.symm other)
      cases k with
      | ref => exact zero.symm
      | delete => exact zero
      | build => rfl
      | launch =>
          obtain rfl | ⟨rfl, rfl⟩ := valid
          · rfl
          · exact zero.symm
      | queue => contradiction
    · have ref := sums .ref
      have delete := sums .delete
      have build := sums .build
      have queue := sums .queue
      simp only [Task.share, one_self, same] at ref delete build queue
      exact (h.local_ c).dropLast last ref delete build (Nat.add_right_cancel queue)
  · rename_i more
    refine h.update c { s.contexts c with ref := (s.contexts c).ref - 1 } at_i (.next live)
      s.global ⟨rfl, id, id, id, id⟩ (fun k x other isQueue => ?_) (fun x _ => rfl)
      (fun held' sums => ?_)
      trivial
    · cases k with
      | ref =>
          have zero := one_of_ne (Ne.symm other)
          cases live <;> exact zero.symm
      | delete | build => cases live <;> rfl
      | launch => rfl
      | queue => contradiction
    · have ref := sums .ref
      simp only [Task.share, one_self] at ref
      refine (h.local_ c).drop more ref fun k other => ?_
      have sum := sums k
      cases k with
      | ref => contradiction
      | delete | build => cases live <;> exact sum
      | launch | queue => exact Nat.add_right_cancel sum

/-- A context that a task holds a reference to is there, and so is its queue. -/
theorem Inv.alive (h : Inv s) {c : Nat} (some : 0 < s.held c .ref) :
    (s.contexts c).ref ≠ 0 ∧ (s.contexts c).freed = false ∧
      (s.contexts c).queue.release = false := by
  have local_ := h.local_ c
  have ref := local_.ref
  have positive : (s.contexts c).ref ≠ 0 := by omega
  have delete := local_.delete
  have alive : (s.contexts c).freed = false := by
    cases freed : (s.contexts c).freed with
    | false => rfl
    | true => simp [positive, freed] at delete
  exact ⟨positive, alive, by rw [local_.released, alive, Bool.and_false]⟩

/-- A context that is deleted has been launched. -/
theorem Inv.created_of_delete (h : Inv s) {c : Nat} (some : 0 < s.held c .delete) :
    (s.contexts c).created = true := by
  have local_ := h.local_ c
  have ref := local_.ref
  have build := local_.build
  have le := held_build_le s c
  obtain ⟨zero, -⟩ := local_.deleting some
  cases known : decide (c < s.count) with
  | false =>
      have absent := local_.unknown known .delete
      omega
  | true =>
      cases created : (s.contexts c).created with
      | true => rfl
      | false =>
          simp only [known, created, Bool.toNat_true, Bool.toNat_false] at build
          omega

theorem Inv.pushed (h : Inv s) {c : Nat} {message : Message Data}
    (at_i : s.tasks[i]? = some (.push c message)) :
    Inv ((s.mqPush fresh c message).goTo i (.release c .done .done)) := by
  have created : (s.contexts c).created = true := h.valid _ (List.mem_of_getElem? at_i)
  have mine := share_le_held at_i .ref c
  have here : (Task.push c message : Task Data).share .ref c = 1 := one_self c
  obtain ⟨-, -, kept⟩ := h.alive (c := c) (by omega)
  obtain ⟨in_global, release, -, -⟩ :=
    MessageQueue.push_frame (q := (s.contexts c).queue) fresh message
  have step : ∀ global : List Nat,
      (∀ x, x ≠ c → global.count x = s.global.count x) →
      global.count c = s.global.count c + (!(s.contexts c).queue.in_global).toNat →
      Inv ({ s.setContext c { s.contexts c with
          queue := { (s.contexts c).queue.push fresh message with in_global := true }
          sent := (s.contexts c).sent ++ [message] } with global := global }.goTo i
        (.release c .done .done)) := by
    intro global others count
    refine h.update c _ at_i (.release c .done .done) global
      ⟨rfl, id, id, id, release.trans⟩
      (fun k x other isQueue => ?_) (fun x other => by rw [others x other]; rfl)
      (fun held' sums => ?_) (.inl rfl)
    · cases k <;> rfl
    · refine (h.local_ c).mqPush created kept fresh message ?_ fun k other => ?_
      · have queue := sums .queue
        have same : held' .queue = s.held c .queue := queue
        rw [count, same]
        omega
      · have sum := sums k
        cases k <;> exact Nat.add_right_cancel sum
  rw [mqPush]
  split
  · rename_i queued
    rw [in_global] at queued
    refine step s.global (fun _ _ => rfl) ?_
    rw [queued]
    rfl
  · rename_i idle
    rw [in_global, Bool.not_eq_true] at idle
    refine step (s.global ++ [c]) (fun x other => ?_) ?_
    · rw [count_append_one, one_of_ne (Ne.symm other), Nat.add_zero]
    · rw [count_append_one, one_self, idle]
      rfl

theorem Inv.deleted (h : Inv s) {c : Nat} {k : Next}
    (at_i : s.tasks[i]? = some (.delete c k)) : Inv ((s.delete c).goTo i (.next k)) := by
  have mine := share_le_held at_i .delete c
  have here : (Task.delete c k : Task Data).share .delete c = 1 := one_self c
  have created := h.created_of_delete (c := c) (by omega)
  have step : ∀ global : List Nat,
      (∀ x, x ≠ c → global.count x = s.global.count x) →
      global.count c = s.global.count c + (!(s.contexts c).queue.in_global).toNat →
      Inv ({ s.setContext c { s.contexts c with
          queue := { (s.contexts c).queue with release := true }
          freed := true } with global := global }.goTo i (.next k)) := by
    intro global others count
    refine h.update c _ at_i (.next k) global ⟨rfl, id, id, id, fun _ => rfl⟩
      (fun kind x other isQueue => ?_) (fun x other => by rw [others x other]; rfl)
      (fun held' sums => ?_) trivial
    · have zero := one_of_ne (Ne.symm other)
      cases kind with
      | delete => cases k <;> exact zero.symm
      | ref | build => cases k <;> rfl
      | launch => rfl
      | queue => contradiction
    · refine (h.local_ c).deleteContext created ?_ ?_ fun kind other isQueue => ?_
      · have sum := sums .delete
        simp only [Task.share, one_self] at sum
        exact sum
      · have same : held' .queue = s.held c .queue := Nat.add_right_cancel (sums .queue)
        rw [count, same]
        omega
      · have sum := sums kind
        cases kind with
        | delete | queue => contradiction
        | ref | build => cases k <;> exact sum
        | launch => exact Nat.add_right_cancel sum
  rw [Process.delete]
  split
  · rename_i queued
    refine step s.global (fun _ _ => rfl) ?_
    rw [queued]
    rfl
  · rename_i idle
    rw [Bool.not_eq_true] at idle
    refine step (s.global ++ [c]) (fun x other => ?_) ?_
    · rw [count_append_one, one_of_ne (Ne.symm other), Nat.add_zero]
    · rw [count_append_one, one_self, idle]
      rfl

/-- A handle that nobody has is the handle of no context that has its queue. -/
theorem Inv.out_of_table (h : Inv s) {handle c : Nat} (absent : s.find handle = none)
    (own : (s.contexts c).handle = handle) (created : (s.contexts c).created = true) :
    s.slot c = false := by
  refine decide_eq_false fun entry => ?_
  rw [own] at entry
  have assigned := ((h.local_ c).handle created).2
  have found := find_eq_some.2 ⟨entry, assigned⟩
  rw [absent] at found
  cases found

/-- `skynet_handle_retire` finds nothing; a failed launch is over then. -/
theorem Inv.retired_nothing (h : Inv s) {handle : Nat} {k : Next}
    (at_i : s.tasks[i]? = some (.retire handle k)) (absent : s.find handle = none) :
    Inv (s.goTo i (.next k)) := by
  by_cases launch : ∃ c, k = .releaseNew c
  · obtain ⟨c, rfl⟩ := launch
    have own : (s.contexts c).handle = handle := h.valid _ (List.mem_of_getElem? at_i)
    have mine := share_le_held at_i .queue c
    have here : (Task.retire handle (.releaseNew c) : Task Data).share .queue c = 1 := one_self c
    obtain ⟨-, created, -, -⟩ := h.has_queue (q := c) (by omega)
    have out := h.out_of_table absent own created
    have moved := h.update c (s.contexts c) at_i (.next (.releaseNew c)) s.global ⟨rfl, id, id, id, id⟩
      (fun kind x other isQueue => ?_) (fun x _ => rfl) (fun held' sums => ?_) trivial
    · rwa [setContext, Function.update_eq_self] at moved
    · cases kind <;> first | rfl | exact (one_of_ne (Ne.symm other)).symm
    · refine (h.local_ c).launched (fun slot => absurd slot (by simp [out])) (fun kind other => ?_) ?_
      · have sum := sums kind
        cases kind <;> first | exact Nat.add_right_cancel sum | contradiction
      · exact Nat.le_of_add_right_le (Nat.le_of_eq (sums .launch))
  · refine h.quiet at_i (.next k) s.global trivial (fun kind x isQueue => ?_) fun x => ?_
    · cases k <;> first | (cases kind <;> rfl) | exact absurd ⟨_, rfl⟩ launch
    · cases k <;> rfl

/-- `skynet_handle_retire` finds a context and takes over the reference of the table. -/
theorem Inv.retired (h : Inv s) {handle c : Nat} {k : Next}
    (at_i : s.tasks[i]? = some (.retire handle k)) (found : s.find handle = some c) :
    Inv ({ s with table := Function.update s.table handle none }.goTo i (.release c k k)) := by
  have valid := h.valid _ (List.mem_of_getElem? at_i)
  obtain ⟨known, own, slot⟩ := h.found found
  obtain ⟨entry, -⟩ := find_eq_some.1 found
  have table : ∀ h₀ x, Function.update s.table handle none h₀ = some x → s.table h₀ = some x := by
    intro h₀ x entry₀
    by_cases same : h₀ = handle
    · rw [same, Function.update_self] at entry₀
      cases entry₀
    · rwa [Function.update_of_ne same] at entry₀
  -- a failed launch takes its own context out
  have ends : ∀ c', k = .releaseNew c' → c' = c := by
    intro c' same
    subst same
    have mine := share_le_held at_i .queue c'
    have here : (Task.retire handle (.releaseNew c') : Task Data).share .queue c' = 1 := one_self c'
    obtain ⟨known', -, -, -⟩ := h.has_queue (q := c') (by omega)
    exact h.handles c' known' c known (valid.trans own.symm)
  have queue : ∀ x, (Task.release c k k : Task Data).share .queue x =
      (Task.retire handle k : Task Data).share .queue x := fun x => by cases k <;> rfl
  refine h.advance c at_i rfl rfl (fun x => .refl (s.contexts x)) table
    (fun x other => ⟨rfl, ?_, congrArg (s.global.count x + ·) (queue x), fun kind isQueue => ?_⟩)
    ?_ (Or.inl rfl)
  · refine decide_eq_decide.2 ⟨table _ x, fun entry₀ => ?_⟩
    have apart : (s.contexts x).handle ≠ handle := by
      intro same
      rw [same, entry] at entry₀
      exact other (Option.some.inj entry₀).symm
    exact (Function.update_of_ne apart ..).trans entry₀
  · have zero := one_of_ne (Ne.symm other)
    cases kind with
    | ref => cases k <;> exact zero
    | delete | build => cases k <;> rfl
    | launch =>
        by_cases launch : ∃ c', k = .releaseNew c'
        · obtain ⟨c', rfl⟩ := launch
          have same := ends c' rfl
          subst same
          exact zero.symm
        · cases k <;> first | rfl | exact absurd ⟨_, rfl⟩ launch
    | queue => contradiction
  · have local_ := h.local_ c
    rw [decide_eq_true known, slot] at local_
    have out : ({ s with table := Function.update s.table handle none }.goTo i
        (.release c k k)).slot c = false := by
      refine decide_eq_false fun entry₀ => ?_
      have none : Function.update s.table handle none (s.contexts c).handle = some c := entry₀
      rw [own, Function.update_self] at none
      cases none
    rw [decide_eq_true known, out]
    have sums := held_set ({ s with table := Function.update s.table handle none }.goTo i
      (.release c k k)) at_i rfl c
    refine local_.takeOut ?_ fun kind isRef isLaunch => ?_
    · have sum := sums .ref
      have some : (Task.release c k k : Task Data).share .ref c = 1 := one_self c
      have none : (Task.retire handle k : Task Data).share .ref c = 0 := by cases k <;> rfl
      rw [some, none] at sum
      exact sum
    · have sum := sums kind
      cases kind with
      | ref | launch => contradiction
      | delete | build => cases k <;> exact sum
      | queue =>
          rw [queue] at sum
          exact Nat.add_right_cancel sum

theorem goTo_self (at_i : s.tasks[i]? = some t) : s.goTo i t = s := by
  obtain ⟨inside, same⟩ := List.getElem?_eq_some_iff.1 at_i
  rw [goTo, ← same, List.set_getElem_self]

/-- A task that holds nothing starts. -/
theorem Inv.start (h : Inv s) (t : Task Data) (valid : t.Valid s.contexts)
    (none : ∀ k x, t.share k x = 0) : Inv (s.start t) where
  local_ x := by
    have same : (s.start t).held x = s.held x := by
      funext k
      rw [held, Process.start, Shares.total_append, Shares.total_singleton, none, Nat.add_zero]
      rfl
    rw [same]
    exact h.local_ x
  table := h.table
  handles := h.handles
  valid t₀ mem := by
    cases List.mem_append.1 mem with
    | inl old => exact h.valid t₀ old
    | inr new => exact List.mem_singleton.1 new ▸ valid

/-- The queue that a task has is not with the others, and keeps its messages. -/
theorem Inv.popped_nil (h : Inv s) {weight : Option Nat} {q c j n : Nat}
    (at_i : s.tasks[i]? = some (.pop weight q c j n))
    (empty : (s.contexts q).queue.contents = []) :
    Inv ((s.setQueue q (s.contexts q).queue.pop.2).goTo i
      (.release c (.fetch weight) (.fetch weight))) := by
  obtain ⟨rfl, -⟩ : q = c ∧ (s.contexts c).init = true := h.valid _ (List.mem_of_getElem? at_i)
  have mine := share_le_held at_i .ref q
  have here : (Task.pop weight q q j n : Task Data).share .ref q = 1 := one_self q
  obtain ⟨-, -, kept⟩ := h.alive (c := q) (by omega)
  refine h.update q { s.contexts q with queue := (s.contexts q).queue.pop.2 } at_i
    (.release q (.fetch weight) (.fetch weight)) s.global
    ⟨rfl, id, id, id, MessageQueue.pop_release.trans⟩ (fun k x other isQueue => ?_)
    (fun x other => ?_) (fun held' sums => ?_) (.inl rfl)
  · cases k <;> first | rfl | contradiction
  · show s.global.count x + 0 = s.global.count x + one q x
    rw [one_of_ne (Ne.symm other)]
  · refine (h.local_ q).popNil empty kept ?_ fun k other => ?_
    · have sum := sums .queue
      simp only [Task.share, one_self] at sum
      exact sum
    · have sum := sums k
      cases k <;> first | exact Nat.add_right_cancel sum | contradiction

theorem Inv.popped_cons (h : Inv s) {weight : Option Nat} {q c j n : Nat}
    (at_i : s.tasks[i]? = some (.pop weight q c j n)) {message : Message Data}
    {rest : List (Message Data)} (first : (s.contexts q).queue.contents = message :: rest)
    {queue : MessageQueue (Message Data)}
    (popped : MessageQueue.Popped (s.contexts q).queue rest queue) (t' : Task Data)
    (valid : ∀ contexts : Nat → Context Data, (contexts q).init = true → t'.Valid contexts)
    (same : ∀ k x, t'.share k x = (Task.pop weight q q j n : Task Data).share k x) :
    let s' := s.setQueue q queue.takeOverload.2
    Inv ((s'.setContext c { s'.contexts c with
      dispatched := (s'.contexts c).dispatched ++ [message] }).goTo i t') := by
  obtain ⟨rfl, ready⟩ : q = c ∧ (s.contexts c).init = true :=
    h.valid _ (List.mem_of_getElem? at_i)
  have mine := share_le_held at_i .ref q
  have here : (Task.pop weight q q j n : Task Data).share .ref q = 1 := one_self q
  obtain ⟨-, -, kept⟩ := h.alive (c := q) (by omega)
  have nothing := (h.local_ q).dropped kept
  have moved := h.update q { s.contexts q with
      queue := queue.takeOverload.2
      dispatched := (s.contexts q).dispatched ++ [message] } at_i t' s.global
    ⟨rfl, id, id, id, popped.release.trans⟩ (fun k x _ _ => same k x) (fun x _ => by rw [same])
    (fun held' sums => ?_)
    (valid _ (by rw [Function.update_self]; exact ready))
  · simp only [setQueue, setContext, Function.update_self, Function.update_idem] at moved ⊢
    exact moved
  · have equal : held' = s.held q := by
      funext k
      have sum := sums k
      rw [same] at sum
      exact Nat.add_right_cancel sum
    have log : (s.contexts q).dispatched ++ [message] ++ (s.contexts q).dropped =
        (s.contexts q).dispatched ++ (s.contexts q).dropped ++ [message] := by
      rw [nothing, List.append_nil, List.append_nil]
    have popped' := (h.local_ q).popCons first popped log fun _ => nothing
    rw [equal]
    exact { popped' with }

theorem Inv.popped (h : Inv s) {weight : Option Nat} {q c j n : Nat}
    (at_i : s.tasks[i]? = some (.pop weight q c j n)) : Inv (s.runPop i weight q c j n) := by
  have local_ := h.local_ q
  rw [runPop]
  cases contents : (s.contexts q).queue.contents with
  | nil =>
      have pop := MessageQueue.pop_nil local_.ring.1 contents
      have moved := h.popped_nil at_i contents
      rw [pop] at moved ⊢
      exact moved
  | cons message rest =>
      obtain ⟨queue, pop, popped⟩ := MessageQueue.pop_cons local_.ring.1 local_.ring.2 contents
      obtain ⟨rfl, -⟩ : q = c ∧ (s.contexts c).init = true :=
        h.valid _ (List.mem_of_getElem? at_i)
      rw [pop]
      simp only
      split
      · rename_i weight
        exact h.popped_cons at_i contents popped (.measure weight q q message)
          (fun _ ready => ⟨rfl, ready⟩) fun k x => by cases k <;> rfl
      · exact h.popped_cons at_i contents popped (.handle weight q q j n message)
          (fun _ ready => ⟨rfl, ready⟩) fun k x => by cases k <;> rfl

/-- A round of `_drop_queue`, which only the thread that has a released queue is in. -/
theorem Inv.dropping (h : Inv s) {q : Nat} {k : Next} (at_i : s.tasks[i]? = some (.drop q k)) :
    Inv (s.runDrop i q k) := by
  have released : (s.contexts q).queue.release = true := h.valid _ (List.mem_of_getElem? at_i)
  have local_ := h.local_ q
  rw [runDrop]
  cases contents : (s.contexts q).queue.contents with
  | nil =>
      have pop := MessageQueue.pop_nil local_.ring.1 contents
      have moved := h.update q { s.contexts q with
          queue := (s.contexts q).queue.pop.2
          queueFreed := true } at_i (.next k) s.global
        ⟨rfl, id, id, id, MessageQueue.pop_release.trans⟩ (fun kind x other isQueue => ?_)
        (fun x other => ?_) (fun held' sums => ?_) trivial
      · rw [pop] at moved ⊢
        exact moved
      · cases kind with
        | ref | delete | build => cases k <;> rfl
        | launch => rfl
        | queue => contradiction
      · show s.global.count x + k.share .queue x = s.global.count x + (one q x + k.share .queue x)
        rw [one_of_ne (Ne.symm other), Nat.zero_add]
      · refine local_.freeQueue contents released ?_ fun kind other => ?_
        · have sum := sums .queue
          simp only [Task.share, one_self] at sum
          omega
        · have sum := sums kind
          cases kind with
          | ref | delete | build => cases k <;> exact sum
          | launch => exact Nat.add_right_cancel sum
          | queue => contradiction
  | cons message rest =>
      obtain ⟨queue, pop, popped⟩ := MessageQueue.pop_cons local_.ring.1 local_.ring.2 contents
      have moved := h.update q { s.contexts q with
          queue := queue
          dropped := (s.contexts q).dropped ++ [message] } at_i (.drop q k) s.global
        ⟨rfl, id, id, id, popped.release.trans⟩
        (fun _ _ _ _ => rfl) (fun _ _ => rfl) (fun held' sums => ?_) ?_
      · rw [goTo_self (s := { s.setContext q _ with global := s.global }) at_i] at moved
        rw [pop]
        exact moved.start _ trivial fun kind x => by cases kind <;> rfl
      · have equal : held' = s.held q := by
          funext kind
          exact Nat.add_right_cancel (sums kind)
        have log : (s.contexts q).dispatched ++ ((s.contexts q).dropped ++ [message]) =
            (s.contexts q).dispatched ++ (s.contexts q).dropped ++ [message] :=
          (List.append_assoc ..).symm
        rw [equal]
        exact local_.popCons contents popped log fun kept => absurd kept (by simp [released])
      · show (Function.update s.contexts q _ q).queue.release = true
        rw [Function.update_self]
        exact popped.release.trans released

/-- A task relies on what it holds a share of. -/
theorem valid_congr {contexts contexts' : Nat → Context Data} (valid : t.Valid contexts)
    (same : ∀ k c, 0 < t.share k c → contexts' c = contexts c) : t.Valid contexts' := by
  have positive : ∀ c, 0 < one c c := fun c => by rw [one_self]; exact Nat.one_pos
  cases t with
  | retire handle k =>
      cases k with
      | releaseNew c => exact (congrArg Context.handle (same .queue c (positive c))).trans valid
      | _ => trivial
  | pop _ q c _ _ | measure _ q c _ | handle _ q c _ _ _ | finish _ q c =>
      exact ⟨valid.1, (congrArg Context.init (same .ref c (positive c))).trans valid.2⟩
  | putBack _ q c _ =>
      exact ⟨valid.1, (congrArg Context.init (same .ref c (positive c))).trans valid.2⟩
  | assigned c => exact (congrArg Context.assigned (same .ref c (positive c))).trans valid
  | push c _ => exact (congrArg Context.created (same .ref c (positive c))).trans valid
  | drop q k =>
      have some : 0 < (Task.drop q k : Task Data).share .queue q :=
        Nat.lt_of_lt_of_le (positive q) (Nat.le_add_right ..)
      have released : (contexts q).queue.release = true := valid
      rw [← same .queue q some] at released
      exact released
  | release _ _ _ => exact valid
  | _ => trivial

theorem Inv.register (h : Inv s) {handle : Nat} (free : s.table handle = none)
    (new : ∀ c < s.count, (s.contexts c).handle ≠ handle) : Inv (s.register fresh handle) := by
  have none := h.local_ s.count
  rw [decide_eq_false (Nat.lt_irrefl s.count)] at none
  have nothing := none.unknown rfl
  have build := none.build
  have created : (s.contexts s.count).created = false := by
    cases created : (s.contexts s.count).created with
    | false => rfl
    | true => simp [created] at build
  have queue := none.queue
  rw [created, nothing] at queue
  have held : ∀ x k, (s.register fresh handle).held x k =
      s.held x k + (Task.registered s.count : Task Data).share k x := by
    intro x k
    rw [Process.held, Process.register, Shares.total_append, Shares.total_singleton]
    rfl
  have before : ∀ h₀ x, Function.update s.table handle (some s.count) h₀ = some x →
      h₀ = handle ∧ x = s.count ∨ h₀ ≠ handle ∧ s.table h₀ = some x := by
    intro h₀ x entry
    by_cases same : h₀ = handle
    · rw [same, Function.update_self] at entry
      exact .inl ⟨same, (Option.some.inj entry).symm⟩
    · rw [Function.update_of_ne same] at entry
      exact .inr ⟨same, entry⟩
  constructor
  case local_ =>
    intro x
    show Local (Function.update s.contexts s.count _ x) (decide (x < s.count + 1)) _
      (s.global.count x) _
    by_cases at_new : x = s.count
    · subst at_new
      have slot : (s.register fresh handle).slot s.count = true := by
        refine decide_eq_true ?_
        simp only [Process.register, Function.update_self]
      have shares : (s.register fresh handle).held s.count =
          fun k => (Task.registered s.count : Task Data).share k s.count := by
        funext k
        rw [held, nothing, Nat.zero_add]
      have out : s.global.count s.count = 0 := queue
      rw [Function.update_self, slot, decide_eq_true (Nat.lt_succ_self s.count), shares, out]
      exact
        { ref := by simp [Task.share]
          delete := rfl
          build := one_self s.count
          launch := fun _ ended => absurd ended (by simp [Task.share])
          queue := rfl
          unknown := by simp
          released := rfl
          gone := by simp
          blank := fun _ => MessageQueue.create_contents fresh handle
          idle := by simp [MessageQueue.create]
          ring := ⟨MessageQueue.create_inRing fresh handle, show 0 < 1024 by decide⟩
          handle := by simp
          log := rfl
          dropped := fun _ => rfl }
    · have same : (s.register fresh handle).held x = s.held x := by
        funext k
        rw [held]
        cases k <;> first | rfl | exact congrArg (s.held x _ + ·) (one_of_ne (Ne.symm at_new))
      have known : decide (x < s.count + 1) = decide (x < s.count) := by
        rw [decide_eq_decide]
        omega
      have slot : (s.register fresh handle).slot x = s.slot x := by
        have context : (s.register fresh handle).contexts x = s.contexts x :=
          Function.update_of_ne at_new ..
        rw [Process.slot, Process.slot, context, decide_eq_decide]
        constructor
        · intro entry
          obtain ⟨-, same⟩ | ⟨-, old⟩ := before _ _ entry
          · exact absurd same at_new
          · exact old
        · intro entry
          have apart : (s.contexts x).handle ≠ handle := new x (h.table _ _ entry).1
          exact (Function.update_of_ne apart ..).trans entry
      rw [Function.update_of_ne at_new, same, known, slot]
      exact h.local_ x
  case table =>
    intro h₀ x entry
    obtain ⟨rfl, rfl⟩ | ⟨-, old⟩ := before _ _ entry
    · refine ⟨Nat.lt_succ_self _, ?_⟩
      show (Function.update s.contexts s.count _ s.count).handle = h₀
      rw [Function.update_self]
    · obtain ⟨inside, own⟩ := h.table _ _ old
      refine ⟨Nat.lt_succ_of_lt inside, ?_⟩
      show (Function.update s.contexts s.count _ x).handle = h₀
      rw [Function.update_of_ne (Nat.ne_of_lt inside)]
      exact own
  case handles =>
    have own : ∀ x, x < s.count + 1 → x = s.count ∧
        ((s.register fresh handle).contexts x).handle = handle ∨ x < s.count ∧
        ((s.register fresh handle).contexts x).handle = (s.contexts x).handle := by
      intro x inside
      by_cases at_new : x = s.count
      · subst at_new
        refine .inl ⟨rfl, ?_⟩
        show (Function.update s.contexts s.count _ s.count).handle = handle
        rw [Function.update_self]
      · refine .inr ⟨by omega, ?_⟩
        show (Function.update s.contexts s.count _ x).handle = _
        rw [Function.update_of_ne at_new]
    intro x inside y inside' same
    obtain ⟨rfl, handle_x⟩ | ⟨old_x, handle_x⟩ := own x inside <;>
      obtain ⟨rfl, handle_y⟩ | ⟨old_y, handle_y⟩ := own y inside'
    · rfl
    · exact absurd (handle_y.symm.trans (same.symm.trans handle_x)) (new y old_y)
    · exact absurd (handle_x.symm.trans (same.trans handle_y)) (new x old_x)
    · exact h.handles x old_x y old_y (handle_x.symm.trans (same.trans handle_y))
  case valid =>
    intro t mem
    obtain old | last := List.mem_append.1 mem
    · refine valid_congr (h.valid t old) fun k c some => ?_
      obtain ⟨i, at_i⟩ := List.mem_iff_getElem?.1 old
      have mine := share_le_held at_i k c
      have other : c ≠ s.count := by
        intro same
        subst same
        rw [nothing] at mine
        omega
      exact Function.update_of_ne other ..
    · rw [List.mem_singleton.1 last]
      trivial

theorem Inv.runTask (h : Inv s) (at_i : s.tasks[i]? = some t)
    (careful : ∀ handle message, t = .send handle message →
      ∀ c, s.find handle = some c → (s.contexts c).created = true)
    (move : s.runTask fresh i ok t = some s') : Inv s' := by
  have valid := h.valid _ (List.mem_of_getElem? at_i)
  cases t with
  | next n => exact h.runNext at_i move
  | send handle message =>
      simp only [Process.runTask] at move
      split at move <;> cases move
      · exact h.quiet at_i (.next .done) s.global trivial (fun k x _ => by cases k <;> rfl)
          fun _ => rfl
      · rename_i c found
        refine h.grabbed found at_i (.push c message) ?_ (fun x => (Nat.zero_add _).symm)
          fun k x _ => ?_
        · show (Function.update s.contexts c _ c).created = true
          rw [Function.update_self]
          exact careful handle message rfl c found
        · cases k <;> first | rfl | contradiction
  | push c message =>
      cases move
      exact h.pushed at_i
  | release c live dead =>
      cases move
      exact h.released at_i
  | delete c k =>
      cases move
      exact h.deleted at_i
  | retire handle k =>
      simp only [Process.runTask] at move
      split at move <;> cases move
      · rename_i absent
        exact h.retired_nothing at_i absent
      · rename_i c found
        exact h.retired at_i found
  | mqRelease q k =>
      simp only [Process.runTask] at move
      split at move <;> cases move
      · rename_i released
        exact h.quiet at_i (.drop q k) s.global released (fun kind x _ => by cases kind <;> rfl)
          fun _ => rfl
      · refine h.quiet at_i (.next k) (s.global ++ [q]) trivial (fun kind x isQueue => ?_) fun x => ?_
        · cases kind with
          | ref | delete | build => cases k <;> rfl
          | launch => rfl
          | queue => contradiction
        · rw [count_append_one]
          exact Nat.add_assoc ..
  | drop q k =>
      cases move
      exact h.dropping at_i
  | pop weight q c j n =>
      cases move
      exact h.popped at_i
  | measure weight q c message =>
      cases move
      exact h.quiet at_i (.handle (some weight) q c 0 _ message) s.global valid
        (fun k x _ => by cases k <;> rfl) fun _ => rfl
  | handle weight q c j n message =>
      simp only [Process.runTask] at move
      split at move <;> cases move
      · exact h.quiet at_i (.pop weight q c (j + 1) n) s.global valid
          (fun k x _ => by cases k <;> rfl) fun _ => rfl
      · exact h.quiet at_i (.finish weight q c) s.global valid (fun k x _ => by cases k <;> rfl)
          fun _ => rfl
  | finish weight q c =>
      simp only [Process.runTask] at move
      split at move <;> cases move
      · exact h.quiet at_i (.release c (.take weight q) (.take weight q)) s.global (.inl rfl)
          (fun k x _ => by cases k <;> rfl) fun _ => rfl
      · rename_i nq global front
        refine h.quiet at_i (.putBack weight q c nq) global valid
          (fun k x _ => by cases k <;> first | rfl | contradiction) fun x => ?_
        rw [front, count_cons_one]
        show global.count x + (one q x + one nq x) = global.count x + one nq x + one q x
        omega
  | putBack weight q c nq =>
      cases move
      refine h.quiet at_i (.release c (.take weight nq) (.take weight nq)) (s.global ++ [q])
        (.inl rfl) (fun k x _ => by cases k <;> first | rfl | contradiction) fun x => ?_
      rw [count_append_one]
      exact Nat.add_assoc ..
  | registered c =>
      cases move
      refine h.update c { s.contexts c with assigned := true } at_i (.assigned c) s.global
        ⟨rfl, id, fun _ => rfl, id, id⟩ (fun k x _ _ => by cases k <;> rfl) (fun _ _ => rfl)
        (fun held' sums => ?_) ?_
      · have equal : held' = s.held c := by
          funext k
          have sum := sums k
          cases k <;> exact Nat.add_right_cancel sum
        rw [equal]
        exact { h.local_ c with handle := fun created => ⟨((h.local_ c).handle created).1, rfl⟩ }
      · show (Function.update s.contexts c _ c).assigned = true
        rw [Function.update_self]
  | assigned c =>
      cases move
      have mine := share_le_held at_i .ref c
      have here : (Task.assigned c : Task Data).share .ref c = 1 := one_self c
      obtain ⟨some, -, -⟩ := h.alive (c := c) (by omega)
      have build := share_le_held at_i .build c
      have building : (Task.assigned c : Task Data).share .build c = 1 := one_self c
      have new : (s.contexts c).created = false := by
        have sum := (h.local_ c).build
        have bound := Bool.toNat_le (decide (c < s.count))
        cases created : (s.contexts c).created with
        | false => rfl
        | true =>
            simp only [created, Bool.toNat_true] at sum
            omega
      have release : (s.contexts c).queue.release = false := by
        rw [(h.local_ c).released, new, Bool.false_and]
      refine h.update c { s.contexts c with
          queue := .create fresh (s.contexts c).handle
          created := true } at_i (.initing c) s.global
        ⟨rfl, id, id, fun _ => rfl, fun released => absurd released (by simp [release])⟩
        (fun k x other isQueue => ?_) (fun x other => ?_) (fun held' sums => ?_) trivial
      · cases k <;> first | rfl | exact (one_of_ne (Ne.symm other)).symm | contradiction
      · show s.global.count x + one c x = s.global.count x + 0
        rw [one_of_ne (Ne.symm other)]
      · refine (h.local_ c).create new valid some fresh ?_ ?_ fun k isBuild isQueue => ?_
        · have sum := sums .build
          simp only [Task.share, one_self] at sum
          exact sum
        · have sum := sums .queue
          simp only [Task.share, one_self] at sum
          exact sum
        · have sum := sums k
          cases k <;> first | exact Nat.add_right_cancel sum | contradiction
  | initing c =>
      simp only [Process.runTask] at move
      split at move <;> cases move
      · exact h.quiet at_i (.release c (.setInit c) (.pushNew c false)) s.global (.inr ⟨rfl, rfl⟩)
          (fun k x _ => by cases k <;> rfl) fun _ => rfl
      · exact h.quiet at_i (.release c (.retireNew c) (.retireNew c)) s.global (.inl rfl)
          (fun k x _ => by cases k <;> rfl) fun _ => rfl

theorem Inv.step (h : Inv s) {a : ProcessStep Data} (careful : s.Careful a)
    (move : s.step fresh a = some s') : Inv s' := by
  cases a with
  | send handle message =>
      cases move
      exact h.start _ trivial fun k x => by cases k <;> rfl
  | kill handle =>
      cases move
      exact h.start _ trivial fun k x => by cases k <;> rfl
  | worker weight =>
      cases move
      exact h.start _ trivial fun k x => by cases k <;> rfl
  | launch handle =>
      obtain ⟨free, same⟩ := Option.ite_none_right_eq_some.1 move
      cases same
      exact h.register free careful
  | run i ok =>
      obtain ⟨t, at_i, moved⟩ := Option.bind_eq_some_iff.1 move
      exact h.runTask at_i (fun handle message same => careful handle message (same ▸ at_i)) moved

theorem Reached.inv (reached : Reached fresh s) : Inv s :=
  Runs.Reaches.invariant reached (fun _ same => same ▸ .initial) fun _ _ _ h careful move =>
    h.step careful move

end Process

/-! ### What it is for -/

namespace Task

variable {Data : Type}

/-- The queues that a thread has, and nobody else is to have. -/
def Owns (t : Task Data) (q : Nat) : Prop := 0 < t.share .queue q

end Task

namespace Process

variable {Data : Type} {fresh : Nat → Message Data} {s : Process Data} {i j : Nat}
variable {t t' : Task Data}

/-- Where the queue of a context is. -/
inductive Place
  | unmade
  | global
  | thread (i : Nat)
  | freed
  | idle

def At (s : Process Data) (c : Nat) : Place → Prop
  | .unmade => (s.contexts c).created = false
  | .global => c ∈ s.global
  | .thread i => ∃ t, s.tasks[i]? = some t ∧ t.Owns c
  | .freed => (s.contexts c).queueFreed = true
  | .idle => (s.contexts c).created = true ∧ (s.contexts c).queueFreed = false ∧
      (s.contexts c).queue.in_global = false ∧ (s.contexts c).queue.release = false

theorem Inv.owner (h : Inv s) (at_i : s.tasks[i]? = some t) {q : Nat} (owns : t.Owns q) :
    q ∉ s.global ∧ ∀ j t', s.tasks[j]? = some t' → t'.Owns q → j = i := by
  have le := (h.local_ q).queue_le
  have mine := share_le_held at_i .queue q
  have one : 0 < t.share .queue q := owns
  refine ⟨fun mem => ?_, fun j t' at_j owns' => ?_⟩
  · have queued := List.count_pos_iff.2 mem
    omega
  · by_contra apart
    have both := Shares.share_add_le_total (f := Task.share .queue q) at_j at_i apart
    have one' : 0 < t'.share .queue q := owns'
    have sum : s.held q .queue = Shares.total (Task.share .queue q) s.tasks := rfl
    omega

/-- A queue that is in the global one or with a thread is in no other place. -/
theorem Inv.busy (h : Inv s) {c : Nat} (some : 0 < s.global.count c + s.held c .queue) :
    ¬ s.At c .unmade ∧ ¬ s.At c .freed ∧ ¬ s.At c .idle := by
  obtain ⟨created, there, listed⟩ := (h.local_ c).created_of_queue some
  simp only [At, created, there]
  refine ⟨by decide, by decide, fun idle => ?_⟩
  rw [idle.2.2.1, idle.2.2.2] at listed
  exact listed.elim (fun wrong => by cases wrong) fun wrong => by cases wrong

theorem Inv.place (h : Inv s) (c : Nat) : ∃! place, s.At c place := by
  have local_ := h.local_ c
  have queue := local_.queue
  by_cases queued : c ∈ s.global
  · have some := List.count_pos_iff.2 queued
    obtain ⟨unmade, freed, idle⟩ := h.busy (c := c) (by omega)
    refine ⟨.global, queued, fun place here => ?_⟩
    cases place with
    | global => rfl
    | unmade => exact absurd here unmade
    | freed => exact absurd here freed
    | idle => exact absurd here idle
    | thread i =>
        obtain ⟨t, at_i, owns⟩ := here
        exact absurd queued (h.owner at_i owns).1
  · by_cases with_ : 0 < s.held c .queue
    · obtain ⟨unmade, freed, idle⟩ := h.busy (c := c) (by omega)
      obtain ⟨t, mem, owns⟩ := Shares.exists_of_total_pos (f := Task.share .queue c) with_
      obtain ⟨i, at_i⟩ := List.getElem?_of_mem mem
      refine ⟨.thread i, ⟨t, at_i, owns⟩, fun place here => ?_⟩
      cases place with
      | global => exact absurd here queued
      | unmade => exact absurd here unmade
      | freed => exact absurd here freed
      | idle => exact absurd here idle
      | thread j =>
          obtain ⟨t', at_j, owns'⟩ := here
          rw [(h.owner at_i owns).2 j t' at_j owns']
    · have alone : ∀ i, ¬ s.At c (.thread i) := by
        rintro i ⟨t, at_i, owns⟩
        exact with_ (Nat.lt_of_lt_of_le owns (share_le_held at_i .queue c))
      rw [List.count_eq_zero_of_not_mem queued, Nat.eq_zero_of_not_pos with_] at queue
      cases created : (s.contexts c).created with
      | false =>
          have there : (s.contexts c).queueFreed = false := by
            cases gone : (s.contexts c).queueFreed with
            | false => rfl
            | true =>
                have released := (local_.gone gone).1
                rw [local_.released, created] at released
                cases released
          refine ⟨.unmade, created, fun place here => ?_⟩
          cases place with
          | unmade => rfl
          | global => exact absurd here queued
          | thread i => exact absurd here (alone i)
          | freed => exact absurd (there.symm.trans here) (by decide)
          | idle => exact absurd (created.symm.trans here.1) (by decide)
      | true =>
          cases gone : (s.contexts c).queueFreed with
          | true =>
              refine ⟨.freed, gone, fun place here => ?_⟩
              cases place with
              | freed => rfl
              | global => exact absurd here queued
              | thread i => exact absurd here (alone i)
              | unmade => exact absurd (created.symm.trans here) (by decide)
              | idle => exact absurd (gone.symm.trans here.2.1) (by decide)
          | false =>
              rw [created, gone] at queue
              have quiet : (s.contexts c).queue.in_global = false ∧
                  (s.contexts c).queue.release = false := by
                cases in_global : (s.contexts c).queue.in_global <;>
                  cases release : (s.contexts c).queue.release <;>
                    simp [in_global, release] at queue ⊢
              refine ⟨.idle, ⟨created, gone, quiet⟩, fun place here => ?_⟩
              cases place with
              | idle => rfl
              | global => exact absurd here queued
              | thread i => exact absurd here (alone i)
              | unmade => exact absurd (created.symm.trans here) (by decide)
              | freed => exact absurd (gone.symm.trans here) (by decide)

theorem Reached.run {s' : Process Data} (reached : Reached fresh s) (i : Nat)
    (move : s.step fresh (.run i true) = some s')
    (quiet : ∀ handle message, s.tasks[i]? ≠ some (.send handle message)) : Reached fresh s' :=
  .next (.run i true) reached (fun _ _ h => absurd h (quiet _ _)) move

end Process

end FkServer.Skynet
