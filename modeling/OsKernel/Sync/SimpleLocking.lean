import OsKernel.Sync.Lock

/-!
# Simple locking keeps somebody ready

There is no idle thread: when a thread blocks, `schedule` asserts that another one is ready. That
this holds is a property of what the threads do. Here they wait in `lock_acquire` only, and nobody
asks for a second lock while it holds one.

The thread that has a lock is known by its position and the field `holder` alone, so nothing is
asked of `holder_repeat_nr`: a thread may acquire its lock any number of times.

- `SimpleLocking`: the discipline.
- `inside`, `Knows`: what a call stack says about the locks.
- `SimpleInv.next`: the step lemma all cases go through; `SimpleInv.step`: one event.
- `SimpleInv.ready`: whoever finds a lock taken leaves a ready thread behind.
- `ready_never_dry`: the same on list.c's pointers, in every run.
-/

namespace OsKernel

open Lib

variable {P : Program}

/-! ## The discipline -/

/-- What the caller promises about the next statement: no second lock, releases by the holder, and
no other way to wait. -/
def Frame.SimpleOk {H : Type} (c : Config H P) : Frame P.Loc → Prop
  | .lockAcquire plock .test => ∀ l, l ≠ plock → c.kernel.holder l ≠ some c.kernel.running
  | .lockRelease plock .assertHolder => c.kernel.holder plock = some c.kernel.running
  | .semaDownCall (.bare _) | .semaDown (.bare _) _ | .threadBlockCall _ => False
  | _ => True

/-- Threads under preemption by the timer. -/
def SimpleLocking {H : Type} (c : Config H P) : Event P → Prop
  | .exec _ => ∀ f ∈ c.top.head?, f.SimpleOk c
  | .timer => True
  | .device _ => False

/-! ## What a call stack says about the locks -/

/-- Between `sema_down` and the return of `lock_acquire`. -/
def AcquirePc.inside : AcquirePc → Bool
  | .setHolder | .assertRepeatNr | .setRepeatNr => true
  | _ => false

/-- After the first assertion of `lock_release`. -/
def ReleasePc.inside : ReleasePc → Bool
  | .assertHolder => false
  | _ => true

/-- The thread has the lock `plock` because of where it stands. -/
def Frame.inside {Loc : Type} (plock : Nat) : Frame Loc → Bool
  | .lockAcquire l pc => decide (l = plock) && pc.inside
  | .lockRelease l pc => decide (l = plock) && pc.inside
  | .semaUp s => decide (s = .inLock plock)
  | _ => false

/-- An interrupt on top changes nothing. -/
def inside {Loc : Type} (plock : Nat) : List (Frame Loc) → Bool
  | [] => false
  | .intrExit _ :: rest => inside plock rest
  | f :: _ => f.inside plock

/-- What `lock_release` has found out about its lock. -/
def ReleasePc.Knows (mine : Prop) : ReleasePc → Prop
  | .assertHolder => True
  | .clearRepeatNr => ¬ mine
  | _ => mine

/-- What `lock_acquire` has found out about its lock. -/
def AcquirePc.Knows (mine : Prop) : AcquirePc → Prop
  | .assertRepeatNr | .setRepeatNr => mine
  | _ => True

/-- What a call, with the frames `rest` below it, has found out about the field `holder`; `mine` are
the locks that name the thread. In the `sema_down` of a lock there are none. -/
def Frame.Knows {Loc : Type} (mine : Nat → Prop) (rest : List (Frame Loc)) : Frame Loc → Prop
  | .lockAcquire l pc => pc.Knows (mine l)
  | .lockRelease l pc => pc.Knows (mine l)
  | .semaUp (.inLock l) => ¬ mine l
  | .semaDownCall (.inLock l) | .semaDown (.inLock l) _ =>
    rest.head? = some (.lockAcquire l .setHolder) ∧ ∀ l', ¬ mine l'
  | _ => True

/-- What the innermost call knows; interrupts and `thread_block` stand on top of it. -/
def Knows {Loc : Type} (mine : Nat → Prop) : List (Frame Loc) → Prop
  | [] => True
  | .intrExit _ :: rest | .threadBlock _ :: rest => Knows mine rest
  | f :: rest => f.Knows mine rest

section Positions

variable {Loc : Type} {mine : Nat → Prop} {plock : Nat} {st rest : List (Frame Loc)}

theorem ProgTop.inside_eq (ht : ProgTop st) : inside plock st = false := by
  cases st with
  | nil => rfl
  | cons g rest =>
    obtain ⟨l, rfl⟩ := ht g rfl
    rfl

theorem ProgTop.knows (ht : ProgTop st) : Knows mine st := by
  cases st with
  | nil => trivial
  | cons g rest =>
    obtain ⟨l, rfl⟩ := ht g rfl
    trivial

theorem Call.inside_eq (call : Call Loc) : inside plock (call.frame :: rest) = false := by
  cases call with
  | lockAcquire l => exact Bool.and_false _
  | lockRelease l => exact Bool.and_false _
  | _ => rfl

theorem Call.knows (call : Call Loc) : Knows mine (call.frame :: rest) := by
  cases call <;> trivial

end Positions

/-! ## The invariant -/

/-- The lock names the thread. -/
def Config.Holds {H : Type} (c : Config H P) (t : Tid) (plock : Nat) : Prop :=
  c.kernel.holder plock = some t

structure SimpleInv (c : Config Queues P) : Prop where
  sema : ∀ l, SemaInv (.inLock l) c
  noHandler : ∀ t, (c.stack t).IsChain NoHandler
  knows : ∀ t, Knows (c.Holds t) (c.stack t)
  /-- who has completed a `sema_down` on a lock stands inside or is named by it -/
  owner : ∀ l t, c.history.downs (.inLock l) t = 1 ↔ inside l (c.stack t) = true ∨ c.Holds t l
  owner_created : ∀ l t, c.history.downs (.inLock l) t = 1 → c.history.created t = true
  asleep : ∀ t, c.history.created t = true →
    c.kernel.Awake t ∨ ∃ l, c.history.waiting (.inLock l) t = true

namespace SimpleInv

variable {c c' : Config Queues P} {f : Frame P.Loc} {rest : List (Frame P.Loc)}

/-- Two threads never both have the permit of a lock. -/
theorem unique (h : SimpleInv c) {l : Nat} {t u : Tid} (ht : c.history.downs (.inLock l) t = 1)
    (hu : c.history.downs (.inLock l) u = 1) : t = u := by
  rcases (h.sema l).permit with ⟨-, hall⟩ | ⟨-, v, hv⟩
  · rw [hall] at ht
    cases ht
  · have heq : ∀ w, c.history.downs (.inLock l) w = 1 → w = v := by
      intro w hw
      by_contra hne
      rw [hv, if_neg hne] at hw
      cases hw
    rw [heq t ht, heq u hu]

/-- **The step lemma.** Only the running thread's position, its permits and the locks that name it
change. -/
theorem next (h : SimpleInv c) (hrun : c.history.created c.kernel.running = true)
    (hsema : ∀ l, SemaInv (.inLock l) c')
    (hmono : ∀ t, c.history.created t = true → c'.history.created t = true)
    (hother : ∀ t, t ≠ c.kernel.running → (c'.stack t).IsChain NoHandler ∧
      (Knows (c.Holds t) (c.stack t) → Knows (c.Holds t) (c'.stack t)) ∧
      ∀ l, inside l (c'.stack t) = inside l (c.stack t))
    (hholder : ∀ l t, t ≠ c.kernel.running → (c'.Holds t l ↔ c.Holds t l))
    (hdowns : ∀ l t, t ≠ c.kernel.running →
      c'.history.downs (.inLock l) t = c.history.downs (.inLock l) t)
    (hchain : (c'.stack c.kernel.running).IsChain NoHandler)
    (hknows : Knows (c'.Holds c.kernel.running) (c'.stack c.kernel.running))
    (howner : ∀ l, c'.history.downs (.inLock l) c.kernel.running = 1 ↔
      inside l (c'.stack c.kernel.running) = true ∨ c'.Holds c.kernel.running l)
    (hasleep : ∀ t, c'.history.created t = true →
      c'.kernel.Awake t ∨ ∃ l, c'.history.waiting (.inLock l) t = true) : SimpleInv c' := by
  refine ⟨hsema, ?_, ?_, ?_, ?_, hasleep⟩
  · intro t
    by_cases ht : t = c.kernel.running
    · exact ht ▸ hchain
    · exact (hother t ht).1
  · intro t
    by_cases ht : t = c.kernel.running
    · exact ht ▸ hknows
    · have heq : c'.Holds t = c.Holds t := funext fun l => propext (hholder l t ht)
      rw [heq]
      exact (hother t ht).2.1 (h.knows t)
  · intro l t
    by_cases ht : t = c.kernel.running
    · exact ht ▸ howner l
    · rw [hdowns l t ht, (hother t ht).2.2 l, hholder l t ht]
      exact h.owner l t
  · intro l t hone
    by_cases ht : t = c.kernel.running
    · exact hmono t (ht ▸ hrun)
    · rw [hdowns l t ht] at hone
      exact hmono t (h.owner_created l t hone)

/-- A step that keeps the other stacks. -/
theorem others (h : SimpleInv c) {st : List (Frame P.Loc)}
    (hstack : c'.stack = Function.update c.stack c.kernel.running st) {t : Tid}
    (ht : t ≠ c.kernel.running) : (c'.stack t).IsChain NoHandler ∧
      (Knows (c.Holds t) (c.stack t) → Knows (c.Holds t) (c'.stack t)) ∧
      ∀ l, inside l (c'.stack t) = inside l (c.stack t) := by
  rw [hstack, Function.update_of_ne ht]
  exact ⟨h.noHandler t, id, fun _ => rfl⟩

/-- A step of the running thread on the lock `plock`: the permit stays with the thread. -/
theorem move (h : SimpleInv c) {st : List (Frame P.Loc)}
    (hrun : c.history.created c.kernel.running = true)
    (hsema : ∀ l, SemaInv (.inLock l) c')
    (hmono : ∀ t, c.history.created t = true → c'.history.created t = true)
    (hstack : c'.stack = Function.update c.stack c.kernel.running st)
    (hholder : c'.kernel.holder = c.kernel.holder)
    (hdowns : ∀ l, c'.history.downs (.inLock l) = c.history.downs (.inLock l))
    (hchain : st.IsChain NoHandler) (hknows : Knows (c.Holds c.kernel.running) st)
    (howner : ∀ l, (inside l st = true ∨ c.Holds c.kernel.running l) ↔
      (inside l c.top = true ∨ c.Holds c.kernel.running l))
    (hasleep : ∀ t, c'.history.created t = true →
      c'.kernel.Awake t ∨ ∃ l, c'.history.waiting (.inLock l) t = true) : SimpleInv c' := by
  have hself : c'.stack c.kernel.running = st := by rw [hstack, Function.update_self]
  have hholds : c'.Holds = c.Holds := by
    unfold Config.Holds
    rw [hholder]
  apply h.next hrun hsema hmono (fun t ht => h.others hstack ht)
  · intro l t _
    rw [hholds]
  · intro l t _
    rw [hdowns]
  · rw [hself]
    exact hchain
  · rw [hself, hholds]
    exact hknows
  · intro l
    rw [hself, hholds, hdowns, h.owner, howner]
    exact Iff.rfl
  · exact hasleep

/-! ### Statements that stay within their thread -/

/-- A local statement puts nobody to sleep. -/
theorem asleep_local (h : SimpleInv c) (hl : LocalStep c c') (t : Tid)
    (ht : c'.history.created t = true) :
    c'.kernel.Awake t ∨ ∃ l, c'.history.waiting (.inLock l) t = true := by
  rw [hl.created] at ht
  rw [hl.awake, hl.waiting]
  exact h.asleep t ht

theorem stay (h : SimpleInv c) (hsched : SchedInv c) {st : List (Frame P.Loc)} (hl : LocalStep c c')
    (hsema : ∀ l, SemaInv (.inLock l) c')
    (hstack : c'.stack = Function.update c.stack c.kernel.running st)
    (hholder : c'.kernel.holder = c.kernel.holder) (hchain : st.IsChain NoHandler)
    (hknows : Knows (c.Holds c.kernel.running) st)
    (howner : ∀ l, (inside l st = true ∨ c.Holds c.kernel.running l) ↔
      (inside l c.top = true ∨ c.Holds c.kernel.running l)) : SimpleInv c' :=
  h.move hsched.running_created hsema (fun _ ht => hl.created ▸ ht) hstack hholder
    (fun l => congrFun hl.downs (.inLock l)) hchain hknows howner (h.asleep_local hl)

/-- What the top frame knows. -/
theorem top_knows (h : SimpleInv c) (htop : c.top = f :: rest) :
    Knows (c.Holds c.kernel.running) (f :: rest) := by
  rw [← htop]
  exact h.knows c.kernel.running

theorem top_chain (h : SimpleInv c) (htop : c.top = f :: rest) : (f :: rest).IsChain NoHandler := by
  rw [← htop]
  exact h.noHandler c.kernel.running

/-- A statement of the program: it stands on no lock before and after. -/
theorem execProg (h : SimpleInv c) (hsched : SchedInv c) {l : P.Loc}
    (htop : c.top = .prog l :: rest)
    (hcalls : (Frame.prog l :: rest).IsChain Calls) {act : Action P.Mem P.Loc}
    (he : OsKernel.execProg act rest c = .ok c') (hl : LocalStep c c')
    (hsema : ∀ l, SemaInv (.inLock l) c') : SimpleInv c' := by
  have hchain := h.top_chain htop
  have hinside : ∀ k, inside k c.top = false := by
    intro k
    rw [htop]
    rfl
  have hprog : ∀ l', (Frame.prog l' :: rest).IsChain NoHandler := by
    intro l'
    cases rest with
    | nil => exact .singleton _
    | cons g rest =>
      obtain ⟨hfirst, hrest⟩ := List.isChain_cons_cons.mp hchain
      exact List.isChain_cons_cons.mpr ⟨fun e hg => absurd rfl (hfirst e hg l), hrest⟩
  -- a handler never stands on an interrupt, so a return leads to the program
  have hret : ProgTop rest := by
    intro g hg
    cases rest with
    | nil => cases hg
    | cons g' rest =>
      cases hg
      rcases (List.isChain_cons_cons.mp hcalls).1 with hp | ⟨e, rfl⟩
      · exact hp
      · exact absurd rfl ((List.isChain_cons_cons.mp hchain).1 e rfl l)
  cases act with
  | goto m l' =>
    cases he
    exact h.stay hsched hl hsema rfl rfl (hprog l') trivial fun k => by rw [hinside]; exact Iff.rfl
  | setIntr status l' =>
    cases he
    exact h.stay hsched hl hsema rfl rfl (hprog l') trivial fun k => by rw [hinside]; exact Iff.rfl
  | call m g l' =>
    cases he
    refine h.stay hsched hl hsema rfl rfl (noHandler_cons (hprog l') fun k hk => ?_) g.knows
      fun k => ?_
    · cases g <;> cases hk
    · rw [hinside, g.inside_eq]
  | enter m callee l' =>
    cases he
    refine h.stay hsched hl hsema rfl rfl ?_ trivial fun k => by rw [hinside]; exact Iff.rfl
    exact List.isChain_cons_cons.mpr ⟨nofun, hprog l'⟩
  | ret m =>
    cases he
    refine h.stay hsched hl hsema rfl rfl hchain.tail hret.knows fun k => ?_
    rw [hinside, hret.inside_eq]
  | panic p => cases he

/-- The thread with the permit of `plock` writes the field `holder`. -/
theorem writeHolder (h : SimpleInv c) (hsched : SchedInv c) {plock : Nat} {w : Option Tid}
    {st : List (Frame P.Loc)}
    (hl : LocalStep c c') (hsema : ∀ l, SemaInv (.inLock l) c')
    (hstack : c'.stack = Function.update c.stack c.kernel.running st)
    (hholder : c'.kernel.holder = Function.update c.kernel.holder plock w)
    (hw : w = none ∨ w = some c.kernel.running) (hchain : st.IsChain NoHandler)
    (hknows : Knows (c'.Holds c.kernel.running) st) (htop : inside plock c.top = true)
    (hst : inside plock st = true) (hother : ∀ l, l ≠ plock → inside l st = inside l c.top) :
    SimpleInv c' := by
  have hself : c'.stack c.kernel.running = st := by rw [hstack, Function.update_self]
  have hpermit : c.history.downs (.inLock plock) c.kernel.running = 1 :=
    (h.owner plock c.kernel.running).mpr (Or.inl htop)
  have hsame : ∀ l t, l ≠ plock → (c'.Holds t l ↔ c.Holds t l) := by
    intro l t hne
    rw [Config.Holds, hholder, Function.update_of_ne hne, Config.Holds]
  apply h.next hsched.running_created hsema (fun _ ht => hl.created ▸ ht)
    (fun t ht => h.others hstack ht)
  · intro l t ht
    by_cases hlock : l = plock
    · -- no other thread is named before or after
      subst hlock
      refine iff_of_false (fun hnew => ?_) fun hold =>
        ht (h.unique ((h.owner l t).mpr (.inr hold)) hpermit)
      rw [Config.Holds, hholder, Function.update_self] at hnew
      rcases hw with hw | hw
      · rw [hw] at hnew
        cases hnew
      · rw [hw] at hnew
        exact ht (Option.some.inj hnew).symm
    · exact hsame l t hlock
  · intro l t _
    rw [hl.downs]
  · rw [hself]
    exact hchain
  · rw [hself]
    exact hknows
  · intro l
    rw [hself, hl.downs]
    by_cases hlock : l = plock
    · subst hlock
      exact iff_of_true hpermit (Or.inl hst)
    · rw [hother l hlock, hsame l _ hlock]
      exact h.owner l _
  · exact h.asleep_local hl

/-- A statement of `lock_acquire`. -/
theorem lockAcquire (h : SimpleInv c) (hsched : SchedInv c) {plock : Nat} {pc : AcquirePc}
    (htop : c.top = .lockAcquire plock pc :: rest) (hprog : ProgTop rest)
    (hok : Frame.SimpleOk c (.lockAcquire plock pc))
    (he : OsKernel.lockAcquire plock pc rest c = .ok c') (hl : LocalStep c c')
    (hsema : ∀ l, SemaInv (.inLock l) c') : SimpleInv c' := by
  have hchain := h.top_chain htop
  have hknow := h.top_knows htop
  have hnext : ∀ pc', (Frame.lockAcquire plock pc' :: rest).IsChain NoHandler :=
    fun pc' => noHandler_cons hchain.tail nofun
  have hself := h.owner
  have hinside : ∀ l, inside l c.top = (decide (plock = l) && pc.inside) := by
    intro l
    rw [htop]
    rfl
  cases pc with
  | test =>
    unfold OsKernel.lockAcquire at he
    dsimp only at he
    split at he
    · next hne =>
      cases he
      refine h.stay hsched hl hsema rfl rfl (noHandler_cons (hnext .setHolder) nofun) ?_ fun l => ?_
      · -- neither this lock nor another one names the thread
        refine ⟨rfl, fun l hmine => ?_⟩
        by_cases hlock : l = plock
        · exact hne (hlock ▸ hmine)
        · exact hok l hlock hmine
      · rw [hinside]
        exact (Bool.and_false _ ▸ Iff.rfl)
    · cases he
      refine h.stay hsched hl hsema rfl rfl (hnext .loadRepeatNr) trivial fun l => ?_
      rw [hinside]
      exact Iff.rfl
  | setHolder =>
    cases he
    refine h.writeHolder hsched hl hsema rfl rfl (.inr rfl) (hnext .assertRepeatNr)
      (Function.update_self ..) ?_ ?_ fun l _ => ?_
    · rw [hinside, decide_eq_true rfl]
      rfl
    · exact Bool.and_eq_true_iff.mpr ⟨decide_eq_true rfl, rfl⟩
    · rw [hinside]
      rfl
  | assertRepeatNr =>
    obtain ⟨-, -, he⟩ := bind_eq_ok.mp he
    cases he
    refine h.stay hsched hl hsema rfl rfl (hnext .setRepeatNr) hknow fun l => ?_
    rw [hinside]
    exact Iff.rfl
  | setRepeatNr =>
    cases he
    refine h.stay hsched hl hsema rfl rfl hchain.tail hprog.knows fun l => ?_
    -- the lock names the thread when it leaves
    have hmine : c.Holds c.kernel.running plock := hknow
    rw [hinside, hprog.inside_eq]
    by_cases hlock : plock = l
    · subst hlock
      exact iff_of_true (Or.inr hmine) (Or.inr hmine)
    · rw [decide_eq_false hlock]
      exact Iff.rfl
  | loadRepeatNr =>
    cases he
    refine h.stay hsched hl hsema rfl rfl (hnext _) trivial fun l => ?_
    rw [hinside]
    exact Iff.rfl
  | storeRepeatNr nr =>
    cases he
    refine h.stay hsched hl hsema rfl rfl hchain.tail hprog.knows fun l => ?_
    rw [hinside, hprog.inside_eq]
    exact (Bool.and_false (decide (plock = l)) ▸ Iff.rfl)

/-- A statement of `lock_release`. -/
theorem lockRelease (h : SimpleInv c) (hsched : SchedInv c) {plock : Nat} {pc : ReleasePc}
    (htop : c.top = .lockRelease plock pc :: rest) (hprog : ProgTop rest)
    (hok : Frame.SimpleOk c (.lockRelease plock pc))
    (he : OsKernel.lockRelease plock pc rest c = .ok c') (hl : LocalStep c c')
    (hsema : ∀ l, SemaInv (.inLock l) c') : SimpleInv c' := by
  have hchain := h.top_chain htop
  have hknow := h.top_knows htop
  have hnext : ∀ pc', (Frame.lockRelease plock pc' :: rest).IsChain NoHandler :=
    fun pc' => noHandler_cons hchain.tail nofun
  have hinside : ∀ l, inside l c.top = (decide (plock = l) && pc.inside) := by
    intro l
    rw [htop]
    rfl
  cases pc with
  | assertHolder =>
    obtain ⟨-, -, he⟩ := bind_eq_ok.mp he
    cases he
    have hmine : c.Holds c.kernel.running plock := hok
    refine h.stay hsched hl hsema rfl rfl (hnext .test) hmine fun l => ?_
    by_cases hlock : plock = l
    · subst hlock
      exact iff_of_true (Or.inr hmine) (Or.inr hmine)
    · have hnot : inside l (Frame.lockRelease plock .test :: rest) = false := by
        show (decide (plock = l) && _) = false
        rw [decide_eq_false hlock]
        rfl
      rw [hinside, hnot, decide_eq_false hlock]
      exact Iff.rfl
  | test =>
    unfold OsKernel.lockRelease at he
    dsimp only at he
    split at he
    · cases he
      refine h.stay hsched hl hsema rfl rfl (hnext .loadRepeatNr) hknow fun l => ?_
      rw [hinside]
      exact Iff.rfl
    · cases he
      refine h.stay hsched hl hsema rfl rfl (hnext .assertRepeatNr) hknow fun l => ?_
      rw [hinside]
      exact Iff.rfl
  | loadRepeatNr =>
    cases he
    refine h.stay hsched hl hsema rfl rfl (hnext _) hknow fun l => ?_
    rw [hinside]
    exact Iff.rfl
  | storeRepeatNr nr =>
    cases he
    refine h.stay hsched hl hsema rfl rfl hchain.tail hprog.knows fun l => ?_
    -- the lock still names the thread
    have hmine : c.Holds c.kernel.running plock := hknow
    rw [hinside, hprog.inside_eq]
    by_cases hlock : plock = l
    · subst hlock
      exact iff_of_true (Or.inr hmine) (Or.inr hmine)
    · rw [decide_eq_false hlock]
      exact Iff.rfl
  | assertRepeatNr =>
    obtain ⟨-, -, he⟩ := bind_eq_ok.mp he
    cases he
    refine h.stay hsched hl hsema rfl rfl (hnext .clearHolder) hknow fun l => ?_
    rw [hinside]
    exact Iff.rfl
  | clearHolder =>
    cases he
    refine h.writeHolder hsched hl hsema rfl rfl (.inl rfl) (hnext .clearRepeatNr) ?_ ?_ ?_
      fun l _ => ?_
    · intro hmine
      rw [Config.Holds] at hmine
      change Function.update c.kernel.holder plock none plock = _ at hmine
      rw [Function.update_self] at hmine
      cases hmine
    · rw [hinside, decide_eq_true rfl]
      rfl
    · exact Bool.and_eq_true_iff.mpr ⟨decide_eq_true rfl, rfl⟩
    · rw [hinside]
      rfl
  | clearRepeatNr =>
    cases he
    refine h.stay hsched hl hsema rfl rfl (noHandler_cons hchain.tail nofun) hknow fun l => ?_
    have hsame : inside l (Frame.semaUp (.inLock plock) :: rest) = decide (plock = l) := by
      show decide (SemaRef.inLock plock = SemaRef.inLock l) = _
      simp
    have hold : inside l c.top = decide (plock = l) := (hinside l).trans (Bool.and_true _)
    rw [hold, hsame]

/-! ### The semaphore of a lock -/

/-- One turn of the loop in `sema_down`. -/
theorem semaDownTest (h : SimpleInv c) (hsched : SchedInv c) {plock : Nat} {o : IntrStatus}
    (htop : c.top = .semaDown (.inLock plock) o :: rest)
    (he : OsKernel.semaDownTest (.inLock plock) o rest c = .ok c')
    (hsema : ∀ l, SemaInv (.inLock l) c') : SimpleInv c' := by
  have hchain := h.top_chain htop
  obtain ⟨hhead, hfree⟩ := h.top_knows htop
  have hinside : ∀ l, inside l c.top = false := by
    intro l
    rw [htop]
    rfl
  have hzero : ∀ l, c.history.downs (.inLock l) c.kernel.running ≠ 1 := by
    intro l hone
    rcases (h.owner l _).mp hone with hin | hmine
    · change inside l c.top = true at hin
      rw [hinside] at hin
      cases hin
    · exact hfree l hmine
  by_cases hv : c.kernel.value (.inLock plock) = 0
  · -- the thread sleeps
    rcases semaDownTest_zero (.inLock plock) o rest hsched hv with ⟨-, herr⟩ | ⟨k, hk, -, hd⟩
    · rw [herr] at he
      cases he
    · rw [hk] at he
      cases he
      have hholder : k.holder = c.kernel.holder := hd.sync.holder
      apply h.move hsched.running_created hsema (fun _ ht => ht) rfl hholder (fun _ => rfl)
      · exact noHandler_cons hchain nofun
      · exact ⟨hhead, hfree⟩
      · intro l
        rw [hinside]
        exact Iff.rfl
      · intro t ht
        show k.Awake t ∨ ∃ l, update₂ c.history.waiting (.inLock plock) c.kernel.running true
          (.inLock l) t = true
        by_cases hrun : t = c.kernel.running
        · subst hrun
          exact Or.inr ⟨plock, by rw [update₂_apply, if_pos ⟨rfl, rfl⟩]⟩
        · refine (h.asleep t ht).imp (fun ha => ?_) fun ⟨l, hl⟩ => ⟨l, ?_⟩
          · exact hd.awake t (Kernel.asleep_awake (k := c.kernel.joined (.inLock plock)) hrun ha)
          · rw [update₂_apply, if_neg fun heq => hrun heq.2]
            exact hl
  · -- the thread takes the permit and is inside `lock_acquire`
    rw [semaDownTest_pos (.inLock plock) o rest hv] at he
    split at he
    · cases he
      have hnobody : c.history.downs (.inLock plock) c.kernel.running = 0 := by
        rcases (h.sema plock).permit with ⟨-, hall⟩ | ⟨hv0, -⟩
        · exact hall _
        · exact absurd hv0 hv
      obtain ⟨rest', rfl⟩ : ∃ rest', rest = .lockAcquire plock .setHolder :: rest' := by
        cases rest with
        | nil => cases hhead
        | cons g rest' => exact ⟨rest', by rw [Option.some.inj hhead]⟩
      have hself : (c.lowered (.inLock plock) o
          (.lockAcquire plock .setHolder :: rest')).stack c.kernel.running =
            .lockAcquire plock .setHolder :: rest' := Function.update_self ..
      have hin : ∀ l, inside l (.lockAcquire plock .setHolder :: rest' : List (Frame P.Loc)) =
          decide (plock = l) := fun l => Bool.and_true _
      apply h.next hsched.running_created hsema (fun _ ht => ht) (fun t ht => h.others rfl ht)
      · exact fun _ _ _ => Iff.rfl
      · intro l t ht
        show update₂ c.history.downs (.inLock plock) c.kernel.running _ (.inLock l) t = _
        rw [update₂_apply, if_neg fun heq => ht heq.2]
      · rw [hself]
        exact hchain.tail
      · rw [hself]
        trivial
      · intro l
        rw [hself, hin]
        show update₂ c.history.downs (.inLock plock) c.kernel.running _ (.inLock l) _ = 1 ↔ _
        rw [update₂_apply]
        by_cases hlock : plock = l
        · subst hlock
          rw [if_pos ⟨rfl, rfl⟩, hnobody]
          exact iff_of_true rfl (Or.inl (decide_eq_true rfl))
        · have hne : SemaRef.inLock l ≠ SemaRef.inLock plock := fun heq =>
            hlock (SemaRef.inLock.inj heq).symm
          rw [if_neg fun heq => hne heq.1, decide_eq_false hlock]
          exact iff_of_false (hzero l) fun hor => hor.elim nofun (hfree l)
      · exact h.asleep
    · cases he

/-- `sema_up`: the permit goes, and the lock does not name the thread any more. -/
theorem semaUp (h : SimpleInv c) (hsched : SchedInv c) {s : SemaRef}
    (htop : c.top = .semaUp s :: rest) (hprog : ProgTop rest)
    (he : OsKernel.semaUp s rest c = .ok c') (hsema : ∀ l, SemaInv (.inLock l) c') :
    SimpleInv c' := by
  have hchain := h.top_chain htop
  have hknow := h.top_knows htop
  have hinside : ∀ l, inside l c.top = decide (s = .inLock l) := by
    intro l
    rw [htop]
    rfl
  -- what both forms of the new state have in common
  have hcommon : ∀ (k : Kernel Queues) (waiting woken : SemaRef → Tid → Bool),
      k.holder = c.kernel.holder → (∀ l, SemaInv (.inLock l) { c with
        kernel := k, stack := Function.update c.stack c.kernel.running rest,
        history := { c.history with
          downs := update₂ c.history.downs s c.kernel.running
            (c.history.downs s c.kernel.running - 1)
          waiting := waiting, woken := woken } }) →
      (∀ t, c.history.created t = true → k.Awake t ∨ ∃ l, waiting (.inLock l) t = true) →
      SimpleInv { c with
        kernel := k, stack := Function.update c.stack c.kernel.running rest,
        history := { c.history with
          downs := update₂ c.history.downs s c.kernel.running
            (c.history.downs s c.kernel.running - 1)
          waiting := waiting, woken := woken } } := by
    intro k waiting woken hholder hsema hasleep
    have hholds : ∀ l t, k.holder l = some t ↔ c.Holds t l := by
      intro l t
      rw [hholder]
      exact Iff.rfl
    apply h.next hsched.running_created hsema (fun _ ht => ht) (fun t ht => h.others rfl ht)
    · exact fun l t _ => hholds l t
    · intro l t ht
      show update₂ c.history.downs s c.kernel.running _ (.inLock l) t = _
      rw [update₂_apply, if_neg fun heq => ht heq.2]
    · show (Function.update c.stack c.kernel.running rest c.kernel.running).IsChain NoHandler
      rw [Function.update_self]
      exact hchain.tail
    · show Knows _ (Function.update c.stack c.kernel.running rest c.kernel.running)
      rw [Function.update_self]
      exact hprog.knows
    · intro l
      show update₂ c.history.downs s c.kernel.running _ (.inLock l) c.kernel.running = 1 ↔
        inside l (Function.update c.stack c.kernel.running rest c.kernel.running) = true ∨
          k.holder l = some c.kernel.running
      rw [Function.update_self, hprog.inside_eq, hholds, update₂_apply]
      by_cases hs : s = .inLock l
      · subst hs
        have hone : c.history.downs (.inLock l) c.kernel.running = 1 :=
          (h.owner l _).mpr (Or.inl ((hinside l).trans (decide_eq_true rfl)))
        rw [if_pos ⟨rfl, rfl⟩, hone]
        exact iff_of_false nofun fun hor => hor.elim nofun hknow
      · rw [if_neg fun heq => hs heq.1.symm]
        refine (h.owner l _).trans ?_
        have hnot : inside l c.top = false := (hinside l).trans (decide_eq_false hs)
        change inside l c.top = true ∨ _ ↔ _
        rw [hnot]
    · exact hasleep
  by_cases hv : c.kernel.value s = 0
  · rcases semaUp_zero s rest hsched hv with ⟨-, hok⟩ | ⟨u, k, hw, hok, hsync, hrun, hstat, -⟩
    · rw [hok] at he
      cases he
      exact hcommon _ _ _ rfl hsema h.asleep
    · rw [hok] at he
      cases he
      refine hcommon _ _ _ hsync.holder hsema fun t ht => ?_
      by_cases htu : t = u
      · -- the woken thread is ready
        left
        show k.status t = .ready ∨ _
        rw [hstat, htu, Function.update_self]
        exact Or.inl rfl
      · refine (h.asleep t ht).imp (Kernel.Awake.update hstat (.inl rfl) t) fun ⟨l, hl⟩ => ⟨l, ?_⟩
        show update₂ c.history.waiting s u false (.inLock l) t = true
        rw [update₂_apply, if_neg fun heq => htu heq.2]
        exact hl
  · rw [semaUp_pos s rest hv] at he
    cases he

/-! ### One event -/

/-- `thread_start` called by the program: the new thread stands on no lock. -/
theorem threadStart (h : SimpleInv c) (hsched : SchedInv c) {u : Tid} {prio : UInt8} {fn : P.Loc}
    {k : Kernel Queues} (htop : c.top = .threadStart u prio fn :: rest) (hprog : ProgTop rest)
    (hnew : c.history.created u = false) (hk : OsKernel.threadStart u prio c.kernel = .ok k)
    (hsema : ∀ l, SemaInv (.inLock l) { c with
      kernel := k
      stack := Function.update (Function.update c.stack c.kernel.running rest) u
        [.kernelThread, .prog fn]
      history := { c.history with created := Function.update c.history.created u true } }) :
    SimpleInv { c with
      kernel := k
      stack := Function.update (Function.update c.stack c.kernel.running rest) u
        [.kernelThread, .prog fn]
      history := { c.history with created := Function.update c.history.created u true } } := by
  have hne := hsched.running_ne hnew
  obtain ⟨hsync, -, hstat, -⟩ := hsched.threadStart_returned hnew hk
  have hchain := h.top_chain htop
  let stack : Tid → List (Frame P.Loc) :=
    Function.update (Function.update c.stack c.kernel.running rest) u
      [.kernelThread, .prog fn]
  have hself : stack c.kernel.running = rest := by
    show Function.update _ u _ _ = _
    rw [Function.update_of_ne hne, Function.update_self]
  have hholds : ∀ l t, k.holder l = some t ↔ c.Holds t l := by
    intro l t
    rw [hsync.holder]
    exact Iff.rfl
  apply h.next hsched.running_created hsema
  · intro t ht
    show Function.update c.history.created u true t = true
    rw [Function.update_apply]
    split
    · rfl
    · exact ht
  · intro t ht
    show (stack t).IsChain NoHandler ∧ (Knows _ (c.stack t) → Knows _ (stack t)) ∧
      ∀ l, inside l (stack t) = inside l (c.stack t)
    by_cases hth : t = u
    · -- the new thread stands on no lock
      subst hth
      have hlast : stack t = [.kernelThread, .prog fn] := Function.update_self ..
      rw [hlast, hsched.fresh t hnew]
      exact ⟨noHandler_cons (.singleton _) nofun, fun _ => trivial, fun _ => rfl⟩
    · have hold : stack t = c.stack t := by
        show Function.update _ u _ _ = _
        rw [Function.update_of_ne hth, Function.update_of_ne ht]
      rw [hold]
      exact ⟨h.noHandler t, id, fun _ => rfl⟩
  · exact fun l t _ => hholds l t
  · exact fun _ _ _ => rfl
  · show (stack c.kernel.running).IsChain NoHandler
    rw [hself]
    exact hchain.tail
  · show Knows _ (stack c.kernel.running)
    rw [hself]
    exact hprog.knows
  · intro l
    show c.history.downs _ _ = 1 ↔ inside l (stack c.kernel.running) = true ∨
      k.holder l = some c.kernel.running
    rw [hself, hprog.inside_eq, hholds, h.owner]
    change inside l c.top = true ∨ _ ↔ _
    rw [htop]
    exact Iff.rfl
  · intro t ht
    change Function.update c.history.created u true t = true at ht
    show k.Awake t ∨ _
    by_cases hth : t = u
    · left
      show k.status t = .ready ∨ _
      rw [hstat, hth, Function.update_self]
      exact Or.inl rfl
    · rw [Function.update_of_ne hth] at ht
      exact (h.asleep t ht).imp (Kernel.Awake.update hstat (.inl rfl) t) id

/-- A statement of the running thread. -/
theorem exec (h : SimpleInv c) (hsched : SchedInv c) {input : P.Input} (htop : c.top = f :: rest)
    (hg : FrameGuard c f) (hok : f.SimpleOk c) (he : OsKernel.exec input f rest c = .ok c')
    (hsema : ∀ l, SemaInv (.inLock l) c') : SimpleInv c' := by
  have hcalls : (f :: rest).IsChain Calls := by
    rw [← htop]
    exact hsched.calls c.kernel.running
  have hchain := h.top_chain htop
  have hknow := h.top_knows htop
  cases f with
  | prog l => exact h.execProg hsched htop hcalls he (exec_local (f := .prog l) rfl he) hsema
  | kernelThread =>
    have hprog : ProgTop rest := progTop_of_calls hcalls fun _ hg => hg
    have hl := exec_local (f := .kernelThread) rfl he
    cases he
    refine h.stay hsched hl hsema rfl rfl hchain.tail hprog.knows fun l => ?_
    rw [htop, hprog.inside_eq]
    exact Iff.rfl
  | intrExit eflags =>
    have hl := exec_local (f := .intrExit eflags) rfl he
    cases he
    refine h.stay hsched hl hsema rfl rfl hchain.tail hknow fun l => ?_
    rw [htop]
    exact Iff.rfl
  | threadBlockCall stat => exact absurd hok id
  | threadBlock oldStatus =>
    have hl := exec_local (f := .threadBlock oldStatus) rfl he
    cases he
    refine h.stay hsched hl hsema rfl rfl hchain.tail hknow fun l => ?_
    -- `thread_block` returns to the program or to `sema_down`
    have hout : inside l rest = false := by
      cases rest with
      | nil => rfl
      | cons g rest =>
        rcases (List.isChain_cons_cons.mp hcalls).1 with ⟨l, rfl⟩ | ⟨s, o, rfl, -⟩
        · rfl
        · rfl
    rw [htop, hout]
    exact Iff.rfl
  | threadUnblock pthread =>
    have hprog : ProgTop rest := progTop_of_calls hcalls fun _ hg => hg
    obtain ⟨k, hk, he⟩ := bind_eq_ok.mp he
    cases he
    obtain ⟨hsync, hrun, hstat, -⟩ := hsched.threadUnblock_returned hg hk
    have hstack : Function.update c.stack k.running rest =
        Function.update c.stack c.kernel.running rest := by rw [hrun]
    refine @SimpleInv.move _ c _ h rest hsched.running_created hsema (fun _ ht => ht) hstack
      hsync.holder (fun _ => rfl) hchain.tail hprog.knows (fun l => ?_) fun t ht =>
        (h.asleep t ht).imp (Kernel.Awake.update hstat (.inl rfl) t) id
    rw [htop, hprog.inside_eq]
    exact Iff.rfl
  | threadStart thread prio function =>
    have hprog : ProgTop rest := progTop_of_calls hcalls fun _ hg => hg
    obtain ⟨k, hk, he⟩ := bind_eq_ok.mp he
    cases he
    exact h.threadStart hsched htop hprog hg.1 hk hsema
  | semaDownCall psema =>
    have hl := exec_local (f := .semaDownCall psema) rfl he
    cases he
    refine h.stay hsched hl hsema rfl rfl (noHandler_cons hchain.tail nofun) ?_ fun l => ?_
    · cases psema with
      | inLock plock => exact hknow
      | bare psema => exact absurd hok id
    · rw [htop]
      exact Iff.rfl
  | semaDown psema oldStatus =>
    cases psema with
    | inLock plock => exact h.semaDownTest hsched htop he hsema
    | bare psema => exact absurd hok id
  | semaUp psema =>
    have hprog : ProgTop rest := progTop_of_calls hcalls fun _ hg => hg
    exact h.semaUp hsched htop hprog he hsema
  | lockAcquire plock pc =>
    have hprog : ProgTop rest := progTop_of_calls hcalls fun _ hg => hg
    have hl := exec_local (f := .lockAcquire plock pc) rfl he
    exact h.lockAcquire hsched htop hprog hok he hl hsema
  | lockRelease plock pc =>
    have hprog : ProgTop rest := progTop_of_calls hcalls fun _ hg => hg
    have hl := exec_local (f := .lockRelease plock pc) rfl he
    exact h.lockRelease hsched htop hprog hok he hl hsema

/-- Who calls `sema_up` on a lock has its permit. -/
theorem upOk (h : SimpleInv c) (l : Nat) (e : Event P) : UpOk (.inLock l) c e := by
  cases e with
  | exec input =>
    intro rest htop
    have hin : inside l (c.stack c.kernel.running) = true := by
      have hstack : c.stack c.kernel.running = .semaUp (.inLock l) :: rest := htop
      rw [hstack]
      exact decide_eq_true rfl
    rw [(h.owner l _).mpr (Or.inl hin)]
    exact Nat.one_pos
  | timer => trivial
  | device input => trivial

/-- **One event keeps the invariant.** -/
theorem step (h : SimpleInv c) (hsched : SchedInv c) {e : Event P} (hg : SchedGuard c e)
    (hok : SimpleLocking c e) (hs : machineStep e c = some (.ok c')) : SimpleInv c' := by
  have hsema : ∀ l, SemaInv (.inLock l) c' := fun l => (h.sema l).step hsched hg (h.upOk l e) hs
  cases e with
  | exec input =>
    unfold machineStep at hs
    cases htop : c.top with
    | nil =>
      rw [htop] at hs
      cases hs
    | cons f rest =>
      rw [htop] at hs
      exact h.exec hsched htop (hg f (by rw [htop]; rfl)) (hok f (by rw [htop]; rfl))
        (Option.some.inj hs) hsema
  | timer =>
    unfold machineStep at hs
    dsimp only at hs
    split at hs
    · next hon =>
      obtain ⟨k, hk, hd, -⟩ := hsched.timer hon
      have he : timerInterrupt c = .ok c' := Option.some.inj hs
      unfold timerInterrupt at he
      rw [hk, ok_bind] at he
      cases he
      have hholder : k.holder = c.kernel.holder := hd.sync.holder
      apply h.move hsched.running_created hsema (fun _ ht => ht) rfl hholder (fun _ => rfl)
      · exact noHandler_cons (h.noHandler c.kernel.running) nofun
      · exact h.knows c.kernel.running
      · exact fun _ => Iff.rfl
      · exact fun t ht => (h.asleep t ht).imp (hd.awake t) id
    · cases hs
  | device input => exact absurd hok id

/-- `thread_init` with free locks. -/
theorem boot (hb : Booted c) (hfree : LocksFree c) : SimpleInv c := by
  obtain ⟨l, hstack⟩ := hb.stack
  have hprog : ∀ t, c.stack t = [] ∨ c.stack t = [.prog l] := by
    intro t
    rw [hstack, Function.update_apply]
    split
    · exact Or.inr rfl
    · exact Or.inl rfl
  have hin : ∀ k t, inside k (c.stack t) = false := by
    intro k t
    rcases hprog t with ht | ht <;> rw [ht] <;> rfl
  refine ⟨fun k => SemaInv.boot hb (hfree k).1, ?_, ?_, ?_, ?_, ?_⟩
  · intro t
    rcases hprog t with ht | ht <;> rw [ht]
    · exact .nil
    · exact .singleton _
  · intro t
    rcases hprog t with ht | ht <;> rw [ht] <;> trivial
  · intro k t
    rw [hb.downs, hin, Config.Holds, (hfree k).2.1]
    exact iff_of_false nofun fun hor => hor.elim nofun nofun
  · intro k t hone
    rw [hb.downs] at hone
    cases hone
  · intro t ht
    rw [hb.created] at ht
    rw [of_decide_eq_true ht]
    exact Or.inl (Or.inr (SchedInv.boot hb).running_status)

/-- **Every reachable state satisfies the invariant.** -/
theorem reach {init : Config Queues P → Prop} (hinit : ∀ c, init c → SchedInv c ∧ SimpleInv c)
    {guard : Config Queues P → Event P → Prop}
    (hguard : ∀ c e, guard c e → SchedGuard c e ∧ SimpleLocking c e) :
    ∀ c, (machine init).Reach guard c → SchedInv c ∧ SimpleInv c :=
  System.Reach.invariant hinit fun c e _ _ hinv hg hs =>
    ⟨hinv.1.step (hguard c e hg).1 hs, hinv.2.step hinv.1 (hguard c e hg).1 (hguard c e hg).2 hs⟩

/-! ### Somebody is ready -/

/-- **Whoever finds a lock taken leaves a ready thread behind**: the one with the permit. It does
not wait itself, since a thread in the `sema_down` of a lock is named by no lock. -/
theorem ready (h : SimpleInv c) (hsched : SchedInv c) {plock : Nat} {o : IntrStatus}
    (htop : c.top = .semaDown (.inLock plock) o :: rest)
    (hv : c.kernel.value (.inLock plock) = 0) :
    ∃ u, u ≠ c.kernel.running ∧ .generalTag u ∈ c.kernel.lists .ready := by
  obtain ⟨v, hone⟩ : ∃ v, c.history.downs (.inLock plock) v = 1 := by
    rcases (h.sema plock).permit with ⟨hv1, -⟩ | ⟨-, v, hall⟩
    · rw [hv] at hv1
      cases hv1
    · exact ⟨v, (hall v).trans (if_pos rfl)⟩
  have hplace := (h.owner plock v).mp hone
  have hcreated := h.owner_created plock v hone
  have hne : v ≠ c.kernel.running := by
    intro heq
    obtain ⟨-, hfree⟩ := h.top_knows htop
    rw [heq] at hplace
    rcases hplace with hin | hmine
    · change inside plock c.top = true at hin
      rw [htop] at hin
      cases hin
    · exact hfree plock hmine
  rcases h.asleep v hcreated with hawake | ⟨l, hwait⟩
  · rcases hawake with hready | hrunning
    · exact ⟨v, hne, (hsched.partition.ready_iff _).mpr ⟨v, rfl, hcreated, hready⟩⟩
    · have heq := Option.some.inj ((hsched.partition.running_iff v hcreated).mp hrunning)
      exact absurd heq.symm hne
  · -- a sleeping thread stands in the `sema_down` of the lock it waits for
    obtain ⟨old, o', rest', hstack⟩ := hsched.waiting_sleeps (.inLock l) v hwait
    have hknow := h.knows v
    rw [hstack] at hknow hplace
    rcases hplace with hin | hmine
    · cases hin
    · exact absurd hmine (hknow.2 plock)

/-- The last assertion of `schedule` does not fail in a statement of thread.c or sync.c. -/
theorem exec_ready (h : SimpleInv c) (hsched : SchedInv c) {input : P.Input}
    (htop : c.top = f :: rest) (hg : FrameGuard c f) (hok : f.SimpleOk c)
    (hf : ∀ l, f ≠ .prog l) : OsKernel.exec input f rest c ≠ .error .scheduleReadyEmpty := by
  intro he
  cases f with
  | prog l => exact absurd rfl (hf l)
  | kernelThread => cases he
  | intrExit eflags => cases he
  | threadBlock oldStatus => cases he
  | semaDownCall psema => cases he
  | threadBlockCall stat => exact absurd hok id
  | threadUnblock pthread =>
    rcases bind_eq_error.mp he with he | ⟨k', -, he⟩
    · rcases threadUnblock_spec hsched.partition hg.1 hg.2 with ⟨-, herr⟩ | ⟨k, hk, -⟩
      · rw [herr] at he
        cases he
      · rw [hk] at he
        cases he
    · cases he
  | threadStart thread prio function =>
    have hr : some c.kernel.running ≠ some thread := fun heq =>
      hsched.running_ne hg.1 (Option.some.inj heq)
    obtain ⟨k, hk, -⟩ := threadStart_spec prio hsched.partition hg.1 hr
    rcases bind_eq_error.mp he with he | ⟨k', -, he⟩
    · rw [hk] at he
      cases he
    · cases he
  | semaDown psema oldStatus =>
    cases psema with
    | bare psema => exact absurd hok id
    | inLock plock =>
      change OsKernel.semaDownTest _ _ _ _ = _ at he
      by_cases hv : c.kernel.value (.inLock plock) = 0
      · obtain ⟨u, -, hu⟩ := h.ready hsched htop hv
        rcases semaDownTest_zero (.inLock plock) oldStatus rest hsched hv with
          ⟨hnil, -⟩ | ⟨k, hk, -⟩
        · rw [hnil] at hu
          cases hu
        · rw [hk] at he
          cases he
      · rw [semaDownTest_pos (.inLock plock) oldStatus rest hv] at he
        split at he <;> cases he
  | semaUp psema =>
    change OsKernel.semaUp _ _ _ = _ at he
    by_cases hv : c.kernel.value psema = 0
    · rcases semaUp_zero psema rest hsched hv with ⟨-, hok⟩ | ⟨u, k, -, hok, -⟩
      · rw [hok] at he
        cases he
      · rw [hok] at he
        cases he
    · rw [semaUp_pos psema rest hv] at he
      cases he
  | lockAcquire plock pc =>
    cases pc with
    | test =>
      unfold OsKernel.exec OsKernel.lockAcquire at he
      dsimp only at he
      split at he <;> cases he
    | assertRepeatNr =>
      rcases bind_eq_error.mp he with he | ⟨_, -, he⟩
      · cases assert_eq_error he
      · cases he
    | setHolder => cases he
    | setRepeatNr => cases he
    | loadRepeatNr => cases he
    | storeRepeatNr nr => cases he
  | lockRelease plock pc =>
    cases pc with
    | test =>
      unfold OsKernel.exec OsKernel.lockRelease at he
      dsimp only at he
      split at he <;> cases he
    | assertHolder =>
      rcases bind_eq_error.mp he with he | ⟨_, -, he⟩
      · cases assert_eq_error he
      · cases he
    | assertRepeatNr =>
      rcases bind_eq_error.mp he with he | ⟨_, -, he⟩
      · cases assert_eq_error he
      · cases he
    | loadRepeatNr => cases he
    | storeRepeatNr nr => cases he
    | clearHolder => cases he
    | clearRepeatNr => cases he

end SimpleInv

/-! ## list.c's pointers -/

/-- **The ready list never runs dry**: in every run of threads under simple locking, a thread that
finds its lock taken leaves another thread in `thread_ready_list`, and no statement of the kernel
and no timer interrupt fails the assertion of `schedule` that the list is not empty. -/
theorem ready_never_dry {c : Config (LinkHeap ElemAddr) P}
    (hc : (machine fun c => Booted c ∧ LocksFree c).Reach
      (fun c e => SchedGuard c e ∧ SimpleLocking c e) c) :
    (∀ plock o rest, c.top = .semaDown (.inLock plock) o :: rest →
      c.kernel.value (.inLock plock) = 0 →
      ∃ u, u ≠ c.kernel.running ∧
        TaskLists.elemFind .ready (.generalTag u) c.kernel.lists = .ok true) ∧
    ∀ e, SchedGuard c e → SimpleLocking c e →
      (∀ input l, e = .exec input → c.top.head? ≠ some (.prog l)) →
      machineStep e c ≠ some (.error .scheduleReadyEmpty) := by
  let guard : Config Queues P → Event P → Prop := fun a e => SchedGuard a e ∧ SimpleLocking a e
  have hinit : ∀ c : Config (LinkHeap ElemAddr) P, Booted c ∧ LocksFree c →
      ∃ a : Config Queues P, (Booted a ∧ LocksFree a) ∧ ConfigRel c a := by
    intro c ⟨hb, hfree⟩
    obtain ⟨a, ha, hrel⟩ := booted_agree hb
    obtain ⟨h, rfl, _⟩ := id hrel
    exact ⟨a, ⟨ha, hfree⟩, hrel⟩
  obtain ⟨a, hreach, hsched, hrel⟩ := heap_reach guard (fun a h e hg => hg)
    (fun a e hg => hg.1) hinit (fun a ha => SchedInv.boot ha.1) hc
  have hinv : SimpleInv a := (SimpleInv.reach
    (fun a ha => ⟨SchedInv.boot ha.1, SimpleInv.boot ha.1 ha.2⟩) (fun _ _ hg => hg) a hreach).2
  obtain ⟨h, rfl, hr⟩ := id hrel
  refine ⟨?_, ?_⟩
  · intro plock o rest htop hv
    have htop' : a.top = .semaDown (.inLock plock) o :: rest := htop
    obtain ⟨u, hne, hu⟩ := hinv.ready hsched htop' hv
    refine ⟨u, hne, ?_⟩
    show TaskLists.elemFind .ready (.generalTag u) h = _
    rw [elemFind_agree hr hsched.partition, Queues.elemFind_eq, decide_eq_true hu]
  · intro e hg hok hkernel hs
    have hfault := heap_fault hrel hsched hg hs
    cases e with
    | exec input =>
      unfold machineStep at hfault
      cases htop : a.top with
      | nil =>
        rw [htop] at hfault
        cases hfault
      | cons f rest =>
        rw [htop] at hfault
        have hhead : a.top.head? = some f := by rw [htop]; rfl
        refine hinv.exec_ready hsched htop (hg f hhead) (hok f hhead) ?_ (Option.some.inj hfault)
        intro l hf
        subst hf
        exact hkernel input l rfl hhead
    | timer =>
      unfold machineStep at hfault
      dsimp only at hfault
      split at hfault
      · next hon =>
        -- the timer requeues the running thread, so somebody is ready
        obtain ⟨k, hk, -⟩ := hsched.timer hon
        unfold timerInterrupt at hfault
        rw [hk] at hfault
        cases hfault
      · cases hfault
    | device input => exact absurd hok id

/-- The main thread starts thread 2 and enables interrupts; then both ask for lock 0. -/
def contenders : Program where
  Mem := Unit
  Loc := Nat
  Input := Unit
  step _ _ _ _ n :=
    match n with
    | 0 => .call () (.threadStart 2 31 2) 1
    | 1 => .setIntr .on 2
    | 2 => .call () (.lockAcquire 0) 3
    | n => .goto () n
  handler _ := none

/-- Thread 2 finds the lock taken by the main thread, which the timer has put into the ready
list. -/
theorem ready_never_dry_contended :
    ∃ c : Config (LinkHeap ElemAddr) contenders,
      c.kernel.running = 2 ∧ c.top.head? = some (.semaDown (.inLock 0) .on) ∧
      ∃ u, u ≠ 2 ∧ TaskLists.elemFind .ready (.generalTag u) c.kernel.lists = .ok true := by
  have h : (machine fun c => Booted c ∧ LocksFree c).Reach
      (fun c e => SchedGuard c e ∧ SimpleLocking c e) _ := .init ⟨bootConfig_booted
    (H := LinkHeap ElemAddr) (P := contenders) 1 .off (fun _ => 1) () (0 : Nat) rfl,
    fun _ => ⟨rfl, rfl, rfl⟩⟩
  have h := h.step (e := .exec ()) (by exact ⟨by rintro f ⟨⟩; trivial, by rintro f ⟨⟩; trivial⟩) rfl
  have h := h.step (e := .exec ())
    (by exact ⟨by rintro f ⟨⟩; exact ⟨rfl, rfl⟩, by rintro f ⟨⟩; trivial⟩) rfl
  have h := h.step (e := .exec ()) (by exact ⟨by rintro f ⟨⟩; trivial, by rintro f ⟨⟩; trivial⟩) rfl
  -- the main thread acquires the lock
  have h := h.step (e := .exec ()) (by exact ⟨by rintro f ⟨⟩; trivial, by rintro f ⟨⟩; trivial⟩) rfl
  have h := h.step (e := .exec ())
    (by exact ⟨by rintro f ⟨⟩; trivial, by rintro f ⟨⟩ l _; exact nofun⟩) rfl
  have h := h.step (e := .exec ()) (by exact ⟨by rintro f ⟨⟩; trivial, by rintro f ⟨⟩; trivial⟩) rfl
  have h := h.step (e := .exec ()) (by exact ⟨by rintro f ⟨⟩; trivial, by rintro f ⟨⟩; trivial⟩) rfl
  have h := h.step (e := .exec ()) (by exact ⟨by rintro f ⟨⟩; trivial, by rintro f ⟨⟩; trivial⟩) rfl
  have h := h.step (e := .exec ()) (by exact ⟨by rintro f ⟨⟩; trivial, by rintro f ⟨⟩; trivial⟩) rfl
  have h := h.step (e := .exec ()) (by exact ⟨by rintro f ⟨⟩; trivial, by rintro f ⟨⟩; trivial⟩) rfl
  have hother : ∀ (c : Config (LinkHeap ElemAddr) contenders) (w : Option Tid),
      c.kernel.holder = Function.update (fun _ => none) 0 w →
      Frame.SimpleOk c (.lockAcquire 0 .test) := by
    intro c w hholder l hl
    rw [hholder, Function.update_of_ne hl]
    exact nofun
  -- the timer switches to thread 2, which asks for it
  have h := h.step (e := .timer) (by exact ⟨trivial, trivial⟩) rfl
  have h := h.step (e := .exec ()) (by exact ⟨by rintro f ⟨⟩; trivial, by rintro f ⟨⟩; trivial⟩) rfl
  have h := h.step (e := .exec ()) (by exact ⟨by rintro f ⟨⟩; trivial, by rintro f ⟨⟩; trivial⟩) rfl
  have h := h.step (e := .exec ())
    (by exact ⟨by rintro f ⟨⟩; trivial, by rintro f ⟨⟩; exact hother _ _ rfl⟩) rfl
  have h := h.step (e := .exec ()) (by exact ⟨by rintro f ⟨⟩; trivial, by rintro f ⟨⟩; trivial⟩) rfl
  exact ⟨_, rfl, rfl, (ready_never_dry h).1 0 .on _ rfl rfl⟩

end OsKernel
