import OsKernel.Thread.SchedulerSafety

/-!
# A binary semaphore loses no wake-up

One semaphore, initialised to 1, under every interleaving. The discipline is that `sema_up` is
called only by a thread whose `sema_down` has completed and is not yet matched (`UpOk`).

- `SemaInv`: the permit is either in the semaphore or with exactly one thread; a thread that
  `sema_up` popped stays awake, inside `sema_down`, until it has tested the value again; and while
  the semaphore is free and somebody waits there is such a thread.
- `SemaInv.step`, `SemaInv.reach`: one event, and every run.
- `no_lost_wakeup`: the same on list.c's pointers.
-/

namespace OsKernel

open Lib

variable {P : Program}

/-- `sema_up` is called with a completed and unmatched `sema_down`. -/
def UpOk {H : Type} (s : SemaRef) (c : Config H P) : Event P → Prop
  | .exec _ => ∀ rest, c.top = .semaUp s :: rest → 0 < c.history.downs s c.kernel.running
  | _ => True

/-- The thread is between its wake-up and its next test of the value. -/
def Retests {Loc : Type} (s : SemaRef) (st : List (Frame Loc)) : Prop :=
  SleepsIn s st ∨ ∃ o rest, st = .semaDown s o :: rest

/-- The invariant of the semaphore `s`. -/
structure SemaInv (s : SemaRef) (c : Config Queues P) : Prop where
  permit : (c.kernel.value s = 1 ∧ ∀ t, c.history.downs s t = 0) ∨
    (c.kernel.value s = 0 ∧ ∃ t, ∀ u, c.history.downs s u = if u = t then 1 else 0)
  woken_created : ∀ t, c.history.woken s t = true → c.history.created t = true
  woken_awake : ∀ t, c.history.woken s t = true → c.kernel.Awake t
  woken_retests : ∀ t, c.history.woken s t = true → Retests s (c.stack t)
  wakeup : c.kernel.value s = 1 → ∀ t, c.history.waiting s t = true →
    ∃ u, c.history.woken s u = true

namespace SemaInv

variable {s : SemaRef} {c c' : Config Queues P} {f : Frame P.Loc} {rest : List (Frame P.Loc)}

/-- A step that leaves the semaphore alone and keeps the woken threads awake and on their way. -/
theorem frame (h : SemaInv s c) (hvalue : c'.kernel.value s = c.kernel.value s)
    (hdowns : c'.history.downs s = c.history.downs s)
    (hwoken : c'.history.woken s = c.history.woken s)
    (hwaiting : ∀ t, c'.history.waiting s t = true → c.history.waiting s t = true)
    (hcreated : ∀ t, c.history.created t = true → c'.history.created t = true)
    (hawake : ∀ t, c.history.woken s t = true → c'.kernel.Awake t)
    (hretests : ∀ t, c.history.woken s t = true → Retests s (c'.stack t)) : SemaInv s c' where
  permit := by
    rw [hvalue, hdowns]
    exact h.permit
  woken_created t ht := hcreated t (h.woken_created t (hwoken ▸ ht))
  woken_awake t ht := hawake t (hwoken ▸ ht)
  woken_retests t ht := hretests t (hwoken ▸ ht)
  wakeup hv t hw := by
    rw [hvalue] at hv
    obtain ⟨u, hu⟩ := h.wakeup hv t (hwaiting t hw)
    exact ⟨u, hwoken ▸ hu⟩

/-- A running thread that was woken stands in `sema_down`. -/
theorem not_woken (h : SemaInv s c) (htop : c.top = f :: rest)
    (hblock : ∀ old, f ≠ .threadBlock old) (hdown : ∀ o, f ≠ .semaDown s o) :
    c.history.woken s c.kernel.running = false := by
  cases hw : c.history.woken s c.kernel.running with
  | false => rfl
  | true =>
    have hr : Retests s c.top := h.woken_retests _ hw
    rw [htop] at hr
    rcases hr with ⟨old, o, rest', heq⟩ | ⟨o, rest', heq⟩
    · cases heq
      exact absurd rfl (hblock old)
    · cases heq
      exact absurd rfl (hdown o)

/-- With the running thread not woken, other threads' stacks are all that matters. -/
theorem retests_of_ne (h : SemaInv s c) (hrun : c.history.woken s c.kernel.running = false)
    (hstack : ∀ t, t ≠ c.kernel.running → c'.stack t = c.stack t) (t : Tid)
    (ht : c.history.woken s t = true) : Retests s (c'.stack t) := by
  have hne : t ≠ c.kernel.running := by
    rintro rfl
    rw [hrun] at ht
    cases ht
  rw [hstack t hne]
  exact h.woken_retests t ht

/-- A step that ends in `schedule`, by a thread that was not woken. -/
theorem switch (h : SemaInv s c) {k₁ k : Kernel Queues} {st : List (Frame P.Loc)}
    {created : Tid → Bool} {waiting : SemaRef → Tid → Bool} (hist : History)
    (hd : Dispatched created waiting k₁ k) (hvalue : k₁.value = c.kernel.value)
    (hawake : ∀ t, t ≠ c.kernel.running → c.kernel.Awake t → k₁.Awake t)
    (hrun : c.history.woken s c.kernel.running = false)
    (hcreated : hist.created = c.history.created) (hdowns : hist.downs = c.history.downs)
    (hwoken : hist.woken s = c.history.woken s)
    (hwaiting : ∀ t, hist.waiting s t = true → c.history.waiting s t = true) :
    SemaInv s { c with kernel := k, history := hist,
                       stack := Function.update c.stack c.kernel.running st } := by
  apply h.frame
  · show k.value s = _
    rw [hd.sync.value, hvalue]
  · exact congrFun hdowns s
  · exact hwoken
  · exact hwaiting
  · exact fun t ht => hcreated ▸ ht
  · intro t ht
    have hne : t ≠ c.kernel.running := by
      rintro rfl
      rw [hrun] at ht
      cases ht
    exact hd.awake t (hawake t hne (h.woken_awake t ht))
  · exact h.retests_of_ne hrun fun t ht => Function.update_of_ne ht _ _

/-- The threads still recorded as woken after one of them tests the value. -/
theorem woken_after_test {t : Tid}
    (ht : update₂ c.history.woken s c.kernel.running false s t = true) :
    t ≠ c.kernel.running ∧ c.history.woken s t = true := by
  rw [update₂_apply] at ht
  split at ht
  · cases ht
  · next hn => exact ⟨fun heq => hn ⟨rfl, heq⟩, ht⟩

/-- One turn of the loop in `sema_down` on this semaphore. -/
theorem semaDownTest_self (h : SemaInv s c) (hsched : SchedInv c) {o : IntrStatus}
    (he : OsKernel.semaDownTest s o rest c = .ok c') : SemaInv s c' := by
  have hretests : ∀ st, ∀ t, update₂ c.history.woken s c.kernel.running false s t = true →
      Retests s (Function.update c.stack c.kernel.running st t) := by
    intro st t ht
    rw [Function.update_of_ne (woken_after_test ht).1]
    exact h.woken_retests t (woken_after_test ht).2
  by_cases hv : c.kernel.value s = 0
  · -- the thread sleeps: the permit stays where it is
    rcases semaDownTest_zero s o rest hsched hv with ⟨-, herr⟩ | ⟨k, hk, -, hd⟩
    · rw [herr] at he
      cases he
    · rw [hk] at he
      cases he
      have hvalue : k.value s = c.kernel.value s := congrFun hd.sync.value s
      constructor
      · show (k.value s = 1 ∧ _) ∨ (k.value s = 0 ∧ _)
        rw [hvalue]
        exact h.permit
      · exact fun t ht => h.woken_created t (woken_after_test ht).2
      · intro t ht
        obtain ⟨hne, hw⟩ := woken_after_test ht
        exact hd.awake t (Kernel.asleep_awake (k := c.kernel.joined s) hne (h.woken_awake t hw))
      · exact hretests _
      · intro hone
        change k.value s = 1 at hone
        rw [hvalue, hv] at hone
        cases hone
  · -- the thread takes the permit, which nobody had
    rw [semaDownTest_pos s o rest hv] at he
    split at he
    · cases he
      have hnone : ∀ t, c.history.downs s t = 0 := by
        rcases h.permit with ⟨-, hall⟩ | ⟨hzero, -⟩
        · exact hall
        · exact absurd hzero hv
      constructor
      · right
        refine ⟨Function.update_self .., c.kernel.running, fun u => ?_⟩
        show update₂ c.history.downs s c.kernel.running _ s u = _
        rw [update₂_apply, hnone, hnone]
        simp
      · exact fun t ht => h.woken_created t (woken_after_test ht).2
      · exact fun t ht => h.woken_awake t (woken_after_test ht).2
      · exact hretests _
      · intro hone
        change Function.update c.kernel.value s 0 s = 1 at hone
        rw [Function.update_self] at hone
        cases hone
    · cases he

/-- One turn of the loop in `sema_down` on another semaphore. -/
theorem semaDownTest_other (h : SemaInv s c) (hsched : SchedInv c) {s' : SemaRef} (hs : s' ≠ s)
    {o : IntrStatus} (htop : c.top = .semaDown s' o :: rest)
    (he : OsKernel.semaDownTest s' o rest c = .ok c') : SemaInv s c' := by
  have hrun : c.history.woken s c.kernel.running = false :=
    h.not_woken htop nofun fun o' heq => by cases heq; exact hs rfl
  by_cases hv : c.kernel.value s' = 0
  · rcases semaDownTest_zero s' o rest hsched hv with ⟨-, herr⟩ | ⟨k, hk, -, hd⟩
    · rw [herr] at he
      cases he
    · rw [hk] at he
      cases he
      apply h.switch (c.slept s' o rest k).history hd rfl
      · exact fun t ht ha => Kernel.asleep_awake (k := c.kernel.joined s') ht ha
      · exact hrun
      · rfl
      · rfl
      · exact update₂_of_ne c.history.woken hs.symm _ _
      · exact fun t ht => update₂_of_ne c.history.waiting hs.symm c.kernel.running true ▸ ht
  · rw [semaDownTest_pos s' o rest hv] at he
    split at he
    · cases he
      apply h.frame
      · exact Function.update_of_ne hs.symm _ _
      · exact update₂_of_ne c.history.downs hs.symm _ _
      · exact update₂_of_ne c.history.woken hs.symm _ _
      · exact fun t ht => ht
      · exact fun t ht => ht
      · exact fun t ht => h.woken_awake t ht
      · exact h.retests_of_ne hrun fun t ht => Function.update_of_ne ht _ _
    · cases he

/-- `sema_up` on this semaphore, by the thread that holds the permit. -/
theorem semaUp_self (h : SemaInv s c) (hsched : SchedInv c)
    (htop : c.top = .semaUp s :: rest) (hup : 0 < c.history.downs s c.kernel.running)
    (he : OsKernel.semaUp s rest c = .ok c') : SemaInv s c' := by
  have hrun := h.not_woken htop nofun nofun
  have hnone : ∀ u, update₂ c.history.downs s c.kernel.running
      (c.history.downs s c.kernel.running - 1) s u = 0 := by
    rcases h.permit with ⟨-, hall⟩ | ⟨-, t, hown⟩
    · rw [hall] at hup
      exact absurd hup (Nat.lt_irrefl 0)
    · intro u
      have ht : c.kernel.running = t := by
        by_contra hne
        rw [hown, if_neg hne] at hup
        exact absurd hup (Nat.lt_irrefl 0)
      rw [update₂_apply]
      split
      · rw [hown, if_pos ht]
      · next hn => rw [hown, if_neg fun hu => hn ⟨rfl, hu.trans ht.symm⟩]
  by_cases hv : c.kernel.value s = 0
  · rcases semaUp_zero s rest hsched hv with ⟨hnil, hok⟩ | ⟨u, k, hw, hok, -, -, hstat, -⟩
    · rw [hok] at he
      cases he
      constructor
      · exact Or.inl ⟨Function.update_self .., hnone⟩
      · exact h.woken_created
      · exact h.woken_awake
      · exact h.retests_of_ne hrun fun t ht => Function.update_of_ne ht _ _
      · intro _ t hwt
        have hmem := (hsched.partition.waiters_iff s _).mpr ⟨t, rfl, hwt⟩
        rw [hnil] at hmem
        cases hmem
    · rw [hok] at he
      cases he
      have hne : u ≠ c.kernel.running := by
        rintro rfl
        rw [hsched.running_not_waiting] at hw
        cases hw
      have hwoken : ∀ t, update₂ c.history.woken s u true s t = true →
          t = u ∨ c.history.woken s t = true := by
        intro t ht
        rw [update₂_apply] at ht
        split at ht
        · next heq => exact Or.inl heq.2
        · exact Or.inr ht
      constructor
      · exact Or.inl ⟨Function.update_self .., hnone⟩
      · intro t ht
        rcases hwoken t ht with rfl | hold
        · exact (hsched.partition.waiting_blocked s t hw).1
        · exact h.woken_created t hold
      · intro t ht
        rcases hwoken t ht with rfl | hold
        · left
          show k.status t = .ready
          rw [hstat]
          exact Function.update_self ..
        · exact Kernel.Awake.update hstat (.inl rfl) t (h.woken_awake t hold)
      · intro t ht
        rcases hwoken t ht with rfl | hold
        · show Retests s (Function.update c.stack c.kernel.running rest t)
          rw [Function.update_of_ne hne]
          exact Or.inl (hsched.waiting_sleeps s t hw)
        · exact h.retests_of_ne hrun (fun t ht => Function.update_of_ne ht _ _) t hold
      · intro _ _ _
        exact ⟨u, (update₂_apply c.history.woken s s u u true).trans (if_pos ⟨rfl, rfl⟩)⟩
  · rw [semaUp_pos s rest hv] at he
    cases he

/-- `sema_up` on another semaphore. -/
theorem semaUp_other (h : SemaInv s c) (hsched : SchedInv c) {s' : SemaRef} (hs : s' ≠ s)
    (htop : c.top = .semaUp s' :: rest) (he : OsKernel.semaUp s' rest c = .ok c') :
    SemaInv s c' := by
  have hrun := h.not_woken htop nofun nofun
  by_cases hv : c.kernel.value s' = 0
  · rcases semaUp_zero s' rest hsched hv with ⟨-, hok⟩ | ⟨u, k, -, hok, hsync, -, hstat, -⟩
    · rw [hok] at he
      cases he
      apply h.frame
      · exact Function.update_of_ne hs.symm _ _
      · exact update₂_of_ne c.history.downs hs.symm _ _
      · rfl
      · exact fun t ht => ht
      · exact fun t ht => ht
      · exact fun t ht => h.woken_awake t ht
      · exact h.retests_of_ne hrun fun t ht => Function.update_of_ne ht _ _
    · rw [hok] at he
      cases he
      apply h.frame
      · show Function.update k.value s' 1 s = _
        rw [Function.update_of_ne hs.symm, hsync.value]
      · exact update₂_of_ne c.history.downs hs.symm _ _
      · exact update₂_of_ne c.history.woken hs.symm _ _
      · exact fun t ht => update₂_of_ne c.history.waiting hs.symm u false ▸ ht
      · exact fun t ht => ht
      · exact fun t ht => Kernel.Awake.update hstat (.inl rfl) t (h.woken_awake t ht)
      · exact h.retests_of_ne hrun fun t ht => Function.update_of_ne ht _ _
  · rw [semaUp_pos s' rest hv] at he
    cases he

/-- `thread_block` called by the program. -/
theorem threadBlockCall (h : SemaInv s c) (hsched : SchedInv c) {stat : TaskStatus}
    {k : Kernel Queues} (htop : c.top = .threadBlockCall stat :: rest)
    (hk : OsKernel.threadBlock stat c.kernel = .ok k) :
    SemaInv s { c with
      kernel := k
      stack := Function.update c.stack c.kernel.running (.threadBlock c.kernel.intr :: rest) } :=
  h.switch c.history (hsched.threadBlock_returned hk) rfl (fun _ ht ha => Kernel.asleep_awake ht ha)
    (h.not_woken htop nofun nofun) rfl rfl rfl fun _ ht => ht

/-- `thread_unblock` called by the program. -/
theorem threadUnblock (h : SemaInv s c) (hsched : SchedInv c) {u : Tid} {k : Kernel Queues}
    (htop : c.top = .threadUnblock u :: rest) (hg : FrameGuard c (.threadUnblock u))
    (hk : OsKernel.threadUnblock u c.kernel = .ok k) :
    SemaInv s ({ c with kernel := k }.setStack rest) := by
  obtain ⟨hsync, hrunning, hstat, -⟩ := hsched.threadUnblock_returned hg hk
  apply h.frame
  · exact congrFun hsync.value s
  · rfl
  · rfl
  · exact fun t ht => ht
  · exact fun t ht => ht
  · exact fun t ht => Kernel.Awake.update hstat (.inl rfl) t (h.woken_awake t ht)
  · apply h.retests_of_ne (h.not_woken htop nofun nofun)
    intro t ht
    show Function.update c.stack k.running rest t = _
    rw [hrunning, Function.update_of_ne ht]

/-- `thread_start` called by the program: the new thread has not been woken. -/
theorem threadStart (h : SemaInv s c) (hsched : SchedInv c) {u : Tid} {prio : UInt8} {fn : P.Loc}
    {k : Kernel Queues} (htop : c.top = .threadStart u prio fn :: rest)
    (hnew : c.history.created u = false) (hk : OsKernel.threadStart u prio c.kernel = .ok k) :
    SemaInv s { c with
      kernel := k
      stack := Function.update (Function.update c.stack c.kernel.running rest) u
        [.kernelThread, .prog fn]
      history := { c.history with created := Function.update c.history.created u true } } := by
  obtain ⟨hsync, -, hstat, -⟩ := hsched.threadStart_returned hnew hk
  -- whoever has been woken was there before
  have hold : ∀ t, c.history.woken s t = true → t ≠ u := by
    rintro t ht rfl
    exact Bool.noConfusion ((h.woken_created t ht).symm.trans hnew)
  apply h.frame
  · exact congrFun hsync.value s
  · rfl
  · rfl
  · exact fun t ht => ht
  · intro t ht
    show Function.update c.history.created u true t = true
    rw [Function.update_apply]
    split
    · rfl
    · exact ht
  · exact fun t ht => Kernel.Awake.update hstat (.inl rfl) t (h.woken_awake t ht)
  · intro t ht
    show Retests s (Function.update (Function.update c.stack c.kernel.running rest) u _ t)
    rw [Function.update_of_ne (hold t ht)]
    have hret : Retests s ((c.setStack rest).stack t) :=
      h.retests_of_ne (h.not_woken htop nofun nofun) (fun t ht => Function.update_of_ne ht _ _) t ht
    exact hret

/-- A statement of the running thread. -/
theorem exec (h : SemaInv s c) (hsched : SchedInv c) {input : P.Input} (htop : c.top = f :: rest)
    (hg : FrameGuard c f) (hup : ∀ rest, c.top = .semaUp s :: rest →
      0 < c.history.downs s c.kernel.running)
    (he : OsKernel.exec input f rest c = .ok c') : SemaInv s c' := by
  cases hf : f.isLocal with
  | true =>
    have hl := exec_local hf he
    have hrest : ∀ t, c.history.woken s t = true → Retests s (c'.stack t) := by
      cases f with
      | threadBlock old =>
        -- a woken thread that runs again returns to the test in `sema_down`
        intro t ht
        by_cases hrun : t = c.kernel.running
        · have hr := h.woken_retests t ht
          subst hrun
          change Retests s c.top at hr
          rw [htop] at hr
          rcases hr with ⟨old', o, rest', heq⟩ | ⟨o, rest', heq⟩
          · cases heq
            cases he
            exact Or.inr ⟨o, rest', Function.update_self ..⟩
          · cases heq
        · rw [hl.stack t hrun]
          exact h.woken_retests t ht
      | semaDown s' o => cases hf
      | _ => exact h.retests_of_ne (h.not_woken htop nofun nofun) hl.stack
    apply h.frame (by rw [hl.value]) (by rw [hl.downs]) (by rw [hl.woken])
    · exact fun t ht => hl.waiting ▸ ht
    · exact fun t ht => hl.created.symm ▸ ht
    · exact fun t ht => (hl.awake t).mpr (h.woken_awake t ht)
    · exact hrest
  | false =>
    cases f with
    | threadBlockCall stat =>
      obtain ⟨k, hk, he⟩ := bind_eq_ok.mp he
      cases he
      exact h.threadBlockCall hsched htop hk
    | threadUnblock pthread =>
      obtain ⟨k, hk, he⟩ := bind_eq_ok.mp he
      cases he
      exact h.threadUnblock hsched htop hg hk
    | threadStart thread prio function =>
      obtain ⟨k, hk, he⟩ := bind_eq_ok.mp he
      cases he
      exact h.threadStart hsched htop hg.1 hk
    | semaDown s' o =>
      by_cases hs : s' = s
      · subst hs
        exact h.semaDownTest_self hsched he
      · exact h.semaDownTest_other hsched hs htop he
    | semaUp s' =>
      by_cases hs : s' = s
      · subst hs
        exact h.semaUp_self hsched htop (hup rest htop) he
      · exact h.semaUp_other hsched hs htop he
    | prog l => cases hf
    | kernelThread => cases hf
    | intrExit eflags => cases hf
    | threadBlock old => cases hf
    | semaDownCall s' => cases hf
    | lockAcquire plock pc => cases hf
    | lockRelease plock pc => cases hf

/-- While interrupts are on, the running thread is no woken one. -/
theorem not_woken_of_on (h : SemaInv s c) (hsched : SchedInv c) (hon : c.kernel.intr = .on) :
    c.history.woken s c.kernel.running = false := by
  cases hw : c.history.woken s c.kernel.running with
  | false => rfl
  | true =>
    have hr : Retests s c.top := h.woken_retests _ hw
    have hoff : c.kernel.intr = .off := by
      rcases hr with ⟨old, o, rest, heq⟩ | ⟨o, rest, heq⟩
      · exact hsched.top_off (.threadBlock old) (by rw [heq]; rfl) rfl
      · exact hsched.top_off (.semaDown s o) (by rw [heq]; rfl) rfl
    rw [hon] at hoff
    cases hoff

/-- **One event keeps the semaphore's invariant.** -/
theorem step (h : SemaInv s c) (hsched : SchedInv c) {e : Event P} (hg : SchedGuard c e)
    (hup : UpOk s c e) (hs : machineStep e c = some (.ok c')) : SemaInv s c' := by
  cases e with
  | exec input =>
    unfold machineStep at hs
    cases htop : c.top with
    | nil => rw [htop] at hs; cases hs
    | cons f rest =>
      rw [htop] at hs
      exact h.exec hsched htop (hg f (by rw [htop]; rfl)) hup (Option.some.inj hs)
  | timer =>
    unfold machineStep at hs
    dsimp only at hs
    split at hs
    · next hon =>
      obtain ⟨k, hk, hd, -⟩ := hsched.timer hon
      have he : timerInterrupt c = .ok c' := Option.some.inj hs
      unfold timerInterrupt at he
      rw [hk, ok_bind] at he
      cases he
      exact h.switch c.history hd rfl (fun _ _ ha => ha) (h.not_woken_of_on hsched hon) rfl rfl rfl
        (fun t ht => ht)
    · cases hs
  | device input =>
    unfold machineStep at hs
    dsimp only at hs
    split at hs
    · next hon =>
      split at hs
      · cases hs
      · cases hs
        apply h.frame
        · rfl
        · rfl
        · rfl
        · exact fun t ht => ht
        · exact fun t ht => ht
        · exact fun t ht => h.woken_awake t ht
        exact h.retests_of_ne (h.not_woken_of_on hsched hon)
          (fun t ht => Function.update_of_ne ht _ _)
    · cases hs

/-- `thread_init` with the semaphore at 1. -/
theorem boot (hb : Booted c) (hv : c.kernel.value s = 1) : SemaInv s c where
  permit := Or.inl ⟨hv, hb.downs s⟩
  woken_created t ht := by rw [hb.woken] at ht; cases ht
  woken_awake t ht := by rw [hb.woken] at ht; cases ht
  woken_retests t ht := by rw [hb.woken] at ht; cases ht
  wakeup _ t ht := by rw [hb.waiting] at ht; cases ht

/-- **Every reachable state satisfies the semaphore's invariant.** -/
theorem reach {init : Config Queues P → Prop} (hinit : ∀ c, init c → SchedInv c ∧ SemaInv s c)
    {guard : Config Queues P → Event P → Prop}
    (hguard : ∀ c e, guard c e → SchedGuard c e ∧ UpOk s c e) :
    ∀ c, (machine init).Reach guard c → SchedInv c ∧ SemaInv s c :=
  System.Reach.invariant hinit fun c e _ _ hinv hg hs =>
    ⟨hinv.1.step (hguard c e hg).1 hs, hinv.2.step hinv.1 (hguard c e hg).1 (hguard c e hg).2 hs⟩

end SemaInv

/-! ## On list.c's pointers -/

/-- What the semaphore's value, its wait list and the threads say together. -/
structure SemaSafe (s : SemaRef) (c : Config (LinkHeap ElemAddr) P) (Q : Queues) : Prop where
  lists : ListsAgree c Q
  value : c.kernel.value s = 0 ∨ c.kernel.value s = 1
  nodup : (Q (.waiters s)).Nodup
  waiters : ∀ e, e ∈ Q (.waiters s) ↔ ∃ t, e = .generalTag t ∧ c.history.waiting s t = true
  waiting : ∀ t, c.history.waiting s t = true →
    c.kernel.status t = .blocked ∧ SleepsIn s (c.stack t)
  wakeup : c.kernel.value s = 1 → Q (.waiters s) ≠ [] →
    ∃ t, c.history.woken s t = true ∧ Retests s (c.stack t) ∧
      (t = c.kernel.running ∨ .generalTag t ∈ Q .ready)

theorem SemaInv.safe {s : SemaRef} {a : Config Queues P} (h : SemaInv s a) (hsched : SchedInv a)
    {heap : LinkHeap ElemAddr} (hr : Holds heap a.kernel.lists) :
    SemaSafe s (a.withLists heap) a.kernel.lists where
  lists := hsched.listsAgree hr
  value := h.permit.symm.imp And.left And.left
  nodup := hsched.partition.nodup _
  waiters := hsched.partition.waiters_iff s
  waiting t ht := ⟨(hsched.partition.waiting_blocked s t ht).2, hsched.waiting_sleeps s t ht⟩
  wakeup hv hne := by
    obtain ⟨e, es, hq⟩ := List.exists_cons_of_ne_nil hne
    obtain ⟨t, -, hw⟩ := hsched.partition.waiters_head hq
    obtain ⟨u, hu⟩ := h.wakeup hv t hw
    refine ⟨u, hu, h.woken_retests u hu, ?_⟩
    have hc := h.woken_created u hu
    rcases h.woken_awake u hu with hready | hrunning
    · exact Or.inr ((hsched.partition.ready_iff _).mpr ⟨u, rfl, hc, hready⟩)
    · exact Or.inl (Option.some.inj ((hsched.partition.running_iff u hc).mp hrunning)).symm

/-- **No lost wake-up.** In every state reached from `thread_init` with the semaphore at 1, its
value is 0 or 1, its wait list holds exactly the threads that blocked on it and were not popped
since, each once, and while it is free and somebody waits, a thread that `sema_up` popped is
running or ready and has yet to test the value. -/
theorem no_lost_wakeup (s : SemaRef) {c : Config (LinkHeap ElemAddr) P}
    (hc : (machine fun c => Booted c ∧ c.kernel.value s = 1).Reach
      (fun c e => SchedGuard c e ∧ UpOk s c e) c) :
    ∃ Q, SemaSafe s c Q := by
  let guard : Config Queues P → Event P → Prop := fun a e => SchedGuard a e ∧ UpOk s a e
  have hinit : ∀ c : Config (LinkHeap ElemAddr) P, Booted c ∧ c.kernel.value s = 1 →
      ∃ a : Config Queues P, (Booted a ∧ a.kernel.value s = 1) ∧ ConfigRel c a := by
    rintro c ⟨hb, hv⟩
    obtain ⟨a, ha, hrel⟩ := booted_agree hb
    obtain ⟨h, rfl, -⟩ := id hrel
    exact ⟨a, ⟨ha, hv⟩, hrel⟩
  obtain ⟨a, hreach, hsched, h, rfl, hr⟩ := heap_reach guard (fun a h e hg => hg)
    (fun a e hg => hg.1) hinit (fun a ha => SchedInv.boot ha.1) hc
  have hinv := SemaInv.reach (fun a ha => ⟨SchedInv.boot ha.1, SemaInv.boot ha.1 ha.2⟩)
    (fun _ _ hg => hg) a hreach
  exact ⟨_, hinv.2.safe hsched hr⟩

/-- Two threads wait, the semaphore is free and the first of them has been woken. -/
theorem no_lost_wakeup_handover :
    ∃ c : Config (LinkHeap ElemAddr) (scripted [.threadStart 2 31 8, .threadStart 3 31 6,
        .semaDown 0, .semaDown 1, .semaUp 0, .semaDown 0, .semaUp 1, .semaDown 0, .semaDown 0]),
      c.kernel.value (.bare 0) = 1 ∧ c.history.waiting (.bare 0) 3 = true ∧
        c.history.woken (.bare 0) 2 = true ∧ ∃ Q, SemaSafe (.bare 0) c Q := by
  have h : (machine fun c => Booted c ∧ c.kernel.value (.bare 0) = 1).Reach
      (fun c e => SchedGuard c e ∧ UpOk (.bare 0) c e) _ := .init ⟨bootConfig_booted
    (H := LinkHeap ElemAddr) (P := scripted [.threadStart 2 31 8, .threadStart 3 31 6,
        .semaDown 0, .semaDown 1, .semaUp 0, .semaDown 0, .semaUp 1, .semaDown 0, .semaDown 0])
    1 .off (fun s => if s = .bare 1 then 0 else 1) () (0 : Nat) rfl, rfl⟩
  have h := h.step (e := .exec ()) ⟨by rintro f ⟨⟩; trivial, by rintro r ⟨⟩⟩ rfl
  have h := h.step (e := .exec ()) ⟨by rintro f ⟨⟩; exact ⟨rfl, rfl⟩, by rintro r ⟨⟩⟩ rfl
  have h := h.step (e := .exec ()) ⟨by rintro f ⟨⟩; trivial, by rintro r ⟨⟩⟩ rfl
  have h := h.step (e := .exec ()) ⟨by rintro f ⟨⟩; exact ⟨rfl, rfl⟩, by rintro r ⟨⟩⟩ rfl
  -- the main thread takes the semaphore and sleeps on another one
  have h := h.step (e := .exec ()) ⟨by rintro f ⟨⟩; trivial, by rintro r ⟨⟩⟩ rfl
  have h := h.step (e := .exec ()) ⟨by rintro f ⟨⟩; trivial, by rintro r ⟨⟩⟩ rfl
  have h := h.step (e := .exec ()) ⟨by rintro f ⟨⟩; trivial, by rintro r ⟨⟩⟩ rfl
  have h := h.step (e := .exec ()) ⟨by rintro f ⟨⟩; trivial, by rintro r ⟨⟩⟩ rfl
  have h := h.step (e := .exec ()) ⟨by rintro f ⟨⟩; trivial, by rintro r ⟨⟩⟩ rfl
  have h := h.step (e := .exec ()) ⟨by rintro f ⟨⟩; trivial, by rintro r ⟨⟩⟩ rfl
  -- thread 2 waits
  have h := h.step (e := .exec ()) ⟨by rintro f ⟨⟩; trivial, by rintro r ⟨⟩⟩ rfl
  have h := h.step (e := .exec ()) ⟨by rintro f ⟨⟩; trivial, by rintro r ⟨⟩⟩ rfl
  have h := h.step (e := .exec ()) ⟨by rintro f ⟨⟩; trivial, by rintro r ⟨⟩⟩ rfl
  have h := h.step (e := .exec ()) ⟨by rintro f ⟨⟩; trivial, by rintro r ⟨⟩⟩ rfl
  -- thread 3 wakes the main thread and waits
  have h := h.step (e := .exec ()) ⟨by rintro f ⟨⟩; trivial, by rintro r ⟨⟩⟩ rfl
  have h := h.step (e := .exec ()) ⟨by rintro f ⟨⟩; trivial, by rintro r ⟨⟩⟩ rfl
  have h := h.step (e := .exec ()) ⟨by rintro f ⟨⟩; trivial, by rintro r ⟨⟩⟩ rfl
  have h := h.step (e := .exec ()) ⟨by rintro f ⟨⟩; trivial, by rintro r ⟨⟩⟩ rfl
  have h := h.step (e := .exec ()) ⟨by rintro f ⟨⟩; trivial, by rintro r ⟨⟩⟩ rfl
  have h := h.step (e := .exec ()) ⟨by rintro f ⟨⟩; trivial, by rintro r ⟨⟩⟩ rfl
  -- the main thread gives the semaphore back
  have h := h.step (e := .exec ()) ⟨by rintro f ⟨⟩; trivial, by rintro r ⟨⟩⟩ rfl
  have h := h.step (e := .exec ()) ⟨by rintro f ⟨⟩; trivial, by rintro r ⟨⟩⟩ rfl
  have h := h.step (e := .exec ()) ⟨by rintro f ⟨⟩; trivial, by rintro r ⟨⟩⟩ rfl
  have h := h.step (e := .exec ()) ⟨by rintro f ⟨⟩; trivial, by rintro r ⟨⟩; decide⟩ rfl
  exact ⟨_, rfl, rfl, rfl, no_lost_wakeup (.bare 0) h⟩

end OsKernel
