import OsKernel.Thread.Machine
import OsKernel.Thread.SchedulerSpec

/-!
# The scheduler's invariant over whole runs

`SchedInv` holds between any two events of the machine over the abstract store of lists: the
threads are partitioned by status and list, the call stacks are well formed, and a thread is in
the wait list of a semaphore exactly when it sleeps in `sema_down` on it and has not been woken.

- `Calls`: which frame may stand above which.
- `semaDownTest_zero`, `semaDownTest_one`, `semaUp_spec`: what the semaphore operations do.
- `SchedInv.next`: the common part of all steps of the running thread.
- `SchedInv.step`, `SchedInv.reach`: one event, and every run.
-/

namespace OsKernel

open Lib

variable {P : Program}

/-! ## Call stacks -/

/-- While a frame of this kind is the running thread's top frame, interrupts are off. -/
def Frame.runsOff {Loc : Type} : Frame Loc → Bool
  | .kernelThread | .threadBlock _ | .semaDown .. => true
  | _ => false

/-- The frames that call `sema_down` on a semaphore. -/
def SemaRef.CalledFrom {Loc : Type} : SemaRef → Frame Loc → Prop
  | .inLock plock, g => g = .lockAcquire plock .setHolder
  | .bare _, g => ∃ l, g = .prog l

/-- `f` may stand above `g`: `g` has called `f`, or `f` belongs to an interrupt of `g`. -/
def Calls {Loc : Type} (f g : Frame Loc) : Prop :=
  match f with
  | .intrExit _ => g.runsOff = false
  | .prog _ => (∃ l, g = .prog l) ∨ ∃ eflags, g = .intrExit eflags
  | .threadBlock oldStatus => (∃ l, g = .prog l) ∨ ∃ s o, g = .semaDown s o ∧ oldStatus = .off
  | .semaDownCall s | .semaDown s _ => s.CalledFrom g
  | _ => ∃ l, g = .prog l

/-- The stack of a thread that has called `schedule` from `sema_down` on `s`. -/
def SleepsIn {Loc : Type} (s : SemaRef) (st : List (Frame Loc)) : Prop :=
  ∃ old o rest, st = .threadBlock old :: .semaDown s o :: rest

/-- Frames that a frame of the program or of sync.c returns to may be interrupted. -/
theorem Calls.runsOff {Loc : Type} {f g : Frame Loc} (h : Calls f g)
    (hf : ∀ old, f ≠ .threadBlock old) : g.runsOff = false := by
  cases f with
  | threadBlock old => exact absurd rfl (hf old)
  | intrExit _ => exact h
  | prog _ =>
    rcases h with ⟨l, rfl⟩ | ⟨e, rfl⟩
    · rfl
    · rfl
  | semaDownCall s =>
    cases s with
    | inLock plock => cases h; rfl
    | bare psema => obtain ⟨l, rfl⟩ := h; rfl
  | semaDown s o =>
    cases s with
    | inLock plock => cases h; rfl
    | bare psema => obtain ⟨l, rfl⟩ := h; rfl
  | _ => obtain ⟨l, rfl⟩ := h; rfl

/-- A return from anything but `thread_block` never ends in a frame that needs interrupts off. -/
theorem not_runsOff_of_return {Loc : Type} {f : Frame Loc} {rest : List (Frame Loc)} {p : Prop}
    (h : (f :: rest).IsChain Calls) (hf : ∀ old, f ≠ .threadBlock old) :
    ∀ g ∈ rest.head?, g.runsOff = true → p := by
  cases rest with
  | nil => simp
  | cons g rest =>
    intro g' hg' hoff
    cases hg'
    have := (List.isChain_cons_cons.mp h).1.runsOff hf
    rw [hoff] at this
    cases this

/-- A frame may be replaced by one with at least as many possible callers. -/
theorem isChain_replace {Loc : Type} {f f' : Frame Loc} {rest : List (Frame Loc)}
    (h : (f :: rest).IsChain Calls) (hle : ∀ g, Calls f g → Calls f' g) :
    (f' :: rest).IsChain Calls := by
  cases rest with
  | nil => exact .singleton f'
  | cons g rest =>
    rw [List.isChain_cons_cons] at h ⊢
    exact ⟨hle g h.1, h.2⟩

/-! ## The invariant -/

/-- What holds between any two events. -/
structure SchedInv (c : Config Queues P) : Prop where
  partition : Partition c.kernel.lists c.kernel.status c.history.created c.history.waiting
    (some c.kernel.running)
  running_created : c.history.created c.kernel.running = true
  magic : ∀ t, c.history.created t = true → (c.kernel.task t).stackMagic = 0x12345678
  fresh : ∀ t, c.history.created t = false → c.stack t = []
  calls : ∀ t, (c.stack t).IsChain Calls
  top_off : ∀ f ∈ c.top.head?, f.runsOff = true → c.kernel.intr = .off
  waiting_sleeps : ∀ s t, c.history.waiting s t = true → SleepsIn s (c.stack t)
  sleeps_waiting : ∀ s t, SleepsIn s (c.stack t) →
    c.kernel.Awake t ∨ c.history.waiting s t = true

namespace SchedInv

variable {c c' : Config Queues P}

theorem running_status (h : SchedInv c) : c.kernel.status c.kernel.running = .running :=
  (h.partition.running_iff _ h.running_created).mpr rfl

/-- The running thread waits on no semaphore. -/
theorem running_not_waiting (h : SchedInv c) (s : SemaRef) :
    c.history.waiting s c.kernel.running = false := by
  apply h.partition.not_waiting
  rw [h.running_status]
  exact nofun

/-- The part all steps of the running thread share: only its own stack changes, and the new
partition and the new waiting threads fit the new stack. -/
theorem next (h : SchedInv c) (st : List (Frame P.Loc))
    (hpart : Partition c'.kernel.lists c'.kernel.status c'.history.created c'.history.waiting
      (some c'.kernel.running))
    (hcreated : c'.history.created c'.kernel.running = true)
    (hmagic : ∀ t, c'.history.created t = true → (c'.kernel.task t).stackMagic = 0x12345678)
    (hmono : ∀ t, c.history.created t = true → c'.history.created t = true)
    (hstack : c'.stack = Function.update c.stack c.kernel.running st)
    (hcalls : st.IsChain Calls)
    (hoff : ∀ f ∈ c'.top.head?, f.runsOff = true → c'.kernel.intr = .off)
    (hwait : ∀ s t, c'.history.waiting s t = true →
      c.history.waiting s t = true ∨ (t = c.kernel.running ∧ SleepsIn s st))
    (hkeep : ∀ s t, c.history.waiting s t = true →
      c'.kernel.Awake t ∨ c'.history.waiting s t = true)
    (hawake : ∀ t, t ≠ c.kernel.running → c.kernel.Awake t → c'.kernel.Awake t)
    (hself : ∀ s, SleepsIn s st →
      c'.kernel.Awake c.kernel.running ∨ c'.history.waiting s c.kernel.running = true) :
    SchedInv c' where
  partition := hpart
  running_created := hcreated
  magic := hmagic
  fresh t ht := by
    cases hc : c.history.created t with
    | true =>
      rw [hmono t hc] at ht
      cases ht
    | false =>
      have hne : t ≠ c.kernel.running := by
        rintro rfl
        rw [h.running_created] at hc
        cases hc
      rw [hstack, Function.update_of_ne hne]
      exact h.fresh t hc
  calls t := by
    rw [hstack, Function.update_apply]
    split
    · exact hcalls
    · exact h.calls t
  top_off := hoff
  waiting_sleeps s t hw := by
    rw [hstack, Function.update_apply]
    split
    · next ht =>
      rcases hwait s t hw with hold | ⟨-, hsleep⟩
      · rw [ht, h.running_not_waiting s] at hold
        cases hold
      · exact hsleep
    · next ht =>
      rcases hwait s t hw with hold | ⟨heq, -⟩
      · exact h.waiting_sleeps s t hold
      · exact absurd heq ht
  sleeps_waiting s t hsleep := by
    rw [hstack, Function.update_apply] at hsleep
    split at hsleep
    · next ht => exact ht ▸ hself s hsleep
    · next ht =>
      rcases h.sleeps_waiting s t hsleep with ha | hw
      · exact Or.inl (hawake t ht ha)
      · exact hkeep s t hw

/-- A step that touches neither the lists nor any PCB nor the record of who waits. -/
theorem local_step (h : SchedInv c) {st : List (Frame P.Loc)} {k : Kernel Queues} {m : P.Mem}
    {hist : History} (hlists : k.lists = c.kernel.lists) (htask : k.task = c.kernel.task)
    (hrun : k.running = c.kernel.running) (hcreated : hist.created = c.history.created)
    (hwaiting : hist.waiting = c.history.waiting) (hcalls : st.IsChain Calls)
    (hoff : ∀ f ∈ st.head?, f.runsOff = true → k.intr = .off) :
    SchedInv { kernel := k, mem := m, history := hist,
               stack := Function.update c.stack c.kernel.running st } := by
  have hstat : k.status = c.kernel.status := by
    funext t
    unfold Kernel.status
    rw [htask]
  have hawake : ∀ t, c.kernel.Awake t → k.Awake t := by
    intro t ht
    unfold Kernel.Awake
    rw [hstat]
    exact ht
  apply h.next st
  · show Partition k.lists k.status hist.created hist.waiting (some k.running)
    rw [hlists, hstat, hrun, hcreated, hwaiting]
    exact h.partition
  · show hist.created k.running = true
    rw [hcreated, hrun]
    exact h.running_created
  · show ∀ t, hist.created t = true → (k.task t).stackMagic = _
    rw [hcreated, htask]
    exact h.magic
  · exact fun t ht => hcreated.symm ▸ ht
  · rfl
  · exact hcalls
  · show ∀ f ∈ (Function.update c.stack c.kernel.running st k.running).head?, _
    rw [hrun, Function.update_self]
    exact hoff
  · intro s t hw
    exact Or.inl (hwaiting ▸ hw)
  · intro s t hw
    exact Or.inr (hwaiting.symm ▸ hw)
  · exact fun t _ => hawake t
  · exact fun s _ => Or.inl (hawake _ (Or.inr h.running_status))

/-- A step that ends in `schedule`, with interrupts off. -/
theorem switch_step (h : SchedInv c) {st : List (Frame P.Loc)} {k₁ k : Kernel Queues}
    {waiting : SemaRef → Tid → Bool} (hd : Dispatched c.history.created waiting k₁ k)
    (hoff : k₁.intr = .off) (hcalls : st.IsChain Calls)
    (hmagic : ∀ t, (k₁.task t).stackMagic = (c.kernel.task t).stackMagic)
    (hawake : ∀ t, t ≠ c.kernel.running → c.kernel.Awake t → k₁.Awake t)
    (hwait : ∀ s t, waiting s t = true →
      c.history.waiting s t = true ∨ (t = c.kernel.running ∧ SleepsIn s st))
    (hkeep : ∀ s t, c.history.waiting s t = true → waiting s t = true)
    (hself : ∀ s, SleepsIn s st → waiting s c.kernel.running = true)
    {hist : History} (hcreated : hist.created = c.history.created)
    (hwaiting : hist.waiting = waiting) :
    SchedInv { c with kernel := k, history := hist,
                      stack := Function.update c.stack c.kernel.running st } := by
  subst hwaiting
  apply h.next st
  · show Partition k.lists k.status hist.created hist.waiting (some k.running)
    rw [hcreated]
    exact hd.partition
  · show hist.created k.running = true
    rw [hcreated]
    exact hd.running_created
  · show ∀ t, hist.created t = true → (k.task t).stackMagic = _
    rw [hcreated]
    exact fun t ht => ((hd.magic t).trans (hmagic t)).trans (h.magic t ht)
  · exact fun t ht => hcreated.symm ▸ ht
  · rfl
  · exact hcalls
  · exact fun f _ _ => hd.sync.intr.trans hoff
  · exact hwait
  · exact fun s t hw => Or.inr (hkeep s t hw)
  · exact fun t ht ha => hd.awake t (hawake t ht ha)
  · exact fun s hs => Or.inr (hself s hs)

end SchedInv

/-! ## The semaphore operations on a configuration -/

/-- `c` after its running thread went to sleep in `sema_down`; `k` is the kernel after the
switch. -/
def Config.slept (c : Config Queues P) (s : SemaRef) (o : IntrStatus)
    (rest : List (Frame P.Loc)) (k : Kernel Queues) : Config Queues P :=
  let t := c.kernel.running
  { c with
    kernel := k
    stack := Function.update c.stack t (.threadBlock c.kernel.intr :: .semaDown s o :: rest)
    history := { c.history with
      woken := update₂ c.history.woken s t false
      waiting := update₂ c.history.waiting s t true } }

/-- `c` after its running thread took the semaphore. -/
def Config.lowered (c : Config Queues P) (s : SemaRef) (o : IntrStatus)
    (rest : List (Frame P.Loc)) : Config Queues P :=
  let t := c.kernel.running
  { c with
    kernel := { c.kernel with value := Function.update c.kernel.value s 0, intr := o }
    stack := Function.update c.stack t rest
    history := { c.history with
      woken := update₂ c.history.woken s t false
      downs := update₂ c.history.downs s t (c.history.downs s t + 1) } }

/-- `c` after `sema_up` with nobody waiting. -/
def Config.raised (c : Config Queues P) (s : SemaRef) (rest : List (Frame P.Loc)) :
    Config Queues P :=
  let t := c.kernel.running
  { c with
    kernel := { c.kernel with value := Function.update c.kernel.value s 1 }
    stack := Function.update c.stack t rest
    history := { c.history with
      downs := update₂ c.history.downs s t (c.history.downs s t - 1) } }

/-- `c` after `sema_up` popped `u`; `k` is the kernel after `thread_unblock`. -/
def Config.raisedWaking (c : Config Queues P) (s : SemaRef) (rest : List (Frame P.Loc)) (u : Tid)
    (k : Kernel Queues) : Config Queues P :=
  let t := c.kernel.running
  { c with
    kernel := { k with value := Function.update k.value s 1 }
    stack := Function.update c.stack t rest
    history := { c.history with
      downs := update₂ c.history.downs s t (c.history.downs s t - 1)
      waiting := update₂ c.history.waiting s u false
      woken := update₂ c.history.woken s u true } }

section

variable {c : Config Queues P} (s : SemaRef) (o : IntrStatus) (rest : List (Frame P.Loc))

/-- **The test in `sema_down` with value 0.** The thread joins the wait list and sleeps, or the
last assertion of `schedule` fails. -/
theorem semaDownTest_zero (h : SchedInv c) (hv : c.kernel.value s = 0) :
    (c.kernel.lists .ready = [] ∧ semaDownTest s o rest c = .error .scheduleReadyEmpty) ∨
    ∃ k, semaDownTest s o rest c = .ok (c.slept s o rest k) ∧
      k.running ≠ c.kernel.running ∧
      Dispatched c.history.created (update₂ c.history.waiting s c.kernel.running true)
        ((c.kernel.joined s).asleep .blocked) k := by
  have hnot : ElemAddr.generalTag c.kernel.running ∉ c.kernel.lists (.waiters s) := by
    intro hmem
    have hw := h.partition.mem_waiters hmem
    rw [h.running_not_waiting] at hw
    cases hw
  have htest : semaDownTest s o rest c =
      (threadBlock .blocked (c.kernel.joined s) >>= fun k => .ok (c.slept s o rest k)) := by
    unfold semaDownTest
    simp only [hv, if_true, Queues.elemFind_eq, hnot, decide_false, Bool.not_false, assert_true,
      ok_bind, Queues.listAppend_eq]
    rfl
  rw [htest]
  rcases threadBlock_waiter s h.partition h.running_created with ⟨hnil, herr⟩ | ⟨k, hk, hrest⟩
  · exact Or.inl ⟨hnil, by rw [herr, error_bind]⟩
  · exact Or.inr ⟨k, by rw [hk, ok_bind], hrest⟩

/-- The test in `sema_down` with another value. -/
theorem semaDownTest_pos (hv : c.kernel.value s ≠ 0) :
    semaDownTest s o rest c =
      if c.kernel.value s = 1 then .ok (c.lowered s o rest) else .error .semaDownValue := by
  unfold semaDownTest
  simp only [hv, if_false]
  by_cases h1 : c.kernel.value s = 1
  · simp [h1, Config.lowered]
  · have hne : c.kernel.value s - 1 ≠ 0 := by
      intro h0
      exact h1 (by rw [← UInt8.sub_add_cancel (c.kernel.value s) 1, h0, UInt8.zero_add])
    simp [h1, hne]

/-- `sema_up` fails its first assertion or none. -/
theorem semaUp_pos (hv : c.kernel.value s ≠ 0) : semaUp s rest c = .error .semaUpZero := by
  simp [semaUp, hv]

/-- **`sema_up` with value 0.** It pops the first waiter, if there is one. -/
theorem semaUp_zero (h : SchedInv c) (hv : c.kernel.value s = 0) :
    (c.kernel.lists (.waiters s) = [] ∧ semaUp s rest c = .ok (c.raised s rest)) ∨
    ∃ u k, c.history.waiting s u = true ∧ semaUp s rest c = .ok (c.raisedWaking s rest u k) ∧
      SyncUnchanged c.kernel k ∧ k.running = c.kernel.running ∧
      k.status = Function.update c.kernel.status u .ready ∧
      (∀ t, (k.task t).stackMagic = (c.kernel.task t).stackMagic) ∧
      Partition k.lists k.status c.history.created (update₂ c.history.waiting s u false)
        (some c.kernel.running) := by
  cases hq : c.kernel.lists (.waiters s) with
  | nil =>
    left
    refine ⟨rfl, ?_⟩
    simp [semaUp, semaUpWake, hv, hq, Config.raised]
  | cons e es =>
    right
    obtain ⟨u, he, hw⟩ := h.partition.waiters_head hq
    have hpop := Queues.listPop_cons hq
    obtain ⟨hcu, hbu⟩ := h.partition.waiting_blocked s u hw
    -- the popped thread is blocked and waits nowhere else, so `thread_unblock` returns
    have hp := h.partition.popWaiter hq he
    rcases threadUnblock_spec (u := u)
        (k := { c.kernel with lists := Function.update c.kernel.lists (.waiters s) es })
        hp hcu (h.partition.popWaiter_free hw) with ⟨hnb, -⟩ | ⟨k, hk, hsync, hrun, hstat, hmagic, hp'⟩
    · have hst : c.kernel.status u = .blocked := hbu
      change (c.kernel.status u).isBlocked = false at hnb
      rw [hst] at hnb
      cases hnb
    · refine ⟨u, k, hw, ?_, ⟨hsync.intr, hsync.value, hsync.holder, hsync.holderRepeatNr⟩, hrun,
        hstat, hmagic, hp'⟩
      have hval : k.value s = 0 := by rw [hsync.value]; exact hv
      simp only [semaUp, semaUpWake, hv, decide_true, assert_true, ok_bind, Queues.listEmpty_eq, hq,
        reduceCtorEq, decide_false, Bool.not_false, if_true, hpop, he, elem2entry, hk, pure_eq_ok,
        hval, Config.raisedWaking]
      rfl

end

/-! ## Statements that stay within their thread -/

/-- The statement changes no list, no PCB and no semaphore. -/
def Frame.isLocal {Loc : Type} : Frame Loc → Bool
  | .threadBlockCall _ | .threadUnblock _ | .threadStart .. | .semaDown .. | .semaUp _ => false
  | _ => true

/-- What a local statement leaves alone. -/
structure LocalStep {H : Type} (c c' : Config H P) : Prop where
  lists : c'.kernel.lists = c.kernel.lists
  task : c'.kernel.task = c.kernel.task
  running : c'.kernel.running = c.kernel.running
  value : c'.kernel.value = c.kernel.value
  created : c'.history.created = c.history.created
  downs : c'.history.downs = c.history.downs
  waiting : c'.history.waiting = c.history.waiting
  woken : c'.history.woken = c.history.woken
  stack : ∀ t, t ≠ c.kernel.running → c'.stack t = c.stack t

theorem LocalStep.awake {H : Type} {c c' : Config H P} (h : LocalStep c c') (t : Tid) :
    c'.kernel.Awake t ↔ c.kernel.Awake t := by
  unfold Kernel.Awake Kernel.status
  rw [h.task]

theorem setStack_local {H : Type} {c : Config H P} {k : Kernel H} {m : P.Mem} {hist : History}
    {st : List (Frame P.Loc)} (hlists : k.lists = c.kernel.lists) (htask : k.task = c.kernel.task)
    (hrun : k.running = c.kernel.running) (hvalue : k.value = c.kernel.value)
    (hcreated : hist.created = c.history.created) (hdowns : hist.downs = c.history.downs)
    (hwaiting : hist.waiting = c.history.waiting) (hwoken : hist.woken = c.history.woken) :
    LocalStep c ({ c with kernel := k, mem := m, history := hist }.setStack st) where
  lists := hlists
  task := htask
  running := hrun
  value := hvalue
  created := hcreated
  downs := hdowns
  waiting := hwaiting
  woken := hwoken
  stack t ht := by
    show Function.update c.stack k.running st t = _
    rw [hrun, Function.update_of_ne ht]

theorem exec_local {H : Type} [TaskLists H] {c c' : Config H P} {input : P.Input}
    {f : Frame P.Loc} {rest : List (Frame P.Loc)} (hf : f.isLocal = true)
    (he : exec input f rest c = .ok c') : LocalStep c c' := by
  cases f with
  | threadBlockCall _ => cases hf
  | threadUnblock _ => cases hf
  | threadStart _ _ _ => cases hf
  | semaDown _ _ => cases hf
  | semaUp _ => cases hf
  | kernelThread => cases he; exact setStack_local rfl rfl rfl rfl rfl rfl rfl rfl
  | intrExit _ => cases he; exact setStack_local rfl rfl rfl rfl rfl rfl rfl rfl
  | threadBlock _ => cases he; exact setStack_local rfl rfl rfl rfl rfl rfl rfl rfl
  | semaDownCall _ => cases he; exact setStack_local rfl rfl rfl rfl rfl rfl rfl rfl
  | prog l =>
    change execProg _ rest c = .ok c' at he
    cases hact : P.step input c.kernel.running c.kernel.intr c.mem l with
    | panic p => rw [hact] at he; cases he
    | _ =>
      rw [hact] at he
      cases he
      exact setStack_local rfl rfl rfl rfl rfl rfl rfl rfl
  | lockAcquire plock pc =>
    change lockAcquire plock pc rest c = .ok c' at he
    cases pc with
    | test =>
      unfold lockAcquire at he
      dsimp only at he
      split at he <;> cases he <;> exact setStack_local rfl rfl rfl rfl rfl rfl rfl rfl
    | assertRepeatNr =>
      obtain ⟨-, -, he⟩ := bind_eq_ok.mp he
      cases he
      exact setStack_local rfl rfl rfl rfl rfl rfl rfl rfl
    | _ => cases he; exact setStack_local rfl rfl rfl rfl rfl rfl rfl rfl
  | lockRelease plock pc =>
    change lockRelease plock pc rest c = .ok c' at he
    cases pc with
    | test =>
      unfold lockRelease at he
      dsimp only at he
      split at he <;> cases he <;> exact setStack_local rfl rfl rfl rfl rfl rfl rfl rfl
    | assertHolder =>
      obtain ⟨-, -, he⟩ := bind_eq_ok.mp he
      cases he
      exact setStack_local rfl rfl rfl rfl rfl rfl rfl rfl
    | assertRepeatNr =>
      obtain ⟨-, -, he⟩ := bind_eq_ok.mp he
      cases he
      exact setStack_local rfl rfl rfl rfl rfl rfl rfl rfl
    | _ => cases he; exact setStack_local rfl rfl rfl rfl rfl rfl rfl rfl

/-! ## One event -/

/-- What the caller of a function of thread.c promises. `thread_start` gets the page of no thread
and is called with interrupts off; `thread_unblock` is not used on a thread in a wait list. -/
def FrameGuard {H : Type} (c : Config H P) : Frame P.Loc → Prop
  | .threadStart thread _ _ => c.history.created thread = false ∧ c.kernel.intr = .off
  | .threadUnblock pthread =>
    c.history.created pthread = true ∧ ∀ s, c.history.waiting s pthread = false
  | _ => True

/-- The promise for the next event. -/
def SchedGuard {H : Type} (c : Config H P) : Event P → Prop
  | .exec _ => ∀ f ∈ c.top.head?, FrameGuard c f
  | _ => True

/-- A test for the promise, for runs without `thread_unblock` by the program. -/
def schedCheck {H : Type} (c : Config H P) : Event P → Bool
  | .exec _ =>
    match c.top.head? with
    | some (.threadStart thread _ _) => !c.history.created thread && c.kernel.intr == .off
    | some (.threadUnblock _) => false
    | _ => true
  | _ => true

theorem schedCheck_guard {H : Type} (c : Config H P) (e : Event P) (h : schedCheck c e = true) :
    SchedGuard c e := by
  cases e with
  | exec input =>
    intro f hf
    unfold schedCheck at h
    rw [hf] at h
    cases f with
    | threadStart thread prio function => simpa [FrameGuard] using h
    | threadUnblock pthread => cases h
    | _ => trivial
  | timer => trivial
  | device input => trivial

namespace SchedInv

variable {c c' : Config Queues P} {f : Frame P.Loc} {rest : List (Frame P.Loc)}

/-- The running thread's top frame goes away or is replaced; what is then on top may be
interrupted or interrupts are off. -/
theorem setStack (h : SchedInv c) {st : List (Frame P.Loc)} {k : Kernel Queues} {m : P.Mem}
    {hist : History} (hlists : k.lists = c.kernel.lists) (htask : k.task = c.kernel.task)
    (hrun : k.running = c.kernel.running) (hcreated : hist.created = c.history.created)
    (hwaiting : hist.waiting = c.history.waiting) (hcalls : st.IsChain Calls)
    (hoff : ∀ f ∈ st.head?, f.runsOff = true → k.intr = .off) :
    SchedInv ({ c with kernel := k, mem := m, history := hist }.setStack st) := by
  unfold Config.setStack
  show SchedInv { kernel := k, mem := m, history := hist,
                  stack := Function.update c.stack k.running st }
  rw [hrun]
  exact h.local_step hlists htask hrun hcreated hwaiting hcalls hoff

/-- A statement of the program. -/
theorem execProg (h : SchedInv c) {l : P.Loc} (htop : c.top = .prog l :: rest)
    {act : Action P.Mem P.Loc} (he : OsKernel.execProg act rest c = .ok c') : SchedInv c' := by
  have hchain : (.prog l :: rest).IsChain Calls := htop ▸ h.calls c.kernel.running
  have hprog : ∀ l', (Frame.prog l' :: rest).IsChain Calls :=
    fun l' => isChain_replace hchain fun _ hg => hg
  cases act with
  | goto m l' =>
    cases he
    exact h.setStack rfl rfl rfl rfl rfl (hprog l') (by simp [Frame.runsOff])
  | setIntr status l' =>
    cases he
    exact h.setStack rfl rfl rfl rfl rfl (hprog l') (by simp [Frame.runsOff])
  | call m f l' =>
    cases he
    have hcall : Calls f.frame (Frame.prog l') := by
      cases f <;> exact ⟨l', rfl⟩
    have hoff : f.frame.runsOff = false := by cases f <;> rfl
    exact h.setStack rfl rfl rfl rfl rfl (List.isChain_cons_cons.mpr ⟨hcall, hprog l'⟩)
      (by simp [hoff])
  | enter m callee l' =>
    cases he
    exact h.setStack rfl rfl rfl rfl rfl
      (List.isChain_cons_cons.mpr ⟨Or.inl ⟨l', rfl⟩, hprog l'⟩) (by simp [Frame.runsOff])
  | ret m =>
    cases he
    exact h.setStack rfl rfl rfl rfl rfl hchain.tail (not_runsOff_of_return hchain nofun)
  | panic p => cases he

/-- A statement of `lock_acquire`. -/
theorem lockAcquire (h : SchedInv c) {plock : Nat} {pc : AcquirePc}
    (htop : c.top = .lockAcquire plock pc :: rest)
    (he : OsKernel.lockAcquire plock pc rest c = .ok c') : SchedInv c' := by
  have hchain : (.lockAcquire plock pc :: rest).IsChain Calls := htop ▸ h.calls c.kernel.running
  have hnext : ∀ pc', (Frame.lockAcquire plock pc' :: rest).IsChain Calls :=
    fun pc' => isChain_replace hchain fun _ hg => hg
  cases pc with
  | test =>
    unfold OsKernel.lockAcquire at he
    dsimp only at he
    split at he
    · cases he
      exact h.setStack rfl rfl rfl rfl rfl (List.isChain_cons_cons.mpr ⟨rfl, hnext _⟩)
        (by simp [Frame.runsOff])
    · cases he
      exact h.setStack rfl rfl rfl rfl rfl (hnext _) (by simp [Frame.runsOff])
  | setHolder =>
    cases he
    exact h.setStack rfl rfl rfl rfl rfl (hnext _) (by simp [Frame.runsOff])
  | assertRepeatNr =>
    obtain ⟨-, -, he⟩ := bind_eq_ok.mp he
    cases he
    exact h.setStack rfl rfl rfl rfl rfl (hnext _) (by simp [Frame.runsOff])
  | setRepeatNr =>
    cases he
    exact h.setStack rfl rfl rfl rfl rfl hchain.tail (not_runsOff_of_return hchain nofun)
  | loadRepeatNr =>
    cases he
    exact h.setStack rfl rfl rfl rfl rfl (hnext _) (by simp [Frame.runsOff])
  | storeRepeatNr nr =>
    cases he
    exact h.setStack rfl rfl rfl rfl rfl hchain.tail (not_runsOff_of_return hchain nofun)

/-- A statement of `lock_release`. -/
theorem lockRelease (h : SchedInv c) {plock : Nat} {pc : ReleasePc}
    (htop : c.top = .lockRelease plock pc :: rest)
    (he : OsKernel.lockRelease plock pc rest c = .ok c') : SchedInv c' := by
  have hchain : (.lockRelease plock pc :: rest).IsChain Calls := htop ▸ h.calls c.kernel.running
  have hnext : ∀ pc', (Frame.lockRelease plock pc' :: rest).IsChain Calls :=
    fun pc' => isChain_replace hchain fun _ hg => hg
  cases pc with
  | assertHolder =>
    obtain ⟨-, -, he⟩ := bind_eq_ok.mp he
    cases he
    exact h.setStack rfl rfl rfl rfl rfl (hnext _) (by simp [Frame.runsOff])
  | test =>
    unfold OsKernel.lockRelease at he
    dsimp only at he
    split at he <;> cases he <;>
      exact h.setStack rfl rfl rfl rfl rfl (hnext _) (by simp [Frame.runsOff])
  | loadRepeatNr =>
    cases he
    exact h.setStack rfl rfl rfl rfl rfl (hnext _) (by simp [Frame.runsOff])
  | storeRepeatNr nr =>
    cases he
    exact h.setStack rfl rfl rfl rfl rfl hchain.tail (not_runsOff_of_return hchain nofun)
  | assertRepeatNr =>
    obtain ⟨-, -, he⟩ := bind_eq_ok.mp he
    cases he
    exact h.setStack rfl rfl rfl rfl rfl (hnext _) (by simp [Frame.runsOff])
  | clearHolder =>
    cases he
    exact h.setStack rfl rfl rfl rfl rfl (hnext _) (by simp [Frame.runsOff])
  | clearRepeatNr =>
    cases he
    have hup : (.semaUp (.inLock plock) :: rest).IsChain Calls :=
      isChain_replace hchain fun _ hg => hg
    exact h.setStack rfl rfl rfl rfl rfl hup (by simp [Frame.runsOff])

/-- The running thread has been created. -/
theorem running_ne (h : SchedInv c) {u : Tid} (hnew : c.history.created u = false) :
    c.kernel.running ≠ u := by
  rintro rfl
  exact Bool.noConfusion (h.running_created.symm.trans hnew)

/-- `thread_block` returns when the thread has left the processor. -/
theorem threadBlock_returned (h : SchedInv c) {stat : TaskStatus} {k : Kernel Queues}
    (hk : OsKernel.threadBlock stat c.kernel = .ok k) :
    Dispatched c.history.created c.history.waiting (c.kernel.asleep stat) k := by
  -- with another status the assertion at its start would have failed
  have hb : stat.isBlocked = true := by
    cases hs : stat.isBlocked with
    | true => rfl
    | false =>
      unfold OsKernel.threadBlock at hk
      rw [hs, assert_false, error_bind] at hk
      cases hk
  rcases threadBlock_spec h.partition h.running_created hb with ⟨-, herr⟩ | ⟨k', hk', -, hd⟩
  · rw [herr] at hk
    cases hk
  · rw [hk'] at hk
    cases hk
    exact hd

/-- `thread_unblock` returns when the thread is ready. -/
theorem threadUnblock_returned (h : SchedInv c) {u : Tid} {k : Kernel Queues}
    (hg : FrameGuard c (.threadUnblock u)) (hk : OsKernel.threadUnblock u c.kernel = .ok k) :
    SyncUnchanged c.kernel k ∧ k.running = c.kernel.running ∧
      k.status = Function.update c.kernel.status u .ready ∧
      (∀ t, (k.task t).stackMagic = (c.kernel.task t).stackMagic) ∧
      Partition k.lists k.status c.history.created c.history.waiting (some c.kernel.running) := by
  rcases threadUnblock_spec h.partition hg.1 hg.2 with ⟨-, herr⟩ | ⟨k', hk', hspec⟩
  · rw [herr] at hk
    cases hk
  · rw [hk'] at hk
    cases hk
    exact hspec

/-- `thread_start` returns when the new thread is ready. -/
theorem threadStart_returned (h : SchedInv c) {u : Tid} {prio : UInt8} {k : Kernel Queues}
    (hnew : c.history.created u = false) (hk : OsKernel.threadStart u prio c.kernel = .ok k) :
    SyncUnchanged c.kernel k ∧ k.running = c.kernel.running ∧
      k.status = Function.update c.kernel.status u .ready ∧
      k.task = Function.update c.kernel.task u (initThread false prio) ∧
      Partition k.lists k.status (Function.update c.history.created u true) c.history.waiting
        (some c.kernel.running) := by
  obtain ⟨k', hk', hspec⟩ := threadStart_spec prio h.partition hnew fun heq =>
    h.running_ne hnew (Option.some.inj heq)
  rw [hk'] at hk
  cases hk
  exact hspec

/-- `thread_block` called by the program. -/
theorem threadBlockCall (h : SchedInv c) {stat : TaskStatus} {k : Kernel Queues}
    (htop : c.top = .threadBlockCall stat :: rest)
    (hk : OsKernel.threadBlock stat c.kernel = .ok k) :
    SchedInv { c with
      kernel := k
      stack := Function.update c.stack c.kernel.running (.threadBlock c.kernel.intr :: rest) } := by
  have hchain : (.threadBlockCall stat :: rest).IsChain Calls := htop ▸ h.calls c.kernel.running
  have hd := h.threadBlock_returned hk
  -- the caller is the program, so the thread does not sleep in `sema_down`
  have hnot : ∀ s, ¬ SleepsIn s (.threadBlock c.kernel.intr :: rest) := by
    rintro s ⟨old, o, rest', heq⟩
    cases heq
    obtain ⟨l, hl⟩ := (List.isChain_cons_cons.mp hchain).1
    cases hl
  have hcalls : (.threadBlock c.kernel.intr :: rest).IsChain Calls :=
    isChain_replace hchain fun _ hg => Or.inl hg
  apply h.switch_step hd rfl hcalls (c.kernel.asleep_stackMagic stat)
  · exact fun t ht ha => Kernel.asleep_awake ht ha
  · exact fun s t hw => Or.inl hw
  · exact fun s t hw => hw
  · exact fun s hs => absurd hs (hnot s)
  · rfl
  · rfl

/-- One turn of the loop in `sema_down`. -/
theorem semaDownTest (h : SchedInv c) {s : SemaRef} {o : IntrStatus}
    (htop : c.top = .semaDown s o :: rest)
    (he : OsKernel.semaDownTest s o rest c = .ok c') : SchedInv c' := by
  have hchain : (.semaDown s o :: rest).IsChain Calls := htop ▸ h.calls c.kernel.running
  by_cases hv : c.kernel.value s = 0
  · rcases semaDownTest_zero s o rest h hv with ⟨-, herr⟩ | ⟨k, hk, -, hd⟩
    · rw [herr] at he
      cases he
    · rw [hk] at he
      cases he
      have hoff : c.kernel.intr = .off := h.top_off (.semaDown s o) (by rw [htop]; rfl) rfl
      apply h.switch_step hd rfl
      · exact List.isChain_cons_cons.mpr ⟨Or.inr ⟨s, o, rfl, hoff⟩, hchain⟩
      · exact (c.kernel.joined s).asleep_stackMagic .blocked
      · exact fun t ht ha => Kernel.asleep_awake (k := c.kernel.joined s) ht ha
      · intro s' t hw
        rw [update₂_apply] at hw
        split at hw
        · next heq => exact Or.inr ⟨heq.2, _, _, _, by rw [heq.1]⟩
        · exact Or.inl hw
      · intro s' t hw
        rw [update₂_apply]
        split
        · rfl
        · exact hw
      · rintro s' ⟨old, o', rest', heq⟩
        cases heq
        simp [update₂_apply]
      · rfl
      · rfl
  · rw [semaDownTest_pos s o rest hv] at he
    split at he
    · cases he
      exact h.local_step rfl rfl rfl rfl rfl hchain.tail (not_runsOff_of_return hchain (by simp))
    · cases he

/-- `sema_up`. -/
theorem semaUp (h : SchedInv c) {s : SemaRef} (htop : c.top = .semaUp s :: rest)
    (he : OsKernel.semaUp s rest c = .ok c') : SchedInv c' := by
  have hchain : (.semaUp s :: rest).IsChain Calls := htop ▸ h.calls c.kernel.running
  by_cases hv : c.kernel.value s = 0
  · rcases semaUp_zero s rest h hv with ⟨-, hok⟩ | ⟨u, k, hw, hok, hsync, hrun, hstat, hmagic, hp⟩
    · rw [hok] at he
      cases he
      exact h.local_step rfl rfl rfl rfl rfl hchain.tail (not_runsOff_of_return hchain nofun)
    · rw [hok] at he
      cases he
      have hawake := Kernel.Awake.update hstat (.inl rfl)
      apply h.next rest
      · show Partition k.lists k.status c.history.created (update₂ c.history.waiting s u false)
          (some k.running)
        rw [hrun]
        exact hp
      · show c.history.created k.running = true
        rw [hrun]
        exact h.running_created
      · exact fun t ht => (hmagic t).trans (h.magic t ht)
      · exact fun t ht => ht
      · rfl
      · exact hchain.tail
      · show ∀ f ∈ (Function.update c.stack c.kernel.running rest k.running).head?, _
        rw [hrun, Function.update_self]
        exact not_runsOff_of_return hchain nofun
      · intro s' t hw'
        change update₂ c.history.waiting s u false s' t = true at hw'
        rw [update₂_apply] at hw'
        split at hw'
        · cases hw'
        · exact Or.inl hw'
      · intro s' t hw'
        by_cases ht : s' = s ∧ t = u
        · left
          show k.status t = _ ∨ _
          rw [hstat, ht.2, Function.update_self]
          exact Or.inl rfl
        · right
          show update₂ c.history.waiting s u false s' t = true
          rw [update₂_apply, if_neg ht]
          exact hw'
      · exact fun t _ ha => hawake t ha
      · exact fun s' _ => Or.inl (hawake _ (Or.inr h.running_status))
  · rw [semaUp_pos s rest hv] at he
    cases he

/-- `thread_unblock` called by the program. -/
theorem threadUnblock (h : SchedInv c) {u : Tid} {k : Kernel Queues}
    (htop : c.top = .threadUnblock u :: rest) (hg : FrameGuard c (.threadUnblock u))
    (hk : OsKernel.threadUnblock u c.kernel = .ok k) :
    SchedInv ({ c with kernel := k }.setStack rest) := by
  have hchain : (.threadUnblock u :: rest).IsChain Calls := htop ▸ h.calls c.kernel.running
  obtain ⟨-, hrun, hstat, hmagic, hp⟩ := h.threadUnblock_returned hg hk
  have hawake := Kernel.Awake.update hstat (.inl rfl)
  apply h.next rest
  · show Partition k.lists k.status c.history.created c.history.waiting (some k.running)
    rw [hrun]
    exact hp
  · show c.history.created k.running = true
    rw [hrun]
    exact h.running_created
  · exact fun t ht => (hmagic t).trans (h.magic t ht)
  · exact fun t ht => ht
  · show Function.update c.stack k.running rest = _
    rw [hrun]
  · exact hchain.tail
  · show ∀ f ∈ (Function.update c.stack k.running rest k.running).head?, _
    rw [Function.update_self]
    exact not_runsOff_of_return hchain nofun
  · exact fun s t hw => Or.inl hw
  · exact fun s t hw => Or.inr hw
  · exact fun t _ ha => hawake t ha
  · exact fun s _ => Or.inl (hawake _ (Or.inr h.running_status))

/-- `thread_start` called by the program. -/
theorem threadStart (h : SchedInv c) {u : Tid} {prio : UInt8} {fn : P.Loc} {k : Kernel Queues}
    (htop : c.top = .threadStart u prio fn :: rest)
    (hg : FrameGuard c (.threadStart u prio fn))
    (hk : OsKernel.threadStart u prio c.kernel = .ok k) :
    SchedInv { c with
      kernel := k
      stack := Function.update (Function.update c.stack c.kernel.running rest) u
        [.kernelThread, .prog fn]
      history := { c.history with created := Function.update c.history.created u true } } := by
  have hchain : (.threadStart u prio fn :: rest).IsChain Calls := htop ▸ h.calls c.kernel.running
  have hne := h.running_ne hg.1
  obtain ⟨hsync, hrun, hstat, htask, hp⟩ := h.threadStart_returned hg.1 hk
  have hawake := Kernel.Awake.update hstat (.inl rfl)
  -- first the return of the caller, then the new thread's own stack
  have hret : SchedInv (c.setStack rest) :=
    h.setStack rfl rfl rfl rfl rfl hchain.tail (not_runsOff_of_return hchain nofun)
  let stack : Tid → List (Frame P.Loc) :=
    Function.update (Function.update c.stack c.kernel.running rest) u [.kernelThread, .prog fn]
  have hself : stack u = [.kernelThread, .prog fn] := Function.update_self ..
  have hstack : ∀ t, t ≠ u → stack t = (c.setStack rest).stack t :=
    fun t ht => Function.update_of_ne ht _ _
  constructor
  · show Partition k.lists k.status _ c.history.waiting (some k.running)
    rw [hrun]
    exact hp
  · show Function.update c.history.created u true k.running = true
    rw [hrun, Function.update_of_ne hne]
    exact h.running_created
  · intro t ht
    change Function.update c.history.created u true t = true at ht
    show (k.task t).stackMagic = _
    rw [htask, Function.update_apply]
    split
    · rfl
    · next hne => exact h.magic t (by rwa [Function.update_of_ne hne] at ht)
  · intro t ht
    change Function.update c.history.created u true t = false at ht
    rw [Function.update_apply] at ht
    split at ht
    · cases ht
    · next hne =>
      show stack t = []
      rw [hstack t hne]
      exact hret.fresh t ht
  · intro t
    show (stack t).IsChain Calls
    by_cases ht : t = u
    · rw [ht, hself]
      exact List.isChain_cons_cons.mpr ⟨⟨fn, rfl⟩, .singleton _⟩
    · rw [hstack t ht]
      exact hret.calls t
  · show ∀ f ∈ (stack k.running).head?, f.runsOff = true → k.intr = .off
    rw [hrun, hstack _ hne, hsync.intr]
    exact hret.top_off
  · intro s t hw
    have ht : t ≠ u := by
      rintro rfl
      have := (h.partition.waiting_blocked s t hw).1
      rw [hg.1] at this
      cases this
    show SleepsIn s (stack t)
    rw [hstack t ht]
    exact hret.waiting_sleeps s t hw
  · intro s t hsleep
    change SleepsIn s (stack t) at hsleep
    by_cases ht : t = u
    · rw [ht, hself] at hsleep
      obtain ⟨old, o, rest', heq⟩ := hsleep
      cases heq
    · rw [hstack t ht] at hsleep
      exact (hret.sleeps_waiting s t hsleep).imp (hawake t) id

/-- A statement of the running thread. -/
theorem exec (h : SchedInv c) {input : P.Input} (htop : c.top = f :: rest) (hg : FrameGuard c f)
    (he : OsKernel.exec input f rest c = .ok c') : SchedInv c' := by
  have hchain : (f :: rest).IsChain Calls := htop ▸ h.calls c.kernel.running
  cases f with
  | prog l => exact h.execProg htop he
  | kernelThread =>
    cases he
    exact h.setStack rfl rfl rfl rfl rfl hchain.tail (not_runsOff_of_return hchain nofun)
  | intrExit eflags =>
    cases he
    exact h.setStack rfl rfl rfl rfl rfl hchain.tail (not_runsOff_of_return hchain nofun)
  | threadBlockCall stat =>
    obtain ⟨k, hk, he⟩ := bind_eq_ok.mp he
    cases he
    exact h.threadBlockCall htop hk
  | threadBlock oldStatus =>
    -- back in `sema_down` the restored flag is off, as it was there before
    have hret : ∀ g ∈ rest.head?, g.runsOff = true → oldStatus = .off := by
      intro g hg hoff
      cases rest with
      | nil => cases hg
      | cons g' rest =>
        cases hg
        rcases (List.isChain_cons_cons.mp hchain).1 with ⟨l, rfl⟩ | ⟨s, o, rfl, hold⟩
        · cases hoff
        · exact hold
    cases he
    exact h.setStack rfl rfl rfl rfl rfl hchain.tail hret
  | threadUnblock pthread =>
    obtain ⟨k, hk, he⟩ := bind_eq_ok.mp he
    cases he
    exact h.threadUnblock htop hg hk
  | threadStart thread prio function =>
    obtain ⟨k, hk, he⟩ := bind_eq_ok.mp he
    cases he
    exact h.threadStart htop hg hk
  | semaDownCall psema =>
    cases he
    exact h.setStack rfl rfl rfl rfl rfl (isChain_replace hchain fun _ hg => hg) (fun _ _ _ => rfl)
  | semaDown psema oldStatus => exact h.semaDownTest htop he
  | semaUp psema => exact h.semaUp htop he
  | lockAcquire plock pc => exact h.lockAcquire htop he
  | lockRelease plock pc => exact h.lockRelease htop he

/-- Interrupts were on, so the interrupted frame is none that needs them off. -/
theorem intrExit_chain (h : SchedInv c) (hon : c.kernel.intr = .on) :
    (Frame.intrExit c.kernel.intr :: c.top).IsChain Calls := by
  have hchain : c.top.IsChain Calls := h.calls c.kernel.running
  have htop := h.top_off
  cases hs : c.top with
  | nil => exact .singleton _
  | cons g rest =>
    rw [hs] at hchain htop
    refine List.isChain_cons_cons.mpr ⟨?_, hchain⟩
    show g.runsOff = false
    cases hg : g.runsOff with
    | false => rfl
    | true =>
      have := htop g rfl hg
      rw [hon] at this
      cases this

/-- **The timer interrupt** never fails, and keeps the invariant. -/
theorem timer (h : SchedInv c) (hon : c.kernel.intr = .on) :
    ∃ k, intrTimerHandler { c.kernel with intr := .off } = .ok k ∧
      Dispatched c.history.created c.history.waiting { c.kernel with intr := .off } k ∧
      SchedInv { c with
        kernel := k
        stack := Function.update c.stack c.kernel.running (.intrExit c.kernel.intr :: c.top) } := by
  have hm := h.magic _ h.running_created
  rcases intrTimerHandler_spec (k := { c.kernel with intr := .off }) h.partition rfl
      h.running_created with ⟨hne, -⟩ | ⟨k, hk, hd⟩
  · exact absurd hm hne
  · refine ⟨k, hk, hd, ?_⟩
    have hnot : ∀ s, ¬ SleepsIn s (.intrExit c.kernel.intr :: c.top) := by
      rintro s ⟨old, o, rest, heq⟩
      cases heq
    apply h.switch_step hd rfl (h.intrExit_chain hon) (fun _ => rfl) (fun _ _ ha => ha)
    · exact fun s t hw => Or.inl hw
    · exact fun s t hw => hw
    · exact fun s hs => absurd hs (hnot s)
    · rfl
    · rfl

/-- An interrupt of a device: its handler starts on the running thread's stack. -/
theorem device (h : SchedInv c) (hon : c.kernel.intr = .on) (l : P.Loc) :
    SchedInv ({ c with kernel := { c.kernel with intr := .off } }.setStack
      (.prog l :: .intrExit c.kernel.intr :: c.top)) := by
  have hcalls : (Frame.prog l :: .intrExit c.kernel.intr :: c.top).IsChain Calls :=
    List.isChain_cons_cons.mpr ⟨Or.inr ⟨_, rfl⟩, h.intrExit_chain hon⟩
  exact h.setStack rfl rfl rfl rfl rfl hcalls (fun _ _ _ => rfl)

/-- **One event keeps the invariant.** -/
theorem step (h : SchedInv c) {e : Event P} (hg : SchedGuard c e)
    (hs : machineStep e c = some (.ok c')) : SchedInv c' := by
  cases e with
  | exec input =>
    unfold machineStep at hs
    cases htop : c.top with
    | nil => rw [htop] at hs; cases hs
    | cons f rest =>
      rw [htop] at hs
      exact h.exec htop (hg f (by rw [htop]; rfl)) (Option.some.inj hs)
  | timer =>
    unfold machineStep at hs
    dsimp only at hs
    split at hs
    · next hon =>
      obtain ⟨k, hk, -, hinv⟩ := h.timer hon
      have he : timerInterrupt c = .ok c' := Option.some.inj hs
      unfold timerInterrupt at he
      rw [hk, ok_bind] at he
      cases he
      exact hinv
    · cases hs
  | device input =>
    unfold machineStep at hs
    dsimp only at hs
    split at hs
    · next hon =>
      split at hs
      · cases hs
      · next l _ =>
        cases hs
        exact h.device hon l
    · cases hs

/-- `thread_init` establishes the invariant. -/
theorem boot (hb : Booted c) : SchedInv c := by
  obtain ⟨k, hlists, hk⟩ := hb.kernel
  obtain ⟨l, hstack⟩ := hb.stack
  have hstart : k.lists = fun _ => [] := hlists
  unfold threadInit at hk
  simp only [hstart, Queues.elemFind_eq, List.not_mem_nil, decide_false, Bool.not_false,
    assert_true, ok_bind, Queues.listAppend_eq, List.nil_append, pure_eq_ok, Except.ok.injEq] at hk
  have hrun : c.kernel.running = k.running := by rw [← hk]
  have htask : c.kernel.task k.running = initThread true 8 := by
    rw [← hk]
    exact Function.update_self ..
  have hstatus : c.kernel.status c.kernel.running = .running := by
    rw [Kernel.status, hrun, htask]
    rfl
  have hwait : c.history.waiting = fun _ _ => false := funext₂ hb.waiting
  have hnot : ∀ s t, ¬ SleepsIn s (c.stack t) := by
    rintro s t ⟨old, o, rest, heq⟩
    rw [hstack, Function.update_apply] at heq
    split at heq <;> cases heq
  constructor
  · rw [hb.created, hwait]
    have hl : c.kernel.lists = Function.update (fun _ => []) .all [.allListTag c.kernel.running] := by
      rw [hrun, ← hk]
    rw [hl]
    exact Partition.boot hstatus
  · rw [hb.created]
    exact decide_eq_true rfl
  · intro t ht
    rw [hb.created] at ht
    rw [of_decide_eq_true ht, hrun, htask]
    rfl
  · intro t ht
    rw [hb.created] at ht
    rw [hstack, Function.update_of_ne (of_decide_eq_false ht)]
  · intro t
    rw [hstack, Function.update_apply]
    split
    · exact .singleton _
    · exact .nil
  · intro f hf hoff
    unfold Config.top at hf
    rw [hstack, Function.update_self] at hf
    cases hf
    cases hoff
  · intro s t hw
    rw [hb.waiting] at hw
    cases hw
  · exact fun s t hs => absurd hs (hnot s t)

/-- **Every reachable state satisfies the invariant.** -/
theorem reach {init : Config Queues P → Prop} (hinit : ∀ c, init c → SchedInv c)
    {guard : Config Queues P → Event P → Prop} (hguard : ∀ c e, guard c e → SchedGuard c e) :
    ∀ c, (machine init).Reach guard c → SchedInv c :=
  System.Reach.invariant hinit fun c e _ _ hinv hg hs => hinv.step (hguard c e hg) hs

end SchedInv

end OsKernel
