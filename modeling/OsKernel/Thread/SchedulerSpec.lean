import OsKernel.Thread.Scheduler
import OsKernel.Thread.Partition

/-!
# What the functions of thread.c do to the partition

One specification per function, over the abstract store of lists. Each says when the function
returns, that the partition is kept, and that the semaphores, the locks and the interrupt flag are
not touched. The only assertion `schedule` can fail from a partitioned state is the last one, that
the ready list is not empty.
-/

namespace OsKernel

/-- The status field of every PCB. -/
def Kernel.status {H : Type} (k : Kernel H) (t : Tid) : TaskStatus := (k.task t).status

/-- The thread runs or will be run by `schedule` in its turn. -/
def Kernel.Awake {H : Type} (k : Kernel H) (t : Tid) : Prop :=
  k.status t = .ready ∨ k.status t = .running

/-- A step that changes lists, PCBs and the running thread only. -/
structure SyncUnchanged {H : Type} (k k' : Kernel H) : Prop where
  intr : k'.intr = k.intr
  value : k'.value = k.value
  holder : k'.holder = k.holder
  holderRepeatNr : k'.holderRepeatNr = k.holderRepeatNr

/-- What a step that may change the running thread leaves behind: a partition, nobody put to
sleep, and sync.c's own data as they were. -/
structure Dispatched (created : Tid → Bool) (waiting : SemaRef → Tid → Bool)
    (k k' : Kernel Queues) : Prop where
  sync : SyncUnchanged k k'
  running_created : created k'.running = true
  magic : ∀ t, (k'.task t).stackMagic = (k.task t).stackMagic
  awake : ∀ t, k.Awake t → k'.Awake t
  partition : Partition k'.lists k'.status created waiting (some k'.running)

theorem Kernel.status_update {H : Type} (k : Kernel H) (t : Tid) (pcb : TaskStruct)
    (f : (Tid → TaskStruct) → Kernel H) (hf : ∀ task, (f task).task = task) :
    (f (Function.update k.task t pcb)).status = Function.update k.status t pcb.status := by
  funext u
  unfold status
  rw [hf, Function.update_apply, Function.update_apply]
  split <;> rfl

theorem stackMagic_update (task : Tid → TaskStruct) (t : Tid) (pcb : TaskStruct)
    (h : pcb.stackMagic = (task t).stackMagic) (u : Tid) :
    (Function.update task t pcb u).stackMagic = (task u).stackMagic := by
  rw [Function.update_apply]
  split
  · next hu => rw [hu, h]
  · rfl

theorem Kernel.setStatus_status_eq {H : Type} (k : Kernel H) (t : Tid) (stat : TaskStatus) :
    (k.setStatus t stat).status = Function.update k.status t stat :=
  k.status_update t _ (fun task => { k with task := task }) fun _ => rfl

/-- Giving a thread the status ready or running puts nobody to sleep. -/
theorem Kernel.Awake.update {H : Type} {k k' : Kernel H} {u : Tid} {stat : TaskStatus}
    (hstat : k'.status = Function.update k.status u stat) (hs : stat = .ready ∨ stat = .running)
    (t : Tid) (h : k.Awake t) : k'.Awake t := by
  unfold Kernel.Awake
  rw [hstat, Function.update_apply]
  split
  · exact hs
  · exact h

section

variable {k : Kernel Queues} {created : Tid → Bool} {waiting : SemaRef → Tid → Bool}

/-! ## `schedule` -/

/-- The second half of `schedule` on a ready list with a head. -/
private theorem scheduleNext_spec (hp : Partition k.lists k.status created waiting none)
    (hne : k.lists .ready ≠ []) :
    ∃ k', scheduleNext k = .ok k' ∧ k.status k'.running = .ready ∧
      Dispatched created waiting k k' := by
  obtain ⟨e, es, hq⟩ := List.exists_cons_of_ne_nil hne
  obtain ⟨next, he, hc, hs⟩ := hp.ready_head hq
  have hpop := Queues.listPop_cons hq
  let k' : Kernel Queues := { k with
    lists := Function.update k.lists .ready es
    task := Function.update k.task next { k.task next with status := .running }
    running := next }
  have hk' : scheduleNext k = .ok k' := by
    simp only [scheduleNext, Queues.listEmpty_eq, hne, decide_false, Bool.not_false, assert_true,
      ok_bind, hpop, he, elem2entry]
    rfl
  have hstat : k'.status = Function.update k.status next .running :=
    k.status_update next _ (fun task => { k' with task := task }) fun _ => rfl
  have hpart : Partition k'.lists k'.status created waiting (some k'.running) := by
    rw [hstat]
    exact hp.dispatch hq he
  exact ⟨k', hk', hs, ⟨rfl, rfl, rfl, rfl⟩, hc, stackMagic_update k.task _ _ rfl,
    Kernel.Awake.update hstat (.inr rfl), hpart⟩

/-- The state between the two halves of `schedule` when a time slice ends. -/
def Kernel.requeued (k : Kernel Queues) : Kernel Queues :=
  { k with
    lists := Function.update k.lists .ready (k.lists .ready ++ [.generalTag k.running])
    task := Function.update k.task k.running
      { k.task k.running with ticks := (k.task k.running).priority, status := .ready } }

theorem Kernel.requeued_status (k : Kernel Queues) :
    k.requeued.status = Function.update k.status k.running .ready :=
  k.status_update k.running _ (fun task => { k.requeued with task := task }) fun _ => rfl

theorem Kernel.requeued_stackMagic (k : Kernel Queues) (t : Tid) :
    (k.requeued.task t).stackMagic = (k.task t).stackMagic :=
  stackMagic_update k.task k.running
    { k.task k.running with ticks := (k.task k.running).priority, status := .ready } rfl t

theorem scheduleRequeue_running
    (hp : Partition k.lists k.status created waiting (some k.running))
    (hc : created k.running = true) : scheduleRequeue k = .ok k.requeued := by
  have hrun : (k.task k.running).status = .running := (hp.running_iff _ hc).mpr rfl
  have hnot : ElemAddr.generalTag k.running ∉ k.lists .ready := by
    intro h
    have hr := (hp.mem_ready h).2
    rw [Kernel.status, hrun] at hr
    cases hr
  simp only [scheduleRequeue, hrun, if_true, Queues.elemFind_eq, hnot, decide_false,
    Bool.not_false, assert_true, ok_bind, Queues.listAppend_eq]
  rfl

theorem requeued_partition (hp : Partition k.lists k.status created waiting (some k.running))
    (hc : created k.running = true) :
    Partition k.requeued.lists k.requeued.status created waiting none := by
  rw [k.requeued_status]
  exact hp.requeue hc

theorem scheduleRequeue_blocked {H : Type} [TaskLists H] {k : Kernel H}
    (h : k.status k.running ≠ .running) : scheduleRequeue k = .ok k :=
  if_neg h

/-- **`schedule` at the end of a time slice.** The running thread goes to the end of the ready
list, so the list is not empty and `schedule` returns. -/
theorem schedule_running (hp : Partition k.lists k.status created waiting (some k.running))
    (hoff : k.intr = .off) (hc : created k.running = true) :
    ∃ k', schedule k = .ok k' ∧ Dispatched created waiting k k' := by
  have hne : k.requeued.lists .ready ≠ [] := by simp [Kernel.requeued]
  obtain ⟨k', hk', -, hd⟩ := scheduleNext_spec (requeued_partition hp hc) hne
  refine ⟨k', ?_, ⟨hd.sync.intr, hd.sync.value, hd.sync.holder, hd.sync.holderRepeatNr⟩,
    hd.running_created, ?_, ?_, hd.partition⟩
  · simp only [schedule, hoff, decide_true, assert_true, ok_bind, scheduleRequeue_running hp hc,
      hk']
  · exact fun t => (hd.magic t).trans (k.requeued_stackMagic t)
  · exact fun t ht => hd.awake t (Kernel.Awake.update k.requeued_status (.inl rfl) t ht)

/-- **`schedule` after the running thread has blocked.** The first ready thread runs; with an
empty ready list the last assertion fails. -/
theorem schedule_blocked (hp : Partition k.lists k.status created waiting none)
    (hoff : k.intr = .off) (hnr : k.status k.running ≠ .running) :
    (k.lists .ready = [] ∧ schedule k = .error .scheduleReadyEmpty) ∨
    ∃ k', schedule k = .ok k' ∧ k.status k'.running = .ready ∧
      Dispatched created waiting k k' := by
  have hk₁ := scheduleRequeue_blocked hnr
  by_cases hq : k.lists .ready = []
  · left
    refine ⟨hq, ?_⟩
    simp [schedule, hoff, hk₁, scheduleNext, hq]
  · right
    obtain ⟨k', hk', hrest⟩ := scheduleNext_spec hp hq
    refine ⟨k', ?_, hrest⟩
    simp only [schedule, hoff, decide_true, assert_true, ok_bind, hk₁, hk']

/-! ## `thread_block` and `thread_unblock` -/

theorem TaskStatus.isBlocked_ne {stat : TaskStatus} (hb : stat.isBlocked = true) :
    stat ≠ .running ∧ stat ≠ .ready := by
  cases stat with
  | running => cases hb
  | ready => cases hb
  | _ => exact ⟨nofun, nofun⟩

/-- The state in which `thread_block` calls `schedule`. -/
def Kernel.asleep {H : Type} (k : Kernel H) (stat : TaskStatus) : Kernel H :=
  { k with intr := .off }.setStatus k.running stat

theorem Kernel.asleep_status {H : Type} (k : Kernel H) (stat : TaskStatus) :
    (k.asleep stat).status = Function.update k.status k.running stat :=
  Kernel.setStatus_status_eq { k with intr := .off } k.running stat

theorem Kernel.asleep_awake {H : Type} {k : Kernel H} {stat : TaskStatus} {t : Tid}
    (ht : t ≠ k.running) (ha : k.Awake t) : (k.asleep stat).Awake t := by
  unfold Kernel.Awake
  rw [k.asleep_status, Function.update_of_ne ht]
  exact ha

theorem Kernel.asleep_stackMagic {H : Type} (k : Kernel H) (stat : TaskStatus) (t : Tid) :
    ((k.asleep stat).task t).stackMagic = (k.task t).stackMagic :=
  stackMagic_update k.task k.running { k.task k.running with status := stat } rfl t

/-- `thread_block` as soon as the lists agree with the new status. -/
theorem threadBlock_asleep {stat : TaskStatus} (hb : stat.isBlocked = true)
    (hp : Partition k.lists (k.asleep stat).status created waiting none) :
    (k.lists .ready = [] ∧ threadBlock stat k = .error .scheduleReadyEmpty) ∨
    ∃ k', threadBlock stat k = .ok k' ∧ k'.running ≠ k.running ∧
      Dispatched created waiting (k.asleep stat) k' := by
  have hself : (k.asleep stat).status (k.asleep stat).running = stat := by
    rw [k.asleep_status]
    exact Function.update_self ..
  have hblock : threadBlock stat k = schedule (k.asleep stat) := by
    simp only [threadBlock, hb, assert_true, ok_bind]
    rfl
  rw [hblock]
  have hnr : (k.asleep stat).status (k.asleep stat).running ≠ .running := by
    rw [hself]
    exact (TaskStatus.isBlocked_ne hb).1
  rcases schedule_blocked (k := k.asleep stat) hp rfl hnr with h | ⟨k', hk', hs, hd⟩
  · exact Or.inl h
  · refine Or.inr ⟨k', hk', ?_, hd⟩
    intro heq
    -- the thread just put to sleep is not ready, so it is not the next one
    rw [heq] at hs
    exact (TaskStatus.isBlocked_ne hb).2 (hself.symm.trans hs)

/-- `thread_block` by the running thread, outside `sema_down`. -/
theorem threadBlock_spec {stat : TaskStatus}
    (hp : Partition k.lists k.status created waiting (some k.running))
    (hc : created k.running = true) (hb : stat.isBlocked = true) :
    (k.lists .ready = [] ∧ threadBlock stat k = .error .scheduleReadyEmpty) ∨
    ∃ k', threadBlock stat k = .ok k' ∧ k'.running ≠ k.running ∧
      Dispatched created waiting (k.asleep stat) k' := by
  apply threadBlock_asleep hb
  rw [k.asleep_status]
  exact hp.block hc hb

/-- `k` with its running thread at the end of the wait list of `s`. -/
def Kernel.joined (k : Kernel Queues) (s : SemaRef) : Kernel Queues :=
  { k with lists :=
      Function.update k.lists (.waiters s) (k.lists (.waiters s) ++ [.generalTag k.running]) }

/-- `thread_block` in `sema_down`, after the thread has joined the wait list. -/
theorem threadBlock_waiter (s : SemaRef)
    (hp : Partition k.lists k.status created waiting (some k.running))
    (hc : created k.running = true) :
    (k.lists .ready = [] ∧ threadBlock .blocked (k.joined s) = .error .scheduleReadyEmpty) ∨
    ∃ k', threadBlock .blocked (k.joined s) = .ok k' ∧ k'.running ≠ k.running ∧
      Dispatched created (update₂ waiting s k.running true) ((k.joined s).asleep .blocked) k' := by
  have hready : (k.joined s).lists .ready = k.lists .ready := by
    show Function.update k.lists (.waiters s) (k.lists (.waiters s) ++ [.generalTag k.running])
      .ready = _
    exact Function.update_of_ne (by simp) _ _
  have hp₁ : Partition (k.joined s).lists ((k.joined s).asleep .blocked).status created
      (update₂ waiting s k.running true) none := by
    rw [(k.joined s).asleep_status]
    exact hp.blockOn hc s
  rw [← hready]
  exact threadBlock_asleep (k := k.joined s) rfl hp₁

/-- `thread_unblock` of a created thread that waits on no semaphore. It fails only its own
assertion on the status. -/
theorem threadUnblock_spec {r : Option Tid} {u : Tid}
    (hp : Partition k.lists k.status created waiting r) (hc : created u = true)
    (hw : ∀ s, waiting s u = false) :
    ((k.status u).isBlocked = false ∧ threadUnblock u k = .error .threadUnblockStat) ∨
    ∃ k', threadUnblock u k = .ok k' ∧ SyncUnchanged k k' ∧ k'.running = k.running ∧
      k'.status = Function.update k.status u .ready ∧
      (∀ t, (k'.task t).stackMagic = (k.task t).stackMagic) ∧
      Partition k'.lists k'.status created waiting r := by
  cases hb : (k.status u).isBlocked with
  | false =>
    left
    have hb' : (k.task u).status.isBlocked = false := hb
    refine ⟨rfl, ?_⟩
    simp only [threadUnblock, hb', assert_false, error_bind]
  | true =>
    right
    have hb' : (k.task u).status.isBlocked = true := hb
    have hne : k.status u ≠ .ready := (TaskStatus.isBlocked_ne hb).2
    have hnot : ElemAddr.generalTag u ∉ k.lists .ready := fun h => hne (hp.mem_ready h).2
    have hbeq : ((k.task u).status != .ready) = true := bne_iff_ne.mpr hne
    let k' : Kernel Queues := { k with
      lists := Function.update k.lists .ready (.generalTag u :: k.lists .ready) }.setStatus u .ready
    have hk' : threadUnblock u k = .ok k' := by
      simp only [threadUnblock, hb', assert_true, ok_bind, hbeq, if_true, Queues.elemFind_eq, hnot,
        decide_false, Bool.not_false, Queues.listPush_eq]
      rfl
    have hstat : k'.status = Function.update k.status u .ready :=
      k.status_update u _ (fun task => { k' with task := task }) fun _ => rfl
    refine ⟨k', hk', ⟨rfl, rfl, rfl, rfl⟩, rfl, hstat, stackMagic_update k.task _ _ rfl, ?_⟩
    rw [hstat]
    exact hp.unblock hc hb hw

/-! ## `thread_start` and the timer -/

/-- `thread_start` on the page of a thread in no list. -/
theorem threadStart_eq {r : Option Tid} {u : Tid} (prio : UInt8)
    (hp : Partition k.lists k.status created waiting r) (hc : created u = false) :
    threadStart u prio k = .ok { k with
      task := Function.update k.task u (initThread false prio)
      lists := Function.update (Function.update k.lists .ready (k.lists .ready ++ [.generalTag u]))
        .all (k.lists .all ++ [.allListTag u]) } := by
  have hready : ElemAddr.generalTag u ∉ k.lists .ready := by
    intro h
    have := (hp.mem_ready h).1
    rw [hc] at this
    cases this
  have hall : ElemAddr.generalTag u ∉ k.lists .all := by
    intro h
    obtain ⟨v, heq, -⟩ := (hp.all_iff _).mp h
    cases heq
  simp only [threadStart, Queues.elemFind_eq, hready, hall, decide_false, Bool.not_false,
    assert_true, ok_bind, Queues.listAppend_eq]
  rw [Function.update_of_ne (by simp)]
  rfl

/-- `thread_start` on the page of no thread. -/
theorem threadStart_spec {r : Option Tid} {u : Tid} (prio : UInt8)
    (hp : Partition k.lists k.status created waiting r) (hc : created u = false)
    (hr : r ≠ some u) :
    ∃ k', threadStart u prio k = .ok k' ∧ SyncUnchanged k k' ∧ k'.running = k.running ∧
      k'.status = Function.update k.status u .ready ∧
      k'.task = Function.update k.task u (initThread false prio) ∧
      Partition k'.lists k'.status (Function.update created u true) waiting r := by
  let k' : Kernel Queues := { k with
    task := Function.update k.task u (initThread false prio)
    lists := Function.update (Function.update k.lists .ready (k.lists .ready ++ [.generalTag u]))
      .all (k.lists .all ++ [.allListTag u]) }
  have hstat : k'.status = Function.update k.status u .ready :=
    k.status_update u (initThread false prio) (fun task => { k' with task := task }) fun _ => rfl
  refine ⟨k', threadStart_eq prio hp hc, ⟨rfl, rfl, rfl, rfl⟩, rfl, hstat, rfl, ?_⟩
  rw [hstat]
  exact hp.start hc hr

/-- The timer handler, entered with interrupts off: it returns unless the stack's magic number is
gone, on the same thread or on the next one. -/
theorem intrTimerHandler_spec (hp : Partition k.lists k.status created waiting (some k.running))
    (hoff : k.intr = .off) (hc : created k.running = true) :
    ((k.task k.running).stackMagic ≠ 0x12345678 ∧
      intrTimerHandler k = .error .timerStackMagic) ∨
    ∃ k', intrTimerHandler k = .ok k' ∧ Dispatched created waiting k k' := by
  by_cases hm : (k.task k.running).stackMagic = 0x12345678
  · right
    have hassert : assert (decide ((k.task k.running).stackMagic = 0x12345678))
        .timerStackMagic = .ok () := by
      rw [decide_eq_true hm, assert_true]
    let pcb := { k.task k.running with elapsedTicks := (k.task k.running).elapsedTicks + 1 }
    let k₁ : Kernel Queues := { k with
      task := Function.update k.task k.running pcb, ticks := k.ticks + 1 }
    have hstat : ∀ (p : TaskStruct) (k₂ : Kernel Queues), p.status = k.status k.running →
        k₂.task = Function.update k.task k.running p → k₂.status = k.status := by
      intro p k₂ hp₂ ht
      funext t
      unfold Kernel.status
      rw [ht, Function.update_apply]
      split
      · next h => rw [h]; exact hp₂
      · rfl
    by_cases hz : pcb.ticks == 0
    · have hp₁ : Partition k₁.lists k₁.status created waiting (some k₁.running) := by
        rw [hstat pcb k₁ rfl rfl]
        exact hp
      obtain ⟨k', hk', hd⟩ := schedule_running hp₁ hoff hc
      have hawake : ∀ t, k.Awake t → k'.Awake t := by
        intro t ht
        apply hd.awake
        unfold Kernel.Awake
        rw [hstat pcb k₁ rfl rfl]
        exact ht
      refine ⟨k', ?_, ⟨hd.sync.intr, hd.sync.value, hd.sync.holder, hd.sync.holderRepeatNr⟩,
        hd.running_created, fun t => (hd.magic t).trans (stackMagic_update k.task k.running pcb rfl t), hawake,
        hd.partition⟩
      unfold intrTimerHandler
      show (assert _ _ >>= _) = _
      rw [hassert, ok_bind]
      exact (if_pos hz).trans hk'
    · let pcb₂ := { pcb with ticks := pcb.ticks - 1 }
      let k₂ : Kernel Queues := { k₁ with task := Function.update k₁.task k.running pcb₂ }
      have hstat₂ : k₂.status = k.status := hstat pcb₂ k₂ rfl (Function.update_idem ..)
      have hmagic : ∀ t, (k₂.task t).stackMagic = (k.task t).stackMagic := by
        intro t
        show (Function.update (Function.update k.task k.running pcb) k.running pcb₂ t).stackMagic = _
        rw [Function.update_idem]
        exact stackMagic_update k.task k.running pcb₂ rfl t
      refine ⟨k₂, ?_, ⟨rfl, rfl, rfl, rfl⟩, hc, hmagic, ?_, ?_⟩
      · unfold intrTimerHandler
        show (assert _ _ >>= _) = _
        rw [hassert, ok_bind]
        exact if_neg hz
      · intro t ht
        unfold Kernel.Awake
        rw [hstat₂]
        exact ht
      · rw [hstat₂]
        exact hp
  · left
    refine ⟨hm, ?_⟩
    simp only [intrTimerHandler, hm, decide_false, assert_false, error_bind]

end

end OsKernel
