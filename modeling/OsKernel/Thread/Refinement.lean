import OsKernel.Thread.Invariant

/-!
# list.c carries the scheduler

The machine that works on the pointers of list.c takes the same steps as the machine over the
abstract store of lists, as long as the latter is partitioned: every operation of list.c that
thread.c and sync.c call is called where its preconditions hold. So every result about the
abstract machine is one about the pointers.

- `KernelRel`: equal but for the lists, and the heap holds the abstract lists.
- `schedule_agree`, `threadBlock_agree`, `threadUnblock_agree`, `threadStart_agree`,
  `intrTimerHandler_agree`, `semaDownTest_agree`, `semaUp_agree`, `exec_agree`: one function each.
- `machine_simulation`: one event; `heap_reach`: every run.
-/

namespace OsKernel

open Lib

variable {P : Program}

/-- The same state over another store of lists. -/
def Kernel.withLists {H H' : Type} (k : Kernel H) (lists : H') : Kernel H' :=
  { intr := k.intr, running := k.running, task := k.task, lists := lists, value := k.value,
    holder := k.holder, holderRepeatNr := k.holderRepeatNr, ticks := k.ticks }

/-- The same configuration over another store of lists. -/
def Config.withLists {H H' : Type} (c : Config H P) (lists : H') : Config H' P :=
  { kernel := c.kernel.withLists lists, mem := c.mem, stack := c.stack, history := c.history }

/-- The heap `h` holds the lists `Q`. -/
abbrev Holds (h : LinkHeap ElemAddr) (Q : Queues) : Prop := Represents ListRef.ends h Q

/-- Equal but for the lists, which the heap represents. -/
def KernelRel (k : Kernel (LinkHeap ElemAddr)) (a : Kernel Queues) : Prop :=
  ∃ h, k = a.withLists h ∧ Holds h a.lists

def ConfigRel (c : Config (LinkHeap ElemAddr) P) (a : Config Queues P) : Prop :=
  ∃ h, c = a.withLists h ∧ Holds h a.kernel.lists

/-! ## The list operations -/

section Lists

variable {h : LinkHeap ElemAddr} {Q : Queues} {status : Tid → TaskStatus} {created : Tid → Bool}
variable {waiting : SemaRef → Tid → Bool} {r : Option Tid}

/-- Members of lists are tags, and no tag was linked at the start. -/
theorem Partition.startLink_next (hp : Partition Q status created waiting r) (q : ListRef)
    (x : ElemAddr) (hx : x ∈ Q q) : (StartLinks.startLink x).next = none := by
  cases x with
  | head q' => exact absurd hx (hp.head_not_mem q' q)
  | tail q' => exact absurd hx (hp.tail_not_mem q' q)
  | generalTag t => rfl
  | allListTag t => rfl

theorem elemFind_agree (hr : Holds h Q) (hp : Partition Q status created waiting r) (q : ListRef)
    (e : ElemAddr) : TaskLists.elemFind q e h = TaskLists.elemFind q e Q :=
  elemFind_spec hr q e (hp.startLink_next q)

theorem listEmpty_agree (hr : Holds h Q) (q : ListRef) :
    TaskLists.listEmpty q h = TaskLists.listEmpty q Q :=
  listEmpty_spec hr q

/-- A general tag in no list is no node of any list. -/
theorem generalTag_not_node {t : Tid} (ht : ∀ q, ElemAddr.generalTag t ∉ Q q) (q : ListRef) :
    ElemAddr.generalTag t ∉ q.ends.nodes (Q q) := by
  simp [ListEnds.nodes, ListRef.ends, ht q]

theorem listAppend_agree (hr : Holds h Q) (q : ListRef) {e : ElemAddr}
    (he : ∀ q' : ListRef, e ∉ q'.ends.nodes (Q q')) :
    Agree Holds (TaskLists.listAppend q e h : Except Panic (LinkHeap ElemAddr))
      (TaskLists.listAppend q e Q) := by
  obtain ⟨h', hh', hr'⟩ := listAppend_spec hr q he
  have heq : TaskLists.listAppend q e h = .ok h' := hh'
  rw [heq, Queues.listAppend_eq]
  exact .ok hr'

theorem listPush_agree (hr : Holds h Q) (q : ListRef) {e : ElemAddr}
    (he : ∀ q' : ListRef, e ∉ q'.ends.nodes (Q q')) :
    Agree Holds (TaskLists.listPush q e h : Except Panic (LinkHeap ElemAddr))
      (TaskLists.listPush q e Q) := by
  obtain ⟨h', hh', hr'⟩ := listPush_spec hr q he
  have heq : TaskLists.listPush q e h = .ok h' := hh'
  rw [heq, Queues.listPush_eq]
  exact .ok hr'

theorem listPop_agree (hr : Holds h Q) {q : ListRef} (hne : Q q ≠ []) :
    Agree (fun x y => x.1 = y.1 ∧ Holds x.2 y.2)
      (TaskLists.listPop q h : Except Panic (Option ElemAddr × LinkHeap ElemAddr))
      (TaskLists.listPop q Q) := by
  obtain ⟨e, es, hq⟩ := List.exists_cons_of_ne_nil hne
  obtain ⟨h', hh', hr'⟩ := listPop_spec hr hq
  have heq : TaskLists.listPop q h = .ok (some e, h') := hh'
  rw [heq, Queues.listPop_cons hq]
  exact .ok ⟨rfl, hr'⟩

end Lists

/-! ## thread.c -/

section Thread

variable {h : LinkHeap ElemAddr} {a : Kernel Queues} {Q : Queues} {status : Tid → TaskStatus}
variable {created : Tid → Bool} {waiting : SemaRef → Tid → Bool} {r : Option Tid}

/-- The running thread's general tag is in no list. -/
theorem running_tag_free (hp : Partition a.lists a.status created waiting (some a.running))
    (hc : created a.running = true) (q : ListRef) :
    ElemAddr.generalTag a.running ∉ a.lists q := by
  intro hmem
  have hrun : a.status a.running = .running := (hp.running_iff _ hc).mpr rfl
  rcases (hp.generalTag_mem hmem).2 with hs | ⟨s, -, hw⟩
  · rw [hrun] at hs
    cases hs
  · have hs := (hp.waiting_blocked s _ hw).2
    rw [hrun] at hs
    cases hs

theorem scheduleRequeue_agree (hr : Holds h a.lists)
    (hp : Partition a.lists a.status created waiting (some a.running))
    (hc : created a.running = true) :
    Agree KernelRel (scheduleRequeue (a.withLists h)) (scheduleRequeue a) := by
  have hrun : (a.task a.running).status = .running := (hp.running_iff _ hc).mpr rfl
  have hfree := generalTag_not_node (running_tag_free hp hc)
  unfold scheduleRequeue
  show Agree KernelRel (if (a.task a.running).status = .running then _ else _)
    (if (a.task a.running).status = .running then _ else _)
  rw [if_pos hrun, if_pos hrun]
  apply Agree.bind (.of_eq (elemFind_agree hr hp .ready (.generalTag a.running)))
  intro _ found _ hfound
  subst hfound
  apply Agree.bind (.of_eq rfl)
  intro _ _ _ _
  apply Agree.bind (listAppend_agree hr .ready hfree)
  intro h' Q' _ hr'
  exact .ok ⟨h', rfl, hr'⟩

theorem scheduleNext_agree (hr : Holds h a.lists) :
    Agree KernelRel (scheduleNext (a.withLists h)) (scheduleNext a) := by
  unfold scheduleNext
  have hempty : TaskLists.listEmpty .ready h = TaskLists.listEmpty .ready a.lists :=
    listEmpty_agree hr .ready
  apply Agree.bind (.of_eq (by rw [← hempty]; rfl))
  intro _ _ hassert _
  have hne : a.lists .ready ≠ [] := by
    intro hnil
    simp [hnil] at hassert
  apply Agree.bind (listPop_agree hr hne)
  rintro ⟨_, h'⟩ ⟨e, Q'⟩ _ ⟨rfl, hr'⟩
  apply Agree.bind (.of_eq rfl)
  rintro next _ _ rfl
  exact .ok ⟨h', rfl, hr'⟩

theorem schedule_agree_running (hr : Holds h a.lists)
    (hp : Partition a.lists a.status created waiting (some a.running))
    (hc : created a.running = true) :
    Agree KernelRel (schedule (a.withLists h)) (schedule a) := by
  unfold schedule
  apply Agree.bind (.of_eq rfl)
  intro _ _ _ _
  apply Agree.bind (scheduleRequeue_agree hr hp hc)
  rintro _ a₁ ha₁ ⟨h₁, rfl, hr₁⟩
  exact scheduleNext_agree hr₁

theorem schedule_agree_blocked (hr : Holds h a.lists) (hnr : a.status a.running ≠ .running) :
    Agree KernelRel (schedule (a.withLists h)) (schedule a) := by
  unfold schedule
  apply Agree.bind (.of_eq rfl)
  intro _ _ _ _
  rw [scheduleRequeue_blocked hnr,
    scheduleRequeue_blocked (show (a.withLists h).status a.running ≠ .running from hnr)]
  exact scheduleNext_agree hr

theorem threadBlock_agree (stat : TaskStatus) (hr : Holds h a.lists) :
    Agree KernelRel (threadBlock stat (a.withLists h)) (threadBlock stat a) := by
  unfold threadBlock
  cases hb : stat.isBlocked with
  | false => exact .error _
  | true =>
    have hnr : (a.asleep stat).status (a.asleep stat).running ≠ .running := by
      rw [a.asleep_status]
      show Function.update a.status a.running stat a.running ≠ _
      rw [Function.update_self]
      exact (TaskStatus.isBlocked_ne hb).1
    exact schedule_agree_blocked (a := a.asleep stat) hr hnr

theorem threadUnblock_agree {u : Tid} (hr : Holds h a.lists)
    (hp : Partition a.lists a.status created waiting r) (hw : ∀ s, waiting s u = false) :
    Agree KernelRel (threadUnblock u (a.withLists h)) (threadUnblock u a) := by
  unfold threadUnblock
  apply Agree.bind (.of_eq rfl)
  intro _ _ _ _
  cases hs : (a.task u).status != .ready with
  | false =>
    have hs' : (((a.withLists h).task u).status != .ready) = false := hs
    rw [hs']
    exact .ok ⟨h, rfl, hr⟩
  | true =>
    have hs' : (((a.withLists h).task u).status != .ready) = true := hs
    rw [hs']
    have hfree : ∀ q, ElemAddr.generalTag u ∉ a.lists q := by
      intro q hmem
      rcases (hp.generalTag_mem hmem).2 with hready | ⟨s, -, hws⟩
      · exact bne_iff_ne.mp hs hready
      · rw [hw s] at hws
        cases hws
    apply Agree.bind (.of_eq (elemFind_agree hr hp .ready (.generalTag u)))
    rintro _ found _ rfl
    apply Agree.bind (.of_eq rfl)
    intro _ _ _ _
    apply Agree.bind (listPush_agree hr .ready (generalTag_not_node hfree))
    intro h' Q' _ hr'
    exact .ok ⟨h', rfl, hr'⟩

/-- A thread that was not created is in no list. -/
theorem generalTag_new (hp : Partition Q status created waiting r) {u : Tid}
    (hc : created u = false) (q : ListRef) : ElemAddr.generalTag u ∉ Q q := by
  intro hmem
  have := (hp.generalTag_mem hmem).1
  rw [hc] at this
  cases this

/-- Its other tag is in no list either, also when the thread is ready already. -/
theorem allListTag_not_node (hp : Partition Q status created waiting r) {u : Tid}
    (hc : created u = false) (q : ListRef) : ElemAddr.allListTag u ∉ q.ends.nodes
      (Function.update Q .ready (Q .ready ++ [.generalTag u]) q) := by
  have hall : ∀ q, ElemAddr.allListTag u ∉ Q q := by
    intro q hmem
    cases q with
    | ready =>
      obtain ⟨t, heq, -⟩ := (hp.ready_iff _).mp hmem
      cases heq
    | all =>
      obtain ⟨t, heq, ht⟩ := (hp.all_iff _).mp hmem
      cases heq
      rw [hc] at ht
      cases ht
    | waiters s =>
      obtain ⟨t, heq, -⟩ := (hp.waiters_iff s _).mp hmem
      cases heq
  intro hmem
  cases q with
  | ready => simp [ListEnds.nodes, ListRef.ends, hall] at hmem
  | all => simp [ListEnds.nodes, ListRef.ends, hall] at hmem
  | waiters s => simp [ListEnds.nodes, ListRef.ends, hall] at hmem

theorem threadStart_agree {u : Tid} (prio : UInt8) (hr : Holds h a.lists)
    (hp : Partition a.lists a.status created waiting r) (hc : created u = false) :
    Agree KernelRel (threadStart u prio (a.withLists h)) (threadStart u prio a) := by
  unfold threadStart
  apply Agree.bind (.of_eq (elemFind_agree hr hp .ready (.generalTag u)))
  rintro _ found _ rfl
  apply Agree.bind (.of_eq rfl)
  intro _ _ _ _
  apply Agree.bind (.of_eq (elemFind_agree hr hp .all (.generalTag u)))
  rintro _ found _ rfl
  apply Agree.bind (.of_eq rfl)
  intro _ _ _ _
  apply Agree.bind (listAppend_agree hr .ready (generalTag_not_node (generalTag_new hp hc)))
  intro h₁ Q₁ hQ₁ hr₁
  rw [Queues.listAppend_eq] at hQ₁
  cases hQ₁
  -- the other tag of the PCB is still in no list
  apply Agree.bind (listAppend_agree hr₁ .all (allListTag_not_node hp hc))
  intro h₂ Q₂ _ hr₂
  exact .ok ⟨h₂, rfl, hr₂⟩

theorem intrTimerHandler_agree (hr : Holds h a.lists)
    (hp : Partition a.lists a.status created waiting (some a.running))
    (hc : created a.running = true) :
    Agree KernelRel (intrTimerHandler (a.withLists h)) (intrTimerHandler a) := by
  unfold intrTimerHandler
  apply Agree.bind (.of_eq rfl)
  intro _ _ _ _
  show Agree KernelRel (if ((a.task a.running).ticks == 0) = true then _ else _)
    (if ((a.task a.running).ticks == 0) = true then _ else _)
  by_cases hz : ((a.task a.running).ticks == 0) = true
  · rw [if_pos hz, if_pos hz]
    let pcb := { a.task a.running with elapsedTicks := (a.task a.running).elapsedTicks + 1 }
    let a₁ : Kernel Queues := { a with
      task := Function.update a.task a.running pcb, ticks := a.ticks + 1 }
    have hstat : a₁.status = a.status :=
      (a.status_update a.running pcb (fun task => { a₁ with task := task }) fun _ => rfl).trans
        (Function.update_eq_self ..)
    have hp₁ : Partition a₁.lists a₁.status created waiting (some a₁.running) := by
      rw [hstat]
      exact hp
    exact schedule_agree_running (a := a₁) hr hp₁ hc
  · rw [if_neg hz, if_neg hz]
    exact .ok ⟨h, rfl, hr⟩

end Thread

/-! ## The machine -/

section Machine

variable {h : LinkHeap ElemAddr} {a : Config Queues P} {rest : List (Frame P.Loc)}

theorem semaDownTest_agree (s : SemaRef) (o : IntrStatus) (hr : Holds h a.kernel.lists)
    (hinv : SchedInv a) :
    Agree ConfigRel (semaDownTest s o rest (a.withLists h)) (semaDownTest s o rest a) := by
  unfold semaDownTest
  by_cases hv : a.kernel.value s = 0
  · show Agree ConfigRel (if a.kernel.value s = 0 then _ else _)
      (if a.kernel.value s = 0 then _ else _)
    rw [if_pos hv, if_pos hv]
    have hfree := generalTag_not_node (running_tag_free hinv.partition hinv.running_created)
    apply Agree.bind (.of_eq (elemFind_agree hr hinv.partition (.waiters s)
      (.generalTag a.kernel.running)))
    rintro _ found _ rfl
    apply Agree.bind (.of_eq rfl)
    intro _ _ _ _
    apply Agree.bind (listAppend_agree hr (.waiters s) hfree)
    intro h₁ Q₁ _ hr₁
    apply Agree.bind (threadBlock_agree (a := { a.kernel with lists := Q₁ }) .blocked hr₁)
    rintro _ k _ ⟨h₂, rfl, hr₂⟩
    exact .ok ⟨h₂, rfl, hr₂⟩
  · show Agree ConfigRel (if a.kernel.value s = 0 then _ else _)
      (if a.kernel.value s = 0 then _ else _)
    rw [if_neg hv, if_neg hv]
    apply Agree.bind (.of_eq rfl)
    intro _ _ _ _
    exact .ok ⟨h, rfl, hr⟩

theorem semaUpWake_agree (s : SemaRef) (hr : Holds h a.kernel.lists) (hinv : SchedInv a)
    (hist : History) :
    Agree (fun x y => KernelRel x.1 y.1 ∧ x.2 = y.2) (semaUpWake s (a.kernel.withLists h) hist)
      (semaUpWake s a.kernel hist) := by
  have hempty : TaskLists.listEmpty (.waiters s) (a.kernel.withLists h).lists =
      TaskLists.listEmpty (.waiters s) a.kernel.lists := listEmpty_agree hr (.waiters s)
  unfold semaUpWake
  rw [hempty]
  cases hq : a.kernel.lists (.waiters s) with
  | nil =>
    simp only [Queues.listEmpty_eq, hq, decide_true, Bool.not_true]
    exact .ok ⟨⟨h, rfl, hr⟩, rfl⟩
  | cons e es =>
    simp only [Queues.listEmpty_eq, hq, reduceCtorEq, decide_false, Bool.not_false, if_true]
    apply Agree.bind (listPop_agree hr (by rw [hq]; simp))
    rintro ⟨_, h₁⟩ ⟨e', Q₁⟩ hpop ⟨rfl, hr₁⟩
    rw [Queues.listPop_cons hq] at hpop
    cases hpop
    obtain ⟨u, rfl, hw⟩ := hinv.partition.waiters_head hq
    -- the popped waiter is in no list, so `thread_unblock` may push it
    have hp := hinv.partition.popWaiter hq rfl
    have hfree := hinv.partition.popWaiter_free hw
    apply Agree.bind (.of_eq rfl)
    rintro u' _ hu rfl
    cases hu
    apply Agree.bind (threadUnblock_agree (a := { a.kernel with lists := _ }) hr₁ hp hfree)
    rintro _ k _ ⟨h₂, rfl, hr₂⟩
    exact .ok ⟨⟨h₂, rfl, hr₂⟩, rfl⟩

theorem semaUp_agree (s : SemaRef) (hr : Holds h a.kernel.lists) (hinv : SchedInv a) :
    Agree ConfigRel (semaUp s rest (a.withLists h)) (semaUp s rest a) := by
  unfold semaUp
  apply Agree.bind (.of_eq rfl)
  intro _ _ _ _
  apply Agree.bind (semaUpWake_agree s hr hinv _)
  rintro ⟨k', hist'⟩ ⟨k, hist⟩ _ ⟨⟨h₁, hk, hr₁⟩, hhist⟩
  dsimp only at hk hhist
  subst hk hhist
  apply Agree.bind (.of_eq rfl)
  intro _ _ _ _
  exact .ok ⟨h₁, rfl, hr₁⟩

theorem lockAcquire_agree (plock : Nat) (pc : AcquirePc) (hr : Holds h a.kernel.lists) :
    Agree ConfigRel (lockAcquire plock pc rest (a.withLists h)) (lockAcquire plock pc rest a) := by
  cases pc with
  | test =>
    show Agree ConfigRel (if a.kernel.holder plock ≠ some a.kernel.running then _ else _)
      (if a.kernel.holder plock ≠ some a.kernel.running then _ else _)
    split
    · exact .ok ⟨h, rfl, hr⟩
    · exact .ok ⟨h, rfl, hr⟩
  | assertRepeatNr =>
    apply Agree.bind (.of_eq rfl)
    intro _ _ _ _
    exact .ok ⟨h, rfl, hr⟩
  | setHolder => exact .ok ⟨h, rfl, hr⟩
  | setRepeatNr => exact .ok ⟨h, rfl, hr⟩
  | loadRepeatNr => exact .ok ⟨h, rfl, hr⟩
  | storeRepeatNr nr => exact .ok ⟨h, rfl, hr⟩

theorem lockRelease_agree (plock : Nat) (pc : ReleasePc) (hr : Holds h a.kernel.lists) :
    Agree ConfigRel (lockRelease plock pc rest (a.withLists h)) (lockRelease plock pc rest a) := by
  cases pc with
  | test =>
    show Agree ConfigRel (if a.kernel.holderRepeatNr plock > 1 then _ else _)
      (if a.kernel.holderRepeatNr plock > 1 then _ else _)
    split
    · exact .ok ⟨h, rfl, hr⟩
    · exact .ok ⟨h, rfl, hr⟩
  | assertHolder =>
    apply Agree.bind (.of_eq rfl)
    intro _ _ _ _
    exact .ok ⟨h, rfl, hr⟩
  | assertRepeatNr =>
    apply Agree.bind (.of_eq rfl)
    intro _ _ _ _
    exact .ok ⟨h, rfl, hr⟩
  | loadRepeatNr => exact .ok ⟨h, rfl, hr⟩
  | storeRepeatNr nr => exact .ok ⟨h, rfl, hr⟩
  | clearHolder => exact .ok ⟨h, rfl, hr⟩
  | clearRepeatNr => exact .ok ⟨h, rfl, hr⟩

theorem execProg_agree (act : Action P.Mem P.Loc) (hr : Holds h a.kernel.lists) :
    Agree ConfigRel (execProg act rest (a.withLists h)) (execProg act rest a) := by
  cases act with
  | panic p => exact .error p
  | goto m l => exact .ok ⟨h, rfl, hr⟩
  | setIntr status l => exact .ok ⟨h, rfl, hr⟩
  | call m f l => exact .ok ⟨h, rfl, hr⟩
  | enter m callee l => exact .ok ⟨h, rfl, hr⟩
  | ret m => exact .ok ⟨h, rfl, hr⟩

/-- One statement of the running thread. -/
theorem exec_agree (input : P.Input) (f : Frame P.Loc) (hr : Holds h a.kernel.lists)
    (hinv : SchedInv a) (hg : FrameGuard a f) :
    Agree ConfigRel (exec input f rest (a.withLists h)) (exec input f rest a) := by
  cases f with
  | prog l => exact execProg_agree _ hr
  | kernelThread => exact .ok ⟨h, rfl, hr⟩
  | intrExit eflags => exact .ok ⟨h, rfl, hr⟩
  | threadBlockCall stat =>
    apply Agree.bind (threadBlock_agree stat hr)
    rintro _ k _ ⟨h₁, rfl, hr₁⟩
    exact .ok ⟨h₁, rfl, hr₁⟩
  | threadBlock oldStatus => exact .ok ⟨h, rfl, hr⟩
  | threadUnblock pthread =>
    apply Agree.bind (threadUnblock_agree hr hinv.partition hg.2)
    rintro _ k _ ⟨h₁, rfl, hr₁⟩
    exact .ok ⟨h₁, rfl, hr₁⟩
  | threadStart thread prio function =>
    apply Agree.bind (threadStart_agree prio hr hinv.partition hg.1)
    rintro _ k _ ⟨h₁, rfl, hr₁⟩
    exact .ok ⟨h₁, rfl, hr₁⟩
  | semaDownCall psema => exact .ok ⟨h, rfl, hr⟩
  | semaDown psema oldStatus => exact semaDownTest_agree psema oldStatus hr hinv
  | semaUp psema => exact semaUp_agree psema hr hinv
  | lockAcquire plock pc => exact lockAcquire_agree plock pc hr
  | lockRelease plock pc => exact lockRelease_agree plock pc hr

/-- **One event**: both machines can take it or neither, with the same outcome. -/
theorem machineStep_agree (e : Event P) (hr : Holds h a.kernel.lists) (hinv : SchedInv a)
    (hg : SchedGuard a e) :
    Matches ConfigRel (machineStep e (a.withLists h)) (machineStep e a) := by
  cases e with
  | exec input =>
    unfold machineStep
    have htop : (a.withLists h).top = a.top := rfl
    rw [htop]
    cases hs : a.top with
    | nil => exact .none
    | cons f rest =>
      apply Matches.some
      exact exec_agree input f hr hinv (hg f (by rw [hs]; rfl))
  | timer =>
    show Matches ConfigRel (if a.kernel.intr = .on then _ else _)
      (if a.kernel.intr = .on then _ else _)
    split
    · apply Matches.some
      apply Agree.bind (intrTimerHandler_agree (a := { a.kernel with intr := .off }) hr
        hinv.partition hinv.running_created)
      rintro _ k _ ⟨h₁, rfl, hr₁⟩
      exact .ok ⟨h₁, rfl, hr₁⟩
    · exact .none
  | device input =>
    show Matches ConfigRel (if a.kernel.intr = .on then _ else _)
      (if a.kernel.intr = .on then _ else _)
    split
    · cases hh : P.handler input with
      | none => exact .none
      | some l => exact .some (.ok ⟨h, rfl, hr⟩)
    · exact .none

end Machine

/-! ## Runs -/

/-- Before `thread_init` the heap holds empty lists. -/
theorem start_holds : Holds TaskLists.start TaskLists.start where
  dlist q := by
    have hhead : (TaskLists.start : LinkHeap ElemAddr).get (.head q) =
        ⟨none, some (.tail q)⟩ := rfl
    have htail : (TaskLists.start : LinkHeap ElemAddr).get (.tail q) =
        ⟨some (.head q), none⟩ := rfl
    refine ⟨?_, congrArg Link.prev hhead, congrArg Link.next htail, ?_⟩
    · show List.IsChain (Linked TaskLists.start) [ElemAddr.head q, .tail q]
      simp [Linked, hhead, htail]
    · show List.Nodup [ElemAddr.head q, .tail q]
      simp
  disjoint i j hij x hx := by
    have hi : x = .head i ∨ x = .tail i := by
      simpa [ListEnds.nodes, ListRef.ends, TaskLists.start] using hx
    rcases hi with rfl | rfl
    · simp [ListEnds.nodes, ListRef.ends, TaskLists.start, hij]
    · simp [ListEnds.nodes, ListRef.ends, TaskLists.start, hij]

/-- A booted heap machine is related to a booted abstract one. -/
theorem booted_agree {c : Config (LinkHeap ElemAddr) P} (hb : Booted c) :
    ∃ a : Config Queues P, Booted a ∧ ConfigRel c a := by
  obtain ⟨k, hlists, hk⟩ := hb.kernel
  let k₀ : Kernel Queues := k.withLists TaskLists.start
  have hk₀ : k = k₀.withLists (TaskLists.start : LinkHeap ElemAddr) := by
    rw [← hlists]
    rfl
  have hagree : Agree KernelRel (threadInit k) (threadInit k₀) := by
    have hfind : TaskLists.elemFind .all (.allListTag k.running) k.lists =
        TaskLists.elemFind .all (.allListTag k.running) k₀.lists := by
      rw [hlists]
      exact elemFind_spec start_holds .all _ nofun
    unfold threadInit
    apply Agree.bind (.of_eq hfind)
    rintro _ found _ rfl
    apply Agree.bind (.of_eq rfl)
    intro _ _ _ _
    have hfree : ∀ q : ListRef, ElemAddr.allListTag k.running ∉
        q.ends.nodes ((TaskLists.start : Queues) q) := by
      intro q
      simp [ListEnds.nodes, ListRef.ends, TaskLists.start]
    apply Agree.bind (listAppend_agree (hlists ▸ start_holds) .all hfree)
    intro h' Q' _ hr'
    exact .ok ⟨h', rfl, hr'⟩
  rw [hk] at hagree
  cases ha : threadInit k₀ with
  | error p => rw [ha] at hagree; cases hagree
  | ok a =>
    rw [ha] at hagree
    cases hagree with
    | ok hrel =>
      obtain ⟨h, hck, hr⟩ := hrel
      refine ⟨{ kernel := a, mem := c.mem, stack := c.stack, history := c.history }, ?_, h, ?_, hr⟩
      · have hrun : c.kernel.running = a.running := by rw [hck]; rfl
        exact ⟨⟨k₀, rfl, ha⟩, hrun ▸ hb.stack, hrun ▸ hb.created, hb.acquired, hb.downs,
          hb.waiting, hb.woken⟩
      · unfold Config.withLists
        rw [← hck]

/-- The machine on list.c's pointers is simulated by the machine on sequences. -/
theorem machine_simulation {guard : Config Queues P → Event P → Prop}
    (hguard : ∀ a e, guard a e → SchedGuard a e)
    {initC : Config (LinkHeap ElemAddr) P → Prop} {initA : Config Queues P → Prop}
    (hinit : ∀ c, initC c → ∃ a, initA a ∧ ConfigRel c a) :
    Simulation (machine initC) (machine initA) ConfigRel SchedInv guard where
  init := hinit
  step := by
    rintro _ a e ⟨h, rfl, hr⟩ hinv hg
    exact machineStep_agree e hr hinv (hguard a e hg)

/-- **Transfer**: a reachable state of the machine on pointers represents a reachable state of the
machine on sequences. -/
theorem heap_reach {guardC : Config (LinkHeap ElemAddr) P → Event P → Prop}
    (guardA : Config Queues P → Event P → Prop)
    (hguard : ∀ a h e, guardC (a.withLists h) e → guardA a e)
    (hsched : ∀ a e, guardA a e → SchedGuard a e)
    {initC : Config (LinkHeap ElemAddr) P → Prop} {initA : Config Queues P → Prop}
    (hinit : ∀ c, initC c → ∃ a, initA a ∧ ConfigRel c a) (hbooted : ∀ a, initA a → SchedInv a)
    {c : Config (LinkHeap ElemAddr) P} (hc : (machine initC).Reach guardC c) :
    ∃ a, (machine initA).Reach guardA a ∧ SchedInv a ∧ ConfigRel c a := by
  have hinv := SchedInv.reach hbooted hsched
  obtain ⟨a, ha, hrel⟩ := (machine_simulation hsched hinit).reach
    (by rintro _ a e ⟨h, rfl, -⟩ hg; exact hguard a h e hg) hinv hc
  exact ⟨a, ha, hinv a ha, hrel⟩

/-- An event that stops one machine stops the other in the same way. -/
theorem heap_fault {c : Config (LinkHeap ElemAddr) P} {a : Config Queues P} (hrel : ConfigRel c a)
    (hinv : SchedInv a) {e : Event P} (hg : SchedGuard a e) {p : Panic}
    (h : machineStep e c = some (.error p)) : machineStep e a = some (.error p) := by
  obtain ⟨hp, rfl, hr⟩ := hrel
  have hm := machineStep_agree e hr hinv hg
  rw [h] at hm
  cases hs : machineStep e a with
  | none => rw [hs] at hm; cases hm
  | some out =>
    rw [hs] at hm
    cases hm with
    | some hag =>
      cases hag with
      | error => rfl

end OsKernel
