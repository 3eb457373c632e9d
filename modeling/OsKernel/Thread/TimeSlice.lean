import OsKernel.Lib.RoundRobin
import OsKernel.Thread.Refinement

/-!
# device/timer.c and schedule: time slices

Runs in which nothing happens but timer interrupts. The running thread and the ready list, each
thread with its `ticks` field, are a ring, and one interrupt is one tick of round robin with the
priorities as slices. This holds of the pointers of list.c, through the abstract lists.

- `timerRun`: timer interrupts in a row.
- `ServesRing`: the ring of a kernel.
- `Ring.tick`: one interrupt; `ServesRing.run`: any number of them.
- `time_slices`: who runs after which interrupt, and how the counters grow.
-/

namespace OsKernel

open Lib RoundRobin

/-- Timer interrupts in a row. Each one turns interrupts off before the handler runs. -/
def timerRun {H : Type} [TaskLists H] : Nat → Kernel H → Except Panic (Kernel H)
  | 0, k => return k
  | n + 1, k => do
    let k ← intrTimerHandler { k with intr := .off }
    timerRun n k

/-! ## The handler -/

section

variable {H : Type} [TaskLists H] {k : Kernel H}

/-- The counters after a timer interrupt. -/
def Kernel.charged (k : Kernel H) : Kernel H :=
  { k with
    task := Function.update k.task k.running
      { k.task k.running with elapsedTicks := (k.task k.running).elapsedTicks + 1 }
    ticks := k.ticks + 1 }

theorem intrTimerHandler_expired (hmagic : (k.task k.running).stackMagic = 0x12345678)
    (hticks : (k.task k.running).ticks = 0) : intrTimerHandler k = schedule k.charged := by
  unfold intrTimerHandler
  show (assert _ _ >>= _) = _
  rw [decide_eq_true hmagic, assert_true, ok_bind]
  exact if_pos (beq_iff_eq.mpr hticks)

theorem intrTimerHandler_left (hmagic : (k.task k.running).stackMagic = 0x12345678)
    (hticks : (k.task k.running).ticks ≠ 0) :
    intrTimerHandler k = .ok { k with
      task := Function.update k.task k.running
        { k.task k.running with
          elapsedTicks := (k.task k.running).elapsedTicks + 1
          ticks := (k.task k.running).ticks - 1 }
      ticks := k.ticks + 1 } := by
  unfold intrTimerHandler
  show (assert _ _ >>= _) = _
  rw [decide_eq_true hmagic, assert_true, ok_bind, ← Function.update_idem]
  exact if_neg fun hzero => hticks (beq_iff_eq.mp hzero)

end

/-- The second half of `schedule`, on a ready list with a head. -/
theorem scheduleNext_eq {k : Kernel Queues} {next : Tid} {es : List ElemAddr}
    (h : k.lists .ready = .generalTag next :: es) :
    scheduleNext k = .ok { k with
      lists := Function.update k.lists .ready es
      task := Function.update k.task next { k.task next with status := .running }
      running := next } := by
  have hne : k.lists .ready ≠ [] := by simp [h]
  simp only [scheduleNext, Queues.listEmpty_eq, hne, decide_false, Bool.not_false, assert_true,
    ok_bind, Queues.listPop_cons h, elem2entry]
  rfl

theorem Kernel.charged_status (k : Kernel Queues) : k.charged.status = k.status :=
  (k.status_update k.running _ (fun task => { k.charged with task := task }) fun _ => rfl).trans
    (Function.update_eq_self ..)

/-- The PCBs after a slice has ended and `next` has got the processor. -/
def Kernel.switchedTask (k : Kernel Queues) (next : Tid) : Tid → TaskStruct :=
  Function.update k.charged.requeued.task next
    { k.charged.requeued.task next with status := .running }

theorem Kernel.switchedTask_fields (k : Kernel Queues) (next u : Tid) :
    (k.switchedTask next u).ticks =
        (if u = k.running then (k.task u).priority else (k.task u).ticks) ∧
      (k.switchedTask next u).elapsedTicks =
        (if u = k.running then (k.task u).elapsedTicks + 1 else (k.task u).elapsedTicks) ∧
      (k.switchedTask next u).priority = (k.task u).priority := by
  -- the status is all that changes for `next`
  have hnext : ∀ v, (k.switchedTask next v).ticks = (k.charged.requeued.task v).ticks ∧
      (k.switchedTask next v).elapsedTicks = (k.charged.requeued.task v).elapsedTicks ∧
      (k.switchedTask next v).priority = (k.charged.requeued.task v).priority := by
    intro v
    by_cases hv : v = next
    · subst hv
      simp [Kernel.switchedTask]
    · simp [Kernel.switchedTask, hv]
  obtain ⟨hticks, helapsed, hprio⟩ := hnext u
  rw [hticks, helapsed, hprio]
  by_cases hu : u = k.running
  · subst hu
    simp [Kernel.requeued, Kernel.charged]
  · simp [Kernel.requeued, Kernel.charged, hu]

/-! ## The ring of a kernel -/

/-- The running thread and the ready list, in order, are the threads of `ring`, with its numbers in
their `ticks` fields; `quantum` are the priorities. -/
structure Ring (created : Tid → Bool) (waiting : SemaRef → Tid → Bool) (quantum : Tid → Nat)
    (a : Kernel Queues) (ring : List (Tid × Nat)) : Prop where
  partition : Partition a.lists a.status created waiting (some a.running)
  created : created a.running = true
  running : ring.head?.map Prod.fst = some a.running
  ready : a.lists .ready = ring.tail.map fun e => .generalTag e.1
  left : ∀ e ∈ ring, (a.task e.1).ticks.toNat = e.2
  magic : ∀ e ∈ ring, (a.task e.1).stackMagic = 0x12345678
  priority : ∀ t, (a.task t).priority.toNat = quantum t

/-- The same of the kernel that works on the pointers of list.c. -/
def ServesRing (quantum : Tid → Nat) (k : Kernel (LinkHeap ElemAddr)) (ring : List (Tid × Nat)) :
    Prop :=
  ∃ a created waiting, KernelRel k a ∧ Ring created waiting quantum a ring

/-- What `n` interrupts add to the counters, for any list of threads that has those of the ring. -/
structure Counted {H : Type} (ring : List (Tid × Nat)) (n : Nat) (k k' : Kernel H) : Prop where
  ticks : k'.ticks = k.ticks + UInt32.ofNat n
  elapsed : ∀ threads : List Tid, threads.Nodup → (∀ e ∈ ring, e.1 ∈ threads) →
    (threads.map fun t => (k'.task t).elapsedTicks).sum =
      (threads.map fun t => (k.task t).elapsedTicks).sum + UInt32.ofNat n

/-! ## One interrupt -/

/-- One more in one place is one more in the sum. -/
theorem sum_charged {f g : Tid → UInt32} {r : Tid} (hr : g r = f r + 1)
    (hother : ∀ t, t ≠ r → g t = f t) {threads : List Tid} (hnodup : threads.Nodup)
    (hmem : r ∈ threads) : (threads.map g).sum = (threads.map f).sum + 1 := by
  induction threads with
  | nil => cases hmem
  | cons t threads ih =>
    rw [List.nodup_cons] at hnodup
    rw [List.map_cons, List.map_cons, List.sum_cons, List.sum_cons]
    by_cases ht : t = r
    · subst ht
      have hsame : threads.map g = threads.map f := by
        apply List.map_congr_left
        intro u hu
        exact hother u fun heq => hnodup.1 (heq ▸ hu)
      rw [hr, hsame]
      grind
    · have hmem' : r ∈ threads := (List.mem_cons.mp hmem).resolve_left (Ne.symm ht)
      rw [hother t ht, ih hnodup.2 hmem']
      grind

/-- What one interrupt does to the counters of every thread. -/
structure Charged (a a' : Kernel Queues) : Prop where
  ticks : a'.ticks = a.ticks + 1
  running : (a'.task a.running).elapsedTicks = (a.task a.running).elapsedTicks + 1
  other : ∀ t, t ≠ a.running → (a'.task t).elapsedTicks = (a.task t).elapsedTicks

theorem Charged.counted {a a' : Kernel Queues} (h : Charged a a') {ring : List (Tid × Nat)}
    (hmem : ∃ e ∈ ring, e.1 = a.running) : Counted ring 1 a a' where
  ticks := h.ticks
  elapsed threads hnodup hring := by
    obtain ⟨e, he, hrun⟩ := hmem
    exact sum_charged h.running h.other hnodup (hrun ▸ hring e he)

section

variable {created : Tid → Bool} {waiting : SemaRef → Tid → Bool} {quantum : Tid → Nat}
variable {a : Kernel Queues} {t : Tid} {left : Nat} {rest : List (Tid × Nat)}

/-- The thread whose turn it is stands in no list, so it is not further down the ring. -/
theorem Ring.ne_running (h : Ring created waiting quantum a ((t, left) :: rest)) {e : Tid × Nat}
    (he : e ∈ rest) : e.1 ≠ a.running := by
  intro heq
  apply running_tag_free h.partition h.created .ready
  rw [h.ready, ← heq]
  exact List.mem_map_of_mem he

theorem Ring.dispatched {ring : List (Tid × Nat)} (h : Ring created waiting quantum a ring)
    {a' : Kernel Queues} (hok : intrTimerHandler { a with intr := .off } = .ok a') :
    Dispatched created waiting { a with intr := .off } a' := by
  rcases @intrTimerHandler_spec { a with intr := .off } _ _ h.partition rfl h.created with
    ⟨-, herror⟩ | ⟨a'', hok', hd⟩
  · rw [hok] at herror
    cases herror
  · rw [hok] at hok'
    cases hok'
    exact hd

/-- There is time left: the thread goes on. -/
theorem Ring.tick_left (h : Ring created waiting quantum a ((t, left + 1) :: rest)) :
    ∃ a', intrTimerHandler { a with intr := .off } = .ok a' ∧ Charged a a' ∧
      Ring created waiting quantum a' ((t, left) :: rest) := by
  have hrun : t = a.running := by simpa using h.running
  subst hrun
  have hmagic := h.magic _ List.mem_cons_self
  have hticks : (a.task a.running).ticks.toNat = left + 1 := h.left _ List.mem_cons_self
  have hne : (a.task a.running).ticks ≠ 0 := by
    intro hzero
    rw [hzero] at hticks
    cases hticks
  have hhandler := @intrTimerHandler_left Queues _ { a with intr := .off } hmagic hne
  have hd := h.dispatched hhandler
  refine ⟨_, hhandler, ⟨rfl, ?_, ?_⟩, ?_⟩
  · simp
  · intro u hu
    simp [Function.update_of_ne hu]
  · refine ⟨hd.partition, hd.running_created, rfl, h.ready, ?_, ?_, ?_⟩
    · intro e he
      rcases List.mem_cons.mp he with rfl | he
      · -- the field is not zero, so the decrement does not wrap
        have hle : (1 : UInt8) ≤ (a.task a.running).ticks := by
          rw [UInt8.le_iff_toNat_le]
          change 1 ≤ (a.task a.running).ticks.toNat
          omega
        simp [UInt8.toNat_sub_of_le _ _ hle, hticks]
      · simpa [Function.update_of_ne (h.ne_running he)] using h.left e (List.mem_cons_of_mem _ he)
    · intro e he
      rw [hd.magic]
      rcases List.mem_cons.mp he with rfl | he
      · exact hmagic
      · exact h.magic e (List.mem_cons_of_mem _ he)
    · intro u
      rw [← h.priority u]
      by_cases hu : u = a.running
      · subst hu
        simp
      · simp [Function.update_of_ne hu]

/-- The slice is used up: the thread goes to the end with a fresh one, and the head runs. -/
theorem Ring.tick_expired (h : Ring created waiting quantum a ((t, 0) :: rest)) :
    ∃ a', intrTimerHandler { a with intr := .off } = .ok a' ∧ Charged a a' ∧
      Ring created waiting quantum a' (rest ++ [(t, quantum t)]) := by
  have hrun : t = a.running := by simpa using h.running
  subst hrun
  have hmagic := h.magic _ List.mem_cons_self
  have hticks : (a.task a.running).ticks = 0 :=
    UInt8.toNat_inj.mp (h.left _ List.mem_cons_self)
  let k : Kernel Queues := { a with intr := .off }
  obtain ⟨⟨next, n⟩, es, hring⟩ :
      ∃ e es, rest ++ [(a.running, quantum a.running)] = e :: es :=
    List.exists_cons_of_ne_nil (by simp)
  have hcharged : Partition k.charged.lists k.charged.status created waiting
      (some k.charged.running) := by
    rw [k.charged_status]
    exact h.partition
  have hready : k.charged.requeued.lists .ready =
      .generalTag next :: es.map fun e => .generalTag e.1 := by
    have happend : k.charged.requeued.lists .ready =
        a.lists .ready ++ [.generalTag a.running] := by
      simp [Kernel.requeued, Kernel.charged, k]
    have hmap := congrArg (List.map fun e : Tid × Nat => ElemAddr.generalTag e.1) hring
    rw [List.map_append, List.map_cons] at hmap
    rw [happend, h.ready]
    exact hmap
  have hrequeue := scheduleRequeue_running hcharged h.created
  have hschedule : schedule k.charged = scheduleNext k.charged.requeued := by
    simp only [schedule]
    rw [hrequeue]
    rfl
  have hhandler := (@intrTimerHandler_expired Queues _ k hmagic hticks).trans
    (hschedule.trans (scheduleNext_eq hready))
  have hd := h.dispatched hhandler
  have hfields := k.switchedTask_fields next
  refine ⟨_, hhandler, ⟨rfl, ?_, ?_⟩, ?_⟩
  · exact (hfields a.running).2.1.trans (if_pos rfl)
  · intro u hu
    exact (hfields u).2.1.trans (if_neg hu)
  · rw [hring]
    refine ⟨hd.partition, hd.running_created, rfl, ?_, ?_, ?_, ?_⟩
    · exact Function.update_self ListRef.ready _ k.charged.requeued.lists
    · intro e he
      refine (congrArg UInt8.toNat (hfields e.1).1).trans ?_
      rw [← hring, List.mem_append, List.mem_singleton] at he
      rcases he with he | rfl
      · rw [if_neg (h.ne_running he)]
        exact h.left e (List.mem_cons_of_mem _ he)
      · rw [if_pos rfl]
        exact h.priority a.running
    · intro e he
      rw [hd.magic]
      rw [← hring, List.mem_append, List.mem_singleton] at he
      rcases he with he | rfl
      · exact h.magic e (List.mem_cons_of_mem _ he)
      · exact hmagic
    · intro u
      exact (congrArg UInt8.toNat (hfields u).2.2).trans (h.priority u)

/-- One interrupt is one tick of round robin. -/
theorem Ring.tick {ring : List (Tid × Nat)} (h : Ring created waiting quantum a ring) :
    ∃ a', intrTimerHandler { a with intr := .off } = .ok a' ∧ Charged a a' ∧
      Ring created waiting quantum a' (RoundRobin.tick quantum ring) := by
  match ring, h with
  | [], h => exact absurd h.running (by simp)
  | (t, 0) :: rest, h => exact h.tick_expired
  | (t, left + 1) :: rest, h => exact h.tick_left

end

/-! ## Any number of interrupts -/

theorem mem_tick {quantum : Tid → Nat} {ring : List (Tid × Nat)} {e : Tid × Nat}
    (he : e ∈ tick quantum ring) : ∃ e' ∈ ring, e'.1 = e.1 := by
  match ring with
  | [] => cases he
  | (t, 0) :: rest =>
    rw [tick, List.mem_append, List.mem_singleton] at he
    rcases he with he | rfl
    · exact ⟨e, List.mem_cons_of_mem _ he, rfl⟩
    · exact ⟨(t, 0), List.mem_cons_self, rfl⟩
  | (t, left + 1) :: rest =>
    rw [tick, List.mem_cons] at he
    rcases he with rfl | he
    · exact ⟨(t, left + 1), List.mem_cons_self, rfl⟩
    · exact ⟨e, List.mem_cons_of_mem _ he, rfl⟩

section

variable {k : Kernel (LinkHeap ElemAddr)} {quantum : Tid → Nat} {ring : List (Tid × Nat)}

/-- One interrupt, on the pointers of list.c. -/
theorem ServesRing.tick (h : ServesRing quantum k ring) :
    ∃ k', intrTimerHandler { k with intr := .off } = .ok k' ∧
      ServesRing quantum k' (RoundRobin.tick quantum ring) ∧ Counted ring 1 k k' := by
  obtain ⟨a, created, waiting, ⟨heap, rfl, hr⟩, hring⟩ := h
  obtain ⟨a', hok, hcharged, hring'⟩ := hring.tick
  have hagree := @intrTimerHandler_agree heap { a with intr := .off } created waiting hr
    hring.partition hring.created
  rw [hok] at hagree
  cases hagree' : intrTimerHandler (Kernel.withLists { a with intr := .off } heap) with
  | error p =>
    rw [hagree'] at hagree
    cases hagree
  | ok k' =>
    rw [hagree'] at hagree
    cases hagree with
    | ok hrel =>
      refine ⟨k', hagree', ⟨a', created, waiting, hrel, hring'⟩, ?_⟩
      obtain ⟨e, he, hrun⟩ := Option.map_eq_some_iff.mp hring.running
      have hcounted := hcharged.counted ⟨e, List.mem_of_mem_head? he, hrun⟩
      obtain ⟨heap', rfl, -⟩ := hrel
      exact ⟨hcounted.ticks, hcounted.elapsed⟩

theorem Counted.succ {n : Nat} {k₁ k₂ : Kernel (LinkHeap ElemAddr)} (h : Counted ring 1 k k₁)
    (h' : Counted (RoundRobin.tick quantum ring) n k₁ k₂) : Counted ring (n + 1) k k₂ where
  ticks := by
    rw [h'.ticks, h.ticks, UInt32.ofNat_add]
    grind
  elapsed threads hnodup hmem := by
    have hmem' : ∀ e ∈ RoundRobin.tick quantum ring, e.1 ∈ threads := by
      intro e he
      obtain ⟨e', he', heq⟩ := mem_tick he
      exact heq ▸ hmem e' he'
    rw [h'.elapsed threads hnodup hmem', h.elapsed threads hnodup hmem, UInt32.ofNat_add]
    grind

/-- `n` interrupts are `n` ticks of round robin. -/
theorem ServesRing.run (h : ServesRing quantum k ring) (n : Nat) :
    ∃ k', timerRun n k = .ok k' ∧ ServesRing quantum k' ((RoundRobin.tick quantum)^[n] ring) ∧
      Counted ring n k k' := by
  induction n generalizing k ring with
  | zero =>
    refine ⟨k, rfl, h, ?_, ?_⟩
    · simp
    · intro threads _ _
      simp
  | succ n ih =>
    obtain ⟨k₁, hok, hserves, hcounted⟩ := h.tick
    obtain ⟨k', hrun, hserves', hcounted'⟩ := ih hserves
    refine ⟨k', ?_, ?_, hcounted.succ hcounted'⟩
    · rw [timerRun, hok]
      exact hrun
    · rw [Function.iterate_succ_apply]
      exact hserves'

theorem ServesRing.ne_nil (h : ServesRing quantum k ring) : ring ≠ [] := by
  obtain ⟨a, created, waiting, -, hring⟩ := h
  intro hnil
  rw [hnil] at hring
  exact absurd hring.running (by simp)

/-- **Time slices.** Inside turn `j`, after `i` of its interrupts, the thread of turn `j` runs with
`i` ticks of its slice used up, and the ready list holds the threads of the next turns in order,
each with the slice it will have. The slice is what a thread had in `ticks` at the start, and its
priority in every later turn. Every interrupt is inside some turn. -/
theorem time_slices (h : ServesRing quantum k ring) :
    (∀ j i, i < turnLength quantum ring j →
      ∃ k' later, timerRun (turnStart quantum ring j + i) k = .ok k' ∧
        ServesRing quantum k' (used i later) ∧ later.length = ring.length ∧
        (∀ m, m < ring.length → later[m]? = entry quantum ring (j + m)) ∧
        Counted ring (turnStart quantum ring j + i) k k') ∧
      ∀ n, ∃ j i, i < turnLength quantum ring j ∧ n = turnStart quantum ring j + i := by
  refine ⟨?_, exists_turn quantum h.ne_nil⟩
  intro j i hi
  obtain ⟨k', hrun, hserves, hcounted⟩ := h.run (turnStart quantum ring j + i)
  rw [tick_turnStart_add quantum hi] at hserves
  exact ⟨k', (turn quantum)^[j] ring, hrun, hserves, length_turns quantum ring j,
    fun m hm => getElem?_turns quantum hm, hcounted⟩

end

/-! ## Two threads -/

/-- The PCBs of the threads 1 and 2, of which 1 runs with three ticks left. -/
def twoTasks (t : Tid) : TaskStruct where
  status := if t = 1 then .running else .ready
  priority := if t = 1 then 2 else 5
  ticks := if t = 1 then 3 else 0
  elapsedTicks := 0
  stackMagic := 0x12345678

/-- Thread 2 is ready. -/
def twoLists : Queues :=
  let Q : Queues := Function.update (fun _ => []) .all [.allListTag 1]
  Function.update (Function.update Q .ready [.generalTag 2]) .all [.allListTag 1, .allListTag 2]

def twoThreads : Kernel Queues where
  intr := .on
  running := 1
  task := twoTasks
  lists := twoLists
  value _ := 1
  holder _ := none
  holderRepeatNr _ := 0
  ticks := 0

theorem twoThreads_partition :
    Partition twoThreads.lists twoThreads.status (Function.update (fun t => decide (t = 1)) 2 true)
      (fun _ _ => false) (some 1) := by
  have hboot := @Partition.boot twoThreads.status 1 rfl
  have hstart := hboot.start (show decide (2 = 1) = false from rfl) (show some 1 ≠ some 2 by simp)
  have hstatus : Function.update twoThreads.status 2 .ready = twoThreads.status :=
    Function.update_eq_self 2 twoThreads.status
  rw [hstatus] at hstart
  exact hstart

theorem twoThreads_ring :
    Ring (Function.update (fun t => decide (t = 1)) 2 true) (fun _ _ => false)
      (fun t => if t = 1 then 2 else 5) twoThreads [(1, 3), (2, 0)] where
  partition := twoThreads_partition
  created := rfl
  running := rfl
  ready := rfl
  left e he := by
    rcases List.mem_pair.mp he with rfl | rfl
    · rfl
    · rfl
  magic _ _ := rfl
  priority t := by
    by_cases ht : t = 1
    · simp [twoThreads, twoTasks, ht]
    · simp [twoThreads, twoTasks, ht]

/-- The pointers of list.c hold these lists. -/
theorem twoThreads_serves :
    ∃ k, ServesRing (fun t => if t = 1 then 2 else 5) k [(1, 3), (2, 0)] := by
  have hmain : ∀ q : ListRef, ElemAddr.allListTag 1 ∉
      q.ends.nodes ((TaskLists.start : Queues) q) := by
    intro q
    simp [ListEnds.nodes, ListRef.ends, TaskLists.start]
  obtain ⟨h₁, -, hr₁⟩ := listAppend_spec start_holds .all hmain
  have hready : ∀ q : ListRef, ElemAddr.generalTag 2 ∉
      q.ends.nodes (Function.update (TaskLists.start : Queues) .all [.allListTag 1] q) := by
    intro q
    cases q
    all_goals simp [ListEnds.nodes, ListRef.ends, TaskLists.start]
  obtain ⟨h₂, -, hr₂⟩ := listAppend_spec hr₁ .ready hready
  have hall : ∀ q : ListRef, ElemAddr.allListTag 2 ∉
      q.ends.nodes (Function.update (Function.update (TaskLists.start : Queues) .all
        [.allListTag 1]) .ready [.generalTag 2] q) := by
    intro q
    cases q
    all_goals simp [ListEnds.nodes, ListRef.ends, TaskLists.start]
  obtain ⟨h₃, -, hr₃⟩ := listAppend_spec hr₂ .all hall
  exact ⟨twoThreads.withLists h₃, twoThreads, _, _, ⟨h₃, rfl, hr₃⟩, twoThreads_ring⟩

/-- Thread 2, which has no ticks, has its first turn after four interrupts. -/
theorem time_slices_two :
    ∃ k k' later, timerRun 4 k = .ok k' ∧
      ServesRing (fun t => if t = 1 then 2 else 5) k' (used 0 later) ∧
        later[0]? = some (2, 0) ∧ later[1]? = some (1, 2) := by
  obtain ⟨k, hserves⟩ := twoThreads_serves
  obtain ⟨k', later, hrun, hserves', -, hlater, -⟩ := (time_slices hserves).1 1 0 (by decide)
  exact ⟨k, k', later, hrun, hserves', hlater 0 (by decide), hlater 1 (by decide)⟩

end OsKernel
