import OsKernel.Device.Ioqueue
import OsKernel.Thread.Quiet
import OsKernel.Sync.Lock

/-!
# Threads that share an ioqueue

Any number of consumers and producers on one queue: each turns interrupts off, calls `ioq_getchar`
or `ioq_putchar`, and turns them on again. `ioq_wait` asserts that the slot it is about to fill is
already filled, which it never is, so the first call that has to wait stops the machine.

- `ringThreads`: the program; the environment decides which threads are started and when they call.
- `NoWait`: no call tests an empty queue for a byte or a full one for room.
- `RingSafe`: what a blocking queue promises in a state.
- `ring_safe`: it holds in every run without a call that waits.
-/

namespace OsKernel

open Lib

/-! ## The program -/

/-- What the environment decides. -/
structure RingInput where
  /-- the next thread to be started, and whether it is a consumer -/
  start : Option (Tid × Bool)
  /-- the thread calls the queue now -/
  calls : Bool
  /-- the byte a producer puts -/
  byte : UInt8

/-- Control points of the threads. -/
inductive RingLoc where
  /-- the main thread, while it starts the others with interrupts off -/
  | main
  /-- the main thread's empty loop -/
  | mainLoop
  /-- a consumer before `intr_disable()` -/
  | consumer
  /-- its call of `ioq_getchar` -/
  | consumerCall
  /-- its `intr_set_status(old_status)` -/
  | consumerDone
  /-- a producer before `intr_disable()` -/
  | producer
  /-- its call of `ioq_putchar` -/
  | producerCall
  /-- its `intr_set_status(old_status)` -/
  | producerDone
  /-- in ioqueue.c -/
  | ioq (pc : IoqPc)
deriving DecidableEq, Repr

/-- Consumers and producers on the queue whose lock is `lock`. -/
def ringThreads (lock : Nat) : Program where
  Mem := IoqMem
  Loc := RingLoc
  Input := RingInput
  step i t intr m
    | .main =>
      match i.start with
      | some (u, true) => .call m (.threadStart u 31 .consumer) .main
      | some (u, false) => .call m (.threadStart u 31 .producer) .main
      | none => .setIntr .on .mainLoop
    | .mainLoop => .goto m .mainLoop
    | .consumer => if i.calls then .setIntr .off .consumerCall else .goto m .consumer
    | .consumerCall => .enter m (.ioq .getchar) .consumerDone
    | .consumerDone => .setIntr .on .consumer
    | .producer => if i.calls then .setIntr .off .producerCall else .goto m .producer
    | .producerCall => .enter m (.ioq (.putchar i.byte)) .producerDone
    | .producerDone => .setIntr .on .producer
    | .ioq pc => (ioqStep lock t intr m pc).embed id .ioq
  handler _ := none

variable {lock : Nat}

/-- The state after `thread_init` and `ioqueue_init`. -/
structure RingInit {H : Type} [TaskLists H] (c : Config H (ringThreads lock)) : Prop where
  booted : Booted c
  locks : LocksFree c
  intr : c.kernel.intr = .off
  main : c.top = [.prog .main]
  queue : ∃ buffer, c.mem.ioq = ioqueueInit buffer

/-- The next statement is not the test of a queue on which the caller has to wait. -/
def NoWait {H : Type} (c : Config H (ringThreads lock)) (e : Event (ringThreads lock)) : Prop :=
  SchedGuard c e ∧
  (c.top.head? = some (.prog (.ioq .getTest)) → ioqEmpty .off c.mem.ioq ≠ .ok true) ∧
  ∀ byte, c.top.head? = some (.prog (.ioq (.putTest byte))) → ioqFull .off c.mem.ioq ≠ .ok true

/-! ## What is promised -/

/-- A thread that runs the consumers' code. -/
def IsConsumer {H : Type} (c : Config H (ringThreads lock)) (t : Tid) : Prop :=
  ∃ l ∈ [RingLoc.consumer, .consumerCall, .consumerDone], .prog l ∈ c.stack t

/-- A thread that runs the producers' code. -/
def IsProducer {H : Type} (c : Config H (ringThreads lock)) (t : Tid) : Prop :=
  ∃ l ∈ [RingLoc.producer, .producerCall, .producerDone], .prog l ∈ c.stack t

/-- The thread went to sleep in `ioq_wait`, called at the control point before `pc`. -/
def SleepsAt {H : Type} (c : Config H (ringThreads lock)) (pc : IoqPc) (t : Tid) : Prop :=
  ¬ c.kernel.Awake t ∧ ∃ old rest, c.stack t = .threadBlock old :: .prog (.ioq pc) :: rest

/-- What a blocking queue promises: sleepers are recorded, a wake-up reaches the recorded thread,
and while there is a byte or room, not all consumers or producers sleep. -/
structure RingSafe {H : Type} [TaskLists H] (c : Config H (ringThreads lock)) : Prop where
  no_fault : ∀ e p, NoWait c e → machineStep e c ≠ some (.error p)
  consumer_recorded : ∀ t, SleepsAt c .getRelease t → c.mem.ioq.consumer = some t
  producer_recorded : ∀ byte t, SleepsAt c (.putRelease byte) t → c.mem.ioq.producer = some t
  consumer_woken : c.top.head? = some (.prog (.ioq .putClear)) →
    ∀ t, c.mem.ioq.consumer = some t → c.kernel.Awake t
  producer_woken : ∀ byte, c.top.head? = some (.prog (.ioq (.getClear byte))) →
    ∀ t, c.mem.ioq.producer = some t → c.kernel.Awake t
  consumers : (∃ t, IsConsumer c t) → ioqEmpty .off c.mem.ioq = .ok false →
    ∃ t, IsConsumer c t ∧ c.kernel.Awake t
  producers : (∃ t, IsProducer c t) → ioqFull .off c.mem.ioq = .ok false →
    ∃ t, IsProducer c t ∧ c.kernel.Awake t

/-! ## The discipline of the threads -/

/-- Stacks inside a section, for a queue with the bytes `xs`. -/
inductive RingInside (xs : List UInt8) : List (Frame RingLoc) → Prop where
  | main : RingInside xs [.prog .main]
  | start (u : Tid) (fn : RingLoc) (h : fn = .consumer ∨ fn = .producer) :
      RingInside xs [.threadStart u 31 fn, .prog .main]
  | consumerCall : RingInside xs [.prog .consumerCall]
  | consumerDone : RingInside xs [.prog .consumerDone]
  | producerCall : RingInside xs [.prog .producerCall]
  | producerDone : RingInside xs [.prog .producerDone]
  | getchar : RingInside xs [.prog (.ioq .getchar), .prog .consumerDone]
  | getTest : RingInside xs [.prog (.ioq .getTest), .prog .consumerDone]
  | getTake (h : xs ≠ []) : RingInside xs [.prog (.ioq .getTake), .prog .consumerDone]
  | putchar (byte : UInt8) : RingInside xs [.prog (.ioq (.putchar byte)), .prog .producerDone]
  | putTest (byte : UInt8) : RingInside xs [.prog (.ioq (.putTest byte)), .prog .producerDone]
  | putStore (byte : UInt8) (h : xs = []) :
      RingInside xs [.prog (.ioq (.putStore byte)), .prog .producerDone]

/-- Every call of the queue is a section. -/
def ringDiscipline (lock : Nat) : Discipline (ringThreads lock) where
  Base st := ∃ l ∈ [RingLoc.mainLoop, .consumer, .producer], st = [.prog l]
  Entry l := l = RingLoc.consumer ∨ l = RingLoc.producer
  Rest m _ := ∃ xs, Unwaited m.ioq xs
  Inside c := ∃ xs, Unwaited c.mem.ioq xs ∧ RingInside xs c.top

section Steps

variable {c : Config Queues (ringThreads lock)} {l : RingLoc} {rest : List (Frame RingLoc)}
  {input : RingInput} {xs : List UInt8}

/-- A statement of the program that ends inside a section. -/
theorem ring_inside (hq : (ringDiscipline lock).Quiet c) (htop : c.top = .prog l :: rest)
    {k : Kernel Queues} {m : IoqMem} {st : List (Frame RingLoc)} (hoff : k.intr = .off)
    (he : exec (P := ringThreads lock) input (.prog l) rest c =
      .ok ({ c with kernel := k, mem := m }.setStack st))
    (hu : Unwaited m.ioq xs) (hin : RingInside xs st) :
    ∃ c', exec (P := ringThreads lock) input (.prog l) rest c = .ok c' ∧
      (ringDiscipline lock).Inv c' := by
  refine ⟨_, he, hq.prog htop he, .inside hoff ⟨xs, hu, ?_⟩⟩
  have hself : ({ c with kernel := k, mem := m }.setStack st).top = st := Function.update_self ..
  exact hself.symm ▸ hin

/-- A statement of the program that ends outside the sections. -/
theorem ring_outside (l' : RingLoc) (hq : (ringDiscipline lock).Quiet c)
    (htop : c.top = .prog l :: rest) {k : Kernel Queues} {m : IoqMem} (hon : k.intr = .on)
    (he : exec (P := ringThreads lock) input (.prog l) rest c =
      .ok ({ c with kernel := k, mem := m }.setStack [.prog l']))
    (hu : Unwaited m.ioq xs) (hbase : l' ∈ [RingLoc.mainLoop, .consumer, .producer]) :
    ∃ c', exec (P := ringThreads lock) input (.prog l) rest c = .ok c' ∧
      (ringDiscipline lock).Inv c' := by
  refine ⟨_, he, hq.prog htop he, .outside hon ⟨l', hbase, ?_⟩ ⟨xs, hu⟩⟩
  exact Function.update_self ..

/-- A statement outside the sections. -/
theorem ring_outside_exec (hq : (ringDiscipline lock).Quiet c) (hon : c.kernel.intr = .on)
    (htop : c.top = .prog l :: rest) (hbase : (ringDiscipline lock).Base (.prog l :: rest))
    (hu : Unwaited c.mem.ioq xs) :
    ∃ c', exec (P := ringThreads lock) input (.prog l) rest c = .ok c' ∧
      (ringDiscipline lock).Inv c' := by
  obtain ⟨l', hl', heq⟩ := hbase
  cases heq
  have hstep : ∀ act, (ringThreads lock).step input c.kernel.running c.kernel.intr c.mem l = act →
      exec (P := ringThreads lock) input (.prog l) [] c = execProg act [] c := by
    intro act hact
    rw [← hact]
    rfl
  simp only [List.mem_cons, List.not_mem_nil, or_false] at hl'
  rcases hl' with rfl | rfl | rfl
  · exact ring_outside .mainLoop hq htop hon rfl hu (by decide)
  · cases hcalls : input.calls with
    | true => exact ring_inside hq htop rfl (hstep _ (if_pos hcalls)) hu .consumerCall
    | false =>
      exact ring_outside .consumer hq htop hon (hstep _ (if_neg (by rw [hcalls]; decide))) hu (by decide)
  · cases hcalls : input.calls with
    | true => exact ring_inside hq htop rfl (hstep _ (if_pos hcalls)) hu .producerCall
    | false =>
      exact ring_outside .producer hq htop hon (hstep _ (if_neg (by rw [hcalls]; decide))) hu (by decide)

/-- A statement of ioqueue.c that stays in the same call. -/
theorem ring_ioq (hq : (ringDiscipline lock).Quiet c) (hoff : c.kernel.intr = .off) {pc pc' : IoqPc}
    {m : IoqMem} (htop : c.top = .prog (.ioq pc) :: rest)
    (hstep : ioqStep lock c.kernel.running .off c.mem pc = .goto m pc') (hu : Unwaited m.ioq xs)
    (hin : RingInside xs (.prog (.ioq pc') :: rest)) :
    ∃ c', exec (P := ringThreads lock) input (.prog (.ioq pc)) rest c = .ok c' ∧
      (ringDiscipline lock).Inv c' := by
  refine ring_inside hq htop hoff (m := m) ?_ hu hin
  show execProg ((ioqStep lock c.kernel.running c.kernel.intr c.mem pc).embed id RingLoc.ioq) rest c = _
  rw [hoff, hstep]
  rfl

/-- A statement of ioqueue.c that returns. -/
theorem ring_ioq_ret (hq : (ringDiscipline lock).Quiet c) (hoff : c.kernel.intr = .off) {pc : IoqPc}
    {m : IoqMem} (htop : c.top = .prog (.ioq pc) :: rest)
    (hstep : ioqStep lock c.kernel.running .off c.mem pc = .ret m) (hu : Unwaited m.ioq xs)
    (hin : RingInside xs rest) :
    ∃ c', exec (P := ringThreads lock) input (.prog (.ioq pc)) rest c = .ok c' ∧
      (ringDiscipline lock).Inv c' := by
  refine ring_inside hq htop hoff (m := m) ?_ hu hin
  show execProg ((ioqStep lock c.kernel.running c.kernel.intr c.mem pc).embed id RingLoc.ioq) rest c = _
  rw [hoff, hstep]
  rfl

/-- A statement in a section: none of them waits, and none fails. -/
theorem ring_inside_exec (hq : (ringDiscipline lock).Quiet c) (hoff : c.kernel.intr = .off)
    {f : Frame RingLoc} (htop : c.top = f :: rest) (hu : Unwaited c.mem.ioq xs)
    (hin : RingInside xs (f :: rest)) (hg : NoWait c (.exec input)) :
    ∃ c', exec (P := ringThreads lock) input f rest c = .ok c' ∧ (ringDiscipline lock).Inv c' := by
  obtain ⟨hidle, hle⟩ := id hu
  cases hin with
  | main =>
    cases hstart : input.start with
    | none =>
      refine ring_outside .mainLoop hq htop (k := { c.kernel with intr := .on }) (m := c.mem) rfl ?_
        hu (by decide)
      show execProg ((ringThreads lock).step input _ _ _ RingLoc.main) _ _ = _
      simp only [ringThreads, hstart]
      rfl
    | some start =>
      obtain ⟨u, isConsumer⟩ := start
      have hcall : ∀ fn, (ringThreads lock).step input c.kernel.running c.kernel.intr c.mem
            RingLoc.main = .call c.mem (.threadStart u 31 fn) .main →
          fn = .consumer ∨ fn = .producer →
          ∃ c', exec (P := ringThreads lock) input (.prog RingLoc.main) [] c = .ok c' ∧
            (ringDiscipline lock).Inv c' := by
        intro fn hstep hfn
        refine ring_inside hq htop hoff (m := c.mem) ?_ hu (.start u fn hfn)
        show execProg ((ringThreads lock).step input _ _ _ RingLoc.main) _ _ = _
        rw [hstep]
        rfl
      cases isConsumer with
      | true => exact hcall .consumer (by simp only [ringThreads, hstart]) (.inl rfl)
      | false => exact hcall .producer (by simp only [ringThreads, hstart]) (.inr rfl)
  | start u fn hfn =>
    obtain ⟨c', he, hquiet, htop', hintr, hmem, -⟩ :=
      hq.threadStart input htop (hg.1 _ (by rw [htop]; rfl)) hfn
    refine ⟨c', he, hquiet, .inside (hintr.trans hoff) ⟨xs, ?_, ?_⟩⟩
    · rw [hmem]
      exact hu
    · rw [htop']
      exact .main
  | consumerCall => exact ring_inside hq htop hoff rfl hu .getchar
  | consumerDone =>
    exact ring_outside .consumer hq htop (k := { c.kernel with intr := .on }) rfl rfl hu (by decide)
  | producerCall => exact ring_inside hq htop hoff rfl hu (.putchar input.byte)
  | producerDone =>
    exact ring_outside .producer hq htop (k := { c.kernel with intr := .on }) rfl rfl hu (by decide)
  | getchar => exact ring_ioq hq hoff htop rfl hu .getTest
  | getTest =>
    -- the queue is not empty, because the caller does not have to wait
    have hne : xs ≠ [] := by
      intro hnil
      apply hg.2.1 (by rw [htop]; rfl)
      rw [hidle.ioqEmpty, hnil]
      rfl
    exact ring_ioq hq hoff htop ((hidle.getTest ..).trans (if_neg hne)) hu (.getTake hne)
  | getTake hne =>
    obtain ⟨x, xs, rfl⟩ := List.exists_cons_of_ne_nil hne
    have hnil : xs = [] := by simpa using hle
    have hu' : Unwaited c.mem.ioq.take.2 xs := ⟨hidle.take, by simp [hnil]⟩
    exact ring_ioq_ret hq hoff htop (hidle.getTake ..) hu' .consumerDone
  | putchar byte => exact ring_ioq hq hoff htop rfl hu (.putTest byte)
  | putTest byte =>
    -- the queue is not full, because the caller does not have to wait
    have hne : xs.length ≠ 1 := by
      intro hone
      apply hg.2.2 byte (by rw [htop]; rfl)
      rw [hidle.ioqFull, hone]
      rfl
    have hnil : xs = [] := List.length_eq_zero_iff.mp (by omega)
    exact ring_ioq hq hoff htop ((hidle.putTest ..).trans (if_neg hne)) hu (.putStore byte hnil)
  | putStore byte hnil =>
    subst hnil
    have hu' : Unwaited (c.mem.ioq.store byte) [byte] := ⟨hidle.store byte (by decide), le_refl 1⟩
    exact ring_ioq_ret hq hoff htop (hidle.putStore ..) hu' .producerDone

end Steps

/-- **The threads keep to the discipline** as long as no call waits. -/
theorem ring_sound : (ringDiscipline lock).Sound NoWait where
  sched _ _ hg := hg.1
  entry l hl := by
    rcases hl with rfl | rfl
    · exact ⟨_, by decide, rfl⟩
    · exact ⟨_, by decide, rfl⟩
  outside c input f rest hq hon htop hbase hrest hg := by
    obtain ⟨xs, hu⟩ := hrest
    obtain ⟨l, -, heq⟩ := id hbase
    cases heq
    exact ring_outside_exec hq hon htop hbase hu
  inside c input f rest hq hoff htop hin hg := by
    obtain ⟨xs, hu, hin⟩ := hin
    exact ring_inside_exec hq hoff htop hu (htop ▸ hin) hg
  device c input l _ _ hl := by cases hl

/-! ## Runs -/

/-- The main thread starts in a section. -/
theorem RingInit.inv {c : Config Queues (ringThreads lock)} (h : RingInit c) :
    (ringDiscipline lock).Inv c := by
  obtain ⟨buffer, hbuf⟩ := h.queue
  refine ⟨Discipline.Quiet.boot h.booted, .inside h.intr ⟨[], ⟨?_, Nat.zero_le _⟩, ?_⟩⟩
  · rw [hbuf]
    exact ⟨.init buffer, rfl, rfl⟩
  · rw [h.main]
    exact .main

/-- In a quiet state with nobody recorded in the queue, all promises hold. -/
theorem RingSafe.of_quiet {c : Config Queues (ringThreads lock)}
    (hq : (ringDiscipline lock).Quiet c) {xs : List UInt8} (hu : Unwaited c.mem.ioq xs)
    (h : LinkHeap ElemAddr)
    (hfault : ∀ e p, NoWait (c.withLists h) e → machineStep e (c.withLists h) ≠ some (.error p)) :
    RingSafe (c.withLists h) := by
  have hawake : ∀ t f, f ∈ c.stack t → c.kernel.Awake t := by
    intro t f hf
    apply hq.awake
    cases hc : c.history.created t with
    | true => rfl
    | false =>
      rw [hq.sched.fresh t hc] at hf
      cases hf
  have hasleep : ∀ pc t, ¬ SleepsAt (c.withLists h) pc t := by
    intro pc t hs
    obtain ⟨hna, old, rest, heq⟩ := hs
    change c.stack t = _ at heq
    exact hna (hawake t (.threadBlock old) (by rw [heq]; exact List.mem_cons_self))
  constructor
  · exact hfault
  · exact fun t hs => absurd hs (hasleep _ t)
  · exact fun byte t hs => absurd hs (hasleep _ t)
  · intro _ t ht
    exact absurd (hu.1.consumer.symm.trans ht) nofun
  · intro _ _ t ht
    exact absurd (hu.1.producer.symm.trans ht) nofun
  · intro hex _
    obtain ⟨t, l, hl, hmem⟩ := hex
    exact ⟨t, ⟨l, hl, hmem⟩, hawake t _ hmem⟩
  · intro hex _
    obtain ⟨t, l, hl, hmem⟩ := hex
    exact ⟨t, ⟨l, hl, hmem⟩, hawake t _ hmem⟩

/-- **A blocking queue, without calls that block.** In every run in which no call has to wait, every
state reached keeps all promises. -/
theorem ring_safe {c : Config (LinkHeap ElemAddr) (ringThreads lock)}
    (hc : (machine RingInit).Reach NoWait c) : RingSafe c := by
  have hinit : ∀ c : Config (LinkHeap ElemAddr) (ringThreads lock), RingInit c →
      ∃ a : Config Queues (ringThreads lock), RingInit a ∧ ConfigRel c a := by
    intro c h
    obtain ⟨a, ha, hrel⟩ := booted_agree h.booted
    obtain ⟨hp, rfl, -⟩ := id hrel
    exact ⟨a, ⟨ha, h.locks, h.intr, h.main, h.queue⟩, hrel⟩
  have hsound : (ringDiscipline lock).Sound NoWait := ring_sound
  obtain ⟨⟨a, h, rfl, hinv⟩, hfault⟩ :=
    hsound.heap (fun _ _ _ hg => hg) hinit (fun _ ha => ha.inv) hc
  have hu : ∃ xs, Unwaited a.mem.ioq xs := by
    cases hinv.phase with
    | outside _ _ hrest => exact hrest
    | resumed _ _ hrest => exact hrest
    | inside _ hin =>
      obtain ⟨xs, hu, -⟩ := hin
      exact ⟨xs, hu⟩
  obtain ⟨xs, hu⟩ := hu
  exact .of_quiet hinv.toQuiet hu h hfault

/-! ## Two runs -/

/-- The environment starts a thread, lets the running thread call the queue, or does nothing. -/
private def starts (t : Tid) (isConsumer : Bool) : Event (ringThreads 1) :=
  .exec (⟨some (t, isConsumer), false, 0⟩ : RingInput)
private def callsWith (byte : UInt8) : Event (ringThreads 1) := .exec (⟨none, true, byte⟩ : RingInput)
private def nothing : Event (ringThreads 1) := .exec (⟨none, false, 0⟩ : RingInput)

/-- A test for `NoWait`. -/
private def noWaitCheck (c : Config (LinkHeap ElemAddr) (ringThreads 1)) (e : Event (ringThreads 1)) :
    Bool :=
  schedCheck c e &&
    match c.top.head? with
    | some (.prog (.ioq .getTest)) => !(c.mem.ioq.head == c.mem.ioq.tail)
    | some (.prog (.ioq (.putTest _))) => !(nextPos c.mem.ioq.tail == c.mem.ioq.head)
    | _ => true

private theorem noWaitCheck_guard (c : Config (LinkHeap ElemAddr) (ringThreads 1))
    (e : Event (ringThreads 1)) (h : noWaitCheck c e = true) : NoWait c e := by
  unfold noWaitCheck at h
  obtain ⟨hsched, hwait⟩ := Bool.and_eq_true_iff.mp h
  refine ⟨schedCheck_guard c e hsched, ?_, ?_⟩
  · intro htop
    simp only [htop, Bool.not_eq_true'] at hwait
    simp [ioqEmpty, hwait]
  · intro byte htop
    simp only [htop, Bool.not_eq_true'] at hwait
    simp [ioqFull, hwait]

/-- A machine right after `ioqueue_init`. -/
private theorem ring_booted {c : Config (LinkHeap ElemAddr) (ringThreads 1)}
    (h : bootConfig (P := ringThreads 1) 1 .off (fun _ => 1)
      (⟨ioqueueInit fun _ => 0, fun _ => 0⟩ : IoqMem) RingLoc.main = .ok c) : RingInit c := by
  have hb := bootConfig_booted _ _ _ _ _ h
  cases h
  exact ⟨hb, fun _ => ⟨rfl, rfl, rfl⟩, rfl, rfl, _, rfl⟩

/-- A producer and a consumer are started; the timer lets the one put a byte, then the other get
it. -/
private def handover : List (Event (ringThreads 1)) :=
  [starts 2 false, nothing, starts 3 true, nothing, nothing, .timer] ++
    [nothing, callsWith 97, callsWith 97, nothing, nothing, nothing, nothing, .timer] ++
    [nothing, callsWith 0, nothing, nothing, nothing, nothing]

theorem ring_safe_handover :
    ∃ c : Config (LinkHeap ElemAddr) (ringThreads 1), RingSafe c ∧ c.mem.eax 3 = 97 := by
  have hrun : ∃ c, bootConfig (H := LinkHeap ElemAddr) (P := ringThreads 1) 1 .off (fun _ => 1)
        (⟨ioqueueInit fun _ => 0, fun _ => 0⟩ : IoqMem) RingLoc.main = .ok c ∧
      ∃ c', (machine RingInit).run noWaitCheck handover c = some (.ok c') ∧ c'.mem.eax 3 = 97 :=
    ⟨_, rfl, _, rfl, rfl⟩
  obtain ⟨c, hboot, c', hrun, heax⟩ := hrun
  have hstart : (machine RingInit).Reach NoWait c := .init (ring_booted hboot)
  exact ⟨c', ring_safe (hstart.run noWaitCheck_guard hrun), heax⟩

/-- One consumer is started and called on the fresh queue. -/
private def firstWait : List (Event (ringThreads 1)) :=
  [starts 2 true, nothing, nothing, .timer, nothing, callsWith 0] ++ List.replicate 9 nothing

/-- The first consumer that finds the queue empty fails the assertion in `ioq_wait`. -/
theorem ring_first_wait :
    ∃ c : Config (LinkHeap ElemAddr) (ringThreads 1), (machine RingInit).Reach SchedGuard c ∧
      ∃ input, machineStep (.exec input) c = some (.error .ioqWaitWaiter) := by
  have hrun : ∃ c, bootConfig (H := LinkHeap ElemAddr) (P := ringThreads 1) 1 .off (fun _ => 1)
        (⟨ioqueueInit fun _ => 0, fun _ => 0⟩ : IoqMem) RingLoc.main = .ok c ∧
      ∃ c', (machine RingInit).run schedCheck firstWait c = some (.ok c') ∧
        machineStep nothing c' = some (.error .ioqWaitWaiter) :=
    ⟨_, rfl, _, rfl, rfl⟩
  obtain ⟨c, hboot, c', hrun, herr⟩ := hrun
  have hstart : (machine RingInit).Reach SchedGuard c := .init (ring_booted hboot)
  exact ⟨c', hstart.run schedCheck_guard hrun, _, herr⟩

end OsKernel
