import OsKernel.Thread.TimeSlice

/-!
# The processor time of the threads

Each timer interrupt is counted twice: in `ticks`, and in `elapsed_ticks` of the thread that it has
interrupted. Switches, blocking and new threads in between leave the counters alone, so in every run
the second counts add up to the first.

- `SameTime`: what everything but the timer and `thread_start` does to the counters.
- `Accounted`: the sum; `Accounted.step`: one event.
- `ticks_accounted`: every run, on the pointers of list.c.
-/

namespace OsKernel

open Lib

/-! ## The counters of the kernel -/

/-- No counter has moved. -/
structure SameTime {H : Type} (k k' : Kernel H) : Prop where
  ticks : k'.ticks = k.ticks
  elapsed : ∀ t, (k'.task t).elapsedTicks = (k.task t).elapsedTicks

section Kernels

variable {H : Type} {k k' k'' : Kernel H}

theorem SameTime.refl (k : Kernel H) : SameTime k k := ⟨rfl, fun _ => rfl⟩

theorem SameTime.trans (h : SameTime k k') (h' : SameTime k' k'') : SameTime k k'' where
  ticks := h'.ticks.trans h.ticks
  elapsed t := (h'.elapsed t).trans (h.elapsed t)

/-- A PCB is written, and its counter is not. -/
theorem elapsed_update (task : Tid → TaskStruct) (t u : Tid) {pcb : TaskStruct}
    (h : pcb.elapsedTicks = (task t).elapsedTicks) :
    (Function.update task t pcb u).elapsedTicks = (task u).elapsedTicks := by
  by_cases hu : u = t
  · rw [hu, Function.update_self, h]
  · rw [Function.update_of_ne hu]

theorem setStatus_sameTime (k : Kernel H) (t : Tid) (stat : TaskStatus) :
    SameTime k (k.setStatus t stat) := ⟨rfl, fun u => elapsed_update k.task t u rfl⟩

variable [TaskLists H]

theorem scheduleRequeue_sameTime (h : scheduleRequeue k = .ok k') : SameTime k k' := by
  unfold scheduleRequeue at h
  dsimp only at h
  split at h
  · -- the time slice is used up
    obtain ⟨found, -, h⟩ := bind_eq_ok.mp h
    obtain ⟨-, -, h⟩ := bind_eq_ok.mp h
    obtain ⟨lists, -, h⟩ := bind_eq_ok.mp h
    cases h
    exact ⟨rfl, fun u => elapsed_update k.task k.running u rfl⟩
  · cases h
    exact .refl k

theorem scheduleNext_sameTime (h : scheduleNext k = .ok k') : SameTime k k' := by
  unfold scheduleNext at h
  obtain ⟨-, -, h⟩ := bind_eq_ok.mp h
  obtain ⟨popped, -, h⟩ := bind_eq_ok.mp h
  obtain ⟨next, -, h⟩ := bind_eq_ok.mp h
  cases h
  exact ⟨rfl, fun u => elapsed_update k.task next u rfl⟩

theorem schedule_sameTime (h : schedule k = .ok k') : SameTime k k' := by
  unfold schedule at h
  obtain ⟨-, -, h⟩ := bind_eq_ok.mp h
  obtain ⟨k₁, hrequeue, h⟩ := bind_eq_ok.mp h
  exact (scheduleRequeue_sameTime hrequeue).trans (scheduleNext_sameTime h)

theorem threadBlock_sameTime {stat : TaskStatus} (h : threadBlock stat k = .ok k') :
    SameTime k k' := by
  unfold threadBlock at h
  obtain ⟨-, -, h⟩ := bind_eq_ok.mp h
  have hset := setStatus_sameTime { k with intr := .off } k.running stat
  have hboth := hset.trans (schedule_sameTime h)
  exact ⟨hboth.ticks, hboth.elapsed⟩

theorem threadUnblock_sameTime {u : Tid} (h : threadUnblock u k = .ok k') : SameTime k k' := by
  unfold threadUnblock at h
  obtain ⟨-, -, h⟩ := bind_eq_ok.mp h
  split at h
  · obtain ⟨found, -, h⟩ := bind_eq_ok.mp h
    obtain ⟨-, -, h⟩ := bind_eq_ok.mp h
    obtain ⟨lists, -, h⟩ := bind_eq_ok.mp h
    cases h
    have hset := setStatus_sameTime { k with lists := lists } u .ready
    exact ⟨hset.ticks, hset.elapsed⟩
  · cases h
    exact .refl k

/-- The timer charges the running thread. -/
theorem intrTimerHandler_charged (h : intrTimerHandler k = .ok k') : SameTime k.charged k' := by
  have hmagic : (k.task k.running).stackMagic = 0x12345678 := by
    by_contra hne
    unfold intrTimerHandler at h
    obtain ⟨u, hassert, -⟩ := bind_eq_ok.mp h
    rw [decide_eq_false hne] at hassert
    cases hassert
  by_cases hticks : (k.task k.running).ticks = 0
  · rw [intrTimerHandler_expired hmagic hticks] at h
    exact schedule_sameTime h
  · rw [intrTimerHandler_left hmagic hticks] at h
    cases h
    refine ⟨rfl, fun u => ?_⟩
    by_cases hu : u = k.running
    · rw [hu]
      simp [Kernel.charged]
    · simp [Kernel.charged, Function.update_of_ne hu]

/-- `thread_start` sets the counter of the new thread to 0. -/
theorem threadStart_elapsed {u : Tid} {prio : UInt8} (h : threadStart u prio k = .ok k') :
    k'.ticks = k.ticks ∧ k'.task = Function.update k.task u (initThread false prio) := by
  unfold threadStart at h
  obtain ⟨found, -, h⟩ := bind_eq_ok.mp h
  obtain ⟨-, -, h⟩ := bind_eq_ok.mp h
  obtain ⟨found', -, h⟩ := bind_eq_ok.mp h
  obtain ⟨-, -, h⟩ := bind_eq_ok.mp h
  obtain ⟨lists, -, h⟩ := bind_eq_ok.mp h
  obtain ⟨lists', -, h⟩ := bind_eq_ok.mp h
  cases h
  exact ⟨rfl, rfl⟩

end Kernels

/-! ## The statements -/

section Statements

variable {H : Type} {P : Program} {c c' : Config H P} {f : Frame P.Loc} {rest : List (Frame P.Loc)}

/-- No counter has moved, and no thread is new. -/
structure NoTime (c c' : Config H P) : Prop where
  kernel : SameTime c.kernel c'.kernel
  created : c'.history.created = c.history.created

/-- The threads' counters add up to the counter of the kernel. -/
def Accounted (c : Config H P) : Prop :=
  ∃ threads : List Tid, threads.Nodup ∧ (∀ t, t ∈ threads ↔ c.history.created t = true) ∧
    (threads.map fun t => (c.kernel.task t).elapsedTicks).sum = c.kernel.ticks

theorem NoTime.accounted (h : NoTime c c') (hacc : Accounted c) : Accounted c' := by
  obtain ⟨threads, hnodup, hthreads, hsum⟩ := hacc
  refine ⟨threads, hnodup, ?_, ?_⟩
  · intro t
    rw [h.created]
    exact hthreads t
  · rw [h.kernel.ticks, ← hsum]
    exact congrArg List.sum (List.map_congr_left fun t _ => h.kernel.elapsed t)

theorem execProg_ticks {act : Action P.Mem P.Loc} (h : execProg act rest c = .ok c') :
    c'.kernel.ticks = c.kernel.ticks := by
  cases act with
  | panic p => cases h
  | _ => cases h; rfl

theorem lockAcquire_ticks {plock : Nat} {pc : AcquirePc} (h : lockAcquire plock pc rest c = .ok c') :
    c'.kernel.ticks = c.kernel.ticks := by
  unfold lockAcquire at h
  cases pc with
  | test =>
    dsimp only at h
    split at h <;> cases h <;> rfl
  | assertRepeatNr =>
    obtain ⟨-, -, h⟩ := bind_eq_ok.mp h
    cases h
    rfl
  | _ => cases h; rfl

theorem lockRelease_ticks {plock : Nat} {pc : ReleasePc} (h : lockRelease plock pc rest c = .ok c') :
    c'.kernel.ticks = c.kernel.ticks := by
  unfold lockRelease at h
  cases pc with
  | test =>
    dsimp only at h
    split at h <;> cases h <;> rfl
  | assertHolder =>
    obtain ⟨-, -, h⟩ := bind_eq_ok.mp h
    cases h
    rfl
  | assertRepeatNr =>
    obtain ⟨-, -, h⟩ := bind_eq_ok.mp h
    cases h
    rfl
  | _ => cases h; rfl

variable [TaskLists H]

theorem semaDownTest_noTime {s : SemaRef} {old : IntrStatus}
    (h : semaDownTest s old rest c = .ok c') : NoTime c c' := by
  unfold semaDownTest at h
  dsimp only at h
  split at h
  · -- the thread goes to sleep
    obtain ⟨found, -, h⟩ := bind_eq_ok.mp h
    obtain ⟨-, -, h⟩ := bind_eq_ok.mp h
    obtain ⟨lists, -, h⟩ := bind_eq_ok.mp h
    obtain ⟨k', hblock, h⟩ := bind_eq_ok.mp h
    cases h
    have hsame := threadBlock_sameTime hblock
    exact ⟨⟨hsame.ticks, hsame.elapsed⟩, rfl⟩
  · obtain ⟨-, -, h⟩ := bind_eq_ok.mp h
    cases h
    exact ⟨⟨rfl, fun _ => rfl⟩, rfl⟩

theorem semaUpWake_noTime {s : SemaRef} {k : Kernel H} {history : History}
    {woken : Kernel H × History} (h : semaUpWake s k history = .ok woken) :
    SameTime k woken.1 ∧ woken.2.created = history.created := by
  unfold semaUpWake at h
  split at h
  · -- there is a waiter
    obtain ⟨popped, -, h⟩ := bind_eq_ok.mp h
    obtain ⟨u, -, h⟩ := bind_eq_ok.mp h
    obtain ⟨k', hunblock, h⟩ := bind_eq_ok.mp h
    cases h
    have hsame := threadUnblock_sameTime hunblock
    exact ⟨⟨hsame.ticks, hsame.elapsed⟩, rfl⟩
  · cases h
    exact ⟨.refl k, rfl⟩

theorem semaUp_noTime {s : SemaRef} (h : semaUp s rest c = .ok c') : NoTime c c' := by
  unfold semaUp at h
  dsimp only at h
  obtain ⟨-, -, h⟩ := bind_eq_ok.mp h
  obtain ⟨woken, hwake, h⟩ := bind_eq_ok.mp h
  obtain ⟨-, -, h⟩ := bind_eq_ok.mp h
  cases h
  obtain ⟨hsame, hcreated⟩ := semaUpWake_noTime hwake
  exact ⟨⟨hsame.ticks, hsame.elapsed⟩, hcreated⟩

/-- Statements that stay within the thread -/
theorem local_noTime {input : P.Input} (hf : f.isLocal = true) (h : exec input f rest c = .ok c') :
    NoTime c c' := by
  have hlocal := exec_local hf h
  refine ⟨⟨?_, fun t => by rw [hlocal.task]⟩, hlocal.created⟩
  cases f with
  | prog l => exact execProg_ticks h
  | lockAcquire plock pc => exact lockAcquire_ticks h
  | lockRelease plock pc => exact lockRelease_ticks h
  | kernelThread => cases h; rfl
  | intrExit eflags => cases h; rfl
  | threadBlock old => cases h; rfl
  | semaDownCall psema => cases h; rfl
  | threadBlockCall stat => cases hf
  | threadUnblock u => cases hf
  | threadStart u prio function => cases hf
  | semaDown psema old => cases hf
  | semaUp psema => cases hf

/-- **Every statement but `thread_start`** -/
theorem exec_noTime {input : P.Input} (hf : ∀ u prio l, f ≠ .threadStart u prio l)
    (h : exec input f rest c = .ok c') : NoTime c c' := by
  cases f with
  | threadBlockCall stat =>
    obtain ⟨k', hblock, h⟩ := bind_eq_ok.mp h
    cases h
    exact ⟨threadBlock_sameTime hblock, rfl⟩
  | threadUnblock u =>
    obtain ⟨k', hunblock, h⟩ := bind_eq_ok.mp h
    cases h
    exact ⟨threadUnblock_sameTime hunblock, rfl⟩
  | threadStart u prio l => exact absurd rfl (hf u prio l)
  | semaDown psema old => exact semaDownTest_noTime h
  | semaUp psema => exact semaUp_noTime h
  | _ => exact local_noTime rfl h

/-! ## One event -/

/-- **A new thread** starts with nothing. -/
theorem Accounted.threadStart {u : Tid} {prio : UInt8} {function : P.Loc} {input : P.Input}
    (hacc : Accounted c) (hnew : c.history.created u = false)
    (h : exec input (.threadStart u prio function) rest c = .ok c') : Accounted c' := by
  obtain ⟨k', hstart, h⟩ := bind_eq_ok.mp h
  obtain ⟨hticks, htask⟩ := threadStart_elapsed hstart
  obtain ⟨threads, hnodup, hthreads, hsum⟩ := hacc
  cases h
  -- the page of the new thread was no thread's
  have hout : u ∉ threads := by
    intro hu
    rw [(hthreads u).mp hu] at hnew
    cases hnew
  refine ⟨u :: threads, List.nodup_cons.mpr ⟨hout, hnodup⟩, ?_, ?_⟩
  · intro t
    by_cases ht : t = u
    · simp [ht]
    · simp [ht, hthreads t]
  · have hold : threads.map (fun t => (k'.task t).elapsedTicks) =
        threads.map fun t => (c.kernel.task t).elapsedTicks := by
      apply List.map_congr_left
      intro t ht
      have hne : t ≠ u := fun heq => hout (heq ▸ ht)
      rw [htask, Function.update_of_ne hne]
    have hzero : (k'.task u).elapsedTicks = 0 := by
      rw [htask, Function.update_self]
      rfl
    show (List.map (fun t => (k'.task t).elapsedTicks) (u :: threads)).sum = k'.ticks
    rw [List.map_cons, List.sum_cons, hzero, hold, hsum, hticks, UInt32.zero_add]

/-- **A timer interrupt** is charged to one thread. -/
theorem Accounted.timer (hacc : Accounted c) (hrunning : c.history.created c.kernel.running = true)
    (h : timerInterrupt c = .ok c') : Accounted c' := by
  obtain ⟨k', htimer, h⟩ := bind_eq_ok.mp h
  obtain ⟨threads, hnodup, hthreads, hsum⟩ := hacc
  have hsame := intrTimerHandler_charged htimer
  cases h
  refine ⟨threads, hnodup, hthreads, ?_⟩
  have hself : (k'.task c.kernel.running).elapsedTicks =
      (c.kernel.task c.kernel.running).elapsedTicks + 1 := by
    rw [hsame.elapsed]
    simp [Kernel.charged]
  have hother : ∀ t, t ≠ c.kernel.running →
      (k'.task t).elapsedTicks = (c.kernel.task t).elapsedTicks := by
    intro t ht
    rw [hsame.elapsed]
    simp [Kernel.charged, Function.update_of_ne ht]
  have hcharged := sum_charged hself hother hnodup ((hthreads _).mpr hrunning)
  show (List.map (fun t => (k'.task t).elapsedTicks) threads).sum = k'.ticks
  rw [hcharged, hsum, hsame.ticks]
  rfl

/-- **Every event** keeps the sum. -/
theorem Accounted.step {e : Event P} (hacc : Accounted c)
    (hrunning : c.history.created c.kernel.running = true) (hg : SchedGuard c e)
    (h : machineStep e c = some (.ok c')) : Accounted c' := by
  cases e with
  | exec input =>
    unfold machineStep at h
    cases htop : c.top with
    | nil =>
      rw [htop] at h
      cases h
    | cons f rest =>
      rw [htop] at h
      have hexec := Option.some.inj h
      have hframe : FrameGuard c f := hg f (by rw [htop]; rfl)
      -- only `thread_start` makes a thread
      by_cases hstart : ∃ u prio l, f = .threadStart u prio l
      · obtain ⟨u, prio, l, rfl⟩ := hstart
        exact hacc.threadStart hframe.1 hexec
      · refine (exec_noTime ?_ hexec).accounted hacc
        intro u prio l heq
        exact hstart ⟨u, prio, l, heq⟩
  | timer =>
    unfold machineStep at h
    dsimp only at h
    split at h
    · exact hacc.timer hrunning (Option.some.inj h)
    · cases h
  | device input =>
    unfold machineStep at h
    dsimp only at h
    split at h
    · split at h
      · cases h
      · cases h
        exact hacc
    · cases h

end Statements

/-! ## Every run -/

section Runs

variable {P : Program}

theorem threadInit_elapsed {H : Type} [TaskLists H] {k k' : Kernel H} (h : threadInit k = .ok k') :
    (k'.task k'.running).elapsedTicks = 0 := by
  unfold threadInit at h
  obtain ⟨found, -, h⟩ := bind_eq_ok.mp h
  obtain ⟨-, -, h⟩ := bind_eq_ok.mp h
  obtain ⟨lists, -, h⟩ := bind_eq_ok.mp h
  cases h
  show (Function.update k.task k.running (initThread true 8) k.running).elapsedTicks = 0
  rw [Function.update_self]
  rfl

theorem timer_allowed {H : Type} (c : Config H P) : SchedGuard c .timer := by
  unfold SchedGuard
  trivial

/-- After `thread_init`, with `ticks` still 0 -/
def BootedAtZero {H : Type} [TaskLists H] (c : Config H P) : Prop := Booted c ∧ c.kernel.ticks = 0

theorem BootedAtZero.accounted {H : Type} [TaskLists H] {c : Config H P} (h : BootedAtZero c) :
    Accounted c := by
  obtain ⟨hbooted, hzero⟩ := h
  obtain ⟨k, -, hinit⟩ := hbooted.kernel
  refine ⟨[c.kernel.running], List.nodup_singleton _, ?_, ?_⟩
  · intro t
    simp [hbooted.created]
  · rw [hzero]
    simp [threadInit_elapsed hinit]

/-- **Every tick is charged to exactly one thread**: in every state that is reached from
`thread_init`, whatever the program does and whenever the interrupts come. -/
theorem ticks_accounted {c : Config (LinkHeap ElemAddr) P}
    (hc : (machine BootedAtZero).Reach SchedGuard c) : Accounted c := by
  have hinit : ∀ c : Config (LinkHeap ElemAddr) P, BootedAtZero c →
      ∃ a : Config Queues P, BootedAtZero a ∧ ConfigRel c a := by
    intro c hb
    obtain ⟨a, hbooted, h, rfl, hr⟩ := booted_agree hb.1
    exact ⟨a, ⟨hbooted, hb.2⟩, h, rfl, hr⟩
  have hsched : ∀ a : Config Queues P, BootedAtZero a → SchedInv a := fun a hb => SchedInv.boot hb.1
  -- the counters do not depend on the store of lists
  obtain ⟨a, hreach, -, h, rfl, -⟩ :=
    heap_reach SchedGuard (fun a h e hg => hg) (fun a e hg => hg) hinit hsched hc
  have hall : ∀ a : Config Queues P, (machine BootedAtZero).Reach SchedGuard a → Accounted a := by
    apply System.Reach.invariant
    · intro a hb
      exact hb.accounted
    · intro a e a' ha hacc hg hstep
      have hinv := SchedInv.reach hsched (fun _ _ hg => hg) a ha
      exact hacc.step hinv.running_created hg hstep
  exact hall a hreach

/-- The main thread starts a second one and goes to sleep; the timer interrupts the second one. -/
theorem ticks_accounted_second :
    ∃ c : Config (LinkHeap ElemAddr) (scripted [.threadStart 2 31 3, .semaDown 0, .semaDown 0]),
      c.kernel.ticks = 1 ∧ (c.kernel.task 2).elapsedTicks = 1 ∧ Accounted c := by
  have h₀ : (machine BootedAtZero).Reach SchedGuard _ := .init ⟨bootConfig_booted
    (H := LinkHeap ElemAddr) (P := scripted [.threadStart 2 31 3, .semaDown 0, .semaDown 0])
    1 .off (fun _ => 1) () (0 : Nat) rfl, rfl⟩
  have h₁ := h₀.step (e := .exec ()) (by rintro f ⟨⟩; trivial) rfl
  have h₂ := h₁.step (e := .exec ()) (by rintro f ⟨⟩; exact ⟨rfl, rfl⟩) rfl
  have h₃ := h₂.step (e := .exec ()) (by rintro f ⟨⟩; trivial) rfl
  have h₄ := h₃.step (e := .exec ()) (by rintro f ⟨⟩; trivial) rfl
  have h₅ := h₄.step (e := .exec ()) (by rintro f ⟨⟩; trivial) rfl
  have h₆ := h₅.step (e := .exec ()) (by rintro f ⟨⟩; trivial) rfl
  have h₇ := h₆.step (e := .exec ()) (by rintro f ⟨⟩; trivial) rfl
  -- the main thread sleeps
  have h₈ := h₇.step (e := .exec ()) (by rintro f ⟨⟩; trivial) rfl
  have h₉ := h₈.step (e := .exec ()) (by rintro f ⟨⟩; trivial) rfl
  have h₁₀ := h₉.step (timer_allowed _) rfl
  exact ⟨_, rfl, rfl, ticks_accounted h₁₀⟩

end Runs

end OsKernel
