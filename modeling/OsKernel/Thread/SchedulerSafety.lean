import OsKernel.Thread.Refinement

/-!
# Every thread is in the list its status names

The scheduler's partition, on list.c's pointers and for every run from `thread_init`. A run may
use any number of threads and semaphores; the timer may preempt wherever interrupts are on.

- `SchedInv.step_error`: an event that stops the machine outside the program's own code fails an
  assertion about the caller's behaviour, never one about the lists.
- `ListsAgree`: what the pointers, the status fields and the call stacks say together.
- `threads_partitioned`: it holds in every reachable state, and the assertions that search a list
  never fail.
-/

namespace OsKernel

open Lib

variable {P : Program}

/-! ## Which assertions can fail -/

/-- Assertions that a program fails by what it calls: nobody left to run, a status that is not a
blocked one, a semaphore or lock used by the wrong thread. All others are about the kernel. -/
def Panic.ofCaller : Panic → Bool
  | .scheduleReadyEmpty | .threadBlockStat | .threadUnblockStat | .semaDownValue | .semaUpZero
  | .lockAcquireRepeatNr | .lockReleaseHolder | .lockReleaseRepeatNr => true
  | _ => false

theorem assert_eq_error {b : Bool} {p p' : Panic} (h : assert b p = .error p') : p' = p := by
  cases b with
  | true => cases h
  | false => cases h; rfl

namespace SchedInv

variable {c : Config Queues P} {f : Frame P.Loc} {rest : List (Frame P.Loc)} {p : Panic}

theorem threadBlock_error (h : SchedInv c) {stat : TaskStatus}
    (he : OsKernel.threadBlock stat c.kernel = .error p) : p.ofCaller = true := by
  cases hb : stat.isBlocked with
  | false =>
    unfold OsKernel.threadBlock at he
    rw [hb, assert_false, error_bind] at he
    cases he
    rfl
  | true =>
    rcases threadBlock_spec h.partition h.running_created hb with ⟨-, herr⟩ | ⟨k, hk, -⟩
    · rw [herr] at he
      cases he
      rfl
    · rw [hk] at he
      cases he

theorem semaDownTest_error (h : SchedInv c) {s : SemaRef} {o : IntrStatus}
    (he : OsKernel.semaDownTest s o rest c = .error p) : p.ofCaller = true := by
  by_cases hv : c.kernel.value s = 0
  · rcases semaDownTest_zero s o rest h hv with ⟨-, herr⟩ | ⟨k, hk, -⟩
    · rw [herr] at he
      cases he
      rfl
    · rw [hk] at he
      cases he
  · rw [semaDownTest_pos s o rest hv] at he
    split at he
    · cases he
    · cases he
      rfl

theorem semaUp_error (h : SchedInv c) {s : SemaRef}
    (he : OsKernel.semaUp s rest c = .error p) : p.ofCaller = true := by
  by_cases hv : c.kernel.value s = 0
  · rcases semaUp_zero s rest h hv with ⟨-, hok⟩ | ⟨u, k, -, hok, -⟩
    · rw [hok] at he
      cases he
    · rw [hok] at he
      cases he
  · rw [semaUp_pos s rest hv] at he
    cases he
    rfl

/-- A statement outside the program's code fails only assertions about the caller. -/
theorem exec_error (h : SchedInv c) {input : P.Input} (hg : FrameGuard c f)
    (hf : ∀ l, f ≠ .prog l) (he : OsKernel.exec input f rest c = .error p) :
    p.ofCaller = true := by
  cases f with
  | prog l => exact absurd rfl (hf l)
  | kernelThread => cases he
  | intrExit eflags => cases he
  | threadBlock oldStatus => cases he
  | semaDownCall psema => cases he
  | threadBlockCall stat =>
    rcases bind_eq_error.mp he with he | ⟨k, -, he⟩
    · exact h.threadBlock_error he
    · cases he
  | threadUnblock pthread =>
    rcases threadUnblock_spec h.partition hg.1 hg.2 with ⟨-, herr⟩ | ⟨k, hk, -⟩
    · rcases bind_eq_error.mp he with he | ⟨k, -, he⟩
      · rw [herr] at he
        cases he
        rfl
      · cases he
    · rcases bind_eq_error.mp he with he | ⟨k', -, he⟩
      · rw [hk] at he
        cases he
      · cases he
  | threadStart thread prio function =>
    have hr : some c.kernel.running ≠ some thread := fun heq =>
      h.running_ne hg.1 (Option.some.inj heq)
    obtain ⟨k, hk, -⟩ := threadStart_spec prio h.partition hg.1 hr
    rcases bind_eq_error.mp he with he | ⟨k', -, he⟩
    · rw [hk] at he
      cases he
    · cases he
  | semaDown psema oldStatus => exact h.semaDownTest_error he
  | semaUp psema => exact h.semaUp_error he
  | lockAcquire plock pc =>
    cases pc with
    | test =>
      unfold OsKernel.exec OsKernel.lockAcquire at he
      dsimp only at he
      split at he <;> cases he
    | assertRepeatNr =>
      rcases bind_eq_error.mp he with he | ⟨_, -, he⟩
      · rw [assert_eq_error he]
        rfl
      · cases he
    | setHolder => cases he
    | setRepeatNr => cases he
    | loadRepeatNr => cases he
    | storeRepeatNr nr => cases he
  | lockRelease plock pc =>
    cases pc with
    | test =>
      unfold OsKernel.exec OsKernel.lockRelease at he
      dsimp only at he
      split at he <;> cases he
    | assertHolder =>
      rcases bind_eq_error.mp he with he | ⟨_, -, he⟩
      · rw [assert_eq_error he]
        rfl
      · cases he
    | assertRepeatNr =>
      rcases bind_eq_error.mp he with he | ⟨_, -, he⟩
      · rw [assert_eq_error he]
        rfl
      · cases he
    | loadRepeatNr => cases he
    | storeRepeatNr nr => cases he
    | clearHolder => cases he
    | clearRepeatNr => cases he

/-- **What can stop the machine**: the program's own code, or an assertion about the caller. -/
theorem step_error (h : SchedInv c) {e : Event P} (hg : SchedGuard c e)
    (hf : ∀ input l, e = .exec input → c.top.head? ≠ some (.prog l))
    (hs : machineStep e c = some (.error p)) : p.ofCaller = true := by
  cases e with
  | exec input =>
    unfold machineStep at hs
    cases htop : c.top with
    | nil => rw [htop] at hs; cases hs
    | cons f rest =>
      rw [htop] at hs
      have hg' : FrameGuard c f := hg f (by rw [htop]; rfl)
      have hf' : ∀ l, f ≠ .prog l := fun l hl => hf input l rfl (by rw [htop, hl]; rfl)
      exact h.exec_error hg' hf' (Option.some.inj hs)
  | timer =>
    unfold machineStep at hs
    dsimp only at hs
    split at hs
    · next hon =>
      obtain ⟨k, hk, -⟩ := h.timer hon
      have he : timerInterrupt c = .error p := Option.some.inj hs
      unfold timerInterrupt at he
      rw [hk, ok_bind] at he
      cases he
    · cases hs
  | device input =>
    unfold machineStep at hs
    dsimp only at hs
    split at hs
    · split at hs
      · cases hs
      · cases hs
    · cases hs

end SchedInv

/-! ## The partition on list.c's pointers -/

/-- What the pointers, the status fields and the call stacks say together: `Q` are the sequences
of the members of the lists. -/
structure ListsAgree (c : Config (LinkHeap ElemAddr) P) (Q : Queues) : Prop where
  wellFormed : ∀ q, IsDList c.kernel.lists (.head q) (.tail q) (Q q)
  disjoint : ∀ q q', q ≠ q' → ∀ e ∈ Q q, e ∉ Q q'
  running_iff : ∀ t, c.history.created t = true →
    (c.kernel.status t = .running ↔ t = c.kernel.running)
  running_created : c.history.created c.kernel.running = true
  running_free : ∀ q, .generalTag c.kernel.running ∉ Q q
  ready : ∀ t, c.history.created t = true →
    (Q .ready).count (.generalTag t) = if c.kernel.status t = .ready then 1 else 0
  ready_only : ∀ e ∈ Q .ready, ∃ t, e = .generalTag t ∧ c.history.created t = true
  sleeping : ∀ s t, SleepsIn s (c.stack t) → ¬ c.kernel.Awake t →
    c.kernel.status t = .blocked ∧
      ∀ s', (Q (.waiters s')).count (.generalTag t) = if s' = s then 1 else 0
  waiters_only : ∀ s, ∀ e ∈ Q (.waiters s),
    ∃ t, e = .generalTag t ∧ c.kernel.status t = .blocked ∧ SleepsIn s (c.stack t)
  all : ∀ t, (Q .all).count (.allListTag t) = if c.history.created t = true then 1 else 0
  all_only : ∀ e ∈ Q .all, ∃ t, e = .allListTag t

theorem count_eq_ite {e : ElemAddr} {l : List ElemAddr} (hnd : l.Nodup) {p : Prop} [Decidable p]
    (h : e ∈ l ↔ p) : l.count e = if p then 1 else 0 := by
  split
  · next hp => exact List.count_eq_one_of_mem hnd (h.mpr hp)
  · next hp => exact List.count_eq_zero.mpr fun hm => hp (h.mp hm)

/-- The invariant of the abstract machine, read on the pointers. -/
theorem SchedInv.listsAgree {a : Config Queues P} (hinv : SchedInv a) {h : LinkHeap ElemAddr}
    (hr : Holds h a.kernel.lists) : ListsAgree (a.withLists h) a.kernel.lists where
  wellFormed := hr.dlist
  disjoint q q' hne e he he' := by
    have hmem : ∀ q, e ∈ a.kernel.lists q → e ∈ q.ends.nodes (a.kernel.lists q) := by
      intro q hq
      simp [ListEnds.nodes, hq]
    exact hr.disjoint q q' hne e (hmem q he) (hmem q' he')
  running_iff t ht := by
    show a.kernel.status t = .running ↔ t = a.kernel.running
    rw [hinv.partition.running_iff t ht, Option.some.injEq, eq_comm]
  running_created := hinv.running_created
  running_free := running_tag_free hinv.partition hinv.running_created
  ready t ht := by
    apply count_eq_ite (hinv.partition.nodup .ready)
    constructor
    · exact fun hm => (hinv.partition.mem_ready hm).2
    · exact fun hs => (hinv.partition.ready_iff _).mpr ⟨t, rfl, ht, hs⟩
  ready_only e he := by
    obtain ⟨t, heq, ht, -⟩ := (hinv.partition.ready_iff e).mp he
    exact ⟨t, heq, ht⟩
  sleeping s t hsleep hawake := by
    have hw : a.history.waiting s t = true := (hinv.sleeps_waiting s t hsleep).resolve_left hawake
    refine ⟨(hinv.partition.waiting_blocked s t hw).2, fun s' => ?_⟩
    apply count_eq_ite (hinv.partition.nodup (.waiters s'))
    constructor
    · exact fun hm => hinv.partition.waiting_unique s' s t (hinv.partition.mem_waiters hm) hw
    · rintro rfl
      exact (hinv.partition.waiters_iff s' _).mpr ⟨t, rfl, hw⟩
  waiters_only s e he := by
    obtain ⟨t, heq, hw⟩ := (hinv.partition.waiters_iff s e).mp he
    exact ⟨t, heq, (hinv.partition.waiting_blocked s t hw).2, hinv.waiting_sleeps s t hw⟩
  all t := by
    apply count_eq_ite (hinv.partition.nodup .all)
    rw [hinv.partition.all_iff]
    constructor
    · rintro ⟨u, heq, hu⟩
      cases heq
      exact hu
    · exact fun ht => ⟨t, rfl, ht⟩
  all_only e he := by
    obtain ⟨t, heq, -⟩ := (hinv.partition.all_iff e).mp he
    exact ⟨t, heq⟩

/-- **The threads are partitioned by status and list.** In every state reached from `thread_init`
the lists are well-formed and agree with the statuses, and no event fails one of the assertions that
search a list: neither a statement outside the program's own code nor the timer, wherever it
arrives. -/
theorem threads_partitioned {c : Config (LinkHeap ElemAddr) P}
    (hc : (machine Booted).Reach SchedGuard c) :
    (∃ Q, ListsAgree c Q) ∧
    ∀ e p, SchedGuard c e → (∀ input l, e = .exec input → c.top.head? ≠ some (.prog l)) →
      machineStep e c = some (.error p) →
      p ∉ [.scheduleNotReady, .threadUnblockNotReady, .threadStartNotReady, .threadStartNotAll,
        .semaDownNotWaiting, .scheduleIntrOff, .listInsertBefore, .listRemove, .wildPointer] := by
  obtain ⟨a, -, hinv, hrel⟩ := heap_reach SchedGuard (fun a h e hg => hg)
    (fun a e hg => hg) (fun c hb => booted_agree hb) (fun a hb => SchedInv.boot hb) hc
  obtain ⟨h, rfl, hr⟩ := hrel
  refine ⟨⟨a.kernel.lists, hinv.listsAgree hr⟩, ?_⟩
  intro e p hg hf hs hp
  have hcaller := hinv.step_error (e := e) hg hf (heap_fault ⟨h, rfl, hr⟩ hinv hg hs)
  simp only [List.mem_cons, List.not_mem_nil, or_false] at hp
  rcases hp with rfl | rfl | rfl | rfl | rfl | rfl | rfl | rfl | rfl <;> cases hcaller

/-- The main thread starts a second one, takes a semaphore and goes to sleep on it. -/
theorem threads_partitioned_sleeper :
    ∃ c : Config (LinkHeap ElemAddr) (scripted [.threadStart 2 31 3, .semaDown 0, .semaDown 0]),
      c.kernel.running = 2 ∧ SleepsIn (.bare 0) (c.stack 1) ∧ (∃ Q, ListsAgree c Q) := by
  have h₀ : (machine Booted).Reach SchedGuard _ := .init (bootConfig_booted
    (H := LinkHeap ElemAddr) (P := scripted [.threadStart 2 31 3, .semaDown 0, .semaDown 0])
    1 .off (fun _ => 1) () (0 : Nat) rfl)
  have h₁ := h₀.step (e := .exec ()) (by rintro f ⟨⟩; trivial) rfl
  have h₂ := h₁.step (e := .exec ()) (by rintro f ⟨⟩; exact ⟨rfl, rfl⟩) rfl
  -- the first `sema_down` takes the semaphore
  have h₃ := h₂.step (e := .exec ()) (by rintro f ⟨⟩; trivial) rfl
  have h₄ := h₃.step (e := .exec ()) (by rintro f ⟨⟩; trivial) rfl
  have h₅ := h₄.step (e := .exec ()) (by rintro f ⟨⟩; trivial) rfl
  -- the second one finds it taken
  have h₆ := h₅.step (e := .exec ()) (by rintro f ⟨⟩; trivial) rfl
  have h₇ := h₆.step (e := .exec ()) (by rintro f ⟨⟩; trivial) rfl
  have h₈ := h₇.step (e := .exec ()) (by rintro f ⟨⟩; trivial) rfl
  exact ⟨_, rfl, ⟨_, _, _, rfl⟩, (threads_partitioned h₈).1⟩

end OsKernel
