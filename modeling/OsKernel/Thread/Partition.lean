import OsKernel.Thread.Basic

/-!
# The partition of the threads

What the lists and the status fields say together, stated without the code: at most one thread
runs, the ready list holds exactly the ready threads, each wait list exactly the threads that wait
on its semaphore, and the list of all threads every thread that was created, nobody twice. The
scheduler's moves are described on this level; each of them keeps the partition.

`Partition` speaks of the running thread as an optional one, since between taking one thread off
the processor and putting the next one on it no thread has the status `TASK_RUNNING`.
-/

namespace OsKernel

/-- The lists `Q` and the statuses agree on where every created thread is; `r` is the thread with
status `TASK_RUNNING`. -/
structure Partition (Q : Queues) (status : Tid → TaskStatus) (created : Tid → Bool)
    (waiting : SemaRef → Tid → Bool) (r : Option Tid) : Prop where
  nodup : ∀ q, (Q q).Nodup
  all_iff : ∀ e, e ∈ Q .all ↔ ∃ t, e = .allListTag t ∧ created t = true
  ready_iff : ∀ e, e ∈ Q .ready ↔ ∃ t, e = .generalTag t ∧ created t = true ∧ status t = .ready
  waiters_iff : ∀ s e, e ∈ Q (.waiters s) ↔ ∃ t, e = .generalTag t ∧ waiting s t = true
  waiting_blocked : ∀ s t, waiting s t = true → created t = true ∧ status t = .blocked
  waiting_unique : ∀ s s' t, waiting s t = true → waiting s' t = true → s = s'
  running_iff : ∀ t, created t = true → (status t = .running ↔ r = some t)

namespace Partition

variable {Q : Queues} {status : Tid → TaskStatus} {created : Tid → Bool}
variable {waiting : SemaRef → Tid → Bool} {r : Option Tid}

/-! ## Who stands where -/

theorem mem_ready (hp : Partition Q status created waiting r) {t : Tid}
    (h : ElemAddr.generalTag t ∈ Q .ready) : created t = true ∧ status t = .ready := by
  obtain ⟨u, heq, hu⟩ := (hp.ready_iff _).mp h
  cases heq
  exact hu

theorem mem_waiters (hp : Partition Q status created waiting r) {s : SemaRef} {t : Tid}
    (h : ElemAddr.generalTag t ∈ Q (.waiters s)) : waiting s t = true := by
  obtain ⟨u, heq, hu⟩ := (hp.waiters_iff s _).mp h
  cases heq
  exact hu

/-- A thread that is not blocked waits on no semaphore. -/
theorem not_waiting (hp : Partition Q status created waiting r) {t : Tid}
    (h : status t ≠ .blocked) (s : SemaRef) : waiting s t = false := by
  cases hw : waiting s t with
  | false => rfl
  | true => exact absurd (hp.waiting_blocked s t hw).2 h

/-- A general tag in any list belongs to a created thread that is ready or waits. -/
theorem generalTag_mem (hp : Partition Q status created waiting r) {q : ListRef} {t : Tid}
    (h : ElemAddr.generalTag t ∈ Q q) :
    created t = true ∧ (status t = .ready ∨ ∃ s, q = .waiters s ∧ waiting s t = true) := by
  cases q with
  | ready =>
    obtain ⟨hc, hs⟩ := hp.mem_ready h
    exact ⟨hc, Or.inl hs⟩
  | all =>
    obtain ⟨u, heq, -⟩ := (hp.all_iff _).mp h
    cases heq
  | waiters s =>
    have hw := hp.mem_waiters h
    exact ⟨(hp.waiting_blocked s t hw).1, Or.inr ⟨s, rfl, hw⟩⟩

/-- Sentinels are members of no list. -/
theorem head_not_mem (hp : Partition Q status created waiting r) (q q' : ListRef) :
    ElemAddr.head q ∉ Q q' := by
  intro h
  cases q' with
  | ready =>
    obtain ⟨t, heq, -⟩ := (hp.ready_iff _).mp h
    cases heq
  | all =>
    obtain ⟨t, heq, -⟩ := (hp.all_iff _).mp h
    cases heq
  | waiters s =>
    obtain ⟨t, heq, -⟩ := (hp.waiters_iff s _).mp h
    cases heq

theorem tail_not_mem (hp : Partition Q status created waiting r) (q q' : ListRef) :
    ElemAddr.tail q ∉ Q q' := by
  intro h
  cases q' with
  | ready =>
    obtain ⟨t, heq, -⟩ := (hp.ready_iff _).mp h
    cases heq
  | all =>
    obtain ⟨t, heq, -⟩ := (hp.all_iff _).mp h
    cases heq
  | waiters s =>
    obtain ⟨t, heq, -⟩ := (hp.waiters_iff s _).mp h
    cases heq

/-- The first ready thread. -/
theorem ready_head (hp : Partition Q status created waiting r) {e : ElemAddr}
    {es : List ElemAddr} (h : Q .ready = e :: es) :
    ∃ t, e = .generalTag t ∧ created t = true ∧ status t = .ready :=
  (hp.ready_iff e).mp (by rw [h]; exact List.mem_cons_self)

/-- The first waiter of a semaphore. -/
theorem waiters_head (hp : Partition Q status created waiting r) {s : SemaRef} {e : ElemAddr}
    {es : List ElemAddr} (h : Q (.waiters s) = e :: es) :
    ∃ t, e = .generalTag t ∧ waiting s t = true :=
  (hp.waiters_iff s e).mp (by rw [h]; exact List.mem_cons_self)

/-- Only the main thread exists, and it runs. -/
theorem boot {main : Tid} (hrun : status main = .running) :
    Partition (Function.update (fun _ => []) .all [.allListTag main]) status
      (fun t => decide (t = main)) (fun _ _ => false) (some main) where
  nodup q := by
    rw [Function.update_apply]
    split
    · exact List.nodup_singleton _
    · exact List.nodup_nil
  all_iff e := by simp
  ready_iff e := by simp [hrun]
  waiters_iff s e := by simp
  waiting_blocked := nofun
  waiting_unique := nofun
  running_iff t ht := by
    have heq : t = main := of_decide_eq_true ht
    subst heq
    simp [hrun]

/-! ## The scheduler's moves -/

/-- The running thread goes to the end of the ready list. -/
theorem requeue {t : Tid} (hp : Partition Q status created waiting (some t))
    (hc : created t = true) :
    Partition (Function.update Q .ready (Q .ready ++ [.generalTag t]))
      (Function.update status t .ready) created waiting none := by
  have hrun : status t = .running := (hp.running_iff t hc).mpr rfl
  have hnot : ElemAddr.generalTag t ∉ Q .ready := by
    intro h
    have := (hp.mem_ready h).2
    rw [hrun] at this
    cases this
  refine ⟨fun q => ?_, fun e => ?_, fun e => ?_, fun s e => ?_, fun s u hw => ?_,
    hp.waiting_unique, fun u hu => ?_⟩
  · by_cases hq : q = .ready
    · subst hq
      rw [Function.update_self]
      exact List.nodup_append.mpr ⟨hp.nodup _, List.nodup_singleton _, by
        intro a ha b hb hab
        rw [List.mem_singleton] at hb
        exact hnot (hb ▸ hab ▸ ha)⟩
    · rw [Function.update_of_ne hq]
      exact hp.nodup q
  · rw [Function.update_of_ne (by simp)]
    exact hp.all_iff e
  · rw [Function.update_self, List.mem_append, hp.ready_iff, List.mem_singleton]
    constructor
    · rintro (⟨u, rfl, hu, hs⟩ | rfl)
      · refine ⟨u, rfl, hu, ?_⟩
        by_cases hut : u = t
        · subst hut; simp
        · simp [hut, hs]
      · exact ⟨t, rfl, hc, by simp⟩
    · rintro ⟨u, rfl, hu, hs⟩
      by_cases hut : u = t
      · subst hut; exact Or.inr rfl
      · rw [Function.update_of_ne hut] at hs
        exact Or.inl ⟨u, rfl, hu, hs⟩
  · rw [Function.update_of_ne (by simp)]
    exact hp.waiters_iff s e
  · obtain ⟨hcu, hb⟩ := hp.waiting_blocked s u hw
    refine ⟨hcu, ?_⟩
    by_cases hut : u = t
    · subst hut; rw [hrun] at hb; cases hb
    · rw [Function.update_of_ne hut]; exact hb
  · by_cases hut : u = t
    · subst hut; simp
    · rw [Function.update_of_ne hut, hp.running_iff u hu]
      simp [Ne.symm hut]

/-- The first ready thread gets the processor. -/
theorem dispatch {e : ElemAddr} {es : List ElemAddr} {next : Tid}
    (hp : Partition Q status created waiting none) (hq : Q .ready = e :: es)
    (he : e = .generalTag next) :
    Partition (Function.update Q .ready es) (Function.update status next .running) created waiting
      (some next) := by
  subst he
  have hmem : ElemAddr.generalTag next ∈ Q .ready := by rw [hq]; exact List.mem_cons_self
  obtain ⟨hc, hs⟩ := hp.mem_ready hmem
  have hnd : (ElemAddr.generalTag next :: es).Nodup := hq ▸ hp.nodup .ready
  refine ⟨fun q => ?_, fun e => ?_, fun e => ?_, fun s e => ?_, fun s u hw => ?_,
    hp.waiting_unique, fun u hu => ?_⟩
  · by_cases h : q = .ready
    · subst h
      rw [Function.update_self]
      exact (List.nodup_cons.mp hnd).2
    · rw [Function.update_of_ne h]
      exact hp.nodup q
  · rw [Function.update_of_ne (by simp)]
    exact hp.all_iff e
  · rw [Function.update_self]
    have hiff := hp.ready_iff e
    rw [hq, List.mem_cons] at hiff
    constructor
    · intro he
      obtain ⟨u, rfl, hu, hsu⟩ := hiff.mp (Or.inr he)
      refine ⟨u, rfl, hu, ?_⟩
      by_cases hun : u = next
      · subst hun; exact absurd he (List.nodup_cons.mp hnd).1
      · rw [Function.update_of_ne hun]; exact hsu
    · rintro ⟨u, rfl, hu, hsu⟩
      by_cases hun : u = next
      · subst hun; simp at hsu
      · rw [Function.update_of_ne hun] at hsu
        rcases hiff.mpr ⟨u, rfl, hu, hsu⟩ with heq | he
        · cases heq; exact absurd rfl hun
        · exact he
  · rw [Function.update_of_ne (by simp)]
    exact hp.waiters_iff s e
  · obtain ⟨hcu, hb⟩ := hp.waiting_blocked s u hw
    refine ⟨hcu, ?_⟩
    by_cases hun : u = next
    · subst hun; rw [hs] at hb; cases hb
    · rw [Function.update_of_ne hun]; exact hb
  · by_cases hun : u = next
    · subst hun; simp
    · rw [Function.update_of_ne hun, hp.running_iff u hu]
      simp [Ne.symm hun]

/-- The running thread blocks itself outside `sema_down`. -/
theorem block {t : Tid} {stat : TaskStatus} (hp : Partition Q status created waiting (some t))
    (hc : created t = true) (hb : stat.isBlocked = true) :
    Partition Q (Function.update status t stat) created waiting none := by
  have hrun : status t = .running := (hp.running_iff t hc).mpr rfl
  have hne : stat ≠ .ready ∧ stat ≠ .running := by
    constructor <;> rintro rfl <;> simp [TaskStatus.isBlocked] at hb
  refine ⟨hp.nodup, hp.all_iff, fun e => ?_, hp.waiters_iff, fun s u hw => ?_,
    hp.waiting_unique, fun u hu => ?_⟩
  · rw [hp.ready_iff]
    constructor
    · rintro ⟨u, rfl, hu, hs⟩
      refine ⟨u, rfl, hu, ?_⟩
      by_cases hut : u = t
      · subst hut; rw [hrun] at hs; cases hs
      · rw [Function.update_of_ne hut]; exact hs
    · rintro ⟨u, rfl, hu, hs⟩
      refine ⟨u, rfl, hu, ?_⟩
      by_cases hut : u = t
      · subst hut; rw [Function.update_self] at hs; exact absurd hs hne.1
      · rw [Function.update_of_ne hut] at hs; exact hs
  · obtain ⟨hcu, hbl⟩ := hp.waiting_blocked s u hw
    refine ⟨hcu, ?_⟩
    by_cases hut : u = t
    · subst hut; rw [hrun] at hbl; cases hbl
    · rw [Function.update_of_ne hut]; exact hbl
  · by_cases hut : u = t
    · subst hut; simp [hne.2]
    · rw [Function.update_of_ne hut, hp.running_iff u hu]
      simp [Ne.symm hut]

/-- The running thread blocks in `sema_down`, at the end of the semaphore's wait list. -/
theorem blockOn {t : Tid} (hp : Partition Q status created waiting (some t))
    (hc : created t = true) (s : SemaRef) :
    Partition (Function.update Q (.waiters s) (Q (.waiters s) ++ [.generalTag t]))
      (Function.update status t .blocked) created (update₂ waiting s t true) none := by
  have hrun : status t = .running := (hp.running_iff t hc).mpr rfl
  have hfree : ∀ s', waiting s' t = false := fun s' => hp.not_waiting (by rw [hrun]; simp) s'
  have hnot : ElemAddr.generalTag t ∉ Q (.waiters s) := by
    intro h
    have := hp.mem_waiters h
    rw [hfree] at this
    cases this
  have hblock : Partition Q (Function.update status t .blocked) created waiting none :=
    hp.block hc rfl
  refine ⟨fun q => ?_, fun e => ?_, fun e => ?_, fun s' e => ?_, fun s' u hw => ?_,
    fun s₁ s₂ u h₁ h₂ => ?_, hblock.running_iff⟩
  · by_cases hq : q = .waiters s
    · subst hq
      rw [Function.update_self]
      exact List.nodup_append.mpr ⟨hp.nodup _, List.nodup_singleton _, by
        intro a ha b hb hab
        rw [List.mem_singleton] at hb
        exact hnot (hb ▸ hab ▸ ha)⟩
    · rw [Function.update_of_ne hq]
      exact hp.nodup q
  · rw [Function.update_of_ne (by simp)]
    exact hp.all_iff e
  · rw [Function.update_of_ne (by simp)]
    exact hblock.ready_iff e
  · by_cases hs : s' = s
    · subst hs
      rw [Function.update_self, List.mem_append, List.mem_singleton, hp.waiters_iff]
      constructor
      · rintro (⟨u, rfl, hu⟩ | rfl)
        · exact ⟨u, rfl, by rw [update₂_apply]; split <;> simp_all⟩
        · exact ⟨t, rfl, by simp [update₂_apply]⟩
      · rintro ⟨u, rfl, hu⟩
        rw [update₂_apply] at hu
        split at hu
        · next h => rw [h.2]; exact Or.inr rfl
        · exact Or.inl ⟨u, rfl, hu⟩
    · rw [Function.update_of_ne (by simpa using hs), hp.waiters_iff]
      simp [update₂_apply, hs]
  · rw [update₂_apply] at hw
    split at hw
    · next h => rw [h.2]; exact ⟨hc, by simp⟩
    · exact hblock.waiting_blocked s' u hw
  · rw [update₂_apply] at h₁ h₂
    by_cases hut : u = t
    · subst hut
      simp only [hfree, and_true] at h₁ h₂
      simp at h₁ h₂
      exact h₁.trans h₂.symm
    · simp only [hut, and_false, if_false] at h₁ h₂
      exact hp.waiting_unique s₁ s₂ u h₁ h₂

/-- A thread that is blocked, but waits on no semaphore, is put in front of the ready list. -/
theorem unblock {u : Tid} (hp : Partition Q status created waiting r)
    (hc : created u = true) (hb : (status u).isBlocked = true)
    (hw : ∀ s, waiting s u = false) :
    Partition (Function.update Q .ready (.generalTag u :: Q .ready))
      (Function.update status u .ready) created waiting r := by
  have hne : status u ≠ .ready ∧ status u ≠ .running := by
    constructor <;> intro h <;> rw [h] at hb <;> simp [TaskStatus.isBlocked] at hb
  refine ⟨fun q => ?_, fun e => ?_, fun e => ?_, fun s e => ?_, fun s v hv => ?_,
    hp.waiting_unique, fun v hv => ?_⟩
  · by_cases hq : q = .ready
    · subst hq
      rw [Function.update_self, List.nodup_cons]
      exact ⟨fun h => hne.1 (hp.mem_ready h).2, hp.nodup _⟩
    · rw [Function.update_of_ne hq]
      exact hp.nodup q
  · rw [Function.update_of_ne (by simp)]
    exact hp.all_iff e
  · rw [Function.update_self, List.mem_cons, hp.ready_iff]
    constructor
    · rintro (rfl | ⟨v, rfl, hv, hs⟩)
      · exact ⟨u, rfl, hc, by simp⟩
      · refine ⟨v, rfl, hv, ?_⟩
        by_cases hvu : v = u
        · subst hvu; simp
        · rw [Function.update_of_ne hvu]; exact hs
    · rintro ⟨v, rfl, hv, hs⟩
      by_cases hvu : v = u
      · subst hvu; exact Or.inl rfl
      · rw [Function.update_of_ne hvu] at hs
        exact Or.inr ⟨v, rfl, hv, hs⟩
  · rw [Function.update_of_ne (by simp)]
    exact hp.waiters_iff s e
  · obtain ⟨hcv, hbv⟩ := hp.waiting_blocked s v hv
    refine ⟨hcv, ?_⟩
    by_cases hvu : v = u
    · subst hvu; rw [hw s] at hv; cases hv
    · rw [Function.update_of_ne hvu]; exact hbv
  · by_cases hvu : v = u
    · subst hvu
      rw [Function.update_self]
      have := hp.running_iff v hv
      simp only [hne.2, false_iff] at this
      simp [this]
    · rw [Function.update_of_ne hvu]
      exact hp.running_iff v hv

/-- The first waiter of a semaphore leaves the wait list; it is still blocked. -/
theorem popWaiter {s : SemaRef} {u : Tid} {e : ElemAddr} {es : List ElemAddr}
    (hp : Partition Q status created waiting r) (hq : Q (.waiters s) = e :: es)
    (he : e = .generalTag u) :
    Partition (Function.update Q (.waiters s) es) status created (update₂ waiting s u false) r := by
  subst he
  have hnd : (ElemAddr.generalTag u :: es).Nodup := hq ▸ hp.nodup (.waiters s)
  refine ⟨fun q => ?_, fun e => ?_, fun e => ?_, fun s' e => ?_, fun s' v hv => ?_,
    fun s₁ s₂ v h₁ h₂ => ?_, hp.running_iff⟩
  · by_cases h : q = .waiters s
    · subst h
      rw [Function.update_self]
      exact (List.nodup_cons.mp hnd).2
    · rw [Function.update_of_ne h]
      exact hp.nodup q
  · rw [Function.update_of_ne (by simp)]
    exact hp.all_iff e
  · rw [Function.update_of_ne (by simp)]
    exact hp.ready_iff e
  · by_cases hs : s' = s
    · subst hs
      rw [Function.update_self]
      have hiff := hp.waiters_iff s' e
      rw [hq, List.mem_cons] at hiff
      constructor
      · intro hmem
        obtain ⟨v, rfl, hv⟩ := hiff.mp (Or.inr hmem)
        refine ⟨v, rfl, ?_⟩
        rw [update₂_apply, if_neg]
        · exact hv
        · rintro ⟨-, rfl⟩
          exact (List.nodup_cons.mp hnd).1 hmem
      · rintro ⟨v, rfl, hv⟩
        rw [update₂_apply] at hv
        split at hv
        · cases hv
        · next hne =>
          rcases hiff.mpr ⟨v, rfl, hv⟩ with heq | hmem
          · cases heq; exact absurd ⟨rfl, rfl⟩ hne
          · exact hmem
    · rw [Function.update_of_ne (by simpa using hs), hp.waiters_iff]
      simp [update₂_apply, hs]
  · rw [update₂_apply] at hv
    split at hv
    · cases hv
    · exact hp.waiting_blocked s' v hv
  · rw [update₂_apply] at h₁ h₂
    split at h₁
    · cases h₁
    · split at h₂
      · cases h₂
      · exact hp.waiting_unique s₁ s₂ v h₁ h₂

/-- A popped waiter waits on nothing any more. -/
theorem popWaiter_free {s : SemaRef} {u : Tid} (hp : Partition Q status created waiting r)
    (hw : waiting s u = true) (s' : SemaRef) : update₂ waiting s u false s' u = false := by
  rw [update₂_apply]
  split
  · rfl
  · next hne =>
    cases hs : waiting s' u with
    | false => rfl
    | true => exact absurd ⟨hp.waiting_unique s' s u hs hw, rfl⟩ hne

/-- A new thread goes to the end of the ready list and of the list of all threads. -/
theorem start {u : Tid} (hp : Partition Q status created waiting r) (hc : created u = false)
    (hr : r ≠ some u) :
    Partition
      (Function.update (Function.update Q .ready (Q .ready ++ [.generalTag u])) .all
        (Q .all ++ [.allListTag u]))
      (Function.update status u .ready) (Function.update created u true) waiting r := by
  have hnotc : ∀ v, created v = true → v ≠ u := by
    rintro v hv rfl
    rw [hc] at hv
    cases hv
  have hready : ElemAddr.generalTag u ∉ Q .ready := fun h => hnotc u (hp.mem_ready h).1 rfl
  have hall : ElemAddr.allListTag u ∉ Q .all := by
    intro h
    obtain ⟨v, heq, hv⟩ := (hp.all_iff _).mp h
    cases heq
    exact hnotc u hv rfl
  have hconcat : ∀ (l : List ElemAddr) (x : ElemAddr), l.Nodup → x ∉ l → (l ++ [x]).Nodup := by
    intro l x hl hx
    exact List.nodup_append.mpr ⟨hl, List.nodup_singleton _, by
      intro a ha b hb hab
      rw [List.mem_singleton] at hb
      exact hx (hb ▸ hab ▸ ha)⟩
  refine ⟨fun q => ?_, fun e => ?_, fun e => ?_, fun s e => ?_, fun s v hv => ?_,
    hp.waiting_unique, fun v hv => ?_⟩
  · cases q with
    | ready =>
      rw [Function.update_of_ne (by simp), Function.update_self]
      exact hconcat _ _ (hp.nodup _) hready
    | all =>
      rw [Function.update_self]
      exact hconcat _ _ (hp.nodup _) hall
    | waiters s =>
      rw [Function.update_of_ne (by simp), Function.update_of_ne (by simp)]
      exact hp.nodup _
  · rw [Function.update_self, List.mem_append, List.mem_singleton, hp.all_iff]
    constructor
    · rintro (⟨v, rfl, hv⟩ | rfl)
      · exact ⟨v, rfl, by rw [Function.update_of_ne (hnotc v hv)]; exact hv⟩
      · exact ⟨u, rfl, by simp⟩
    · rintro ⟨v, rfl, hv⟩
      by_cases hvu : v = u
      · subst hvu; exact Or.inr rfl
      · rw [Function.update_of_ne hvu] at hv
        exact Or.inl ⟨v, rfl, hv⟩
  · rw [Function.update_of_ne (by simp), Function.update_self, List.mem_append,
      List.mem_singleton, hp.ready_iff]
    constructor
    · rintro (⟨v, rfl, hv, hs⟩ | rfl)
      · have hvu := hnotc v hv
        exact ⟨v, rfl, by simp [hvu, hv], by simp [hvu, hs]⟩
      · exact ⟨u, rfl, by simp, by simp⟩
    · rintro ⟨v, rfl, hv, hs⟩
      by_cases hvu : v = u
      · subst hvu; exact Or.inr rfl
      · rw [Function.update_of_ne hvu] at hv hs
        exact Or.inl ⟨v, rfl, hv, hs⟩
  · rw [Function.update_of_ne (by simp), Function.update_of_ne (by simp)]
    exact hp.waiters_iff s e
  · obtain ⟨hcv, hbv⟩ := hp.waiting_blocked s v hv
    have hvu := hnotc v hcv
    exact ⟨by simp [hvu, hcv], by simp [hvu, hbv]⟩
  · by_cases hvu : v = u
    · subst hvu; simp [hr]
    · rw [Function.update_of_ne hvu] at hv ⊢
      exact hp.running_iff v hv

end Partition

end OsKernel
