import OsKernel.Sync.Uncontended
import OsKernel.Userprog.OnePage

/-!
# kernel/memory.c: the locks of the pools

`get_user_pages` and `get_a_page` hold the lock of a pool. When there is no frame left,
`get_a_page` returns `NULL` without giving the lock back, and leaves the bit of the page set.

- `LockState.acquire`, `LockState.release`: the calls of sync.c, run to their end without a switch.
- `getAPageLocked`, `getUserPagesLocked`, `lockedRuns`: the calls with their locks, and runs of them.
- `lockedRuns_free`: a pool with a free frame has a free lock.
- `aPage_no_trace_iff`: `get_a_page` leaves no trace if and only if there is a free frame.
-/

namespace OsKernel

open Lib

/-! ## Lock calls -/

/-- `lock_acquire` by the thread `t`; `none` if it has to wait. -/
def LockState.acquire (t : Tid) (l : LockState) : Except Panic (Option LockState) := do
  if l.holder ≠ some t then
    -- `sema_down`
    if l.value = 0 then return none
    let value := l.value - 1
    assert (value = 0) .semaDownValue
    assert (l.nr = 0) .lockAcquireRepeatNr
    return some { value := value, holder := some t, nr := 1 }
  else
    return some { l with nr := l.nr + 1 }

/-- `lock_release` by the thread `t`. -/
def LockState.release (t : Tid) (l : LockState) : Except Panic LockState := do
  assert (l.holder = some t) .lockReleaseHolder
  if l.nr > 1 then return { l with nr := l.nr - 1 }
  assert (l.nr = 1) .lockReleaseRepeatNr
  -- `sema_up`
  assert (l.value = 0) .semaUpZero
  assert (l.value + 1 = 1) .semaUpOne
  return { value := l.value + 1, holder := none, nr := 0 }

section Locks

variable {t : Tid} {l l' : LockState}

/-- An acquired lock is not the lock it was before. -/
theorem LockState.acquire_ne (h : l.acquire t = .ok (some l')) : l' ≠ l := by
  unfold acquire at h
  split at h
  · split at h
    · cases h
    · next hvalue =>
      obtain ⟨_, -, h⟩ := bind_eq_ok.mp h
      obtain ⟨_, -, h⟩ := bind_eq_ok.mp h
      cases h
      intro heq
      have hsame : l.value - 1 = l.value := congrArg LockState.value heq
      grind
  · cases h
    intro heq
    have hsame : l.nr + 1 = l.nr := congrArg LockState.nr heq
    grind

theorem LockState.acquire_free (t : Tid) : LockState.free.acquire t = .ok (some (.taken t)) := by
  have hnone : LockState.free.holder ≠ some t := nofun
  unfold acquire
  rw [if_pos hnone]
  rfl

theorem LockState.release_taken (t : Tid) : (LockState.taken t).release t = .ok .free := by
  have hholder : decide ((LockState.taken t).holder = some t) = true := decide_eq_true rfl
  unfold release
  rw [hholder]
  rfl

end Locks

/-! ## Calls with locks -/

/-- `get_user_pages`; `none` if the caller waits for the lock. -/
def getUserPagesLocked (t : Tid) (pgCnt : UInt32) (m : Memory) (l : LockState) :
    Except Panic (Option (UInt32 × Memory × LockState)) := do
  match ← l.acquire t with
  | none => return none
  | some l =>
    let (vaddr, m) ← getPages t .user pgCnt m
    let l ← l.release t
    return some (vaddr, m, l)

/-- `get_a_page`; `none` if the caller waits for the lock. -/
def getAPageLocked (t : Tid) (pf : PoolFlags) (vaddr : UInt32) (m : Memory) (l : LockState) :
    Except Panic (Option (UInt32 × Memory × LockState)) := do
  match ← l.acquire t with
  | none => return none
  | some l =>
    assert ((m.pgdir t != 0 && pf == .user) || (m.pgdir t == 0 && pf == .kernel)) .getAPageKind
    let va := m.vaddrs t pf
    let bitIdx := ((vaddr - va.vaddrStart) / pgSize).toNat
    assert (bitIdx > 0) .getAPageBitIdx
    let btmp ← bitmapSet va.vaddrBitmap bitIdx 1
    let m := m.setVaddrs t { va with vaddrBitmap := btmp } pf
    let (pagePhyaddr, pool) ← palloc (m.pool pf)
    let m := m.setPool pool pf
    -- this return has no `lock_release`
    if pagePhyaddr = 0 then return some (0, m, l)
    let m ← pageTableAdd t vaddr pagePhyaddr m
    let l ← l.release t
    return some (vaddr, m, l)

section Calls

variable {t : Tid} {pf : PoolFlags} {vaddr n a : UInt32} {m m' : Memory} {l l' : LockState}

/-- The address 0 is not mapped. -/
theorem pageTableAdd_ne_zero {p : UInt32} (h : pageTableAdd t vaddr p m = .ok m') : vaddr ≠ 0 := by
  rintro rfl
  obtain ⟨_, hassert, -⟩ := bind_eq_ok.mp h
  cases hassert

/-- **What the lock adds** to `get_a_page`: it is given back unless the result is `NULL`. -/
theorem getAPageLocked_inv (h : getAPageLocked t pf vaddr m l = .ok (some (a, m', l'))) :
    ∃ l₁, l.acquire t = .ok (some l₁) ∧ getAPage t pf vaddr m = .ok (a, m') ∧
      ∃ p pool, palloc (m.pool pf) = .ok (p, pool) ∧
        ((p = 0 ∧ a = 0 ∧ l' = l₁) ∨ (p ≠ 0 ∧ a ≠ 0 ∧ l₁.release t = .ok l')) := by
  obtain ⟨r, hacquire, h⟩ := bind_eq_ok.mp h
  cases r with
  | none => cases h
  | some l₁ =>
    obtain ⟨_, hkind, h⟩ := bind_eq_ok.mp h
    obtain ⟨_, hindex, h⟩ := bind_eq_ok.mp h
    obtain ⟨btmp, hset, h⟩ := bind_eq_ok.mp h
    obtain ⟨⟨p, pool⟩, hpalloc, h⟩ := bind_eq_ok.mp h
    dsimp only at h
    have hpool : (m.setVaddrs t { m.vaddrs t pf with vaddrBitmap := btmp } pf).pool pf =
        m.pool pf := by
      cases pf with
      | kernel => rfl
      | user => rfl
    refine ⟨l₁, hacquire, ?_, p, pool, hpool ▸ hpalloc, ?_⟩
    · unfold getAPage
      simp only [hkind, hindex, hset, hpalloc, ok_bind]
      by_cases hp : p = 0
      · rw [if_pos hp] at h ⊢
        cases h
        rfl
      · rw [if_neg hp] at h ⊢
        obtain ⟨m₁, hadd, h⟩ := bind_eq_ok.mp h
        obtain ⟨l₂, -, h⟩ := bind_eq_ok.mp h
        cases h
        rw [hadd]
        rfl
    · by_cases hp : p = 0
      · rw [if_pos hp] at h
        cases h
        exact Or.inl ⟨hp, rfl, rfl⟩
      · rw [if_neg hp] at h
        obtain ⟨m₁, hadd, h⟩ := bind_eq_ok.mp h
        obtain ⟨l₂, hrelease, h⟩ := bind_eq_ok.mp h
        cases h
        exact Or.inr ⟨hp, pageTableAdd_ne_zero hadd, hrelease⟩

theorem getAPageLocked_of {l₁ : LockState} (hacquire : l.acquire t = .ok (some l₁))
    (hpage : getAPage t pf vaddr m = .ok (a, m')) (hnull : a = 0 → l' = l₁)
    (hrelease : a ≠ 0 → l₁.release t = .ok l') :
    getAPageLocked t pf vaddr m l = .ok (some (a, m', l')) := by
  obtain ⟨_, hkind, h⟩ := bind_eq_ok.mp hpage
  obtain ⟨_, hindex, h⟩ := bind_eq_ok.mp h
  obtain ⟨btmp, hset, h⟩ := bind_eq_ok.mp h
  obtain ⟨⟨p, pool⟩, hpalloc, h⟩ := bind_eq_ok.mp h
  dsimp only at h
  unfold getAPageLocked
  simp only [hacquire, hkind, hindex, hset, hpalloc, ok_bind]
  by_cases hp : p = 0
  · rw [if_pos hp] at h ⊢
    cases h
    rw [hnull rfl]
    rfl
  · rw [if_neg hp] at h ⊢
    obtain ⟨m₁, hadd, h⟩ := bind_eq_ok.mp h
    cases h
    rw [hadd, ok_bind, hrelease (pageTableAdd_ne_zero hadd)]
    rfl

/-- No frame is left. -/
theorem getAPage_null {pool : Pool}
    (hkind : (m.pgdir t ≠ 0 ∧ pf = .user) ∨ (m.pgdir t = 0 ∧ pf = .kernel))
    (hpos : pageIndex m t pf vaddr ≠ 0)
    (hmanaged : pageIndex m t pf vaddr < (m.vaddrs t pf).vaddrBitmap.size)
    (hpalloc : palloc (m.pool pf) = .ok (0, pool)) :
    ∃ m', getAPage t pf vaddr m = .ok (0, m') := by
  obtain ⟨btmp, hset, -, -⟩ := bitmapSet_one _ hmanaged
  obtain ⟨m₁, -, heval⟩ := getAPage_eq hkind hpos hset hpalloc
  exact ⟨m₁, heval⟩

theorem getUserPagesLocked_inv (h : getUserPagesLocked t n m l = .ok (some (a, m', l'))) :
    ∃ l₁, l.acquire t = .ok (some l₁) ∧ getUserPages t n m = .ok (a, m') ∧
      l₁.release t = .ok l' := by
  obtain ⟨r, hacquire, h⟩ := bind_eq_ok.mp h
  cases r with
  | none => cases h
  | some l₁ =>
    obtain ⟨⟨vaddr, m₁⟩, hpages, h⟩ := bind_eq_ok.mp h
    obtain ⟨l₂, hrelease, h⟩ := bind_eq_ok.mp h
    cases h
    exact ⟨l₁, hacquire, hpages, hrelease⟩

end Calls

/-! ## Runs -/

/-- The memory, the directories and the locks of the two pools. -/
structure LockedRun where
  space : SpaceRun
  locks : PoolFlags → LockState

/-- A call with the lock it takes; the other calls take none. -/
def PageOp.execLocked (userVaddrStart : UInt32) (t : Tid) (s : LockedRun) :
    PageOp → Except Panic (Option LockedRun)
  | .userPages pgCnt => do
    match ← getUserPagesLocked t pgCnt s.space.mem (s.locks .user) with
    | none => return none
    | some (_, m, l) =>
      return some ⟨{ s.space with mem := m }, Function.update s.locks .user l⟩
  | .aPage pf vaddr => do
    match ← getAPageLocked t pf vaddr s.space.mem (s.locks pf) with
    | none => return none
    | some (_, m, l) =>
      return some ⟨{ s.space with mem := m }, Function.update s.locks pf l⟩
  | op => do
    let space ← op.exec userVaddrStart t s.space
    return some { s with space := space }

/-- The directory at `d` is active while `t` runs. -/
def LockedRun.activate (s : LockedRun) (t : Tid) (d : Nat) : LockedRun :=
  { s with space := { s.space with mem := s.space.mem.activate t d } }

/-- Calls one after another; a call that would have to wait does not take place. -/
def lockedRuns (allMem userVaddrStart : UInt32) : System LockedRun PageEvent Panic where
  init s := SpaceStart allMem s.space ∧ ∀ pf, s.locks pf = .free
  step e s :=
    match e.op.execLocked userVaddrStart e.thread (s.activate e.thread e.dir) with
    | .ok none => none
    | .ok (some s') => some (.ok s')
    | .error p => some (.error p)

section Runs

variable {t : Tid} {pf : PoolFlags} {allMem userVaddrStart : UInt32} {s s' : LockedRun}

/-- The locks take no part in what the calls do to memory. -/
theorem PageOp.execLocked_exec {op : PageOp}
    (h : op.execLocked userVaddrStart t s = .ok (some s')) :
    op.exec userVaddrStart t s.space = .ok s'.space := by
  cases op with
  | userPages n =>
    obtain ⟨r, hcall, h⟩ := bind_eq_ok.mp h
    match r with
    | none => cases h
    | some (a, m, l) =>
      cases h
      obtain ⟨-, -, hpages, -⟩ := getUserPagesLocked_inv hcall
      exact bind_eq_ok.mpr ⟨_, hpages, rfl⟩
  | aPage pf vaddr =>
    obtain ⟨r, hcall, h⟩ := bind_eq_ok.mp h
    match r with
    | none => cases h
    | some (a, m, l) =>
      cases h
      obtain ⟨-, -, hpage, -⟩ := getAPageLocked_inv hcall
      exact bind_eq_ok.mpr ⟨_, hpage, rfl⟩
  | newDir =>
    obtain ⟨space, hcall, h⟩ := bind_eq_ok.mp h
    cases h
    exact hcall
  | newUserVaddr u =>
    obtain ⟨space, hcall, h⟩ := bind_eq_ok.mp h
    cases h
    exact hcall
  | kernelPages n =>
    obtain ⟨space, hcall, h⟩ := bind_eq_ok.mp h
    cases h
    exact hcall

/-- Both pools only ever lose frames. -/
theorem Grows.pool {m m' : Memory} (h : Grows t pf m m') (pf' : PoolFlags) :
    PoolGrows (m.pool pf') (m'.pool pf') := by
  cases pf' with
  | kernel => exact h.kernelPool
  | user => exact h.userPool

/-- **One call.** A lock that was free is free again if the pool has a frame left. -/
theorem PageOp.execLocked_free {op : PageOp} (hok : (s.space.mem.pool pf).Ok)
    (hfree : s.locks pf = .free) (h : op.execLocked userVaddrStart t s = .ok (some s'))
    (hleft : 0 < (s'.space.mem.pool pf).freeFrames) : s'.locks pf = .free := by
  cases op with
  | userPages n =>
    obtain ⟨r, hcall, h⟩ := bind_eq_ok.mp h
    match r with
    | none => cases h
    | some (a, m, l) =>
      cases h
      obtain ⟨l₁, hacquire, -, hrelease⟩ := getUserPagesLocked_inv hcall
      cases pf with
      | kernel => exact hfree
      | user =>
        rw [hfree, LockState.acquire_free] at hacquire
        cases hacquire
        rw [LockState.release_taken] at hrelease
        cases hrelease
        exact Function.update_self PoolFlags.user LockState.free s.locks
  | aPage pf' vaddr =>
    obtain ⟨r, hcall, h⟩ := bind_eq_ok.mp h
    match r with
    | none => cases h
    | some (a, m, l) =>
      cases h
      obtain ⟨l₁, hacquire, hpage, p, pool, hpalloc, hcases⟩ := getAPageLocked_inv hcall
      by_cases heq : pf' = pf
      · subst heq
        rw [hfree, LockState.acquire_free] at hacquire
        cases hacquire
        rcases hcases with ⟨rfl, -, -⟩ | ⟨-, -, hrelease⟩
        · -- then the pool was empty before
          have hgrows : Grows t .kernel s.space.mem m := getAPage_grows hpage
          have hle := (hgrows.pool pf').freeFrames_le
          rcases palloc_taken hok hpalloc with ⟨-, -, hnone⟩ | ⟨hne, -⟩
          · dsimp only at hleft
            omega
          · exact absurd rfl hne
        · rw [LockState.release_taken] at hrelease
          cases hrelease
          exact Function.update_self pf' LockState.free s.locks
      · exact (Function.update_of_ne (Ne.symm heq) l s.locks).trans hfree
  | newDir =>
    obtain ⟨space, -, h⟩ := bind_eq_ok.mp h
    cases h
    exact hfree
  | newUserVaddr u =>
    obtain ⟨space, -, h⟩ := bind_eq_ok.mp h
    cases h
    exact hfree
  | kernelPages n =>
    obtain ⟨space, -, h⟩ := bind_eq_ok.mp h
    cases h
    exact hfree

/-- A step of the run is a call. -/
theorem lockedRuns_step {e : PageEvent}
    (h : (lockedRuns allMem userVaddrStart).step e s = some (.ok s')) :
    e.op.execLocked userVaddrStart e.thread (s.activate e.thread e.dir) = .ok (some s') := by
  simp only [lockedRuns] at h
  split at h
  · cases h
  · next hcall =>
    cases h
    exact hcall
  · cases h

theorem lockedRuns_call {e : PageEvent}
    (h : e.op.execLocked userVaddrStart e.thread (s.activate e.thread e.dir) = .ok (some s')) :
    (lockedRuns allMem userVaddrStart).step e s = some (.ok s') := by
  simp only [lockedRuns, h]

/-- **A pool with a free frame has a free lock**, between the calls of every run. -/
theorem lockedRuns_free (hmem : 0x200000 ≤ allMem.toNat)
    (hs : (lockedRuns allMem userVaddrStart).Reach (fun _ _ => True) s) (pf : PoolFlags) :
    (s.space.mem.pool pf).Ok ∧ (0 < (s.space.mem.pool pf).freeFrames → s.locks pf = .free) := by
  induction hs with
  | init h =>
    refine ⟨?_, fun _ => h.2 pf⟩
    obtain ⟨bytes, hpools⟩ := h.1.pools
    cases pf with
    | kernel => exact (h.1.spaces hmem).pools.ok
    | user =>
      have hok := (userPool_init hmem bytes).1
      rw [← hpools] at hok
      exact hok
  | @step s₁ s₂ e _ _ hstep ih =>
    obtain ⟨hok, hfree⟩ := ih
    have hcall := lockedRuns_step hstep
    have hactive : ((s₁.activate e.thread e.dir).space.mem.pool pf) = s₁.space.mem.pool pf := by
      cases pf with
      | kernel => rfl
      | user => rfl
    have hkeep : e.op.Keeps 0 .kernel := by
      cases e.op with
      | newUserVaddr u => exact nofun
      | _ => trivial
    have hgrows := (PageOp.exec_grows hkeep (PageOp.execLocked_exec hcall)).pool pf
    rw [hactive] at hgrows
    refine ⟨hgrows.ok hok, fun hleft => ?_⟩
    have hleft₁ := Nat.lt_of_lt_of_le hleft hgrows.freeFrames_le
    exact PageOp.execLocked_free (s := s₁.activate e.thread e.dir) (hactive ▸ hok) (hfree hleft₁)
      hcall hleft

/-- **`get_a_page` leaves no trace when it fails, if and only if it does not fail**: on return the lock
is as before, and so is everything else when the result is `NULL`, exactly when the pool has a free
frame. -/
theorem aPage_no_trace_iff (hmem : 0x200000 ≤ allMem.toNat)
    (hs : (lockedRuns allMem userVaddrStart).Reach (fun _ _ => True) s) {d : Nat} {vaddr a : UInt32}
    {m' : Memory} {l' : LockState}
    (hret : getAPageLocked t pf vaddr (s.space.mem.activate t d) (s.locks pf) =
      .ok (some (a, m', l'))) :
    (l' = s.locks pf ∧ (a = 0 → m' = s.space.mem.activate t d)) ↔
      0 < (s.space.mem.pool pf).freeFrames := by
  obtain ⟨hok, hfree⟩ := lockedRuns_free hmem hs pf
  have hactive : (s.space.mem.activate t d).pool pf = s.space.mem.pool pf := by
    cases pf with
    | kernel => rfl
    | user => rfl
  obtain ⟨l₁, hacquire, -, p, pool, hpalloc, hcases⟩ := getAPageLocked_inv hret
  rw [hactive] at hpalloc
  rcases palloc_taken hok hpalloc with ⟨rfl, -, hnone⟩ | ⟨hne, htaken⟩
  · -- the lock is still held
    rcases hcases with ⟨-, -, rfl⟩ | ⟨hne, -⟩
    · constructor
      · intro hsame
        exact absurd hsame.1 (LockState.acquire_ne hacquire)
      · intro hpos
        omega
    · exact absurd rfl hne
  · have hpos := Pool.freeFrames_pos htaken.free
    rcases hcases with ⟨hzero, -⟩ | ⟨-, ha, hrelease⟩
    · exact absurd hzero hne
    · rw [hfree hpos, LockState.acquire_free] at hacquire
      cases hacquire
      rw [LockState.release_taken] at hrelease
      cases hrelease
      rw [hfree hpos]
      exact ⟨fun _ => hpos, fun _ => ⟨rfl, fun hzero => absurd hzero ha⟩⟩

/-- The second page of a process, on a machine with free frames. -/
theorem aPage_no_trace_second : ∃ m', getAPageLocked 1 .user 0x8049000
    (processStart.mem.activate 1 pageDirTablePos) .free = .ok (some (0x8049000, m', .free)) ∧
    0 < processStart.mem.userPool.freeFrames := by
  obtain ⟨hindex, hpage⟩ := @processStart_freePage 0x8049000 1 (by decide) rfl
  have htables := (processStart_start.tables (by decide)).activate 1 pageDirTablePos
  obtain ⟨m', hret, -⟩ := hpage.given htables List.mem_cons_self (by rw [hindex]; decide)
  have hlocked : getAPageLocked 1 .user 0x8049000 (processStart.mem.activate 1 pageDirTablePos)
      .free = .ok (some (0x8049000, m', .free)) :=
    getAPageLocked_of (LockState.acquire_free 1) hret nofun fun _ => LockState.release_taken 1
  refine ⟨m', hlocked, ?_⟩
  have hstart : (lockedRuns 0x400000 0x8048000).Reach (fun _ _ => True)
      ⟨processStart, fun _ => .free⟩ := .init ⟨processStart_start.spaceStart, fun _ => rfl⟩
  exact (aPage_no_trace_iff (by decide) hstart hlocked).mp ⟨rfl, nofun⟩

/-- A kernel thread has taken all frames; the next page it asks for costs it the lock. -/
theorem aPage_keeps_lock : ∃ s, (lockedRuns 0x400000 0x8048000).Reach (fun _ _ => True) s ∧
    s.locks .kernel = .free ∧ ∃ m', getAPageLocked 0 .kernel 0xc0101000
      (s.space.mem.activate 0 pageDirTablePos) (s.locks .kernel) =
        .ok (some (0, m', .taken 0)) := by
  have hstart := processStart_start
  have htables := hstart.tables (by decide)
  have hsize : processStart.mem.kernelVaddr.vaddrBitmap.size = 256 := by decide
  have hpgdir : processStart.mem.pgdir 0 = 0 := by decide
  have hactive : processStart.mem.activate 0 pageDirTablePos = processStart.mem := activate_self rfl
  obtain ⟨a, m₁, hcall, hstep, hnone⟩ := processStart_exhausted
  generalize processStart = s at *
  have hreach : (lockedRuns 0x400000 0x8048000).Reach (fun _ _ => True)
      ⟨⟨m₁, s.dirs⟩, fun _ => .free⟩ := by
    refine .step (s := ⟨s, fun _ => .free⟩) (e := ⟨0, pageDirTablePos, .kernelPages 256⟩)
      (.init ⟨hstart.spaceStart, fun _ => rfl⟩) trivial ?_
    have hexec : PageOp.exec 0x8048000 0 ⟨s.mem.activate 0 pageDirTablePos, s.dirs⟩
        (.kernelPages 256) = .ok ⟨m₁, s.dirs⟩ := by
      rw [hactive, PageOp.exec, SpaceOp.exec, hcall]
      rfl
    exact lockedRuns_call (bind_eq_ok.mpr ⟨_, hexec, rfl⟩)
  refine ⟨_, hreach, rfl, ?_⟩
  have hok : m₁.kernelPool.Ok := hstep.pools.ok
  obtain ⟨q, pool, hpalloc⟩ : ∃ q pool, palloc m₁.kernelPool = .ok (q, pool) := by
    rcases palloc_spec m₁.kernelPool with ⟨-, h⟩ | ⟨_, _, -, -, -, -, h⟩
    · exact ⟨_, _, h⟩
    · exact ⟨_, _, h⟩
  have hzero : q = 0 := by
    rcases palloc_taken hok hpalloc with ⟨hzero, -⟩ | ⟨-, htaken⟩
    · exact hzero
    · have hpos := Pool.freeFrames_pos htaken.free
      omega
  rw [hzero] at hpalloc
  have hindex : pageIndex (m₁.activate 0 pageDirTablePos) 0 .kernel 0xc0101000 = 1 := by
    have hheap : m₁.kernelVaddr.vaddrStart = kHeapStart := hstep.pools.vaddrStart
    show ((0xc0101000 - m₁.kernelVaddr.vaddrStart) / pgSize).toNat = 1
    rw [hheap]
    rfl
  have hmanaged : 1 < m₁.kernelVaddr.vaddrBitmap.size := by
    rw [hstep.heapSize, hsize]
    decide
  have hkind : m₁.pgdir 0 = 0 := by rw [hstep.pgdir, hpgdir]
  obtain ⟨m', hret⟩ := @getAPage_null 0 .kernel 0xc0101000 (m₁.activate 0 pageDirTablePos) pool
    (Or.inr ⟨hkind, rfl⟩) (by rw [hindex]; decide) (by rw [hindex]; exact hmanaged) hpalloc
  exact ⟨m', getAPageLocked_of (LockState.acquire_free 0) hret (fun _ => rfl)
    fun hne => absurd rfl hne⟩

end Runs

end OsKernel
