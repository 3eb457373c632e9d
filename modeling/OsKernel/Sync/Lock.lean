import OsKernel.Sync.Semaphore

/-!
# Lock safety

`lock_acquire` and `lock_release` write `holder` and `holder_repeat_nr` with interrupts on, so a
switch can fall between any two of their statements. What the two fields hold is a function of
where the thread with the lock stands: `claim` computes it from the call stack and the number of
unmatched acquires, and `LockInv` says that the fields are what the one thread with a claim says
they are, and that this thread is the one with the permit of the lock's semaphore.

- `LockOk`: no `lock_release` without a `lock_acquire`, fewer than 2^32 nested acquires, and no
  device handler that could call into a lock its own thread is just using.
- `LockInv.next`: the step lemma all cases go through.
- `LockInv.step`, `LockInv.reach`: one event, and every run.
- `lock_safety`: the same on list.c's pointers.
-/

namespace OsKernel

open Lib

variable {P : Program}

/-! ## The discipline -/

/-- What the callers of the lock functions promise about the next event. -/
def LockOk {H : Type} (c : Config H P) : Event P → Prop
  | .exec _ =>
    (∀ plock rest, c.top = .lockRelease plock .assertHolder :: rest →
      0 < c.history.acquired c.kernel.running plock) ∧
    (∀ plock rest, c.top = .lockAcquire plock .test :: rest →
      c.history.acquired c.kernel.running plock + 1 < 2 ^ 32)
  | .timer => True
  | .device _ => False

/-! ## What a thread's position says about a lock -/

/-- Outside the lock functions: `h` unmatched acquires. -/
def settledClaim (h : Nat) : Option (Bool × Nat) := if h = 0 then none else some (true, h)

/-- Inside `lock_acquire`. -/
def AcquirePc.claim (h : Nat) : AcquirePc → Option (Bool × Nat)
  | .setHolder => some (false, 0)
  | .assertRepeatNr | .setRepeatNr => some (true, 0)
  | .test | .loadRepeatNr | .storeRepeatNr _ => settledClaim h

/-- Inside `lock_release`, where `h` no longer counts the acquire that is being released. -/
def ReleasePc.claim (h : Nat) : ReleasePc → Option (Bool × Nat)
  | .assertHolder => settledClaim h
  | .clearRepeatNr => some (false, 1)
  | .test | .loadRepeatNr | .storeRepeatNr _ | .assertRepeatNr | .clearHolder => some (true, h + 1)

/-- The claim of a thread with this top frame on the lock `plock`. -/
def Frame.claim {Loc : Type} (plock h : Nat) : Frame Loc → Option (Bool × Nat)
  | .lockAcquire l pc => if l = plock then pc.claim h else settledClaim h
  | .lockRelease l pc => if l = plock then pc.claim h else settledClaim h
  | .semaUp s => if s = .inLock plock then some (false, 0) else settledClaim h
  | _ => settledClaim h

/-- The claim of a thread on the lock `plock`: `none` if it does not have the lock, else whether
`holder` is set and what `holder_repeat_nr` is. An interrupt on top changes nothing. -/
def claim {Loc : Type} (plock h : Nat) : List (Frame Loc) → Option (Bool × Nat)
  | [] => settledClaim h
  | .intrExit _ :: rest => claim plock h rest
  | f :: _ => f.claim plock h

/-- What `lock_acquire` has found out so far. -/
def AcquirePc.Ok (h : Nat) : AcquirePc → Prop
  | .test => True
  | .setHolder | .assertRepeatNr | .setRepeatNr => h = 0
  | .loadRepeatNr => 0 < h ∧ h + 1 < 2 ^ 32
  | .storeRepeatNr nr => 0 < h ∧ h + 1 < 2 ^ 32 ∧ nr.toNat = h

/-- What `lock_release` has found out so far. -/
def ReleasePc.Ok (h : Nat) : ReleasePc → Prop
  | .assertHolder | .test => True
  | .loadRepeatNr => 0 < h
  | .storeRepeatNr nr => 0 < h ∧ nr.toNat = h + 1
  | .assertRepeatNr | .clearHolder | .clearRepeatNr => h = 0

/-- What a frame, with the frames `rest` below it, has found out about the lock `plock`. -/
def Frame.Ok {Loc : Type} (plock h : Nat) (rest : List (Frame Loc)) : Frame Loc → Prop
  | .lockAcquire l pc => l = plock → pc.Ok h
  | .lockRelease l pc => l = plock → pc.Ok h
  | .semaUp s => s = .inLock plock → h = 0
  | .semaDownCall s | .semaDown s _ =>
    s = .inLock plock → h = 0 ∧ rest.head? = some (.lockAcquire plock .setHolder)
  | _ => True

/-- What the innermost call knows; interrupts and `thread_block` stand on top of it. -/
def StackOk {Loc : Type} (plock h : Nat) : List (Frame Loc) → Prop
  | [] => True
  | .intrExit _ :: rest | .threadBlock _ :: rest => StackOk plock h rest
  | f :: rest => f.Ok plock h rest

/-- The frame belongs to a call on the lock. -/
def Frame.onLock {Loc : Type} (plock : Nat) : Frame Loc → Bool
  | .lockAcquire l _ | .lockRelease l _ => l = plock
  | .semaUp s | .semaDownCall s | .semaDown s _ => s = .inLock plock
  | _ => false

/-- No code of the program runs on top of an interrupt. -/
def NoHandler {Loc : Type} (f g : Frame Loc) : Prop := ∀ e, g = .intrExit e → ∀ l, f ≠ .prog l

section Positions

variable {Loc : Type} {plock h : Nat} {st rest : List (Frame Loc)} {f : Frame Loc}

theorem settledClaim_none {n : Nat} : settledClaim n = none ↔ n = 0 := by
  simp [settledClaim]

theorem settledClaim_pos {n : Nat} (hn : 0 < n) : settledClaim n = some (true, n) := by
  unfold settledClaim
  rw [if_neg (by omega)]

/-- A thread without a claim has no unmatched acquire. -/
theorem claim_none (hc : claim plock h st = none) : h = 0 := by
  induction st with
  | nil => exact settledClaim_none.mp hc
  | cons f rest ih =>
    cases f with
    | intrExit eflags => exact ih hc
    | lockAcquire l pc =>
      change (if l = plock then pc.claim h else settledClaim h) = none at hc
      split at hc
      · cases pc with
        | setHolder => cases hc
        | assertRepeatNr => cases hc
        | setRepeatNr => cases hc
        | test => exact settledClaim_none.mp hc
        | loadRepeatNr => exact settledClaim_none.mp hc
        | storeRepeatNr nr => exact settledClaim_none.mp hc
      · exact settledClaim_none.mp hc
    | lockRelease l pc =>
      change (if l = plock then pc.claim h else settledClaim h) = none at hc
      split at hc
      · cases pc with
        | assertHolder => exact settledClaim_none.mp hc
        | _ => cases hc
      · exact settledClaim_none.mp hc
    | semaUp s =>
      change (if s = .inLock plock then some (false, 0) else settledClaim h) = none at hc
      split at hc
      · cases hc
      · exact settledClaim_none.mp hc
    | _ => exact settledClaim_none.mp hc

/-- Outside calls on the lock only the unmatched acquires count. -/
theorem claim_outside (hout : ∀ f ∈ st, f.onLock plock = false) :
    claim plock h st = settledClaim h := by
  induction st with
  | nil => rfl
  | cons f rest ih =>
    have hf : f.onLock plock = false := hout f List.mem_cons_self
    cases f with
    | intrExit eflags => exact ih fun g hg => hout g (List.mem_cons_of_mem _ hg)
    | lockAcquire l pc => exact if_neg (of_decide_eq_false hf)
    | lockRelease l pc => exact if_neg (of_decide_eq_false hf)
    | semaUp s => exact if_neg (of_decide_eq_false hf)
    | _ => rfl

/-- A frame of the program, or none at all, is on top. -/
def ProgTop (st : List (Frame Loc)) : Prop := ∀ g ∈ st.head?, ∃ l, g = .prog l

theorem ProgTop.claim_eq (ht : ProgTop st) : claim plock h st = settledClaim h := by
  cases st with
  | nil => rfl
  | cons g rest =>
    obtain ⟨l, rfl⟩ := ht g rfl
    rfl

theorem ProgTop.stackOk (ht : ProgTop st) : StackOk plock h st := by
  cases st with
  | nil => trivial
  | cons g rest =>
    obtain ⟨l, rfl⟩ := ht g rfl
    trivial

theorem progTop_of_calls (hchain : (f :: rest).IsChain Calls)
    (hf : ∀ g, Calls f g → ∃ l, g = .prog l) : ProgTop rest := by
  intro g hg
  cases rest with
  | nil => cases hg
  | cons g' rest =>
    cases hg
    exact hf _ (List.isChain_cons_cons.mp hchain).1

theorem noHandler_cons (hrest : rest.IsChain NoHandler) (hf : ∀ l, f ≠ .prog l) :
    (f :: rest).IsChain NoHandler := by
  cases rest with
  | nil => exact .singleton f
  | cons g rest => exact List.isChain_cons_cons.mpr ⟨fun _ _ => hf, hrest⟩

theorem Call.claim_eq (call : Call Loc) : claim plock h (call.frame :: rest) = settledClaim h := by
  cases call with
  | lockAcquire l => exact ite_self _
  | lockRelease l => exact ite_self _
  | semaUp s => rfl
  | _ => rfl

theorem Call.stackOk (call : Call Loc) : StackOk plock h (call.frame :: rest) := by
  cases call with
  | lockAcquire l => exact fun _ => trivial
  | lockRelease l => exact fun _ => trivial
  | semaDown s => exact nofun
  | semaUp s => exact nofun
  | _ => trivial

end Positions

/-! ## The invariant -/

/-- The claim of thread `t` on the lock. -/
def Config.claim {H : Type} (c : Config H P) (plock : Nat) (t : Tid) : Option (Bool × Nat) :=
  OsKernel.claim plock (c.history.acquired t plock) (c.stack t)

/-- The invariant of the lock `plock`. -/
structure LockInv (plock : Nat) (c : Config Queues P) : Prop where
  sema : SemaInv (.inLock plock) c
  noHandler : ∀ t, (c.stack t).IsChain NoHandler
  ok : ∀ t, StackOk plock (c.history.acquired t plock) (c.stack t)
  owner : ∀ t, c.history.downs (.inLock plock) t = if (c.claim plock t).isSome then 1 else 0
  free : (∀ t, c.claim plock t = none) →
    c.kernel.holder plock = none ∧ c.kernel.holderRepeatNr plock = 0
  held : ∀ t b n, c.claim plock t = some (b, n) →
    c.kernel.holder plock = (if b then some t else none) ∧
      (c.kernel.holderRepeatNr plock).toNat = n

namespace LockInv

variable {plock : Nat} {c c' : Config Queues P} {f : Frame P.Loc} {rest : List (Frame P.Loc)}

/-- Two threads never both have the permit, so they never both have a claim. -/
theorem unique (h : LockInv plock c) {t u : Tid} {x y : Bool × Nat}
    (ht : c.claim plock t = some x) (hu : c.claim plock u = some y) : t = u := by
  have h₁ : c.history.downs (.inLock plock) t = 1 := by rw [h.owner, ht]; rfl
  have h₂ : c.history.downs (.inLock plock) u = 1 := by rw [h.owner, hu]; rfl
  rcases h.sema.permit with ⟨-, hall⟩ | ⟨-, v, hv⟩
  · rw [hall] at h₁
    cases h₁
  · rw [hv] at h₁ h₂
    have htv : t = v := by
      by_contra hne
      rw [if_neg hne] at h₁
      cases h₁
    have huv : u = v := by
      by_contra hne
      rw [if_neg hne] at h₂
      cases h₂
    rw [htv, huv]

/-- With the semaphore free nobody has a claim. -/
theorem no_claim_of_value (h : LockInv plock c) (hv : c.kernel.value (.inLock plock) ≠ 0) (t : Tid) :
    c.claim plock t = none := by
  rcases h.sema.permit with ⟨-, hall⟩ | ⟨hzero, -⟩
  · have hd := h.owner t
    rw [hall] at hd
    cases hc : c.claim plock t with
    | none => rfl
    | some x =>
      rw [hc] at hd
      cases hd
  · exact absurd hzero hv

/-- A thread with a claim has the permit. -/
theorem value_of_claim (h : LockInv plock c) {t : Tid} {x : Bool × Nat}
    (ht : c.claim plock t = some x) : c.kernel.value (.inLock plock) = 0 := by
  by_contra hv
  rw [h.no_claim_of_value hv t] at ht
  cases ht

/-- `holder` names the thread whose claim says so. -/
theorem claim_of_holder (h : LockInv plock c) {t : Tid} (ht : c.kernel.holder plock = some t) :
    ∃ n, c.claim plock t = some (true, n) := by
  have hex : ∃ u x, c.claim plock u = some x := by
    by_contra hnone
    have hfree := h.free fun u => by
      cases hu : c.claim plock u with
      | none => rfl
      | some x => exact absurd ⟨u, x, hu⟩ hnone
    rw [hfree.1] at ht
    cases ht
  obtain ⟨u, ⟨b, n⟩, hu⟩ := hex
  have hheld := (h.held u b n hu).1
  rw [ht] at hheld
  cases b with
  | false => cases hheld
  | true =>
    cases hheld
    exact ⟨n, hu⟩

/-- **The step lemma.** Only the running thread's position changes. If it has a claim afterwards,
the fields are what the claim says; if not, either it had none and the fields are as before, or
it had one and the fields are reset. -/
theorem next (h : LockInv plock c) (hsema : SemaInv (.inLock plock) c')
    (hother : ∀ t, t ≠ c.kernel.running → c'.claim plock t = c.claim plock t ∧
      StackOk plock (c'.history.acquired t plock) (c'.stack t) ∧
      c'.history.downs (.inLock plock) t = c.history.downs (.inLock plock) t)
    (hchain : ∀ t, (c'.stack t).IsChain NoHandler)
    (hok : StackOk plock (c'.history.acquired c.kernel.running plock)
      (c'.stack c.kernel.running))
    (howner : c'.history.downs (.inLock plock) c.kernel.running =
      if (c'.claim plock c.kernel.running).isSome then 1 else 0)
    (hsome : ∀ b n, c'.claim plock c.kernel.running = some (b, n) →
      c'.kernel.holder plock = (if b then some c.kernel.running else none) ∧
        (c'.kernel.holderRepeatNr plock).toNat = n)
    (hnone : c'.claim plock c.kernel.running = none →
      (c.claim plock c.kernel.running = none ∧ c'.kernel.holder plock = c.kernel.holder plock ∧
        c'.kernel.holderRepeatNr plock = c.kernel.holderRepeatNr plock) ∨
      (c.claim plock c.kernel.running ≠ none ∧ c'.kernel.holder plock = none ∧
        c'.kernel.holderRepeatNr plock = 0)) :
    LockInv plock c' := by
  have hown : ∀ t, c'.history.downs (.inLock plock) t =
      if (c'.claim plock t).isSome then 1 else 0 := by
    intro t
    by_cases ht : t = c.kernel.running
    · rw [ht]
      exact howner
    · rw [(hother t ht).2.2, (hother t ht).1]
      exact h.owner t
  refine ⟨hsema, hchain, ?_, hown, ?_, ?_⟩
  · intro t
    by_cases ht : t = c.kernel.running
    · rw [ht]
      exact hok
    · exact (hother t ht).2.1
  · intro hall
    rcases hnone (hall _) with ⟨hold, hholder, hnr⟩ | ⟨-, hreset⟩
    · rw [hholder, hnr]
      apply h.free
      intro t
      by_cases ht : t = c.kernel.running
      · rw [ht]
        exact hold
      · rw [← (hother t ht).1]
        exact hall t
    · exact hreset
  · intro t b n htc
    by_cases ht : t = c.kernel.running
    · subst ht
      exact hsome b n htc
    · have hold : c.claim plock t = some (b, n) := (hother t ht).1 ▸ htc
      cases hr : c'.claim plock c.kernel.running with
      | some x =>
        -- two claims after the step would be two permits
        have h₁ : c'.history.downs (.inLock plock) t = 1 := by rw [hown, htc]; rfl
        have h₂ : c'.history.downs (.inLock plock) c.kernel.running = 1 := by rw [hown, hr]; rfl
        rcases hsema.permit with ⟨-, hall⟩ | ⟨-, v, hv⟩
        · rw [hall] at h₁
          cases h₁
        · rw [hv] at h₁ h₂
          split at h₁
          · next htv =>
            split at h₂
            · next hrv => exact absurd (htv.trans hrv.symm) ht
            · cases h₂
          · cases h₁
      | none =>
        rcases hnone hr with ⟨-, hholder, hnr⟩ | ⟨hwas, -, -⟩
        · rw [hholder, hnr]
          exact h.held t b n hold
        · cases hc : c.claim plock c.kernel.running with
          | none => exact absurd hc hwas
          | some x => exact absurd (h.unique hold hc) ht

/-- A step after which the running thread's claim and the lock's fields are as before. -/
theorem same (h : LockInv plock c) (hsema : SemaInv (.inLock plock) c')
    (hother : ∀ t, t ≠ c.kernel.running → c'.claim plock t = c.claim plock t ∧
      StackOk plock (c'.history.acquired t plock) (c'.stack t))
    (hchain : ∀ t, (c'.stack t).IsChain NoHandler)
    (hok : StackOk plock (c'.history.acquired c.kernel.running plock)
      (c'.stack c.kernel.running))
    (hdowns : c'.history.downs (.inLock plock) = c.history.downs (.inLock plock))
    (hclaim : c'.claim plock c.kernel.running = c.claim plock c.kernel.running)
    (hholder : c'.kernel.holder plock = c.kernel.holder plock)
    (hnr : c'.kernel.holderRepeatNr plock = c.kernel.holderRepeatNr plock) :
    LockInv plock c' := by
  apply h.next hsema
  · exact fun t ht => ⟨(hother t ht).1, (hother t ht).2, by rw [hdowns]⟩
  · exact hchain
  · exact hok
  · rw [hdowns, hclaim]
    exact h.owner _
  · intro b n hc
    rw [hholder, hnr]
    exact h.held _ b n (hclaim ▸ hc)
  · intro hc
    exact Or.inl ⟨hclaim ▸ hc, hholder, hnr⟩

/-- The other threads after a step that keeps their stacks and their counts. -/
theorem others (h : LockInv plock c) (hstack : ∀ t, t ≠ c.kernel.running → c'.stack t = c.stack t)
    (hacq : ∀ t, t ≠ c.kernel.running →
      c'.history.acquired t plock = c.history.acquired t plock) (t : Tid)
    (ht : t ≠ c.kernel.running) :
    c'.claim plock t = c.claim plock t ∧
      StackOk plock (c'.history.acquired t plock) (c'.stack t) := by
  unfold Config.claim
  rw [hstack t ht, hacq t ht]
  exact ⟨rfl, h.ok t⟩

theorem chains (h : LockInv plock c) (hstack : ∀ t, t ≠ c.kernel.running → c'.stack t = c.stack t)
    (hrun : (c'.stack c.kernel.running).IsChain NoHandler) (t : Tid) :
    (c'.stack t).IsChain NoHandler := by
  by_cases ht : t = c.kernel.running
  · rw [ht]
    exact hrun
  · rw [hstack t ht]
    exact h.noHandler t

/-- A step of the running thread that is none on this lock: its claim is the same before and
after, and the lock and its semaphore are not touched. -/
theorem off (h : LockInv plock c) (hsema : SemaInv (.inLock plock) c') {st : List (Frame P.Loc)}
    (hstack : c'.stack = Function.update c.stack c.kernel.running st)
    (hacq : ∀ t, c'.history.acquired t plock = c.history.acquired t plock)
    (hdowns : c'.history.downs (.inLock plock) = c.history.downs (.inLock plock))
    (hholder : c'.kernel.holder plock = c.kernel.holder plock)
    (hnr : c'.kernel.holderRepeatNr plock = c.kernel.holderRepeatNr plock)
    (hchain : st.IsChain NoHandler)
    (hok : StackOk plock (c.history.acquired c.kernel.running plock) st)
    (hclaim : OsKernel.claim plock (c.history.acquired c.kernel.running plock) st =
      c.claim plock c.kernel.running) :
    LockInv plock c' := by
  have hother : ∀ t, t ≠ c.kernel.running → c'.stack t = c.stack t := by
    intro t ht
    rw [hstack, Function.update_of_ne ht]
  have hself : c'.stack c.kernel.running = st := by
    rw [hstack, Function.update_self]
  apply h.same hsema
  · exact h.others hother fun t _ => hacq t
  · exact h.chains hother (hself.symm ▸ hchain)
  · rw [hself, hacq]
    exact hok
  · exact hdowns
  · unfold Config.claim at hclaim ⊢
    rw [hself, hacq]
    exact hclaim
  · exact hholder
  · exact hnr

/-- The claim of the running thread, read off its top frame. -/
theorem claim_top (htop : c.top = f :: rest) :
    c.claim plock c.kernel.running =
      OsKernel.claim plock (c.history.acquired c.kernel.running plock) (f :: rest) := by
  unfold Config.claim
  rw [show c.stack c.kernel.running = f :: rest from htop]

theorem top_ok (h : LockInv plock c) (htop : c.top = f :: rest) :
    StackOk plock (c.history.acquired c.kernel.running plock) (f :: rest) := by
  have := h.ok c.kernel.running
  rwa [show c.stack c.kernel.running = f :: rest from htop] at this

theorem top_chain (h : LockInv plock c) (htop : c.top = f :: rest) :
    (f :: rest).IsChain NoHandler := by
  have := h.noHandler c.kernel.running
  rwa [show c.stack c.kernel.running = f :: rest from htop] at this

/-! ### Statements of the lock functions -/

/-- A statement of `lock_acquire` or `lock_release` on this lock: the running thread's new claim
is `some`, and the fields are what it says. -/
theorem claiming (h : LockInv plock c) {k : Kernel Queues} {hist : History}
    {st : List (Frame P.Loc)} {b : Bool} {n : Nat}
    (hsema : SemaInv (.inLock plock) ({ c with kernel := k, history := hist }.setStack st))
    (hrun : k.running = c.kernel.running)
    (hdowns : hist.downs = c.history.downs)
    (hacq : ∀ t, t ≠ c.kernel.running → hist.acquired t plock = c.history.acquired t plock)
    (hchain : st.IsChain NoHandler)
    (hwas : c.claim plock c.kernel.running ≠ none)
    (hok : StackOk plock (hist.acquired c.kernel.running plock) st)
    (hclaim : OsKernel.claim plock (hist.acquired c.kernel.running plock) st = some (b, n))
    (hholder : k.holder plock = if b then some c.kernel.running else none)
    (hnr : (k.holderRepeatNr plock).toNat = n) :
    LockInv plock ({ c with kernel := k, history := hist }.setStack st) := by
  let c' : Config Queues P := { c with kernel := k, history := hist }.setStack st
  have hstack : c'.stack = Function.update c.stack c.kernel.running st := by
    show Function.update c.stack k.running st = _
    rw [hrun]
  have hother : ∀ t, t ≠ c.kernel.running → c'.stack t = c.stack t := by
    intro t ht
    rw [hstack, Function.update_of_ne ht]
  have hself : c'.stack c.kernel.running = st := by
    rw [hstack, Function.update_self]
  have hclaim' : c'.claim plock c.kernel.running = some (b, n) := by
    unfold Config.claim
    rw [hself]
    exact hclaim
  apply h.next hsema
  · intro t ht
    obtain ⟨h₁, h₂⟩ := h.others hother hacq t ht
    exact ⟨h₁, h₂, congrFun (congrFun hdowns _) t⟩
  · exact h.chains hother (hself.symm ▸ hchain)
  · show StackOk plock (hist.acquired c.kernel.running plock) (c'.stack c.kernel.running)
    rw [hself]
    exact hok
  · show hist.downs (.inLock plock) c.kernel.running =
      if (c'.claim plock c.kernel.running).isSome then 1 else 0
    rw [hdowns, h.owner, hclaim']
    cases hc : c.claim plock c.kernel.running with
    | none => exact absurd hc hwas
    | some x => rfl
  · intro b' n' hc
    rw [show c'.claim plock c.kernel.running = some (b', n') from hc] at hclaim'
    cases hclaim'
    exact ⟨hholder, hnr⟩
  · intro hc
    rw [show c'.claim plock c.kernel.running = none from hc] at hclaim'
    cases hclaim'

/-- A statement that only reads the lock: the claim stays. -/
theorem reads (h : LockInv plock c) {st : List (Frame P.Loc)} {b : Bool} {n : Nat}
    (hsema : SemaInv (.inLock plock) (c.setStack st)) (hchain : st.IsChain NoHandler)
    (hclaim : c.claim plock c.kernel.running = some (b, n))
    (hok : StackOk plock (c.history.acquired c.kernel.running plock) st)
    (hsame : OsKernel.claim plock (c.history.acquired c.kernel.running plock) st = some (b, n)) :
    LockInv plock (c.setStack st) := by
  have hfields := h.held _ _ _ hclaim
  apply h.claiming hsema rfl rfl (fun _ _ => rfl) hchain
  · rw [hclaim]
    exact nofun
  · exact hok
  · exact hsame
  · exact hfields.1
  · exact hfields.2

/-- `lock_acquire` on this lock. -/
theorem lockAcquire_self (h : LockInv plock c) {pc : AcquirePc}
    (htop : c.top = .lockAcquire plock pc :: rest)
    (hg : pc = .test → c.history.acquired c.kernel.running plock + 1 < 2 ^ 32)
    (hprog : ProgTop rest) (he : OsKernel.lockAcquire plock pc rest c = .ok c')
    (hsema : SemaInv (.inLock plock) c') : LockInv plock c' := by
  have hclaim : c.claim plock c.kernel.running =
      pc.claim (c.history.acquired c.kernel.running plock) := by
    rw [claim_top htop]
    exact if_pos rfl
  have hok : pc.Ok (c.history.acquired c.kernel.running plock) := h.top_ok htop rfl
  have hrest : rest.IsChain NoHandler := (h.top_chain htop).tail
  have hnext : ∀ pc' : AcquirePc, (Frame.lockAcquire plock pc' :: rest).IsChain NoHandler :=
    fun pc' => noHandler_cons hrest nofun
  have hcount : ∀ t, t ≠ c.kernel.running →
      update₂ c.history.acquired c.kernel.running plock
        (c.history.acquired c.kernel.running plock + 1) t plock = c.history.acquired t plock := by
    intro t ht
    rw [update₂_of_ne _ ht]
  have hcount' : update₂ c.history.acquired c.kernel.running plock
      (c.history.acquired c.kernel.running plock + 1) c.kernel.running plock =
        c.history.acquired c.kernel.running plock + 1 := by
    rw [update₂_apply, if_pos ⟨rfl, rfl⟩]
  cases pc with
  | test =>
    unfold OsKernel.lockAcquire at he
    dsimp only at he
    split at he
    · next hne =>
      cases he
      -- with an unmatched acquire the thread would be the holder
      have hzero : c.history.acquired c.kernel.running plock = 0 := by
        by_contra hpos
        rw [show AcquirePc.claim _ .test = _ from settledClaim_pos (Nat.pos_of_ne_zero hpos)]
          at hclaim
        exact hne (h.held _ _ _ hclaim).1
      apply h.off hsema rfl (fun _ => rfl) rfl rfl rfl
      · exact noHandler_cons (hnext _) nofun
      · exact fun _ => ⟨hzero, rfl⟩
      · rw [hclaim]
        rfl
    · next heq =>
      cases he
      obtain ⟨n, hn⟩ := h.claim_of_holder (not_not.mp heq)
      have hpos : 0 < c.history.acquired c.kernel.running plock := by
        rw [hclaim] at hn
        by_contra hzero
        have hnone : AcquirePc.claim (c.history.acquired c.kernel.running plock) .test = none :=
          settledClaim_none.mpr (by omega)
        rw [hnone] at hn
        cases hn
      apply h.off hsema rfl (fun _ => rfl) rfl rfl rfl
      · exact hnext _
      · exact fun _ => ⟨hpos, hg rfl⟩
      · rw [hclaim]
        exact if_pos rfl
  | setHolder =>
    cases he
    apply h.claiming hsema rfl rfl (fun _ _ => rfl) (hnext _)
    · rw [hclaim]
      exact nofun
    · exact fun _ => hok
    · exact if_pos rfl
    · exact Function.update_self ..
    · exact (h.held _ _ _ hclaim).2
  | assertRepeatNr =>
    obtain ⟨-, -, he⟩ := bind_eq_ok.mp he
    cases he
    exact h.reads hsema (hnext _) hclaim (fun _ => hok) (if_pos rfl)
  | setRepeatNr =>
    cases he
    apply h.claiming hsema rfl rfl hcount hrest
    · rw [hclaim]
      exact nofun
    · exact hprog.stackOk
    · rw [hprog.claim_eq]
      show settledClaim (update₂ _ _ _ _ _ _) = _
      rw [hcount', show c.history.acquired c.kernel.running plock = 0 from hok]
      rfl
    · exact (h.held _ _ _ hclaim).1
    · show (Function.update c.kernel.holderRepeatNr plock 1 plock).toNat = 1
      rw [Function.update_self]
      rfl
  | loadRepeatNr =>
    cases he
    have hsome := hclaim.trans (settledClaim_pos hok.1)
    have hnr := (h.held _ _ _ hsome).2
    exact h.reads hsema (hnext _) hsome (fun _ => ⟨hok.1, hok.2, hnr⟩)
      ((if_pos rfl).trans (settledClaim_pos hok.1))
  | storeRepeatNr nr =>
    cases he
    have hsome := hclaim.trans (settledClaim_pos hok.1)
    apply h.claiming hsema rfl rfl hcount hrest
    · rw [hsome]
      exact nofun
    · exact hprog.stackOk
    · rw [hprog.claim_eq]
      show settledClaim (update₂ _ _ _ _ _ _) = _
      rw [hcount']
      exact settledClaim_pos (Nat.succ_pos _)
    · exact (h.held _ _ _ hsome).1
    · show (Function.update c.kernel.holderRepeatNr plock (nr + 1) plock).toNat = _
      rw [Function.update_self, UInt32.toNat_add, hok.2.2]
      exact Nat.mod_eq_of_lt hok.2.1

/-- `lock_release` on this lock. -/
theorem lockRelease_self (h : LockInv plock c) {pc : ReleasePc}
    (htop : c.top = .lockRelease plock pc :: rest)
    (hg : pc = .assertHolder → 0 < c.history.acquired c.kernel.running plock)
    (hprog : ProgTop rest) (he : OsKernel.lockRelease plock pc rest c = .ok c')
    (hsema : SemaInv (.inLock plock) c') : LockInv plock c' := by
  have hclaim : c.claim plock c.kernel.running =
      pc.claim (c.history.acquired c.kernel.running plock) := by
    rw [claim_top htop]
    exact if_pos rfl
  have hok : pc.Ok (c.history.acquired c.kernel.running plock) := h.top_ok htop rfl
  have hrest : rest.IsChain NoHandler := (h.top_chain htop).tail
  have hnext : ∀ pc' : ReleasePc, (Frame.lockRelease plock pc' :: rest).IsChain NoHandler :=
    fun pc' => noHandler_cons hrest nofun
  cases pc with
  | assertHolder =>
    obtain ⟨-, -, he⟩ := bind_eq_ok.mp he
    cases he
    have hpos := hg rfl
    have hsome := hclaim.trans (settledClaim_pos hpos)
    have hcount' : update₂ c.history.acquired c.kernel.running plock
        (c.history.acquired c.kernel.running plock - 1) c.kernel.running plock =
          c.history.acquired c.kernel.running plock - 1 := by
      rw [update₂_apply, if_pos ⟨rfl, rfl⟩]
    apply h.claiming hsema rfl rfl _ (hnext _)
    · rw [hsome]
      exact nofun
    · exact fun _ => trivial
    · show (if plock = plock then some (true, update₂ _ _ _ _ _ _ + 1) else _) = _
      rw [if_pos rfl, hcount', Nat.sub_add_cancel hpos]
    · exact (h.held _ _ _ hsome).1
    · exact (h.held _ _ _ hsome).2
    · intro t ht
      show update₂ _ _ _ _ t plock = _
      rw [update₂_of_ne _ ht]
  | test =>
    have hnr := (h.held _ _ _ hclaim).2
    unfold OsKernel.lockRelease at he
    dsimp only at he
    split at he
    · next hgt =>
      cases he
      have hpos : 0 < c.history.acquired c.kernel.running plock := by
        have : 1 < (c.kernel.holderRepeatNr plock).toNat := UInt32.lt_iff_toNat_lt.mp hgt
        omega
      exact h.reads hsema (hnext _) hclaim (fun _ => hpos) (if_pos rfl)
    · next hle =>
      cases he
      have hzero : c.history.acquired c.kernel.running plock = 0 := by
        have : ¬ 1 < (c.kernel.holderRepeatNr plock).toNat :=
          fun hlt => hle (UInt32.lt_iff_toNat_lt.mpr hlt)
        omega
      exact h.reads hsema (hnext _) hclaim (fun _ => hzero) (if_pos rfl)
  | loadRepeatNr =>
    cases he
    exact h.reads hsema (hnext _) hclaim (fun _ => ⟨hok, (h.held _ _ _ hclaim).2⟩) (if_pos rfl)
  | storeRepeatNr nr =>
    cases he
    apply h.claiming hsema rfl rfl (fun _ _ => rfl) hrest
    · rw [hclaim]
      exact nofun
    · exact hprog.stackOk
    · rw [hprog.claim_eq]
      exact settledClaim_pos hok.1
    · exact (h.held _ _ _ hclaim).1
    · show (Function.update c.kernel.holderRepeatNr plock (nr - 1) plock).toNat = _
      have hle : (1 : UInt32) ≤ nr := UInt32.le_iff_toNat_le.mpr (by rw [hok.2]; exact Nat.succ_pos _)
      rw [Function.update_self, UInt32.toNat_sub_of_le _ _ hle, hok.2]
      rfl
  | assertRepeatNr =>
    obtain ⟨-, -, he⟩ := bind_eq_ok.mp he
    cases he
    exact h.reads hsema (hnext _) hclaim (fun _ => hok) (if_pos rfl)
  | clearHolder =>
    cases he
    apply h.claiming hsema rfl rfl (fun _ _ => rfl) (hnext _)
    · rw [hclaim]
      exact nofun
    · exact fun _ => hok
    · exact if_pos rfl
    · exact Function.update_self ..
    · have hnr := (h.held _ _ _ hclaim).2
      rw [show c.history.acquired c.kernel.running plock = 0 from hok] at hnr
      exact hnr
  | clearRepeatNr =>
    cases he
    apply h.claiming hsema rfl rfl (fun _ _ => rfl) (noHandler_cons hrest nofun)
    · rw [hclaim]
      exact nofun
    · exact fun _ => hok
    · exact if_pos rfl
    · exact (h.held _ _ _ hclaim).1
    · show (Function.update c.kernel.holderRepeatNr plock 0 plock).toNat = 0
      rw [Function.update_self]
      rfl

/-! ### Statements that are not on this lock -/

/-- A frame over the program's code that is not on this lock is replaced by another such one. -/
theorem off_cons (h : LockInv plock c) {f' : Frame P.Loc} {k : Kernel Queues} {m : P.Mem}
    {hist : History} (htop : c.top = f :: rest)
    (hsema : SemaInv (.inLock plock) ({ c with kernel := k, mem := m, history := hist }.setStack
      (f' :: rest)))
    (hrun : k.running = c.kernel.running)
    (hacq : ∀ t, hist.acquired t plock = c.history.acquired t plock)
    (hdowns : hist.downs = c.history.downs) (hholder : k.holder plock = c.kernel.holder plock)
    (hnr : k.holderRepeatNr plock = c.kernel.holderRepeatNr plock)
    (hold : ∀ h : Nat, claim plock h (f :: rest) = settledClaim h)
    (hnew : ∀ h : Nat, claim plock h (f' :: rest) = settledClaim h)
    (hok : ∀ h : Nat, StackOk plock h (f :: rest) → StackOk plock h (f' :: rest))
    (hf : ∀ l, f' ≠ .prog l) :
    LockInv plock ({ c with kernel := k, mem := m, history := hist }.setStack (f' :: rest)) := by
  apply h.off hsema
  · show Function.update c.stack k.running _ = _
    rw [hrun]
  · exact hacq
  · exact congrFun hdowns _
  · exact hholder
  · exact hnr
  · exact noHandler_cons (h.top_chain htop).tail hf
  · exact hok _ (h.top_ok htop)
  · rw [claim_top htop, hold, hnew]

/-- A frame that is not on this lock returns to the program. -/
theorem off_return (h : LockInv plock c) {k : Kernel Queues} {m : P.Mem} {hist : History}
    (htop : c.top = f :: rest)
    (hsema : SemaInv (.inLock plock)
      ({ c with kernel := k, mem := m, history := hist }.setStack rest))
    (hrun : k.running = c.kernel.running)
    (hacq : ∀ t, hist.acquired t plock = c.history.acquired t plock)
    (hdowns : hist.downs (.inLock plock) = c.history.downs (.inLock plock))
    (hholder : k.holder plock = c.kernel.holder plock)
    (hnr : k.holderRepeatNr plock = c.kernel.holderRepeatNr plock)
    (hold : ∀ h : Nat, claim plock h (f :: rest) = settledClaim h) (hprog : ProgTop rest) :
    LockInv plock ({ c with kernel := k, mem := m, history := hist }.setStack rest) := by
  apply h.off hsema
  · show Function.update c.stack k.running _ = _
    rw [hrun]
  · exact hacq
  · exact hdowns
  · exact hholder
  · exact hnr
  · exact (h.top_chain htop).tail
  · exact hprog.stackOk
  · rw [claim_top htop, hold, hprog.claim_eq]

theorem acquired_other {l : Nat} (hl : l ≠ plock) (acquired : Tid → Nat → Nat) (t u : Tid)
    (n : Nat) : update₂ acquired t l n u plock = acquired u plock := by
  rw [update₂_apply, if_neg fun hn => hl hn.2.symm]

theorem lockAcquire_other (h : LockInv plock c) {l : Nat} (hl : l ≠ plock) {pc : AcquirePc}
    (htop : c.top = .lockAcquire l pc :: rest) (hprog : ProgTop rest)
    (he : OsKernel.lockAcquire l pc rest c = .ok c') (hsema : SemaInv (.inLock plock) c') :
    LockInv plock c' := by
  have hclaim : ∀ pc' : AcquirePc, ∀ n : Nat,
      claim plock n (.lockAcquire l pc' :: rest) = settledClaim n := fun _ _ => if_neg hl
  have hok : ∀ pc' : AcquirePc, ∀ n : Nat, StackOk plock n (.lockAcquire l pc' :: rest) :=
    fun _ _ heq => absurd heq hl
  cases pc with
  | test =>
    unfold OsKernel.lockAcquire at he
    dsimp only at he
    split at he
    · cases he
      apply h.off hsema rfl (fun _ => rfl) rfl rfl rfl
      · exact noHandler_cons (noHandler_cons (h.top_chain htop).tail nofun) nofun
      · intro heq
        cases heq
        exact absurd rfl hl
      · rw [claim_top htop, hclaim]
        rfl
    · cases he
      exact h.off_cons htop hsema rfl (fun _ => rfl) rfl rfl rfl (hclaim _) (hclaim _)
        (fun n _ => hok _ n) nofun
  | setHolder =>
    cases he
    exact h.off_cons htop hsema rfl (fun _ => rfl) rfl (Function.update_of_ne hl.symm _ _) rfl
      (hclaim _) (hclaim _) (fun n _ => hok _ n) nofun
  | assertRepeatNr =>
    obtain ⟨-, -, he⟩ := bind_eq_ok.mp he
    cases he
    exact h.off_cons htop hsema rfl (fun _ => rfl) rfl rfl rfl (hclaim _) (hclaim _)
      (fun n _ => hok _ n) nofun
  | setRepeatNr =>
    cases he
    exact h.off_return htop hsema rfl (fun t => acquired_other hl _ _ t _) rfl rfl
      (Function.update_of_ne hl.symm _ _) (hclaim _) hprog
  | loadRepeatNr =>
    cases he
    exact h.off_cons htop hsema rfl (fun _ => rfl) rfl rfl rfl (hclaim _) (hclaim _)
      (fun n _ => hok _ n) nofun
  | storeRepeatNr nr =>
    cases he
    exact h.off_return htop hsema rfl (fun t => acquired_other hl _ _ t _) rfl rfl
      (Function.update_of_ne hl.symm _ _) (hclaim _) hprog

theorem lockRelease_other (h : LockInv plock c) {l : Nat} (hl : l ≠ plock) {pc : ReleasePc}
    (htop : c.top = .lockRelease l pc :: rest) (hprog : ProgTop rest)
    (he : OsKernel.lockRelease l pc rest c = .ok c') (hsema : SemaInv (.inLock plock) c') :
    LockInv plock c' := by
  have hclaim : ∀ pc' : ReleasePc, ∀ n : Nat,
      claim plock n (.lockRelease l pc' :: rest) = settledClaim n := fun _ _ => if_neg hl
  have hok : ∀ pc' : ReleasePc, ∀ n : Nat, StackOk plock n (.lockRelease l pc' :: rest) :=
    fun _ _ heq => absurd heq hl
  cases pc with
  | assertHolder =>
    obtain ⟨-, -, he⟩ := bind_eq_ok.mp he
    cases he
    exact h.off_cons htop hsema rfl (fun t => acquired_other hl _ _ t _) rfl rfl rfl (hclaim _)
      (hclaim _) (fun n _ => hok _ n) nofun
  | test =>
    unfold OsKernel.lockRelease at he
    dsimp only at he
    split at he
    · cases he
      exact h.off_cons htop hsema rfl (fun _ => rfl) rfl rfl rfl (hclaim _) (hclaim _)
        (fun n _ => hok _ n) nofun
    · cases he
      exact h.off_cons htop hsema rfl (fun _ => rfl) rfl rfl rfl (hclaim _) (hclaim _)
        (fun n _ => hok _ n) nofun
  | loadRepeatNr =>
    cases he
    exact h.off_cons htop hsema rfl (fun _ => rfl) rfl rfl rfl (hclaim _) (hclaim _)
      (fun n _ => hok _ n) nofun
  | storeRepeatNr nr =>
    cases he
    exact h.off_return htop hsema rfl (fun _ => rfl) rfl rfl (Function.update_of_ne hl.symm _ _)
      (hclaim _) hprog
  | assertRepeatNr =>
    obtain ⟨-, -, he⟩ := bind_eq_ok.mp he
    cases he
    exact h.off_cons htop hsema rfl (fun _ => rfl) rfl rfl rfl (hclaim _) (hclaim _)
      (fun n _ => hok _ n) nofun
  | clearHolder =>
    cases he
    exact h.off_cons htop hsema rfl (fun _ => rfl) rfl (Function.update_of_ne hl.symm _ _) rfl
      (hclaim _) (hclaim _) (fun n _ => hok _ n) nofun
  | clearRepeatNr =>
    cases he
    have hup : ∀ n : Nat, claim plock n (.semaUp (.inLock l) :: rest) = settledClaim n :=
      fun n => if_neg fun heq => hl (by cases heq; rfl)
    exact h.off_cons htop hsema rfl (fun _ => rfl) rfl rfl (Function.update_of_ne hl.symm _ _)
      (hclaim _) hup (fun n _ heq => absurd (by cases heq; rfl) hl) nofun

/-- A statement of the program: it stands on no lock before and after. -/
theorem execProg (h : LockInv plock c) {l : P.Loc} (htop : c.top = .prog l :: rest)
    (hcalls : (Frame.prog l :: rest).IsChain Calls) {act : Action P.Mem P.Loc}
    (he : OsKernel.execProg act rest c = .ok c') (hsema : SemaInv (.inLock plock) c') :
    LockInv plock c' := by
  have hchain := h.top_chain htop
  have hprog : ProgTop rest := by
    intro g hg
    cases rest with
    | nil => cases hg
    | cons g' rest =>
      cases hg
      rcases (List.isChain_cons_cons.mp hcalls).1 with hl | ⟨e, he⟩
      · exact hl
      · exact absurd rfl ((List.isChain_cons_cons.mp hchain).1 e he l)
  have hnext : ∀ l', (Frame.prog l' :: rest).IsChain NoHandler := by
    intro l'
    cases rest with
    | nil => exact .singleton _
    | cons g rest =>
      obtain ⟨l'', rfl⟩ := hprog g rfl
      exact List.isChain_cons_cons.mpr ⟨nofun, hchain.tail⟩
  cases act with
  | goto m l' =>
    cases he
    exact h.off hsema rfl (fun _ => rfl) rfl rfl rfl (hnext l') trivial (by rw [claim_top htop]; rfl)
  | setIntr status l' =>
    cases he
    exact h.off hsema rfl (fun _ => rfl) rfl rfl rfl (hnext l') trivial (by rw [claim_top htop]; rfl)
  | call m call l' =>
    cases he
    apply h.off hsema rfl (fun _ => rfl) rfl rfl rfl
    · exact List.isChain_cons_cons.mpr ⟨nofun, hnext l'⟩
    · exact call.stackOk
    · rw [call.claim_eq, claim_top htop]
      rfl
  | enter m callee l' =>
    cases he
    exact h.off hsema rfl (fun _ => rfl) rfl rfl rfl
      (List.isChain_cons_cons.mpr ⟨nofun, hnext l'⟩) trivial (by rw [claim_top htop]; rfl)
  | ret m =>
    cases he
    exact h.off_return htop hsema rfl (fun _ => rfl) rfl rfl rfl (fun _ => rfl) hprog
  | panic p => cases he

/-- One turn of the loop in the lock's `sema_down`. -/
theorem semaDownTest_self (h : LockInv plock c) (hsched : SchedInv c) {o : IntrStatus}
    (htop : c.top = .semaDown (.inLock plock) o :: rest)
    (he : OsKernel.semaDownTest (.inLock plock) o rest c = .ok c')
    (hsema : SemaInv (.inLock plock) c') : LockInv plock c' := by
  obtain ⟨hzero, hhead⟩ := h.top_ok htop rfl
  have hclaim : c.claim plock c.kernel.running = none := by
    rw [claim_top htop]
    exact settledClaim_none.mpr hzero
  have hchain := h.top_chain htop
  by_cases hv : c.kernel.value (.inLock plock) = 0
  · -- the thread sleeps without a claim, as before
    rcases semaDownTest_zero (.inLock plock) o rest hsched hv with ⟨-, herr⟩ | ⟨k, hk, -, hd⟩
    · rw [herr] at he
      cases he
    · rw [hk] at he
      cases he
      apply h.off hsema rfl (fun _ => rfl) rfl
      · exact congrFun hd.sync.holder plock
      · exact congrFun hd.sync.holderRepeatNr plock
      · exact noHandler_cons hchain nofun
      · exact fun _ => ⟨hzero, hhead⟩
      · rw [hclaim]
        exact settledClaim_none.mpr hzero
  · rw [semaDownTest_pos (.inLock plock) o rest hv] at he
    split at he
    · cases he
      -- the permit was free, so nobody had a claim and the fields are reset
      obtain ⟨hholder, hnr⟩ := h.free (h.no_claim_of_value hv)
      have hnew : (c.lowered (.inLock plock) o rest).claim plock c.kernel.running =
          some (false, 0) := by
        show claim plock _ (Function.update c.stack c.kernel.running rest c.kernel.running) = _
        rw [Function.update_self]
        cases rest with
        | nil => cases hhead
        | cons g rest =>
          cases hhead
          exact if_pos rfl
      have hother : ∀ t, t ≠ c.kernel.running →
          (c.lowered (.inLock plock) o rest).stack t = c.stack t :=
        fun t ht => Function.update_of_ne ht _ _
      apply h.next hsema
      · intro t ht
        obtain ⟨h₁, h₂⟩ := h.others hother (fun _ _ => rfl) t ht
        refine ⟨h₁, h₂, ?_⟩
        show update₂ c.history.downs (.inLock plock) c.kernel.running _ (.inLock plock) t = _
        rw [update₂_apply, if_neg fun hn => ht hn.2]
      · apply h.chains hother
        show (Function.update c.stack c.kernel.running rest c.kernel.running).IsChain NoHandler
        rw [Function.update_self]
        exact hchain.tail
      · show StackOk plock _ (Function.update c.stack c.kernel.running rest c.kernel.running)
        rw [Function.update_self]
        cases rest with
        | nil => cases hhead
        | cons g rest =>
          cases hhead
          exact fun _ => hzero
      · rw [hnew]
        show update₂ c.history.downs (.inLock plock) c.kernel.running _ (.inLock plock)
          c.kernel.running = 1
        rw [update₂_apply, if_pos ⟨rfl, rfl⟩, h.owner, hclaim]
        rfl
      · intro b n hc
        rw [hnew] at hc
        cases hc
        exact ⟨hholder, congrArg UInt32.toNat hnr⟩
      · intro hc
        rw [hnew] at hc
        cases hc
    · cases he

/-- One turn of the loop in `sema_down` on another semaphore. -/
theorem semaDownTest_other (h : LockInv plock c) (hsched : SchedInv c) {s : SemaRef}
    (hs : s ≠ .inLock plock) {o : IntrStatus} (htop : c.top = .semaDown s o :: rest)
    (he : OsKernel.semaDownTest s o rest c = .ok c') (hsema : SemaInv (.inLock plock) c') :
    LockInv plock c' := by
  have hchain := h.top_chain htop
  have hcalls : (Frame.semaDown s o :: rest).IsChain Calls := htop ▸ hsched.calls c.kernel.running
  by_cases hv : c.kernel.value s = 0
  · rcases semaDownTest_zero s o rest hsched hv with ⟨-, herr⟩ | ⟨k, hk, -, hd⟩
    · rw [herr] at he
      cases he
    · rw [hk] at he
      cases he
      apply h.off hsema rfl (fun _ => rfl) rfl
      · exact congrFun hd.sync.holder plock
      · exact congrFun hd.sync.holderRepeatNr plock
      · exact noHandler_cons hchain nofun
      · exact fun heq => absurd heq hs
      · rw [claim_top htop]
        rfl
  · rw [semaDownTest_pos s o rest hv] at he
    split at he
    · cases he
      have hrest : (∀ n : Nat, claim plock n rest = settledClaim n) ∧
          StackOk plock (c.history.acquired c.kernel.running plock) rest := by
        cases rest with
        | nil => exact ⟨fun _ => rfl, trivial⟩
        | cons g rest =>
          have hcall := (List.isChain_cons_cons.mp hcalls).1
          cases s with
          | inLock l =>
            have hg : g = .lockAcquire l .setHolder := hcall
            subst hg
            have hl : l ≠ plock := fun heq => hs (by rw [heq])
            exact ⟨fun _ => if_neg hl, fun heq => absurd heq hl⟩
          | bare l =>
            obtain ⟨l', rfl⟩ := hcall
            exact ⟨fun _ => rfl, trivial⟩
      apply h.off hsema rfl (fun _ => rfl)
      · exact update₂_of_ne _ hs.symm _ _
      · rfl
      · rfl
      · exact hchain.tail
      · exact hrest.2
      · rw [hrest.1, claim_top htop]
        rfl
    · cases he

/-- The lock's `sema_up`: the claim ends, with the fields reset. -/
theorem semaUp_self (h : LockInv plock c) (hsched : SchedInv c) (hprog : ProgTop rest)
    (htop : c.top = .semaUp (.inLock plock) :: rest)
    (he : OsKernel.semaUp (.inLock plock) rest c = .ok c')
    (hsema : SemaInv (.inLock plock) c') : LockInv plock c' := by
  have hzero : c.history.acquired c.kernel.running plock = 0 := h.top_ok htop rfl
  have hclaim : c.claim plock c.kernel.running = some (false, 0) := by
    rw [claim_top htop]
    exact if_pos rfl
  have hfields := h.held _ _ _ hclaim
  have hv := h.value_of_claim hclaim
  have hnr : c.kernel.holderRepeatNr plock = 0 := UInt32.toNat_inj.mp hfields.2
  -- both outcomes share everything but who was woken
  have key : ∀ c₁ : Config Queues P, SemaInv (.inLock plock) c₁ →
      c₁.stack = Function.update c.stack c.kernel.running rest →
      c₁.history.acquired = c.history.acquired →
      c₁.history.downs = update₂ c.history.downs (.inLock plock) c.kernel.running
        (c.history.downs (.inLock plock) c.kernel.running - 1) →
      c₁.kernel.holder = c.kernel.holder →
      c₁.kernel.holderRepeatNr = c.kernel.holderRepeatNr → LockInv plock c₁ := by
    intro c₁ hsema₁ hstack hacq hdowns hholder hnr₁
    have hother : ∀ t, t ≠ c.kernel.running → c₁.stack t = c.stack t := by
      intro t ht
      rw [hstack, Function.update_of_ne ht]
    have hself : c₁.stack c.kernel.running = rest := by
      rw [hstack, Function.update_self]
    have hnone : c₁.claim plock c.kernel.running = none := by
      unfold Config.claim
      rw [hself, hacq, hprog.claim_eq]
      exact settledClaim_none.mpr hzero
    apply h.next hsema₁
    · intro t ht
      obtain ⟨h₁, h₂⟩ := h.others hother (fun _ _ => by rw [hacq]) t ht
      refine ⟨h₁, h₂, ?_⟩
      rw [hdowns, update₂_apply, if_neg fun hn => ht hn.2]
    · exact h.chains hother (hself.symm ▸ (h.top_chain htop).tail)
    · rw [hself]
      exact hprog.stackOk
    · rw [hdowns, update₂_apply, if_pos ⟨rfl, rfl⟩, h.owner, hclaim, hnone]
      rfl
    · intro b n hc
      rw [hnone] at hc
      cases hc
    · intro _
      refine Or.inr ⟨?_, ?_, ?_⟩
      · rw [hclaim]
        exact nofun
      · rw [hholder]
        exact hfields.1
      · rw [hnr₁]
        exact hnr
  rcases semaUp_zero (.inLock plock) rest hsched hv with ⟨-, hok⟩ | ⟨u, k, -, hok, hsync, -⟩
  · rw [hok] at he
    cases he
    exact key _ hsema rfl rfl rfl rfl rfl
  · rw [hok] at he
    cases he
    exact key _ hsema rfl rfl rfl hsync.holder hsync.holderRepeatNr

/-- `sema_up` on another semaphore. -/
theorem semaUp_other (h : LockInv plock c) (hsched : SchedInv c) {s : SemaRef}
    (hs : s ≠ .inLock plock) (hprog : ProgTop rest) (htop : c.top = .semaUp s :: rest)
    (he : OsKernel.semaUp s rest c = .ok c') (hsema : SemaInv (.inLock plock) c') :
    LockInv plock c' := by
  have hold : c.claim plock c.kernel.running =
      settledClaim (c.history.acquired c.kernel.running plock) := by
    rw [claim_top htop]
    exact if_neg hs
  by_cases hv : c.kernel.value s = 0
  · rcases semaUp_zero s rest hsched hv with ⟨-, hok⟩ | ⟨u, k, -, hok, hsync, -⟩
    · rw [hok] at he
      cases he
      exact h.off hsema rfl (fun _ => rfl) (update₂_of_ne _ hs.symm _ _) rfl rfl
        (h.top_chain htop).tail hprog.stackOk (by rw [hprog.claim_eq, hold])
    · rw [hok] at he
      cases he
      exact h.off hsema rfl (fun _ => rfl) (update₂_of_ne _ hs.symm _ _)
        (congrFun hsync.holder plock) (congrFun hsync.holderRepeatNr plock)
        (h.top_chain htop).tail hprog.stackOk (by rw [hprog.claim_eq, hold])
  · rw [semaUp_pos s rest hv] at he
    cases he

/-! ### One event -/

/-- A switch after which the running thread stands on no lock, as before. -/
theorem switch (h : LockInv plock c) {k : Kernel Queues} {st : List (Frame P.Loc)}
    (hsema : SemaInv (.inLock plock)
      { c with kernel := k, stack := Function.update c.stack c.kernel.running st })
    (hholder : k.holder = c.kernel.holder) (hnr : k.holderRepeatNr = c.kernel.holderRepeatNr)
    (hchain : st.IsChain NoHandler)
    (hok : StackOk plock (c.history.acquired c.kernel.running plock) st)
    (hclaim : OsKernel.claim plock (c.history.acquired c.kernel.running plock) st =
      c.claim plock c.kernel.running) :
    LockInv plock { c with kernel := k, stack := Function.update c.stack c.kernel.running st } :=
  h.off hsema rfl (fun _ => rfl) rfl (congrFun hholder plock) (congrFun hnr plock) hchain hok hclaim

/-- `thread_block` called by the program. -/
theorem threadBlockCall (h : LockInv plock c) (hsched : SchedInv c) {stat : TaskStatus}
    {k : Kernel Queues} (htop : c.top = .threadBlockCall stat :: rest) (hprog : ProgTop rest)
    (hk : OsKernel.threadBlock stat c.kernel = .ok k)
    (hsema : SemaInv (.inLock plock) { c with
      kernel := k
      stack := Function.update c.stack c.kernel.running (.threadBlock c.kernel.intr :: rest) }) :
    LockInv plock { c with
      kernel := k
      stack := Function.update c.stack c.kernel.running (.threadBlock c.kernel.intr :: rest) } := by
  have hsync := (hsched.threadBlock_returned hk).sync
  exact h.switch hsema hsync.holder hsync.holderRepeatNr (noHandler_cons (h.top_chain htop).tail nofun)
    hprog.stackOk (by rw [claim_top htop]; rfl)

/-- `thread_start` called by the program: the new thread stands on no lock. -/
theorem threadStart (h : LockInv plock c) (hsched : SchedInv c) {u : Tid} {prio : UInt8}
    {fn : P.Loc} {k : Kernel Queues} (htop : c.top = .threadStart u prio fn :: rest)
    (hprog : ProgTop rest) (hnew : c.history.created u = false)
    (hk : OsKernel.threadStart u prio c.kernel = .ok k)
    (hsema : SemaInv (.inLock plock) { c with
      kernel := k
      stack := Function.update (Function.update c.stack c.kernel.running rest) u
        [.kernelThread, .prog fn]
      history := { c.history with created := Function.update c.history.created u true } }) :
    LockInv plock { c with
      kernel := k
      stack := Function.update (Function.update c.stack c.kernel.running rest) u
        [.kernelThread, .prog fn]
      history := { c.history with created := Function.update c.history.created u true } } := by
  have hne := hsched.running_ne hnew
  obtain ⟨hsync, -⟩ := hsched.threadStart_returned hnew hk
  -- the new thread's empty stack is replaced by one that is on no lock either
  have hempty := hsched.fresh u hnew
  let stack : Tid → List (Frame P.Loc) :=
    Function.update (Function.update c.stack c.kernel.running rest) u [.kernelThread, .prog fn]
  have hself : stack c.kernel.running = rest := by
    show Function.update _ u _ _ = _
    rw [Function.update_of_ne hne, Function.update_self]
  have hstack : ∀ t, t ≠ c.kernel.running →
      stack t = c.stack t ∨ (c.stack t = [] ∧ stack t = [.kernelThread, .prog fn]) := by
    intro t ht
    by_cases hth : t = u
    · subst hth
      exact Or.inr ⟨hempty, Function.update_self ..⟩
    · left
      show Function.update _ u _ _ = _
      rw [Function.update_of_ne hth, Function.update_of_ne ht]
  apply h.same hsema
  · intro t ht
    show claim plock (c.history.acquired t plock) (stack t) =
      claim plock (c.history.acquired t plock) (c.stack t) ∧
        StackOk plock (c.history.acquired t plock) (stack t)
    rcases hstack t ht with heq | ⟨hold, hnew⟩
    · rw [heq]
      exact ⟨rfl, h.ok t⟩
    · rw [hold, hnew]
      exact ⟨rfl, trivial⟩
  · intro t
    show (stack t).IsChain NoHandler
    by_cases ht : t = c.kernel.running
    · rw [ht, hself]
      exact (h.top_chain htop).tail
    · rcases hstack t ht with heq | ⟨-, hnew⟩
      · rw [heq]
        exact h.noHandler t
      · rw [hnew]
        exact noHandler_cons (.singleton _) nofun
  · show StackOk plock _ (stack c.kernel.running)
    rw [hself]
    exact hprog.stackOk
  · rfl
  · show claim plock _ (stack c.kernel.running) = _
    rw [hself, hprog.claim_eq, claim_top htop]
    rfl
  · exact congrFun hsync.holder plock
  · exact congrFun hsync.holderRepeatNr plock

/-- A statement of the running thread. -/
theorem exec (h : LockInv plock c) (hsched : SchedInv c) {input : P.Input}
    (htop : c.top = f :: rest) (hg : FrameGuard c f) (hlock : LockOk c (.exec input))
    (he : OsKernel.exec input f rest c = .ok c') (hsema : SemaInv (.inLock plock) c') :
    LockInv plock c' := by
  have hcalls : (f :: rest).IsChain Calls := htop ▸ hsched.calls c.kernel.running
  have hchain := h.top_chain htop
  cases f with
  | prog l => exact h.execProg htop hcalls he hsema
  | kernelThread =>
    have hprog : ProgTop rest := progTop_of_calls hcalls fun _ hg => hg
    cases he
    exact h.off_return htop hsema rfl (fun _ => rfl) rfl rfl rfl (fun _ => rfl) hprog
  | intrExit eflags =>
    cases he
    exact h.off hsema rfl (fun _ => rfl) rfl rfl rfl hchain.tail (h.top_ok htop)
      (by rw [claim_top htop]; rfl)
  | threadBlockCall stat =>
    have hprog : ProgTop rest := progTop_of_calls hcalls fun _ hg => hg
    obtain ⟨k, hk, he⟩ := bind_eq_ok.mp he
    cases he
    exact h.threadBlockCall hsched htop hprog hk hsema
  | threadBlock oldStatus =>
    cases he
    apply h.off hsema rfl (fun _ => rfl) rfl rfl rfl hchain.tail (h.top_ok htop)
    -- `thread_block` returns to the program or to `sema_down`
    rw [claim_top htop]
    cases rest with
    | nil => rfl
    | cons g rest =>
      rcases (List.isChain_cons_cons.mp hcalls).1 with ⟨l, rfl⟩ | ⟨s, o, rfl, -⟩
      · rfl
      · rfl
  | threadUnblock pthread =>
    have hprog : ProgTop rest := progTop_of_calls hcalls fun _ hg => hg
    obtain ⟨k, hk, he⟩ := bind_eq_ok.mp he
    cases he
    obtain ⟨hsync, hrun, -⟩ := hsched.threadUnblock_returned hg hk
    exact h.off_return htop hsema hrun (fun _ => rfl) rfl (congrFun hsync.holder plock)
      (congrFun hsync.holderRepeatNr plock) (fun _ => rfl) hprog
  | threadStart thread prio function =>
    have hprog : ProgTop rest := progTop_of_calls hcalls fun _ hg => hg
    obtain ⟨k, hk, he⟩ := bind_eq_ok.mp he
    cases he
    exact h.threadStart hsched htop hprog hg.1 hk hsema
  | semaDownCall psema =>
    cases he
    exact h.off_cons htop hsema rfl (fun _ => rfl) rfl rfl rfl (fun _ => rfl) (fun _ => rfl)
      (fun _ hok => hok) nofun
  | semaDown psema oldStatus =>
    by_cases hs : psema = .inLock plock
    · subst hs
      exact h.semaDownTest_self hsched htop he hsema
    · exact h.semaDownTest_other hsched hs htop he hsema
  | semaUp psema =>
    have hprog : ProgTop rest := progTop_of_calls hcalls fun _ hg => hg
    by_cases hs : psema = .inLock plock
    · subst hs
      exact h.semaUp_self hsched hprog htop he hsema
    · exact h.semaUp_other hsched hs hprog htop he hsema
  | lockAcquire l pc =>
    have hprog : ProgTop rest := progTop_of_calls hcalls fun _ hg => hg
    by_cases hl : l = plock
    · subst hl
      exact h.lockAcquire_self htop (fun hpc => hlock.2 l rest (hpc ▸ htop)) hprog he hsema
    · exact h.lockAcquire_other hl htop hprog he hsema
  | lockRelease l pc =>
    have hprog : ProgTop rest := progTop_of_calls hcalls fun _ hg => hg
    by_cases hl : l = plock
    · subst hl
      exact h.lockRelease_self htop (fun hpc => hlock.1 l rest (hpc ▸ htop)) hprog he hsema
    · exact h.lockRelease_other hl htop hprog he hsema

/-- The thread in the lock's `sema_up` has the permit. -/
theorem upOk (h : LockInv plock c) (e : Event P) : UpOk (.inLock plock) c e := by
  cases e with
  | exec input =>
    intro rest htop
    rw [h.owner, claim_top htop, show OsKernel.claim plock _ (Frame.semaUp (.inLock plock) :: rest) =
      some (false, 0) from if_pos rfl]
    exact Nat.one_pos
  | timer => trivial
  | device input => trivial

/-- **One event keeps the lock's invariant.** -/
theorem step (h : LockInv plock c) (hsched : SchedInv c) {e : Event P} (hg : SchedGuard c e)
    (hlock : LockOk c e) (hs : machineStep e c = some (.ok c')) : LockInv plock c' := by
  have hsema := h.sema.step hsched hg (h.upOk e) hs
  cases e with
  | exec input =>
    unfold machineStep at hs
    cases htop : c.top with
    | nil => rw [htop] at hs; cases hs
    | cons f rest =>
      rw [htop] at hs
      exact h.exec hsched htop (hg f (by rw [htop]; rfl)) hlock (Option.some.inj hs) hsema
  | timer =>
    unfold machineStep at hs
    dsimp only at hs
    split at hs
    · next hon =>
      obtain ⟨k, hk, hd, -⟩ := hsched.timer hon
      have he : timerInterrupt c = .ok c' := Option.some.inj hs
      unfold timerInterrupt at he
      rw [hk, ok_bind] at he
      cases he
      exact h.switch hsema hd.sync.holder hd.sync.holderRepeatNr
        (noHandler_cons (h.noHandler c.kernel.running) nofun) (h.ok c.kernel.running) rfl
    · cases hs
  | device input => exact absurd hlock id

/-- `thread_init` with the lock free. -/
theorem boot (hb : Booted c) (hv : c.kernel.value (.inLock plock) = 1)
    (hholder : c.kernel.holder plock = none) (hnr : c.kernel.holderRepeatNr plock = 0) :
    LockInv plock c := by
  obtain ⟨l, hstack⟩ := hb.stack
  have hprog : ∀ t, c.stack t = [] ∨ c.stack t = [.prog l] := by
    intro t
    rw [hstack, Function.update_apply]
    split
    · exact Or.inr rfl
    · exact Or.inl rfl
  have hclaim : ∀ t, c.claim plock t = none := by
    intro t
    unfold Config.claim
    rw [hb.acquired]
    rcases hprog t with heq | heq
    · rw [heq]; rfl
    · rw [heq]; rfl
  refine ⟨SemaInv.boot hb hv, ?_, ?_, ?_, fun _ => ⟨hholder, hnr⟩, ?_⟩
  · intro t
    rcases hprog t with heq | heq
    · rw [heq]; exact .nil
    · rw [heq]; exact .singleton _
  · intro t
    rcases hprog t with heq | heq
    · rw [heq]; trivial
    · rw [heq]; trivial
  · intro t
    rw [hclaim, hb.downs]
    rfl
  · intro t b n hc
    rw [hclaim] at hc
    cases hc

/-- **Every reachable state satisfies the lock's invariant.** -/
theorem reach {init : Config Queues P → Prop} (hinit : ∀ c, init c → SchedInv c ∧ LockInv plock c)
    {guard : Config Queues P → Event P → Prop}
    (hguard : ∀ c e, guard c e → SchedGuard c e ∧ LockOk c e) :
    ∀ c, (machine init).Reach guard c → SchedInv c ∧ LockInv plock c :=
  System.Reach.invariant hinit fun c e _ _ hinv hg hs =>
    ⟨hinv.1.step (hguard c e hg).1 hs, hinv.2.step hinv.1 (hguard c e hg).1 (hguard c e hg).2 hs⟩

/-! ### The assertions -/

/-- **No assertion in the lock functions fails.** A statement of a call on the lock stops the
machine only in `schedule`, with nobody left to run. -/
theorem onLock_error (h : LockInv plock c) (hsched : SchedInv c) {input : P.Input} {p : Panic}
    (htop : c.top = f :: rest) (hf : f.onLock plock = true) (hlock : LockOk c (.exec input))
    (he : OsKernel.exec input f rest c = .error p) : p = .scheduleReadyEmpty := by
  have hassert : ∀ {b : Bool} {p' : Panic}, b = true → assert b p' ≠ .error p := by
    rintro b p' rfl herr
    cases herr
  cases f with
  | lockAcquire l pc =>
    have hl : l = plock := of_decide_eq_true hf
    subst hl
    have hclaim := (claim_top htop).trans (if_pos rfl)
    cases pc with
    | test =>
      unfold OsKernel.exec OsKernel.lockAcquire at he
      dsimp only at he
      split at he <;> cases he
    | assertRepeatNr =>
      have hnr : c.kernel.holderRepeatNr l = 0 := UInt32.toNat_inj.mp (h.held _ _ _ hclaim).2
      rcases bind_eq_error.mp he with he | ⟨_, -, he⟩
      · exact absurd he (hassert (decide_eq_true hnr))
      · cases he
    | setHolder => cases he
    | setRepeatNr => cases he
    | loadRepeatNr => cases he
    | storeRepeatNr nr => cases he
  | lockRelease l pc =>
    have hl : l = plock := of_decide_eq_true hf
    subst hl
    have hclaim := (claim_top htop).trans (if_pos rfl)
    cases pc with
    | test =>
      unfold OsKernel.exec OsKernel.lockRelease at he
      dsimp only at he
      split at he <;> cases he
    | assertHolder =>
      have hsome := hclaim.trans (settledClaim_pos (hlock.1 l rest htop))
      rcases bind_eq_error.mp he with he | ⟨_, -, he⟩
      · exact absurd he (hassert (decide_eq_true (h.held _ _ _ hsome).1))
      · cases he
    | assertRepeatNr =>
      have hzero : c.history.acquired c.kernel.running l = 0 := h.top_ok htop rfl
      have hnr : c.kernel.holderRepeatNr l = 1 := by
        have hn := (h.held _ _ _ hclaim).2
        rw [hzero] at hn
        exact UInt32.toNat_inj.mp hn
      rcases bind_eq_error.mp he with he | ⟨_, -, he⟩
      · exact absurd he (hassert (decide_eq_true hnr))
      · cases he
    | loadRepeatNr => cases he
    | storeRepeatNr nr => cases he
    | clearHolder => cases he
    | clearRepeatNr => cases he
  | semaDown s o =>
    have hs : s = .inLock plock := of_decide_eq_true hf
    subst hs
    change semaDownTest (.inLock plock) o rest c = .error p at he
    by_cases hv : c.kernel.value (.inLock plock) = 0
    · rcases semaDownTest_zero (.inLock plock) o rest hsched hv with ⟨-, herr⟩ | ⟨k, hk, -⟩
      · rw [herr] at he
        cases he
        rfl
      · rw [hk] at he
        cases he
    · rw [semaDownTest_pos (.inLock plock) o rest hv] at he
      have hone : c.kernel.value (.inLock plock) = 1 := by
        rcases h.sema.permit with ⟨hone, -⟩ | ⟨hzero, -⟩
        · exact hone
        · exact absurd hzero hv
      rw [if_pos hone] at he
      cases he
  | semaUp s =>
    have hs : s = .inLock plock := of_decide_eq_true hf
    subst hs
    change semaUp (.inLock plock) rest c = .error p at he
    have hv := h.value_of_claim ((claim_top htop).trans (if_pos rfl))
    rcases semaUp_zero (.inLock plock) rest hsched hv with ⟨-, hok⟩ | ⟨u, k, -, hok, -⟩
    · rw [hok] at he
      cases he
    · rw [hok] at he
      cases he
  | semaDownCall s => cases he
  | prog l => cases hf
  | kernelThread => cases hf
  | intrExit eflags => cases hf
  | threadBlockCall stat => cases hf
  | threadBlock oldStatus => cases hf
  | threadUnblock pthread => cases hf
  | threadStart thread prio function => cases hf

end LockInv

/-! ## On list.c's pointers -/

/-- All locks are free. -/
def LocksFree {H : Type} (c : Config H P) : Prop :=
  ∀ plock, c.kernel.value (.inLock plock) = 1 ∧ c.kernel.holder plock = none ∧
    c.kernel.holderRepeatNr plock = 0

/-- The assertions of sync.c. -/
def Panic.inSync : Panic → Bool
  | .semaDownNotWaiting | .semaDownValue | .semaUpZero | .semaUpOne | .lockAcquireRepeatNr
  | .lockReleaseHolder | .lockReleaseRepeatNr => true
  | _ => false

/-- **Lock safety.** In every state reached from `thread_init` with free locks, for each lock: at
most one thread has unmatched acquires; while it is not inside a call on the lock, `holder` names
it, `holder_repeat_nr` counts them and the semaphore's value is 0; and the next statement of a call
on the lock fails none of the assertions of sync.c. -/
theorem lock_safety {c : Config (LinkHeap ElemAddr) P}
    (hc : (machine fun c => Booted c ∧ LocksFree c).Reach
      (fun c e => SchedGuard c e ∧ LockOk c e) c) (plock : Nat) :
    (∀ t u, 0 < c.history.acquired t plock → 0 < c.history.acquired u plock → t = u) ∧
    (∀ t, 0 < c.history.acquired t plock → (∀ f ∈ c.stack t, f.onLock plock = false) →
      c.kernel.holder plock = some t ∧
      (c.kernel.holderRepeatNr plock).toNat = c.history.acquired t plock ∧
      c.kernel.value (.inLock plock) = 0) ∧
    (∀ input f p, c.top.head? = some f → f.onLock plock = true → LockOk c (.exec input) →
      machineStep (.exec input) c = some (.error p) → p.inSync = false) := by
  let guard : Config Queues P → Event P → Prop := fun a e => SchedGuard a e ∧ LockOk a e
  have hinit : ∀ c : Config (LinkHeap ElemAddr) P, Booted c ∧ LocksFree c →
      ∃ a : Config Queues P, (Booted a ∧ LocksFree a) ∧ ConfigRel c a := by
    rintro c ⟨hb, hfree⟩
    obtain ⟨a, ha, hrel⟩ := booted_agree hb
    obtain ⟨h, rfl, -⟩ := id hrel
    exact ⟨a, ⟨ha, hfree⟩, hrel⟩
  obtain ⟨a, hreach, hsched, hrel⟩ := heap_reach guard (fun a h e hg => hg)
    (fun a e hg => hg.1) hinit (fun a ha => SchedInv.boot ha.1) hc
  have hinv : LockInv plock a := (LockInv.reach
    (fun a ha => ⟨SchedInv.boot ha.1,
      LockInv.boot ha.1 (ha.2 plock).1 (ha.2 plock).2.1 (ha.2 plock).2.2⟩)
    (fun _ _ hg => hg) a hreach).2
  obtain ⟨h, rfl, hr⟩ := id hrel
  have hclaim : ∀ t, 0 < a.history.acquired t plock → ∃ x, a.claim plock t = some x := by
    intro t ht
    cases hcl : a.claim plock t with
    | none =>
      have := claim_none hcl
      omega
    | some x => exact ⟨x, rfl⟩
  refine ⟨?_, ?_, ?_⟩
  · intro t u ht hu
    obtain ⟨x, hx⟩ := hclaim t ht
    obtain ⟨y, hy⟩ := hclaim u hu
    exact hinv.unique hx hy
  · intro t ht hout
    have hsome : a.claim plock t = some (true, a.history.acquired t plock) :=
      (claim_outside hout).trans (settledClaim_pos ht)
    exact ⟨(hinv.held _ _ _ hsome).1, (hinv.held _ _ _ hsome).2, hinv.value_of_claim hsome⟩
  · intro input f p hf hon hlock hs
    have hfa : a.top.head? = some f := hf
    cases htop : a.top with
    | nil =>
      rw [htop] at hfa
      cases hfa
    | cons g rest =>
      rw [htop] at hfa
      cases hfa
      -- the frame is one of sync.c, so `thread_start` and `thread_unblock` promise nothing here
      have hg : SchedGuard a (.exec input) := by
        intro g hg
        rw [htop] at hg
        cases hg
        cases f with
        | threadUnblock pthread => cases hon
        | threadStart thread prio function => cases hon
        | _ => trivial
      have herr := heap_fault hrel hsched hg hs
      unfold machineStep at herr
      rw [htop] at herr
      rw [hinv.onLock_error hsched htop hon hlock (Option.some.inj herr)]
      rfl

/-- The main thread sleeps on a semaphore with the lock acquired twice while thread 2 asks for it. -/
theorem lock_safety_nested :
    ∃ c : Config (LinkHeap ElemAddr) (scripted [.threadStart 2 31 4, .lockAcquire 0,
        .lockAcquire 0, .semaDown 1, .lockAcquire 0]),
      c.kernel.running = 2 ∧ c.kernel.holder 0 = some 1 ∧ (c.kernel.holderRepeatNr 0).toNat = 2 := by
  have h : (machine fun c => Booted c ∧ LocksFree c).Reach
      (fun c e => SchedGuard c e ∧ LockOk c e) _ := .init ⟨bootConfig_booted
    (H := LinkHeap ElemAddr) (P := scripted [.threadStart 2 31 4, .lockAcquire 0,
        .lockAcquire 0, .semaDown 1, .lockAcquire 0])
    1 .off (fun s => if s = .bare 1 then 0 else 1) () (0 : Nat) rfl, fun _ => ⟨rfl, rfl, rfl⟩⟩
  have h := h.step (e := .exec ())
    (by exact ⟨by rintro f ⟨⟩; trivial, by rintro l r ⟨⟩, by rintro l r ⟨⟩⟩) rfl
  have h := h.step (e := .exec ())
    (by exact ⟨by rintro f ⟨⟩; exact ⟨rfl, rfl⟩, by rintro l r ⟨⟩, by rintro l r ⟨⟩⟩) rfl
  -- the main thread acquires the lock twice
  have h := h.step (e := .exec ())
    (by exact ⟨by rintro f ⟨⟩; trivial, by rintro l r ⟨⟩, by rintro l r ⟨⟩⟩) rfl
  have h := h.step (e := .exec ())
    (by exact ⟨by rintro f ⟨⟩; trivial, by rintro l r ⟨⟩, by rintro l r ⟨⟩; decide⟩) rfl
  have h := h.step (e := .exec ())
    (by exact ⟨by rintro f ⟨⟩; trivial, by rintro l r ⟨⟩, by rintro l r ⟨⟩⟩) rfl
  have h := h.step (e := .exec ())
    (by exact ⟨by rintro f ⟨⟩; trivial, by rintro l r ⟨⟩, by rintro l r ⟨⟩⟩) rfl
  have h := h.step (e := .exec ())
    (by exact ⟨by rintro f ⟨⟩; trivial, by rintro l r ⟨⟩, by rintro l r ⟨⟩⟩) rfl
  have h := h.step (e := .exec ())
    (by exact ⟨by rintro f ⟨⟩; trivial, by rintro l r ⟨⟩, by rintro l r ⟨⟩⟩) rfl
  have h := h.step (e := .exec ())
    (by exact ⟨by rintro f ⟨⟩; trivial, by rintro l r ⟨⟩, by rintro l r ⟨⟩⟩) rfl
  have h := h.step (e := .exec ())
    (by exact ⟨by rintro f ⟨⟩; trivial, by rintro l r ⟨⟩, by rintro l r ⟨⟩⟩) rfl
  have h := h.step (e := .exec ())
    (by exact ⟨by rintro f ⟨⟩; trivial, by rintro l r ⟨⟩, by rintro l r ⟨⟩; decide⟩) rfl
  have h := h.step (e := .exec ())
    (by exact ⟨by rintro f ⟨⟩; trivial, by rintro l r ⟨⟩, by rintro l r ⟨⟩⟩) rfl
  have h := h.step (e := .exec ())
    (by exact ⟨by rintro f ⟨⟩; trivial, by rintro l r ⟨⟩, by rintro l r ⟨⟩⟩) rfl
  -- it goes to sleep with the lock held, and thread 2 asks for it
  have h := h.step (e := .exec ())
    (by exact ⟨by rintro f ⟨⟩; trivial, by rintro l r ⟨⟩, by rintro l r ⟨⟩⟩) rfl
  have h := h.step (e := .exec ())
    (by exact ⟨by rintro f ⟨⟩; trivial, by rintro l r ⟨⟩, by rintro l r ⟨⟩⟩) rfl
  have h := h.step (e := .exec ())
    (by exact ⟨by rintro f ⟨⟩; trivial, by rintro l r ⟨⟩, by rintro l r ⟨⟩⟩) rfl
  have h := h.step (e := .exec ())
    (by exact ⟨by rintro f ⟨⟩; trivial, by rintro l r ⟨⟩, by rintro l r ⟨⟩⟩) rfl
  have h := h.step (e := .exec ())
    (by exact ⟨by rintro f ⟨⟩; trivial, by rintro l r ⟨⟩, by rintro l r ⟨⟩⟩) rfl
  have h := h.step (e := .exec ())
    (by exact ⟨by rintro f ⟨⟩; trivial, by rintro l r ⟨⟩, by rintro l r ⟨⟩; decide⟩) rfl
  have hheld := (lock_safety h 0).2.1 1 (by decide) (by decide)
  exact ⟨_, rfl, hheld.1, hheld.2.1⟩

end OsKernel
