import Mathlib

/-!
# A processor flag that calls give back

A flag of the processor (the interrupt flag, a rounding mode) that functions change and restore. Many
call stacks share it: the flag belongs to the processor, what a function has saved belongs to its
frame.

- `Activation`: a frame, with the flag at its call.
- `FlagRule`: what a control point asks of the flag, and what it knows about the flag at the call.
- `StackOk`: every caller gets the flag it asks for. `StackOk.goto`, `StackOk.call`, `StackOk.ret`
  are the rules of one stack.
- `FlagInv`: all stacks, one of which runs. `FlagInv.stay` and `FlagInv.switch` are the rules for a
  step of the running stack and for a change of stacks.
-/

namespace OsKernel.Lib

variable {F Pc Thread : Type}

/-- A frame: the flag at the call, and where the function stands. -/
structure Activation (F Pc : Type) where
  entry : F
  pc : Pc

/-- How the functions of a program treat the flag. -/
structure FlagRule (F Pc : Type) where
  /-- the flag at a control point of a function called with the given one; `none` if it can be any -/
  flagAt : F → Pc → Option F
  /-- what the locals of the function say about the flag at the call -/
  Knows : F → Pc → Prop
  /-- the function may return with another flag -/
  Free : Pc → Prop

namespace FlagRule

variable {R : FlagRule F Pc} {x : F} {a b : Activation F Pc} {rest : List (Activation F Pc)} {pc : Pc}

/-- The flag is as the frame asks. -/
def Fits (R : FlagRule F Pc) (x : F) (a : Activation F Pc) : Prop :=
  ∀ y, R.flagAt a.entry a.pc = some y → x = y

/-- The caller `a` gets the flag it asks for when `callee` returns. -/
def ReturnsTo (R : FlagRule F Pc) (callee a : Activation F Pc) : Prop :=
  R.Fits callee.entry a ∧ (R.Free callee.pc → R.flagAt a.entry a.pc = none)

/-- Every frame knows what it has to, and gives its caller the flag back. -/
structure StackOk (R : FlagRule F Pc) (st : List (Activation F Pc)) : Prop where
  knows : ∀ a ∈ st, R.Knows a.entry a.pc
  chain : st.IsChain R.ReturnsTo

/-- Any flag fits. -/
theorem fits_of_none (h : R.flagAt a.entry a.pc = none) : R.Fits x a := by
  intro y hy
  rw [h] at hy
  cases hy

theorem stackOk_nil : R.StackOk [] := ⟨by simp, .nil⟩

theorem StackOk.tail (h : R.StackOk (a :: rest)) : R.StackOk rest :=
  ⟨fun b hb => h.knows b (List.mem_cons_of_mem _ hb), h.chain.tail⟩

/-- What a new frame on a stack has to be like. -/
theorem StackOk.push (h : R.StackOk rest) (hknows : R.Knows a.entry a.pc)
    (hret : ∀ b ∈ rest.head?, R.ReturnsTo a b) : R.StackOk (a :: rest) := by
  refine ⟨List.forall_mem_cons.mpr ⟨hknows, h.knows⟩, ?_⟩
  exact List.isChain_cons.mpr ⟨hret, h.chain⟩

/-- A function goes on at another control point. -/
theorem StackOk.goto (h : R.StackOk (a :: rest)) (hknows : R.Knows a.entry pc)
    (hfree : R.Free pc → R.Free a.pc) : R.StackOk (⟨a.entry, pc⟩ :: rest) := by
  refine h.tail.push hknows fun b hb => ?_
  have hret := (List.isChain_cons.mp h.chain).1 b hb
  exact ⟨hret.1, fun hf => hret.2 (hfree hf)⟩

/-- A function calls another one and goes on at `pc`. -/
theorem StackOk.call (h : R.StackOk (a :: rest)) (hknows : R.Knows a.entry pc)
    (hfree : R.Free pc → R.Free a.pc) {callee : Pc} (hcallee : R.Knows x callee)
    (hret : R.ReturnsTo ⟨x, callee⟩ ⟨a.entry, pc⟩) :
    R.StackOk (⟨x, callee⟩ :: ⟨a.entry, pc⟩ :: rest) := by
  refine (h.goto hknows hfree).push hcallee fun b hb => ?_
  cases hb
  exact hret

/-- **A return**: the caller has the flag that it asks for. -/
theorem StackOk.ret (h : R.StackOk (a :: b :: rest)) (hx : x = a.entry ∨ R.Free a.pc) :
    R.Fits x b := by
  have hret := (List.isChain_cons_cons.mp h.chain).1
  rcases hx with rfl | hfree
  · exact hret.1
  · exact fits_of_none (hret.2 hfree)

/-- Stacks of threads, of which `running` has the processor. Where the others stand, the flag has the
value `parked`. -/
structure FlagInv (R : FlagRule F Pc) (parked flag : F) (running : Thread)
    (stack : Thread → List (Activation F Pc)) : Prop where
  stackOk : ∀ t, R.StackOk (stack t)
  top : ∀ a ∈ (stack running).head?, R.Fits flag a
  others : ∀ t, t ≠ running → ∀ a ∈ (stack t).head?, R.flagAt a.entry a.pc = some parked

section Threads

variable [DecidableEq Thread] {parked flag flag' : F} {running next : Thread}
  {stack : Thread → List (Activation F Pc)} {st : List (Activation F Pc)}

omit [DecidableEq Thread] in
/-- No thread has a stack. -/
theorem FlagInv.empty : R.FlagInv parked flag running fun _ => [] :=
  ⟨fun _ => stackOk_nil, by simp, by simp⟩

/-- The running thread goes on. -/
theorem FlagInv.stay (h : R.FlagInv parked flag running stack) (hst : R.StackOk st)
    (htop : ∀ a ∈ st.head?, R.Fits flag' a) :
    R.FlagInv parked flag' running (Function.update stack running st) := by
  refine ⟨fun t => ?_, ?_, fun t ht => ?_⟩
  · rw [Function.update_apply]
    split
    · exact hst
    · exact h.stackOk t
  · rw [Function.update_self]
    exact htop
  · rw [Function.update_of_ne ht]
    exact h.others t ht

/-- Another thread gets the processor; the flag stays as it is with `parked`. -/
theorem FlagInv.switch (h : R.FlagInv parked flag running stack) (hst : R.StackOk st)
    (htop : ∀ a ∈ st.head?, R.flagAt a.entry a.pc = some parked) :
    R.FlagInv parked parked next (Function.update stack running st) := by
  have hall : ∀ t, ∀ a ∈ (Function.update stack running st t).head?,
      R.flagAt a.entry a.pc = some parked := by
    intro t
    by_cases ht : t = running
    · rw [ht, Function.update_self]
      exact htop
    · rw [Function.update_of_ne ht]
      exact h.others t ht
  refine ⟨fun t => ?_, fun a ha y hy => ?_, fun t _ => hall t⟩
  · rw [Function.update_apply]
    split
    · exact hst
    · exact h.stackOk t
  · exact Option.some.inj ((hall next a ha).symm.trans hy)

/-- A thread that does not run gets a stack. -/
theorem FlagInv.create (h : R.FlagInv parked flag running stack) {t : Thread} (ht : t ≠ running)
    (hst : R.StackOk st) (htop : ∀ a ∈ st.head?, R.flagAt a.entry a.pc = some parked) :
    R.FlagInv parked flag running (Function.update stack t st) := by
  refine ⟨fun u => ?_, ?_, fun u hu => ?_⟩
  · rw [Function.update_apply]
    split
    · exact hst
    · exact h.stackOk u
  · rw [Function.update_of_ne (Ne.symm ht)]
    exact h.top
  · by_cases hut : u = t
    · rw [hut, Function.update_self]
      exact htop
    · rw [Function.update_of_ne hut]
      exact h.others u hu

end Threads

end FlagRule

end OsKernel.Lib
