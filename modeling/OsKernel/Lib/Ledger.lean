import Mathlib

/-!
# Resources that are handed out

A store hands out resources, and a resource that has been handed out is put at a place. If only free
resources are handed out, and what has been handed out is not free any more, then no two places ever
hold the same resource.

- `Ledger`: no free resource is held, and no resource is held at two places.
- `Ledger.mono`, `Ledger.give`: what keeps it: less is held or free; one free resource is put at one
  place.
-/

namespace OsKernel.Lib

variable {Place Res : Type*}

/-- `holds p r`: the resource `r` is at the place `p`; `free r`: it can be handed out. -/
structure Ledger (holds : Place → Res → Prop) (free : Res → Prop) : Prop where
  taken : ∀ p r, holds p r → ¬ free r
  once : ∀ p q r, holds p r → holds q r → p = q

namespace Ledger

variable {holds holds' : Place → Res → Prop} {free free' : Res → Prop} {r : Res}

/-- Nothing is held. -/
theorem empty (h : ∀ p r, ¬ holds p r) : Ledger holds free :=
  ⟨fun p r hp => absurd hp (h p r), fun p _ r hp => absurd hp (h p r)⟩

/-- Nothing new is held and nothing new is free. -/
theorem mono (h : Ledger holds free) (hholds : ∀ p r, holds' p r → holds p r)
    (hfree : ∀ r, free' r → free r) : Ledger holds' free' where
  taken p r hp hr := h.taken p r (hholds p r hp) (hfree r hr)
  once p q r hp hq := h.once p q r (hholds p r hp) (hholds q r hq)

/-- **A free resource is put at a place.** -/
theorem give (h : Ledger holds free) (place : Place) (hr : free r)
    (hholds : ∀ p x, holds' p x → holds p x ∨ (p = place ∧ x = r))
    (hfree : ∀ x, free' x → free x ∧ x ≠ r) : Ledger holds' free' where
  taken p x hp hx := by
    obtain ⟨hold, hne⟩ := hfree x hx
    rcases hholds p x hp with hp | ⟨-, heq⟩
    · exact h.taken p x hp hold
    · exact hne heq
  once p q x hp hq := by
    rcases hholds p x hp with hp | ⟨rfl, rfl⟩
    · rcases hholds q x hq with hq | ⟨-, rfl⟩
      · exact h.once p q x hp hq
      · exact absurd hr (h.taken p x hp)
    · rcases hholds q x hq with hq | ⟨rfl, -⟩
      · exact absurd hr (h.taken q x hq)
      · rfl

end Ledger

end OsKernel.Lib
