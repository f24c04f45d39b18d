import Mathlib.Order.Defs.LinearOrder
import OverlayHost.Duration

/-!
# The order of durations

Durations are ordered as their nanoseconds are, so that what holds in any linear order can be used by its own name.
-/

set_option autoImplicit false

namespace OverlayHost.Duration

theorem ext_of_le {a b : Duration} (hle : a ≤ b) (hge : b ≤ a) : a = b := congrArg mk (Nat.le_antisymm hle hge)

instance : LinearOrder Duration where
  le_refl _ := Nat.le_refl _
  le_trans _ _ _ hab hbc := Nat.le_trans hab hbc
  lt_iff_le_not_ge _ _ := Nat.lt_iff_le_and_not_ge
  le_antisymm _ _ := ext_of_le
  le_total _ _ := Nat.le_total _ _
  toDecidableLE := inferInstance
  max_def _ _ := rfl

theorem le_add_right (a b : Duration) : a ≤ a + b := Nat.le_add_right _ _

end OverlayHost.Duration
