import Mathlib.Order.Lattice
import Mathlib.Tactic.Common

/-! Half-open windows of time, and when the ones of a sequence lie apart and in order. -/

namespace UdpAnalyzer

/-- The instants from `start` on, `length` of them. -/
structure Window where
  start : ℤ
  length : ℤ
  deriving DecidableEq, Repr

namespace Window

def stop (w : Window) : ℤ := w.start + w.length

instance : Membership ℤ Window := ⟨fun w x => w.start ≤ x ∧ x < w.stop⟩

theorem mem_iff {w : Window} {x : ℤ} : x ∈ w ↔ w.start ≤ x ∧ x < w.stop := Iff.rfl

/-- Every instant of the one is before every instant of the other. -/
def Before (w w' : Window) : Prop := ∀ x ∈ w, ∀ y ∈ w', x < y

theorem start_mem {w : Window} (h : 0 < w.length) : w.start ∈ w :=
  ⟨le_rfl, by unfold stop; omega⟩

/-- Of windows that are not empty it is enough to compare the ends. -/
theorem before_iff {w w' : Window} (h : 0 < w.length) (h' : 0 < w'.length) :
    w.Before w' ↔ w.stop ≤ w'.start := by
  constructor
  · intro hbefore
    have hlast : w.stop - 1 ∈ w := by
      rw [mem_iff]
      unfold stop
      omega
    have hlt := hbefore _ hlast _ (start_mem h')
    omega
  · intro hle x hx y hy
    rw [mem_iff] at hx hy
    omega

theorem Before.trans {w w' w'' : Window} (h : 0 < w'.length) (hw : w.Before w')
    (hw' : w'.Before w'') : w.Before w'' := fun x hx y hy =>
  (hw x hx _ (start_mem h)).trans (hw' _ (start_mem h) y hy)

/-- If each window is before the next, any two of them are in order. -/
theorem pairwise_before {ws : List Window} (hpos : ∀ w ∈ ws, 0 < w.length)
    (h : ws.IsChain Before) : ws.Pairwise Before := by
  induction ws with
  | nil => exact .nil
  | cons w rest ih =>
    rw [List.forall_mem_cons] at hpos
    cases rest with
    | nil => exact List.pairwise_singleton _ _
    | cons next rest =>
      rw [List.isChain_cons_cons] at h
      have hrest := ih hpos.2 h.2
      refine .cons (List.forall_mem_cons.mpr ⟨h.1, fun later hlater => ?_⟩) hrest
      exact h.1.trans (hpos.2 next List.mem_cons_self) (List.rel_of_pairwise_cons hrest hlater)

end Window

end UdpAnalyzer
