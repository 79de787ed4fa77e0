import UdpAnalyzer.Lib.Dict
import UdpAnalyzer.Models

/-! The channel catalog (`channels.py`, `ChannelCatalog`): targets by unit name,
and the verdict on a flow of a unit. -/

namespace UdpAnalyzer

structure ChannelTarget where
  channel : Str
  unit : Str
  url : Str
  scheme : Str
  host : Str
  port : ℤ
  path : Str
  addresses : List Str := []
  deriving DecidableEq, Repr

inductive MatchStatus where
  | unknownUnit | unexpectedFlow | matched
  deriving DecidableEq, Repr

structure ChannelMatch where
  target : Option ChannelTarget
  status : MatchStatus
  deriving DecidableEq, Repr

structure ChannelCatalog where
  targets : List ChannelTarget
  byUnit : Dict Str ChannelTarget

namespace ChannelCatalog

/-- `ChannelCatalog.__init__`: a later target of the same unit replaces an
earlier one. -/
def ofTargets (targets : List ChannelTarget) : ChannelCatalog where
  targets := targets
  byUnit := targets.foldl (fun d t => d.set t.unit t) ∅

/-- `ChannelCatalog.match`. -/
def matchFlow (c : ChannelCatalog) (unit dstIp : Str) (dstPort : ℤ) : ChannelMatch :=
  match c.byUnit.get? unit with
  | none => ⟨none, .unknownUnit⟩
  | some target =>
    if target.port ≠ dstPort then ⟨some target, .unexpectedFlow⟩
    else if target.addresses ≠ [] ∧ dstIp ∉ target.addresses then ⟨some target, .unexpectedFlow⟩
    else ⟨some target, .matched⟩

/-- The last target of a unit is the one the catalog keeps. -/
theorem byUnit_ofTargets (targets : List ChannelTarget) (unit : Str) :
    (ofTargets targets).byUnit.get? unit = targets.reverse.find? (fun t => t.unit = unit) := by
  suffices h : ∀ d : Dict Str ChannelTarget,
      (targets.foldl (fun d t => d.set t.unit t) d).get? unit =
        (targets.reverse.find? (fun t => t.unit = unit)).or (d.get? unit) by
    simpa [ofTargets] using h ∅
  induction targets with
  | nil => intro d; rfl
  | cons t rest ih =>
    intro d
    rw [List.foldl_cons, ih, Dict.get?_set, List.reverse_cons, List.find?_append, Option.or_assoc]
    congr 1
    by_cases ht : t.unit = unit
    · subst ht; simp
    · have ht' : ¬ unit = t.unit := fun h => ht h.symm
      simp [ht, ht']

/-- A flow is unknown exactly when the catalog has no target of its unit. -/
theorem matchFlow_target (c : ChannelCatalog) (unit dstIp : Str) (dstPort : ℤ) :
    (c.matchFlow unit dstIp dstPort).target = c.byUnit.get? unit := by
  unfold matchFlow
  cases c.byUnit.get? unit with
  | none => rfl
  | some target => dsimp only; split_ifs <;> rfl

theorem matchFlow_status_unknown (c : ChannelCatalog) (unit dstIp : Str) (dstPort : ℤ) :
    (c.matchFlow unit dstIp dstPort).status = .unknownUnit ↔ c.byUnit.get? unit = none := by
  unfold matchFlow
  cases c.byUnit.get? unit with
  | none => simp
  | some target => dsimp only; split_ifs <;> simp

end ChannelCatalog

end UdpAnalyzer
