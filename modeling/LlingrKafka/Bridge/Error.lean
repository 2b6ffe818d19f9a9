import Mathlib.Data.Int.Notation

/-!
# Error codes of the bridge

The return codes of `llingr_init` (`bridge/config.go`).  Zero is success; every
error code is negative.
-/

namespace LlingrKafka.Bridge

/-- The codes a `bridgeError` carries. -/
inductive ErrCode
  | alreadyInit
  | invalidJSON
  | missingConfig
  | adapter
  | badOption
  deriving DecidableEq, Repr

namespace ErrCode

/-- The constant of `bridge/config.go`. -/
def rc : ErrCode → ℤ
  | alreadyInit => -1
  | invalidJSON => -2
  | missingConfig => -3
  | adapter => -4
  | badOption => -5

theorem rc_neg (code : ErrCode) : code.rc < 0 := by
  cases code <;> decide

theorem rc_ne_zero (code : ErrCode) : code.rc ≠ 0 := by
  have := code.rc_neg
  omega

end ErrCode

/-- `bridgeError`: a stable return code with its human-readable cause. -/
structure BridgeError where
  code : ErrCode
  msg : String
  deriving DecidableEq, Repr

end LlingrKafka.Bridge
