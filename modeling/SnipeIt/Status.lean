import Mathlib.Tactic.Common

/-! # Status codes -/

namespace SnipeIt

inductive Status where
  | successful | nullParam | invalidValue | systemError | actionFailed | invalidConfig
  | deviceError
  deriving DecidableEq

end SnipeIt
