import DoubleEntry.Text.Quoted

/-! # Notices

Warnings and errors that an operation reports while it runs, apart from its result.
-/

namespace DoubleEntry

inductive Severity where
  | warning
  | error
deriving DecidableEq, Repr

inductive Notice where
  /-- A setting could not be read. -/
  | settingIgnored (key value reason : String)
  /-- Lost-and-found is asked for, and not available. -/
  | redirectUnavailable
  | notOpen
  | unknownAccount
  | valueReportedZero
  | valueNotApplied
  | zeroPrice
  | orphan
  | inconsistentCommodities
  | noCommonCommodity
  | cannotAbsorb
  | loneNonZeroSplit
  | otherOfDetached
  | destroyDetached
deriving DecidableEq, Repr

namespace Notice

def severity : Notice → Severity
  | .settingIgnored .. | .redirectUnavailable | .notOpen | .unknownAccount | .valueReportedZero
  | .valueNotApplied | .zeroPrice => .warning
  | _ => .error

def message : Notice → String
  | .settingIgnored key value reason => key ++ "=" ++ Text.quoted value ++ " ignored: " ++ reason
  | .redirectUnavailable =>
    "lost-and-found redirect is not implemented; balancing as force-balance"
  | .notOpen => "mutation rejected: transaction not open for editing"
  | .unknownAccount => "insert into unknown account ignored"
  | .valueReportedZero => "inappropriate base commodity for split; value reported as zero"
  | .valueNotApplied => "inappropriate base commodity for split; value not applied"
  | .zeroPrice => "zero share price; base value not applied"
  | .orphan => "split without account under double entry"
  | .inconsistentCommodities => "inconsistent commodities"
  | .noCommonCommodity => "no common split commodities"
  | .cannotAbsorb => "balancing split cannot absorb the imbalance"
  | .loneNonZeroSplit => "non-zero split without a counterpart under double entry"
  | .otherOfDetached => "other_split on a detached split"
  | .destroyDetached => "destroy_split on a detached split"

end Notice

end DoubleEntry
