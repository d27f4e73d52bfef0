import Mathlib.Algebra.BigOperators.Group.List.Basic
import Mathlib.Algebra.Order.Ring.Rat
import ProRag.Llm.Calls

/-!
# The daily caps

`check_daily_cap` over the stored rows of `usage`.  A cost is a rational number here, and `SUM` adds without rounding.
-/

namespace ProRag

/-- A row of `usage`, as it is stored. -/
structure StoredUsage extends Usage where
  createdAt : Timestamp
deriving DecidableEq

/-- `_utc_day_start(now)`. -/
def utcDayStart (now : Timestamp) : Timestamp := now - now % 86400000000

/-- `today_cost_usd(session)`. -/
def todayCostUsd (usage : List StoredUsage) (now : Timestamp) : ℚ :=
  ((usage.filter fun r => utcDayStart now ≤ r.createdAt).map fun r => r.costUsd).sum

/-- `today_user_cost_usd(session, user_id)`. -/
def todayUserCostUsd (usage : List StoredUsage) (now : Timestamp) (userId : Uuid) : ℚ :=
  ((usage.filter fun r => r.userId = some userId ∧ utcDayStart now ≤ r.createdAt).map fun r => r.costUsd).sum

/-- `over_daily_cap(today_total, cap)`. -/
def overDailyCap (todayTotal cap : ℚ) : Bool := cap ≤ todayTotal

inductive BudgetDecision
  | ok | warn | block
deriving DecidableEq, Repr

/-- `budget_decision(spent, cap, hard_multiplier)`. -/
def budgetDecision (spent cap hardMultiplier : ℚ) : BudgetDecision :=
  if cap * hardMultiplier ≤ spent then .block else if cap ≤ spent then .warn else .ok

variable (settings : Settings)

def effectiveCap (user : User) : ℚ := user.dailyCapUsdOverride.getD settings.userDailyCapUsd

/-- `check_daily_cap(session, user)`; `usd` is `f"{x:.2f}"`. -/
def checkDailyCap (usd : ℚ → String) (usage : List StoredUsage) (now : Timestamp) (user : Option User) :
    Except PyError (Option String) :=
  let spent := todayCostUsd usage now
  if overDailyCap spent settings.dailyCostCapUsd then
    .error (httpException 429 ("daily cost cap of $" ++ usd settings.dailyCostCapUsd ++ " reached ($" ++ usd spent ++
      " spent today)"))
  else match user with
    | none => .ok none
    | some user =>
      let cap := effectiveCap settings user
      let userSpent := todayUserCostUsd usage now user.id
      match budgetDecision userSpent cap settings.userHardCapMultiplier with
      | .block => .error (httpException 429 ("you have used $" ++ usd userSpent ++ " of $" ++
          usd (cap * settings.userHardCapMultiplier) ++ " today, resets at midnight UTC"))
      | .warn => .ok (some ("you have used $" ++ usd userSpent ++ " of $" ++ usd cap ++
          " today, resets at midnight UTC"))
      | .ok => .ok none

end ProRag
