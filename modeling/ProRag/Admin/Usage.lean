import Mathlib.Algebra.GroupWithZero.Nat
import Mathlib.Data.List.Dedup
import ProRag.Framework.Query
import ProRag.Framework.Results
import ProRag.Operations.Budget

/-!
# The usage report

`usage_report` of the admin router, and its list of warned users beside the gate of the daily caps.  Costs are added without
rounding, as the gate adds them.
-/

namespace ProRag

open Framework

/-- A line of `items`. -/
structure UsageItem where
  userId : Option Uuid
  day : Int
  model : String
  costUsd : ℚ
  tokens : Nat
  calls : Nat
deriving DecidableEq

structure UsageReport where
  items : List UsageItem
  warnedUsers : List Uuid
deriving DecidableEq

/-- `(created_at AT TIME ZONE 'UTC')::date`, in days since the epoch. -/
def utcDate (t : Timestamp) : Int := t / 86400000000

/-- `GROUP BY user_id, day, model`. -/
def StoredUsage.group (r : StoredUsage) : Option Uuid × Int × String :=
  (r.userId, utcDate r.createdAt, r.model)

def usageItem (rows : List StoredUsage) (k : Option Uuid × Int × String) : UsageItem :=
  let rows := rows.filter fun r => r.group = k
  ⟨k.1, k.2.1, k.2.2, (rows.map fun r => r.costUsd).sum,
    (rows.map fun r => r.promptTokens + r.completionTokens).sum, rows.length⟩

/-- The first query; lines of one day come in any order. -/
def usageItems (usage : List StoredUsage) (start : Timestamp) : List UsageItem :=
  let rows := usage.filter fun r => start ≤ r.createdAt
  rankBy UsageItem.day ((rows.map StoredUsage.group).dedup.map (usageItem rows))

/-- `today_spend`: the users with a row since the start of the day, and what their rows add up to. -/
def todaySpend (usage : List StoredUsage) (now : Timestamp) : List (Uuid × ℚ) :=
  let rows := usage.filter fun r => utcDayStart now ≤ r.createdAt
  (rows.filterMap fun r => r.userId).dedup.map fun uid =>
    (uid, ((rows.filter fun r => r.userId = some uid).map fun r => r.costUsd).sum)

variable (settings : Settings)

/-- `caps`, for the users with spend. -/
def spenderCaps (users : List User) (spend : List (Uuid × ℚ)) : List (Uuid × ℚ) :=
  (users.filter fun u => u.id ∈ spend.map Prod.fst).map fun u => (u.id, effectiveCap settings u)

/-- `caps.get(uid, settings.user_daily_cap_usd)`. -/
def capOf (caps : List (Uuid × ℚ)) (uid : Uuid) : ℚ :=
  ((selectOne Prod.fst uid caps).map Prod.snd).getD settings.userDailyCapUsd

/-- `warned_users`. -/
def warnedUsers (users : List User) (usage : List StoredUsage) (now : Timestamp) : List Uuid :=
  let spend := todaySpend usage now
  let caps := spenderCaps settings users spend
  (spend.filter fun e => capOf settings caps e.1 ≤ e.2).map Prod.fst

/-- `_WINDOW_RE.match(window)`: the digits of `^(\d+)d$`, which a newline may follow.  `decimal` is the
value of a Unicode decimal digit. -/
def windowDigits (decimal : Char → Option Nat) (window : String) : Option (List Nat) :=
  let digits := window.toList.takeWhile fun c => (decimal c).isSome
  let rest := window.toList.dropWhile fun c => (decimal c).isSome
  if digits ≠ [] ∧ (rest = ['d'] ∨ rest = ['d', '\n']) then some (digits.filterMap decimal) else none

/-- `datetime.now(UTC) - timedelta(days=int(m.group(1)))`. -/
def windowStart (now : Timestamp) (digits : List Nat) : Except PyError Timestamp :=
  let days : Nat := digits.foldl (fun n d => 10 * n + d) 0
  let start : Timestamp := now - (days : Int) * 86400000000
  if 4300 < digits.length then
    .error ⟨"ValueError", "Exceeds the limit (4300 digits) for integer string conversion: value has " ++
      toString digits.length ++ " digits; use sys.set_int_max_str_digits() to increase the limit"⟩
  else if 2147483647 < days then .error ⟨"OverflowError", "Python int too large to convert to C int"⟩
  else if 999999999 < days then
    .error ⟨"OverflowError", "days=" ++ toString days ++ "; must have magnitude <= 999999999"⟩
  -- the first instant of year 1
  else if start < -62135596800000000 then .error ⟨"OverflowError", "date value out of range"⟩
  else .ok start

/-- `usage_report(window, session)`. -/
def usageReport (decimal : Char → Option Nat) (window : String) (users : List User) (usage : List StoredUsage)
    (now : Timestamp) : Except PyError UsageReport := do
  match windowDigits decimal window with
  | none => .error (httpException 400 "window must look like '7d'")
  | some digits =>
    let start ← windowStart now digits
    .ok ⟨usageItems usage start, warnedUsers settings users usage now⟩

/-- A row of today's counts for the user. -/
def SpentToday (usage : List StoredUsage) (now : Timestamp) (uid : Uuid) : Prop :=
  ∃ r ∈ usage, r.userId = some uid ∧ utcDayStart now ≤ r.createdAt

instance (usage : List StoredUsage) (now : Timestamp) (uid : Uuid) : Decidable (SpentToday usage now uid) :=
  inferInstanceAs (Decidable (∃ r ∈ usage, r.userId = some uid ∧ utcDayStart now ≤ r.createdAt))

variable {settings} {users : List User} {usage : List StoredUsage} {now : Timestamp}

/-- The bulk query has an entry for each user with a row, and the sum of the entry is the one the gate reads. -/
theorem mem_todaySpend {uid : Uuid} {spent : ℚ} :
    (uid, spent) ∈ todaySpend usage now ↔ SpentToday usage now uid ∧ spent = todayUserCostUsd usage now uid := by
  have hsum : ((usage.filter fun r => utcDayStart now ≤ r.createdAt).filter fun r => r.userId = some uid) =
      usage.filter fun r => r.userId = some uid ∧ utcDayStart now ≤ r.createdAt := by
    rw [List.filter_filter]
    apply List.filter_congr
    intro r _
    simp
  simp only [todaySpend, List.mem_map, List.mem_dedup, List.mem_filterMap, List.mem_filter, decide_eq_true_eq,
    Prod.mk.injEq]
  constructor
  · rintro ⟨_, ⟨r, ⟨hr, htoday⟩, hid⟩, rfl, rfl⟩
    exact ⟨⟨r, hr, hid, htoday⟩, by rw [hsum, todayUserCostUsd]⟩
  · rintro ⟨⟨r, hr, hid, htoday⟩, rfl⟩
    exact ⟨uid, ⟨r, ⟨hr, htoday⟩, hid⟩, rfl, by rw [hsum, todayUserCostUsd]⟩

private theorem todayUserCostUsd_unspent {uid : Uuid} (h : ¬ SpentToday usage now uid) :
    todayUserCostUsd usage now uid = 0 := by
  have hnone : (usage.filter fun r => r.userId = some uid ∧ utcDayStart now ≤ r.createdAt) = [] := by
    apply List.filter_eq_nil_iff.mpr
    intro r hr hrow
    exact h ⟨r, hr, of_decide_eq_true hrow⟩
  rw [todayUserCostUsd, hnone]
  rfl

private theorem capOf_spender (hids : UniqueOn User.id users) {user : User} (huser : user ∈ users)
    {spend : List (Uuid × ℚ)} (hspend : user.id ∈ spend.map Prod.fst) :
    capOf settings (spenderCaps settings users spend) user.id = effectiveCap settings user := by
  have hunique : UniqueOn Prod.fst (spenderCaps settings users spend) := by
    rw [UniqueOn, spenderCaps, List.map_map]
    exact List.Nodup.sublist (List.filter_sublist.map User.id) hids
  have hmem : (user.id, effectiveCap settings user) ∈ spenderCaps settings users spend :=
    List.mem_map.mpr ⟨user, List.mem_filter.mpr ⟨huser, by simpa using hspend⟩, rfl⟩
  rw [capOf, (selectOne_eq_some hunique).mpr ⟨hmem, rfl⟩]
  rfl

theorem mem_warnedUsers (hids : UniqueOn User.id users) {user : User} (huser : user ∈ users) :
    user.id ∈ warnedUsers settings users usage now ↔
      SpentToday usage now user.id ∧ effectiveCap settings user ≤ todayUserCostUsd usage now user.id := by
  simp only [warnedUsers, List.mem_map, List.mem_filter, decide_eq_true_eq]
  constructor
  · rintro ⟨⟨uid, spent⟩, ⟨hmem, hcap⟩, rfl⟩
    have hentry := mem_todaySpend.mp hmem
    rw [capOf_spender hids huser (List.mem_map_of_mem hmem), hentry.2] at hcap
    exact ⟨hentry.1, hcap⟩
  · rintro ⟨hspent, hcap⟩
    have hmem : (user.id, todayUserCostUsd usage now user.id) ∈ todaySpend usage now :=
      mem_todaySpend.mpr ⟨hspent, rfl⟩
    refine ⟨_, ⟨hmem, ?_⟩, rfl⟩
    rwa [capOf_spender hids huser (List.mem_map_of_mem hmem)]

variable {decimal : Char → Option Nat} {window : String}

theorem usageReport_warnedUsers {report : UsageReport}
    (h : usageReport settings decimal window users usage now = .ok report) :
    report.warnedUsers = warnedUsers settings users usage now := by
  rw [usageReport] at h
  cases hdigits : windowDigits decimal window with
  | none => simp [hdigits] at h
  | some digits =>
    rw [hdigits] at h
    obtain ⟨start, _, hreport⟩ := bind_eq_ok.mp h
    rw [← Except.ok.inj hreport]

private theorem budgetDecision_ne_ok {spent cap mult : ℚ} :
    budgetDecision spent cap mult ≠ .ok ↔ cap * mult ≤ spent ∨ cap ≤ spent := by
  rw [budgetDecision]
  split
  · simp [*]
  · split <;> simp [*]

/-- The report warns exactly the users the gate would warn or block, but for two kinds: a user without a row
today whose cap is 0 or less, and one whose spend lies between a negative cap and its multiple. -/
theorem warned_iff_gated_iff (hids : UniqueOn User.id users) {user : User} (huser : user ∈ users)
    (hmult : 1 ≤ settings.userHardCapMultiplier) {report : UsageReport}
    (hreport : usageReport settings decimal window users usage now = .ok report) :
    (user.id ∈ report.warnedUsers ↔ budgetDecision (todayUserCostUsd usage now user.id) (effectiveCap settings user)
        settings.userHardCapMultiplier ≠ .ok) ↔
      0 < effectiveCap settings user ∨
        (SpentToday usage now user.id ∧ (0 ≤ effectiveCap settings user ∨
          effectiveCap settings user ≤ todayUserCostUsd usage now user.id ∨
          todayUserCostUsd usage now user.id < effectiveCap settings user * settings.userHardCapMultiplier)) := by
  rw [usageReport_warnedUsers hreport, mem_warnedUsers hids huser, budgetDecision_ne_ok]
  by_cases hspent : SpentToday usage now user.id
  · simp only [hspent, true_and]
    by_cases hcap : 0 ≤ effectiveCap settings user
    · have hle : effectiveCap settings user ≤ effectiveCap settings user * settings.userHardCapMultiplier :=
        le_mul_of_one_le_right hcap hmult
      simp only [hcap, true_or, or_true, iff_true]
      exact ⟨Or.inr, fun h => h.elim hle.trans id⟩
    · have hpos : ¬ 0 < effectiveCap settings user := fun h => hcap h.le
      simp only [hcap, hpos, false_or]
      rw [← not_le]
      tauto
  · have hzero := todayUserCostUsd_unspent hspent
    simp only [hspent, hzero, false_and, false_iff, or_false, not_or, not_le]
    constructor
    · exact And.right
    · intro hcap
      exact ⟨mul_pos hcap (one_pos.trans_le hmult), hcap⟩

def asciiDecimal (c : Char) : Option Nat :=
  if c.isDigit then some (c.toNat - '0'.toNat) else none

/-- A user who may spend nothing, and one with the default cap. -/
def zeroCapUser : User := ⟨1, none, "trial@example.org", none, false, none, some 0, none⟩

def defaultCapUser : User := ⟨2, none, "staff@example.org", none, false, none, none, none⟩

/-- `defaultCapUser` has reached the cap of one dollar. -/
def reachedUsage : List StoredUsage := [⟨⟨none, "gpt-4o-mini", 900, 100, 3 / 2, some 2⟩, 10⟩]

def reachedReport : UsageReport :=
  ⟨[⟨some 2, 0, "gpt-4o-mini", 3 / 2, 1000, 1⟩], [2]⟩

theorem warned_iff_gated_iff_reached :
    ((2 : Uuid) ∈ reachedReport.warnedUsers ↔
      budgetDecision (todayUserCostUsd reachedUsage 20 2) (effectiveCap {} defaultCapUser)
        ({} : Settings).userHardCapMultiplier ≠ .ok) ↔
      0 < effectiveCap {} defaultCapUser ∨
        (SpentToday reachedUsage 20 2 ∧ (0 ≤ effectiveCap {} defaultCapUser ∨
          effectiveCap {} defaultCapUser ≤ todayUserCostUsd reachedUsage 20 2 ∨
          todayUserCostUsd reachedUsage 20 2 <
            effectiveCap {} defaultCapUser * ({} : Settings).userHardCapMultiplier)) := by
  have hreport : usageReport {} asciiDecimal "7d" [zeroCapUser, defaultCapUser] reachedUsage 20 = .ok reachedReport := by
    decide +kernel
  have huser : defaultCapUser ∈ [zeroCapUser, defaultCapUser] := by simp
  exact warned_iff_gated_iff (by decide) huser (by decide) hreport

/-- The gate blocks `zeroCapUser` from the first request on, and the report does not list that user. -/
theorem zero_cap_unwarned : ∃ report,
    usageReport {} asciiDecimal "7d" [zeroCapUser] [] 20 = .ok report ∧
      ¬ (zeroCapUser.id ∈ report.warnedUsers ↔
        budgetDecision (todayUserCostUsd [] 20 zeroCapUser.id) (effectiveCap {} zeroCapUser)
          ({} : Settings).userHardCapMultiplier ≠ .ok) := by
  refine ⟨⟨[], []⟩, by decide +kernel, ?_⟩
  decide +kernel

end ProRag
