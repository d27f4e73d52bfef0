import ProRag.Admin.Usage
import ProRag.Framework.Grouping

/-!
# The lines of the usage report

What the lines of `usage_report` add up to, against the rows of `usage` and against the totals that the gate compares.
-/

namespace ProRag

open Framework

variable {settings : Settings} {decimal : Char → Option Nat} {window : String} {users : List User}
  {usage : List StoredUsage} {now start : Timestamp} {report : UsageReport}

def UsageItem.group (i : UsageItem) : Option Uuid × Int × String := (i.userId, i.day, i.model)

@[simp] theorem usageItem_group (rows : List StoredUsage) (k : Option Uuid × Int × String) :
    (usageItem rows k).group = k := rfl

def inWindow (start : Timestamp) (usage : List StoredUsage) : List StoredUsage :=
  usage.filter fun r => start ≤ r.createdAt

theorem usageItems_perm : (usageItems usage start).Perm
    (((inWindow start usage).map StoredUsage.group).dedup.map (usageItem (inWindow start usage))) :=
  (rankBy_stable UsageItem.day _).perm

theorem usageItems_groups : ((usageItems usage start).map UsageItem.group).Perm
    ((inWindow start usage).map StoredUsage.group).dedup := by
  have hmap := (@usageItems_perm usage start).map UsageItem.group
  simpa [List.map_map, Function.comp_def] using hmap

theorem sum_lines {R : Type} [AddCommMonoid R] (column : UsageItem → R) (f : StoredUsage → R)
    (hcolumn : ∀ rows k, column (usageItem rows k) = ((rows.filter fun r => r.group = k).map f).sum)
    (chosen : Option Uuid × Int × String → Bool) :
    (((usageItems usage start).filter fun i => chosen i.group).map column).sum =
      (((inWindow start usage).filter fun r => chosen r.group).map f).sum := by
  rw [((usageItems_perm.filter _).map column).sum_eq, List.filter_map, List.map_map, ← sum_chosen_groups StoredUsage.group f chosen]
  simp [Function.comp_def, hcolumn]

theorem usageReport_items (h : usageReport settings decimal window users usage now = .ok report) :
    ∃ digits start, windowDigits decimal window = some digits ∧ windowStart now digits = .ok start ∧
      report.items = usageItems usage start := by
  rw [usageReport] at h
  cases hdigits : windowDigits decimal window with
  | none => simp [hdigits] at h
  | some digits =>
    rw [hdigits] at h
    obtain ⟨start, hstart, hreport⟩ := bind_eq_ok.mp h
    exact ⟨digits, start, rfl, hstart, by rw [← Except.ok.inj hreport]⟩

/-- The report loses nothing and counts nothing twice: its lines, newest day first, are about different groups, each with a
call, and whatever lines are chosen add up to the rows of the window that they are about.  Costs are added as rational
numbers, so the sums of the columns of doubles agree up to their rounding. -/
theorem usage_lines_conserve (h : usageReport settings decimal window users usage now = .ok report) :
    ∃ digits start, windowDigits decimal window = some digits ∧ windowStart now digits = .ok start ∧
      (report.items.map UsageItem.group).Nodup ∧ (report.items.Pairwise fun a b => b.day ≤ a.day) ∧
      (∀ i ∈ report.items, 0 < i.calls) ∧
      ∀ chosen : Option Uuid × Int × String → Bool,
        let lines := report.items.filter fun i => chosen i.group
        let rows := usage.filter fun r => decide (start ≤ r.createdAt) && chosen r.group
        (lines.map UsageItem.costUsd).sum = (rows.map fun r => r.costUsd).sum ∧
          (lines.map UsageItem.tokens).sum = (rows.map fun r => r.promptTokens + r.completionTokens).sum ∧
          (lines.map UsageItem.calls).sum = rows.length := by
  obtain ⟨digits, start, hdigits, hstart, hitems⟩ := usageReport_items h
  refine ⟨digits, start, hdigits, hstart, ?_, ?_, ?_, ?_⟩
  · rw [hitems, usageItems_groups.nodup_iff]
    exact List.nodup_dedup _
  · rw [hitems]
    exact (rankBy_stable UsageItem.day _).descending
  · intro i hi
    rw [hitems, usageItems_perm.mem_iff] at hi
    obtain ⟨k, hk, rfl⟩ := List.mem_map.mp hi
    obtain ⟨r, hr, rfl⟩ := List.mem_map.mp (List.mem_dedup.mp hk)
    exact List.length_pos_of_mem (List.mem_filter.mpr ⟨hr, by simp⟩)
  · intro chosen lines rows
    have hrows : rows = (inWindow start usage).filter fun r => chosen r.group := by
      simp [rows, inWindow, List.filter_filter, Bool.and_comm]
    simp only [lines, hitems, hrows]
    refine ⟨sum_lines _ _ (fun _ _ => rfl) chosen, sum_lines _ _ (fun _ _ => rfl) chosen, ?_⟩
    rw [sum_lines UsageItem.calls (fun _ => 1) (by simp [usageItem]) chosen]
    simp

def windowDays (digits : List Nat) : Nat := digits.foldl (fun n d => 10 * n + d) 0

theorem windowStart_eq {digits : List Nat} (h : windowStart now digits = .ok start) :
    start = now - (windowDays digits : Int) * 86400000000 := by
  simp only [windowStart] at h
  split at h
  · cases h
  split at h
  · cases h
  split at h
  · cases h
  split at h
  · cases h
  exact (Except.ok.inj h).symm

private theorem midnight_le (t days : Int) (h : 0 < days) : t - days * 86400000000 ≤ t - t % 86400000000 := by
  omega

private theorem sameDay_iff (t t' : Int) (h : t < t' - t' % 86400000000 + 86400000000) :
    t / 86400000000 = t' / 86400000000 ↔ t' - t' % 86400000000 ≤ t := by
  omega

theorem windowStart_le {digits : List Nat} (h : windowStart now digits = .ok start) (hdays : 0 < windowDays digits) :
    start ≤ utcDayStart now := by
  rw [windowStart_eq h, utcDayStart]
  exact midnight_le now (windowDays digits) (by exact_mod_cast hdays)

theorem utcDate_eq_iff {t : Timestamp} (h : t < utcDayStart now + 86400000000) :
    utcDate t = utcDate now ↔ utcDayStart now ≤ t :=
  sameDay_iff t now h

/-- When no row is from a later day, the lines of today, of a user or of all, add up to the total that the gate compares with
the cap, both sums taken of rational numbers. -/
theorem report_agrees_with_gate (h : usageReport settings decimal window users usage now = .ok report)
    (hdays : ∀ digits, windowDigits decimal window = some digits → 0 < windowDays digits)
    (hpast : ∀ r ∈ usage, r.createdAt < utcDayStart now + 86400000000) :
    ((report.items.filter fun i => i.day = utcDate now).map UsageItem.costUsd).sum = todayCostUsd usage now ∧
      ∀ uid, ((report.items.filter fun i => i.userId = some uid ∧ i.day = utcDate now).map UsageItem.costUsd).sum =
        todayUserCostUsd usage now uid := by
  obtain ⟨digits, start, hdigits, hstart, -, -, -, hsums⟩ := usage_lines_conserve h
  have hback := windowStart_le hstart (hdays digits hdigits)
  have htoday : ∀ r ∈ usage, utcDate r.createdAt = utcDate now ↔ utcDayStart now ≤ r.createdAt :=
    fun r hr => utcDate_eq_iff (hpast r hr)
  constructor
  · have hall := (hsums fun k => k.2.1 = utcDate now).1
    rw [show ((report.items.filter fun i => i.day = utcDate now).map UsageItem.costUsd).sum = _ from hall, todayCostUsd]
    congr 2
    apply List.filter_congr
    intro r hr
    have hday := htoday r hr
    simp only [StoredUsage.group, hday, ← Bool.decide_and, decide_eq_decide]
    exact ⟨And.right, fun h => ⟨hback.trans h, h⟩⟩
  · intro uid
    have hone := (hsums fun k => decide (k.1 = some uid ∧ k.2.1 = utcDate now)).1
    rw [show ((report.items.filter fun i => i.userId = some uid ∧ i.day = utcDate now).map UsageItem.costUsd).sum = _
      from hone, todayUserCostUsd]
    congr 2
    apply List.filter_congr
    intro r hr
    have hday := htoday r hr
    simp only [StoredUsage.group, hday, ← Bool.decide_and, decide_eq_decide]
    exact ⟨And.right, fun h => ⟨hback.trans h.2, h⟩⟩

theorem reachedReport_reported :
    usageReport {} asciiDecimal "7d" [zeroCapUser, defaultCapUser] reachedUsage 20 = .ok reachedReport := by
  decide +kernel

theorem usage_lines_conserve_reached : ∃ digits start, windowDigits asciiDecimal "7d" = some digits ∧
    windowStart 20 digits = .ok start ∧ (reachedReport.items.map UsageItem.group).Nodup ∧
      (reachedReport.items.Pairwise fun a b => b.day ≤ a.day) ∧ (∀ i ∈ reachedReport.items, 0 < i.calls) ∧
      ∀ chosen : Option Uuid × Int × String → Bool,
        let lines := reachedReport.items.filter fun i => chosen i.group
        let rows := reachedUsage.filter fun r => decide (start ≤ r.createdAt) && chosen r.group
        (lines.map UsageItem.costUsd).sum = (rows.map fun r => r.costUsd).sum ∧
          (lines.map UsageItem.tokens).sum = (rows.map fun r => r.promptTokens + r.completionTokens).sum ∧
          (lines.map UsageItem.calls).sum = rows.length :=
  usage_lines_conserve reachedReport_reported

theorem report_agrees_with_gate_reached :
    ((reachedReport.items.filter fun i => i.day = utcDate 20).map UsageItem.costUsd).sum = todayCostUsd reachedUsage 20 ∧
      ∀ uid, ((reachedReport.items.filter fun i => i.userId = some uid ∧ i.day = utcDate 20).map UsageItem.costUsd).sum =
        todayUserCostUsd reachedUsage 20 uid := by
  have hdigits : windowDigits asciiDecimal "7d" = some [7] := by decide +kernel
  apply report_agrees_with_gate reachedReport_reported
  · rintro digits h
    obtain rfl := Option.some.inj (hdigits.symm.trans h)
    decide
  · decide +kernel

end ProRag
