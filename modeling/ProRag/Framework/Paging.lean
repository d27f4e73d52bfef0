import ProRag.Framework.Query

/-!
# Pages of an ordered selection

A selection ordered by a key that is not unique is read page by page.  Every page is a query of its own, and
each query may put the ties in another order.
-/

namespace Framework

variable {ρ β : Type*} [LinearOrder β]

/-- An answer to `ORDER BY key DESC`. -/
structure Arranged (key : ρ → β) (rows order : List ρ) : Prop where
  perm : order.Perm rows
  descending : order.Pairwise fun a b => key b ≤ key a

/-- How a query orders what it selects. -/
structure Arrangement (key : ρ → β) where
  order : List ρ → List ρ
  arranged : ∀ rows, Arranged key rows (order rows)

/-- The order that keeps the ties as they are stored. -/
def Arrangement.stored (key : ρ → β) : Arrangement key where
  order := rankBy key
  arranged rows := ⟨(rankBy_stable key rows).perm, (rankBy_stable key rows).descending⟩

/-- The first `n` pages one after the other, the `k`-th from the order of its own query. -/
def pages (limit : Nat) (orders : Nat → List ρ) (n : Nat) : List ρ :=
  (List.range n).flatMap fun k => ((orders k).drop (k * limit)).take limit

/-- The rows of key `t` stand on both sides of place `p`. -/
def CutsTie (key : ρ → β) (rows : List ρ) (t : β) (p : Nat) : Prop :=
  (rows.countP fun r => t < key r) < p ∧ p < rows.countP fun r => t ≤ key r

instance (key : ρ → β) (rows : List ρ) (t : β) (p : Nat) : Decidable (CutsTie key rows t p) :=
  inferInstanceAs (Decidable ((rows.countP fun r => t < key r) < p ∧ p < rows.countP fun r => t ≤ key r))

/-! An ordered list is cut at a key: the rows above it, the rows that have it, the rows below. -/

theorem filter_append_filter_not {p : ρ → Bool} {order : List ρ} (h : order.Pairwise fun a b => p b → p a) :
    order.filter p ++ order.filter (fun r => !p r) = order := by
  induction order with
  | nil => rfl
  | cons r order ih =>
    have htail := (List.pairwise_cons.mp h).2
    cases hr : p r with
    | true => simp [hr, ih htail]
    | false =>
      have hnone : order.filter p = [] := by
        apply List.filter_eq_nil_iff.mpr
        intro a ha hpa
        simp [(List.pairwise_cons.mp h).1 a ha hpa] at hr
      have hrest := ih htail
      rw [hnone, List.nil_append] at hrest
      simp [hr, hnone, hrest]

variable {key : ρ → β} {rows order : List ρ}

theorem Arranged.length_filter (h : Arranged key rows order) (p : ρ → Bool) :
    (order.filter p).length = rows.countP p := by
  rw [← List.countP_eq_length_filter, h.perm.countP_eq]

theorem Arranged.split (h : Arranged key rows order) (t : β) :
    order = order.filter (fun r => t < key r) ++ (order.filter (fun r => key r = t) ++
      order.filter fun r => key r < t) := by
  have hlt : order.Pairwise fun a b => decide (t < key b) = true → decide (t < key a) = true := by
    apply h.descending.imp
    intro a b hab
    simpa using fun ht => lt_of_lt_of_le ht hab
  have hle : order.Pairwise fun a b => decide (t ≤ key b) = true → decide (t ≤ key a) = true := by
    apply h.descending.imp
    intro a b hab
    simpa using fun ht => le_trans ht hab
  have hrest := filter_append_filter_not (hle.filter fun r => !decide (t < key r))
  simp only [List.filter_filter] at hrest
  have heq : (order.filter fun r => decide (t ≤ key r) && !decide (t < key r)) = order.filter fun r => key r = t := by
    apply List.filter_congr
    intro r _
    rcases lt_trichotomy t (key r) with hr | hr | hr
    · simp [hr, hr.ne']
    · simp [hr]
    · simp [hr.not_ge, hr.ne]
  have hgt : (order.filter fun r => !decide (t ≤ key r) && !decide (t < key r)) = order.filter fun r => key r < t := by
    apply List.filter_congr
    intro r _
    rcases lt_trichotomy t (key r) with hr | hr | hr
    · simp [hr.le, hr.not_gt]
    · simp [hr]
    · simp [hr.not_ge, hr, hr.not_gt]
  rw [heq, hgt] at hrest
  rw [hrest]
  exact (filter_append_filter_not hlt).symm

theorem countP_le_eq_add (key : ρ → β) (rows : List ρ) (t : β) : (rows.countP fun r => t ≤ key r) =
    (rows.countP fun r => t < key r) + rows.countP fun r => key r = t := by
  induction rows with
  | nil => rfl
  | cons r rows ih =>
    simp only [List.countP_cons, decide_eq_true_eq, ih]
    rcases lt_trichotomy t (key r) with hr | hr | hr
    · rw [if_pos hr.le, if_pos hr, if_neg hr.ne']
      omega
    · rw [if_pos hr.le, if_neg hr.not_lt, if_pos hr.symm]
      omega
    · rw [if_neg hr.not_ge, if_neg hr.not_gt, if_neg hr.ne]
      omega

theorem Arranged.take_tie (h : Arranged key rows order) {t : β} {p : Nat} (hlo : (rows.countP fun r => t < key r) ≤ p)
    (hhi : p ≤ rows.countP fun r => t ≤ key r) :
    order.take p = order.filter (fun r => t < key r) ++
      (order.filter fun r => key r = t).take (p - rows.countP fun r => t < key r) := by
  have habove := h.length_filter fun r => t < key r
  have htie := h.length_filter fun r => key r = t
  rw [countP_le_eq_add] at hhi
  have hbelow : p - (order.filter fun r => t < key r).length - (order.filter fun r => key r = t).length = 0 := by
    omega
  conv_lhs => rw [h.split t]
  rw [List.take_append, List.take_of_length_le (by omega), List.take_append, hbelow, List.take_zero, List.append_nil,
    habove]

theorem Arranged.exists_tie (h : Arranged key rows order) {p : Nat} (hp : p < rows.length) :
    ∃ r ∈ rows, (rows.countP fun a => key r < key a) ≤ p ∧ p < rows.countP fun a => key r ≤ key a := by
  have hlen : p < order.length := by
    rw [h.perm.length_eq]
    exact hp
  obtain ⟨r, hget⟩ : ∃ r, order[p]? = some r := ⟨_, List.getElem?_eq_getElem hlen⟩
  have hmem : r ∈ rows := h.perm.mem_iff.mp (List.mem_of_getElem? hget)
  have habove := h.length_filter fun a => key r < key a
  have htie := h.length_filter fun a => key a = key r
  rw [h.split (key r)] at hget
  refine ⟨r, hmem, ?_, ?_⟩
  · by_contra hlt
    rw [List.getElem?_append_left (by omega)] at hget
    simpa using (List.mem_filter.mp (List.mem_of_getElem? hget)).2
  · by_contra hge
    rw [countP_le_eq_add] at hge
    rw [List.getElem?_append_right (by omega), List.getElem?_append_right (by omega)] at hget
    simpa using (List.mem_filter.mp (List.mem_of_getElem? hget)).2

theorem Arranged.take_perm {order' : List ρ} (h : Arranged key rows order) (h' : Arranged key rows order') {p : Nat}
    (hcut : ∀ a ∈ rows, ∀ b ∈ rows, key a = key b → a ≠ b → ¬ CutsTie key rows (key a) p) :
    (order.take p).Perm (order'.take p) := by
  have hboth : order.Perm order' := h.perm.trans h'.perm.symm
  by_cases hp : p < rows.length
  · obtain ⟨r, hr, hlo, hhi⟩ := h.exists_tie hp
    rw [h.take_tie hlo hhi.le, h'.take_tie hlo hhi.le]
    have htie : ∀ {o : List ρ}, Arranged key rows o → (o.filter fun a => key a = key r).take
        (p - rows.countP fun a => key r < key a) = List.replicate (p - rows.countP fun a => key r < key a) r := by
      intro o ho
      have hlen := ho.length_filter fun a => key a = key r
      rw [countP_le_eq_add] at hhi
      apply List.eq_replicate_iff.mpr
      constructor
      · rw [List.length_take, hlen]
        omega
      · intro a ha
        have hmem := List.mem_filter.mp (List.mem_of_mem_take ha)
        have hkey : key a = key r := by simpa using hmem.2
        by_contra hne
        have hpos : (rows.countP fun a => key r < key a) < p := by
          by_contra hle
          rw [Nat.sub_eq_zero_of_le (by omega)] at ha
          simp at ha
        apply hcut a (ho.perm.mem_iff.mp hmem.1) r hr hkey hne
        rw [hkey, CutsTie, countP_le_eq_add]
        exact ⟨hpos, hhi⟩
    rw [htie h, htie h']
    exact (hboth.filter _).append_right _
  · rw [List.take_of_length_le (by rw [h.perm.length_eq]; omega),
      List.take_of_length_le (by rw [h'.perm.length_eq]; omega)]
    exact hboth

/-! The pages, one after the other. -/

theorem pages_succ (limit : Nat) (orders : Nat → List ρ) (n : Nat) :
    pages limit orders (n + 1) = pages limit orders n ++ ((orders n).drop (n * limit)).take limit := by
  simp [pages, List.range_succ]

theorem pages_perm_take {limit : Nat} {orders : Nat → List ρ} (order : List ρ)
    (h : ∀ j k, ((orders j).take (k * limit)).Perm (order.take (k * limit))) (n : Nat) :
    (pages limit orders n).Perm (order.take (n * limit)) := by
  induction n with
  | zero => simp [pages]
  | succ n ih =>
    have hnext := h n (n + 1)
    rw [Nat.succ_mul, List.take_add, List.take_add] at hnext
    have hpage := (List.perm_append_left_iff _).mp (((h n n).symm.append_right _).trans hnext)
    rw [pages_succ, Nat.succ_mul, List.take_add]
    exact ih.append hpage

theorem pages_switch {limit : Nat} {order' : List ρ} {k n : Nat} (hkn : k ≤ n) (hlen : k * limit ≤ order'.length) :
    pages limit (fun j => if j < k then order else order') n =
      order.take (k * limit) ++ (order'.take (n * limit)).drop (k * limit) := by
  induction n, hkn using Nat.le_induction with
  | base =>
    have hsame : ∀ m ≤ k, pages limit (fun j => if j < k then order else order') m = order.take (m * limit) := by
      intro m hm
      induction m with
      | zero => simp [pages]
      | succ m ih =>
        rw [pages_succ, ih (by omega), if_pos (by omega), Nat.succ_mul, List.take_add]
    rw [hsame k le_rfl, List.drop_eq_nil_of_le (by simp), List.append_nil]
  | succ n hkn ih =>
    have hle : k * limit ≤ n * limit := Nat.mul_le_mul_right limit hkn
    rw [pages_succ, ih, if_neg (by omega), Nat.succ_mul, List.take_add, List.append_assoc,
      List.drop_append_of_le_length (by rw [List.length_take]; omega)]

/-! What a query may answer: any order of a tie. -/

open Classical in
/-- The query that answers `order` when it selects `rows`. -/
noncomputable def Arrangement.answering (h : Arranged key rows order) : Arrangement key where
  order rs := if rs = rows then order else rankBy key rs
  arranged rs := by
    split
    · rename_i heq
      exact heq ▸ h
    · exact (Arrangement.stored key).arranged rs

theorem Arrangement.answering_order (h : Arranged key rows order) : (Arrangement.answering h).order rows = order := by
  simp [Arrangement.answering]

theorem exists_arranged {t : β} {tie : List ρ} (h : tie.Perm (rows.filter fun r => key r = t)) :
    ∃ order, Arranged key rows order ∧ (order.filter fun r => key r = t) = tie := by
  have hall : (tie ++ rows.filter fun r => !decide (key r = t)).Perm rows :=
    (h.append_right _).trans (List.filter_append_perm _ rows)
  have hstable := rankBy_stable key (tie ++ rows.filter fun r => !decide (key r = t))
  refine ⟨_, ⟨hstable.perm.trans hall, hstable.descending⟩, ?_⟩
  have htie : ∀ r ∈ tie, key r = t := by
    intro r hr
    simpa using (List.mem_filter.mp (h.mem_iff.mp hr)).2
  rw [hstable.stable, List.filter_append, List.filter_filter, List.filter_eq_self.mpr (by simpa using htie)]
  simp

/-- Two different rows of a tie, one on each side of the cut, in both orders. -/
theorem exists_swapped {a b : ρ} (ha : a ∈ rows) (hb : b ∈ rows) (hkey : key a = key b) (hne : a ≠ b) {p : Nat}
    (hcut : CutsTie key rows (key a) p) : ∃ order order', Arranged key rows order ∧ Arranged key rows order' ∧
      ¬ (order.take p).Perm (order'.take p) := by
  classical
  have ha' : a ∈ rows.filter fun r => key r = key a := List.mem_filter.mpr ⟨ha, by simp⟩
  have hb' : b ∈ (rows.filter fun r => key r = key a).erase a :=
    (List.mem_erase_of_ne hne.symm).mpr (List.mem_filter.mpr ⟨hb, by simp [hkey]⟩)
  -- the tie is `a`, `b` and the rest, and `m` of the rest stand before the two
  obtain ⟨rest, hrest⟩ : ∃ rest, (a :: b :: rest).Perm (rows.filter fun r => key r = key a) :=
    ⟨_, ((List.perm_cons_erase hb').symm.cons a).trans (List.perm_cons_erase ha').symm⟩
  obtain ⟨hlo, hhi⟩ := hcut
  obtain ⟨m, hm⟩ : ∃ m, p = (rows.countP fun r => key a < key r) + (m + 1) := 
    ⟨p - (rows.countP fun r => key a < key r) - 1, by omega⟩
  have hlen : rest.length + 2 = rows.countP fun r => key r = key a := by
    rw [List.countP_eq_length_filter, ← hrest.length_eq]
    rfl
  have hfront : (rest.take m).length = m := by
    have hsum := countP_le_eq_add key rows (key a)
    rw [List.length_take]
    omega
  have hplace : ∀ c d : ρ, (c :: d :: rest).Perm (rows.filter fun r => key r = key a) →
      ∃ order, Arranged key rows order ∧ order.take p = order.filter (fun r => key a < key r) ++ (rest.take m ++ [c]) := by
    intro c d hperm
    have hmid : (rest.take m ++ c :: d :: rest.drop m).Perm (rows.filter fun r => key r = key a) := by
      apply List.Perm.trans _ hperm
      apply List.perm_middle.trans (List.Perm.cons c _)
      apply List.perm_middle.trans (List.Perm.cons d _)
      rw [List.take_append_drop]
    obtain ⟨order, horder, htie⟩ := exists_arranged hmid
    refine ⟨order, horder, ?_⟩
    rw [horder.take_tie hlo.le hhi.le, htie, hm, Nat.add_sub_cancel_left, List.take_append, hfront,
      List.take_of_length_le (by omega), Nat.add_sub_cancel_left]
    rfl
  obtain ⟨order, horder, htake⟩ := hplace a b hrest
  obtain ⟨order', horder', htake'⟩ := hplace b a ((List.Perm.swap a b rest).trans hrest)
  refine ⟨order, order', horder, horder', ?_⟩
  intro hperm
  rw [htake, htake'] at hperm
  have habove : (order.filter fun r => key a < key r).Perm (order'.filter fun r => key a < key r) :=
    (horder.perm.trans horder'.perm.symm).filter _
  have hlast := (List.perm_append_left_iff _).mp ((List.perm_append_left_iff _).mp ((habove.symm.append_right _).trans hperm))
  exact hne (List.singleton_perm_singleton.mp hlast)

/-- The pages hold every row as often as the selection does, whatever the queries answer, exactly when no page
boundary cuts a tie of different rows. -/
theorem pages_perm_iff (key : ρ → β) {limit n : Nat} (hn : rows.length ≤ n * limit) :
    (∀ queries : Nat → Arrangement key, (pages limit (fun k => (queries k).order rows) n).Perm rows) ↔
      ∀ a ∈ rows, ∀ b ∈ rows, key a = key b → a ≠ b → ∀ k, ¬ CutsTie key rows (key a) (k * limit) := by
  constructor
  · intro hpages a ha b hb hkey hne k hcut
    obtain ⟨order, order', horder, horder', hdiff⟩ := exists_swapped ha hb hkey hne hcut
    have hshort : k * limit < rows.length := lt_of_lt_of_le hcut.2 List.countP_le_length
    have hkn : k ≤ n := by
      by_contra hlt
      have hmul := Nat.mul_le_mul_right limit (Nat.le_of_not_le hlt)
      omega
    have hall := hpages fun j => if j < k then .answering horder else .answering horder'
    have horders : (fun j => (if j < k then Arrangement.answering horder else .answering horder').order rows) =
        fun j => if j < k then order else order' := by
      funext j
      split <;> rw [Arrangement.answering_order]
    have hlen := horder'.perm.length_eq
    have hwhole : order'.take (n * limit) = order' := List.take_of_length_le (by omega)
    rw [horders, pages_switch hkn (by omega), hwhole] at hall
    -- behind the cut both orders have the same rows, so they do before it
    have hsame : (order.take (k * limit) ++ order'.drop (k * limit)).Perm
        (order'.take (k * limit) ++ order'.drop (k * limit)) := by
      rw [List.take_append_drop]
      exact hall.trans horder'.perm.symm
    exact hdiff ((List.perm_append_right_iff _).mp hsame)
  · intro hcut queries
    have hlen := ((queries 0).arranged rows).perm.length_eq
    have htake := pages_perm_take ((queries 0).order rows)
      (fun j k => ((queries j).arranged rows).take_perm ((queries 0).arranged rows)
        fun a ha b hb hkey hne => hcut a ha b hb hkey hne k) n
    rw [List.take_of_length_le (by omega)] at htake
    exact htake.trans ((queries 0).arranged rows).perm

/-! Keys that differ leave one order. -/

theorem Arranged.unique {order' : List ρ} (h : Arranged key rows order) (h' : Arranged key rows order')
    (hkey : ∀ a ∈ rows, ∀ b ∈ rows, key a = key b → a = b) : order = order' := by
  apply (h.perm.trans h'.perm.symm).eq_of_pairwise ?_ h.descending h'.descending
  intro a b ha hb hab hba
  exact hkey a (h.perm.mem_iff.mp ha) b (h'.perm.mem_iff.mp hb) (le_antisymm hba hab)

theorem Arranged.filter (h : Arranged key rows order) (p : ρ → Bool) : Arranged key (rows.filter p) (order.filter p) :=
  ⟨h.perm.filter p, h.descending.filter p⟩

theorem pages_same (limit : Nat) (order : List ρ) (n : Nat) : pages limit (fun _ => order) n = order.take (n * limit) := by
  induction n with
  | zero => simp [pages]
  | succ n ih => rw [pages_succ, ih, Nat.succ_mul, List.take_add]

def pageCount (limit total : Nat) : Nat := (total + limit - 1) / limit

theorem le_pageCount {limit : Nat} (hpos : 0 < limit) (total : Nat) : total ≤ pageCount limit total * limit := by
  have hdiv := Nat.div_add_mod (total + limit - 1) limit
  have hmod := Nat.mod_lt (total + limit - 1) hpos
  rw [Nat.mul_comm] at hdiv
  rw [pageCount]
  omega

theorem pages_eq_rankBy (hkey : ∀ a ∈ rows, ∀ b ∈ rows, key a = key b → a = b) {limit n : Nat} (hn : rows.length ≤ n * limit)
    (queries : Nat → Arrangement key) : pages limit (fun k => (queries k).order rows) n = rankBy key rows := by
  have hstored := (Arrangement.stored key).arranged rows
  have horders : (fun k => (queries k).order rows) = fun _ => rankBy key rows := by
    funext k
    exact ((queries k).arranged rows).unique hstored hkey
  have hlen := hstored.perm.length_eq
  rw [horders, pages_same, List.take_of_length_le]
  exact hlen.trans_le hn

theorem mem_of_mem_pages {limit n : Nat} {queries : Nat → Arrangement key} {r : ρ}
    (h : r ∈ pages limit (fun k => (queries k).order rows) n) : r ∈ rows := by
  obtain ⟨k, -, hr⟩ := List.mem_flatMap.mp h
  exact ((queries k).arranged rows).perm.mem_iff.mp (List.mem_of_mem_drop (List.mem_of_mem_take hr))

end Framework
