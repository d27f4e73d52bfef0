import ProRag.Framework.Pool

/-!
# Locks of an event loop

`asyncio.Lock` and a table of locks that are created on first use.  The tasks of a loop run one at a time, each
from one suspension to the next, and a lock belongs to the task that entered it last.
-/

namespace Framework

/-- The future that a task suspended in `acquire` waits for. -/
inductive Future
  | pending | done | cancelled
deriving DecidableEq

/-- The flag, and the futures of the suspended tasks, oldest first, by ticket. -/
structure Lock where
  locked : Bool
  waiters : List (Nat × Future)
  tickets : Nat
deriving DecidableEq

namespace Lock

/-- `asyncio.Lock()`. -/
def new : Lock where
  locked := false
  waiters := []
  tickets := 0

/-- `acquire` up to its first suspension; a ticket is what a suspended task waits for. -/
def acquire (l : Lock) : Lock × Option Nat :=
  if !l.locked ∧ l.waiters.all (fun w => w.2 = .cancelled) then ({ l with locked := true }, none)
  else ({ l with waiters := l.waiters ++ [(l.tickets, .pending)], tickets := l.tickets + 1 }, some l.tickets)

/-- `_wake_up_first`. -/
def wakeUpFirst (l : Lock) : Lock :=
  match l.waiters with
  | (ticket, .pending) :: rest => { l with waiters := (ticket, .done) :: rest }
  | _ => l

/-- `release`; `none` is its `RuntimeError`. -/
def release (l : Lock) : Option Lock :=
  if l.locked then some (wakeUpFirst { l with locked := false }) else none

/-- `acquire` resumed after its future is done. -/
def resume (l : Lock) (ticket : Nat) : Option Lock :=
  if (ticket, .done) ∈ l.waiters then
    some { l with locked := true, waiters := l.waiters.filter fun w => w.1 ≠ ticket }
  else none

/-- The task that waits is cancelled, and with it its future. -/
def interrupt (l : Lock) (ticket : Nat) : Lock :=
  { l with waiters := l.waiters.map fun w => if w = (ticket, .pending) then (ticket, .cancelled) else w }

/-- `acquire` resumed by a `CancelledError`. -/
def abandon (l : Lock) (ticket : Nat) : Lock :=
  let left := { l with waiters := l.waiters.filter fun w => w.1 ≠ ticket }
  if left.locked then left else left.wakeUpFirst

variable {l : Lock}

theorem acquire_free (hl : l.locked = false) (hw : l.waiters = []) : l.acquire = ({ l with locked := true }, none) := by
  simp [acquire, hl, hw]

theorem release_held (hl : l.locked = true) (hw : l.waiters = []) :
    l.release = some { l with locked := false } := by
  simp [release, wakeUpFirst, hl, hw]

end Lock

/-- The locks of a `defaultdict(asyncio.Lock)`, in the order of their first use.  The reference to a lock object
is its place. -/
structure Locks (ι : Type*) where
  entries : List (ι × Lock)
  distinct : (entries.map Prod.fst).Nodup

namespace Locks

variable {ι : Type*}

def empty : Locks ι := ⟨[], List.nodup_nil⟩

def lock (t : Locks ι) (ref : Nat) : Lock := ((t.entries[ref]?).map Prod.snd).getD .new

theorem map_fst_modify (entries : List (ι × Lock)) (ref : Nat) (l : Lock) :
    (entries.modify ref fun e => (e.1, l)).map Prod.fst = entries.map Prod.fst := by
  induction entries generalizing ref with
  | nil => cases ref <;> simp
  | cons e es ih =>
    cases ref with
    | zero => simp
    | succ n => simp [ih]

def set (t : Locks ι) (ref : Nat) (l : Lock) : Locks ι where
  entries := t.entries.modify ref fun e => (e.1, l)
  distinct := by rw [map_fst_modify]; exact t.distinct

/-- `release` of the object at a reference. -/
def release (t : Locks ι) (ref : Nat) : Option (Locks ι) := ((t.lock ref).release).map (t.set ref)

theorem entry_unique (t : Locks ι) {r r' : Nat} {i : ι} {l l' : Lock} (h : t.entries[r]? = some (i, l))
    (h' : t.entries[r']? = some (i, l')) : r = r' := by
  have hr : (t.entries.map Prod.fst)[r]? = some i := by simp [h]
  have hr' : (t.entries.map Prod.fst)[r']? = some i := by simp [h']
  exact (List.getElem?_inj (List.getElem?_eq_some_iff.mp hr).1 t.distinct).mp (hr.trans hr'.symm)

theorem nodup_create {t : Locks ι} {i : ι} (h : i ∉ t.entries.map Prod.fst) :
    ((t.entries ++ [(i, Lock.new)]).map Prod.fst).Nodup := by
  rw [List.map_append, List.nodup_append]
  refine ⟨t.distinct, by simp, ?_⟩
  intro a ha b hb
  obtain rfl : b = i := by simpa using hb
  exact fun e => h (e ▸ ha)

theorem lock_eq {t : Locks ι} {ref : Nat} {i : ι} {l : Lock} (he : t.entries[ref]? = some (i, l)) : t.lock ref = l := by
  simp [lock, he]

variable [DecidableEq ι]

/-- The reference to the lock of `i`, which is created when there is none. -/
def get (t : Locks ι) (i : ι) : Nat × Locks ι :=
  if h : i ∈ t.entries.map Prod.fst then (t.entries.findIdx fun e => e.1 = i, t)
  else (t.entries.length, ⟨t.entries ++ [(i, .new)], nodup_create h⟩)

theorem getElem?_get {t : Locks ι} {ref : Nat} {e : ι × Lock} (i : ι) (h : t.entries[ref]? = some e) :
    (t.get i).2.entries[ref]? = some e := by
  unfold get
  split
  · exact h
  · have hlt : ref < t.entries.length := (List.getElem?_eq_some_iff.mp h).1
    simpa [List.getElem?_append_left hlt] using h

theorem get_entry (t : Locks ι) (i : ι) : ∃ l, (t.get i).2.entries[(t.get i).1]? = some (i, l) := by
  unfold get
  split
  · rename_i h
    obtain ⟨e, he, hi⟩ := List.mem_map.mp h
    have hlt : t.entries.findIdx (fun e => decide (e.1 = i)) < t.entries.length :=
      List.findIdx_lt_length_of_exists ⟨e, he, by simpa using hi⟩
    have hfound := @List.findIdx_getElem _ _ _ hlt
    have hkey : (t.entries[t.entries.findIdx fun e => decide (e.1 = i)]).1 = i := by simpa using hfound
    exact ⟨_, (List.getElem?_eq_getElem hlt).trans (congrArg some (Prod.ext hkey rfl))⟩
  · exact ⟨.new, by simp⟩

theorem get_of_entry {t : Locks ι} {ref : Nat} {i : ι} {l : Lock} (h : t.entries[ref]? = some (i, l)) :
    (t.get i).1 = ref ∧ (t.get i).2 = t := by
  have hmem : i ∈ t.entries.map Prod.fst := List.mem_map.mpr ⟨(i, l), List.mem_of_getElem? h, rfl⟩
  obtain ⟨l', hl'⟩ := get_entry t i
  have hsame : (t.get i).2 = t := by simp only [get, dif_pos hmem]
  exact ⟨entry_unique t (hsame ▸ hl') h, hsame⟩

end Locks

variable {ι κ : Type*} [DecidableEq ι]

/-- Who holds which lock: a task at `k` with `held k = some (i, ref)` is inside the lock of `i` at `ref`.  No task
is queued anywhere, and the flag of a lock says whether some task, and then just one, is inside. -/
structure Exclusive (held : κ → Option (ι × Nat)) (t : Locks ι) (tasks : List κ) : Prop where
  owned : ∀ k ∈ tasks, ∀ i ref, held k = some (i, ref) → ∃ l, t.entries[ref]? = some (i, l)
  counted : ∀ ref i l, t.entries[ref]? = some (i, l) →
    l.waiters = [] ∧ tasks.countP (fun k => held k = some (i, ref)) = l.locked.toNat

namespace Exclusive

variable {held : κ → Option (ι × Nat)} {t : Locks ι} {tasks : List κ} {k k' : κ} {i : ι} {ref : Nat}

theorem perm {tasks' : List κ} (hp : tasks.Perm tasks') (h : Exclusive held t tasks) :
    Exclusive held t tasks' where
  owned := fun k hk => h.owned k (hp.mem_iff.mpr hk)
  counted := fun ref i l he => by
    rw [← hp.countP_eq]
    exact h.counted ref i l he

theorem spawn (hk : held k = none) (h : Exclusive held t tasks) : Exclusive held t (k :: tasks) where
  owned := by
    intro k0 hk0 i ref hheld
    rcases List.mem_cons.mp hk0 with rfl | hk0
    · rw [hk] at hheld
      cases hheld
    · exact h.owned k0 hk0 i ref hheld
  counted := by
    intro ref i l he
    simpa [List.countP_cons, hk] using h.counted ref i l he

theorem keep (hk : held k' = held k) (h : Exclusive held t (k :: tasks)) : Exclusive held t (k' :: tasks) where
  owned := by
    intro k0 hk0 i ref hheld
    rcases List.mem_cons.mp hk0 with rfl | hk0
    · exact h.owned k (by simp) i ref (hk ▸ hheld)
    · exact h.owned k0 (List.mem_cons_of_mem _ hk0) i ref hheld
  counted := by
    intro ref i l he
    simpa [List.countP_cons, hk] using h.counted ref i l he

theorem get (h : Exclusive held t tasks) (i : ι) : Exclusive held (t.get i).2 tasks where
  owned := by
    intro k hk i' ref hheld
    obtain ⟨l, hl⟩ := h.owned k hk i' ref hheld
    exact ⟨l, Locks.getElem?_get i hl⟩
  counted := by
    intro ref i' l he
    unfold Locks.get at he
    split at he
    · exact h.counted ref i' l he
    · rcases Nat.lt_or_ge ref t.entries.length with hlt | hge
      · exact h.counted ref i' l (by simpa [List.getElem?_append_left hlt] using he)
      · -- The new lock: a task that held it would hold a lock of the table before.
        have hnew : ref = t.entries.length ∧ (i, Lock.new) = (i', l) := by
          rw [List.getElem?_append_right hge] at he
          have hlt := (List.getElem?_eq_some_iff.mp he).1
          have hzero : ref - t.entries.length = 0 := by simpa using hlt
          refine ⟨by omega, by simpa [hzero] using he⟩
        obtain ⟨rfl, hl⟩ := hnew
        obtain ⟨rfl, rfl⟩ := Prod.mk.inj hl
        refine ⟨rfl, List.countP_eq_zero.mpr fun k hk hheld => ?_⟩
        obtain ⟨l', hl'⟩ := h.owned k hk i _ (by simpa using hheld)
        simp at hl'

theorem move {l l' : Lock} (he : t.entries[ref]? = some (i, l)) (h : Exclusive held t (k :: tasks))
    (hwaiters : l'.waiters = [])
    (hcount : (k' :: tasks).countP (fun k => held k = some (i, ref)) = l'.locked.toNat)
    (hin : ∀ i0 ref0, held k' = some (i0, ref0) → (i0, ref0) = (i, ref))
    (hout : ∀ i0 ref0, held k = some (i0, ref0) → (i0, ref0) = (i, ref)) :
    Exclusive held (t.set ref l') (k' :: tasks) := by
  have hset : ∀ (ref0 : Nat) (i0 : ι) (l0 : Lock), (t.set ref l').entries[ref0]? = some (i0, l0) →
      (ref0 = ref ∧ i0 = i ∧ l0 = l') ∨ (ref0 ≠ ref ∧ t.entries[ref0]? = some (i0, l0)) := by
    intro ref0 i0 l0 h0
    by_cases hr : ref0 = ref
    · subst hr
      left
      simpa [Locks.set, List.getElem?_modify, he, eq_comm] using h0
    · right
      refine ⟨hr, ?_⟩
      simpa [Locks.set, List.getElem?_modify, Ne.symm hr] using h0
  have hkeep : ∀ (ref0 : Nat) (i0 : ι), (∃ l0 : Lock, t.entries[ref0]? = some (i0, l0)) →
      ∃ l0, (t.set ref l').entries[ref0]? = some (i0, l0) := by
    intro ref0 i0 ⟨l0, h0⟩
    by_cases hr : ref = ref0
    · exact ⟨l', by simp [Locks.set, h0, hr]⟩
    · exact ⟨l0, by simp [Locks.set, h0, hr]⟩
  constructor
  · intro k0 hk0 i0 ref0 hheld
    apply hkeep
    rcases List.mem_cons.mp hk0 with rfl | hk0
    · obtain ⟨rfl, rfl⟩ := Prod.mk.inj (hin i0 ref0 hheld)
      exact ⟨l, he⟩
    · exact h.owned k0 (List.mem_cons_of_mem _ hk0) i0 ref0 hheld
  · intro ref0 i0 l0 h0
    rcases hset ref0 i0 l0 h0 with ⟨rfl, rfl, rfl⟩ | ⟨hr, h0⟩
    · exact ⟨hwaiters, hcount⟩
    · obtain ⟨hw, hc⟩ := h.counted ref0 i0 l0 h0
      refine ⟨hw, ?_⟩
      have hk' : held k' ≠ some (i0, ref0) := fun hheld => hr (Prod.mk.inj (hin i0 ref0 hheld)).2
      have hk : held k ≠ some (i0, ref0) := fun hheld => hr (Prod.mk.inj (hout i0 ref0 hheld)).2
      simpa [List.countP_cons, hk, hk'] using hc

theorem enter {l : Lock} (k' : κ) (he : t.entries[ref]? = some (i, l)) (hfree : l.locked = false) (hk : held k = none)
    (hk' : held k' = some (i, ref)) (h : Exclusive held t (k :: tasks)) :
    ∃ l', (t.lock ref).acquire = (l', none) ∧ Exclusive held (t.set ref l') (k' :: tasks) := by
  obtain ⟨hw, hc⟩ := h.counted ref i l he
  refine ⟨{ l with locked := true }, ?_, ?_⟩
  · rw [Locks.lock_eq he]
    exact Lock.acquire_free hfree hw
  · refine h.move he hw ?_ ?_ ?_
    · have htasks : tasks.countP (fun k => held k = some (i, ref)) = 0 := by
        simpa [List.countP_cons, hk, hfree] using hc
      simp [hk', htasks]
    · intro i0 ref0 hheld
      exact Option.some.inj (hheld.symm.trans hk')
    · intro i0 ref0 hheld
      rw [hk] at hheld
      cases hheld

theorem leave (k' : κ) (hk : held k = some (i, ref)) (hk' : held k' = none) (h : Exclusive held t (k :: tasks)) :
    ∃ t', t.release ref = some t' ∧ Exclusive held t' (k' :: tasks) := by
  obtain ⟨l, he⟩ := h.owned k (by simp) i ref hk
  obtain ⟨hw, hc⟩ := h.counted ref i l he
  have hcount : tasks.countP (fun k => held k = some (i, ref)) + 1 = l.locked.toNat := by
    simpa [List.countP_cons, hk] using hc
  have hlocked : l.locked = true := by
    cases hl : l.locked with
    | true => rfl
    | false =>
      rw [hl] at hcount
      simp at hcount
  refine ⟨t.set ref { l with locked := false }, ?_, h.move he hw ?_ ?_ ?_⟩
  · simp [Locks.release, Locks.lock_eq he, Lock.release_held hlocked hw]
  · rw [hlocked] at hcount
    simpa [List.countP_cons, hk'] using hcount
  · intro i0 ref0 hheld
    rw [hk'] at hheld
    cases hheld
  · intro i0 ref0 hheld
    exact Option.some.inj (hheld.symm.trans hk)

theorem locked_of_held (hmem : k ∈ tasks) (hk : held k = some (i, ref)) (h : Exclusive held t tasks) :
    (t.lock ref).locked = true ∧ t.get i = (ref, t) := by
  obtain ⟨l, he⟩ := h.owned k hmem i ref hk
  obtain ⟨-, hc⟩ := h.counted ref i l he
  have hpos : 0 < tasks.countP fun k => held k = some (i, ref) :=
    List.countP_pos_iff.mpr ⟨k, hmem, by simpa using hk⟩
  constructor
  · rw [Locks.lock_eq he]
    cases hl : l.locked with
    | true => rfl
    | false =>
      rw [hl] at hc
      simp at hc
      exact absurd hk (hc k hmem)
  · exact Prod.ext (Locks.get_of_entry he).1 (Locks.get_of_entry he).2

theorem unique (h : Exclusive held t tasks) (i : ι) :
    tasks.countP (fun k => (held k).map Prod.fst = some i) ≤ 1 := by
  by_cases hnone : ∃ k ∈ tasks, (held k).map Prod.fst = some i
  · obtain ⟨k, hk, hfst⟩ := hnone
    obtain ⟨⟨i0, ref⟩, hheld, rfl⟩ := Option.map_eq_some_iff.mp hfst
    obtain ⟨l, he⟩ := h.owned k hk i0 ref hheld
    obtain ⟨-, hc⟩ := h.counted ref i0 l he
    have hsame : ∀ k0 ∈ tasks, ((held k0).map Prod.fst = some i0 ↔ held k0 = some (i0, ref)) := by
      intro k0 hk0
      constructor
      · intro h0
        obtain ⟨⟨i1, ref0⟩, hheld0, rfl⟩ := Option.map_eq_some_iff.mp h0
        obtain ⟨l0, he0⟩ := h.owned k0 hk0 _ _ hheld0
        rw [hheld0, Locks.entry_unique t he0 he]
      · intro h0
        rw [h0]
        rfl
    have hcongr : tasks.countP (fun k => (held k).map Prod.fst = some i0) =
        tasks.countP fun k => held k = some (i0, ref) :=
      List.countP_congr fun k0 hk0 => by simpa using hsame k0 hk0
    rw [hcongr, hc]
    exact Bool.toNat_le _
  · have hzero : tasks.countP (fun k => (held k).map Prod.fst = some i) = 0 :=
      List.countP_eq_zero.mpr fun k hk hfst => hnone ⟨k, hk, by simpa using hfst⟩
    omega

end Exclusive

end Framework
