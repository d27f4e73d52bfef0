import ProRag.Connectors.Sync
import ProRag.Framework.Asyncio

/-!
# Who runs a connector

`POST /connectors/{id}/sync` and the polling scheduler share one lock per connector.  Both look at its flag before
they enter it, and nothing runs between the look and the entry, so a run in progress is never waited for.
-/

namespace ProRag

open Framework

/-- A connector row with the column that only the scheduler reads. -/
structure ConnectorRow extends Connector where
  enabled : Bool

inductive Action
  | sweep | incremental | wait
deriving DecidableEq, Repr

def nextAction (now : Timestamp) (lastSyncAt lastFullSweepAt : Option Timestamp) (pollSeconds sweepHours : Nat) :
    Action :=
  let sweepDue := lastFullSweepAt.all fun t => sweepHours * 3600000000 ≤ now - t
  let incrementalDue := lastSyncAt.all fun t => pollSeconds * 1000000 ≤ now - t
  if sweepDue then .sweep else if incrementalDue then .incremental else .wait

/-- Where `_run_one` is suspended.  At `closing` its session closes, and then it returns or raises. -/
inductive RunPhase
  | loading
  | running (full : Bool)
  | rollingBack
  | committing
  | closing (outcome : Except PyError Unit)

/-- A task at one of its suspensions: a request of `sync_connector`, or `scheduler_loop` in `_tick` or between two
ticks. -/
inductive SyncTask
  | loading (connectorId : Uuid) (full : Bool)
  | queued (connectorId : Uuid) (full : Bool) (lock ticket : Nat)
  | syncing (connectorId : Uuid) (full : Bool) (lock : Nat)
  | answered (response : Except PyError SyncReport)
  | listing
  | tickQueued (now : Timestamp) (connectorId : Uuid) (rest : List Uuid) (lock ticket : Nat)
  | runOne (now : Timestamp) (connectorId : Uuid) (rest : List Uuid) (lock : Nat) (phase : RunPhase)
  | sleeping
  | stopped

inductive SyncCaller
  | request (connectorId : Uuid) (full : Bool)
  | scheduler

def SyncCaller.begin : SyncCaller → SyncTask
  | .request connectorId full => .loading connectorId full
  | .scheduler => .listing

/-- What ends a suspension.  `interrupted` is the cancellation of a task that is queued at a lock, before the task
itself is resumed. -/
inductive SyncMove
  | row (row : Option ConnectorRow)
  | ids (now : Timestamp) (ids : List Uuid)
  | resumed
  | returned (report : SyncReport)
  | raised (exc : PyError)
  | interrupted

def syncAlreadyRunning : PyError := httpException 409 "sync already running"

/-- `release` of a lock that is not held. -/
def lockNotAcquired : PyError := ⟨"RuntimeError", "Lock is not acquired."⟩

/-- `sync_connector` from the loaded row to its next suspension. -/
def startSync (connectorId : Uuid) (full : Bool) (locks : Locks Uuid) : Locks Uuid × SyncTask :=
  let got := locks.get connectorId
  if (got.2.lock got.1).locked then (got.2, .answered (.error syncAlreadyRunning))
  else
    match (got.2.lock got.1).acquire with
    | (l, none) => (got.2.set got.1 l, .syncing connectorId full got.1)
    | (l, some ticket) => (got.2.set got.1 l, .queued connectorId full got.1 ticket)

/-- `sync_connector` when its run has ended. -/
def finishSync (locks : Locks Uuid) (lock : Nat) (response : Except PyError SyncReport) : Locks Uuid × SyncTask :=
  match locks.release lock with
  | some locks => (locks, .answered response)
  | none => (locks, .answered (.error lockNotAcquired))

/-- The loop of `_tick` over the connectors left, to its next suspension. -/
def tickFrom (now : Timestamp) : List Uuid → Locks Uuid → Locks Uuid × SyncTask
  | [], locks => (locks, .sleeping)
  | connectorId :: rest, locks =>
    let got := locks.get connectorId
    if (got.2.lock got.1).locked then tickFrom now rest got.2
    else
      match (got.2.lock got.1).acquire with
      | (l, none) => (got.2.set got.1 l, .runOne now connectorId rest got.1 .loading)
      | (l, some ticket) => (got.2.set got.1 l, .tickQueued now connectorId rest got.1 ticket)

/-- `scheduler_loop` after a tick that raised. -/
def tickRaised (exc : PyError) : SyncTask :=
  if exc.isException then .sleeping else .stopped

/-- `_tick` when `_run_one` is through. -/
def finishRun (now : Timestamp) (rest : List Uuid) (locks : Locks Uuid) (lock : Nat) (outcome : Except PyError Unit) :
    Locks Uuid × SyncTask :=
  match locks.release lock, outcome with
  | some locks, .ok () => tickFrom now rest locks
  | some locks, .error exc => (locks, tickRaised exc)
  | none, _ => (locks, tickRaised lockNotAcquired)

/-- `_run_one` with the row it loaded. -/
def runLoaded (settings : Settings) (now : Timestamp) : Option ConnectorRow → RunPhase
  | none => .closing (.ok ())
  | some row =>
    if row.enabled then
      match nextAction now row.lastSyncAt row.lastFullSweepAt settings.connectorPollSeconds
        settings.connectorSweepHours with
      | .wait => .closing (.ok ())
      | .sweep => .running true
      | .incremental => .running false
    else .closing (.ok ())

/-- `_run_one` up to the suspension in which its session closes. -/
def runStep (settings : Settings) (now : Timestamp) : RunPhase → SyncMove → Option RunPhase
  | .loading, .row row => some (runLoaded settings now row)
  | .loading, .raised exc => some (.closing (.error exc))
  | .running full, .resumed => some (.running full)
  | .running _, .returned _ => some .committing
  | .running _, .raised exc => some (if exc.isException then .rollingBack else .closing (.error exc))
  | .rollingBack, .resumed => some .committing
  | .rollingBack, .raised exc => some (.closing (.error exc))
  | .committing, .resumed => some (.closing (.ok ()))
  | .committing, .raised exc => some (.closing (.error exc))
  | _, _ => none

/-- A task from one suspension to the next.  `isValueError` is what `except ValueError` catches. -/
def syncAct (settings : Settings) (isValueError : PyError → Bool) (locks : Locks Uuid) (_others : List SyncTask) :
    SyncTask → SyncMove → Option (Locks Uuid × SyncTask)
  | .loading _ _, .row none => some (locks, .answered (.error (httpException 404 "connector not found")))
  | .loading connectorId full, .row (some _) => some (startSync connectorId full locks)
  | .loading _ _, .raised exc => some (locks, .answered (.error exc))
  | .queued connectorId full lock ticket, .resumed =>
    ((locks.lock lock).resume ticket).map fun l => (locks.set lock l, .syncing connectorId full lock)
  | .queued connectorId full lock ticket, .interrupted =>
    some (locks.set lock ((locks.lock lock).interrupt ticket), .queued connectorId full lock ticket)
  | .queued _ _ lock ticket, .raised exc =>
    some (locks.set lock ((locks.lock lock).abandon ticket), .answered (.error exc))
  | .syncing connectorId full lock, .resumed => some (locks, .syncing connectorId full lock)
  | .syncing _ _ lock, .returned report => some (finishSync locks lock (.ok report))
  | .syncing _ _ lock, .raised exc =>
    some (finishSync locks lock (.error (if isValueError exc then httpException 400 exc.text else exc)))
  | .listing, .ids now ids => some (tickFrom now ids locks)
  | .listing, .raised exc => some (locks, tickRaised exc)
  | .tickQueued now connectorId rest lock ticket, .resumed =>
    ((locks.lock lock).resume ticket).map fun l => (locks.set lock l, .runOne now connectorId rest lock .loading)
  | .tickQueued now connectorId rest lock ticket, .interrupted =>
    some (locks.set lock ((locks.lock lock).interrupt ticket), .tickQueued now connectorId rest lock ticket)
  | .tickQueued _ _ _ lock ticket, .raised exc =>
    some (locks.set lock ((locks.lock lock).abandon ticket), tickRaised exc)
  | .runOne now _ rest lock (.closing outcome), .resumed => some (finishRun now rest locks lock outcome)
  | .runOne now _ rest lock (.closing _), .raised exc => some (finishRun now rest locks lock (.error exc))
  | .runOne now connectorId rest lock phase, move =>
    (runStep settings now phase move).map fun next => (locks, .runOne now connectorId rest lock next)
  | .sleeping, .resumed => some (locks, .listing)
  | .sleeping, .raised _ => some (locks, .stopped)
  | _, _ => none

/-- The process starts with an empty table and no tasks. -/
def SyncStart (s : Pool (Locks Uuid) SyncTask) : Prop := s.shared = .empty ∧ s.procs = []

/-- Inside `sync_incremental` or `full_sweep` of a connector. -/
def SyncTask.executing : SyncTask → Option Uuid
  | .syncing connectorId _ _ => some connectorId
  | .runOne _ connectorId _ _ (.running _) => some connectorId
  | _ => none

/-- Suspended in `acquire`. -/
def SyncTask.waits : SyncTask → Bool
  | .queued _ _ _ _ => true
  | .tickQueued _ _ _ _ _ => true
  | _ => false

/-- The lock that a task is inside, and whose it is. -/
def SyncTask.held : SyncTask → Option (Uuid × Nat)
  | .syncing connectorId _ lock => some (connectorId, lock)
  | .runOne _ connectorId _ lock _ => some (connectorId, lock)
  | _ => none

/-- The tasks use the locks as they should, and none is suspended in `acquire`. -/
structure SyncInv (locks : Locks Uuid) (tasks : List SyncTask) : Prop where
  exclusive : Exclusive SyncTask.held locks tasks
  prompt : ∀ k ∈ tasks, k.waits = false

variable {locks : Locks Uuid} {others : List SyncTask} {k : SyncTask}

theorem SyncTask.held_executing {c : Uuid} (h : k.executing = some c) : ∃ ref, k.held = some (c, ref) := by
  cases k with
  | syncing connectorId full lock =>
    obtain rfl : connectorId = c := by simpa [SyncTask.executing] using h
    exact ⟨lock, rfl⟩
  | runOne now connectorId rest lock phase =>
    cases phase with
    | running full =>
      obtain rfl : connectorId = c := by simpa [SyncTask.executing] using h
      exact ⟨lock, rfl⟩
    | _ => simp [SyncTask.executing] at h
  | _ => simp [SyncTask.executing] at h

theorem SyncInv.keep {k' : SyncTask} (h : SyncInv locks (k :: others)) (hheld : k'.held = k.held)
    (hwaits : k'.waits = false) : SyncInv locks (k' :: others) where
  exclusive := h.exclusive.keep hheld
  prompt := by
    intro k0 hk0
    rcases List.mem_cons.mp hk0 with rfl | hk0
    · exact hwaits
    · exact h.prompt k0 (List.mem_cons_of_mem _ hk0)

theorem SyncInv.of_exclusive {locks' : Locks Uuid} {k' : SyncTask} (h : SyncInv locks (k :: others))
    (hexclusive : Exclusive SyncTask.held locks' (k' :: others)) (hwaits : k'.waits = false) :
    SyncInv locks' (k' :: others) where
  exclusive := hexclusive
  prompt := by
    intro k0 hk0
    rcases List.mem_cons.mp hk0 with rfl | hk0
    · exact hwaits
    · exact h.prompt k0 (List.mem_cons_of_mem _ hk0)

theorem startSync_inv (c : Uuid) (full : Bool) (h : SyncInv locks (k :: others)) (hk : k.held = none) :
    SyncInv (startSync c full locks).1 ((startSync c full locks).2 :: others) := by
  have hgot := h.exclusive.get c
  obtain ⟨l, he⟩ := Locks.get_entry locks c
  unfold startSync
  dsimp only
  split
  · exact h.of_exclusive (hgot.keep hk.symm) rfl
  · rename_i hfree
    rw [Locks.lock_eq he] at hfree
    obtain ⟨l', hacquire, hin⟩ := hgot.enter (.syncing c full (locks.get c).1) he (by simpa using hfree) hk rfl
    rw [hacquire]
    exact h.of_exclusive hin rfl

theorem tickFrom_inv (now : Timestamp) (ids : List Uuid) (h : SyncInv locks (k :: others)) (hk : k.held = none) :
    SyncInv (tickFrom now ids locks).1 ((tickFrom now ids locks).2 :: others) := by
  induction ids generalizing locks with
  | nil => exact h.keep hk.symm rfl
  | cons c rest ih =>
    have hgot := h.exclusive.get c
    obtain ⟨l, he⟩ := Locks.get_entry locks c
    unfold tickFrom
    dsimp only
    split
    · exact ih ⟨hgot, h.prompt⟩
    · rename_i hfree
      rw [Locks.lock_eq he] at hfree
      obtain ⟨l', hacquire, hin⟩ := hgot.enter (.runOne now c rest (locks.get c).1 .loading) he
        (by simpa using hfree) hk rfl
      rw [hacquire]
      exact h.of_exclusive hin rfl

theorem tickRaised_inv (exc : PyError) (h : SyncInv locks (k :: others)) (hk : k.held = none) :
    SyncInv locks (tickRaised exc :: others) := by
  unfold tickRaised
  split
  · exact h.keep hk.symm rfl
  · exact h.keep hk.symm rfl

theorem finishSync_inv {c : Uuid} {ref : Nat} (response : Except PyError SyncReport)
    (h : SyncInv locks (k :: others)) (hk : k.held = some (c, ref)) :
    SyncInv (finishSync locks ref response).1 ((finishSync locks ref response).2 :: others) := by
  obtain ⟨locks', hrelease, hout⟩ := h.exclusive.leave (.answered response) hk rfl
  simp only [finishSync, hrelease]
  exact h.of_exclusive hout rfl

theorem finishRun_inv {c : Uuid} {ref : Nat} (now : Timestamp) (rest : List Uuid) (outcome : Except PyError Unit)
    (h : SyncInv locks (k :: others)) (hk : k.held = some (c, ref)) :
    SyncInv (finishRun now rest locks ref outcome).1 ((finishRun now rest locks ref outcome).2 :: others) := by
  obtain ⟨locks', hrelease, hout⟩ := h.exclusive.leave .sleeping hk rfl
  have hleft : SyncInv locks' (.sleeping :: others) := h.of_exclusive hout rfl
  cases outcome with
  | ok u =>
    simp only [finishRun, hrelease]
    exact tickFrom_inv now rest hleft rfl
  | error exc =>
    simp only [finishRun, hrelease]
    exact tickRaised_inv exc hleft rfl

section

variable (settings : Settings) (isValueError : PyError → Bool)

theorem runOne_inv {now : Timestamp} {c : Uuid} {rest : List Uuid} {ref : Nat} {phase : RunPhase} {move : SyncMove}
    {locks' : Locks Uuid} {k' : SyncTask} (h : SyncInv locks (.runOne now c rest ref phase :: others))
    (hs : syncAct settings isValueError locks others (.runOne now c rest ref phase) move = some (locks', k')) :
    SyncInv locks' (k' :: others) := by
  have hwithin : ∀ {next : Option RunPhase}, next.map (fun p => (locks, SyncTask.runOne now c rest ref p)) =
      some (locks', k') → SyncInv locks' (k' :: others) := by
    intro next hnext
    obtain ⟨p, -, hp⟩ := Option.map_eq_some_iff.mp hnext
    obtain ⟨rfl, rfl⟩ := Prod.mk.inj hp
    exact h.keep rfl rfl
  cases phase with
  | closing outcome =>
    cases move with
    | resumed =>
      obtain ⟨rfl, rfl⟩ := Prod.mk.inj (Option.some.inj hs)
      exact finishRun_inv now rest outcome h rfl
    | raised exc =>
      obtain ⟨rfl, rfl⟩ := Prod.mk.inj (Option.some.inj hs)
      exact finishRun_inv now rest (.error exc) h rfl
    | _ => cases hs
  | _ => exact hwithin hs

theorem syncAct_inv {move : SyncMove} {locks' : Locks Uuid} {k' : SyncTask} (h : SyncInv locks (k :: others))
    (hs : syncAct settings isValueError locks others k move = some (locks', k')) : SyncInv locks' (k' :: others) := by
  have hprompt : k.waits = false := h.prompt k (by simp)
  cases k with
  | loading c full =>
    cases move with
    | row row =>
      cases row with
      | none =>
        obtain ⟨rfl, rfl⟩ := Prod.mk.inj (Option.some.inj hs)
        exact h.keep rfl rfl
      | some row =>
        obtain ⟨rfl, rfl⟩ := Prod.mk.inj (Option.some.inj hs)
        exact startSync_inv c full h rfl
    | raised exc =>
      obtain ⟨rfl, rfl⟩ := Prod.mk.inj (Option.some.inj hs)
      exact h.keep rfl rfl
    | _ => cases hs
  | queued c full ref ticket => cases hprompt
  | syncing c full ref =>
    cases move with
    | resumed =>
      obtain ⟨rfl, rfl⟩ := Prod.mk.inj (Option.some.inj hs)
      exact h.keep rfl rfl
    | returned report =>
      obtain ⟨rfl, rfl⟩ := Prod.mk.inj (Option.some.inj hs)
      exact finishSync_inv (.ok report) h rfl
    | raised exc =>
      obtain ⟨rfl, rfl⟩ := Prod.mk.inj (Option.some.inj hs)
      exact finishSync_inv _ h rfl
    | _ => cases hs
  | answered response => cases move <;> cases hs
  | listing =>
    cases move with
    | ids now ids =>
      obtain ⟨rfl, rfl⟩ := Prod.mk.inj (Option.some.inj hs)
      exact tickFrom_inv now ids h rfl
    | raised exc =>
      obtain ⟨rfl, rfl⟩ := Prod.mk.inj (Option.some.inj hs)
      exact tickRaised_inv exc h rfl
    | _ => cases hs
  | tickQueued now c rest ref ticket => cases hprompt
  | runOne now c rest ref phase => exact runOne_inv settings isValueError h hs
  | sleeping =>
    cases move with
    | resumed =>
      obtain ⟨rfl, rfl⟩ := Prod.mk.inj (Option.some.inj hs)
      exact h.keep rfl rfl
    | raised exc =>
      obtain ⟨rfl, rfl⟩ := Prod.mk.inj (Option.some.inj hs)
      exact h.keep rfl rfl
    | _ => cases hs
  | stopped => cases move <;> cases hs

def SyncReaches (s : Pool (Locks Uuid) SyncTask) : Prop :=
  Reaches (poolStep SyncCaller.begin (syncAct settings isValueError)) unguarded SyncStart s

theorem syncReaches_inv {s : Pool (Locks Uuid) SyncTask} (h : SyncReaches settings isValueError s) :
    SyncInv s.shared s.procs := by
  have hguarded : Reaches (poolStep SyncCaller.begin (syncAct settings isValueError))
      (poolGuard fun _ _ _ _ => True) SyncStart s := h.mono (fun _ hs => hs) fun s op _ => by
    cases op with
    | spawn caller => trivial
    | move pid move => exact fun _ _ => trivial
  apply Reaches.poolAll _ _ _ _ hguarded
  · intro locks tasks tasks' hperm hinv
    exact ⟨hinv.exclusive.perm hperm, fun k hk => hinv.prompt k (hperm.mem_iff.mpr hk)⟩
  · rintro ⟨locks, tasks⟩ ⟨rfl, rfl⟩
    refine ⟨⟨by simp, ?_⟩, by simp⟩
    intro ref c l he
    simp [Locks.empty] at he
  · intro locks tasks caller hinv
    have hbegin : caller.begin.held = none ∧ caller.begin.waits = false := by cases caller <;> exact ⟨rfl, rfl⟩
    refine ⟨hinv.exclusive.spawn hbegin.1, ?_⟩
    intro k hk
    rcases List.mem_cons.mp hk with rfl | hk
    · exact hbegin.2
    · exact hinv.prompt k hk
  · intro locks others k move locks' k' hinv _ hs
    exact syncAct_inv settings isValueError hinv hs

theorem startSync_busy {c : Uuid} {ref : Nat} (full : Bool) {tasks : List SyncTask} (h : SyncInv locks tasks)
    (hmem : k ∈ tasks) (hk : k.held = some (c, ref)) :
    startSync c full locks = (locks, .answered (.error syncAlreadyRunning)) := by
  obtain ⟨hlocked, hget⟩ := h.exclusive.locked_of_held hmem hk
  simp [startSync, hget, hlocked]

theorem tickFrom_busy {c : Uuid} {ref : Nat} (now : Timestamp) (rest : List Uuid) {tasks : List SyncTask}
    (h : SyncInv locks tasks) (hmem : k ∈ tasks) (hk : k.held = some (c, ref)) :
    tickFrom now (c :: rest) locks = tickFrom now rest locks := by
  obtain ⟨hlocked, hget⟩ := h.exclusive.locked_of_held hmem hk
  simp [tickFrom, hget, hlocked]

theorem finishRun_busy {c c0 : Uuid} {ref ref0 : Nat} {now now0 : Timestamp} {rest rest0 : List Uuid}
    {phase : RunPhase} (h : SyncInv locks (.runOne now0 c0 rest0 ref0 phase :: others)) (hmem : k ∈ others)
    (hk : k.held = some (c, ref)) :
    finishRun now (c :: rest) locks ref0 (.ok ()) = finishRun now rest locks ref0 (.ok ()) := by
  have hheld : (SyncTask.runOne now0 c0 rest0 ref0 phase).held = some (c0, ref0) := rfl
  obtain ⟨locks', hrelease, hout⟩ := h.exclusive.leave .sleeping hheld rfl
  have hleft : SyncInv locks' (.sleeping :: others) := h.of_exclusive hout rfl
  simp only [finishRun, hrelease]
  exact tickFrom_busy now rest hleft (List.mem_cons_of_mem _ hmem) hk

theorem syncAlone {s : Pool (Locks Uuid) SyncTask} (h : SyncReaches settings isValueError s) (c : Uuid) :
    s.procs.countP (fun k => k.executing = some c) ≤ 1 := by
  have hinv := syncReaches_inv settings isValueError h
  calc s.procs.countP (fun k => k.executing = some c)
      ≤ s.procs.countP (fun k => (k.held).map Prod.fst = some c) := by
        apply List.countP_mono_left
        intro k _ hk
        obtain ⟨ref, href⟩ := SyncTask.held_executing (by simpa using hk)
        simp [href]
    _ ≤ 1 := hinv.exclusive.unique c

/-- In every state reached by any number of requests and schedulers: no connector has two runs in progress, no task
is suspended at a lock, and while a run is in progress a request for its connector is answered 409 and a tick goes
on as if the connector was not listed. -/
theorem sync_mutual_exclusion {s : Pool (Locks Uuid) SyncTask} (h : SyncReaches settings isValueError s) :
    (∀ c, s.procs.countP (fun k => k.executing = some c) ≤ 1) ∧ (∀ k ∈ s.procs, k.waits = false) ∧
    ∀ k ∈ s.procs, ∀ c, k.executing = some c → ∀ pid now rest,
      (∀ full row, s.procs[pid]? = some (.loading c full) →
        poolStep SyncCaller.begin (syncAct settings isValueError) s (.move pid (.row (some row))) =
          some ⟨s.shared, s.procs.set pid (.answered (.error syncAlreadyRunning))⟩) ∧
      (s.procs[pid]? = some .listing →
        poolStep SyncCaller.begin (syncAct settings isValueError) s (.move pid (.ids now (c :: rest))) =
          poolStep SyncCaller.begin (syncAct settings isValueError) s (.move pid (.ids now rest))) ∧
      ∀ c0 ref0, s.procs[pid]? = some (.runOne now c0 (c :: rest) ref0 (.closing (.ok ()))) →
        poolStep SyncCaller.begin (syncAct settings isValueError) s (.move pid .resumed) =
          some ⟨(finishRun now rest s.shared ref0 (.ok ())).1,
            s.procs.set pid (finishRun now rest s.shared ref0 (.ok ())).2⟩ := by
  have hinv := syncReaches_inv settings isValueError h
  refine ⟨syncAlone settings isValueError h, hinv.prompt, ?_⟩
  intro k hmem c hexec pid now rest
  obtain ⟨ref, hheld⟩ := SyncTask.held_executing hexec
  refine ⟨?_, ?_, ?_⟩
  · intro full row hpid
    simp [poolStep, hpid, syncAct, startSync_busy full hinv hmem hheld]
  · intro hpid
    simp [poolStep, hpid, syncAct, tickFrom_busy now rest hinv hmem hheld]
  · intro c0 ref0 hpid
    have hperm := perm_cons_eraseIdx hpid
    have hother : k ∈ s.procs.eraseIdx pid := by
      rcases List.mem_cons.mp (hperm.mem_iff.mp hmem) with rfl | hmem
      · cases hexec
      · exact hmem
    have hfront : SyncInv s.shared (_ :: s.procs.eraseIdx pid) :=
      ⟨hinv.exclusive.perm hperm, fun k hk => hinv.prompt k (hperm.mem_iff.mpr hk)⟩
    simp [poolStep, hpid, syncAct, finishRun_busy hfront hother hheld]

end

/-- A request whose run is in progress, a second request for the same connector and a scheduler at its listing. -/
def overlap : Pool (Locks Uuid) SyncTask where
  shared := ⟨[(7, ⟨true, [], 0⟩)], by decide⟩
  procs := [.syncing 7 false 0, .loading 7 true, .listing]

def overlapRow : ConnectorRow := ⟨⟨7, "default", none, none⟩, true⟩

theorem overlap_reached : SyncReaches {} (fun _ => false) overlap := by
  have hrun : runSteps (poolStep SyncCaller.begin (syncAct {} fun _ => false)) ⟨.empty, []⟩
      [.spawn (.request 7 false), .spawn (.request 7 true), .spawn .scheduler, .move 0 (.row (some overlapRow))] =
      some overlap := rfl
  exact reaches_of_runSteps ⟨rfl, rfl⟩ hrun

theorem sync_mutual_exclusion_overlap :
    (∀ c, overlap.procs.countP (fun k => k.executing = some c) ≤ 1) ∧
    poolStep SyncCaller.begin (syncAct {} fun _ => false) overlap (.move 1 (.row (some overlapRow))) =
      some ⟨overlap.shared, overlap.procs.set 1 (.answered (.error syncAlreadyRunning))⟩ := by
  obtain ⟨hone, -, hbusy⟩ := sync_mutual_exclusion {} (fun _ => false) overlap_reached
  exact ⟨hone, (hbusy (.syncing 7 false 0) (by simp [overlap]) 7 rfl 1 0 []).1 true overlapRow rfl⟩

end ProRag
