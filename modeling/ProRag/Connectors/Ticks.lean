import ProRag.Connectors.Scheduler
import ProRag.Framework.Runs

/-!
# The ticks of the scheduler

`_tick` and `_run_one` with the connector rows they read and write, while the handlers of the connector routes
create, change and delete rows and hold locks.
-/

namespace ProRag

open Framework

/-- A connector row with the column in which the scheduler records a failure. -/
structure ScheduledRow extends ConnectorRow where
  lastError : Option String

/-- How a tick has dealt with a connector it lists; `held` are the locks that were held by others. -/
inductive Visit
  | ran (connectorId : Uuid)
  | skipped (connectorId : Uuid) (held : List Uuid)
deriving DecidableEq

def Visit.connectorId : Visit → Uuid
  | ran c => c
  | skipped c _ => c

/-- Where `_run_one` is suspended.  At `clearing` the `UPDATE` of `last_error` is due when the column changes; at
`closing` the session closes, and then the call returns or raises. -/
inductive RunOne
  | loading
  | running (full : Bool) (row : ScheduledRow)
  | rollingBack (exc : PyError)
  | recording (text : String)
  | clearing (changed : Bool)
  | closing (outcome : Except PyError Unit)

/-- Where `scheduler_loop` is suspended: in the listing of `_tick`, in the run of a connector with those still to
come, or behind the tick. -/
inductive TickPhase
  | listing
  | runOne (now : Timestamp) (connectorId : Uuid) (rest : List Uuid) (phase : RunOne)
  | finished (outcome : Except PyError Unit)

/-- The rows, the locks that manual syncs hold, the loop, and what the tick has listed and visited. -/
structure TickState where
  rows : List ScheduledRow
  held : List Uuid
  phase : TickPhase
  listed : List Uuid
  visits : List Visit

/-- What ends a suspension of the loop, and the commits of the other handlers.  A run that returns may have rolled
its session back, after which no column of the row is loaded any more. -/
inductive TickMove
  | ids (now : Timestamp) (ids : List Uuid)
  | answered
  | failed (exc : PyError)
  | suspended
  | returned (syncedAt sweptAt : Timestamp) (rolledBack : Bool)
  | raised (exc : PyError)
  | slept
  | createConnector (row : ScheduledRow)
  | updateConnector (connectorId : Uuid) (enabled : Bool)
  | deleteConnector (connectorId : Uuid)
  | lockTaken (connectorId : Uuid)
  | lockReleased (connectorId : Uuid)

/-- A flush that finds the row gone.  An instance that a rollback has expired is loaded again first. -/
def connectorGone (expired : Bool) : PyError :=
  if expired then ⟨"ObjectDeletedError", "Instance has been deleted, or its row is otherwise not present."⟩
  else ⟨"StaleDataError", "UPDATE statement on table 'connectors' expected to update 1 row(s); 0 were matched."⟩

def rowPresent (connectorId : Uuid) (rows : List ScheduledRow) : Bool := rows.any fun r => r.id = connectorId

def updateConnectorRow (connectorId : Uuid) (f : ScheduledRow → ScheduledRow) (rows : List ScheduledRow) :
    List ScheduledRow :=
  updateWhere (fun r => r.id = connectorId) f rows

/-- `_run_one` with the row it has loaded. -/
def startRun (settings : Settings) (now : Timestamp) : Option ScheduledRow → RunOne
  | none => .closing (.ok ())
  | some row =>
    if row.enabled then
      match nextAction now row.lastSyncAt row.lastFullSweepAt settings.connectorPollSeconds
        settings.connectorSweepHours with
      | .wait => .closing (.ok ())
      | .sweep => .running true row
      | .incremental => .running false row
    else .closing (.ok ())

/-- `_run_one` up to the suspension in which its session closes. -/
def runOneStep (settings : Settings) (now : Timestamp) (connectorId : Uuid) (rows : List ScheduledRow) :
    RunOne → TickMove → Option (List ScheduledRow × RunOne)
  | .loading, .answered => some (rows, startRun settings now (selectOne (fun r => r.id) connectorId rows))
  | .loading, .failed exc => some (rows, .closing (.error exc))
  | .running full row, .suspended => some (rows, .running full row)
  -- the run ends with a commit of its timestamps
  | .running full row, .returned syncedAt sweptAt rolledBack =>
    if rowPresent connectorId rows then
      some (updateConnectorRow connectorId (fun r => { r with
          lastSyncAt := some syncedAt
          lastFullSweepAt := if full then some sweptAt else r.lastFullSweepAt }) rows,
        .clearing (rolledBack || row.lastError.isSome))
    else some (rows, .rollingBack (connectorGone rolledBack))
  | .running _ _, .raised exc => some (rows, if exc.isException then .rollingBack exc else .closing (.error exc))
  | .rollingBack exc, .answered => some (rows, .recording exc.text)
  | .rollingBack _, .failed exc => some (rows, .closing (.error exc))
  | .recording text, .answered =>
    if pgText text = false then
      some (rows, .closing (.error ⟨"DBAPIError", "invalid byte sequence for encoding UTF8: 0x00"⟩))
    else if rowPresent connectorId rows then
      some (updateConnectorRow connectorId (fun r => { r with lastError := some text }) rows, .closing (.ok ()))
    else some (rows, .closing (.error (connectorGone true)))
  | .recording _, .failed exc => some (rows, .closing (.error exc))
  | .clearing changed, .answered =>
    if changed = false then some (rows, .closing (.ok ()))
    else if rowPresent connectorId rows then
      some (updateConnectorRow connectorId (fun r => { r with lastError := none }) rows, .closing (.ok ()))
    else some (rows, .closing (.error (connectorGone false)))
  | .clearing _, .failed exc => some (rows, .closing (.error exc))
  | _, _ => none

/-- The loop of `_tick` over the connectors left, to its next suspension: what it visits, and where it is then. -/
def visitNext (now : Timestamp) (held : List Uuid) : List Uuid → List Visit × TickPhase
  | [] => ([], .finished (.ok ()))
  | c :: rest =>
    if c ∈ held then (.skipped c held :: (visitNext now held rest).1, (visitNext now held rest).2)
    else ([.ran c], .runOne now c rest .loading)

def TickState.goOn (s : TickState) (now : Timestamp) (rest : List Uuid) : TickState :=
  { s with phase := (visitNext now s.held rest).2, visits := s.visits ++ (visitNext now s.held rest).1 }

/-- `_tick` when `_run_one` is through. -/
def TickState.leave (s : TickState) (now : Timestamp) (rest : List Uuid) : Except PyError Unit → TickState
  | .ok () => s.goOn now rest
  | .error exc => { s with phase := .finished (.error exc) }

def loopStep (settings : Settings) (s : TickState) (m : TickMove) : Option TickState :=
  match s.phase with
  | .listing =>
    match m with
    | .ids now ids =>
      if ids.Perm ((s.rows.filter fun r => r.enabled).map fun r => r.id) then
        some ({ s with listed := ids }.goOn now ids)
      else none
    | .failed exc => some { s with phase := .finished (.error exc) }
    | _ => none
  | .runOne now _ rest (.closing outcome) =>
    match m with
    | .answered => some (s.leave now rest outcome)
    | .failed exc => some (s.leave now rest (.error exc))
    | _ => none
  | .runOne now c rest phase =>
    (runOneStep settings now c s.rows phase m).map fun next => { s with rows := next.1, phase := .runOne now c rest next.2 }
  -- the next tick; only an `Exception` is logged and forgotten
  | .finished outcome =>
    match m, outcome with
    | .slept, .ok () => some { s with phase := .listing, listed := [], visits := [] }
    | .slept, .error exc => if exc.isException then some { s with phase := .listing, listed := [], visits := [] } else none
    | _, _ => none

def tickStep (settings : Settings) (s : TickState) : TickMove → Option TickState
  | .createConnector row => if rowPresent row.id s.rows then none else some { s with rows := s.rows ++ [row] }
  | .updateConnector c enabled =>
    some { s with rows := updateConnectorRow c (fun r => { r with enabled := enabled }) s.rows }
  | .deleteConnector c => some { s with rows := deleteWhere (fun r => r.id = c) s.rows }
  | .lockTaken c => if c ∈ s.held then none else some { s with held := s.held ++ [c] }
  | .lockReleased c => some { s with held := s.held.erase c }
  | m => loopStep settings s m

/-- The loop starts with its first tick, over any rows and locks. -/
def TickStart (s : TickState) : Prop := s.phase = .listing ∧ s.listed = [] ∧ s.visits = []

/-- Every connector that a tick lists is run, or skipped because its lock is held. -/
structure TickIsolated (s : TickState) : Prop where
  onward : ∀ now c rest phase, s.phase = .runOne now c rest phase → s.visits.map Visit.connectorId ++ rest = s.listed
  whole : ∀ outcome, s.phase = .finished outcome → s.visits.map Visit.connectorId = s.listed
  skips : ∀ c held, Visit.skipped c held ∈ s.visits → c ∈ held

/-- A step of `_run_one` that does not make it raise. -/
def RunContained (connectorId : Uuid) (rows : List ScheduledRow) : RunOne → TickMove → Prop
  | _, .failed _ => False
  | .running _ _, .raised exc => exc.isException = true
  | .recording text, .answered => pgText text = true ∧ rowPresent connectorId rows = true
  | .clearing changed, .answered => changed = false ∨ rowPresent connectorId rows = true
  | _, _ => True

instance (connectorId : Uuid) (rows : List ScheduledRow) (phase : RunOne) (m : TickMove) :
    Decidable (RunContained connectorId rows phase m) := by
  cases phase <;> cases m <;> simp only [RunContained] <;> infer_instance

/-- While connectors are still to come, the run in progress is not made to raise. -/
def TickPhase.Contained (rows : List ScheduledRow) (m : TickMove) : TickPhase → Prop
  | .runOne _ c rest phase => rest = [] ∨ RunContained c rows phase m
  | _ => True

instance (rows : List ScheduledRow) (m : TickMove) : (phase : TickPhase) → Decidable (phase.Contained rows m)
  | .runOne _ c rest phase => inferInstanceAs (Decidable (rest = [] ∨ RunContained c rows phase m))
  | .listing => isTrue trivial
  | .finished _ => isTrue trivial

def Contained (s : TickState) (m : TickMove) : Prop := s.phase.Contained s.rows m

instance (s : TickState) (m : TickMove) : Decidable (Contained s m) :=
  inferInstanceAs (Decidable (s.phase.Contained s.rows m))

/-- The connectors that are listed and not visited yet. -/
def TickPhase.rest : TickPhase → List Uuid
  | .runOne _ _ rest _ => rest
  | _ => []

/-- A run that is about to raise has no connector behind it. -/
structure TickInv (s : TickState) : Prop where
  account : s.visits.map Visit.connectorId ++ s.phase.rest = s.listed
  skips : ∀ c held, Visit.skipped c held ∈ s.visits → c ∈ held
  last : ∀ now c rest exc, s.phase = .runOne now c rest (.closing (.error exc)) → rest = []
  unlisted : s.phase = .listing → s.visits = []

variable {settings : Settings} {s s' : TickState} {m : TickMove}

theorem TickInv.isolated (h : TickInv s) : TickIsolated s where
  onward := by
    intro now c rest phase hphase
    have haccount := h.account
    rwa [hphase] at haccount
  whole := by
    intro outcome hphase
    simpa [hphase, TickPhase.rest] using h.account
  skips := h.skips

theorem TickInv.frame (h : TickInv s) (hphase : s'.phase = s.phase) (hlisted : s'.listed = s.listed)
    (hvisits : s'.visits = s.visits) : TickInv s' where
  account := by
    rw [hphase, hlisted, hvisits]
    exact h.account
  skips := by
    rw [hvisits]
    exact h.skips
  last := by
    rw [hphase]
    exact h.last
  unlisted := by
    rw [hphase, hvisits]
    exact h.unlisted

/-- One pass of the loop accounts for every connector left. -/
theorem visitNext_account (now : Timestamp) (held ids : List Uuid) :
    (visitNext now held ids).1.map Visit.connectorId ++ (visitNext now held ids).2.rest = ids := by
  induction ids with
  | nil => rfl
  | cons c ids ih =>
    rw [visitNext]
    split
    · simp [Visit.connectorId, ih]
    · simp [Visit.connectorId, TickPhase.rest]

theorem visitNext_skips (now : Timestamp) (held ids : List Uuid) {c : Uuid} {locks : List Uuid}
    (h : Visit.skipped c locks ∈ (visitNext now held ids).1) : c ∈ locks := by
  induction ids with
  | nil => simp [visitNext] at h
  | cons d ids ih =>
    rw [visitNext] at h
    split at h
    · rename_i hheld
      rcases List.mem_cons.mp h with heq | h
      · obtain ⟨rfl, rfl⟩ := Visit.skipped.inj heq
        exact hheld
      · exact ih h
    · simp at h

theorem visitNext_loading (now : Timestamp) (held ids : List Uuid) {t : Timestamp} {c : Uuid} {rest : List Uuid}
    {phase : RunOne} (h : (visitNext now held ids).2 = .runOne t c rest phase) : phase = .loading := by
  induction ids with
  | nil => cases h
  | cons d ids ih =>
    rw [visitNext] at h
    split at h
    · exact ih h
    · cases h
      rfl

theorem visitNext_listed (now : Timestamp) (held ids : List Uuid) : (visitNext now held ids).2 ≠ .listing := by
  induction ids with
  | nil => simp [visitNext]
  | cons d ids ih =>
    rw [visitNext]
    split
    · exact ih
    · simp

theorem goOn_inv {now : Timestamp} {rest : List Uuid} (haccount : s.visits.map Visit.connectorId ++ rest = s.listed)
    (hskips : ∀ c held, Visit.skipped c held ∈ s.visits → c ∈ held) : TickInv (s.goOn now rest) where
  account := by
    simp only [TickState.goOn, List.map_append, List.append_assoc]
    rw [visitNext_account, haccount]
  skips := by
    intro c held hmem
    rcases List.mem_append.mp hmem with hmem | hmem
    · exact hskips c held hmem
    · exact visitNext_skips now s.held rest hmem
  last := by
    intro t c rest' exc hphase
    have hloading := visitNext_loading now s.held rest hphase
    cases hloading
  unlisted := by
    intro hphase
    exact absurd hphase (visitNext_listed now s.held rest)

theorem startRun_quiet (now : Timestamp) (row : Option ScheduledRow) (exc : PyError) :
    startRun settings now row ≠ .closing (.error exc) := by
  intro h
  cases row with
  | none => cases h
  | some row =>
    simp only [startRun] at h
    split at h
    · split at h <;> cases h
    · cases h

theorem runOneStep_contained {now : Timestamp} {c : Uuid} {rows rows' : List ScheduledRow} {phase phase' : RunOne}
    (hm : RunContained c rows phase m) (h : runOneStep settings now c rows phase m = some (rows', phase'))
    (exc : PyError) : phase' ≠ .closing (.error exc) := by
  intro hexc
  subst hexc
  cases phase with
  | loading =>
    cases m with
    | answered => exact startRun_quiet now _ exc (Prod.mk.inj (Option.some.inj h)).2
    | failed e => exact hm
    | _ => cases h
  | running full row =>
    cases m with
    | suspended => cases h
    | returned syncedAt sweptAt rolledBack =>
      simp only [runOneStep] at h
      split at h <;> cases h
    | raised e =>
      have hexception : e.isException = true := hm
      simp [runOneStep, hexception] at h
    | failed e => exact hm
    | _ => cases h
  | rollingBack e =>
    cases m with
    | answered => cases h
    | failed e => exact hm
    | _ => cases h
  | recording text =>
    cases m with
    | answered =>
      have hrow : pgText text = true ∧ rowPresent c rows = true := hm
      simp [runOneStep, hrow.1, hrow.2] at h
    | failed e => exact hm
    | _ => cases h
  | clearing changed =>
    cases m with
    | answered =>
      have hrow : changed = false ∨ rowPresent c rows = true := hm
      simp only [runOneStep] at h
      split at h
      · cases h
      · rename_i hchanged
        simp [hrow.resolve_left hchanged] at h
    | failed e => exact hm
    | _ => cases h
  | closing outcome => cases m <;> cases h

theorem leave_inv {now : Timestamp} {c : Uuid} {rest : List Uuid} {outcome outcome' : Except PyError Unit} (h : TickInv s)
    (hphase : s.phase = .runOne now c rest (.closing outcome')) (hlast : ∀ exc, outcome = .error exc → rest = []) :
    TickInv (s.leave now rest outcome) := by
  have haccount := h.account
  rw [hphase, TickPhase.rest] at haccount
  cases outcome with
  | ok u => exact goOn_inv haccount h.skips
  | error exc =>
    rw [hlast exc rfl] at haccount
    constructor
    · exact haccount
    · exact h.skips
    · intro t c rest' exc' hover
      cases hover
    · intro hover
      cases hover

theorem runOneStep_inv {now : Timestamp} {c : Uuid} {rest : List Uuid} {phase phase' : RunOne} {rows' : List ScheduledRow}
    (h : TickInv s) (hphase : s.phase = .runOne now c rest phase) (hm : Contained s m)
    (hstep : runOneStep settings now c s.rows phase m = some (rows', phase')) :
    TickInv { s with rows := rows', phase := .runOne now c rest phase' } := by
  have haccount := h.account
  rw [Contained, hphase] at hm
  rw [hphase] at haccount
  constructor
  · exact haccount
  · exact h.skips
  · intro t d rest' exc hnext
    obtain ⟨rfl, rfl, rfl, rfl⟩ := TickPhase.runOne.inj hnext
    rcases hm with hrest | hcontained
    · exact hrest
    · exact absurd rfl (runOneStep_contained hcontained hstep exc)
  · intro hnext
    cases hnext

theorem nextTick_inv (s : TickState) : TickInv { s with phase := .listing, listed := [], visits := [] } := by
  constructor
  · rfl
  · intro c held hmem
    cases hmem
  · intro now c rest exc hnext
    cases hnext
  · intro _
    rfl

theorem loopStep_inv (h : TickInv s) (hm : Contained s m) (hs : loopStep settings s m = some s') : TickInv s' := by
  unfold loopStep at hs
  cases hphase : s.phase with
  | listing =>
    have haccount := h.account
    have hvisits := h.unlisted hphase
    rw [hphase] at hs haccount
    cases m with
    | ids now ids =>
      dsimp only at hs
      split at hs
      · rw [← Option.some.inj hs]
        apply goOn_inv
        · simp [hvisits]
        · simp [hvisits]
      · cases hs
    | failed exc =>
      rw [← Option.some.inj hs]
      constructor
      · exact haccount
      · exact h.skips
      · intro t c rest exc' hover
        cases hover
      · intro hover
        cases hover
    | _ => cases hs
  | runOne now c rest phase =>
    rw [hphase] at hs
    cases phase with
    | closing outcome =>
      cases m with
      | answered =>
        rw [← Option.some.inj hs]
        apply leave_inv h hphase
        intro exc hexc
        exact h.last now c rest exc (hexc ▸ hphase)
      | failed exc =>
        rw [← Option.some.inj hs]
        apply leave_inv h hphase
        intro _ _
        rw [Contained, hphase] at hm
        rcases hm with hrest | hcontained
        · exact hrest
        · exact absurd hcontained id
      | _ => cases hs
    | _ =>
      obtain ⟨next, hnext, rfl⟩ := Option.map_eq_some_iff.mp hs
      exact runOneStep_inv h hphase hm hnext
  | finished outcome =>
    rw [hphase] at hs
    cases m with
    | slept =>
      cases outcome with
      | ok u =>
        rw [← Option.some.inj hs]
        exact nextTick_inv s
      | error exc =>
        dsimp only at hs
        split at hs
        · rw [← Option.some.inj hs]
          exact nextTick_inv s
        · cases hs
    | _ => cases hs

theorem tickStep_inv (h : TickInv s) (hm : Contained s m) (hs : tickStep settings s m = some s') : TickInv s' := by
  cases m with
  | createConnector row =>
    simp only [tickStep] at hs
    split at hs
    · cases hs
    · rw [← Option.some.inj hs]
      exact h.frame rfl rfl rfl
  | updateConnector c enabled =>
    rw [← Option.some.inj hs]
    exact h.frame rfl rfl rfl
  | deleteConnector c =>
    rw [← Option.some.inj hs]
    exact h.frame rfl rfl rfl
  | lockTaken c =>
    simp only [tickStep] at hs
    split at hs
    · cases hs
    · rw [← Option.some.inj hs]
      exact h.frame rfl rfl rfl
  | lockReleased c =>
    rw [← Option.some.inj hs]
    exact h.frame rfl rfl rfl
  | _ => exact loopStep_inv h hm hs

/-- Along every run whose steps do not make a run raise before other connectors, each tick runs every connector it
lists, or skips it for its lock. -/
theorem ticks_isolated (h : Reaches (tickStep settings) Contained TickStart s) : TickIsolated s := by
  apply TickInv.isolated
  apply h.invariant TickInv
  · rintro s ⟨hphase, hlisted, hvisits⟩
    constructor
    · rw [hphase, hlisted, hvisits]
      rfl
    · rw [hvisits]
      simp
    · intro now c rest exc hnext
      rw [hphase] at hnext
      cases hnext
    · intro _
      exact hvisits
  · intro s m s' hinv hm hs
    exact tickStep_inv hinv hm hs

def newRow (c : Uuid) : ScheduledRow := ⟨⟨⟨c, "default", none, none⟩, true⟩, none⟩

/-- Two new connectors, and a manual sync of a third. -/
def twoConnectors : TickState := ⟨[newRow 1, newRow 2, newRow 3], [3], .listing, [], []⟩

/-- The first run fails and is recorded, the second goes through, the third connector is skipped. -/
def failureRecorded : List TickMove :=
  [.ids 100 [1, 2, 3], .answered, .raised ⟨"ClientError", "NoSuchBucket"⟩, .answered, .answered, .answered,
    .answered, .suspended, .returned 110 110 false, .answered, .answered]

theorem ticks_isolated_recorded : ∃ s, runSteps (tickStep {}) twoConnectors failureRecorded = some s ∧
    s.phase = .finished (.ok ()) ∧ s.visits = [.ran 1, .ran 2, .skipped 3 [3]] ∧ TickIsolated s := by
  have hguard : Guarded (tickStep {}) Contained twoConnectors failureRecorded := by decide
  obtain ⟨s, hrun⟩ : ∃ s, runSteps (tickStep {}) twoConnectors failureRecorded = some s := ⟨_, rfl⟩
  have hreached : Reaches (tickStep {}) Contained TickStart s :=
    (Reaches.start ⟨rfl, rfl, rfl⟩).runSteps hguard hrun
  have hisolated := ticks_isolated hreached
  cases hrun
  exact ⟨_, rfl, rfl, rfl, hisolated⟩

/-- The first connector is deleted while its run is in progress: recording the failure raises, and the second
connector is not run in this tick. -/
def deletedMeanwhile : List TickMove :=
  [.ids 100 [1, 2, 3], .answered, .deleteConnector 1, .raised ⟨"ClientError", "NoSuchBucket"⟩, .answered, .answered,
    .answered]

theorem deletion_stops_tick : ∃ s, Reaches (tickStep {}) unguarded TickStart s ∧ ¬ TickIsolated s := by
  obtain ⟨s, hrun⟩ : ∃ s, runSteps (tickStep {}) twoConnectors deletedMeanwhile = some s := ⟨_, rfl⟩
  refine ⟨s, reaches_of_runSteps ⟨rfl, rfl, rfl⟩ hrun, ?_⟩
  cases hrun
  intro h
  have hvisited := h.whole _ rfl
  cases hvisited

/-! The runs of the ticks are those of the scheduler that shares its locks with the manual syncs. -/

def RunOne.erase : RunOne → RunPhase
  | loading => .loading
  | running full _ => .running full
  | rollingBack _ => .rollingBack
  | recording _ => .committing
  | clearing _ => .committing
  | closing outcome => .closing outcome

theorem startRun_erases (now : Timestamp) (row : Option ScheduledRow) :
    (startRun settings now row).erase = runLoaded settings now (row.map ScheduledRow.toConnectorRow) := by
  cases row with
  | none => rfl
  | some row =>
    simp only [startRun, runLoaded, Option.map_some]
    split
    · split <;> simp [RunOne.erase, *]
    · rfl

/-- Every step of a run that reads and writes rows is a step of the scheduler. -/
theorem runOneStep_erases {now : Timestamp} {c : Uuid} {rows rows' : List ScheduledRow} {phase phase' : RunOne}
    (h : runOneStep settings now c rows phase m = some (rows', phase')) :
    ∃ move, runStep settings now phase.erase move = some phase'.erase := by
  cases phase with
  | loading =>
    cases m with
    | answered =>
      rw [← (Prod.mk.inj (Option.some.inj h)).2]
      exact ⟨.row _, congrArg some (startRun_erases now _).symm⟩
    | failed e =>
      rw [← (Prod.mk.inj (Option.some.inj h)).2]
      exact ⟨.raised e, rfl⟩
    | _ => cases h
  | running full row =>
    cases m with
    | suspended =>
      rw [← (Prod.mk.inj (Option.some.inj h)).2]
      exact ⟨.resumed, rfl⟩
    | returned syncedAt sweptAt rolledBack =>
      simp only [runOneStep] at h
      split at h
      · rw [← (Prod.mk.inj (Option.some.inj h)).2]
        exact ⟨.returned {}, rfl⟩
      · rw [← (Prod.mk.inj (Option.some.inj h)).2]
        refine ⟨.raised (connectorGone rolledBack), ?_⟩
        cases rolledBack <;> rfl
    | raised e =>
      rw [← (Prod.mk.inj (Option.some.inj h)).2]
      refine ⟨.raised e, ?_⟩
      simp only [RunOne.erase, runStep]
      split <;> rfl
    | _ => cases h
  | rollingBack e =>
    cases m with
    | answered =>
      rw [← (Prod.mk.inj (Option.some.inj h)).2]
      exact ⟨.resumed, rfl⟩
    | failed e =>
      rw [← (Prod.mk.inj (Option.some.inj h)).2]
      exact ⟨.raised e, rfl⟩
    | _ => cases h
  | closing outcome => cases m <;> cases h
  | _ =>
    have hcommit : ∃ outcome, phase' = .closing outcome := by
      cases m with
      | answered =>
        simp only [runOneStep] at h
        split at h
        · exact ⟨_, (Prod.mk.inj (Option.some.inj h)).2.symm⟩
        · split at h <;> exact ⟨_, (Prod.mk.inj (Option.some.inj h)).2.symm⟩
      | failed e => exact ⟨_, (Prod.mk.inj (Option.some.inj h)).2.symm⟩
      | _ => cases h
    obtain ⟨outcome, rfl⟩ := hcommit
    cases outcome with
    | ok u => exact ⟨.resumed, rfl⟩
    | error exc => exact ⟨.raised exc, rfl⟩

end ProRag
