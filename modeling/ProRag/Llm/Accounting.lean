import ProRag.Llm.Durable

/-!
# Usage is accounted for

The costs of an ingest, and with them the exact condition for each of the five endpoints.
-/

namespace ProRag

open Framework

section

variable {settings : Settings} {completionCost : CompletionCost}

theorem recordFailure_spec (env : IngestEnv) (u : Uow Usage RequestEvent) : ∃ staged,
    (recordFailure settings completionCost env u).2 =
      ⟨u.committed ++ (if env.records then (env.recordEvents settings).flatMap (usageRows settings completionCost) else []),
        staged, u.log ++ lateEvents settings (env.stragglers .rollingBack) ++ env.recordEvents settings⟩ := by
  let rechecking := lateEvents settings (env.stragglers .rechecking)
  let v : Uow Usage RequestEvent := ⟨u.committed, rechecking.flatMap (usageRows settings completionCost),
    u.log ++ lateEvents settings (env.stragglers .rollingBack) ++ rechecking⟩
  unfold recordFailure
  rw [Tx.bind_apply, late_stages]
  simp only [Tx.bind_apply, Tx.rollback]
  rw [late_stages]
  generalize hrechecked : Uow.stage _ (lateEvents settings (env.stragglers .rechecking)) _ = w
  obtain rfl : v = w := hrechecked
  unfold IngestEnv.records IngestEnv.recordEvents
  cases env.recheck with
  | error e => exact ⟨v.staged, by simp [Tx.await, v, rechecking]⟩
  | ok row =>
    cases row with
    | none => exact ⟨v.staged, by simp [Tx.await, v, rechecking]⟩
    | some id =>
      simp only [Tx.await]
      rw [Tx.bind_apply, late_stages]
      simp only [Tx.bind_apply]
      cases env.failureCommit with
      | durable =>
        refine ⟨[], ?_⟩
        simp [Tx.commit, CommitOutcome.lands, CommitOutcome.answer, Uow.flush, Uow.stage, v, rechecking, pure]
      | unacknowledged e =>
        refine ⟨[], ?_⟩
        simp [Tx.commit, CommitOutcome.lands, CommitOutcome.answer, Uow.flush, Uow.stage, v, rechecking]
      | raised e =>
        refine ⟨v.staged ++ (lateEvents settings (env.stragglers .recording)).flatMap (usageRows settings completionCost), ?_⟩
        simp [Tx.commit, CommitOutcome.lands, CommitOutcome.answer, Uow.stage, v, rechecking]

theorem tryIngest_spec (env : IngestEnv) (committed : List Usage) (before : List RequestEvent) : ∃ r staged,
    (embedAndStore settings completionCost env >>= fun _ => commitIngest env) ⟨committed, [], before⟩ =
      (r, ⟨committed ++ (if env.commits settings then (env.storeEvents settings).flatMap (usageRows settings completionCost)
        else []), staged, before ++ env.storeEvents settings⟩) ∧
    ∀ e, r = .error e ↔ (env.stored settings >>= fun _ => if env.aborted then .ok () else env.commit.answer) = .error e := by
  let rows := (env.storeEvents settings).flatMap (usageRows settings completionCost)
  rw [Tx.bind_apply, embedAndStore_stages]
  unfold IngestEnv.commits
  cases env.stored settings with
  | error e =>
    refine ⟨.error e, rows, ?_, fun e' => ?_⟩
    · rw [show (Except.isOk (.error e : Except PyError Unit) && !env.aborted && env.commit.lands) = false from rfl]
      simp [Uow.stage, rows]
    · show _ ↔ (Except.error e : Except PyError Unit) = .error e'
      rw [Except.error.injEq, Except.error.injEq]
  | ok _ =>
    unfold commitIngest
    cases env.aborted with
    | true =>
      refine ⟨.ok ⟨env.docId, .ready, none⟩, [], ?_, fun e' => ?_⟩
      · show (_, (⟨committed, [], before ++ env.storeEvents settings⟩ : Uow Usage RequestEvent)) = _
        simp [Except.isOk, Except.toBool]
      · refine ⟨fun h => ?_, fun h => ?_⟩
        · cases h
        · cases h
    | false =>
      cases env.commit with
      | durable =>
        refine ⟨.ok ⟨env.docId, .ready, none⟩, [], rfl, fun e' => ⟨fun h => ?_, fun h => ?_⟩⟩
        · cases h
        · cases h
      | unacknowledged e =>
        refine ⟨.error e, [], rfl, fun e' => ?_⟩
        show _ ↔ (Except.error e : Except PyError Unit) = .error e'
        rw [Except.error.injEq, Except.error.injEq]
      | raised e =>
        refine ⟨.error e, rows, ?_, fun e' => ?_⟩
        · show (_, (⟨committed, rows, before ++ env.storeEvents settings⟩ : Uow Usage RequestEvent)) = _
          simp [Except.isOk, Except.toBool, CommitOutcome.lands]
        · show _ ↔ (Except.error e : Except PyError Unit) = .error e'
          rw [Except.error.injEq, Except.error.injEq]

theorem exception_eq_some {env : IngestEnv} {exc : PyError} : env.exception settings = some exc ↔
    (env.stored settings >>= fun _ => if env.aborted then .ok () else env.commit.answer) = .error exc ∧
      exc.isException = true := by
  unfold IngestEnv.exception
  cases (env.stored settings >>= fun _ => if env.aborted then .ok () else env.commit.answer) with
  | ok a => simp
  | error e =>
    by_cases hcaught : e.isException = true
    · simp only [hcaught, ↓reduceIte, Option.some.injEq, Except.error.injEq]
      constructor
      · rintro rfl
        exact ⟨rfl, hcaught⟩
      · exact And.left
    · simp only [hcaught]
      constructor
      · intro h
        cases h
      · rintro ⟨h, hexc⟩
        cases h
        exact absurd hexc hcaught

theorem storeAndRecord_spec (env : IngestEnv) (committed : List Usage) (before : List RequestEvent) : ∃ staged,
    (Tx.ensuring
      (Tx.tryCatch PyError.isException
        (embedAndStore settings completionCost env >>= fun _ => commitIngest env)
        fun _ => recordFailure settings completionCost env)
      (late settings completionCost (env.stragglers .closing)) ⟨committed, [], before⟩).2 =
    if (env.exception settings).isSome then
      ⟨committed ++ (if env.commits settings then (env.storeEvents settings).flatMap (usageRows settings completionCost)
          else []) ++
        (if env.records then (env.recordEvents settings).flatMap (usageRows settings completionCost) else []), staged,
        before ++ env.storeEvents settings ++ lateEvents settings (env.stragglers .rollingBack) ++
          env.recordEvents settings ++ lateEvents settings (env.stragglers .closing)⟩
    else
      ⟨committed ++ (if env.commits settings then (env.storeEvents settings).flatMap (usageRows settings completionCost)
          else []), staged,
        before ++ env.storeEvents settings ++ lateEvents settings (env.stragglers .closing)⟩ := by
  obtain ⟨r, staged, htry, hraised⟩ := @tryIngest_spec settings completionCost env committed before
  generalize hu : (⟨committed ++ (if env.commits settings then
    (env.storeEvents settings).flatMap (usageRows settings completionCost) else []), staged,
      before ++ env.storeEvents settings⟩ : Uow Usage RequestEvent) = u at htry
  have hclose : ∀ v : Uow Usage RequestEvent, (late settings completionCost (env.stragglers .closing) v).2 =
      v.stage (usageRows settings completionCost) (lateEvents settings (env.stragglers .closing)) := by
    intro v
    rw [late_stages]
  unfold Tx.ensuring Tx.tryCatch
  rw [htry]
  cases hexc : env.exception settings with
  | none =>
    have hbody : ∀ e, r = .error e → e.isException = false := by
      intro e he
      by_contra hcaught
      rw [exception_eq_some.mpr ⟨(hraised e).mp he, by simpa using hcaught⟩] at hexc
      cases hexc
    refine ⟨u.staged ++ (lateEvents settings (env.stragglers .closing)).flatMap (usageRows settings completionCost), ?_⟩
    cases r with
    | ok a =>
      simp only [hclose, ← hu]
      rfl
    | error e =>
      simp only [hbody e rfl, Bool.false_eq_true, ↓reduceIte, hclose, ← hu]
      rfl
  | some e =>
    obtain ⟨houtcome, hcaught⟩ := exception_eq_some.mp hexc
    obtain rfl := (hraised e).mpr houtcome
    obtain ⟨staged', hrecord⟩ := @recordFailure_spec settings completionCost env u
    refine ⟨staged' ++ (lateEvents settings (env.stragglers .closing)).flatMap (usageRows settings completionCost), ?_⟩
    simp only [hcaught, ↓reduceIte, hclose, hrecord, Option.isSome_some]
    rw [← hu]
    rfl

/-- From its `try` on, an ingest keeps the rows of three stretches, each whole or not at all. -/
theorem storeAndRecord_settles (env : IngestEnv) :
    Settles (usageRows settings completionCost)
      (Tx.ensuring
        (Tx.tryCatch PyError.isException
          (embedAndStore settings completionCost env >>= fun _ => commitIngest env)
          fun _ => recordFailure settings completionCost env)
        (late settings completionCost (env.stragglers .closing)))
      ((tracked (env.storeEvents settings) = [] ∨ env.commits settings = true) ∧
        ((env.exception settings).isSome = true → tracked (lateEvents settings (env.stragglers .rollingBack)) = [] ∧
          (tracked (env.recordEvents settings) = [] ∨ env.records = true)) ∧
        tracked (lateEvents settings (env.stragglers .closing)) = []) := by
  intro committed before
  let rows := usageRows settings completionCost
  let stored := if env.commits settings then (env.storeEvents settings).flatMap rows else []
  let recorded := if env.records then (env.recordEvents settings).flatMap rows else []
  let back := lateEvents settings (env.stragglers .rollingBack)
  let closing := lateEvents settings (env.stragglers .closing)
  have hstored : stored.Sublist ((env.storeEvents settings).flatMap rows) := kept_sublist _ _
  have hrecorded : recorded.Sublist ((env.recordEvents settings).flatMap rows) := kept_sublist _ _
  obtain ⟨staged, hrun⟩ := @storeAndRecord_spec settings completionCost env committed before
  rw [hrun]
  by_cases hexc : (env.exception settings).isSome = true
  · rw [if_pos hexc]
    refine ⟨stored ++ ([] ++ (recorded ++ [])),
      env.storeEvents settings ++ (back ++ (env.recordEvents settings ++ closing)), Or.inl ?_, ?_, ?_⟩
    · rw [List.flatMap_append, List.flatMap_append, List.flatMap_append]
      exact hstored.append ((List.nil_sublist _).append (hrecorded.append (List.nil_sublist _)))
    · simp [stored, back, closing, recorded, rows]
    · rw [List.flatMap_append, List.flatMap_append, List.flatMap_append,
        append_eq_iff_of_sublist hstored ((List.nil_sublist _).append (hrecorded.append (List.nil_sublist _))),
        append_eq_iff_of_sublist (List.nil_sublist _) (hrecorded.append (List.nil_sublist _)),
        append_eq_iff_of_sublist hrecorded (List.nil_sublist _), kept_eq_iff, kept_eq_iff, rows_eq_nil, rows_eq_nil,
        eq_comm (a := []), rows_eq_nil, eq_comm (a := []), rows_eq_nil]
      simp [back, closing, hexc]
      tauto
  · rw [if_neg hexc]
    refine ⟨stored ++ [], env.storeEvents settings ++ closing, Or.inl ?_, ?_, ?_⟩
    · rw [List.flatMap_append]
      exact hstored.append (List.nil_sublist _)
    · simp [stored, closing, rows]
    · rw [List.flatMap_append, append_eq_iff_of_sublist hstored (List.nil_sublist _), kept_eq_iff, rows_eq_nil,
        eq_comm (a := []), rows_eq_nil]
      simp [closing, hexc]

theorem ingest_settles (env : IngestEnv) :
    Settles (usageRows settings completionCost) (ingestUpload settings completionCost env) (env.Durable settings) := by
  let durable (answered : Option IngestResponse) : Prop :=
    answered = none → ((tracked (env.storeEvents settings) = [] ∨ env.commits settings = true) ∧
      ((env.exception settings).isSome = true → tracked (lateEvents settings (env.stragglers .rollingBack)) = [] ∧
        (tracked (env.recordEvents settings) = [] ∨ env.records = true)) ∧
      tracked (lateEvents settings (env.stragglers .closing)) = [])
  refine (@Settles.await_bind _ _ _ _ _ _ _ _ durable fun answered => ?_).congr ?_
  · cases answered with
    | none => exact (storeAndRecord_settles env).congr ⟨fun h _ => h, fun h => h rfl⟩
    | some resp =>
      refine (Settles.pure resp).congr ⟨fun _ h => ?_, fun _ => trivial⟩
      cases h
  unfold IngestEnv.Durable
  constructor
  · intro h hnone
    exact h none hnone rfl
  · intro h answered hans hnone
    exact h (hnone ▸ hans)

end

/-- However a request ends, the committed table gains exactly the rows of its completions just when the
request meets the condition of its endpoint. -/
theorem usage_accounted_iff (settings : Settings) (completionCost : CompletionCost) (usage : List Usage)
    (req : LlmRequest) :
    Accounted (usageRows settings completionCost) usage (req.run settings completionCost usage) ↔ req.Durable settings := by
  cases req with
  | chat env req user => exact (chat_settles env req user).accounted_iff usage
  | chatStream env req user => exact (chatStream_settles env req user).accounted_iff usage
  | search env q k user => exact (search_settles env q k user).accounted_iff usage
  | previewRule env => exact (previewRule_settles env).accounted_iff usage
  | ingest env => exact (ingest_settles env).accounted_iff usage

/-- The providers answer, and the database is empty. -/
def answeredSearch : QueryEnv where
  planner := .ok ⟨some (20, 5), .ok none⟩
  json := ⟨fun _ => .error ⟨"JSONDecodeError", ""⟩, fun _ => ""⟩
  embed := .ok ⟨some (8, 0), .ok [[1, 0], [1, 0]]⟩
  database := .ok (⟨fun _ _ => 1, true, fun _ _ => none, fun _ => none, fun _ _ => none, fun _ _ => false⟩, Db.empty)
  rerankApi := fun _ _ => none
  normalizeTitle := id
  reranking := .ok ()

/-- A search returns two completions and leaves no row. -/
theorem search_loses_cost :
    ¬ Accounted (usageRows {} fun _ _ _ => .ok none) []
      ((LlmRequest.search answeredSearch "totals" 5 none).run {} (fun _ _ _ => .ok none) []) := by
  have hcalls : tracked (answeredSearch.events {} "totals" none) ≠ [] := List.cons_ne_nil _ _
  intro hacc
  exact hcalls (((search_settles answeredSearch "totals" 5 none).accounted_iff []).mp hacc)

end ProRag
