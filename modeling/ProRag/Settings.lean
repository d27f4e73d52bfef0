import Mathlib.Data.Rat.Defs

/-!
# Settings

The tunables the modelled code reads, with their defaults.  Floats are rationals.
-/

namespace ProRag

structure Settings where
  embedModel : String := "text-embedding-3-small"
  embedDim : Nat := 1536
  embedBatchSize : Nat := 64
  answerModel : String := "gpt-4o-mini"
  plannerModel : String := "gpt-4o-mini"
  prefillEnabled : Bool := true
  prefillModel : String := "openrouter/google/gemma-4-26b-a4b-it:free"
  maxUploadBytes : Nat := 100 * 1024 * 1024
  maxChunksPerDocument : Nat := 20000
  chunkTargetTokens : Nat := 700
  chunkOverlapTokens : Nat := 100
  searchTopK : Nat := 5
  rerankEnabled : Bool := true
  rerankFlatSpread : ℚ := 3 / 100
  rerankTopN : Nat := 40
  cropMinDocs : Nat := 3
  cropMaxDocs : Nat := 12
  cropMaxChunksPerDoc : Nat := 3
  cropScoreFloor : ℚ := 2 / 100
  cropTokenBudget : Nat := 6000
  structuredWeight : ℚ := 12 / 10
  authEnabled : Bool := false
  sessionTtlDays : Nat := 7
  oidcIssuer : Option String := none
  dailyCostCapUsd : ℚ := 5
  userDailyCapUsd : ℚ := 1
  userHardCapMultiplier : ℚ := 2
  connectorPollSeconds : Nat := 900
  connectorSweepHours : Nat := 24
  fallbackPricePer1kUsd : ℚ := 2 / 1000
  ruleSimilarityFloor : ℚ := 35 / 100

end ProRag
